import RenderForest.Proofs.Markup.RereadTags
/-!
# RereadTrees — cleaned trees, read as XML again

Texts that stand side by side in what is written are read as one, comments and dangerous elements
are gone, and an element takes its namespace from the one at the top.  This file defines:

* `Xml.Tree.IsDistinct`, that no element of what is written repeats the name of an attribute;
* `Vector.rereadFrom`, the trees that are read where trees were written;

and shows in `trees?_writeTrees` that written trees are well formed exactly when their names are
distinct.
-/

namespace RenderForest

/-! ## Distinct names -/

mutual

/-- No element that is written repeats the name of an attribute. -/
def Xml.Tree.IsDistinct : Xml.Tree → Prop
  | .text _ => True
  | .remark => True
  | .element _ name attrs children =>
    Safety.isDangerousElement name = true ∨
      Vector.HasDistinctNames attrs ∧ Xml.AreDistinct children

def Xml.AreDistinct : List Xml.Tree → Prop
  | [] => True
  | t :: rest => t.IsDistinct ∧ Xml.AreDistinct rest

end

namespace Xml

mutual

instance decidableIsDistinct : ∀ t : Tree, Decidable t.IsDistinct
  | .text _ => .isTrue trivial
  | .remark => .isTrue trivial
  | .element _ name attrs children =>
    haveI := decidableAreDistinct children
    inferInstanceAs (Decidable (Safety.isDangerousElement name = true ∨
      Vector.HasDistinctNames attrs ∧ AreDistinct children))

instance decidableAreDistinct : ∀ ts : List Tree, Decidable (AreDistinct ts)
  | [] => .isTrue trivial
  | t :: rest =>
    haveI := decidableIsDistinct t
    haveI := decidableAreDistinct rest
    inferInstanceAs (Decidable (t.IsDistinct ∧ AreDistinct rest))

end

/-! ## One step -/

variable {fuel : Nat} {scope : Scope} {name : String} {done : List Tree}

theorem length_escapeChars_pos {s : String} (hs : s ≠ "") :
    0 < (Text.escapeChars s.toList).length := by
  rw [List.length_pos_iff]
  exact fun h => hs (String.toList_eq_nil_iff.1 (Text.escapeChars_eq_nil_iff.1 h))

/-- A text ends in front of the next tag. -/
theorem readContent?_text {s : String} (hne : s ≠ "") (hs : ∀ c ∈ s.toList, isXmlChar c = true)
    (u : List Char) :
    readContent? (fuel + 1) scope done (Text.escapeChars s.toList ++ '<' :: u) =
      readContent? fuel scope (.text (rereadText s) :: done) ('<' :: u) := by
  have hplain : ∀ c ∈ Text.escapeChars s.toList, c ≠ '<' :=
    fun c hc => Text.ne_of_mem_escapeChars (Or.inl rfl) hc
  have hread := textOf?_escape hs
  cases htext : Text.escapeChars s.toList with
  | nil => exact absurd (length_escapeChars_pos hne) (by simp [htext])
  | cons c v =>
      rw [htext] at hplain hread
      rcases List.forall_mem_cons.1 hplain with ⟨hc, hv⟩
      have hv' : ∀ d ∈ v, (d != '<') = true := fun d hd => by simpa using hv d hd
      have htake : (v ++ '<' :: u).takeWhile (· != '<') = v := by
        rw [List.takeWhile_append_of_pos hv', List.takeWhile_cons_of_neg (by simp),
          List.append_nil]
      have hdrop : (v ++ '<' :: u).dropWhile (· != '<') = '<' :: u := by
        rw [List.dropWhile_append_of_pos hv', List.dropWhile_cons_of_neg (by simp)]
      rw [List.cons_append, readContent?, htake, hdrop, hread]
      · simp only [String.ofList_toList]
      -- Whatever else may stand in content begins with a less-than sign.
      all_goals
        intros
        exact hc ‹c = '<'›

theorem readContent?_stop (hname : IsLocalName name) (rest : List Char) :
    readContent? (fuel + 1) scope done ('<' :: '/' :: (name.toList ++ '>' :: rest)) =
      some (done.reverse, ⟨"", name⟩, rest) := by
  have hread := hname.isQName.readQName? (by decide : isNameChar '>' = false) rest
  have hstop : readEndTag? (name.toList ++ '>' :: rest) = some (⟨"", name⟩, rest) := by
    rw [readEndTag?, hread]
    simp only [skipSpace_cons (by decide : isSpace '>' = false)]
  unfold readContent?
  exact congrArg (Option.map _) hstop

theorem readContent?_element (hname : IsLocalName name) (u : List Char) :
    readContent? (fuel + 1) scope done ('<' :: (name.toList ++ u)) =
      (readElement? fuel scope (name.toList ++ u)).bind fun x =>
        readContent? fuel scope (x.1 :: done) x.2 := by
  rcases hname.isQName.exists_cons with ⟨c, v, htext, hc⟩
  have hne : ∀ d : Char, isNameChar d = false → c ≠ d := by
    rintro d hd rfl
    rw [hc] at hd
    cases hd
  rw [htext, List.cons_append]
  -- The name begins neither a comment, a section or an instruction, nor an end tag.
  rw [readContent?]
  · cases readElement? fuel scope (c :: (v ++ u)) <;> rfl
  · exact fun _ heq => hne '!' (by decide) (List.cons.inj heq).1
  · exact fun _ heq => hne '!' (by decide) (List.cons.inj heq).1
  · exact fun _ heq => hne '?' (by decide) (List.cons.inj heq).1
  · exact fun _ heq => hne '/' (by decide) (List.cons.inj heq).1

/-- What stands behind the attributes of a start tag: the end of an empty element, or content that
is read as far as an end tag or refused. -/
inductive IsBody (fuel : Nat) (scope : Scope) (name : String) :
    List Char → Option (List Tree × List Char) → Prop where
  | empty (rest : List Char) : IsBody fuel scope name ('/' :: '>' :: rest) (some ([], rest))
  | content {inside : List Char} {r : Option (List Tree × List Char)}
      (h : readContent? fuel scope [] inside = r.map fun x => (x.1, ⟨"", name⟩, x.2)) :
      IsBody fuel scope name ('>' :: inside) r

variable {body : List Char} {r : Option (List Tree × List Char)}

theorem IsBody.exists_isTagEnd (h : IsBody fuel scope name body r) :
    ∃ closed rest, IsTagEnd body closed rest := by
  cases h with
  | empty rest => exact ⟨true, rest, .empty rest⟩
  | content => exact ⟨false, _, .content _⟩

/-- The attributes of a written start tag are read before anything is resolved. -/
theorem readElement?_written (hname : IsLocalName name) {l : List (String × String)}
    {raw : List RawAttr} (hl : List.Forall₂ IsReread l raw) {closed : Bool} {rest : List Char}
    (hend : IsTagEnd body closed rest) :
    readElement? (fuel + 1) scope (name.toList ++ (Markup.attrChars l ++ body)) =
      (resolve? scope ⟨"", name⟩ raw).bind fun start =>
        if closed then some (.element start.space name start.attrs [], rest)
        else
          match readContent? fuel start.scope [] rest with
          | some (children, stop, rest) =>
            if stop == ⟨"", name⟩ then
              some (.element start.space name start.attrs children, rest)
            else none
          | none => none := by
  have hhead : ∃ c s, Markup.attrChars l ++ body = c :: s ∧ isNameChar c = false := by
    cases l with
    | nil => cases hend <;> exact ⟨_, _, rfl, by decide⟩
    | cons a l =>
        rw [Markup.attrChars_cons]
        exact ⟨_, _, rfl, by decide⟩
  rcases hhead with ⟨c, s, hcons, hc⟩
  have hread := hname.isQName.readQName? hc s
  rw [← hcons] at hread
  have hfuel : l.length < (Markup.attrChars l ++ body).length + 1 := by
    have hlength := Markup.length_le_attrChars l
    rw [List.length_append]
    omega
  unfold readElement?
  rw [hread]
  simp only [Markup.readAttrs?_attrChars hl hend hfuel, List.reverse_nil, List.nil_append]
  cases resolve? scope ⟨"", name⟩ raw <;> rfl

/-- An element is read exactly when its start tag is resolved and its content is read. -/
theorem readElement?_start (hname : IsLocalName name) {l : List (String × String)}
    {raw : List RawAttr} (hl : List.Forall₂ IsReread l raw) {start : StartTag}
    (hstart : resolve? scope ⟨"", name⟩ raw = some start)
    (hbody : IsBody fuel start.scope name body r) :
    readElement? (fuel + 1) scope (name.toList ++ (Markup.attrChars l ++ body)) =
      r.map fun x => (.element start.space name start.attrs x.1, x.2) := by
  rcases hbody.exists_isTagEnd with ⟨closed, rest, hend⟩
  rw [readElement?_written hname hl hend, hstart, Option.bind_some]
  cases hbody with
  | empty =>
      cases hend
      rfl
  | content h =>
      cases hend
      rw [if_neg (by decide), h]
      cases r with
      | none => rfl
      | some x => simp only [Option.map_some, beq_self_eq_true, if_true]

theorem readElement?_refused (hname : IsLocalName name) {l : List (String × String)}
    {raw : List RawAttr} (hl : List.Forall₂ IsReread l raw)
    (hstart : resolve? scope ⟨"", name⟩ raw = none) {closed : Bool} {rest : List Char}
    (hend : IsTagEnd body closed rest) :
    readElement? (fuel + 1) scope (name.toList ++ (Markup.attrChars l ++ body)) = none := by
  rw [readElement?_written hname hl hend, hstart, Option.bind_none]

end Xml

/-! ## Trees that are read again -/

namespace Vector

open Xml

/-- The text that is read where texts were written side by side; none is read of nothing. -/
def textTrees (s : String) : List Tree :=
  if s.isEmpty then [] else [.text (rereadText s)]

mutual

/-- The tree that is read where one was written that is not dangerous. -/
def rereadTree (top : Bool) (outer : Option String) : Tree → Tree
  | .text s => .text (rereadText s)
  | .remark => .remark
  | .element space name attrs children =>
    .element (innerSpace top space outer) name ((attrs.filter isKept).map rereadAttr)
      (rereadFrom false (innerSpace top space outer) "" children)

/-- The trees that are read where trees were written, `seen` being the text in front of them. -/
def rereadFrom (top : Bool) (outer : Option String) (seen : String) : List Tree → List Tree
  | [] => textTrees seen
  | t :: rest =>
    match t with
    | .text s => rereadFrom top outer (seen ++ s) rest
    | .remark => rereadFrom top outer seen rest
    | .element _ name _ _ =>
      if Safety.isDangerousElement name then rereadFrom top outer seen rest
      else textTrees seen ++ rereadTree top outer t :: rereadFrom top outer "" rest

end

/-! ## Written content -/

/-- Written trees behind a written text, and the end tag behind them. -/
def contentChars (top : Bool) (seen : String) (ts : List Tree) (name : String)
    (rest : List Char) : List Char :=
  Text.escapeChars seen.toList ++
    ((writeTrees top ts).toList ++ '<' :: '/' :: (name.toList ++ '>' :: rest))

def bodyChars (name : String) (children : List Tree) (rest : List Char) : List Char :=
  if children.isEmpty then '/' :: '>' :: rest else '>' :: contentChars false "" children name rest

variable {top : Bool} {outer : Option String} {seen s name tag : String} {space : Option String}
  {attrs : List Attr} {children ts : List Tree} {rest : List Char} {scope : Scope} {fuel : Nat}

theorem contentChars_text :
    contentChars top seen (.text s :: ts) name rest =
      contentChars top (seen ++ s) ts name rest := by
  simp only [contentChars, writeTrees, writeTree, Text.escape, String.toList_append,
    String.toList_ofList, Text.escapeChars_append, List.append_assoc]

theorem contentChars_remark :
    contentChars top seen (.remark :: ts) name rest = contentChars top seen ts name rest := by
  simp only [contentChars, writeTrees, writeTree, String.toList_append, String.toList_empty,
    List.nil_append]

/-- Nothing is written of a dangerous element. -/
theorem contentChars_dangerous (htag : Safety.isDangerousElement tag = true) :
    contentChars top seen (.element space tag attrs children :: ts) name rest =
      contentChars top seen ts name rest := by
  simp only [contentChars, writeTrees, writeTree, htag, if_true, String.toList_append,
    String.toList_empty, List.nil_append]

theorem contentChars_element (htag : Safety.isDangerousElement tag = false) :
    contentChars top seen (.element space tag attrs children :: ts) name rest =
      Text.escapeChars seen.toList ++ '<' :: (tag.toList ++
        (Markup.attrChars (writtenAttrs top space attrs children) ++
          bodyChars tag children (contentChars top "" ts name rest))) := by
  simp only [contentChars, writeTrees, String.toList_append, toList_writeTree htag, bodyChars]
  split <;> simp [Text.escapeChars]

theorem length_lt_bodyChars (name : String) (children : List Tree) (rest : List Char) :
    rest.length < (bodyChars name children rest).length := by
  unfold bodyChars contentChars
  split
  · simp only [List.length_cons]
    omega
  · simp only [List.length_cons, List.length_append]
    omega

/-- Where trees were written behind a text, they are read as far as the end tag when no name of an
attribute repeats, and refused otherwise. -/
def ReadsContent (top : Bool) (outer : Option String) (seen : String) (ts : List Tree) : Prop :=
  ∀ scope : Scope, Scope.Declares scope outer → ∀ name : String, IsLocalName name →
    ∀ (rest : List Char) (fuel : Nat), (contentChars top seen ts name rest).length < fuel →
      ∀ done : List Tree, readContent? fuel scope done (contentChars top seen ts name rest) =
        if AreDistinct ts then
          some (done.reverse ++ rereadFrom top outer seen ts, ⟨"", name⟩, rest)
        else none

/-- Texts in front of a tag are read with some of the fuel. -/
theorem exists_readContent?_texts (scope : Scope)
    (hseen : ∀ c ∈ seen.toList, isXmlChar c = true) (u : List Char)
    (hfuel : (Text.escapeChars seen.toList ++ '<' :: u).length < fuel) (done : List Tree) :
    ∃ left, ('<' :: u).length < left ∧
      readContent? fuel scope done (Text.escapeChars seen.toList ++ '<' :: u) =
        readContent? left scope ((textTrees seen).reverse ++ done) ('<' :: u) := by
  by_cases hempty : seen = ""
  · subst hempty
    exact ⟨fuel, hfuel, rfl⟩
  · have hpos := length_escapeChars_pos hempty
    rw [List.length_append] at hfuel
    cases fuel with
    | zero => cases hfuel
    | succ left =>
        refine ⟨left, by omega, ?_⟩
        rw [readContent?_text hempty hseen, textTrees, if_neg (by simpa using hempty)]
        rfl

theorem readsContent_nil (hseen : ∀ c ∈ seen.toList, isXmlChar c = true) :
    ReadsContent top outer seen [] := by
  intro scope _ name hname rest fuel hfuel done
  have hdistinct : AreDistinct [] := trivial
  rw [contentChars, writeTrees, String.toList_empty, List.nil_append] at hfuel ⊢
  rcases exists_readContent?_texts scope hseen _ hfuel done with ⟨left, hleft, hread⟩
  cases left with
  | zero => cases hleft
  | succ left =>
      rw [hread, readContent?_stop hname, if_pos hdistinct, rereadFrom, List.reverse_append,
        List.reverse_reverse]

/-- A written element is read exactly when no name of an attribute repeats in it. -/
theorem readElement?_writtenAttrs (hscope : Scope.Declares scope outer)
    (houter : top = true → outer = none)
    (hsound : (Tree.element space tag attrs children).IsSound)
    (hchildren : ReadsContent false (innerSpace top space outer) "" children)
    (hfuel : (bodyChars tag children rest).length ≤ fuel) :
    readElement? (fuel + 1) scope (tag.toList ++
        (Markup.attrChars (writtenAttrs top space attrs children) ++
          bodyChars tag children rest)) =
      if HasDistinctNames attrs ∧ AreDistinct children then
        some (rereadTree top outer (.element space tag attrs children), rest)
      else none := by
  rcases hsound with ⟨hspace, htag, hattrs, _⟩
  have hstart := resolve?_rawAttrs hscope houter hspace hattrs tag children
  have hinner := declares_innerScope hscope houter space attrs children
  have hread := forall₂_writtenAttrs hspace hattrs top children
  have hbody : IsBody fuel (innerScope top space attrs children scope) tag
      (bodyChars tag children rest)
      (if AreDistinct children then
        some (rereadFrom false (innerSpace top space outer) "" children, rest)
      else none) := by
    cases children with
    | nil =>
        have hdistinct : AreDistinct [] := trivial
        rw [rereadFrom, if_pos hdistinct]
        exact .empty rest
    | cons child children =>
        refine .content ?_
        rw [hchildren _ hinner tag htag rest fuel hfuel []]
        split <;> rfl
  by_cases hnames : HasDistinctNames attrs
  · rw [if_pos hnames] at hstart
    rw [readElement?_start htag hread hstart hbody, rereadTree]
    by_cases hdistinct : AreDistinct children <;> simp [hnames, hdistinct]
  · rw [if_neg hnames] at hstart
    rcases hbody.exists_isTagEnd with ⟨closed, left, hend⟩
    rw [readElement?_refused htag hread hstart hend, if_neg fun h => hnames h.1]

/-- Names repeat in what is written from an element on when they do in it or behind it. -/
theorem areDistinct_element_iff (hdanger : Safety.isDangerousElement tag = false) :
    AreDistinct (.element space tag attrs children :: ts) ↔
      (HasDistinctNames attrs ∧ AreDistinct children) ∧ AreDistinct ts := by
  rw [AreDistinct, Tree.IsDistinct, hdanger]
  simp

theorem readsContent_element (houter : top = true → outer = none)
    (hseen : ∀ c ∈ seen.toList, isXmlChar c = true)
    (hdanger : Safety.isDangerousElement tag = false)
    (hsound : (Tree.element space tag attrs children).IsSound)
    (hchildren : ReadsContent false (innerSpace top space outer) "" children)
    (hrest : ReadsContent top outer "" ts) :
    ReadsContent top outer seen (.element space tag attrs children :: ts) := by
  intro scope hscope name hname rest fuel hfuel done
  have htag : IsLocalName tag := hsound.2.1
  rw [contentChars_element hdanger] at hfuel ⊢
  -- The text is read, then the element, and then what stands behind it.
  rcases exists_readContent?_texts scope hseen _ hfuel done with ⟨left, hleft, htexts⟩
  have hafter := length_lt_bodyChars tag children (contentChars top "" ts name rest)
  simp only [List.length_cons, List.length_append] at hleft
  obtain ⟨k, rfl⟩ : ∃ k, left = k + 2 := ⟨left - 2, by omega⟩
  have hbody : (bodyChars tag children (contentChars top "" ts name rest)).length ≤ k := by omega
  have helement := readElement?_writtenAttrs hscope houter hsound hchildren hbody
  have hlater := hrest scope hscope name hname rest (k + 1) (by omega)
    (rereadTree top outer (.element space tag attrs children) :: ((textTrees seen).reverse ++ done))
  rw [htexts, readContent?_element htag, helement]
  by_cases hfirst : HasDistinctNames attrs ∧ AreDistinct children
  · have hreread : rereadFrom top outer seen (.element space tag attrs children :: ts) =
        textTrees seen ++ rereadTree top outer (.element space tag attrs children) ::
          rereadFrom top outer "" ts := by
      rw [rereadFrom, if_neg (Bool.eq_false_iff.1 hdanger)]
    rw [if_pos hfirst, Option.bind_some, hlater, hreread]
    refine if_congr ?_ (by simp) rfl
    rw [areDistinct_element_iff hdanger, and_iff_right hfirst]
  · rw [if_neg hfirst, Option.bind_none, if_neg]
    exact fun h => hfirst ((areDistinct_element_iff hdanger).1 h).1

/-- Written trees are read exactly when no name of an attribute repeats. -/
theorem readsContent :
    ∀ ts : List Tree, AreSound ts → ∀ (top : Bool) (outer : Option String),
      (top = true → outer = none) → ∀ seen : String, (∀ c ∈ seen.toList, isXmlChar c = true) →
        ReadsContent top outer seen ts
  | [] => fun _ _ _ _ _ hseen => readsContent_nil hseen
  | .text s :: ts => fun hsound top outer houter seen hseen => by
    have hs : ∀ c ∈ (seen ++ s).toList, isXmlChar c = true := by
      rw [String.toList_append]
      exact List.forall_mem_append.2 ⟨hseen, hsound.1⟩
    have hread := readsContent ts hsound.2 top outer houter _ hs
    intro scope hscope name hname rest fuel hfuel done
    rw [contentChars_text] at hfuel ⊢
    rw [hread scope hscope name hname rest fuel hfuel done, rereadFrom]
    exact if_congr (and_iff_right trivial).symm rfl rfl
  | .remark :: ts => fun hsound top outer houter seen hseen => by
    have hread := readsContent ts hsound.2 top outer houter seen hseen
    intro scope hscope name hname rest fuel hfuel done
    rw [contentChars_remark] at hfuel ⊢
    rw [hread scope hscope name hname rest fuel hfuel done, rereadFrom]
    exact if_congr (and_iff_right trivial).symm rfl rfl
  | .element space tag attrs children :: ts => fun hsound top outer houter seen hseen => by
    cases htag : Safety.isDangerousElement tag with
    | true =>
        have hread := readsContent ts hsound.2 top outer houter seen hseen
        intro scope hscope name hname rest fuel hfuel done
        rw [contentChars_dangerous htag] at hfuel ⊢
        rw [hread scope hscope name hname rest fuel hfuel done, rereadFrom, if_pos htag]
        exact if_congr (and_iff_right (Or.inl htag)).symm rfl rfl
    | false =>
        have hnone : ∀ c ∈ "".toList, isXmlChar c = true := List.forall_mem_nil _
        have hchildren := readsContent children hsound.1.2.2.2 false
          (innerSpace top space outer) (fun h => by cases h) "" hnone
        have hrest := readsContent ts hsound.2 top outer houter "" hnone
        exact readsContent_element houter hseen htag hsound.1 hchildren hrest
termination_by ts => sizeOf ts

/-! ## The document -/

/-- The declaration of the element around a fragment. -/
def rootAttrs : List (String × String) :=
  [("xmlns:xlink", xlinkSpace)]

theorem wrap_eq (body : List Char) :
    wrap body = '<' :: (rootName.toList ++ (Markup.attrChars rootAttrs ++
      '>' :: (body ++ '<' :: '/' :: (rootName.toList ++ ['>'])))) := by
  have hescape : (Text.escape xlinkSpace).toList = xlinkSpace.toList := by decide
  have hnone : Markup.attrChars [] = [] := rfl
  rw [rootAttrs, Markup.attrChars_cons, hescape, hnone]
  simp [wrap]

theorem isLocalName_rootName : IsLocalName rootName :=
  ⟨by decide, List.all_eq_true.1 (by decide), by decide⟩

theorem resolve?_root :
    resolve? [] ⟨"", rootName⟩ [(⟨"xmlns", "xlink"⟩, xlinkSpace)] =
      some ⟨none, [], [("xlink", xlinkSpace)]⟩ := by
  have hown : declare? [] [(⟨"xmlns", "xlink"⟩, xlinkSpace)] = some [("xlink", xlinkSpace)] :=
    declare?_xlink rfl []
  rw [resolve?, if_neg (by simp), hown]
  rfl

theorem read?_of_readElement? {u : List Char} {t : Option Tree}
    (h : readElement? (2 * ('<' :: u).length + 2) [] u = t.map fun t => (t, [])) :
    read? ('<' :: u) = t := by
  simp only [read?, h]
  cases t <;> rfl

/-- Written trees are a well-formed fragment exactly when no name of an attribute repeats. -/
theorem trees?_writeTrees (hsound : AreSound ts) :
    trees? (writeTrees true ts).toList =
      if AreDistinct ts then some (rereadFrom true none "" ts) else none := by
  have hdeclares : Scope.Declares [("xlink", xlinkSpace)] none := ⟨rfl, rfl⟩
  have hnone : ∀ c ∈ "".toList, isXmlChar c = true := List.forall_mem_nil _
  have hspace : ∀ uri ∈ (none : Option String), IsNamespace uri := fun _ h => by cases h
  have hroot : List.Forall₂ IsReread rootAttrs [(⟨"xmlns", "xlink"⟩, xlinkSpace)] :=
    forall₂_spaceAttrs hspace true
  let inside := contentChars true "" ts rootName []
  let document := rootName.toList ++ (Markup.attrChars rootAttrs ++ '>' :: inside)
  let children := if AreDistinct ts then some (rereadFrom true none "" ts) else none
  have hwrap : wrap (writeTrees true ts).toList = '<' :: document := wrap_eq _
  have hfuel : inside.length < 2 * ('<' :: document).length + 1 := by
    simp only [document, List.length_cons, List.length_append]
    omega
  -- The element around the fragment is read like any other.
  have hinside := readsContent ts hsound true none (fun _ => rfl) "" hnone _ hdeclares
    rootName isLocalName_rootName [] _ hfuel []
  have hcontent : readContent? (2 * ('<' :: document).length + 1) [("xlink", xlinkSpace)] []
      inside = (children.map fun ts => (ts, [])).map fun x => (x.1, ⟨"", rootName⟩, x.2) := by
    rw [hinside]
    simp only [children]
    split <;> rfl
  have hread := readElement?_start isLocalName_rootName hroot resolve?_root (.content hcontent)
  have hroot' : read? ('<' :: document) = children.map (.element none rootName []) := by
    refine read?_of_readElement? (hread.trans ?_)
    rw [Option.map_map, Option.map_map]
    rfl
  rw [trees?, hwrap, hroot']
  change _ = children
  cases children <;> rfl

end Vector
end RenderForest
