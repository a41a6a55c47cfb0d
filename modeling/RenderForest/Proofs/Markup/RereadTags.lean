import Mathlib.Data.List.Forall2
import RenderForest.Proofs.Markup.Drawings
/-!
# RereadTags — cleaned start tags, read as XML again

An attribute is written under its name or under its name with one of the prefixes `xlink` and
`xml`, and all attributes of an element come behind the declarations of namespaces.  This file
defines:

* `Xml.IsQName`, that a text is read as a name with at most one prefix;
* `Xml.IsReread`, that an attribute is read where another was written;
* `Vector.rereadAttr`, the attribute that is read where an attribute was written;
* `Xml.Scope.Declares`, what a scope says of the names that are written;

and shows in `resolve?_rawAttrs` that a cleaned start tag is resolved exactly when no name of an
attribute repeats.
-/

namespace RenderForest
namespace Xml

variable {s rest : List Char} {x : Char}

/-! ## Names -/

/-- A text is read as a name with at most one prefix. -/
structure IsQName (text : String) (name : QName) : Prop where
  chars : ∀ c ∈ text.toList, isNameChar c = true
  qname : qname? text.toList = some name

theorem IsLocalName.isQName {name : String} (h : IsLocalName name) : IsQName name ⟨"", name⟩ := by
  refine ⟨h.chars, ?_⟩
  rw [qname?, Text.splitOn_of_not_mem h.plain]
  simp only [h.starts, String.ofList_toList, if_true]

theorem IsLocalName.isQName_append {space name : String} (hspace : IsLocalName space)
    (h : IsLocalName name) : IsQName (space ++ ":" ++ name) ⟨space, name⟩ := by
  have hlist : (space ++ ":" ++ name).toList = space.toList ++ ':' :: name.toList := by simp
  constructor
  · rw [hlist]
    refine List.forall_mem_append.2 ⟨hspace.chars, List.forall_mem_cons.2 ⟨by decide, h.chars⟩⟩
  · rw [hlist, qname?, Text.splitOn_append hspace.plain, Text.splitOn_of_not_mem h.plain]
    simp only [hspace.starts, h.starts, String.ofList_toList, Bool.or_true, Bool.and_self, if_true]

/-- A name ends in front of a character that may not stand in one. -/
theorem IsQName.readQName? {text : String} {name : QName} (h : IsQName text name)
    (hx : isNameChar x = false) (s : List Char) :
    readQName? (text.toList ++ x :: s) = some (name, x :: s) := by
  have htake : (x :: s).takeWhile isNameChar = [] := List.takeWhile_cons_of_neg (by simp [hx])
  have hdrop : (x :: s).dropWhile isNameChar = x :: s := List.dropWhile_cons_of_neg (by simp [hx])
  rw [Xml.readQName?, List.takeWhile_append_of_pos h.chars, List.dropWhile_append_of_pos h.chars,
    htake, hdrop, List.append_nil, h.qname]
  rfl

/-- No blank, no sign of a tag and no quote begins a name. -/
theorem IsQName.exists_cons {text : String} {name : QName} (h : IsQName text name) :
    ∃ c u, text.toList = c :: u ∧ isNameChar c = true := by
  cases htext : text.toList with
  | nil =>
      have hnone := h.qname
      rw [htext] at hnone
      cases hnone
  | cons c u => exact ⟨c, u, rfl, h.chars c (htext ▸ List.mem_cons_self ..)⟩

/-! ## Attributes -/

/-- An attribute is read where another was written. -/
structure IsReread (a : String × String) (raw : RawAttr) : Prop where
  name : IsQName a.1 raw.1
  chars : ∀ c ∈ a.2.toList, isXmlChar c = true
  value : raw.2 = rereadValue a.2

theorem skipSpace_cons (hx : isSpace x = false) (s : List Char) : skipSpace (x :: s) = x :: s :=
  List.dropWhile_cons_of_neg (by simp [hx])

theorem skipSpace_blank (s : List Char) : skipSpace (' ' :: s) = skipSpace s :=
  List.dropWhile_cons_of_pos (by decide)

theorem isSpace_of_isNameChar {c : Char} (h : isNameChar c = true) : isSpace c = false := by
  rw [Bool.eq_false_iff]
  intro hspace
  simp only [isSpace, Bool.or_eq_true, beq_iff_eq] at hspace
  rcases hspace with ((rfl | rfl) | rfl) | rfl <;> revert h <;> decide

/-- A written attribute is read with its quotes. -/
theorem IsReread.readAttr? {a : String × String} {raw : RawAttr} (h : IsReread a raw)
    (s : List Char) :
    readAttr? (a.1.toList ++
        '=' :: '\x22' :: ((Text.escape a.2).toList ++ '\x22' :: s)) = some (raw, s) := by
  -- Neither a quote nor a tag begins in an escaped value.
  have hinside : ∀ c ∈ (Text.escape a.2).toList, (c != '\x22' && c != '<') = true := by
    intro c hc
    simp [Text.ne_quote_of_mem_escape hc, Text.ne_lt_of_mem_escape hc]
  have htake : ((Text.escape a.2).toList ++ '\x22' :: s).takeWhile
      (fun c => c != '\x22' && c != '<') = (Text.escape a.2).toList := by
    rw [List.takeWhile_append_of_pos hinside, List.takeWhile_cons_of_neg (by simp),
      List.append_nil]
  have hdrop : ((Text.escape a.2).toList ++ '\x22' :: s).dropWhile
      (fun c => c != '\x22' && c != '<') = '\x22' :: s := by
    rw [List.dropWhile_append_of_pos hinside, List.dropWhile_cons_of_neg (by simp)]
  have hvalue : valueOf? (Text.escape a.2).toList = some (foldBlanks a.2.toList) := by
    rw [Text.escape, String.toList_ofList]
    exact valueOf?_escape h.chars
  have hraw : (raw.1, String.ofList (foldBlanks a.2.toList)) = raw :=
    congrArg (Prod.mk raw.1) h.value.symm
  rw [Xml.readAttr?, h.name.readQName? (by decide)]
  simp only [skipSpace_cons (by decide : isSpace '=' = false),
    skipSpace_cons (by decide : isSpace '\x22' = false), htake, hdrop, hvalue]
  exact congrArg (fun r => some (r, s)) hraw

/-- The end of a start tag; the flag tells that of an element without content. -/
inductive IsTagEnd : List Char → Bool → List Char → Prop where
  | empty (rest : List Char) : IsTagEnd ('/' :: '>' :: rest) true rest
  | content (rest : List Char) : IsTagEnd ('>' :: rest) false rest

theorem IsTagEnd.readAttrs? {closed : Bool} (h : IsTagEnd s closed rest) (fuel : Nat)
    (done : List RawAttr) :
    readAttrs? (fuel + 1) done s = some (done.reverse, closed, rest) := by
  unfold Xml.readAttrs?
  cases h with
  | empty =>
      rw [skipSpace_cons (by decide)]
      rfl
  | content =>
      rw [skipSpace_cons (by decide)]
      rfl

/-- Another attribute is read behind a blank. -/
theorem IsReread.readAttrs? {a : String × String} {raw : RawAttr} (h : IsReread a raw)
    (fuel : Nat) (done : List RawAttr) (s : List Char) :
    readAttrs? (fuel + 1) done (' ' :: (a.1.toList ++
        '=' :: '\x22' :: ((Text.escape a.2).toList ++ '\x22' :: s))) =
      readAttrs? fuel (raw :: done) s := by
  have hread := h.readAttr? s
  rcases h.name.exists_cons with ⟨c, u, htext, hc⟩
  rw [htext, List.cons_append] at hread ⊢
  have hslash : c ≠ '/' := by
    rintro rfl
    revert hc
    decide
  have hgreater : c ≠ '>' := by
    rintro rfl
    revert hc
    decide
  have hblank : (some ' ').any isSpace = true := by decide
  conv => lhs; unfold Xml.readAttrs?
  rw [skipSpace_blank, skipSpace_cons (isSpace_of_isNameChar hc)]
  split
  · rename_i heq
    exact absurd (List.cons.inj heq).1 hslash
  · rename_i heq
    exact absurd (List.cons.inj heq).1 hgreater
  · rw [List.head?_cons, if_pos hblank, hread]

end Xml

namespace Markup

open Xml

/-- The attributes of a written start tag are read one by one. -/
theorem readAttrs?_attrChars {l : List (String × String)} {raw : List RawAttr}
    (hl : List.Forall₂ IsReread l raw) {e rest : List Char} {closed : Bool}
    (he : IsTagEnd e closed rest) {fuel : Nat} (hfuel : l.length < fuel) (done : List RawAttr) :
    readAttrs? fuel done (attrChars l ++ e) = some (done.reverse ++ raw, closed, rest) := by
  induction hl generalizing fuel done with
  | nil =>
      rcases Nat.exists_eq_add_of_lt hfuel with ⟨n, rfl⟩
      rw [List.append_nil]
      exact he.readAttrs? _ done
  | @cons a b l raw ha hl ih =>
      cases fuel with
      | zero => cases hfuel
      | succ fuel =>
          have htail := ih (Nat.lt_of_succ_lt_succ hfuel) (b :: done)
          rw [attrChars_cons]
          simp only [List.cons_append, List.append_assoc]
          rw [ha.readAttrs?, htail, List.reverse_cons, List.append_assoc, List.singleton_append]

/-- Every attribute takes a character at least. -/
theorem length_le_attrChars (l : List (String × String)) : l.length ≤ (attrChars l).length := by
  induction l with
  | nil => exact Nat.le_refl 0
  | cons a l ih =>
      rw [attrChars_cons]
      simp only [List.length_cons, List.length_append]
      omega

end Markup

/-! ## What is read of a start tag -/

namespace Vector

open Xml

/-- The name that is read where the name of an attribute was written. -/
def qnameOf (a : Attr) : QName :=
  if a.space == some xlinkSpace then ⟨"xlink", a.name⟩
  else if a.space == some xmlSpace then ⟨"xml", a.name⟩
  else ⟨"", a.name⟩

/-- The attribute that is read where an attribute was written; only two namespaces have a prefix. -/
def rereadAttr (a : Attr) : Attr where
  space := if a.space == some xlinkSpace || a.space == some xmlSpace then a.space else none
  name := a.name
  value := rereadValue a.value

/-- The declarations that are read at the top. -/
def rawSpaces (space : Option String) (xlink : Bool) : List RawAttr :=
  space.toList.map (fun uri => (⟨"", "xmlns"⟩, rereadValue uri)) ++
    if xlink then [(⟨"xmlns", "xlink"⟩, xlinkSpace)] else []

/-- What is read where the attributes of an element were written. -/
def rawAttrs (top : Bool) (space : Option String) (attrs : List Attr) (children : List Tree) :
    List RawAttr :=
  (if top then
    rawSpaces space (attrs.any (fun a => a.space == some xlinkSpace) || anyUsesXlink children)
    else []) ++ (attrs.filter isKept).map fun a => (qnameOf a, rereadValue a.value)

theorem isLocalName_xlink : IsLocalName "xlink" :=
  ⟨by decide, List.all_eq_true.1 (by decide), by decide⟩

theorem isLocalName_xml : IsLocalName "xml" :=
  ⟨by decide, List.all_eq_true.1 (by decide), by decide⟩

theorem isLocalName_xmlns : IsLocalName "xmlns" :=
  ⟨by decide, List.all_eq_true.1 (by decide), by decide⟩

theorem isQName_qualifiedName {a : Attr} (ha : a.IsSound) :
    IsQName (qualifiedName a) (qnameOf a) := by
  unfold qualifiedName qnameOf
  split
  · exact isLocalName_xlink.isQName_append ha.name
  · split
    · exact isLocalName_xml.isQName_append ha.name
    · exact ha.name.isQName

theorem rereadValue_xlinkSpace : rereadValue xlinkSpace = xlinkSpace := by decide

theorem forall₂_spaceAttrs {space : Option String} (hspace : ∀ uri ∈ space, IsNamespace uri)
    (xlink : Bool) : List.Forall₂ IsReread (spaceAttrs space xlink) (rawSpaces space xlink) := by
  have hxlink : List.Forall₂ IsReread (if xlink then [("xmlns:xlink", xlinkSpace)] else [])
      (if xlink then [(⟨"xmlns", "xlink"⟩, xlinkSpace)] else []) := by
    cases xlink with
    | false => exact .nil
    | true =>
        have hname := isLocalName_xmlns.isQName_append isLocalName_xlink
        have hchars : ∀ c ∈ xlinkSpace.toList, isXmlChar c = true :=
          List.all_eq_true.1 (by decide)
        exact .cons ⟨hname, hchars, rereadValue_xlinkSpace.symm⟩ .nil
  cases space with
  | none => exact hxlink
  | some uri => exact .cons ⟨isLocalName_xmlns.isQName, (hspace uri rfl).chars, rfl⟩ hxlink

theorem forall₂_writtenAttrs {space : Option String} {attrs : List Attr}
    (hspace : ∀ uri ∈ space, IsNamespace uri) (hattrs : ∀ a ∈ attrs, a.IsSound) (top : Bool)
    (children : List Tree) :
    List.Forall₂ IsReread (writtenAttrs top space attrs children)
      (rawAttrs top space attrs children) := by
  have hkept : List.Forall₂ IsReread (keptAttrs attrs)
      ((attrs.filter isKept).map fun a => (qnameOf a, rereadValue a.value)) := by
    rw [keptAttrs, List.forall₂_map_left_iff, List.forall₂_map_right_iff, List.forall₂_same]
    intro a ha
    have hsound := hattrs a (List.mem_of_mem_filter ha)
    exact ⟨isQName_qualifiedName hsound, hsound.value, rfl⟩
  unfold writtenAttrs rawAttrs
  cases top with
  | false => exact hkept
  | true => exact List.rel_append (forall₂_spaceAttrs hspace _) hkept

/-! ## Attributes that are read again -/

/-- The written name of an attribute tells its namespace among those that are told apart. -/
theorem qualifiedName_rereadAttr (a : Attr) : qualifiedName (rereadAttr a) = qualifiedName a := by
  unfold qualifiedName rereadAttr
  by_cases hxlink : a.space = some xlinkSpace
  · simp [hxlink]
  · by_cases hxml : a.space = some xmlSpace <;> simp [hxlink, hxml]

theorem qualifiedName_congr {a b : Attr} (hspace : a.space = b.space) (hname : a.name = b.name) :
    qualifiedName a = qualifiedName b := by
  rw [qualifiedName, qualifiedName, hspace, hname]

end Vector

namespace Xml

/-- What a scope says of the names that are written: the default namespace, and the prefix of
links. -/
structure Scope.Declares (scope : Scope) (space : Option String) : Prop where
  unprefixed : scope.lookup "" = space
  xlink : scope.lookup "xlink" = some Vector.xlinkSpace

end Xml

namespace Vector

open Xml

variable {scope : Scope} {outer : Option String}

theorem attrSpace?_qnameOf (hscope : Scope.Declares scope outer) (a : Attr) :
    attrSpace? scope (qnameOf a) = some (rereadAttr a).space := by
  have hne : xmlSpace ≠ xlinkSpace := by decide
  unfold qnameOf rereadAttr attrSpace?
  by_cases hxlink : a.space = some xlinkSpace
  · simp [hxlink, hscope.xlink]
  · by_cases hxml : a.space = some xmlSpace <;> simp [hxlink, hxml, hne]

theorem isDeclaration_qnameOf {a : Attr} (ha : a.IsSound) (value : String) :
    isDeclaration (qnameOf a, value) = false := by
  unfold isDeclaration qnameOf
  split
  · simp [ha.plain]
  · split <;> simp [ha.plain]

theorem qnameOf_base (a : Attr) : (qnameOf a).base = a.name := by
  unfold qnameOf
  split
  · rfl
  · split <;> rfl

/-- Attributes are written under one name when they are read in one namespace under one name. -/
theorem qualifiedName_eq_iff (hscope : Scope.Declares scope outer) {a b : Attr} (ha : a.IsSound)
    (hb : b.IsSound) :
    qualifiedName b = qualifiedName a ↔
      (rereadAttr b).space = (rereadAttr a).space ∧ b.name = a.name := by
  constructor
  · intro hwritten
    -- One text is read as one name.
    have hread : some (qnameOf b) = some (qnameOf a) := by
      rw [← (isQName_qualifiedName hb).qname, hwritten, (isQName_qualifiedName ha).qname]
    have hname := Option.some.inj hread
    have hspace : some (rereadAttr b).space = some (rereadAttr a).space := by
      rw [← attrSpace?_qnameOf hscope b, hname, attrSpace?_qnameOf hscope a]
    have hbase := congrArg QName.base hname
    rw [qnameOf_base, qnameOf_base] at hbase
    exact ⟨Option.some.inj hspace, hbase⟩
  · rintro ⟨hspace, hname⟩
    calc
      qualifiedName b = qualifiedName (rereadAttr b) := (qualifiedName_rereadAttr b).symm
      _ = qualifiedName (rereadAttr a) := qualifiedName_congr hspace hname
      _ = qualifiedName a := qualifiedName_rereadAttr a

/-- The reader finds an attribute of the same name exactly where one was written. -/
theorem any_isRepeated_iff (hscope : Scope.Declares scope outer) {seen : List Attr}
    (ha : a.IsSound) (hseen : ∀ b ∈ seen, b.IsSound) :
    ((seen.map rereadAttr).any fun b =>
        b.space == (rereadAttr a).space && b.name == (qnameOf a).base) = true ↔
      qualifiedName a ∈ seen.map qualifiedName := by
  simp only [List.any_eq_true, List.mem_map, Bool.and_eq_true, beq_iff_eq,
    exists_exists_and_eq_and]
  refine exists_congr fun b => and_congr_right fun hb => ?_
  rw [qualifiedName_eq_iff hscope ha (hseen b hb), qnameOf_base]
  rfl

/-- Attributes are resolved exactly when no written name repeats, `seen` being those in front of
them. -/
theorem resolveAttrs?_map (hscope : Scope.Declares scope outer) {seen l : List Attr}
    (hsound : ∀ a ∈ seen.reverse ++ l, a.IsSound) (hseen : (seen.map qualifiedName).Nodup) :
    resolveAttrs? scope (seen.map rereadAttr) (l.map fun a => (qnameOf a, rereadValue a.value)) =
      if ((seen.reverse ++ l).map qualifiedName).Nodup then
        some ((seen.reverse ++ l).map rereadAttr)
      else none := by
  induction l generalizing seen with
  | nil =>
      have hnodup : ((seen.reverse ++ []).map qualifiedName).Nodup := by
        rw [List.append_nil, List.map_reverse]
        exact List.nodup_reverse.2 hseen
      rw [if_pos hnodup, List.append_nil, List.map_reverse]
      rfl
  | cons a l ih =>
      have ha : a.IsSound := hsound a (by simp)
      have hplain : ¬ isDeclaration (qnameOf a, rereadValue a.value) = true := by
        simp [isDeclaration_qnameOf ha]
      have hrepeats := any_isRepeated_iff hscope ha fun b (hb : b ∈ seen) => hsound b (by simp [hb])
      have hagain : (⟨(rereadAttr a).space, (qnameOf a).base, rereadValue a.value⟩ : Attr) =
          rereadAttr a := congrArg (Attr.mk _ · _) (qnameOf_base a)
      rw [List.map_cons, resolveAttrs?, if_neg hplain, attrSpace?_qnameOf hscope a]
      simp only
      by_cases hmem : qualifiedName a ∈ seen.map qualifiedName
      · have hclash : ¬ ((seen.reverse ++ a :: l).map qualifiedName).Nodup := by
          rw [List.map_append, List.map_reverse, List.map_cons]
          intro hnodup
          exact (List.nodup_append.1 hnodup).2.2 _ (List.mem_reverse.2 hmem) _
            (List.mem_cons_self ..) rfl
        rw [if_pos (hrepeats.2 hmem), if_neg hclash]
      · -- The attribute joins those that were seen, and the list as a whole stays the same.
        have hlist : (a :: seen).reverse ++ l = seen.reverse ++ a :: l := by simp
        have hnodup : ((a :: seen).map qualifiedName).Nodup := List.nodup_cons.2 ⟨hmem, hseen⟩
        have hnext := ih (hlist ▸ hsound) hnodup
        rw [hlist] at hnext
        rw [if_neg (hrepeats.not.2 hmem), hagain]
        exact hnext

/-- Declarations are no attributes. -/
theorem resolveAttrs?_declarations {own raw : List RawAttr}
    (hown : ∀ a ∈ own, isDeclaration a = true) (done : List Attr) :
    resolveAttrs? scope done (own ++ raw) = resolveAttrs? scope done raw := by
  induction own with
  | nil => rfl
  | cons a own ih =>
      rcases List.forall_mem_cons.1 hown with ⟨ha, hown⟩
      rw [List.cons_append, resolveAttrs?, if_pos ha, ih hown]

theorem isDeclaration_of_mem_rawSpaces {space : Option String} {xlink : Bool} :
    ∀ a ∈ rawSpaces space xlink, isDeclaration a = true := by
  intro a ha
  rcases List.mem_append.1 ha with ha | ha
  · rcases List.mem_map.1 ha with ⟨uri, _, rfl⟩
    rfl
  · cases xlink with
    | false => cases ha
    | true =>
        rw [List.mem_singleton.1 ha]
        rfl

/-! ## Scopes -/

def ownScope (space : Option String) (xlink : Bool) : Scope :=
  space.toList.map (fun uri => ("", rereadValue uri)) ++
    if xlink then [("xlink", xlinkSpace)] else []

/-- A value with a blank is no reserved namespace, and any other is read as it was written. -/
theorem rereadValue_ne {uri reserved : String} (hblank : ' ' ∉ reserved.toList)
    (hne : uri ≠ reserved) : rereadValue uri ≠ reserved := by
  intro heq
  have hfold : foldBlanks uri.toList = uri.toList := by
    refine foldBlanks_of_not_mem ?_
    rw [← heq, rereadValue, String.toList_ofList] at hblank
    exact hblank
  rw [rereadValue, hfold, String.ofList_toList] at heq
  exact hne heq

theorem declare?_plain {raw : List RawAttr} (hraw : ∀ a ∈ raw, isDeclaration a = false)
    (own : Scope) : declare? own raw = some own := by
  induction raw with
  | nil => rfl
  | cons a raw ih =>
      rcases a with ⟨name, value⟩
      rcases List.forall_mem_cons.1 hraw with ⟨ha, hraw⟩
      simp only [isDeclaration, Bool.or_eq_false_iff] at ha
      rw [declare?, if_neg (by simp [ha.1]), if_neg (by simp [ha.2]), ih hraw]

theorem declare?_default {value : String} (hxml : value ≠ xmlSpace) (hxmlns : value ≠ xmlnsSpace)
    (own : Scope) (raw : List RawAttr) :
    declare? own ((⟨"", "xmlns"⟩, value) :: raw) = declare? (own ++ [("", value)]) raw := by
  simp [declare?, hxml, hxmlns]

theorem declare?_xlink {own : Scope} (hnew : own.any (·.1 == "xlink") = false)
    (raw : List RawAttr) :
    declare? own ((⟨"xmlns", "xlink"⟩, xlinkSpace) :: raw) =
      declare? (own ++ [("xlink", xlinkSpace)]) raw := by
  have hxml : xlinkSpace ≠ xmlSpace := by decide
  have hxmlns : xlinkSpace ≠ xmlnsSpace := by decide
  have hnone : ¬ own.any (·.1 == "xlink") = true := by simp [hnew]
  rw [declare?]
  simp only [beq_self_eq_true, if_true, beq_iff_eq, hxml, hxmlns, if_false]
  exact if_neg hnone

/-- The declarations at the top make up the scope. -/
theorem declare?_rawSpaces {space : Option String} (hspace : ∀ uri ∈ space, IsNamespace uri)
    (xlink : Bool) {raw : List RawAttr} (hraw : ∀ a ∈ raw, isDeclaration a = false) :
    declare? [] (rawSpaces space xlink ++ raw) = some (ownScope space xlink) := by
  have hxlink : ∀ own : Scope, own.any (·.1 == "xlink") = false →
      declare? own ((if xlink then [(⟨"xmlns", "xlink"⟩, xlinkSpace)] else []) ++ raw) =
        some (own ++ if xlink then [("xlink", xlinkSpace)] else []) := by
    intro own hnew
    cases xlink with
    | false => exact (declare?_plain hraw own).trans (congrArg some (List.append_nil own).symm)
    | true => exact (declare?_xlink hnew raw).trans (declare?_plain hraw _)
  cases space with
  | none => exact hxlink [] rfl
  | some uri =>
      have hns := hspace uri rfl
      exact (declare?_default (rereadValue_ne (by decide) hns.ne_xml)
        (rereadValue_ne (by decide) hns.ne_xmlns) [] _).trans (hxlink _ rfl)

theorem declares_append (hscope : Scope.Declares scope none) (space : Option String)
    (xlink : Bool) : Scope.Declares (ownScope space xlink ++ scope) (space.map rereadValue) := by
  cases space with
  | none =>
      cases xlink with
      | false => exact hscope
      | true => exact ⟨hscope.unprefixed, rfl⟩
  | some uri =>
      cases xlink with
      | false => exact ⟨rfl, hscope.xlink⟩
      | true => exact ⟨rfl, rfl⟩

def innerScope (top : Bool) (space : Option String) (attrs : List Attr) (children : List Tree)
    (scope : Scope) : Scope :=
  (if top then
    ownScope space (attrs.any (fun a => a.space == some xlinkSpace) || anyUsesXlink children)
    else []) ++ scope

def innerSpace (top : Bool) (space outer : Option String) : Option String :=
  if top then space.map rereadValue else outer

theorem declares_innerScope (hscope : Scope.Declares scope outer) {top : Bool}
    (houter : top = true → outer = none) (space : Option String) (attrs : List Attr)
    (children : List Tree) :
    Scope.Declares (innerScope top space attrs children scope) (innerSpace top space outer) := by
  cases top with
  | false => exact hscope
  | true =>
      rw [houter rfl] at hscope
      exact declares_append hscope space _

theorem declare?_rawAttrs {space : Option String} {attrs : List Attr}
    (hspace : ∀ uri ∈ space, IsNamespace uri) (hattrs : ∀ a ∈ attrs, a.IsSound) (top : Bool)
    (children : List Tree) (scope : Scope) :
    (declare? [] (rawAttrs top space attrs children)).map (· ++ scope) =
      some (innerScope top space attrs children scope) := by
  have hraw : ∀ a ∈ (attrs.filter isKept).map fun a => (qnameOf a, rereadValue a.value),
      isDeclaration a = false := by
    intro a ha
    rcases List.mem_map.1 ha with ⟨b, hb, rfl⟩
    exact isDeclaration_qnameOf (hattrs b (List.mem_of_mem_filter hb)) _
  unfold rawAttrs innerScope
  cases top with
  | false => exact congrArg (Option.map (· ++ scope)) (declare?_plain hraw [])
  | true => exact congrArg (Option.map (· ++ scope)) (declare?_rawSpaces hspace _ hraw)

/-- The written names of the attributes of an element do not repeat. -/
def HasDistinctNames (attrs : List Attr) : Prop :=
  ((keptAttrs attrs).map Prod.fst).Nodup

instance (attrs : List Attr) : Decidable (HasDistinctNames attrs) :=
  inferInstanceAs (Decidable ((keptAttrs attrs).map Prod.fst).Nodup)

theorem resolveAttrs?_rawAttrs (hscope : Scope.Declares scope outer) {attrs : List Attr}
    (hattrs : ∀ a ∈ attrs, a.IsSound) (top : Bool) (space : Option String)
    (children : List Tree) :
    resolveAttrs? scope [] (rawAttrs top space attrs children) =
      if HasDistinctNames attrs then some ((attrs.filter isKept).map rereadAttr) else none := by
  have hnames : HasDistinctNames attrs ↔ ((attrs.filter isKept).map qualifiedName).Nodup := by
    rw [HasDistinctNames, keptAttrs, List.map_map]
    rfl
  have hsound : ∀ a ∈ attrs.filter isKept, a.IsSound :=
    fun a ha => hattrs a (List.mem_of_mem_filter ha)
  have hresolve := @resolveAttrs?_map _ _ hscope [] _ hsound List.nodup_nil
  unfold rawAttrs
  rw [resolveAttrs?_declarations]
  · exact hresolve.trans (if_congr hnames.symm rfl rfl)
  · intro a ha
    cases top with
    | false => cases ha
    | true => exact isDeclaration_of_mem_rawSpaces a ha

/-- Where links have their prefix, a cleaned start tag is resolved exactly when no name repeats. -/
theorem resolve?_rawAttrs (hscope : Scope.Declares scope outer) {top : Bool}
    (houter : top = true → outer = none) {space : Option String}
    (hspace : ∀ uri ∈ space, IsNamespace uri) {attrs : List Attr}
    (hattrs : ∀ a ∈ attrs, a.IsSound) (name : String) (children : List Tree) :
    resolve? scope ⟨"", name⟩ (rawAttrs top space attrs children) =
      if HasDistinctNames attrs then
        some ⟨innerSpace top space outer, (attrs.filter isKept).map rereadAttr,
          innerScope top space attrs children scope⟩
      else none := by
  have hinner := declares_innerScope hscope houter space attrs children
  have hresolve := resolveAttrs?_rawAttrs hinner hattrs top space children
  rcases Option.map_eq_some_iff.1 (declare?_rawAttrs hspace hattrs top children scope) with
    ⟨own, hown, hscope'⟩
  have helement : elementSpace? (innerScope top space attrs children scope) ⟨"", name⟩ =
      some (innerSpace top space outer) := by
    rw [elementSpace?, hinner.unprefixed]
    cases innerSpace top space outer <;> rfl
  rw [resolve?, if_neg (by simp), hown]
  simp only [hscope', helement, hresolve]
  by_cases hnames : HasDistinctNames attrs <;> simp only [hnames, if_true, if_false]

end Vector
end RenderForest
