import RenderForest.Proofs.Markup.StartTags
import RenderForest.Proofs.Markup.WrittenTags
/-!
# Drawings — what the lenient reader makes of a cleaned drawing

A drawing in safe markup is read as XML, cleaned, written, and read again by the lenient reader,
which then filters nothing.  The two readers split names differently.  This file defines:

* `Markup.IsClean`, an element that safe markup may show;
* `Xml.Tree.IsLegible`, that the lenient reader sees only such elements in what is written of a
  tree;
* `Vector.treesOf`, the trees that are read of the source text of a drawing;

and shows in `everyIn_sanitize` that the nodes of a drawing are clean exactly when its trees are
legible.
-/

namespace RenderForest

/-! ## Clean elements -/

namespace Safety

/-- No dangerous element ends with a slash. -/
theorem isDangerousElement_slash (name : String) : isDangerousElement (name ++ "/") = false := by
  have hnone : ∀ d ∈ dangerousElements, '/' ∉ Text.fold d := by decide
  refine List.any_eq_false.2 ?_
  intro d hd hsame
  refine hnone d hd ?_
  rw [eq_of_beq hsame, Text.fold, String.toList_append, List.map_append]
  exact List.mem_append_right _ (List.mem_singleton.2 rfl)

end Safety

namespace Attributes

/-- Attributes that are not risky may be set before others or not. -/
theorem mayBeWritten_ofList_append {l l' : List (String × String)}
    (h : ∀ a ∈ l, Safety.isRisky a.1 = false) :
    (ofList (l ++ l')).MayBeWritten ↔ (ofList l').MayBeWritten := by
  have hnone : l.filter (fun a => Safety.isRisky a.1) = [] :=
    List.filter_eq_nil_iff.2 fun a ha => by simp [h a ha]
  rw [← mayBeWritten_filterNames, ofList, filterNames_foldl_set, List.filter_append, hnone,
    List.nil_append, ← filterNames_foldl_set, mayBeWritten_filterNames]
  rfl

end Attributes

namespace Markup

/-- An element that safe markup may show. -/
structure IsClean (tag : String) (attrs : Attributes) : Prop where
  harmless : Safety.isDangerousElement tag = false
  writable : attrs.MayBeWritten

theorem isClean_iff {tag : String} {attrs : Attributes} :
    IsClean tag attrs ↔ Safety.isDangerousElement tag = false ∧ attrs.MayBeWritten :=
  ⟨fun h => ⟨h.harmless, h.writable⟩, fun h => ⟨h.1, h.2⟩⟩

instance (tag : String) (attrs : Attributes) : Decidable (IsClean tag attrs) :=
  decidable_of_iff' _ isClean_iff

/-- The start tags of a text are clean. -/
def HasCleanTags (s : List Char) : Prop :=
  ∀ x ∈ startTags s, IsClean x.1 (x.2.toAttributes .trusted)

/-! ## One start tag -/

/-- The start tag of a written element is clean when the reader does not cut its name, and its
attributes, cut at their dots, may be written. -/
theorem hasCleanTags_written {name : String} (hname : Xml.IsName name)
    (hsafe : Safety.isDangerousElement name = false) {l : List (String × String)}
    (hl : ∀ a ∈ l, Safety.isValidAttributeName a.1 = true) {e rest : List Char}
    (he : IsEnd e rest) :
    HasCleanTags ('<' :: (name.toList ++ (attrChars l ++ e))) ↔
      ((∀ c ∈ name.toList, isIdent c = true) ∧
        (Attributes.ofList (l.flatMap cutEntry)).MayBeWritten) ∧ HasCleanTags rest := by
  rw [HasCleanTags, HasCleanTags, startTags_lt]
  by_cases hplain : ∀ c ∈ name.toList, isIdent c = true
  · -- A slash that is taken into the name makes no dangerous element of it.
    rcases readTag_plain hname hplain hl he with ⟨n, closed, hn, hread⟩
    have hsafe' : Safety.isDangerousElement n = false := by
      rcases hn with rfl | rfl
      · exact hsafe
      · exact Safety.isDangerousElement_slash name
    have hstored : (l.flatMap storedEntry).map decodeEntry = l.flatMap cutEntry := by
      simp [List.map_flatMap, map_storedEntry]
    rw [hread, and_iff_right hplain]
    simp only [Tag.starts, List.singleton_append, List.forall_mem_cons, isClean_iff, hsafe',
      RawAttributes.mayBeWritten_storeAll, hstored, true_and]
  · rcases readTag_cut hname hplain hl he with ⟨n, raw, closed, hnameless, hread⟩
    rw [hread]
    simp only [Tag.starts, List.singleton_append, List.forall_mem_cons, isClean_iff,
      hnameless.not_mayBeWritten, hplain, and_false, false_and]

/-- An end tag starts nothing. -/
theorem startTags_stop {name : String} (hname : Xml.IsName name) (rest : List Char) :
    startTags ('<' :: '/' :: (name.toList ++ '>' :: rest)) = startTags rest := by
  have hchars : ∀ c ∈ name.toList, (c != '>') = true :=
    fun c hc => bne_iff_ne.2 (ne_of_apply_ne Xml.isNameChar (by rw [hname.2 c hc]; decide))
  have hspan := spanWhile_append (v := rest) hchars (by decide : ('>' != '>') = false)
  have hskip := skipGap_cons (s := name.toList ++ '>' :: rest) (by decide : isGap '/' = false)
  have hread : readTag ('/' :: (name.toList ++ '>' :: rest)) =
      (.stop (String.ofList name.toList), rest) := by
    rw [readTag, hskip]
    simp only [hspan]
  rw [startTags_lt, hread]
  rfl

end Markup

/-! ## Written trees -/

namespace Vector

/-- The attributes of an element that are written. -/
def keptAttrs (attrs : List Xml.Attr) : List (String × String) :=
  (attrs.filter isKept).map fun a => (qualifiedName a, a.value)

/-- The namespace declarations that an element at the top needs. -/
def spaceAttrs (space : Option String) (xlink : Bool) : List (String × String) :=
  space.toList.map (fun uri => ("xmlns", uri)) ++
    if xlink then [("xmlns:xlink", xlinkSpace)] else []

theorem toList_writeAttrs (attrs : List Xml.Attr) :
    (writeAttrs attrs).toList = Markup.attrChars (keptAttrs attrs) := by
  induction attrs with
  | nil => rfl
  | cons a rest ih =>
      rw [writeAttrs, String.toList_append, ih]
      cases ha : isKept a <;> simp [keptAttrs, ha, Markup.attrChars]

theorem toList_writeSpaces (space : Option String) (xlink : Bool) :
    (writeSpaces space xlink).toList = Markup.attrChars (spaceAttrs space xlink) := by
  cases space <;> cases xlink <;> simp [writeSpaces, spaceAttrs, Markup.attrChars]

theorem valid_of_mem_keptAttrs {attrs : List Xml.Attr} :
    ∀ a ∈ keptAttrs attrs, Safety.isValidAttributeName a.1 = true := by
  intro a ha
  rcases List.mem_map.1 ha with ⟨b, hb, rfl⟩
  exact (Bool.and_eq_true_iff.1 (List.mem_filter.1 hb).2).1

theorem name_of_mem_spaceAttrs {space : Option String} {xlink : Bool} {a : String × String}
    (ha : a ∈ spaceAttrs space xlink) : a.1 = "xmlns" ∨ a.1 = "xmlns:xlink" := by
  rcases List.mem_append.1 ha with ha | ha
  · rcases List.mem_map.1 ha with ⟨uri, _, rfl⟩
    exact Or.inl rfl
  · cases xlink with
    | false => cases ha
    | true =>
        rw [List.mem_singleton.1 ha]
        exact Or.inr rfl

/-- Namespace declarations have no dots and hold no URL that is looked at. -/
theorem not_risky_of_mem_spaceAttrs {space : Option String} {xlink : Bool} :
    ∀ a ∈ (spaceAttrs space xlink).flatMap Markup.cutEntry, Safety.isRisky a.1 = false := by
  intro a ha
  rcases List.mem_flatMap.1 ha with ⟨b, hb, ha⟩
  rcases b with ⟨name, value⟩
  have hplain : ∀ n : String, '.' ∉ n.toList → name = n → a = (n, value) := by
    rintro n hn rfl
    rw [Markup.cutEntry_of_not_mem hn] at ha
    exact List.mem_singleton.1 ha
  rcases name_of_mem_spaceAttrs hb with hname | hname
  · rw [hplain "xmlns" (by decide) hname]
    exact (by decide : Safety.isRisky "xmlns" = false)
  · rw [hplain "xmlns:xlink" (by decide) hname]
    exact (by decide : Safety.isRisky "xmlns:xlink" = false)

end Vector

/-! ## Legible trees -/

mutual

/-- The lenient reader sees only clean elements in what is written of a tree: it cuts no name of
an element, and the attributes, cut at their dots, may be written. -/
def Xml.Tree.IsLegible : Xml.Tree → Prop
  | .text _ => True
  | .remark => True
  | .element _ name attrs children =>
    Safety.isDangerousElement name = true ∨
      (∀ c ∈ name.toList, Markup.isIdent c = true) ∧
        (Attributes.ofList ((Vector.keptAttrs attrs).flatMap Markup.cutEntry)).MayBeWritten ∧
        Xml.AreLegible children

def Xml.AreLegible : List Xml.Tree → Prop
  | [] => True
  | t :: rest => t.IsLegible ∧ Xml.AreLegible rest

end

namespace Xml

mutual

instance decidableIsLegible : ∀ t : Tree, Decidable t.IsLegible
  | .text _ => .isTrue trivial
  | .remark => .isTrue trivial
  | .element _ name attrs children =>
    haveI := decidableAreLegible children
    inferInstanceAs (Decidable (Safety.isDangerousElement name = true ∨
      (∀ c ∈ name.toList, Markup.isIdent c = true) ∧
        (Attributes.ofList ((Vector.keptAttrs attrs).flatMap Markup.cutEntry)).MayBeWritten ∧
        AreLegible children))

instance decidableAreLegible : ∀ ts : List Tree, Decidable (AreLegible ts)
  | [] => .isTrue trivial
  | t :: rest =>
    haveI := decidableIsLegible t
    haveI := decidableAreLegible rest
    inferInstanceAs (Decidable (t.IsLegible ∧ AreLegible rest))

end

end Xml

namespace Vector

/-- The attributes of a written element; those at the top declare namespaces. -/
def writtenAttrs (top : Bool) (space : Option String) (attrs : List Xml.Attr)
    (children : List Xml.Tree) : List (String × String) :=
  (if top then
    spaceAttrs space (attrs.any (fun a => a.space == some xlinkSpace) || anyUsesXlink children)
    else []) ++ keptAttrs attrs

theorem valid_of_mem_writtenAttrs {top : Bool} {space : Option String} {attrs : List Xml.Attr}
    {children : List Xml.Tree} :
    ∀ a ∈ writtenAttrs top space attrs children, Safety.isValidAttributeName a.1 = true := by
  intro a ha
  rcases List.mem_append.1 ha with ha | ha
  · split at ha
    · rcases name_of_mem_spaceAttrs ha with hname | hname <;> rw [hname] <;> decide
    · cases ha
  · exact valid_of_mem_keptAttrs a ha

/-- Namespace declarations do not matter for what may be written. -/
theorem mayBeWritten_writtenAttrs (top : Bool) (space : Option String) (attrs : List Xml.Attr)
    (children : List Xml.Tree) :
    (Attributes.ofList ((writtenAttrs top space attrs children).flatMap
        Markup.cutEntry)).MayBeWritten ↔
      (Attributes.ofList ((keptAttrs attrs).flatMap Markup.cutEntry)).MayBeWritten := by
  rw [writtenAttrs, List.flatMap_append]
  refine Attributes.mayBeWritten_ofList_append ?_
  cases top with
  | true => exact not_risky_of_mem_spaceAttrs
  | false =>
      intro a ha
      cases ha

/-- The text of an element that is not dangerous. -/
theorem toList_writeTree {name : String} (hname : Safety.isDangerousElement name = false)
    (top : Bool) (space : Option String) (attrs : List Xml.Attr) (children : List Xml.Tree) :
    (writeTree top (.element space name attrs children)).toList =
      '<' :: (name.toList ++ (Markup.attrChars (writtenAttrs top space attrs children) ++
        if children.isEmpty then ['/', '>']
        else '>' :: ((writeTrees false children).toList ++
          '<' :: '/' :: (name.toList ++ ['>'])))) := by
  have hattrs : Markup.attrChars (writtenAttrs top space attrs children) =
      (if top then writeSpaces space (attrs.any (fun a => a.space == some xlinkSpace) ||
        anyUsesXlink children) else "").toList ++ (writeAttrs attrs).toList := by
    rw [toList_writeAttrs, writtenAttrs, Markup.attrChars, List.flatMap_append]
    cases top with
    | true => exact congrArg (· ++ _) (toList_writeSpaces ..).symm
    | false => rfl
  rw [hattrs, writeTree, if_neg (by simp [hname])]
  cases children.isEmpty <;> simp

end Vector

namespace Markup

/-- The start tag of an element is clean when its name is not cut and the attributes, cut at their
dots, may be written; the namespace declarations do not matter. -/
theorem hasCleanTags_start (top : Bool) (space : Option String) {name : String}
    (hname : Xml.IsName name) (hsafe : Safety.isDangerousElement name = false)
    (attrs : List Xml.Attr) (children : List Xml.Tree) {e rest : List Char} (he : IsEnd e rest) :
    HasCleanTags
        ('<' :: (name.toList ++ (attrChars (Vector.writtenAttrs top space attrs children) ++ e))) ↔
      ((∀ c ∈ name.toList, isIdent c = true) ∧
        (Attributes.ofList ((Vector.keptAttrs attrs).flatMap cutEntry)).MayBeWritten) ∧
      HasCleanTags rest := by
  rw [hasCleanTags_written hname hsafe Vector.valid_of_mem_writtenAttrs he]
  rw [Vector.mayBeWritten_writtenAttrs]

mutual

theorem hasCleanTags_writeTree (top : Bool) :
    ∀ t : Xml.Tree, t.IsNamed → ∀ rest : List Char,
      (HasCleanTags ((Vector.writeTree top t).toList ++ rest) ↔ t.IsLegible ∧ HasCleanTags rest)
  | .text s => fun _ rest => by
    rw [Vector.writeTree, HasCleanTags]
    rw [startTags_append (fun c hc => Text.ne_lt_of_mem_escape hc)]
    exact (and_iff_right trivial).symm
  | .remark => fun _ rest => by
    rw [Vector.writeTree]
    exact (and_iff_right trivial).symm
  | .element space name attrs children => fun hnamed rest => by
    cases hname : Safety.isDangerousElement name with
    | true =>
        -- Nothing is written of a dangerous element.
        rw [Vector.writeTree, if_pos hname, Xml.Tree.IsLegible]
        simp [hname]
    | false =>
        rw [Vector.toList_writeTree hname, Xml.Tree.IsLegible, hname]
        cases children with
        | nil =>
            have hend : IsEnd ('/' :: '>' :: rest) rest := Or.inr rfl
            have hstart := hasCleanTags_start top space hnamed.1 hname attrs [] hend
            simpa [Xml.AreLegible] using hstart
        | cons child children =>
            -- The children and the end tag stand between the start tag and the rest.
            let stop := '<' :: '/' :: (name.toList ++ '>' :: rest)
            let inside := (Vector.writeTrees false (child :: children)).toList ++ stop
            have hend : IsEnd ('>' :: inside) inside := Or.inl rfl
            have hstart :=
              hasCleanTags_start top space hnamed.1 hname attrs (child :: children) hend
            have hchildren := hasCleanTags_writeTrees false (child :: children) hnamed.2 stop
            have hstop : HasCleanTags stop ↔ HasCleanTags rest := by
              rw [HasCleanTags, startTags_stop hnamed.1, HasCleanTags]
            rw [hchildren, hstop] at hstart
            simpa [inside, stop, and_assoc] using hstart

theorem hasCleanTags_writeTrees (top : Bool) :
    ∀ ts : List Xml.Tree, Xml.AreNamed ts → ∀ rest : List Char,
      (HasCleanTags ((Vector.writeTrees top ts).toList ++ rest) ↔
        Xml.AreLegible ts ∧ HasCleanTags rest)
  | [] => fun _ rest => by
    rw [Vector.writeTrees]
    exact (and_iff_right trivial).symm
  | t :: ts => fun hnamed rest => by
    rw [Vector.writeTrees, String.toList_append, List.append_assoc]
    rw [hasCleanTags_writeTree top t hnamed.1, hasCleanTags_writeTrees top ts hnamed.2]
    rw [Xml.AreLegible, and_assoc]

end

end Markup

/-! ## Drawings -/

namespace Vector

/-- The trees that are read of a drawing, and written again. -/
def treesOf (source : String) : List Xml.Tree :=
  let body := dropDeclaration (Text.trim source.toList)
  if body.isEmpty then [] else (trees? body).getD []

theorem sanitize_eq (source : String) : sanitize source = writeTrees true (treesOf source) := by
  unfold sanitize treesOf
  simp only
  split
  · rfl
  · split
    · rename_i ts hts
      rw [hts]
      rfl
    · rename_i hnone
      rw [hnone]
      rfl

theorem areSound_treesOf (source : String) : Xml.AreSound (treesOf source) := by
  unfold treesOf trees?
  simp only
  split
  · trivial
  · split
    · rename_i hread
      exact (Xml.isSound_of_read hread).2.2.2
    · trivial

theorem areNamed_treesOf (source : String) : Xml.AreNamed (treesOf source) :=
  (areSound_treesOf source).areNamed

end Vector

namespace Markup

/-- The nodes of a drawing are clean when its trees are legible, and not otherwise. -/
theorem everyIn_sanitize (source : String) :
    Node.EveryIn IsClean (trustedNodes (Vector.sanitize source)) ↔
      Xml.AreLegible (Vector.treesOf source) := by
  have hwritten := hasCleanTags_writeTrees true (Vector.treesOf source)
    (Vector.areNamed_treesOf source) []
  -- Nothing is read behind the last tree.
  have hnone : HasCleanTags [] := by
    intro x hx
    rw [startTags_nil] at hx
    cases hx
  rw [List.append_nil, and_iff_left hnone] at hwritten
  rw [everyIn_trustedNodes, Vector.sanitize_eq]
  exact hwritten

end Markup
end RenderForest
