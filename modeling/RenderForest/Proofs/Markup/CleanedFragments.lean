import RenderForest.Proofs.Markup.Drawings
import RenderForest.Proofs.Markup.FragmentTags
import RenderForest.Proofs.Text.Blanks
import RenderForest.Proofs.Text.Splitting
/-!
# CleanedFragments — what is left of a fragment

A cleaned fragment, cut at its tags again, shows what its trees hold outside of dangerous
elements, and nothing else.  This file defines:

* `Vector.fragmentOf`, the fragment in a text, and `Vector.IsProlog`, what may stand before it;
* `Vector.outline`, the texts and tags that a cleaned tree stands for, in the order of the source;
* `Html.Mark.IsHarmless`, a tag that may stand in a cleaned fragment;

and shows in `scan_sanitize` that a scanner reads exactly the outlines of the trees of a fragment,
and harmless tags only.
-/

namespace RenderForest
namespace Vector

/-! ## The fragment in a text -/

/-- What may stand in front of a fragment: blanks, or blanks around a declaration, which ends with
the first question mark in front of a greater-than sign. -/
inductive IsProlog : List Char → Prop where
  | blanks {u : List Char} (hu : ∀ c ∈ u, Text.isBlank c = true) : IsProlog u
  | declaration {u v w : List Char} (hu : ∀ c ∈ u, Text.isBlank c = true)
      (hbegin : "<?xml".toList <+: v) (hfirst : ¬ ['?', '>'] <:+: v)
      (hw : ∀ c ∈ w, Text.isBlank c = true) : IsProlog (u ++ (v ++ (['?', '>'] ++ w)))

/-- The fragment in a text: what is left without the prolog and the blanks at the ends. -/
def fragmentOf (raw : String) : List Char :=
  dropDeclaration (Text.trim raw.toList)

theorem IsProlog.append {u v : List Char} (hu : ∀ c ∈ u, Text.isBlank c = true)
    (h : IsProlog v) : IsProlog (u ++ v) := by
  cases h with
  | blanks hv => exact .blanks (List.forall_mem_append.2 ⟨hu, hv⟩)
  | declaration hu' hbegin hfirst hw =>
      rw [← List.append_assoc]
      exact .declaration (List.forall_mem_append.2 ⟨hu, hu'⟩) hbegin hfirst hw

theorem isProlog_nil : IsProlog [] :=
  .blanks (List.forall_mem_nil _)

theorem breakOn?_declaration (s : List Char) :
    Text.breakOn? ['?', '>'] ("<?xml".toList ++ s) =
      (Text.breakOn? ['?', '>'] s).map fun p => ("<?xml".toList ++ p.1, p.2) := by
  cases h : Text.breakOn? ['?', '>'] s <;> simp [Text.breakOn?, Text.stripStart?, h]

/-- A declaration does not end within its first characters. -/
theorem prefix_of_breakOn? {s before rest : List Char}
    (h : Text.breakOn? ['?', '>'] ("<?xml".toList ++ s) = some (before, rest)) :
    "<?xml".toList <+: before := by
  rw [breakOn?_declaration] at h
  rcases Option.map_eq_some_iff.1 h with ⟨p, _, heq⟩
  cases heq
  exact List.prefix_append _ _

theorem exists_dropDeclaration (s : List Char) :
    ∃ lead, s = lead ++ dropDeclaration s ∧ IsProlog lead := by
  unfold dropDeclaration
  -- No declaration begins, one begins and ends, or one begins and does not end.
  split
  · exact ⟨[], rfl, isProlog_nil⟩
  · rename_i after hstrip
    split
    · rename_i before rest hbreak
      rcases Text.eq_append_of_breakOn? (List.cons_ne_nil _ _) hbreak with ⟨hsplit, hfirst⟩
      rw [Text.eq_append_of_stripStart? hstrip] at hbreak
      rcases Text.exists_trimStart rest with ⟨w, hrest, hw⟩
      refine ⟨[] ++ (before ++ (['?', '>'] ++ w)), ?_,
        .declaration (List.forall_mem_nil _) (prefix_of_breakOn? hbreak) hfirst hw⟩
      calc
        s = before ++ (['?', '>'] ++ rest) := hsplit
        _ = before ++ (['?', '>'] ++ (w ++ Text.trimStart rest)) := by rw [← hrest]
        _ = [] ++ (before ++ (['?', '>'] ++ w)) ++ Text.trimStart rest := by simp
    · exact ⟨[], rfl, isProlog_nil⟩

/-- A text is its fragment with a prolog before it and blanks behind it. -/
theorem exists_fragmentOf (raw : String) :
    ∃ lead trail, raw.toList = lead ++ (fragmentOf raw ++ trail) ∧ IsProlog lead ∧
      ∀ c ∈ trail, Text.isBlank c = true := by
  rcases Text.exists_trim raw.toList with ⟨lead, trail, htrim, hlead, htrail⟩
  rcases exists_dropDeclaration (Text.trim raw.toList) with ⟨prolog, hdrop, hprolog⟩
  refine ⟨lead ++ prolog, trail, ?_, hprolog.append hlead, htrail⟩
  calc
    raw.toList = lead ++ (Text.trim raw.toList ++ trail) := htrim
    _ = lead ++ (prolog ++ fragmentOf raw ++ trail) := by rw [fragmentOf, ← hdrop]
    _ = lead ++ prolog ++ (fragmentOf raw ++ trail) := by simp

theorem trees?_nil : trees? [] = some [] := by
  have hlength : (trees? []).map List.length = some 0 := by decide +kernel
  rcases Option.map_eq_some_iff.1 hlength with ⟨ts, hts, hnone⟩
  rw [hts, List.length_eq_zero_iff.1 hnone]

/-- Nothing is read of an empty fragment, with or without an element around it. -/
theorem treesOf_eq (raw : String) : treesOf raw = (trees? (fragmentOf raw)).getD [] := by
  unfold treesOf
  rw [← fragmentOf]
  simp only
  split
  · rename_i hempty
    rw [List.isEmpty_iff.1 hempty, trees?_nil]
    rfl
  · rfl

/-! ## Outlines -/

mutual

/-- What is left of a tree: its texts and elements but for the dangerous ones, with their accepted
attributes, in the order of the source. -/
def outline (top : Bool) : Xml.Tree → List Html.Piece
  | .text s => [.text s]
  | .remark => []
  | .element space name attrs children =>
    if Safety.isDangerousElement name then []
    else
      .mark (.start name (writtenAttrs top space attrs children)) ::
        (outlineAll false children ++ [.mark (.stop name)])

def outlineAll (top : Bool) : List Xml.Tree → List Html.Piece
  | [] => []
  | t :: rest => outline top t ++ outlineAll top rest

end

theorem outline_element {name : String} (hname : Safety.isDangerousElement name = false)
    (top : Bool) (space : Option String) (attrs : List Xml.Attr) (children : List Xml.Tree) :
    outline top (.element space name attrs children) =
      .mark (.start name (writtenAttrs top space attrs children)) ::
        (outlineAll false children ++ [.mark (.stop name)]) := by
  rw [outline, if_neg (by simp [hname])]

mutual

theorem unescaped_scan_writeTree (top : Bool) :
    ∀ t : Xml.Tree, t.IsNamed → ∀ rest : List Char,
      (Html.scanFragment ((writeTree top t).toList ++ rest)).unescaped =
        (outline top t).foldr Html.Piece.onto (Html.scanFragment rest).unescaped
  | .text s => fun _ rest => by
    rw [writeTree, outline]
    exact Html.unescaped_scanFragment_text s rest
  | .remark => fun _ rest => by
    rw [writeTree, outline]
    rfl
  | .element space name attrs children => fun hnamed rest => by
    cases hname : Safety.isDangerousElement name with
    | true =>
        -- Nothing is written of a dangerous element.
        rw [writeTree, outline, if_pos hname, if_pos hname]
        rfl
    | false =>
        rw [toList_writeTree hname, outline_element hname]
        have hvalid : ∀ a ∈ writtenAttrs top space attrs children,
            Safety.isValidAttributeName a.1 = true := valid_of_mem_writtenAttrs
        cases children with
        | nil =>
            have hempty := Html.unescaped_scanFragment_empty hnamed.1 hvalid rest
            simpa [outlineAll, Html.Piece.onto, Html.Mark.spaced] using hempty
        | cons child children =>
            -- The children and the end tag stand between the start tag and the rest.
            let stop := '<' :: '/' :: (name.toList ++ '>' :: rest)
            let inside := (writeTrees false (child :: children)).toList ++ stop
            have hstart := Html.unescaped_scanFragment_start hnamed.1 hvalid inside
            have hchildren := unescaped_scan_writeTrees false (child :: children) hnamed.2 stop
            have hstop := Html.unescaped_scanFragment_stop hnamed.1 rest
            rw [hchildren, hstop] at hstart
            simpa [inside, stop, Html.Piece.onto, Html.Mark.spaced] using hstart

theorem unescaped_scan_writeTrees (top : Bool) :
    ∀ ts : List Xml.Tree, Xml.AreNamed ts → ∀ rest : List Char,
      (Html.scanFragment ((writeTrees top ts).toList ++ rest)).unescaped =
        (outlineAll top ts).foldr Html.Piece.onto (Html.scanFragment rest).unescaped
  | [] => fun _ rest => by
    rw [writeTrees, outlineAll]
    rfl
  | t :: ts => fun hnamed rest => by
    rw [writeTrees, String.toList_append, List.append_assoc]
    rw [unescaped_scan_writeTree top t hnamed.1, unescaped_scan_writeTrees top ts hnamed.2]
    rw [outlineAll, List.foldr_append]

end

end Vector

/-! ## Harmless tags -/

namespace Html

/-- A tag that may stand in a cleaned fragment: its element has a name and is not dangerous, and
all its attributes have valid names and safe values.  A comment may not. -/
def Mark.IsHarmless : Mark → Prop
  | .start name attrs =>
    Xml.IsName name ∧ Safety.isDangerousElement name = false ∧
      ∀ a ∈ attrs, Safety.isValidAttributeName a.1 = true ∧ Safety.isSafeValue a.1 a.2 = true
  | .stop name => Xml.IsName name ∧ Safety.isDangerousElement name = false
  | .comment _ => False

/-- A harmless mark is read as it was written. -/
theorem Mark.IsHarmless.spaced {m : Mark} (h : m.IsHarmless) : m.spaced = m := by
  cases m with
  | start name attrs => rfl
  | stop name => rfl
  | comment s => cases h

end Html

namespace Vector

theorem safe_of_mem_keptAttrs {attrs : List Xml.Attr} :
    ∀ a ∈ keptAttrs attrs, Safety.isSafeValue a.1 a.2 = true := by
  intro a ha
  rcases List.mem_map.1 ha with ⟨b, hb, rfl⟩
  exact (Bool.and_eq_true_iff.1 (List.mem_filter.1 hb).2).2

/-- A namespace is no URL that is looked at. -/
theorem safe_of_mem_spaceAttrs {space : Option String} {xlink : Bool} :
    ∀ a ∈ spaceAttrs space xlink, Safety.isSafeValue a.1 a.2 = true := by
  intro a ha
  have hplain : Safety.isSensitiveAttribute a.1 = false := by
    rcases name_of_mem_spaceAttrs ha with hname | hname <;> rw [hname] <;> decide
  simp [Safety.isSafeValue, hplain]

theorem safe_of_mem_writtenAttrs {top : Bool} {space : Option String} {attrs : List Xml.Attr}
    {children : List Xml.Tree} :
    ∀ a ∈ writtenAttrs top space attrs children, Safety.isSafeValue a.1 a.2 = true := by
  intro a ha
  rcases List.mem_append.1 ha with ha | ha
  · split at ha
    · exact safe_of_mem_spaceAttrs a ha
    · cases ha
  · exact safe_of_mem_keptAttrs a ha

mutual

theorem isHarmless_outline (top : Bool) :
    ∀ t : Xml.Tree, t.IsNamed → ∀ m ∈ Html.marksOf (outline top t), m.IsHarmless
  | .text s => fun _ m hm => by
    rw [outline] at hm
    cases hm
  | .remark => fun _ m hm => by
    rw [outline] at hm
    cases hm
  | .element space name attrs children => fun hnamed m hm => by
    cases hname : Safety.isDangerousElement name with
    | true =>
        rw [outline, if_pos hname] at hm
        cases hm
    | false =>
        rw [outline_element hname, Html.marksOf_mark, Html.marksOf_append] at hm
        -- The start tag, the tags of the children and the end tag.
        rcases List.mem_cons.1 hm with rfl | hm
        · refine ⟨hnamed.1, hname, ?_⟩
          intro a ha
          exact ⟨valid_of_mem_writtenAttrs a ha, safe_of_mem_writtenAttrs a ha⟩
        · rcases List.mem_append.1 hm with hm | hm
          · exact isHarmless_outlineAll false children hnamed.2 m hm
          · rw [List.mem_singleton.1 hm]
            exact ⟨hnamed.1, hname⟩

theorem isHarmless_outlineAll (top : Bool) :
    ∀ ts : List Xml.Tree, Xml.AreNamed ts → ∀ m ∈ Html.marksOf (outlineAll top ts), m.IsHarmless
  | [] => fun _ m hm => by
    rw [outlineAll] at hm
    cases hm
  | t :: ts => fun hnamed m hm => by
    rw [outlineAll, Html.marksOf_append] at hm
    rcases List.mem_append.1 hm with hm | hm
    · exact isHarmless_outline top t hnamed.1 m hm
    · exact isHarmless_outlineAll top ts hnamed.2 m hm

end

/-! ## Cleaned fragments -/

/-- A cleaned fragment is read as the outlines of its trees. -/
theorem unescaped_scan_sanitize (raw : String) :
    (Html.scanFragment (sanitize raw).toList).unescaped =
      .ofPieces (outlineAll true (treesOf raw)) := by
  have hscan := unescaped_scan_writeTrees true (treesOf raw) (areNamed_treesOf raw) []
  rw [List.append_nil, Html.unescaped_scanFragment_nil] at hscan
  rw [sanitize_eq]
  exact hscan

/-- A text is a fragment with a prolog before it and blanks behind it.  Nothing is left of a
fragment that is not well formed.  Of any other, a scanner reads the texts and elements outside of
dangerous elements, with their accepted attributes, in the order of the source, and nothing
else; and all tags that it reads are harmless. -/
theorem scan_sanitize (raw : String) :
    (∃ lead trail, raw.toList = lead ++ (fragmentOf raw ++ trail) ∧ IsProlog lead ∧
      ∀ c ∈ trail, Text.isBlank c = true) ∧
    (trees? (fragmentOf raw) = none ∧ sanitize raw = "" ∨
      ∃ ts, trees? (fragmentOf raw) = some ts ∧
        (Html.scanFragment (sanitize raw).toList).unescaped = .ofPieces (outlineAll true ts)) ∧
    ∀ m ∈ (Html.scanFragment (sanitize raw).toList).unescaped.marks, m.IsHarmless := by
  refine ⟨exists_fragmentOf raw, ?_, ?_⟩
  · cases h : trees? (fragmentOf raw) with
    | none =>
        refine Or.inl ⟨rfl, ?_⟩
        rw [sanitize_eq, treesOf_eq, h]
        rfl
    | some ts =>
        have htrees : treesOf raw = ts := by
          rw [treesOf_eq, h]
          rfl
        refine Or.inr ⟨ts, rfl, ?_⟩
        rw [unescaped_scan_sanitize, htrees]
  · -- Harmless marks are read as they stand in the outline.
    rw [unescaped_scan_sanitize, Html.marks_ofPieces]
    intro m hm
    rcases List.mem_map.1 hm with ⟨m', hm', rfl⟩
    have hharmless := isHarmless_outlineAll true (treesOf raw) (areNamed_treesOf raw) m' hm'
    rw [hharmless.spaced]
    exact hharmless

/-- A drawing with a declaration, a handler, a script and a link to data. -/
def hostileDrawing : String :=
  "<?xml version='1.0'?>\n<svg onload='a'><SCRIPT>b</SCRIPT>" ++
    "<a xlink:href='data:c' id='d'>&lt;e</a><br/></svg>\n"

theorem scan_sanitize_hostileDrawing :
    (Html.scanFragment (sanitize hostileDrawing).toList).unescaped =
      ⟨"", [(.start "svg" [("xmlns:xlink", xlinkSpace)], ""), (.start "a" [("id", "d")], "<e"),
        (.stop "a", ""), (.start "br" [], ""), (.stop "br", ""), (.stop "svg", "")]⟩ := by
  have houtline : (trees? (fragmentOf hostileDrawing)).map (outlineAll true) =
      some [.mark (.start "svg" [("xmlns:xlink", xlinkSpace)]), .mark (.start "a" [("id", "d")]),
        .text "<e", .mark (.stop "a"), .mark (.start "br" []), .mark (.stop "br"),
        .mark (.stop "svg")] := by
    decide +kernel
  rcases Option.map_eq_some_iff.1 houtline with ⟨ts, hts, hpieces⟩
  rcases (scan_sanitize hostileDrawing).2.1 with ⟨hnone, _⟩ | ⟨ts', hts', hscan⟩
  · rw [hts] at hnone
    cases hnone
  · obtain rfl : ts = ts' := Option.some.inj (hts.symm.trans hts')
    rw [hscan, hpieces]
    decide +kernel

end Vector
end RenderForest
