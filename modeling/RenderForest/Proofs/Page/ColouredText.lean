import Mathlib.Data.List.Forall2
import RenderForest.Page.PlainText
import RenderForest.Proofs.Html.Pieces
/-!
# ColouredText — what coloured text shows

The markup of a text is one run for each line, out of which the weight of letters is cut.  Nothing
is cut out of the tag of a run, as no style sets a weight; the code inside is cut where it speaks of
a weight itself.  This file defines:

* `Html.Runs.content`, the text outside of the marks of a page;
* `PlainText.ShowsCode`, that markup has balanced tags around exactly the given code;
* `PlainText.Leaves`, what may be left of a line;

and shows in `showsCode_highlight_iff` that the markup of plain text shows its code exactly if the
code does not name the property that is cut.
-/

namespace RenderForest

/-! ## Markup of code -/

/-- The text outside of the marks. -/
def Html.Runs.content (r : Html.Runs) : List Char :=
  r.head.toList ++ r.tail.flatMap fun x => x.2.toList

namespace PlainText

/-- Markup whose tags are balanced, and outside of which stands exactly the code once the references
are read back. -/
structure ShowsCode (markup code : String) : Prop where
  balanced : Html.Nested (Html.scan true markup.toList).unescaped.marks
  content : (Html.scan true markup.toList).unescaped.content = code.toList

end PlainText

namespace Html

variable {s : String} {m : Mark} {r : Runs}

@[simp] theorem content_empty : Runs.empty.content = [] := rfl

@[simp] theorem content_text : (r.text s).content = s.toList ++ r.content := by
  simp [Runs.content, Runs.text]

@[simp] theorem content_mark : (r.mark m).content = r.content := by
  simp [Runs.content, Runs.mark]

end Html

namespace PlainText

variable {theme : Theme} {c : Char} {s t u p : List Char}

/-! ## The property -/

/-- The property without its first character. -/
def propertyTail : List Char := "ont-weight:".toList

theorem weightProperty_eq : weightProperty = 'f' :: propertyTail := by decide

theorem cut_append (u s : List Char) : dropWeight.cut u.length (u ++ s) = dropWeight.cut 0 s := by
  induction u with
  | nil => rfl
  | cons c u ih => exact ih

theorem keep_property (s : List Char) :
    dropWeight.keep 0 (weightProperty ++ s) = dropWeight.cut 0 s := by
  have hbegins : weightProperty.isPrefixOf ('f' :: (propertyTail ++ s)) = true := by
    rw [← List.cons_append, ← weightProperty_eq]
    exact List.isPrefixOf_iff_prefix.2 (List.prefix_append _ _)
  have hlength : weightProperty.length - 1 = propertyTail.length := by decide
  calc
    dropWeight.keep 0 (weightProperty ++ s)
        = dropWeight.keep 0 ('f' :: (propertyTail ++ s)) := by
          rw [weightProperty_eq, List.cons_append]
    _ = dropWeight.cut (weightProperty.length - 1) (propertyTail ++ s) := by
          rw [dropWeight.keep, if_pos hbegins]
    _ = dropWeight.cut 0 s := by rw [hlength, cut_append]

theorem keep_cons (h : ¬ weightProperty <+: c :: s) :
    dropWeight.keep 0 (c :: s) = c :: dropWeight.keep 0 s := by
  rw [dropWeight.keep, if_neg]
  exact fun hbegins => h (List.isPrefixOf_iff_prefix.1 hbegins)

/-- Nothing is cut where the property does not begin. -/
theorem keep_of_not_mem (hu : 'f' ∉ u) (s : List Char) :
    dropWeight.keep 0 (u ++ s) = u ++ dropWeight.keep 0 s := by
  induction u with
  | nil => rfl
  | cons c u ih =>
      rcases List.ne_and_not_mem_of_not_mem_cons hu with ⟨hc, hu⟩
      have hnone : ¬ weightProperty <+: c :: (u ++ s) := by
        rw [weightProperty_eq, List.cons_prefix_cons]
        exact fun h => hc h.1
      rw [List.cons_append, keep_cons hnone, ih hu, List.cons_append]

theorem not_mem_reference {r : List Char} (h : Text.reference? c = some r) : 'f' ∉ r := by
  unfold Text.reference? at h
  split at h <;> cases h <;> decide

/-! ## Escaped lines -/

theorem escapeChars_of_plain (hp : ∀ c ∈ p, Text.reference? c = none) : Text.escapeChars p = p := by
  induction p with
  | nil => rfl
  | cons c p ih =>
      rw [Text.escapeChars, hp c (List.mem_cons_self ..),
        ih fun d hd => hp d (List.mem_cons_of_mem _ hd)]
      rfl

/-- A beginning without markup characters is the same before and after escaping, when a tag
follows. -/
theorem prefix_escapeChars_iff (hp : ∀ c ∈ p, Text.reference? c = none) (s t : List Char) :
    p <+: Text.escapeChars s ++ '<' :: t ↔ p <+: s := by
  induction p generalizing s with
  | nil => simp
  | cons c p ih =>
      have hc := hp c (List.mem_cons_self ..)
      have htail := ih fun d hd => hp d (List.mem_cons_of_mem _ hd)
      have hne : ∀ d : Char, Text.reference? d ≠ none → c ≠ d := by
        rintro d hd rfl
        exact hd hc
      cases s with
      | nil => simp [Text.escapeChars, hne '<' (by decide)]
      | cons d s =>
          rw [Text.escapeChars, List.cons_prefix_cons]
          cases hd : Text.reference? d with
          | none => simp [htail s]
          | some r =>
              -- A reference begins with an ampersand, and stands for a markup character.
              rcases Text.head_reference hd with ⟨r', rfl⟩
              simp [hne '&' (by decide), hne d (by simp [hd])]

theorem reference?_of_mem_property : ∀ c ∈ weightProperty, Text.reference? c = none := by
  have hall : (weightProperty.all fun c => (Text.reference? c).isNone) = true := by decide
  exact fun c hc => Option.isNone_iff_eq_none.1 (List.all_eq_true.1 hall c hc)

/-! ## What is left of a line -/

def endTag : List Char := "</span>".toList

theorem toList_endTag : "</span>".toList = endTag := rfl

theorem keep_endTag : dropWeight.keep 0 endTag = endTag := by
  have h := keep_of_not_mem (by decide : 'f' ∉ endTag) []
  rwa [List.append_nil] at h

theorem cut_semicolon (hu : ';' ∉ u) (s : List Char) :
    dropWeight.cut 0 (u ++ ';' :: s) = dropWeight.keep 0 s := by
  induction u with
  | nil => rfl
  | cons c u ih =>
      rcases List.ne_and_not_mem_of_not_mem_cons hu with ⟨hc, hu⟩
      rw [List.cons_append, dropWeight.cut, if_neg (by simpa using hc.symm)]
      exact ih hu

theorem exists_reference_eq {r : List Char} (h : Text.reference? c = some r) :
    ∃ u, r = u ++ [';'] ∧ ';' ∉ u := by
  unfold Text.reference? at h
  split at h <;> cases h <;>
    exact ⟨_, (List.dropLast_concat_getLast (by decide)).symm, by decide⟩

/-- A value is passed over up to a semicolon of the text or that of a reference, and up to the end
if there is none. -/
theorem cut_escapeChars (s : List Char) :
    (∃ t, t.Sublist s ∧
        dropWeight.cut 0 (Text.escapeChars s ++ endTag) =
          dropWeight.keep 0 (Text.escapeChars t ++ endTag)) ∨
      dropWeight.cut 0 (Text.escapeChars s ++ endTag) = [] := by
  induction s with
  | nil => exact Or.inr (by decide)
  | cons c s ih =>
      rw [Text.escapeChars, List.append_assoc]
      cases hc : Text.reference? c with
      | some r =>
          rcases exists_reference_eq hc with ⟨u, rfl, hu⟩
          refine Or.inl ⟨s, List.sublist_cons_self c s, ?_⟩
          simpa using cut_semicolon hu (Text.escapeChars s ++ endTag)
      | none =>
          by_cases hstop : c = ';'
          · subst hstop
            exact Or.inl ⟨s, List.sublist_cons_self _ s, cut_semicolon List.not_mem_nil _⟩
          · -- Another character is passed over.
            have hstep : dropWeight.cut 0 (c :: (Text.escapeChars s ++ endTag)) =
                dropWeight.cut 0 (Text.escapeChars s ++ endTag) := by
              rw [dropWeight.cut, if_neg (by simpa using hstop)]
            rw [Option.getD_none, List.singleton_append, hstep]
            refine ih.imp ?_ id
            rintro ⟨t, ht, hcut⟩
            exact ⟨t, ht.cons c, hcut⟩

/-- What may be left of a line: parts of it in their order, all of it if it does not name the
property, and less if it does.  The flag tells that the end tag of the run is left, too. -/
structure Leaves (line kept : List Char) (closed : Bool) : Prop where
  sublist : kept.Sublist line
  whole : ¬ weightProperty <:+: line → kept = line ∧ closed = true
  cut : weightProperty <:+: line → kept.length < line.length

/-- A character in front of what is left stays. -/
theorem Leaves.cons {line kept : List Char} {closed : Bool} (h : Leaves line kept closed)
    (hc : ¬ weightProperty <+: c :: line) : Leaves (c :: line) (c :: kept) closed where
  sublist := h.sublist.cons_cons c
  whole hnone := by
    rcases h.whole fun hlater => hnone (List.infix_cons hlater) with ⟨rfl, hclosed⟩
    exact ⟨rfl, hclosed⟩
  cut hlater := Nat.succ_lt_succ (h.cut ((List.infix_cons_iff.1 hlater).resolve_left hc))

/-- A line that begins with the property is cut. -/
theorem Leaves.ofCut {kept : List Char} (h : kept.Sublist s) (closed : Bool) :
    Leaves (weightProperty ++ s) kept closed where
  sublist := h.trans (List.sublist_append_right _ _)
  whole hnone := absurd (List.prefix_append _ _).isInfix hnone
  cut _ := by
    have hle := h.length_le
    have hpos : 0 < weightProperty.length := by decide
    rw [List.length_append]
    omega

theorem exists_leaves (line : List Char) :
    ∃ kept closed, Leaves line kept closed ∧
      dropWeight.keep 0 (Text.escapeChars line ++ endTag) =
        Text.escapeChars kept ++ if closed then endTag else [] := by
  -- The induction is on the length, as a cut takes more than one character.
  induction hlength : line.length using Nat.strong_induction_on generalizing line with
  | _ n ih =>
      by_cases hbegins : weightProperty <+: line
      · rcases hbegins with ⟨s, rfl⟩
        have hstart : dropWeight.keep 0 (Text.escapeChars (weightProperty ++ s) ++ endTag) =
            dropWeight.cut 0 (Text.escapeChars s ++ endTag) := by
          rw [Text.escapeChars_append, escapeChars_of_plain reference?_of_mem_property,
            List.append_assoc, keep_property]
        rw [hstart]
        rcases cut_escapeChars s with ⟨t, ht, hcut⟩ | hnil
        · have hlt : t.length < n := by
            have hle := ht.length_le
            have hpos : 0 < weightProperty.length := by decide
            rw [List.length_append] at hlength
            omega
          rcases ih t.length hlt t rfl with ⟨kept, closed, hleaves, hkeep⟩
          exact ⟨kept, closed, .ofCut (hleaves.sublist.trans ht) closed, hcut.trans hkeep⟩
        · exact ⟨[], false, .ofCut (List.nil_sublist s) false, hnil⟩
      · cases line with
        | nil =>
            refine ⟨[], true, ⟨List.Sublist.refl _, fun _ => ⟨rfl, rfl⟩, ?_⟩, keep_endTag⟩
            exact fun hlater => absurd (List.infix_nil.1 hlater) (by decide)
        | cons c line =>
            rcases ih line.length (by simp at hlength; omega) line rfl with
              ⟨kept, closed, hleaves, hkeep⟩
            refine ⟨c :: kept, closed, hleaves.cons hbegins, ?_⟩
            rw [Text.escapeChars, Text.escapeChars, List.append_assoc, List.append_assoc, ← hkeep]
            cases hc : Text.reference? c with
            | some r => exact keep_of_not_mem (not_mem_reference hc) _
            | none =>
                -- The property begins in the escaped line only where it begins in the line.
                have hescaped := prefix_escapeChars_iff reference?_of_mem_property (c :: line)
                  "/span>".toList
                rw [Text.escapeChars, hc] at hescaped
                exact keep_cons fun h => hbegins (hescaped.1 h)

/-! ## Lines -/

theorem lines_cons_feed (s : List Char) : lines ('\n' :: s) = ['\n'] :: lines s := by
  rw [lines, if_pos (by decide)]

theorem lines_cons (hc : c ≠ '\n') (s : List Char) :
    lines (c :: s) = (c :: (lines s).headD []) :: (lines s).tail := by
  rw [lines, if_neg (by simpa using hc)]
  cases lines s <;> rfl

theorem flatten_lines (s : List Char) : (lines s).flatten = s := by
  induction s with
  | nil => rfl
  | cons c s ih =>
      by_cases hc : c = '\n'
      · subst hc
        rw [lines_cons_feed, List.flatten_cons, ih]
        rfl
      · rw [lines_cons hc]
        cases hlines : lines s with
        | nil => simpa [hlines] using ih
        | cons line more => simpa [hlines] using ih

theorem exists_lines_cons (c : Char) (s : List Char) :
    ∃ line more, lines (c :: s) = line :: more := by
  by_cases hc : c = '\n'
  · subst hc
    exact ⟨_, _, lines_cons_feed s⟩
  · exact ⟨_, _, lines_cons hc s⟩

/-- What begins a text without a line feed begins its first line. -/
theorem prefix_headD_lines (hp : '\n' ∉ p) (h : p <+: s) : p <+: (lines s).headD [] := by
  induction s generalizing p with
  | nil =>
      rw [List.prefix_nil.1 h]
      exact List.nil_prefix
  | cons c s ih =>
      cases p with
      | nil => exact List.nil_prefix
      | cons d p =>
          rcases List.cons_prefix_cons.1 h with ⟨rfl, htail⟩
          rcases List.ne_and_not_mem_of_not_mem_cons hp with ⟨hd, hp⟩
          rw [lines_cons hd.symm]
          exact List.cons_prefix_cons.2 ⟨rfl, ih hp htail⟩

/-- What a text holds without a line feed is held by one of its lines. -/
theorem exists_line_holding (hp : '\n' ∉ p) (hne : p ≠ []) (h : p <:+: s) :
    ∃ line ∈ lines s, p <:+: line := by
  induction s with
  | nil => exact absurd (List.infix_nil.1 h) hne
  | cons c s ih =>
      rcases List.infix_cons_iff.1 h with hbegins | hlater
      · rcases exists_lines_cons c s with ⟨line, more, hlines⟩
        have hfirst := prefix_headD_lines hp hbegins
        rw [hlines] at hfirst ⊢
        exact ⟨line, List.mem_cons_self .., hfirst.isInfix⟩
      · rcases ih hlater with ⟨line, hline, hlater⟩
        by_cases hc : c = '\n'
        · subst hc
          rw [lines_cons_feed]
          exact ⟨line, List.mem_cons_of_mem _ hline, hlater⟩
        · rw [lines_cons hc]
          cases hlines : lines s with
          | nil =>
              rw [hlines] at hline
              cases hline
          | cons first more =>
              rw [hlines] at hline
              -- The character goes into the first line.
              rcases List.mem_cons.1 hline with rfl | hline
              · exact ⟨c :: line, List.mem_cons_self .., List.infix_cons hlater⟩
              · exact ⟨line, List.mem_cons_of_mem _ hline, hlater⟩

theorem infix_iff_lines (hp : '\n' ∉ p) (hne : p ≠ []) (s : List Char) :
    p <:+: s ↔ ∃ line ∈ lines s, p <:+: line := by
  refine ⟨exists_line_holding hp hne, ?_⟩
  rintro ⟨line, hline, hlater⟩
  have hwhole : line <:+: (lines s).flatten := List.infix_of_mem_flatten hline
  rw [flatten_lines] at hwhole
  exact hlater.trans hwhole

/-! ## Runs -/

def openAttrs (theme : Theme) : List (String × String) :=
  [("style", "color:" ++ colour theme ++ ";")]

def openMark (theme : Theme) : Html.Mark :=
  .start "span" (openAttrs theme)

theorem valid_of_mem_openAttrs :
    ∀ a ∈ openAttrs theme, Safety.isValidAttributeName a.1 = true := by
  intro a ha
  rw [List.mem_singleton.1 ha]
  exact (by decide : Safety.isValidAttributeName "style" = true)

/-- The pieces of a run of which a part of a line is left, and the end tag or not. -/
def runPieces (theme : Theme) (left : List Char × Bool) : List Html.Piece :=
  .mark (openMark theme) :: .text (String.ofList left.1) ::
    if left.2 then [.mark (.stop "span")] else []

theorem toList_openTag (theme : Theme) :
    ("<span style=\"color:" ++ colour theme ++ ";\">").toList = (openMark theme).write := by
  cases theme <;> decide

theorem exists_runPieces (theme : Theme) (line : List Char) :
    ∃ left : List Char × Bool, Leaves line left.1 left.2 ∧
      dropWeight (run theme line) = Html.writePieces (runPieces theme left) := by
  rcases exists_leaves line with ⟨kept, closed, hleaves, hkeep⟩
  refine ⟨(kept, closed), hleaves, ?_⟩
  have htag : 'f' ∉ (openMark theme).write := by
    cases theme <;> decide
  have hend : Html.writePieces (if closed then [.mark (.stop "span")] else []) =
      if closed then endTag else [] := by
    cases closed <;> rfl
  calc
    dropWeight (run theme line)
        = dropWeight.keep 0 ((openMark theme).write ++ (Text.escapeChars line ++ endTag)) := by
          rw [run, dropWeight, toList_openTag, toList_endTag, List.append_assoc]
    _ = (openMark theme).write ++ (Text.escapeChars kept ++ if closed then endTag else []) := by
          rw [keep_of_not_mem htag, hkeep]
    _ = Html.writePieces (runPieces theme (kept, closed)) := by
          simp [runPieces, Html.Piece.write, Text.escape, hend]

/-- The pieces of the markup of lines. -/
theorem exists_pieces (theme : Theme) (ls : List (List Char)) :
    ∃ lefts : List (List Char × Bool),
      List.Forall₂ (fun line left => Leaves line left.1 left.2) ls lefts ∧
        ls.flatMap (fun line => dropWeight (run theme line)) =
          Html.writePieces (lefts.flatMap (runPieces theme)) := by
  induction ls with
  | nil => exact ⟨[], .nil, rfl⟩
  | cons line ls ih =>
      rcases exists_runPieces theme line with ⟨left, hleaves, hrun⟩
      rcases ih with ⟨lefts, hall, hruns⟩
      refine ⟨left :: lefts, .cons hleaves hall, ?_⟩
      rw [List.flatMap_cons, List.flatMap_cons, Html.writePieces_append, hrun, hruns]

/-! ## Reading runs -/

variable {ls : List (List Char)} {lefts : List (List Char × Bool)}

theorem mem_marksOf_runs {m : Html.Mark}
    (hm : m ∈ Html.marksOf (lefts.flatMap (runPieces theme))) :
    m = openMark theme ∨ m = .stop "span" := by
  rcases List.mem_filterMap.1 hm with ⟨piece, hpiece, heq⟩
  rcases List.mem_flatMap.1 hpiece with ⟨⟨kept, closed⟩, _, hpiece⟩
  cases closed <;> simp [runPieces] at hpiece <;>
    rcases hpiece with rfl | rfl | rfl <;> simp_all [Html.Piece.mark?]

/-- The markup is read back as the pieces of its runs. -/
theorem unescaped_scan_runs (theme : Theme) (lefts : List (List Char × Bool)) :
    (Html.scan true (Html.writePieces (lefts.flatMap (runPieces theme)))).unescaped =
      Html.Runs.ofPieces (lefts.flatMap (runPieces theme)) := by
  have hwritable : ∀ m ∈ Html.marksOf (lefts.flatMap (runPieces theme)), m.IsWritable := by
    intro m hm
    have hspan : Html.isValidTag "span" = true := by decide
    rcases mem_marksOf_runs hm with rfl | rfl
    · exact ⟨hspan, valid_of_mem_openAttrs⟩
    · exact hspan
  have hcomments : ∀ t ∈ Html.commentTexts (Html.marksOf (lefts.flatMap (runPieces theme))),
      Html.EndsNoComment (Html.spaceHyphens t.toList) := by
    intro t ht
    rcases List.mem_filterMap.1 ht with ⟨m, hm, heq⟩
    rcases mem_marksOf_runs hm with rfl | rfl <;> cases heq
  have hread := (Html.unescaped_scan_pieces_iff hwritable (Or.inl rfl) [] .empty).2
    ⟨hcomments, Html.unescaped_scan_nil⟩
  rwa [List.append_nil] at hread

theorem content_runs (theme : Theme) (lefts : List (List Char × Bool)) :
    (Html.Runs.ofPieces (lefts.flatMap (runPieces theme))).content =
      (lefts.map Prod.fst).flatten := by
  induction lefts with
  | nil => rfl
  | cons left lefts ih =>
      rcases left with ⟨kept, closed⟩
      cases closed <;>
        simpa [Html.Runs.ofPieces, runPieces, Html.Piece.onto] using ih

/-- Whole runs are one element after another. -/
theorem nested_runs (theme : Theme) (ls : List (List Char)) :
    Html.Nested (Html.Runs.ofPieces ((ls.map fun line => (line, true)).flatMap
      (runPieces theme))).marks := by
  have hspan : Html.isValidTag "span" = true := by decide
  have hvoid : Html.isVoid "span" = false := by decide
  induction ls with
  | nil => exact Html.Nested.nil
  | cons line ls ih => exact Html.Nested.element hspan valid_of_mem_openAttrs hvoid .nil ih

theorem eq_map_of_leaves (h : List.Forall₂ (fun line left => Leaves line left.1 left.2) ls lefts)
    (hnone : ∀ line ∈ ls, ¬ weightProperty <:+: line) :
    lefts = ls.map fun line => (line, true) := by
  induction h with
  | nil => rfl
  | @cons line left ls lefts hleaves _ ih =>
      rcases hleaves.whole (hnone line (List.mem_cons_self ..)) with ⟨hkept, hclosed⟩
      rw [List.map_cons, ih fun l hl => hnone l (List.mem_cons_of_mem _ hl), ← hclosed, ← hkept]

theorem length_le_of_leaves
    (h : List.Forall₂ (fun line left => Leaves line left.1 left.2) ls lefts) :
    (lefts.map Prod.fst).flatten.length ≤ ls.flatten.length := by
  induction h with
  | nil => exact Nat.le_refl _
  | cons hleaves _ ih => simpa using Nat.add_le_add hleaves.sublist.length_le ih

/-- A line that names the property makes the text shorter. -/
theorem length_lt_of_leaves
    (h : List.Forall₂ (fun line left => Leaves line left.1 left.2) ls lefts)
    {line : List Char} (hline : line ∈ ls) (hcut : weightProperty <:+: line) :
    (lefts.map Prod.fst).flatten.length < ls.flatten.length := by
  induction h with
  | nil => cases hline
  | @cons first left ls lefts hleaves hall ih =>
      have hfirst := hleaves.sublist.length_le
      have hrest := length_le_of_leaves hall
      simp only [List.map_cons, List.flatten_cons, List.length_append]
      rcases List.mem_cons.1 hline with rfl | hline
      · have hlt := hleaves.cut hcut
        omega
      · have hlt := ih hline
        omega

/-! ## Coloured text -/

/-- Plain text is always coloured, and the markup shows its code exactly if the code does not name
the weight of letters as a style would set it. -/
theorem showsCode_highlight_iff {language : String} (hlanguage : matchesName language = true)
    (theme : Theme) (code : String) :
    ∃ markup, highlight theme code language = some markup ∧
      (ShowsCode markup code ↔ ¬ weightProperty <:+: code.toList) := by
  rcases exists_pieces theme (lines code.toList) with ⟨lefts, hall, hpieces⟩
  refine ⟨_, if_pos hlanguage, ?_⟩
  rw [hpieces, infix_iff_lines (by decide) (by decide)]
  have hscan := unescaped_scan_runs theme lefts
  constructor
  · intro hshows
    rintro ⟨line, hline, hcut⟩
    -- What is left is shorter than the code.
    have hlt := length_lt_of_leaves hall hline hcut
    have hcontent := hshows.content
    rw [String.toList_ofList, hscan, content_runs] at hcontent
    rw [hcontent, flatten_lines] at hlt
    exact Nat.lt_irrefl _ hlt
  · intro hnone
    have hwhole := eq_map_of_leaves hall fun line hline hcut => hnone ⟨line, hline, hcut⟩
    have hkept : lefts.map Prod.fst = lines code.toList := by
      rw [hwhole, List.map_map]
      exact List.map_id _
    constructor
    · rw [String.toList_ofList, hscan, hwhole]
      exact nested_runs theme _
    · rw [String.toList_ofList, hscan, content_runs, hkept, flatten_lines]

theorem showsCode_highlight_iff_txt :
    matchesName "TXT" = true ∧
      ∃ markup, highlight .dark "<b>\n&amp; font-weight\n" "TXT" = some markup ∧
        ShowsCode markup "<b>\n&amp; font-weight\n" := by
  have hlanguage : matchesName "TXT" = true := by decide
  rcases showsCode_highlight_iff hlanguage .dark "<b>\n&amp; font-weight\n" with
    ⟨markup, hmarkup, hiff⟩
  exact ⟨hlanguage, markup, hmarkup, hiff.2 (by decide)⟩

/-- A style in the code is cut like one of the markup, and the end tag goes with it. -/
theorem not_showsCode_highlight :
    ¬ ∀ (theme : Theme) (code language markup : String),
      highlight theme code language = some markup → ShowsCode markup code := by
  intro h
  have hmarkup : highlight .auto "a\x7bfont-weight:bold\x7d" "txt" =
      some "<span style=\"color:#323232;\">a\x7b" := by
    decide
  have hshows := h _ _ _ _ hmarkup
  exact absurd hshows.content (by decide +kernel)

end PlainText
end RenderForest
