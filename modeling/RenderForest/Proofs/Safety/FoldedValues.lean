import Mathlib.Data.List.DropRight
import RenderForest.Proofs.Safety.Schemes
import RenderForest.Proofs.Xml.WrittenText
/-!
# FoldedValues — values that are checked again after they were read

A value that is written and read again has blanks where tabs and line ends stood.  The check of
values drops blanks, or ends a word at them, so that its answer is the same.  This file shows it in
`isSafeValue_rereadValue`.
-/

namespace RenderForest

namespace Xml

variable {s : List Char} {c : Char}

theorem valueChar_of_not_isBlank (hc : Text.isBlank c = false) : valueChar c = c := by
  unfold valueChar
  split
  · rename_i hblank
    simp only [Bool.or_eq_true, beq_iff_eq] at hblank
    rcases hblank with (rfl | rfl) | rfl <;> cases hc
  · rfl

theorem isBlank_valueChar (c : Char) : Text.isBlank (valueChar c) = Text.isBlank c := by
  cases hc : Text.isBlank c with
  | false => rw [valueChar_of_not_isBlank hc, hc]
  | true =>
      unfold valueChar
      split
      · rfl
      · exact hc

theorem foldBlanks_cons (hc : Text.isBlank c = false) (s : List Char) :
    foldBlanks (c :: s) = c :: foldBlanks s := by
  have hne : c ≠ '\r' := by
    rintro rfl
    cases hc
  rw [foldBlanks, if_neg (by simp [hne]), valueChar_of_not_isBlank hc]

/-- The blanks at the start are dropped before the others are folded, or behind. -/
theorem trimStart_foldBlanks (s : List Char) :
    Text.trimStart (foldBlanks s) = foldBlanks (Text.trimStart s) := by
  induction s with
  | nil => rfl
  | cons c s ih =>
      unfold Text.trimStart at ih ⊢
      cases hc : Text.isBlank c with
      | false =>
          rw [foldBlanks_cons hc, List.dropWhile_cons_of_neg (by simp [hc]),
            List.dropWhile_cons_of_neg (by simp [hc]), foldBlanks_cons hc]
      | true =>
          rw [List.dropWhile_cons_of_pos hc, ← ih, foldBlanks]
          split
          · rfl
          · exact List.dropWhile_cons_of_pos ((isBlank_valueChar c).trans hc)

/-- A first word ends at the same place. -/
theorem takeWhile_foldBlanks (s : List Char) :
    (foldBlanks s).takeWhile (fun c => !Text.isBlank c) =
      s.takeWhile fun c => !Text.isBlank c := by
  induction s with
  | nil => rfl
  | cons c s ih =>
      cases hc : Text.isBlank c with
      | false => simp [foldBlanks_cons hc, hc, ih]
      | true =>
          rw [foldBlanks, List.takeWhile_cons_of_neg (by simp [hc])]
          split
          · -- A blank stands behind the one that is left out.
            rename_i hline
            simp only [Bool.and_eq_true, beq_iff_eq] at hline
            cases s with
            | nil => rfl
            | cons d s =>
                obtain rfl : d = '\n' := Option.some.inj hline.2
                rw [ih]
                rfl
          · exact List.takeWhile_cons_of_neg (by simp [isBlank_valueChar, hc])

/-- A piece begins with a line feed where the text does. -/
theorem head?_first_piece {sep : Char} (hsep : sep ≠ '\n') {piece : List Char}
    {pieces : List (List Char)} (h : Text.splitOn sep s = piece :: pieces) :
    (piece.head? == some '\n') = (s.head? == some '\n') := by
  cases s with
  | nil =>
      cases h
      rfl
  | cons c s =>
      by_cases hc : c = sep
      · subst hc
        rw [Text.splitOn_sep] at h
        cases h
        simp [hsep]
      · rw [Text.splitOn_cons hc] at h
        cases hsplit : Text.splitOn sep s with
        | nil => exact absurd hsplit (Text.splitOn_ne_nil sep s)
        | cons first rest =>
            rw [hsplit] at h
            cases h
            rfl

/-- Blanks are folded piece by piece. -/
theorem splitOn_foldBlanks {sep : Char} (hsep : Text.isBlank sep = false) (s : List Char) :
    Text.splitOn sep (foldBlanks s) = (Text.splitOn sep s).map foldBlanks := by
  -- A carriage return and the line feed behind it stand in the same piece.
  have hline : sep ≠ '\n' := by
    rintro rfl
    cases hsep
  induction s with
  | nil => rfl
  | cons c s ih =>
      by_cases hc : c = sep
      · subst hc
        rw [foldBlanks_cons hsep, Text.splitOn_sep, Text.splitOn_sep, ih]
        rfl
      · have hvalue : valueChar c ≠ sep := by
          intro heq
          have hblank := isBlank_valueChar c
          rw [heq, hsep] at hblank
          exact hc ((valueChar_of_not_isBlank hblank.symm).symm.trans heq)
        cases hsplit : Text.splitOn sep s with
        | nil => exact absurd hsplit (Text.splitOn_ne_nil sep s)
        | cons piece pieces =>
            rw [Text.splitOn_cons hc, hsplit, foldBlanks, ← head?_first_piece hline hsplit,
              List.modifyHead_cons, List.map_cons, foldBlanks]
            rw [hsplit] at ih
            split
            · exact ih
            · rw [Text.splitOn_cons hvalue, ih]
              rfl

end Xml

namespace Safety

variable {s : List Char}

/-- No blank of XML is seen by the check. -/
theorem seenText_foldBlanks (s : List Char) : seenText (Xml.foldBlanks s) = seenText s := by
  induction s with
  | nil => rfl
  | cons c s ih =>
      have hcons : ∀ (d : Char) (t : List Char), seenText (d :: t) = seenText [d] ++ seenText t :=
        fun d t => seenText_append [d] t
      have hvalue : seenText [Xml.valueChar c] = seenText [c] := by
        unfold Xml.valueChar
        split
        · rename_i hblank
          simp only [Bool.or_eq_true, beq_iff_eq] at hblank
          rcases hblank with (rfl | rfl) | rfl <;> rfl
        · rfl
      rw [Xml.foldBlanks]
      split
      · rename_i hline
        simp only [Bool.and_eq_true, beq_iff_eq] at hline
        rw [ih, hcons c, hline.1]
        rfl
      · rw [hcons, hcons c, hvalue, ih]

/-- Blanks at the end of a text are not needed to find a scheme. -/
theorem showsScheme_trim_iff (s : List Char) :
    ShowsScheme (Text.trim s) ↔ ShowsScheme (Text.trimStart s) := by
  constructor
  · rintro ⟨scheme, hmem, hbegins⟩
    rcases Text.exists_trimEnd (Text.trimStart s) with ⟨trail, hsplit, _⟩
    refine ⟨scheme, hmem, ?_⟩
    rw [hsplit, seenText_append]
    exact hbegins.trans (List.prefix_append _ _)
  · intro h
    have htwice : Text.trimStart (Text.trimStart s) = Text.trimStart s :=
      List.dropWhile_idempotent _ _
    have htrim := h.trim
    rw [Text.trim, htwice] at htrim
    exact htrim

theorem isSafeUrl_foldBlanks (url : List Char) :
    isSafeUrl (Xml.foldBlanks url) = isSafeUrl url := by
  have hrefused : isSafeUrl (Xml.foldBlanks url) = false ↔ isSafeUrl url = false := by
    rw [isSafeUrl_eq_false_iff, isSafeUrl_eq_false_iff, showsScheme_trim_iff,
      showsScheme_trim_iff, Xml.trimStart_foldBlanks, ShowsScheme, ShowsScheme,
      seenText_foldBlanks]
  cases h : isSafeUrl url with
  | false => exact hrefused.2 h
  | true =>
      rw [← Bool.not_eq_false, hrefused, h]
      exact Bool.noConfusion

theorem candidateUrl_foldBlanks (candidate : List Char) :
    candidateUrl (Xml.foldBlanks candidate) = candidateUrl candidate := by
  have htrim := Xml.trimStart_foldBlanks candidate
  unfold Text.trimStart at htrim
  rw [candidateUrl, candidateUrl, Text.headD_words, Text.headD_words, htrim,
    Xml.takeWhile_foldBlanks]

/-- A value that was written and read again is accepted exactly when it was before. -/
theorem isSafeValue_rereadValue (name value : String) :
    isSafeValue name (Xml.rereadValue value) = isSafeValue name value := by
  unfold isSafeValue
  split
  · rfl
  · rw [Xml.rereadValue, String.toList_ofList, isSafeUrl_foldBlanks,
      Xml.splitOn_foldBlanks (by decide), List.all_map]
    simp only [Function.comp_def, candidateUrl_foldBlanks]

end Safety
end RenderForest
