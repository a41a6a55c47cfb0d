import Mathlib.Data.List.Induction
import RenderForest.Proofs.Text.Escaped
import RenderForest.Text.Blank
/-!
# Blanks — what trimming and splitting at blanks leaves of a text

This file shows where the parts come from that other files look at:

* `exists_trim`: a trimmed text lacks nothing but blanks at its ends;
* `trimStart_append`, `trimEnd_append`: how much of two texts is trimmed;
* `trimStart_escapeChars`, `trimEnd_escapeChars`: trimming keeps references whole;
* `headD_words`: the first word begins behind the blanks and ends before the next one.
-/

namespace RenderForest
namespace Text

/-! ## Trimming -/

theorem exists_trimStart (s : List Char) :
    ∃ lead, s = lead ++ trimStart s ∧ ∀ c ∈ lead, isBlank c = true :=
  ⟨s.takeWhile isBlank, (List.takeWhile_append_dropWhile).symm,
    List.all_eq_true.1 List.all_takeWhile⟩

theorem exists_trimEnd (s : List Char) :
    ∃ trail, s = trimEnd s ++ trail ∧ ∀ c ∈ trail, isBlank c = true := by
  rcases exists_trimStart s.reverse with ⟨lead, hsplit, hlead⟩
  refine ⟨lead.reverse, ?_, fun c hc => hlead c (List.mem_reverse.1 hc)⟩
  -- The blanks at the end are those at the start of the reversed text.
  calc
    s = s.reverse.reverse := (List.reverse_reverse s).symm
    _ = (lead ++ trimStart s.reverse).reverse := congrArg List.reverse hsplit
    _ = trimEnd s ++ lead.reverse := List.reverse_append

/-- Trimming takes nothing but blanks from the ends of a text. -/
theorem exists_trim (s : List Char) :
    ∃ lead trail, s = lead ++ (trim s ++ trail) ∧ (∀ c ∈ lead, isBlank c = true) ∧
      ∀ c ∈ trail, isBlank c = true := by
  rcases exists_trimStart s with ⟨lead, hstart, hlead⟩
  rcases exists_trimEnd (trimStart s) with ⟨trail, hend, htrail⟩
  refine ⟨lead, trail, ?_, hlead, htrail⟩
  rw [trim, ← hend]
  exact hstart

/-- Blanks around a text do not matter for a beginning without blanks. -/
theorem prefix_of_blanks {p lead s trail : List Char} (hne : p ≠ [])
    (hp : ∀ c ∈ p, isBlank c = false) (hlead : ∀ c ∈ lead, isBlank c = true)
    (htrail : ∀ c ∈ trail, isBlank c = true) (h : p <+: lead ++ (s ++ trail)) : p <+: s := by
  have hnone : ∀ c ∈ p, isBlank c ≠ true := fun c hc => by simp [hp c hc]
  cases lead with
  | cons d lead =>
      -- The beginning would begin with a blank.
      rcases List.exists_cons_of_ne_nil hne with ⟨c, p, rfl⟩
      rcases List.cons_prefix_cons.1 h with ⟨rfl, _⟩
      exact absurd (hlead c (List.mem_cons_self ..)) (hnone c (List.mem_cons_self ..))
  | nil =>
      rw [List.nil_append] at h
      rcases List.prefix_or_prefix_of_prefix h (List.prefix_append s trail) with hs | ⟨r, rfl⟩
      · exact hs
      · -- What goes beyond the text is made of the blanks behind it.
        have hr : r <+: trail := (List.prefix_append_right_inj s).1 h
        cases r with
        | nil => simp
        | cons c r =>
            have hc : c ∈ trail := hr.subset (List.mem_cons_self ..)
            have hmem : c ∈ s ++ c :: r := List.mem_append_right _ (List.mem_cons_self ..)
            exact absurd (htrail c hc) (hnone c hmem)

/-! ## Trimming what is appended or escaped -/

section Trimming

variable {c : Char} {s : List Char}

theorem trimStart_cons (hc : isBlank c = false) (s : List Char) : trimStart (c :: s) = c :: s :=
  List.dropWhile_cons_of_neg (by simp [hc])

theorem trimEnd_concat (hc : isBlank c = false) (s : List Char) :
    trimEnd (s ++ [c]) = s ++ [c] := by
  rw [trimEnd, List.reverse_append, List.reverse_singleton, List.singleton_append,
    List.dropWhile_cons_of_neg (by simp [hc]), List.reverse_cons, List.reverse_reverse]

theorem trimEnd_concat_blank (hc : isBlank c = true) (s : List Char) :
    trimEnd (s ++ [c]) = trimEnd s := by
  rw [trimEnd, List.reverse_append, List.reverse_singleton, List.singleton_append,
    List.dropWhile_cons_of_pos hc, trimEnd]

theorem trimStart_append (s t : List Char) :
    trimStart (s ++ t) = if (trimStart s).isEmpty then trimStart t else trimStart s ++ t :=
  List.dropWhile_append

theorem trimEnd_append (s t : List Char) :
    trimEnd (s ++ t) = if (trimEnd t).isEmpty then trimEnd s else s ++ trimEnd t := by
  unfold trimEnd
  rw [List.reverse_append, List.dropWhile_append, List.isEmpty_reverse]
  split
  · rfl
  · rw [List.reverse_append, List.reverse_reverse]

theorem mem_of_mem_trimStart (h : c ∈ trimStart s) : c ∈ s :=
  (List.dropWhile_sublist _).subset h

theorem mem_of_mem_trimEnd (h : c ∈ trimEnd s) : c ∈ s := by
  have hmem := (List.dropWhile_sublist _).subset (List.mem_reverse.1 h)
  exact List.mem_reverse.1 hmem

theorem reference?_of_isBlank (hc : isBlank c = true) : reference? c = none := by
  unfold reference?
  split <;> first | rfl | cases hc

/-- Blanks are written as they are, so that an escaped text is trimmed like the text. -/
theorem trimStart_escapeChars (s : List Char) :
    trimStart (escapeChars s) = escapeChars (trimStart s) := by
  induction s with
  | nil => rfl
  | cons c s ih =>
      cases hc : isBlank c with
      | true =>
          have hdrop : trimStart (c :: s) = trimStart s := List.dropWhile_cons_of_pos hc
          rw [hdrop, ← ih, escapeChars, reference?_of_isBlank hc]
          exact List.dropWhile_cons_of_pos hc
      | false =>
          rw [trimStart_cons hc, escapeChars]
          cases hr : reference? c with
          | none => exact trimStart_cons hc _
          | some r =>
              -- A reference begins with an ampersand.
              rcases head_reference hr with ⟨u, rfl⟩
              exact trimStart_cons (by decide) _

theorem trimEnd_escapeChars (s : List Char) :
    trimEnd (escapeChars s) = escapeChars (trimEnd s) := by
  induction s using List.reverseRecOn with
  | nil => rfl
  | append_singleton s c ih =>
      rw [escapeChars_append, escapeChars, escapeChars, List.append_nil]
      cases hc : isBlank c with
      | true =>
          rw [trimEnd_concat_blank hc, ← ih, reference?_of_isBlank hc]
          exact trimEnd_concat_blank hc _
      | false =>
          rw [trimEnd_concat hc, escapeChars_append, escapeChars, escapeChars, List.append_nil]
          cases hr : reference? c with
          | none => exact trimEnd_concat hc _
          | some r =>
              -- A reference ends with a semicolon.
              rcases last_reference hr with ⟨u, rfl⟩
              rw [Option.getD_some, ← List.append_assoc]
              exact trimEnd_concat (by decide) _

end Trimming

/-! ## Words -/

/-- A word that was begun goes on up to the next blank. -/
theorem headD_go {word : List Char} (hword : word ≠ []) (s : List Char) :
    (words.go word s).headD [] = word.reverse ++ s.takeWhile (fun c => !isBlank c) := by
  have hne : word.isEmpty = false := by simpa using hword
  induction s generalizing word with
  | nil => simp [words.go, hne]
  | cons c s ih =>
      rw [words.go]
      cases hc : isBlank c with
      | true => simp [hne, hc]
      | false =>
          have htail := ih (List.cons_ne_nil c word) rfl
          simpa [hc] using htail

theorem headD_words (s : List Char) :
    (words s).headD [] = (s.dropWhile isBlank).takeWhile fun c => !isBlank c := by
  unfold words
  induction s with
  | nil => rfl
  | cons c s ih =>
      rw [words.go]
      cases hc : isBlank c with
      | true => simpa [hc] using ih
      | false =>
          -- The word begins with this character.
          have hword := headD_go (List.cons_ne_nil c []) s
          simpa [hc] using hword

end Text
end RenderForest
