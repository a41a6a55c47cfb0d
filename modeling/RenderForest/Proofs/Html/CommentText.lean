import Mathlib.Data.List.Infix
import Mathlib.Tactic.Tauto
import RenderForest.Proofs.Html.Scanner
import RenderForest.Tree.Html
/-!
# CommentText — texts of comments and their ends

A comment is written with a blank between the hyphens of each pair.  This file defines:

* `Html.EndsNoComment`, that no comment ends inside of a text;
* `Html.IsInert`, that a text holds no pair of hyphens and begins like no end;

and shows in `readComment_append` that a comment is read up to the end that was written for it
exactly when its text ends no comment, and in `isInert_spaceHyphens_iff` which texts become inert
when they are written.
-/

namespace RenderForest
namespace Html

/-! ## Comments -/

/-- A text in which no comment ends that it is the text of. -/
structure EndsNoComment (body : List Char) : Prop where
  sign : ¬ ['>'] <+: body
  arrow : ¬ ['-', '>'] <+: body
  close : ¬ ['-', '-', '>'] <:+: body
  bang : ¬ ['-', '-', '!', '>'] <:+: body

theorem commentSpan_cons (c : Char) (s : List Char) :
    (['-', '-', '>'] <+: c :: s ∨ ['-', '-', '!', '>'] <+: c :: s) ∧
        (commentSpan (c :: s)).1 = [] ∨
      (¬ ['-', '-', '>'] <+: c :: s ∧ ¬ ['-', '-', '!', '>'] <+: c :: s) ∧
        commentSpan (c :: s) = (c :: (commentSpan s).1, (commentSpan s).2) := by
  by_cases hclose : ['-', '-', '>'] <+: c :: s
  · obtain ⟨t, ht⟩ := hclose
    refine Or.inl ⟨Or.inl ⟨t, ht⟩, ?_⟩
    rw [← ht]
    rfl
  · by_cases hbang : ['-', '-', '!', '>'] <+: c :: s
    · obtain ⟨t, ht⟩ := hbang
      refine Or.inl ⟨Or.inr ⟨t, ht⟩, ?_⟩
      rw [← ht]
      rfl
    · refine Or.inr ⟨⟨hclose, hbang⟩, ?_⟩
      rw [commentSpan]
      · intro t hc hs
        exact hclose ⟨t, by rw [hc, hs]; rfl⟩
      · intro t hc hs
        exact hbang ⟨t, by rw [hc, hs]; rfl⟩

/-- A comment is read up to the end that was written for it, or it ends in its own text. -/
theorem commentSpan_append (body rest : List Char) :
    (¬ ['-', '-', '>'] <:+: body ∧ ¬ ['-', '-', '!', '>'] <:+: body) ∧
        commentSpan (body ++ '-' :: '-' :: '>' :: rest) = (body, rest) ∨
      (['-', '-', '>'] <:+: body ∨ ['-', '-', '!', '>'] <:+: body) ∧
        (commentSpan (body ++ '-' :: '-' :: '>' :: rest)).1 ≠ body := by
  induction body with
  | nil => simp [commentSpan]
  | cons c t ih =>
      -- An end that begins in the text is not made of what is written behind it.
      have hclose : ['-', '-', '>'] <+: c :: (t ++ '-' :: '-' :: '>' :: rest) ↔
          ['-', '-', '>'] <+: c :: t := by
        rcases t with _ | ⟨d, _ | ⟨e, t⟩⟩ <;> simp
      have hbang : ['-', '-', '!', '>'] <+: c :: (t ++ '-' :: '-' :: '>' :: rest) ↔
          ['-', '-', '!', '>'] <+: c :: t := by
        rcases t with _ | ⟨d, _ | ⟨e, _ | ⟨f, t⟩⟩⟩ <;> simp
      rw [List.infix_cons_iff, List.infix_cons_iff, ← hclose, ← hbang, List.cons_append]
      rcases commentSpan_cons c (t ++ '-' :: '-' :: '>' :: rest) with ⟨hends, hnil⟩ | ⟨hgoes, hspan⟩
      · refine Or.inr ⟨hends.imp Or.inl Or.inl, ?_⟩
        rw [hnil]
        exact (List.cons_ne_nil c t).symm
      · rw [hspan]
        rcases ih with ⟨hnone, heq⟩ | ⟨hends, hne⟩
        · refine Or.inl ⟨⟨not_or.2 ⟨hgoes.1, hnone.1⟩, not_or.2 ⟨hgoes.2, hnone.2⟩⟩, ?_⟩
          rw [heq]
        · refine Or.inr ⟨hends.imp Or.inr Or.inr, ?_⟩
          intro heq
          exact hne (List.cons.inj heq).2

/-- A comment is read up to the end that was written for it exactly when its text ends none. -/
theorem readComment_append (body rest : List Char) :
    EndsNoComment body ∧ readComment (body ++ '-' :: '-' :: '>' :: rest) = (body, rest) ∨
      ¬ EndsNoComment body ∧ (readComment (body ++ '-' :: '-' :: '>' :: rest)).1 ≠ body := by
  have hspan := commentSpan_append body rest
  -- The end that was written does not make a text begin like an end.
  have hsign : ['>'] <+: body ++ '-' :: '-' :: '>' :: rest ↔ ['>'] <+: body := by
    rcases body with _ | ⟨c, t⟩ <;> simp
  have harrow : ['-', '>'] <+: body ++ '-' :: '-' :: '>' :: rest ↔ ['-', '>'] <+: body := by
    rcases body with _ | ⟨c, _ | ⟨d, t⟩⟩ <;> simp
  unfold readComment
  split
  · rename_i t heq
    have hprefix : ['>'] <+: body := hsign.1 ⟨t, heq.symm⟩
    refine Or.inr ⟨fun h => h.sign hprefix, ?_⟩
    rintro rfl
    simp at hprefix
  · rename_i t heq
    have hprefix : ['-', '>'] <+: body := harrow.1 ⟨t, heq.symm⟩
    refine Or.inr ⟨fun h => h.arrow hprefix, ?_⟩
    rintro rfl
    simp at hprefix
  · rename_i hsign' harrow'
    rcases hspan with ⟨hnone, heq⟩ | ⟨hends, hne⟩
    · refine Or.inl ⟨⟨?_, ?_, hnone.1, hnone.2⟩, heq⟩
      · intro hprefix
        obtain ⟨t, ht⟩ := hsign.2 hprefix
        exact hsign' t ht.symm
      · intro hprefix
        obtain ⟨t, ht⟩ := harrow.2 hprefix
        exact harrow' t ht.symm
    · refine Or.inr ⟨?_, hne⟩
      intro h
      exact hends.elim h.close h.bang

/-! ## Hyphens -/

theorem head_spaceHyphens (s : List Char) : (spaceHyphens s).head? = s.head? := by
  induction s using spaceHyphens.induct with
  | case1 rest ih => rfl
  | case2 c rest hpair ih =>
      rw [spaceHyphens]
      · rfl
      · exact hpair
  | case3 => rfl

/-- A pair of hyphens is left where three of them stood in a row. -/
theorem pair_infix_spaceHyphens_iff (s : List Char) :
    ['-', '-'] <:+: spaceHyphens s ↔ ['-', '-', '-'] <:+: s := by
  induction s using spaceHyphens.induct with
  | case1 rest ih =>
      -- The pair is set apart, and its second hyphen may stand before a third.
      have hhead : ['-'] <+: spaceHyphens rest ↔ ['-'] <+: rest := by
        simp only [List.singleton_prefix_iff_head?_eq_some, head_spaceHyphens]
      have hthree : ['-', '-'] <+: rest → ['-'] <+: rest := by
        rintro ⟨t, rfl⟩
        simp
      rw [spaceHyphens]
      simp only [List.infix_cons_iff, List.cons_prefix_cons, ih, hhead]
      simp
      tauto
  | case2 c rest hpair ih =>
      have hhead : ['-'] <+: spaceHyphens rest ↔ ['-'] <+: rest := by
        simp only [List.singleton_prefix_iff_head?_eq_some, head_spaceHyphens]
      rw [spaceHyphens]
      -- A single hyphen stands before something else, also after the blanks were set.
      · have hsingle : '-' = c → ¬ ['-'] <+: rest := by
          rintro rfl ⟨t, rfl⟩
          exact hpair t rfl rfl
        have hthree : ['-', '-'] <+: rest → ['-'] <+: rest := by
          rintro ⟨t, rfl⟩
          simp
        simp only [List.infix_cons_iff, List.cons_prefix_cons, ih, hhead]
        tauto
      · exact hpair
  | case3 => simp [spaceHyphens]

/-! ## Inert texts -/

/-- A text that a comment may hold: no pair of hyphens stands in it, and it does not begin with a
greater-than sign, nor with an arrow. -/
structure IsInert (body : List Char) : Prop where
  pair : ¬ ['-', '-'] <:+: body
  sign : ¬ ['>'] <+: body
  arrow : ¬ ['-', '>'] <+: body

theorem IsInert.endsNoComment {body : List Char} (h : IsInert body) : EndsNoComment body where
  sign := h.sign
  arrow := h.arrow
  close hclose := h.pair (List.IsInfix.trans ⟨[], ['>'], rfl⟩ hclose)
  bang hbang := h.pair (List.IsInfix.trans ⟨[], ['!', '>'], rfl⟩ hbang)

/-- A text that setting blanks makes inert: it holds no three hyphens in a row, and it does not
begin with a greater-than sign, nor with an arrow. -/
structure IsTame (s : List Char) : Prop where
  triple : ¬ ['-', '-', '-'] <:+: s
  sign : ¬ ['>'] <+: s
  arrow : ¬ ['-', '>'] <+: s

theorem arrow_prefix_spaceHyphens_iff (s : List Char) :
    ['-', '>'] <+: spaceHyphens s ↔ ['-', '>'] <+: s := by
  induction s using spaceHyphens.induct with
  | case1 rest _ => simp [spaceHyphens]
  | case2 c rest hpair _ =>
      have hhead : ['>'] <+: spaceHyphens rest ↔ ['>'] <+: rest := by
        simp only [List.singleton_prefix_iff_head?_eq_some, head_spaceHyphens]
      rw [spaceHyphens]
      · rw [List.cons_prefix_cons, List.cons_prefix_cons, hhead]
      · exact hpair
  | case3 => rfl

theorem isInert_spaceHyphens_iff (s : List Char) : IsInert (spaceHyphens s) ↔ IsTame s := by
  -- Blanks are set behind the first character, so that a text begins as before.
  have hsign : ['>'] <+: spaceHyphens s ↔ ['>'] <+: s := by
    simp only [List.singleton_prefix_iff_head?_eq_some, head_spaceHyphens]
  have harrow := arrow_prefix_spaceHyphens_iff s
  have hpair := pair_infix_spaceHyphens_iff s
  constructor
  · intro h
    exact ⟨hpair.not.1 h.pair, hsign.not.1 h.sign, harrow.not.1 h.arrow⟩
  · intro h
    exact ⟨hpair.not.2 h.triple, hsign.not.2 h.sign, harrow.not.2 h.arrow⟩

end Html
end RenderForest
