import RenderForest.Text.Blank
/-!
# Splitting — texts cut at separators and at needles

This file shows what readers rely on that cut texts into pieces:

* `splitOn_sep`, `splitOn_cons`: a separator begins a new piece, and any other character goes into
  the first one;
* `splitOn_append`: a text without separators is the first piece of what it begins;
* `mem_of_mem_splitOn`, `not_mem_of_mem_splitOn`: pieces are made of the other characters;
* `eq_append_of_breakOn?`: a text is broken where the needle first occurs.
-/

namespace RenderForest
namespace Text

/-! ## Separators -/

theorem splitOn_ne_nil (sep : Char) (s : List Char) : splitOn sep s ≠ [] := by
  cases s with
  | nil => exact List.cons_ne_nil _ _
  | cons c s =>
      unfold splitOn
      split
      · exact List.cons_ne_nil _ _
      · split <;> exact List.cons_ne_nil _ _

theorem splitOn_sep (sep : Char) (s : List Char) :
    splitOn sep (sep :: s) = [] :: splitOn sep s := by
  rw [splitOn]
  split
  · rename_i hnil
    exact absurd hnil (splitOn_ne_nil sep s)
  · rename_i piece pieces hsplit
    rw [if_pos (beq_self_eq_true sep), hsplit]

theorem splitOn_cons {sep c : Char} (hc : c ≠ sep) (s : List Char) :
    splitOn sep (c :: s) = (splitOn sep s).modifyHead (c :: ·) := by
  rw [splitOn]
  split
  · rename_i hnil
    exact absurd hnil (splitOn_ne_nil sep s)
  · rename_i piece pieces hsplit
    rw [if_neg (by simpa using hc), hsplit]
    rfl

theorem splitOn_of_not_mem {sep : Char} {s : List Char} (h : sep ∉ s) : splitOn sep s = [s] := by
  induction s with
  | nil => rfl
  | cons c s ih =>
      have hc : c ≠ sep := fun heq => h (heq ▸ List.mem_cons_self ..)
      rw [splitOn_cons hc, ih fun hmem => h (List.mem_cons_of_mem _ hmem)]
      rfl

theorem splitOn_append {sep : Char} {s : List Char} (h : sep ∉ s) (t : List Char) :
    splitOn sep (s ++ sep :: t) = s :: splitOn sep t := by
  induction s with
  | nil => exact splitOn_sep sep t
  | cons c s ih =>
      have hc : c ≠ sep := fun heq => h (heq ▸ List.mem_cons_self ..)
      rw [List.cons_append, splitOn_cons hc, ih fun hmem => h (List.mem_cons_of_mem _ hmem)]
      rfl

/-- The pieces between separators are made of characters of the text. -/
theorem mem_of_mem_splitOn {sep c : Char} {s piece : List Char} (hp : piece ∈ splitOn sep s)
    (hc : c ∈ piece) : c ∈ s := by
  -- A separator begins a new piece, and any other character goes into the first one.
  induction s generalizing piece with
  | nil =>
      rw [List.mem_singleton.1 hp] at hc
      cases hc
  | cons d s ih =>
      unfold splitOn at hp
      split at hp
      · rw [List.mem_singleton.1 hp] at hc
        cases hc
      · rename_i first rest hsplit
        rw [hsplit] at ih
        split at hp
        · rcases List.mem_cons.1 hp with rfl | hp
          · cases hc
          · exact List.mem_cons_of_mem _ (ih hp hc)
        · rcases List.mem_cons.1 hp with rfl | hp
          · rcases List.mem_cons.1 hc with rfl | hc
            · exact List.mem_cons_self ..
            · exact List.mem_cons_of_mem _ (ih (List.mem_cons_self ..) hc)
          · exact List.mem_cons_of_mem _ (ih (List.mem_cons_of_mem _ hp) hc)

theorem not_mem_of_mem_splitOn {sep : Char} {s piece : List Char} (hp : piece ∈ splitOn sep s) :
    sep ∉ piece := by
  induction s generalizing piece with
  | nil =>
      rw [List.mem_singleton.1 hp]
      exact List.not_mem_nil
  | cons c s ih =>
      by_cases hc : c = sep
      · rw [hc, splitOn_sep] at hp
        rcases List.mem_cons.1 hp with rfl | hp
        · exact List.not_mem_nil
        · exact ih hp
      · rw [splitOn_cons hc] at hp
        cases hsplit : splitOn sep s with
        | nil => exact absurd hsplit (splitOn_ne_nil sep s)
        | cons first pieces =>
            rw [hsplit, List.modifyHead_cons] at hp
            rw [hsplit] at ih
            rcases List.mem_cons.1 hp with rfl | hp
            · intro hmem
              rcases List.mem_cons.1 hmem with heq | hmem
              · exact hc heq.symm
              · exact ih (List.mem_cons_self ..) hmem
            · exact ih (List.mem_cons_of_mem _ hp)

/-! ## Needles -/

/-- A text is broken where the needle first occurs. -/
theorem eq_append_of_breakOn? {needle s before rest : List Char} (hne : needle ≠ [])
    (h : breakOn? needle s = some (before, rest)) :
    s = before ++ (needle ++ rest) ∧ ¬ needle <:+: before := by
  induction s generalizing before with
  | nil =>
      rw [breakOn?, if_neg (by simpa using hne)] at h
      cases h
  | cons c s ih =>
      rw [breakOn?] at h
      split at h
      · rename_i rest' hstrip
        cases h
        have hsplit := eq_append_of_stripStart? hstrip
        exact ⟨hsplit, fun hinside => hne (List.infix_nil.1 hinside)⟩
      · rename_i hstrip
        rcases Option.map_eq_some_iff.1 h with ⟨⟨u, v⟩, hu, heq⟩
        cases heq
        rcases ih hu with ⟨rfl, hnot⟩
        refine ⟨rfl, ?_⟩
        intro hinside
        rcases List.infix_cons_iff.1 hinside with hfirst | hlater
        · -- The needle would have been found at the first character.
          rcases hfirst with ⟨w, hw⟩
          rw [← List.cons_append, ← hw, List.append_assoc, stripStart?_append] at hstrip
          cases hstrip
        · exact hnot hlater

end Text
end RenderForest
