import RenderForest.Text.Blank
/-!
# Words — texts cut at blanks

A text is cut into words from the left, and a blank ends the word that was begun.  This file
defines:

* `Text.IsWord`, a text that is a word by itself;

and shows in `words_append_blank` that the words of two texts with a blank between them are those
of the one and then those of the other, in `isWord_of_mem_words` that nothing but words is cut out
of a text, and in `words_of_isWord` that a word is not cut.
-/

namespace RenderForest
namespace Text

structure IsWord (w : List Char) : Prop where
  ne_nil : w ≠ []
  unblank : ∀ c ∈ w, isBlank c = false

theorem isWord_iff {w : List Char} :
    (!w.isEmpty && w.all fun c => !isBlank c) = true ↔ IsWord w := by
  rw [Bool.and_eq_true, List.all_eq_true]
  constructor
  · rintro ⟨hne, hs⟩
    exact ⟨by simpa using hne, fun c hc => by simpa using hs c hc⟩
  · intro h
    exact ⟨by simpa using h.ne_nil, fun c hc => by simpa using h.unblank c hc⟩

instance (w : List Char) : Decidable (IsWord w) :=
  decidable_of_iff _ isWord_iff

variable {c : Char} {s t w word : List Char}

/-! ## Cutting -/

/-- A blank ends the word that was begun, and the text behind it is cut by itself. -/
theorem go_append_blank (hc : isBlank c = true) (word s t : List Char) :
    words.go word (s ++ c :: t) = words.go word s ++ words t := by
  induction s generalizing word with
  | nil =>
      cases word with
      | nil => simp [words.go, hc, words]
      | cons d word => simp [words.go, hc, words]
  | cons d s ih =>
      cases hd : isBlank d with
      | false => simpa [words.go, hd] using ih (d :: word)
      | true =>
          -- The word that was begun ends here on both sides.
          cases word with
          | nil => simpa [words.go, hd] using ih []
          | cons e word => simpa [words.go, hd] using ih []

/-- A blank between two texts belongs to no word. -/
theorem words_append_blank (hc : isBlank c = true) (s t : List Char) :
    words (s ++ c :: t) = words s ++ words t :=
  go_append_blank hc [] s t

/-- A word that was begun goes on to the end of a text without blanks. -/
theorem go_of_unblank (hword : word ≠ []) (hs : ∀ c ∈ s, isBlank c = false) :
    words.go word s = [word.reverse ++ s] := by
  induction s generalizing word with
  | nil => simp [words.go, hword]
  | cons d s ih =>
      rcases List.forall_mem_cons.1 hs with ⟨hd, hs⟩
      simpa [words.go, hd] using ih (List.cons_ne_nil d word) hs

/-- A word is cut out of itself as a whole. -/
theorem words_of_isWord (h : IsWord w) : words w = [w] := by
  cases w with
  | nil => exact absurd rfl h.ne_nil
  | cons d s =>
      rcases List.forall_mem_cons.1 h.unblank with ⟨hd, hs⟩
      simpa [words, words.go, hd] using go_of_unblank (List.cons_ne_nil d []) hs

theorem isWord_of_mem_go (hword : ∀ c ∈ word, isBlank c = false) (h : w ∈ words.go word s) :
    IsWord w := by
  have hreverse : ∀ word : List Char, word ≠ [] → (∀ c ∈ word, isBlank c = false) →
      IsWord word.reverse := by
    intro word hne hword
    exact ⟨by simpa using hne, fun c hc => hword c (List.mem_reverse.1 hc)⟩
  induction s generalizing word with
  | nil =>
      cases word with
      | nil => simp [words.go] at h
      | cons d word =>
          have hw : w = (d :: word).reverse := by simpa [words.go] using h
          exact hw ▸ hreverse _ (List.cons_ne_nil d word) hword
  | cons e s ih =>
      cases he : isBlank e with
      | false =>
          refine ih (List.forall_mem_cons.2 ⟨he, hword⟩) ?_
          simpa [words.go, he] using h
      | true =>
          -- The word that was begun is cut off, and nothing is begun behind the blank.
          cases word with
          | nil => exact ih (List.forall_mem_nil _) (by simpa [words.go, he] using h)
          | cons d word =>
              have hw : w = (d :: word).reverse ∨ w ∈ words.go [] s := by
                simpa [words.go, he] using h
              rcases hw with rfl | hw
              · exact hreverse _ (List.cons_ne_nil d word) hword
              · exact ih (List.forall_mem_nil _) hw

/-- Nothing but words is cut out of a text. -/
theorem isWord_of_mem_words (h : w ∈ words s) : IsWord w :=
  isWord_of_mem_go (List.forall_mem_nil _) h

/-- A text is one of its own words exactly if it is a word. -/
theorem mem_words_self_iff : w ∈ words w ↔ IsWord w := by
  refine ⟨isWord_of_mem_words, fun h => ?_⟩
  rw [words_of_isWord h]
  exact List.mem_singleton_self w

example : IsWord "language-js".toList ∧ ¬ IsWord "hljs language-js".toList := by
  decide

/-- A word behind a text makes a longer word of it unless the text has a blank. -/
theorem isWord_append_iff (hw : IsWord w) : IsWord (s ++ w) ↔ ∀ c ∈ s, isBlank c = false := by
  constructor
  · intro h c hc
    exact h.unblank c (List.mem_append_left w hc)
  · intro hs
    refine ⟨List.append_ne_nil_of_right_ne_nil s hw.ne_nil, ?_⟩
    exact List.forall_mem_append.2 ⟨hs, hw.unblank⟩

end Text
end RenderForest
