import RenderForest.Text.Reference
/-!
# Escaped — texts whose markup characters are written as references

This file shows what readers of escaped texts rely on:

* `ne_lt_of_mem_escape`, `ne_quote_of_mem_escape`: no tag begins in an escaped text, and no value
  ends in it;
* `decode_escape`: decoding gives the text back;
* `unescape_escape_append`: so does reading the five references, whatever follows the text.
-/

namespace RenderForest
namespace Text

theorem escapeChars_append (s t : List Char) :
    escapeChars (s ++ t) = escapeChars s ++ escapeChars t := by
  induction s with
  | nil => rfl
  | cons c s ih => rw [List.cons_append, escapeChars, escapeChars, ih, List.append_assoc]

theorem escapeChars_eq_nil_iff {s : List Char} : escapeChars s = [] ↔ s = [] := by
  cases s with
  | nil => exact iff_of_true rfl rfl
  | cons c s =>
      refine iff_of_false ?_ (List.cons_ne_nil c s)
      intro h
      have hreference := (List.append_eq_nil_iff.1 h).1
      unfold reference? at hreference
      split at hreference <;> cases hreference

theorem escape_eq_empty_iff {s : String} : escape s = "" ↔ s = "" := by
  rw [← String.toList_eq_nil_iff, escape, String.toList_ofList, escapeChars_eq_nil_iff,
    String.toList_eq_nil_iff]

/-- A character of an escaped text stands in the reference of a markup character or is none. -/
theorem mem_escapeChars {s : List Char} {c : Char} (h : c ∈ escapeChars s) :
    (∃ d r, reference? d = some r ∧ c ∈ r) ∨ reference? c = none := by
  induction s with
  | nil => cases h
  | cons d s ih =>
      rcases List.mem_append.1 h with h | h
      · cases hd : reference? d with
        | none =>
            rw [hd] at h
            exact Or.inr ((List.mem_singleton.1 h) ▸ hd)
        | some r =>
            rw [hd] at h
            exact Or.inl ⟨d, r, hd, h⟩
      · exact ih h

/-- References are written without markup characters other than the ampersand. -/
theorem ne_of_mem_reference {c d m : Char} {r : List Char} (hr : reference? d = some r)
    (hc : c ∈ r) (hm : m = '<' ∨ m = '\x22' ∨ m = '>') : c ≠ m := by
  unfold reference? at hr
  split at hr <;> cases hr <;> rcases hm with rfl | rfl | rfl <;> rintro rfl <;> revert hc <;>
    decide

theorem ne_of_mem_escapeChars {s : List Char} {c m : Char}
    (hm : m = '<' ∨ m = '\x22' ∨ m = '>') (h : c ∈ escapeChars s) : c ≠ m := by
  rcases mem_escapeChars h with ⟨d, r, hr, hc⟩ | hnone
  · exact ne_of_mem_reference hr hc hm
  · rintro rfl
    rcases hm with rfl | rfl | rfl <;> cases hnone

theorem ne_lt_of_mem_escape {s : String} {c : Char} (h : c ∈ (escape s).toList) : c ≠ '<' := by
  rw [escape, String.toList_ofList] at h
  exact ne_of_mem_escapeChars (Or.inl rfl) h

theorem ne_quote_of_mem_escape {s : String} {c : Char} (h : c ∈ (escape s).toList) :
    c ≠ '\x22' := by
  rw [escape, String.toList_ofList] at h
  exact ne_of_mem_escapeChars (Or.inr (Or.inl rfl)) h

/-! ## Decoding -/

theorem decodeChars_of_closed {c : Char} {body rest : List Char}
    (h : closedReference? body = some (c, rest)) :
    decodeChars ('&' :: body) = c :: decodeChars rest := by
  rw [decodeChars, if_pos (by decide)]
  split
  · rename_i d after hd
    rw [h] at hd
    cases hd
    rfl
  · rename_i hnone
    rw [h] at hnone
    cases hnone

/-- The reference of a markup character is decoded as that character. -/
theorem decodeChars_reference {c : Char} {r : List Char} (h : reference? c = some r)
    (s : List Char) : decodeChars (r ++ s) = c :: decodeChars s := by
  -- Each of the five references is looked up and evaluated.
  unfold reference? at h
  split at h <;> cases h <;> exact decodeChars_of_closed rfl

theorem decodeChars_plain {c : Char} (h : reference? c = none) (s : List Char) :
    decodeChars (c :: s) = c :: decodeChars s := by
  have hc : c ≠ '&' := by
    rintro rfl
    cases h
  rw [decodeChars, if_neg (by simpa using hc)]

theorem decodeChars_escapeChars (s : List Char) : decodeChars (escapeChars s) = s := by
  induction s with
  | nil =>
      rw [escapeChars, decodeChars]
  | cons c s ih =>
      rw [escapeChars]
      cases hc : reference? c with
      | none => exact (decodeChars_plain hc _).trans (congrArg (c :: ·) ih)
      | some r => exact (decodeChars_reference hc _).trans (congrArg (c :: ·) ih)

theorem decode_escape (s : String) : decode (escape s) = s := by
  rw [decode, escape, String.toList_ofList, decodeChars_escapeChars, String.ofList_toList]

/-! ## Reading the five references -/

theorem head_reference {c : Char} {r : List Char} (h : reference? c = some r) :
    ∃ s, r = '&' :: s := by
  unfold reference? at h
  split at h <;> cases h <;> exact ⟨_, rfl⟩

theorem last_reference {c : Char} {r : List Char} (h : reference? c = some r) :
    ∃ s, r = s ++ [';'] := by
  unfold reference? at h
  split at h <;> cases h <;> exact ⟨_, (List.dropLast_concat_getLast (by decide)).symm⟩

/-- A reference begins with an ampersand. -/
theorem readReference?_plain {c : Char} (hc : c ≠ '&') (s : List Char) :
    readReference? (c :: s) = none := by
  refine List.findSome?_eq_none_iff.2 ?_
  intro d _
  cases hr : reference? d with
  | none => rfl
  | some r =>
      obtain ⟨t, rfl⟩ := head_reference hr
      have hstrip : stripStart? ('&' :: t) (c :: s) = none := if_neg (by simpa using hc.symm)
      simp [hstrip]

theorem readReference?_reference {c : Char} {r : List Char} (h : reference? c = some r)
    (s : List Char) : readReference? (r ++ s) = some (c, s) := by
  -- Each of the five references is looked up and evaluated.
  unfold reference? at h
  split at h <;> cases h <;> cases s <;> rfl

theorem unescapeChars_reference {c : Char} {r : List Char} (h : reference? c = some r)
    (s : List Char) : unescapeChars (r ++ s) = c :: unescapeChars s := by
  have hread := readReference?_reference h s
  obtain ⟨t, rfl⟩ := head_reference h
  rw [List.cons_append] at hread ⊢
  rw [unescapeChars]
  split
  · rename_i d after hd
    rw [hread] at hd
    cases hd
    rfl
  · rename_i hnone
    rw [hread] at hnone
    cases hnone

theorem unescapeChars_plain {c : Char} (hc : c ≠ '&') (s : List Char) :
    unescapeChars (c :: s) = c :: unescapeChars s := by
  rw [unescapeChars]
  split
  · rename_i d after hd
    rw [readReference?_plain hc] at hd
    cases hd
  · rfl

/-- What follows an escaped text does not change how that is read. -/
theorem unescapeChars_escapeChars_append (s t : List Char) :
    unescapeChars (escapeChars s ++ t) = s ++ unescapeChars t := by
  induction s with
  | nil => rfl
  | cons c s ih =>
      rw [escapeChars, List.append_assoc]
      cases hc : reference? c with
      | none =>
          have hplain : c ≠ '&' := by
            rintro rfl
            cases hc
          exact (unescapeChars_plain hplain _).trans (congrArg (c :: ·) ih)
      | some r => exact (unescapeChars_reference hc _).trans (congrArg (c :: ·) ih)

theorem unescape_escape_append (s t : String) :
    unescape (escape s ++ t) = s ++ unescape t := by
  rw [unescape, unescape, escape, String.toList_append, String.toList_ofList,
    unescapeChars_escapeChars_append, String.ofList_append, String.ofList_toList]

theorem unescape_escape (s : String) : unescape (escape s) = s := by
  have h := unescape_escape_append s ""
  simpa [unescape, unescapeChars] using h

end Text
end RenderForest
