import RenderForest.Markup.Policy
import RenderForest.Proofs.Text.Escaped
/-!
# EscapedForms — the texts that escaping writes

An escaped text holds none of the four other markup characters, and an ampersand stands in it only
where one of the five references begins.  This file defines:

* `Text.writtenReferences`, the five references as they are written;
* `Text.IsEscaped`, what a text looks like that escaping may have written;

and shows in `escape_undone` that both readers of references undo escaping, and that escaping
undoes the reader of the five exactly on such texts.
-/

namespace RenderForest
namespace Text

/-! ## Escaped texts -/

/-- The five references that stand for markup characters. -/
def writtenReferences : List (List Char) :=
  ["&amp;".toList, "&lt;".toList, "&gt;".toList, "&quot;".toList, "&#39;".toList]

/-- A text holds no markup character but ampersands, and one of the five references begins at each
ampersand. -/
structure IsEscaped (t : List Char) : Prop where
  plain : ∀ c ∈ t, c ≠ '<' ∧ c ≠ '>' ∧ c ≠ '\x22' ∧ c ≠ '\x27'
  references : ∀ rest, '&' :: rest <:+ t → ∃ r ∈ writtenReferences, r <+: '&' :: rest

variable {t : List Char}

theorem IsEscaped.of_suffix (h : IsEscaped t) {s : List Char} (hs : s <:+ t) : IsEscaped s where
  plain := fun c hc => h.plain c (hs.subset hc)
  references := fun rest hrest => h.references rest (hrest.trans hs)

theorem ne_apostrophe_of_mem_reference {c d : Char} {r : List Char} (hr : reference? c = some r)
    (hd : d ∈ r) : d ≠ '\x27' := by
  unfold reference? at hr
  split at hr <;> cases hr <;> rintro rfl <;> revert hd <;> decide

/-- The only ampersand of a reference is its first character. -/
theorem exists_body_of_reference? {c : Char} {r : List Char} (hr : reference? c = some r) :
    r ∈ writtenReferences ∧ ∃ body, r = '&' :: body ∧ '&' ∉ body := by
  unfold reference? at hr
  split at hr <;> cases hr <;>
    exact ⟨by simp [writtenReferences], _, rfl, by decide⟩

theorem suffix_of_suffix_append {c : Char} {body rest : List Char} (hbody : c ∉ body)
    (h : c :: rest <:+ body ++ t) : c :: rest <:+ t := by
  induction body with
  | nil => exact h
  | cons d body ih =>
      have hne : c ≠ d := fun heq => hbody (heq ▸ List.mem_cons_self)
      have hrest : c ∉ body := fun hmem => hbody (List.mem_cons_of_mem d hmem)
      rcases List.suffix_cons_iff.1 h with heq | h
      · exact absurd (List.cons.inj heq).1 hne
      · exact ih hrest h

/-- A reference may stand in front of such a text. -/
theorem IsEscaped.append_reference (h : IsEscaped t) {c : Char} {r : List Char}
    (hr : reference? c = some r) : IsEscaped (r ++ t) where
  plain := by
    intro d hd
    rcases List.mem_append.1 hd with hd | hd
    · refine ⟨?_, ?_, ?_, ?_⟩
      · exact ne_of_mem_reference hr hd (Or.inl rfl)
      · exact ne_of_mem_reference hr hd (Or.inr (Or.inr rfl))
      · exact ne_of_mem_reference hr hd (Or.inr (Or.inl rfl))
      · exact ne_apostrophe_of_mem_reference hr hd
    · exact h.plain d hd
  references := by
    intro rest hrest
    rcases exists_body_of_reference? hr with ⟨hmem, body, rfl, hbody⟩
    rcases List.suffix_cons_iff.1 hrest with heq | hrest
    · rw [heq]
      exact ⟨_, hmem, List.prefix_append _ _⟩
    · exact h.references rest (suffix_of_suffix_append hbody hrest)

theorem isEscaped_nil : IsEscaped [] where
  plain := fun c hc => by cases hc
  references := fun rest hrest => by simp at hrest

/-- A character that is no markup character may stand in front. -/
theorem IsEscaped.cons (h : IsEscaped t) {c : Char} (hc : reference? c = none) :
    IsEscaped (c :: t) where
  plain := by
    intro d hd
    rcases List.mem_cons.1 hd with rfl | hd
    · refine ⟨?_, ?_, ?_, ?_⟩ <;> rintro rfl <;> cases hc
    · exact h.plain d hd
  references := by
    intro rest hrest
    rcases List.suffix_cons_iff.1 hrest with heq | hrest
    · cases heq
      cases hc
    · exact h.references rest hrest

/-- Escaping writes escaped texts. -/
theorem isEscaped_escapeChars (s : List Char) : IsEscaped (escapeChars s) := by
  induction s with
  | nil => exact isEscaped_nil
  | cons c s ih =>
      rw [escapeChars]
      cases hc : reference? c with
      | none => exact ih.cons hc
      | some r => exact ih.append_reference hc

/-! ## Escaping what was read -/

/-- A character whose reference begins a text is read there. -/
theorem exists_readReference?_of_prefix {r s : List Char} (hr : r ∈ writtenReferences)
    (h : r <+: s) : ∃ c rest, readReference? s = some (c, rest) := by
  have hmarkup : ∃ c, reference? c = some r := by
    simp only [writtenReferences, List.mem_cons, List.not_mem_nil, or_false] at hr
    rcases hr with rfl | rfl | rfl | rfl | rfl
    · exact ⟨'&', rfl⟩
    · exact ⟨'<', rfl⟩
    · exact ⟨'>', rfl⟩
    · exact ⟨'\x22', rfl⟩
    · exact ⟨'\x27', rfl⟩
  rcases hmarkup with ⟨c, hc⟩
  rcases h with ⟨rest, rfl⟩
  exact ⟨c, rest, readReference?_reference hc rest⟩

/-- What was read in front of a text is the reference of a character. -/
theorem exists_reference_of_readReference? {s rest : List Char} {c : Char}
    (h : readReference? s = some (c, rest)) : ∃ r, reference? c = some r ∧ s = r ++ rest := by
  rw [readReference?, List.findSome?_eq_some_iff] at h
  rcases h with ⟨_, d, _, _, hd, _⟩
  rcases Option.bind_eq_some_iff.1 hd with ⟨r, hr, hmap⟩
  rcases Option.map_eq_some_iff.1 hmap with ⟨u, hu, heq⟩
  cases heq
  exact ⟨r, hr, eq_append_of_stripStart? hu⟩

/-- No markup character but the ampersand stands in an escaped text, and an ampersand not before
anything but the rest of a reference. -/
theorem IsEscaped.reference?_eq_none {c : Char} {s : List Char} (h : IsEscaped (c :: s))
    (hread : readReference? (c :: s) = none) : reference? c = none := by
  have hamp : c ≠ '&' := by
    rintro rfl
    rcases h.references s (List.suffix_refl _) with ⟨r, hr, hprefix⟩
    rcases exists_readReference?_of_prefix hr hprefix with ⟨d, rest, hsome⟩
    rw [hread] at hsome
    cases hsome
  rcases h.plain c List.mem_cons_self with ⟨hlt, hgt, hquote, happ⟩
  unfold reference?
  split <;> first | rfl | contradiction

theorem escapeChars_unescapeChars (h : IsEscaped t) : escapeChars (unescapeChars t) = t := by
  induction t using unescapeChars.induct with
  | case1 => simp [unescapeChars, escapeChars]
  | case2 c s d after hread ih =>
      rcases exists_reference_of_readReference? hread with ⟨r, hr, heq⟩
      have hafter : IsEscaped after := h.of_suffix ⟨r, heq.symm⟩
      calc escapeChars (unescapeChars (c :: s))
          = escapeChars (d :: unescapeChars after) := by
            rw [heq, unescapeChars_reference hr]
        _ = r ++ escapeChars (unescapeChars after) := by rw [escapeChars, hr, Option.getD_some]
        _ = c :: s := by rw [ih hafter, heq]
  | case3 c s hread ih =>
      have hplain : reference? c = none := h.reference?_eq_none hread
      have hs : IsEscaped s := h.of_suffix (List.suffix_cons c s)
      have hamp : c ≠ '&' := by
        rintro rfl
        cases hplain
      calc escapeChars (unescapeChars (c :: s))
          = escapeChars (c :: unescapeChars s) := by rw [unescapeChars_plain hamp]
        _ = c :: escapeChars (unescapeChars s) := by rw [escapeChars, hplain]; rfl
        _ = c :: s := by rw [ih hs]

theorem escape_unescape_eq_iff (t : String) : escape (unescape t) = t ↔ IsEscaped t.toList := by
  have hchars : escape (unescape t) = t ↔ escapeChars (unescapeChars t.toList) = t.toList := by
    rw [← String.toList_inj, escape, unescape, String.toList_ofList, String.toList_ofList]
  rw [hchars]
  constructor
  · intro h
    rw [← h]
    exact isEscaped_escapeChars _
  · exact escapeChars_unescapeChars

end Text

/-! ## Raw markup -/

/-- Raw markup without a tag is one text. -/
theorem Markup.read_of_plain {s : String} (hne : s ≠ "") (h : ∀ c ∈ s.toList, c ≠ '<') :
    Markup.read s = [.text s] := by
  rcases hs : s.toList with _ | ⟨c, rest⟩
  · exact absurd (String.toList_eq_nil_iff.1 hs) hne
  · rw [hs] at h
    rcases List.forall_mem_cons.1 h with ⟨hc, hrest⟩
    have hall : ∀ d ∈ rest, (d != '<') = true := fun d hd => bne_iff_ne.2 (hrest d hd)
    -- The run up to the next tag is the whole text.
    have htake : (rest ++ []).takeWhile (· != '<') = rest ++ [] :=
      List.takeWhile_append_of_pos hall
    have hdrop : (rest ++ []).dropWhile (· != '<') = [] := List.dropWhile_append_of_pos hall
    rw [List.append_nil] at htake hdrop
    rw [read, hs, readFrom, if_neg (by simpa using hc), htake, hdrop, readFrom, ← hs,
      String.ofList_toList]
    rfl

namespace Text

/-- Both readers of references undo escaping: the one of the five references, and the one that raw
markup is read with, in texts and in values.  Escaping undoes the first exactly on the texts that
hold no markup character but ampersands at which one of the five references begins. -/
theorem escape_undone :
    (∀ s, unescape (escape s) = s ∧ decode (escape s) = s) ∧
      (∀ s policy, s ≠ "" → Markup.parse (escape s) policy = [.text s]) ∧
      (∀ a name s, Markup.filterInto .trusted a (name, some (escape s)) = a.set name s) ∧
      ∀ t, escape (unescape t) = t ↔ IsEscaped t.toList := by
  refine ⟨fun s => ⟨unescape_escape s, decode_escape s⟩, ?_, ?_, escape_unescape_eq_iff⟩
  · intro s policy hne
    have hread : Markup.read (escape s) = [.text (escape s)] := by
      apply Markup.read_of_plain
      · exact mt escape_eq_empty_iff.1 hne
      · exact fun c hc => ne_lt_of_mem_escape hc
    rw [Markup.parse, hread, Markup.Dom.listToNodes, Markup.Dom.listToNodes, Markup.Dom.toNodes,
      decode_escape]
    rfl
  · intro a name s
    change a.set name (decode (escape s)) = a.set name s
    rw [decode_escape]

end Text
end RenderForest
