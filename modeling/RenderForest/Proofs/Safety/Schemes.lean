import Mathlib.Data.List.Infix
import RenderForest.Hypertext.Url
import RenderForest.Proofs.Text.Blanks
import RenderForest.Safety
/-!
# Schemes — URLs as they are read and as they are checked

A URL is read without the blanks and controls at its ends and without tabs and line breaks; what
stands before its first colon is then the scheme.  The check of a URL looks at other parts of the
text: it drops the blanks of all scripts at the ends, every blank and control of ASCII inside, and
what comes behind the first few characters.  This file defines:

* `Safety.IsHarmful`, that a URL begins, as it is read, with a scheme that runs or leaks;
* `Safety.isEdge`, the characters that are dropped at the ends, and `Safety.isSeen`, those that the
  check does not drop;
* `Safety.ShowsScheme`, that a refused scheme begins what the check sees;

and shows in `isSafeUrl_eq_false_iff` which URLs are refused, and in `refuses_harmful` that no
spelling of a harmful URL is let through.
-/

namespace RenderForest
namespace Safety

/-! ## Harmful URLs -/

/-- A URL that begins, as it is read, with a scheme that runs or leaks. -/
def IsHarmful (url : List Char) : Prop :=
  ∃ scheme ∈ ["javascript:", "vbscript:", "file:", "data:"],
    scheme.toList <+: (Hypertext.Url.clean url).map Char.toLower

instance (url : List Char) : Decidable (IsHarmful url) :=
  inferInstanceAs (Decidable (∃ scheme ∈ ["javascript:", "vbscript:", "file:", "data:"],
    scheme.toList <+: (Hypertext.Url.clean url).map Char.toLower))

/-- A blank or control that is dropped at the ends of a URL when it is read. -/
def isEdge (c : Char) : Bool :=
  decide (c ≤ ' ')

/-- A character that the check of a URL does not drop. -/
def isSeen (c : Char) : Bool :=
  !Text.isAsciiBlank c && !Text.isAsciiControl c

/-- A text in small letters, as far as the check sees it. -/
def seenText (s : List Char) : List Char :=
  (s.filter isSeen).map Char.toLower

/-- A refused scheme begins what the check sees of a text. -/
def ShowsScheme (s : List Char) : Prop :=
  ∃ scheme ∈ unsafeSchemes, scheme.toList <+: seenText s

variable {s t url : List Char} {c : Char}

@[simp] theorem seenText_nil : seenText [] = [] := rfl

@[simp] theorem seenText_append (s t : List Char) :
    seenText (s ++ t) = seenText s ++ seenText t := by
  simp [seenText]

theorem toList_ne_nil_of_mem :
    ∀ {scheme : String}, scheme ∈ unsafeSchemes → scheme.toList ≠ [] := by
  decide

theorem not_showsScheme_of_seenText_eq_nil (h : seenText s = []) : ¬ ShowsScheme s := by
  rintro ⟨scheme, hmem, hbegins⟩
  rw [h, List.prefix_nil] at hbegins
  exact toList_ne_nil_of_mem hmem hbegins

/-! ## The window -/

/-- The window in which a scheme is looked for is wide enough for each of them. -/
theorem isSafeUrl_eq_false_iff (url : List Char) :
    isSafeUrl url = false ↔ ShowsScheme (Text.trim url) := by
  have hwidth : ∀ scheme ∈ unsafeSchemes, scheme.toList.length ≤ schemeWindow := by decide
  have htext : schemeText url = (seenText (Text.trim url)).take schemeWindow :=
    List.map_take
  rw [isSafeUrl, Bool.not_eq_false', List.any_eq_true, htext]
  constructor
  · rintro ⟨scheme, hmem, hbegins⟩
    refine ⟨scheme, hmem, ?_⟩
    exact (List.isPrefixOf_iff_prefix.1 hbegins).trans (List.take_prefix _ _)
  · rintro ⟨scheme, hmem, hbegins⟩
    refine ⟨scheme, hmem, List.isPrefixOf_iff_prefix.2 ?_⟩
    exact List.prefix_take_iff.2 ⟨hbegins, hwidth scheme hmem⟩

/-! ## Characters -/

theorem toLower_of_not_capital (h : ¬ (65 ≤ c.toNat ∧ c.toNat ≤ 90)) : c.toLower = c := by
  unfold Char.toLower
  exact dif_neg h

theorem toNat_toLower_of_capital (h : 65 ≤ c.toNat ∧ c.toNat ≤ 90) :
    c.toLower.toNat = c.toNat + 32 := by
  have hle : c.val.toNat ≤ 90 := h.2
  have hval : c.toLower.val = c.val + 32 := by
    unfold Char.toLower
    exact congrArg Char.val (dif_pos h)
  calc
    c.toLower.toNat = (c.val + 32).toNat := congrArg UInt32.toNat hval
    _ = c.toNat + 32 := by
      rw [UInt32.toNat_add]
      exact Nat.mod_eq_of_lt (by simp; omega)

theorem toLower_of_isBlank (h : Text.isBlank c = true) : c.toLower = c := by
  refine toLower_of_not_capital ?_
  simp only [Text.isBlank, Bool.or_eq_true, Bool.and_eq_true, decide_eq_true_eq, beq_iff_eq] at h
  omega

theorem isSeen_iff : isSeen c = true ↔ 32 < c.toNat ∧ c.toNat ≠ 127 := by
  have hnumber : ∀ d : Char, c = d ↔ c.toNat = d.toNat := fun d => Char.toNat_inj.symm
  simp only [isSeen, Text.isAsciiBlank, Text.isAsciiControl, Bool.and_eq_true, Bool.not_eq_true',
    Bool.or_eq_false_iff, beq_eq_false_iff_ne, decide_eq_false_iff_not, ne_eq, hnumber,
    Char.reduceToNat]
  omega

/-- What a URL is read without is not seen. -/
theorem isSeen_of_isEdge (h : isEdge c = true) : isSeen c = false := by
  have hle : c.toNat ≤ 32 := of_decide_eq_true h
  rw [← Bool.not_eq_true, isSeen_iff]
  omega

theorem isSeen_toLower (c : Char) : isSeen c.toLower = isSeen c := by
  by_cases h : 65 ≤ c.toNat ∧ c.toNat ≤ 90
  · -- Capitals and small letters are seen.
    have hlower := toNat_toLower_of_capital h
    have hc : isSeen c = true := isSeen_iff.2 (by omega)
    have hc' : isSeen c.toLower = true := isSeen_iff.2 (by omega)
    rw [hc, hc']
  · rw [toLower_of_not_capital h]

/-! ## Readers and the check -/

theorem seenText_eq_filter (s : List Char) : seenText s = (s.map Char.toLower).filter isSeen := by
  have hsame : isSeen ∘ Char.toLower = isSeen := funext isSeen_toLower
  rw [seenText, List.filter_map, hsame]

theorem seenText_eq_nil (h : ∀ c ∈ s, isSeen c = false) : seenText s = [] := by
  have hnone : s.filter isSeen = [] :=
    List.filter_eq_nil_iff.2 fun c hc => by simp [h c hc]
  rw [seenText, hnone, List.map_nil]

theorem clean_eq (url : List Char) :
    Hypertext.Url.clean url =
      ((url.dropWhile isEdge).reverse.dropWhile isEdge).reverse.filter fun c =>
        c != '\t' && c != '\n' && c != '\r' := rfl

/-- The check sees the same of a URL as of what is read of it. -/
theorem seenText_clean (url : List Char) : seenText (Hypertext.Url.clean url) = seenText url := by
  -- What stands at the edges is not seen, at the start and, turned around, at the end.
  have hedge : ∀ s : List Char, (s.dropWhile isEdge).filter isSeen = s.filter isSeen := by
    intro s
    have hnone : (s.takeWhile isEdge).filter isSeen = [] := by
      refine List.filter_eq_nil_iff.2 fun c hc => ?_
      simp [isSeen_of_isEdge (List.all_eq_true.1 List.all_takeWhile c hc)]
    calc
      (s.dropWhile isEdge).filter isSeen
          = (s.takeWhile isEdge ++ s.dropWhile isEdge).filter isSeen := by
            rw [List.filter_append, hnone, List.nil_append]
      _ = s.filter isSeen := by rw [List.takeWhile_append_dropWhile]
  have htrimmed : ((url.dropWhile isEdge).reverse.dropWhile isEdge).reverse.filter isSeen =
      url.filter isSeen := by
    rw [List.filter_reverse, hedge, List.filter_reverse, hedge, List.reverse_reverse]
  -- Tabs and line breaks are not seen either.
  have hinside : ∀ c : Char, isSeen c = true → (c != '\t' && c != '\n' && c != '\r') = true := by
    intro c hc
    have hne : ∀ d : Char, isSeen d = false → c ≠ d := by
      rintro d hd rfl
      rw [hc] at hd
      cases hd
    simp [hne '\t' (by decide), hne '\n' (by decide), hne '\r' (by decide)]
  refine congrArg (List.map Char.toLower) ?_
  calc
    (Hypertext.Url.clean url).filter isSeen
        = ((url.dropWhile isEdge).reverse.dropWhile isEdge).reverse.filter isSeen := by
          rw [clean_eq, List.filter_filter]
          refine List.filter_congr fun c _ => ?_
          cases hc : isSeen c with
          | true => simpa using hinside c hc
          | false => rfl
    _ = url.filter isSeen := htrimmed

section Scheme

variable {scheme : String} {p : List Char}

theorem isSeen_of_mem_scheme (hmem : scheme ∈ unsafeSchemes) :
    ∀ c ∈ scheme.toList, isSeen c = true := by
  have hall : (unsafeSchemes.all fun scheme => scheme.toList.all isSeen) = true := by decide
  exact List.all_eq_true.1 (List.all_eq_true.1 hall scheme hmem)

theorem not_isBlank_of_mem_scheme (hmem : scheme ∈ unsafeSchemes) :
    ∀ c ∈ scheme.toList, Text.isBlank c = false := by
  have hall :
      (unsafeSchemes.all fun scheme => scheme.toList.all fun c => !Text.isBlank c) = true := by
    decide
  intro c hc
  simpa using List.all_eq_true.1 (List.all_eq_true.1 hall scheme hmem) c hc

/-- A scheme holds no blank, in whatever case its letters are. -/
theorem not_isBlank_of_map_toLower (hmem : scheme ∈ unsafeSchemes)
    (hp : p.map Char.toLower = scheme.toList) : ∀ c ∈ p, Text.isBlank c = false := by
  intro c hc
  have hlower : c.toLower ∈ scheme.toList := hp ▸ List.mem_map_of_mem hc
  by_contra hblank
  have hblank' : Text.isBlank c = true := by simpa using hblank
  rw [toLower_of_isBlank hblank'] at hlower
  exact hblank (not_isBlank_of_mem_scheme hmem c hlower)

theorem seenText_of_map_toLower (hmem : scheme ∈ unsafeSchemes)
    (hp : p.map Char.toLower = scheme.toList) : seenText p = scheme.toList := by
  rw [seenText_eq_filter, hp]
  exact List.filter_eq_self.2 (isSeen_of_mem_scheme hmem)

end Scheme

theorem IsHarmful.showsScheme (h : IsHarmful url) : ShowsScheme url := by
  rcases h with ⟨scheme, hmem, hbegins⟩
  refine ⟨scheme, hmem, ?_⟩
  -- All characters of a scheme are seen, so that the others fall away around it.
  have hfilter := hbegins.filter isSeen
  rw [List.filter_eq_self.2 (isSeen_of_mem_scheme hmem), ← seenText_eq_filter,
    seenText_clean] at hfilter
  exact hfilter

/-- Blanks at the ends of a text do not hide a scheme. -/
theorem ShowsScheme.trim (h : ShowsScheme s) : ShowsScheme (Text.trim s) := by
  rcases h with ⟨scheme, hmem, hbegins⟩
  have hblank : ∀ t : List Char, (∀ c ∈ t, Text.isBlank c = true) →
      ∀ c ∈ seenText t, Text.isBlank c = true := by
    intro t ht c hc
    rcases List.mem_map.1 hc with ⟨d, hd, rfl⟩
    have hd' := ht d (List.mem_of_mem_filter hd)
    rw [toLower_of_isBlank hd']
    exact hd'
  rcases Text.exists_trim s with ⟨lead, trail, hsplit, hlead, htrail⟩
  rw [hsplit, seenText_append, seenText_append] at hbegins
  refine ⟨scheme, hmem, ?_⟩
  exact Text.prefix_of_blanks (toList_ne_nil_of_mem hmem) (not_isBlank_of_mem_scheme hmem)
    (hblank lead hlead) (hblank trail htrail) hbegins

/-- No spelling of a harmful URL is let through. -/
theorem isSafeUrl_of_isHarmful (h : IsHarmful url) : isSafeUrl url = false :=
  (isSafeUrl_eq_false_iff url).2 h.showsScheme.trim

/-! ## Values of attributes -/

/-- The values that are refused under a name whose values are single URLs: those that begin with a
refused scheme once the blanks at their ends and the blanks and controls of ASCII inside are left
out.  A harmful URL is among them, however it is spelt. -/
theorem refuses_harmful {name : String} (hname : isSensitiveAttribute name = true)
    (hsingle : Text.sameFolded name "srcset" = false) (value : String) :
    (isSafeValue name value = false ↔ ShowsScheme (Text.trim value.toList)) ∧
      (IsHarmful value.toList → isSafeValue name value = false) := by
  have hvalue : isSafeValue name value = isSafeUrl value.toList := by
    simp [isSafeValue, hname, hsingle]
  rw [hvalue]
  exact ⟨isSafeUrl_eq_false_iff _, isSafeUrl_of_isHarmful⟩

/-- Controls, blanks and capitals do not hide a scheme from the check. -/
theorem refuses_harmful_spelt :
    isSensitiveAttribute "XLink:Href" = true ∧ Text.sameFolded "XLink:Href" "srcset" = false ∧
      IsHarmful "\x01\x0b \tJaVa\nScR\riPt\t:alert(1)\x1f".toList ∧
      isSafeValue "XLink:Href" "\x01\x0b \tJaVa\nScR\riPt\t:alert(1)\x1f" = false := by
  have hname : isSensitiveAttribute "XLink:Href" = true := by decide
  have hsingle : Text.sameFolded "XLink:Href" "srcset" = false := by decide
  have hharm : IsHarmful "\x01\x0b \tJaVa\nScR\riPt\t:alert(1)\x1f".toList := by decide
  exact ⟨hname, hsingle, hharm, (refuses_harmful hname hsingle _).2 hharm⟩

end Safety
end RenderForest
