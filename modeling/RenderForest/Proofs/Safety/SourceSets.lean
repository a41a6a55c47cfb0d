import RenderForest.Proofs.Safety.Schemes
/-!
# SourceSets — the URLs in a list of sources

The candidates of a `srcset` value stand between commas.  The check takes the first word of each,
where any blank of Unicode ends a word; HTML takes the URL up to the next of its own five blanks.
The vertical tab is a blank to one and a control to the other.  This file defines:

* `Safety.sourceUrl`, the URL of a candidate as HTML reads it;
* `Safety.IsSplit`, that the check cuts a URL before its scheme;

and shows in `accepts_sources` that a harmful candidate is let through exactly if it is split, and
in `not_refuses_sources` that there are such.
-/

namespace RenderForest
namespace Safety

/-! ## Candidates -/

/-- The URL of a candidate as HTML reads it: the first run without blanks of HTML. -/
def sourceUrl (candidate : List Char) : List Char :=
  (candidate.dropWhile Text.isAsciiBlank).takeWhile fun c => !Text.isAsciiBlank c

/-- Among the controls at the start of a URL a vertical tab stands behind another control. -/
def IsSplit (url : List Char) : Prop :=
  '\x0b' ∈ (url.takeWhile isEdge).dropWhile (· == '\x0b')

instance (url : List Char) : Decidable (IsSplit url) :=
  inferInstanceAs (Decidable ('\x0b' ∈ (url.takeWhile isEdge).dropWhile (· == '\x0b')))

variable {url candidate : List Char} {c : Char}

/-! ## Blanks and controls -/

theorem isBlank_of_isAsciiBlank (h : Text.isAsciiBlank c = true) : Text.isBlank c = true := by
  simp only [Text.isAsciiBlank, Bool.or_eq_true, beq_iff_eq] at h
  rcases h with (((rfl | rfl) | rfl) | rfl) | rfl <;> rfl

/-- The vertical tab is the only control that is a blank of Unicode and no blank of HTML. -/
theorem isBlank_iff_of_isEdge (hedge : isEdge c = true) (hascii : Text.isAsciiBlank c = false) :
    Text.isBlank c = true ↔ c = '\x0b' := by
  have hle : c.toNat ≤ 32 := of_decide_eq_true hedge
  have hnumber : ∀ d : Char, c = d ↔ c.toNat = d.toNat := fun d => Char.toNat_inj.symm
  simp only [Text.isAsciiBlank, Bool.or_eq_false_iff, beq_eq_false_iff_ne, ne_eq, hnumber,
    Char.reduceToNat] at hascii
  simp only [Text.isBlank, Bool.or_eq_true, Bool.and_eq_true, decide_eq_true_eq, beq_iff_eq,
    hnumber, Char.reduceToNat]
  omega

theorem isSafeUrl_of_not_seen (h : ∀ c ∈ url, isSeen c = false) : isSafeUrl url = true := by
  rw [← Bool.not_eq_false, isSafeUrl_eq_false_iff]
  refine not_showsScheme_of_seenText_eq_nil (seenText_eq_nil fun c hc => h c ?_)
  -- Trimming adds nothing.
  rcases Text.exists_trim url with ⟨lead, trail, hsplit, _, _⟩
  rw [hsplit]
  exact List.mem_append_right _ (List.mem_append_left _ hc)

/-! ## Harmful candidates -/

/-- Blanks at the ends aside, a URL without blanks of HTML is read as it is, so that a scheme stands
in one piece behind the controls. -/
theorem IsHarmful.exists_scheme (h : IsHarmful url)
    (hurl : ∀ c ∈ url, Text.isAsciiBlank c = false) :
    ∃ p rest, url.dropWhile isEdge = p ++ rest ∧
      ∃ scheme ∈ unsafeSchemes, p.map Char.toLower = scheme.toList := by
  rcases h with ⟨scheme, hmem, hbegins⟩
  have htrim : ((url.dropWhile isEdge).reverse.dropWhile isEdge).reverse <+:
      url.dropWhile isEdge := by
    have hsuffix := (List.dropWhile_suffix isEdge (l := (url.dropWhile isEdge).reverse))
    simpa using List.reverse_prefix.2 hsuffix
  have hclean : Hypertext.Url.clean url <+: url.dropWhile isEdge := by
    rw [clean_eq, List.filter_eq_self.2]
    · exact htrim
    · -- Tabs and line breaks are blanks of HTML.
      intro c hc
      have hmem' : c ∈ url := (List.dropWhile_sublist isEdge).subset (htrim.subset hc)
      have hascii := hurl c hmem'
      simp only [Text.isAsciiBlank, Bool.or_eq_false_iff, beq_eq_false_iff_ne] at hascii
      simp [hascii]
  -- The scheme is what the first characters make in small letters.
  have hscheme := hbegins.trans (hclean.map Char.toLower)
  refine ⟨(url.dropWhile isEdge).take scheme.toList.length,
    (url.dropWhile isEdge).drop scheme.toList.length, (List.take_append_drop _ _).symm,
    scheme, hmem, ?_⟩
  rw [List.map_take]
  exact (List.prefix_iff_eq_take.1 hscheme).symm

/-- The first word of a candidate, cut out of the URL and of what stands behind it. -/
theorem exists_candidateUrl (candidate : List Char) :
    ∃ after, candidateUrl candidate =
      ((sourceUrl candidate ++ after).dropWhile Text.isBlank).takeWhile
        fun c => !Text.isBlank c := by
  refine ⟨(candidate.dropWhile Text.isAsciiBlank).dropWhile fun c => !Text.isAsciiBlank c, ?_⟩
  have hlead : ∀ c ∈ candidate.takeWhile Text.isAsciiBlank, Text.isBlank c = true :=
    fun c hc => isBlank_of_isAsciiBlank (List.all_eq_true.1 List.all_takeWhile c hc)
  rw [sourceUrl, List.takeWhile_append_dropWhile, candidateUrl, Text.headD_words]
  -- Blanks of HTML are blanks of Unicode, so that both readers pass over them.
  have hskip : candidate.dropWhile Text.isBlank =
      (candidate.dropWhile Text.isAsciiBlank).dropWhile Text.isBlank := by
    calc
      candidate.dropWhile Text.isBlank
          = (candidate.takeWhile Text.isAsciiBlank ++
              candidate.dropWhile Text.isAsciiBlank).dropWhile Text.isBlank := by
            rw [List.takeWhile_append_dropWhile]
      _ = (candidate.dropWhile Text.isAsciiBlank).dropWhile Text.isBlank :=
          List.dropWhile_append_of_pos hlead
  rw [hskip]

/-- Of the controls at the start of a URL the check passes over the vertical tabs in front. -/
theorem dropWhile_isBlank_edges {k t : List Char}
    (hk : ∀ c ∈ k, isEdge c = true ∧ Text.isAsciiBlank c = false)
    (ht : ∀ c, t.head? = some c → Text.isBlank c = false) :
    (k ++ t).dropWhile Text.isBlank = k.dropWhile (· == '\x0b') ++ t := by
  induction k with
  | nil =>
      cases t with
      | nil => rfl
      | cons c t => exact List.dropWhile_cons_of_neg (by simp [ht c rfl])
  | cons c k ih =>
      rcases hk c (List.mem_cons_self ..) with ⟨hedge, hascii⟩
      have hiff := isBlank_iff_of_isEdge hedge hascii
      have htail := ih fun d hd => hk d (List.mem_cons_of_mem _ hd)
      by_cases hc : c = '\x0b'
      · have hblank := hiff.2 hc
        rw [List.cons_append, List.dropWhile_cons_of_pos hblank, htail,
          List.dropWhile_cons_of_pos (by simpa using hc)]
      · have hblank : Text.isBlank c = false := Bool.eq_false_iff.2 (hiff.not.2 hc)
        simp [hblank, hc]

theorem takeWhile_stop {q : Char → Bool} (hc : q c = false) (u v : List Char) :
    (u ++ c :: v).takeWhile q <+: u := by
  induction u with
  | nil => simp [hc]
  | cons d u ih =>
      cases hd : q d with
      | false => simp [hd]
      | true => simpa [hd] using ih

/-- The check of a candidate cuts a harmful URL before its scheme, or finds the scheme. -/
theorem isSafeUrl_candidateUrl_iff (h : IsHarmful (sourceUrl candidate)) :
    isSafeUrl (candidateUrl candidate) = true ↔ IsSplit (sourceUrl candidate) := by
  have hurl : ∀ c ∈ sourceUrl candidate, Text.isAsciiBlank c = false := by
    intro c hc
    simpa using List.all_eq_true.1 List.all_takeWhile c hc
  rcases exists_candidateUrl candidate with ⟨after, hword⟩
  rcases h.exists_scheme hurl with ⟨p, rest, hp, scheme, hmem, hscheme⟩
  let k := (sourceUrl candidate).takeWhile isEdge
  let tabs := k.dropWhile (· == '\x0b')
  have hsplit : sourceUrl candidate ++ after = k ++ (p ++ (rest ++ after)) := by
    calc
      sourceUrl candidate ++ after
          = (k ++ (sourceUrl candidate).dropWhile isEdge) ++ after := by
            rw [List.takeWhile_append_dropWhile]
      _ = k ++ (p ++ (rest ++ after)) := by simp [hp]
  have hk : ∀ c ∈ k, isEdge c = true ∧ Text.isAsciiBlank c = false := fun c hc =>
    ⟨List.all_eq_true.1 List.all_takeWhile c hc, hurl c ((List.takeWhile_sublist _).subset hc)⟩
  -- The first character of the scheme is no blank, so that nothing of it is passed over.
  have hplain := not_isBlank_of_map_toLower hmem hscheme
  have hne : p ≠ [] := by
    rintro rfl
    exact toList_ne_nil_of_mem hmem hscheme.symm
  have hhead : ∀ c, (p ++ (rest ++ after)).head? = some c → Text.isBlank c = false := by
    intro c hc
    rcases List.exists_cons_of_ne_nil hne with ⟨d, p', rfl⟩
    cases hc
    exact hplain _ (List.mem_cons_self ..)
  have htabs : ∀ c ∈ tabs, c ∈ k := fun c hc => (List.dropWhile_sublist _).subset hc
  rw [hword, hsplit, dropWhile_isBlank_edges hk hhead]
  by_cases hmemTab : '\x0b' ∈ tabs
  · -- The word ends at the tab, and nothing is seen of the controls before it.
    refine iff_of_true (isSafeUrl_of_not_seen fun c hc => ?_) hmemTab
    rcases List.append_of_mem hmemTab with ⟨u, v, huv⟩
    have hcut : tabs ++ (p ++ (rest ++ after)) =
        u ++ '\x0b' :: (v ++ (p ++ (rest ++ after))) := by simp [huv]
    have hstop : c ∈ (u ++ '\x0b' :: (v ++ (p ++ (rest ++ after)))).takeWhile
        fun c => !Text.isBlank c := hcut ▸ hc
    have hu : c ∈ u := (takeWhile_stop (by decide) _ _).subset hstop
    have htab : c ∈ tabs := by
      rw [huv]
      exact List.mem_append_left _ hu
    exact isSeen_of_isEdge (hk c (htabs c htab)).1
  · -- Without a tab the word goes on into the scheme, and nothing is seen before that.
    refine iff_of_false ?_ hmemTab
    have hgoes : ∀ c ∈ tabs, (!Text.isBlank c) = true := by
      intro c hc
      rcases hk c (htabs c hc) with ⟨hedge, hascii⟩
      have hne' : c ≠ '\x0b' := fun heq => hmemTab (heq ▸ hc)
      have hblank := Bool.eq_false_iff.2 ((isBlank_iff_of_isEdge hedge hascii).not.2 hne')
      simp [hblank]
    have hgoes' : ∀ c ∈ p, (!Text.isBlank c) = true := fun c hc => by simp [hplain c hc]
    have hnone : seenText tabs = [] :=
      seenText_eq_nil fun c hc => isSeen_of_isEdge (hk c (htabs c hc)).1
    have hshows : ShowsScheme
        (tabs ++ (p ++ (rest ++ after).takeWhile fun c => !Text.isBlank c)) := by
      refine ⟨scheme, hmem, ?_⟩
      rw [seenText_append, seenText_append, hnone, List.nil_append,
        seenText_of_map_toLower hmem hscheme]
      exact List.prefix_append _ _
    rw [Bool.not_eq_true, List.takeWhile_append_of_pos hgoes, List.takeWhile_append_of_pos hgoes']
    exact (isSafeUrl_eq_false_iff _).2 hshows.trim

/-! ## Lists of sources -/

theorem isSensitiveAttribute_of_srcset {name : String} (h : Text.sameFolded name "srcset" = true) :
    isSensitiveAttribute name = true := by
  have hfold : Text.fold name = Text.fold "srcset" := eq_of_beq h
  refine List.any_eq_true.2 ⟨"srcset", by decide, ?_⟩
  rw [Text.sameFolded, hfold]
  exact beq_self_eq_true _

/-- A harmful candidate is let through exactly if it is split, so that a list of sources that is
accepted has no other harmful candidates. -/
theorem accepts_sources {name : String} (hname : Text.sameFolded name "srcset" = true)
    (value : String) :
    (∀ candidate ∈ Text.splitOn ',' value.toList, IsHarmful (sourceUrl candidate) →
        (isSafeUrl (candidateUrl candidate) = true ↔ IsSplit (sourceUrl candidate))) ∧
      (isSafeValue name value = true →
        ∀ candidate ∈ Text.splitOn ',' value.toList,
          IsHarmful (sourceUrl candidate) → IsSplit (sourceUrl candidate)) := by
  refine ⟨fun candidate _ => isSafeUrl_candidateUrl_iff, ?_⟩
  intro hsafe candidate hcandidate hharm
  have hvalue : isSafeValue name value =
      (Text.splitOn ',' value.toList).all fun candidate => isSafeUrl (candidateUrl candidate) := by
    simp [isSafeValue, hname, isSensitiveAttribute_of_srcset hname]
  rw [hvalue] at hsafe
  exact (isSafeUrl_candidateUrl_iff hharm).1 (List.all_eq_true.1 hsafe candidate hcandidate)

/-- A candidate of which the check sees no more than the control in front. -/
def splitCandidate : String :=
  "\x01\x0bjavascript:alert(1)"

theorem accepts_sources_splitCandidate :
    Text.sameFolded "SrcSet" "srcset" = true ∧
      isSafeValue "SrcSet" ("a.png 1x," ++ splitCandidate) = true ∧
      IsSplit (sourceUrl splitCandidate.toList) := by
  have hname : Text.sameFolded "SrcSet" "srcset" = true := by decide
  have hsafe : isSafeValue "SrcSet" ("a.png 1x," ++ splitCandidate) = true := by decide
  have hmem : splitCandidate.toList ∈
      Text.splitOn ',' ("a.png 1x," ++ splitCandidate).toList := by decide
  have hharm : IsHarmful (sourceUrl splitCandidate.toList) := by decide
  exact ⟨hname, hsafe, (accepts_sources hname _).2 hsafe _ hmem hharm⟩

/-- A list of sources may be accepted though one of its candidates is harmful. -/
theorem not_refuses_sources :
    ¬ ∀ name value : String, Text.sameFolded name "srcset" = true →
      isSafeValue name value = true →
        ∀ candidate ∈ Text.splitOn ',' value.toList, ¬ IsHarmful (sourceUrl candidate) := by
  intro h
  exact h "srcset" splitCandidate (by decide) (by decide) splitCandidate.toList (by decide)
    (by decide)

end Safety
end RenderForest
