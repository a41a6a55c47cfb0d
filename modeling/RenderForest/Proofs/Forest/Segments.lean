import RenderForest.Proofs.Forest.DocumentOrder
/-!
# Segments — the forest of a stream that is put together

What the tokens of a stream show stays together when other tokens stand before them: the sites
are those of the two parts, and only the roots of the second part look for a parent in the first.
This file defines:

* `Nesting.NeverBelow` and `Nesting.IsBalanced`, marks that close only what they open, and all of
  it;
* `Site.shift`, a site when other tokens stand before its own;
* `Follows`, that a stream keeps its tree behind another;

and shows in `parent?_shift` what the parents of the second part are, in `build_append` that the
forests of two streams stand one after the other, and in `build_opening` that the forest of a
stream goes into the node of an opening token before it.
-/

namespace RenderForest

/-! ## Marks that close what they open -/

namespace Nesting

/-- No run of tokens at the start closes more than it opens. -/
def NeverBelow (marks : List Nesting) : Prop :=
  ∀ run, run <+: marks → 0 ≤ depth run

/-- The marks open as many tokens as they close, and no end comes before its start. -/
structure IsBalanced (marks : List Nesting) : Prop where
  neverBelow : NeverBelow marks
  depth_eq : depth marks = 0

variable {a b : List Nesting}

theorem NeverBelow.of_prefix (h : NeverBelow b) (hab : a <+: b) : NeverBelow a :=
  fun run hrun => h run (hrun.trans hab)

theorem isBalanced_nil : IsBalanced [] := by
  refine ⟨?_, rfl⟩
  intro run hrun
  rw [List.prefix_nil.1 hrun]
  exact Int.le_refl _

theorem IsBalanced.append (ha : IsBalanced a) (hb : IsBalanced b) : IsBalanced (a ++ b) := by
  refine ⟨?_, by rw [depth_append, ha.depth_eq, hb.depth_eq]; rfl⟩
  intro run hrun
  -- The run ends within the first part, or goes on into the second.
  rcases List.prefix_or_prefix_of_prefix hrun (List.prefix_append a b) with hrun' | ⟨rest, rfl⟩
  · exact ha.neverBelow run hrun'
  · rw [depth_append, ha.depth_eq, Int.zero_add]
    exact hb.neverBelow rest ((List.prefix_append_right_inj a).1 hrun)

theorem isBalanced_selfClosing : IsBalanced [.selfClosing] := by
  refine ⟨?_, rfl⟩
  intro run hrun
  rcases List.prefix_cons_iff.1 hrun with rfl | ⟨rest, rfl, hrest⟩
  · exact Int.le_refl _
  · rw [List.prefix_nil.1 hrest]
    exact Int.le_refl _

theorem IsBalanced.wrap (h : IsBalanced a) : IsBalanced (.opening :: a ++ [.closing]) := by
  have hdepth : ∀ run : List Nesting, depth (.opening :: run) = 1 + depth run := fun run =>
    depth_append [.opening] run
  refine ⟨?_, ?_⟩
  · intro run hrun
    rcases List.prefix_cons_iff.1 hrun with rfl | ⟨rest, rfl, hrest⟩
    · exact Int.le_refl _
    · -- Behind the start the run is one deeper than its part inside.
      rw [hdepth]
      rcases List.prefix_concat_iff.1 hrest with rfl | hrest
      · rw [depth_append, h.depth_eq]
        decide
      · have := h.neverBelow rest hrest
        omega
  · rw [List.cons_append, hdepth, depth_append, h.depth_eq]
    rfl

end Nesting

namespace Forest

open Nesting

/-! ## Open tokens behind others -/

/-- What is open behind the second part of a stream is open in that part, or in the first. -/
theorem openTokens_append_of_neverBelow (m : List Nesting) {m' : List Nesting}
    (h : NeverBelow m') :
    openTokens (m ++ m') = (openTokens m').map (m.length + ·) ++ openTokens m ∧
      ((openTokens m').length : Int) = depth m' := by
  -- An end in the second part closes a token of that part, since the depth tells that one is open.
  induction m' using List.reverseRecOn with
  | nil => exact ⟨by rw [List.append_nil]; rfl, rfl⟩
  | append_singleton m' mark ih =>
      rcases ih (h.of_prefix (List.prefix_append _ _)) with ⟨hopen, hlength⟩
      rw [← List.append_assoc]
      cases mark with
      | opening =>
          rw [openTokens_opening, openTokens_opening, hopen, List.length_append]
          refine ⟨rfl, ?_⟩
          rw [depth_append, List.length_cons, depth_singleton, ← hlength]
          rfl
      | selfClosing =>
          rw [openTokens_selfClosing, openTokens_selfClosing, hopen]
          refine ⟨rfl, ?_⟩
          rw [depth_append, depth_singleton, ← hlength]
          exact (Int.add_zero _).symm
      | closing =>
          have hdepth : 0 ≤ depth (m' ++ [.closing]) := h _ (List.prefix_refl _)
          rw [depth_append, depth_singleton, ← hlength] at hdepth ⊢
          rw [openTokens_closing, openTokens_closing, hopen]
          cases hm' : openTokens m' with
          | nil =>
              rw [hm'] at hdepth
              exact absurd hdepth (by decide)
          | cons k rest =>
              refine ⟨rfl, ?_⟩
              rw [List.tail_cons, List.length_cons, toInt]
              omega

theorem openTokens_append_of_nil {m : List Nesting} (h : openTokens m = []) (m' : List Nesting) :
    openTokens (m ++ m') = (openTokens m').map (m.length + ·) := by
  induction m' using List.reverseRecOn with
  | nil =>
      rw [List.append_nil, h]
      rfl
  | append_singleton m' mark ih =>
      rw [← List.append_assoc]
      cases mark with
      | opening =>
          rw [openTokens_opening, openTokens_opening, ih, List.length_append]
          rfl
      | selfClosing => rw [openTokens_selfClosing, openTokens_selfClosing, ih]
      | closing => rw [openTokens_closing, openTokens_closing, ih, List.map_tail]

theorem openTokens_of_isBalanced {m : List Nesting} (h : IsBalanced m) : openTokens m = [] := by
  have hlength := (openTokens_append_of_neverBelow [] h.neverBelow).2
  rw [h.depth_eq] at hlength
  exact List.length_eq_zero_iff.1 (by omega)

/-! ## Sites behind others -/

/-- The site when `n` more tokens stand before its own. -/
def Site.shift (n : Nat) (s : Site) : Site :=
  ⟨n + s.token, s.inner⟩

theorem Site.shift_injective (n : Nat) : Function.Injective (Site.shift n) := by
  rintro ⟨i, x⟩ ⟨j, y⟩ h
  simp only [Site.shift, Site.mk.injEq] at h ⊢
  exact ⟨Nat.add_left_cancel h.1, h.2⟩

variable {a b : List Shown} {s c : Site} {i : Nat}

theorem sitesOf_shift (n i : Nat) (o : Option (Node × Option Node)) :
    sitesOf (n + i) o = (sitesOf i o).map (Site.shift n) := by
  rcases o with _ | ⟨node, _ | inner⟩ <;> rfl

theorem sites_append_map (a b : List Shown) :
    sites (a ++ b) = sites a ++ (sites b).map (Site.shift a.length) := by
  induction b using List.reverseRecOn with
  | nil => simp [sites]
  | append_singleton b s ih =>
      rw [← List.append_assoc, sites_append, ih, sites_append, List.length_append, sitesOf_shift,
        List.map_append, List.append_assoc]

theorem nodeAt_left (h : s.token < a.length) : nodeAt (a ++ b) s = nodeAt a s := by
  rw [nodeAt, nodeAt, List.getElem?_append_left h]

theorem nodeAt_shift (s : Site) : nodeAt (a ++ b) (s.shift a.length) = nodeAt b s := by
  have hget : (a ++ b)[a.length + s.token]? = b[s.token]? := by
    rw [List.getElem?_append_right (Nat.le_add_right _ _), Nat.add_sub_cancel_left]
  rw [nodeAt, nodeAt, Site.shift, hget]

theorem takesChildren_left (h : s.token < a.length) :
    takesChildren (a ++ b) s = takesChildren a s := by
  rw [takesChildren, takesChildren, nodeAt_left h]

theorem takesChildren_shift (s : Site) :
    takesChildren (a ++ b) (s.shift a.length) = takesChildren b s := by
  rw [takesChildren, takesChildren, nodeAt_shift]

theorem holder?_left (h : i < a.length) : holder? (a ++ b) i = holder? a i := by
  rw [holder?, holder?, List.getElem?_append_left h]

theorem holder?_shift (i : Nat) :
    holder? (a ++ b) (a.length + i) = (holder? b i).map (Site.shift a.length) := by
  rw [holder?, holder?, List.getElem?_append_right (Nat.le_add_right _ _),
    Nat.add_sub_cancel_left]
  cases b[i]? with
  | none => rfl
  | some t => rw [Option.bind_some, Option.bind_some, sitesOf_shift, List.getLast?_map]

theorem TakesAll.append (ha : TakesAll a) (hb : TakesAll b) : TakesAll (a ++ b) := by
  intro k s hs hopening
  -- The opening token stands in the first stream or in the second.
  by_cases hk : k < a.length
  · rw [List.getElem?_append_left hk] at hs
    rcases ha k s hs hopening with ⟨site, hsite, htakes⟩
    have htoken : site.token < a.length := by
      rw [(holder?_token hsite).1]
      exact hk
    exact ⟨site, (holder?_left hk).trans hsite, (takesChildren_left htoken).trans htakes⟩
  · rcases Nat.exists_eq_add_of_le (Nat.le_of_not_lt hk) with ⟨i, rfl⟩
    rw [List.getElem?_append_right (Nat.le_add_right _ _), Nat.add_sub_cancel_left] at hs
    rcases hb i s hs hopening with ⟨site, hsite, htakes⟩
    refine ⟨site.shift a.length, ?_, (takesChildren_shift site).trans htakes⟩
    rw [holder?_shift, hsite]
    rfl

theorem takesAll_singleton {s : Shown} (h : s.nesting = .opening →
    ∃ n, s.output = some (n, none) ∧ n.isContainer = true) : TakesAll [s] := by
  refine takesAll_of_mem ?_
  intro t ht
  rw [List.mem_singleton.1 ht]
  exact h

theorem takesAll_of_ne {s : Shown} (h : s.nesting ≠ .opening) : TakesAll [s] :=
  takesAll_singleton fun hs => absurd hs h

theorem takesAll_closing : TakesAll [⟨none, .closing⟩] :=
  takesAll_of_ne (by decide)

theorem TakesAll.group {n : Node} (h : TakesAll a) (hn : n.isContainer = true) :
    TakesAll (⟨some (n, none), .opening⟩ :: a ++ [⟨none, .closing⟩]) :=
  ((takesAll_singleton fun _ => ⟨n, rfl, hn⟩).append h).append takesAll_closing

/-! ## Parents behind others -/

/-- Up to its last token the second stream closes only what it opens, and its opening tokens take
what they hold; or else the first one leaves nothing open. -/
def Follows (a b : List Shown) : Prop :=
  openTokens (a.map Shown.nesting) = [] ∨
    TakesAll b ∧ NeverBelow (b.map Shown.nesting).dropLast

theorem openSite_left (h : i ≤ a.length) : openSite (a ++ b) i = openSite a i := by
  have htake : (a ++ b).take i = a.take i := List.take_append_of_le_length h
  rw [openSite, openSite, htake]
  -- The innermost open token is one of the first part.
  cases hopen : (openTokens ((a.take i).map Shown.nesting)).head? with
  | none => rfl
  | some k =>
      have hk : k < a.length := by
        have hlt := lt_of_mem_openTokens (List.mem_of_mem_head? hopen)
        rw [List.length_map, List.length_take] at hlt
        omega
      rw [Option.bind_some, Option.bind_some, holder?_left hk]
      cases hs : holder? a k with
      | none => rfl
      | some s =>
          have htoken : s.token < a.length := by
            rw [(holder?_token hs).1]
            exact hk
          simp only [Option.filter_some, takesChildren_left htoken]

theorem openSite_of_openTokens_eq_nil (h : openTokens (a.map Shown.nesting) = []) :
    openSite a a.length = none := by
  rw [openSite, List.take_length, h]
  rfl

/-- The tokens that are open in a stream behind another, and those that the first leaves open. -/
theorem openBefore_shift (h : Follows a b) (hi : i < b.length) :
    openBefore (a ++ b) (a.length + i) =
      (openBefore b i).map (a.length + ·) ++ openTokens (a.map Shown.nesting) := by
  have htake : (a ++ b).take (a.length + i) = a ++ b.take i := List.take_length_add_append i
  rw [openBefore, openBefore, htake, List.map_append]
  rcases h with hnil | ⟨_, hbelow⟩
  · rw [openTokens_append_of_nil hnil, hnil, List.append_nil, List.length_map]
  · have hprefix : (b.take i).map Shown.nesting <+: (b.map Shown.nesting).dropLast := by
      rw [List.map_take, List.dropLast_eq_take]
      refine List.take_prefix_take_left ?_
      rw [List.length_map]
      omega
    have hopen := (openTokens_append_of_neverBelow (a.map Shown.nesting)
      (hbelow.of_prefix hprefix)).1
    rw [hopen, List.length_map]

theorem openSite_shift (h : Follows a b) (hi : i < b.length) :
    openSite (a ++ b) (a.length + i) =
      ((openSite b i).map (Site.shift a.length)).or (openSite a a.length) := by
  have hopen := openBefore_shift h hi
  rw [openBefore, openBefore] at hopen
  rw [openSite, hopen]
  cases hhead : openTokens ((b.take i).map Shown.nesting) with
  | nil =>
      -- The token stands at the top of its own stream.
      have hnone : openSite b i = none := by
        rw [openSite, hhead]
        rfl
      rw [hnone, ← openSite_left (b := b) (Nat.le_refl _), openSite, List.take_left]
      rfl
  | cons k rest =>
      have hsite : openSite b i = (holder? b k).filter (takesChildren b) := by
        rw [openSite, hhead]
        rfl
      have hshift : ((holder? b k).map (Site.shift a.length)).filter (takesChildren (a ++ b)) =
          (openSite b i).map (Site.shift a.length) := by
        rw [hsite]
        cases holder? b k with
        | none => rfl
        | some s =>
            rw [Option.map_some, Option.filter_some, Option.filter_some, takesChildren_shift]
            split <;> rfl
      rw [List.map_cons, List.cons_append, List.head?_cons, Option.bind_some, holder?_shift, hshift]
      -- If the first stream leaves nothing open it takes nothing; or else the innermost open
      -- token of the second takes it.
      rcases h with hnil | ⟨htakes, _⟩
      · rw [openSite_of_openTokens_eq_nil hnil, Option.or_none]
      · have hk : k ∈ openBefore b i := by
          rw [openBefore, hhead]
          exact List.mem_cons_self
        rcases opening_of_mem_openBefore hk with ⟨t, ht, hopening⟩
        rcases htakes k t ht hopening with ⟨p, hp, hpTakes⟩
        rw [hsite, hp, Option.filter_some, if_pos hpTakes]
        rfl

theorem parent?_left (h : s.token < a.length) : parent? (a ++ b) s = parent? a s := by
  have htakes := takesChildren_left (b := b) (s := ⟨s.token, false⟩) h
  rw [parent?, parent?, openSite_left (Nat.le_of_lt h), htakes]

/-- What stands behind another stream keeps its parents, and what has none looks for one among
the tokens that are left open. -/
theorem parent?_shift (h : Follows a b) (hs : s ∈ sites b) :
    parent? (a ++ b) (s.shift a.length) =
      ((parent? b s).map (Site.shift a.length)).or (openSite a a.length) := by
  have htakes := takesChildren_shift (a := a) (b := b) ⟨s.token, false⟩
  have hopen := openSite_shift h (token_lt_of_mem_sites hs)
  simp only [Site.shift] at htakes hopen ⊢
  rw [parent?, parent?, htakes, hopen]
  split <;> rfl

/-- The site of the first stream that takes what the second one shows at its top. -/
theorem openSite_token {p : Site} (h : openSite a a.length = some p) : p.token < a.length :=
  (openSite_eq_some h).1

theorem parent?_shift_eq_shift (h : Follows a b) (hc : c ∈ sites b) :
    parent? (a ++ b) (c.shift a.length) = some (s.shift a.length) ↔ parent? b c = some s := by
  rw [parent?_shift h hc]
  cases hp : parent? b c with
  | none =>
      rw [Option.map_none, Option.none_or]
      refine ⟨fun hopen => ?_, fun hnone => by cases hnone⟩
      -- No site of the first stream stands behind it.
      have := openSite_token hopen
      simp only [Site.shift] at this
      omega
  | some p =>
      rw [Option.map_some, Option.some_or, Option.some_inj, Option.some_inj]
      exact (Site.shift_injective _).eq_iff

theorem parent?_shift_eq_left (h : Follows a b) (hc : c ∈ sites b) (hs : s.token < a.length) :
    parent? (a ++ b) (c.shift a.length) = some s ↔
      parent? b c = none ∧ openSite a a.length = some s := by
  rw [parent?_shift h hc]
  cases hp : parent? b c with
  | none => simp
  | some p =>
      rw [Option.map_some, Option.some_or, Option.some_inj]
      refine ⟨?_, fun hnone => by cases hnone.1⟩
      rintro rfl
      simp only [Site.shift] at hs
      omega

/-! ## Trees behind others -/

theorem childrenOf_shift (h : Follows a b) (s : Site) :
    childrenOf (a ++ b) (s.shift a.length) = (childrenOf b s).map (Site.shift a.length) := by
  -- A parent comes before its child, so that the first part has no child to give.
  have hleft : (sites a).filter
      (fun c => parent? (a ++ b) c == some (s.shift a.length)) = [] := by
    refine List.filter_eq_nil_iff.2 ?_
    intro c hc hp
    have hlt := token_lt_of_mem_sites hc
    rw [parent?_left hlt, beq_iff_eq] at hp
    have hmem := token_lt_of_mem_sites (parent?_eq_some hp).2.1
    simp only [Site.shift] at hmem
    omega
  rw [childrenOf, sites_append_map, List.filter_append, hleft, List.nil_append, List.filter_map,
    childrenOf]
  refine congrArg (List.map _) (List.filter_congr ?_)
  intro c hc
  rw [Bool.eq_iff_iff, Function.comp_apply, beq_iff_eq, beq_iff_eq, parent?_shift_eq_shift h hc]

/-- What stands behind another stream keeps its trees. -/
theorem subtree_shift (h : Follows a b) (s : Site) :
    subtree (a ++ b) (s.shift a.length) = subtree b s := by
  rw [subtree_eq, subtree_eq, nodeAt_shift, childrenOf_shift h, List.map_map]
  refine congrArg (fun cs => Node.append cs _) (List.map_congr_left ?_)
  intro c hc
  exact subtree_shift h c
termination_by 2 * b.length - s.rank
decreasing_by
  have := rank_of_mem_childrenOf hc
  omega

/-- A condition that does not look at the members keeps all of them or none. -/
theorem filter_eq_ite {α : Type} {l : List α} {keep keep' : α → Bool} {q : Prop} [Decidable q]
    (h : ∀ x ∈ l, keep x = true ↔ keep' x = true ∧ q) :
    l.filter keep = if q then l.filter keep' else [] := by
  split
  · rename_i hq
    refine List.filter_congr ?_
    intro x hx
    rw [Bool.eq_iff_iff, h x hx]
    exact and_iff_left hq
  · rename_i hq
    refine List.filter_eq_nil_iff.2 ?_
    intro x hx hkeep
    exact hq ((h x hx).1 hkeep).2

/-- The roots of a stream behind another hang where the first one leaves a token open. -/
theorem childrenOf_left (h : Follows a b) (hs : s.token < a.length) :
    childrenOf (a ++ b) s = childrenOf a s ++
      if openSite a a.length = some s then (rootSites b).map (Site.shift a.length) else [] := by
  have hleft : (sites a).filter (fun c => parent? (a ++ b) c == some s) = childrenOf a s := by
    refine List.filter_congr ?_
    intro c hc
    rw [parent?_left (token_lt_of_mem_sites hc)]
  have hright : (sites b).filter ((fun c => parent? (a ++ b) c == some s) ∘ Site.shift a.length) =
      if openSite a a.length = some s then rootSites b else [] := by
    refine filter_eq_ite ?_
    intro c hc
    rw [Function.comp_apply, beq_iff_eq, beq_iff_eq, parent?_shift_eq_left h hc hs]
  rw [childrenOf, sites_append_map, List.filter_append, hleft, List.filter_map, hright]
  split <;> rfl

theorem rootSites_append (h : Follows a b) :
    rootSites (a ++ b) = rootSites a ++
      if openSite a a.length = none then (rootSites b).map (Site.shift a.length) else [] := by
  have hleft : (sites a).filter (fun c => parent? (a ++ b) c == none) = rootSites a := by
    refine List.filter_congr ?_
    intro c hc
    rw [parent?_left (token_lt_of_mem_sites hc)]
  have hright : (sites b).filter ((fun c => parent? (a ++ b) c == none) ∘ Site.shift a.length) =
      if openSite a a.length = none then rootSites b else [] := by
    refine filter_eq_ite ?_
    intro c hc
    rw [Function.comp_apply, beq_iff_eq, beq_iff_eq, parent?_shift h hc, Option.or_eq_none_iff,
      Option.map_eq_none_iff]
  rw [rootSites, sites_append_map, List.filter_append, hleft, List.filter_map, hright]
  split <;> rfl

theorem map_subtree_shift (h : Follows a b) :
    ((rootSites b).map (Site.shift a.length)).map (subtree (a ++ b)) = build b := by
  rw [build_eq_outline, outline, List.map_map]
  exact List.map_congr_left fun s _ => subtree_shift h s

/-! ## Putting streams together -/

theorem subtree_left (hopen : openTokens (a.map Shown.nesting) = []) (s : Site)
    (hs : s ∈ sites a) : subtree (a ++ b) s = subtree a s := by
  have hlt := token_lt_of_mem_sites hs
  have hchildren : childrenOf (a ++ b) s = childrenOf a s := by
    rw [childrenOf_left (.inl hopen) hlt, openSite_of_openTokens_eq_nil hopen]
    simp
  rw [subtree_eq, subtree_eq, nodeAt_left hlt, hchildren]
  refine congrArg (fun cs => Node.append cs _) (List.map_congr_left ?_)
  intro c hc
  exact subtree_left hopen c (List.mem_filter.1 hc).1
termination_by 2 * a.length - s.rank
decreasing_by
  have := rank_of_mem_childrenOf hc
  omega

/-- Behind a stream that leaves nothing open another one has its own forest. -/
theorem build_append (hopen : openTokens (a.map Shown.nesting) = []) (b : List Shown) :
    build (a ++ b) = build a ++ build b := by
  have hfollows : Follows a b := .inl hopen
  have hnone := openSite_of_openTokens_eq_nil hopen
  rw [build_eq_outline, outline, rootSites_append hfollows, if_pos hnone, List.map_append,
    map_subtree_shift hfollows, build_eq_outline a, outline]
  refine congrArg (· ++ build b) (List.map_congr_left ?_)
  intro s hs
  exact subtree_left hopen s (List.mem_filter.1 hs).1

theorem build_alone (n : Node) : build [⟨some (n, none), .selfClosing⟩] = [n] := by
  have hroots : rootSites [⟨some (n, none), .selfClosing⟩] = [⟨0, false⟩] := by
    simp [rootSites, sites, sitesOf, parent?, openSite, openTokens]
  have hchildren : childrenOf [⟨some (n, none), .selfClosing⟩] ⟨0, false⟩ = [] := by
    simp [childrenOf, sites, sitesOf, parent?, openSite, openTokens]
  rw [build_eq_outline, outline, hroots, List.map_singleton, subtree_eq, hchildren, List.map_nil,
    append_nil]
  rfl

/-- The forest of what an opening token holds goes into its node. -/
theorem build_opening {n : Node} (hn : n.isContainer = true) (htakes : TakesAll b)
    (hbelow : NeverBelow (b.map Shown.nesting).dropLast) :
    build (⟨some (n, none), .opening⟩ :: b) = [n.append (build b)] := by
  have hfollows : Follows [⟨some (n, none), .opening⟩] b := .inr ⟨htakes, hbelow⟩
  have hopen : openSite [⟨some (n, none), .opening⟩] 1 = some ⟨0, false⟩ := by
    simp [openSite, openTokens, isOpen, holder?, sitesOf, takesChildren, nodeAt, hn]
  have hroots : rootSites [⟨some (n, none), .opening⟩] = [⟨0, false⟩] := by
    simp [rootSites, sites, sitesOf, parent?, openSite, openTokens]
  have hchildren : childrenOf [⟨some (n, none), .opening⟩] ⟨0, false⟩ = [] := by
    simp [childrenOf, sites, sitesOf, parent?, openSite, openTokens]
  -- No root of the second stream stays one: all of them hang in the opening token.
  have hall := rootSites_append hfollows
  have hbelow' := childrenOf_left (s := ⟨0, false⟩) hfollows Nat.zero_lt_one
  rw [List.length_singleton, hopen, hroots, if_neg (Option.some_ne_none _)] at hall
  rw [List.length_singleton, hopen, hchildren, if_pos rfl, List.nil_append] at hbelow'
  have hmap := map_subtree_shift hfollows
  rw [List.length_singleton, ← hbelow'] at hmap
  rw [build_eq_outline, outline, ← List.singleton_append, hall]
  simp only [List.append_nil, List.map_cons, List.map_nil]
  rw [subtree_eq, hmap]
  rfl

/-- A token with its own end, and what they hold, make one tree. -/
theorem build_group {n : Node} (hn : n.isContainer = true) {inner : List Shown}
    (htakes : TakesAll inner) (hbalanced : IsBalanced (inner.map Shown.nesting)) :
    build (⟨some (n, none), .opening⟩ :: inner ++ [⟨none, .closing⟩]) =
      [n.append (build inner)] := by
  have hopen := openTokens_of_isBalanced hbalanced
  have hinner : build (inner ++ [⟨none, .closing⟩]) = build inner := by
    rw [build_append hopen]
    exact List.append_nil _
  rw [List.cons_append, build_opening hn (htakes.append takesAll_closing) ?_, hinner]
  · rw [List.map_append, List.map_singleton, List.dropLast_concat]
    exact hbalanced.neverBelow

end Forest
end RenderForest
