import RenderForest.Proofs.Forest.Segments
import RenderForest.Proofs.Html.Outline
/-!
# Splices — a balanced run of tokens inside a stream

Tokens that close all they open, and whose nodes take what they hold, stand in a stream like one
token: what comes before and behind them keeps its tree, and what they show at their top hangs
where the innermost token that is open before them takes it.  This file defines:

* `Site.skip`, the place of a site when a run of tokens is inserted;

and shows in `filter_parent?_splice` what hangs where behind the insertion, and in
`writeNodes_build_splice` that runs whose own forests are written alike may stand for each other,
whatever is open around them.
-/

namespace RenderForest
namespace Forest

open Nesting

/-! ## Places around an inserted run -/

/-- The index of a token when `k` tokens are inserted at `n`. -/
def skipIndex (n k i : Nat) : Nat :=
  if i < n then i else k + i

/-- The site when `k` tokens are inserted at `n`. -/
def Site.skip (n k : Nat) (s : Site) : Site :=
  ⟨skipIndex n k s.token, s.inner⟩

theorem skipIndex_of_lt {n i : Nat} (k : Nat) (h : i < n) : skipIndex n k i = i :=
  if_pos h

theorem skipIndex_add (n k i : Nat) : skipIndex n k (n + i) = n + k + i := by
  rw [skipIndex, if_neg (by omega)]
  omega

namespace Site

variable {n k : Nat} {s p : Site}

theorem skip_of_lt (k : Nat) (h : s.token < n) : s.skip n k = s := by
  rw [skip, skipIndex_of_lt k h]

theorem skip_shift (n k : Nat) (s : Site) : (s.shift n).skip n k = s.shift (n + k) := by
  rw [shift, skip, skipIndex_add]
  rfl

theorem skip_injective (n k : Nat) : Function.Injective (skip n k) := by
  rintro ⟨i, x⟩ ⟨j, y⟩ h
  simp only [skip, mk.injEq, skipIndex] at h ⊢
  refine ⟨?_, h.2⟩
  have hindex := h.1
  split at hindex <;> split at hindex <;> omega

/-- No site goes to where the tokens were inserted. -/
theorem skip_ne_shift (hp : p.token < k) : s.skip n k ≠ p.shift n := by
  intro h
  have htoken : skipIndex n k s.token = n + p.token := congrArg token h
  unfold skipIndex at htoken
  split at htoken <;> omega

/-- A site stands before the insertion or behind it. -/
theorem lt_or_eq_shift (n : Nat) (s : Site) : s.token < n ∨ ∃ t : Site, s = t.shift n := by
  rcases Nat.lt_or_ge s.token n with h | h
  · exact Or.inl h
  · refine Or.inr ⟨⟨s.token - n, s.inner⟩, ?_⟩
    rw [shift, Nat.add_sub_cancel' h]

end Site

/-- What stands before the insertion stays where it is. -/
theorem map_skip_of_lt {n : Nat} (k : Nat) {o : Option Site} (h : ∀ s ∈ o, s.token < n) :
    o.map (Site.skip n k) = o := by
  cases o with
  | none => rfl
  | some s => rw [Option.map_some, Site.skip_of_lt k (h s rfl)]

/-! ## What is open behind the run -/

/-- Behind a balanced run the same tokens are open as without it. -/
theorem openTokens_splice (m : List Nesting) {run : List Nesting} (h : IsBalanced run)
    (m' : List Nesting) :
    openTokens (m ++ run ++ m') =
      (openTokens (m ++ m')).map (skipIndex m.length run.length) := by
  induction m' using List.reverseRecOn with
  | nil =>
      rw [List.append_nil, List.append_nil, (openTokens_append_of_neverBelow m h.neverBelow).1,
        openTokens_of_isBalanced h, List.map_nil, List.nil_append]
      have hkept : ∀ i ∈ openTokens m, skipIndex m.length run.length i = id i := fun i hi =>
        skipIndex_of_lt _ (lt_of_mem_openTokens hi)
      rw [List.map_congr_left hkept, List.map_id]
  | append_singleton m' mark ih =>
      rw [← List.append_assoc, ← List.append_assoc]
      cases mark with
      | opening =>
          rw [openTokens_opening, openTokens_opening, ih, List.map_cons, List.length_append,
            List.length_append, List.length_append, skipIndex_add]
      | selfClosing => rw [openTokens_selfClosing, openTokens_selfClosing, ih]
      | closing => rw [openTokens_closing, openTokens_closing, ih, List.map_tail]

variable {a run c : List Shown} {s : Site}

theorem nodeAt_splice (a run c : List Shown) (s : Site) :
    nodeAt (a ++ run ++ c) (s.skip a.length run.length) = nodeAt (a ++ c) s := by
  rcases s.lt_or_eq_shift a.length with h | ⟨t, rfl⟩
  · rw [Site.skip_of_lt _ h, List.append_assoc, nodeAt_left h, nodeAt_left h]
  · rw [Site.skip_shift, ← List.length_append, nodeAt_shift, nodeAt_shift]

theorem takesChildren_splice (a run c : List Shown) (s : Site) :
    takesChildren (a ++ run ++ c) (s.skip a.length run.length) = takesChildren (a ++ c) s := by
  rw [takesChildren, takesChildren, nodeAt_splice]

theorem holder?_splice (a run c : List Shown) (i : Nat) :
    holder? (a ++ run ++ c) (skipIndex a.length run.length i) =
      (holder? (a ++ c) i).map (Site.skip a.length run.length) := by
  rcases Nat.lt_or_ge i a.length with h | h
  · have hleft : ∀ s ∈ holder? a i, s.token < a.length := by
      intro s hs
      rw [(holder?_token hs).1]
      exact h
    rw [skipIndex_of_lt _ h, List.append_assoc, holder?_left h, holder?_left h,
      map_skip_of_lt _ hleft]
  · rcases Nat.exists_eq_add_of_le h with ⟨j, rfl⟩
    rw [skipIndex_add, ← List.length_append, holder?_shift, holder?_shift, Option.map_map]
    refine congrArg (fun f => Option.map f (holder? c j)) ?_
    funext t
    rw [Function.comp_apply, Site.skip_shift, List.length_append]

/-- The site that takes the next node is the same with the run and without it. -/
theorem openSite_splice (a c : List Shown) (h : IsBalanced (run.map Shown.nesting)) (i : Nat) :
    openSite (a ++ run ++ c) (skipIndex a.length run.length i) =
      (openSite (a ++ c) i).map (Site.skip a.length run.length) := by
  rcases Nat.lt_or_ge i a.length with hi | hi
  · have hleft : ∀ s ∈ openSite a i, s.token < a.length := fun s hs =>
      Nat.lt_trans (openSite_eq_some hs).1 hi
    rw [skipIndex_of_lt _ hi, List.append_assoc, openSite_left (Nat.le_of_lt hi),
      openSite_left (Nat.le_of_lt hi), map_skip_of_lt _ hleft]
  · rcases Nat.exists_eq_add_of_le hi with ⟨j, rfl⟩
    have hopen := openTokens_splice (a.map Shown.nesting) h ((c.take j).map Shown.nesting)
    rw [List.length_map, List.length_map] at hopen
    rw [openSite, openSite, skipIndex_add, ← List.length_append, List.take_length_add_append,
      List.take_length_add_append, List.map_append, List.map_append, List.map_append, hopen,
      List.head?_map]
    cases (openTokens (a.map Shown.nesting ++ (c.take j).map Shown.nesting)).head? with
    | none => rfl
    | some k =>
        rw [Option.map_some, Option.bind_some, Option.bind_some, holder?_splice]
        cases holder? (a ++ c) k with
        | none => rfl
        | some s =>
            rw [Option.map_some, Option.filter_some, Option.filter_some, takesChildren_splice]
            split <;> rfl

theorem parent?_splice (a c : List Shown) (h : IsBalanced (run.map Shown.nesting)) (s : Site) :
    parent? (a ++ run ++ c) (s.skip a.length run.length) =
      (parent? (a ++ c) s).map (Site.skip a.length run.length) := by
  have htakes := takesChildren_splice a run c ⟨s.token, false⟩
  have hopen := openSite_splice a c h s.token
  simp only [Site.skip] at htakes hopen ⊢
  rw [parent?, parent?, htakes, hopen]
  split <;> rfl

/-! ## What hangs where -/

theorem token_shift_lt (a : List Shown) (hs : s ∈ sites run) :
    (s.shift a.length).token < (a ++ run).length := by
  rw [List.length_append]
  exact Nat.add_lt_add_left (token_lt_of_mem_sites hs) _

/-- What hangs inside the run hangs there, and its roots hang where the innermost token that is
open before it takes them. -/
theorem parent?_run (c : List Shown) (hf : Follows a run) (hs : s ∈ sites run) :
    parent? (a ++ run ++ c) (s.shift a.length) =
      ((parent? run s).map (Site.shift a.length)).or (openSite a a.length) := by
  rw [parent?_left (token_shift_lt a hs), parent?_shift hf hs]

theorem sites_splice (a run c : List Shown) :
    sites (a ++ run ++ c) =
      (sites a).map (Site.skip a.length run.length) ++ (sites run).map (Site.shift a.length) ++
        ((sites c).map (Site.shift a.length)).map (Site.skip a.length run.length) := by
  have hleft : (sites a).map (Site.skip a.length run.length) = sites a := by
    have hkept : ∀ s ∈ sites a, s.skip a.length run.length = id s := fun s hs =>
      Site.skip_of_lt _ (token_lt_of_mem_sites hs)
    rw [List.map_congr_left hkept, List.map_id]
  rw [sites_append_map, sites_append_map, hleft, List.map_map]
  refine congrArg (sites a ++ (sites run).map (Site.shift a.length) ++ ·) ?_
  refine List.map_congr_left fun s _ => ?_
  rw [Function.comp_apply, Site.skip_shift, List.length_append]

/-- What hangs somewhere with the run inserted: what hung there before the place, the roots of
the run if the innermost open token takes them there, and what hung there behind the place. -/
theorem filter_parent?_splice (c : List Shown) (hb : IsBalanced (run.map Shown.nesting))
    (hf : Follows a run) (p : Option Site) :
    (sites (a ++ run ++ c)).filter
        (fun s => parent? (a ++ run ++ c) s == p.map (Site.skip a.length run.length)) =
      ((sites a).filter fun s => parent? (a ++ c) s == p).map (Site.skip a.length run.length) ++
        (if openSite a a.length = p then (rootSites run).map (Site.shift a.length) else []) ++
          (((sites c).map (Site.shift a.length)).filter fun s => parent? (a ++ c) s == p).map
            (Site.skip a.length run.length) := by
  have hskip := Option.map_injective (Site.skip_injective a.length run.length)
  have houter : ∀ s : Site, (parent? (a ++ run ++ c) (s.skip a.length run.length) ==
      p.map (Site.skip a.length run.length)) = (parent? (a ++ c) s == p) := by
    intro s
    rw [parent?_splice a c hb, Bool.eq_iff_iff, beq_iff_eq, beq_iff_eq, hskip.eq_iff]
  have hopen : (openSite a a.length).map (Site.skip a.length run.length) = openSite a a.length :=
    map_skip_of_lt _ fun s hs => (openSite_eq_some hs).1
  have hinner : ((sites run).filter ((fun s => parent? (a ++ run ++ c) s ==
      p.map (Site.skip a.length run.length)) ∘ Site.shift a.length)) =
        if openSite a a.length = p then rootSites run else [] := by
    refine filter_eq_ite fun s hs => ?_
    rw [Function.comp_apply, beq_iff_eq, beq_iff_eq, parent?_run c hf hs]
    cases hp : parent? run s with
    | none =>
        rw [Option.map_none, Option.none_or, ← hopen, hskip.eq_iff, hopen]
        exact (and_iff_right rfl).symm
    | some q =>
        -- What hangs inside the run hangs nowhere else.
        rw [Option.map_some, Option.some_or]
        refine ⟨fun heq => ?_, fun hnone => by cases hnone.1⟩
        rcases Option.map_eq_some_iff.1 heq.symm with ⟨t, _, ht⟩
        exact absurd ht (Site.skip_ne_shift (token_lt_of_mem_sites (parent?_eq_some hp).2.1))
  rw [sites_splice, List.filter_append, List.filter_append, List.filter_map, List.filter_map,
    List.filter_map, hinner]
  simp only [Function.comp_def, houter]
  split <;> rfl

/-! ## Trees around and inside the run -/

/-- Nothing that stands outside the run hangs inside it. -/
theorem childrenOf_run (c : List Shown) (hb : IsBalanced (run.map Shown.nesting))
    (hf : Follows a run) (hs : s ∈ sites run) :
    childrenOf (a ++ run ++ c) (s.shift a.length) =
      (childrenOf run s).map (Site.shift a.length) := by
  have houter : ∀ t : Site, (parent? (a ++ run ++ c) (t.skip a.length run.length) ==
      some (s.shift a.length)) = false := by
    intro t
    rw [parent?_splice a c hb, beq_eq_false_iff_ne]
    intro heq
    rcases Option.map_eq_some_iff.1 heq with ⟨q, _, hq⟩
    exact Site.skip_ne_shift (token_lt_of_mem_sites hs) hq
  have hinner : (sites run).filter ((fun t => parent? (a ++ run ++ c) t ==
      some (s.shift a.length)) ∘ Site.shift a.length) = childrenOf run s := by
    refine List.filter_congr fun t ht => ?_
    rw [Function.comp_apply, parent?_left (token_shift_lt a ht), Bool.eq_iff_iff, beq_iff_eq,
      beq_iff_eq, parent?_shift_eq_shift hf ht]
  rw [childrenOf, sites_splice, List.filter_append, List.filter_append, List.filter_map,
    List.filter_map, List.filter_map, hinner]
  simp only [Function.comp_def, houter, List.filter_false, List.map_nil, List.nil_append,
    List.append_nil]

theorem subtree_run (c : List Shown) (hb : IsBalanced (run.map Shown.nesting))
    (hf : Follows a run) (s : Site) (hs : s ∈ sites run) :
    subtree (a ++ run ++ c) (s.shift a.length) = subtree run s := by
  rw [subtree_eq, subtree_eq, nodeAt_left (token_shift_lt a hs), nodeAt_shift,
    childrenOf_run c hb hf hs, List.map_map]
  refine congrArg (fun cs => Node.append cs _) (List.map_congr_left ?_)
  intro t ht
  exact subtree_run c hb hf t (List.mem_filter.1 ht).1
termination_by 2 * run.length - s.rank
decreasing_by
  have := rank_of_mem_childrenOf ht
  omega

/-- The roots of the run are the trees of its own forest. -/
theorem map_subtree_run (c : List Shown) (hb : IsBalanced (run.map Shown.nesting))
    (hf : Follows a run) :
    ((rootSites run).map (Site.shift a.length)).map (subtree (a ++ run ++ c)) = build run := by
  rw [build_eq_outline, outline, List.map_map]
  exact List.map_congr_left fun s hs => subtree_run c hb hf s (List.mem_filter.1 hs).1

/-! ## One run for another -/

/-- A run that closes all it opens, and whose opening tokens take what they hold. -/
structure IsRun (run : List Shown) : Prop where
  isBalanced : IsBalanced (run.map Shown.nesting)
  takesAll : TakesAll run

theorem IsRun.follows (h : IsRun run) (a : List Shown) : Follows a run :=
  .inr ⟨h.takesAll, h.isBalanced.neverBelow.of_prefix (List.dropLast_prefix _)⟩

/-- A run with an opening token before it, and the end of that behind it, is a run. -/
theorem IsRun.group (h : IsRun run) {n : Node} (hn : n.isContainer = true) :
    IsRun (⟨some (n, none), .opening⟩ :: run ++ [⟨none, .closing⟩]) := by
  refine ⟨?_, h.takesAll.group hn⟩
  rw [List.map_append, List.map_cons, List.map_singleton]
  exact h.isBalanced.wrap

theorem writeNode_append {cs ds : List Node} (h : Html.writeNodes cs = Html.writeNodes ds)
    (n : Node) : Html.writeNode (n.append cs) = Html.writeNode (n.append ds) := by
  cases n with
  | element tag attrs handlers own =>
      rw [Node.append, Node.append, Html.writeNode_element, Html.writeNode_element,
        Html.writeNodes_append, Html.writeNodes_append, h]
  | fragment own =>
      rw [Node.append, Node.append, Html.writeNode, Html.writeNode, Html.writeNodes_append,
        Html.writeNodes_append, h]
  | _ => rfl

/-- Lists of nodes are written alike if their members are. -/
theorem writeNodes_map {l : List Site} {f g : Site → Node}
    (h : ∀ s ∈ l, Html.writeNode (f s) = Html.writeNode (g s)) :
    Html.writeNodes (l.map f) = Html.writeNodes (l.map g) := by
  induction l with
  | nil => rfl
  | cons s rest ih =>
      rw [List.map_cons, List.map_cons, Html.writeNodes, Html.writeNodes, h s List.mem_cons_self,
        ih fun t ht => h t (List.mem_cons_of_mem _ ht)]

section Exchange

variable {run' : List Shown} (c : List Shown)

/-- What hangs somewhere is written alike around two runs whose forests are written alike, if
what hangs there without them is. -/
theorem writeNodes_filter_splice (hr : IsRun run) (hr' : IsRun run')
    (hrun : Html.writeNodes (build run) = Html.writeNodes (build run')) (p : Option Site)
    (hsub : ∀ s ∈ sites (a ++ c), parent? (a ++ c) s = p →
      Html.writeNode (subtree (a ++ run ++ c) (s.skip a.length run.length)) =
        Html.writeNode (subtree (a ++ run' ++ c) (s.skip a.length run'.length))) :
    Html.writeNodes (((sites (a ++ run ++ c)).filter fun s => parent? (a ++ run ++ c) s ==
        p.map (Site.skip a.length run.length)).map (subtree (a ++ run ++ c))) =
      Html.writeNodes (((sites (a ++ run' ++ c)).filter fun s => parent? (a ++ run' ++ c) s ==
        p.map (Site.skip a.length run'.length)).map (subtree (a ++ run' ++ c))) := by
  have hmem : ∀ l : List Site, l ⊆ sites (a ++ c) →
      Html.writeNodes (((l.filter fun s => parent? (a ++ c) s == p).map
          (Site.skip a.length run.length)).map (subtree (a ++ run ++ c))) =
        Html.writeNodes (((l.filter fun s => parent? (a ++ c) s == p).map
          (Site.skip a.length run'.length)).map (subtree (a ++ run' ++ c))) := by
    intro l hl
    rw [List.map_map, List.map_map]
    refine writeNodes_map fun s hs => ?_
    rcases List.mem_filter.1 hs with ⟨hs, hp⟩
    exact hsub s (hl hs) (beq_iff_eq.1 hp)
  have hsites := sites_append_map a c
  have hbefore := hmem (sites a) (hsites ▸ List.subset_append_left _ _)
  have hbehind := hmem ((sites c).map (Site.shift a.length)) (hsites ▸ List.subset_append_right _ _)
  rw [filter_parent?_splice c hr.isBalanced (hr.follows a) p,
    filter_parent?_splice c hr'.isBalanced (hr'.follows a) p]
  simp only [List.map_append, Html.writeNodes_append, hbefore, hbehind]
  -- The roots of the runs hang here, or somewhere else.
  split
  · rw [map_subtree_run c hr.isBalanced (hr.follows a),
      map_subtree_run c hr'.isBalanced (hr'.follows a), hrun]
  · rfl

/-- A node outside is written alike around two runs whose forests are written alike. -/
theorem writeNode_subtree_splice (hr : IsRun run) (hr' : IsRun run')
    (hrun : Html.writeNodes (build run) = Html.writeNodes (build run')) (s : Site) :
    Html.writeNode (subtree (a ++ run ++ c) (s.skip a.length run.length)) =
      Html.writeNode (subtree (a ++ run' ++ c) (s.skip a.length run'.length)) := by
  rw [subtree_eq, subtree_eq, nodeAt_splice, nodeAt_splice]
  refine writeNode_append (writeNodes_filter_splice c hr hr' hrun (some s) ?_) _
  intro t ht hp
  exact writeNode_subtree_splice hr hr' hrun t
termination_by 2 * (a ++ c).length - s.rank
decreasing_by
  have := (parent?_eq_some hp).1
  have := rank_lt_of_mem_sites ht
  omega

/-- Runs whose own forests are written alike may stand for each other in every stream. -/
theorem writeNodes_build_splice (a : List Shown) (hr : IsRun run) (hr' : IsRun run')
    (hrun : Html.writeNodes (build run) = Html.writeNodes (build run')) :
    Html.writeNodes (build (a ++ run ++ c)) = Html.writeNodes (build (a ++ run' ++ c)) := by
  rw [build_eq_outline, build_eq_outline, outline, outline, rootSites, rootSites]
  exact writeNodes_filter_splice c hr hr' hrun none fun s _ _ =>
    writeNode_subtree_splice c hr hr' hrun s

end Exchange

end Forest
end RenderForest
