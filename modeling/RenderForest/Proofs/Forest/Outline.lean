import Mathlib.Data.List.Flatten
import Mathlib.Data.List.Nodup
import RenderForest.Compile.Forest
import RenderForest.Proofs.Forest.OpenTokens
/-!
# Outline — the forest of a stream, told without slots

Each node of a forest has a site: the token that produced it, and whether it is the inner one of
two nodes.  The sites of a stream stand in the order of production, and each site names its
parent by what is open when its node is produced.  This file defines:

* `Forest.Site`, `Forest.sites` and `Forest.nodeAt`;
* `Forest.parent?`, the site that a site hangs below, with `Forest.childrenOf` and
  `Forest.rootSites`;
* `Forest.subtree`, the node of a site with all that hangs below it, and `Forest.outline`, the
  forest;

and shows in `flatMap_sitesBelow_perm` that the trees of an outline hold each site once.
-/

namespace RenderForest
namespace Forest

/-! ## Sites -/

/-- Where a node comes from: its token, and whether it is the inner one of two nodes. -/
structure Site where
  token : Nat
  inner : Bool
  deriving DecidableEq, Repr

/-- The place of a site in the order of production. -/
def Site.rank (s : Site) : Nat :=
  2 * s.token + s.inner.toNat

def sitesOf (token : Nat) : Option (Node × Option Node) → List Site
  | none => []
  | some (_, none) => [⟨token, false⟩]
  | some (_, some _) => [⟨token, false⟩, ⟨token, true⟩]

/-- The sites of a stream in the order of production. -/
def sites (stream : List Shown) : List Site :=
  (stream.mapIdx fun i s => sitesOf i s.output).flatten

def nodeAt (stream : List Shown) (s : Site) : Option Node :=
  (stream[s.token]?.bind Shown.output).bind fun (node, inner) =>
    if s.inner then inner else some node

def takesChildren (stream : List Shown) (s : Site) : Bool :=
  (nodeAt stream s).any Node.isContainer

/-! ## Parents -/

/-- The site of the node that takes what a token holds: the inner one if there are two. -/
def holder? (stream : List Shown) (k : Nat) : Option Site :=
  stream[k]?.bind fun s => (sitesOf k s.output).getLast?

/-- The site below which a token hangs its node: that of the innermost token that is open before
it, if that one shows a node and the node takes children. -/
def openSite (stream : List Shown) (i : Nat) : Option Site :=
  ((openTokens ((stream.take i).map Shown.nesting)).head?.bind (holder? stream)).filter
    (takesChildren stream)

/-- The site that a site hangs below.  An inner node hangs below the outer one if that takes
children, and stands next to it otherwise. -/
def parent? (stream : List Shown) (s : Site) : Option Site :=
  if s.inner && takesChildren stream ⟨s.token, false⟩ then some ⟨s.token, false⟩
  else openSite stream s.token

/-- The sites that hang below a site, in the order of production. -/
def childrenOf (stream : List Shown) (s : Site) : List Site :=
  (sites stream).filter fun c => parent? stream c == some s

/-- The sites that hang below no other, in the order of production. -/
def rootSites (stream : List Shown) : List Site :=
  (sites stream).filter fun c => parent? stream c == none

/-! ## Sites in order -/

theorem token_of_mem_sitesOf {i : Nat} {o : Option (Node × Option Node)} {s : Site}
    (h : s ∈ sitesOf i o) : s.token = i := by
  unfold sitesOf at h
  split at h
  · cases h
  · simp_all
  · rcases List.mem_pair.1 h with rfl | rfl <;> rfl

theorem sites_append (stream : List Shown) (s : Shown) :
    sites (stream ++ [s]) = sites stream ++ sitesOf stream.length s.output := by
  simp [sites, List.mapIdx_append]

theorem mem_sites_iff {stream : List Shown} {s : Site} :
    s ∈ sites stream ↔ ∃ t, stream[s.token]? = some t ∧ s ∈ sitesOf s.token t.output := by
  simp only [sites, List.mem_flatten, List.mem_mapIdx]
  constructor
  · rintro ⟨_, ⟨i, hi, rfl⟩, hs⟩
    have hi' := token_of_mem_sitesOf hs
    subst hi'
    exact ⟨stream[s.token], List.getElem?_eq_getElem hi, hs⟩
  · rintro ⟨t, ht, hs⟩
    rcases List.getElem?_eq_some_iff.1 ht with ⟨hi, rfl⟩
    exact ⟨_, ⟨s.token, hi, rfl⟩, hs⟩

theorem token_lt_of_mem_sites {stream : List Shown} {s : Site} (h : s ∈ sites stream) :
    s.token < stream.length := by
  rcases mem_sites_iff.1 h with ⟨t, ht, _⟩
  exact (List.getElem?_eq_some_iff.1 ht).1

theorem rank_lt_of_mem_sites {stream : List Shown} {s : Site} (h : s ∈ sites stream) :
    s.rank < 2 * stream.length := by
  have := token_lt_of_mem_sites h
  have := Bool.toNat_le s.inner
  unfold Site.rank
  omega

/-- A node that was produced has a site, and each site a node. -/
theorem mem_sites_iff_nodeAt {stream : List Shown} {s : Site} :
    s ∈ sites stream ↔ (nodeAt stream s).isSome := by
  rw [mem_sites_iff, nodeAt]
  rcases s with ⟨i, b⟩
  cases hs : stream[i]? with
  | none => simp
  | some t =>
      rcases t with ⟨output, nesting⟩
      rcases output with _ | ⟨node, _ | inner⟩ <;> cases b <;> simp [sitesOf]

theorem pairwise_rank_sitesOf (i : Nat) (o : Option (Node × Option Node)) :
    (sitesOf i o).Pairwise fun a b => a.rank < b.rank := by
  rcases o with _ | ⟨node, _ | inner⟩ <;> simp [sitesOf, Site.rank]

/-- The sites stand in the order of their ranks. -/
theorem pairwise_rank_sites (stream : List Shown) :
    (sites stream).Pairwise fun a b => a.rank < b.rank := by
  induction stream using List.reverseRecOn with
  | nil => simp [sites]
  | append_singleton stream s ih =>
      rw [sites_append, List.pairwise_append]
      refine ⟨ih, pairwise_rank_sitesOf _ _, ?_⟩
      intro a ha b hb
      have ha' := rank_lt_of_mem_sites ha
      have hb' := token_of_mem_sitesOf hb
      have hrank : 2 * b.token ≤ b.rank := Nat.le_add_right _ _
      omega

theorem nodup_sites (stream : List Shown) : (sites stream).Nodup :=
  (pairwise_rank_sites stream).imp fun h => by
    rintro rfl
    exact Nat.lt_irrefl _ h

/-! ## Parents come first -/

theorem holder?_token {stream : List Shown} {k : Nat} {s : Site}
    (h : holder? stream k = some s) : s.token = k ∧ s ∈ sites stream := by
  rcases Option.bind_eq_some_iff.1 h with ⟨t, ht, hs⟩
  have hmem := List.mem_of_getLast? hs
  have htoken := token_of_mem_sitesOf hmem
  subst htoken
  exact ⟨rfl, mem_sites_iff.2 ⟨t, ht, hmem⟩⟩

theorem openSite_eq_some {stream : List Shown} {i : Nat} {s : Site}
    (h : openSite stream i = some s) :
    s.token < i ∧ s ∈ sites stream ∧ takesChildren stream s = true := by
  rcases Option.filter_eq_some_iff.1 h with ⟨hs, hc⟩
  rcases Option.bind_eq_some_iff.1 hs with ⟨k, hk, hs⟩
  have hlt := lt_of_mem_openTokens (List.mem_of_mem_head? (Option.mem_def.2 hk))
  rcases holder?_token hs with ⟨rfl, hmem⟩
  have hle : s.token < i := by
    simp only [List.length_map, List.length_take] at hlt
    omega
  exact ⟨hle, hmem, hc⟩

theorem takesChildren_mem {stream : List Shown} {s : Site} (h : takesChildren stream s = true) :
    s ∈ sites stream := by
  rw [mem_sites_iff_nodeAt]
  unfold takesChildren at h
  cases hn : nodeAt stream s with
  | none => simp [hn] at h
  | some n => rfl

/-- A parent is a site whose node takes children, and it was produced before its child. -/
theorem parent?_eq_some {stream : List Shown} {c s : Site} (h : parent? stream c = some s) :
    s.rank < c.rank ∧ s ∈ sites stream ∧ takesChildren stream s = true := by
  unfold parent? at h
  split at h
  · rename_i hc
    have hinner : c.inner = true ∧ takesChildren stream ⟨c.token, false⟩ = true := by
      simpa using hc
    cases h
    exact ⟨by simp [Site.rank, hinner.1], takesChildren_mem hinner.2, hinner.2⟩
  · -- The open token was read before, so that its sites have lower ranks.
    rcases openSite_eq_some h with ⟨hlt, hmem, htakes⟩
    refine ⟨?_, hmem, htakes⟩
    have := Bool.toNat_le s.inner
    have : 2 * c.token ≤ c.rank := Nat.le_add_right _ _
    unfold Site.rank at *
    omega

theorem rank_of_mem_childrenOf {stream : List Shown} {s c : Site}
    (h : c ∈ childrenOf stream s) : s.rank < c.rank ∧ c.rank < 2 * stream.length := by
  rcases List.mem_filter.1 h with ⟨hc, hp⟩
  exact ⟨(parent?_eq_some (by simpa using hp)).1, rank_lt_of_mem_sites hc⟩

/-- Up to a site nothing hangs below it, since children come after their parents. -/
theorem filter_parent?_eq_nil {stream : List Shown} {l : List Site} {s : Site}
    (h : (l ++ [s]).Pairwise fun a b => a.rank < b.rank) :
    (l ++ [s]).filter (fun c => parent? stream c == some s) = [] := by
  refine List.filter_eq_nil_iff.2 ?_
  intro c hc hp
  have hrank := (parent?_eq_some (c := c) (by simpa using hp)).1
  rcases List.mem_append.1 hc with hc | hc
  · exact Nat.lt_asymm hrank ((List.pairwise_append.1 h).2.2 c hc s (List.mem_singleton_self s))
  · rw [List.mem_singleton.1 hc] at hrank
    exact Nat.lt_irrefl _ hrank

/-! ## Trees -/

/-- The node of a site, with the subtrees that hang below it behind the children that it brought
along. -/
def subtree (stream : List Shown) (s : Site) : Node :=
  ((nodeAt stream s).getD .empty).append
    ((childrenOf stream s).attach.map fun c => subtree stream c.1)
termination_by 2 * stream.length - s.rank
decreasing_by
  have := rank_of_mem_childrenOf c.2
  omega

/-- The sites of a subtree, each before those below it. -/
def sitesBelow (stream : List Shown) (s : Site) : List Site :=
  s :: (childrenOf stream s).attach.flatMap fun c => sitesBelow stream c.1
termination_by 2 * stream.length - s.rank
decreasing_by
  have := rank_of_mem_childrenOf c.2
  omega

def outline (stream : List Shown) : List Node :=
  (rootSites stream).map (subtree stream)

theorem subtree_eq (stream : List Shown) (s : Site) :
    subtree stream s =
      ((nodeAt stream s).getD .empty).append ((childrenOf stream s).map (subtree stream)) := by
  rw [subtree, List.attach_map_val]

theorem sitesBelow_eq (stream : List Shown) (s : Site) :
    sitesBelow stream s = s :: (childrenOf stream s).flatMap (sitesBelow stream) := by
  rw [sitesBelow, List.flatMap_def, List.flatMap_def, List.attach_map_val]

/-! ## Each site once -/

/-- The sites of a list that hang below none of it. -/
def topsOf (stream : List Shown) (l : List Site) : List Site :=
  l.filter fun c => (parent? stream c).all fun p => !l.contains p

theorem topsOf_cons {stream : List Shown} {s : Site} {l : List Site}
    (h : (s :: l).Pairwise fun a b => a.rank < b.rank) :
    topsOf stream (s :: l) =
      s :: (topsOf stream l).filter fun c => !(parent? stream c == some s) := by
  rcases List.pairwise_cons.1 h with ⟨hs, _⟩
  -- A parent comes before its child, so that the first site hangs below none of the list.
  have htop : ((parent? stream s).all fun p => !(s :: l).contains p) = true := by
    cases hp : parent? stream s with
    | none => rfl
    | some p =>
        have hrank := (parent?_eq_some hp).1
        have hne : p ≠ s := by
          rintro rfl
          exact Nat.lt_irrefl _ hrank
        have hnot : p ∉ l := by
          intro hmem
          exact Nat.lt_asymm hrank (hs p hmem)
        simp [hne, hnot]
  have hrest : l.filter (fun c => (parent? stream c).all fun p => !(s :: l).contains p) =
      (topsOf stream l).filter fun c => !(parent? stream c == some s) := by
    rw [topsOf, List.filter_filter]
    refine List.filter_congr ?_
    intro c _
    cases parent? stream c <;> simp [Bool.beq_eq_decide_eq]
  rw [topsOf, List.filter_cons, if_pos htop, hrest]

theorem childrenOf_eq_filter_topsOf {stream : List Shown} {s : Site} {l : List Site}
    (h : s :: l <:+ sites stream) :
    childrenOf stream s = (topsOf stream l).filter fun c => parent? stream c == some s := by
  rcases h with ⟨pre, hpre⟩
  have hsorted := pairwise_rank_sites stream
  rw [← hpre] at hsorted
  have hsl : (s :: l).Pairwise fun a b => a.rank < b.rank := (List.pairwise_append.1 hsorted).2.1
  rcases List.pairwise_cons.1 hsl with ⟨hs, _⟩
  have hupto : (pre ++ [s]).Pairwise fun a b => a.rank < b.rank := by
    refine hsorted.sublist ?_
    simp
  -- A child of `s` hangs below no site behind `s`.
  have hkeep : ∀ c ∈ l, (parent? stream c == some s) =
      ((parent? stream c == some s) && (parent? stream c).all fun p => !l.contains p) := by
    intro c _
    cases hp : parent? stream c with
    | none => rfl
    | some p =>
        by_cases hps : p = s
        · have hnot : s ∉ l := fun hmem => Nat.lt_irrefl _ (hs s hmem)
          simp [hps, hnot]
        · simp [hps]
  have hsplit : sites stream = (pre ++ [s]) ++ l := by
    simpa using hpre.symm
  rw [childrenOf, hsplit, List.filter_append, filter_parent?_eq_nil hupto, List.nil_append,
    topsOf, List.filter_filter]
  exact List.filter_congr hkeep

/-- The trees at the top of the last sites hold exactly those sites. -/
theorem flatMap_topsOf_perm (stream : List Shown) (l : List Site) (h : l <:+ sites stream) :
    ((topsOf stream l).flatMap (sitesBelow stream)).Perm l := by
  -- The first site takes its children away from the tops of the sites behind it.
  induction l with
  | nil => exact List.Perm.refl _
  | cons s l ih =>
      have hsorted : (s :: l).Pairwise fun a b => a.rank < b.rank :=
        (pairwise_rank_sites stream).sublist h.sublist
      have hl : l <:+ sites stream := (List.suffix_cons s l).trans h
      rw [topsOf_cons hsorted, List.flatMap_cons, sitesBelow_eq, childrenOf_eq_filter_topsOf h,
        List.cons_append, ← List.flatMap_append]
      refine List.Perm.cons s (List.Perm.trans ?_ (ih hl))
      exact (List.filter_append_perm _ _).flatMap_right _

/-- The trees of an outline hold each site of the stream once. -/
theorem flatMap_sitesBelow_perm (stream : List Shown) :
    ((rootSites stream).flatMap (sitesBelow stream)).Perm (sites stream) := by
  -- Every parent is a site, so that the roots are the sites that hang below no site.
  have htops : rootSites stream = topsOf stream (sites stream) := by
    refine List.filter_congr ?_
    intro c _
    cases hp : parent? stream c with
    | none => rfl
    | some p => simp [(parent?_eq_some hp).2.1]
  rw [htops]
  exact flatMap_topsOf_perm stream (sites stream) (List.suffix_refl _)

end Forest
end RenderForest
