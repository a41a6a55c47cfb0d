import RenderForest.Proofs.Forest.Slots
/-!
# Assembly — moving the nodes into their parents

When a stream was read, the slots are settled from the last to the first.  Behind each step the
slots from some number on are settled: each holds the whole subtree of its site, or nothing when
the subtree was moved into a parent that is settled too.  This file defines:

* `Forest.settledSlot`, a slot in that state;
* `Forest.Settled`, the invariant of the walk;

and shows in `build_eq_outline` that what remains is the outline of the stream.
-/

namespace RenderForest
namespace Forest

variable {stream : List Shown} {l : List Site} {arena : Array Slot}

/-! ## Taking nodes out of slots -/

/-- Whether a slot is emptied when the nodes with some numbers are taken. -/
def Slot.emptyIf (taken : Bool) (s : Slot) : Slot :=
  if taken then { s with node := none } else s

theorem takeAll_eq {ids : List Nat} (h : ids.Nodup) (arena : Array Slot) :
    (takeAll arena ids).1 = ids.filterMap (fun id => arena[id]?.bind Slot.node) ∧
      ∀ i : Nat, (takeAll arena ids).2[i]? = arena[i]?.map (Slot.emptyIf (ids.contains i)) := by
  -- Each node is taken from the slots as they were, since no number comes twice.
  induction ids generalizing arena with
  | nil =>
      refine ⟨rfl, fun i => ?_⟩
      cases h : arena[i]? <;> simp [takeAll, Slot.emptyIf, h]
  | cons id rest ih =>
      rcases List.nodup_cons.1 h with ⟨hid, hrest⟩
      rcases ih hrest (arena.modify id fun s => { s with node := none }) with ⟨hnodes, hslots⟩
      refine ⟨?_, ?_⟩
      · have hsame : rest.filterMap (fun j =>
            (arena.modify id fun s => { s with node := none })[j]?.bind Slot.node) =
              rest.filterMap fun j => arena[j]?.bind Slot.node := by
          refine List.filterMap_congr ?_
          intro j hj
          have hne : id ≠ j := by
            rintro rfl
            exact hid hj
          rw [Array.getElem?_modify, if_neg hne]
        simp only [takeAll, hnodes, hsame, List.filterMap_cons]
        cases arena[id]?.bind Slot.node <;> rfl
      · intro i
        simp only [takeAll, hslots, Array.getElem?_modify]
        by_cases hi : id = i
        · subst hi
          cases arena[id]? <;> simp [Slot.emptyIf]
        · simp [hi, Ne.symm hi]

/-! ## Settled slots -/

/-- Whether the node of a site was moved into a parent with a number from `bound` on. -/
def isMoved (stream : List Shown) (bound : Nat) (s : Site) : Bool :=
  (parent? stream s).any fun p => decide (bound ≤ (sites stream).idxOf p)

/-- The slot with the number `i` when the slots from `bound` on are settled. -/
def settledSlot (stream : List Shown) (bound i : Nat) (s : Site) : Slot where
  node :=
    if isMoved stream bound s then none
    else if bound ≤ i then some (subtree stream s)
    else nodeAt stream s
  children := if bound ≤ i then [] else (slotAt stream (sites stream) s).children
  attached := (parent? stream s).isSome

/-- The slots from `bound` on are settled. -/
def Settled (stream : List Shown) (bound : Nat) (arena : Array Slot) : Prop :=
  ∀ i : Nat, arena[i]? = (sites stream)[i]?.map (settledSlot stream bound i)

theorem idxOf_lt_of_rank_lt {a b : Site} (ha : a ∈ sites stream) (hb : b ∈ sites stream)
    (h : a.rank < b.rank) : (sites stream).idxOf a < (sites stream).idxOf b := by
  have hia := List.idxOf_lt_length_of_mem ha
  have hib := List.idxOf_lt_length_of_mem hb
  -- Ranks grow with the numbers, so the other two orders contradict the ranks.
  rcases Nat.lt_trichotomy ((sites stream).idxOf a) ((sites stream).idxOf b) with hlt | heq | hgt
  · exact hlt
  · rw [(List.idxOf_inj ha).1 heq] at h
    exact absurd h (Nat.lt_irrefl _)
  · have hrank := List.pairwise_iff_getElem.1 (pairwise_rank_sites stream) _ _ hib hia hgt
    rw [List.getElem_idxOf, List.getElem_idxOf] at hrank
    exact absurd h (Nat.lt_asymm hrank)

/-- A parent has a lower number than its child. -/
theorem idxOf_parent_lt {s p : Site} (hs : s ∈ sites stream) (hp : parent? stream s = some p) :
    (sites stream).idxOf p < (sites stream).idxOf s :=
  have h := parent?_eq_some hp
  idxOf_lt_of_rank_lt h.2.1 hs h.1

theorem isMoved_eq_false {s : Site} {bound : Nat} (hs : s ∈ sites stream)
    (h : (sites stream).idxOf s ≤ bound) : isMoved stream bound s = false := by
  unfold isMoved
  cases hp : parent? stream s with
  | none => rfl
  | some p =>
      have := idxOf_parent_lt hs hp
      simp only [Option.any_some, decide_eq_false_iff_not]
      omega

/-- Behind the last slot nothing is settled yet. -/
theorem Settled.ofHolds (h : Holds stream arena (sites stream)) :
    Settled stream arena.size arena := by
  intro i
  rw [h.slot]
  -- The bound is the number of slots, so that each slot is before it.
  rcases Nat.lt_or_ge i (sites stream).length with hi | hi
  · have hmem : (sites stream)[i] ∈ sites stream := List.getElem_mem hi
    have hidx := (nodup_sites stream).idxOf_getElem i hi
    have hmoved : isMoved stream arena.size (sites stream)[i] = false :=
      isMoved_eq_false hmem (by rw [hidx, h.size]; omega)
    have hnot : ¬ arena.size ≤ i := by
      rw [h.size]
      omega
    rw [List.getElem?_eq_getElem hi]
    simp [settledSlot, hmoved, hnot, slotAt]
  · rw [List.getElem?_eq_none hi]
    rfl

/-! ## One step of the walk -/

theorem Settled.slot_idxOf {bound : Nat} (h : Settled stream bound arena) {s : Site}
    (hs : s ∈ sites stream) :
    arena[(sites stream).idxOf s]? =
      some (settledSlot stream bound ((sites stream).idxOf s) s) := by
  have hlt := List.idxOf_lt_length_of_mem hs
  rw [h, List.getElem?_eq_getElem hlt, List.getElem_idxOf hlt]
  rfl

/-- The children of a site are settled before it, and still in their slots. -/
theorem Settled.take_children {s : Site}
    (h : Settled stream ((sites stream).idxOf s + 1) arena) :
    ((childrenOf stream s).map fun c => (sites stream).idxOf c).filterMap
        (fun id => arena[id]?.bind Slot.node) =
      (childrenOf stream s).map (subtree stream) := by
  rw [List.filterMap_map, ← List.filterMap_eq_map]
  refine List.filterMap_congr ?_
  intro c hc
  rcases List.mem_filter.1 hc with ⟨hmem, hp⟩
  have hp' : parent? stream c = some s := by simpa using hp
  have hlt := idxOf_parent_lt hmem hp'
  -- Its parent is just before the bound, so that the child was not moved yet.
  have hmoved : isMoved stream ((sites stream).idxOf s + 1) c = false := by
    simp [isMoved, hp']
  have hle : (sites stream).idxOf s + 1 ≤ (sites stream).idxOf c := hlt
  simp [h.slot_idxOf hmem, settledSlot, hmoved, hle]

/-- No child of a site has the number of another. -/
theorem nodup_children (stream : List Shown) (s : Site) :
    ((childrenOf stream s).map fun c => (sites stream).idxOf c).Nodup :=
  ((nodup_sites stream).filter _).map_on
    fun _ ha _ _ hab => (List.idxOf_inj (List.mem_filter.1 ha).1).1 hab

/-- The numbers of the children of a site tell the sites that hang below it. -/
theorem contains_children {s t : Site} (ht : t ∈ sites stream) :
    ((childrenOf stream s).map fun c => (sites stream).idxOf c).contains
        ((sites stream).idxOf t) = (parent? stream t == some s) := by
  rw [Bool.eq_iff_iff, List.contains_iff_mem, List.mem_map]
  constructor
  · rintro ⟨c, hc, hidx⟩
    rcases List.mem_filter.1 hc with ⟨hmem, hp⟩
    rw [← (List.idxOf_inj hmem).1 hidx]
    exact hp
  · intro hp
    exact ⟨t, List.mem_filter.2 ⟨ht, hp⟩, rfl⟩

/-- The slot of a site is settled when the subtrees of its children are behind its own. -/
theorem settle_settledSlot {s : Site} (hs : s ∈ sites stream) :
    let slot := settledSlot stream ((sites stream).idxOf s + 1) ((sites stream).idxOf s) s
    { slot with
      node := slot.node.map (Node.append ((childrenOf stream s).map (subtree stream)))
      children := [] } =
      settledSlot stream ((sites stream).idxOf s) ((sites stream).idxOf s) s := by
  rcases Option.isSome_iff_exists.1 (mem_sites_iff_nodeAt.1 hs) with ⟨node, hnode⟩
  have hmoved := isMoved_eq_false hs (Nat.le_refl _)
  have hmoved' := isMoved_eq_false hs (Nat.le_add_right _ 1)
  have hlt : ¬ (sites stream).idxOf s + 1 ≤ (sites stream).idxOf s := Nat.not_succ_le_self _
  simp [settledSlot, hmoved, hmoved', hlt, subtree_eq, hnode]

theorem isMoved_succ {t p : Site} {bound : Nat} (hp : parent? stream t = some p)
    (hne : bound ≠ (sites stream).idxOf p) :
    isMoved stream (bound + 1) t = isMoved stream bound t := by
  rw [isMoved, isMoved, hp]
  exact decide_eq_decide.2 (by omega)

theorem settledSlot_succ {t : Site} {bound i : Nat} (hne : bound ≠ i)
    (hmoved : isMoved stream (bound + 1) t = isMoved stream bound t) :
    settledSlot stream (bound + 1) i t = settledSlot stream bound i t := by
  have hle : (bound + 1 ≤ i) = (bound ≤ i) := propext (by omega)
  simp only [settledSlot, hmoved, hle]

/-- The slot of another site is emptied when the site hangs below the settled one. -/
theorem emptyIf_settledSlot {s t : Site} (hs : s ∈ sites stream)
    (hne : (sites stream).idxOf s ≠ (sites stream).idxOf t) :
    Slot.emptyIf (parent? stream t == some s)
        (settledSlot stream ((sites stream).idxOf s + 1) ((sites stream).idxOf t) t) =
      settledSlot stream ((sites stream).idxOf s) ((sites stream).idxOf t) t := by
  cases hp : parent? stream t with
  | none =>
      have hmoved : isMoved stream ((sites stream).idxOf s + 1) t =
          isMoved stream ((sites stream).idxOf s) t := by
        rw [isMoved, isMoved, hp]
        rfl
      exact settledSlot_succ hne hmoved
  | some p =>
      by_cases hps : p = s
      · -- The node was moved into `s` in this step.
        subst hps
        have hle : ((sites stream).idxOf p + 1 ≤ (sites stream).idxOf t) =
            ((sites stream).idxOf p ≤ (sites stream).idxOf t) := propext (by omega)
        have hmoved : isMoved stream ((sites stream).idxOf p) t = true := by
          rw [isMoved, hp]
          exact decide_eq_true (Nat.le_refl _)
        simp only [Slot.emptyIf, settledSlot, beq_self_eq_true, hmoved, hle, if_true]
      · have hidx : (sites stream).idxOf s ≠ (sites stream).idxOf p :=
          fun heq => hps ((List.idxOf_inj hs).1 heq).symm
        have hother : (some p == some s) = false := by simpa using hps
        rw [hother]
        exact settledSlot_succ hne (isMoved_succ hp hidx)

theorem settle_eq {s : Site} (hs : s ∈ sites stream)
    (h : Settled stream ((sites stream).idxOf s + 1) arena) :
    settle arena ((sites stream).idxOf s) =
      (takeAll arena ((childrenOf stream s).map fun c => (sites stream).idxOf c)).2.modify
        ((sites stream).idxOf s) fun t =>
          { t with
            node := t.node.map (Node.append ((childrenOf stream s).map (subtree stream)))
            children := [] } := by
  have hchildren : (settledSlot stream ((sites stream).idxOf s + 1) ((sites stream).idxOf s)
      s).children.reverse = (childrenOf stream s).map fun c => (sites stream).idxOf c := by
    have hlt : ¬ (sites stream).idxOf s + 1 ≤ (sites stream).idxOf s :=
      Nat.not_succ_le_self _
    simp [settledSlot, hlt, slotAt, childrenOf]
  have hnodes := (takeAll_eq (nodup_children stream s) arena).1
  rw [h.take_children] at hnodes
  rw [settle, h.slot_idxOf hs]
  simp only [hchildren, hnodes]

/-- Settling the last slot that is not settled yet keeps the invariant. -/
theorem Settled.settle {s : Site} (hs : s ∈ sites stream)
    (h : Settled stream ((sites stream).idxOf s + 1) arena) :
    Settled stream ((sites stream).idxOf s) (settle arena ((sites stream).idxOf s)) := by
  have hslots := (takeAll_eq (nodup_children stream s) arena).2
  intro i
  rw [settle_eq hs h, Array.getElem?_modify, hslots, h]
  rcases Nat.lt_or_ge i (sites stream).length with hi | hi
  · have hmem : (sites stream)[i] ∈ sites stream := List.getElem_mem hi
    have hidx := (nodup_sites stream).idxOf_getElem i hi
    rw [List.getElem?_eq_getElem hi]
    -- From here on a slot is told by its site and no more by its number.
    generalize (sites stream)[i] = t at hmem hidx
    subst hidx
    rw [contains_children hmem]
    by_cases heq : (sites stream).idxOf s = (sites stream).idxOf t
    · -- No site hangs below itself.
      have hst := (List.idxOf_inj hs).1 heq
      subst hst
      have hself : (parent? stream s == some s) = false := by
        refine beq_eq_false_iff_ne.2 ?_
        intro hp
        exact Nat.lt_irrefl _ (idxOf_parent_lt hs hp)
      rw [if_pos rfl, hself]
      exact congrArg some (settle_settledSlot hs)
    · rw [if_neg heq]
      exact congrArg some (emptyIf_settledSlot hs heq)
  · rw [List.getElem?_eq_none hi]
    simp

/-! ## The whole walk -/

/-- Walking over all slots leaves none that is not settled. -/
theorem Settled.assemble {bound : Nat} (hbound : bound ≤ (sites stream).length)
    (h : Settled stream bound arena) : Settled stream 0 (assemble arena bound) := by
  -- The induction is on the number of slots that are not settled yet.
  induction bound generalizing arena with
  | zero => exact h
  | succ bound ih =>
      have hmem : (sites stream)[bound] ∈ sites stream := List.getElem_mem hbound
      have hidx := (nodup_sites stream).idxOf_getElem bound hbound
      generalize (sites stream)[bound] = s at hmem hidx
      subst hidx
      exact ih (Nat.le_of_lt hbound) (h.settle hmem)

/-- What remains in the slots are the subtrees of the sites that hang below no other. -/
theorem Settled.roots_eq (h : Settled stream 0 arena) : roots arena = outline stream := by
  -- With all slots settled, what a slot holds does not depend on its number.
  have hlist : arena.toList = (sites stream).map (settledSlot stream 0 0) := by
    refine List.ext_getElem? ?_
    intro i
    have hzero : settledSlot stream 0 i = settledSlot stream 0 0 := by
      funext s
      simp [settledSlot]
    rw [Array.getElem?_toList, h, List.getElem?_map, hzero]
  rw [roots, hlist, List.filter_map, List.filterMap_map, outline, rootSites]
  have hfilter : (sites stream).filter
      ((fun s : Slot => !s.attached) ∘ settledSlot stream 0 0) =
        (sites stream).filter fun c => parent? stream c == none := by
    refine List.filter_congr ?_
    intro s _
    cases hp : parent? stream s <;> simp [settledSlot, hp]
  rw [hfilter, ← List.filterMap_eq_map]
  refine List.filterMap_congr ?_
  intro s hs
  have hp : parent? stream s = none := by
    simpa using (List.mem_filter.1 hs).2
  simp [settledSlot, isMoved, hp]

/-- The forest of a stream is its outline. -/
theorem build_eq_outline (stream : List Shown) : build stream = outline stream := by
  have htracks := tracks_foldl stream stream.length (Nat.le_refl _)
  rw [List.take_length] at htracks
  have hholds := htracks.holds
  rw [List.take_length] at hholds
  exact ((Settled.ofHolds hholds).assemble (Nat.le_of_eq hholds.size)).roots_eq

end Forest
end RenderForest
