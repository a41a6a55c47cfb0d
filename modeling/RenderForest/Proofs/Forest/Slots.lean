import Mathlib.Data.List.Basic
import RenderForest.Proofs.Forest.Outline
/-!
# Slots — what the builder keeps while it reads a stream

The slots are numbered like the sites of the stream.  This file defines:

* `Forest.slotAt`, the slot of a site when the sites of a list were produced;
* `Forest.Holds`, that an array of slots holds just these;
* `Forest.Tracks`, the invariant of the builder: its slots hold the sites of the tokens that were
  read, and its stack the holders of the open ones;

and shows in `tracks_foldl` that reading a stream keeps the invariant.
-/

namespace RenderForest
namespace Forest

variable {stream : List Shown} {l : List Site} {arena : Array Slot}

/-! ## Slots of sites -/

/-- The slot of a site when the sites of a list were produced. -/
def slotAt (stream : List Shown) (l : List Site) (s : Site) : Slot where
  node := nodeAt stream s
  children := ((l.filter fun c => parent? stream c == some s).map fun c => l.idxOf c).reverse
  attached := (parent? stream s).isSome

/-- The slots hold the sites of a list, each under its place in the list. -/
structure Holds (stream : List Shown) (arena : Array Slot) (l : List Site) : Prop where
  size : arena.size = l.length
  slot : ∀ i : Nat, arena[i]? = l[i]?.map (slotAt stream l)

theorem Holds.slot_idxOf (h : Holds stream arena l) {s : Site} (hs : s ∈ l) :
    arena[l.idxOf s]? = some (slotAt stream l s) := by
  have hlt := List.idxOf_lt_length_of_mem hs
  rw [h.slot, List.getElem?_eq_getElem hlt, List.getElem_idxOf hlt]
  rfl

/-- A further site becomes the last child of its parent, and changes no other slot. -/
theorem slotAt_append {s : Site} (hs : s ∉ l) (t : Site) :
    slotAt stream (l ++ [s]) t =
      { slotAt stream l t with
        children :=
          (if parent? stream s == some t then [l.length] else []) ++
            (slotAt stream l t).children } := by
  have hold : ∀ c ∈ l.filter (fun c => parent? stream c == some t),
      (l ++ [s]).idxOf c = l.idxOf c := by
    intro c hc
    exact List.idxOf_append_of_mem (List.mem_filter.1 hc).1
  have hnew : (l ++ [s]).idxOf s = l.length := by
    simp [List.idxOf_append, hs]
  simp only [slotAt, List.filter_append, List.map_append, List.map_congr_left hold,
    List.reverse_append]
  congr 2
  cases hp : parent? stream s == some t <;> simp [hp, hnew]

/-- A site that is produced last has no children yet. -/
theorem slotAt_append_self {s : Site} (h : (l ++ [s]).Pairwise fun a b => a.rank < b.rank) :
    slotAt stream (l ++ [s]) s =
      { node := nodeAt stream s, children := [], attached := (parent? stream s).isSome } := by
  simp [slotAt, filter_parent?_eq_nil h]

theorem notMem_of_pairwise_rank {s : Site}
    (h : (l ++ [s]).Pairwise fun a b => a.rank < b.rank) : s ∉ l := by
  intro hs
  exact Nat.lt_irrefl _ ((List.pairwise_append.1 h).2.2 s hs s (List.mem_singleton_self s))

/-! ## One more site -/

/-- A site without a parent gets a slot, and nothing else changes. -/
theorem Holds.push (h : Holds stream arena l) {s : Site} {node : Node}
    (hl : (l ++ [s]).Pairwise fun a b => a.rank < b.rank) (hnode : nodeAt stream s = some node)
    (hparent : parent? stream s = none) :
    Holds stream (arena.push { node := some node }) (l ++ [s]) := by
  refine ⟨by simp [h.size], ?_⟩
  intro i
  -- The slots before the new one, the new one, and none behind it.
  rcases Nat.lt_trichotomy i l.length with hi | rfl | hi
  · rw [Array.getElem?_push_lt (by simpa [h.size] using hi), List.getElem?_append_left hi,
      ← Array.getElem?_eq_getElem, h.slot, List.getElem?_eq_getElem hi, Option.map_some,
      Option.map_some, slotAt_append (notMem_of_pairwise_rank hl)]
    simp [hparent]
  · simp [← h.size, slotAt_append_self hl, hnode, hparent]
  · rw [Array.getElem?_eq_none (by simp [h.size]; omega),
      List.getElem?_eq_none (by simp; omega)]
    rfl

/-- A site that hangs below another gets a slot, and becomes the last child of the other. -/
theorem Holds.push_attach (h : Holds stream arena l) {s p : Site} {node : Node}
    (hl : (l ++ [s]).Pairwise fun a b => a.rank < b.rank) (hnode : nodeAt stream s = some node)
    (hparent : parent? stream s = some p) (hp : p ∈ l) :
    Holds stream (attach (arena.push { node := some node }) (l.idxOf p) arena.size)
      (l ++ [s]) := by
  have hs := notMem_of_pairwise_rank hl
  have hnodup : l.Nodup := (List.pairwise_append.1 hl).1.imp fun hr => by
    rintro rfl
    exact Nat.lt_irrefl _ hr
  have hidx := List.idxOf_lt_length_of_mem hp
  refine ⟨by simp [attach, h.size], ?_⟩
  intro i
  simp only [attach, Array.getElem?_modify, h.size]
  rcases Nat.lt_trichotomy i l.length with hi | rfl | hi
  -- Of the slots before the new one, that of the parent gets a child.
  · have hsame : l.idxOf p = i ↔ p = l[i] := by
      constructor
      · rintro rfl
        exact (List.getElem_idxOf hidx).symm
      · rintro rfl
        exact hnodup.idxOf_getElem i hi
    rw [Array.getElem?_push_lt (by simpa [h.size] using hi), List.getElem?_append_left hi,
      ← Array.getElem?_eq_getElem, h.slot, List.getElem?_eq_getElem hi, if_neg (by omega)]
    simp only [Option.map_some, slotAt_append hs, hparent, hsame]
    split <;> simp_all
  · rw [if_pos rfl, if_neg (by omega)]
    simp [← h.size, slotAt_append_self hl, hnode, hparent]
  · rw [if_neg (by omega), if_neg (by omega),
      Array.getElem?_eq_none (by simp [h.size]; omega),
      List.getElem?_eq_none (by simp; omega)]
    rfl

/-! ## Hanging below the innermost open token -/

theorem attachToOpen_eq (arena : Array Slot) (stack : List (Option Nat)) (id : Nat) :
    attachToOpen arena stack id =
      match stack.head?.join with
      | some top => if isContainer arena top then attach arena top id else arena
      | none => arena := by
  rcases stack with _ | ⟨_ | top, rest⟩ <;> rfl

theorem Holds.isContainer_push (h : Holds stream arena l) {p : Site} (hp : p ∈ l) (x : Slot) :
    isContainer (arena.push x) (l.idxOf p) = takesChildren stream p := by
  have hidx : l.idxOf p < arena.size := by
    simpa [h.size] using List.idxOf_lt_length_of_mem hp
  rw [isContainer, Array.getElem?_push_lt hidx, ← Array.getElem?_eq_getElem, h.slot_idxOf hp]
  rfl

/-- A node goes below that of the innermost open token, whose site is `top?`. -/
theorem Holds.attachToOpen (h : Holds stream arena l) {s : Site} {node : Node}
    (hl : (l ++ [s]).Pairwise fun a b => a.rank < b.rank) (hnode : nodeAt stream s = some node)
    {stack : List (Option Nat)} {top? : Option Site} (htop : ∀ p, top? = some p → p ∈ l)
    (hstack : stack.head?.join = top?.map fun p => l.idxOf p)
    (hparent : parent? stream s = top?.filter (takesChildren stream)) :
    Holds stream (attachToOpen (arena.push { node := some node }) stack arena.size)
      (l ++ [s]) := by
  rw [attachToOpen_eq, hstack]
  cases top? with
  | none => exact h.push hl hnode (by simpa using hparent)
  | some p =>
      have hp := htop p rfl
      simp only [Option.map_some, h.isContainer_push hp]
      split
      · rename_i hc
        exact h.push_attach hl hnode (by simpa [Option.filter, hc] using hparent) hp
      · rename_i hc
        exact h.push hl hnode (by simpa [Option.filter, hc] using hparent)

/-! ## The builder -/

/-- The number of the node that takes what a token holds. -/
def holderNumber (stream : List Shown) (l : List Site) (k : Nat) : Option Nat :=
  (holder? stream k).map fun p => l.idxOf p

/-- What the builder knows when it read the first `n` tokens. -/
structure Tracks (stream : List Shown) (n : Nat) (b : Builder) : Prop where
  holds : Holds stream b.arena (sites (stream.take n))
  stack : b.stack = (openTokens ((stream.take n).map Shown.nesting)).map
    (holderNumber stream (sites (stream.take n)))

theorem sites_take_succ {n : Nat} {s : Shown} (hs : stream[n]? = some s) :
    sites (stream.take (n + 1)) = sites (stream.take n) ++ sitesOf n s.output := by
  have hn : n < stream.length := (List.getElem?_eq_some_iff.1 hs).1
  rw [List.take_add_one, hs, Option.toList_some, sites_append, List.length_take,
    Nat.min_eq_left (Nat.le_of_lt hn)]

theorem mem_sites_take {n : Nat} {s : Site} (hs : s ∈ sites stream) (hn : s.token < n) :
    s ∈ sites (stream.take n) := by
  rcases mem_sites_iff.1 hs with ⟨t, ht, hmem⟩
  exact mem_sites_iff.2 ⟨t, by rw [List.getElem?_take_of_lt hn, ht], hmem⟩

/-- The open tokens keep the numbers of their nodes when more nodes are produced. -/
theorem holderNumber_append {n : Nat} (new : List Site) {k : Nat} (hk : k < n) :
    holderNumber stream (sites (stream.take n) ++ new) k =
      holderNumber stream (sites (stream.take n)) k := by
  -- The node of a token that was read stands among those that were produced.
  unfold holderNumber
  cases hh : holder? stream k with
  | none => rfl
  | some p =>
      rcases holder?_token hh with ⟨rfl, hp⟩
      simp only [Option.map_some, List.idxOf_append_of_mem (mem_sites_take hp hk)]

/-- The site of the innermost token that is open before a token. -/
def topSite? (stream : List Shown) (n : Nat) : Option Site :=
  (openTokens ((stream.take n).map Shown.nesting)).head?.bind (holder? stream)

theorem topSite?_mem {n : Nat} {p : Site} (h : topSite? stream n = some p) :
    p ∈ sites (stream.take n) := by
  rcases Option.bind_eq_some_iff.1 h with ⟨k, hk, hp⟩
  have hlt := lt_of_mem_openTokens (List.mem_of_mem_head? (Option.mem_def.2 hk))
  rcases holder?_token hp with ⟨rfl, hmem⟩
  refine mem_sites_take hmem ?_
  simp only [List.length_map, List.length_take] at hlt
  omega

/-- The innermost open token is on top of the stack, also when further nodes were produced. -/
theorem Tracks.head?_join_stack {n : Nat} {b : Builder} (h : Tracks stream n b)
    (new : List Site) :
    b.stack.head?.join =
      (topSite? stream n).map fun p => (sites (stream.take n) ++ new).idxOf p := by
  have hnew : (topSite? stream n).map (fun p => (sites (stream.take n) ++ new).idxOf p) =
      (topSite? stream n).map fun p => (sites (stream.take n)).idxOf p := by
    cases ht : topSite? stream n with
    | none => rfl
    | some p => simp only [Option.map_some, List.idxOf_append_of_mem (topSite?_mem ht)]
  rw [hnew, h.stack, List.head?_map, topSite?]
  cases (openTokens ((stream.take n).map Shown.nesting)).head? <;> rfl

/-! ## What one token produces -/

section Token

variable {n : Nat} {b : Builder} {s : Shown}

theorem holder?_eq (hs : stream[n]? = some s) :
    holder? stream n = (sitesOf n s.output).getLast? := by
  simp [holder?, hs]

theorem nodeAt_eq (hs : stream[n]? = some s) (inner : Bool) :
    nodeAt stream ⟨n, inner⟩ =
      s.output.bind fun (node, inner?) => if inner then inner? else some node := by
  simp [nodeAt, hs]

/-- The sites of a token are new to the tokens before it. -/
theorem notMem_sites_take (inner : Bool) : (⟨n, inner⟩ : Site) ∉ sites (stream.take n) := by
  intro hmem
  have hlt := token_lt_of_mem_sites hmem
  simp only [List.length_take] at hlt
  omega

theorem pairwise_rank_take (hs : stream[n]? = some s) :
    (sites (stream.take n) ++ sitesOf n s.output).Pairwise fun a b => a.rank < b.rank := by
  rw [← sites_take_succ hs]
  exact pairwise_rank_sites _

/-- A node without an inner one gets the next slot, and takes what the token holds. -/
theorem Tracks.produce_one (h : Tracks stream n b) (hs : stream[n]? = some s) {node : Node}
    (ho : s.output = some (node, none)) :
    Holds stream (b.produce (some (node, none))).1 (sites (stream.take n) ++ [⟨n, false⟩]) ∧
      (b.produce (some (node, none))).2 =
        holderNumber stream (sites (stream.take n) ++ [⟨n, false⟩]) n := by
  have hsorted := pairwise_rank_take hs
  have hnode := nodeAt_eq hs false
  have hholder := holder?_eq hs
  rw [ho] at hsorted hnode hholder
  have hplaced := h.holds.attachToOpen hsorted hnode (fun p => topSite?_mem)
    (by simpa using h.head?_join_stack []) rfl
  refine ⟨hplaced, ?_⟩
  simp [Builder.produce, holderNumber, hholder, sitesOf, List.idxOf_append, notMem_sites_take,
    h.holds.size]

/-- Of two nodes the outer one gets the next slot, and the inner one that behind it; the inner one
takes what the token holds. -/
theorem Tracks.produce_two (h : Tracks stream n b) (hs : stream[n]? = some s) {node inner : Node}
    (ho : s.output = some (node, some inner)) :
    Holds stream (b.produce (some (node, some inner))).1
        (sites (stream.take n) ++ [⟨n, false⟩, ⟨n, true⟩]) ∧
      (b.produce (some (node, some inner))).2 =
        holderNumber stream (sites (stream.take n) ++ [⟨n, false⟩, ⟨n, true⟩]) n := by
  have hsorted := pairwise_rank_take hs
  have houterNode := nodeAt_eq hs false
  have hinnerNode := nodeAt_eq hs true
  have hholder := holder?_eq hs
  rw [ho] at hsorted houterNode hinnerNode hholder
  -- The outer node is placed like a single one.
  have houter := h.holds.attachToOpen (s := ⟨n, false⟩) (hsorted.sublist (by simp [sitesOf]))
    houterNode (fun p => topSite?_mem) (by simpa using h.head?_join_stack []) rfl
  have hsorted' : List.Pairwise (fun a b : Site => a.rank < b.rank)
      ((sites (stream.take n) ++ [⟨n, false⟩]) ++ [⟨n, true⟩]) := by
    simpa [sitesOf] using hsorted
  have hidx : List.idxOf (⟨n, false⟩ : Site) (sites (stream.take n) ++ [⟨n, false⟩]) =
      b.arena.size := by
    simp [List.idxOf_append, notMem_sites_take, h.holds.size]
  have hsize : (Forest.attachToOpen (b.arena.push { node := some node }) b.stack
      b.arena.size).size = b.arena.size + 1 := by
    simpa [h.holds.size] using houter.size
  have hcontainer := houter.isContainer_push (p := ⟨n, false⟩) (by simp) { node := some inner }
  rw [hidx] at hcontainer
  have hnumber : holderNumber stream (sites (stream.take n) ++ [⟨n, false⟩, ⟨n, true⟩]) n =
      some (b.arena.size + 1) := by
    simp [holderNumber, hholder, sitesOf, List.idxOf_append, notMem_sites_take, h.holds.size,
      Nat.add_comm]
  rw [hnumber]
  simp only [Builder.produce, hcontainer]
  -- The inner node hangs below the outer one, or stands next to it.
  cases hc : takesChildren stream ⟨n, false⟩ with
  | true =>
      have hinner := houter.push_attach (p := ⟨n, false⟩) hsorted' hinnerNode
        (by simp [parent?, hc]) (by simp)
      rw [hidx, hsize] at hinner
      exact ⟨by simpa using hinner, rfl⟩
  | false =>
      have hinner := houter.attachToOpen hsorted' hinnerNode
        (fun p hp => List.mem_append_left _ (topSite?_mem hp))
        (h.head?_join_stack [⟨n, false⟩]) (by simp [parent?, hc, openSite, topSite?])
      rw [hsize] at hinner
      exact ⟨by simpa using hinner, rfl⟩

/-- The nodes of a token get their slots, and the last of them takes what the token holds. -/
theorem Tracks.produce (h : Tracks stream n b) (hs : stream[n]? = some s) :
    Holds stream (b.produce s.output).1 (sites (stream.take n) ++ sitesOf n s.output) ∧
      (b.produce s.output).2 =
        holderNumber stream (sites (stream.take n) ++ sitesOf n s.output) n := by
  cases ho : s.output with
  | none =>
      have hholder := holder?_eq hs
      rw [ho] at hholder
      refine ⟨by simpa [Builder.produce, sitesOf] using h.holds, ?_⟩
      simp [Builder.produce, holderNumber, hholder, sitesOf]
  | some shown =>
      rcases shown with ⟨node, _ | inner⟩
      · exact h.produce_one hs ho
      · exact h.produce_two hs ho

end Token

/-! ## Reading the stream -/

/-- A token changes the open tokens as it changes the stack. -/
theorem openTokens_advance (marks : List Nesting) (m : Nesting) (f : Nat → Option Nat) :
    (openTokens (marks ++ [m])).map f = advance ((openTokens marks).map f) (f marks.length) m := by
  cases m with
  | opening => rw [openTokens_opening]; rfl
  | closing => rw [openTokens_closing, advance, List.map_tail]
  | selfClosing => rw [openTokens_selfClosing]; rfl

/-- Reading one more token keeps the invariant. -/
theorem Tracks.step {n : Nat} {b : Builder} {s : Shown} (h : Tracks stream n b)
    (hs : stream[n]? = some s) : Tracks stream (n + 1) (b.step s) := by
  have hn : n < stream.length := (List.getElem?_eq_some_iff.1 hs).1
  rcases h.produce hs with ⟨hholds, hholder⟩
  refine ⟨by rw [sites_take_succ hs]; exact hholds, ?_⟩
  -- The numbers on the stack are still those of the same nodes.
  have hold : b.stack = (openTokens ((stream.take n).map Shown.nesting)).map
      (holderNumber stream (sites (stream.take n) ++ sitesOf n s.output)) := by
    rw [h.stack]
    refine List.map_congr_left ?_
    intro k hk
    have hlt := lt_of_mem_openTokens hk
    simp only [List.length_map, List.length_take] at hlt
    exact (holderNumber_append _ (by omega)).symm
  have hmarks : (stream.take (n + 1)).map Shown.nesting =
      (stream.take n).map Shown.nesting ++ [s.nesting] := by
    simp [List.take_add_one, hs]
  have hlength : ((stream.take n).map Shown.nesting).length = n := by
    simp only [List.length_map, List.length_take]
    omega
  rw [sites_take_succ hs, hmarks, openTokens_advance, ← hold, hlength, ← hholder]
  rfl

/-- Reading a stream keeps the invariant. -/
theorem tracks_foldl (stream : List Shown) (n : Nat) (hn : n ≤ stream.length) :
    Tracks stream n ((stream.take n).foldl Builder.step {}) := by
  -- The induction is on the number of tokens that were read.
  induction n with
  | zero => exact ⟨⟨rfl, fun i => by simp [sites]⟩, rfl⟩
  | succ n ih =>
      have hs : stream[n]? = some stream[n] := List.getElem?_eq_getElem hn
      rw [List.take_add_one, hs, Option.toList_some, List.foldl_append]
      exact (ih (by omega)).step hs

end Forest
end RenderForest
