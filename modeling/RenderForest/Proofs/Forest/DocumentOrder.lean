import RenderForest.Proofs.Forest.Assembly
/-!
# DocumentOrder — the order of a forest is that of its stream

Where each opening token shows a node that takes what the token holds, a node hangs below that of
the innermost open token, and so all that stands in a node is produced before anything that
follows it.  This file defines:

* `Forest.TakesAll`, that the opening tokens of a stream show such nodes;
* `Forest.Shown.nodes`, the nodes of a token, the outer one first;

and shows in `flatMap_build` that what is read off the nodes of a forest in document order is what
is read off the tokens one after another.
-/

namespace RenderForest
namespace Forest

/-! ## Open tokens inside one another -/

section OpenTokens

variable {marks : List Nesting} {k i j : Nat}

/-- Of two open tokens the inner one comes later. -/
theorem pairwise_openTokens (marks : List Nesting) :
    (openTokens marks).Pairwise fun a b => b < a := by
  apply List.Pairwise.filter
  rw [List.pairwise_reverse]
  exact List.pairwise_lt_range

theorem nodup_openTokens (marks : List Nesting) : (openTokens marks).Nodup :=
  (pairwise_openTokens marks).imp fun h => (Nat.ne_of_lt h).symm

/-- What is open around an open token was open before it. -/
theorem openTokens_take_suffix (h : k ∈ openTokens marks) :
    k :: openTokens (marks.take k) <:+ openTokens marks := by
  induction marks using List.reverseRecOn with
  | nil => cases h
  | append_singleton marks m ih =>
      have htake : k ∈ openTokens marks → (marks ++ [m]).take k = marks.take k := fun hk =>
        List.take_append_of_le_length (Nat.le_of_lt (lt_of_mem_openTokens hk))
      cases m with
      | opening =>
          rw [openTokens_opening] at h ⊢
          rcases List.mem_cons.1 h with rfl | hk
          · rw [List.take_left]
          · rw [htake hk]
            exact (ih hk).trans (List.suffix_cons _ _)
      | selfClosing =>
          rw [openTokens_selfClosing] at h ⊢
          rw [htake h]
          exact ih h
      | closing =>
          rw [openTokens_closing] at h ⊢
          have hk := List.mem_of_mem_tail h
          rw [htake hk]
          -- The token that was closed is another one.
          rcases hopen : openTokens marks with _ | ⟨first, rest⟩
          · rw [hopen] at hk
            cases hk
          · have hsuffix := ih hk
            have hnodup := nodup_openTokens marks
            rw [hopen] at hsuffix hnodup h
            rcases List.suffix_cons_iff.1 hsuffix with heq | hrest
            · rcases List.cons.inj heq with ⟨rfl, -⟩
              exact absurd h (List.nodup_cons.1 hnodup).1
            · exact hrest

/-- A token that is open stays so among fewer tokens. -/
theorem mem_openTokens_take (h : k ∈ openTokens (marks.take j)) (hki : k < i) (hij : i ≤ j) :
    k ∈ openTokens (marks.take i) := by
  rcases List.mem_filter.1 h with ⟨hk, hopen⟩
  have hlt := lt_of_mem_openTokens h
  rw [List.length_take] at hlt
  have htake : (marks.take j).take i = marks.take i := by
    rw [List.take_take, Nat.min_eq_left hij]
  refine List.mem_filter.2 ⟨?_, ?_⟩
  · simp only [List.mem_reverse, List.mem_range, List.length_take]
    omega
  · simp only [isOpen, Bool.and_eq_true, beq_iff_eq, List.all_eq_true, List.mem_inits] at hopen ⊢
    refine ⟨?_, fun run hrun => hopen.2 run (hrun.trans ?_)⟩
    · have hkj : k < j := Nat.lt_of_lt_of_le hki hij
      rw [← hopen.1, List.getElem?_take_of_lt hki, List.getElem?_take_of_lt hkj]
    · rw [← htake, List.drop_take]
      exact List.take_prefix _ _

end OpenTokens

/-! ## Streams whose opening tokens take what they hold -/

variable {stream : List Shown} {a b c s x : Site}

/-- Each opening token shows a node, and the node that takes what it holds takes children. -/
def TakesAll (stream : List Shown) : Prop :=
  ∀ (k : Nat) (s : Shown), stream[k]? = some s → s.nesting = .opening →
    ∃ site, holder? stream k = some site ∧ takesChildren stream site = true

/-- The nodes of a token, the outer one first. -/
def Shown.nodes (s : Shown) : List Node :=
  match s.output with
  | none => []
  | some (node, none) => [node]
  | some (node, some inner) => [node, inner]

/-- An opening token with a single node that takes children takes what it holds. -/
theorem takesAll_of_mem (h : ∀ s ∈ stream, s.nesting = .opening →
    ∃ n, s.output = some (n, none) ∧ n.isContainer = true) : TakesAll stream := by
  intro k s hs hopening
  rcases h s (List.mem_of_getElem? hs) hopening with ⟨n, hout, hn⟩
  refine ⟨⟨k, false⟩, ?_, ?_⟩
  · simp [holder?, hs, hout, sitesOf]
  · simp [takesChildren, nodeAt, hs, hout, hn]

def openBefore (stream : List Shown) (i : Nat) : List Nat :=
  openTokens ((stream.take i).map Shown.nesting)

theorem openBefore_eq (stream : List Shown) (i : Nat) :
    openBefore stream i = openTokens ((stream.map Shown.nesting).take i) := by
  rw [openBefore, List.map_take]

theorem openBefore_trans {i j k : Nat} (hij : i ∈ openBefore stream j)
    (hjk : j ∈ openBefore stream k) : i ∈ openBefore stream k := by
  have hlt := lt_of_mem_openTokens hjk
  have hsuffix := openTokens_take_suffix hjk
  rw [List.length_map, List.length_take] at hlt
  rw [← List.map_take, List.take_take, Nat.min_eq_left (by omega)] at hsuffix
  exact hsuffix.subset (List.mem_cons_of_mem j hij)

theorem opening_of_mem_openBefore {k j : Nat} (h : k ∈ openBefore stream j) :
    ∃ s, stream[k]? = some s ∧ s.nesting = .opening := by
  have hopen := (List.mem_filter.1 h).2
  have hlt := lt_of_mem_openTokens h
  rw [List.length_map, List.length_take] at hlt
  simp only [isOpen, Bool.and_eq_true, beq_iff_eq, List.getElem?_map] at hopen
  rw [List.getElem?_take_of_lt (by omega)] at hopen
  exact Option.map_eq_some_iff.1 hopen.1

/-- A node hangs below one of its own token or of a token that is open. -/
theorem parent_open (h : parent? stream c = some s) :
    s.token = c.token ∨ s.token ∈ openBefore stream c.token := by
  unfold parent? at h
  split at h
  · cases h
    exact .inl rfl
  · right
    rcases Option.bind_eq_some_iff.1 (Option.filter_eq_some_iff.1 h).1 with ⟨k, hk, hs⟩
    rw [(holder?_token hs).1]
    exact List.mem_of_mem_head? (Option.mem_def.2 hk)

/-- The token of a node is open wherever another token has a node below it. -/
theorem open_of_mem_sitesBelow {a x : Site} (h : x ∈ sitesBelow stream a) :
    a.rank ≤ x.rank ∧ (a.token = x.token ∨ a.token ∈ openBefore stream x.token) := by
  rw [sitesBelow_eq] at h
  rcases List.mem_cons.1 h with rfl | h
  · exact ⟨Nat.le_refl _, .inl rfl⟩
  · rcases List.mem_flatMap.1 h with ⟨c, hc, hx⟩
    have hrank := rank_of_mem_childrenOf hc
    have hparent : parent? stream c = some a := by
      simpa using (List.mem_filter.1 hc).2
    rcases open_of_mem_sitesBelow hx with ⟨hle, hopen⟩
    refine ⟨by omega, ?_⟩
    rcases parent_open hparent with htoken | hbefore
    · rw [htoken]
      exact hopen
    · rcases hopen with htoken | hopen
      · rw [← htoken]
        exact .inr hbefore
      · exact .inr (openBefore_trans hbefore hopen)
termination_by 2 * stream.length - a.rank
decreasing_by
  have := rank_of_mem_childrenOf hc
  omega

theorem rank_lt_iff : a.rank < b.rank ↔
    a.token < b.token ∨ a.token = b.token ∧ a.inner = false ∧ b.inner = true := by
  rcases a with ⟨i, _ | _⟩ <;> rcases b with ⟨j, _ | _⟩ <;> simp [Site.rank] <;> omega

/-- An open token takes the next node, so that no node around it does. -/
theorem exists_parent_of_open (htakes : TakesAll stream) {k : Nat}
    (hk : k ∈ openBefore stream b.token) :
    ∃ p, parent? stream b = some p ∧ k ≤ p.token ∧
      (p.token = k → holder? stream k = some p) := by
  unfold parent?
  split
  · -- The outer node of the same token takes children.
    have hlt := lt_of_mem_openTokens hk
    simp only [List.length_map, List.length_take] at hlt
    refine ⟨_, rfl, by simp only; omega, ?_⟩
    intro heq
    simp only at heq
    omega
  · rcases hopen : openBefore stream b.token with _ | ⟨first, rest⟩
    · rw [hopen] at hk
      cases hk
    · rcases opening_of_mem_openBefore (hopen ▸ List.mem_cons_self) with ⟨t, ht, hopening⟩
      rcases htakes first t ht hopening with ⟨p, hp, hpTakes⟩
      have htoken := (holder?_token hp).1
      have hsite : openSite stream b.token = some p := by
        rw [openSite, ← openBefore, hopen, List.head?_cons, Option.bind_some, hp]
        exact Option.filter_eq_some_iff.2 ⟨rfl, hpTakes⟩
      have hle : k ≤ first := by
        have hsorted := pairwise_openTokens ((stream.take b.token).map Shown.nesting)
        rw [← openBefore, hopen] at hsorted
        rw [hopen] at hk
        rcases List.mem_cons.1 hk with rfl | hk
        · exact Nat.le_refl _
        · exact Nat.le_of_lt ((List.pairwise_cons.1 hsorted).1 k hk)
      refine ⟨p, hsite, by omega, ?_⟩
      intro heq
      rw [← heq, htoken]
      exact hp

/-- What stands in a node is produced before the nodes that follow it. -/
theorem rank_lt_of_siblings (htakes : TakesAll stream) (ha : a ∈ sites stream)
    (hparent : parent? stream a = parent? stream b) (hab : a.rank < b.rank)
    (hx : x ∈ sitesBelow stream a) : x.rank < b.rank := by
  rcases rank_lt_iff.1 hab with htoken | ⟨htoken, hfalse, htrue⟩
  · by_contra hle
    have hbx : b.token ≤ x.token := by
      by_contra hlt
      exact hle (rank_lt_iff.2 (.inl (by omega)))
    -- The token of `a` is still open before that of `b`, which then hangs below a later node.
    have hopen : a.token ∈ openBefore stream b.token := by
      rcases (open_of_mem_sitesBelow hx).2 with heq | hopen
      · omega
      · rw [openBefore_eq] at hopen ⊢
        exact mem_openTokens_take hopen htoken hbx
    rcases exists_parent_of_open htakes hopen with ⟨p, hp, hle, hholder⟩
    have hrank := (parent?_eq_some (hparent.trans hp)).1
    rcases rank_lt_iff.1 hrank with hlt | ⟨heq, hfalse, htrue⟩
    · omega
    · -- Of the two nodes of a token it is the inner one that takes what the token holds.
      rcases Option.bind_eq_some_iff.1 (hholder heq) with ⟨t, ht, hlast⟩
      rcases mem_sites_iff.1 ha with ⟨t', ht', hmem⟩
      rw [ht] at ht'
      cases ht'
      rcases hout : t.output with _ | ⟨node, _ | inner⟩
      · simp [hout, sitesOf] at hmem
      · rw [hout, sitesOf, List.mem_singleton] at hmem
        rw [hmem] at htrue
        cases htrue
      · rw [hout] at hlast
        cases hlast
        cases hfalse
  · by_cases hc : takesChildren stream a = true
    · -- The inner node hangs below the outer one, and is no sibling of it.
      have ha' : (⟨b.token, false⟩ : Site) = a := by
        rw [← htoken, ← hfalse]
      have hp : parent? stream b = some a := by
        rw [parent?, ha', htrue, hc]
        rfl
      exact absurd (parent?_eq_some (hparent.trans hp)).1 (Nat.lt_irrefl _)
    · have hnone : childrenOf stream a = [] := by
        apply List.filter_eq_nil_iff.2
        intro c _ hp
        exact hc (parent?_eq_some (by simpa using hp)).2.2
      rw [sitesBelow_eq, hnone, List.flatMap_nil, List.mem_singleton] at hx
      rw [hx]
      exact hab

/-! ## The order of the sites -/

/-- Nodes with one parent, and all that stands in them, stand in the order of production. -/
theorem pairwise_flatMap_siblings (htakes : TakesAll stream) {l : List Site}
    (hl : l.Sublist (sites stream)) {p : Option Site} (hp : ∀ c ∈ l, parent? stream c = p)
    (hbelow : ∀ c ∈ l, (sitesBelow stream c).Pairwise fun a b => a.rank < b.rank) :
    (l.flatMap (sitesBelow stream)).Pairwise fun a b => a.rank < b.rank := by
  rw [List.pairwise_flatMap]
  refine ⟨hbelow, ?_⟩
  have hsorted := (pairwise_rank_sites stream).sublist hl
  refine hsorted.imp_of_mem ?_
  intro a b ha hb hab x hx y hy
  have hxb := rank_lt_of_siblings htakes (hl.subset ha) ((hp a ha).trans (hp b hb).symm) hab hx
  exact Nat.lt_of_lt_of_le hxb (open_of_mem_sitesBelow hy).1

theorem pairwise_sitesBelow (htakes : TakesAll stream) (s : Site) :
    (sitesBelow stream s).Pairwise fun a b => a.rank < b.rank := by
  rw [sitesBelow_eq, List.pairwise_cons]
  refine ⟨?_, ?_⟩
  · intro x hx
    rcases List.mem_flatMap.1 hx with ⟨c, hc, hx⟩
    exact Nat.lt_of_lt_of_le (rank_of_mem_childrenOf hc).1 (open_of_mem_sitesBelow hx).1
  · refine pairwise_flatMap_siblings htakes List.filter_sublist (p := some s) ?_ ?_
    · intro c hc
      simpa using (List.mem_filter.1 hc).2
    · intro c hc
      exact pairwise_sitesBelow htakes c
termination_by 2 * stream.length - s.rank
decreasing_by
  have := rank_of_mem_childrenOf hc
  omega

/-- The sites of an outline in document order stand in the order of production. -/
theorem flatMap_sitesBelow_eq (htakes : TakesAll stream) :
    (rootSites stream).flatMap (sitesBelow stream) = sites stream := by
  have hsorted : ((rootSites stream).flatMap (sitesBelow stream)).Pairwise
      fun a b => a.rank < b.rank := by
    refine pairwise_flatMap_siblings htakes List.filter_sublist (p := none) ?_ ?_
    · intro c hc
      simpa using (List.mem_filter.1 hc).2
    · intro c _
      exact pairwise_sitesBelow htakes c
  refine List.Perm.eq_of_pairwise ?_ hsorted (pairwise_rank_sites stream)
    (flatMap_sitesBelow_perm stream)
  intro a b _ _ hab hba
  exact absurd hba (Nat.lt_asymm hab)

/-! ## Reading a forest -/

/-- A reading of nodes that goes from a node to its children. -/
def ReadsInOrder {β : Type} (read : Node → List β) : Prop :=
  ∀ n extra, n.isContainer = true → read (n.append extra) = read n ++ extra.flatMap read

theorem append_nil (n : Node) : n.append [] = n := by
  cases n with
  | element tag attrs handlers cs => rw [Node.append, List.append_nil]
  | fragment cs => rw [Node.append, List.append_nil]
  | _ => rfl

variable {β : Type} {read : Node → List β}

theorem read_subtree (hread : ReadsInOrder read) (s : Site) (hs : s ∈ sites stream) :
    read (subtree stream s) =
      (sitesBelow stream s).flatMap fun c => (nodeAt stream c).toList.flatMap read := by
  have hchildren : ((childrenOf stream s).map (subtree stream)).flatMap read =
      ((childrenOf stream s).flatMap (sitesBelow stream)).flatMap
        fun c => (nodeAt stream c).toList.flatMap read := by
    rw [List.flatMap_map, List.flatMap_assoc]
    apply List.flatMap_congr
    intro c hc
    exact read_subtree hread c (List.mem_filter.1 hc).1
  rcases Option.isSome_iff_exists.1 (mem_sites_iff_nodeAt.1 hs) with ⟨n, hn⟩
  rw [subtree_eq, sitesBelow_eq, List.flatMap_cons, ← hchildren, hn, Option.getD_some,
    Option.toList_some, List.flatMap_singleton]
  rcases hc : childrenOf stream s with _ | ⟨c, cs⟩
  · rw [List.map_nil, append_nil, List.flatMap_nil, List.append_nil]
  · -- Only a node that takes children has any.
    have hmem : c ∈ childrenOf stream s := hc ▸ List.mem_cons_self
    have hparent : parent? stream c = some s := by
      simpa using (List.mem_filter.1 hmem).2
    have htakes := (parent?_eq_some hparent).2.2
    rw [takesChildren, hn] at htakes
    exact hread n _ htakes
termination_by 2 * stream.length - s.rank
decreasing_by
  have := rank_of_mem_childrenOf hc
  omega

/-- What is read off the sites of a stream is what is read off its tokens. -/
theorem flatMap_sites (stream : List Shown) :
    ((sites stream).flatMap fun c => (nodeAt stream c).toList.flatMap read) =
      stream.flatMap fun s => s.nodes.flatMap read := by
  induction stream using List.reverseRecOn with
  | nil => rfl
  | append_singleton stream s ih =>
      rw [sites_append, List.flatMap_append, List.flatMap_append, ← ih, List.flatMap_singleton]
      refine congrArg₂ (· ++ ·) ?_ ?_
      · apply List.flatMap_congr
        intro c hc
        rw [nodeAt, nodeAt, List.getElem?_append_left (token_lt_of_mem_sites hc)]
      · rcases hout : s.output with _ | ⟨node, _ | inner⟩ <;>
          simp [sitesOf, nodeAt, hout, Shown.nodes]

/-- What is read off a forest is what is read off its sites in document order. -/
theorem flatMap_rootSites (hread : ReadsInOrder read) (stream : List Shown) :
    (build stream).flatMap read =
      ((rootSites stream).flatMap (sitesBelow stream)).flatMap
        fun c => (nodeAt stream c).toList.flatMap read := by
  rw [build_eq_outline, outline, List.flatMap_map, List.flatMap_assoc]
  apply List.flatMap_congr
  intro s hs
  exact read_subtree hread s (List.mem_filter.1 hs).1

/-- What is read off the nodes of a forest in document order is what is read off its tokens one
after another. -/
theorem flatMap_build (htakes : TakesAll stream) (hread : ReadsInOrder read) :
    (build stream).flatMap read = stream.flatMap fun s => s.nodes.flatMap read := by
  rw [flatMap_rootSites hread, flatMap_sitesBelow_eq htakes, flatMap_sites]

/-- In some order, what is read off the nodes of any forest is what is read off its tokens. -/
theorem flatMap_build_perm (hread : ReadsInOrder read) (stream : List Shown) :
    ((build stream).flatMap read).Perm (stream.flatMap fun s => s.nodes.flatMap read) := by
  rw [flatMap_rootSites hread, ← flatMap_sites]
  exact (flatMap_sitesBelow_perm stream).flatMap_right _

end Forest
end RenderForest
