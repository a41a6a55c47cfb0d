import RenderForest.Proofs.Forest.DocumentOrder
import RenderForest.Proofs.Json.Equality
/-!
# Blocks — telling rich blocks apart

Rich blocks are compared by their keys.  This file defines:

* `Node.blocks`, the rich blocks of a tree in document order, and `Node.keys`, their keys;
* `Node.AreToldApart`, that no two blocks of a forest are equal, nor two trees that hold any;
* `Node.later`, a tree after some of its deferred blocks were settled;

and shows that trees whose keys are distinct are told apart, and that a tree is equal to itself at
all times.
-/

namespace RenderForest
namespace Node

/-! ## Blocks and keys -/

def key? : Node → Option String
  | .component block => some block.key
  | .deferred block => some block.key
  | _ => none

mutual

/-- The rich blocks of a tree, in document order. -/
def blocks : Node → List Node
  | .element _ _ _ cs => blocksAll cs
  | .fragment cs => blocksAll cs
  | .component block => [.component block]
  | .deferred block => [.deferred block]
  | _ => []

def blocksAll : List Node → List Node
  | [] => []
  | n :: rest => n.blocks ++ blocksAll rest

end

def keys (n : Node) : List String :=
  n.blocks.filterMap key?

def keysAll (nodes : List Node) : List String :=
  nodes.flatMap keys

theorem blocksAll_eq (nodes : List Node) : blocksAll nodes = nodes.flatMap blocks := by
  induction nodes with
  | nil => rfl
  | cons n rest ih => rw [blocksAll, List.flatMap_cons, ih]

theorem filterMap_blocksAll (nodes : List Node) :
    (blocksAll nodes).filterMap key? = keysAll nodes := by
  rw [blocksAll_eq, List.filterMap_flatMap]
  rfl

@[simp] theorem keysAll_nil : keysAll [] = [] := rfl

@[simp] theorem keysAll_cons (n : Node) (rest : List Node) :
    keysAll (n :: rest) = n.keys ++ keysAll rest := rfl

@[simp] theorem keysAll_append (as bs : List Node) :
    keysAll (as ++ bs) = keysAll as ++ keysAll bs :=
  List.flatMap_append

@[simp] theorem keys_element (tag : String) (attrs : Attributes) (handlers : List EventHandler)
    (cs : List Node) : (Node.element tag attrs handlers cs).keys = keysAll cs :=
  filterMap_blocksAll cs

@[simp] theorem keys_plain (tag : String) (attrs : Attributes) (cs : List Node) :
    (plain tag attrs cs).keys = keysAll cs :=
  filterMap_blocksAll cs

@[simp] theorem keys_fragment (cs : List Node) : (Node.fragment cs).keys = keysAll cs :=
  filterMap_blocksAll cs

@[simp] theorem keys_component (block : Component Node) :
    (Node.component block).keys = [block.key] := rfl

@[simp] theorem keys_deferred (block : Deferred Node) :
    (Node.deferred block).keys = [block.key] := rfl

@[simp] theorem keys_ofForest (nodes : List Node) : (ofForest nodes).keys = keysAll nodes := by
  unfold ofForest
  split
  · simp
  · exact keys_fragment nodes

/-- The keys of a node are its own, and then those of its children. -/
theorem readsInOrder_keys : Forest.ReadsInOrder keys := by
  intro n extra hn
  cases n with
  | element tag attrs handlers cs =>
      rw [append, keys_element, keys_element, keysAll_append]
      rfl
  | fragment cs =>
      rw [append, keys_fragment, keys_fragment, keysAll_append]
      rfl
  | _ => cases hn

/-! ## Equal trees -/

mutual

/-- Equal trees have the same keys. -/
theorem keys_eq_of_same : ∀ {a b : Node}, a.same b = true → a.keys = b.keys
  | .element .., .element .., h => by
    rw [same, Bool.and_eq_true] at h
    rw [keys_element, keys_element, keysAll_eq_of_same h.2]
  | .fragment as, .fragment bs, h => by
    rw [keys_fragment, keys_fragment, keysAll_eq_of_same h]
  | .text _, .text _, _ => rfl
  | .comment _, .comment _, _ => rfl
  | .component a, .component b, h => by
    rw [same, Bool.and_eq_true] at h
    rw [keys_component, keys_component, eq_of_beq h.1]
  | .deferred a, .deferred b, h => by
    rw [keys_deferred, keys_deferred, eq_of_beq h]

theorem keysAll_eq_of_same :
    ∀ {as bs : List Node}, sameAll as bs = true → keysAll as = keysAll bs
  | [], [], _ => rfl
  | a :: as, b :: bs, h => by
    rw [sameAll, Bool.and_eq_true] at h
    rw [keysAll_cons, keysAll_cons, keys_eq_of_same h.1, keysAll_eq_of_same h.2]

end

/-- Trees with different keys are not equal. -/
theorem same_eq_false {a b : Node} (h : a.keys ≠ b.keys) : a.same b = false ∧ b.same a = false :=
  ⟨Bool.eq_false_iff.2 fun hsame => h (keys_eq_of_same hsame),
    Bool.eq_false_iff.2 fun hsame => h (keys_eq_of_same hsame).symm⟩

/-- A forest whose blocks can be told apart. -/
structure AreToldApart (nodes : List Node) : Prop where
  /-- No key stands twice. -/
  keys : (keysAll nodes).Nodup
  /-- No two blocks are equal, at whatever depth they stand. -/
  blocks : (blocksAll nodes).Pairwise fun a b => a.same b = false ∧ b.same a = false
  /-- No two trees are equal of which one holds a block. -/
  trees : nodes.Pairwise fun a b =>
    a.blocks ≠ [] ∨ b.blocks ≠ [] → a.same b = false ∧ b.same a = false

mutual

/-- Each block of a tree has a key, and holds no other blocks. -/
theorem exists_key_of_mem_blocks :
    ∀ (n : Node) {b : Node}, b ∈ n.blocks → ∃ k, b.key? = some k ∧ b.keys = [k]
  | .element _ _ _ cs, _, h => exists_key_of_mem_blocksAll cs h
  | .fragment cs, _, h => exists_key_of_mem_blocksAll cs h
  | .component block, _, h => by
    rw [List.mem_singleton.1 h]
    exact ⟨block.key, rfl, rfl⟩
  | .deferred block, _, h => by
    rw [List.mem_singleton.1 h]
    exact ⟨block.key, rfl, rfl⟩

theorem exists_key_of_mem_blocksAll :
    ∀ (nodes : List Node) {b : Node}, b ∈ blocksAll nodes → ∃ k, b.key? = some k ∧ b.keys = [k]
  | n :: rest, _, h => by
    rcases List.mem_append.1 h with h | h
    · exact exists_key_of_mem_blocks n h
    · exact exists_key_of_mem_blocksAll rest h

end

/-- A tree with blocks has keys. -/
theorem keys_ne_nil {n : Node} (h : n.blocks ≠ []) : n.keys ≠ [] := by
  rcases List.exists_mem_of_ne_nil _ h with ⟨b, hb⟩
  rcases exists_key_of_mem_blocks n hb with ⟨k, hk, _⟩
  exact List.ne_nil_of_mem (List.mem_filterMap.2 ⟨b, hb, hk⟩)

/-- Distinct keys tell blocks apart. -/
theorem areToldApart_of_nodup {nodes : List Node} (h : (keysAll nodes).Nodup) :
    AreToldApart nodes where
  keys := h
  blocks := by
    rw [← filterMap_blocksAll, List.Nodup, List.pairwise_filterMap] at h
    refine h.imp_of_mem ?_
    intro a b ha hb hkeys
    rcases exists_key_of_mem_blocksAll nodes ha with ⟨k, hk, hself⟩
    rcases exists_key_of_mem_blocksAll nodes hb with ⟨k', hk', hself'⟩
    apply same_eq_false
    rw [hself, hself']
    intro heq
    exact hkeys k hk k' hk' (List.cons.inj heq).1
  trees := by
    rw [keysAll, List.nodup_flatMap] at h
    refine h.2.imp ?_
    intro a b hdisjoint hblocks
    apply same_eq_false
    intro heq
    -- Equal lists of keys that have no key in common are empty.
    have hnil : a.keys = [] := by
      apply List.eq_nil_iff_forall_not_mem.2
      intro k hk
      exact hdisjoint hk (heq ▸ hk)
    rcases hblocks with ha | hb
    · exact keys_ne_nil ha hnil
    · exact keys_ne_nil hb (heq.symm.trans hnil)

/-! ## Clones -/

mutual

/-- A tree at another time, when its deferred blocks may have other loaders and states.  All clones
of a block share them. -/
def later (slot : Deferred Node → Option (Loader Node) × SlotState Node) : Node → Node
  | .element tag attrs handlers cs => .element tag attrs handlers (laterAll slot cs)
  | .fragment cs => .fragment (laterAll slot cs)
  | .deferred block => .deferred { block with loader := (slot block).1, state := (slot block).2 }
  | n => n

def laterAll (slot : Deferred Node → Option (Loader Node) × SlotState Node) :
    List Node → List Node
  | [] => []
  | n :: rest => n.later slot :: laterAll slot rest

end

theorem sameReference_self (r : ComponentRef Node) : sameReference r r = true := by
  cases r with
  | component name rendering => exact beq_self_eq_true name
  | descriptor d =>
      change (d.name == d.name && d.props == d.props) = true
      rw [beq_self_eq_true, beq_self_eq_true, Bool.and_self]

mutual

/-- A tree is equal to its clones, at whatever times they are compared. -/
theorem same_later (slot slot' : Deferred Node → Option (Loader Node) × SlotState Node) :
    ∀ n : Node, (n.later slot).same (n.later slot') = true
  | .element tag attrs handlers cs => by
    rw [later, later, same, sameAll_later slot slot' cs]
    simp only [beq_self_eq_true, Bool.and_self]
  | .text s => beq_self_eq_true s
  | .comment s => beq_self_eq_true s
  | .fragment cs => by
    rw [later, later, same, sameAll_later slot slot' cs]
  | .component block => by
    change (block.key == block.key && sameReference block.reference block.reference) = true
    rw [beq_self_eq_true, sameReference_self, Bool.and_self]
  | .deferred block => beq_self_eq_true block.key

theorem sameAll_later (slot slot' : Deferred Node → Option (Loader Node) × SlotState Node) :
    ∀ nodes : List Node, sameAll (laterAll slot nodes) (laterAll slot' nodes) = true
  | [] => rfl
  | n :: rest => by
    rw [laterAll, laterAll, sameAll, same_later slot slot' n, sameAll_later slot slot' rest,
      Bool.and_self]

end

mutual

/-- At the time itself a tree is what it is. -/
theorem later_self : ∀ n : Node, n.later (fun block => (block.loader, block.state)) = n
  | .element _ _ _ cs => by rw [later, laterAll_self cs]
  | .text _ => rfl
  | .comment _ => rfl
  | .fragment cs => by rw [later, laterAll_self cs]
  | .component _ => rfl
  | .deferred _ => rfl

theorem laterAll_self :
    ∀ nodes : List Node, laterAll (fun block => (block.loader, block.state)) nodes = nodes
  | [] => rfl
  | n :: rest => by rw [laterAll, later_self n, laterAll_self rest]

end

/-- A tree is equal to itself. -/
theorem same_self (n : Node) : n.same n = true := by
  have h := same_later (fun block => (block.loader, block.state))
    (fun block => (block.loader, block.state)) n
  rwa [later_self] at h

end Node
end RenderForest
