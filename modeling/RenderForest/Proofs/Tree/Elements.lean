import RenderForest.Proofs.Forest.Assembly
/-!
# Elements — properties of all elements of a tree

This file defines:

* `Node.Every P`, that a tree is made of elements, texts, comments and fragments, and that each
  element at any depth has a tag and attributes with the property `P`;
* `Node.EveryIn P`, the same of a forest;

and shows in `everyIn_build` that a forest has the property when the nodes do that its tokens
show.
-/

namespace RenderForest
namespace Node

mutual

/-- Each element of a tree has the property; there are no rich blocks, which hold nodes of their
own. -/
def Every (P : String → Attributes → Prop) : Node → Prop
  | .element tag attrs _ children => P tag attrs ∧ EveryIn P children
  | .text _ => True
  | .comment _ => True
  | .fragment children => EveryIn P children
  | .component _ => False
  | .deferred _ => False

def EveryIn (P : String → Attributes → Prop) : List Node → Prop
  | [] => True
  | n :: rest => n.Every P ∧ EveryIn P rest

end

mutual

instance decidableEvery (P : String → Attributes → Prop) [∀ tag attrs, Decidable (P tag attrs)] :
    ∀ n : Node, Decidable (n.Every P)
  | .element tag attrs _ children =>
    haveI := decidableEveryIn P children
    inferInstanceAs (Decidable (P tag attrs ∧ EveryIn P children))
  | .text _ => .isTrue trivial
  | .comment _ => .isTrue trivial
  | .fragment children => decidableEveryIn P children
  | .component _ => .isFalse id
  | .deferred _ => .isFalse id

instance decidableEveryIn (P : String → Attributes → Prop)
    [∀ tag attrs, Decidable (P tag attrs)] : ∀ nodes : List Node, Decidable (EveryIn P nodes)
  | [] => .isTrue trivial
  | n :: rest =>
    haveI := decidableEvery P n
    haveI := decidableEveryIn P rest
    inferInstanceAs (Decidable (n.Every P ∧ EveryIn P rest))

end

variable {P Q : String → Attributes → Prop}

theorem everyIn_iff {nodes : List Node} : EveryIn P nodes ↔ ∀ n ∈ nodes, n.Every P := by
  induction nodes with
  | nil => simp [EveryIn]
  | cons n rest ih => simp [EveryIn, ih]

@[simp] theorem everyIn_nil : EveryIn P [] := trivial

@[simp] theorem everyIn_cons {n : Node} {rest : List Node} :
    EveryIn P (n :: rest) ↔ n.Every P ∧ EveryIn P rest := Iff.rfl

@[simp] theorem everyIn_append {a b : List Node} :
    EveryIn P (a ++ b) ↔ EveryIn P a ∧ EveryIn P b := by
  simp only [everyIn_iff, List.mem_append, or_imp, forall_and]

@[simp] theorem every_plain {tag : String} {attrs : Attributes} {children : List Node} :
    (plain tag attrs children).Every P ↔ P tag attrs ∧ EveryIn P children := Iff.rfl

theorem every_fragment {children : List Node} :
    (Node.fragment children).Every P ↔ EveryIn P children := Iff.rfl

@[simp] theorem every_text {s : String} : (Node.text s).Every P := trivial

theorem everyIn_text {s : String} : EveryIn P [Node.text s] :=
  everyIn_cons.2 ⟨every_text, everyIn_nil⟩

@[simp] theorem every_comment {s : String} : (Node.comment s).Every P := trivial

@[simp] theorem every_empty : Node.empty.Every P := trivial

mutual

theorem Every.mono (h : ∀ tag attrs, P tag attrs → Q tag attrs) :
    ∀ n : Node, n.Every P → n.Every Q
  | .element tag attrs _ children => fun hn =>
    ⟨h tag attrs hn.1, EveryIn.mono h children hn.2⟩
  | .text _ => id
  | .comment _ => id
  | .fragment children => fun hn => EveryIn.mono h children hn
  | .component _ => id
  | .deferred _ => id

theorem EveryIn.mono (h : ∀ tag attrs, P tag attrs → Q tag attrs) :
    ∀ nodes : List Node, EveryIn P nodes → EveryIn Q nodes
  | [] => id
  | n :: rest => fun hn => ⟨Every.mono h n hn.1, EveryIn.mono h rest hn.2⟩

end

/-- Children that are added bring the elements that they hold. -/
theorem Every.append {n : Node} {extra : List Node} (h : n.Every P) (hextra : EveryIn P extra) :
    (n.append extra).Every P := by
  cases n with
  | element tag attrs handlers children => exact ⟨h.1, everyIn_append.2 ⟨h.2, hextra⟩⟩
  | fragment children => exact everyIn_append.2 ⟨h, hextra⟩
  | text s => exact h
  | comment s => exact h
  | component block => exact h
  | deferred block => exact h

/-- Several nodes stand in a fragment, and a single one alone. -/
theorem EveryIn.every_ofForest {nodes : List Node} (h : EveryIn P nodes) :
    (ofForest nodes).Every P := by
  unfold ofForest
  split
  · exact h.1
  · exact every_fragment.2 h

end Node

namespace Forest

variable {P : String → Attributes → Prop}

def Shown.Every (P : String → Attributes → Prop) (s : Shown) : Prop :=
  ∀ node inner, s.output = some (node, inner) →
    node.Every P ∧ ∀ n, inner = some n → n.Every P

theorem every_nodeAt {stream : List Shown} (h : ∀ s ∈ stream, s.Every P) {s : Site} {n : Node}
    (hn : nodeAt stream s = some n) : n.Every P := by
  rcases Option.bind_eq_some_iff.1 hn with ⟨⟨node, inner⟩, hshown, hpart⟩
  rcases Option.bind_eq_some_iff.1 hshown with ⟨t, ht, hout⟩
  have ht' := h t (List.mem_of_getElem? ht) node inner hout
  cases hinner : s.inner with
  | true => exact ht'.2 n (by simpa [hinner] using hpart)
  | false =>
      have : node = n := by simpa [hinner] using hpart
      exact this ▸ ht'.1

theorem every_subtree {stream : List Shown} (h : ∀ s ∈ stream, s.Every P) (s : Site) :
    (subtree stream s).Every P := by
  induction s using subtree.induct stream with
  | case1 s ih =>
      -- The node brings its own elements, and the subtrees below it bring theirs.
      have hnode : ((nodeAt stream s).getD .empty).Every P := by
        cases hn : nodeAt stream s with
        | none => exact Node.every_empty
        | some n => exact every_nodeAt h hn
      rw [subtree_eq]
      refine hnode.append (Node.everyIn_iff.2 ?_)
      intro n hn
      rcases List.mem_map.1 hn with ⟨c, hc, rfl⟩
      exact ih ⟨c, hc⟩

/-- A forest is made of elements with the property when what its tokens show is. -/
theorem everyIn_build {stream : List Shown} (h : ∀ s ∈ stream, s.Every P) :
    Node.EveryIn P (build stream) := by
  rw [build_eq_outline, Node.everyIn_iff]
  intro n hn
  rcases List.mem_map.1 hn with ⟨s, _, rfl⟩
  exact every_subtree h s

end Forest
end RenderForest
