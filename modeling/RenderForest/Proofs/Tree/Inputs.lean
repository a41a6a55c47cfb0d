import RenderForest.Proofs.Forest.DocumentOrder
/-!
# Inputs — the input elements of a tree

This file defines:

* `Node.inputs` and `Node.inputsAll`, the attributes of the input elements of a tree, in document
  order;

and shows that they may be read off a forest token by token.
-/

namespace RenderForest
namespace Node

def inputTag : String := "input"

mutual

/-- The attributes of the input elements of a tree, in document order. -/
def inputs : Node → List Attributes
  | .element tag attrs _ cs => (if tag == inputTag then [attrs] else []) ++ inputsAll cs
  | .fragment cs => inputsAll cs
  | _ => []

def inputsAll : List Node → List Attributes
  | [] => []
  | n :: rest => n.inputs ++ inputsAll rest

end

theorem inputsAll_eq (nodes : List Node) : inputsAll nodes = nodes.flatMap inputs := by
  induction nodes with
  | nil => rfl
  | cons n rest ih => rw [inputsAll, List.flatMap_cons, ih]

theorem inputsAll_append (as bs : List Node) :
    inputsAll (as ++ bs) = inputsAll as ++ inputsAll bs := by
  simp only [inputsAll_eq, List.flatMap_append]

/-- The inputs of a node are its own, and then those of its children. -/
theorem readsInOrder_inputs : Forest.ReadsInOrder inputs := by
  intro n extra hn
  cases n with
  | element tag attrs handlers cs =>
      rw [append, inputs, inputs, inputsAll_append, ← inputsAll_eq, List.append_assoc]
  | fragment cs => rw [append, inputs, inputs, inputsAll_append, ← inputsAll_eq]
  | _ => cases hn

/-- An element that is no input has the inputs of its children. -/
theorem inputs_plain {tag : String} (htag : tag ≠ inputTag) (attrs : Attributes)
    (children : List Node) : (plain tag attrs children).inputs = inputsAll children := by
  rw [plain, inputs, if_neg (by simpa using htag), List.nil_append]

theorem inputs_ofForest (nodes : List Node) : (ofForest nodes).inputs = inputsAll nodes := by
  unfold ofForest
  split
  · exact (List.append_nil _).symm
  · rfl

end Node
end RenderForest
