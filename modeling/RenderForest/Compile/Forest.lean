import RenderForest.Stream.Token
/-!
# Forest — a tree out of a flat stream

Each token of a stream shows a node, or a node with an inner one, or nothing.  A node hangs below
that of the innermost token that is still open, if that one takes children, and is a root
otherwise.  The nodes stand in slots in the order of their production, and only the slots know
the tree until the stream is at its end.  This file defines:

* `Forest.Shown`, what a token shows, with its nesting mark;
* `Forest.Slot`, a produced node with the numbers of its children, and `Forest.attach`;
* `Forest.Builder`, the slots and the open tokens, and `Forest.Builder.step`;
* `Forest.assemble`, which moves the nodes out of their slots into their parents;
* `Forest.build`, all together.
-/

namespace RenderForest
namespace Forest

/-- What a token shows: a node, perhaps with an inner node that takes what the token holds. -/
structure Shown where
  output : Option (Node × Option Node)
  nesting : Nesting

/-! ## Slots -/

/-- A produced node, gone when it was moved into its parent.  `children` are the numbers of the
nodes that hang below it, the last first. -/
structure Slot where
  node : Option Node
  children : List Nat := []
  attached : Bool := false

def isContainer (arena : Array Slot) (id : Nat) : Bool :=
  (arena[id]?.bind Slot.node).any Node.isContainer

def attach (arena : Array Slot) (parent id : Nat) : Array Slot :=
  (arena.modify parent fun s => { s with children := id :: s.children }).modify id
    fun s => { s with attached := true }

/-- Hangs the node with a number below that of the innermost open token, if that one takes
children. -/
def attachToOpen (arena : Array Slot) (stack : List (Option Nat)) (id : Nat) : Array Slot :=
  match stack with
  | some top :: _ => if isContainer arena top then attach arena top id else arena
  | _ => arena

/-! ## Reading the stream -/

/-- The slots so far, and the open tokens, the innermost first, each with the number of the node
that takes what the token holds.  An open token that shows nothing has no node, and is still
closed by its end. -/
structure Builder where
  arena : Array Slot := #[]
  stack : List (Option Nat) := []

def advance (stack : List (Option Nat)) (holder : Option Nat) : Nesting → List (Option Nat)
  | .opening => holder :: stack
  | .closing => stack.tail
  | .selfClosing => stack

/-- Gives slots to what a token shows; the number is that of the node that takes what the token
holds. -/
def Builder.produce (b : Builder) : Option (Node × Option Node) → Array Slot × Option Nat
  | none => (b.arena, none)
  | some (node, none) =>
    let id := b.arena.size
    (attachToOpen (b.arena.push { node := some node }) b.stack id, some id)
  | some (node, some inner) =>
    let id := b.arena.size
    let arena := attachToOpen (b.arena.push { node := some node }) b.stack id
    let arena := arena.push { node := some inner }
    -- an outer node that takes no children has the inner one for its next sibling
    if isContainer arena id then (attach arena id (id + 1), some (id + 1))
    else (attachToOpen arena b.stack (id + 1), some (id + 1))

def Builder.step (b : Builder) (s : Shown) : Builder :=
  let (arena, holder) := b.produce s.output
  { arena, stack := advance b.stack holder s.nesting }

/-! ## Assembling -/

def takeAll (arena : Array Slot) : List Nat → List Node × Array Slot
  | [] => ([], arena)
  | id :: rest =>
    let node := arena[id]?.bind Slot.node
    let (nodes, arena) := takeAll (arena.modify id fun s => { s with node := none }) rest
    (node.toList ++ nodes, arena)

/-- Moves the children of a slot into its node, behind those that the node brought along. -/
def settle (arena : Array Slot) (id : Nat) : Array Slot :=
  match arena[id]? with
  | none => arena
  | some slot =>
    let (nodes, arena) := takeAll arena slot.children.reverse
    arena.modify id fun s => { s with node := s.node.map (Node.append nodes), children := [] }

/-- Settles the slots with the numbers below a bound, from the last to the first.  Children have
higher numbers than their parents, so that each subtree is complete before it is moved. -/
def assemble (arena : Array Slot) : Nat → Array Slot
  | 0 => arena
  | bound + 1 => assemble (settle arena bound) bound

/-- The nodes that hang below no other. -/
def roots (arena : Array Slot) : List Node :=
  (arena.toList.filter fun s => !s.attached).filterMap Slot.node

def build (stream : List Shown) : List Node :=
  let b := stream.foldl Builder.step {}
  roots (assemble b.arena b.arena.size)

end Forest
end RenderForest
