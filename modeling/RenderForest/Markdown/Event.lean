import RenderForest.Markdown.Block
/-!
# Event — a document as a sequence of starts and ends

The blocks and inlines of a document form trees of tagged nodes; read from left to right, a forest
of them is a sequence of events.  This file defines:

* `Tag` and `Leaf`, what nodes and leaves are;
* `Tree`, the trees, each with the positions between which it stands;
* `Event`, and `Tree.events`, the events of a tree.
-/

namespace RenderForest
namespace Markdown

inductive Tag where
  | paragraph
  | heading (level : Nat)
  | quote
  /-- A code block; one with a fence has an info string. -/
  | code (info : Option String)
  | raw
  /-- A list; an ordered one has a first number. -/
  | list (number : Option Nat)
  | item
  | table (alignments : List Mark.Alignment)
  | tableHead
  | tableRow
  | tableCell
  | emphasis
  | strong
  | strikethrough
  | link (target : Target)
  | image (target : Target)
  deriving DecidableEq, Repr

inductive Leaf where
  | text (content : String)
  | code (content : String)
  /-- A part of a block of raw HTML. -/
  | raw (content : String)
  | inlineRaw (content : String)
  | softBreak
  | hardBreak
  | task (done : Bool)
  | rule
  deriving DecidableEq, Repr

inductive Tree where
  | leaf (leaf : Leaf) (extent : Extent)
  | node (tag : Tag) (extent : Extent) (children : List Tree)
  deriving Repr

instance : Inhabited Tree := ⟨.leaf .softBreak ⟨0, 0⟩⟩

def Tree.extent : Tree → Extent
  | .leaf _ e => e
  | .node _ e _ => e

inductive Event where
  | start (tag : Tag) (extent : Extent)
  | stop (tag : Tag)
  | leaf (leaf : Leaf) (extent : Extent)
  deriving DecidableEq, Repr

mutual

def Tree.events : Tree → List Event
  | .leaf l e => [.leaf l e]
  | .node tag e children => .start tag e :: (Tree.listEvents children ++ [.stop tag])

def Tree.listEvents : List Tree → List Event
  | [] => []
  | t :: rest => t.events ++ Tree.listEvents rest

end

end Markdown
end RenderForest
