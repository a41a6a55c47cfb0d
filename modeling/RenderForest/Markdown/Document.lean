import RenderForest.Markdown.Inline
import RenderForest.Markdown.Reading
/-!
# Document — the trees and events of a document

The texts of the blocks are resolved when all targets are known.  Positions are counted in bytes
from here on.  This file defines:

* `Document.trees`, the trees of the blocks, in which the paragraphs of tight items have no node;
* `Document.events`, their events;
* `events`, the events of a text.
-/

namespace RenderForest
namespace Markdown

/-! ## Trees -/

namespace Document

/-- The inline trees of a text that ends with its block. -/
def inlineTrees (p : Inline.Place) (extent : Extent) (pieces : List Piece) : List Tree :=
  Inline.resolve { p with source := p.source.upTo extent.stop } pieces

def cellTree (p : Inline.Place) (c : Cell) : Tree :=
  .node .tableCell c.extent (inlineTrees { p with inTable := true } c.extent c.pieces)

def rowTree (p : Inline.Place) (tag : Tag) (r : Row) : Tree :=
  .node tag r.extent (r.cells.map (cellTree p))

def literalTree (leaf : String → Leaf) (extent : Extent) (content : List Char) : List Tree :=
  if content.isEmpty then [] else [.leaf (leaf (String.ofList content)) extent]

mutual

/-- The trees of a block; `tight` says that it stands in a tight item. -/
def blockTrees (p : Inline.Place) (tight : Bool) : Block → List Tree
  | .rule e => [.leaf .rule e]
  | .heading e level pieces => [.node (.heading level) e (inlineTrees p e pieces)]
  | .paragraph e pieces =>
    let trees := inlineTrees p e pieces
    if tight then trees else [.node .paragraph e trees]
  | .task e done => [.leaf (.task done) e]
  | .code e info content => [.node (.code info) e (literalTree .text e content)]
  | .raw e content => [.node .raw e (literalTree .raw e content)]
  | .table e alignments head rows =>
    [.node (.table alignments) e (rowTree p .tableHead head :: rows.map (rowTree p .tableRow))]
  | .quote e children =>
    [.node .quote e (listTrees { p with demands := p.demands ++ [.quote] } false children)]
  | .list e tight number items => [.node (.list number) e (listTrees p tight items)]
  | .item e indent children =>
    [.node .item e (listTrees { p with demands := p.demands ++ [.indent indent] } tight children)]

def listTrees (p : Inline.Place) (tight : Bool) : List Block → List Tree
  | [] => []
  | b :: rest => blockTrees p tight b ++ listTrees p tight rest

end

def trees (d : Document) (s : Source) : List Tree :=
  listTrees { source := s, demands := [], targets := d.targets } false d.blocks

end Document

/-! ## Positions in bytes -/

/-- The numbers of bytes before the characters of a text, and before its end. -/
def Source.offsets (s : Source) : Array Nat :=
  s.chars.foldl (fun sums c => sums.push (sums.back?.getD 0 + c.utf8Size)) #[0]

def Extent.inBytes (offsets : Array Nat) (e : Extent) : Extent :=
  let at? (i : Nat) : Nat := offsets[i]?.getD (offsets.back?.getD 0)
  ⟨at? e.start, at? e.stop⟩

def Event.inBytes (offsets : Array Nat) : Event → Event
  | .start tag e => .start tag (e.inBytes offsets)
  | .stop tag => .stop tag
  | .leaf l e => .leaf l (e.inBytes offsets)

def events (d : Dialect) (text : String) : List Event :=
  let s := Source.ofString text
  (Tree.listEvents ((Document.read s d).trees s)).map (Event.inBytes s.offsets)

end Markdown
end RenderForest
