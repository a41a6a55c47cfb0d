import RenderForest.Markdown.Mark
import RenderForest.Markdown.Piece
import RenderForest.Markdown.Target
/-!
# Block — the blocks of a document

A document is read line by line into containers and leaves; the text of a leaf is cut into
pieces.  This file defines:

* `Block`, with the table rows and cells;
* `Frame`, a container that is still open;
* `Reader`, the open containers with what has been read, and how lists are continued and closed.
-/

namespace RenderForest
namespace Markdown

/-! ## Blocks -/

/-- The positions between which something stands. -/
structure Extent where
  start : Nat
  stop : Nat
  deriving DecidableEq, Repr

structure Cell where
  extent : Extent
  pieces : List Piece
  deriving Repr

structure Row where
  extent : Extent
  cells : List Cell
  deriving Repr

inductive Block where
  | rule (extent : Extent)
  | heading (extent : Extent) (level : Nat) (pieces : List Piece)
  | paragraph (extent : Extent) (pieces : List Piece)
  /-- The mark of a task that nothing follows. -/
  | task (extent : Extent) (done : Bool)
  /-- A code block; one with a fence has an info string. -/
  | code (extent : Extent) (info : Option String) (content : List Char)
  | raw (extent : Extent) (content : List Char)
  | table (extent : Extent) (alignments : List Mark.Alignment) (head : Row) (rows : List Row)
  | quote (extent : Extent) (children : List Block)
  /-- A list; an ordered one has a first number. -/
  | list (extent : Extent) (tight : Bool) (number : Option Nat) (items : List Block)
  | item (extent : Extent) (indent : Nat) (children : List Block)
  deriving Repr

/-! ## Open containers -/

inductive FrameKind where
  | quote
  | list (tight : Bool) (mark : Char) (number : Nat)
  | item (indent : Nat)
  deriving DecidableEq, Repr

/-- A container that is open; its last child comes first. -/
structure Frame where
  kind : FrameKind
  start : Nat
  children : List Block := []

namespace Frame

def demand (f : Frame) : Prefix :=
  match f.kind with
  | .quote => .quote
  | .list .. => .free
  | .item indent => .indent indent

def close (f : Frame) (stop : Nat) : Block :=
  let extent : Extent := ⟨f.start, stop⟩
  let children := f.children.reverse
  match f.kind with
  | .quote => .quote extent children
  | .list tight mark number =>
    .list extent tight (if Mark.isBullet mark then none else some number) children
  | .item indent => .item extent indent children

end Frame

/-! ## The reader -/

/-- The state between two blocks. -/
structure Reader where
  /-- The open containers, the innermost first. -/
  frames : List Frame := []
  /-- The finished blocks outside all containers, the last first. -/
  roots : List Block := []
  /-- Whether the last line was blank. -/
  blank : Bool := false
  /-- Where an item that is still empty began its second line. -/
  emptyItem : Option Nat := none
  /-- The mark of a task that waits for its paragraph. -/
  task : Option Piece := none
  targets : Targets := []

namespace Reader

/-- What the containers demand, from the outermost on. -/
def demands (r : Reader) : List Prefix :=
  (r.frames.map Frame.demand).reverse

def add (r : Reader) (b : Block) : Reader :=
  match r.frames with
  | [] => { r with roots := b :: r.roots }
  | f :: rest => { r with frames := { f with children := b :: f.children } :: rest }

def push (r : Reader) (kind : FrameKind) (start : Nat) : Reader :=
  { r with frames := { kind, start } :: r.frames }

def pop (r : Reader) (stop : Nat) : Reader :=
  match r.frames with
  | [] => r
  | f :: rest => add { r with frames := rest } (f.close stop)

def popTo (r : Reader) (count stop : Nat) : Reader :=
  go (r.frames.length - count) r
where
  go : Nat → Reader → Reader
    | 0, r => r
    | n + 1, r => go n (r.pop stop)

def inItem (r : Reader) : Bool :=
  match r.frames with
  | ⟨.item _, _, _⟩ :: _ => true
  | _ => false

def inList (r : Reader) : Bool :=
  match r.frames with
  | ⟨.list .., _, _⟩ :: _ => true
  | _ => false

/-- Closes an item that begins with two blank lines. -/
def closeEmptyItem (r : Reader) : Reader :=
  let r :=
    match r.emptyItem with
    | some stop => if r.blank && r.inItem then r.pop stop else r
    | none => r
  { r with emptyItem := none }

/-- Makes the list around the innermost item loose, if a blank line came before. -/
def loosen (r : Reader) : Reader :=
  if r.blank then
    let frames :=
      match r.frames with
      | f :: ⟨.list _ mark number, start, children⟩ :: rest =>
        f :: ⟨.list false mark number, start, children⟩ :: rest
      | frames => frames
    { r with frames, blank := false }
  else r

/-- Closes the innermost container if it is a list, before a block that is no item of it. -/
def closeList (r : Reader) (stop : Nat) : Reader :=
  let r := r.closeEmptyItem
  (if r.inList then r.pop stop else r).loosen

/-- Goes on with the innermost list, if its items have the same mark; a blank line before the
item makes it loose. -/
def continueList? (r : Reader) (mark : Char) : Option Reader :=
  match r.frames with
  | ⟨.list tight m number, start, children⟩ :: rest =>
    if m == mark then
      some { r with frames := ⟨.list (tight && !r.blank) m number, start, children⟩ :: rest,
                    blank := false }
    else none
  | _ => none

def enterList (r : Reader) (start : Nat) (mark : Char) (number : Nat) : Reader :=
  let r := r.closeEmptyItem
  match r.continueList? mark with
  | some r => r
  | none =>
    let r := if r.frames.isEmpty then r else r.closeList start
    { r.push (.list true mark number) start with blank := false }

/-- Notes a blank line; an item that is still empty then takes lines of any indentation. -/
def blankLine (r : Reader) : Reader :=
  match r.frames with
  | ⟨.quote, _, _⟩ :: _ => r
  | ⟨.item indent, start, children⟩ :: rest =>
    let indent := if r.emptyItem.isSome then 0 else indent
    { r with frames := ⟨.item indent, start, children⟩ :: rest, blank := true }
  | _ => { r with blank := true }

end Reader
end Markdown
end RenderForest
