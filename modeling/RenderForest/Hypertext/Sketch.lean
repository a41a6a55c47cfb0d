import RenderForest.Hypertext.Category
import RenderForest.Hypertext.Token
/-!
# Sketch — a tree of elements while it is read

Beside the nodes, a sketch holds the stack of open elements, the formatting elements that are to
be opened again, and how the next token is to be read.  This file defines:

* `Mode`, `Format` and `Sketch`;
* searches among the open elements, and the ways to close them;
* `Sketch.insertElement` and `Sketch.insertText`, which find the place of a node;
* `Sketch.reopen` and `Sketch.pushFormat`, which keep the formatting elements.
-/

namespace RenderForest
namespace Hypertext

/-! ## The state -/

inductive Mode where
  | body
  | text
  | table
  | tableText
  | caption
  | columns
  | rows
  | row
  | cell
  deriving DecidableEq, Repr

/-- An entry of the list of formatting elements, the newest first. -/
inductive Format where
  /-- A border which no search crosses. -/
  | marker
  | element (id : Nat)
  deriving DecidableEq, Repr

/-- A tree of elements while it is read.  The node with number zero is the root. -/
structure Sketch where
  arena : Arena := #[⟨.element { name := "html" }, none, []⟩]
  mode : Mode := .body
  /-- The mode behind a text. -/
  back : Mode := .body
  /-- The open elements, the innermost first. -/
  stack : List Nat := [0]
  formats : List Format := []
  form : Option Nat := none
  content : Content := .markup
  /-- Whether a line feed at the start of the next text is dropped. -/
  skipBreak : Bool := false
  /-- Text in a table whose place is not known yet. -/
  pending : List Char := []
  /-- Whether what may not stand in a table is placed before it. -/
  foster : Bool := false

namespace Sketch

/-! ## Open elements -/

/-- The open elements with their numbers, the innermost first. -/
def opened (s : Sketch) : List (Nat × Element) :=
  s.stack.filterMap fun id => (s.arena.element? id).map fun e => (id, e)

def current? (s : Sketch) : Option Element :=
  s.stack.head?.bind s.arena.element?

def currentIs (s : Sketch) (p : Element → Bool) : Bool :=
  s.current?.any p

def elementIs (s : Sketch) (p : Element → Bool) (id : Nat) : Bool :=
  (s.arena.element? id).any p

def finds (bound : Element → Bool) (target : Nat × Element → Bool) :
    List (Nat × Element) → Bool
  | [] => false
  | e :: rest => target e || (!bound e.2 && finds bound target rest)

def inScope (s : Sketch) (bound : Element → Bool) (names : List String) : Bool :=
  finds bound (fun e => Category.isHtml names e.2) s.opened

def isOpen (s : Sketch) (name : String) : Bool :=
  s.opened.any fun e => Category.isHtml [name] e.2

/-! ## Closing -/

def pop (s : Sketch) : Sketch :=
  { s with stack := s.stack.tail }

/-- Closes elements until one with a property is the innermost. -/
def popTo (s : Sketch) (p : Element → Bool) : Sketch :=
  { s with stack := s.stack.dropWhile fun id => !s.elementIs p id }

/-- Closes elements up to and with one of some names. -/
def popThrough (s : Sketch) (names : List String) : Sketch :=
  (s.popTo (Category.isHtml names)).pop

/-- Closes the elements that end without a tag, but none of one name. -/
def closeImplied (s : Sketch) (kept : String) : Sketch :=
  s.popTo fun e => !Category.isHtml Category.impliedNames e || e.name == kept

def closeParagraph (s : Sketch) : Sketch :=
  if s.inScope Category.boundsButton ["p"] then (s.closeImplied "p").popThrough ["p"] else s

def closeIn (s : Sketch) (bound : Element → Bool) (names : List String) (kept : String) : Sketch :=
  if s.inScope bound names then (s.closeImplied kept).popThrough names else s

/-- Drops the formatting elements up to the last marker. -/
def clearFormats (s : Sketch) : Sketch :=
  { s with formats := (s.formats.dropWhile (· != .marker)).tail }

/-! ## Places -/

inductive Place where
  | lastOf (parent : Nat)
  | before (sibling : Nat)
  deriving DecidableEq, Repr

/-- The place before the innermost table. -/
def fosterPlace (s : Sketch) : Place :=
  match s.stack.dropWhile fun id => !s.elementIs (Category.isHtml ["table", "template"]) id with
  | [] => .lastOf 0
  | id :: outer =>
    if s.elementIs (Category.isHtml ["template"]) id then .lastOf id
    else if (s.arena.parent? id).isSome then .before id
    else .lastOf (outer.headD 0)

def placeIn (s : Sketch) (target : Nat) : Place :=
  if s.foster &&
      s.elementIs (Category.isHtml ["table", "tbody", "tfoot", "thead", "tr"]) target then
    s.fosterPlace
  else .lastOf target

def put (s : Sketch) (place : Place) (id : Nat) : Sketch :=
  match place with
  | .lastOf parent => { s with arena := s.arena.appendChild parent id }
  | .before sibling => { s with arena := s.arena.insertBefore sibling id }

def insertElement (s : Sketch) (e : Element) : Sketch :=
  let place := s.placeIn (s.stack.headD 0)
  let (id, arena) := s.arena.create (.element e)
  let s := { s with arena }.put place id
  { s with stack := id :: s.stack }

def insertHtml (s : Sketch) (name : String) (attrs : List (String × String)) : Sketch :=
  s.insertElement { name, attrs }

def insertText (s : Sketch) (chars : List Char) : Sketch :=
  if chars.isEmpty then s
  else
    match s.placeIn (s.stack.headD 0) with
    | .lastOf parent => { s with arena := s.arena.appendText parent chars }
    | .before sibling => { s with arena := s.arena.textBefore sibling chars }

/-! ## Formatting elements -/

/-- The formatting elements down to the last marker, the newest first. -/
def recentFormats (s : Sketch) : List Nat :=
  (s.formats.takeWhile (· != .marker)).filterMap fun
    | .element id => some id
    | .marker => none

def sameElement (a b : Element) : Bool :=
  a.space == b.space && a.name == b.name && a.attrs.length == b.attrs.length &&
    a.attrs.all b.attrs.contains

def dropFormat (s : Sketch) (id : Nat) : Sketch :=
  { s with formats := s.formats.filter (· != .element id) }

/-- The number of equal elements that the list keeps. -/
def formatLimit : Nat := 3

/-- Adds the innermost element to the list of formatting elements.  Of equal ones, the oldest
is dropped when there are too many. -/
def pushFormat (s : Sketch) : Sketch :=
  match s.stack.head?, s.current? with
  | some id, some e =>
    let equals := s.recentFormats.filter (s.elementIs (sameElement e))
    let s :=
      if formatLimit ≤ equals.length then
        match equals.getLast? with
        | some oldest => s.dropFormat oldest
        | none => s
      else s
    { s with formats := .element id :: s.formats }
  | _, _ => s

/-- Whether an entry of the list is closed, so that it is opened again. -/
def isClosed (s : Sketch) : Format → Bool
  | .marker => false
  | .element id => !s.stack.contains id

def reopen (s : Sketch) : Sketch :=
  let closed := s.formats.takeWhile s.isClosed
  let s := { s with formats := s.formats.dropWhile s.isClosed }
  closed.reverse.foldl (fun s f =>
    match f with
    | .marker => s
    | .element id =>
      match s.arena.element? id with
      | some e =>
        let s := s.insertElement e
        { s with formats := .element (s.stack.headD 0) :: s.formats }
      | none => s) s

/-! ## Modes -/

def modeOf? (e : Element) : Option Mode :=
  if e.space != .html then none
  else
    match e.name with
    | "td" | "th" => some .cell
    | "tr" => some .row
    | "tbody" | "thead" | "tfoot" => some .rows
    | "caption" => some .caption
    | "colgroup" => some .columns
    | "table" => some .table
    | "template" => some .body
    | _ => none

/-- Sets the mode that the open elements ask for. -/
def resetMode (s : Sketch) : Sketch :=
  { s with mode := (s.opened.findSome? fun e => modeOf? e.2).getD .body }

def readText (s : Sketch) (content : Content) : Sketch :=
  { s with content, back := s.mode, mode := .text }

end Sketch
end Hypertext
end RenderForest
