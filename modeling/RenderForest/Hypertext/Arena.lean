/-!
# Arena — a tree whose nodes can be moved

While HTML is read, nodes are moved from one parent to another.  The nodes are kept in an array
and known by their numbers.  This file defines:

* `Space`, `Element`, `NodeContent` and `Entry`, the nodes;
* `Arena` with `create`, `detach`, `appendChild`, `insertBefore` and `moveChildren`;
* `Arena.appendText` and `Arena.textBefore`, which add text to a text that is next to it.
-/

namespace RenderForest
namespace Hypertext

inductive Space where
  | html
  | svg
  | math
  deriving DecidableEq, Repr

structure Element where
  space : Space := .html
  name : String
  attrs : List (String × String) := []
  deriving DecidableEq, Repr, Inhabited

/-- What a node is; comments are not kept. -/
inductive NodeContent where
  | element (e : Element)
  | text (chars : List Char)
  deriving DecidableEq, Repr

structure Entry where
  content : NodeContent
  parent : Option Nat := none
  children : List Nat := []
  deriving Repr

abbrev Arena := Array Entry

namespace Arena

def element? (a : Arena) (id : Nat) : Option Element :=
  (a[id]?).bind fun e =>
    match e.content with
    | .element x => some x
    | .text _ => none

def parent? (a : Arena) (id : Nat) : Option Nat :=
  (a[id]?).bind Entry.parent

def children (a : Arena) (id : Nat) : List Nat :=
  ((a[id]?).map Entry.children).getD []

/-- Adds a node without a parent; gives its number. -/
def create (a : Arena) (content : NodeContent) : Nat × Arena :=
  (a.size, a.push { content })

def detach (a : Arena) (id : Nat) : Arena :=
  match a.parent? id with
  | none => a
  | some p =>
    (a.modify p fun e => { e with children := e.children.filter (· != id) }).modify id
      fun e => { e with parent := none }

def appendChild (a : Arena) (parent id : Nat) : Arena :=
  ((a.detach id).modify parent fun e => { e with children := e.children ++ [id] }).modify id
    fun e => { e with parent := some parent }

def putBefore (id next : Nat) : List Nat → List Nat
  | [] => [id]
  | n :: rest => if n == next then id :: n :: rest else n :: putBefore id next rest

def insertBefore (a : Arena) (next id : Nat) : Arena :=
  match a.parent? next with
  | none => a
  | some p =>
    ((a.detach id).modify p fun e => { e with children := putBefore id next e.children }).modify id
      fun e => { e with parent := some p }

def moveChildren (a : Arena) (source target : Nat) : Arena :=
  (a.children source).foldl (fun a id => a.appendChild target id) a

/-- Adds text behind a text node, if the number is that of one. -/
def extendText? (a : Arena) (id : Nat) (chars : List Char) : Option Arena :=
  (a[id]?).bind fun e =>
    match e.content with
    | .text old => some (a.modify id fun e => { e with content := .text (old ++ chars) })
    | .element _ => none

def appendText (a : Arena) (parent : Nat) (chars : List Char) : Arena :=
  let fresh :=
    let (id, a) := a.create (.text chars)
    a.appendChild parent id
  match (a.children parent).getLast? with
  | some last => (a.extendText? last chars).getD fresh
  | none => fresh

def before? (next : Nat) : List Nat → Option Nat
  | a :: b :: rest => if b == next then some a else before? next (b :: rest)
  | _ => none

def textBefore (a : Arena) (next : Nat) (chars : List Char) : Arena :=
  let fresh :=
    let (id, a) := a.create (.text chars)
    a.insertBefore next id
  match ((a.parent? next).bind fun p => before? next (a.children p)) with
  | some sibling => (a.extendText? sibling chars).getD fresh
  | none => fresh

end Arena
end Hypertext
end RenderForest
