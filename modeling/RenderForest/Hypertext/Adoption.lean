import RenderForest.Hypertext.Sketch
/-!
# Adoption — end tags of formatting elements that close in the wrong order

When a formatting element ends while a block inside it is open, the block is taken out of it and
the formatting is opened again inside the block.  This file defines:

* `Sketch.closeOther`, the end of an element without rules of its own;
* `Sketch.adoptRound`, one step that lifts a block out of a formatting element;
* `Sketch.adopt`, the end tag of a formatting element.
-/

namespace RenderForest
namespace Hypertext
namespace Sketch

/-! ## Other end tags -/

/-- Whether an end tag reaches an open element: no special element is before it. -/
def reaches (name : String) : List (Nat × Element) → Bool
  | [] => false
  | e :: rest =>
    Category.isHtml [name] e.2 || (!Category.isSpecial e.2 && reaches name rest)

def closeOther (s : Sketch) (name : String) : Sketch :=
  if reaches name s.opened then (s.closeImplied name).popThrough [name] else s

/-! ## Moving a block -/

/-- Where a formatting element is put back into the list. -/
inductive Bookmark where
  | inPlace
  | newerThan (id : Nat)
  deriving DecidableEq, Repr

/-- The elements between a formatting element and a block, from the block outwards, are opened
anew around what was moved last. -/
structure Lift where
  sketch : Sketch
  /-- How many elements were looked at. -/
  count : Nat := 0
  last : Nat
  bookmark : Bookmark := .inPlace

def Lift.step (block : Nat) (l : Lift) (id : Nat) : Lift :=
  let count := l.count + 1
  let s := if formatLimit < count then l.sketch.dropFormat id else l.sketch
  match s.formats.contains (.element id), s.arena.element? id with
  | true, some e =>
    let (fresh, arena) := s.arena.create (.element e)
    let s := { s with
      arena := arena.appendChild fresh l.last
      formats := s.formats.map fun f => if f == .element id then .element fresh else f
      stack := s.stack.map fun n => if n == id then fresh else n }
    { sketch := s, count, last := fresh,
      bookmark := if l.last == block then .newerThan fresh else l.bookmark }
  | _, _ => { l with sketch := { s with stack := s.stack.filter (· != id) }, count }

def replaceFormat (formats : List Format) (bookmark : Bookmark) (old fresh : Nat) : List Format :=
  match bookmark with
  | .inPlace => formats.map fun f => if f == .element old then .element fresh else f
  | .newerThan id =>
    (formats.flatMap fun f => if f == .element id then [.element fresh, f] else [f]).filter
      (· != .element old)

/-- Opens a formatting element anew inside a block that was in it. -/
def rewrap (s : Sketch) (bookmark : Bookmark) (old block : Nat) (e : Element) : Sketch :=
  let (fresh, arena) := s.arena.create (.element e)
  { s with
    arena := (arena.moveChildren block fresh).appendChild block fresh
    formats := replaceFormat s.formats bookmark old fresh
    stack := (s.stack.filter (· != old)).flatMap fun n => if n == block then [fresh, n] else [n] }

/-- Lifts the outermost block out of the last formatting element of a name.  Tells whether more
may be left to do. -/
def adoptRound (s : Sketch) (name : String) : Sketch × Bool :=
  match s.recentFormats.find? (s.elementIs (Category.isHtml [name])) with
  | none => (s.closeOther name, false)
  | some old =>
    if !s.stack.contains old then (s.dropFormat old, false)
    else if !finds Category.bounds (·.1 == old) s.opened then (s, false)
    else
      let inner := s.stack.takeWhile (· != old)
      let outer := (s.stack.dropWhile (· != old)).tail
      match inner.reverse.find? (s.elementIs Category.isSpecial), s.arena.element? old with
      | some block, some e =>
        let between := (inner.dropWhile (· != block)).tail
        let l := between.foldl (Lift.step block) { sketch := s, last := block }
        let s := l.sketch.put (l.sketch.placeIn (outer.headD 0)) l.last
        (s.rewrap l.bookmark old block e, true)
      | _, _ => ({ s with stack := outer }.dropFormat old, false)

/-- The greatest number of blocks that one end tag moves. -/
def adoptLimit : Nat := 8

def adoptRounds (name : String) : Nat → Sketch → Sketch
  | 0, s => s
  | n + 1, s =>
    match s.adoptRound name with
    | (s, true) => adoptRounds name n s
    | (s, false) => s

def adopt (s : Sketch) (name : String) : Sketch :=
  match s.stack.head? with
  | some id =>
    if s.elementIs (Category.isHtml [name]) id && !s.formats.contains (.element id) then s.pop
    else adoptRounds name adoptLimit s
  | none => s

end Sketch
end Hypertext
end RenderForest
