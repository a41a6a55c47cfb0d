import RenderForest.Text.Blank
/-!
# LineMap — lines and byte offsets of a source text

Offsets count the bytes of a text in UTF-8.  A line ends at a line feed, and the text behind the
last line feed is a line too.  This file defines:

* `LineMap`, the length of a text with the offsets at which its lines start;
* `LineMap.ends`, the offset behind each line;
* `LineMap.lineOf` and `LineMap.position`, the line and column of an offset;
* `LineMap.span`, the lines that a range of bytes covers.
-/

namespace RenderForest

/-- A line and the number of bytes before a place in it, both from zero. -/
structure Position where
  line : Nat
  character : Nat
  deriving DecidableEq, Repr

/-- The length of a text and the offsets at which its lines start, in order. -/
structure LineMap where
  length : Nat
  starts : List Nat
  deriving DecidableEq, Repr

namespace LineMap

/-- The offsets behind the line feeds of a text that starts at an offset. -/
def breaks (offset : Nat) : List Char → List Nat
  | [] => []
  | c :: rest =>
    if c == '\n' then (offset + 1) :: breaks (offset + 1) rest
    else breaks (offset + c.utf8Size) rest

def ofChars (s : List Char) : LineMap :=
  ⟨Text.byteLength s, 0 :: breaks 0 s⟩

def ofString (s : String) : LineMap :=
  ofChars s.toList

def count (m : LineMap) : Nat :=
  m.starts.length

/-- The offsets behind the lines: before the line feed of each, and the length for the last. -/
def endsFrom (length : Nat) : List Nat → List Nat
  | [] => []
  | [start] => [max length start]
  | _ :: next :: rest => (next - 1) :: endsFrom length (next :: rest)

/-- The offset behind each line, its line feed left out. -/
def ends (m : LineMap) : List Nat :=
  endsFrom m.length m.starts

/-- The line of an offset; offsets behind the text count as its end. -/
def lineOf (m : LineMap) (offset : Nat) : Nat :=
  (m.starts.takeWhile (· ≤ min offset m.length)).length - 1

def position (m : LineMap) (offset : Nat) : Position :=
  let line := m.lineOf offset
  ⟨line, min offset m.length - m.starts.getD line 0⟩

/-- The first line of a range of bytes and the line behind its last; a range without bytes covers
the line of its start. -/
def span (m : LineMap) (start stop : Nat) : Nat × Nat :=
  let first := m.lineOf start
  if stop ≤ start then (first, first + 1) else (first, max (m.lineOf (stop - 1)) first + 1)

end LineMap
end RenderForest
