import RenderForest.Text.Reference
/-!
# Source — reading a Markdown text by position

A text is read by the positions of its characters.  This file defines:

* `Source`, the characters of a text up to an end, with `Source.at?` and `Source.slice`;
* `Source.runEnd`, the end of a run of characters of a class;
* `Source.lineBreak?`, `Source.lineEnd` and `Source.blankLine?`, which find the ends of lines;
* `Source.reference?`, a character reference at a position.
-/

namespace RenderForest
namespace Markdown

/-! ## Texts -/

/-- A text that is read up to an end. -/
structure Source where
  chars : Array Char
  stop : Nat

namespace Source

def ofString (s : String) : Source :=
  let chars := s.toList.toArray
  ⟨chars, chars.size⟩

def upTo (s : Source) (stop : Nat) : Source :=
  { s with stop := min s.stop stop }

def at? (s : Source) (i : Nat) : Option Char :=
  if i < s.stop then s.chars[i]? else none

def isAt (s : Source) (i : Nat) (c : Char) : Bool :=
  s.at? i == some c

def holds (s : Source) (i : Nat) (p : Char → Bool) : Bool :=
  (s.at? i).any p

def slice (s : Source) (start stop : Nat) : List Char :=
  (s.chars.extract start (min stop s.stop)).toList

def text (s : Source) (start stop : Nat) : String :=
  String.ofList (s.slice start stop)

def startsWith (s : Source) (i : Nat) : List Char → Bool
  | [] => true
  | c :: rest => s.isAt i c && s.startsWith (i + 1) rest

/-- Whether a word stands at a position, up to the case of ASCII letters. -/
def startsWithFolded (s : Source) (i : Nat) : List Char → Bool
  | [] => true
  | c :: rest => s.holds i (·.toLower == c) && s.startsWithFolded (i + 1) rest

/-! ## Runs -/

/-- The end of the run of characters of a class that starts at a position. -/
def runEnd (s : Source) (p : Char → Bool) (i : Nat) : Nat :=
  if h : i < s.stop then
    if s.holds i p then s.runEnd p (i + 1) else i
  else i
termination_by s.stop - i

/-- The start of the run of characters of a class that ends at a position. -/
def runStart (s : Source) (p : Char → Bool) : Nat → Nat
  | 0 => 0
  | i + 1 => if s.holds i p then s.runStart p i else i + 1

def countOf (s : Source) (c : Char) (i : Nat) : Nat :=
  s.runEnd (· == c) i - i

/-! ## Lines -/

def isGap (c : Char) : Bool :=
  c == ' ' || c == '\t' || c == '\x0b' || c == '\x0c'

def isBreak (c : Char) : Bool :=
  c == '\n' || c == '\r'

def isSpace (c : Char) : Bool :=
  isGap c || isBreak c

def skipGap (s : Source) (i : Nat) : Nat :=
  s.runEnd isGap i

/-- The length of the line break at a position; the end of the text is one without characters. -/
def lineBreak? (s : Source) (i : Nat) : Option Nat :=
  match s.at? i with
  | none => some 0
  | some '\n' => some 1
  | some '\r' => some (if s.isAt (i + 1) '\n' then 2 else 1)
  | some _ => none

def lineEnd (s : Source) (i : Nat) : Nat :=
  min (s.runEnd (· != '\n') i + 1) s.stop

/-- The position behind a line break, if only blanks stand before it. -/
def blankLine? (s : Source) (i : Nat) : Option Nat :=
  let j := s.skipGap i
  (s.lineBreak? j).map (j + ·)

/-! ## Character references -/

/-- The character with a number; zero stands for the replacement character. -/
def character? (n : Nat) : Option Char :=
  Text.scalar? (if n == 0 then 0xfffd else n)

def numbered? (s : Source) (base : Nat) (start stop : Nat) : Option (List Char × Nat) :=
  if start < stop && s.isAt stop ';' then
    (character? (Text.numeral base (s.slice start stop))).map fun c => ([c], stop + 1)
  else none

def reference? (s : Source) (i : Nat) : Option (List Char × Nat) :=
  if s.isAt (i + 1) '#' then
    if s.isAt (i + 2) 'x' || s.isAt (i + 2) 'X' then
      s.numbered? 16 (i + 3) (min (s.runEnd Text.isHexDigit (i + 3)) (i + 9))
    else s.numbered? 10 (i + 2) (min (s.runEnd Char.isDigit (i + 2)) (i + 9))
  else
    let stop := s.runEnd Char.isAlphanum (i + 1)
    if s.isAt stop ';' then
      (Text.namedReference? (s.slice (i + 1) stop)).map fun text => (text, stop + 1)
    else none

end Source
end Markdown
end RenderForest
