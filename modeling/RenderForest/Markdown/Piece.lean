import RenderForest.Markdown.Source
import RenderForest.Text.Punctuation
/-!
# Piece — a line of inline text, cut at what may be markup

The first reading of inline text only cuts it: which pieces are markup is decided when the whole
block is known.  This file defines:

* `Atom` and `Piece`;
* `Flank`, whether a run of delimiters may open or close emphasis;
* `readLine`, the pieces of a line.
-/

namespace RenderForest
namespace Markdown

/-! ## Pieces -/

inductive Atom where
  /-- Text as it stands in the source. -/
  | text
  /-- Text that a character reference stands for. -/
  | decoded (text : List Char)
  | run (mark : Char) (opens closes : Bool)
  /-- A run of backticks, perhaps with a backslash before it. -/
  | ticks (escaped : Bool)
  /-- A less-than sign. -/
  | angle
  | openBracket (image : Bool)
  | closeBracket
  | softBreak
  | hardBreak
  | task (done : Bool)
  deriving DecidableEq, Repr

structure Piece where
  start : Nat
  stop : Nat
  atom : Atom
  deriving DecidableEq, Repr

/-- Adds a stretch of text behind pieces, the last of which comes first. -/
def addText (pieces : List Piece) (start stop : Nat) : List Piece :=
  if stop ≤ start then pieces
  else
    match pieces with
    | ⟨a, b, .text⟩ :: rest =>
      if b == start then ⟨a, stop, .text⟩ :: rest else ⟨start, stop, .text⟩ :: pieces
    | _ => ⟨start, stop, .text⟩ :: pieces

/-! ## Runs of delimiters -/

/-- Where a line of inline text stands: in a table cell, pipes end it. -/
structure LinePlace where
  start : Nat
  inCell : Bool

namespace Flank

def behindPipe (s : Source) (place : LinePlace) (i : Nat) : Bool :=
  place.inCell && s.isAt (i - 1) '|' && !(place.start + 2 ≤ i && s.isAt (i - 2) '\\')

def opens (s : Source) (place : LinePlace) (mark : Char) (i n : Nat) : Bool :=
  match s.at? (i + n) with
  | none => false
  | some next =>
    if Text.isBlank next then false
    else if i ≤ place.start then true
    else if behindPipe s place i then true
    else if place.inCell && next == '|' then false
    else if mark == '*' && !Text.isPunctuation next then true
    else if mark == '~' && 1 < n then true
    else
      match s.at? (i - 1) with
      | none => true
      | some before =>
        (mark == '~' && before == '~' && !Text.isPunctuation next) ||
          Text.isBlank before || Text.isPunctuation before

def closes (s : Source) (place : LinePlace) (mark : Char) (i n : Nat) : Bool :=
  if i ≤ place.start then false
  else
    match s.at? (i - 1) with
    | none => false
    | some before =>
      if Text.isBlank before then false
      else
        match s.at? (i + n) with
        | none => true
        | some next =>
          if behindPipe s place i then false
          else if place.inCell && next == '|' then true
          else if (mark == '*' || (mark == '~' && 1 < n)) && !Text.isPunctuation before then true
          else if mark == '~' && before == '~' then true
          else Text.isBlank next || Text.isPunctuation next

end Flank

/-! ## Lines -/

/-- Which characters have a meaning beyond the basic ones. -/
structure Dialect where
  tables : Bool := true
  strikethrough : Bool := true
  tasks : Bool := true
  deriving DecidableEq, Repr

/-- The pieces of a line, the break behind them, where the next line starts, and its pipes. -/
structure LineReading where
  /-- The last piece comes first. -/
  pieces : List Piece
  lineBreak : Option Piece := none
  next : Nat
  pipes : Nat := 0
  lastPipe : Nat := 0

/-- How far a line has been read: where the text begins that is not yet a piece, and the pieces
before it. -/
structure LineState where
  begin : Nat
  pieces : List Piece := []
  pipes : Nat := 0
  lastPipe : Nat := 0

namespace LineState

def piece (k : LineState) (textEnd start stop : Nat) (atom : Atom) : LineState :=
  { k with pieces := ⟨start, stop, atom⟩ :: addText k.pieces k.begin textEnd, begin := stop }

/-- Adds a piece that follows the text at once. -/
def special (k : LineState) (start stop : Nat) (atom : Atom) : LineState :=
  k.piece start start stop atom

/-- Lets text begin again behind characters that are dropped. -/
def resume (k : LineState) (textEnd begin : Nat) : LineState :=
  { k with pieces := addText k.pieces k.begin textEnd, begin }

/-- Ends the line at a position, without the blanks before it. -/
def close (s : Source) (k : LineState) (i : Nat) : LineReading :=
  { pieces := addText k.pieces k.begin (max k.begin (s.runStart Source.isGap i)),
    next := i, pipes := k.pipes, lastPipe := k.lastPipe }

/-- Ends the line at its line break: a backslash or two blanks before it make a hard break. -/
def breakLine (s : Source) (k : LineState) (i : Nat) : LineReading :=
  let next := i + (s.lineBreak? i).getD 1
  let slashes := i - s.runStart (· == '\\') i
  let text := s.runStart Source.isGap i
  let result (stop : Nat) (atom : Atom) : LineReading :=
    { pieces := addText k.pieces k.begin stop, lineBreak := some ⟨stop, next, atom⟩, next,
      pipes := k.pipes, lastPipe := k.lastPipe }
  if slashes % 2 == 1 && next < s.stop then result (i - 1) .hardBreak
  else if 2 ≤ i - text then result text .hardBreak
  else result text .softBreak

def backslash (s : Source) (place : LinePlace) (k : LineState) (i : Nat) : LineState × Nat :=
  if !s.holds (i + 1) Text.isAsciiPunctuation then (k, i + 1)
  else if s.isAt (i + 1) '\x60' then
    let stop := s.runEnd (· == '\x60') (i + 1)
    (k.piece i (i + 1) stop (.ticks true), stop)
  else if place.inCell && s.startsWith (i + 1) ['\\', '|'] then (k.resume i (i + 2), i + 3)
  else (k.resume i (i + 1), i + 2)

def delimiters (s : Source) (place : LinePlace) (k : LineState) (c : Char) (i : Nat) :
    LineState × Nat :=
  let stop := s.runEnd (· == c) i
  let opens := Flank.opens s place c i (stop - i)
  let closes := Flank.closes s place c i (stop - i)
  if (opens || closes) && (c != '~' || stop - i ≤ 2) then
    (k.special i stop (.run c opens closes), stop)
  else (k, stop)

def step (s : Source) (d : Dialect) (place : LinePlace) (k : LineState) (c : Char) (i : Nat) :
    LineState × Nat :=
  match c with
  | '\\' => backslash s place k i
  | '*' => delimiters s place k c i
  | '_' => delimiters s place k c i
  | '~' => if d.strikethrough then delimiters s place k c i else (k, i + 1)
  | '\x60' =>
    let stop := s.runEnd (· == '\x60') i
    (k.special i stop (.ticks false), stop)
  | '<' => if s.isAt (i + 1) '\\' then (k, i + 1) else (k.special i (i + 1) .angle, i + 1)
  | '!' =>
    if s.isAt (i + 1) '[' then (k.special i (i + 2) (.openBracket true), i + 2) else (k, i + 1)
  | '[' => (k.special i (i + 1) (.openBracket false), i + 1)
  | ']' => (k.special i (i + 1) .closeBracket, i + 1)
  | '&' =>
    match s.reference? i with
    | some (text, stop) => (k.special i stop (.decoded text), stop)
    | none => (k, i + 1)
  | '|' => if d.tables then ({ k with pipes := k.pipes + 1, lastPipe := i }, i + 1) else (k, i + 1)
  | _ => (k, i + 1)

end LineState

/-- Reads a line from a position on; the fuel bounds the number of characters. -/
def readFrom (s : Source) (d : Dialect) (place : LinePlace) : Nat → LineState → Nat → LineReading
  | 0, k, i => k.close s i
  | fuel + 1, k, i =>
    match s.at? i with
    | none => k.close s i
    | some c =>
      if place.inCell && (c == '|' || Source.isBreak c) then k.close s i
      else if Source.isBreak c then k.breakLine s i
      else
        let (k, next) := k.step s d place c i
        readFrom s d place fuel k next

def readLine (s : Source) (d : Dialect) (start : Nat) (inCell : Bool) : LineReading :=
  readFrom s d ⟨start, inCell⟩ (s.stop - start + 1) { begin := start } start

end Markdown
end RenderForest
