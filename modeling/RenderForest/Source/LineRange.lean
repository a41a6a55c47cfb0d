import RenderForest.Source.Env
import RenderForest.Stream.Token
/-!
# LineRange — source lines, corrected for macro expansion

The lines of a token count in the expanded text.  The macro table and the line marks turn them
into lines of the text before the expansion.  This file defines:

* `MacroLine.precedes`, whether a macro stands before a position;
* `lineOffsetAt`, the shift of lines at a position;
* `Token.lineRange`, the corrected lines of a token.
-/

namespace RenderForest

def signed64 (n : Nat) : Int :=
  if n < 9223372036854775808 then n else (n : Int) - 18446744073709551616

/-- Whether a macro stands before a position in both coordinate spaces. -/
def MacroLine.precedes (m : MacroLine) (pos : Nat) : Bool :=
  signed64 m.matchPos < signed64 pos + m.posOffset &&
    signed64 m.matchPos < signed64 pos + m.currentPosOffset

/-- The entries of the table that apply at a position: the run of leading entries that precede
it. -/
def appliedMacros (table : List MacroLine) (pos : Nat) : List MacroLine :=
  table.takeWhile (·.precedes pos)

/-- The shift of lines at a position: that of the last entry that applies, zero without one. -/
def lineOffsetAt (table : List MacroLine) (pos : Nat) : Int :=
  ((appliedMacros table pos).getLast?.map MacroLine.lineOffset).getD 0

/-- A line with a shift, kept between zero and the largest number of sixty-four bits. -/
def shiftLine (line : Nat) (offset : Int) : Nat :=
  min ((line : Int) + offset).toNat 18446744073709551615

/-- The shift of lines at a mark, zero where there is no mark. -/
def lineOffsetAtMark (table : List MacroLine) (mark : Option Nat) : Int :=
  (mark.map (lineOffsetAt table)).getD 0

/-- The lines of a token, the end exclusive; a token without lines stands on the first. -/
def Token.lineRange (t : Token) (env : Env) : Nat × Nat :=
  let (start, stop) := t.map.getD (0, 1)
  match env.macroLines, env.lineStarts, env.lineEnds with
  | some table, some starts, some ends =>
    if table.isEmpty then (start, stop)
    else
      let last := if stop == 0 then none else ends[stop - 1]?
      (shiftLine start (lineOffsetAtMark table starts[start]?),
        shiftLine stop (lineOffsetAtMark table last))
  | _, _, _ => (start, stop)

end RenderForest
