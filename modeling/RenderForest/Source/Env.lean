import RenderForest.Source.LineMap
/-!
# Env — what a compile pass is told besides the tokens

This file defines:

* `MacroLine`, an entry of the table that a macro expansion leaves behind;
* `Env`, the mode, the macro table and the line marks of a pass;
* `Env.withLineMarks`, which takes the marks from a source text.
-/

namespace RenderForest

/-- One macro of the expanded text: where it stands, and the shifts behind it. -/
structure MacroLine where
  /-- The byte position of the macro in the expanded text. -/
  matchPos : Nat := 0
  /-- The shift of all lines behind the macro. -/
  lineOffset : Int := 0
  /-- The shift of bytes before the macro. -/
  posOffset : Int := 0
  /-- The shift of bytes with the macro. -/
  currentPosOffset : Int := 0
  deriving DecidableEq, Repr, Inhabited

/-- The surroundings of one compile pass. -/
structure Env where
  /-- Whether unsafe values and raw markup are made harmless. -/
  safeMode : Bool := false
  macroLines : Option (List MacroLine) := none
  /-- The offset at which each line starts. -/
  lineStarts : Option (List Nat) := none
  /-- The offset behind each line. -/
  lineEnds : Option (List Nat) := none
  deriving DecidableEq, Repr, Inhabited

namespace Env

def safe : Env := { safeMode := true }

/-- Takes the line marks from the text that was cut into tokens. -/
def withLineMarks (env : Env) (source : String) : Env :=
  let lines := LineMap.ofString source
  { env with lineStarts := some lines.starts, lineEnds := some lines.ends }

end Env
end RenderForest
