import RenderForest.Page.Theme
import RenderForest.Text.Escape
/-!
# PlainText — colouring text that has no grammar

Each line is one run in the colour of plain text; no run may set the weight of its letters.  This
file defines:

* `PlainText.matchesName`, the languages that are plain text;
* `PlainText.lines`, the lines of a text with their line feeds;
* `PlainText.dropWeight`, which cuts the weight out of a run;
* `PlainText.highlight`.
-/

namespace RenderForest
namespace PlainText

/-- The names of plain text: its file extension and its title. -/
def names : List String := ["txt", "Plain Text"]

/-- Whether a language is plain text, up to the case of ASCII letters. -/
def matchesName (language : String) : Bool :=
  names.any fun n => Text.sameFolded n language

/-- The lines of a text, each with its line feed. -/
def lines : List Char → List (List Char)
  | [] => []
  | c :: rest =>
    if c == '\n' then [c] :: lines rest
    else
      match lines rest with
      | [] => [[c]]
      | line :: more => (c :: line) :: more

def colour : Theme → String
  | .dark => "#c0c5ce"
  | .light => "#323232"
  | .auto => "#323232"

def weightProperty : List Char := "font-weight:".toList

/-- Cuts every setting of the weight, up to and with its semicolon; without a semicolon all that
follows is cut. -/
def dropWeight (s : List Char) : List Char :=
  keep 0 s
where
  /-- The number counts the characters of the property that are still to be passed over. -/
  keep : Nat → List Char → List Char
    | _, [] => []
    | 0, c :: rest =>
      if weightProperty.isPrefixOf (c :: rest) then cut (weightProperty.length - 1) rest
      else c :: keep 0 rest
    | n + 1, c :: rest => c :: keep n rest
  cut : Nat → List Char → List Char
    | _, [] => []
    | n + 1, _ :: rest => cut n rest
    | 0, c :: rest => if c == ';' then keep 0 rest else cut 0 rest

def run (theme : Theme) (line : List Char) : List Char :=
  ("<span style=\"color:" ++ colour theme ++ ";\">").toList ++ Text.escapeChars line ++
    "</span>".toList

def highlight (theme : Theme) (code language : String) : Option String :=
  if matchesName language then
    some (String.ofList ((lines code.toList).flatMap fun line => dropWeight (run theme line)))
  else none

end PlainText
end RenderForest
