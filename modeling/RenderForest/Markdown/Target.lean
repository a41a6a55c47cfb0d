import RenderForest.Markdown.Source
import RenderForest.Text.Folding
/-!
# Target — labels, destinations and titles of links

This file defines:

* `unescape`, which reads backslashes and character references in destinations and titles;
* `Label.read?`, the label of a reference in the form in which labels are compared;
* `destination?`, the destination of a link;
* `Target`, a destination with a title, and `Targets`, those that a document defines.
-/

namespace RenderForest
namespace Markdown

/-! ## Unescaping -/

/-- Reads backslashes and character references; carriage returns are dropped.  In a table, two
backslashes before a pipe stand for the pipe. -/
def unescapeFrom (s : Source) (inTable : Bool) : Nat → Nat → List Char
  | 0, _ => []
  | fuel + 1, i =>
    match s.at? i with
    | none => []
    | some '\\' =>
      if inTable && s.startsWith (i + 1) ['\\', '|'] then
        '|' :: unescapeFrom s inTable fuel (i + 3)
      else
        match s.at? (i + 1) with
        | some c =>
          if Text.isAsciiPunctuation c then c :: unescapeFrom s inTable fuel (i + 2)
          else '\\' :: unescapeFrom s inTable fuel (i + 1)
        | none => ['\\']
    | some '&' =>
      match s.reference? i with
      | some (text, stop) => text ++ unescapeFrom s inTable fuel stop
      | none => '&' :: unescapeFrom s inTable fuel (i + 1)
    | some '\r' => unescapeFrom s inTable fuel (i + 1)
    | some c => c :: unescapeFrom s inTable fuel (i + 1)

def unescape (inTable : Bool) (text : List Char) : String :=
  let s : Source := ⟨text.toArray, text.length⟩
  String.ofList (unescapeFrom s inTable (text.length + 1) 0)

/-! ## Labels -/

namespace Label

/-- The longest label, in characters. -/
def longest : Nat := 1000

/-- What happens behind a line break in a label: where the label goes on, if it may. -/
abbrev NextLine := Nat → Option Nat

/-- The position behind blanks, in which at most one line may end. -/
def skipBlanks (s : Source) (next : NextLine) (i : Nat) : Option Nat :=
  let j := s.skipGap i
  if s.holds j Source.isBreak then
    match next (j + (s.lineBreak? j).getD 1) with
    | none => none
    | some k =>
      let k := s.skipGap k
      if s.holds k Source.isBreak then none else some k
  else some j

/-- The text of a label up to its bracket, with a single space for each run of blanks, and the
position behind the bracket. -/
def readText? (s : Source) (next : NextLine) : Nat → Nat → Option (List Char × Nat)
  | 0, _ => none
  | fuel + 1, i =>
    match s.at? i with
    | none => none
    | some '[' => none
    | some ']' => some ([], i + 1)
    | some '\\' =>
      match s.at? (i + 1) with
      | none => none
      | some c => (readText? s next fuel (i + 2)).map fun (text, stop) => ('\\' :: c :: text, stop)
    | some c =>
      if Source.isSpace c then
        match skipBlanks s next i with
        | none => none
        | some j => (readText? s next fuel j).map fun (text, stop) => (' ' :: text, stop)
      else (readText? s next fuel (i + 1)).map fun (text, stop) => (c :: text, stop)

def dropSpaces (text : List Char) : List Char :=
  text.dropWhile (· == ' ')

/-- The label behind an opening bracket, folded for comparison, and the position behind its
closing bracket.  A label is neither blank nor too long. -/
def read? (s : Source) (next : NextLine) (i : Nat) : Option (List Char × Nat) := do
  let (text, stop) ← readText? s next (longest + 1) i
  let text := dropSpaces (dropSpaces text).reverse |>.reverse
  if text.isEmpty then none else some (Text.foldCase text, stop)

end Label

/-! ## Destinations -/

/-- The number of parentheses that may be open in a destination. -/
def deepestParentheses : Nat := 5

def angleEnd? (s : Source) : Nat → Nat → Option Nat
  | 0, _ => none
  | fuel + 1, i =>
    match s.at? i with
    | none => none
    | some c =>
      if Source.isBreak c || c == '<' then none
      else if c == '>' then some i
      else if c == '\\' && s.holds (i + 1) Text.isAsciiPunctuation then angleEnd? s fuel (i + 2)
      else angleEnd? s fuel (i + 1)

/-- The end of a destination without angle brackets; its parentheses are balanced. -/
def bareEnd? (s : Source) : Nat → Nat → Nat → Option Nat
  | 0, _, _ => none
  | fuel + 1, depth, i =>
    let stop := if depth == 0 then some i else none
    match s.at? i with
    | none => stop
    | some c =>
      if c.toNat ≤ 32 then stop
      else if c == '(' then
        if deepestParentheses < depth then none else bareEnd? s fuel (depth + 1) (i + 1)
      else if c == ')' then
        if depth == 0 then some i else bareEnd? s fuel (depth - 1) (i + 1)
      else if c == '\\' && s.holds (i + 1) Text.isAsciiPunctuation then
        bareEnd? s fuel depth (i + 2)
      else bareEnd? s fuel depth (i + 1)

def destination? (s : Source) (i : Nat) : Option (List Char × Nat) :=
  let fuel := s.stop - i + 2
  if s.isAt i '<' then
    (angleEnd? s fuel (i + 1)).map fun stop => (s.slice (i + 1) stop, stop + 1)
  else (bareEnd? s fuel 0 i).map fun stop => (s.slice i stop, stop)

/-! ## Titles -/

def closingQuote? : Char → Option Char
  | '\x22' => some '\x22'
  | '\x27' => some '\x27'
  | '(' => some ')'
  | _ => none

/-! ## Targets -/

structure Target where
  destination : String
  title : String := ""
  deriving DecidableEq, Repr

/-- The targets that a document defines, the first of a label before the others. -/
abbrev Targets := List (List Char × Target)

end Markdown
end RenderForest
