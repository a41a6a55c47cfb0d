import RenderForest.Markdown.Source
/-!
# RawTag — HTML tags in Markdown

A tag is read strictly: an end tag, or a start tag with attributes.  Where lines may end inside a
tag, the marks of the containers at the start of the next line are passed over.  This file
defines:

* `RawTag.tagEnd?`, the end of a tag;
* `RawTag.otherEnd?`, the end of a comment, a declaration or a processing instruction;
* `RawTag.joinLines`, the text of a tag without the marks of containers.
-/

namespace RenderForest
namespace Markdown
namespace RawTag

/-- What happens behind a line break: where the next line goes on, if the tag may go on there. -/
abbrev NextLine := Nat → Option Nat

def oneLine : NextLine := fun _ => none

/-! ## Blanks and attributes -/

def skipBlanks (s : Source) (next : NextLine) : Nat → Nat → Option Nat
  | 0, i => some i
  | fuel + 1, i =>
    let j := s.skipGap i
    if s.holds j Source.isBreak then
      match next (j + (s.lineBreak? j).getD 1) with
      | some k => skipBlanks s next fuel k
      | none => none
    else some j

def nameEnd? (s : Source) (i : Nat) : Option Nat :=
  if s.holds i fun c => c.isAlpha || c == '_' || c == ':' then
    some (s.runEnd (fun c => c.isAlphanum || c == '_' || c == '.' || c == ':' || c == '-') i)
  else none

def quoteEnd? (s : Source) (next : NextLine) (quote : Char) : Nat → Nat → Option Nat
  | 0, _ => none
  | fuel + 1, i =>
    match s.at? i with
    | none => none
    | some c =>
      if c == quote then some (i + 1)
      else if Source.isBreak c then
        match next (i + (s.lineBreak? i).getD 1) with
        | some k => quoteEnd? s next quote fuel k
        | none => none
      else quoteEnd? s next quote fuel (i + 1)

def isBare (c : Char) : Bool :=
  !(c == '\x27' || c == '\x22' || c == ' ' || c == '=' || c == '>' || c == '<' || c == '\x60' ||
    Source.isBreak c)

def valueEnd? (s : Source) (next : NextLine) (fuel i : Nat) : Option Nat :=
  match s.at? i with
  | none => none
  | some c =>
    if c == '\x22' || c == '\x27' then quoteEnd? s next c fuel (i + 1)
    else if c == ' ' || c == '=' || c == '>' || c == '<' || c == '\x60' || Source.isBreak c then
      none
    else some (s.runEnd isBare i)

def attributeEnd? (s : Source) (next : NextLine) (fuel i : Nat) : Option Nat := do
  let name ← nameEnd? s i
  let j ← skipBlanks s next fuel name
  if s.isAt j '=' then
    let j ← skipBlanks s next fuel (j + 1)
    valueEnd? s next fuel j
  else some name

/-- The position behind the attributes of a start tag; blanks must stand before each. -/
def attributesEnd? (s : Source) (next : NextLine) : Nat → Nat → Option Nat
  | 0, _ => none
  | fuel + 1, i =>
    match skipBlanks s next fuel i with
    | none => none
    | some j =>
      if s.holds j fun c => c == '/' || c == '>' then some j
      else if i == j || s.stop ≤ j then none
      else
        match attributeEnd? s next fuel j with
        | none => none
        | some k => attributesEnd? s next fuel k

/-! ## Tags -/

def isNameChar (c : Char) : Bool :=
  c.isAlphanum || c == '-'

def tagEnd? (s : Source) (next : NextLine) (i : Nat) : Option Nat := do
  let closing := s.isAt (i + 1) '/'
  let start := if closing then i + 2 else i + 1
  if !s.holds start Char.isAlpha then none
  let name := s.runEnd isNameChar start
  let j ← if closing then some name else attributesEnd? s next (s.stop - name + 1) name
  let j := s.skipGap j
  let j := if !closing && s.isAt j '/' then j + 1 else j
  if s.isAt j '>' then some (j + 1) else none

/-! ## Comments and declarations -/

def behind? (s : Source) (text : List Char) (i : Nat) : Option Nat :=
  if h : i < s.stop then
    if s.startsWith i text then some (i + text.length) else behind? s text (i + 1)
  else none
termination_by s.stop - i

/-- The end of a comment whose two hyphens stand before a position. -/
def commentEnd? (s : Source) (i : Nat) : Option Nat :=
  if s.isAt i '>' then some (i + 1)
  else if s.startsWith i "->".toList then some (i + 2)
  else behind? s "-->".toList i

/-- The end of a comment, a declaration or a processing instruction that begins at a less-than
sign. -/
def otherEnd? (s : Source) (i : Nat) : Option Nat :=
  if s.isAt (i + 1) '?' then behind? s "?>".toList (i + 2)
  else if !s.isAt (i + 1) '!' then none
  else if s.startsWith (i + 2) "--".toList then commentEnd? s (i + 4)
  else if s.startsWith (i + 2) "[CDATA[".toList then behind? s "]]>".toList (i + 9)
  else if s.holds (i + 2) Char.isAlpha then behind? s ['>'] (i + 2)
  else none

/-! ## Text -/

/-- The text between two positions, without what is passed over at the start of lines. -/
def joinLines (s : Source) (next : Nat → Nat) (stop : Nat) : Nat → Nat → List Char
  | 0, _ => []
  | fuel + 1, i =>
    if stop ≤ i then []
    else
      match s.at? i with
      | none => []
      | some '\n' => '\n' :: joinLines s next stop fuel (next (i + 1))
      | some c => c :: joinLines s next stop fuel (i + 1)

end RawTag
end Markdown
end RenderForest
