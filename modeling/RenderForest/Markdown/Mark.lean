import RenderForest.Markdown.Line
/-!
# Mark — what begins a block

This file defines the readers of the marks at the start of a line:

* `Mark.ruleEnd?`, `Mark.headingLevel?`, `Mark.underline?` and `Mark.fence?`;
* `Mark.ListMark` with `Mark.listMark?`, and `Mark.taskMark?`;
* `Mark.rawKind?`, the blocks of raw HTML that end with a given text;
* `Mark.alignments?`, the line below the head of a table.
-/

namespace RenderForest
namespace Markdown
namespace Mark

/-! ## Rules and headings -/

/-- The position behind a thematic break: three or more stars, hyphens or underscores. -/
def ruleEnd? (s : Source) (i : Nat) : Option Nat :=
  match s.at? i with
  | some c =>
    if c == '*' || c == '-' || c == '_' then
      let stop := s.runEnd (fun d => d == c || d == ' ' || d == '\t') i
      if 3 ≤ (s.slice i stop).count c then (s.lineBreak? stop).map (stop + ·) else none
    else none
  | none => none

def headingLevel? (s : Source) (i : Nat) : Option Nat :=
  let level := s.countOf '#' i
  if 1 ≤ level && level ≤ 6 && (s.at? (i + level)).all Source.isSpace then some level else none

/-- The level of a heading that is underlined here, and the position behind the line. -/
def underline? (s : Source) (i : Nat) : Option (Nat × Nat) :=
  match s.at? i with
  | some '=' => (s.blankLine? (i + s.countOf '=' i)).map fun stop => (1, stop)
  | some '-' => (s.blankLine? (i + s.countOf '-' i)).map fun stop => (2, stop)
  | _ => none

/-! ## Fences -/

/-- The character of a fence and its length; no backtick may follow on the line of a fence of
backticks. -/
def fence? (s : Source) (i : Nat) : Option (Char × Nat) :=
  match s.at? i with
  | some c =>
    if c == '\x60' || c == '~' then
      let n := s.countOf c i
      if n < 3 then none
      else if c == '\x60' && (s.slice (i + n) (s.lineEnd (i + n))).contains '\x60' then none
      else some (c, n)
    else none
  | none => none

/-- The end of a line that closes a fence, its line break left out. -/
def fenceClose? (s : Source) (c : Char) (n i : Nat) : Option Nat :=
  let m := s.countOf c i
  if m < n then none
  else
    let stop := s.runEnd (· == ' ') (i + m)
    (s.lineBreak? stop).map fun _ => stop

/-! ## Lists -/

/-- The mark of a list item: its character, the number of an ordered item, and the columns by
which the content is indented. -/
structure ListMark where
  mark : Char
  number : Nat
  indent : Nat
  deriving DecidableEq, Repr

def isBullet (c : Char) : Bool :=
  c == '-' || c == '+' || c == '*'

/-- The blanks behind a mark; four or more belong to the content. -/
def contentIndent (s : Source) (l : Line) : Nat × Line :=
  match s.blankLine? l.pos with
  | some _ => (0, l)
  | none =>
    let (n, next) := l.spacesUpTo s 4
    if n < 4 then (n, next) else (0, l)

/-- The mark that ends before a place, if a blank or the end of the line follows. -/
def closedMark? (s : Source) (mark : Char) (number width : Nat) (l : Line) :
    Option (ListMark × Line) :=
  let (blank, next) := l.spaces s 1
  if blank || next.atEnd s then
    let (extra, next) := contentIndent s next
    some (⟨mark, number, width + 1 + extra⟩, next)
  else none

def longestNumber : Nat := 9

def listMark? (s : Source) (outer : Nat) (l : Line) : Option (ListMark × Line) :=
  match s.at? l.pos with
  | some c =>
    if isBullet c then
      if (ruleEnd? s l.pos).isSome then none
      else closedMark? s c 0 (outer + 1) { l with pos := l.pos + 1 }
    else if c.isDigit then
      let stop := s.runEnd Char.isDigit l.pos
      if longestNumber < stop - l.pos then none
      else
        match s.at? stop with
        | some d =>
          if d == '.' || d == ')' then
            closedMark? s d (Text.numeral 10 (s.slice l.pos stop)) (outer + 1 + (stop - l.pos))
              { l with pos := stop + 1 }
          else none
        | none => none
    else none
  | none => none

/-- Whether a mark may begin a list in the middle of a paragraph: it is a bullet or the number
one, and its line is not empty. -/
def interrupts (s : Source) (i : Nat) : Bool :=
  match listMark? s 0 (Line.start i) with
  | some (m, l) => (isBullet m.mark || m.number == 1) && (s.blankLine? l.pos).isNone
  | none => false

def taskMark? (s : Source) (l : Line) : Option (Bool × Line) := do
  let l ← (l.spacesUpTo s 3).2.char? s '['
  let done ←
    if s.holds l.pos Source.isGap then some false
    else if s.isAt l.pos 'x' || s.isAt l.pos 'X' then some true
    else none
  let l ← Line.char? s ']' { l with pos := l.pos + 1 }
  if s.holds l.pos Source.isSpace then some (done, l) else none

/-! ## Raw HTML -/

/-- The elements whose raw blocks run to their end tag. -/
def rawElements : List (String × String) :=
  [("pre", "</pre>"), ("style", "</style>"), ("script", "</script>"),
    ("textarea", "</textarea>")]

def rawDelimiters : List (String × String) :=
  [("!--", "-->"), ("?", "?>"), ("![CDATA[", "]]>")]

def rawKind? (s : Source) (i : Nat) : Option (List Char) :=
  let element := rawElements.find? fun (name, _) =>
    s.startsWithFolded (i + 1) name.toList &&
      (s.at? (i + 1 + name.length)).all fun c => Source.isSpace c || c == '>'
  let delimiter := rawDelimiters.find? fun (start, _) => s.startsWith (i + 1) start.toList
  match element.or delimiter with
  | some (_, stop) => some stop.toList
  | none =>
    if s.isAt (i + 1) '!' && s.holds (i + 2) Char.isAlpha then some ['>'] else none

def blockElements : List String :=
  ["address", "article", "aside", "base", "basefont", "blockquote", "body", "caption", "center",
    "col", "colgroup", "dd", "details", "dialog", "dir", "div", "dl", "dt", "fieldset",
    "figcaption", "figure", "footer", "form", "frame", "frameset", "h1", "h2", "h3", "h4", "h5",
    "h6", "head", "header", "hr", "html", "iframe", "legend", "li", "link", "main", "menu",
    "menuitem", "nav", "noframes", "ol", "optgroup", "option", "p", "param", "search", "section",
    "summary", "table", "tbody", "td", "tfoot", "th", "thead", "title", "tr", "track", "ul"]

def isBlockTag (s : Source) (i : Nat) : Bool :=
  let start := if s.isAt (i + 1) '/' then i + 2 else i + 1
  let stop := s.runEnd Char.isAlphanum start
  blockElements.contains (String.ofList ((s.slice start stop).map Char.toLower)) &&
    (s.startsWith stop "/>".toList ||
      (s.at? stop).all fun c => c == ' ' || c == '\t' || c == '>' || Source.isBreak c)

/-! ## Tables -/

inductive Alignment where
  | none
  | left
  | center
  | right
  deriving DecidableEq, Repr

structure Columns where
  done : List Alignment := []
  current : Alignment := .none
  /-- Whether nothing of the current column has been read. -/
  fresh : Bool := true
  /-- Whether the current column has a hyphen. -/
  dashed : Bool := false
  piped : Bool := false
  anyDash : Bool := false

def Columns.step (k : Columns) : Char → Option Columns
  | ' ' => some k
  | ':' =>
    let current :=
      match k.fresh, k.current with
      | true, .none => .left
      | false, .left => .center
      | false, .none => .right
      | _, a => a
    some { k with current, fresh := false }
  | '-' => some { k with fresh := false, dashed := true, anyDash := true }
  | '|' =>
    if k.dashed then
      some { k with done := k.done ++ [k.current], current := .none, fresh := true,
                    dashed := false, piped := true }
    else none
  | _ => none

/-- The alignments of a table whose head stands above, and the position behind the line. -/
def alignments? (s : Source) (i : Nat) : Option (List Alignment × Nat) := do
  let (columns, l) := (Line.start i).spacesUpTo s 4
  if 3 < columns || s.stop ≤ l.pos then none
  let piped := s.isAt l.pos '|'
  let start := if piped then l.pos + 1 else l.pos
  let stop := s.runEnd (fun c => !Source.isBreak c) start
  let initial : Columns := { piped }
  let k ← (s.slice start stop).foldlM Columns.step initial
  if !k.piped || !k.anyDash then none
  let done := if k.fresh then k.done else k.done ++ [k.current]
  some (done, stop + (s.lineBreak? stop).getD 0)

/-- The number of columns of a line with pipes: the number of gaps between them, and what stands
before the first and behind the last if it is not blank. -/
def columnCount (s : Source) (start pipes lastPipe : Nat) : Nat :=
  let inner := if s.isAt (s.skipGap start) '|' then pipes - 1 else pipes
  if (s.blankLine? (lastPipe + 1)).isSome then inner else inner + 1

end Mark
end Markdown
end RenderForest
