import RenderForest.Markdown.Block
import RenderForest.Markdown.RawTag
/-!
# Reading — from a text to its blocks

This file defines:

* `Reading.interrupts`, whether a line ends the paragraph before it;
* `Reading.literalLines`, the lines of code and raw blocks;
* the readers of the blocks, each giving the state and the position behind the block;
* `Document.read`, the blocks and targets of a text.
-/

namespace RenderForest
namespace Markdown

/-- A document: its blocks and the targets that it defines. -/
structure Document where
  blocks : List Block
  targets : Targets

namespace Reading

structure Setting where
  source : Source
  dialect : Dialect

/-- A state and the position where the next block begins. -/
abbrev Step := Reader × Nat

/-! ## Interrupting a paragraph -/

/-- The pipes of a line that have no backslash before them: their number and the last of them. -/
def pipes (s : Source) (start stop : Nat) : Nat × Nat :=
  (List.range (stop - start)).foldl (fun (n, last) k =>
    let i := start + k
    if s.isAt i '|' && !(start < i && s.isAt (i - 1) '\\') then (n + 1, i)
    else (n, last)) (0, start)

/-- The alignments of the table whose head is the line between two positions, and where its rows
begin. -/
def tableBelow? (s : Source) (demands : List Prefix) (start next pipes lastPipe : Nat) :
    Option (List Mark.Alignment × Nat) := do
  let l ← Line.within? s demands next
  let (alignments, stop) ← Mark.alignments? s l.pos
  if alignments.length == Mark.columnCount s start pipes lastPipe then some (alignments, stop)
  else none

def startsTable (c : Setting) (demands : List Prefix) (i : Nat) : Bool :=
  let s := c.source
  let stop := s.runEnd (fun d => !Source.isBreak d) i
  c.dialect.tables && s.isAt i '|' && stop < s.stop &&
    (let (n, last) := pipes s i stop
    (tableBelow? s demands i (stop + (s.lineBreak? stop).getD 1) n last).isSome)

/-- Whether a line ends the paragraph or the table before it, apart from tables.  `anyList` says
that every mark of a list does. -/
def interruptsPlain (s : Source) (anyList : Bool) (i : Nat) : Bool :=
  (s.lineBreak? i).isSome || (Mark.ruleEnd? s i).isSome || (Mark.headingLevel? s i).isSome ||
    (Mark.fence? s i).isSome || s.isAt i '>' ||
    (if anyList then (Mark.listMark? s 0 (Line.start i)).isSome else Mark.interrupts s i) ||
    (s.isAt i '<' && ((Mark.rawKind? s i).isSome || Mark.isBlockTag s i))

/-- Whether a line ends the paragraph before it; `inside` says that the line lies in all
containers of the paragraph. -/
def interrupts (c : Setting) (demands : List Prefix) (inside : Bool) (i : Nat) : Bool :=
  interruptsPlain c.source (!inside) i || startsTable c demands i

/-- Where the text of a paragraph goes on behind a line break: behind the containers and blanks of
the next line, unless that line ends the paragraph. -/
def nextLine (c : Setting) (demands : List Prefix) (i : Nat) : Option Nat :=
  let (n, l) := Line.enter c.source demands (Line.start i)
  let inside := n == demands.length
  let (deep, l) := l.spaces c.source 4
  if !deep && (interrupts c demands inside l.pos ||
      (inside && (Mark.underline? c.source l.pos).isSome)) then none
  else some l.pos

/-! ## Literal lines -/

/-- The text between two positions behind some columns; a carriage return before the line feed is
dropped. -/
def literalLine (s : Source) (columns start stop : Nat) : List Char :=
  let line := s.slice start stop
  let line :=
    match line.reverse with
    | '\n' :: '\r' :: rest => ('\n' :: rest).reverse
    | _ => line
  List.replicate columns ' ' ++ line

/-! ## Rules and headings -/

/-- The end of the text of a heading, without the number signs that close it. -/
def headingStop (s : Source) (start stop : Nat) : Nat :=
  let limit := max start (s.runStart (fun c => Source.isBreak c || c == ' ') stop)
  let closer := max start (s.runStart (· == '#') limit)
  if closer == start then start
  else
    let gap := s.runStart (· == ' ') closer
    if gap < closer then max start gap else limit

def endLast (stop : Nat) : List Piece → List Piece
  | [] => []
  | p :: rest => { p with stop } :: rest

def heading (c : Setting) (r : Reader) (i level : Nat) : Step :=
  let s := c.source
  match s.lineBreak? (i + level) with
  | some n =>
    let stop := i + level + n
    (r.add (.heading ⟨i, stop⟩ level []), stop)
  | none =>
    let start := s.skipGap (i + level)
    let line := readLine s c.dialect start false
    let stop := s.lineEnd start
    let pieces := endLast (headingStop s start stop) line.pieces
    (r.add (.heading ⟨i, line.next⟩ level pieces.reverse), line.next)

/-! ## Code -/

/-- The lines of an indented block: each with its text, whether it is blank, and its end. -/
def indentedLines (s : Source) (demands : List Prefix) :
    Nat → Nat → Nat → List (List Char × Bool × Nat)
  | 0, _, _ => []
  | fuel + 1, columns, i =>
    let stop := s.lineEnd i
    let line := (literalLine s columns i stop, (s.blankLine? i).isSome, stop)
    match Line.within? s demands stop with
    | none => [line]
    | some l =>
      let (deep, l) := l.spaces s 4
      if !(deep || l.atEnd s) || s.stop ≤ l.pos then [line]
      else line :: indentedLines s demands fuel l.spare l.pos

/-- Reads an indented block; blank lines at its end are no part of it. -/
def indented (c : Setting) (r : Reader) (columns i : Nat) : Step :=
  let lines := indentedLines c.source r.demands (c.source.stop + 1 - i) columns i
  let kept := (lines.reverse.dropWhile (·.2.1)).reverse
  let stop := (kept.getLast?.map (·.2.2)).getD (c.source.lineEnd i)
  (r.add (.code ⟨i, stop⟩ none (kept.flatMap (·.1))), stop)

/-- The text of a fenced block from a line on, where the block ends, and where the next begins. -/
def fencedLines (s : Source) (demands : List Prefix) (indent : Nat) (mark : Char) (n : Nat) :
    Nat → Nat → List Char × Nat × Nat
  | 0, i => ([], i, i)
  | fuel + 1, i =>
    if s.stop ≤ i then ([], i, i)
    else
      match Line.within? s demands i with
      | none => ([], i, i)
      | some l =>
        let l := (l.spaces s indent).2
        let (deep, close) := l.spaces s (4 - indent)
        match if deep then none else Mark.fenceClose? s mark n close.pos with
        | some stop => ([], stop, (s.blankLine? stop).getD stop)
        | none =>
          let next := s.lineEnd l.pos
          let (text, stop, last) := fencedLines s demands indent mark n fuel next
          (literalLine s l.spare l.pos next ++ text, stop, last)

def fenced (c : Setting) (r : Reader) (indent : Nat) (mark : Char) (n i : Nat) : Step :=
  let s := c.source
  let start := s.skipGap (i + n)
  let next := s.lineEnd start
  let info := unescape false (s.slice start (max start (s.runStart Source.isSpace next)))
  let (text, stop, last) := fencedLines s r.demands indent mark n (s.stop + 1 - i) next
  (r.add (.code ⟨i, stop⟩ (some info) text), last)

/-! ## Raw HTML -/

/-- The text of a raw block from a line on, where the block ends, and where the next begins.
`ends` says that a line is the last one; without it a blank line ends the block. -/
def rawLines (s : Source) (demands : List Prefix) (ends : Option (List Char)) :
    Nat → Nat → Nat → List Char × Nat × Nat
  | 0, _, i => ([], i, i)
  | fuel + 1, columns, i =>
    let next := s.lineEnd i
    let line := literalLine s columns i next
    match Line.within? s demands next with
    | none => (line, next, next)
    | some l =>
      let last :=
        match ends with
        | some text => (RawTag.behind? (s.upTo next) text i).isSome
        | none => l.atEnd s
      if last then (line, next, next)
      else if s.stop ≤ l.pos || (ends.isNone && (s.blankLine? l.pos).isSome) then
        (line, l.pos, next)
      else
        let (text, stop, after) := rawLines s demands ends fuel l.spare l.pos
        (line ++ text, stop, after)

def raw (c : Setting) (r : Reader) (ends : Option (List Char)) (columns i : Nat) : Step :=
  let (text, stop, next) := rawLines c.source r.demands ends (c.source.stop + 1 - i) columns i
  (r.add (.raw ⟨i, stop⟩ text), next)

/-! ## Tables -/

def cells (c : Setting) : Nat → Nat → List Cell × Nat
  | 0, i => ([], i)
  | fuel + 1, i =>
    let s := c.source
    let start := if s.isAt i '|' then i + 1 else i
    let content := s.skipGap start
    match s.lineBreak? content with
    | some n => ([], content + n)
    | none =>
      let line := readLine s c.dialect content true
      let (more, next) := cells c fuel line.next
      (⟨⟨start, line.next⟩, line.pieces.reverse⟩ :: more, next)

/-- A row with a number of cells: missing ones are empty, and further ones are dropped. -/
def row? (c : Setting) (width i : Nat) : Option (Row × Nat) :=
  let (found, next) := cells c (c.source.stop + 1 - i) i
  if found.isEmpty then none
  else
    let missing := List.replicate (width - found.length) ⟨⟨next, next⟩, []⟩
    some (⟨⟨i, next⟩, (found ++ missing).take width⟩, next)

def rows (c : Setting) (demands : List Prefix) (width : Nat) : Nat → Nat → List Row × Nat
  | 0, i => ([], i)
  | fuel + 1, i =>
    match Line.within? c.source demands i with
    | none => ([], i)
    | some l =>
      let l := l.skipSpaces c.source
      if interruptsPlain c.source true l.pos then ([], i)
      else
        match row? c width l.pos with
        | none => ([], i)
        | some (row, next) =>
          let (more, last) := rows c demands width fuel next
          (row :: more, last)

/-- Reads a table whose head stands at a position, and whose rows begin at another. -/
def table (c : Setting) (r : Reader) (alignments : List Mark.Alignment) (i body : Nat) : Step :=
  let width := alignments.length
  let head := ((row? c width i).map (·.1)).getD ⟨⟨i, i⟩, []⟩
  let (rows, next) := rows c r.demands width (c.source.stop + 1 - body) body
  (r.add (.table ⟨i, next⟩ alignments head rows), next)

/-! ## Paragraphs -/

/-- How a paragraph ends: as one, or with an underline as a heading, or as the head of a table. -/
inductive ParagraphEnd where
  | plain (next : Nat)
  | underlined (level next : Nat)
  | tableHead (alignments : List Mark.Alignment) (body : Nat)

/-- Adds the backslash that stands before a line break which is no part of the paragraph. -/
def keepSlash (s : Source) (pieces : List Piece) (lineBreak : Option Piece) : List Piece :=
  match lineBreak with
  | some p =>
    if p.atom == .hardBreak && s.isAt p.start '\\' then addText pieces p.start (p.start + 1)
    else pieces
  | none => pieces

/-- Reads the lines of a paragraph; the last piece comes first. -/
def paragraphLines (c : Setting) (demands : List Prefix) :
    Nat → Bool → List Piece → Nat → List Piece × ParagraphEnd
  | 0, _, pieces, i => (pieces, .plain i)
  | fuel + 1, first, pieces, i =>
    let s := c.source
    let line := readLine s c.dialect i false
    let head :=
      if first && 0 < line.pipes && line.lineBreak.isSome then
        tableBelow? s demands i line.next line.pipes line.lastPipe
      else none
    match head with
    | some (alignments, body) => ([], .tableHead alignments body)
    | none =>
      let pieces := line.pieces ++ pieces
      let (n, l) := Line.enter s demands (Line.start line.next)
      let inside := n == demands.length
      let (deep, l) := l.spaces s 4
      let underline := if inside && !deep then Mark.underline? s l.pos else none
      match underline with
      | some (level, next) => (keepSlash s pieces line.lineBreak, .underlined level next)
      | none =>
        let stops := !deep && interrupts c demands inside l.pos
        let l := l.skipSpaces s
        if stops || l.atEnd s then (keepSlash s pieces line.lineBreak, .plain line.next)
        else paragraphLines c demands fuel false (line.lineBreak.toList ++ pieces) l.pos

def paragraph (c : Setting) (r : Reader) (i : Nat) : Step :=
  let (pieces, last) :=
    paragraphLines c r.demands (c.source.stop + 1 - i) true r.task.toList i
  let r := { r with task := none }
  match last with
  | .plain next => (r.add (.paragraph ⟨i, next⟩ pieces.reverse), next)
  | .underlined level next => (r.add (.heading ⟨i, next⟩ level pieces.reverse), next)
  | .tableHead alignments body => table c r alignments i body

/-! ## Definitions of targets -/

/-- The position behind blanks in which at most one line may end, and whether one does. -/
def definitionGap? (c : Setting) (demands : List Prefix) (i : Nat) : Option (Nat × Nat) :=
  let s := c.source
  let j := s.skipGap i
  match s.lineBreak? j with
  | none => some (j, 0)
  | some n =>
    if n == 0 then none
    else
      match nextLine c demands (j + n) with
      | none => none
      | some k =>
        let k := s.skipGap k
        if (s.lineBreak? k).isSome then none else some (k, 1)

def definitionTitle? (c : Setting) (demands : List Prefix) (close : Char) :
    Nat → Nat → Option (List Char × Nat)
  | 0, _ => none
  | fuel + 1, i =>
    let s := c.source
    match s.at? i with
    | none => none
    | some d =>
      if d == close then some ([], i + 1)
      else if d == '(' && close == ')' then none
      else if Source.isBreak d then
        match nextLine c demands (i + (s.lineBreak? i).getD 1) with
        | none => none
        | some k =>
          let k := s.skipGap k
          if (s.blankLine? k).isSome then none
          else
            (definitionTitle? c demands close fuel k).map fun (text, stop) => ('\n' :: text, stop)
      else if d == '\\' then
        match s.at? (i + 1) with
        | some e =>
          if Source.isBreak e then
            (definitionTitle? c demands close fuel (i + 1)).map fun (text, stop) =>
              (d :: text, stop)
          else
            (definitionTitle? c demands close fuel (i + 2)).map fun (text, stop) =>
              (d :: e :: text, stop)
        | none => none
      else (definitionTitle? c demands close fuel (i + 1)).map fun (text, stop) => (d :: text, stop)

def definitionTarget? (c : Setting) (demands : List Prefix) (i : Nat) : Option (Target × Nat) := do
  let s := c.source
  let (start, _) ← definitionGap? c demands i
  let (text, stop) ← destination? s start
  if stop == start then none
  let bare : Target := { destination := unescape false text }
  let untitled := (s.blankLine? stop).map fun next => (bare, next)
  match definitionGap? c demands stop with
  | none => untitled
  | some (j, breaks) =>
    if j == stop then none
    else
      let titled := do
        let quote ← s.at? j
        let close ← closingQuote? quote
        let (title, after) ← definitionTitle? c demands close (s.stop + 1 - j) (j + 1)
        let next ← s.blankLine? after
        some ({ bare with title := unescape false title }, next)
      if breaks == 0 then titled else titled.or untitled

def definition? (c : Setting) (demands : List Prefix) (i : Nat) :
    Option (List Char × Target × Nat) := do
  let s := c.source
  if !s.isAt i '[' then none
  let (label, stop) ← Label.read? s (nextLine c demands) (i + 1)
  if !s.isAt stop ':' then none
  let (target, next) ← definitionTarget? c demands (stop + 1)
  some (label, target, next)

/-! ## Containers -/

/-- What opening the containers of a line ends with: the rest of the line, or an item whose line
holds nothing else. -/
inductive Opened where
  | rest (r : Reader) (l : Line)
  | lineDone (r : Reader) (next : Nat)

def openContainers (c : Setting) (lineStart : Nat) : Nat → Reader → Line → Opened
  | 0, r, l => .rest r l
  | fuel + 1, r, l =>
    let s := c.source
    let (outer, inner) := l.spacesUpTo s 4
    if 4 ≤ outer then .rest r l
    else
      match Mark.listMark? s outer inner with
      | some (mark, behind) =>
        let start := inner.pos - outer
        let r := (r.enterList start mark.mark mark.number).push (.item mark.indent) start
        match s.blankLine? behind.pos with
        | some next => .lineDone { r with emptyItem := some next } next
        | none =>
          match if c.dialect.tasks then Mark.taskMark? s behind else none with
          | none => openContainers c lineStart fuel r behind
          | some (done, afterMark) =>
            match s.blankLine? afterMark.pos with
            | some next =>
              .lineDone { r.add (.task ⟨behind.pos, afterMark.pos⟩ done) with
                emptyItem := some next } next
            | none =>
              openContainers c lineStart fuel
                { r with task := some ⟨behind.pos, afterMark.pos, .task done⟩ } afterMark
      | none =>
        match inner.quoteMark? s with
        | some behind =>
          openContainers c lineStart fuel ((r.closeList lineStart).push .quote inner.pos) behind
        | none => .rest r l

/-! ## Whole documents -/

/-- Reads the leaf that begins on the rest of a line.  A list before a paragraph ends where the
text of the paragraph begins, and before any other leaf with its last line. -/
def leaf (c : Setting) (r : Reader) (lineStart : Nat) (l : Line) : Step :=
  let s := c.source
  let columns := l.spare
  let (indent, l) := l.spacesUpTo s 4
  let i := l.pos
  let outer := r
  let r := outer.closeList lineStart
  if indent == 4 then indented c r l.spare i
  else
    let rawEnd :=
      if s.isAt i '<' then
        match Mark.rawKind? s i with
        | some text => some (some text)
        | none =>
          if Mark.isBlockTag s i ||
              ((RawTag.tagEnd? s RawTag.oneLine i).bind s.blankLine?).isSome then some none
          else none
      else none
    match rawEnd with
    | some ends => raw c r ends (max columns indent) i
    | none =>
      match Mark.ruleEnd? s i with
      | some stop => (r.add (.rule ⟨i, stop⟩), stop)
      | none =>
        match Mark.headingLevel? s i with
        | some level => heading c r i level
        | none =>
          match Mark.fence? s i with
          | some (mark, n) => fenced c r indent mark n i
          | none =>
            match definition? c r.demands i with
            | some (label, target, next) =>
              ({ r with targets := r.targets ++ [(label, target)] }, next)
            | none => paragraph c (outer.closeList i) i

def block (c : Setting) (r : Reader) (i : Nat) : Step :=
  let s := c.source
  let (n, l) := Line.enter s r.demands (Line.start i)
  match openContainers c i (s.stop + 1 - i) (r.popTo n i) l with
  | .lineDone r next => (r, next)
  | .rest r l =>
    match s.blankLine? l.pos with
    | some next => (r.blankLine, next)
    | none => leaf c r i l

def blocks (c : Setting) : Nat → Reader → Nat → Reader
  | 0, r, _ => r
  | fuel + 1, r, i =>
    if c.source.stop ≤ i then r.popTo 0 i
    else
      let (r, next) := block c r i
      blocks c fuel r next

end Reading

def Document.read (s : Source) (d : Dialect) : Document :=
  let r := Reading.blocks ⟨s, d⟩ (s.stop + 1) {} 0
  ⟨r.roots.reverse, r.targets⟩

end Markdown
end RenderForest
