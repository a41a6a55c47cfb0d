import RenderForest.Markdown.Emphasis
import RenderForest.Markdown.RawTag
/-!
# Inline — what the pieces of a text are

Code spans, raw tags and autolinks are found first, and links as their brackets close; the runs of
delimiters between them are paired last.  This file defines:

* `Inline.Place`, where a text stands;
* `Inline.codeSpan`, `Inline.autolink?` and `Inline.inlineTarget?`;
* `Inline.resolve`, the trees of pieces.
-/

namespace RenderForest
namespace Markdown
namespace Inline

/-- Where a text stands, and what it may refer to. -/
structure Place where
  /-- The source up to the end of the block. -/
  source : Source
  demands : List Prefix
  targets : Targets
  inTable : Bool := false

/-- The position behind the marks of the containers on the line that starts at a position. -/
def Place.skipMarks (p : Place) (i : Nat) : Nat :=
  (Line.behind p.source p.demands i).pos

/-! ## Code spans -/

/-- The text of a code span: a line break counts as a space, and in a table a backslash before a
pipe is dropped. -/
def codeText (p : Place) (stop : Nat) : Nat → Nat → List Char
  | 0, _ => []
  | fuel + 1, i =>
    if stop ≤ i then []
    else
      match p.source.at? i with
      | none => []
      | some c =>
        if Source.isBreak c then
          ' ' :: codeText p stop fuel (p.skipMarks (i + (p.source.lineBreak? i).getD 1))
        else if p.inTable && c == '\\' && p.source.isAt (i + 1) '|' then
          '|' :: codeText p stop fuel (i + 2)
        else c :: codeText p stop fuel (i + 1)

/-- Drops one space at both ends, if both are there and other characters too. -/
def trimCode (text : List Char) : List Char :=
  if text.head? == some ' ' && text.getLast? == some ' ' && !text.all (· == ' ') then
    text.tail.dropLast
  else text

def codeSpan (p : Place) (start stop : Nat) : String :=
  String.ofList (trimCode (codeText p stop (stop - start + 1) start))

/-- The pieces behind the next run of backticks of a length, with that run. -/
def closingTicks? (count : Nat) : List Piece → Option (Piece × List Piece)
  | [] => none
  | q :: rest =>
    match q.atom with
    | .ticks _ => if q.stop - q.start == count then some (q, rest) else closingTicks? count rest
    | _ => closingTicks? count rest

/-! ## Autolinks -/

def uriEnd? (s : Source) (i : Nat) : Option Nat :=
  let colon := s.runEnd (fun c => c.isAlphanum || c == '.' || c == '-' || c == '+') i
  let length := colon - i
  if s.holds i Char.isAlpha && s.isAt colon ':' && 2 ≤ length && length ≤ 32 then
    let stop := s.runEnd (fun c => 32 < c.toNat && c != '<' && c != '>') colon
    if s.isAt stop '>' then some stop else none
  else none

/-- Whether a character may stand before the at sign of an address. -/
def isLocal (c : Char) : Bool :=
  c.isAlphanum || ".!#$%&'*+/=?^_`\x7b|\x7d~-".toList.contains c

def domainEnd? (s : Source) : Nat → Nat → Option Nat
  | 0, _ => none
  | fuel + 1, i =>
    let stop := s.runEnd (fun c => c.isAlphanum || c == '-') i
    let length := stop - i
    if length == 0 || 63 < length || s.isAt i '-' || s.isAt (stop - 1) '-' then none
    else if s.isAt stop '>' then some stop
    else if s.isAt stop '.' then domainEnd? s fuel (stop + 1)
    else none

def addressEnd? (s : Source) (i : Nat) : Option Nat :=
  let sign := s.runEnd isLocal i
  if i < sign && s.isAt sign '@' then domainEnd? s (s.stop + 1 - sign) (sign + 1) else none

def autolinkEnd? (s : Source) (i : Nat) : Option Nat :=
  (uriEnd? s i).or (addressEnd? s i)

/-! ## Links -/

/-- The position behind blanks in which at most one line may end. -/
def skipBlanks (p : Place) (i : Nat) : Nat :=
  let s := p.source
  let j := s.skipGap i
  match s.lineBreak? j with
  | some n => if n == 0 then j else s.skipGap (p.skipMarks (j + n))
  | none => j

def titleText? (p : Place) (quote close : Char) : Nat → Nat → Option (List Char × Nat)
  | 0, _ => none
  | fuel + 1, i =>
    let s := p.source
    let goOn (text : List Char) (next : Nat) : Option (List Char × Nat) :=
      (titleText? p quote close fuel next).map fun (more, stop) => (text ++ more, stop)
    match s.at? i with
    | none => none
    | some c =>
      if c == close then some ([], i + 1)
      else if c == quote then none
      else if Source.isBreak c then
        goOn ['\n'] (s.skipGap (p.skipMarks (i + (s.lineBreak? i).getD 1)))
      else if c == '&' then
        match s.reference? i with
        | some (text, stop) => goOn text stop
        | none => goOn ['&'] (i + 1)
      else if c == '\\' && p.inTable && s.startsWith (i + 1) ['\\', '|'] then goOn ['|'] (i + 3)
      else if c == '\\' then
        match s.at? (i + 1) with
        | some d => if Text.isAsciiPunctuation d then goOn [d] (i + 2) else goOn [c] (i + 1)
        | none => none
      else goOn [c] (i + 1)

def title? (p : Place) (i : Nat) : Option (List Char × Nat) := do
  let quote ← p.source.at? i
  let close ← closingQuote? quote
  titleText? p quote close (p.source.stop + 1 - i) (i + 1)

def inlineTarget? (p : Place) (i : Nat) : Option (Target × Nat) := do
  let s := p.source
  if !s.isAt i '(' then none
  let (text, j) ← destination? s (skipBlanks p (i + 1))
  let destination := unescape p.inTable text
  let j := skipBlanks p j
  let (title, j) :=
    match title? p j with
    | some (title, k) => (title, skipBlanks p k)
    | none => ([], j)
  if s.isAt j ')' then some (⟨destination, String.ofList title⟩, j + 1) else none

def label? (p : Place) (i : Nat) : Option (List Char × Nat) :=
  if p.source.isAt i '[' then Label.read? p.source (fun j => some (p.skipMarks j)) (i + 1)
  else none

/-! ## Reading the pieces -/

/-- A bracket that may open a link or an image. -/
structure Bracket where
  start : Nat
  stop : Nat
  image : Bool
  /-- Whether it lies outside every link that has been found. -/
  live : Bool := true

/-- What has been read: parts, and brackets that are still open. -/
inductive Item where
  | part (p : Part)
  | bracket (b : Bracket)

/-- What has been read, and the positions of closing brackets that were tried as the end of a
reference. -/
structure State where
  /-- The last item comes first. -/
  items : List Item := []
  tried : List Nat := []

def State.tree (k : State) (t : Tree) : State :=
  { k with items := .part (.tree t) :: k.items }

/-- The part of an item; a bracket is text. -/
def Item.toPart (s : Source) : Item → Part
  | .part p => p
  | .bracket b => .tree (textLeaf s b.start b.stop)

def dropTo (i : Nat) : List Piece → List Piece
  | [] => []
  | q :: rest => if q.stop ≤ i then dropTo i rest else { q with start := max q.start i } :: rest

/-- The pieces from the one that covers a position on. -/
def skipTo (i : Nat) : List Piece → List Piece
  | [] => []
  | q :: rest => if q.stop ≤ i then skipTo i rest else q :: rest

/-- The items behind the last open bracket, the last first, with the bracket and the items before
it. -/
def lastBracket? : List Item → Option (List Item × Bracket × List Item)
  | [] => none
  | .bracket b :: rest => some ([], b, rest)
  | .part p :: rest =>
    (lastBracket? rest).map fun (inner, b, outer) => (.part p :: inner, b, outer)

/-- What a reference refers to: its target, where it ends, and the pieces behind it. -/
structure Found where
  target : Target
  stop : Nat
  rest : List Piece

/-- The reference behind a closing bracket, with the position at which a bracket was tried. -/
def reference? (p : Place) (tried : List Nat) (b : Bracket) (close : Piece) (rest : List Piece) :
    Option Found × Option Nat :=
  let shortcut (after : List Piece) : Option Found :=
    if tried.contains close.start then none
    else
      match label? { p with source := p.source.upTo close.stop } (b.stop - 1) with
      | some (label, stop) =>
        if stop == close.stop then
          (p.targets.lookup label).map fun target => { target, stop, rest := after }
        else none
      | none => none
  match rest with
  | [] => (shortcut [], none)
  | q :: more =>
    if p.source.startsWith q.start ['[', ']'] then (shortcut more.tail, none)
    else
      match label? p q.start with
      | none => (shortcut rest, none)
      | some (label, stop) =>
        match skipTo (stop - 1) rest with
        | [] => (none, none)
        | last :: after =>
          ((p.targets.lookup label).map fun target => { target, stop, rest := after },
            some last.start)

def Item.disable : Item → Item
  | .bracket b => .bracket (if b.image then b else { b with live := false })
  | i => i

def link (p : Place) (k : State) (inner outer : List Item) (b : Bracket) (found : Found) : State :=
  let children := Emphasis.resolve p.source (inner.reverse.map (Item.toPart p.source))
  let tag := if b.image then Tag.image found.target else Tag.link found.target
  let outer := if b.image then outer else outer.map Item.disable
  { k with items := .part (.tree (.node tag ⟨b.start, found.stop⟩ children)) :: outer }

def closeBracket (p : Place) (k : State) (close : Piece) (rest : List Piece) :
    State × List Piece :=
  let text := textLeaf p.source close.start close.stop
  match lastBracket? k.items with
  | none => (k.tree text, rest)
  | some (inner, b, outer) =>
    let opened := Item.part (.tree (textLeaf p.source b.start b.stop))
    let plain := { k with items := inner ++ opened :: outer }.tree text
    if !b.live then (plain, rest)
    else
      match inlineTarget? p close.stop with
      | some (target, stop) =>
        let found : Found := { target, stop, rest := dropTo stop rest }
        (link p k inner outer b found, found.rest)
      | none =>
        match reference? p k.tried b close rest with
        | (some found, tried) =>
          ({ link p k inner outer b found with tried := tried.toList ++ k.tried }, found.rest)
        | (none, tried) => ({ plain with tried := tried.toList ++ k.tried }, rest)

def angle (p : Place) (k : State) (q : Piece) (rest : List Piece) : State × List Piece :=
  let s := p.source
  let plain := (k.tree (textLeaf s q.start q.stop), rest)
  match rest with
  | [] => plain
  | next :: _ =>
    let i := next.start
    match autolinkEnd? s i with
    | some stop =>
      let target : Target := { destination := s.text i stop }
      (k.tree (.node (.link target) ⟨q.start, stop + 1⟩ [textLeaf s (q.start + 1) stop]),
        dropTo (stop + 1) rest)
    | none =>
      let markup (stop : Nat) (text : String) : State × List Piece :=
        (k.tree (.leaf (.inlineRaw text) ⟨q.start, stop⟩), dropTo stop rest)
      match RawTag.otherEnd? s (i - 1) with
      | some stop => markup stop (s.text q.start stop)
      | none =>
        match RawTag.tagEnd? s (fun j => some (p.skipMarks j)) (i - 1) with
        | some stop =>
          markup stop (String.ofList
            (RawTag.joinLines s p.skipMarks stop (stop - q.start + 1) q.start))
        | none => plain

def ticks (p : Place) (k : State) (q : Piece) (escaped : Bool) (rest : List Piece) :
    State × List Piece :=
  let s := p.source
  let start := if escaped then q.start + 1 else q.start
  let plain := (k.tree (textLeaf s q.start q.stop), rest)
  if q.stop ≤ start then plain
  else
    match closingTicks? (q.stop - start) rest with
    | none => plain
    | some (close, after) =>
      let k := if escaped then k.tree (textLeaf s q.start start) else k
      (k.tree (.leaf (.code (codeSpan p q.stop close.start)) ⟨start, close.stop⟩), after)

/-- Reads the first of some pieces; gives the pieces that follow. -/
def step (p : Place) (k : State) (q : Piece) (rest : List Piece) : State × List Piece :=
  let s := p.source
  let extent : Extent := ⟨q.start, q.stop⟩
  match q.atom with
  | .text => (k.tree (textLeaf s q.start q.stop), rest)
  | .decoded text => (k.tree (.leaf (.text (String.ofList text)) extent), rest)
  | .run mark opens closes =>
    ({ k with items := .part (.run mark q.start (q.stop - q.start) opens closes) :: k.items }, rest)
  | .ticks escaped => ticks p k q escaped rest
  | .angle => angle p k q rest
  | .openBracket image =>
    ({ k with items := .bracket { start := q.start, stop := q.stop, image } :: k.items }, rest)
  | .closeBracket => closeBracket p k q rest
  | .softBreak => (k.tree (.leaf .softBreak extent), rest)
  | .hardBreak => (k.tree (.leaf .hardBreak extent), rest)
  | .task done => (k.tree (.leaf (.task done) extent), rest)

/-- Reads pieces; the fuel bounds their number. -/
def steps (p : Place) : Nat → State → List Piece → State
  | 0, k, _ => k
  | _, k, [] => k
  | fuel + 1, k, q :: rest =>
    let (k, rest) := step p k q rest
    steps p fuel k rest

def resolve (p : Place) (pieces : List Piece) : List Tree :=
  let k := steps p pieces.length {} pieces
  Emphasis.resolve p.source (k.items.reverse.map (Item.toPart p.source))

end Inline
end Markdown
end RenderForest
