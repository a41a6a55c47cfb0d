import RenderForest.Markdown.Event
/-!
# Scope — where the events of a document may stand

The events of a document are matched starts and ends.  Blocks stand at the top or in quotes, lists
and items; inline content stands in paragraphs, headings and table cells, or directly in an item;
code and raw blocks hold nothing but text.  Inline content that stands directly in an item goes on
until a block or the end of the item, and that block is no table.  This file defines:

* `Container`, `TextBlock`, `LiteralBlock`, `TableRow` and `Span`, the tags by what they may hold;
* `Spot` and `Scope`, where an event stands;
* `Scope.Follows`, that an event may stand in a scope, and the scope behind it;
* `Scope.Path`, the same of a sequence of events;
* `WellNested`, that a sequence of events may be that of a document;
* `tightDocument`, a document with a tight item and a table.
-/

namespace RenderForest
namespace Markdown

/-! ## Tags by what they hold -/

/-- Blocks that hold blocks. -/
inductive Container where
  | quote
  | list (number : Option Nat)
  | item
  deriving DecidableEq, Repr

/-- Blocks that hold inline content, cells apart. -/
inductive TextBlock where
  | paragraph
  | heading (level : Nat)
  deriving DecidableEq, Repr

/-- Blocks that hold text as it is. -/
inductive LiteralBlock where
  | code (info : Option String)
  | raw
  deriving DecidableEq, Repr

inductive TableRow where
  | head
  | body
  deriving DecidableEq, Repr

/-- Inline content that holds inline content. -/
inductive Span where
  | emphasis
  | strong
  | strikethrough
  | link (target : Target)
  | image (target : Target)
  deriving DecidableEq, Repr

def Container.toTag : Container → Tag
  | .quote => .quote
  | .list number => .list number
  | .item => .item

def TextBlock.toTag : TextBlock → Tag
  | .paragraph => .paragraph
  | .heading level => .heading level

def LiteralBlock.toTag : LiteralBlock → Tag
  | .code info => .code info
  | .raw => .raw

def TableRow.toTag : TableRow → Tag
  | .head => .tableHead
  | .body => .tableRow

def Span.toTag : Span → Tag
  | .emphasis => .emphasis
  | .strong => .strong
  | .strikethrough => .strikethrough
  | .link target => .link target
  | .image target => .image target

def Span.isImage : Span → Bool
  | .image _ => true
  | _ => false

def Leaf.isInline : Leaf → Bool
  | .text _ => true
  | .code _ => true
  | .inlineRaw _ => true
  | .softBreak => true
  | .hardBreak => true
  | .task _ => true
  | .raw _ => false
  | .rule => false

def Leaf.isLiteral : Leaf → Bool
  | .text _ => true
  | .raw _ => true
  | _ => false

/-! ## Scopes -/

/-- Where an event stands in the innermost container. -/
inductive Spot where
  /-- Between blocks. -/
  | blocks
  /-- In inline content that stands directly in an item. -/
  | run
  | text (block : TextBlock)
  | literal (block : LiteralBlock)
  | table (alignments : List Mark.Alignment)
  | row (alignments : List Mark.Alignment) (row : TableRow)
  | cell (alignments : List Mark.Alignment) (row : TableRow)
  deriving DecidableEq, Repr

def Spot.isInline : Spot → Bool
  | .run => true
  | .text _ => true
  | .cell _ _ => true
  | _ => false

/-- A block may start, a table apart, and the container may end. -/
def Spot.takesBlocks : Spot → Bool
  | .blocks => true
  | .run => true
  | _ => false

/-- The containers that are open, the spot in the innermost one, and the spans that are open
there; of both the innermost comes first. -/
structure Scope where
  containers : List Container := []
  spot : Spot := .blocks
  spans : List Span := []
  deriving DecidableEq, Repr

namespace Scope

/-- Inline content may stand in a scope: where it stands already, or directly in an item. -/
inductive Gathers : Scope → Scope → Prop where
  | more {s : Scope} : s.spot.isInline = true → Gathers s s
  | first {cs : List Container} : Gathers ⟨.item :: cs, .blocks, []⟩ ⟨.item :: cs, .run, []⟩

/-- An event may stand in a scope and leads to another. -/
inductive Follows : Scope → Event → Scope → Prop where
  | container {cs : List Container} {p : Spot} {e : Extent} (c : Container) :
      p.takesBlocks = true → Follows ⟨cs, p, []⟩ (.start c.toTag e) ⟨c :: cs, .blocks, []⟩
  | containerEnd {cs : List Container} {p : Spot} (c : Container) :
      p.takesBlocks = true → Follows ⟨c :: cs, p, []⟩ (.stop c.toTag) ⟨cs, .blocks, []⟩
  | text {cs : List Container} {p : Spot} {e : Extent} (b : TextBlock) :
      p.takesBlocks = true → Follows ⟨cs, p, []⟩ (.start b.toTag e) ⟨cs, .text b, []⟩
  | textEnd {cs : List Container} (b : TextBlock) :
      Follows ⟨cs, .text b, []⟩ (.stop b.toTag) ⟨cs, .blocks, []⟩
  | literal {cs : List Container} {p : Spot} {e : Extent} (b : LiteralBlock) :
      p.takesBlocks = true → Follows ⟨cs, p, []⟩ (.start b.toTag e) ⟨cs, .literal b, []⟩
  | literalLeaf {cs : List Container} {e : Extent} (b : LiteralBlock) {l : Leaf} :
      l.isLiteral = true → Follows ⟨cs, .literal b, []⟩ (.leaf l e) ⟨cs, .literal b, []⟩
  | literalEnd {cs : List Container} (b : LiteralBlock) :
      Follows ⟨cs, .literal b, []⟩ (.stop b.toTag) ⟨cs, .blocks, []⟩
  | rule {cs : List Container} {p : Spot} {e : Extent} :
      p.takesBlocks = true → Follows ⟨cs, p, []⟩ (.leaf .rule e) ⟨cs, .blocks, []⟩
  | table {cs : List Container} {e : Extent} (alignments : List Mark.Alignment) :
      Follows ⟨cs, .blocks, []⟩ (.start (.table alignments) e) ⟨cs, .table alignments, []⟩
  | tableEnd {cs : List Container} (alignments : List Mark.Alignment) :
      Follows ⟨cs, .table alignments, []⟩ (.stop (.table alignments)) ⟨cs, .blocks, []⟩
  | row {cs : List Container} {e : Extent} {alignments : List Mark.Alignment} (r : TableRow) :
      Follows ⟨cs, .table alignments, []⟩ (.start r.toTag e) ⟨cs, .row alignments r, []⟩
  | rowEnd {cs : List Container} {alignments : List Mark.Alignment} (r : TableRow) :
      Follows ⟨cs, .row alignments r, []⟩ (.stop r.toTag) ⟨cs, .table alignments, []⟩
  | cell {cs : List Container} {e : Extent} {alignments : List Mark.Alignment} (r : TableRow) :
      Follows ⟨cs, .row alignments r, []⟩ (.start .tableCell e) ⟨cs, .cell alignments r, []⟩
  | cellEnd {cs : List Container} {alignments : List Mark.Alignment} (r : TableRow) :
      Follows ⟨cs, .cell alignments r, []⟩ (.stop .tableCell) ⟨cs, .row alignments r, []⟩
  | inline {s s' : Scope} {e : Extent} {l : Leaf} :
      l.isInline = true → Gathers s s' → Follows s (.leaf l e) s'
  | span {s s' : Scope} {e : Extent} (span : Span) :
      Gathers s s' → Follows s (.start span.toTag e) { s' with spans := span :: s'.spans }
  | spanEnd {cs : List Container} {p : Spot} {spans : List Span} (span : Span) :
      Follows ⟨cs, p, span :: spans⟩ (.stop span.toTag) ⟨cs, p, spans⟩

/-- Events may stand in a scope, one after another, and lead to another. -/
inductive Path : Scope → List Event → Scope → Prop where
  | nil (s : Scope) : Path s [] s
  | cons {s s' s'' : Scope} {e : Event} {events : List Event} :
      Follows s e s' → Path s' events s'' → Path s (e :: events) s''

end Scope

/-- A sequence of events may be that of a document. -/
def WellNested (events : List Event) : Prop :=
  Scope.Path {} events {}

/-- The events of the text

```
- a *b* ![c
  ![d](v)](u)
  ```
  e
  ```

|f|
|-|
|g|
```
-/
def tightDocument : List Event :=
  let u : Target := { destination := "u", title := "" }
  let v : Target := { destination := "v", title := "" }
  [.start (.list none) ⟨0, 43⟩, .start .item ⟨0, 43⟩,
   .leaf (.text "a ") ⟨2, 4⟩,
   .start .emphasis ⟨4, 7⟩, .leaf (.text "b") ⟨5, 6⟩, .stop .emphasis,
   .leaf (.text " ") ⟨7, 8⟩,
   .start (.image u) ⟨8, 25⟩, .leaf (.text "c") ⟨10, 11⟩, .leaf .softBreak ⟨11, 12⟩,
   .start (.image v) ⟨14, 21⟩, .leaf (.text "d") ⟨16, 17⟩, .stop (.image v), .stop (.image u),
   .start (.code (some "")) ⟨28, 41⟩, .leaf (.text "e\n") ⟨28, 41⟩, .stop (.code (some "")),
   .stop .item, .stop (.list none),
   .start (.table [.none]) ⟨43, 55⟩,
   .start .tableHead ⟨43, 47⟩,
   .start .tableCell ⟨44, 45⟩, .leaf (.text "f") ⟨44, 45⟩, .stop .tableCell,
   .stop .tableHead,
   .start .tableRow ⟨51, 55⟩,
   .start .tableCell ⟨52, 53⟩, .leaf (.text "g") ⟨52, 53⟩, .stop .tableCell,
   .stop .tableRow,
   .stop (.table [.none])]

theorem wellNested_tightDocument : WellNested tightDocument := by
  refine .cons (.container (.list none) rfl) (.cons (.container .item rfl) ?_)
  -- The inline content of the item starts with its first text.
  refine .cons (.inline rfl .first) ?_
  refine .cons (.span .emphasis (.more rfl)) (.cons (.inline rfl (.more rfl)) ?_)
  refine .cons (.spanEnd .emphasis) (.cons (.inline rfl (.more rfl)) ?_)
  refine .cons (.span (.image _) (.more rfl)) (.cons (.inline rfl (.more rfl)) ?_)
  refine .cons (.inline rfl (.more rfl)) (.cons (.span (.image _) (.more rfl)) ?_)
  refine .cons (.inline rfl (.more rfl)) (.cons (.spanEnd (.image _)) ?_)
  refine .cons (.spanEnd (.image _)) ?_
  refine .cons (.literal (.code (some "")) rfl) (.cons (.literalLeaf (.code (some "")) rfl) ?_)
  refine .cons (.literalEnd (.code (some ""))) ?_
  refine .cons (.containerEnd .item rfl) (.cons (.containerEnd (.list none) rfl) ?_)
  refine .cons (.table _) (.cons (.row .head) (.cons (.cell _) ?_))
  refine .cons (.inline rfl (.more rfl)) (.cons (.cellEnd _) (.cons (.rowEnd .head) ?_))
  refine .cons (.row .body) (.cons (.cell _) (.cons (.inline rfl (.more rfl)) ?_))
  exact .cons (.cellEnd _) (.cons (.rowEnd .body) (.cons (.tableEnd _) (.nil _)))

end Markdown
end RenderForest
