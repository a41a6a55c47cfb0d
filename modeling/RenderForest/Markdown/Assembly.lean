import RenderForest.Markdown.Document
import RenderForest.Source.LineMap
import RenderForest.Stream.Token
/-!
# Assembly — the token stream of a document

Block tokens know the lines that they cover; the inline content of a paragraph, a heading or a
table cell stands inside one token.  Where inline content stands in a tight item without a
paragraph, a hidden paragraph is put around it.  This file defines:

* `InlineGroup`, the inline content that is being gathered;
* `Assembly` and `Assembly.step`, which takes in one event;
* `Assembly.finish`, the tokens;
* `tokenize`, the token stream of a Markdown text.
-/

namespace RenderForest
namespace Markdown

/-! ## State -/

/-- Inline content that is being gathered. -/
structure InlineGroup where
  /-- The tokens, the last first. -/
  tokens : List Token := []
  /-- The bytes that the events have covered. -/
  extent : Option Extent := none
  /-- The number of inline tokens that are open. -/
  level : Int := 0
  /-- Whether the paragraph around the content is a hidden one. -/
  implicit : Bool

structure Assembly where
  lines : LineMap
  source : List Char
  /-- The finished tokens, the last first. -/
  tokens : List Token := []
  level : Int := 0
  group : Option InlineGroup := none
  /-- The images that are open, the innermost first. -/
  images : List Token := []
  /-- The code or raw block that is open. -/
  literal : Option Token := none
  alignments : List Mark.Alignment := []
  cell : Nat := 0
  inHead : Bool := false
  bodyOpen : Bool := false

namespace Assembly

def lineSpan (a : Assembly) (e : Extent) : Nat × Nat :=
  a.lines.span e.start e.stop

def dropBytes : Nat → List Char → List Char
  | _, [] => []
  | 0, s => s
  | n, c :: s => dropBytes (n - c.utf8Size) s

def takeBytes : Nat → List Char → List Char
  | _, [] => []
  | 0, _ => []
  | n, c :: s => c :: takeBytes (n - c.utf8Size) s

/-- The source text of a range of bytes without the blanks at its ends. -/
def excerpt (a : Assembly) (e : Extent) : String :=
  String.ofList (Text.trim (takeBytes (e.stop - e.start) (dropBytes e.start a.source)))

/-! ## Block tokens -/

def levelBehind (level : Int) : Nesting → Int
  | .opening => level + 1
  | .closing => level - 1
  | .selfClosing => level

/-- The level of a token itself: that of a closing token is the level of its opening one. -/
def levelOf (level : Int) : Nesting → Int
  | .closing => level - 1
  | _ => level

def block (a : Assembly) (t : Token) (map : Option (Nat × Nat)) : Assembly :=
  { a with
    tokens := { t with level := levelOf a.level t.nesting, map, block := true } :: a.tokens,
    level := levelBehind a.level t.nesting }

def openBlock (a : Assembly) (kind tag : String) (e : Extent) : Assembly :=
  a.block { kind, tag, nesting := .opening } (some (a.lineSpan e))

def closeBlock (a : Assembly) (kind tag : String) : Assembly :=
  a.block { kind, tag, nesting := .closing } none

/-! ## Inline tokens -/

def openGroup (a : Assembly) (implicit : Bool) : Assembly :=
  { a with group := some { implicit } }

/-- Ends the inline content, which becomes one token. -/
def closeGroup (a : Assembly) : Assembly :=
  match a.group with
  | none => a
  | some g =>
    let t : Token :=
      { kind := "inline", level := a.level, block := true,
        content := (g.extent.map a.excerpt).getD "",
        map := g.extent.map a.lineSpan,
        children := some g.tokens.reverse }
    { a with tokens := t :: a.tokens, group := none }

/-- Ends the inline content of a hidden paragraph, and the paragraph. -/
def closeImplicit (a : Assembly) : Assembly :=
  match a.group with
  | some g =>
    if g.implicit then
      a.closeGroup.block { kind := "paragraph_close", tag := "p", nesting := .closing,
                           hidden := true } none
    else a
  | none => a

/-- Begins a hidden paragraph if no inline content is being gathered. -/
def ensureGroup (a : Assembly) (e : Extent) : Assembly :=
  match a.group with
  | some _ => a
  | none =>
    (a.block { kind := "paragraph_open", tag := "p", nesting := .opening, hidden := true }
      (some (a.lineSpan e))).openGroup true

/-- Adds a token behind others, the last of which comes first; two texts become one. -/
def addInline (t : Token) : List Token → List Token
  | [] => [t]
  | last :: rest =>
    if t.kind == "text" && last.kind == "text" then
      { last with content := last.content ++ t.content } :: rest
    else t :: last :: rest

def InlineGroup.push (g : InlineGroup) (t : Token) : InlineGroup :=
  { g with
    tokens := addInline { t with level := levelOf g.level t.nesting } g.tokens,
    level := levelBehind g.level t.nesting }

/-- Adds an inline token to the innermost open image, or else to the inline content. -/
def pushInline (a : Assembly) (t : Token) : Assembly :=
  match a.images with
  | image :: rest =>
    { a with images := { image with children := some (image.inner ++ [t]) } :: rest }
  | [] => { a with group := a.group.map fun g => InlineGroup.push g t }

def joinExtents (a b : Extent) : Extent :=
  ⟨min a.start b.start, max a.stop b.stop⟩

/-- Widens the range that the inline content covers. -/
def cover (a : Assembly) (e : Extent) : Assembly :=
  { a with group := a.group.map fun g =>
      { g with extent := some ((g.extent.map fun seen => joinExtents seen e).getD e) } }

def inlineToken (a : Assembly) (t : Token) (e : Extent) : Assembly :=
  ((a.ensureGroup e).cover e).pushInline t

/-! ## Starts -/

def headingTag (level : Nat) : String :=
  "h" ++ toString level

/-- Tags that do not start with an h are not those of headings. -/
theorem headingTag_bne (level : Nat) (tag : String) (h : tag.toList.head? ≠ some 'h') :
    (headingTag level != tag) = true := by
  rw [bne_iff_ne]
  rintro rfl
  exact h (by simp [headingTag])

def alignmentStyle? : Mark.Alignment → Option String
  | .none => none
  | .left => some "text-align:left"
  | .center => some "text-align:center"
  | .right => some "text-align:right"

def withTitle (t : Token) (target : Target) : Token :=
  if target.title.isEmpty then t else t.setAttr "title" target.title

def openLiteral (a : Assembly) (t : Token) (e : Extent) : Assembly :=
  let a := a.closeImplicit
  { a with literal := some { t with map := some (a.lineSpan e) } }

def start (a : Assembly) (tag : Tag) (e : Extent) : Assembly :=
  let map := some (a.lineSpan e)
  match tag with
  | .paragraph => (a.closeImplicit.openBlock "paragraph_open" "p" e).openGroup false
  | .heading level =>
    (a.closeImplicit.block
      { kind := "heading_open", tag := headingTag level, nesting := .opening,
        markup := String.ofList (List.replicate level '#') } map).openGroup false
  | .quote =>
    a.closeImplicit.block
      { kind := "blockquote_open", tag := "blockquote", nesting := .opening, markup := ">" } map
  | .code (some info) =>
    a.openLiteral { kind := "fence", tag := "code", info, markup := "```" } e
  | .code none => a.openLiteral { kind := "code_block", tag := "code" } e
  | .raw => a.openLiteral { kind := "html_block" } e
  | .list (some number) =>
    let t : Token := { kind := "ordered_list_open", tag := "ol", nesting := .opening }
    a.closeImplicit.block (if number == 1 then t else t.setAttr "start" (toString number)) map
  | .list none => a.closeImplicit.openBlock "bullet_list_open" "ul" e
  | .item => a.closeImplicit.openBlock "list_item_open" "li" e
  | .table alignments =>
    { a with alignments, bodyOpen := false }.openBlock "table_open" "table" e
  | .tableHead =>
    ({ a with inHead := true, cell := 0 }.openBlock "thead_open" "thead" e).openBlock
      "tr_open" "tr" e
  | .tableRow =>
    let a := if a.bodyOpen then a else { a with bodyOpen := true }.openBlock "tbody_open" "tbody" e
    { a with cell := 0 }.openBlock "tr_open" "tr" e
  | .tableCell =>
    let t : Token :=
      if a.inHead then { kind := "th_open", tag := "th", nesting := .opening }
      else { kind := "td_open", tag := "td", nesting := .opening }
    let style := (a.alignments[a.cell]?).bind alignmentStyle?
    let t := (style.map (t.setAttr "style")).getD t
    (a.block t map).openGroup false
  | .emphasis =>
    a.inlineToken { kind := "em_open", tag := "em", nesting := .opening, markup := "*" } e
  | .strong =>
    a.inlineToken { kind := "strong_open", tag := "strong", nesting := .opening, markup := "**" } e
  | .strikethrough =>
    a.inlineToken { kind := "s_open", tag := "s", nesting := .opening, markup := "~~" } e
  | .link target =>
    let t : Token := { kind := "link_open", tag := "a", nesting := .opening }
    a.inlineToken (withTitle (t.setAttr "href" target.destination) target) e
  | .image target =>
    let t : Token := { kind := "image", tag := "img", children := some [] }
    let t := withTitle ((t.setAttr "src" target.destination).setAttr "alt" "") target
    let a := a.ensureGroup e
    { a with images := t :: a.images }

/-! ## Ends -/

def closeInline (a : Assembly) (kind tag markup : String) : Assembly :=
  a.pushInline { kind, tag, nesting := .closing, markup }

def closeLiteral (a : Assembly) : Assembly :=
  match a.literal with
  | none => a
  | some t =>
    { a with tokens := { t with level := a.level, block := true } :: a.tokens, literal := none }

def closeImage (a : Assembly) : Assembly :=
  match a.images with
  | [] => a
  | image :: rest => { a with images := rest }.pushInline image

def stop (a : Assembly) : Tag → Assembly
  | .paragraph => a.closeGroup.closeBlock "paragraph_close" "p"
  | .heading level => a.closeGroup.closeBlock "heading_close" (headingTag level)
  | .quote => a.closeImplicit.closeBlock "blockquote_close" "blockquote"
  | .code _ => a.closeLiteral
  | .raw => a.closeLiteral
  | .list (some _) => a.closeImplicit.closeBlock "ordered_list_close" "ol"
  | .list none => a.closeImplicit.closeBlock "bullet_list_close" "ul"
  | .item => a.closeImplicit.closeBlock "list_item_close" "li"
  | .table _ =>
    (if a.bodyOpen then a.closeBlock "tbody_close" "tbody" else a).closeBlock "table_close" "table"
  | .tableHead =>
    { (a.closeBlock "tr_close" "tr").closeBlock "thead_close" "thead" with inHead := false }
  | .tableRow => a.closeBlock "tr_close" "tr"
  | .tableCell =>
    let a := a.closeGroup
    let a := if a.inHead then a.closeBlock "th_close" "th" else a.closeBlock "td_close" "td"
    { a with cell := a.cell + 1 }
  | .emphasis => a.closeInline "em_close" "em" "*"
  | .strong => a.closeInline "strong_close" "strong" "**"
  | .strikethrough => a.closeInline "s_close" "s" "~~"
  | .link _ => a.closeInline "link_close" "a" ""
  | .image _ => a.closeImage

/-! ## Leaves -/

/-- Adds text to the code or raw block that is open, if one is. -/
def literalText? (a : Assembly) (text : String) : Option Assembly :=
  a.literal.map fun t => { a with literal := some { t with content := t.content ++ text } }

def checkbox (done : Bool) : String :=
  "<input class=\"task-list-item-checkbox\" type=\"checkbox\" disabled" ++
    (if done then " checked>" else ">")

def leaf (a : Assembly) (l : Leaf) (e : Extent) : Assembly :=
  match l with
  | .text content =>
    (a.literalText? content).getD (a.inlineToken { kind := "text", content } e)
  | .code content =>
    a.inlineToken { kind := "code_inline", tag := "code", content, markup := "`" } e
  | .raw content => (a.literalText? content).getD a
  | .inlineRaw content => a.inlineToken { kind := "html_inline", content } e
  | .softBreak => a.inlineToken { kind := "softbreak", tag := "br" } e
  | .hardBreak => a.inlineToken { kind := "hardbreak", tag := "br" } e
  | .task done => a.inlineToken { kind := "html_inline", content := checkbox done } e
  | .rule =>
    let map := some (a.lineSpan e)
    a.closeImplicit.block { kind := "hr", tag := "hr", markup := "---" } map

/-! ## Whole documents -/

def step (a : Assembly) : Event → Assembly
  | .start tag e => a.start tag e
  | .stop tag => a.stop tag
  | .leaf l e => a.leaf l e

def ofSource (source : String) : Assembly :=
  { lines := LineMap.ofString source, source := source.toList }

def finish (a : Assembly) : List Token :=
  a.closeImplicit.closeGroup.tokens.reverse

def assemble (source : String) (events : List Event) : List Token :=
  (events.foldl step (ofSource source)).finish

end Assembly

/-- The token stream of a Markdown text. -/
def tokenize (d : Dialect) (source : String) : List Token :=
  Assembly.assemble source (events d source)

end Markdown
end RenderForest
