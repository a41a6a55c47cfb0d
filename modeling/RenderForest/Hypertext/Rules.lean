import RenderForest.Hypertext.Adoption
/-!
# Rules — what a token does to a tree

The rules of HTML for the inside of a `div`.  What a template holds is not shown, and is read
like a body.  This file defines:

* `Sketch.startInBody`, `Sketch.endInBody` and `Sketch.inBody`, the rules of a body;
* the rules of texts, tables and their parts, and of other namespaces;
* `Sketch.feed`, what a token does, and `Sketch.ofChars`, what a text does.
-/

namespace RenderForest
namespace Hypertext
namespace Sketch

open Category (blockNames headingNames rowGroupNames tablePartNames formattingNames)

/-! ## Start tags in a body -/

/-- Opens an element that is not kept open. -/
def insertVoid (s : Sketch) (name : String) (attrs : List (String × String)) : Sketch :=
  (s.insertHtml name attrs).pop

def insertFormat (s : Sketch) (name : String) (attrs : List (String × String)) : Sketch :=
  (s.reopen.insertHtml name attrs).pushFormat

def pushMarker (s : Sketch) : Sketch :=
  { s with formats := .marker :: s.formats }

def insertRaw (s : Sketch) (name : String) (attrs : List (String × String)) (content : Content) :
    Sketch :=
  (s.insertHtml name attrs).readText content

/-- The elements of a head and templates, which are read alike everywhere. -/
def startInHead? (s : Sketch) (name : String) (attrs : List (String × String)) : Option Sketch :=
  match name with
  | "base" | "basefont" | "bgsound" | "link" | "meta" => some (s.insertVoid name attrs)
  | "title" => some (s.insertRaw name attrs (.decoded name))
  | "noframes" | "style" => some (s.insertRaw name attrs (.raw name))
  | "script" => some (s.insertRaw name attrs .script)
  | "template" => some { (s.insertHtml name attrs).pushMarker with mode := .body }
  | _ => none

/-- Ends the list item or description that is open, up to a special element. -/
def closeItem (s : Sketch) (names : List String) : Sketch :=
  go s.opened
where
  go : List (Nat × Element) → Sketch
    | [] => s
    | e :: rest =>
      if Category.isHtml names e.2 then (s.closeImplied e.2.name).popThrough [e.2.name]
      else if Category.isSpecial e.2 && !Category.isHtml ["address", "div", "p"] e.2 then s
      else go rest

def closeAnchor (s : Sketch) : Sketch :=
  match s.recentFormats.find? (s.elementIs (Category.isHtml ["a"])) with
  | none => s
  | some id =>
    let s := (s.adopt "a").dropFormat id
    { s with stack := s.stack.filter (· != id) }

def closeChoice (s : Sketch) : Sketch :=
  s.closeIn Category.bounds ["select"] ""

def startInBody (s : Sketch) (name : String) (attrs : List (String × String)) : Sketch :=
  if let some s := s.startInHead? name attrs then s
  else if name ∈ ["html", "head", "body", "frame", "frameset"] ||
      tablePartNames.contains name then s
  else if blockNames.contains name then s.closeParagraph.insertHtml name attrs
  else if headingNames.contains name then
    let s := s.closeParagraph
    let s := if s.currentIs (Category.isHtml headingNames) then s.pop else s
    s.insertHtml name attrs
  else if formattingNames.contains name then s.insertFormat name attrs
  else
    match name with
    | "pre" | "listing" => { s.closeParagraph.insertHtml name attrs with skipBreak := true }
    | "form" =>
      let inTemplate := s.isOpen "template"
      if s.form.isSome && !inTemplate then s
      else
        let s := s.closeParagraph.insertHtml name attrs
        if inTemplate then s else { s with form := s.stack.head? }
    | "li" => (s.closeItem ["li"]).closeParagraph.insertHtml name attrs
    | "dd" | "dt" => (s.closeItem ["dd", "dt"]).closeParagraph.insertHtml name attrs
    | "plaintext" => { s.closeParagraph.insertHtml name attrs with content := .plain }
    | "button" => (s.closeIn Category.bounds ["button"] "").reopen.insertHtml name attrs
    | "a" => s.closeAnchor.insertFormat name attrs
    | "nobr" =>
      let s := s.reopen
      let s := if s.inScope Category.bounds ["nobr"] then s.adopt "nobr" else s
      s.insertFormat name attrs
    | "applet" | "marquee" | "object" => (s.reopen.insertHtml name attrs).pushMarker
    | "table" => { s.closeParagraph.insertHtml name attrs with mode := .table }
    | "area" | "br" | "embed" | "img" | "keygen" | "wbr" => s.reopen.insertVoid name attrs
    | "image" => s.reopen.insertVoid "img" attrs
    | "input" => s.closeChoice.reopen.insertVoid name attrs
    | "param" | "source" | "track" => s.insertVoid name attrs
    | "hr" =>
      let s := s.closeParagraph
      let s := if s.inScope Category.bounds ["select"] then s.closeImplied "" else s
      s.insertVoid name attrs
    | "textarea" => { s.insertRaw name attrs (.decoded name) with skipBreak := true }
    | "xmp" => s.closeParagraph.reopen.insertRaw name attrs (.raw name)
    | "iframe" | "noembed" | "noscript" => s.insertRaw name attrs (.raw name)
    | "select" =>
      if s.inScope Category.bounds ["select"] then s.closeChoice
      else s.reopen.insertHtml name attrs
    | "option" =>
      let s :=
        if s.inScope Category.bounds ["select"] then s.closeImplied "optgroup"
        else if s.currentIs (Category.isHtml ["option"]) then s.pop
        else s
      s.reopen.insertHtml name attrs
    | "optgroup" =>
      let s :=
        if s.inScope Category.bounds ["select"] then s.closeImplied ""
        else if s.currentIs (Category.isHtml ["option"]) then s.pop
        else s
      s.reopen.insertHtml name attrs
    | "rb" | "rtc" =>
      let s := if s.inScope Category.bounds ["ruby"] then s.closeImplied "" else s
      s.insertHtml name attrs
    | "rp" | "rt" =>
      let s := if s.inScope Category.bounds ["ruby"] then s.closeImplied "rtc" else s
      s.insertHtml name attrs
    | "math" => s.reopen.insertElement { space := .math, name, attrs }
    | "svg" => s.reopen.insertElement { space := .svg, name, attrs }
    | _ => s.reopen.insertHtml name attrs

/-! ## End tags in a body -/

def endTemplate (s : Sketch) : Sketch :=
  if s.isOpen "template" then (s.popThrough ["template"]).clearFormats.resetMode else s

def endForm (s : Sketch) : Sketch :=
  if s.isOpen "template" then s.closeIn Category.bounds ["form"] ""
  else
    match s.form with
    | none => s
    | some id =>
      let s := { s with form := none }
      if finds Category.bounds (·.1 == id) s.opened then
        let s := s.closeImplied ""
        { s with stack := s.stack.filter (· != id) }
      else s

def endInBody (s : Sketch) (name : String) : Sketch :=
  if name == "p" then
    let s := if s.inScope Category.boundsButton ["p"] then s else s.insertHtml "p" []
    s.closeParagraph
  else if blockNames.contains name || name ∈ ["button", "listing", "pre", "select"] then
    s.closeIn Category.bounds [name] ""
  else if headingNames.contains name then s.closeIn Category.bounds headingNames ""
  else if formattingNames.contains name || name ∈ ["a", "nobr"] then s.adopt name
  else
    match name with
    | "template" => s.endTemplate
    | "body" | "html" => s
    | "form" => s.endForm
    | "li" => s.closeIn Category.boundsItem ["li"] "li"
    | "dd" | "dt" => s.closeIn Category.bounds [name] name
    | "applet" | "marquee" | "object" =>
      if s.inScope Category.bounds [name] then
        ((s.closeImplied "").popThrough [name]).clearFormats
      else s
    | "br" => s.reopen.insertVoid "br" []
    | _ => s.closeOther name

def textInBody (s : Sketch) (chars : List Char) : Sketch :=
  let chars := chars.filter fun c => c.toNat != 0
  if chars.isEmpty then s else s.reopen.insertText chars

def inBody (s : Sketch) (t : Token) : Sketch :=
  match t with
  | .startTag name attrs => s.startInBody name attrs
  | .endTag name => s.endInBody name
  | .text chars => s.textInBody chars
  | .comment | .finish => s

/-! ## Moves -/

/-- What a rule asks for. -/
inductive Move where
  | done (s : Sketch)
  /-- The same token is to be read again. -/
  | again (s : Sketch)
  /-- The token is to be read by the rules of a mode. -/
  | by (mode : Mode) (s : Sketch)

/-- Reads the token again if a condition holds, and leaves it out otherwise. -/
def againIf (c : Bool) (s : Sketch) (f : Sketch → Sketch) : Move :=
  if c then .again (f s) else .done s

def doneIf (c : Bool) (s : Sketch) (f : Sketch → Sketch) : Move :=
  .done (if c then f s else s)

/-! ## Texts -/

/-- A token in an element that holds text only. -/
def inText (s : Sketch) (t : Token) : Move :=
  match t with
  | .text chars => .done (s.insertText chars)
  | .endTag _ => .done { s.pop with mode := s.back }
  | .finish => .again { s.pop with mode := s.back }
  | _ => .done s

/-! ## Tables -/

/-- Reads a token like one in a body, with its nodes placed before the table. -/
def misplaced (s : Sketch) (t : Token) : Sketch :=
  { { s with foster := true }.inBody t with foster := false }

/-- Closes elements until one of a table with some names is the innermost. -/
def clearTo (s : Sketch) (names : List String) : Sketch :=
  s.popTo (Category.isHtml (names ++ ["template", "html"]))

def inTableScope (s : Sketch) (names : List String) : Bool :=
  s.inScope Category.boundsTable names

def closeTable (s : Sketch) : Sketch :=
  (s.popThrough ["table"]).resetMode

/-- Whether a start tag is that of a field which is not shown. -/
def isHiddenInput (name : String) (attrs : List (String × String)) : Bool :=
  name == "input" && attrs.any fun a =>
    a.1 == "type" && String.ofList (a.2.toList.map Char.toLower) == "hidden"

def startInTable (s : Sketch) (name : String) (attrs : List (String × String)) : Move :=
  match name with
  | "caption" =>
    .done { (s.clearTo ["table"]).pushMarker.insertHtml name attrs with mode := .caption }
  | "colgroup" => .done { (s.clearTo ["table"]).insertHtml name attrs with mode := .columns }
  | "col" => .again { (s.clearTo ["table"]).insertHtml "colgroup" [] with mode := .columns }
  | "tbody" | "tfoot" | "thead" =>
    .done { (s.clearTo ["table"]).insertHtml name attrs with mode := .rows }
  | "td" | "th" | "tr" =>
    .again { (s.clearTo ["table"]).insertHtml "tbody" [] with mode := .rows }
  | "table" => againIf (s.inTableScope ["table"]) s closeTable
  | "style" | "script" | "template" => .done ((s.startInHead? name attrs).getD s)
  | "form" =>
    if s.isOpen "template" || s.form.isSome then .done s
    else
      let s := s.insertHtml name attrs
      .done { s with form := s.stack.head? }.pop
  | _ =>
    .done (if isHiddenInput name attrs then s.insertVoid name attrs
      else s.misplaced (.startTag name attrs))

def inTable (s : Sketch) (t : Token) : Move :=
  match t with
  | .text chars =>
    if s.currentIs (Category.isHtml ["table", "tbody", "template", "tfoot", "thead", "tr"]) then
      .again { s with pending := [], back := s.mode, mode := .tableText }
    else .done (s.misplaced (.text chars))
  | .startTag name attrs => s.startInTable name attrs
  | .endTag name =>
    if name == "table" then doneIf (s.inTableScope ["table"]) s closeTable
    else if name ∈ ["body", "html"] || tablePartNames.contains name then .done s
    else if name == "template" then .done s.endTemplate
    else .done (s.misplaced t)
  | .comment | .finish => .done s

def inTableText (s : Sketch) (t : Token) : Move :=
  match t with
  | .text chars => .done { s with pending := s.pending ++ chars.filter fun c => c.toNat != 0 }
  | _ =>
    let text := s.pending
    let s := { s with pending := [], mode := s.back }
    .again (if text.all Text.isAsciiBlank then s.insertText text else s.misplaced (.text text))

/-! ## The parts of tables -/

def closeCaption (s : Sketch) : Sketch :=
  { ((s.closeImplied "").popThrough ["caption"]).clearFormats with mode := .table }

def inCaption (s : Sketch) (t : Token) : Move :=
  let isOpen := s.inTableScope ["caption"]
  match t with
  | .startTag name _ =>
    if tablePartNames.contains name then againIf isOpen s closeCaption else .done (s.inBody t)
  | .endTag name =>
    if name == "caption" then doneIf isOpen s closeCaption
    else if name == "table" then againIf isOpen s closeCaption
    else if name ∈ ["body", "html"] || tablePartNames.contains name then .done s
    else .done (s.inBody t)
  | _ => .done (s.inBody t)

def closeColumns (s : Sketch) : Sketch :=
  { s.pop with mode := .table }

def inColumns (s : Sketch) (t : Token) : Move :=
  let leave := againIf (s.currentIs (Category.isHtml ["colgroup"])) s closeColumns
  match t with
  | .text chars =>
    if chars.all Text.isAsciiBlank then .done (s.insertText chars) else leave
  | .startTag name attrs =>
    match name with
    | "html" => .done s
    | "col" => .done (s.insertVoid name attrs)
    | "template" => .done ((s.startInHead? name attrs).getD s)
    | _ => leave
  | .endTag name =>
    match name with
    | "colgroup" => doneIf (s.currentIs (Category.isHtml ["colgroup"])) s closeColumns
    | "col" => .done s
    | "template" => .done s.endTemplate
    | _ => leave
  | .comment | .finish => .done s

def closeRows (s : Sketch) : Sketch :=
  { (s.clearTo rowGroupNames).pop with mode := .table }

def inRows (s : Sketch) (t : Token) : Move :=
  match t with
  | .startTag name attrs =>
    match name with
    | "tr" => .done { (s.clearTo rowGroupNames).insertHtml name attrs with mode := .row }
    | "td" | "th" => .again { (s.clearTo rowGroupNames).insertHtml "tr" [] with mode := .row }
    | "caption" | "col" | "colgroup" | "tbody" | "tfoot" | "thead" =>
      againIf (s.inTableScope rowGroupNames) s closeRows
    | _ => .by .table s
  | .endTag name =>
    if rowGroupNames.contains name then doneIf (s.inTableScope [name]) s closeRows
    else if name == "table" then againIf (s.inTableScope rowGroupNames) s closeRows
    else if name ∈ ["body", "html"] || tablePartNames.contains name then .done s
    else .by .table s
  | _ => .by .table s

def closeRow (s : Sketch) : Sketch :=
  { (s.clearTo ["tr"]).pop with mode := .rows }

def inRow (s : Sketch) (t : Token) : Move :=
  let isOpen := s.inTableScope ["tr"]
  match t with
  | .startTag name attrs =>
    if name ∈ ["td", "th"] then
      .done { (s.clearTo ["tr"]).insertHtml name attrs with mode := .cell }.pushMarker
    else if tablePartNames.contains name then againIf isOpen s closeRow
    else .by .table s
  | .endTag name =>
    if name == "tr" then doneIf isOpen s closeRow
    else if name == "table" then againIf isOpen s closeRow
    else if rowGroupNames.contains name then
      againIf (s.inTableScope [name] && isOpen) s closeRow
    else if name ∈ ["body", "html"] || tablePartNames.contains name then .done s
    else .by .table s
  | _ => .by .table s

def closeCell (s : Sketch) : Sketch :=
  { ((s.closeImplied "").popThrough ["td", "th"]).clearFormats with mode := .row }

def inCell (s : Sketch) (t : Token) : Move :=
  match t with
  | .startTag name _ =>
    if tablePartNames.contains name then againIf (s.inTableScope ["td", "th"]) s closeCell
    else .done (s.inBody t)
  | .endTag name =>
    if name ∈ ["td", "th"] then
      doneIf (s.inTableScope [name]) s fun s =>
        { ((s.closeImplied "").popThrough [name]).clearFormats with mode := .row }
    else if name ∈ ["body", "html", "caption", "col", "colgroup"] then .done s
    else if name ∈ ["table", "tr"] || rowGroupNames.contains name then
      againIf (s.inTableScope [name]) s closeCell
    else .done (s.inBody t)
  | _ => .done (s.inBody t)

/-! ## Other namespaces -/

/-- Whether a token is read by the rules of another namespace. -/
def isForeign (s : Sketch) (t : Token) : Bool :=
  match s.current? with
  | none => false
  | some e =>
    if e.space == .html then false
    else
      match t with
      | .finish => false
      | .text _ => !(Category.isTextPoint e || Category.isMarkupPoint e)
      | .startTag name _ =>
        !(Category.isTextPoint e && name != "mglyph" && name != "malignmark" ||
          Category.isMarkupPoint e ||
          e.space == .math && e.name == "annotation-xml" && name == "svg")
      | _ => true

def leaveForeign (s : Sketch) : Sketch :=
  s.popTo fun e => e.space == .html || Category.isTextPoint e || Category.isMarkupPoint e

def endForeign (s : Sketch) (name : String) : Move :=
  go s.opened
where
  go : List (Nat × Element) → Move
    | [] => .done s
    | e :: rest =>
      if e.1 == 0 then .done s
      else if e.2.space == .html then .by s.mode s
      else if e.2.name == name then .done { s with stack := rest.map Prod.fst }
      else go rest

def inForeign (s : Sketch) (t : Token) : Move :=
  match t with
  | .text chars => .done (s.insertText (replaceNull chars))
  | .startTag name attrs =>
    if Category.breaksOut name attrs then .by s.mode s.leaveForeign
    else
      let space := (s.current?.map Element.space).getD .html
      .done (s.insertElement { space, name, attrs })
  | .endTag name =>
    if name ∈ ["br", "p"] then .by s.mode s.leaveForeign else s.endForeign name
  | .comment | .finish => .done s

/-! ## Tokens -/

def inMode (mode : Mode) (s : Sketch) (t : Token) : Move :=
  match mode with
  | .body => .done (s.inBody t)
  | .text => s.inText t
  | .table => s.inTable t
  | .tableText => s.inTableText t
  | .caption => s.inCaption t
  | .columns => s.inColumns t
  | .rows => s.inRows t
  | .row => s.inRow t
  | .cell => s.inCell t

/-- Reads a token until it is done; the fuel bounds how often it is read. -/
def apply : Nat → Option Mode → Sketch → Token → Sketch
  | 0, _, s, _ => s
  | fuel + 1, mode, s, t =>
    let move :=
      match mode with
      | some m => inMode m s t
      | none => if s.isForeign t then s.inForeign t else inMode s.mode s t
    match move with
    | .done s => s
    | .again s => apply fuel none s t
    | .by m s => apply fuel (some m) s t

/-- The number of rules that set up an element for a token. -/
def setupLimit : Nat := 8

/-- What a token does to a tree.  Each time a token is read again, an element is closed or a
part of a table is set up. -/
def feed (s : Sketch) (t : Token) : Sketch :=
  let fuel := 2 * s.stack.length + setupLimit
  let fresh := { s with skipBreak := false }
  match s.skipBreak, t with
  | true, .text ('\n' :: []) => fresh
  | true, .text ('\n' :: rest) => apply fuel none fresh (.text rest)
  | _, t => apply fuel none fresh t

/-- Reads the tokens of a text; the fuel bounds their number. -/
def feedAll : Nat → List Char → Sketch → Sketch
  | 0, _, s => s
  | fuel + 1, chars, s =>
    match next s.content chars with
    | (.finish, _) => s.feed .finish
    | (t, rest) =>
      let content := if s.content == .plain then .plain else .markup
      feedAll fuel rest
        ({ s with content := if t matches .text _ then s.content else content }.feed t)

def ofChars (chars : List Char) : Sketch :=
  feedAll (chars.length + 1) chars {}

end Sketch
end Hypertext
end RenderForest
