import RenderForest.Hypertext.Arena
/-!
# Category — what the names of elements tell the reader

Which elements end others, bound a search among the open elements, or are ended without a tag.
This file defines:

* `Category.isSpecial`, `Category.isFormatting` and the lists of names that the rules share;
* `Category.bounds`, `Category.boundsItem`, `Category.boundsButton`, `Category.boundsTable`, the
  elements at which a search ends;
* `Category.isTextPoint` and `Category.isMarkupPoint`, the elements of other namespaces that
  hold HTML.
-/

namespace RenderForest
namespace Hypertext
namespace Category

def isHtml (names : List String) (e : Element) : Bool :=
  e.space == .html && names.contains e.name

/-! ## Other namespaces -/

/-- The elements of MathML that hold text. -/
def isTextPoint (e : Element) : Bool :=
  e.space == .math && ["mi", "mo", "mn", "ms", "mtext"].contains e.name

/-- Whether an annotation of MathML says that it holds HTML. -/
def saysHtml (e : Element) : Bool :=
  e.attrs.any fun a => a.1 == "encoding" &&
    ["text/html", "application/xhtml+xml"].contains (String.ofList (a.2.toList.map Char.toLower))

/-- The elements of SVG and MathML that hold HTML. -/
def isMarkupPoint (e : Element) : Bool :=
  match e.space with
  | .html => false
  | .svg => ["foreignobject", "desc", "title"].contains e.name
  | .math => e.name == "annotation-xml" && saysHtml e

/-- The elements of SVG and MathML that count as special and bound a search. -/
def isBorder (e : Element) : Bool :=
  match e.space with
  | .html => false
  | .svg => ["foreignobject", "desc", "title"].contains e.name
  | .math => ["mi", "mo", "mn", "ms", "mtext", "annotation-xml"].contains e.name

/-- The elements of HTML that end SVG and MathML. -/
def breaksOut (name : String) (attrs : List (String × String)) : Bool :=
  ["b", "big", "blockquote", "body", "br", "center", "code", "dd", "div", "dl", "dt", "em",
    "embed", "h1", "h2", "h3", "h4", "h5", "h6", "head", "hr", "i", "img", "li", "listing",
    "menu", "meta", "nobr", "ol", "p", "pre", "ruby", "s", "small", "span", "strong", "strike",
    "sub", "sup", "table", "tt", "u", "ul", "var"].contains name ||
  name == "font" && attrs.any fun a => ["color", "face", "size"].contains a.1

/-! ## Special elements -/

def specialNames : List String :=
  ["address", "applet", "area", "article", "aside", "base", "basefont", "bgsound", "blockquote",
    "body", "br", "button", "caption", "center", "col", "colgroup", "dd", "details", "dir", "div",
    "dl", "dt", "embed", "fieldset", "figcaption", "figure", "footer", "form", "frame",
    "frameset", "h1", "h2", "h3", "h4", "h5", "h6", "head", "header", "hgroup", "hr", "html",
    "iframe", "img", "input", "keygen", "li", "link", "listing", "main", "marquee", "menu",
    "meta", "nav", "noembed", "noframes", "noscript", "object", "ol", "p", "param", "plaintext",
    "pre", "script", "search", "section", "select", "source", "style", "summary", "table",
    "tbody", "td", "template", "textarea", "tfoot", "th", "thead", "title", "tr", "track", "ul",
    "wbr", "xmp"]

def isSpecial (e : Element) : Bool :=
  isHtml specialNames e || isBorder e

/-- The elements that are opened again behind a block. -/
def formattingNames : List String :=
  ["b", "big", "code", "em", "font", "i", "s", "small", "strike", "strong", "tt", "u"]

/-- The elements that end a paragraph and are ended by their own tag. -/
def blockNames : List String :=
  ["address", "article", "aside", "blockquote", "center", "details", "dialog", "dir", "div",
    "dl", "fieldset", "figcaption", "figure", "footer", "header", "hgroup", "main", "menu",
    "nav", "ol", "p", "search", "section", "summary", "ul"]

def headingNames : List String :=
  ["h1", "h2", "h3", "h4", "h5", "h6"]

def rowGroupNames : List String :=
  ["tbody", "tfoot", "thead"]

def tablePartNames : List String :=
  ["caption", "col", "colgroup", "tbody", "td", "tfoot", "th", "thead", "tr"]

/-- The elements that end without a tag when another ends. -/
def impliedNames : List String :=
  ["dd", "dt", "li", "optgroup", "option", "p", "rb", "rp", "rt", "rtc"]

/-! ## Bounds -/

/-- The elements at which the search for an open element ends. -/
def bounds (e : Element) : Bool :=
  isHtml ["applet", "caption", "html", "table", "td", "th", "marquee", "object", "select",
    "template"] e || isBorder e

def boundsItem (e : Element) : Bool :=
  bounds e || isHtml ["ol", "ul"] e

def boundsButton (e : Element) : Bool :=
  bounds e || isHtml ["button"] e

def boundsTable (e : Element) : Bool :=
  isHtml ["html", "table", "template"] e

end Category
end Hypertext
end RenderForest
