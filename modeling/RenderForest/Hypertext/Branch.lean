import RenderForest.Hypertext.Rules
import RenderForest.Hypertext.Url
/-!
# Branch — HTML with only what is harmless

HTML is read to a tree; elements and attributes that are not on the lists are dropped, and what
is left is written again.  This file defines:

* `Branch`, a tree of elements and texts, and `Branch.ofString`, which reads one;
* `Branch.keep`, what is left of a tree;
* `Branch.write`, its text;
* `Hypertext.keepHarmless`, all together.
-/

namespace RenderForest
namespace Hypertext

inductive Branch where
  | text (chars : List Char)
  | element (e : Element) (children : List Branch)

namespace Branch

/-! ## Reading -/

/-- The tree below a node; the fuel bounds its height. -/
def ofArena (a : Arena) : Nat → Nat → List Branch
  | 0, _ => []
  | fuel + 1, id =>
    match a[id]? with
    | none => []
    | some entry =>
      match entry.content with
      | .text chars => [.text chars]
      | .element e => [.element e (entry.children.flatMap (ofArena a fuel))]

def ofString (html : String) : List Branch :=
  let a := (Sketch.ofChars (prepare html)).arena
  (a.children 0).flatMap (ofArena a a.size)

/-! ## Lists -/

def keptElements : List String :=
  ["a", "abbr", "audio", "b", "blockquote", "br", "code", "dd", "del", "details", "div", "dl",
    "dt", "em", "figure", "h1", "h2", "h3", "h4", "h5", "h6", "hr", "i", "img", "input", "kbd",
    "li", "ol", "p", "pre", "s", "source", "span", "strong", "sub", "summary", "sup", "table",
    "tbody", "td", "th", "thead", "tr", "u", "ul", "video"]

/-- The elements that are dropped with all they hold. -/
def droppedElements : List String :=
  ["script", "style"]

def commonAttributes : List String :=
  ["class", "id", "title"]

def ownAttributes (name : String) : List String :=
  match name with
  | "a" => ["href"]
  | "img" => ["alt", "src", "width", "height"]
  | "ol" => ["start"]
  | "input" => ["type", "checked", "disabled"]
  | "td" | "th" => ["style"]
  | "video" => ["src", "poster", "controls", "controlslist", "width", "height"]
  | "audio" => ["src", "controls", "controlslist"]
  | "source" => ["src", "type"]
  | _ => []

def urlAttributes : List String :=
  ["href", "src", "poster"]

/-- The names of elements of SVG that may not stand for elements of HTML. -/
def svgNames : List String :=
  ["animate", "circle", "defs", "desc", "discard", "ellipse", "filter", "g", "image", "line",
    "marker", "mask", "metadata", "mpath", "path", "pattern", "polygon", "polyline", "rect",
    "set", "stop", "svg", "switch", "symbol", "text", "tspan", "use", "view"]

/-- The names of elements of MathML that may not stand for elements of HTML. -/
def mathNames : List String :=
  ["abs", "and", "annotation", "annotation-xml", "apply", "approx", "arccos", "arccosh",
    "arccot", "arccoth", "arccsc", "arccsch", "arcsec", "arcsech", "arcsin", "arcsinh", "arctan",
    "arctanh", "arg", "bind", "bvar", "card", "cartesianproduct", "cbytes", "ceiling", "cerror",
    "ci", "cn", "codomain", "complexes", "compose", "condition", "conjugate", "cos", "cosh",
    "cot", "coth", "cs", "csc", "csch", "csymbol", "curl", "declare", "degree", "determinant",
    "diff", "divergence", "divide", "domain", "domainofapplication", "emptyset", "eq",
    "equivalent", "eulergamma", "exists", "exp", "exponentiale", "factorial", "factorof",
    "false", "floor", "fn", "forall", "gcd", "geq", "grad", "gt", "ident", "image", "imaginary",
    "imaginaryi", "implies", "in", "infinity", "int", "integers", "intersect", "interval",
    "inverse", "lambda", "laplacian", "lcm", "leq", "limit", "list", "ln", "log", "logbase",
    "lowlimit", "lt", "maction", "maligngroup", "malignmark", "math", "matrix", "matrixrow",
    "max", "mean", "median", "menclose", "merror", "mfenced", "mfrac", "mglyph", "mi", "min",
    "minus", "mlabeledtr", "mlongdiv", "mmultiscripts", "mn", "mo", "mode", "moment",
    "momentabout", "mover", "mpadded", "mphantom", "mprescripts", "mroot", "mrow", "ms",
    "mscarries", "mscarry", "msgroup", "msline", "mspace", "msqrt", "msrow", "mstack", "mstyle",
    "msub", "msubsup", "msup", "mtable", "mtd", "mtext", "mtr", "munder", "munderover",
    "naturalnumbers", "neq", "none", "not", "notanumber", "notin", "notprsubset", "notsubset",
    "or", "otherwise", "outerproduct", "partialdiff", "pi", "piece", "piecewise", "plus",
    "power", "primes", "product", "prsubset", "quotient", "rationals", "real", "reals", "reln",
    "rem", "root", "scalarproduct", "sdev", "sec", "sech", "selector", "semantics", "sep", "set",
    "setdiff", "share", "sin", "sinh", "subset", "sum", "tan", "tanh", "tendsto", "times",
    "transpose", "true", "union", "uplimit", "variance", "vector", "vectorproduct", "xor"]

/-! ## What stays -/

def keepsAttribute (name : String) (a : String × String) : Bool :=
  if commonAttributes.contains a.1 || a.1.startsWith "data-" then true
  else if (ownAttributes name).contains a.1 then
    !urlAttributes.contains a.1 || Url.mayStay a.2
  else false

/-- The attributes that stay; links lose the ties to their page. -/
def keepAttributes (name : String) (attrs : List (String × String)) : List (String × String) :=
  attrs.filter (keepsAttribute name) ++
    if name == "a" then [("rel", "noopener noreferrer")] else []

def fitsHtml (e : Element) : Bool :=
  match e.space with
  | .svg => e.name == "svg"
  | .math => e.name == "math"
  | .html => !svgNames.contains e.name && !mathNames.contains e.name

/-- What is left of a tree.  Elements that are not on the list give way to their children. -/
def keep : Branch → List Branch
  | .text chars => [.text chars]
  | .element e children =>
    if droppedElements.contains e.name || !fitsHtml e then []
    else if keptElements.contains e.name then
      [.element { e with attrs := keepAttributes e.name e.attrs } (keepAll children)]
    else if e.name == "template" then []
    else keepAll children
where
  keepAll : List Branch → List Branch
    | [] => []
    | b :: rest => keep b ++ keepAll rest

/-! ## Writing -/

def textReference (c : Char) : List Char :=
  match c with
  | '&' => "&amp;".toList
  | '\u00a0' => "&nbsp;".toList
  | '<' => "&lt;".toList
  | '>' => "&gt;".toList
  | c => [c]

def valueReference (c : Char) : List Char :=
  if c == '\x22' then "&quot;".toList else textReference c

def voidElements : List String :=
  ["br", "hr", "img", "input", "source"]

def writeAttribute (a : String × String) : List Char :=
  ' ' :: a.1.toList ++ "=\"".toList ++ a.2.toList.flatMap valueReference ++ ['\x22']

def write : Branch → List Char
  | .text chars => chars.flatMap textReference
  | .element e children =>
    let start := '<' :: e.name.toList ++ e.attrs.flatMap writeAttribute ++ ['>']
    if voidElements.contains e.name then start
    else start ++ writeAll children ++ "</".toList ++ e.name.toList ++ ['>']
where
  writeAll : List Branch → List Char
    | [] => []
    | b :: rest => write b ++ writeAll rest

end Branch

/-- What is left of an HTML text when only harmless elements and attributes stay. -/
def keepHarmless (html : String) : String :=
  String.ofList (Branch.write.writeAll ((Branch.ofString html).flatMap Branch.keep))

end Hypertext

end RenderForest
