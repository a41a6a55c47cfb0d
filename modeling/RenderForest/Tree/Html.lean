import RenderForest.Safety
import RenderForest.Text.Escape
import RenderForest.Tree.Deferred
/-!
# Html — a forest as HTML text

Texts and values are escaped here and nowhere else.  Void elements are written without content,
block elements are followed by a line feed, and elements whose tag is no name are replaced by
their children.  This file defines:

* `Html.isValidTag`, and the lists of void and block elements;
* `Html.writeNode` and `Html.writeNodes`;
* `toHtml`, the text of a forest without line feeds at its end.
-/

namespace RenderForest
namespace Html

/-! ## Elements -/

def voidElements : List String :=
  ["area", "base", "br", "col", "embed", "hr", "img", "input", "link", "meta", "source", "track",
    "wbr"]

/-- The elements that are followed by a line feed. -/
def blockElements : List String :=
  ["blockquote", "div", "figure", "h1", "h2", "h3", "h4", "h5", "h6", "li", "ol", "p", "pre",
    "table", "tbody", "thead", "tr", "ul"]

/-- A letter, then letters, digits, hyphens and colons. -/
def isValidTag (tag : String) : Bool :=
  match tag.toList with
  | [] => false
  | c :: rest => c.isAlpha && rest.all fun c => c.isAlphanum || c == '-' || c == ':'

def lowerTag (tag : String) : String :=
  String.ofList (Text.fold tag)

/-! ## Writing -/

def writeAttr (name value : String) : String :=
  " " ++ name ++ "=\"" ++ Text.escape value ++ "\""

/-- The attributes whose names are valid. -/
def writeAttrs : List (String × String) → String
  | [] => ""
  | (n, v) :: rest =>
    (if Safety.isValidAttributeName n then writeAttr n v else "") ++ writeAttrs rest

/-- Sets a blank between the hyphens of each pair. -/
def spaceHyphens : List Char → List Char
  | '-' :: '-' :: rest => '-' :: ' ' :: '-' :: spaceHyphens rest
  | c :: rest => c :: spaceHyphens rest
  | [] => []

def writeComment (text : String) : String :=
  "<!--" ++ String.ofList (spaceHyphens text.toList) ++ "-->"

def startTag (tag : String) (attrs : Attributes) : String :=
  "<" ++ tag ++ writeAttrs attrs.entries ++ ">"

mutual

def writeNode : Node → String
  | .text s => Text.escape s
  | .comment s => writeComment s
  | .fragment children => writeNodes children
  | .element tag attrs _ children =>
    if !isValidTag tag then writeNodes children
    else if voidElements.contains (lowerTag tag) then
      startTag tag attrs ++ (if lowerTag tag == "hr" then "\n" else "")
    else
      startTag tag attrs ++ writeNodes children ++ "</" ++ tag ++ ">" ++
        (if blockElements.contains (lowerTag tag) then "\n" else "")
  | .component ⟨.component _ (.node n), _, _, _⟩ => writeNode n
  | .component ⟨_, _, _, fallback⟩ => writeNode fallback
  | .deferred ⟨_, _, _, _, .loaded n⟩ => writeNode n
  | .deferred ⟨_, _, fallback, _, _⟩ => writeNode fallback

def writeNodes : List Node → String
  | [] => ""
  | n :: rest => writeNode n ++ writeNodes rest

end

def dropLineFeeds (s : List Char) : List Char :=
  (s.reverse.dropWhile (· == '\n')).reverse

end Html

def toHtml (nodes : List Node) : String :=
  String.ofList (Html.dropLineFeeds (Html.writeNodes nodes).toList)

/-- What a component shows: its own node, or the default render if it failed, panicked, or is
mounted by the host. -/
def Component.render (c : Component Node) : Node :=
  match c.reference with
  | .component _ (.node n) => n
  | _ => c.fallback

end RenderForest
