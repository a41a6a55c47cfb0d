import RenderForest.Safety
import RenderForest.Text.Escape
import RenderForest.Xml.Document
/-!
# Vector — cleaning well-formed fragments

Drawings and other well-formed fragments are read as XML, cleaned, and written again.  A fragment
that is not well formed is dropped as a whole.  This file defines:

* `Vector.wrap`, which makes a document of a fragment;
* `Vector.writeTree`, which writes a tree without dangerous elements, handlers and unsafe values;
* `Vector.sanitize`, which does all of it.
-/

namespace RenderForest
namespace Vector

def xlinkSpace : String := "http://www.w3.org/1999/xlink"

/-! ## Writing -/

def writeAttr (name value : String) : String :=
  " " ++ name ++ "=\"" ++ Text.escape value ++ "\""

/-- The name under which an attribute is written; prefixes other than `xlink` and `xml` are
dropped. -/
def qualifiedName (a : Xml.Attr) : String :=
  if a.space == some xlinkSpace then "xlink:" ++ a.name
  else if a.space == some Xml.xmlSpace then "xml:" ++ a.name
  else a.name

def isKept (a : Xml.Attr) : Bool :=
  Safety.isValidAttributeName (qualifiedName a) && Safety.isSafeValue (qualifiedName a) a.value

def writeAttrs : List Xml.Attr → String
  | [] => ""
  | a :: rest => (if isKept a then writeAttr (qualifiedName a) a.value else "") ++ writeAttrs rest

mutual

def usesXlink : Xml.Tree → Bool
  | .element _ _ attrs children =>
    attrs.any (fun a => a.space == some xlinkSpace) || anyUsesXlink children
  | _ => false

def anyUsesXlink : List Xml.Tree → Bool
  | [] => false
  | t :: rest => usesXlink t || anyUsesXlink rest

end

/-- The namespace declarations that an element at the top needs. -/
def writeSpaces (space : Option String) (xlink : Bool) : String :=
  (match space with
    | some uri => writeAttr "xmlns" uri
    | none => "") ++ (if xlink then writeAttr "xmlns:xlink" xlinkSpace else "")

mutual

/-- Writes a tree; dangerous elements are left out with all they hold. -/
def writeTree (top : Bool) : Xml.Tree → String
  | .text s => Text.escape s
  | .remark => ""
  | .element space name attrs children =>
    if Safety.isDangerousElement name then ""
    else
      let start := "<" ++ name ++
        (if top then
          writeSpaces space (attrs.any (fun a => a.space == some xlinkSpace) ||
            anyUsesXlink children)
        else "") ++ writeAttrs attrs
      if children.isEmpty then start ++ "/>"
      else start ++ ">" ++ writeTrees false children ++ "</" ++ name ++ ">"

def writeTrees (top : Bool) : List Xml.Tree → String
  | [] => ""
  | t :: rest => writeTree top t ++ writeTrees top rest

end

/-! ## Fragments -/

def rootName : String := "marktree-fragment"

/-- The element around a fragment; it declares the prefix of links. -/
def wrap (body : List Char) : List Char :=
  ("<" ++ rootName ++ " xmlns:xlink=\"" ++ xlinkSpace ++ "\">").toList ++ body ++
    ("</" ++ rootName ++ ">").toList

def dropDeclaration (s : List Char) : List Char :=
  match Text.stripStart? "<?xml".toList s with
  | none => s
  | some _ =>
    match Text.breakOn? ['?', '>'] s with
    | some (_, rest) => Text.trimStart rest
    | none => s

/-- The trees of a fragment; `none` if it is not well formed. -/
def trees? (body : List Char) : Option (List Xml.Tree) :=
  match Xml.read? (wrap body) with
  | some (.element _ _ _ children) => some children
  | _ => none

/-- Cleans a fragment; nothing is left of one that is not well formed. -/
def sanitize (raw : String) : String :=
  let body := dropDeclaration (Text.trim raw.toList)
  if body.isEmpty then ""
  else
    match trees? body with
    | some ts => writeTrees true ts
    | none => ""

end Vector
end RenderForest
