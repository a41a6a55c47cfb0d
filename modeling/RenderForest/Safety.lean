import RenderForest.Text.Blank
/-!
# Safety — which names and values may be written

The policy is narrow: attribute names follow a pattern, the values of a few attributes are
checked for schemes that run or leak, and a few elements are removed from raw markup.  This file
defines:

* `Safety.isValidAttributeName`, `Safety.isSensitiveAttribute`, `Safety.isDangerousElement`;
* `Safety.isSafeUrl`, the check of one URL;
* `Safety.isSafeValue`, the check of an attribute value.
-/

namespace RenderForest
namespace Safety

/-! ## The lists -/

def sensitiveAttributes : List String :=
  ["href", "src", "xlink:href", "poster", "srcset"]

/-- The elements that are removed with all they hold. -/
def dangerousElements : List String :=
  ["script", "iframe", "object", "embed", "link", "style", "foreignObject"]

def unsafeSchemes : List String :=
  ["javascript:", "vbscript:", "file:", "data:"]

/-! ## Names -/

def isNameStart (c : Char) : Bool :=
  c.isAlpha || c == '_' || c == ':'

def isNameChar (c : Char) : Bool :=
  c.isAlphanum || c == ':' || c == '.' || c == '_' || c == '-'

def isHandlerName : List Char → Bool
  | a :: b :: _ => a.toLower == 'o' && b.toLower == 'n'
  | _ => false

/-- A letter, underscore or colon, then letters, digits and `:._-`; nothing that begins with
`on`. -/
def isValidAttributeName (name : String) : Bool :=
  match name.toList with
  | [] => false
  | c :: rest => isNameStart c && rest.all isNameChar && !isHandlerName (c :: rest)

def isSensitiveAttribute (name : String) : Bool :=
  sensitiveAttributes.any fun s => Text.sameFolded s name

def isDangerousElement (tag : String) : Bool :=
  dangerousElements.any fun d => Text.sameFolded d tag

/-! ## URLs -/

/-- The number of characters in which a scheme is looked for. -/
def schemeWindow : Nat := 16

/-- The beginning of a URL in which a scheme is looked for: blanks at its ends, blanks of ASCII
and controls inside are dropped, and letters are made small. -/
def schemeText (url : List Char) : List Char :=
  (((Text.trim url).filter fun c =>
    !Text.isAsciiBlank c && !Text.isAsciiControl c).take schemeWindow).map Char.toLower

def isSafeUrl (url : List Char) : Bool :=
  !unsafeSchemes.any fun scheme => scheme.toList.isPrefixOf (schemeText url)

/-- The URL of a candidate of a `srcset` value: its first word. -/
def candidateUrl (candidate : List Char) : List Char :=
  (Text.words candidate).headD []

/-- Whether the value of an attribute may be written.  Only the values of sensitive attributes
are looked at. -/
def isSafeValue (name value : String) : Bool :=
  if !isSensitiveAttribute name then true
  else if Text.sameFolded name "srcset" then
    (Text.splitOn ',' value.toList).all fun candidate => isSafeUrl (candidateUrl candidate)
  else isSafeUrl value.toList

end Safety
end RenderForest
