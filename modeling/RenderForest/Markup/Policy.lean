import RenderForest.Markup.Dom
import RenderForest.Markup.Vector
import RenderForest.Text.Reference
import RenderForest.Tree.Node
/-!
# Policy — raw markup as render nodes

A policy says how far raw markup is trusted.  Trusted markup is taken as it is; standard markup
loses attributes whose names are not valid; safe markup also loses dangerous elements and unsafe
values, and its drawings are cleaned as well-formed fragments.  This file defines:

* `Markup.Policy`;
* `Markup.Dom.toNodes`, the nodes of a tree under a policy;
* `Markup.parse`, the nodes of a text under a policy.
-/

namespace RenderForest
namespace Markup

inductive Policy where
  | trusted
  | standard
  | safe
  deriving DecidableEq, Repr

/-! ## Parts of a tree -/

/-- The text between the delimiters of a comment; the whole text if they are not both there. -/
def commentBody (raw : String) : String :=
  match Text.stripStart? "<!--".toList raw.toList with
  | some rest =>
    match Text.stripStart? ">--".toList rest.reverse with
    | some body => String.ofList body.reverse
    | none => raw
  | none => raw

def filterInto (policy : Policy) (a : Attributes) (attr : String × Option String) : Attributes :=
  let (name, value) := attr
  let value := Text.decode (value.getD "")
  if policy != .trusted && !Safety.isValidAttributeName name then a
  else if policy == .safe && !Safety.isSafeValue name value then a.set name ""
  else a.set name value

def RawAttributes.toAttributes (policy : Policy) (raw : RawAttributes) : Attributes :=
  raw.toList.foldl (filterInto policy) .empty

/-! ## Nodes -/

mutual

def Dom.toTrusted : Dom → Node
  | .text raw => .text (Text.decode raw)
  | .comment raw => .comment (commentBody raw)
  | .element name attrs _ children =>
    .plain name (attrs.toAttributes .trusted) (Dom.listToTrusted children)

def Dom.listToTrusted : List Dom → List Node
  | [] => []
  | d :: rest => d.toTrusted :: Dom.listToTrusted rest

end

def trustedNodes (raw : String) : List Node :=
  Dom.listToTrusted (read raw)

mutual

def Dom.toNodes (policy : Policy) : Dom → List Node
  | .text raw => [.text (Text.decode raw)]
  | .comment raw => [.comment (commentBody raw)]
  | .element name attrs source children =>
    if policy == .safe && Safety.isDangerousElement name then []
    else if policy == .safe && Text.sameFolded name "svg" then
      trustedNodes (Vector.sanitize source)
    else [.plain name (attrs.toAttributes policy) (Dom.listToNodes policy children)]

def Dom.listToNodes (policy : Policy) : List Dom → List Node
  | [] => []
  | d :: rest => d.toNodes policy ++ Dom.listToNodes policy rest

end

def parse (raw : String) (policy : Policy) : List Node :=
  Dom.listToNodes policy (read raw)

end Markup
end RenderForest
