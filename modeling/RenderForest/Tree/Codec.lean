import RenderForest.Stream.Codec
import RenderForest.Tree.Deferred
/-!
# Codec — render trees as JSON

Each node is an object with one field that names its kind.  This file defines:

* `CodeBlock.toJson`, what is known of a fenced block;
* `Node.toJson` and `forestToJson`.
-/

namespace RenderForest

def HandlerAction.label : HandlerAction → String
  | .pauseIfDetachedElseScrollIntoView => "pause_if_detached_else_scroll_into_view"

def EventHandler.toJson (h : EventHandler) : Json.Value :=
  .object [("event", .string h.event), ("action", .string h.action.label)]

def CodeBlock.toJson (b : CodeBlock) : Json.Value :=
  .object
    [ ("lang_name", .string b.language),
      ("lang_attrs", .string b.arguments),
      ("content", .string b.content),
      ("attrs", catalogToJson b.attrs),
      ("info", .string b.info) ]

def ComponentRef.name : ComponentRef ν → String
  | .component name _ => name
  | .descriptor d => d.name

/-- A component as an object; the node that it shows is not part of it. -/
def Component.toJson (c : Component ν) : Json.Value :=
  .object
    [ ("component", .string c.reference.name),
      ("key", .string c.key),
      ("props", c.block.toJson) ]

/-- A deferred block as an object; the node that it shows is not part of it. -/
def Deferred.toJson (d : Deferred ν) : Json.Value :=
  .object
    [ ("key", .string d.key),
      ("state", .string d.state.label),
      ("delay_ms", .ofNat d.config.delay),
      ("timeout_ms", .ofNat d.config.timeout) ]

/-- The field of the handlers, which is left out when there are none. -/
def handlersField : List EventHandler → List (String × Json.Value)
  | [] => []
  | handlers => [("handlers", .array (handlers.map EventHandler.toJson))]

mutual

def Node.toJson : Node → Json.Value
  | .element tag attrs handlers children =>
    .object [("element", .object
      ([("tag", .string tag), ("attrs", pairsToJson attrs.entries)] ++ handlersField handlers ++
        [("children", .array (Node.listToJson children))]))]
  | .text s => .object [("text", .string s)]
  | .comment s => .object [("comment", .string s)]
  | .fragment children => .object [("fragment", .array (Node.listToJson children))]
  | .component c => .object [("component", c.toJson)]
  | .deferred d => .object [("deferred", d.toJson)]

def Node.listToJson : List Node → List Json.Value
  | [] => []
  | n :: rest => n.toJson :: Node.listToJson rest

end

def forestToJson (nodes : List Node) : Json.Value :=
  .array (Node.listToJson nodes)

end RenderForest
