import RenderForest.Tree.Attributes
import RenderForest.Tree.Host
/-!
# Node — the render tree

A render tree is made of elements, texts, comments and fragments, and of two kinds of rich
blocks: components that the host renders, and deferred blocks that are loaded later.  This file
defines:

* `CodeBlock`, what is known of a fenced block, and the records of rich blocks;
* `Node`, the tree;
* `Node.text`-like views: `Node.children`, `Node.tag?`, `Node.attr?`, `Node.textContent`.
-/

namespace RenderForest

/-! ## Records of rich blocks -/

/-- What a resolver is told of a fenced block. -/
structure CodeBlock where
  language : String := ""
  arguments : String := ""
  content : String := ""
  attrs : Catalog String := []
  info : String := ""
  deriving DecidableEq, Repr, Inhabited

inductive Rendering (ν : Type) where
  | node (n : ν)
  | failed (e : RenderError)
  | panicked (p : Panic)
  deriving Repr

/-- A component with the outcome of its run, or a descriptor that the host mounts. -/
inductive ComponentRef (ν : Type) where
  | component (name : String) (rendering : Rendering ν)
  | descriptor (d : Descriptor)
  deriving Repr

/-- A rich block in the tree; `fallback` is the default render of its code block. -/
structure Component (ν : Type) where
  reference : ComponentRef ν
  key : String
  block : CodeBlock
  fallback : ν
  deriving Repr

inductive LoadResult (ν : Type) where
  | node (n : ν)
  | failed (e : OverrideError)
  | panicked (p : Panic)
  deriving Repr

/-- A loader: the time it needs and its result, or a load that never finishes. -/
inductive Loader (ν : Type) where
  | finishes (after : Nat) (result : LoadResult ν)
  | never
  deriving Repr

inductive SlotState (ν : Type) where
  | pending
  | loaded (n : ν)
  | failed (message : String)
  | timedOut
  deriving Repr

/-- Times, in milliseconds, and the placeholder of a deferred block. -/
structure DeferredConfig (ν : Type) where
  delay : Nat
  timeout : Nat
  placeholder : ν
  deriving Repr

/-- A block whose node is loaded later; the loader is there until it is taken to be run. -/
structure Deferred (ν : Type) where
  key : String
  config : DeferredConfig ν
  fallback : ν
  loader : Option (Loader ν)
  state : SlotState ν
  deriving Repr

/-! ## The tree -/

inductive HandlerAction where
  | pauseIfDetachedElseScrollIntoView
  deriving DecidableEq, Repr

structure EventHandler where
  event : String
  action : HandlerAction
  deriving DecidableEq, Repr

inductive Node where
  | element (tag : String) (attrs : Attributes) (handlers : List EventHandler)
      (children : List Node)
  | text (text : String)
  | comment (text : String)
  | fragment (children : List Node)
  | component (block : Component Node)
  | deferred (block : Deferred Node)
  deriving Repr

instance : Inhabited Node := ⟨.fragment []⟩

namespace Node

def plain (tag : String) (attrs : Attributes) (children : List Node) : Node :=
  .element tag attrs [] children

def empty : Node := .fragment []

/-- One node stands for itself, and any other number for a fragment. -/
def ofForest : List Node → Node
  | [n] => n
  | nodes => .fragment nodes

def isContainer : Node → Bool
  | .element .. => true
  | .fragment _ => true
  | _ => false

def children : Node → List Node
  | .element _ _ _ cs => cs
  | .fragment cs => cs
  | _ => []

/-- Adds children behind those that an element or fragment has. -/
def append (extra : List Node) : Node → Node
  | .element tag attrs handlers cs => .element tag attrs handlers (cs ++ extra)
  | .fragment cs => .fragment (cs ++ extra)
  | n => n

def tag? : Node → Option String
  | .element tag _ _ _ => some tag
  | _ => none

def attr? (name : String) : Node → Option String
  | .element _ attrs _ _ => attrs.get? name
  | _ => none

mutual

/-- The texts of a tree in document order. -/
def textContent : Node → String
  | .text s => s
  | .element _ _ _ cs => textContents cs
  | .fragment cs => textContents cs
  | _ => ""

def textContents : List Node → String
  | [] => ""
  | n :: rest => n.textContent ++ textContents rest

end

/-! ## Equality -/

/-- Two references of one key are the same when they name the same component or descriptor. -/
def sameReference : ComponentRef Node → ComponentRef Node → Bool
  | .component a _, .component b _ => a == b
  | .descriptor a, .descriptor b => a == b
  | _, _ => false

mutual

/-- Equality of trees; rich blocks are the same when their keys are. -/
def same : Node → Node → Bool
  | .element t a h cs, .element t' a' h' cs' => t == t' && a == a' && h == h' && sameAll cs cs'
  | .text a, .text b => a == b
  | .comment a, .comment b => a == b
  | .fragment a, .fragment b => sameAll a b
  | .component a, .component b => a.key == b.key && sameReference a.reference b.reference
  | .deferred a, .deferred b => a.key == b.key
  | _, _ => false

def sameAll : List Node → List Node → Bool
  | [], [] => true
  | a :: as, b :: bs => a.same b && sameAll as bs
  | _, _ => false

end

instance : BEq Node := ⟨same⟩

end Node
end RenderForest
