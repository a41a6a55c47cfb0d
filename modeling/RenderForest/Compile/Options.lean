import RenderForest.Tree.Deferred
/-!
# Options — what the host decides for a compiler

This file defines:

* `Highlighter` and `Resolver`, the two functions that a host may supply;
* `BlockProps` and `Override`, what a resolver hands back for a block that it takes over;
* `Options`, all settings of a compiler.
-/

namespace RenderForest

/-- Turns the content of a block into trusted markup, given its language and arguments; no markup
means that the content is to be escaped. -/
abbrev Highlighter := String → String → String → Answer (Option String)

structure BlockProps where
  block : CodeBlock
  key : String
  fallback : Node

inductive Override where
  | component (name : String) (render : BlockProps → Answer (Except RenderError Node))
  | descriptor (d : Descriptor)
  | deferred (loader : Loader Node)

/-- May take over the render of a block. -/
abbrev Resolver := CodeBlock → Answer (Except OverrideError (Option Override))

structure Options where
  /-- Whether a soft line break is shown as a break. -/
  breaks : Bool := false
  /-- What stands before the language in the class of a code block. -/
  langClass : String := "language-"
  highlight : Option Highlighter := none
  resolver : Option Resolver := none
  deferred : DeferredConfig Node := .standard

instance : Inhabited Options := ⟨{}⟩

end RenderForest
