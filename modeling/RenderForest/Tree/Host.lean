import RenderForest.Json.Value
/-!
# Host — what the surrounding program may answer

The host supplies functions that render code blocks its own way.  Each may give a value, report
an error or panic.  This file defines:

* `Panic`, the payload of a panic and its wording;
* `OverrideError`, the failures of a resolver or loader, and `RenderError`, those of a component;
* `Answer`, a value or a panic;
* `Descriptor`, a component that the host finds by name.
-/

namespace RenderForest

inductive Panic where
  | text (message : String)
  | other
  deriving DecidableEq, Repr

def Panic.message : Panic → String
  | .text m => m
  | .other => "unknown panic payload"

inductive OverrideError where
  | resolver (lang message : String)
  | load (message : String)
  | panicked (message : String)
  | unnamedDescriptor
  deriving DecidableEq, Repr

def OverrideError.message : OverrideError → String
  | .resolver lang m => "code block resolver failed for `" ++ lang ++ "`: " ++ m
  | .load m => "rich block loader failed: " ++ m
  | .panicked m => "rich block override panicked: " ++ m
  | .unnamedDescriptor => "component descriptor is missing a name"

inductive RenderError where
  | component (name message : String)
  | panicked (message : String)
  deriving DecidableEq, Repr

/-- What a call of a host function ends with. -/
inductive Answer (α : Type) where
  | value (a : α)
  | panic (p : Panic)
  deriving Repr

/-- A component that the host looks up by name when it mounts the tree. -/
structure Descriptor where
  name : String
  props : Json.Fields := []
  deriving BEq, Repr

end RenderForest
