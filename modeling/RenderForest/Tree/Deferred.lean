import RenderForest.Tree.Node
/-!
# Deferred — blocks that are loaded later

A deferred block is pending until it is settled once.  Settling takes its loader and runs it for
the time that is left until the timeout, counted from the creation of the block.  All clones of a
block share its loader and its state.  This file defines:

* `Deferred.fresh`, a pending block, and the default configuration;
* `Deferred.settle`, the transition at a time, and `Deferred.settleTime`, how long it takes;
* `Deferred.current`, what is shown at a time, and `Deferred.snapshot`, what is shown at the end.
-/

namespace RenderForest

namespace SlotState

def isSettled : SlotState ν → Bool
  | .pending => false
  | _ => true

def label : SlotState ν → String
  | .pending => "pending"
  | .loaded _ => "loaded"
  | .failed _ => "failed"
  | .timedOut => "timed_out"

end SlotState

namespace DeferredConfig

def defaultPlaceholder : Node :=
  .plain "div" (Attributes.empty.set "class" "rich-block-loading") [.text "Loading…"]

/-- Nothing is shown for a fifth of a second, and a load may take three. -/
def standard : DeferredConfig Node :=
  { delay := 200, timeout := 3000, placeholder := defaultPlaceholder }

end DeferredConfig

namespace Deferred

def fresh (key : String) (loader : Loader ν) (fallback : ν) (config : DeferredConfig ν) :
    Deferred ν :=
  { key, config, fallback, loader := some loader, state := .pending }

def stateOf : LoadResult ν → SlotState ν
  | .node n => .loaded n
  | .failed e => .failed e.message
  | .panicked p => .failed (OverrideError.panicked p.message).message

/-- How a load ends that has some time left.  A loader that needs exactly the time left is in
time. -/
def outcome (remaining : Nat) : Loader ν → SlotState ν
  | .never => .timedOut
  | .finishes after result => if after ≤ remaining then stateOf result else .timedOut

/-- How long a load runs that has some time left. -/
def loadTime (remaining : Nat) : Loader ν → Nat
  | .never => remaining
  | .finishes after _ => min after remaining

/-- Settles a block at a time after its creation.  The loader is taken, so that a block without
one stays as it is. -/
def settle (elapsed : Nat) (d : Deferred ν) : Deferred ν :=
  match d.loader with
  | some loader =>
    { d with loader := none, state := outcome (d.config.timeout - elapsed) loader }
  | none => d

def settleTime (elapsed : Nat) (d : Deferred ν) : Nat :=
  match d.loader with
  | some loader => loadTime (d.config.timeout - elapsed) loader
  | none => 0

/-- What is shown at a time after the creation, if anything. -/
def current (elapsed : Nat) (d : Deferred ν) : Option ν :=
  match d.state with
  | .loaded n => some n
  | .failed _ => some d.fallback
  | .timedOut => some d.fallback
  | .pending =>
    if d.config.timeout ≤ elapsed then some d.fallback
    else if d.config.delay ≤ elapsed then some d.config.placeholder
    else none

/-- The loaded node if there is one, and the default render otherwise. -/
def snapshot (d : Deferred ν) : ν :=
  match d.state with
  | .loaded n => n
  | _ => d.fallback

end Deferred
end RenderForest
