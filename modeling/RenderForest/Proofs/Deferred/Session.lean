import RenderForest.Tree.Deferred
/-!
# Session — a deferred block and its clones over time

Clones copy the key, the times and the default render of a deferred block, and share its loader and
its state.  A session runs a block and its clones under a clock that counts from the creation.  A
call of `settle` begins at once and is driven to its end: the first takes the loader and runs it,
further ones wait while that load goes on.  All that can be seen from outside is put on record, in
order.  The default render is a value here, as drawing it depends on the block alone.  This file
defines:

* `Stage` and `Deferred.stage`, how far the view of a block has come at a time;
* `Session`, with its parts in the namespace of the same name;
* `Session.step`, what an event does, and `Session.run`, what a list of events does.
-/

namespace RenderForest

variable {ν : Type}

/-! ## Stages -/

inductive Stage where
  | nothing
  | placeholder
  | final
  deriving DecidableEq, Repr

def Stage.rank : Stage → Nat
  | .nothing => 0
  | .placeholder => 1
  | .final => 2

/-- The stage of what is shown at a time after the creation: a final view is the loaded node, or the
default render once the load has failed or the timeout has passed. -/
def Deferred.stage (elapsed : Nat) (d : Deferred ν) : Stage :=
  if d.state.isSettled || d.config.timeout ≤ elapsed then .final
  else if d.config.delay ≤ elapsed then .placeholder
  else .nothing

/-! ## Parts of a session -/

namespace Session

/-- What a clone copies. -/
structure Handle (ν : Type) where
  key : String
  config : DeferredConfig ν
  fallback : ν

/-- What clones share: the loader until it is taken, and the state. -/
structure Shared (ν : Type) where
  loader : Option (Loader ν)
  state : SlotState ν

/-- The block that a handle stands for. -/
def Handle.on (h : Handle ν) (slot : Shared ν) : Deferred ν :=
  { key := h.key, config := h.config, fallback := h.fallback, loader := slot.loader,
    state := slot.state }

/-- What can be seen of a block: a call of `settle` begins, the loader is run, the state is written,
a call of `settle` gives its node, and the answers of the other calls. -/
inductive Act (ν : Type) where
  | asked
  | ran
  | wrote (state : SlotState ν)
  | gave (n : ν)
  | showed (now : Nat) (stage : Stage) (view : Option ν)
  | snapped (n : ν)
  | told (state : SlotState ν)

structure Entry (ν : Type) where
  time : Nat
  act : Act ν

inductive Call where
  | clone
  | settle
  | current (now : Nat)
  | snapshot
  | state
  deriving Repr

inductive Event where
  | wait (time : Nat)
  | call (handle : Nat) (call : Call)
  deriving Repr

end Session

/-- A block and its clones; the load that goes on, with the time and the state in which it ends; the
handles whose calls of `settle` wait for it; and the record. -/
structure Session (ν : Type) where
  clock : Nat
  slot : Session.Shared ν
  handles : List (Session.Handle ν)
  load : Option (Nat × SlotState ν)
  waiting : List (Session.Handle ν)
  log : List (Session.Entry ν)

namespace Session

def start (d : Deferred ν) : Session ν :=
  { clock := 0
    slot := { loader := d.loader, state := d.state }
    handles := [{ key := d.key, config := d.config, fallback := d.fallback }]
    load := none
    waiting := []
    log := [] }

/-! ## Events -/

def note (s : Session ν) (act : Act ν) : Session ν :=
  { s with log := s.log ++ [⟨s.clock, act⟩] }

/-- Ends the load if it is due: the state is written, and all calls that wait give what the block
shows then. -/
def finish (s : Session ν) (limit : Nat) : Session ν :=
  match s.load with
  | some (due, state) =>
    if due ≤ limit then
      let slot := { s.slot with state }
      let answers := s.waiting.map fun h => ⟨due, .gave (h.on slot).snapshot⟩
      { s with slot, load := none, waiting := [], log := s.log ++ ⟨due, .wrote state⟩ :: answers }
    else s
  | none => s

/-- Runs the loader.  What settling the block leads to is written when the load ends. -/
def beginLoad (s : Session ν) (h : Handle ν) : Session ν :=
  let d := h.on s.slot
  let settled := d.settle s.clock
  { s with
    slot := { s.slot with loader := settled.loader }
    load := some (s.clock + d.settleTime s.clock, settled.state)
    waiting := [h] }.note .ran

def settle (s : Session ν) (h : Handle ν) : Session ν :=
  let s := s.note .asked
  match s.load, s.slot.loader with
  | some _, _ => { s with waiting := s.waiting ++ [h] }
  | none, some _ => (s.beginLoad h).finish s.clock
  | none, none => s.note (.gave (h.on s.slot).snapshot)

def answer (s : Session ν) (h : Handle ν) : Call → Session ν
  | .clone => { s with handles := s.handles ++ [h] }
  | .settle => s.settle h
  | .current now =>
    s.note (.showed now ((h.on s.slot).stage now) ((h.on s.slot).current now))
  | .snapshot => s.note (.snapped (h.on s.slot).snapshot)
  | .state => s.note (.told s.slot.state)

/-- A load that ends while time passes ends at its own time. -/
def step (s : Session ν) : Event → Session ν
  | .wait time => { s.finish (s.clock + time) with clock := s.clock + time }
  | .call i call =>
    match s.handles[i]? with
    | some h => s.answer h call
    | none => s

def run (s : Session ν) (events : List Event) : Session ν :=
  events.foldl step s

end Session
end RenderForest
