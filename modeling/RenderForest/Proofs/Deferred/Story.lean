import RenderForest.Proofs.Deferred.Session
/-!
# Story — what every record of a session looks like

A record has two parts: what was seen while the block was pending, by the time alone, and what was
seen once its state was written, which is one node for ever.  Between the first call of `settle` and
the writing of the state the loader runs.  This file defines:

* `Act.FitsPending` and `Act.FitsFinal`, what may be seen of a pending and of a settled block;
* `Entry.IsEarly` and `Entry.IsLate`, what may be recorded before and after the state is written;
* `Session.Idle`, `Session.Loading` and `Session.Settled`, the three phases;
* `Session.Story`, the invariant;

and shows in `story_step` that an event keeps the invariant, and in `story_run` that it holds after
all events.
-/

namespace RenderForest

variable {ν : Type}

/-! ## Acts -/

/-- What is shown of a pending block at a time: nothing below the delay, the placeholder from the
delay up to the timeout, and the default render from the timeout on, however long the delay is. -/
structure PendingView (config : DeferredConfig ν) (fallback : ν) (now : Nat) (stage : Stage)
    (view : Option ν) : Prop where
  nothing : now < config.timeout → now < config.delay → stage = .nothing ∧ view = none
  placeholder : now < config.timeout → config.delay ≤ now →
    stage = .placeholder ∧ view = some config.placeholder
  fallback : config.timeout ≤ now → stage = .final ∧ view = some fallback

def SlotState.finalView (fallback : ν) : SlotState ν → ν
  | .loaded n => n
  | _ => fallback

namespace Session

variable {h : Handle ν} {loader : Loader ν} {s : Session ν} {a : Act ν} {t : Nat}

def Act.FitsPending (h : Handle ν) : Act ν → Prop
  | .showed now stage view => PendingView h.config h.fallback now stage view
  | .snapped n => n = h.fallback
  | .told state => state = .pending
  | _ => False

/-- What may be seen of a settled block: one node, and one state. -/
def Act.FitsFinal (h : Handle ν) (state : SlotState ν) : Act ν → Prop
  | .showed _ stage view => stage = .final ∧ view = some (state.finalView h.fallback)
  | .gave n => n = state.finalView h.fallback
  | .snapped n => n = state.finalView h.fallback
  | .told state' => state' = state
  | _ => False

/-- What may be recorded before the state is written: calls of `settle` that get no answer yet, the
run of the loader, and looks at a pending block. -/
def Entry.IsEarly (h : Handle ν) (e : Entry ν) : Prop :=
  e.act = .asked ∨ e.act = .ran ∨ e.act.FitsPending h

/-- What may be recorded after the state is written. -/
def Entry.IsLate (h : Handle ν) (state : SlotState ν) (e : Entry ν) : Prop :=
  e.act = .asked ∨ e.act.FitsFinal h state

def Act.isAsked : Act ν → Bool
  | .asked => true
  | _ => false

def Act.isRan : Act ν → Bool
  | .ran => true
  | _ => false

def Act.isWrote : Act ν → Bool
  | .wrote _ => true
  | _ => false

def Act.isGave : Act ν → Bool
  | .gave _ => true
  | _ => false

def count (p : Act ν → Bool) (log : List (Entry ν)) : Nat :=
  log.countP fun e => p e.act

/-- What a call that only looks sees of the block. -/
inductive Looks (h : Handle ν) (slot : Shared ν) : Act ν → Prop where
  | current (now : Nat) :
      Looks h slot (.showed now ((h.on slot).stage now) ((h.on slot).current now))
  | snapshot : Looks h slot (.snapped (h.on slot).snapshot)
  | state : Looks h slot (.told slot.state)

theorem Looks.fitsPending {l : Option (Loader ν)} (ha : Looks h ⟨l, .pending⟩ a) :
    a.FitsPending h := by
  cases ha with
  | snapshot => rfl
  | state => rfl
  | current now =>
      refine ⟨?_, ?_, ?_⟩
      · intro htimeout hdelay
        have hearly := Nat.not_le.2 htimeout
        have hhidden := Nat.not_le.2 hdelay
        simp [Handle.on, Deferred.stage, Deferred.current, SlotState.isSettled, hearly, hhidden]
      · intro htimeout hdelay
        have hearly := Nat.not_le.2 htimeout
        simp [Handle.on, Deferred.stage, Deferred.current, SlotState.isSettled, hearly, hdelay]
      · intro htimeout
        simp [Handle.on, Deferred.stage, Deferred.current, htimeout]

theorem snapshot_on (h : Handle ν) (l : Option (Loader ν)) (state : SlotState ν) :
    (h.on ⟨l, state⟩).snapshot = state.finalView h.fallback := by
  cases state <;> rfl

theorem Looks.fitsFinal {l : Option (Loader ν)} {state : SlotState ν}
    (hstate : state.isSettled = true) (ha : Looks h ⟨l, state⟩ a) : a.FitsFinal h state := by
  cases ha with
  | snapshot => exact snapshot_on h l state
  | state => rfl
  | current now =>
      refine ⟨?_, ?_⟩
      · simp [Handle.on, Deferred.stage, hstate]
      · cases state with
        | pending => cases hstate
        | loaded n => rfl
        | failed message => rfl
        | timedOut => rfl

/-! ## Phases -/

def due (h : Handle ν) (loader : Loader ν) (t : Nat) : Nat :=
  t + Deferred.loadTime (h.config.timeout - t) loader

def result (h : Handle ν) (loader : Loader ν) (t : Nat) : SlotState ν :=
  Deferred.outcome (h.config.timeout - t) loader

structure Idle (h : Handle ν) (loader : Loader ν) (s : Session ν) : Prop where
  slot : s.slot = ⟨some loader, .pending⟩
  load : s.load = none
  waiting : s.waiting = []
  log : ∀ e ∈ s.log, e.act.FitsPending h

/-- The record of a block whose loader was run at a time: the first call of `settle` ran it. -/
def LoadLog (h : Handle ν) (t : Nat) (log : List (Entry ν)) : Prop :=
  ∃ before during, log = before ++ ⟨t, .asked⟩ :: ⟨t, .ran⟩ :: during ∧
    (∀ e ∈ before, e.act.FitsPending h) ∧ ∀ e ∈ during, e.act = .asked ∨ e.act.FitsPending h

/-- The loader was run at a time, and the load goes on. -/
structure Loading (h : Handle ν) (loader : Loader ν) (t : Nat) (s : Session ν) : Prop where
  slot : s.slot = ⟨none, .pending⟩
  load : s.load = some (due h loader t, result h loader t)
  log : LoadLog h t s.log
  -- With the time of the load this tells what was seen before the timeout.
  early : ∀ e ∈ s.log, e.time ≤ t ∨ e.time < due h loader t
  handles : ∀ h' ∈ s.waiting, h' = h
  -- No call is answered while the load goes on, so that each one still waits.
  waiting : s.waiting.length = count Act.isAsked s.log

/-- The loader was run at a time, and the state is written. -/
structure Settled (h : Handle ν) (loader : Loader ν) (t : Nat) (s : Session ν) : Prop where
  slot : s.slot = ⟨none, result h loader t⟩
  load : s.load = none
  waiting : s.waiting = []
  log : ∃ earlier later, s.log = earlier ++ ⟨due h loader t, .wrote (result h loader t)⟩ :: later ∧
    LoadLog h t earlier ∧ (∀ e ∈ earlier, e.time ≤ t ∨ e.time < due h loader t) ∧
    ∀ e ∈ later, e.IsLate h (result h loader t)
  answered : count Act.isGave s.log = count Act.isAsked s.log

/-- The times of a record ascend up to that of the clock. -/
structure Timed (log : List (Entry ν)) (clock : Nat) : Prop where
  sorted : log.Pairwise fun e e' => e.time ≤ e'.time
  past : ∀ e ∈ log, e.time ≤ clock

/-- A session is in one of the phases; a load goes on as long as it is not due. -/
def InPhase (h : Handle ν) (loader : Loader ν) (s : Session ν) : Prop :=
  s.Idle h loader ∨ (∃ t, s.Loading h loader t ∧ s.clock < due h loader t) ∨
    ∃ t, s.Settled h loader t ∧ due h loader t ≤ s.clock

/-- What holds of a session at any time. -/
structure Story (h : Handle ν) (loader : Loader ν) (s : Session ν) : Prop where
  handles : ∀ h' ∈ s.handles, h' = h
  timed : Timed s.log s.clock
  phase : s.InPhase h loader

/-! ## Times -/

theorem loadTime_le (remaining : Nat) (loader : Loader ν) :
    Deferred.loadTime remaining loader ≤ remaining := by
  cases loader with
  | never => exact Nat.le_refl _
  | finishes after r => exact Nat.min_le_right _ _

theorem isSettled_result (h : Handle ν) (loader : Loader ν) (t : Nat) :
    (result h loader t).isSettled = true := by
  cases loader with
  | never => rfl
  | finishes after r =>
      rw [result, Deferred.outcome]
      split
      · cases r <;> rfl
      · rfl

theorem le_due (h : Handle ν) (loader : Loader ν) (t : Nat) : t ≤ due h loader t :=
  Nat.le_add_right _ _

/-- A load that begins before the timeout ends by the timeout. -/
theorem due_le_timeout (loader : Loader ν) (ht : t ≤ h.config.timeout) :
    due h loader t ≤ h.config.timeout := by
  have hle := loadTime_le (h.config.timeout - t) loader
  unfold due
  omega

theorem Timed.mono {log : List (Entry ν)} {clock clock' : Nat} (hlog : Timed log clock)
    (hle : clock ≤ clock') : Timed log clock' :=
  ⟨hlog.sorted, fun e he => Nat.le_trans (hlog.past e he) hle⟩

theorem Timed.append {log entries : List (Entry ν)} {clock time : Nat} (hlog : Timed log clock)
    (hle : clock ≤ time) (hentries : ∀ e ∈ entries, e.time = time) :
    Timed (log ++ entries) time := by
  have hlog' := hlog.mono hle
  refine ⟨List.pairwise_append.2 ⟨hlog.sorted, ?_, ?_⟩, ?_⟩
  · refine List.pairwise_of_forall_mem_list ?_
    intro e he e' he'
    exact Nat.le_of_eq ((hentries e he).trans (hentries e' he').symm)
  · intro e he e' he'
    rw [hentries e' he']
    exact hlog'.past e he
  · intro e he
    rcases List.mem_append.1 he with he | he
    · exact hlog'.past e he
    · exact Nat.le_of_eq (hentries e he)

theorem Timed.note (hlog : Timed s.log s.clock) (a : Act ν) :
    Timed (s.note a).log (s.note a).clock := by
  refine hlog.append (Nat.le_refl _) ?_
  exact List.forall_mem_singleton.2 rfl

/-! ## Looking at the block -/

@[simp] theorem count_append (p : Act ν → Bool) (log log' : List (Entry ν)) :
    count p (log ++ log') = count p log + count p log' :=
  List.countP_append

@[simp] theorem count_cons (p : Act ν → Bool) (e : Entry ν) (log : List (Entry ν)) :
    count p (e :: log) = count p log + if p e.act then 1 else 0 :=
  List.countP_cons

@[simp] theorem count_nil (p : Act ν → Bool) : count p [] = 0 := rfl

theorem forall_mem_note {P : Entry ν → Prop} :
    (∀ e ∈ (s.note a).log, P e) ↔ (∀ e ∈ s.log, P e) ∧ P ⟨s.clock, a⟩ := by
  simp [Session.note, or_imp, forall_and]

theorem Idle.note (hs : s.Idle h loader) (ha : a.FitsPending h) : (s.note a).Idle h loader :=
  ⟨hs.slot, hs.load, hs.waiting, forall_mem_note.2 ⟨hs.log, ha⟩⟩

theorem LoadLog.append {log : List (Entry ν)} {e : Entry ν} (hlog : LoadLog h t log)
    (he : e.act = .asked ∨ e.act.FitsPending h) : LoadLog h t (log ++ [e]) := by
  obtain ⟨before, during, rfl, hbefore, hduring⟩ := hlog
  refine ⟨before, during ++ [e], by simp, hbefore, ?_⟩
  exact List.forall_mem_append.2 ⟨hduring, List.forall_mem_singleton.2 he⟩

theorem Act.FitsPending.count_eq (ha : a.FitsPending h) :
    a.isAsked = false ∧ a.isGave = false ∧ a.isRan = false ∧ a.isWrote = false := by
  cases a <;> simp_all [Act.FitsPending, Act.isAsked, Act.isGave, Act.isRan, Act.isWrote]

theorem Loading.note (hs : s.Loading h loader t) (hclock : s.clock < due h loader t)
    (ha : a.FitsPending h) : (s.note a).Loading h loader t := by
  refine ⟨hs.slot, hs.load, hs.log.append (Or.inr ha), ?_, hs.handles, ?_⟩
  · exact forall_mem_note.2 ⟨hs.early, Or.inr hclock⟩
  · simp [Session.note, ha.count_eq.1, hs.waiting]

theorem Settled.append {s' : Session ν} {entries : List (Entry ν)} (hs : s.Settled h loader t)
    (hslot : s'.slot = s.slot) (hload : s'.load = s.load) (hwaiting : s'.waiting = s.waiting)
    (hlog : s'.log = s.log ++ entries)
    (hentries : ∀ e ∈ entries, e.IsLate h (result h loader t))
    (hcount : count Act.isGave entries = count Act.isAsked entries) : s'.Settled h loader t := by
  obtain ⟨earlier, later, heq, hearlier, hearly, hlater⟩ := hs.log
  refine ⟨hslot.trans hs.slot, hload.trans hs.load, hwaiting.trans hs.waiting, ?_, ?_⟩
  · refine ⟨earlier, later ++ entries, ?_, hearlier, hearly, ?_⟩
    · rw [hlog, heq, List.append_assoc, List.cons_append]
    · exact List.forall_mem_append.2 ⟨hlater, hentries⟩
  · rw [hlog, count_append, count_append, hs.answered, hcount]

theorem Looks.count_eq {slot : Shared ν} (ha : Looks h slot a) :
    a.isAsked = false ∧ a.isGave = false := by
  cases ha <;> exact ⟨rfl, rfl⟩

theorem Story.look (hs : s.Story h loader) (ha : Looks h s.slot a) :
    (s.note a).Story h loader := by
  refine ⟨hs.handles, hs.timed.note a, ?_⟩
  rcases hs.phase with hidle | ⟨t, hloading, hclock⟩ | ⟨t, hsettled, hclock⟩
  · rw [hidle.slot] at ha
    exact Or.inl (hidle.note ha.fitsPending)
  · rw [hloading.slot] at ha
    exact Or.inr (Or.inl ⟨t, hloading.note hclock ha.fitsPending, hclock⟩)
  · have hcount := ha.count_eq
    rw [hsettled.slot] at ha
    have hfits := ha.fitsFinal (isSettled_result h loader t)
    refine Or.inr (Or.inr ⟨t, ?_, hclock⟩)
    refine hsettled.append rfl rfl rfl rfl ?_ ?_
    · exact List.forall_mem_singleton.2 (Or.inr hfits)
    · simp [hcount.1, hcount.2]

/-! ## The end of a load -/

theorem count_eq_zero {p : Act ν → Bool} {log : List (Entry ν)}
    (hlog : ∀ e ∈ log, p e.act = false) : count p log = 0 :=
  List.countP_eq_zero.2 fun e he => by simp [hlog e he]

theorem LoadLog.count_gave {log : List (Entry ν)} (hlog : LoadLog h t log) :
    count Act.isGave log = 0 := by
  obtain ⟨before, during, rfl, hbefore, hduring⟩ := hlog
  have hbefore' : count Act.isGave before = 0 :=
    count_eq_zero fun e he => (hbefore e he).count_eq.2.1
  have hduring' : count Act.isGave during = 0 := by
    refine count_eq_zero fun e he => ?_
    rcases hduring e he with hasked | hfits
    · rw [hasked]
      rfl
    · exact hfits.count_eq.2.1
  simp [hbefore', hduring', Act.isGave]

theorem finish_of_none (hload : s.load = none) (limit : Nat) : s.finish limit = s := by
  simp [Session.finish, hload]

theorem Loading.finish_of_lt {limit : Nat} (hs : s.Loading h loader t)
    (hlimit : limit < due h loader t) : s.finish limit = s := by
  have hnot := Nat.not_le.2 hlimit
  simp [Session.finish, hs.load, hnot]

def endEntries (h : Handle ν) (loader : Loader ν) (t : Nat) (waiting : List (Handle ν)) :
    List (Entry ν) :=
  ⟨due h loader t, .wrote (result h loader t)⟩ :: waiting.map fun h' =>
    ⟨due h loader t, .gave ((result h loader t).finalView h'.fallback)⟩

theorem Loading.finish_of_le {limit : Nat} (hs : s.Loading h loader t)
    (hlimit : due h loader t ≤ limit) :
    s.finish limit =
      { s with slot := ⟨none, result h loader t⟩, load := none, waiting := [],
               log := s.log ++ endEntries h loader t s.waiting } := by
  simp [Session.finish, hs.load, hs.slot, hlimit, endEntries, snapshot_on]

/-- A load that is due leaves a settled block, and answers all calls that waited for it. -/
theorem Loading.settled {limit : Nat} (hs : s.Loading h loader t)
    (hlimit : due h loader t ≤ limit) : (s.finish limit).Settled h loader t := by
  rw [hs.finish_of_le hlimit]
  -- All calls waited for the load, and each of them is answered with the node that it left.
  refine ⟨rfl, rfl, rfl, ⟨s.log, _, rfl, hs.log, hs.early, ?_⟩, ?_⟩
  · intro e he
    obtain ⟨h', hh', rfl⟩ := List.mem_map.1 he
    rw [hs.handles h' hh']
    exact Or.inr rfl
  · have hasked : ∀ e ∈ s.waiting.map fun h' : Handle ν =>
        (⟨due h loader t, .gave ((result h loader t).finalView h'.fallback)⟩ : Entry ν),
        e.act.isAsked = false ∧ e.act.isGave = true := by
      intro e he
      obtain ⟨h', _, rfl⟩ := List.mem_map.1 he
      exact ⟨rfl, rfl⟩
    have hzero := count_eq_zero fun e he => (hasked e he).1
    have hall : count Act.isGave _ = _ := List.countP_eq_length.2 fun e he => (hasked e he).2
    simp [endEntries, hs.log.count_gave, hzero, hall, ← hs.waiting, Act.isAsked, Act.isGave]

theorem Timed.finish {limit : Nat} (hs : s.Loading h loader t) (htimed : Timed s.log s.clock)
    (hclock : s.clock ≤ due h loader t) (hlimit : due h loader t ≤ limit) :
    Timed (s.finish limit).log limit := by
  rw [hs.finish_of_le hlimit]
  refine Timed.mono (htimed.append hclock ?_) hlimit
  intro e he
  rcases List.mem_cons.1 he with rfl | he
  · rfl
  · obtain ⟨h', _, rfl⟩ := List.mem_map.1 he
    rfl

theorem finish_handles (s : Session ν) (limit : Nat) : (s.finish limit).handles = s.handles := by
  unfold Session.finish
  split
  · split <;> rfl
  · rfl

theorem finish_clock (s : Session ν) (limit : Nat) : (s.finish limit).clock = s.clock := by
  unfold Session.finish
  split
  · split <;> rfl
  · rfl

theorem Story.wait (hs : s.Story h loader) (time : Nat) :
    (s.step (.wait time)).Story h loader := by
  have hhandles : ∀ h' ∈ (s.finish (s.clock + time)).handles, h' = h := by
    rw [finish_handles]
    exact hs.handles
  have hle := Nat.le_add_right s.clock time
  -- Only a load that is due in the meantime changes more than the clock.
  suffices hrest : Timed (s.step (.wait time)).log (s.clock + time) ∧
      (s.step (.wait time)).InPhase h loader from ⟨hhandles, hrest.1, hrest.2⟩
  rcases hs.phase with hidle | ⟨t, hloading, hclock⟩ | ⟨t, hsettled, hclock⟩
  · have hfinish := finish_of_none hidle.load (s.clock + time)
    rw [Session.step, hfinish]
    exact ⟨hs.timed.mono hle, Or.inl { hidle with }⟩
  · rcases Nat.lt_or_ge (s.clock + time) (due h loader t) with hlimit | hlimit
    · rw [Session.step, hloading.finish_of_lt hlimit]
      exact ⟨hs.timed.mono hle, Or.inr (Or.inl ⟨t, { hloading with }, hlimit⟩)⟩
    · have hend := hloading.settled hlimit
      have htimed := hs.timed.finish hloading (Nat.le_of_lt hclock) hlimit
      exact ⟨htimed, Or.inr (Or.inr ⟨t, { hend with }, hlimit⟩)⟩
  · have hfinish := finish_of_none hsettled.load (s.clock + time)
    rw [Session.step, hfinish]
    have hpast := Nat.le_trans hclock hle
    exact ⟨hs.timed.mono hle, Or.inr (Or.inr ⟨t, { hsettled with }, hpast⟩)⟩

/-! ## The first call of settle, and further ones -/

theorem Idle.beginLoad (hs : s.Idle h loader) (htimed : Timed s.log s.clock) :
    ((s.note .asked).beginLoad h).Loading h loader s.clock := by
  -- The loader is taken by the first call, for the time that is left then.
  have hlog : ((s.note .asked).beginLoad h).log =
      s.log ++ ⟨s.clock, .asked⟩ :: ⟨s.clock, .ran⟩ :: [] := by
    simp [Session.beginLoad, Session.note]
  have hnone : count Act.isAsked s.log = 0 := count_eq_zero fun e he => (hs.log e he).count_eq.1
  refine ⟨?_, ?_, ?_, ?_, ?_, ?_⟩
  · simp [Session.beginLoad, Session.note, Handle.on, Deferred.settle, hs.slot]
  · simp [Session.beginLoad, Session.note, Handle.on, Deferred.settle, Deferred.settleTime, hs.slot,
      due, result]
  · refine ⟨s.log, [], hlog, hs.log, ?_⟩
    intro e he
    cases he
  · rw [hlog]
    refine List.forall_mem_append.2 ⟨?_, List.forall_mem_cons.2 ⟨?_, ?_⟩⟩
    · intro e he
      exact Or.inl (htimed.past e he)
    · exact Or.inl (Nat.le_refl _)
    · exact List.forall_mem_singleton.2 (Or.inl (Nat.le_refl _))
  · exact List.forall_mem_singleton.2 rfl
  · rw [hlog]
    simp [Session.beginLoad, Session.note, hnone, Act.isAsked]

theorem Idle.settle (hs : s.Idle h loader) (htimed : Timed s.log s.clock) :
    Timed (s.settle h).log (s.settle h).clock ∧ (s.settle h).InPhase h loader := by
  have heq : s.settle h = ((s.note .asked).beginLoad h).finish s.clock := by
    simp [Session.settle, Session.note, hs.load, hs.slot]
  have hclock : (((s.note .asked).beginLoad h).finish s.clock).clock = s.clock := finish_clock _ _
  have hloading := hs.beginLoad htimed
  have htimed' : Timed ((s.note .asked).beginLoad h).log s.clock := (htimed.note .asked).note .ran
  rw [heq, InPhase, hclock]
  -- A load that has no time left, or needs none, ends in the call that begins it.
  rcases Nat.lt_or_ge s.clock (due h loader s.clock) with hlimit | hlimit
  · rw [hloading.finish_of_lt hlimit]
    exact ⟨htimed', Or.inr (Or.inl ⟨s.clock, hloading, hlimit⟩)⟩
  · have hend := hloading.settled hlimit
    have hfinish := Timed.finish hloading htimed' (le_due h loader s.clock) hlimit
    exact ⟨hfinish, Or.inr (Or.inr ⟨s.clock, hend, hlimit⟩)⟩

theorem Loading.settle (hs : s.Loading h loader t) (hclock : s.clock < due h loader t) :
    (s.settle h).Loading h loader t := by
  have heq : s.settle h = { s.note .asked with waiting := s.waiting ++ [h] } := by
    simp [Session.settle, Session.note, hs.load]
  rw [heq]
  refine ⟨hs.slot, hs.load, hs.log.append (Or.inl rfl), ?_, ?_, ?_⟩
  · exact forall_mem_note.2 ⟨hs.early, Or.inr hclock⟩
  · exact List.forall_mem_append.2 ⟨hs.handles, List.forall_mem_singleton.2 rfl⟩
  · simp [Session.note, hs.waiting, Act.isAsked]

theorem Settled.settle_eq (hs : s.Settled h loader t) :
    s.settle h = (s.note .asked).note (.gave ((result h loader t).finalView h.fallback)) := by
  simp [Session.settle, Session.note, hs.load, hs.slot, snapshot_on]

theorem Settled.settle (hs : s.Settled h loader t) : (s.settle h).Settled h loader t := by
  rw [hs.settle_eq]
  have hlog : ((s.note .asked).note (.gave ((result h loader t).finalView h.fallback))).log =
      s.log ++ [⟨s.clock, .asked⟩,
        ⟨s.clock, .gave ((result h loader t).finalView h.fallback)⟩] := by
    simp [Session.note]
  refine hs.append rfl rfl rfl hlog ?_ ?_
  · exact List.forall_mem_cons.2 ⟨Or.inl rfl, List.forall_mem_singleton.2 (Or.inr rfl)⟩
  · simp [Act.isAsked, Act.isGave]

theorem settle_handles (s : Session ν) (h : Handle ν) : (s.settle h).handles = s.handles := by
  unfold Session.settle
  dsimp only
  split
  · rfl
  · exact finish_handles _ _
  · rfl

theorem Story.settle (hs : s.Story h loader) : (s.settle h).Story h loader := by
  have hhandles : ∀ h' ∈ (s.settle h).handles, h' = h := by
    rw [settle_handles]
    exact hs.handles
  suffices hrest : Timed (s.settle h).log (s.settle h).clock ∧ (s.settle h).InPhase h loader from
    ⟨hhandles, hrest.1, hrest.2⟩
  rcases hs.phase with hidle | ⟨t, hloading, hclock⟩ | ⟨t, hsettled, hclock⟩
  · exact hidle.settle hs.timed
  -- A further call waits while the load goes on, and is answered at once after that.
  · have heq : (s.settle h).log = (s.note .asked).log ∧ (s.settle h).clock = s.clock := by
      simp [Session.settle, Session.note, hloading.load]
    rw [InPhase, heq.1, heq.2]
    exact ⟨hs.timed.note .asked, Or.inr (Or.inl ⟨t, hloading.settle hclock, hclock⟩)⟩
  · have hsettled' := hsettled.settle
    rw [hsettled.settle_eq] at hsettled' ⊢
    exact ⟨(hs.timed.note .asked).note _, Or.inr (Or.inr ⟨t, hsettled', hclock⟩)⟩

/-! ## Runs -/

theorem Story.clone (hs : s.Story h loader) :
    (s.answer h .clone).Story h loader := by
  refine ⟨?_, hs.timed, ?_⟩
  · exact List.forall_mem_append.2 ⟨hs.handles, List.forall_mem_singleton.2 rfl⟩
  · rcases hs.phase with hidle | ⟨t, hloading, hclock⟩ | ⟨t, hsettled, hclock⟩
    · exact Or.inl { hidle with }
    · exact Or.inr (Or.inl ⟨t, { hloading with }, hclock⟩)
    · exact Or.inr (Or.inr ⟨t, { hsettled with }, hclock⟩)

/-- An event keeps the invariant. -/
theorem story_step (hs : s.Story h loader) (e : Event) : (s.step e).Story h loader := by
  cases e with
  | wait time => exact hs.wait time
  | call i call =>
      rw [Session.step]
      split
      · rename_i h' hh'
        -- Clones are copies, so that it does not matter which handle is called.
        obtain rfl := hs.handles h' (List.mem_of_getElem? hh')
        cases call with
        | clone => exact hs.clone
        | settle => exact hs.settle
        | current now => exact hs.look (Looks.current now)
        | snapshot => exact hs.look Looks.snapshot
        | state => exact hs.look Looks.state
      · exact hs

theorem story_start (key : String) (loader : Loader ν) (fallback : ν) (config : DeferredConfig ν) :
    (start (Deferred.fresh key loader fallback config)).Story ⟨key, config, fallback⟩ loader := by
  refine ⟨?_, ⟨List.Pairwise.nil, ?_⟩, Or.inl ⟨rfl, rfl, rfl, ?_⟩⟩
  · exact List.forall_mem_singleton.2 rfl
  · intro e he
    cases he
  · intro e he
    cases he

/-- The invariant holds after all events. -/
theorem story_run (hs : s.Story h loader) (events : List Event) :
    (s.run events).Story h loader := by
  -- The events act from the left, so the session varies along the list.
  induction events generalizing s with
  | nil => exact hs
  | cons e events ih => exact ih (story_step hs e)

end Session
end RenderForest
