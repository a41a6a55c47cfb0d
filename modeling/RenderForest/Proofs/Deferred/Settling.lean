import RenderForest.Proofs.Deferred.Story
/-!
# Settling — what calls of a deferred block and its clones see

This file defines:

* `Session.firstAsked`, `Session.untilWrite` and `Session.sinceWrite`, which read a record;
* `Loader.EndsIn`, how a loader ends that has some time left;
* `Session.Lawful`, the law of deferred blocks;
* `Session.Complete`, that all calls are on record;

and shows in `run_lawful` that both hold of every session of a new block.
-/

namespace RenderForest

variable {ν : Type}

/-! ## Ends of a loader -/

/-- The message that a result leaves behind, if it is no node. -/
def LoadResult.message? : LoadResult ν → Option String
  | .node _ => none
  | .failed e => some e.message
  | .panicked p => some (OverrideError.panicked p.message).message

/-- How a loader ends that has some time left: with its node or with its message if it finishes
within that time, and by a timeout otherwise. -/
structure Loader.EndsIn (loader : Loader ν) (remaining : Nat) (state : SlotState ν) : Prop where
  loaded : ∀ n, state = .loaded n ↔
    ∃ after, loader = .finishes after (.node n) ∧ after ≤ remaining
  failed : ∀ message, state = .failed message ↔
    ∃ after r, loader = .finishes after r ∧ after ≤ remaining ∧ r.message? = some message
  timedOut : state = .timedOut ↔ ∀ after r, loader = .finishes after r → remaining < after

theorem endsIn_timedOut {loader : Loader ν} {remaining : Nat}
    (hlate : ∀ after r, loader = .finishes after r → remaining < after) :
    loader.EndsIn remaining .timedOut := by
  refine ⟨?_, ?_, iff_of_true rfl hlate⟩
  · intro n
    refine iff_of_false (fun heq => by cases heq) ?_
    rintro ⟨after, heq, hle⟩
    exact Nat.not_le.2 (hlate after _ heq) hle
  · intro message
    refine iff_of_false (fun heq => by cases heq) ?_
    rintro ⟨after, r, heq, hle, _⟩
    exact Nat.not_le.2 (hlate after r heq) hle

theorem endsIn_stateOf {after remaining : Nat} (r : LoadResult ν) (hle : after ≤ remaining) :
    (Loader.finishes after r).EndsIn remaining (Deferred.stateOf r) := by
  refine ⟨?_, ?_, ?_⟩
  · intro n
    have hstate : Deferred.stateOf r = .loaded n ↔ r = .node n := by
      cases r <;> simp [Deferred.stateOf]
    rw [hstate]
    constructor
    · rintro rfl
      exact ⟨after, rfl, hle⟩
    · rintro ⟨_, heq, _⟩
      cases heq
      rfl
  · intro message
    have hstate : Deferred.stateOf r = .failed message ↔ r.message? = some message := by
      cases r <;> simp [Deferred.stateOf, LoadResult.message?]
    rw [hstate]
    constructor
    · intro hmessage
      exact ⟨after, r, rfl, hle, hmessage⟩
    · rintro ⟨_, _, heq, _, hmessage⟩
      cases heq
      exact hmessage
  · refine iff_of_false ?_ fun hlate => Nat.not_lt.2 hle (hlate after r rfl)
    cases r <;> exact fun heq => by cases heq

theorem endsIn_outcome (loader : Loader ν) (remaining : Nat) :
    loader.EndsIn remaining (Deferred.outcome remaining loader) := by
  cases loader with
  | never => exact endsIn_timedOut fun after r heq => by cases heq
  | finishes after r =>
      rw [Deferred.outcome]
      split
      · rename_i hle
        exact endsIn_stateOf r hle
      · rename_i hlate
        refine endsIn_timedOut fun after' r' heq => ?_
        cases heq
        exact Nat.not_le.1 hlate

namespace Session

variable {h : Handle ν} {loader : Loader ν} {s : Session ν} {t : Nat} {log : List (Entry ν)}

/-! ## Reading a record -/

/-- The time of the first call of `settle`. -/
def firstAsked (log : List (Entry ν)) : Option Nat :=
  (log.find? fun e => e.act.isAsked).map Entry.time

def untilWrite (log : List (Entry ν)) : List (Entry ν) :=
  log.takeWhile fun e => !e.act.isWrote

def sinceWrite (log : List (Entry ν)) : List (Entry ν) :=
  (log.dropWhile fun e => !e.act.isWrote).tail

/-- The law of deferred blocks.  Until the state is written, calls see a pending block.  The loader
runs at most once, in the first call of `settle`; the state is written at most once, at the end of
that load, and from then on all calls see one node and one state.  When the load is due, all calls
of `settle` are answered. -/
structure Lawful (h : Handle ν) (loader : Loader ν) (s : Session ν) : Prop where
  before : ∀ e ∈ untilWrite s.log, e.IsEarly h
  ranOnce : count Act.isRan s.log ≤ 1
  ran : ∀ time, ⟨time, .ran⟩ ∈ s.log → firstAsked s.log = some time
  wroteOnce : count Act.isWrote s.log ≤ 1
  pending : count Act.isWrote s.log = 0 → s.slot.state = .pending
  wrote : ∀ time state, ⟨time, .wrote state⟩ ∈ s.log →
    ∃ first, firstAsked s.log = some first ∧ time = due h loader first ∧
      loader.EndsIn (h.config.timeout - first) state ∧ s.slot.state = state ∧
      ∀ e ∈ sinceWrite s.log, e.IsLate h state
  ends : ∀ first, firstAsked s.log = some first → due h loader first ≤ s.clock →
    (∃ state, ⟨due h loader first, .wrote state⟩ ∈ s.log) ∧
      count Act.isGave s.log = count Act.isAsked s.log

/-- Nothing is left out of a record: time passes, there is a handle, and each call of a handle is
put on record when it is made, with what it sees. -/
structure Complete (s : Session ν) : Prop where
  handles : 0 < s.handles.length
  wait : ∀ time, (s.step (.wait time)).clock = s.clock + time ∧
    ∃ ended, (s.step (.wait time)).log = s.log ++ ended
  clone : ∀ i, i < s.handles.length →
    (s.step (.call i .clone)).handles.length = s.handles.length + 1
  settle : ∀ i, i < s.handles.length →
    ∃ ended, (s.step (.call i .settle)).log = s.log ++ ⟨s.clock, .asked⟩ :: ended
  current : ∀ i now, i < s.handles.length →
    ∃ stage view, (s.step (.call i (.current now))).log =
      s.log ++ [⟨s.clock, .showed now stage view⟩]
  snapshot : ∀ i, i < s.handles.length →
    ∃ n, (s.step (.call i .snapshot)).log = s.log ++ [⟨s.clock, .snapped n⟩]
  state : ∀ i, i < s.handles.length →
    (s.step (.call i .state)).log = s.log ++ [⟨s.clock, .told s.slot.state⟩]

/-! ## What is put on record -/

theorem step_call {i : Nat} (hi : i < s.handles.length) (call : Call) :
    s.step (.call i call) = s.answer s.handles[i] call := by
  simp [Session.step, hi]

theorem exists_finish_log (s : Session ν) (limit : Nat) :
    ∃ ended, (s.finish limit).log = s.log ++ ended := by
  unfold Session.finish
  split
  · split
    · exact ⟨_, rfl⟩
    · exact ⟨[], (List.append_nil _).symm⟩
  · exact ⟨[], (List.append_nil _).symm⟩

theorem exists_settle_log (s : Session ν) (h : Handle ν) :
    ∃ ended, (s.settle h).log = s.log ++ ⟨s.clock, .asked⟩ :: ended := by
  unfold Session.settle
  dsimp only
  split
  · exact ⟨[], rfl⟩
  · obtain ⟨ended, hended⟩ := exists_finish_log ((s.note .asked).beginLoad h) s.clock
    refine ⟨⟨s.clock, .ran⟩ :: ended, ?_⟩
    exact hended.trans (by simp [Session.beginLoad, Session.note])
  · exact ⟨[⟨s.clock, .gave (h.on s.slot).snapshot⟩], by simp [Session.note]⟩

/-- Handles are added, and none is taken away. -/
theorem length_handles_step (s : Session ν) (e : Event) :
    s.handles.length ≤ (s.step e).handles.length := by
  cases e with
  | wait time => exact Nat.le_of_eq (congrArg List.length (finish_handles s _).symm)
  | call i call =>
      rcases Nat.lt_or_ge i s.handles.length with hi | hi
      · rw [step_call hi]
        cases call with
        | clone => simp [Session.answer]
        | settle => exact Nat.le_of_eq (congrArg List.length (settle_handles s _).symm)
        | current now => exact Nat.le_refl _
        | snapshot => exact Nat.le_refl _
        | state => exact Nat.le_refl _
      · simp [Session.step, List.getElem?_eq_none hi]

theorem length_handles_run (s : Session ν) (events : List Event) :
    s.handles.length ≤ (s.run events).handles.length := by
  induction events generalizing s with
  | nil => exact Nat.le_refl _
  | cons e events ih => exact Nat.le_trans (length_handles_step s e) (ih (s.step e))

theorem complete_of_handles (hs : 0 < s.handles.length) : s.Complete := by
  refine ⟨hs, ?_, ?_, ?_, ?_, ?_, ?_⟩
  · exact fun time => ⟨rfl, exists_finish_log s _⟩
  · intro i hi
    rw [step_call hi]
    simp [Session.answer]
  · intro i hi
    rw [step_call hi]
    exact exists_settle_log s _
  · intro i now hi
    rw [step_call hi]
    exact ⟨_, _, rfl⟩
  · intro i hi
    rw [step_call hi]
    exact ⟨_, rfl⟩
  · intro i hi
    rw [step_call hi]
    rfl

/-! ## Records without a written state -/

theorem Entry.IsEarly.not_isWrote {e : Entry ν} (he : e.IsEarly h) : e.act.isWrote = false := by
  rcases he with hasked | hran | hfits
  · rw [hasked]
    rfl
  · rw [hran]
    rfl
  · exact hfits.count_eq.2.2.2

theorem LoadLog.isEarly (hlog : LoadLog h t log) : ∀ e ∈ log, e.IsEarly h := by
  obtain ⟨before, during, rfl, hbefore, hduring⟩ := hlog
  refine List.forall_mem_append.2 ⟨?_, List.forall_mem_cons.2 ⟨?_, List.forall_mem_cons.2 ⟨?_, ?_⟩⟩⟩
  · exact fun e he => Or.inr (Or.inr (hbefore e he))
  · exact Or.inl rfl
  · exact Or.inr (Or.inl rfl)
  · exact fun e he => (hduring e he).imp id Or.inr

/-- The loader was run once, in the first call of `settle`. -/
theorem LoadLog.ran (hlog : LoadLog h t log) :
    count Act.isRan log = 1 ∧ ∀ time, ⟨time, .ran⟩ ∈ log → time = t := by
  obtain ⟨before, during, rfl, hbefore, hduring⟩ := hlog
  have hbefore' : ∀ e ∈ before, e.act.isRan = false := fun e he => (hbefore e he).count_eq.2.2.1
  have hduring' : ∀ e ∈ during, e.act.isRan = false := by
    intro e he
    rcases hduring e he with hasked | hfits
    · rw [hasked]
      rfl
    · exact hfits.count_eq.2.2.1
  constructor
  · simp [count_eq_zero hbefore', count_eq_zero hduring', Act.isRan]
  · intro time hran
    simp only [List.mem_append, List.mem_cons] at hran
    rcases hran with hran | hran | hran | hran
    · cases hbefore' _ hran
    · cases hran
    · exact congrArg Entry.time hran
    · cases hduring' _ hran

theorem LoadLog.firstAsked (hlog : LoadLog h t log) (rest : List (Entry ν)) :
    firstAsked (log ++ rest) = some t := by
  -- Nothing that was seen before the run is a call of `settle`.
  obtain ⟨before, during, rfl, hbefore, _⟩ := hlog
  have hnone : before.find? (fun e => e.act.isAsked) = none := by
    refine List.find?_eq_none.2 fun e he => ?_
    simp [(hbefore e he).count_eq.1]
  rw [Session.firstAsked, List.append_assoc, List.find?_append, hnone]
  rfl

theorem count_isWrote (hlog : ∀ e ∈ log, e.IsEarly h) : count Act.isWrote log = 0 :=
  count_eq_zero fun e he => (hlog e he).not_isWrote

theorem not_isWrote_of_isEarly (hlog : ∀ e ∈ log, e.IsEarly h) :
    ∀ e ∈ log, (!e.act.isWrote) = true := by
  intro e he
  rw [(hlog e he).not_isWrote]
  rfl

/-- The state is written between what was recorded before and after. -/
theorem cut_wrote {earlier : List (Entry ν)} (hearlier : ∀ e ∈ earlier, e.IsEarly h)
    (later : List (Entry ν)) (time : Nat) (state : SlotState ν) :
    untilWrite (earlier ++ ⟨time, .wrote state⟩ :: later) = earlier ∧
      sinceWrite (earlier ++ ⟨time, .wrote state⟩ :: later) = later := by
  have hpass := not_isWrote_of_isEarly hearlier
  constructor
  · rw [untilWrite, List.takeWhile_append_of_pos hpass]
    simp [Act.isWrote]
  · rw [sinceWrite, List.dropWhile_append_of_pos hpass]
    simp [Act.isWrote]

theorem untilWrite_eq_self (hlog : ∀ e ∈ log, e.IsEarly h) : untilWrite log = log := by
  have hpass := not_isWrote_of_isEarly hlog
  have hall : untilWrite (log ++ []) = log ++ untilWrite [] := List.takeWhile_append_of_pos hpass
  simpa [untilWrite] using hall

/-! ## The law -/

theorem Act.FitsFinal.count_eq {a : Act ν} {state : SlotState ν} (ha : a.FitsFinal h state) :
    a.isRan = false ∧ a.isWrote = false := by
  cases a <;> simp_all [Act.FitsFinal, Act.isRan, Act.isWrote]

/-- A session is lawful as long as no state is written, if the loader was run at most once. -/
theorem lawful_of_isEarly (hlog : ∀ e ∈ s.log, e.IsEarly h) (hslot : s.slot.state = .pending)
    (hranOnce : count Act.isRan s.log ≤ 1)
    (hran : ∀ time, ⟨time, .ran⟩ ∈ s.log → firstAsked s.log = some time)
    (hends : ∀ first, firstAsked s.log = some first → s.clock < due h loader first) :
    s.Lawful h loader := by
  have hzero := count_isWrote hlog
  refine ⟨?_, hranOnce, hran, ?_, fun _ => hslot, ?_, ?_⟩
  · rwa [untilWrite_eq_self hlog]
  · rw [hzero]
    exact Nat.zero_le _
  · intro time state hwrote
    cases (hlog _ hwrote).not_isWrote
  · intro first hfirst hdue
    exact absurd (hends first hfirst) (Nat.not_lt.2 hdue)

theorem Idle.lawful (hs : s.Idle h loader) : s.Lawful h loader := by
  have hran : ∀ e ∈ s.log, e.act.isRan = false := fun e he => (hs.log e he).count_eq.2.2.1
  have hslot : s.slot.state = .pending := by rw [hs.slot]
  have hnone : firstAsked s.log = none := by
    simp only [firstAsked, Option.map_eq_none_iff, List.find?_eq_none]
    intro e he
    simp [(hs.log e he).count_eq.1]
  refine lawful_of_isEarly (fun e he => Or.inr (Or.inr (hs.log e he))) hslot ?_ ?_ ?_
  · rw [count_eq_zero hran]
    exact Nat.zero_le _
  · intro time hmem
    cases hran _ hmem
  · intro first hfirst
    rw [hnone] at hfirst
    cases hfirst

theorem Loading.lawful (hs : s.Loading h loader t) (hclock : s.clock < due h loader t) :
    s.Lawful h loader := by
  have hslot : s.slot.state = .pending := by rw [hs.slot]
  have hfirst : firstAsked s.log = some t := by simpa using hs.log.firstAsked []
  refine lawful_of_isEarly hs.log.isEarly hslot (Nat.le_of_eq hs.log.ran.1) ?_ ?_
  · intro time hmem
    rw [hfirst, hs.log.ran.2 time hmem]
  · intro first heq
    -- The load is not due, so that nothing has to be answered.
    rw [hfirst] at heq
    cases heq
    exact hclock

theorem Entry.IsLate.kind {e : Entry ν} {state : SlotState ν} (he : e.IsLate h state) :
    e.act.isRan = false ∧ e.act.isWrote = false := by
  rcases he with hasked | hfits
  · rw [hasked]
    exact ⟨rfl, rfl⟩
  · exact hfits.count_eq

theorem Settled.firstAsked (hs : s.Settled h loader t) : firstAsked s.log = some t := by
  obtain ⟨earlier, later, heq, hearlier, _⟩ := hs.log
  rw [heq]
  exact hearlier.firstAsked _

theorem Settled.of_mem_ran {time : Nat} (hs : s.Settled h loader t)
    (hmem : ⟨time, .ran⟩ ∈ s.log) : time = t := by
  obtain ⟨earlier, later, heq, hearlier, _, hlater⟩ := hs.log
  rw [heq] at hmem
  rcases List.mem_append.1 hmem with hmem | hmem
  · exact hearlier.ran.2 time hmem
  · rcases List.mem_cons.1 hmem with hmem | hmem
    · cases hmem
    · cases (hlater _ hmem).kind.1

theorem Settled.of_mem_wrote {time : Nat} {state : SlotState ν} (hs : s.Settled h loader t)
    (hmem : ⟨time, .wrote state⟩ ∈ s.log) :
    time = due h loader t ∧ state = result h loader t := by
  obtain ⟨earlier, later, heq, hearlier, _, hlater⟩ := hs.log
  rw [heq] at hmem
  rcases List.mem_append.1 hmem with hmem | hmem
  · cases (hearlier.isEarly _ hmem).not_isWrote
  · rcases List.mem_cons.1 hmem with hmem | hmem
    · cases hmem
      exact ⟨rfl, rfl⟩
    · cases (hlater _ hmem).kind.2

theorem Settled.count_eq (hs : s.Settled h loader t) :
    count Act.isRan s.log = 1 ∧ count Act.isWrote s.log = 1 := by
  obtain ⟨earlier, later, heq, hearlier, _, hlater⟩ := hs.log
  have hran := count_eq_zero fun e he => (hlater e he).kind.1
  have hwrote := count_eq_zero fun e he => (hlater e he).kind.2
  have hearlier' := count_isWrote hearlier.isEarly
  rw [heq]
  constructor
  · simp [hearlier.ran.1, hran, Act.isRan]
  · simp [hearlier', hwrote, Act.isWrote]

theorem Settled.lawful (hs : s.Settled h loader t) : s.Lawful h loader := by
  have hcount := hs.count_eq
  have hfirst := hs.firstAsked
  -- The record is cut where the state is written.
  obtain ⟨earlier, later, heq, hearlier, _, hlater⟩ := hs.log
  have hcut := cut_wrote hearlier.isEarly later (due h loader t) (result h loader t)
  rw [← heq] at hcut
  refine ⟨?_, Nat.le_of_eq hcount.1, ?_, Nat.le_of_eq hcount.2, ?_, ?_, ?_⟩
  · rw [hcut.1]
    exact hearlier.isEarly
  · intro time hmem
    rw [hfirst, hs.of_mem_ran hmem]
  · intro hnone
    exact absurd (hnone.symm.trans hcount.2) (by decide)
  · intro time state hmem
    obtain ⟨rfl, rfl⟩ := hs.of_mem_wrote hmem
    refine ⟨t, hfirst, rfl, endsIn_outcome loader _, ?_, ?_⟩
    · rw [hs.slot]
    · rw [hcut.2]
      exact hlater
  · intro first hfirst' _
    obtain rfl := Option.some.inj (hfirst.symm.trans hfirst')
    refine ⟨⟨result h loader t, ?_⟩, hs.answered⟩
    rw [heq]
    exact List.mem_append_right _ (List.mem_cons_self ..)

/-- Every session of a deferred block and its clones is lawful and on record, whatever its loader
and its times are. -/
theorem run_lawful (key : String) (loader : Loader ν) (fallback : ν) (config : DeferredConfig ν)
    (events : List Event) :
    ((start (Deferred.fresh key loader fallback config)).run events).Lawful
        ⟨key, config, fallback⟩ loader ∧
      ((start (Deferred.fresh key loader fallback config)).run events).Complete := by
  have hstory := story_run (story_start key loader fallback config) events
  have hhandles := length_handles_run (start (Deferred.fresh key loader fallback config)) events
  refine ⟨?_, complete_of_handles (Nat.lt_of_lt_of_le Nat.zero_lt_one hhandles)⟩
  rcases hstory.phase with hidle | ⟨t, hloading, hclock⟩ | ⟨t, hsettled, _⟩
  · exact hidle.lawful
  · exact hloading.lawful hclock
  · exact hsettled.lawful

end Session
end RenderForest
