import RenderForest.Proofs.Deferred.Settling
/-!
# Views — the views of a block while its clock runs

A host that asks for the current view again and again sees nothing, then the placeholder, then a
final view.  This file defines:

* `Entry.ShowsNow` and `Entry.view?`, the views on record that were asked for at their own time;
* `Session.StageView`, what is shown at each stage;
* `Session.ViewsAscend`, that views move forward;
* `Session.FinalViewStays`, that nothing follows a final view but that view;

and shows in `views_forward` that views always move forward, and that a final view stays in all
sessions of a block exactly when its loader has no node at hand.  The timeout is looked at in two
places: `current` gives a block up when the timeout has passed, but a first call of `settle` after
that still runs the loader for no time, and a loader that is ready then replaces what was shown.
-/

namespace RenderForest

variable {ν : Type}

/-! ## Stages -/

theorem Stage.rank_le_final (stage : Stage) : stage.rank ≤ Stage.final.rank := by
  cases stage <;> decide

/-- The three cases of what is shown of a pending block. -/
theorem PendingView.cases {config : DeferredConfig ν} {fallback : ν} {now : Nat} {stage : Stage}
    {view : Option ν} (hview : PendingView config fallback now stage view) :
    (now < config.timeout ∧ now < config.delay ∧ stage = .nothing ∧ view = none) ∨
      (now < config.timeout ∧ config.delay ≤ now ∧ stage = .placeholder ∧
        view = some config.placeholder) ∨
      (config.timeout ≤ now ∧ stage = .final ∧ view = some fallback) := by
  rcases Nat.lt_or_ge now config.timeout with htimeout | htimeout
  · rcases Nat.lt_or_ge now config.delay with hdelay | hdelay
    · exact Or.inl ⟨htimeout, hdelay, hview.nothing htimeout hdelay⟩
    · exact Or.inr (Or.inl ⟨htimeout, hdelay, hview.placeholder htimeout hdelay⟩)
  · exact Or.inr (Or.inr ⟨htimeout, hview.fallback htimeout⟩)

/-- While a block is pending, its stage ascends with the time. -/
theorem PendingView.rank_le {config : DeferredConfig ν} {fallback : ν} {now now' : Nat}
    {stage stage' : Stage} {view view' : Option ν}
    (hview : PendingView config fallback now stage view)
    (hview' : PendingView config fallback now' stage' view') (hle : now ≤ now') :
    stage.rank ≤ stage'.rank := by
  rcases hview.cases with ⟨_, _, rfl, _⟩ | ⟨_, hdelay, rfl, _⟩ | ⟨htimeout, rfl, _⟩
  · exact Nat.zero_le _
  · rcases hview'.cases with ⟨_, hdelay', _⟩ | ⟨_, _, rfl, _⟩ | ⟨_, rfl, _⟩
    · exact absurd (Nat.le_trans hdelay hle) (Nat.not_le.2 hdelay')
    · exact Nat.le_refl _
    · exact Stage.rank_le_final _
  · have hlate := hview'.fallback (Nat.le_trans htimeout hle)
    exact Nat.le_of_eq (congrArg Stage.rank hlate.1.symm)

namespace Session

variable {h : Handle ν} {loader : Loader ν} {s : Session ν} {t : Nat} {log : List (Entry ν)}
  {e : Entry ν} {stage : Stage} {view : Option ν}

/-! ## Views on record -/

/-- The answer of `current` for the time at which it was asked. -/
def Entry.ShowsNow (e : Entry ν) (stage : Stage) (view : Option ν) : Prop :=
  e.act = .showed e.time stage view

/-- What a call shows, if it is `current` for the time at which it was asked, or `settle`, or
`snapshot`. -/
def Entry.view? (e : Entry ν) : Option (Option ν) :=
  match e.act with
  | .showed now _ view => if now = e.time then some view else none
  | .gave n => some (some n)
  | .snapped n => some (some n)
  | _ => none

inductive StageView (h : Handle ν) (loader : Loader ν) : Stage → Option ν → Prop where
  | nothing : StageView h loader .nothing none
  | placeholder : StageView h loader .placeholder (some h.config.placeholder)
  | fallback : StageView h loader .final (some h.fallback)
  | node {after : Nat} {n : ν} :
      loader = .finishes after (.node n) → StageView h loader .final (some n)

/-- Views move forward: nothing, then the placeholder, then a final view, which is the default
render or the node of the loader. -/
structure ViewsAscend (h : Handle ν) (loader : Loader ν) (log : List (Entry ν)) : Prop where
  stages : log.Pairwise fun e e' => ∀ stage stage' view view',
    e.ShowsNow stage view → e'.ShowsNow stage' view' → stage.rank ≤ stage'.rank
  views : ∀ e ∈ log, ∀ stage view, e.ShowsNow stage view → StageView h loader stage view

/-- Once a final view was shown, all that is shown is that view. -/
def FinalViewStays (log : List (Entry ν)) : Prop :=
  log.Pairwise fun e e' => ∀ view view',
    e.ShowsNow .final view → e'.view? = some view' → view' = view

theorem Entry.ShowsNow.view_eq (hshows : e.ShowsNow stage view) : e.view? = some view := by
  rw [ShowsNow] at hshows
  rw [view?, hshows]
  exact if_pos rfl

theorem cases_of_view? (hview : e.view? = some view) :
    (∃ stage, e.ShowsNow stage view) ∨ (∃ n, e.act = .gave n ∧ view = some n) ∨
      ∃ n, e.act = .snapped n ∧ view = some n := by
  unfold Entry.view? at hview
  split at hview
  · rename_i now stage view' hact
    split at hview
    · rename_i hnow
      cases hview
      exact Or.inl ⟨stage, by rw [Entry.ShowsNow, hact, hnow]⟩
    · cases hview
  · rename_i n hact
    cases hview
    exact Or.inr (Or.inl ⟨n, hact, rfl⟩)
  · rename_i n hact
    cases hview
    exact Or.inr (Or.inr ⟨n, hact, rfl⟩)
  · cases hview

/-! ## Pending blocks -/

theorem Entry.IsEarly.fits (he : e.IsEarly h) {a : Act ν} (hact : e.act = a)
    (hasked : a ≠ .asked) (hran : a ≠ .ran) : a.FitsPending h := by
  subst hact
  exact (he.resolve_left hasked).resolve_left hran

theorem Entry.IsEarly.pendingView (he : e.IsEarly h) (hshows : e.ShowsNow stage view) :
    PendingView h.config h.fallback e.time stage view :=
  he.fits hshows (by simp) (by simp)

theorem stageView_of_pendingView {now : Nat}
    (hview : PendingView h.config h.fallback now stage view) : StageView h loader stage view := by
  rcases hview.cases with ⟨_, _, rfl, rfl⟩ | ⟨_, _, rfl, rfl⟩ | ⟨_, rfl, rfl⟩
  · exact StageView.nothing
  · exact StageView.placeholder
  · exact StageView.fallback

/-- A final view of a pending block is its default render, and the timeout has passed. -/
theorem Entry.IsEarly.final (he : e.IsEarly h) (hshows : e.ShowsNow .final view) :
    h.config.timeout ≤ e.time ∧ view = some h.fallback := by
  rcases (he.pendingView hshows).cases with ⟨_, _, heq, _⟩ | ⟨_, _, heq, _⟩ | ⟨hle, _, heq⟩
  · cases heq
  · cases heq
  · exact ⟨hle, heq⟩

/-- Once the timeout has passed, a pending block shows its default render. -/
theorem Entry.IsEarly.late (he : e.IsEarly h) (hle : h.config.timeout ≤ e.time)
    (hview : e.view? = some view) : view = some h.fallback := by
  rcases cases_of_view? hview with ⟨stage, hshows⟩ | ⟨n, hact, rfl⟩ | ⟨n, hact, rfl⟩
  · exact ((he.pendingView hshows).fallback hle).2
  · exact (he.fits hact (by simp) (by simp)).elim
  · exact congrArg some (he.fits hact (by simp) (by simp))

theorem stages_of_isEarly (hlog : ∀ e ∈ log, e.IsEarly h)
    (hsorted : log.Pairwise fun e e' => e.time ≤ e'.time) :
    log.Pairwise fun e e' => ∀ stage stage' view view',
      e.ShowsNow stage view → e'.ShowsNow stage' view' → stage.rank ≤ stage'.rank := by
  refine hsorted.imp_of_mem ?_
  intro e e' he he' hle stage stage' view view' hshows hshows'
  have hview := (hlog e he).pendingView hshows
  exact hview.rank_le ((hlog e' he').pendingView hshows') hle

theorem finalViewStays_of_isEarly (hlog : ∀ e ∈ log, e.IsEarly h)
    (hsorted : log.Pairwise fun e e' => e.time ≤ e'.time) : FinalViewStays log := by
  -- What is shown after the timeout is the default render, until the state is written.
  refine hsorted.imp_of_mem ?_
  intro e e' he he' hle view view' hshows hview
  have hfinal := (hlog e he).final hshows
  rw [hfinal.2]
  exact (hlog e' he').late (Nat.le_trans hfinal.1 hle) hview

/-! ## Settled blocks -/

theorem Entry.IsLate.fits {state : SlotState ν} (he : e.IsLate h state) {a : Act ν}
    (hact : e.act = a) (hasked : a ≠ .asked) : a.FitsFinal h state := by
  subst hact
  exact he.resolve_left hasked

theorem Entry.IsLate.view_eq {state : SlotState ν} (he : e.IsLate h state)
    (hview : e.view? = some view) : view = some (state.finalView h.fallback) := by
  rcases cases_of_view? hview with ⟨stage, hshows⟩ | ⟨n, hact, rfl⟩ | ⟨n, hact, rfl⟩
  · exact (he.fits hshows (by simp)).2
  · exact congrArg some (he.fits hact (by simp))
  · exact congrArg some (he.fits hact (by simp))

theorem Entry.IsLate.stage_eq {state : SlotState ν} (he : e.IsLate h state)
    (hshows : e.ShowsNow stage view) : stage = .final :=
  (he.fits hshows (by simp)).1

/-- A relation between entries holds along the record of a settled block if it holds along what was
recorded before and between that and what was recorded after. -/
theorem Settled.pairwise {R : Entry ν → Entry ν → Prop} (hs : s.Settled h loader t)
    (hsorted : s.log.Pairwise fun e e' => e.time ≤ e'.time)
    (hearly : ∀ log : List (Entry ν), (∀ e ∈ log, e.IsEarly h) →
      (log.Pairwise fun e e' => e.time ≤ e'.time) → log.Pairwise R)
    (hwrite : ∀ e e' : Entry ν, e.act.isWrote = true ∨ e'.act.isWrote = true → R e e')
    (hlate : ∀ e e' : Entry ν, e.IsLate h (result h loader t) →
      e'.IsLate h (result h loader t) → R e e')
    (hcross : ∀ e e' : Entry ν, e.IsEarly h → e.time ≤ t ∨ e.time < due h loader t →
      e'.IsLate h (result h loader t) → R e e') : s.log.Pairwise R := by
  obtain ⟨earlier, later, heq, hearlier, htime, hlater⟩ := hs.log
  rw [heq] at hsorted ⊢
  -- Before the state is written, at that, after it, and across.
  refine List.pairwise_append.2 ⟨?_, List.pairwise_cons.2 ⟨?_, ?_⟩, ?_⟩
  · exact hearly earlier hearlier.isEarly (List.pairwise_append.1 hsorted).1
  · exact fun e' _ => hwrite _ e' (Or.inl rfl)
  · refine List.pairwise_of_forall_mem_list ?_
    intro e he e' he'
    exact hlate e e' (hlater e he) (hlater e' he')
  · intro e he e' he'
    rcases List.mem_cons.1 he' with rfl | he'
    · exact hwrite e _ (Or.inr rfl)
    · exact hcross e e' (hearlier.isEarly e he) (htime e he) (hlater e' he')

/-- The node that is left by a load is the default render or the node of the loader. -/
theorem finalView_result (h : Handle ν) (loader : Loader ν) (t : Nat) :
    (result h loader t).finalView h.fallback = h.fallback ∨
      ∃ after n, loader = .finishes after (.node n) ∧ after ≤ h.config.timeout - t ∧
        (result h loader t).finalView h.fallback = n := by
  have hends := endsIn_outcome loader (h.config.timeout - t)
  cases hresult : result h loader t with
  | loaded n =>
      obtain ⟨after, hloader, hle⟩ := (hends.loaded n).1 hresult
      exact Or.inr ⟨after, n, hloader, hle, rfl⟩
  | pending => exact Or.inl rfl
  | failed message => exact Or.inl rfl
  | timedOut => exact Or.inl rfl

theorem Entry.IsLate.stageView (he : e.IsLate h (result h loader t))
    (hshows : e.ShowsNow stage view) : StageView h loader stage view := by
  obtain rfl := he.stage_eq hshows
  obtain rfl := he.view_eq hshows.view_eq
  rcases finalView_result h loader t with heq | ⟨after, n, hloader, _, heq⟩
  · rw [heq]
    exact StageView.fallback
  · rw [heq]
    exact StageView.node hloader

theorem not_showsNow_of_isWrote (he : e.act.isWrote = true) : ¬ e.ShowsNow stage view := by
  intro hshows
  rw [Entry.ShowsNow] at hshows
  rw [hshows] at he
  cases he

theorem view?_of_isWrote (he : e.act.isWrote = true) : e.view? = none := by
  cases hview : e.view? with
  | none => rfl
  | some view =>
      rcases cases_of_view? hview with ⟨stage, hshows⟩ | ⟨n, hact, _⟩ | ⟨n, hact, _⟩
      · exact absurd hshows (not_showsNow_of_isWrote he)
      · rw [hact] at he
        cases he
      · rw [hact] at he
        cases he

/-! ## Sessions -/

theorem Story.cases (hs : s.Story h loader) :
    (∀ e ∈ s.log, e.IsEarly h) ∨ ∃ t, s.Settled h loader t := by
  rcases hs.phase with hidle | ⟨t, hloading, _⟩ | ⟨t, hsettled, _⟩
  · exact Or.inl fun e he => Or.inr (Or.inr (hidle.log e he))
  · exact Or.inl hloading.log.isEarly
  · exact Or.inr ⟨t, hsettled⟩

theorem Story.viewsAscend (hs : s.Story h loader) : ViewsAscend h loader s.log := by
  rcases hs.cases with hlog | ⟨t, hsettled⟩
  · refine ⟨stages_of_isEarly hlog hs.timed.sorted, ?_⟩
    intro e he stage view hshows
    exact stageView_of_pendingView ((hlog e he).pendingView hshows)
  · constructor
    · refine hsettled.pairwise hs.timed.sorted (fun _ => stages_of_isEarly) ?_ ?_ ?_
      · intro e e' hwrote stage stage' view view' hshows hshows'
        rcases hwrote with hwrote | hwrote
        · exact absurd hshows (not_showsNow_of_isWrote hwrote)
        · exact absurd hshows' (not_showsNow_of_isWrote hwrote)
      · intro e e' _ he' stage stage' view view' _ hshows'
        rw [he'.stage_eq hshows']
        exact stage.rank_le_final
      · intro e e' _ _ he' stage stage' view view' _ hshows'
        rw [he'.stage_eq hshows']
        exact stage.rank_le_final
    · obtain ⟨earlier, later, heq, hearlier, _, hlater⟩ := hsettled.log
      rw [heq]
      refine List.forall_mem_append.2 ⟨?_, List.forall_mem_cons.2 ⟨?_, ?_⟩⟩
      · intro e he stage view hshows
        exact stageView_of_pendingView ((hearlier.isEarly e he).pendingView hshows)
      · intro stage view hshows
        exact absurd hshows (not_showsNow_of_isWrote rfl)
      · intro e he stage view hshows
        exact (hlater e he).stageView hshows

/-- A final view stays if the block was first settled before the timeout, or if its loader has no
node at hand. -/
theorem Story.finalViewStays (hs : s.Story h loader)
    (hcond : (∀ t, firstAsked s.log = some t → t < h.config.timeout) ∨
      ∀ n, loader = .finishes 0 (.node n) → n = h.fallback) : FinalViewStays s.log := by
  rcases hs.cases with hlog | ⟨t, hsettled⟩
  · exact finalViewStays_of_isEarly hlog hs.timed.sorted
  · refine hsettled.pairwise hs.timed.sorted (fun _ => finalViewStays_of_isEarly) ?_ ?_ ?_
    · intro e e' hwrote view view' hshows hview
      rcases hwrote with hwrote | hwrote
      · exact absurd hshows (not_showsNow_of_isWrote hwrote)
      · rw [view?_of_isWrote hwrote] at hview
        cases hview
    · intro e e' he he' view view' hshows hview
      rw [he'.view_eq hview, he.view_eq hshows.view_eq]
    · intro e e' he htime he' view view' hshows hview
      have hfinal := he.final hshows
      rw [he'.view_eq hview, hfinal.2]
      -- The default render was shown before the load ended, so it began when no time was left.
      have hlate : h.config.timeout ≤ t := by
        refine Nat.not_lt.1 fun hlt => ?_
        have hdue := due_le_timeout loader (Nat.le_of_lt hlt)
        have hle := hfinal.1
        omega
      rcases finalView_result h loader t with heq | ⟨after, n, hloader, hle, hn⟩
      · rw [heq]
      · rcases hcond with hfirst | hready
        · exact absurd (hfirst t hsettled.firstAsked) (Nat.not_lt.2 hlate)
        · have hzero : after = 0 := by omega
          rw [hzero] at hloader
          rw [hn, hready n hloader]

/-! ## A loader that is ready too late -/

/-- The events of a host that asks for the view when the timeout has passed, and settles the block
then. -/
def lateEvents (timeout : Nat) : List Event :=
  [.wait timeout, .call 0 (.current timeout), .call 0 .settle]

/-- The default render is shown, and the node of a loader that is ready is given after that. -/
theorem log_lateEvents (key : String) (n fallback : ν) (config : DeferredConfig ν) :
    ((start (Deferred.fresh key (.finishes 0 (.node n)) fallback config)).run
        (lateEvents config.timeout)).log =
      [⟨config.timeout, .showed config.timeout .final (some fallback)⟩, ⟨config.timeout, .asked⟩,
        ⟨config.timeout, .ran⟩, ⟨config.timeout, .wrote (.loaded n)⟩,
        ⟨config.timeout, .gave n⟩] := by
  simp [lateEvents, run, step, answer, start, note, finish, settle, beginLoad, Handle.on,
    Deferred.fresh, Deferred.stage, Deferred.current, Deferred.settle, Deferred.settleTime,
    Deferred.loadTime, Deferred.outcome, Deferred.stateOf, Deferred.snapshot]

theorem eq_of_finalViewStays {key : String} {n fallback : ν} {config : DeferredConfig ν}
    (hstays : FinalViewStays
      ((start (Deferred.fresh key (.finishes 0 (.node n)) fallback config)).run
        (lateEvents config.timeout)).log) : n = fallback := by
  rw [log_lateEvents] at hstays
  have hgave := (List.pairwise_cons.1 hstays).1 ⟨config.timeout, .gave n⟩ (by simp)
  exact Option.some.inj (hgave (some fallback) (some n) rfl rfl)

/-- Views asked for at the current time move forward in every session.  A final view stays in all
sessions in which the block was first settled before the timeout; it stays in all sessions exactly
when the loader has no node at hand but the default render. -/
theorem views_forward (key : String) (loader : Loader ν) (fallback : ν)
    (config : DeferredConfig ν) :
    (∀ events, ViewsAscend ⟨key, config, fallback⟩ loader
        ((start (Deferred.fresh key loader fallback config)).run events).log) ∧
      (∀ events,
        (∀ t, firstAsked ((start (Deferred.fresh key loader fallback config)).run events).log =
          some t → t < config.timeout) →
        FinalViewStays ((start (Deferred.fresh key loader fallback config)).run events).log) ∧
      ((∀ events, FinalViewStays
          ((start (Deferred.fresh key loader fallback config)).run events).log) ↔
        ∀ n, loader = .finishes 0 (.node n) → n = fallback) := by
  have hstory := story_run (story_start key loader fallback config)
  refine ⟨fun events => (hstory events).viewsAscend, ?_, ?_⟩
  · intro events hfirst
    exact (hstory events).finalViewStays (Or.inl hfirst)
  · constructor
    · intro hstays n hloader
      subst hloader
      exact eq_of_finalViewStays (hstays (lateEvents config.timeout))
    · intro hready events
      exact (hstory events).finalViewStays (Or.inr hready)

/-- With no time for a load, the default render is shown at once, and `settle` replaces it by the
node of a loader that is ready. -/
theorem not_finalViewStays :
    ¬ FinalViewStays ((start (Deferred.fresh "k" (.finishes 0 (.node (.text "done")))
      (Node.text "code") ⟨0, 0, .text "wait"⟩)).run
        [.wait 0, .call 0 (.current 0), .call 0 .settle]).log := by
  intro hstays
  have heq := eq_of_finalViewStays hstays
  exact absurd (Node.text.inj heq) (by decide)

end Session
end RenderForest
