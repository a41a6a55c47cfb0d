import RenderForest.Markdown.Event
import RenderForest.Proofs.Source.LineMarks
import RenderForest.Proofs.Stream.Nested
/-!
# LimitedLines — ranges inside ranges, and tokens inside the lines of others

A start knows the range of bytes that its node covers, and what stands in the node covers a part of
that range.  This file defines:

* `Extent.LiesIn`, that a range is a part of another, and `Extent.BeginsIn`, that it also begins
  before the end of the other one;
* `EventsLie`, that each event of a sequence stands so in the innermost start that is open;
* `Token.LinesNest`, that tokens cover lines of the elements in which they stand, for the elements
  whose starts pass a test;
* `Lined`, that tokens leave elements open and cover lines of the ranges that limit these;

and shows in `span_mono` that ranges inside others cover lines of them, and in `linesNest` that
lined tokens nest wherever a range limits the element.
-/

namespace RenderForest
namespace Markdown

/-! ## Ranges inside ranges -/

namespace Extent

/-- A range is a part of another. -/
structure LiesIn (e o : Extent) : Prop where
  start : o.start ≤ e.start
  stop : e.stop ≤ o.stop

/-- A range is a part of another and begins in it: one without bytes does not stand at the end of
the other. -/
structure BeginsIn (e o : Extent) : Prop extends LiesIn e o where
  begins : e.start < o.stop ∨ e.start = o.start

instance : DecidableRel LiesIn := fun e o =>
  decidable_of_iff (o.start ≤ e.start ∧ e.stop ≤ o.stop) ⟨fun h => ⟨h.1, h.2⟩, fun h => ⟨h.1, h.2⟩⟩

instance : DecidableRel BeginsIn := fun e o =>
  decidable_of_iff (e.LiesIn o ∧ (e.start < o.stop ∨ e.start = o.start))
    ⟨fun h => ⟨h.1, h.2⟩, fun h => ⟨h.toLiesIn, h.begins⟩⟩

theorem BeginsIn.trans {e m o : Extent} (h : e.BeginsIn m) (h' : m.BeginsIn o) : e.BeginsIn o := by
  have hstart := h.start
  have hstop := h.stop
  have hstart' := h'.start
  have hstop' := h'.stop
  have hbegins := h.begins
  have hbegins' := h'.begins
  exact ⟨⟨by omega, by omega⟩, by omega⟩

end Extent

def AreAmong (m n : Nat × Nat) : Prop :=
  n.1 ≤ m.1 ∧ m.2 ≤ n.2

/-- A range that begins in another covers lines of that. -/
theorem span_mono (lines : LineMap) {e o : Extent} (h : e.BeginsIn o) :
    AreAmong (lines.span e.start e.stop) (lines.span o.start o.stop) := by
  have hstart := h.start
  have hstop := h.stop
  have hfirst := lines.lineOf_mono h.start
  have hlast : lines.lineOf (e.stop - 1) ≤ lines.lineOf (o.stop - 1) :=
    lines.lineOf_mono (Nat.sub_le_sub_right h.stop 1)
  -- The first line of the inner range is no later than the last one of the outer range.
  have hbegins : lines.lineOf e.start ≤ max (lines.lineOf (o.stop - 1)) (lines.lineOf o.start) := by
    rcases h.begins with hlt | heq
    · exact Nat.le_trans (lines.lineOf_mono (by omega)) (Nat.le_max_left _ _)
    · rw [heq]
      exact Nat.le_max_right _ _
  have hempty : o.stop ≤ o.start → e.stop ≤ e.start ∧ e.start = o.start := by
    intro hle
    rcases h.begins with hlt | heq <;> omega
  unfold LineMap.span
  simp only
  by_cases ho : o.stop ≤ o.start
  · rcases hempty ho with ⟨he, heq⟩
    rw [if_pos ho, if_pos he, heq]
    exact ⟨Nat.le_refl _, Nat.le_refl _⟩
  · rw [if_neg ho]
    split
    · exact ⟨hfirst, Nat.succ_le_succ hbegins⟩
    · exact ⟨hfirst, Nat.succ_le_succ (by omega)⟩

/-! ## Events inside starts -/

/-- The ranges of the starts that are open behind an event, the innermost first. -/
def Event.around : Event → List Extent → List Extent
  | .start _ e, es => e :: es
  | .stop _, es => es.tail
  | .leaf _ _, es => es

/-- The range of an event, if it has one of its own, is related to that of the innermost start that
is open. -/
def Event.Lies (R : Extent → Extent → Prop) : Event → List Extent → Prop
  | .start _ e, es => ∀ o ∈ es.head?, R e o
  | .stop _, _ => True
  | .leaf _ e, es => ∀ o ∈ es.head?, R e o

/-- The range of each event is related to that of the innermost start that is open. -/
def EventsLie (R : Extent → Extent → Prop) : List Extent → List Event → Prop
  | _, [] => True
  | es, event :: rest => event.Lies R es ∧ EventsLie R (event.around es) rest

instance Event.decidableLies {R : Extent → Extent → Prop} [DecidableRel R] :
    ∀ (event : Event) (es : List Extent), Decidable (event.Lies R es)
  | .start _ _, _ => inferInstanceAs (Decidable (∀ _ ∈ _, _))
  | .stop _, _ => inferInstanceAs (Decidable True)
  | .leaf _ _, _ => inferInstanceAs (Decidable (∀ _ ∈ _, _))

instance decidableEventsLie {R : Extent → Extent → Prop} [DecidableRel R] :
    ∀ (es : List Extent) (events : List Event), Decidable (EventsLie R es events)
  | _, [] => inferInstanceAs (Decidable True)
  | es, event :: rest =>
    have := decidableEventsLie (R := R) (event.around es) rest
    inferInstanceAs (Decidable (event.Lies R es ∧ EventsLie R (event.around es) rest))

/-! ## Tokens inside elements -/

/-- The tokens that stand in an element cover lines of its start, wherever both have lines and the
start passes a test. -/
def LinesNest (test : Token → Prop) (tokens : List Token) : Prop :=
  ∀ before o inner c after, tokens = before ++ o :: (inner ++ c :: after) → o.Pairs inner c →
    test o → ∀ t ∈ inner, ∀ m n, t.map = some m → o.map = some n → AreAmong m n

/-- A start whose lines are those of the first part of what it holds: that of a hidden paragraph or
of the body of a table. -/
def IsShort (t : Token) : Prop :=
  t.hidden = true ∨ t.kind = "tbody_open"

/-- A range lies in all ranges of a list. -/
def LiesWithin (e : Extent) (limits : List (Option Extent)) : Prop :=
  ∀ o, some o ∈ limits → e.BeginsIn o

/-- The lines of a token are among those of all ranges of a list. -/
def IsWithin (lines : LineMap) (t : Token) (limits : List (Option Extent)) : Prop :=
  ∀ m, t.map = some m → ∀ o, some o ∈ limits → AreAmong m (lines.span o.start o.stop)

/-- The range that limits the element of a start; a short one has none. -/
def IsLimit (lines : LineMap) (t : Token) : Option Extent → Prop
  | some e => t.map = some (lines.span e.start e.stop)
  | none => IsShort t

/-- Tokens, the last first, leave elements open that are limited by ranges, the innermost first, and
each token covers lines of the ranges around it. -/
inductive Lined (lines : LineMap) : List Token → List (Option Extent) → Prop where
  | nil : Lined lines [] []
  | opening {t : Token} {ts : List Token} {limit : Option Extent} {limits : List (Option Extent)} :
      Lined lines ts limits → t.nesting = .opening → t.level = limits.length →
        IsLimit lines t limit → IsWithin lines t limits → Lined lines (t :: ts) (limit :: limits)
  | closing {t : Token} {ts : List Token} {limit : Option Extent} {limits : List (Option Extent)} :
      Lined lines ts (limit :: limits) → t.nesting = .closing → t.level = limits.length →
        t.map = none → Lined lines (t :: ts) limits
  | alone {t : Token} {ts : List Token} {limits : List (Option Extent)} :
      Lined lines ts limits → t.nesting = .selfClosing → t.level = limits.length →
        IsWithin lines t limits → Lined lines (t :: ts) limits

namespace Lined

variable {lines : LineMap} {t o : Token} {ts newer older : List Token}
  {limits : List (Option Extent)}

theorem tail (h : Lined lines (t :: ts) limits) : ∃ limits', Lined lines ts limits' := by
  cases h with
  | opening h _ _ _ _ => exact ⟨_, h⟩
  | closing h _ _ _ => exact ⟨_, h⟩
  | alone h _ _ _ => exact ⟨_, h⟩

theorem of_append (h : Lined lines (newer ++ ts) limits) : ∃ limits', Lined lines ts limits' := by
  induction newer generalizing limits with
  | nil => exact ⟨limits, h⟩
  | cons t newer ih =>
      rcases h.tail with ⟨limits', h'⟩
      exact ih h'

/-- As long as all tokens behind a start are deeper, its element is open and its range a limit. -/
theorem exists_limit (h : Lined lines (newer ++ o :: older) limits) (ho : o.nesting = .opening)
    (hdeeper : ∀ t ∈ newer, o.level < t.level) :
    ∃ inner limit outer, limits = inner ++ limit :: outer ∧ o.level = outer.length ∧
      IsLimit lines o limit := by
  induction newer generalizing limits with
  | nil =>
      cases h with
      | opening _ _ hlevel hlimit _ => exact ⟨[], _, _, rfl, hlevel, hlimit⟩
      | closing _ hclosing _ _ =>
          rw [hclosing] at ho
          cases ho
      | alone _ halone _ _ =>
          rw [halone] at ho
          cases ho
  | cons t newer ih =>
      rcases List.forall_mem_cons.1 hdeeper with ⟨ht, hnewer⟩
      cases h with
      | opening h _ _ _ _ =>
          rcases ih h hnewer with ⟨inner, limit, outer, rfl, hlevel, hlimit⟩
          exact ⟨_ :: inner, limit, outer, rfl, hlevel, hlimit⟩
      | alone h _ _ _ => exact ih h hnewer
      | @closing _ _ l _ h _ htlevel _ =>
          rcases ih h hnewer with ⟨inner, limit, outer, hsplit, hlevel, hlimit⟩
          cases inner with
          | nil =>
              -- The token would end the element of the start itself.
              rcases List.cons.inj hsplit with ⟨-, rfl⟩
              omega
          | cons l' inner =>
              rcases List.cons.inj hsplit with ⟨-, rfl⟩
              exact ⟨inner, limit, outer, rfl, hlevel, hlimit⟩

/-- A token covers lines of each start that is not short and behind which all tokens are deeper, the
token itself among them. -/
theorem areAmong (h : Lined lines (t :: (newer ++ o :: older)) limits) (ho : o.nesting = .opening)
    (hshort : ¬ IsShort o) (hdeeper : ∀ u ∈ newer, o.level < u.level) {m n : Nat × Nat}
    (hm : t.map = some m) (hn : o.map = some n) : AreAmong m n := by
  have hamong : ∀ limits', Lined lines (newer ++ o :: older) limits' → IsWithin lines t limits' →
      AreAmong m n := by
    intro limits' h' hwithin
    rcases h'.exists_limit ho hdeeper with ⟨inner, limit, outer, rfl, -, hlimit⟩
    cases limit with
    | none => exact absurd hlimit hshort
    | some e =>
        rw [Option.some.inj (hn.symm.trans hlimit)]
        exact hwithin m hm e (List.mem_append_right _ List.mem_cons_self)
  cases h with
  | opening h _ _ _ hwithin => exact hamong _ h hwithin
  | alone h _ _ hwithin => exact hamong _ h hwithin
  | closing _ _ _ hnone =>
      rw [hnone] at hm
      cases hm

/-- Lined tokens cover lines of the elements in which they stand, unless the start is short. -/
theorem linesNest {tokens : List Token} (h : Lined lines tokens.reverse limits) :
    LinesNest (fun o => ¬ IsShort o) tokens := by
  intro before o inner c after hsplit hpairs hshort t ht m n hm hn
  rcases List.append_of_mem ht with ⟨first, last, rfl⟩
  rcases hpairs.bracket with ⟨b, hopens, -⟩
  have hreverse : tokens.reverse = (after.reverse ++ c :: last.reverse) ++
      (t :: (first.reverse ++ o :: before.reverse)) := by
    rw [hsplit]
    simp
  rw [hreverse] at h
  rcases h.of_append with ⟨limits', h'⟩
  refine h'.areAmong hopens.nesting hshort ?_ hm hn
  intro u hu
  exact hpairs.deeper u (List.mem_append_left _ (List.mem_reverse.1 hu))

end Lined
end Markdown
end RenderForest
