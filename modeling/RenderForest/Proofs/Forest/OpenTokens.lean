import Mathlib.Algebra.BigOperators.Group.List.Basic
import Mathlib.Algebra.Ring.Int.Defs
import Mathlib.Data.List.Infix
import RenderForest.Stream.Token
/-!
# OpenTokens — which tokens of a stream are still open

Whether a token is still open can be read off the nesting marks without a stack: it opens, and no
run of tokens right behind it closes more than it opens.  This file defines:

* `Nesting.depth`, how far a run of tokens opens more than it closes;
* `Forest.isOpen` and `Forest.openTokens`, the open tokens of a stream, the innermost first;

and shows in `openTokens_opening`, `openTokens_closing` and `openTokens_selfClosing` that one
more token changes them the way a stack is changed.  An end that meets no open token changes
nothing, since the tail of an empty list is empty.
-/

namespace RenderForest

/-- How far the tokens of a run open more than they close. -/
def Nesting.depth (marks : List Nesting) : Int :=
  (marks.map Nesting.toInt).sum

@[simp] theorem Nesting.depth_nil : Nesting.depth [] = 0 := rfl

@[simp] theorem Nesting.depth_append (a b : List Nesting) :
    Nesting.depth (a ++ b) = Nesting.depth a + Nesting.depth b := by
  simp [Nesting.depth]

@[simp] theorem Nesting.depth_singleton (m : Nesting) : Nesting.depth [m] = m.toInt := by
  simp [Nesting.depth]

namespace Forest

/-! ## Open tokens -/

/-- Whether the token with an index is still open behind the tokens with these marks. -/
def isOpen (marks : List Nesting) (k : Nat) : Bool :=
  marks[k]? == some .opening &&
    (marks.drop (k + 1)).inits.all fun run => decide (0 ≤ Nesting.depth run)

/-- The open tokens, the innermost first. -/
def openTokens (marks : List Nesting) : List Nat :=
  (List.range marks.length).reverse.filter (isOpen marks)

theorem lt_of_mem_openTokens {marks : List Nesting} {k : Nat} (h : k ∈ openTokens marks) :
    k < marks.length := by
  rcases List.mem_filter.1 h with ⟨hk, _⟩
  simpa using hk

/-! ## One more token -/

theorem isOpen_append_of_lt {marks : List Nesting} {m : Nesting} {k : Nat}
    (hk : k < marks.length) :
    isOpen (marks ++ [m]) k =
      (isOpen marks k && decide (0 ≤ Nesting.depth (marks.drop (k + 1)) + m.toInt)) := by
  have hget : (marks ++ [m])[k]? = marks[k]? := by
    rw [List.getElem?_append_left hk]
  have hdrop : (marks ++ [m]).drop (k + 1) = marks.drop (k + 1) ++ [m] := by
    rw [List.drop_append_of_le_length (by omega)]
  simp [isOpen, hget, hdrop, List.inits_append, Bool.and_assoc]

theorem isOpen_append_self (marks : List Nesting) (m : Nesting) :
    isOpen (marks ++ [m]) marks.length = (m == .opening) := by
  cases m <;> simp [isOpen]

theorem openTokens_append (marks : List Nesting) (m : Nesting) :
    openTokens (marks ++ [m]) =
      (if m == .opening then [marks.length] else []) ++
        (openTokens marks).filter fun k =>
          decide (0 ≤ Nesting.depth (marks.drop (k + 1)) + m.toInt) := by
  -- The tokens before the new one stay open while the run behind them does not close them.
  have hold : ((List.range marks.length).reverse.filter (isOpen (marks ++ [m]))) =
      (openTokens marks).filter fun k =>
        decide (0 ≤ Nesting.depth (marks.drop (k + 1)) + m.toInt) := by
    rw [openTokens, List.filter_filter]
    refine List.filter_congr ?_
    intro k hk
    rw [isOpen_append_of_lt (by simpa using hk), Bool.and_comm]
  rw [openTokens, List.length_append, List.length_singleton, List.range_succ,
    List.reverse_append, List.reverse_singleton, List.singleton_append, List.filter_cons,
    isOpen_append_self, hold]
  split <;> simp

/-! ## Depths of the open tokens -/

/-- The run behind an open token opens as many tokens as are open inside that token: none for the
innermost, one for the next, and so on. -/
def Stacked (f : Nat → Int) (l : List Nat) : Prop :=
  l.map f = (List.range l.length).map fun n : Nat => (n : Int)

theorem Stacked.cons {f : Nat → Int} {l : List Nat} {k : Nat} (hk : f k = 0)
    (h : l.map f = (List.range l.length).map fun n : Nat => (n : Int) + 1) :
    Stacked f (k :: l) := by
  simp [Stacked, List.range_succ_eq_map, Function.comp_def, hk, h]

theorem Stacked.of_cons {f : Nat → Int} {l : List Nat} {k : Nat} (h : Stacked f (k :: l)) :
    f k = 0 ∧ l.map f = (List.range l.length).map fun n : Nat => (n : Int) + 1 := by
  simpa [Stacked, List.range_succ_eq_map, Function.comp_def] using h

theorem Stacked.nonneg {f : Nat → Int} {l : List Nat} (h : Stacked f l) {k : Nat}
    (hk : k ∈ l) : 0 ≤ f k := by
  have hmem : f k ∈ l.map f := List.mem_map_of_mem hk
  rw [h] at hmem
  rcases List.mem_map.1 hmem with ⟨n, _, hn⟩
  rw [← hn]
  simp

theorem Stacked.tail_eq_filter {f : Nat → Int} {l : List Nat} (h : Stacked f l) :
    l.filter (fun k => decide (1 ≤ f k)) = l.tail := by
  cases l with
  | nil => rfl
  | cons a t =>
      rcases h.of_cons with ⟨ha, ht⟩
      have htail : ∀ k ∈ t, 1 ≤ f k := by
        intro k hk
        have hmem : f k ∈ t.map f := List.mem_map_of_mem hk
        rw [ht] at hmem
        rcases List.mem_map.1 hmem with ⟨n, _, hn⟩
        rw [← hn]
        omega
      rw [List.filter_cons, List.filter_eq_self.2 (by simpa using htail)]
      simp [ha]

/-- How far the run behind a token opens more than it closes. -/
def openDepth (marks : List Nesting) (k : Nat) : Int :=
  Nesting.depth (marks.drop (k + 1))

theorem openDepth_append {marks : List Nesting} {m : Nesting} {k : Nat} (hk : k < marks.length) :
    openDepth (marks ++ [m]) k = openDepth marks k + m.toInt := by
  rw [openDepth, List.drop_append_of_le_length (by omega)]
  simp [openDepth]

theorem map_openDepth_append (marks : List Nesting) (m : Nesting) {l : List Nat}
    (hl : ∀ k ∈ l, k < marks.length) :
    l.map (openDepth (marks ++ [m])) = l.map fun k => openDepth marks k + m.toInt :=
  List.map_congr_left fun k hk => openDepth_append (hl k hk)

/-! ## Opening, closing and standing alone -/

theorem openTokens_opening_of_stacked {marks : List Nesting}
    (h : Stacked (openDepth marks) (openTokens marks)) :
    openTokens (marks ++ [.opening]) = marks.length :: openTokens marks := by
  have hall : ∀ k ∈ openTokens marks, 0 ≤ openDepth marks k + Nesting.opening.toInt := by
    intro k hk
    have := h.nonneg hk
    simp only [Nesting.toInt]
    omega
  rw [openTokens_append, List.filter_eq_self.2 (by simpa [openDepth] using hall)]
  rfl

theorem openTokens_closing_of_stacked {marks : List Nesting}
    (h : Stacked (openDepth marks) (openTokens marks)) :
    openTokens (marks ++ [.closing]) = (openTokens marks).tail := by
  rw [openTokens_append, ← h.tail_eq_filter]
  refine List.filter_congr ?_
  intro k _
  refine decide_eq_decide.2 ?_
  simp only [openDepth, Nesting.toInt]
  omega

theorem openTokens_selfClosing_of_stacked {marks : List Nesting}
    (h : Stacked (openDepth marks) (openTokens marks)) :
    openTokens (marks ++ [.selfClosing]) = openTokens marks := by
  have hall : ∀ k ∈ openTokens marks, 0 ≤ openDepth marks k + Nesting.selfClosing.toInt := by
    intro k hk
    simpa [Nesting.toInt] using h.nonneg hk
  rw [openTokens_append, List.filter_eq_self.2 (by simpa [openDepth] using hall)]
  rfl

/-- The run behind each open token opens exactly the tokens that are open inside it. -/
theorem stacked_openTokens (marks : List Nesting) :
    Stacked (openDepth marks) (openTokens marks) := by
  -- One more token at the end moves all depths by its own mark.
  induction marks using List.reverseRecOn with
  | nil => rfl
  | append_singleton marks m ih =>
      have hlt : ∀ k ∈ openTokens marks, k < marks.length := fun k => lt_of_mem_openTokens
      cases m with
      | opening =>
          rw [openTokens_opening_of_stacked ih]
          refine Stacked.cons (by simp [openDepth]) ?_
          rw [map_openDepth_append _ _ hlt]
          have h := congrArg (List.map (· + Nesting.opening.toInt)) ih
          simpa [Function.comp_def, Nesting.toInt] using h
      | selfClosing =>
          rw [openTokens_selfClosing_of_stacked ih, Stacked, map_openDepth_append _ _ hlt]
          simpa [Stacked, Nesting.toInt] using ih
      | closing =>
          -- The innermost open token goes, and the others come one step nearer.
          rw [openTokens_closing_of_stacked ih]
          cases hopen : openTokens marks with
          | nil => rfl
          | cons a t =>
              rw [hopen] at ih hlt
              have ht := congrArg (List.map (· + Nesting.closing.toInt)) ih.of_cons.2
              rw [List.tail_cons, Stacked,
                map_openDepth_append _ _ fun k hk => hlt k (List.mem_cons_of_mem a hk)]
              simpa [Function.comp_def, Nesting.toInt] using ht

theorem openTokens_opening (marks : List Nesting) :
    openTokens (marks ++ [.opening]) = marks.length :: openTokens marks :=
  openTokens_opening_of_stacked (stacked_openTokens marks)

theorem openTokens_closing (marks : List Nesting) :
    openTokens (marks ++ [.closing]) = (openTokens marks).tail :=
  openTokens_closing_of_stacked (stacked_openTokens marks)

theorem openTokens_selfClosing (marks : List Nesting) :
    openTokens (marks ++ [.selfClosing]) = openTokens marks :=
  openTokens_selfClosing_of_stacked (stacked_openTokens marks)

end Forest
end RenderForest
