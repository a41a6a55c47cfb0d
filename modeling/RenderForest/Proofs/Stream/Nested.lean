import RenderForest.Proofs.Forest.OpenTokens
/-!
# Nested — streams whose ends meet their starts

A stream tells a tree if each start is ended by a token of its own kind and each token knows how
many others are open around it.  This file defines:

* `Bracket`, what the start and the end of an element share, with `Token.Opens` and `Token.Closes`;
* `Token.LeavesOpen`, the elements that a run of tokens leaves open;
* `Token.IsNested`, that a stream leaves none open;
* `Token.IsPaired`, that starts and ends come in pairs, and `Token.IsLevelled`, what the depth and
  the levels of a stream are, with the open tokens as the forest of a stream reads them;

and shows that a nested stream is paired and levelled.
-/

namespace RenderForest

/-- What the token that starts an element shares with the one that ends it. -/
structure Bracket where
  name : String
  tag : String
  hidden : Bool := false
  deriving DecidableEq, Repr

namespace Token

structure Opens (t : Token) (b : Bracket) : Prop where
  nesting : t.nesting = .opening
  kind : t.kind = b.name ++ "_open"
  tag : t.tag = b.tag
  hidden : t.hidden = b.hidden

structure Closes (t : Token) (b : Bracket) : Prop where
  nesting : t.nesting = .closing
  kind : t.kind = b.name ++ "_close"
  tag : t.tag = b.tag
  hidden : t.hidden = b.hidden

/-- Tokens, the last first, leave elements open, the innermost first: each end is that of the
innermost element that is open, and the level of each token is the number of elements that are open
around it. -/
inductive LeavesOpen : List Token → List Bracket → Prop where
  | nil : LeavesOpen [] []
  | opening {t : Token} {ts : List Token} {b : Bracket} {bs : List Bracket} :
      LeavesOpen ts bs → t.Opens b → t.level = bs.length → LeavesOpen (t :: ts) (b :: bs)
  | closing {t : Token} {ts : List Token} {b : Bracket} {bs : List Bracket} :
      LeavesOpen ts (b :: bs) → t.Closes b → t.level = bs.length → LeavesOpen (t :: ts) bs
  | alone {t : Token} {ts : List Token} {bs : List Bracket} :
      LeavesOpen ts bs → t.nesting = .selfClosing → t.level = bs.length → LeavesOpen (t :: ts) bs

/-- A stream ends every element that it starts, and no other. -/
def IsNested (tokens : List Token) : Prop :=
  LeavesOpen tokens.reverse []

/-- Two tokens are the start and the end of one element, and those between them stand in it. -/
structure Pairs (o : Token) (between : List Token) (c : Token) : Prop where
  bracket : ∃ b, o.Opens b ∧ c.Closes b
  level : o.level = c.level
  deeper : ∀ t ∈ between, o.level < t.level

/-- Each start has an end, and each end has a start. -/
structure IsPaired (tokens : List Token) : Prop where
  opening : ∀ before o rest, tokens = before ++ o :: rest → o.nesting = .opening →
    ∃ between c after, rest = between ++ c :: after ∧ o.Pairs between c
  closing : ∀ rest c after, tokens = rest ++ c :: after → c.nesting = .closing →
    ∃ before o between, rest = before ++ o :: between ∧ o.Pairs between c

abbrev marks (tokens : List Token) : List Nesting :=
  tokens.map Token.nesting

/-- How many tokens are open around a token that stands behind others: those that are open before
it, and for an end those that are open behind it. -/
def openAround (before : List Token) (t : Token) : Nat :=
  match t.nesting with
  | .closing => (Forest.openTokens (marks (before ++ [t]))).length
  | _ => (Forest.openTokens (marks before)).length

/-- What the forest of a stream makes of its nesting marks: no run of tokens at its start closes
more than it opens, the whole opens as many as it closes, and the level of each token is the number
of tokens that are open around it. -/
structure IsLevelled (tokens : List Token) : Prop where
  depth_nonneg : ∀ n, 0 ≤ Nesting.depth (marks (tokens.take n))
  depth_eq_zero : Nesting.depth (marks tokens) = 0
  openTokens_eq_nil : Forest.openTokens (marks tokens) = []
  level : ∀ before t after, tokens = before ++ t :: after → t.level = openAround before t

namespace LeavesOpen

variable {t : Token} {ts : List Token} {bs : List Bracket}

theorem marks_reverse_cons (t : Token) (ts : List Token) :
    marks (t :: ts).reverse = marks ts.reverse ++ [t.nesting] := by
  simp

theorem depth_eq (h : LeavesOpen ts bs) : Nesting.depth (marks ts.reverse) = bs.length := by
  induction h with
  | nil => rfl
  | opening _ ht _ ih =>
      rw [marks_reverse_cons, Nesting.depth_append, ih, ht.nesting]
      simp [Nesting.toInt]
  | closing _ ht _ ih =>
      rw [marks_reverse_cons, Nesting.depth_append, ih, ht.nesting]
      simp [Nesting.toInt]
  | alone _ ht _ ih =>
      rw [marks_reverse_cons, Nesting.depth_append, ih, ht]
      simp [Nesting.toInt]

theorem length_openTokens (h : LeavesOpen ts bs) :
    (Forest.openTokens (marks ts.reverse)).length = bs.length := by
  induction h with
  | nil => rfl
  | opening _ ht _ ih =>
      rw [marks_reverse_cons, ht.nesting, Forest.openTokens_opening, List.length_cons, ih,
        List.length_cons]
  | closing _ ht _ ih =>
      rw [marks_reverse_cons, ht.nesting, Forest.openTokens_closing, List.length_tail, ih,
        List.length_cons, Nat.add_sub_cancel]
  | alone _ ht _ ih => rw [marks_reverse_cons, ht, Forest.openTokens_selfClosing, ih]

/-- Tokens without their last leave some elements open too. -/
theorem tail (h : LeavesOpen (t :: ts) bs) : ∃ bs', LeavesOpen ts bs' := by
  cases h with
  | opening h _ _ => exact ⟨_, h⟩
  | closing h _ _ => exact ⟨_, h⟩
  | alone h _ _ => exact ⟨_, h⟩

theorem drop (h : LeavesOpen ts bs) (n : Nat) : ∃ bs', LeavesOpen (ts.drop n) bs' := by
  induction n generalizing ts bs with
  | zero => exact ⟨bs, h⟩
  | succ n ih =>
      cases ts with
      | nil => exact ⟨bs, h⟩
      | cons t ts =>
          rcases h.tail with ⟨bs', h'⟩
          exact ih h'

theorem level_eq (h : LeavesOpen (t :: ts) bs) : t.level = openAround ts.reverse t := by
  have hafter := h.length_openTokens
  rw [List.reverse_cons] at hafter
  cases h with
  | opening h ht hlevel => simp only [openAround, ht.nesting, h.length_openTokens, hlevel]
  | closing h ht hlevel => simp only [openAround, ht.nesting, hafter, hlevel]
  | alone h ht hlevel => simp only [openAround, ht, h.length_openTokens, hlevel]

/-- Nothing but the nesting, the level and the kind of a token counts. -/
theorem setContent (h : LeavesOpen (t :: ts) bs) (content : String) :
    LeavesOpen ({ t with content } :: ts) bs := by
  cases h with
  | opening h ht hlevel => exact h.opening ⟨ht.nesting, ht.kind, ht.tag, ht.hidden⟩ hlevel
  | closing h ht hlevel => exact h.closing ⟨ht.nesting, ht.kind, ht.tag, ht.hidden⟩ hlevel
  | alone h ht hlevel => exact h.alone ht hlevel

/-- What stands in an element has a higher level than the start of the element. -/
theorem level_lt_of_inside {o : Token} {inner outer : List Bracket} {b : Bracket}
    (ho : o.level = outer.length) (ht : t.level = (inner ++ b :: outer).length) :
    o.level < t.level := by
  simp at ht
  omega

/-- The start of each open element stands among the tokens, and those behind it stand in it. -/
theorem exists_opener (h : LeavesOpen ts bs) (inner : List Bracket) {outer : List Bracket}
    {b : Bracket} (hbs : bs = inner ++ b :: outer) :
    ∃ (between : List Token) (o : Token) (before : List Token), ts = between ++ o :: before ∧
      o.Opens b ∧ o.level = outer.length ∧ ∀ t ∈ between, o.level < t.level := by
  -- The last token either is the start, or stands in the element of `b` as all before it do.
  induction h generalizing inner with
  | nil => simp at hbs
  | @opening t ts b' bs' _ ht hlevel ih =>
      cases inner with
      | nil =>
          rcases List.cons.inj hbs with ⟨rfl, rfl⟩
          exact ⟨[], t, ts, rfl, ht, hlevel, by simp⟩
      | cons b'' inner =>
          rcases List.cons.inj hbs with ⟨-, rfl⟩
          rcases ih _ rfl with ⟨between, o, before, rfl, ho, ho', hbetween⟩
          have hdeeper := level_lt_of_inside ho' hlevel
          exact ⟨t :: between, o, before, rfl, ho, ho', List.forall_mem_cons.2 ⟨hdeeper, hbetween⟩⟩
  | @closing t ts b' bs' _ ht hlevel ih =>
      subst hbs
      rcases ih (b' :: inner) rfl with ⟨between, o, before, rfl, ho, ho', hbetween⟩
      have hdeeper := level_lt_of_inside ho' hlevel
      exact ⟨t :: between, o, before, rfl, ho, ho', List.forall_mem_cons.2 ⟨hdeeper, hbetween⟩⟩
  | @alone t ts bs' _ ht hlevel ih =>
      subst hbs
      rcases ih _ rfl with ⟨between, o, before, rfl, ho, ho', hbetween⟩
      have hdeeper := level_lt_of_inside ho' hlevel
      exact ⟨t :: between, o, before, rfl, ho, ho', List.forall_mem_cons.2 ⟨hdeeper, hbetween⟩⟩

/-- A start has met its end in the tokens behind it, or else its element is still open. -/
theorem closed_or_open {newer older : List Token} {o : Token}
    (h : LeavesOpen (newer ++ o :: older) bs) (ho : o.nesting = .opening) :
    (∃ after c between, newer = after ++ c :: between ∧ o.Pairs between c) ∨
      ∃ inner b outer, bs = inner ++ b :: outer ∧ o.Opens b ∧ o.level = outer.length ∧
        ∀ t ∈ newer, o.level < t.level := by
  induction newer generalizing bs with
  | nil =>
      cases h with
      | opening _ hopens hlevel => exact .inr ⟨[], _, _, rfl, hopens, hlevel, by simp⟩
      | closing _ hcloses _ =>
          rw [hcloses.nesting] at ho
          cases ho
      | alone _ halone _ =>
          rw [halone] at ho
          cases ho
  | cons t newer ih =>
      -- An end that has been met stays met.
      have hextend : (∃ after c between, newer = after ++ c :: between ∧ o.Pairs between c) →
          ∃ after c between, t :: newer = after ++ c :: between ∧ o.Pairs between c := by
        rintro ⟨after, c, between, rfl, hpairs⟩
        exact ⟨t :: after, c, between, rfl, hpairs⟩
      cases h with
      | @opening _ _ b' _ h _ hlevel =>
          rcases ih h with hclosed | ⟨inner, b, outer, rfl, hopens, ho', hnewer⟩
          · exact .inl (hextend hclosed)
          · have hdeeper := level_lt_of_inside ho' hlevel
            exact .inr ⟨b' :: inner, b, outer, rfl, hopens, ho',
              List.forall_mem_cons.2 ⟨hdeeper, hnewer⟩⟩
      | closing h hcloses hlevel =>
          rcases ih h with hclosed | ⟨_ | ⟨b', inner⟩, b, outer, hbs, hopens, ho', hnewer⟩
          · exact .inl (hextend hclosed)
          · -- The token ends the element that the start has begun.
            rcases List.cons.inj hbs with ⟨rfl, rfl⟩
            exact .inl ⟨[], t, newer, rfl, ⟨_, hopens, hcloses⟩, ho'.trans hlevel.symm, hnewer⟩
          · -- The token ends an element that stands in the one that the start has begun.
            rcases List.cons.inj hbs with ⟨-, rfl⟩
            have hdeeper := level_lt_of_inside ho' hlevel
            exact .inr ⟨inner, b, outer, rfl, hopens, ho',
              List.forall_mem_cons.2 ⟨hdeeper, hnewer⟩⟩
      | alone h _ hlevel =>
          rcases ih h with hclosed | ⟨inner, b, outer, rfl, hopens, ho', hnewer⟩
          · exact .inl (hextend hclosed)
          · have hdeeper := level_lt_of_inside ho' hlevel
            exact .inr ⟨inner, b, outer, rfl, hopens, ho',
              List.forall_mem_cons.2 ⟨hdeeper, hnewer⟩⟩

end LeavesOpen

namespace IsNested

variable {tokens before after : List Token} {t : Token}

/-- The tokens up to one of a stream leave some elements open. -/
theorem leavesOpen_of_split (h : IsNested tokens) (hsplit : tokens = before ++ t :: after) :
    ∃ bs, LeavesOpen (t :: before.reverse) bs := by
  rcases LeavesOpen.drop h after.length with ⟨bs, hbs⟩
  refine ⟨bs, ?_⟩
  simpa [hsplit] using hbs

/-- A nested stream is paired: of each start one asks at the end of the stream, where nothing is
open, and of each end at the end itself. -/
theorem isPaired (h : IsNested tokens) : IsPaired tokens := by
  refine ⟨?_, ?_⟩
  · intro before o rest hsplit ho
    have hreverse : LeavesOpen (rest.reverse ++ o :: before.reverse) [] := by
      simpa [IsNested, hsplit] using h
    rcases hreverse.closed_or_open ho with
      ⟨after, c, between, hrest, hpairs⟩ | ⟨inner, b, outer, hbs, -⟩
    · refine ⟨between.reverse, c, after.reverse, ?_, hpairs.bracket, hpairs.level, ?_⟩
      · rw [← List.reverse_reverse rest, hrest]
        simp
      · intro t ht
        exact hpairs.deeper t (List.mem_reverse.1 ht)
    · simp at hbs
  · intro rest c after hsplit hc
    rcases h.leavesOpen_of_split hsplit with ⟨bs, hbs⟩
    cases hbs with
    | opening _ hopens _ =>
        rw [hopens.nesting] at hc
        cases hc
    | alone _ halone _ =>
        rw [halone] at hc
        cases hc
    | @closing _ _ b bs hbefore hcloses hlevel =>
        rcases hbefore.exists_opener [] rfl with
          ⟨between, o, before, heq, hopens, hlevel', hdeeper⟩
        refine ⟨before.reverse, o, between.reverse, ?_, ⟨b, hopens, hcloses⟩,
          hlevel'.trans hlevel.symm, ?_⟩
        · rw [← List.reverse_reverse rest, heq]
          simp
        · intro t ht
          exact hdeeper t (List.mem_reverse.1 ht)

theorem isLevelled (h : IsNested tokens) : IsLevelled tokens := by
  have hopen := LeavesOpen.length_openTokens h
  have hdepth := LeavesOpen.depth_eq h
  rw [List.reverse_reverse] at hopen hdepth
  refine ⟨?_, hdepth, List.length_eq_zero_iff.1 hopen, ?_⟩
  · -- The tokens at the start are what is left when the others are dropped.
    intro n
    rcases LeavesOpen.drop h (tokens.length - n) with ⟨bs, hbs⟩
    have hstart := hbs.depth_eq
    rw [← List.reverse_take, List.reverse_reverse] at hstart
    rw [hstart]
    exact Int.natCast_nonneg _
  · intro before t after hsplit
    rcases h.leavesOpen_of_split hsplit with ⟨bs, hbs⟩
    simpa using hbs.level_eq

end IsNested
end Token
end RenderForest
