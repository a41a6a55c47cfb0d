import RenderForest.Proofs.Source.LineMarks
import RenderForest.Proofs.Stream.AttributeViews
import RenderForest.Source.LineRange
/-!
# LineShifts — corrected lines and their order

The first line of a token and the line behind its last are shifted apart from each other, each by
the macros that stand before its own mark.  This file defines:

* `MacroLine.AreRising`, a table whose shifts are not negative and do not fall;
* `Env.shiftAtStart` and `Env.shiftAtEnd`, the shifts of the two bounds of a token;

and shows in `lineRange_mono` that rising shifts reorder no tokens, and in `lineRange_inverted_iff`
when the lines of a single token come out in the wrong order.
-/

namespace RenderForest

/-! ## Macros before a position -/

theorem signed64_of_lt {n : Nat} (h : n < 2 ^ 63) : signed64 n = n := by
  unfold signed64
  split
  · rfl
  · omega

theorem signed64_mono {p q : Nat} (h : p ≤ q) (hq : q < 2 ^ 63) : signed64 p ≤ signed64 q := by
  rw [signed64_of_lt hq, signed64_of_lt (Nat.lt_of_le_of_lt h hq)]
  exact Int.ofNat_le.2 h

/-- A macro before a position stands before all later ones. -/
theorem MacroLine.precedes_mono {m : MacroLine} {p q : Nat} (h : p ≤ q) (hq : q < 2 ^ 63)
    (hp : m.precedes p = true) : m.precedes q = true := by
  have hle := signed64_mono h hq
  simp only [precedes, Bool.and_eq_true, decide_eq_true_eq] at hp ⊢
  exact ⟨Int.lt_of_lt_of_le hp.1 (Int.add_le_add_right hle _),
    Int.lt_of_lt_of_le hp.2 (Int.add_le_add_right hle _)⟩

/-- The entries that apply at a position are the first of those that apply at a later one. -/
theorem appliedMacros_prefix (table : List MacroLine) {p q : Nat} (h : p ≤ q)
    (hq : q < 2 ^ 63) : appliedMacros table p <+: appliedMacros table q :=
  takeWhile_prefix_of_imp (fun _ => MacroLine.precedes_mono h hq) table

/-! ## Rising shifts -/

/-- The shifts of a table do not fall along it, and none of them is negative. -/
structure MacroLine.AreRising (table : List MacroLine) : Prop where
  nonneg : ∀ m ∈ table, 0 ≤ m.lineOffset
  ordered : table.Pairwise fun m n => m.lineOffset ≤ n.lineOffset

namespace MacroLine.AreRising

variable {table : List MacroLine}

theorem lineOffsetAt_nonneg (h : AreRising table) (p : Nat) : 0 ≤ lineOffsetAt table p := by
  rw [lineOffsetAt]
  cases hlast : (appliedMacros table p).getLast? with
  | none => exact Int.le_refl 0
  | some m =>
      have hm : m ∈ table := (List.takeWhile_sublist _).subset (List.mem_of_getLast? hlast)
      exact h.nonneg m hm

/-- A later position is shifted at least as far. -/
theorem lineOffsetAt_mono (h : AreRising table) {p q : Nat} (hpq : p ≤ q) (hq : q < 2 ^ 63) :
    lineOffsetAt table p ≤ lineOffsetAt table q := by
  rcases appliedMacros_prefix table hpq hq with ⟨more, hmore⟩
  have hsorted : (appliedMacros table p ++ more).Pairwise fun m n =>
      m.lineOffset ≤ n.lineOffset := by
    rw [hmore]
    exact h.ordered.sublist (List.takeWhile_sublist _)
  cases hp : (appliedMacros table p).getLast? with
  | none =>
      -- No entry applies yet, so that there is no shift.
      have hzero : lineOffsetAt table p = 0 := by rw [lineOffsetAt, hp]; rfl
      rw [hzero]
      exact h.lineOffsetAt_nonneg q
  | some m =>
      rw [lineOffsetAt, lineOffsetAt, ← hmore, List.getLast?_append, hp]
      cases hlast : more.getLast? with
      | none => exact Int.le_refl _
      | some n =>
          have hcross := (List.pairwise_append.1 hsorted).2.2
          exact hcross m (List.mem_of_getLast? hp) n (List.mem_of_getLast? hlast)

/-- Marks in order are shifted in order; where there is no mark, there is no shift. -/
theorem lineOffsetAtMark_mono (h : AreRising table) {marks : List Nat} {i j : Nat}
    (hsorted : marks.Pairwise (· ≤ ·)) (hbound : ∀ x ∈ marks, x < 2 ^ 63) (hij : i ≤ j)
    (hj : j < marks.length) :
    lineOffsetAtMark table marks[i]? ≤ lineOffsetAtMark table marks[j]? := by
  have hi : i < marks.length := Nat.lt_of_le_of_lt hij hj
  have hle : marks[i] ≤ marks[j] := by
    rcases Nat.eq_or_lt_of_le hij with rfl | hlt
    · exact Nat.le_refl _
    · exact List.pairwise_iff_getElem.1 hsorted i j hi hj hlt
  rw [List.getElem?_eq_getElem hi, List.getElem?_eq_getElem hj]
  exact h.lineOffsetAt_mono hle (hbound _ (List.getElem_mem hj))

end MacroLine.AreRising

/-! ## Both bounds of a token -/

theorem shiftLine_mono {a b : Nat} {o p : Int} (hline : a ≤ b) (hoffset : o ≤ p) :
    shiftLine a o ≤ shiftLine b p := by
  unfold shiftLine
  omega

theorem shiftLine_lt_iff {a b : Nat} {o p : Int} :
    shiftLine b p < shiftLine a o ↔
      (b : Int) + p < a + o ∧ 0 < (a : Int) + o ∧ (b : Int) + p < 2 ^ 64 - 1 := by
  unfold shiftLine
  omega

namespace Env

/-- The shift of the first line of a token, zero where the surroundings tell of none. -/
def shiftAtStart (env : Env) (start : Nat) : Int :=
  match env.macroLines, env.lineStarts, env.lineEnds with
  | some table, some starts, some _ => lineOffsetAtMark table starts[start]?
  | _, _, _ => 0

/-- The shift of the line behind the last one of a token: that of the end of the last line. -/
def shiftAtEnd (env : Env) (stop : Nat) : Int :=
  match env.macroLines, env.lineStarts, env.lineEnds with
  | some table, some _, some ends =>
    lineOffsetAtMark table (if stop == 0 then none else ends[stop - 1]?)
  | _, _, _ => 0

end Env

theorem lineOffsetAtMark_nil (mark : Option Nat) : lineOffsetAtMark [] mark = 0 := by
  cases mark <;> rfl

/-- Surroundings shift the bounds of every token, each apart from the other, or none at all. -/
theorem lineRange_cases (env : Env) :
    (∀ (t : Token) (s e : Nat), t.map = some (s, e) →
        t.lineRange env = (shiftLine s (env.shiftAtStart s), shiftLine e (env.shiftAtEnd e))) ∨
      ∀ (t : Token) (s e : Nat), t.map = some (s, e) →
        t.lineRange env = (s, e) ∧ env.shiftAtStart s = 0 ∧ env.shiftAtEnd e = 0 := by
  rcases env with ⟨safe, macros, starts, ends⟩
  -- Without a table, or without marks, nothing is shifted.
  rcases macros with _ | table
  · exact Or.inr fun t s e h => ⟨by simp [Token.lineRange, h], rfl, rfl⟩
  rcases starts with _ | starts
  · exact Or.inr fun t s e h => ⟨by simp [Token.lineRange, h], rfl, rfl⟩
  rcases ends with _ | ends
  · exact Or.inr fun t s e h => ⟨by simp [Token.lineRange, h], rfl, rfl⟩
  cases table with
  | nil =>
      exact Or.inr fun t s e h => ⟨by simp [Token.lineRange, h], lineOffsetAtMark_nil _,
        lineOffsetAtMark_nil _⟩
  | cons m table =>
      refine Or.inl fun t s e h => ?_
      simp [Token.lineRange, h, Env.shiftAtStart, Env.shiftAtEnd]

/-! ## Tokens in order -/

/-- The shifts at the marks of a text: rising shifts rise with the lines of the text. -/
theorem shifts_mono {source : String} (hsource : source.utf8ByteSize < 2 ^ 63)
    {table : List MacroLine} (htable : MacroLine.AreRising table) (env : Env) :
    let marked := ({ env with macroLines := some table } : Env).withLineMarks source
    let count := (LineMap.ofString source).count
    (∀ s s', s ≤ s' → s' < count → marked.shiftAtStart s ≤ marked.shiftAtStart s') ∧
      (∀ e e', e ≤ e' → e' ≤ count → marked.shiftAtEnd e ≤ marked.shiftAtEnd e') := by
  intro marked count
  have hlines : (LineMap.ofString source).IsOrdered := LineMap.isOrdered_ofChars _
  have hlength : (LineMap.ofString source).length < 2 ^ 63 := by
    rw [LineMap.ofString, LineMap.ofChars, Text.byteLength_toList]
    exact hsource
  constructor
  · intro s s' hs hs'
    refine htable.lineOffsetAtMark_mono (hlines.starts.imp Nat.le_of_lt) ?_ hs hs'
    intro x hx
    exact Nat.lt_of_le_of_lt (hlines.bound x hx) hlength
  · intro e e' he he'
    have hends : (LineMap.ofString source).ends.length = count := LineMap.length_endsFrom _ _
    cases e with
    | zero =>
        -- A token that ends before the first line has no last line, and is not shifted.
        show 0 ≤ lineOffsetAtMark table _
        rw [lineOffsetAtMark]
        cases (if e' == 0 then none else (LineMap.ofString source).ends[e' - 1]?) with
        | none => exact Int.le_refl 0
        | some x => exact htable.lineOffsetAt_nonneg x
    | succ e =>
        obtain ⟨e', rfl⟩ : ∃ n, e' = n + 1 := ⟨e' - 1, by omega⟩
        refine htable.lineOffsetAtMark_mono hlines.pairwise_ends ?_ (Nat.le_of_succ_le_succ he) ?_
        · intro x hx
          exact Nat.lt_of_le_of_lt (hlines.end_le hx) hlength
        · rw [hends]
          exact he'

/-- The macros that apply at a position are the first of those that apply at a later one.  Hence
rising shifts reorder no tokens of a text: one that does not start behind another does not start
behind it after the correction, and one that does not end behind another does not end behind
it. -/
theorem lineRange_mono {source : String} (hsource : source.utf8ByteSize < 2 ^ 63)
    {table : List MacroLine} (htable : MacroLine.AreRising table) (env : Env) :
    let marked := ({ env with macroLines := some table } : Env).withLineMarks source
    let count := (LineMap.ofString source).count
    (∀ p q, p ≤ q → q < 2 ^ 63 → appliedMacros table p <+: appliedMacros table q) ∧
      ∀ (t u : Token) (s e s' e' : Nat), t.map = some (s, e) → u.map = some (s', e') →
        (s ≤ s' → s' < count → (t.lineRange marked).1 ≤ (u.lineRange marked).1) ∧
          (e ≤ e' → e' ≤ count → (t.lineRange marked).2 ≤ (u.lineRange marked).2) := by
  intro marked count
  refine ⟨fun p q => appliedMacros_prefix table, ?_⟩
  intro t u s e s' e' ht hu
  rcases shifts_mono hsource htable env with ⟨hstarts, hends⟩
  rcases lineRange_cases marked with hshifted | hplain
  · rw [hshifted t s e ht, hshifted u s' e' hu]
    exact ⟨fun hs hs' => shiftLine_mono hs (hstarts s s' hs hs'),
      fun he he' => shiftLine_mono he (hends e e' he he')⟩
  · rw [(hplain t s e ht).1, (hplain u s' e' hu).1]
    exact ⟨fun hs _ => hs, fun he _ => he⟩

/-- Two headings and two macros that took up lines: the first macro takes effect behind the first
line, and the second one is not reached. -/
theorem lineRange_mono_headings :
    let source := "a\n\nb\n"
    let table : List MacroLine := [⟨0, 2, 0, 5⟩, ⟨9, 3, 5, 8⟩]
    let marked := ({ macroLines := some table } : Env).withLineMarks source
    let heading (s e : Nat) : Token := { kind := "heading_open", map := some (s, e) }
    source.utf8ByteSize < 2 ^ 63 ∧ MacroLine.AreRising table ∧
      ((heading 0 1).lineRange marked).1 ≤ ((heading 2 3).lineRange marked).1 ∧
      ((heading 0 1).lineRange marked).2 ≤ ((heading 2 3).lineRange marked).2 := by
  intro source table marked heading
  have hsource : source.utf8ByteSize < 2 ^ 63 := by decide
  have htable : MacroLine.AreRising table := ⟨by decide, by decide⟩
  have hmono := (lineRange_mono hsource htable {}).2 (heading 0 1) (heading 2 3) 0 1 2 3 rfl rfl
  exact ⟨hsource, htable, hmono.1 (by decide) (by decide), hmono.2 (by decide) (by decide)⟩

/-! ## The order of the two bounds -/

/-- In a text, with rising shifts, the end of a line is shifted at least as far as the start of that
line and of all lines before it. -/
theorem shiftAtStart_le_shiftAtEnd {source : String} (hsource : source.utf8ByteSize < 2 ^ 63)
    {table : List MacroLine} (htable : MacroLine.AreRising table) (env : Env) {s e : Nat}
    (hlt : s < e) (he : e ≤ (LineMap.ofString source).count) :
    let marked := ({ env with macroLines := some table } : Env).withLineMarks source
    marked.shiftAtStart s ≤ marked.shiftAtEnd e := by
  intro marked
  have hlines : (LineMap.ofString source).IsOrdered := LineMap.isOrdered_ofChars _
  obtain ⟨last, rfl⟩ : ∃ n, e = n + 1 := ⟨e - 1, by omega⟩
  have hends : last < (LineMap.ofString source).ends.length := by
    rw [LineMap.ends, LineMap.length_endsFrom]
    exact he
  have hlength : (LineMap.ofString source).ends[last] < 2 ^ 63 := by
    refine Nat.lt_of_le_of_lt (hlines.end_le (List.getElem_mem hends)) ?_
    rw [LineMap.ofString, LineMap.ofChars, Text.byteLength_toList]
    exact hsource
  have hstart := (shifts_mono hsource htable env).1 s last (Nat.le_of_lt_succ hlt) he
  have hend : lineOffsetAtMark table (LineMap.ofString source).starts[last]? ≤
      lineOffsetAtMark table (LineMap.ofString source).ends[last]? := by
    rw [List.getElem?_eq_getElem he, List.getElem?_eq_getElem hends]
    exact htable.lineOffsetAt_mono (hlines.start_le_end (List.getElem?_eq_getElem he)
      (List.getElem?_eq_getElem hends)) hlength
  exact Int.le_trans hstart hend

theorem lineRange_lt_iff {t : Token} {s e : Nat} (hmap : t.map = some (s, e)) (hle : s ≤ e)
    (env : Env) :
    (t.lineRange env).2 < (t.lineRange env).1 ↔
      (e : Int) - s < env.shiftAtStart s - env.shiftAtEnd e ∧ 0 < s + env.shiftAtStart s ∧
        (e : Int) + env.shiftAtEnd e < 2 ^ 64 - 1 := by
  rcases lineRange_cases env with hshifted | hplain
  · rw [hshifted t s e hmap, shiftLine_lt_iff]
    omega
  · rcases hplain t s e hmap with ⟨hrange, hstart, hend⟩
    rw [hrange, hstart, hend]
    simp only
    omega

/-- The annotation writes the corrected lines of a block.  They come out in the wrong order
exactly if the shift at the start exceeds the shift at the end by more than the lines between
the two, unless the start is cut off at the first line or the end at the largest number.  They do
not if the marks are those of a text in which the block has a line, and the shifts are rising. -/
theorem lineRange_inverted_iff {t : Token} {s e : Nat} (hmap : t.map = some (s, e))
    (hle : s ≤ e) :
    (∀ env : Env,
      ((t.lineRange env).2 < (t.lineRange env).1 ↔
        (e : Int) - s < env.shiftAtStart s - env.shiftAtEnd e ∧ 0 < s + env.shiftAtStart s ∧
          (e : Int) + env.shiftAtEnd e < 2 ^ 64 - 1) ∧
      (t.block = true → ∀ i,
        (t.annotate env i).attr? SourceAttr.lineStart = some (toString ((t.lineRange env).1 + 1)) ∧
          (t.annotate env i).attr? SourceAttr.lineEnd =
            some (toString ((t.lineRange env).2 + 1)))) ∧
      ∀ (source : String) (table : List MacroLine) (env : Env), source.utf8ByteSize < 2 ^ 63 →
        MacroLine.AreRising table → s < e → e ≤ (LineMap.ofString source).count →
          let marked := ({ env with macroLines := some table } : Env).withLineMarks source
          (t.lineRange marked).1 ≤ (t.lineRange marked).2 := by
  constructor
  · intro env
    exact ⟨lineRange_lt_iff hmap hle env,
      fun hblock i => Token.attr?_annotate_lines hblock hmap env i⟩
  · intro source table env hsource htable hlt he marked
    have hshift : marked.shiftAtStart s ≤ marked.shiftAtEnd e :=
      shiftAtStart_le_shiftAtEnd hsource htable env hlt he
    refine Nat.le_of_not_lt fun hinverted => ?_
    -- The lines would be inverted by a fall of the shifts.
    have hfall := ((lineRange_lt_iff hmap hle marked).1 hinverted).1
    omega

/-- Paragraphs that a macro made: it stands behind five lines, wrote twenty-three bytes and four
lines more than it takes up, and its last line is that of the last paragraph. -/
def expandedText : String :=
  "x\nx\nx\nx\nx\naaaaaaaa\n\nbbbbbbbb\n\ncccccccc"

/-- The marks of the expanded text, with its macro. -/
def expandedEnv : Env :=
  ({ macroLines := some [⟨10, -4, 0, -23⟩] } : Env).withLineMarks expandedText

/-- The last paragraph of the expanded text. -/
def expandedTail : Token :=
  { kind := "paragraph_open", tag := "p", map := some (9, 10), nesting := .opening, block := true }

/-- The lines of the last paragraph come out in the wrong order, but would not with a macro that
takes up lines. -/
theorem lineRange_inverted_iff_expandedTail :
    expandedTail.map = some (9, 10) ∧ 9 ≤ 10 ∧
      (expandedTail.lineRange expandedEnv).2 < (expandedTail.lineRange expandedEnv).1 ∧
      let marked := ({ macroLines := some [⟨10, 4, 0, 23⟩] } : Env).withLineMarks expandedText
      (expandedTail.lineRange marked).1 ≤ (expandedTail.lineRange marked).2 := by
  have hmap : expandedTail.map = some (9, 10) := rfl
  have hle : 9 ≤ 10 := by decide
  have hrising : MacroLine.AreRising [⟨10, 4, 0, 23⟩] := ⟨by decide, by decide⟩
  rcases lineRange_inverted_iff hmap hle with ⟨hall, htext⟩
  refine ⟨hmap, hle, (hall expandedEnv).1.2 (by decide), ?_⟩
  exact htext expandedText _ {} (by decide) hrising (by decide) (by decide)

/-- The last paragraph starts in front of the place from which lines are shifted back, and ends
behind it. -/
theorem not_lineRange_ordered :
    ¬ ∀ (env : Env) (t : Token) (s e : Nat), t.map = some (s, e) → s ≤ e →
      (t.lineRange env).1 ≤ (t.lineRange env).2 := by
  intro h
  have hordered := h expandedEnv expandedTail 9 10 rfl (by decide)
  exact absurd hordered (by decide)

end RenderForest
