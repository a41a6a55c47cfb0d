import RenderForest.Proofs.Markdown.Balance
import RenderForest.Proofs.Markdown.LimitedLines
/-!
# LineNesting — the lines of nested tokens

A block token has the lines of its own event; inline content has those of all its events; a hidden
paragraph has those of the first event inside it, and the body of a table those of its first row.
This file defines:

* `Spot.Limits`, the ranges of the elements that are open at a spot;
* `Assembly.IsLined`, that the tokens of an assembly are lined, and that what is at work will be;
* `Assembly.IsLimited`, that the assembly stands so in its scope;

and shows in `linesNest_assemble` that the tokens of each document whose events lie inside one
another nest, short starts apart.
-/

namespace RenderForest
namespace Markdown

/-! ## Ranges of open elements -/

/-- The ranges of the elements that are open at a spot and around it, by the ranges of the starts
that are open there, spans apart: a short start has none, and a row in the head has two elements. -/
inductive Spot.Limits (bodyOpen : Bool) : Spot → List Extent → List (Option Extent) → Prop where
  | blocks (es : List Extent) : Limits bodyOpen .blocks es (es.map some)
  | run (es : List Extent) : Limits bodyOpen .run es (none :: es.map some)
  | text (b : TextBlock) (e : Extent) (es : List Extent) :
      Limits bodyOpen (.text b) (e :: es) (some e :: es.map some)
  | literal (b : LiteralBlock) (e : Extent) (es : List Extent) :
      Limits bodyOpen (.literal b) (e :: es) (es.map some)
  | table (alignments : List Mark.Alignment) (e : Extent) (es : List Extent) :
      Limits bodyOpen (.table alignments) (e :: es)
        ((if bodyOpen then [none] else []) ++ some e :: es.map some)
  | head {alignments : List Mark.Alignment} {es : List Extent} {limits : List (Option Extent)}
      (e : Extent) : Limits bodyOpen (.table alignments) es limits →
        Limits bodyOpen (.row alignments .head) (e :: es) (some e :: some e :: limits)
  | body {alignments : List Mark.Alignment} {es : List Extent} {limits : List (Option Extent)}
      (e : Extent) : Limits bodyOpen (.table alignments) es limits →
        Limits bodyOpen (.row alignments .body) (e :: es) (some e :: limits)
  | cell {alignments : List Mark.Alignment} {r : TableRow} {es : List Extent}
      {limits : List (Option Extent)} (e : Extent) :
        Limits bodyOpen (.row alignments r) es limits →
          Limits bodyOpen (.cell alignments r) (e :: es) (some e :: limits)

namespace Spot.Limits

variable {bodyOpen : Bool} {p : Spot} {es : List Extent} {limits : List (Option Extent)}

/-- Each of the ranges is that of a start. -/
theorem mem_of_some_mem (h : Limits bodyOpen p es limits) {o : Extent} (ho : some o ∈ limits) :
    o ∈ es := by
  induction h with
  | blocks es => simpa using ho
  | run es => simpa using ho
  | text b e es => simpa [eq_comm] using ho
  | literal b e es =>
      refine List.mem_cons_of_mem _ ?_
      simpa using ho
  | table alignments e es =>
      cases bodyOpen <;> simpa [eq_comm] using ho
  | head e _ ih =>
      rcases List.mem_cons.1 ho with heq | ho
      · exact List.mem_cons.2 (Or.inl (Option.some.inj heq))
      · rcases List.mem_cons.1 ho with heq | ho
        · exact List.mem_cons.2 (Or.inl (Option.some.inj heq))
        · exact List.mem_cons_of_mem _ (ih ho)
  | body e _ ih =>
      rcases List.mem_cons.1 ho with heq | ho
      · exact List.mem_cons.2 (Or.inl (Option.some.inj heq))
      · exact List.mem_cons_of_mem _ (ih ho)
  | cell e _ ih =>
      rcases List.mem_cons.1 ho with heq | ho
      · exact List.mem_cons.2 (Or.inl (Option.some.inj heq))
      · exact List.mem_cons_of_mem _ (ih ho)

theorem liesWithin (h : Limits bodyOpen p es limits) {e : Extent} (he : ∀ o ∈ es, e.BeginsIn o) :
    LiesWithin e limits := fun o ho => he o (h.mem_of_some_mem ho)

end Spot.Limits

theorem LiesWithin.isWithin {e : Extent} {limits : List (Option Extent)} (h : LiesWithin e limits)
    {lines : LineMap} {t : Token} (ht : t.map = some (lines.span e.start e.stop)) :
    IsWithin lines t limits := by
  intro m hm o ho
  rw [← Option.some.inj (ht.symm.trans hm)]
  exact span_mono lines (h o ho)

theorem LiesWithin.join {e f : Extent} {limits : List (Option Extent)} (he : LiesWithin e limits)
    (hf : LiesWithin f limits) : LiesWithin (Assembly.joinExtents e f) limits := by
  intro o ho
  have hestart := (he o ho).start
  have hfstart := (hf o ho).start
  have hestop := (he o ho).stop
  have hfstop := (hf o ho).stop
  have hebegins := (he o ho).begins
  have hfbegins := (hf o ho).begins
  refine ⟨⟨Nat.le_min.2 ⟨hestart, hfstart⟩, Nat.max_le.2 ⟨hestop, hfstop⟩⟩, ?_⟩
  show min e.start f.start < o.stop ∨ min e.start f.start = o.start
  omega

namespace Assembly

/-! ## What each action does to the lines -/

/-- The finished tokens of an assembly are lined.  The inline content that is being gathered, and
the code or raw block that is open, lie in the ranges around them. -/
structure IsLined (lines : LineMap) (limits : List (Option Extent)) (a : Assembly) : Prop where
  lines_eq : a.lines = lines
  tokens : Lined lines a.tokens limits
  level : a.level = limits.length
  group : ∀ g ∈ a.group, ∀ e ∈ g.extent, LiesWithin e limits
  literal : ∀ t ∈ a.literal, t.nesting = .selfClosing ∧
    ∃ e, t.map = some (lines.span e.start e.stop) ∧ LiesWithin e limits

namespace IsLined

variable {lines : LineMap} {limits : List (Option Extent)} {limit : Option Extent} {a : Assembly}
  {table : TableState} {bs : List Bracket} {t : Token} {e : Extent} {m : Option (Nat × Nat)}

theorem none_literal (h : a.literal = none) : ∀ t ∈ a.literal, t.nesting = .selfClosing ∧
    ∃ e, t.map = some (lines.span e.start e.stop) ∧ LiesWithin e limits := by
  rw [h]
  intro t ht
  cases ht

theorem none_group (h : a.group = none) :
    ∀ g ∈ a.group, ∀ e ∈ g.extent, LiesWithin e limits := by
  rw [h]
  intro g hg
  cases hg

theorem map_eq (h : a.IsLined lines limits) (e : Extent) :
    some (a.lineSpan e) = some (lines.span e.start e.stop) := by
  rw [lineSpan, h.lines_eq]

/-- A start that has the lines of its event. -/
theorem opens (h : a.IsLined lines limits) (ha : a.Idle table bs) (ht : t.nesting = .opening)
    (he : LiesWithin e limits) (hmap : m = some (lines.span e.start e.stop)) :
    (a.block t m).IsLined lines (some e :: limits) := by
  refine ⟨h.lines_eq, h.tokens.opening ht ?_ hmap (he.isWithin hmap), ?_, none_group ha.group,
    none_literal ha.literal⟩
  · simp [ht, levelOf, h.level]
  · simp [block, ht, levelBehind, h.level]

/-- A short start, which has the lines of the first event inside. -/
theorem opens_short (h : a.IsLined lines limits) (ha : a.Idle table bs) (ht : t.nesting = .opening)
    (hshort : IsShort t) (he : LiesWithin e limits)
    (hmap : m = some (lines.span e.start e.stop)) :
    (a.block t m).IsLined lines (none :: limits) := by
  refine ⟨h.lines_eq, h.tokens.opening ht ?_ hshort (he.isWithin hmap), ?_, none_group ha.group,
    none_literal ha.literal⟩
  · simp [ht, levelOf, h.level]
  · simp [block, ht, levelBehind, h.level]

theorem closes (h : a.IsLined lines (limit :: limits)) (ha : a.Idle table bs)
    (ht : t.nesting = .closing) : (a.block t none).IsLined lines limits := by
  refine ⟨h.lines_eq, h.tokens.closing ht ?_ rfl, ?_, none_group ha.group,
    none_literal ha.literal⟩
  · simp [ht, levelOf, h.level]
  · simp [block, ht, levelBehind, h.level]

theorem alone (h : a.IsLined lines limits) (ha : a.Idle table bs) (ht : t.nesting = .selfClosing)
    (he : LiesWithin e limits) (hmap : m = some (lines.span e.start e.stop)) :
    (a.block t m).IsLined lines limits := by
  refine ⟨h.lines_eq, h.tokens.alone ht ?_ (he.isWithin hmap), ?_, none_group ha.group,
    none_literal ha.literal⟩
  · simp [ht, levelOf, h.level]
  · simp [block, ht, levelBehind, h.level]

/-- The inline content becomes a token with the lines of all its events. -/
theorem closeGroup (h : a.IsLined lines limits) : a.closeGroup.IsLined lines limits := by
  unfold Assembly.closeGroup
  split
  · exact h
  · rename_i g hg
    refine ⟨h.lines_eq, h.tokens.alone rfl h.level ?_, h.level, none_group rfl, h.literal⟩
    intro m hm
    rcases Option.map_eq_some_iff.1 hm with ⟨e, he, hspan⟩
    refine (h.group g hg e he).isWithin ?_ m hm
    show Option.map a.lineSpan g.extent = _
    rw [he, Option.map_some, lineSpan, h.lines_eq]

theorem openGroup (h : a.IsLined lines limits) (implicit : Bool) :
    (a.openGroup implicit).IsLined lines limits := by
  refine ⟨h.lines_eq, h.tokens, h.level, ?_, h.literal⟩
  rintro g ⟨⟩ e he
  cases he

/-- The hidden paragraph around inline content has the lines of the first event. -/
theorem ensureGroup (h : a.IsLined lines limits) (ha : a.Idle table bs) (he : LiesWithin e limits) :
    (a.ensureGroup e).IsLined lines (none :: limits) := by
  rw [Assembly.ensureGroup, ha.group]
  exact (h.opens_short ha rfl (Or.inl rfl) he (h.map_eq e)).openGroup true

theorem closeImplicit (h : a.IsLined lines (none :: limits))
    (ha : a.Gathers table (hiddenParagraph :: bs) true []) :
    a.closeImplicit.IsLined lines limits := by
  rcases ha.group with ⟨g, hg, himplicit, -⟩
  have heq : a.closeImplicit =
      a.closeGroup.block { kind := "paragraph_close", tag := "p", nesting := .closing,
                           hidden := true } none := by
    simp [Assembly.closeImplicit, hg, himplicit]
  rw [heq]
  exact h.closeGroup.closes ha.closeGroup rfl

theorem cover (h : a.IsLined lines limits) (he : LiesWithin e limits) :
    (a.cover e).IsLined lines limits := by
  refine ⟨h.lines_eq, h.tokens, h.level, ?_, h.literal⟩
  intro g hg f hf
  rcases Option.map_eq_some_iff.1 hg with ⟨g', hg', rfl⟩
  cases hseen : g'.extent with
  | none =>
      rw [hseen] at hf
      cases hf
      exact he
  | some seen =>
      rw [hseen] at hf
      cases hf
      exact (h.group g' hg' seen hseen).join he

theorem pushInline (h : a.IsLined lines limits) (t : Token) :
    (a.pushInline t).IsLined lines limits := by
  unfold Assembly.pushInline
  split
  · exact ⟨h.lines_eq, h.tokens, h.level, h.group, h.literal⟩
  · refine ⟨h.lines_eq, h.tokens, h.level, ?_, h.literal⟩
    intro g hg e he
    rcases Option.map_eq_some_iff.1 hg with ⟨g', hg', rfl⟩
    exact h.group g' hg' e he

theorem setImages (h : a.IsLined lines limits) (images : List Token) :
    { a with images }.IsLined lines limits :=
  ⟨h.lines_eq, h.tokens, h.level, h.group, h.literal⟩

theorem setCells (h : a.IsLined lines limits) (alignments : List Mark.Alignment) (cell : Nat)
    (inHead bodyOpen : Bool) : { a with alignments, cell, inHead, bodyOpen }.IsLined lines limits :=
  ⟨h.lines_eq, h.tokens, h.level, h.group, h.literal⟩

theorem closeImage (h : a.IsLined lines limits) : a.closeImage.IsLined lines limits := by
  unfold Assembly.closeImage
  split
  · exact h
  · exact (h.setImages _).pushInline _

theorem fill (h : a.IsLined lines limits) (ht : t.nesting = .selfClosing)
    (he : LiesWithin e limits) :
    { a with literal := some { t with map := some (a.lineSpan e) } }.IsLined lines limits := by
  refine ⟨h.lines_eq, h.tokens, h.level, h.group, ?_⟩
  rintro _ ⟨⟩
  exact ⟨ht, e, h.map_eq e, he⟩

theorem literalText? (h : a.IsLined lines limits) (text : String) {a' : Assembly}
    (ha' : a.literalText? text = some a') : a'.IsLined lines limits := by
  rcases Option.map_eq_some_iff.1 ha' with ⟨t, ht, rfl⟩
  refine ⟨h.lines_eq, h.tokens, h.level, h.group, ?_⟩
  rintro _ ⟨⟩
  exact h.literal t ht

theorem closeLiteral (h : a.IsLined lines limits) : a.closeLiteral.IsLined lines limits := by
  unfold Assembly.closeLiteral
  split
  · exact h
  · rename_i t ht
    rcases h.literal t ht with ⟨halone, e, hmap, he⟩
    exact ⟨h.lines_eq, h.tokens.alone halone h.level (he.isWithin hmap), h.level, h.group,
      none_literal rfl⟩

end IsLined

/-! ## What each event does to the lines -/

/-- The tokens of an assembly are lined by the ranges of the elements that are open in its scope. -/
def IsLinedIn (lines : LineMap) (s : Scope) (es : List Extent) (a : Assembly) : Prop :=
  ∃ limits, s.spot.Limits a.bodyOpen (es.drop s.spans.length) limits ∧ a.IsLined lines limits

/-- An assembly stands as its scope says, the ranges of the starts that are open lie in one another,
and they line its tokens. -/
structure IsLimited (lines : LineMap) (s : Scope) (es : List Extent) (a : Assembly) : Prop where
  holds : Holds s a
  nested : es.Pairwise Extent.BeginsIn
  lined : a.IsLinedIn lines s es

namespace IsLimited

variable {lines : LineMap} {s s' : Scope} {es : List Extent} {a : Assembly}
  {cs : List Container} {p : Spot} {spans : List Span} {e : Extent}

/-- What begins in the innermost range lies in all of them. -/
theorem beginsIn (h : es.Pairwise Extent.BeginsIn) (he : ∀ o ∈ es.head?, e.BeginsIn o) :
    ∀ o ∈ es, e.BeginsIn o := by
  cases es with
  | nil => intro o ho; cases ho
  | cons first rest =>
      have hfirst := he first rfl
      refine List.forall_mem_cons.2 ⟨hfirst, fun o ho => ?_⟩
      exact hfirst.trans ((List.pairwise_cons.1 h).1 o ho)

theorem liesWithin_map (he : ∀ o ∈ es, e.BeginsIn o) : LiesWithin e (es.map some) := by
  intro o ho
  exact he o (by simpa using ho)

/-- Where a block may start, a hidden paragraph is closed first. -/
theorem closeImplicit (h : IsLimited lines ⟨cs, p, []⟩ es a) (hp : p.takesBlocks = true) :
    ∃ table, a.closeImplicit.Idle table (cs.map Container.bracket) ∧
      a.closeImplicit.IsLined lines (es.map some) := by
  rcases h.holds.closeImplicit hp with ⟨table, hidle⟩
  refine ⟨table, hidle, ?_⟩
  rcases h.holds with ⟨table', hholds⟩
  rcases h.lined with ⟨limits, hlimits, hlined⟩
  cases hlimits with
  | blocks =>
      rw [hholds.1.closeImplicit_eq]
      exact hlined
  | run => exact hlined.closeImplicit hholds
  | _ => cases hp

theorem container (h : IsLimited lines ⟨cs, p, []⟩ es a) (hp : p.takesBlocks = true)
    (he : ∀ o ∈ es, e.BeginsIn o) (c : Container) :
    (a.start c.toTag e).IsLinedIn lines ⟨c :: cs, .blocks, []⟩ (e :: es) := by
  rcases h.closeImplicit hp with ⟨table, hidle, hlined⟩
  rcases h.lined with ⟨_, _, hbefore⟩
  have hmap := hbefore.map_eq e
  have hwithin := liesWithin_map he
  refine ⟨_, .blocks (e :: es), ?_⟩
  cases c with
  | quote => exact hlined.opens hidle rfl hwithin hmap
  | item => exact hlined.opens hidle rfl hwithin (hlined.map_eq e)
  | list number =>
      cases number with
      | none => exact hlined.opens hidle rfl hwithin (hlined.map_eq e)
      | some n =>
          refine hlined.opens hidle ?_ hwithin hmap
          split <;> rfl

theorem containerEnd {c : Container} (h : IsLimited lines ⟨c :: cs, p, []⟩ es a)
    (hp : p.takesBlocks = true) :
    (a.stop c.toTag).IsLinedIn lines ⟨cs, .blocks, []⟩ es.tail := by
  rcases h.closeImplicit hp with ⟨table, hidle, hlined⟩
  refine ⟨_, .blocks es.tail, ?_⟩
  -- As many ranges are open as elements.
  cases es with
  | nil =>
      have hlevel := hlined.level.symm.trans hidle.level
      simp at hlevel
      omega
  | cons first rest =>
      cases c with
      | quote => exact hlined.closes hidle rfl
      | item => exact hlined.closes hidle rfl
      | list number =>
          cases number with
          | none => exact hlined.closes hidle rfl
          | some n => exact hlined.closes hidle rfl

theorem text (h : IsLimited lines ⟨cs, p, []⟩ es a) (hp : p.takesBlocks = true)
    (he : ∀ o ∈ es, e.BeginsIn o) (b : TextBlock) :
    (a.start b.toTag e).IsLinedIn lines ⟨cs, .text b, []⟩ (e :: es) := by
  rcases h.closeImplicit hp with ⟨table, hidle, hlined⟩
  rcases h.lined with ⟨_, _, hbefore⟩
  have hwithin := liesWithin_map he
  refine ⟨_, .text b e es, ?_⟩
  cases b with
  | paragraph => exact (hlined.opens hidle rfl hwithin (hlined.map_eq e)).openGroup false
  | heading level => exact (hlined.opens hidle rfl hwithin (hbefore.map_eq e)).openGroup false

theorem textEnd {b : TextBlock} (h : IsLimited lines ⟨cs, .text b, []⟩ es a) :
    (a.stop b.toTag).IsLinedIn lines ⟨cs, .blocks, []⟩ es.tail := by
  rcases h.holds with ⟨table, hgathers⟩
  have hidle := Gathers.closeGroup hgathers
  rcases h.lined with ⟨limits, hlimits, hlined⟩
  refine ⟨_, .blocks es.tail, ?_⟩
  cases hlimits with
  | text b first rest =>
      cases b with
      | paragraph => exact hlined.closeGroup.closes hidle rfl
      | heading level => exact hlined.closeGroup.closes hidle rfl

theorem literal (h : IsLimited lines ⟨cs, p, []⟩ es a) (hp : p.takesBlocks = true)
    (he : ∀ o ∈ es, e.BeginsIn o) (b : LiteralBlock) :
    (a.start b.toTag e).IsLinedIn lines ⟨cs, .literal b, []⟩ (e :: es) := by
  rcases h.closeImplicit hp with ⟨table, hidle, hlined⟩
  have hwithin := liesWithin_map he
  refine ⟨_, .literal b e es, ?_⟩
  cases b with
  | raw => exact hlined.fill rfl hwithin
  | code info =>
      cases info with
      | none => exact hlined.fill rfl hwithin
      | some info => exact hlined.fill rfl hwithin

theorem literalLeaf {b : LiteralBlock} {l : Leaf} (h : IsLimited lines ⟨cs, .literal b, []⟩ es a)
    (hl : l.isLiteral = true) : (a.leaf l e).IsLinedIn lines ⟨cs, .literal b, []⟩ es := by
  rcases h.holds with ⟨table, hfills, -⟩
  rcases h.lined with ⟨limits, hlimits, hlined⟩
  have hkeep : ∀ content, ∃ a', a.literalText? content = some a' ∧
      a'.IsLinedIn lines ⟨cs, .literal b, []⟩ es := by
    intro content
    rcases hfills.literalText? content with ⟨a', ha', _⟩
    refine ⟨a', ha', limits, ?_, hlined.literalText? content ha'⟩
    rcases Option.map_eq_some_iff.1 ha' with ⟨t, _, rfl⟩
    exact hlimits
  cases l with
  | text content =>
      rcases hkeep content with ⟨a', ha', hlined'⟩
      rw [Assembly.leaf, ha']
      exact hlined'
  | raw content =>
      rcases hkeep content with ⟨a', ha', hlined'⟩
      rw [Assembly.leaf, ha']
      exact hlined'
  | _ => cases hl

theorem literalEnd {b : LiteralBlock} (h : IsLimited lines ⟨cs, .literal b, []⟩ es a) :
    (a.stop b.toTag).IsLinedIn lines ⟨cs, .blocks, []⟩ es.tail := by
  rcases h.lined with ⟨limits, hlimits, hlined⟩
  refine ⟨_, .blocks es.tail, ?_⟩
  cases hlimits with
  | literal b first rest =>
      cases b with
      | raw => exact hlined.closeLiteral
      | code info => exact hlined.closeLiteral

theorem rule (h : IsLimited lines ⟨cs, p, []⟩ es a) (hp : p.takesBlocks = true)
    (he : ∀ o ∈ es, e.BeginsIn o) :
    (a.leaf .rule e).IsLinedIn lines ⟨cs, .blocks, []⟩ es := by
  rcases h.closeImplicit hp with ⟨table, hidle, hlined⟩
  rcases h.lined with ⟨_, _, hbefore⟩
  exact ⟨_, .blocks es, hlined.alone hidle rfl (liesWithin_map he) (hbefore.map_eq e)⟩

theorem table (h : IsLimited lines ⟨cs, .blocks, []⟩ es a) (he : ∀ o ∈ es, e.BeginsIn o)
    (alignments : List Mark.Alignment) :
    (a.start (.table alignments) e).IsLinedIn lines ⟨cs, .table alignments, []⟩ (e :: es) := by
  rcases h.holds with ⟨table, hidle, -⟩
  rcases h.lined with ⟨limits, hlimits, hlined⟩
  cases hlimits
  refine ⟨_, .table alignments e es, ?_⟩
  exact (hlined.setCells alignments a.cell a.inHead false).opens
    ((hidle.setCells alignments a.cell).setBody false) rfl (liesWithin_map he) (hlined.map_eq e)

theorem tableEnd {alignments : List Mark.Alignment}
    (h : IsLimited lines ⟨cs, .table alignments, []⟩ es a) :
    (a.stop (.table alignments)).IsLinedIn lines ⟨cs, .blocks, []⟩ es.tail := by
  rcases h.holds with ⟨⟨bodyOpen, inHead⟩, hidle, -⟩
  rcases h.lined with ⟨limits, hlimits, hlined⟩
  rw [hidle.bodyOpen] at hlimits
  refine ⟨_, .blocks es.tail, ?_⟩
  rw [Assembly.stop, hidle.bodyOpen]
  cases hlimits with
  | table alignments first rest =>
      cases bodyOpen with
      | true =>
          have hbody : (a.closeBlock "tbody_close" "tbody").IsLined lines
              (some first :: rest.map some) := hlined.closes hidle rfl
          have hidle' := hidle.closes (m := none)
            (t := { kind := "tbody_close", tag := "tbody", nesting := .closing })
            ⟨rfl, rfl, rfl, rfl⟩
          exact hbody.closes hidle' rfl
      | false => exact hlined.closes hidle rfl

theorem row {alignments : List Mark.Alignment}
    (h : IsLimited lines ⟨cs, .table alignments, []⟩ es a) (he : ∀ o ∈ es, e.BeginsIn o)
    (r : TableRow) :
    (a.start r.toTag e).IsLinedIn lines ⟨cs, .row alignments r, []⟩ (e :: es) := by
  rcases h.holds with ⟨⟨bodyOpen, inHead⟩, hidle, -⟩
  rcases h.lined with ⟨limits, hlimits, hlined⟩
  have hwithin := hlimits.liesWithin he
  have hself : e.BeginsIn e := ⟨⟨Nat.le_refl _, Nat.le_refl _⟩, Or.inr rfl⟩
  cases r with
  | head =>
      refine ⟨_, .head e hlimits, ?_⟩
      have hidle' := ((hidle.setHead true).setCells a.alignments 0).opens
        (m := some (a.lineSpan e)) (b := { name := "thead", tag := "thead" })
        (t := { kind := "thead_open", tag := "thead", nesting := .opening }) ⟨rfl, rfl, rfl, rfl⟩
      have hhead := (hlined.setCells a.alignments 0 true a.bodyOpen).opens
        (t := { kind := "thead_open", tag := "thead", nesting := .opening })
        ((hidle.setHead true).setCells a.alignments 0) rfl hwithin (hlined.map_eq e)
      refine hhead.opens hidle' rfl ?_ (hlined.map_eq e)
      intro o ho
      rcases List.mem_cons.1 ho with heq | ho
      · rw [Option.some.inj heq]
        exact hself
      · exact hwithin o ho
  | body =>
      rw [hidle.bodyOpen] at hlimits
      rw [TableRow.toTag, Assembly.start, hidle.bodyOpen]
      cases bodyOpen with
      | true =>
          refine ⟨_, .body e ?_, (hlined.setCells a.alignments 0 a.inHead a.bodyOpen).opens
            (hidle.setCells a.alignments 0) rfl hwithin (hlined.map_eq e)⟩
          show Spot.Limits a.bodyOpen _ _ _
          rw [hidle.bodyOpen]
          exact hlimits
      | false =>
          -- The body of the table opens with its first row.
          have hidle' := (hidle.setBody true).opens
            (m := some (a.lineSpan e)) (b := { name := "tbody", tag := "tbody" })
            (t := { kind := "tbody_open", tag := "tbody", nesting := .opening })
            ⟨rfl, rfl, rfl, rfl⟩
          have hbody := (hlined.setCells a.alignments a.cell a.inHead true).opens_short
            (t := { kind := "tbody_open", tag := "tbody", nesting := .opening })
            (hidle.setBody true) rfl (Or.inr rfl) hwithin (hlined.map_eq e)
          have hwithin' : LiesWithin e (none :: limits) := by
            intro o ho
            rcases List.mem_cons.1 ho with heq | ho
            · cases heq
            · exact hwithin o ho
          refine ⟨_, .body e ?_, (hbody.setCells a.alignments 0 a.inHead true).opens
            (hidle'.setCells a.alignments 0) rfl hwithin' (hlined.map_eq e)⟩
          cases hlimits with
          | table alignments first rest => exact .table alignments first rest

theorem rowEnd {alignments : List Mark.Alignment} {r : TableRow}
    (h : IsLimited lines ⟨cs, .row alignments r, []⟩ es a) :
    (a.stop r.toTag).IsLinedIn lines ⟨cs, .table alignments, []⟩ es.tail := by
  rcases h.holds with ⟨table, hidle, -⟩
  rcases h.lined with ⟨limits, hlimits, hlined⟩
  cases hlimits with
  | head first hlimits =>
      have hrow : (a.closeBlock "tr_close" "tr").IsLined lines (some first :: _) :=
        hlined.closes hidle rfl
      have hidle' := hidle.closes (m := none)
        (t := { kind := "tr_close", tag := "tr", nesting := .closing }) ⟨rfl, rfl, rfl, rfl⟩
      exact ⟨_, hlimits, (hrow.closes hidle' rfl).setCells _ _ false _⟩
  | body first hlimits => exact ⟨_, hlimits, hlined.closes hidle rfl⟩

theorem cell {alignments : List Mark.Alignment} {r : TableRow}
    (h : IsLimited lines ⟨cs, .row alignments r, []⟩ es a) (he : ∀ o ∈ es, e.BeginsIn o) :
    (a.start .tableCell e).IsLinedIn lines ⟨cs, .cell alignments r, []⟩ (e :: es) := by
  rcases h.holds with ⟨table, hidle, -⟩
  rcases h.lined with ⟨limits, hlimits, hlined⟩
  -- The style of the cell is an attribute and does not count.
  have hstyle : ∀ (t : Token) (style : Option String), t.nesting = .opening →
      ((style.map (t.setAttr "style")).getD t).nesting = .opening := by
    intro t style ht
    cases style with
    | none => exact ht
    | some style => exact ht
  refine ⟨_, .cell e hlimits, ?_⟩
  refine (hlined.opens hidle (hstyle _ _ ?_) (hlimits.liesWithin he) (hlined.map_eq e)).openGroup
    false
  split <;> rfl

theorem cellEnd {alignments : List Mark.Alignment} {r : TableRow}
    (h : IsLimited lines ⟨cs, .cell alignments r, []⟩ es a) :
    (a.stop .tableCell).IsLinedIn lines ⟨cs, .row alignments r, []⟩ es.tail := by
  rcases h.holds with ⟨⟨bodyOpen, inHead⟩, hgathers⟩
  have hidle := Gathers.closeGroup hgathers
  rcases h.lined with ⟨limits, hlimits, hlined⟩
  rw [Assembly.stop]
  simp only [hidle.inHead]
  have hbody : a.closeGroup.bodyOpen = a.bodyOpen := hidle.bodyOpen.trans hgathers.bodyOpen.symm
  cases hlimits with
  | cell first hlimits =>
      rw [← hbody] at hlimits
      cases inHead with
      | true =>
          have hclosed : (a.closeGroup.closeBlock "th_close" "th").IsLined lines _ :=
            hlined.closeGroup.closes hidle rfl
          exact ⟨_, hlimits, hclosed.setCells _ _ _ _⟩
      | false =>
          have hclosed : (a.closeGroup.closeBlock "td_close" "td").IsLined lines _ :=
            hlined.closeGroup.closes hidle rfl
          exact ⟨_, hlimits, hclosed.setCells _ _ _ _⟩

/-- Where inline content may stand, a hidden paragraph is opened first. -/
theorem ensureGroup (h : IsLimited lines s es a) (hs : Scope.Gathers s s')
    (he : ∀ o ∈ es, e.BeginsIn o) :
    ∃ limits, s'.spot.Limits a.bodyOpen (es.drop s'.spans.length) limits ∧
      (a.ensureGroup e).IsLined lines limits ∧ LiesWithin e limits := by
  rcases h.lined with ⟨limits, hlimits, hlined⟩
  have hwithin := hlimits.liesWithin fun o ho => he o (List.mem_of_mem_drop ho)
  rcases h.holds with ⟨table, hholds⟩
  cases hs with
  | more hinline =>
      rcases Spot.role_of_isInline hinline with ⟨implicit, hrole⟩
      simp only [hrole] at hholds
      refine ⟨limits, hlimits, ?_, hwithin⟩
      rw [hholds.ensureGroup_eq]
      exact hlined
  | first =>
      cases hlimits
      refine ⟨_, .run _, hlined.ensureGroup hholds.1 hwithin, ?_⟩
      intro o ho
      rcases List.mem_cons.1 ho with heq | ho
      · cases heq
      · exact hwithin o ho

theorem bodyOpen_ensureGroup (a : Assembly) (e : Extent) :
    (a.ensureGroup e).bodyOpen = a.bodyOpen := by
  unfold Assembly.ensureGroup
  split <;> rfl

theorem bodyOpen_pushInline (a : Assembly) (t : Token) :
    (a.pushInline t).bodyOpen = a.bodyOpen := by
  unfold Assembly.pushInline
  split <;> rfl

theorem inlineToken (h : IsLimited lines s es a) (hs : Scope.Gathers s s')
    (he : ∀ o ∈ es, e.BeginsIn o) (t : Token) :
    (a.inlineToken t e).IsLinedIn lines s' es := by
  rcases h.ensureGroup hs he with ⟨limits, hlimits, hlined, hwithin⟩
  refine ⟨limits, ?_, (hlined.cover hwithin).pushInline t⟩
  rw [Assembly.inlineToken, bodyOpen_pushInline]
  show Spot.Limits (a.ensureGroup e).bodyOpen _ _ _
  rw [bodyOpen_ensureGroup]
  exact hlimits

theorem inline {l : Leaf} (h : IsLimited lines s es a) (hs : Scope.Gathers s s')
    (hl : l.isInline = true) (he : ∀ o ∈ es, e.BeginsIn o) :
    (a.leaf l e).IsLinedIn lines s' es := by
  cases l with
  | text content =>
      rw [Assembly.leaf, literalText?, h.holds.literal_eq_none hs]
      exact h.inlineToken hs he _
  | code content => exact h.inlineToken hs he _
  | inlineRaw content => exact h.inlineToken hs he _
  | softBreak => exact h.inlineToken hs he _
  | hardBreak => exact h.inlineToken hs he _
  | task done => exact h.inlineToken hs he _
  | raw content => cases hl
  | rule => cases hl

theorem span (h : IsLimited lines s es a) (hs : Scope.Gathers s s')
    (he : ∀ o ∈ es, e.BeginsIn o) (span : Span) :
    (a.start span.toTag e).IsLinedIn lines { s' with spans := span :: s'.spans } (e :: es) := by
  cases span with
  | emphasis => exact h.inlineToken hs he _
  | strong => exact h.inlineToken hs he _
  | strikethrough => exact h.inlineToken hs he _
  | link target => exact h.inlineToken hs he _
  | image target =>
      rcases h.ensureGroup hs he with ⟨limits, hlimits, hlined, -⟩
      refine ⟨limits, ?_, hlined.setImages _⟩
      show Spot.Limits (a.ensureGroup e).bodyOpen _ _ _
      rw [bodyOpen_ensureGroup]
      exact hlimits

theorem spanEnd {span : Span} (h : IsLimited lines ⟨cs, p, span :: spans⟩ es a) :
    (a.stop span.toTag).IsLinedIn lines ⟨cs, p, spans⟩ es.tail := by
  rcases h.lined with ⟨limits, hlimits, hlined⟩
  have hdrop : es.tail.drop spans.length = es.drop (span :: spans).length := by
    rw [List.drop_tail, List.length_cons]
  have hpush : ∀ t : Token, (a.pushInline t).IsLinedIn lines ⟨cs, p, spans⟩ es.tail := by
    intro t
    refine ⟨limits, ?_, hlined.pushInline t⟩
    rw [bodyOpen_pushInline, hdrop]
    exact hlimits
  cases span with
  | emphasis => exact hpush _
  | strong => exact hpush _
  | strikethrough => exact hpush _
  | link target => exact hpush _
  | image target =>
      refine ⟨limits, ?_, hlined.closeImage⟩
      have hbody : a.closeImage.bodyOpen = a.bodyOpen := by
        unfold Assembly.closeImage
        split
        · rfl
        · exact bodyOpen_pushInline _ _
      show Spot.Limits a.closeImage.bodyOpen _ _ _
      rw [hbody, hdrop]
      exact hlimits

theorem isLinedIn_step {event : Event} (h : IsLimited lines s es a) (hs : Scope.Follows s event s')
    (hlies : event.Lies Extent.BeginsIn es) :
    (a.step event).IsLinedIn lines s' (event.around es) := by
  cases hs with
  | container c hp => exact h.container hp (beginsIn h.nested hlies) c
  | containerEnd c hp => exact h.containerEnd hp
  | text b hp => exact h.text hp (beginsIn h.nested hlies) b
  | textEnd b => exact h.textEnd
  | literal b hp => exact h.literal hp (beginsIn h.nested hlies) b
  | literalLeaf b hl => exact h.literalLeaf hl
  | literalEnd b => exact h.literalEnd
  | rule hp => exact h.rule hp (beginsIn h.nested hlies)
  | table alignments => exact h.table (beginsIn h.nested hlies) alignments
  | tableEnd alignments => exact h.tableEnd
  | row r => exact h.row (beginsIn h.nested hlies) r
  | rowEnd r => exact h.rowEnd
  | cell r => exact h.cell (beginsIn h.nested hlies)
  | cellEnd r => exact h.cellEnd
  | inline hl hgathers => exact h.inline hgathers hl (beginsIn h.nested hlies)
  | span span hgathers => exact h.span hgathers (beginsIn h.nested hlies) span
  | spanEnd span => exact h.spanEnd

/-- Each event that begins in the innermost start keeps the tokens lined. -/
theorem step {event : Event} (h : IsLimited lines s es a) (hs : Scope.Follows s event s')
    (hlies : event.Lies Extent.BeginsIn es) :
    IsLimited lines s' (event.around es) (a.step event) := by
  refine ⟨h.holds.step hs, ?_, h.isLinedIn_step hs hlies⟩
  cases event with
  | start tag e => exact List.pairwise_cons.2 ⟨beginsIn h.nested hlies, h.nested⟩
  | stop tag => exact h.nested.tail
  | leaf l e => exact h.nested

theorem run {events : List Event} (h : IsLimited lines s es a) (hs : Scope.Path s events s')
    (hlie : EventsLie Extent.BeginsIn es events) :
    ∃ es', IsLimited lines s' es' (events.foldl Assembly.step a) := by
  induction hs generalizing a es with
  | nil s => exact ⟨es, h⟩
  | cons hfollows _ ih => exact ih (h.step hfollows hlie.1) hlie.2

theorem ofSource (source : String) :
    IsLimited (LineMap.ofString source) {} [] (Assembly.ofSource source) := by
  refine ⟨Holds.ofSource source, List.Pairwise.nil, [], .blocks [], rfl, .nil, rfl, ?_, ?_⟩
  · intro g hg
    cases hg
  · intro t ht
    cases ht

end IsLimited
end Assembly

/-! ## Whole documents -/

/-- Of a well-nested document, each event of which begins in the start around it, the tokens cover
lines of the elements in which they stand, unless the element is a hidden paragraph or the body of a
table; so they all do exactly if those in hidden paragraphs and bodies do. -/
theorem linesNest_assemble (source : String) {events : List Event} (h : WellNested events)
    (hlie : EventsLie Extent.BeginsIn [] events) :
    LinesNest (fun o => ¬ IsShort o) (Assembly.assemble source events) ∧
      (LinesNest (fun _ => True) (Assembly.assemble source events) ↔
        LinesNest IsShort (Assembly.assemble source events)) := by
  rcases (Assembly.IsLimited.ofSource source).run h hlie with ⟨es, hlimited⟩
  rcases hlimited.holds with ⟨table, hidle, -⟩
  rcases hlimited.lined with ⟨limits, -, hlined⟩
  have hfinish : (Assembly.assemble source events).reverse =
      (events.foldl Assembly.step (Assembly.ofSource source)).tokens := by
    rw [Assembly.assemble, Assembly.finish, hidle.closeImplicit_eq, hidle.closeGroup_eq,
      List.reverse_reverse]
  have hlong : LinesNest (fun o => ¬ IsShort o) (Assembly.assemble source events) := by
    have hreverse : Lined (LineMap.ofString source) (Assembly.assemble source events).reverse
        limits := by
      rw [hfinish]
      exact hlined.tokens
    exact hreverse.linesNest
  refine ⟨hlong, ?_, ?_⟩
  · intro hall before o inner c after hsplit hpairs _
    exact hall before o inner c after hsplit hpairs trivial
  · intro hshort before o inner c after hsplit hpairs _
    by_cases ho : IsShort o
    · exact hshort before o inner c after hsplit hpairs ho
    · exact hlong before o inner c after hsplit hpairs ho

def tightText : String :=
  "- a *b* ![c\n  ![d](v)](u)\n  ```\n  e\n  ```\n\n|f|\n|-|\n|g|\n"

theorem linesNest_assemble_tightDocument :
    WellNested tightDocument ∧ EventsLie Extent.BeginsIn [] tightDocument ∧
      LinesNest (fun o => ¬ IsShort o) (Assembly.assemble tightText tightDocument) ∧
      (LinesNest (fun _ => True) (Assembly.assemble tightText tightDocument) ↔
        LinesNest IsShort (Assembly.assemble tightText tightDocument)) :=
  ⟨wellNested_tightDocument, by decide,
    linesNest_assemble tightText wellNested_tightDocument (by decide)⟩

/-- The events of a table whose last row lacks a cell: the text `|a|b|`, `|-|-|`, `|c|`.  The cell
that is filled in has no bytes, and stands behind the line feed of its row. -/
def paddedRow : List Event :=
  [.start (.table [.none, .none]) ⟨0, 16⟩,
   .start .tableHead ⟨0, 6⟩,
   .start .tableCell ⟨1, 2⟩, .leaf (.text "a") ⟨1, 2⟩, .stop .tableCell,
   .start .tableCell ⟨3, 4⟩, .leaf (.text "b") ⟨3, 4⟩, .stop .tableCell,
   .stop .tableHead,
   .start .tableRow ⟨12, 16⟩,
   .start .tableCell ⟨13, 14⟩, .leaf (.text "c") ⟨13, 14⟩, .stop .tableCell,
   .start .tableCell ⟨16, 16⟩, .stop .tableCell,
   .stop .tableRow,
   .stop (.table [.none, .none])]

theorem wellNested_paddedRow : WellNested paddedRow := by
  refine .cons (.table _) (.cons (.row .head) (.cons (.cell _) ?_))
  refine .cons (.inline rfl (.more rfl)) (.cons (.cellEnd _) (.cons (.cell _) ?_))
  refine .cons (.inline rfl (.more rfl)) (.cons (.cellEnd _) (.cons (.rowEnd .head) ?_))
  refine .cons (.row .body) (.cons (.cell _) (.cons (.inline rfl (.more rfl)) ?_))
  refine .cons (.cellEnd _) (.cons (.cell _) (.cons (.cellEnd _) ?_))
  exact .cons (.rowEnd .body) (.cons (.tableEnd _) (.nil _))

/-- A range without bytes at the end of another is a part of it and covers the line behind it, so
that it does not do for ranges to be parts of others. -/
theorem not_linesNest_paddedRow :
    WellNested paddedRow ∧ EventsLie Extent.LiesIn [] paddedRow ∧
      ¬ LinesNest (fun o => ¬ IsShort o)
        (Assembly.assemble "|a|b|\n|-|-|\n|c|\n" paddedRow) := by
  refine ⟨wellNested_paddedRow, by decide, ?_⟩
  intro h
  have hpair := h [_, _, _, _, _, _, _, _, _, _, _, _] _ [_, _, _, _, _, _] _ [_, _] rfl
    ⟨⟨{ name := "tr", tag := "tr" }, ⟨rfl, rfl, rfl, rfl⟩, ⟨rfl, rfl, rfl, rfl⟩⟩, rfl, by decide⟩
    (by unfold IsShort; decide)
  have hlines : AreAmong (3, 4) (2, 3) :=
    hpair _ (.tail _ (.tail _ (.tail _ (.head _)))) _ _ rfl rfl
  exact absurd hlines.2 (by decide)

/-! ## Short starts -/

/-- The events of the text `- a`, `  b`. -/
def wrappedItem : List Event :=
  [.start (.list none) ⟨0, 7⟩, .start .item ⟨0, 7⟩,
   .leaf (.text "a") ⟨2, 3⟩, .leaf .softBreak ⟨3, 4⟩, .leaf (.text "b") ⟨6, 7⟩,
   .stop .item, .stop (.list none)]

theorem wellNested_wrappedItem : WellNested wrappedItem := by
  refine .cons (.container (.list none) rfl) (.cons (.container .item rfl) ?_)
  refine .cons (.inline rfl .first) (.cons (.inline rfl (.more rfl)) ?_)
  refine .cons (.inline rfl (.more rfl)) ?_
  exact .cons (.containerEnd .item rfl) (.cons (.containerEnd (.list none) rfl) (.nil _))

/-- The hidden paragraph ends with its first line, and its inline content with the second. -/
theorem not_linesNest_wrappedItem :
    ¬ LinesNest (fun _ => True) (Assembly.assemble "- a\n  b" wrappedItem) := by
  intro h
  have hpair := h [_, _] _ [_] _ [_, _] rfl
    ⟨⟨Assembly.hiddenParagraph, ⟨rfl, rfl, rfl, rfl⟩, ⟨rfl, rfl, rfl, rfl⟩⟩, rfl, by decide⟩
    trivial
  have hlines : AreAmong (0, 2) (0, 1) := hpair _ (.head _) _ _ rfl rfl
  exact absurd hlines.2 (by decide)

/-- The events of a table whose body has two rows: the text `|a|`, `|-|`, `|b|`, `|c|`. -/
def twoRows : List Event :=
  [.start (.table [.none]) ⟨0, 16⟩,
   .start .tableHead ⟨0, 4⟩,
   .start .tableCell ⟨1, 2⟩, .leaf (.text "a") ⟨1, 2⟩, .stop .tableCell,
   .stop .tableHead,
   .start .tableRow ⟨8, 12⟩,
   .start .tableCell ⟨9, 10⟩, .leaf (.text "b") ⟨9, 10⟩, .stop .tableCell,
   .stop .tableRow,
   .start .tableRow ⟨12, 16⟩,
   .start .tableCell ⟨13, 14⟩, .leaf (.text "c") ⟨13, 14⟩, .stop .tableCell,
   .stop .tableRow,
   .stop (.table [.none])]

theorem wellNested_twoRows : WellNested twoRows := by
  refine .cons (.table _) (.cons (.row .head) (.cons (.cell _) ?_))
  refine .cons (.inline rfl (.more rfl)) (.cons (.cellEnd _) (.cons (.rowEnd .head) ?_))
  refine .cons (.row .body) (.cons (.cell _) (.cons (.inline rfl (.more rfl)) ?_))
  refine .cons (.cellEnd _) (.cons (.rowEnd .body) ?_)
  refine .cons (.row .body) (.cons (.cell _) (.cons (.inline rfl (.more rfl)) ?_))
  exact .cons (.cellEnd _) (.cons (.rowEnd .body) (.cons (.tableEnd _) (.nil _)))

/-- The body of the table ends with its first row. -/
theorem not_linesNest_twoRows :
    ¬ LinesNest (fun _ => True) (Assembly.assemble "|a|\n|-|\n|b|\n|c|\n" twoRows) := by
  intro h
  have hpair := h [_, _, _, _, _, _, _, _] _ [_, _, _, _, _, _, _, _, _, _] _ [_] rfl
    ⟨⟨{ name := "tbody", tag := "tbody" }, ⟨rfl, rfl, rfl, rfl⟩, ⟨rfl, rfl, rfl, rfl⟩⟩, rfl,
      by decide⟩ trivial
  have hlines : AreAmong (3, 4) (2, 3) :=
    hpair _ (.tail _ (.tail _ (.tail _ (.tail _ (.tail _ (.head _)))))) _ _ rfl rfl
  exact absurd hlines.2 (by decide)

/-- Not all tokens of a well-nested document whose events begin inside one another cover lines of
the elements in which they stand: not those in a hidden paragraph of two lines, and not those in a
body of two rows. -/
theorem not_linesNest_assemble :
    (WellNested wrappedItem ∧ EventsLie Extent.BeginsIn [] wrappedItem ∧
      ¬ LinesNest (fun _ => True) (Assembly.assemble "- a\n  b" wrappedItem)) ∧
    (WellNested twoRows ∧ EventsLie Extent.BeginsIn [] twoRows ∧
      ¬ LinesNest (fun _ => True) (Assembly.assemble "|a|\n|-|\n|b|\n|c|\n" twoRows)) :=
  ⟨⟨wellNested_wrappedItem, by decide, not_linesNest_wrappedItem⟩,
    ⟨wellNested_twoRows, by decide, not_linesNest_twoRows⟩⟩

end Markdown
end RenderForest
