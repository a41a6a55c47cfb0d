import RenderForest.Proofs.Markdown.Gathering
/-!
# Balance — the tokens of a document tell a tree

In each scope the finished tokens have left open just the elements of the scope: those of its
containers and of the block at its spot, the hidden paragraph of a tight item among them.  This
file defines:

* `Scope.brackets`, the block elements of a scope;
* `Assembly.Holds`, that an assembly stands as its scope says;
* `IsWellFormed`, that the tokens of a document and of its inline content tell trees;

and shows that each event that may follow keeps `Holds`, and with it that the tokens of each
well-nested document are well formed.
-/

namespace RenderForest
namespace Markdown

open Token

/-! ## The elements of a scope -/

def Container.bracket : Container → Bracket
  | .quote => { name := "blockquote", tag := "blockquote" }
  | .list (some _) => { name := "ordered_list", tag := "ol" }
  | .list none => { name := "bullet_list", tag := "ul" }
  | .item => { name := "list_item", tag := "li" }

def TextBlock.bracket : TextBlock → Bracket
  | .paragraph => { name := "paragraph", tag := "p" }
  | .heading level => { name := "heading", tag := Assembly.headingTag level }

open Assembly (TableState)

/-- The elements of a table between its rows. -/
def TableState.brackets (table : TableState) : List Bracket :=
  let outer : Bracket := { name := "table", tag := "table" }
  if table.bodyOpen then [{ name := "tbody", tag := "tbody" }, outer] else [outer]

def TableState.cell (table : TableState) : Bracket :=
  if table.inHead then { name := "th", tag := "th" } else { name := "td", tag := "td" }

def TableRow.brackets : TableRow → List Bracket
  | .head => [{ name := "tr", tag := "tr" }, { name := "thead", tag := "thead" }]
  | .body => [{ name := "tr", tag := "tr" }]

def Spot.brackets (table : TableState) : Spot → List Bracket
  | .blocks => []
  | .run => [Assembly.hiddenParagraph]
  | .text b => [b.bracket]
  | .literal _ => []
  | .table _ => TableState.brackets table
  | .row _ r => r.brackets ++ TableState.brackets table
  | .cell _ r => TableState.cell table :: (r.brackets ++ TableState.brackets table)

/-- The block elements that are open in a scope, the innermost first. -/
def Scope.brackets (s : Scope) (table : TableState) : List Bracket :=
  s.spot.brackets table ++ s.containers.map Container.bracket

/-- What an assembly does at a spot. -/
inductive Role where
  /-- It stands between blocks or between the parts of a table. -/
  | idle
  /-- It gathers inline content, in a hidden paragraph or not. -/
  | gathers (implicit : Bool)
  /-- It fills a code or raw block. -/
  | fills

def Spot.role : Spot → Role
  | .blocks => .idle
  | .run => .gathers true
  | .text _ => .gathers false
  | .literal _ => .fills
  | .table _ => .idle
  | .row _ _ => .idle
  | .cell _ _ => .gathers false

theorem Spot.role_of_isInline {p : Spot} (h : p.isInline = true) :
    ∃ implicit, p.role = .gathers implicit := by
  cases p with
  | run => exact ⟨true, rfl⟩
  | text b => exact ⟨false, rfl⟩
  | cell alignments r => exact ⟨false, rfl⟩
  | _ => cases h

namespace Assembly

/-- An assembly stands as its scope says. -/
def Holds (s : Scope) (a : Assembly) : Prop :=
  ∃ table, match s.spot.role with
    | .idle => a.Idle table (s.brackets table) ∧ s.spans = []
    | .gathers implicit => a.Gathers table (s.brackets table) implicit s.spans
    | .fills => a.Fills table (s.brackets table) ∧ s.spans = []

variable {a : Assembly} {s s' : Scope} {e : Extent} {cs : List Container} {p : Spot}
  {spans : List Span}

namespace Idle

variable {table : TableState} {bs : List Bracket}

theorem setCells (h : a.Idle table bs) (alignments : List Mark.Alignment) (cell : Nat) :
    { a with alignments, cell }.Idle table bs :=
  ⟨⟨h.nested, h.level, h.sound, h.bodyOpen, h.inHead⟩, h.group, h.images, h.literal⟩

theorem setHead (h : a.Idle table bs) (inHead : Bool) :
    { a with inHead }.Idle { table with inHead } bs :=
  ⟨⟨h.nested, h.level, h.sound, h.bodyOpen, rfl⟩, h.group, h.images, h.literal⟩

theorem setBody (h : a.Idle table bs) (bodyOpen : Bool) :
    { a with bodyOpen }.Idle { table with bodyOpen } bs :=
  ⟨⟨h.nested, h.level, h.sound, rfl, h.inHead⟩, h.group, h.images, h.literal⟩

end Idle

namespace Holds

theorem of_idle (table : TableState) (h : a.Idle table (Scope.brackets ⟨cs, p, []⟩ table))
    (hp : p.role = .idle) : Holds ⟨cs, p, []⟩ a := by
  refine ⟨table, ?_⟩
  simp only [hp]
  exact ⟨h, trivial⟩

theorem of_gathers (table : TableState) (implicit : Bool)
    (h : a.Gathers table (s.brackets table) implicit s.spans)
    (hs : s.spot.role = .gathers implicit) : Holds s a := by
  refine ⟨table, ?_⟩
  simp only [hs]
  exact h

/-- Where a block may start, a hidden paragraph is closed first. -/
theorem closeImplicit (h : Holds ⟨cs, p, []⟩ a) (hp : p.takesBlocks = true) :
    ∃ table, a.closeImplicit.Idle table (cs.map Container.bracket) := by
  rcases h with ⟨table, h⟩
  cases p with
  | blocks =>
      refine ⟨table, ?_⟩
      rw [h.1.closeImplicit_eq]
      exact h.1
  | run => exact ⟨table, Gathers.closeImplicit h⟩
  | _ => cases hp

/-- Where inline content may stand, a hidden paragraph is opened first. -/
theorem ensureGroup (h : Holds s a) (hs : Scope.Gathers s s') (e : Extent) :
    ∃ table implicit, s'.spot.role = .gathers implicit ∧
      (a.ensureGroup e).Gathers table (s'.brackets table) implicit s'.spans := by
  rcases h with ⟨table, h⟩
  cases hs with
  | more hinline =>
      rcases Spot.role_of_isInline hinline with ⟨implicit, hrole⟩
      simp only [hrole] at h
      refine ⟨table, implicit, hrole, ?_⟩
      rw [h.ensureGroup_eq]
      exact h
  | first => exact ⟨table, true, rfl, h.1.ensureGroup e⟩

/-- An inline token that stands alone. -/
theorem inlineToken (h : Holds s a) (hs : Scope.Gathers s s') {t : Token}
    (ht : t.nesting = .selfClosing) : Holds s' (a.inlineToken t e) := by
  rcases h.ensureGroup hs e with ⟨table, implicit, hrole, hgathers⟩
  exact of_gathers _ _ ((hgathers.cover e).push_alone ht) hrole

/-- An inline token that starts the element of a span. -/
theorem inlineToken_opens (h : Holds s a) (hs : Scope.Gathers s s') {t : Token} {span : Span}
    {b : Bracket} (hspan : span.bracket? = some b) (ht : t.Opens b) :
    Holds { s' with spans := span :: s'.spans } (a.inlineToken t e) := by
  rcases h.ensureGroup hs e with ⟨table, implicit, hrole, hgathers⟩
  exact of_gathers _ _ ((hgathers.cover e).push_opens hspan ht) hrole

theorem span {span : Span} (h : Holds s a) (hs : Scope.Gathers s s') :
    Holds { s' with spans := span :: s'.spans } (a.start span.toTag e) := by
  cases span with
  | emphasis => exact h.inlineToken_opens hs rfl ⟨rfl, rfl, rfl, rfl⟩
  | strong => exact h.inlineToken_opens hs rfl ⟨rfl, rfl, rfl, rfl⟩
  | strikethrough => exact h.inlineToken_opens hs rfl ⟨rfl, rfl, rfl, rfl⟩
  | link target =>
      refine h.inlineToken_opens hs rfl ?_
      unfold withTitle
      split <;> exact ⟨rfl, rfl, rfl, rfl⟩
  | image target =>
      rcases h.ensureGroup hs e with ⟨table, implicit, hrole, hgathers⟩
      refine of_gathers _ _ (hgathers.openImage ?_) hrole
      unfold withTitle
      split <;> rfl

/-- Spans are open only in inline content. -/
theorem gathers_of_spans {span : Span} (h : Holds ⟨cs, p, span :: spans⟩ a) :
    ∃ table implicit, p.role = .gathers implicit ∧
      a.Gathers table (Scope.brackets ⟨cs, p, spans⟩ table) implicit (span :: spans) := by
  rcases h with ⟨table, h⟩
  rcases hrole : p.role with _ | implicit | _
  · simp only [hrole] at h
    cases h.2
  · simp only [hrole] at h
    exact ⟨table, implicit, rfl, h⟩
  · simp only [hrole] at h
    cases h.2

theorem spanEnd {span : Span} (h : Holds ⟨cs, p, span :: spans⟩ a) :
    Holds ⟨cs, p, spans⟩ (a.stop span.toTag) := by
  rcases h.gathers_of_spans with ⟨table, implicit, hrole, hgathers⟩
  cases span with
  | emphasis => exact of_gathers _ _ (hgathers.push_closes rfl ⟨rfl, rfl, rfl, rfl⟩) hrole
  | strong => exact of_gathers _ _ (hgathers.push_closes rfl ⟨rfl, rfl, rfl, rfl⟩) hrole
  | strikethrough => exact of_gathers _ _ (hgathers.push_closes rfl ⟨rfl, rfl, rfl, rfl⟩) hrole
  | link target => exact of_gathers _ _ (hgathers.push_closes rfl ⟨rfl, rfl, rfl, rfl⟩) hrole
  | image target => exact of_gathers _ _ hgathers.closeImage hrole

/-- Where inline content may stand, no code or raw block is open. -/
theorem literal_eq_none (h : Holds s a) (hs : Scope.Gathers s s') : a.literal = none := by
  rcases h with ⟨table, h⟩
  cases hs with
  | more hinline =>
      rcases Spot.role_of_isInline hinline with ⟨implicit, hrole⟩
      simp only [hrole] at h
      exact h.literal
  | first => exact h.1.literal

theorem inline {l : Leaf} (h : Holds s a) (hs : Scope.Gathers s s') (hl : l.isInline = true) :
    Holds s' (a.leaf l e) := by
  cases l with
  | text content =>
      rw [Assembly.leaf, literalText?, h.literal_eq_none hs]
      exact h.inlineToken hs rfl
  | code content => exact h.inlineToken hs rfl
  | inlineRaw content => exact h.inlineToken hs rfl
  | softBreak => exact h.inlineToken hs rfl
  | hardBreak => exact h.inlineToken hs rfl
  | task done => exact h.inlineToken hs rfl
  | raw content => cases hl
  | rule => cases hl

theorem container (h : Holds ⟨cs, p, []⟩ a) (hp : p.takesBlocks = true) (c : Container) :
    Holds ⟨c :: cs, .blocks, []⟩ (a.start c.toTag e) := by
  rcases h.closeImplicit hp with ⟨table, hidle⟩
  refine of_idle table ?_ rfl
  cases c with
  | quote => exact hidle.opens ⟨rfl, rfl, rfl, rfl⟩
  | item => exact hidle.opens ⟨rfl, rfl, rfl, rfl⟩
  | list number =>
      cases number with
      | none => exact hidle.opens ⟨rfl, rfl, rfl, rfl⟩
      | some n =>
          refine hidle.opens ?_
          split <;> exact ⟨rfl, rfl, rfl, rfl⟩

theorem containerEnd {c : Container} (h : Holds ⟨c :: cs, p, []⟩ a) (hp : p.takesBlocks = true) :
    Holds ⟨cs, .blocks, []⟩ (a.stop c.toTag) := by
  rcases h.closeImplicit hp with ⟨table, hidle⟩
  refine of_idle table ?_ rfl
  cases c with
  | quote => exact hidle.closes ⟨rfl, rfl, rfl, rfl⟩
  | item => exact hidle.closes ⟨rfl, rfl, rfl, rfl⟩
  | list number =>
      cases number with
      | none => exact hidle.closes ⟨rfl, rfl, rfl, rfl⟩
      | some n => exact hidle.closes ⟨rfl, rfl, rfl, rfl⟩

theorem text (h : Holds ⟨cs, p, []⟩ a) (hp : p.takesBlocks = true) (b : TextBlock) :
    Holds ⟨cs, .text b, []⟩ (a.start b.toTag e) := by
  rcases h.closeImplicit hp with ⟨table, hidle⟩
  refine of_gathers table false ?_ rfl
  cases b with
  | paragraph => exact (hidle.opens ⟨rfl, rfl, rfl, rfl⟩).openGroup false
  | heading level => exact (hidle.opens ⟨rfl, rfl, rfl, rfl⟩).openGroup false

theorem textEnd {b : TextBlock} (h : Holds ⟨cs, .text b, []⟩ a) :
    Holds ⟨cs, .blocks, []⟩ (a.stop b.toTag) := by
  rcases h with ⟨table, hgathers⟩
  have hidle := Gathers.closeGroup hgathers
  refine of_idle table ?_ rfl
  cases b with
  | paragraph => exact hidle.closes ⟨rfl, rfl, rfl, rfl⟩
  | heading level => exact hidle.closes ⟨rfl, rfl, rfl, rfl⟩

theorem literal (h : Holds ⟨cs, p, []⟩ a) (hp : p.takesBlocks = true) (b : LiteralBlock) :
    Holds ⟨cs, .literal b, []⟩ (a.start b.toTag e) := by
  rcases h.closeImplicit hp with ⟨table, hidle⟩
  refine ⟨table, ?_, rfl⟩
  cases b with
  | raw => exact hidle.fill rfl (by simp)
  | code info =>
      cases info with
      | none => exact hidle.fill rfl (by simp)
      | some info => exact hidle.fill rfl (by simp)

theorem literalLeaf {b : LiteralBlock} {l : Leaf} (h : Holds ⟨cs, .literal b, []⟩ a)
    (hl : l.isLiteral = true) : Holds ⟨cs, .literal b, []⟩ (a.leaf l e) := by
  rcases h with ⟨table, hfills, -⟩
  cases l with
  | text content =>
      rcases hfills.literalText? content with ⟨a', ha', hfills'⟩
      rw [Assembly.leaf, ha']
      exact ⟨table, hfills', rfl⟩
  | raw content =>
      rcases hfills.literalText? content with ⟨a', ha', hfills'⟩
      rw [Assembly.leaf, ha']
      exact ⟨table, hfills', rfl⟩
  | _ => cases hl

theorem literalEnd {b : LiteralBlock} (h : Holds ⟨cs, .literal b, []⟩ a) :
    Holds ⟨cs, .blocks, []⟩ (a.stop b.toTag) := by
  rcases h with ⟨table, hfills, -⟩
  refine of_idle table ?_ rfl
  cases b with
  | raw => exact hfills.closeLiteral
  | code info => exact hfills.closeLiteral

theorem rule (h : Holds ⟨cs, p, []⟩ a) (hp : p.takesBlocks = true) :
    Holds ⟨cs, .blocks, []⟩ (a.leaf .rule e) := by
  rcases h.closeImplicit hp with ⟨table, hidle⟩
  exact of_idle _ (hidle.alone rfl (by decide)) rfl

theorem table (h : Holds ⟨cs, .blocks, []⟩ a) (alignments : List Mark.Alignment) :
    Holds ⟨cs, .table alignments, []⟩ (a.start (.table alignments) e) := by
  rcases h with ⟨table, hidle, -⟩
  refine of_idle { table with bodyOpen := false } ?_ rfl
  exact ((hidle.setCells alignments a.cell).setBody false).opens ⟨rfl, rfl, rfl, rfl⟩

theorem tableEnd {alignments : List Mark.Alignment} (h : Holds ⟨cs, .table alignments, []⟩ a) :
    Holds ⟨cs, .blocks, []⟩ (a.stop (.table alignments)) := by
  rcases h with ⟨⟨bodyOpen, inHead⟩, hidle, -⟩
  rw [Assembly.stop, hidle.bodyOpen]
  refine of_idle { bodyOpen, inHead } ?_ rfl
  cases bodyOpen with
  | true => exact (hidle.closes ⟨rfl, rfl, rfl, rfl⟩).closes ⟨rfl, rfl, rfl, rfl⟩
  | false => exact hidle.closes ⟨rfl, rfl, rfl, rfl⟩

theorem row {alignments : List Mark.Alignment} (h : Holds ⟨cs, .table alignments, []⟩ a)
    (r : TableRow) : Holds ⟨cs, .row alignments r, []⟩ (a.start r.toTag e) := by
  rcases h with ⟨⟨bodyOpen, inHead⟩, hidle, -⟩
  cases r with
  | head =>
      refine of_idle { bodyOpen, inHead := true } ?_ rfl
      have hhead := ((hidle.setHead true).setCells a.alignments 0).opens
        (m := some (a.lineSpan e)) (b := { name := "thead", tag := "thead" })
        (t := { kind := "thead_open", tag := "thead", nesting := .opening }) ⟨rfl, rfl, rfl, rfl⟩
      exact hhead.opens ⟨rfl, rfl, rfl, rfl⟩
  | body =>
      rw [TableRow.toTag, Assembly.start, hidle.bodyOpen]
      refine of_idle { bodyOpen := true, inHead } ?_ rfl
      cases bodyOpen with
      | true => exact (hidle.setCells a.alignments 0).opens ⟨rfl, rfl, rfl, rfl⟩
      | false =>
          have hbody := (hidle.setBody true).opens
            (m := some (a.lineSpan e)) (b := { name := "tbody", tag := "tbody" })
            (t := { kind := "tbody_open", tag := "tbody", nesting := .opening })
            ⟨rfl, rfl, rfl, rfl⟩
          exact (hbody.setCells a.alignments 0).opens ⟨rfl, rfl, rfl, rfl⟩

theorem rowEnd {alignments : List Mark.Alignment} {r : TableRow}
    (h : Holds ⟨cs, .row alignments r, []⟩ a) :
    Holds ⟨cs, .table alignments, []⟩ (a.stop r.toTag) := by
  rcases h with ⟨table, hidle, -⟩
  cases r with
  | head =>
      refine of_idle { table with inHead := false } ?_ rfl
      exact ((hidle.closes ⟨rfl, rfl, rfl, rfl⟩).closes ⟨rfl, rfl, rfl, rfl⟩).setHead false
  | body =>
      refine of_idle table ?_ rfl
      exact hidle.closes ⟨rfl, rfl, rfl, rfl⟩

theorem cell {alignments : List Mark.Alignment} {r : TableRow}
    (h : Holds ⟨cs, .row alignments r, []⟩ a) :
    Holds ⟨cs, .cell alignments r, []⟩ (a.start .tableCell e) := by
  rcases h with ⟨⟨bodyOpen, inHead⟩, hidle, -⟩
  rw [Assembly.start, hidle.inHead]
  -- The style of the cell is an attribute and does not count.
  have hstyle : ∀ (t : Token) (b : Bracket) (style : Option String), t.Opens b →
      ((style.map (t.setAttr "style")).getD t).Opens b := by
    intro t b style ht
    cases style with
    | none => exact ht
    | some style => exact ⟨ht.nesting, ht.kind, ht.tag, ht.hidden⟩
  refine of_gathers { bodyOpen, inHead } false ?_ rfl
  cases inHead with
  | true =>
      have ht := hstyle { kind := "th_open", tag := "th", nesting := .opening }
        { name := "th", tag := "th" } ((a.alignments[a.cell]?).bind alignmentStyle?)
        ⟨rfl, rfl, rfl, rfl⟩
      exact (hidle.opens ht).openGroup false
  | false =>
      have ht := hstyle { kind := "td_open", tag := "td", nesting := .opening }
        { name := "td", tag := "td" } ((a.alignments[a.cell]?).bind alignmentStyle?)
        ⟨rfl, rfl, rfl, rfl⟩
      exact (hidle.opens ht).openGroup false

theorem cellEnd {alignments : List Mark.Alignment} {r : TableRow}
    (h : Holds ⟨cs, .cell alignments r, []⟩ a) :
    Holds ⟨cs, .row alignments r, []⟩ (a.stop .tableCell) := by
  rcases h with ⟨⟨bodyOpen, inHead⟩, hgathers⟩
  have hidle := Gathers.closeGroup hgathers
  rw [Assembly.stop]
  simp only [hidle.inHead]
  refine of_idle { bodyOpen, inHead } ?_ rfl
  cases inHead with
  | true =>
      have hclosed := hidle.closes (m := none)
        (t := { kind := "th_close", tag := "th", nesting := .closing }) ⟨rfl, rfl, rfl, rfl⟩
      exact hclosed.setCells _ _
  | false =>
      have hclosed := hidle.closes (m := none)
        (t := { kind := "td_close", tag := "td", nesting := .closing }) ⟨rfl, rfl, rfl, rfl⟩
      exact hclosed.setCells _ _

/-- Each event that may follow keeps the assembly as its scope says. -/
theorem step {event : Event} (h : Holds s a) (hs : Scope.Follows s event s') :
    Holds s' (a.step event) := by
  cases hs with
  | container c hp => exact h.container hp c
  | containerEnd c hp => exact h.containerEnd hp
  | text b hp => exact h.text hp b
  | textEnd b => exact h.textEnd
  | literal b hp => exact h.literal hp b
  | literalLeaf b hl => exact h.literalLeaf hl
  | literalEnd b => exact h.literalEnd
  | rule hp => exact h.rule hp
  | table alignments => exact h.table alignments
  | tableEnd alignments => exact h.tableEnd
  | row r => exact h.row r
  | rowEnd r => exact h.rowEnd
  | cell r => exact h.cell
  | cellEnd r => exact h.cellEnd
  | inline hl hgathers => exact h.inline hgathers hl
  | span span hgathers => exact h.span hgathers
  | spanEnd span => exact h.spanEnd

theorem run {events : List Event} (h : Holds s a) (hs : Scope.Path s events s') :
    Holds s' (events.foldl Assembly.step a) := by
  induction hs generalizing a with
  | nil s => exact h
  | cons hfollows _ ih => exact ih (h.step hfollows)

theorem ofSource (source : String) : Holds {} (Assembly.ofSource source) := by
  refine ⟨{ bodyOpen := false, inHead := false }, ⟨⟨.nil, rfl, ?_, rfl, rfl⟩, rfl, rfl, rfl⟩, rfl⟩
  intro t ht
  cases ht

end Holds
end Assembly

/-! ## Whole documents -/

/-- The tokens of a document tell a tree, and those of its inline content do. -/
structure IsWellFormed (tokens : List Token) : Prop where
  nested : IsNested tokens
  paired : IsPaired tokens
  levelled : IsLevelled tokens
  block : ∀ t ∈ tokens, t.block = true
  inline : ∀ t ∈ tokens, t.kind = "inline" → ∃ inner, t.children = some inner ∧
    IsNested inner ∧ IsPaired inner ∧ IsLevelled inner ∧ AreApart inner

/-- The tokens of a well-nested document are well formed. -/
theorem isWellFormed_assemble (source : String) {events : List Event} (h : WellNested events) :
    IsWellFormed (Assembly.assemble source events) := by
  rcases (Assembly.Holds.ofSource source).run h with ⟨table, hidle, -⟩
  have hfinish : Assembly.assemble source events =
      (events.foldl Assembly.step (Assembly.ofSource source)).tokens.reverse := by
    rw [Assembly.assemble, Assembly.finish, hidle.closeImplicit_eq, hidle.closeGroup_eq]
  have hnested : IsNested (Assembly.assemble source events) := by
    rw [hfinish, IsNested, List.reverse_reverse]
    exact hidle.nested
  have hsound : ∀ t ∈ Assembly.assemble source events, t.IsSound := by
    intro t ht
    rw [hfinish] at ht
    exact hidle.sound t (List.mem_reverse.1 ht)
  refine ⟨hnested, hnested.isPaired, hnested.isLevelled, fun t ht => (hsound t ht).block, ?_⟩
  intro t ht hkind
  rcases (hsound t ht).inline hkind with ⟨inner, hinner, hinnerNested, hapart⟩
  exact ⟨inner, hinner, hinnerNested, hinnerNested.isPaired, hinnerNested.isLevelled, hapart⟩

theorem isWellFormed_assemble_tightDocument :
    WellNested tightDocument ∧ IsWellFormed (Assembly.assemble "" tightDocument) :=
  ⟨wellNested_tightDocument, isWellFormed_assemble "" wellNested_tightDocument⟩

end Markdown
end RenderForest
