import RenderForest.Proofs.Markdown.Balance
import RenderForest.Proofs.Markdown.MadeTokens
/-!
# Ledger — nothing of a document is lost

Tokens are read for different things: for what a reader is to see of them, or for their raw
markup.  What is read of an assembly, and what is pending of the images, of the block that is open
and of the events to come, stay the same together, whatever event is taken in next.  This file
defines:

* `Reading`, what is read of a token, and `Reading.held`, what is read of an assembly;
* `Emits`, the inline token that an event makes;
* `Ledger`, a reading with what is pending, and what both have to do with each event;

and shows in `Ledger.flatMap_assemble` that of the tokens of each well-nested document just that is
read which was pending of its events.
-/

namespace RenderForest
namespace Markdown

open Token Assembly

/-! ## Events and their tokens -/

/-- The kinds of the tokens around blocks and around the parts of a table. -/
def frameKinds : List String :=
  ["paragraph_open", "paragraph_close", "heading_open", "heading_close", "blockquote_open",
    "blockquote_close", "ordered_list_open", "ordered_list_close", "bullet_list_open",
    "bullet_list_close", "list_item_open", "list_item_close", "table_open", "table_close",
    "thead_open", "thead_close", "tbody_open", "tbody_close", "tr_open", "tr_close", "th_open",
    "th_close", "td_open", "td_close", "hr"]

def Tag.isFrame : Tag → Bool
  | .paragraph => true
  | .heading _ => true
  | .quote => true
  | .list _ => true
  | .item => true
  | .table _ => true
  | .tableHead => true
  | .tableRow => true
  | .tableCell => true
  | _ => false

/-- An event that makes no other tokens than those around blocks. -/
def Event.isFrame : Event → Bool
  | .start tag _ => tag.isFrame
  | .stop tag => tag.isFrame
  | .leaf l _ => l == .rule

def LiteralBlock.kind : LiteralBlock → String
  | .code none => "code_block"
  | .code (some _) => "fence"
  | .raw => "html_block"

/-- The text that a leaf gives to a code or raw block. -/
def Leaf.verbatim : Leaf → String
  | .text content => content
  | .raw content => content
  | _ => ""

/-- The inline token that an event makes outside of code and raw blocks.  An image is made by its
end, of what it holds. -/
inductive Emits : Event → Token → Prop where
  | text (content : String) (e : Extent) :
      Emits (.leaf (.text content) e) { kind := "text", content }
  | code (content : String) (e : Extent) :
      Emits (.leaf (.code content) e)
        { kind := "code_inline", tag := "code", content, markup := "`" }
  | inlineRaw (content : String) (e : Extent) :
      Emits (.leaf (.inlineRaw content) e) { kind := "html_inline", content }
  | softBreak (e : Extent) : Emits (.leaf .softBreak e) { kind := "softbreak", tag := "br" }
  | hardBreak (e : Extent) : Emits (.leaf .hardBreak e) { kind := "hardbreak", tag := "br" }
  | task (done : Bool) (e : Extent) :
      Emits (.leaf (.task done) e) { kind := "html_inline", content := checkbox done }
  | emphasis (e : Extent) :
      Emits (.start .emphasis e)
        { kind := "em_open", tag := "em", nesting := .opening, markup := "*" }
  | strong (e : Extent) :
      Emits (.start .strong e)
        { kind := "strong_open", tag := "strong", nesting := .opening, markup := "**" }
  | strikethrough (e : Extent) :
      Emits (.start .strikethrough e)
        { kind := "s_open", tag := "s", nesting := .opening, markup := "~~" }
  | link (target : Target) (e : Extent) :
      Emits (.start (.link target) e)
        (withTitle (Token.setAttr { kind := "link_open", tag := "a", nesting := .opening } "href"
          target.destination) target)
  | emphasisEnd :
      Emits (.stop .emphasis)
        { kind := "em_close", tag := "em", nesting := .closing, markup := "*" }
  | strongEnd :
      Emits (.stop .strong)
        { kind := "strong_close", tag := "strong", nesting := .closing, markup := "**" }
  | strikethroughEnd :
      Emits (.stop .strikethrough)
        { kind := "s_close", tag := "s", nesting := .closing, markup := "~~" }
  | linkEnd (target : Target) :
      Emits (.stop (.link target)) { kind := "link_close", tag := "a", nesting := .closing }

/-! ## Readings -/

/-- What is read of a token.  It is told by the kind, the content and the tokens inside; nothing is
read of the tokens around blocks, and of two texts that become one what was read of both. -/
structure Reading (α : Type) where
  own : Token → List α
  congr : ∀ {t u : Token}, u.kind = t.kind → u.content = t.content → u.children = t.children →
    own u = own t
  text : ∀ {t u : Token}, t.kind = "text" → u.kind = "text" →
    own { t with content := t.content ++ u.content } = own t ++ own u
  frame : ∀ {t : Token}, frameKinds.contains t.kind = true → own t = []

theorem flatMap_reverse_cons {α : Type} (f : Token → List α) (t : Token) (ts : List Token) :
    (t :: ts).reverse.flatMap f = ts.reverse.flatMap f ++ f t := by
  simp

namespace Reading

variable {α : Type} (r : Reading α)

/-- What is read of a finished token: inline content is read token by token. -/
def ofToken (t : Token) : List α :=
  if t.isInline then t.inner.flatMap r.own else r.own t

def ofGroup : Option InlineGroup → List α
  | none => []
  | some g => g.tokens.reverse.flatMap r.own

/-- What is read of all that has been assembled, open images and the open block apart. -/
def held (a : Assembly) : List α :=
  a.tokens.reverse.flatMap r.ofToken ++ r.ofGroup a.group

variable {a : Assembly} {t : Token} {e : Extent}

theorem ofToken_of_isInline (h : t.isInline = true) : r.ofToken t = t.inner.flatMap r.own :=
  if_pos h

theorem ofToken_of_not_isInline (h : t.isInline = false) : r.ofToken t = r.own t :=
  if_neg (by simp [h])

theorem ofToken_frame (h : frameKinds.contains t.kind = true) : r.ofToken t = [] := by
  have hinline : ∀ kind ∈ frameKinds, (kind == "inline") = false := by decide
  rw [r.ofToken_of_not_isInline (hinline _ (List.contains_iff_mem.1 h)), r.frame h]

/-! ## What the actions of an assembly do to what is held -/

theorem held_block (ht : frameKinds.contains t.kind = true) (map : Option (Nat × Nat)) :
    r.held (a.block t map) = r.held a := by
  have hadded : r.ofToken { t with level := levelOf a.level t.nesting, map, block := true } = [] :=
    r.ofToken_frame ht
  rw [held, Assembly.block, flatMap_reverse_cons, hadded, List.append_nil]
  rfl

theorem held_openGroup (h : a.group = none) (implicit : Bool) :
    r.held (a.openGroup implicit) = r.held a := by
  rw [held, held, h]
  rfl

theorem held_closeGroup : r.held a.closeGroup = r.held a := by
  unfold closeGroup
  split
  · rfl
  · rename_i g hg
    rw [held, held, hg, flatMap_reverse_cons, r.ofToken_of_isInline rfl]
    exact List.append_nil _

theorem held_closeImplicit : r.held a.closeImplicit = r.held a := by
  unfold closeImplicit
  split
  · split
    · rw [r.held_block rfl, r.held_closeGroup]
    · rfl
  · rfl

theorem held_ensureGroup : r.held (a.ensureGroup e) = r.held a := by
  unfold ensureGroup
  split
  · rfl
  · rename_i hg
    exact (r.held_openGroup (a := a.block _ _) hg true).trans (r.held_block rfl _)

theorem held_cover : r.held (a.cover e) = r.held a := by
  rw [held, held, cover]
  cases a.group <;> rfl

theorem held_closeLiteral (hgroup : a.group = none) (hliteral : a.literal = some t)
    (ht : t.isInline = false) : r.held a.closeLiteral = r.held a ++ r.own t := by
  have hinline : { t with level := a.level, block := true }.isInline = false := ht
  have hadded : r.ofToken { t with level := a.level, block := true } = r.own t :=
    (r.ofToken_of_not_isInline hinline).trans (r.congr rfl rfl rfl)
  rw [closeLiteral, hliteral, held, held, flatMap_reverse_cons, hadded, hgroup]
  simp [ofGroup]

theorem flatMap_addInline (t : Token) (ts : List Token) :
    (addInline t ts).reverse.flatMap r.own = ts.reverse.flatMap r.own ++ r.own t := by
  cases ts with
  | nil => simp [addInline]
  | cons last rest =>
      rw [addInline]
      split
      · rename_i hboth
        simp only [Bool.and_eq_true, beq_iff_eq] at hboth
        rw [flatMap_reverse_cons, flatMap_reverse_cons, r.text hboth.2 hboth.1, List.append_assoc]
      · exact flatMap_reverse_cons r.own t (last :: rest)

/-- Outside images an inline token is read behind what is held. -/
theorem held_pushInline {g : InlineGroup} (hg : a.group = some g) (himages : a.images = []) :
    r.held (a.pushInline t) = r.held a ++ r.own t := by
  have hadded : r.own { t with level := levelOf g.level t.nesting } = r.own t := r.congr rfl rfl rfl
  rw [pushInline, himages, held, held, hg, Option.map_some, ofGroup, InlineGroup.push,
    r.flatMap_addInline, hadded]
  simp [ofGroup]

/-! ## Blocks and tables -/

/-- A block token that follows the end of a hidden paragraph. -/
theorem held_closeImplicit_block (ht : frameKinds.contains t.kind = true)
    (map : Option (Nat × Nat)) : r.held (a.closeImplicit.block t map) = r.held a :=
  (r.held_block ht map).trans r.held_closeImplicit

theorem held_container (a : Assembly) (c : Container) (e : Extent) :
    r.held (a.start c.toTag e) = r.held a := by
  cases c with
  | quote => exact r.held_closeImplicit_block rfl _
  | item => exact r.held_closeImplicit_block rfl _
  | list number =>
      cases number with
      | none => exact r.held_closeImplicit_block rfl _
      | some n =>
          refine r.held_closeImplicit_block ?_ _
          split <;> rfl

theorem held_containerEnd (a : Assembly) (c : Container) :
    r.held (a.stop c.toTag) = r.held a := by
  cases c with
  | quote => exact r.held_closeImplicit_block rfl _
  | item => exact r.held_closeImplicit_block rfl _
  | list number => cases number <;> exact r.held_closeImplicit_block rfl _

/-- The group that a text block opens holds nothing yet, and there was none before. -/
theorem held_text (h : a.closeImplicit.group = none) (b : TextBlock) (e : Extent) :
    r.held (a.start b.toTag e) = r.held a := by
  have hopen : ∀ (t : Token) (map : Option (Nat × Nat)), frameKinds.contains t.kind = true →
      r.held ((a.closeImplicit.block t map).openGroup false) = r.held a := by
    intro t map ht
    rw [r.held_openGroup (a := a.closeImplicit.block t map) h, r.held_closeImplicit_block ht]
  cases b with
  | paragraph => exact hopen _ _ rfl
  | heading level => exact hopen _ _ rfl

theorem held_textEnd (a : Assembly) (b : TextBlock) : r.held (a.stop b.toTag) = r.held a := by
  cases b with
  | paragraph => exact (r.held_block rfl none).trans r.held_closeGroup
  | heading level => exact (r.held_block rfl none).trans r.held_closeGroup

theorem held_tableEnd (a : Assembly) (alignments : List Mark.Alignment) :
    r.held (a.stop (.table alignments)) = r.held a := by
  refine (r.held_block rfl none).trans ?_
  split
  · exact r.held_block rfl none
  · rfl

theorem held_row (a : Assembly) (row : TableRow) (e : Extent) :
    r.held (a.start row.toTag e) = r.held a := by
  cases row with
  | head =>
      have hhead : r.held ({ a with inHead := true, cell := 0 }.openBlock "thead_open" "thead" e) =
          r.held a := r.held_block rfl _
      exact (r.held_block rfl _).trans hhead
  | body =>
      have hbody : r.held (if a.bodyOpen then a
          else { a with bodyOpen := true }.openBlock "tbody_open" "tbody" e) = r.held a := by
        split
        · rfl
        · exact r.held_block rfl _
      exact (r.held_block rfl _).trans hbody

theorem held_rowEnd (a : Assembly) (row : TableRow) : r.held (a.stop row.toTag) = r.held a := by
  have hrow : r.held (a.closeBlock "tr_close" "tr") = r.held a := r.held_block rfl none
  cases row with
  | head => exact (r.held_block rfl none).trans hrow
  | body => exact hrow

theorem held_cell (h : a.group = none) (e : Extent) :
    r.held (a.start .tableCell e) = r.held a := by
  have hopen : ∀ (t : Token) (map : Option (Nat × Nat)), frameKinds.contains t.kind = true →
      r.held ((a.block t map).openGroup false) = r.held a := by
    intro t map ht
    rw [r.held_openGroup (a := a.block t map) h, r.held_block ht]
  refine hopen _ _ ?_
  cases (a.alignments[a.cell]?).bind alignmentStyle? <;> cases a.inHead <;> rfl

theorem held_cellEnd (a : Assembly) : r.held (a.stop .tableCell) = r.held a := by
  have hcell : r.held (if a.closeGroup.inHead then a.closeGroup.closeBlock "th_close" "th"
      else a.closeGroup.closeBlock "td_close" "td") = r.held a := by
    split <;> exact (r.held_block rfl none).trans r.held_closeGroup
  exact hcell

end Reading

/-! ## Ledgers -/

/-- A reading with what is pending of the images that are open, the innermost first, of the code or
raw block that is open, and of the events to come.  What an event takes from what is pending, it
adds to what is read of the tokens.  Without raw markup only plain events are accounted for. -/
structure Ledger (α : Type) (raw : Bool) extends Reading α where
  pending : List Token → Option Token → List Event → List α
  pending_nil : pending [] none [] = []
  frame_event : ∀ {event : Event} {events : List Event}, event.isFrame = true →
    pending [] none (event :: events) = pending [] none events
  open_literal : ∀ {t : Token} {b : LiteralBlock} {e : Extent} {events : List Event},
    t.kind = b.kind → t.content = "" →
      pending [] (some t) events = pending [] none (.start b.toTag e :: events)
  literal_leaf : ∀ {t : Token} {l : Leaf} {e : Extent} {events : List Event},
    (raw = false → showsContent t.kind = true) → l.isLiteral = true →
      (raw = true ∨ (Event.leaf l e).IsPlain) →
        pending [] (some { t with content := t.content ++ l.verbatim }) events =
          pending [] (some t) (.leaf l e :: events)
  close_literal : ∀ {t : Token} {b : LiteralBlock} {events : List Event},
    own t ++ pending [] none events = pending [] (some t) (.stop b.toTag :: events)
  emit_shown : ∀ {event : Event} {t : Token} {events : List Event}, Emits event t →
    (raw = true ∨ event.IsPlain) →
      own t ++ pending [] none events = pending [] none (event :: events)
  emit_inside : ∀ {event : Event} {t image : Token} {rest : List Token} {events : List Event},
    Emits event t → (raw = true ∨ event.IsPlain) →
      pending ({ image with children := some (image.inner ++ [t]) } :: rest) none events =
        pending (image :: rest) none (event :: events)
  open_image : ∀ {t : Token} {images : List Token} {target : Target} {e : Extent}
    {events : List Event}, t.inner = [] →
      pending (t :: images) none events = pending images none (.start (.image target) e :: events)
  image_shown : ∀ {image : Token} {target : Target} {events : List Event}, image.kind = "image" →
    own image ++ pending [] none events = pending [image] none (.stop (.image target) :: events)
  image_inside : ∀ {image outer : Token} {rest : List Token} {target : Target}
    {events : List Event}, image.kind = "image" →
      pending ({ outer with children := some (outer.inner ++ [image]) } :: rest) none events =
        pending (image :: outer :: rest) none (.stop (.image target) :: events)

/-- Code and raw blocks hold nothing but text. -/
def Spot.isLiteral : Spot → Bool
  | .literal _ => true
  | _ => false

theorem Spot.isLiteral_of_takesBlocks {p : Spot} (h : p.takesBlocks = true) :
    p.isLiteral = false := by
  cases p with
  | literal b => cases h
  | _ => rfl

/-- No image and no code or raw block is open. -/
structure Assembly.Rests (a : Assembly) : Prop where
  images : a.images = []
  literal : a.literal = none

theorem Assembly.Holds.rests {a : Assembly} {cs : List Container} {p : Spot}
    (h : Holds ⟨cs, p, []⟩ a) (hp : p.isLiteral = false) : a.Rests := by
  rcases h with ⟨table, h⟩
  rcases hrole : p.role with _ | implicit | _
  · simp only [hrole] at h
    exact ⟨h.1.images, h.1.literal⟩
  · simp only [hrole] at h
    exact ⟨List.length_eq_zero_iff.1 h.images, h.literal⟩
  · cases p with
    | literal b => cases hp
    | _ => cases hrole

namespace Ledger

variable {α : Type} {raw : Bool} (L : Ledger α raw)

/-- What is to be read of the tokens in the end, when events are still to come. -/
def owed (a : Assembly) (events : List Event) : List α :=
  L.held a ++ L.pending a.images a.literal events

variable {a a' : Assembly} {t : Token} {e : Extent} {event : Event} {events : List Event}

section Gathering

variable {table : TableState} {bs : List Bracket} {implicit : Bool} {spans : List Span}

theorem owed_push (h : a.Gathers table bs implicit spans) (hemits : Emits event t)
    (hevent : raw = true ∨ event.IsPlain) :
    L.owed (a.pushInline t) events = L.owed a (event :: events) := by
  have hliteral : (a.pushInline t).literal = none := by
    unfold pushInline
    split <;> exact h.literal
  rw [owed, owed, hliteral, h.literal]
  rcases himages : a.images with _ | ⟨image, rest⟩
  · rcases h.group with ⟨g, hg, -⟩
    have hnone : (a.pushInline t).images = [] := by
      rw [pushInline, himages]
    rw [L.held_pushInline hg himages, hnone, List.append_assoc, L.emit_shown hemits hevent]
  · have hheld : L.held (a.pushInline t) = L.held a := by
      rw [pushInline, himages]
      rfl
    have hpushed : (a.pushInline t).images =
        { image with children := some (image.inner ++ [t]) } :: rest := by
      rw [pushInline, himages]
    rw [hheld, hpushed, L.emit_inside hemits hevent]

theorem owed_inlineToken (h : (a.ensureGroup e).Gathers table bs implicit spans)
    (hliteral : a.literal = none) (hemits : Emits event t) (hevent : raw = true ∨ event.IsPlain) :
    L.owed (a.inlineToken t e) events = L.owed a (event :: events) := by
  have himages : ((a.ensureGroup e).cover e).images = a.images := images_ensureGroup a e
  rw [inlineToken, L.owed_push (h.cover e) hemits hevent, owed, owed, L.held_cover,
    L.held_ensureGroup, himages, (h.cover e).literal, hliteral]

/-- What stands in an image is still to come at its start. -/
theorem owed_openImage (h : (a.ensureGroup e).Gathers table bs implicit spans)
    (hliteral : a.literal = none) (target : Target) :
    L.owed (a.start (.image target) e) events =
      L.owed a (.start (.image target) e :: events) := by
  have hinner : (withTitle ((Token.setAttr { kind := "image", tag := "img", children := some [] }
      "src" target.destination).setAttr "alt" "") target).inner = [] := by
    unfold withTitle
    split <;> rfl
  have hheld : L.held (a.start (.image target) e) = L.held a := L.held_ensureGroup
  have hnone : (a.start (.image target) e).literal = none := h.literal
  rw [owed, owed, hheld, hnone, hliteral, ← images_ensureGroup a e]
  exact congrArg _ (L.open_image hinner)

/-- The end of an image: it goes to the image around it, or else to the inline content. -/
theorem owed_closeImage {target : Target}
    (h : a.Gathers table bs implicit (.image target :: spans))
    (hkinds : ∀ t ∈ a.images, t.kind = "image") :
    L.owed a.closeImage events = L.owed a (.stop (.image target) :: events) := by
  rcases himages : a.images with _ | ⟨image, rest⟩
  · have hlength := h.images
    rw [himages, Span.imageCount, List.countP_cons_of_pos rfl] at hlength
    cases hlength
  · have hkind := hkinds image (himages ▸ List.mem_cons_self)
    rw [owed, owed, h.closeImage.literal, h.literal, himages, closeImage, himages]
    rcases rest with _ | ⟨outer, rest⟩
    · rcases h.group with ⟨g, hg, -⟩
      have hheld : L.held ({ a with images := [] }.pushInline image) = L.held a ++ L.own image :=
        L.held_pushInline (a := { a with images := [] }) hg rfl
      rw [hheld, List.append_assoc, ← L.image_shown hkind]
      rfl
    · exact congrArg _ (L.image_inside hkind)

end Gathering

section Blocks

variable {s s' : Scope} {cs cs' : List Container} {p p' : Spot}

/-- Outside code and raw blocks a frame may change anything but what is held. -/
theorem owed_frame (h : Holds ⟨cs, p, []⟩ a) (h' : Holds ⟨cs', p', []⟩ a')
    (hp : p.isLiteral = false) (hp' : p'.isLiteral = false) (hheld : L.held a' = L.held a)
    (hevent : event.isFrame = true) : L.owed a' events = L.owed a (event :: events) := by
  have hrests := h.rests hp
  have hrests' := h'.rests hp'
  rw [owed, owed, hheld, hrests.images, hrests.literal, hrests'.images, hrests'.literal,
    L.frame_event hevent]

theorem owed_literal (h : Holds ⟨cs, p, []⟩ a) (hp : p.takesBlocks = true) (b : LiteralBlock) :
    L.owed (a.start b.toTag e) events = L.owed a (.start b.toTag e :: events) := by
  rcases h.closeImplicit hp with ⟨table, hidle⟩
  have hrests := h.rests (Spot.isLiteral_of_takesBlocks hp)
  have hopen : ∀ t : Token, t.kind = b.kind → t.content = "" →
      L.owed (a.openLiteral t e) events = L.owed a (.start b.toTag e :: events) := by
    intro t hkind hcontent
    have hheld : L.held (a.openLiteral t e) = L.held a := L.held_closeImplicit
    have himages : (a.openLiteral t e).images = [] := hidle.images
    rw [owed, owed, hheld, himages, hrests.images, hrests.literal]
    exact congrArg _ (L.open_literal hkind hcontent)
  cases b with
  | raw => exact hopen _ rfl rfl
  | code info => cases info <;> exact hopen _ rfl rfl

theorem owed_literalLeaf {b : LiteralBlock} {l : Leaf} (h : Holds ⟨cs, .literal b, []⟩ a)
    (hmade : a.IsMade raw) (hl : l.isLiteral = true)
    (hevent : raw = true ∨ (Event.leaf l e).IsPlain) :
    L.owed (a.leaf l e) events = L.owed a (.leaf l e :: events) := by
  rcases h with ⟨table, hfills, -⟩
  rcases hfills.literal with ⟨t, ht, -, -⟩
  have htext : ∀ (text : String) (b : Assembly), (a.literalText? text).getD b =
      { a with literal := some { t with content := t.content ++ text } } := by
    intro text b
    rw [literalText?, ht]
    rfl
  -- The text moves from what is to come into the content of the open block.
  have hleaf : a.leaf l e =
      { a with literal := some { t with content := t.content ++ l.verbatim } } := by
    cases l with
    | text content => exact htext _ _
    | raw content => exact htext _ _
    | _ => cases hl
  rw [hleaf, owed, owed, ht, hfills.images, ← L.literal_leaf (hmade.literal t ht).2 hl hevent]
  rfl

theorem owed_literalEnd {b : LiteralBlock} (h : Holds ⟨cs, .literal b, []⟩ a) :
    L.owed (a.stop b.toTag) events = L.owed a (.stop b.toTag :: events) := by
  rcases h with ⟨table, hfills, -⟩
  rcases hfills.literal with ⟨t, ht, -, hkind⟩
  have hclosed : a.stop b.toTag = a.closeLiteral := by
    cases b <;> rfl
  have hidle := hfills.closeLiteral
  rw [hclosed, owed, owed, L.held_closeLiteral hfills.group ht (by simpa [isInline] using hkind),
    hidle.literal, hidle.images, hfills.images, ht, List.append_assoc, L.close_literal]

theorem owed_inline {l : Leaf} (h : Holds s a) (hs : Scope.Gathers s s') (hl : l.isInline = true)
    (hevent : raw = true ∨ (Event.leaf l e).IsPlain) :
    L.owed (a.leaf l e) events = L.owed a (.leaf l e :: events) := by
  rcases h.ensureGroup hs e with ⟨table, implicit, -, hgathers⟩
  have hliteral := h.literal_eq_none hs
  cases l with
  | text content =>
      rw [leaf, literalText?, hliteral]
      exact L.owed_inlineToken hgathers hliteral (.text content e) hevent
  | code content => exact L.owed_inlineToken hgathers hliteral (.code content e) hevent
  | inlineRaw content => exact L.owed_inlineToken hgathers hliteral (.inlineRaw content e) hevent
  | softBreak => exact L.owed_inlineToken hgathers hliteral (.softBreak e) hevent
  | hardBreak => exact L.owed_inlineToken hgathers hliteral (.hardBreak e) hevent
  | task done => exact L.owed_inlineToken hgathers hliteral (.task done e) hevent
  | raw content => cases hl
  | rule => cases hl

theorem owed_span {span : Span} (h : Holds s a) (hs : Scope.Gathers s s') :
    L.owed (a.start span.toTag e) events = L.owed a (.start span.toTag e :: events) := by
  rcases h.ensureGroup hs e with ⟨table, implicit, -, hgathers⟩
  have hliteral := h.literal_eq_none hs
  cases span with
  | emphasis => exact L.owed_inlineToken hgathers hliteral (.emphasis e) (Or.inr trivial)
  | strong => exact L.owed_inlineToken hgathers hliteral (.strong e) (Or.inr trivial)
  | strikethrough => exact L.owed_inlineToken hgathers hliteral (.strikethrough e) (Or.inr trivial)
  | link target => exact L.owed_inlineToken hgathers hliteral (.link target e) (Or.inr trivial)
  | image target => exact L.owed_openImage hgathers hliteral target

theorem owed_spanEnd {span : Span} {spans : List Span} (h : Holds ⟨cs, p, span :: spans⟩ a)
    (hkinds : ∀ t ∈ a.images, t.kind = "image") :
    L.owed (a.stop span.toTag) events = L.owed a (.stop span.toTag :: events) := by
  rcases h.gathers_of_spans with ⟨table, implicit, -, hgathers⟩
  cases span with
  | emphasis => exact L.owed_push hgathers .emphasisEnd (Or.inr trivial)
  | strong => exact L.owed_push hgathers .strongEnd (Or.inr trivial)
  | strikethrough => exact L.owed_push hgathers .strikethroughEnd (Or.inr trivial)
  | link target => exact L.owed_push hgathers (.linkEnd target) (Or.inr trivial)
  | image target => exact L.owed_closeImage hgathers hkinds

/-- Each event that may follow keeps what is owed. -/
theorem owed_step (h : Holds s a) (hmade : a.IsMade raw) (hs : Scope.Follows s event s')
    (hevent : raw = true ∨ event.IsPlain) (events : List Event) :
    L.owed (a.step event) events = L.owed a (event :: events) := by
  have hnext := h.step hs
  cases hs with
  | container c hp =>
      have hplain := Spot.isLiteral_of_takesBlocks hp
      exact L.owed_frame h hnext hplain rfl (L.held_container a c _) (by cases c <;> rfl)
  | containerEnd c hp =>
      have hplain := Spot.isLiteral_of_takesBlocks hp
      exact L.owed_frame h hnext hplain rfl (L.held_containerEnd a c) (by cases c <;> rfl)
  | text b hp =>
      rcases h.closeImplicit hp with ⟨table, hidle⟩
      have hplain := Spot.isLiteral_of_takesBlocks hp
      exact L.owed_frame h hnext hplain rfl (L.held_text hidle.group b _) (by cases b <;> rfl)
  | textEnd b => exact L.owed_frame h hnext rfl rfl (L.held_textEnd a b) (by cases b <;> rfl)
  | literal b hp => exact L.owed_literal h hp b
  | literalLeaf b hl => exact L.owed_literalLeaf h hmade hl hevent
  | literalEnd b => exact L.owed_literalEnd h
  | rule hp =>
      have hplain := Spot.isLiteral_of_takesBlocks hp
      exact L.owed_frame h hnext hplain rfl (L.held_closeImplicit_block rfl _) rfl
  | table alignments => exact L.owed_frame h hnext rfl rfl (L.held_block rfl _) rfl
  | tableEnd alignments =>
      exact L.owed_frame h hnext rfl rfl (L.held_tableEnd a alignments) rfl
  | row r => exact L.owed_frame h hnext rfl rfl (L.held_row a r _) (by cases r <;> rfl)
  | rowEnd r => exact L.owed_frame h hnext rfl rfl (L.held_rowEnd a r) (by cases r <;> rfl)
  | cell r =>
      have hgroup : a.group = none := by
        rcases h with ⟨table, hidle, -⟩
        exact hidle.group
      exact L.owed_frame h hnext rfl rfl (L.held_cell hgroup _) rfl
  | cellEnd r => exact L.owed_frame h hnext rfl rfl (L.held_cellEnd a) rfl
  | inline hl hgathers => exact L.owed_inline h hgathers hl hevent
  | span span hgathers => exact L.owed_span h hgathers
  | spanEnd span => exact L.owed_spanEnd h fun t ht => (hmade.images t ht).2

/-- In the end all that was owed is held. -/
theorem owed_run {events : List Event} (h : Holds s a) (hmade : a.IsMade raw)
    (hs : Scope.Path s events s') (hevents : ∀ event ∈ events, raw = true ∨ event.IsPlain) :
    L.owed (events.foldl step a) [] = L.owed a events := by
  induction hs generalizing a with
  | nil s => rfl
  | cons hfollows _ ih =>
      rcases List.forall_mem_cons.1 hevents with ⟨hevent, hevents⟩
      have hlater := ih (h.step hfollows) (hmade.step hevent) hevents
      exact hlater.trans (L.owed_step h hmade hfollows hevent _)

end Blocks

/-- Of the tokens of a well-nested document that is read which was pending of its events. -/
theorem flatMap_assemble (source : String) {events : List Event} (hnested : WellNested events)
    (hevents : ∀ event ∈ events, raw = true ∨ event.IsPlain) :
    (assemble source events).flatMap L.ofToken = L.pending [] none events := by
  have hstart := Holds.ofSource source
  rcases hstart.run hnested with ⟨table, hidle, -⟩
  have howed := L.owed_run hstart (IsMade.ofSource raw source) hnested hevents
  -- Nothing is held at the start, and nothing is open at the end.
  have hnothing : L.owed (Assembly.ofSource source) events = L.pending [] none events := rfl
  rw [hnothing, owed, Reading.held, hidle.group, hidle.literal, hidle.images, L.pending_nil]
    at howed
  rw [assemble, finish, hidle.closeImplicit_eq, hidle.closeGroup_eq, ← howed]
  simp [Reading.ofGroup]

end Ledger
end Markdown
end RenderForest
