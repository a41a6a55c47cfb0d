import RenderForest.Markdown.Assembly
import RenderForest.Proofs.Compile.Sights
import RenderForest.Proofs.Markdown.Payload
import RenderForest.Proofs.Tree.Entries
/-!
# MadeTokens — the tokens that events make

Whatever the events are, their tokens have the shapes of blocks and spans, no extra data, and none
of the attributes that the annotation keeps its books with.  Raw markup comes of raw events only.
This file defines:

* `Token.IsUnmarked`, that a token has no extra data and no bookkeeping attribute;
* `Token.AllMade`, that a token and all tokens inside it are such as events make;
* `Assembly.IsMade`, that all tokens of an assembly are, those at work included;

and shows in `isFinished_assemble` that the tokens of every document are.  Those at the top are
unmarked blocks, and those of plain events are plain.
-/

namespace RenderForest

/-! ## Unmarked tokens -/

namespace Token

/-- A token has no extra data, and no attribute with the name of a bookkeeping attribute. -/
structure IsUnmarked (t : Token) : Prop where
  details : t.details = none
  attrs : ∀ a ∈ t.attrs, isSourceAttr a.1 = false

variable {t u : Token}

theorem isUnmarked_of_nil (hdetails : t.details = none) (hattrs : t.attrs = []) :
    t.IsUnmarked := by
  refine ⟨hdetails, ?_⟩
  rw [hattrs]
  exact List.forall_mem_nil _

theorem IsUnmarked.setAttr (h : t.IsUnmarked) {name : String} (hname : isSourceAttr name = false)
    (value : String) : (t.setAttr name value).IsUnmarked := by
  refine ⟨h.details, ?_⟩
  intro a ha
  rcases Attributes.mem_setEntries ha with rfl | ha
  · exact hname
  · exact h.attrs a ha

end Token

namespace Markdown

/-! ## Shapes -/

/-- The shapes of tokens but for headings, inline content and raw markup. -/
def plainShapes : List (String × String × Nesting) :=
  [("paragraph_open", "p", .opening), ("paragraph_close", "p", .closing),
    ("blockquote_open", "blockquote", .opening), ("blockquote_close", "blockquote", .closing),
    ("fence", "code", .selfClosing), ("code_block", "code", .selfClosing),
    ("ordered_list_open", "ol", .opening), ("ordered_list_close", "ol", .closing),
    ("bullet_list_open", "ul", .opening), ("bullet_list_close", "ul", .closing),
    ("list_item_open", "li", .opening), ("list_item_close", "li", .closing),
    ("table_open", "table", .opening), ("table_close", "table", .closing),
    ("thead_open", "thead", .opening), ("thead_close", "thead", .closing),
    ("tbody_open", "tbody", .opening), ("tbody_close", "tbody", .closing),
    ("tr_open", "tr", .opening), ("tr_close", "tr", .closing),
    ("th_open", "th", .opening), ("th_close", "th", .closing),
    ("td_open", "td", .opening), ("td_close", "td", .closing),
    ("hr", "hr", .selfClosing),
    ("em_open", "em", .opening), ("em_close", "em", .closing),
    ("strong_open", "strong", .opening), ("strong_close", "strong", .closing),
    ("s_open", "s", .opening), ("s_close", "s", .closing),
    ("link_open", "a", .opening), ("link_close", "a", .closing),
    ("image", "img", .selfClosing), ("text", "", .selfClosing),
    ("code_inline", "code", .selfClosing),
    ("softbreak", "br", .selfClosing), ("hardbreak", "br", .selfClosing)]

def rawShapes : List (String × String × Nesting) :=
  [("html_block", "", .selfClosing), ("html_inline", "", .selfClosing)]

/-- The shapes of the tokens that events make, inline content apart; `raw` tells whether raw markup
is among them. -/
inductive IsMadeShape (raw : Bool) : String × String × Nesting → Prop where
  | plain {shape} : plainShapes.contains shape = true → IsMadeShape raw shape
  | headingOpen (level : Nat) :
      IsMadeShape raw ("heading_open", Assembly.headingTag level, .opening)
  | headingClose (level : Nat) :
      IsMadeShape raw ("heading_close", Assembly.headingTag level, .closing)
  | raw {shape} : raw = true → rawShapes.contains shape = true → IsMadeShape raw shape

variable {raw : Bool} {shape : String × String × Nesting}

/-- Tags of headings are neither that of an image nor that of a comment. -/
theorem isPlainShape_heading (level : Nat) (kind : String) (nesting : Nesting) :
    Token.isPlainShape kind (Assembly.headingTag level) nesting =
      Token.isPlainShape kind "h1" nesting := by
  rw [Token.isPlainShape, Token.isPlainShape, Assembly.headingTag_bne level "img" (by decide),
    Assembly.headingTag_bne level commentTag (by decide)]
  rfl

theorem IsMadeShape.isPlainShape (h : IsMadeShape false shape) :
    Token.isPlainShape shape.1 shape.2.1 shape.2.2 = true := by
  have hplain : ∀ s ∈ plainShapes, Token.isPlainShape s.1 s.2.1 s.2.2 = true := by decide
  cases h with
  | plain hmem => exact hplain _ (List.contains_iff_mem.1 hmem)
  | headingOpen level => exact (isPlainShape_heading level _ _).trans rfl
  | headingClose level => exact (isPlainShape_heading level _ _).trans rfl
  | raw hraw => cases hraw

end Markdown

/-! ## Tokens that are made -/

namespace Token

open Markdown

/-- An unmarked token of a shape that events make. -/
structure IsMade (raw : Bool) (t : Token) : Prop extends IsUnmarked t where
  shape : IsMadeShape raw t.shape

/-- A token and all tokens inside it are such as events make. -/
def AllMade (raw : Bool) (t : Token) : Prop :=
  ∀ u ∈ t.deep, u.IsMade raw

/-- A token at the top: a block, or the inline content of one. -/
structure IsFinished (raw : Bool) (t : Token) : Prop extends IsUnmarked t where
  block : t.block = true
  shape : IsMadeShape raw t.shape ∨ t.shape = ("inline", "", .selfClosing)
  inner : ∀ u ∈ t.inner, u.AllMade raw

variable {raw : Bool} {t u : Token}

theorem allMade_iff : t.AllMade raw ↔ t.IsMade raw ∧ ∀ u ∈ t.inner, u.AllMade raw :=
  forall_mem_deep_iff

/-- A token without attributes and tokens inside is made if its shape is. -/
theorem allMade_of_shape (h : IsMadeShape raw t.shape) (hdetails : t.details = none)
    (hattrs : t.attrs = []) (hinner : t.inner = []) : t.AllMade raw := by
  refine allMade_iff.2 ⟨⟨isUnmarked_of_nil hdetails hattrs, h⟩, ?_⟩
  rw [hinner]
  exact List.forall_mem_nil _

namespace AllMade

theorem congr (h : t.AllMade raw) (hshape : u.shape = t.shape) (hdetails : u.details = t.details)
    (hattrs : u.attrs = t.attrs) (hinner : u.inner = t.inner) : u.AllMade raw := by
  rcases allMade_iff.1 h with ⟨hown, hall⟩
  refine allMade_iff.2 ⟨⟨⟨hdetails.trans hown.details, ?_⟩, ?_⟩, ?_⟩
  · rw [hattrs]
    exact hown.attrs
  · rw [hshape]
    exact hown.shape
  · rw [hinner]
    exact hall

theorem setAttr (h : t.AllMade raw) {name : String} (hname : isSourceAttr name = false)
    (value : String) : (t.setAttr name value).AllMade raw := by
  rcases allMade_iff.1 h with ⟨hown, hall⟩
  exact allMade_iff.2 ⟨⟨hown.toIsUnmarked.setAttr hname value, hown.shape⟩, hall⟩

theorem withTitle (h : t.AllMade raw) (target : Target) :
    (Assembly.withTitle t target).AllMade raw := by
  unfold Assembly.withTitle
  split
  · exact h
  · exact h.setAttr (by decide) _

theorem isFinished (h : t.AllMade raw) (hblock : t.block = true) : t.IsFinished raw := by
  rcases allMade_iff.1 h with ⟨hown, hall⟩
  exact ⟨hown.toIsUnmarked, hblock, Or.inl hown.shape, hall⟩

theorem allPlain (h : t.AllMade false) : t.AllPlain :=
  fun u hu => isPlain_iff.2 (h u hu).shape.isPlainShape

end AllMade

namespace IsFinished

theorem allPlain (h : t.IsFinished false) : t.AllPlain := by
  refine allPlain_iff.2 ⟨isPlain_iff.2 ?_, fun u hu => (h.inner u hu).allPlain⟩
  rcases h.shape with hshape | hshape
  · exact hshape.isPlainShape
  · exact congrArg (fun s => isPlainShape s.1 s.2.1 s.2.2) hshape

end IsFinished
end Token

/-! ## Assemblies -/

namespace Markdown
namespace Assembly

open Token

/-- All tokens of an assembly are made of events; those of open images are images, and that of an
open block shows its content unless it is raw markup. -/
structure IsMade (raw : Bool) (a : Assembly) : Prop where
  tokens : ∀ t ∈ a.tokens, t.IsFinished raw
  group : ∀ g, a.group = some g → ∀ t ∈ g.tokens, t.AllMade raw
  images : ∀ t ∈ a.images, t.AllMade raw ∧ t.kind = "image"
  literal : ∀ t, a.literal = some t →
    t.AllMade raw ∧ (raw = false → showsContent t.kind = true)

/-- A token of a shape of its own, without attributes. -/
theorem allMade_plain {raw : Bool} {t : Token} (h : plainShapes.contains t.shape = true)
    (hdetails : t.details = none) (hattrs : t.attrs = []) (hinner : t.inner = []) :
    t.AllMade raw :=
  allMade_of_shape (.plain h) hdetails hattrs hinner

namespace IsMade

variable {raw : Bool} {a : Assembly} {t : Token} {e : Extent}

theorem block (h : a.IsMade raw) (ht : t.AllMade raw) (map : Option (Nat × Nat)) :
    (a.block t map).IsMade raw := by
  have hadded : { t with level := levelOf a.level t.nesting, map, block := true }.AllMade raw :=
    ht.congr rfl rfl rfl rfl
  exact ⟨List.forall_mem_cons.2 ⟨hadded.isFinished rfl, h.tokens⟩, h.group, h.images, h.literal⟩

theorem openBlock (h : a.IsMade raw) {kind tag : String} (e : Extent)
    (hshape : plainShapes.contains (kind, tag, .opening) = true) :
    (a.openBlock kind tag e).IsMade raw :=
  h.block (allMade_plain (t := { kind, tag, nesting := .opening }) hshape rfl rfl rfl) _

theorem closeBlock (h : a.IsMade raw) {kind tag : String}
    (hshape : plainShapes.contains (kind, tag, .closing) = true) :
    (a.closeBlock kind tag).IsMade raw :=
  h.block (allMade_plain (t := { kind, tag, nesting := .closing }) hshape rfl rfl rfl) _

theorem closeGroup (h : a.IsMade raw) : a.closeGroup.IsMade raw := by
  unfold Assembly.closeGroup
  split
  · exact h
  · rename_i g hg
    refine ⟨List.forall_mem_cons.2 ⟨?_, h.tokens⟩, ?_, h.images, h.literal⟩
    · refine ⟨isUnmarked_of_nil rfl rfl, rfl, Or.inr rfl, ?_⟩
      intro u hu
      exact h.group g hg u (List.mem_reverse.1 hu)
    · intro g hg
      cases hg

theorem closeImplicit (h : a.IsMade raw) : a.closeImplicit.IsMade raw := by
  unfold Assembly.closeImplicit
  split
  · split
    · exact h.closeGroup.block (allMade_plain rfl rfl rfl rfl) none
    · exact h
  · exact h

theorem openGroup (h : a.IsMade raw) (implicit : Bool) : (a.openGroup implicit).IsMade raw := by
  refine ⟨h.tokens, ?_, h.images, h.literal⟩
  intro g hg t ht
  cases hg
  cases ht

theorem ensureGroup (h : a.IsMade raw) (e : Extent) : (a.ensureGroup e).IsMade raw := by
  unfold Assembly.ensureGroup
  split
  · exact h
  · exact (h.block (allMade_plain rfl rfl rfl rfl) _).openGroup true

theorem cover (h : a.IsMade raw) (e : Extent) : (a.cover e).IsMade raw := by
  refine ⟨h.tokens, ?_, h.images, h.literal⟩
  intro g hg t ht
  rcases Option.map_eq_some_iff.1 hg with ⟨g', hg', rfl⟩
  exact h.group g' hg' t ht

theorem allMade_addInline {ts : List Token} (ht : t.AllMade raw) (hts : ∀ u ∈ ts, u.AllMade raw) :
    ∀ u ∈ addInline t ts, u.AllMade raw := by
  cases ts with
  | nil => exact List.forall_mem_cons.2 ⟨ht, hts⟩
  | cons last rest =>
      rw [addInline]
      split
      · rcases List.forall_mem_cons.1 hts with ⟨hlast, hrest⟩
        exact List.forall_mem_cons.2 ⟨hlast.congr rfl rfl rfl rfl, hrest⟩
      · exact List.forall_mem_cons.2 ⟨ht, hts⟩

theorem pushInline (h : a.IsMade raw) (ht : t.AllMade raw) : (a.pushInline t).IsMade raw := by
  unfold Assembly.pushInline
  split
  · -- The token goes into the innermost image.
    rename_i image rest himages
    have hall := h.images
    rw [himages] at hall
    rcases List.forall_mem_cons.1 hall with ⟨⟨himage, hkind⟩, hrest⟩
    refine ⟨h.tokens, h.group, List.forall_mem_cons.2 ⟨⟨?_, hkind⟩, hrest⟩, h.literal⟩
    rcases allMade_iff.1 himage with ⟨hown, hinner⟩
    refine allMade_iff.2 ⟨⟨⟨hown.details, hown.attrs⟩, hown.shape⟩, ?_⟩
    exact List.forall_mem_append.2 ⟨hinner, List.forall_mem_singleton.2 ht⟩
  · refine ⟨h.tokens, ?_, h.images, h.literal⟩
    intro g hg u hu
    rcases Option.map_eq_some_iff.1 hg with ⟨g', hg', rfl⟩
    have hpushed : { t with level := levelOf g'.level t.nesting }.AllMade raw :=
      ht.congr rfl rfl rfl rfl
    exact allMade_addInline hpushed (h.group g' hg') u hu

theorem inlineToken (h : a.IsMade raw) (ht : t.AllMade raw) (e : Extent) :
    (a.inlineToken t e).IsMade raw :=
  ((h.ensureGroup e).cover e).pushInline ht

theorem setImages {images : List Token} (h : a.IsMade raw)
    (himages : ∀ t ∈ images, t.AllMade raw ∧ t.kind = "image") : { a with images }.IsMade raw :=
  ⟨h.tokens, h.group, himages, h.literal⟩

theorem setCells (h : a.IsMade raw) (alignments : List Mark.Alignment) (cell : Nat)
    (inHead bodyOpen : Bool) : { a with alignments, cell, inHead, bodyOpen }.IsMade raw :=
  ⟨h.tokens, h.group, h.images, h.literal⟩

theorem openLiteral (h : a.IsMade raw) (ht : t.AllMade raw)
    (hkind : raw = false → showsContent t.kind = true) (e : Extent) :
    (a.openLiteral t e).IsMade raw := by
  refine ⟨h.closeImplicit.tokens, h.closeImplicit.group, h.closeImplicit.images, ?_⟩
  intro u hu
  cases hu
  exact ⟨ht.congr rfl rfl rfl rfl, hkind⟩

theorem closeLiteral (h : a.IsMade raw) : a.closeLiteral.IsMade raw := by
  unfold Assembly.closeLiteral
  split
  · exact h
  · rename_i t ht
    have hclosed : { t with level := a.level, block := true }.AllMade raw :=
      (h.literal t ht).1.congr rfl rfl rfl rfl
    refine ⟨List.forall_mem_cons.2 ⟨hclosed.isFinished rfl, h.tokens⟩, h.group, h.images, ?_⟩
    intro u hu
    cases hu

/-- A text goes into the block that is open, or does what it does elsewhere. -/
theorem literalText (h : a.IsMade raw) (text : String) {b : Assembly} (hb : b.IsMade raw) :
    ((a.literalText? text).getD b).IsMade raw := by
  rcases htext : a.literalText? text with _ | a'
  · exact hb
  · rcases Option.map_eq_some_iff.1 htext with ⟨t, ht, rfl⟩
    refine ⟨h.tokens, h.group, h.images, ?_⟩
    intro u hu
    cases hu
    exact ⟨(h.literal t ht).1.congr rfl rfl rfl rfl, (h.literal t ht).2⟩

/-! ## Events -/

theorem start (h : a.IsMade raw) {tag : Tag} (htag : raw = true ∨ tag ≠ .raw) (e : Extent) :
    (a.start tag e).IsMade raw := by
  cases tag with
  | raw =>
      have hraw : raw = true := htag.resolve_right fun hne => hne rfl
      refine h.openLiteral (allMade_of_shape (.raw hraw rfl) rfl rfl rfl) ?_ e
      intro hplain
      rw [hraw] at hplain
      cases hplain
  | paragraph => exact (h.closeImplicit.openBlock e rfl).openGroup false
  | heading level =>
      refine (h.closeImplicit.block ?_ _).openGroup false
      exact allMade_of_shape (.headingOpen level) rfl rfl rfl
  | quote => exact h.closeImplicit.block (allMade_plain rfl rfl rfl rfl) _
  | code info =>
      cases info with
      | none => exact h.openLiteral (allMade_plain rfl rfl rfl rfl) (fun _ => rfl) e
      | some info => exact h.openLiteral (allMade_plain rfl rfl rfl rfl) (fun _ => rfl) e
  | list number =>
      cases number with
      | none => exact h.closeImplicit.openBlock e rfl
      | some n =>
          refine h.closeImplicit.block ?_ _
          split
          · exact allMade_plain rfl rfl rfl rfl
          · exact (allMade_plain rfl rfl rfl rfl).setAttr (by decide) _
  | item => exact h.closeImplicit.openBlock e rfl
  | table alignments => exact (h.setCells alignments a.cell a.inHead false).openBlock e rfl
  | tableHead =>
      have hhead : ({ a with inHead := true, cell := 0 }.openBlock "thead_open" "thead" e).IsMade
          raw := (h.setCells a.alignments 0 true a.bodyOpen).openBlock e rfl
      exact hhead.openBlock e rfl
  | tableRow =>
      -- The first row behind the head opens the body.
      have hbody : (if a.bodyOpen then a
          else { a with bodyOpen := true }.openBlock "tbody_open" "tbody" e).IsMade raw := by
        split
        · exact h
        · exact (h.setCells a.alignments a.cell a.inHead true).openBlock e rfl
      exact (hbody.setCells _ 0 _ _).openBlock e rfl
  | tableCell =>
      -- A cell may be aligned, which is told by a style.
      have hcell : ∀ (t : Token) (style : Option String), t.AllMade raw →
          ((style.map (t.setAttr "style")).getD t).AllMade raw := by
        intro t style ht
        cases style with
        | none => exact ht
        | some style => exact ht.setAttr (by decide) style
      refine (h.block (hcell _ _ ?_) _).openGroup false
      split <;> exact allMade_plain rfl rfl rfl rfl
  | emphasis => exact h.inlineToken (allMade_plain rfl rfl rfl rfl) e
  | strong => exact h.inlineToken (allMade_plain rfl rfl rfl rfl) e
  | strikethrough => exact h.inlineToken (allMade_plain rfl rfl rfl rfl) e
  | link target =>
      have hlink : (Token.setAttr { kind := "link_open", tag := "a", nesting := .opening } "href"
          target.destination).AllMade raw := (allMade_plain rfl rfl rfl rfl).setAttr (by decide) _
      exact h.inlineToken (hlink.withTitle target) e
  | image target =>
      have hgroup := h.ensureGroup e
      have himage : ((Token.setAttr { kind := "image", tag := "img", children := some [] } "src"
          target.destination).setAttr "alt" "").AllMade raw :=
        ((allMade_plain rfl rfl rfl rfl).setAttr (by decide) _).setAttr (by decide) _
      refine hgroup.setImages (List.forall_mem_cons.2 ⟨⟨himage.withTitle target, ?_⟩, ?_⟩)
      · unfold withTitle
        split <;> rfl
      · exact hgroup.images

theorem stop (h : a.IsMade raw) (tag : Tag) : (a.stop tag).IsMade raw := by
  cases tag with
  | paragraph => exact h.closeGroup.closeBlock rfl
  | heading level =>
      exact h.closeGroup.block (allMade_of_shape (.headingClose level) rfl rfl rfl) _
  | quote => exact h.closeImplicit.closeBlock rfl
  | code info => exact h.closeLiteral
  | raw => exact h.closeLiteral
  | list number =>
      cases number with
      | none => exact h.closeImplicit.closeBlock rfl
      | some n => exact h.closeImplicit.closeBlock rfl
  | item => exact h.closeImplicit.closeBlock rfl
  | table alignments =>
      have hbody : (if a.bodyOpen then a.closeBlock "tbody_close" "tbody" else a).IsMade raw := by
        split
        · exact h.closeBlock rfl
        · exact h
      exact hbody.closeBlock rfl
  | tableHead =>
      have hrow : (a.closeBlock "tr_close" "tr").IsMade raw := h.closeBlock rfl
      have hhead : ((a.closeBlock "tr_close" "tr").closeBlock "thead_close" "thead").IsMade raw :=
        hrow.closeBlock rfl
      exact hhead.setCells _ _ false _
  | tableRow => exact h.closeBlock rfl
  | tableCell =>
      have hcell : (if a.closeGroup.inHead then a.closeGroup.closeBlock "th_close" "th"
          else a.closeGroup.closeBlock "td_close" "td").IsMade raw := by
        split <;> exact h.closeGroup.closeBlock rfl
      exact hcell.setCells _ _ _ _
  | emphasis => exact h.pushInline (allMade_plain rfl rfl rfl rfl)
  | strong => exact h.pushInline (allMade_plain rfl rfl rfl rfl)
  | strikethrough => exact h.pushInline (allMade_plain rfl rfl rfl rfl)
  | link target => exact h.pushInline (allMade_plain rfl rfl rfl rfl)
  | image target =>
      change (a.closeImage).IsMade raw
      unfold Assembly.closeImage
      split
      · exact h
      · rename_i image rest himages
        have hall := h.images
        rw [himages] at hall
        rcases List.forall_mem_cons.1 hall with ⟨himage, hrest⟩
        exact (h.setImages hrest).pushInline himage.1

theorem leaf (h : a.IsMade raw) {l : Leaf} {e : Extent}
    (hl : raw = true ∨ (Event.leaf l e).IsPlain) : (a.leaf l e).IsMade raw := by
  have hmarkup : ∀ content, ¬ (Event.leaf l e).IsPlain →
      (a.inlineToken { kind := "html_inline", content } e).IsMade raw :=
    fun content hnot =>
      h.inlineToken (allMade_of_shape (.raw (hl.resolve_right hnot) rfl) rfl rfl rfl) e
  cases l with
  | text content => exact h.literalText content (h.inlineToken (allMade_plain rfl rfl rfl rfl) e)
  | raw content => exact h.literalText content h
  | code content => exact h.inlineToken (allMade_plain rfl rfl rfl rfl) e
  | inlineRaw content => exact hmarkup content id
  | softBreak => exact h.inlineToken (allMade_plain rfl rfl rfl rfl) e
  | hardBreak => exact h.inlineToken (allMade_plain rfl rfl rfl rfl) e
  | task done => exact hmarkup _ id
  | rule => exact h.closeImplicit.block (allMade_plain rfl rfl rfl rfl) _

/-- Each event makes tokens of these shapes, and raw markup only if it may. -/
theorem step (h : a.IsMade raw) {event : Event} (hevent : raw = true ∨ event.IsPlain) :
    (a.step event).IsMade raw := by
  cases event with
  | start tag e =>
      refine h.start (hevent.imp_right ?_) e
      rintro hplain rfl
      exact hplain
  | stop tag => exact h.stop tag
  | leaf l e => exact h.leaf hevent

theorem ofSource (raw : Bool) (source : String) : (Assembly.ofSource source).IsMade raw := by
  refine ⟨?_, ?_, ?_, ?_⟩ <;> intro t ht <;> cases ht

end IsMade

/-! ## Documents -/

theorem isFinished_assemble (raw : Bool) (source : String) {events : List Event}
    (hevents : ∀ event ∈ events, raw = true ∨ event.IsPlain) :
    ∀ t ∈ assemble source events, t.IsFinished raw := by
  have hrun : (events.foldl Assembly.step (ofSource source)).IsMade raw :=
    List.foldlRecOn events _ (IsMade.ofSource raw source) fun _ ha event hmem =>
      ha.step (hevents event hmem)
  intro t ht
  exact hrun.closeImplicit.closeGroup.tokens t (List.mem_reverse.1 ht)

/-- Plain events make plain tokens. -/
theorem allPlain_assemble (source : String) {events : List Event}
    (hevents : ∀ event ∈ events, event.IsPlain) : ∀ t ∈ assemble source events, t.AllPlain :=
  fun t ht =>
    (isFinished_assemble false source (fun event h => Or.inr (hevents event h)) t ht).allPlain

/-- Whatever the events are, the tokens at the top are unmarked blocks. -/
theorem isUnmarked_assemble (source : String) (events : List Event) :
    ∀ t ∈ assemble source events, t.block = true ∧ t.IsUnmarked := by
  intro t ht
  have h := isFinished_assemble true source (fun _ _ => Or.inl rfl) t ht
  exact ⟨h.block, h.toIsUnmarked⟩

end Assembly

theorem isUnmarked_tokenize (d : Dialect) (source : String) :
    ∀ t ∈ tokenize d source, t.block = true ∧ t.IsUnmarked :=
  Assembly.isUnmarked_assemble source (events d source)

end Markdown
end RenderForest
