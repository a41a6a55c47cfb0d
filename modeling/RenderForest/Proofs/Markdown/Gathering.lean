import Mathlib.Data.List.Chain
import RenderForest.Markdown.Assembly
import RenderForest.Proofs.Markdown.Scope
import RenderForest.Proofs.Stream.Nested
/-!
# Gathering — what each action keeps of an assembly

An assembly stands between blocks, gathers inline content or fills a code or raw block.  In each
case it has left elements open: block elements in its tokens, and inline elements in the content
that it gathers, where what stands in an image does not count.  This file defines:

* `Token.AreApart`, that no two texts stand side by side, and `Token.IsSound`, what holds of a
  finished token;
* `Assembly.Idle`, `Assembly.Gathers` and `Assembly.Fills`, the three cases;

and shows what each action of the assembly makes of them.
-/

namespace RenderForest

/-! ## Tokens -/

namespace Token

/-- No two texts stand side by side. -/
def AreApart (tokens : List Token) : Prop :=
  tokens.IsChain fun s t => ¬ (s.kind = "text" ∧ t.kind = "text")

/-- A block token; one that holds inline content holds a nested stream without neighbouring
texts. -/
structure IsSound (t : Token) : Prop where
  block : t.block = true
  inline : t.kind = "inline" → ∃ inner, t.children = some inner ∧ IsNested inner ∧ AreApart inner

variable {t : Token} {ts : List Token} {b : Bracket}

theorem areApart_cons (h : AreApart ts) (ht : t.kind ≠ "text") : AreApart (t :: ts) := by
  cases ts with
  | nil => exact .singleton t
  | cons last rest => exact h.cons_cons fun both => ht both.1

theorem AreApart.setContent (h : AreApart (t :: ts)) (content : String) :
    AreApart ({ t with content } :: ts) := by
  cases ts with
  | nil => exact .singleton _
  | cons last rest =>
      have hpair := List.isChain_cons_cons.1 h
      exact hpair.2.cons_cons hpair.1

theorem AreApart.reverse (h : AreApart ts) : AreApart ts.reverse := by
  apply List.isChain_reverse.2
  exact h.imp fun _ _ hpair both => hpair both.symm

/-- Kinds with an underscore are not the kinds of single tokens. -/
theorem ne_of_underscore (name rest : String) {kind : String} (h : '_' ∉ kind.toList) :
    name ++ "_" ++ rest ≠ kind := by
  intro heq
  apply h
  rw [← heq]
  simp

theorem Opens.kind_ne (h : t.Opens b) {kind : String} (hkind : '_' ∉ kind.toList) :
    t.kind ≠ kind := by
  have hne := ne_of_underscore b.name "open" hkind
  rw [String.append_assoc] at hne
  rw [h.kind]
  exact hne

theorem Closes.kind_ne (h : t.Closes b) {kind : String} (hkind : '_' ∉ kind.toList) :
    t.kind ≠ kind := by
  have hne := ne_of_underscore b.name "close" hkind
  rw [String.append_assoc] at hne
  rw [h.kind]
  exact hne

end Token

namespace Markdown

open Token

/-! ## Elements of spans -/

/-- The element of a span; images are single tokens. -/
def Span.bracket? : Span → Option Bracket
  | .emphasis => some { name := "em", tag := "em" }
  | .strong => some { name := "strong", tag := "strong" }
  | .strikethrough => some { name := "s", tag := "s" }
  | .link _ => some { name := "link", tag := "a" }
  | .image _ => none

/-- The elements of spans around which no image stands, the innermost first. -/
def Span.brackets : List Span → List Bracket
  | [] => []
  | span :: rest =>
    if rest.any Span.isImage then brackets rest else span.bracket?.toList ++ brackets rest

def Span.imageCount (spans : List Span) : Nat :=
  spans.countP Span.isImage

theorem Span.any_isImage (spans : List Span) :
    spans.any Span.isImage = decide (imageCount spans ≠ 0) := by
  rw [imageCount, Bool.eq_iff_iff, List.any_eq_true, decide_eq_true_iff, Nat.ne_zero_iff_zero_lt,
    List.countP_pos_iff]

theorem Span.brackets_cons_of_eq_zero {span : Span} {rest : List Span} (h : imageCount rest = 0) :
    brackets (span :: rest) = span.bracket?.toList ++ brackets rest := by
  simp [brackets, any_isImage, h]

theorem Span.brackets_cons_of_ne_zero {span : Span} {rest : List Span} (h : imageCount rest ≠ 0) :
    brackets (span :: rest) = brackets rest := by
  simp [brackets, any_isImage, h]

namespace Assembly

/-! ## Groups -/

/-- A group leaves elements open, and no two texts stand side by side in it. -/
structure InlineGroup.Stands (g : InlineGroup) (bs : List Bracket) : Prop where
  nested : LeavesOpen g.tokens bs
  level : g.level = bs.length
  apart : AreApart g.tokens

namespace InlineGroup.Stands

variable {g : InlineGroup} {b : Bracket} {bs : List Bracket} {t : Token}

theorem addInline_of_ne (ts : List Token) (h : t.kind ≠ "text") : addInline t ts = t :: ts := by
  cases ts with
  | nil => rfl
  | cons last rest => simp [addInline, h]

/-- What the events cover does not count. -/
theorem keep (h : Stands g bs) (extent : Option Extent) : Stands { g with extent } bs :=
  ⟨h.nested, h.level, h.apart⟩

theorem tokens_push_of_ne (g : InlineGroup) (h : t.kind ≠ "text") :
    (push g t).tokens = { t with level := levelOf g.level t.nesting } :: g.tokens :=
  addInline_of_ne _ h

theorem push_opens (h : Stands g bs) (ht : t.Opens b) : Stands (push g t) (b :: bs) := by
  have hkind : t.kind ≠ "text" := ht.kind_ne (by decide)
  have htokens : (push g t).tokens = { t with level := g.level } :: g.tokens := by
    rw [tokens_push_of_ne g hkind, ht.nesting]
    rfl
  refine ⟨?_, ?_, ?_⟩
  · rw [htokens]
    exact h.nested.opening ⟨ht.nesting, ht.kind, ht.tag, ht.hidden⟩ h.level
  · simp [push, ht.nesting, levelBehind, h.level]
  · rw [htokens]
    exact areApart_cons h.apart hkind

theorem push_closes (h : Stands g (b :: bs)) (ht : t.Closes b) : Stands (push g t) bs := by
  have hkind : t.kind ≠ "text" := ht.kind_ne (by decide)
  have hlevel : g.level - 1 = bs.length := by
    rw [h.level]
    simp
  have htokens : (push g t).tokens = { t with level := g.level - 1 } :: g.tokens := by
    rw [tokens_push_of_ne g hkind, ht.nesting]
    rfl
  refine ⟨?_, ?_, ?_⟩
  · rw [htokens]
    exact h.nested.closing ⟨ht.nesting, ht.kind, ht.tag, ht.hidden⟩ hlevel
  · simp [push, ht.nesting, levelBehind, hlevel]
  · rw [htokens]
    exact areApart_cons h.apart hkind

theorem push_alone (h : Stands g bs) (ht : t.nesting = .selfClosing) : Stands (push g t) bs := by
  have hlevel : (push g t).level = bs.length := by
    simp [push, ht, levelBehind, h.level]
  have hbehind : LeavesOpen ({ t with level := g.level } :: g.tokens) bs :=
    h.nested.alone ht h.level
  have htokens : (push g t).tokens = addInline { t with level := g.level } g.tokens := by
    simp [push, ht, levelOf]
  rcases hg : g.tokens with _ | ⟨last, rest⟩
  · rw [hg] at hbehind
    refine ⟨?_, hlevel, ?_⟩
    · rw [htokens, hg]
      exact hbehind
    · rw [htokens, hg]
      exact .singleton _
  · by_cases hboth : t.kind = "text" ∧ last.kind = "text"
    · -- The text of the token goes to the last one, and no token is new.
      have hmerged : (push g t).tokens =
          { last with content := last.content ++ t.content } :: rest := by
        rw [htokens, hg]
        simp [addInline, hboth.1, hboth.2]
      have hnested := h.nested
      have hapart := h.apart
      rw [hg] at hnested hapart
      refine ⟨?_, hlevel, ?_⟩
      · rw [hmerged]
        exact hnested.setContent _
      · rw [hmerged]
        exact hapart.setContent _
    · -- The token is a new one, and one of the two is no text.
      have hnew : (push g t).tokens = { t with level := g.level } :: last :: rest := by
        rw [htokens, hg, addInline, if_neg]
        simpa using hboth
      have hapart := h.apart
      rw [hg] at hapart hbehind
      refine ⟨?_, hlevel, ?_⟩
      · rw [hnew]
        exact hbehind
      · rw [hnew]
        exact hapart.cons_cons hboth

end InlineGroup.Stands

/-! ## Finished tokens -/

/-- Whether the body of the table is open, and whether its head is. -/
structure TableState where
  bodyOpen : Bool
  inHead : Bool

/-- The finished tokens are sound and leave elements open. -/
structure Stands (a : Assembly) (table : TableState) (bs : List Bracket) : Prop where
  nested : LeavesOpen a.tokens bs
  level : a.level = bs.length
  sound : ∀ t ∈ a.tokens, t.IsSound
  bodyOpen : a.bodyOpen = table.bodyOpen
  inHead : a.inHead = table.inHead

namespace Stands

variable {a : Assembly} {table : TableState} {b : Bracket} {bs : List Bracket} {t : Token}
  {m : Option (Nat × Nat)}

theorem sound_block (h : a.Stands table bs) (hkind : t.kind ≠ "inline") :
    ∀ s ∈ (a.block t m).tokens, s.IsSound := by
  intro s hs
  rcases List.mem_cons.1 hs with rfl | hs
  · exact ⟨rfl, fun hinline => absurd hinline hkind⟩
  · exact h.sound s hs

theorem opens (h : a.Stands table bs) (ht : t.Opens b) :
    (a.block t m).Stands table (b :: bs) := by
  refine ⟨?_, ?_, h.sound_block (ht.kind_ne (by decide)), h.bodyOpen, h.inHead⟩
  · refine h.nested.opening ⟨ht.nesting, ht.kind, ht.tag, ht.hidden⟩ ?_
    simp [ht.nesting, levelOf, h.level]
  · simp [block, ht.nesting, levelBehind, h.level]

theorem closes (h : a.Stands table (b :: bs)) (ht : t.Closes b) :
    (a.block t m).Stands table bs := by
  refine ⟨?_, ?_, h.sound_block (ht.kind_ne (by decide)), h.bodyOpen, h.inHead⟩
  · refine h.nested.closing ⟨ht.nesting, ht.kind, ht.tag, ht.hidden⟩ ?_
    simp [ht.nesting, levelOf, h.level]
  · simp [block, ht.nesting, levelBehind, h.level]

/-- What is being gathered does not count. -/
theorem keep (h : a.Stands table bs) (group : Option InlineGroup) (images : List Token)
    (literal : Option Token) : { a with group, images, literal }.Stands table bs :=
  ⟨h.nested, h.level, h.sound, h.bodyOpen, h.inHead⟩

/-- A token that stands alone joins the finished ones. -/
theorem add (h : a.Stands table bs) (ht : t.nesting = .selfClosing) (hlevel : t.level = a.level)
    (hsound : t.IsSound) : LeavesOpen (t :: a.tokens) bs ∧ ∀ s ∈ t :: a.tokens, s.IsSound := by
  refine ⟨h.nested.alone ht (hlevel.trans h.level), ?_⟩
  intro s hs
  rcases List.mem_cons.1 hs with rfl | hs
  · exact hsound
  · exact h.sound s hs

end Stands

/-! ## Between blocks, in inline content, in a code or raw block -/

/-- An assembly stands between blocks. -/
structure Idle (a : Assembly) (table : TableState) (bs : List Bracket) : Prop
    extends a.Stands table bs where
  group : a.group = none
  images : a.images = []
  literal : a.literal = none

/-- An assembly gathers inline content in which spans are open. -/
structure Gathers (a : Assembly) (table : TableState) (bs : List Bracket) (implicit : Bool)
    (spans : List Span) : Prop extends a.Stands table bs where
  group : ∃ g, a.group = some g ∧ g.implicit = implicit ∧ InlineGroup.Stands g (Span.brackets spans)
  images : a.images.length = Span.imageCount spans
  imagesAlone : ∀ t ∈ a.images, t.nesting = .selfClosing
  literal : a.literal = none

/-- An assembly fills a code or raw block. -/
structure Fills (a : Assembly) (table : TableState) (bs : List Bracket) : Prop
    extends a.Stands table bs where
  group : a.group = none
  images : a.images = []
  literal : ∃ t, a.literal = some t ∧ t.nesting = .selfClosing ∧ t.kind ≠ "inline"

/-- The paragraph around inline content that stands directly in an item. -/
def hiddenParagraph : Bracket :=
  { name := "paragraph", tag := "p", hidden := true }

variable {a : Assembly} {table : TableState} {b : Bracket} {bs : List Bracket} {t : Token}
  {e : Extent} {m : Option (Nat × Nat)} {implicit : Bool} {span : Span} {spans : List Span}

theorem images_ensureGroup (a : Assembly) (e : Extent) : (a.ensureGroup e).images = a.images := by
  unfold ensureGroup
  split <;> rfl

namespace Idle

theorem opens (h : a.Idle table bs) (ht : t.Opens b) : (a.block t m).Idle table (b :: bs) :=
  ⟨h.toStands.opens ht, h.group, h.images, h.literal⟩

theorem closes (h : a.Idle table (b :: bs)) (ht : t.Closes b) : (a.block t m).Idle table bs :=
  ⟨h.toStands.closes ht, h.group, h.images, h.literal⟩

theorem alone (h : a.Idle table bs) (ht : t.nesting = .selfClosing) (hkind : t.kind ≠ "inline") :
    (a.block t m).Idle table bs := by
  refine ⟨⟨?_, ?_, h.sound_block hkind, h.bodyOpen, h.inHead⟩, h.group, h.images, h.literal⟩
  · refine h.nested.alone ht ?_
    simp [ht, levelOf, h.level]
  · simp [block, ht, levelBehind, h.level]

theorem closeImplicit_eq (h : a.Idle table bs) : a.closeImplicit = a := by
  simp [closeImplicit, h.group]

theorem closeGroup_eq (h : a.Idle table bs) : a.closeGroup = a := by
  simp [closeGroup, h.group]

theorem openGroup (h : a.Idle table bs) (implicit : Bool) :
    (a.openGroup implicit).Gathers table bs implicit [] := by
  refine ⟨h.keep _ _ _, ⟨{ implicit }, rfl, rfl, ⟨.nil, rfl, .nil⟩⟩, ?_, ?_, h.literal⟩
  · simp [Assembly.openGroup, h.images, Span.imageCount]
  · simp [Assembly.openGroup, h.images]

theorem ensureGroup (h : a.Idle table bs) (e : Extent) :
    (a.ensureGroup e).Gathers table (hiddenParagraph :: bs) true [] := by
  rw [Assembly.ensureGroup, h.group]
  exact (h.opens ⟨rfl, rfl, rfl, rfl⟩).openGroup true

theorem fill (h : a.Idle table bs) (ht : t.nesting = .selfClosing) (hkind : t.kind ≠ "inline") :
    { a with literal := some t }.Fills table bs :=
  ⟨h.keep _ _ _, h.group, h.images, ⟨_, rfl, ht, hkind⟩⟩

end Idle

namespace Gathers

theorem ensureGroup_eq (h : a.Gathers table bs implicit spans) (e : Extent) :
    a.ensureGroup e = a := by
  rcases h.group with ⟨g, hg, -⟩
  simp [Assembly.ensureGroup, hg]

theorem cover (h : a.Gathers table bs implicit spans) (e : Extent) :
    (a.cover e).Gathers table bs implicit spans := by
  rcases h.group with ⟨g, hg, himplicit, hstands⟩
  simp only [Assembly.cover, hg, Option.map_some]
  exact ⟨h.keep _ _ _, ⟨_, rfl, himplicit, hstands.keep _⟩, h.images, h.imagesAlone, h.literal⟩

/-- A token pushed while no image is open goes to the group. -/
theorem push_outside {spans' : List Span} (h : a.Gathers table bs implicit spans)
    (hcount : Span.imageCount spans = 0) (hcount' : Span.imageCount spans' = 0)
    (hpush : ∀ g, InlineGroup.Stands g (Span.brackets spans) →
      InlineGroup.Stands (InlineGroup.push g t) (Span.brackets spans')) :
    (a.pushInline t).Gathers table bs implicit spans' := by
  rcases h.group with ⟨g, hg, himplicit, hstands⟩
  have himages : a.images = [] := List.length_eq_zero_iff.1 (h.images.trans hcount)
  have hpushed : a.pushInline t = { a with group := some (InlineGroup.push g t) } := by
    simp [pushInline, himages, hg]
  rw [hpushed]
  refine ⟨h.keep _ _ _, ⟨_, rfl, himplicit, hpush g hstands⟩, ?_, h.imagesAlone, h.literal⟩
  exact h.images.trans (hcount.trans hcount'.symm)

/-- A token pushed while an image is open goes to the innermost one. -/
theorem push_inside {spans' : List Span} (h : a.Gathers table bs implicit spans)
    (hcount : Span.imageCount spans ≠ 0) (hcount' : Span.imageCount spans' = Span.imageCount spans)
    (hbrackets : Span.brackets spans' = Span.brackets spans) :
    (a.pushInline t).Gathers table bs implicit spans' := by
  rcases hi : a.images with _ | ⟨image, rest⟩
  · rw [← h.images, hi] at hcount
    exact absurd rfl hcount
  · have hpushed : a.pushInline t =
        { a with images := { image with children := some (image.inner ++ [t]) } :: rest } := by
      simp [pushInline, hi]
    have hlength := h.images
    have halone := h.imagesAlone
    rw [hi] at hlength halone
    rw [hpushed]
    refine ⟨h.keep _ _ _, ?_, ?_, ?_, h.literal⟩
    · rw [hbrackets]
      exact h.group
    · rw [hcount', ← hlength]
      rfl
    · intro s hs
      rcases List.mem_cons.1 hs with rfl | hs
      · exact halone image List.mem_cons_self
      · exact halone s (List.mem_cons_of_mem _ hs)

theorem push_alone (h : a.Gathers table bs implicit spans) (ht : t.nesting = .selfClosing) :
    (a.pushInline t).Gathers table bs implicit spans := by
  by_cases hcount : Span.imageCount spans = 0
  · exact h.push_outside hcount hcount fun g hg => hg.push_alone ht
  · exact h.push_inside hcount rfl rfl

theorem imageCount_cons (spans : List Span) (hspan : span.bracket? = some b) :
    Span.imageCount (span :: spans) = Span.imageCount spans := by
  have himage : span.isImage = false := by
    cases span with
    | image target => cases hspan
    | _ => rfl
  simp [Span.imageCount, himage]

theorem push_opens (h : a.Gathers table bs implicit spans) (hspan : span.bracket? = some b)
    (ht : t.Opens b) : (a.pushInline t).Gathers table bs implicit (span :: spans) := by
  have hsame := imageCount_cons spans hspan
  by_cases hcount : Span.imageCount spans = 0
  · apply h.push_outside hcount (hsame.trans hcount)
    intro g hg
    rw [Span.brackets_cons_of_eq_zero hcount, hspan]
    exact hg.push_opens ht
  · exact h.push_inside hcount hsame (Span.brackets_cons_of_ne_zero hcount)

theorem push_closes (h : a.Gathers table bs implicit (span :: spans))
    (hspan : span.bracket? = some b) (ht : t.Closes b) :
    (a.pushInline t).Gathers table bs implicit spans := by
  have hsame := imageCount_cons spans hspan
  by_cases hcount : Span.imageCount spans = 0
  · apply h.push_outside (hsame.trans hcount) hcount
    intro g hg
    rw [Span.brackets_cons_of_eq_zero hcount, hspan] at hg
    exact hg.push_closes ht
  · exact h.push_inside (hsame ▸ hcount) hsame.symm (Span.brackets_cons_of_ne_zero hcount).symm

theorem brackets_cons_image (target : Target) (spans : List Span) :
    Span.brackets (.image target :: spans) = Span.brackets spans := by
  by_cases hcount : Span.imageCount spans = 0
  · exact Span.brackets_cons_of_eq_zero hcount
  · exact Span.brackets_cons_of_ne_zero hcount

theorem openImage {target : Target} (h : a.Gathers table bs implicit spans)
    (ht : t.nesting = .selfClosing) :
    { a with images := t :: a.images }.Gathers table bs implicit (.image target :: spans) := by
  refine ⟨h.keep _ _ _, ?_, ?_, ?_, h.literal⟩
  · rw [brackets_cons_image]
    exact h.group
  · rw [Span.imageCount, List.countP_cons_of_pos rfl, List.length_cons, h.images]
    rfl
  · intro s hs
    rcases List.mem_cons.1 hs with rfl | hs
    · exact ht
    · exact h.imagesAlone s hs

theorem closeImage {target : Target}
    (h : a.Gathers table bs implicit (.image target :: spans)) :
    a.closeImage.Gathers table bs implicit spans := by
  have hlength := h.images
  rw [Span.imageCount, List.countP_cons_of_pos rfl] at hlength
  rcases hi : a.images with _ | ⟨image, rest⟩
  · rw [hi] at hlength
    cases hlength
  · rw [hi] at hlength
    have hleft : { a with images := rest }.Gathers table bs implicit spans := by
      refine ⟨h.keep _ _ _, ?_, ?_, ?_, h.literal⟩
      · rw [← brackets_cons_image target]
        exact h.group
      · exact Nat.succ.inj hlength
      · intro s hs
        exact h.imagesAlone s (hi ▸ List.mem_cons_of_mem _ hs)
    rw [Assembly.closeImage, hi]
    exact hleft.push_alone (h.imagesAlone image (hi ▸ List.mem_cons_self))

theorem closeGroup (h : a.Gathers table bs implicit []) : a.closeGroup.Idle table bs := by
  rcases h.group with ⟨g, hg, -, hstands⟩
  rw [Assembly.closeGroup, hg]
  -- What the group holds becomes the children of one token.
  have hinner : IsNested g.tokens.reverse ∧ AreApart g.tokens.reverse := by
    refine ⟨?_, hstands.apart.reverse⟩
    rw [IsNested, List.reverse_reverse]
    exact hstands.nested
  obtain ⟨hnested, hsound⟩ :=
    h.toStands.add
      (t := { kind := "inline", level := a.level, block := true,
              content := (g.extent.map a.excerpt).getD "", map := g.extent.map a.lineSpan,
              children := some g.tokens.reverse })
      rfl rfl ⟨rfl, fun _ => ⟨_, rfl, hinner⟩⟩
  refine ⟨⟨hnested, h.level, hsound, h.bodyOpen, h.inHead⟩, rfl, ?_, h.literal⟩
  exact List.length_eq_zero_iff.1 h.images

theorem closeImplicit (h : a.Gathers table (hiddenParagraph :: bs) true []) :
    a.closeImplicit.Idle table bs := by
  rcases h.group with ⟨g, hg, himplicit, -⟩
  have heq : a.closeImplicit =
      a.closeGroup.block { kind := "paragraph_close", tag := "p", nesting := .closing,
                           hidden := true } none := by
    simp [Assembly.closeImplicit, hg, himplicit]
  rw [heq]
  exact h.closeGroup.closes ⟨rfl, rfl, rfl, rfl⟩

end Gathers

namespace Fills

theorem literalText? (h : a.Fills table bs) (text : String) :
    ∃ a', a.literalText? text = some a' ∧ a'.Fills table bs := by
  rcases h.literal with ⟨t, ht, halone, hkind⟩
  refine ⟨{ a with literal := some { t with content := t.content ++ text } }, ?_, ?_⟩
  · simp [Assembly.literalText?, ht]
  · exact ⟨h.keep _ _ _, h.group, h.images,
      ⟨_, rfl, halone, hkind⟩⟩

theorem closeLiteral (h : a.Fills table bs) : a.closeLiteral.Idle table bs := by
  rcases h.literal with ⟨t, ht, halone, hkind⟩
  rw [Assembly.closeLiteral, ht]
  obtain ⟨hnested, hsound⟩ :=
    h.toStands.add (t := { t with level := a.level, block := true }) halone rfl
      ⟨rfl, fun hinline => absurd hinline hkind⟩
  exact ⟨⟨hnested, h.level, hsound, h.bodyOpen, h.inHead⟩, h.group, h.images, rfl⟩

end Fills
end Assembly
end Markdown
end RenderForest
