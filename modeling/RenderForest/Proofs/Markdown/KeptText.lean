import RenderForest.Proofs.Markdown.Ledger
/-!
# KeptText — no text of a document is lost

At the start all that a reader is to see is to come in the events, and at the end it is in the
tokens, whose forest shows it.  This file defines:

* `imageText`, the text that open images hold, and `pendingSights`, what a reader is to see of open
  images, of the open block and of the events to come;
* `sightLedger`, the ledger of what a reader is to see;
* `KeepsText`, that a forest shows the texts of events;

and shows that the forest of each well-nested document of plain events does.
-/

namespace RenderForest
namespace Markdown

open Token

/-! ## What is pending -/

/-- The text of open images, the innermost of which comes first. -/
def imageText : List Token → String
  | [] => ""
  | image :: rest => imageText rest ++ listText image.inner

/-- What a reader is to see of events to come, behind the open block and in the outermost image that
is open, which is to hold the text of those inside it. -/
def pendingSights : List Token → Option Token → List Event → List Sight
  | [], none, events => eventSights 0 events
  | [], some t, events => t.sights ++ eventSights 0 events
  | image :: rest, _, events =>
    .image (some (imageText (image :: rest) ++ altText rest.length events)) ::
      eventSights (rest.length + 1) events

theorem listText_append (ts us : List Token) :
    listText (ts ++ us) = listText ts ++ listText us := by
  induction ts with
  | nil => simp [listText]
  | cons t rest ih => rw [List.cons_append, listText, listText, ih, String.append_assoc]

variable {event : Event} {events : List Event} {t image outer : Token} {rest : List Token}

/-- What is put into an image stands behind what it holds. -/
theorem imageText_push (image t : Token) (rest : List Token) :
    imageText ({ image with children := some (image.inner ++ [t]) } :: rest) =
      imageText (image :: rest) ++ t.inlineText := by
  have hinner : { image with children := some (image.inner ++ [t]) }.inner = image.inner ++ [t] :=
    rfl
  rw [imageText, imageText, hinner, listText_append, String.append_assoc]
  simp [listText]

theorem inlineText_of_image (h : image.kind = "image") :
    image.inlineText = listText image.inner := by
  rcases image with ⟨kind, tag, attrs, map, nesting, level, children, content, markup, info, data,
    block, hidden⟩
  simp only at h
  subst h
  cases children <;> rfl

theorem sights_of_image (h : image.kind = "image") :
    image.sights = [.image (some (listText image.inner))] := by
  rw [sights_of_not_isInline (by simp [isInline, h]), h]
  rfl

/-! ## Events -/

theorem eventSights_frame (h : event.isFrame = true) :
    eventSights 0 (event :: events) = eventSights 0 events := by
  cases event with
  | start tag e => cases tag <;> first | rfl | cases h
  | stop tag => cases tag <;> rfl
  | leaf l e => cases l <;> first | rfl | cases h

/-- Of a plain event outside images a reader is to see what its token shows. -/
theorem eventSights_emits (h : Emits event t) (hplain : event.IsPlain) (n : Nat) :
    eventSights n (event :: events) = (if n = 0 then t.sights else []) ++ eventSights n events := by
  cases h with
  | inlineRaw content e => exact absurd hplain id
  | task done e => exact absurd hplain id
  | link target e =>
      have htitle : ∀ t : Token, (Assembly.withTitle t target).sights = t.sights := by
        intro t
        unfold Assembly.withTitle
        split
        · rfl
        · exact sights_congr rfl rfl rfl
      rw [htitle]
      cases n <;> rfl
  | _ => cases n <;> rfl

/-- Inside an image a plain event adds the text that stands for its token. -/
theorem altText_emits (h : Emits event t) (hplain : event.IsPlain) (n : Nat) :
    altText n (event :: events) = t.inlineText ++ altText n events := by
  cases h with
  | inlineRaw content e => exact absurd hplain id
  | task done e => exact absurd hplain id
  | link target e =>
      have htitle : (Assembly.withTitle (Token.setAttr
          { kind := "link_open", tag := "a", nesting := .opening } "href" target.destination)
            target).inlineText = "" := by
        unfold Assembly.withTitle
        split <;> rfl
      rw [htitle, String.empty_append]
      rfl
  | text content e => rfl
  | code content e => rfl
  | softBreak e => rfl
  | hardBreak e => rfl
  | _ => exact (String.empty_append).symm

/-! ## The ledger of what a reader is to see -/

/-- Text that is added to a token of text or code is seen behind what the token holds. -/
theorem sights_addContent (hkind : showsContent t.kind = true) (text : String) :
    { t with content := t.content ++ text }.sights = t.sights ++ Sight.ofText text := by
  have ht : t.isInline = false := by
    simp only [showsContent, Bool.or_eq_true, beq_iff_eq] at hkind
    rcases hkind with ((h | h) | h) | h <;> simp [isInline, h]
  rw [sights_of_not_isInline ht, sights_of_not_isInline (by exact ht), if_pos hkind, if_pos hkind]
  simp [Sight.ofText]

/-- What two texts show, the one shows that they become. -/
theorem sights_text {u : Token} (ht : t.kind = "text") (hu : u.kind = "text") :
    { t with content := t.content ++ u.content }.sights = t.sights ++ u.sights := by
  have hshows : showsContent t.kind = true := by
    rw [ht]
    rfl
  have hadded : u.sights = Sight.ofText u.content := by
    rw [sights_of_not_isInline (by simp [isInline, hu]), hu]
    rfl
  rw [sights_addContent hshows, hadded]

theorem sights_frame (h : frameKinds.contains t.kind = true) : t.sights = [] := by
  have hframes : ∀ kind ∈ frameKinds,
      (kind == "inline") = false ∧ showsContent kind = false ∧ (kind == "image") = false := by
    decide
  rcases hframes _ (List.contains_iff_mem.1 h) with ⟨hinline, hshows, himage⟩
  rw [sights_of_not_isInline hinline, hshows, himage]
  rfl

/-- A code or raw block begins without content and shows nothing yet. -/
theorem pendingSights_start {b : LiteralBlock} {e : Extent} (hkind : t.kind = b.kind)
    (hcontent : t.content = "") :
    t.sights ++ eventSights 0 events = eventSights 0 (.start b.toTag e :: events) := by
  have hinline : t.isInline = false := by
    rw [isInline, hkind]
    cases b with
    | raw => rfl
    | code info => cases info <;> rfl
  rw [sights_of_not_isInline hinline, hkind, hcontent]
  cases b with
  | raw => rfl
  | code info => cases info <;> rfl

theorem pendingSights_leaf {l : Leaf} {e : Extent} (hkind : showsContent t.kind = true)
    (hl : l.isLiteral = true) (hplain : (Event.leaf l e).IsPlain) :
    { t with content := t.content ++ l.verbatim }.sights ++ eventSights 0 events =
      t.sights ++ eventSights 0 (.leaf l e :: events) := by
  cases l with
  | text content =>
      rw [Leaf.verbatim, sights_addContent hkind, List.append_assoc]
      rfl
  | raw content => exact absurd hplain id
  | _ => cases hl

/-- What is put into an image comes from the event that makes it. -/
theorem pendingSights_push (h : Emits event t) (hplain : event.IsPlain) :
    pendingSights ({ image with children := some (image.inner ++ [t]) } :: rest) none events =
      pendingSights (image :: rest) none (event :: events) := by
  rw [pendingSights, pendingSights, imageText_push, altText_emits h hplain,
    eventSights_emits h hplain, String.append_assoc]
  rfl

/-- What stands in an image is still to come at its start. -/
theorem pendingSights_openImage {images : List Token} {target : Target} {e : Extent}
    (h : t.inner = []) :
    pendingSights (t :: images) none events =
      pendingSights images none (.start (.image target) e :: events) := by
  cases images with
  | nil => simp [pendingSights, imageText, h, listText, eventSights]
  | cons image rest =>
      have htext : imageText (t :: image :: rest) = imageText (image :: rest) := by
        rw [imageText, h, listText, String.append_empty]
      rw [pendingSights, pendingSights, htext]
      rfl

theorem pendingSights_closeImage {target : Target} (h : image.kind = "image") :
    image.sights ++ eventSights 0 events =
      pendingSights [image] none (.stop (.image target) :: events) := by
  rw [sights_of_image h]
  simp [pendingSights, imageText, altText, eventSights]

/-- The text of an image goes to the image around it. -/
theorem pendingSights_closeInside {target : Target} (h : image.kind = "image") :
    pendingSights ({ outer with children := some (outer.inner ++ [image]) } :: rest) none events =
      pendingSights (image :: outer :: rest) none (.stop (.image target) :: events) := by
  rw [pendingSights, pendingSights, imageText_push, inlineText_of_image h]
  rfl

def sightLedger : Ledger Sight false where
  own := sights
  congr := sights_congr
  text := sights_text
  frame := sights_frame
  pending := pendingSights
  pending_nil := rfl
  frame_event h := eventSights_frame h
  open_literal hkind hcontent := pendingSights_start hkind hcontent
  literal_leaf hkind hl hplain := pendingSights_leaf (hkind rfl) hl (hplain.resolve_left nofun)
  close_literal {_ b _} := by cases b <;> rfl
  emit_shown hemits hplain := (eventSights_emits hemits (hplain.resolve_left nofun) 0).symm
  emit_inside hemits hplain := pendingSights_push hemits (hplain.resolve_left nofun)
  open_image h := pendingSights_openImage h
  image_shown h := pendingSights_closeImage h
  image_inside h := pendingSights_closeInside h

theorem ofToken_sightLedger (t : Token) : sightLedger.ofToken t = t.sights := by
  rcases Bool.eq_false_or_eq_true t.isInline with ht | ht
  · rw [Reading.ofToken_of_isInline _ ht, sights_of_isInline ht, Token.inner]
    cases t.children with
    | none => rfl
    | some ts => exact (listSights_eq ts).symm
  · exact Reading.ofToken_of_not_isInline _ ht

/-- The tokens of a well-nested document of plain events show what the events do. -/
theorem Assembly.listSights_assemble (source : String) {events : List Event}
    (hnested : WellNested events) (hplain : ∀ event ∈ events, event.IsPlain) :
    listSights (assemble source events) = eventSights 0 events := by
  have hledger := sightLedger.flatMap_assemble source hnested fun event h => Or.inr (hplain event h)
  rw [listSights_eq, ← funext ofToken_sightLedger]
  exact hledger

/-! ## Whole documents -/

/-- A forest shows the texts of events outside images and the texts of their images, and both in
the order of the events. -/
structure KeepsText (events : List Event) (forest : List Node) : Prop where
  text : Node.textContents forest = shownText 0 events
  alts : Node.altsAll forest = (altTexts 0 events).map some
  order : Node.sightsAll forest = eventSights 0 events

/-- The forest of a well-nested document without raw markup and boxes of tasks shows each text of
the document once and in its place. -/
theorem keepsText_compile_assemble {c : Compiler} (hc : c.IsBuiltIn) (env : Env) (source : String)
    {events : List Event} (hnested : WellNested events)
    (hplain : ∀ event ∈ events, event.IsPlain) (w : Workspace) :
    KeepsText events (c.compile env (Assembly.assemble source events) w).1 := by
  have hsights := Assembly.listSights_assemble source hnested hplain
  have htokens := Assembly.allPlain_assemble source hplain
  have horder := (sights_compile hc env htokens w).trans hsights
  refine ⟨?_, ?_, horder⟩
  · apply String.toList_injective
    rw [Node.toList_textContents, horder, toList_shownText]
  · rw [Node.altsAll_eq, horder, map_altTexts]

theorem keepsText_compile_assemble_tightDocument :
    ({} : Compiler).IsBuiltIn ∧ WellNested tightDocument ∧
      (∀ event ∈ tightDocument, event.IsPlain) ∧
        KeepsText tightDocument
          (({} : Compiler).compile {} (Assembly.assemble "" tightDocument) {}).1 := by
  have hbuiltIn : ({} : Compiler).IsBuiltIn := ⟨rfl, rfl, rfl⟩
  have hplain : ∀ event ∈ tightDocument, event.IsPlain := by
    simp [tightDocument, Event.IsPlain]
  exact ⟨hbuiltIn, wellNested_tightDocument, hplain,
    keepsText_compile_assemble hbuiltIn {} "" wellNested_tightDocument hplain {}⟩

end Markdown
end RenderForest
