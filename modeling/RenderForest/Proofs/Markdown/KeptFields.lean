import RenderForest.Proofs.Compile.RawContents
import RenderForest.Proofs.Markdown.Ledger
/-!
# KeptFields — no box of a task and no raw markup is lost

Boxes of tasks become raw markup, which stands in the tokens in the order of the events.  This file
defines:

* `Field` and `eventFields`, the boxes and the raw markup of events outside images;
* `rawLedger`, the ledger of raw markup: that of the block that is open goes on with the text that
  is still to come;

and shows in `raws_assemble` that the tokens of each well-nested document hold the markup of its
fields.
-/

namespace RenderForest
namespace Markdown

open Token

/-! ## Fields of events -/

/-- The box of a task, or raw markup. -/
inductive Field where
  | task (done : Bool)
  | raw (content : String)
  deriving DecidableEq, Repr

/-- The raw markup that stands for a field. -/
def Field.markup : Field → String
  | .task done => Assembly.checkbox done
  | .raw content => content

/-- The text of events up to the end of a block that holds nothing but text. -/
def rawText : List Event → String
  | .leaf l _ :: rest => l.verbatim ++ rawText rest
  | _ => ""

/-- The fields of events outside images, where `n` images are open. -/
def eventFields (n : Nat) : List Event → List Field
  | [] => []
  | event :: rest =>
    match event with
    | .start .raw _ => .raw (rawText rest) :: eventFields n rest
    | .start (.image _) _ => eventFields (n + 1) rest
    | .stop (.image _) => eventFields (n - 1) rest
    | .leaf (.inlineRaw content) _ => (if n = 0 then [.raw content] else []) ++ eventFields n rest
    | .leaf (.task done) _ => (if n = 0 then [.task done] else []) ++ eventFields n rest
    | _ => eventFields n rest

/-- The raw markup of events outside images. -/
def eventRaws (n : Nat) (events : List Event) : List String :=
  (eventFields n events).map Field.markup

variable {event : Event} {events : List Event} {t : Token}

theorem eventRaws_frame (h : event.isFrame = true) :
    eventRaws 0 (event :: events) = eventRaws 0 events := by
  cases event with
  | start tag e => cases tag <;> first | rfl | cases h
  | stop tag => cases tag <;> rfl
  | leaf l e => cases l <;> first | rfl | cases h

/-- Raw markup and boxes of tasks are the only fields among inline content. -/
theorem eventRaws_emits (h : Emits event t) (n : Nat) :
    eventRaws n (event :: events) = (if n = 0 then t.ownRaws else []) ++ eventRaws n events := by
  cases h with
  | link target e =>
      have htitle : ∀ t : Token, (Assembly.withTitle t target).ownRaws = t.ownRaws := by
        intro t
        unfold Assembly.withTitle
        split <;> rfl
      rw [htitle]
      cases n <;> rfl
  | _ => cases n <;> rfl

/-! ## The ledger of raw markup -/

/-- The raw markup of the open block, with the text that is still to come. -/
def openRaws : Option Token → List Event → List String
  | none, _ => []
  | some t, events => if isRawKind t.kind then [t.content ++ rawText events] else []

theorem ownRaws_congr {t u : Token} (hkind : u.kind = t.kind) (hcontent : u.content = t.content) :
    u.ownRaws = t.ownRaws := by
  rw [ownRaws, ownRaws, hkind, hcontent]

theorem ownRaws_of_kind {kind : String} (h : t.kind = kind) (hraw : isRawKind kind = false) :
    t.ownRaws = [] := by
  rw [ownRaws, h, hraw]
  rfl

theorem ownRaws_frame (h : frameKinds.contains t.kind = true) : t.ownRaws = [] := by
  have hframes : ∀ kind ∈ frameKinds, isRawKind kind = false := by decide
  exact ownRaws_of_kind rfl (hframes _ (List.contains_iff_mem.1 h))

/-- A raw block begins without content, and all its text is still to come. -/
theorem openRaws_start {b : LiteralBlock} {e : Extent} (hkind : t.kind = b.kind)
    (hcontent : t.content = "") :
    openRaws (some t) events ++ eventRaws 0 events = eventRaws 0 (.start b.toTag e :: events) := by
  rw [openRaws, hkind, hcontent, String.empty_append]
  cases b with
  | raw => rfl
  | code info => cases info <;> rfl

theorem openRaws_leaf {l : Leaf} {e : Extent} (hl : l.isLiteral = true) :
    openRaws (some { t with content := t.content ++ l.verbatim }) events ++ eventRaws 0 events =
      openRaws (some t) (.leaf l e :: events) ++ eventRaws 0 (.leaf l e :: events) := by
  have hevent : eventRaws 0 (.leaf l e :: events) = eventRaws 0 events := by
    cases l <;> first | rfl | cases hl
  rw [openRaws, openRaws, rawText, hevent, String.append_assoc]

theorem openRaws_stop (b : LiteralBlock) :
    t.ownRaws ++ eventRaws 0 events =
      openRaws (some t) (.stop b.toTag :: events) ++ eventRaws 0 (.stop b.toTag :: events) := by
  have hevent : eventRaws 0 (.stop b.toTag :: events) = eventRaws 0 events := by
    cases b <;> rfl
  have htext : rawText (.stop b.toTag :: events) = "" := rfl
  rw [openRaws, htext, String.append_empty, hevent, ownRaws]

def rawLedger : Ledger String true where
  own := ownRaws
  congr hkind hcontent _ := ownRaws_congr hkind hcontent
  text ht hu := by
    rw [ownRaws_of_kind ht rfl, ownRaws_of_kind hu rfl]
    exact ownRaws_of_kind ht rfl
  frame := ownRaws_frame
  pending images literal events := openRaws literal events ++ eventRaws images.length events
  pending_nil := rfl
  frame_event h := eventRaws_frame h
  open_literal hkind hcontent := openRaws_start hkind hcontent
  literal_leaf _ hl _ := openRaws_leaf hl
  close_literal := openRaws_stop _
  emit_shown hemits _ := (eventRaws_emits hemits 0).symm
  emit_inside {_ _ _ rest _} hemits _ := (eventRaws_emits hemits (rest.length + 1)).symm
  open_image _ := rfl
  image_shown hkind := by
    rw [ownRaws_of_kind hkind rfl]
    rfl
  image_inside _ := rfl

/-- The tokens of a well-nested document hold the markup of its fields, in the order of the
events. -/
theorem Assembly.raws_assemble (source : String) {events : List Event}
    (hnested : WellNested events) :
    (assemble source events).flatMap raws = eventRaws 0 events :=
  rawLedger.flatMap_assemble source hnested fun _ _ => Or.inl rfl

end Markdown
end RenderForest
