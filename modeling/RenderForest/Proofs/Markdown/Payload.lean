import RenderForest.Markdown.Event
import RenderForest.Proofs.Tree.Sights
/-!
# Payload — what a reader is to see of the events of a document

Texts and code show themselves.  Inside an image they go into the text that stands for the
outermost image, as do line breaks.  This file defines:

* `Event.IsPlain`, that an event is no raw markup and no box of a task;
* `shownText`, the text of events outside images;
* `altText`, the text of an image, and `altTexts`, those of all outermost images;
* `eventSights`, both in one order;

and shows that the last holds the others.
-/

namespace RenderForest
namespace Markdown

/-! ## Leaves and plain events -/

def Leaf.payload : Leaf → String
  | .text content => content
  | .code content => content
  | _ => ""

def Leaf.altText : Leaf → String
  | .text content => content
  | .code content => content
  | .softBreak => "\n"
  | .hardBreak => "\n"
  | _ => ""

/-- No raw markup, and no box of a task. -/
def Event.IsPlain : Event → Prop
  | .start .raw _ => False
  | .stop .raw => False
  | .leaf (.raw _) _ => False
  | .leaf (.inlineRaw _) _ => False
  | .leaf (.task _) _ => False
  | _ => True

/-! ## Texts of events -/

/-- The text of events outside images, where `n` images are open. -/
def shownText (n : Nat) : List Event → String
  | [] => ""
  | event :: rest =>
    match event with
    | .start (.image _) _ => shownText (n + 1) rest
    | .stop (.image _) => shownText (n - 1) rest
    | .leaf l _ => (if n = 0 then l.payload else "") ++ shownText n rest
    | _ => shownText n rest

/-- The text of events up to the end of an image in which `n` others are open. -/
def altText (n : Nat) : List Event → String
  | [] => ""
  | event :: rest =>
    match event with
    | .start (.image _) _ => altText (n + 1) rest
    | .stop (.image _) => if n = 0 then "" else altText (n - 1) rest
    | .leaf l _ => l.altText ++ altText n rest
    | _ => altText n rest

/-- The texts of the images of events that stand in no other image, where `n` images are open. -/
def altTexts (n : Nat) : List Event → List String
  | [] => []
  | event :: rest =>
    match event with
    | .start (.image _) _ => (if n = 0 then [altText 0 rest] else []) ++ altTexts (n + 1) rest
    | .stop (.image _) => altTexts (n - 1) rest
    | _ => altTexts n rest

/-- What a reader is to see of events, where `n` images are open. -/
def eventSights (n : Nat) : List Event → List Sight
  | [] => []
  | event :: rest =>
    match event with
    | .start (.image _) _ =>
      (if n = 0 then [.image (some (altText 0 rest))] else []) ++ eventSights (n + 1) rest
    | .stop (.image _) => eventSights (n - 1) rest
    | .leaf l _ => (if n = 0 then Sight.ofText l.payload else []) ++ eventSights n rest
    | _ => eventSights n rest

theorem toList_shownText (n : Nat) (events : List Event) :
    (shownText n events).toList = (eventSights n events).filterMap Sight.char? := by
  induction events generalizing n with
  | nil => rfl
  | cons event rest ih =>
      rw [shownText.eq_def, eventSights.eq_def]
      simp only
      split
      · rw [List.filterMap_append, ← ih]
        split <;> rfl
      · exact ih _
      · rw [String.toList_append, List.filterMap_append, ← ih]
        split
        · rw [Node.filterMap_char?_ofText]
        · rfl
      · exact ih _

theorem map_altTexts (n : Nat) (events : List Event) :
    (altTexts n events).map some = (eventSights n events).filterMap Sight.alt? := by
  induction events generalizing n with
  | nil => rfl
  | cons event rest ih =>
      rw [altTexts.eq_def, eventSights.eq_def]
      cases event with
      | start tag e =>
          cases tag with
          | image target =>
              simp only
              rw [List.map_append, List.filterMap_append, ← ih]
              split <;> rfl
          | _ => exact ih _
      | stop tag => cases tag <;> exact ih _
      | leaf l e =>
          simp only
          rw [List.filterMap_append, ← ih]
          split
          · rw [Node.filterMap_alt?_ofText, List.nil_append]
          · rfl

end Markdown
end RenderForest
