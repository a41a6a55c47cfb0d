import RenderForest.Text.Blank
/-!
# Escape — the five markup characters and their references

`&`, `<`, `>`, the double quote and the apostrophe are written as references in texts and in
attribute values.  This file defines:

* `Text.escape`, which writes each of the five as its reference;
* `Text.unescape`, which reads exactly those five references back;
* `Text.reference?`, the table that both share.
-/

namespace RenderForest
namespace Text

def reference? (c : Char) : Option (List Char) :=
  match c with
  | '&' => some "&amp;".toList
  | '<' => some "&lt;".toList
  | '>' => some "&gt;".toList
  | '\x22' => some "&quot;".toList
  | '\x27' => some "&#39;".toList
  | _ => none

def isMarkup (c : Char) : Bool :=
  (reference? c).isSome

/-- Writes the five markup characters as references and keeps all else. -/
def escapeChars : List Char → List Char
  | [] => []
  | c :: s => (reference? c).getD [c] ++ escapeChars s

/-- The markup character whose reference begins a text, and the rest behind it. -/
def readReference? (s : List Char) : Option (Char × List Char) :=
  ['&', '<', '>', '\x22', '\x27'].findSome? fun c =>
    (reference? c).bind fun r => (stripStart? r s).map fun rest => (c, rest)

/-- A text behind a reference is shorter than the text that the reference begins. -/
theorem readReference?_length {s rest : List Char} {c : Char}
    (h : readReference? s = some (c, rest)) : rest.length < s.length := by
  simp only [readReference?, List.findSome?_eq_some_iff] at h
  obtain ⟨_, m, _, _, h, _⟩ := h
  obtain ⟨r, hr, h⟩ := Option.bind_eq_some_iff.1 h
  obtain ⟨u, hu, h⟩ := Option.map_eq_some_iff.1 h
  obtain ⟨rfl, rfl⟩ := Prod.mk.inj h
  have hs := eq_append_of_stripStart? hu
  have hne : 0 < r.length := by
    unfold reference? at hr
    split at hr <;> simp_all <;> subst hr <;> decide
  rw [hs, List.length_append]
  omega

/-- Reads the five references back; every other ampersand stands for itself. -/
def unescapeChars (s : List Char) : List Char :=
  match s with
  | [] => []
  | c :: rest =>
    match _hr : readReference? (c :: rest) with
    | some (d, after) => d :: unescapeChars after
    | none => c :: unescapeChars rest
termination_by s.length
decreasing_by
  · have := readReference?_length _hr
    simpa using this
  · simp

def escape (s : String) : String :=
  String.ofList (escapeChars s.toList)

def unescape (s : String) : String :=
  String.ofList (unescapeChars s.toList)

end Text
end RenderForest
