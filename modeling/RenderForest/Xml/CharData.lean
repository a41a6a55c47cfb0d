import RenderForest.Text.Reference
import RenderForest.Xml.Name
/-!
# CharData — texts and attribute values of XML

Line ends become line feeds in texts and spaces in values, unless they are written as character
references.  This file defines:

* `Xml.readReference?`, which reads a reference to a character;
* `Xml.textOf?`, the text that a stretch of character data stands for;
* `Xml.valueOf?`, the value that stands between quotes.
-/

namespace RenderForest
namespace Xml

/-! ## References -/

def entities : List (String × Char) :=
  [("quot", '\x22'), ("amp", '&'), ("apos", '\x27'), ("lt", '<'), ("gt", '>')]

/-- The character of a numeric reference, which must be allowed in a document. -/
def numbered? (base : Nat) (isDigit : Char → Bool) (digits : List Char) : Option Char :=
  (Text.numbered? base isDigit digits).filter isXmlChar

def readReference? (s : List Char) : Option (Char × List Char) :=
  match s with
  | '#' :: 'x' :: rest =>
    match rest.dropWhile Text.isHexDigit with
    | ';' :: after =>
      (numbered? 16 Text.isHexDigit (rest.takeWhile Text.isHexDigit)).map fun c => (c, after)
    | _ => none
  | '#' :: rest =>
    match rest.dropWhile Char.isDigit with
    | ';' :: after =>
      (numbered? 10 Char.isDigit (rest.takeWhile Char.isDigit)).map fun c => (c, after)
    | _ => none
  | s =>
    match readName? s with
    | some (name, ';' :: after) =>
      (entities.lookup (String.ofList name)).map fun c => (c, after)
    | _ => none

theorem readReference?_length {s after : List Char} {c : Char}
    (h : readReference? s = some (c, after)) : after.length < s.length := by
  unfold readReference? at h
  split at h
  · rename_i rest
    have := (List.dropWhile_sublist Text.isHexDigit (l := rest)).length_le
    split at h
    · rename_i heq
      obtain ⟨_, _, h⟩ := Option.map_eq_some_iff.1 h
      obtain ⟨rfl, rfl⟩ := Prod.mk.inj h
      rw [heq] at this
      simp at this ⊢
      omega
    · simp at h
  · rename_i rest _
    have := (List.dropWhile_sublist Char.isDigit (l := rest)).length_le
    split at h
    · rename_i heq
      obtain ⟨_, _, h⟩ := Option.map_eq_some_iff.1 h
      obtain ⟨rfl, rfl⟩ := Prod.mk.inj h
      rw [heq] at this
      simp at this ⊢
      omega
    · simp at h
  · split at h
    · rename_i name tail heq
      obtain ⟨_, _, h⟩ := Option.map_eq_some_iff.1 h
      obtain ⟨rfl, rfl⟩ := Prod.mk.inj h
      unfold readName? at heq
      split at heq
      · simp at heq
      · rename_i d rest _ _
        have := (List.dropWhile_sublist isNameChar (l := rest)).length_le
        split at heq
        · simp at heq
          rw [heq.2] at this
          simp at this ⊢
          omega
        · simp at heq
    · simp at h

/-! ## Texts -/

/-- Appends a character of the source to a text that is kept in reverse: a carriage return
becomes a line feed, and takes up the line feed behind it. -/
def pushText (last : Bool) (c : Char) (done : List Char) : List Char :=
  match done with
  | '\r' :: done =>
    if last && c == '\r' then '\n' :: '\n' :: done
    else if c == '\n' then '\n' :: done
    else c :: '\n' :: done
  | done => if last && c == '\r' then '\n' :: done else c :: done

/-- Reads a text; `literal` marks a character that follows a reference and is kept as it is. -/
def textFrom (literal : Bool) (done s : List Char) : Option (List Char) :=
  match s with
  | [] => some done.reverse
  | c :: rest =>
    if c == '&' then
      match _h : readReference? rest with
      | some (d, after) => textFrom true (d :: done) after
      | none => none
    else if literal then textFrom false (c :: done) rest
    else textFrom false (pushText rest.isEmpty c done) rest
termination_by s.length
decreasing_by
  · have := readReference?_length _h
    simp
    omega
  · simp
  · simp

def holdsSectionEnd (s : List Char) : Bool :=
  (Text.breakOn? [']', ']', '>'] s).isSome

def textOf? (s : List Char) : Option (List Char) :=
  if !s.all isXmlChar || holdsSectionEnd s then none else textFrom false [] s

/-! ## Values -/

/-- A character of the source inside a value: line ends and tabs become spaces. -/
def valueChar (c : Char) : Char :=
  if c == '\n' || c == '\r' || c == '\t' then ' ' else c

def valueFrom (done s : List Char) : Option (List Char) :=
  match s with
  | [] => some done.reverse
  | c :: rest =>
    if c == '&' then
      match _h : readReference? rest with
      | some (d, after) => valueFrom (d :: done) after
      | none => none
    else if c == '\r' && rest.head? == some '\n' then valueFrom done rest
    else valueFrom (valueChar c :: done) rest
termination_by s.length
decreasing_by
  · have := readReference?_length _h
    simp
    omega
  · simp
  · simp

def valueOf? (s : List Char) : Option (List Char) :=
  if !s.all isXmlChar then none else valueFrom [] s

end Xml
end RenderForest
