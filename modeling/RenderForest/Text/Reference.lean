import RenderForest.Text.Escape
import RenderForest.Text.NamedReferences
/-!
# Reference — reading character references

A reference is an ampersand, a name or a number sign with digits, and a semicolon.  This file
defines:

* `Text.namedReference?`, what a name stands for;
* `Text.scalar?`, the character with a given number;
* `Text.resolve?`, what stands between ampersand and semicolon;
* `Text.decode`, which replaces all references of a text and keeps everything that is none.
-/

namespace RenderForest
namespace Text

/-! ## Names -/

/-- The code points of an entry, written in base sixteen and joined by plus signs. -/
def codePoints (s : List Char) : List Char :=
  (splitOn '+' s).map fun digits => Char.ofNat (numeral 16 digits)

/-- Reads a table of names, each followed by its code points. -/
def readTable (lines : List String) : List (List Char × List Char) :=
  lines.flatMap fun line => pairs (words line.toList)
where
  pairs : List (List Char) → List (List Char × List Char)
    | name :: points :: rest => (name, codePoints points) :: pairs rest
    | _ => []

def namedReferences : List (List Char × List Char) :=
  readTable namedReferenceTable

def unterminatedReferences : List (List Char × List Char) :=
  readTable unterminatedReferenceTable

/-- The references that writing uses come first in the search. -/
def markupReferences : List (List Char × List Char) :=
  [("amp".toList, ['&']), ("lt".toList, ['<']), ("gt".toList, ['>']), ("quot".toList, ['\x22'])]

def namedReference? (name : List Char) : Option (List Char) :=
  (markupReferences.lookup name).or (namedReferences.lookup name)

/-! ## Numbers -/

/-- The character with a number, when the number is a Unicode scalar value. -/
def scalar? (n : Nat) : Option Char :=
  if n < 0xd800 || (0xdfff < n && n < 0x110000) then some (Char.ofNat n) else none

def numbered? (base : Nat) (isDigit : Char → Bool) (digits : List Char) : Option Char :=
  if digits.isEmpty || !digits.all isDigit then none else scalar? (numeral base digits)

/-! ## Whole references -/

/-- What stands for the text between ampersand and semicolon.  A name that stands for two
characters gives the first of them. -/
def resolve? (body : List Char) : Option Char :=
  match body with
  | '#' :: 'x' :: digits => numbered? 16 isHexDigit digits
  | '#' :: 'X' :: digits => numbered? 16 isHexDigit digits
  | '#' :: digits => numbered? 10 Char.isDigit digits
  | name => (namedReference? name).bind List.head?

/-- The part before the first semicolon or ampersand, and the rest from there on. -/
def bodySpan : List Char → List Char × List Char
  | [] => ([], [])
  | c :: s =>
    if c == ';' || c == '&' then ([], c :: s)
    else
      let (body, rest) := bodySpan s
      (c :: body, rest)

theorem bodySpan_length (s : List Char) : (bodySpan s).2.length ≤ s.length := by
  induction s with
  | nil => simp [bodySpan]
  | cons c s ih =>
    unfold bodySpan
    split
    · simp
    · simp; omega

def closedReference? (s : List Char) : Option (Char × List Char) :=
  match bodySpan s with
  | (body, ';' :: rest) => (resolve? body).map fun c => (c, rest)
  | _ => none

theorem closedReference?_length {s rest : List Char} {c : Char}
    (h : closedReference? s = some (c, rest)) : rest.length < s.length := by
  have hs := bodySpan_length s
  unfold closedReference? at h
  split at h
  · rename_i body tail heq
    obtain ⟨_, _, h⟩ := Option.map_eq_some_iff.1 h
    obtain ⟨rfl, rfl⟩ := Prod.mk.inj h
    rw [heq] at hs
    simp at hs
    omega
  · simp at h

def decodeChars (s : List Char) : List Char :=
  match s with
  | [] => []
  | c :: rest =>
    if c == '&' then
      match _hr : closedReference? rest with
      | some (d, after) => d :: decodeChars after
      | none => '&' :: decodeChars rest
    else c :: decodeChars rest
termination_by s.length
decreasing_by
  · have := closedReference?_length _hr
    simp
    omega
  · simp
  · simp

def decode (s : String) : String :=
  String.ofList (decodeChars s.toList)

end Text
end RenderForest
