/-!
# Blank — white space, ASCII classes and what is trimmed

Texts are handled as lists of characters.  This file defines:

* `Text.isBlank`, the Unicode `White_Space` property, and `Text.isAsciiBlank`, its HTML subset;
* `Text.trimStart`, `Text.trimEnd`, `Text.trim`, which drop blanks at the ends;
* `Text.words`, the maximal runs without a blank;
* `Text.sameFolded`, equality up to the case of ASCII letters.
-/

namespace RenderForest
namespace Text

/-! ## Classes of characters -/

/-- The property `White_Space` of Unicode. -/
def isBlank (c : Char) : Bool :=
  let n := c.toNat
  (9 ≤ n && n ≤ 13) || n == 32 || n == 0x85 || n == 0xa0 || n == 0x1680 ||
    (0x2000 ≤ n && n ≤ 0x200a) || n == 0x2028 || n == 0x2029 || n == 0x202f ||
    n == 0x205f || n == 0x3000

/-- Tab, line feed, form feed, carriage return and space: the blanks of HTML. -/
def isAsciiBlank (c : Char) : Bool :=
  c == '\t' || c == '\n' || c == '\x0c' || c == '\r' || c == ' '

/-- The control characters of ASCII, the delete character included. -/
def isAsciiControl (c : Char) : Bool :=
  c.toNat < 32 || c.toNat == 127

def isAsciiPunctuation (c : Char) : Bool :=
  let n := c.toNat
  (33 ≤ n && n ≤ 47) || (58 ≤ n && n ≤ 64) || (91 ≤ n && n ≤ 96) || (123 ≤ n && n ≤ 126)

def isHexDigit (c : Char) : Bool :=
  c.isDigit || ('a' ≤ c && c ≤ 'f') || ('A' ≤ c && c ≤ 'F')

def hexValue (c : Char) : Nat :=
  if c.isDigit then c.toNat - 48
  else if 'a' ≤ c && c ≤ 'f' then c.toNat - 87
  else c.toNat - 55

def numeral (base : Nat) (digits : List Char) : Nat :=
  digits.foldl (fun n c => n * base + hexValue c) 0

/-! ## Trimming and words -/

def trimStart (s : List Char) : List Char :=
  s.dropWhile isBlank

def trimEnd (s : List Char) : List Char :=
  (s.reverse.dropWhile isBlank).reverse

def trim (s : List Char) : List Char :=
  trimEnd (trimStart s)

/-- The maximal runs of characters that hold no blank, in order. -/
def words (s : List Char) : List (List Char) :=
  go [] s
where
  go (word : List Char) : List Char → List (List Char)
    | [] => if word.isEmpty then [] else [word.reverse]
    | c :: rest =>
      if isBlank c then
        if word.isEmpty then go [] rest else word.reverse :: go [] rest
      else go (c :: word) rest

/-- The pieces between the occurrences of a separator; always at least one. -/
def splitOn (sep : Char) : List Char → List (List Char)
  | [] => [[]]
  | c :: rest =>
    match splitOn sep rest with
    | [] => [[]]
    | piece :: pieces => if c == sep then [] :: piece :: pieces else (c :: piece) :: pieces

/-! ## Case -/

def fold (s : String) : List Char :=
  s.toList.map Char.toLower

def sameFolded (a b : String) : Bool :=
  fold a == fold b

/-! ## Searching -/

def stripStart? : List Char → List Char → Option (List Char)
  | [], s => some s
  | _ :: _, [] => none
  | p :: ps, c :: s => if p == c then stripStart? ps s else none

/-- The texts before and behind the first occurrence of a needle. -/
def breakOn? (needle : List Char) : List Char → Option (List Char × List Char)
  | [] => if needle.isEmpty then some ([], []) else none
  | c :: s =>
    match stripStart? needle (c :: s) with
    | some rest => some ([], rest)
    | none => (breakOn? needle s).map fun (before, rest) => (c :: before, rest)

/-- The number of bytes that a text takes in UTF-8. -/
def byteLength (s : List Char) : Nat :=
  s.foldl (fun n c => n + c.utf8Size) 0

/-! ## Small laws -/

theorem stripStart?_append (p s : List Char) : stripStart? p (p ++ s) = some s := by
  induction p with
  | nil => cases s <;> rfl
  | cons c p ih => simp [stripStart?, ih]

theorem eq_append_of_stripStart? {p s rest : List Char} (h : stripStart? p s = some rest) :
    s = p ++ rest := by
  induction p generalizing s with
  | nil => cases s <;> simp_all [stripStart?]
  | cons c p ih =>
    cases s with
    | nil => simp [stripStart?] at h
    | cons d s =>
      by_cases hc : c = d
      · subst hc; simp [stripStart?] at h; simp [ih h]
      · simp [stripStart?, hc] at h

end Text
end RenderForest
