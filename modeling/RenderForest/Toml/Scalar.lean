import RenderForest.Text.Blank
/-!
# Scalar — the numbers and dates of TOML

Numbers and dates are only told from what is none; their values are not kept.  This file defines:

* `Scalar.isInteger` and `Scalar.isFloat`;
* `Scalar.readDate?`, a date, a time or both, and what follows it;
* `Scalar.read?`, any of them, and what follows it.
-/

namespace RenderForest
namespace Toml
namespace Scalar

/-! ## Integers -/

/-- The digits of a text, if between any two of them stands at most one underscore. -/
def digits? (isDigit : Char → Bool) (s : List Char) : Option (List Char) :=
  let parts := Text.splitOn '_' s
  if parts.all fun p => !p.isEmpty && p.all isDigit then some parts.flatten else none

/-- The digits of a decimal number without needless zeros. -/
def decimal? (s : List Char) : Option (List Char) :=
  match digits? Char.isDigit s with
  | some ('0' :: _ :: _) => none
  | d => d

def splitSign (s : List Char) : Bool × List Char :=
  match s with
  | '-' :: rest => (true, rest)
  | '+' :: rest => (false, rest)
  | s => (false, s)

def integerLimit : Nat := 9223372036854775808

def isInteger (s : List Char) : Bool :=
  let fits (base : Nat) (digits : Option (List Char)) (limit : Nat) : Bool :=
    digits.any fun d => decide (Text.numeral base d < limit)
  match s with
  | '0' :: 'x' :: rest => fits 16 (digits? Text.isHexDigit rest) integerLimit
  | '0' :: 'o' :: rest =>
    fits 8 (digits? (fun c => c.isDigit && decide (c < '8')) rest) integerLimit
  | '0' :: 'b' :: rest => fits 2 (digits? (fun c => c == '0' || c == '1') rest) integerLimit
  | s =>
    let (negative, rest) := splitSign s
    fits 10 (decimal? rest) (if negative then integerLimit + 1 else integerLimit)

/-! ## Floats -/

/-- The least magnitude that rounds to infinity. -/
def floatLimit : Nat := Nat.pow 2 1024 - Nat.pow 2 970

def floatDigits : Int := 309

/-- Whether a decimal number rounds to a finite float: its digits, how many of them stand behind
the point, and its exponent. -/
def isFinite (digits : List Char) (places : Nat) (exponent : Int) : Bool :=
  let significant := digits.dropWhile (· == '0')
  let shift : Int := exponent - places
  let size : Int := significant.length + shift
  if significant.isEmpty || size < floatDigits then true
  else if floatDigits < size then false
  else
    let n := Text.numeral 10 significant
    if 0 ≤ shift then decide (n * Nat.pow 10 shift.toNat < floatLimit)
    else decide (n < floatLimit * Nat.pow 10 (-shift).toNat)

/-- The exponent that stands behind a number; a number without one has exponent zero. -/
def exponent? (s : List Char) : Option Int :=
  match s with
  | [] => some 0
  | _ :: rest =>
    let (negative, rest) := splitSign rest
    (digits? Char.isDigit rest).map fun d =>
      if negative then -(Text.numeral 10 d : Int) else Text.numeral 10 d

/-- Whether a text is a number with a fraction or an exponent, or one of the special numbers. -/
def isFloat (s : List Char) : Bool :=
  let (_, rest) := splitSign s
  if rest == "inf".toList || rest == "nan".toList then true
  else
    let isMark (c : Char) : Bool := c == 'e' || c == 'E'
    let mantissa := rest.takeWhile fun c => !isMark c
    let mark := rest.dropWhile fun c => !isMark c
    let whole := mantissa.takeWhile (· != '.')
    let fraction :=
      match mantissa.dropWhile (· != '.') with
      | [] => if mark.isEmpty then none else some []
      | _ :: f => digits? Char.isDigit f
    match decimal? whole, fraction, exponent? mark with
    | some w, some f, some e => isFinite (w ++ f) f.length e
    | _, _, _ => false

/-! ## Dates -/

/-- A number of a fixed count of digits within bounds, and what follows it. -/
def field? (count low high : Nat) (s : List Char) : Option (Nat × List Char) :=
  let digits := s.take count
  let n := Text.numeral 10 digits
  if digits.length == count && digits.all Char.isDigit && decide (low ≤ n) && decide (n ≤ high) then
    some (n, s.drop count)
  else none

def behind? (p : Char → Bool) (s : List Char) : Option (List Char) :=
  match s with
  | c :: rest => if p c then some rest else none
  | [] => none

def isLeap (year : Nat) : Bool :=
  (year % 4 == 0 && year % 100 != 0) || year % 400 == 0

def daysIn (year month : Nat) : Nat :=
  if month == 2 then (if isLeap year then 29 else 28)
  else if month == 4 || month == 6 || month == 9 || month == 11 then 30
  else 31

def readDay? (s : List Char) : Option (List Char) := do
  let (year, s) ← field? 4 0 9999 s
  let s ← behind? (· == '-') s
  let (month, s) ← field? 2 1 12 s
  let s ← behind? (· == '-') s
  let (_, s) ← field? 2 1 (daysIn year month) s
  return s

/-- What follows a time; its last second may be a leap second. -/
def readTime? (s : List Char) : Option (List Char) := do
  let (_, s) ← field? 2 0 23 s
  let s ← behind? (· == ':') s
  let (_, s) ← field? 2 0 59 s
  let s ← behind? (· == ':') s
  let (_, s) ← field? 2 0 60 s
  match s with
  | '.' :: c :: rest => if c.isDigit then return rest.dropWhile Char.isDigit else none
  | s => return s

def readOffset? (s : List Char) : Option (List Char) :=
  match s with
  | 'Z' :: rest => some rest
  | 'z' :: rest => some rest
  | c :: rest =>
    if c == '+' || c == '-' then do
      let (_, s) ← field? 2 0 23 rest
      let s ← behind? (· == ':') s
      let (_, s) ← field? 2 0 59 s
      return s
    else some (c :: rest)
  | [] => some []

def readDate? (s : List Char) : Option (List Char) :=
  match readDay? s with
  | none => readTime? s
  | some rest =>
    let time := (behind? (fun c => c == 'T' || c == 't' || c == ' ') rest).bind readTime?
    match time with
    | none => some rest
    | some rest => readOffset? rest

/-! ## All scalars -/

def isNumberChar (c : Char) : Bool :=
  c.isAlphanum || c == '_' || c == '+' || c == '-' || c == '.'

def read? (s : List Char) : Option (List Char) :=
  match readDate? s with
  | some rest => some rest
  | none =>
    let number := s.takeWhile isNumberChar
    if isInteger number || isFloat number then some (s.dropWhile isNumberChar) else none

end Scalar
end Toml
end RenderForest
