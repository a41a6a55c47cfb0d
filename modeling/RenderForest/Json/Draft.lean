import RenderForest.Json.Error
import RenderForest.Text.Reference
/-!
# Draft — a JSON text read as far as it goes

A consumer of JSON meets the faults of a text in the order in which they stand, and a value of
the wrong shape may come before a fault of syntax.  A draft is therefore the value that a text
writes up to its first fault, with the fault kept in its place.  This file defines:

* `Json.Draft`, values with faults inside;
* `Json.Draft.read`, which reads a whole text.
-/

namespace RenderForest
namespace Json

/-- A value with the first fault of its text in place.  A list or object that is not closed
carries the fault that stopped it; `unreadable` is a value of correct syntax that has no meaning,
and `broken` stands where no value could be read. -/
inductive Draft where
  | null
  | bool (value : Bool)
  | number (value : Number)
  | string (value : String)
  | array (items : List Draft) (stop : Option Error)
  | object (fields : List (String × Draft)) (stop : Option Error)
  | unreadable (cause : Error)
  | broken (cause : Error)
  deriving Repr

namespace Draft

/-- A result of a reader: what was read, and the rest unless a fault ended the reading. -/
abbrev Step (α : Type) := α × Option (List Char)

def skipBlanks (s : List Char) : List Char :=
  s.dropWhile fun c => c == ' ' || c == '\n' || c == '\t' || c == '\r'

/-! ## Words -/

def word (value : Draft) : List Char → List Char → Step Draft
  | [], s => (value, some s)
  | _ :: _, [] => (.broken .endInValue, none)
  | p :: ps, c :: s => if p == c then word value ps s else (.broken .badWord, none)

/-! ## Numbers -/

def largestInteger : Nat := 18446744073709551615

/-- Collects digits while the number stays in range; gives it, the number of digits taken, and
the rest. -/
def digitsInRange (n taken : Nat) : List Char → Nat × Nat × List Char
  | [] => (n, taken, [])
  | c :: s =>
    if c.isDigit then
      let next := n * 10 + hexDigit c
      if next ≤ largestInteger then digitsInRange next (taken + 1) s else (n, taken, c :: s)
    else (n, taken, c :: s)
where
  hexDigit (c : Char) : Nat := c.toNat - 48

/-- A double that is a natural number times a power of ten, by one multiplication or division
with a power of ten that is exact or nearest; `none` beyond the largest double. -/
def scaled? (significand : Nat) (exponent : Int) : Option Float :=
  go (Float.ofNat significand) exponent 8
where
  go (f : Float) (e : Int) : Nat → Option Float
    | 0 => some f
    | fuel + 1 =>
      if e.natAbs ≤ 308 then
        let power := Float.ofScientific 1 false e.natAbs
        if 0 ≤ e then
          let product := f * power
          if product.isInf then none else some product
        else some (f / power)
      else if f == 0.0 then some f
      else if 0 ≤ e then none
      else go (f / Float.ofScientific 1 false 308) (e + 308) fuel

/-- The draft of a double; one that is no number is read as null. -/
def ofFloat (x : Float) : Draft :=
  match Number.ofFloat? x with
  | some n => .number n
  | none => .null

def realNumber (negative : Bool) (significand : Nat) (exponent : Int) : Draft :=
  match scaled? significand exponent with
  | some f => ofFloat (if negative then -f else f)
  | none => .unreadable .numberTooLarge

def exponent (negative : Bool) (significand : Nat) (before : Int) (s : List Char) : Step Draft :=
  let (minus, s) := match s with
    | '+' :: s => (false, s)
    | '-' :: s => (true, s)
    | s => (false, s)
  match s with
  | [] => (.broken .endInValue, none)
  | c :: _ =>
    if c.isDigit then
      let digits := s.takeWhile Char.isDigit
      let n : Int := Text.numeral 10 digits
      (realNumber negative significand (before + if minus then -n else n),
        some (s.dropWhile Char.isDigit))
    else (.broken .badNumber, none)

def afterDigits (negative : Bool) (significand : Nat) (e : Int) (s : List Char) : Step Draft :=
  match s with
  | 'e' :: s => exponent negative significand e s
  | 'E' :: s => exponent negative significand e s
  | s => (realNumber negative significand e, some s)

def fraction (negative : Bool) (significand : Nat) (before : Int) (s : List Char) : Step Draft :=
  match s with
  | [] => (.broken .endInValue, none)
  | c :: _ =>
    if c.isDigit then
      let (n, taken, rest) := digitsInRange significand 0 s
      afterDigits negative n (before - taken) (rest.dropWhile Char.isDigit)
    else (.broken .badNumber, none)

/-- An integer with its sign: kept as one in range, and a double beyond. -/
def integer (negative : Bool) (n : Nat) : Draft :=
  if negative then
    if n == 0 || 9223372036854775808 < n then ofFloat (-Float.ofNat n)
    else .number (.int (-(n : Int)))
  else .number (.int n)

def afterInteger (negative : Bool) (n : Nat) (s : List Char) : Step Draft :=
  match s with
  | '.' :: s => fraction negative n 0 s
  | 'e' :: s => exponent negative n 0 s
  | 'E' :: s => exponent negative n 0 s
  | s => (integer negative n, some s)

/-- Reads what may follow an integer that is out of range by some digits. -/
def afterLongInteger (negative : Bool) (n : Nat) (e : Int) (s : List Char) : Step Draft :=
  match s with
  | '.' :: s => fraction negative n e s
  | s => afterDigits negative n e s

def unsigned (negative : Bool) (s : List Char) : Step Draft :=
  match s with
  | [] => (.broken .endInValue, none)
  | '0' :: s =>
    match s with
    | c :: _ => if c.isDigit then (.broken .badNumber, none) else afterInteger negative 0 s
    | [] => afterInteger negative 0 []
  | c :: _ =>
    if c.isDigit then
      let (n, _, rest) := digitsInRange 0 0 s
      match rest.takeWhile Char.isDigit with
      | [] => afterInteger negative n rest
      | more => afterLongInteger negative n more.length (rest.dropWhile Char.isDigit)
    else (.broken .badNumber, none)

/-! ## Strings -/

def hexEscape (s : List Char) : Except Error (Nat × List Char) :=
  match s with
  | a :: b :: c :: d :: rest =>
    if [a, b, c, d].all Text.isHexDigit then .ok (Text.numeral 16 [a, b, c, d], rest)
    else .error .badEscape
  | _ => .error .endInString

def shortEscape? (c : Char) : Option Char :=
  match c with
  | '\x22' => some '\x22'
  | '\\' => some '\\'
  | '/' => some '/'
  | 'b' => some '\x08'
  | 'f' => some '\x0c'
  | 'n' => some '\n'
  | 'r' => some '\r'
  | 't' => some '\t'
  | _ => none

/-- The character of a pair of escapes, of which the first has been read. -/
def unicodeEscape (first : Nat) (s : List Char) : Except Error (Char × List Char) :=
  if 0xdc00 ≤ first && first ≤ 0xdfff then .error .loneSurrogate
  else if first < 0xd800 || 0xdbff < first then .ok (Char.ofNat first, s)
  else
    match s with
    | [] => .error .endInString
    | '\\' :: [] => .error .endInString
    | '\\' :: 'u' :: s =>
      match hexEscape s with
      | .error e => .error e
      | .ok (second, rest) =>
        if second < 0xdc00 || 0xdfff < second then .error .loneSurrogate
        else .ok (Char.ofNat ((first - 0xd800) * 1024 + (second - 0xdc00) + 0x10000), rest)
    | _ => .error .halfSurrogatePair

def stringBody : Nat → List Char → List Char → Except Error (String × List Char)
  | 0, _, _ => .error .endInString
  | fuel + 1, done, s =>
    match s with
    | [] => .error .endInString
    | '\x22' :: rest => .ok (String.ofList done.reverse, rest)
    | '\\' :: rest =>
      match rest with
      | [] => .error .endInString
      | 'u' :: rest =>
        match hexEscape rest with
        | .error e => .error e
        | .ok (n, rest) =>
          match unicodeEscape n rest with
          | .error e => .error e
          | .ok (c, rest) => stringBody fuel (c :: done) rest
      | e :: rest =>
        match shortEscape? e with
        | some c => stringBody fuel (c :: done) rest
        | none => .error .badEscape
    | c :: rest =>
      if c.toNat < 32 then .error .controlCharacter else stringBody fuel (c :: done) rest

/-- Skips the rest of a string in which escapes need not name characters. -/
def skipString : List Char → Option (List Char)
  | [] => none
  | '\x22' :: rest => some rest
  | '\\' :: _ :: rest => skipString rest
  | c :: rest => if c.toNat < 32 then none else skipString rest

def stringValue (s : List Char) : Step Draft :=
  match stringBody (s.length + 1) [] s with
  | .ok (text, rest) => (.string text, some rest)
  | .error e =>
    if e == .loneSurrogate || e == .halfSurrogatePair then
      match skipString s with
      | some rest => (.unreadable e, some rest)
      | none => (.broken e, none)
    else (.broken e, none)

/-! ## Values -/

mutual

/-- Reads a value; the first argument bounds the number of characters still to read. -/
def value : Nat → List Char → Step Draft
  | 0, _ => (.broken .endInValue, none)
  | fuel + 1, s =>
    match skipBlanks s with
    | [] => (.broken .endInValue, none)
    | 'n' :: rest => word .null "ull".toList rest
    | 't' :: rest => word (.bool true) "rue".toList rest
    | 'f' :: rest => word (.bool false) "alse".toList rest
    | '-' :: rest => unsigned true rest
    | '\x22' :: rest => stringValue rest
    | '[' :: rest => items fuel true [] rest
    | '\x7b' :: rest => fields fuel true [] rest
    | c :: rest => if c.isDigit then unsigned false (c :: rest) else (.broken .noValue, none)

/-- Reads the items of a list behind the opening bracket or behind an item. -/
def items : Nat → Bool → List Draft → List Char → Step Draft
  | 0, _, done, _ => (.array done.reverse (some .endInList), none)
  | fuel + 1, first, done, s =>
    match skipBlanks s with
    | [] => (.array done.reverse (some .endInList), none)
    | ']' :: rest => (.array done.reverse none, some rest)
    | c :: rest =>
      if first then item fuel done (c :: rest)
      else if c == ',' then
        match skipBlanks rest with
        | ']' :: _ => (.array done.reverse (some .trailingComma), none)
        | rest => item fuel done rest
      else (.array done.reverse (some .noListSeparator), none)

def item : Nat → List Draft → List Char → Step Draft
  | 0, done, _ => (.array done.reverse (some .endInList), none)
  | fuel + 1, done, s =>
    match value fuel s with
    | (v, some rest) => items fuel false (v :: done) rest
    | (v, none) => (.array (v :: done).reverse none, none)

def fields : Nat → Bool → List (String × Draft) → List Char → Step Draft
  | 0, _, done, _ => (.object done.reverse (some .endInObject), none)
  | fuel + 1, first, done, s =>
    match skipBlanks s with
    | [] => (.object done.reverse (some .endInObject), none)
    | '\x7d' :: rest => (.object done.reverse none, some rest)
    | '\x22' :: rest =>
      if first then field fuel done rest
      else (.object done.reverse (some .noObjectSeparator), none)
    | ',' :: rest =>
      if first then (.object done.reverse (some .keyNotString), none)
      else
        match skipBlanks rest with
        | [] => (.object done.reverse (some .endInValue), none)
        | '\x22' :: rest => field fuel done rest
        | '\x7d' :: _ => (.object done.reverse (some .trailingComma), none)
        | _ => (.object done.reverse (some .keyNotString), none)
    | _ :: _ =>
      (.object done.reverse (some (if first then .keyNotString else .noObjectSeparator)), none)

def field : Nat → List (String × Draft) → List Char → Step Draft
  | 0, done, _ => (.object done.reverse (some .endInObject), none)
  | fuel + 1, done, s =>
    match stringBody (s.length + 1) [] s with
    | .error e => (.object done.reverse (some e), none)
    | .ok (name, rest) =>
      match skipBlanks rest with
      | [] => (.object ((name, .broken .endInObject) :: done).reverse none, none)
      | ':' :: rest =>
        match value fuel rest with
        | (v, some rest) => fields fuel false ((name, v) :: done) rest
        | (v, none) => (.object ((name, v) :: done).reverse none, none)
      | _ => (.object ((name, .broken .noColon) :: done).reverse none, none)

end

/-- The draft of a whole text, and whether anything but blanks follows the value. -/
def read (text : String) : Draft × Bool :=
  let s := text.toList
  match value (3 * s.length + 3) s with
  | (v, some rest) => (v, !(skipBlanks rest).isEmpty)
  | (v, none) => (v, false)

mutual

/-- The first fault that a consumer meets who skips the value. -/
def fault? : Draft → Option Error
  | .array items stop => (faultOfItems? items).or stop
  | .object fields stop => (faultOfFields? fields).or stop
  | .broken e => some e
  | _ => none

def faultOfItems? : List Draft → Option Error
  | [] => none
  | v :: rest => (fault? v).or (faultOfItems? rest)

def faultOfFields? : List (String × Draft) → Option Error
  | [] => none
  | (_, v) :: rest => (fault? v).or (faultOfFields? rest)

end

end Draft
end Json
end RenderForest
