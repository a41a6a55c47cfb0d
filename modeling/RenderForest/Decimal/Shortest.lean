/-!
# Shortest — the fewest digits that read back

A finite binary number has the form `m * 2 ^ q`.  Among the decimal numbers that round to it, the
one with the fewest digits is written, and of several with equally many digits the nearest.  This
file defines:

* `Binary`, a finite binary number, and `Binary.ofBits`, which reads one off its sixty-four bits;
* `Shortest.digits`, the digits and the decimal exponent to write;
* `Shortest.positional` and `Shortest.render`, two ways to place the decimal point.
-/

namespace RenderForest
namespace Decimal

/-! ## Binary numbers -/

/-- The number `mantissa * 2 ^ exponent`; `isLeast` marks a mantissa whose lower neighbour lies
only half a step away. -/
structure Binary where
  mantissa : Nat
  exponent : Int
  isLeast : Bool
  deriving DecidableEq, Repr

/-- The magnitude that the bits of a double encode. -/
def Binary.ofBits (bits : UInt64) : Binary :=
  let fraction : Nat := bits.toNat % Nat.pow 2 52
  let power : Nat := bits.toNat / Nat.pow 2 52 % Nat.pow 2 11
  if power == 0 then ⟨fraction, -1074, false⟩
  else ⟨fraction + Nat.pow 2 52, (power : Int) - 1075, fraction == 0 && power != 1⟩

structure Quotient where
  num : Nat
  den : Nat
  deriving DecidableEq, Repr

/-- The quotient `n * 2 ^ q`. -/
def Quotient.scaled (n : Nat) (q : Int) : Quotient :=
  if 0 ≤ q then ⟨n * Nat.pow 2 q.toNat, 1⟩ else ⟨n, Nat.pow 2 (-q).toNat⟩

def Quotient.shift (x : Quotient) (e : Int) : Quotient :=
  if 0 ≤ e then ⟨x.num, x.den * Nat.pow 10 e.toNat⟩
  else ⟨x.num * Nat.pow 10 (-e).toNat, x.den⟩

/-! ## The decimal grid -/

def digitCount (n : Nat) : Nat :=
  if n < 10 then 1 else digitCount (n / 10) + 1

/-- The least number of places by which a positive quotient must move to reach one. -/
def leadingZeros (x : Quotient) : Nat → Nat → Nat
  | 0, places => places
  | fuel + 1, places =>
    if x.den ≤ x.num * Nat.pow 10 places then places else leadingZeros x fuel (places + 1)

def leadingExponent (x : Quotient) : Int :=
  if x.den ≤ x.num then (digitCount (x.num / x.den) : Int) - 1
  else -(leadingZeros x 400 1 : Int)

namespace Shortest

/-- The grid point of a given spacing that reads back, if there is one: of the two neighbours of
the value on the grid the nearer, the even one on a tie. -/
def onGrid? (b : Binary) (e : Int) : Option Nat :=
  let value := (Quotient.scaled (4 * b.mantissa) (b.exponent - 2)).shift e
  let low :=
    (Quotient.scaled (4 * b.mantissa - if b.isLeast then 1 else 2) (b.exponent - 2)).shift e
  let high := (Quotient.scaled (4 * b.mantissa + 2) (b.exponent - 2)).shift e
  let closed := b.mantissa % 2 == 0
  let reads (d : Nat) : Bool :=
    if closed then low.num ≤ d * low.den && d * high.den ≤ high.num
    else low.num < d * low.den && d * high.den < high.num
  let below := value.num / value.den
  let above := below + 1
  match reads below, reads above with
  | true, true =>
    let twice := 2 * (value.num % value.den)
    if twice < value.den || (twice == value.den && below % 2 == 0) then some below else some above
  | true, false => some below
  | false, true => some above
  | false, false => none

/-- Tries one digit, then two, and so on. -/
def search (b : Binary) (first : Int) : Nat → Nat → Nat × Int
  | 0, _ => (b.mantissa, 0)
  | fuel + 1, places =>
    match onGrid? b (first - places) with
    | some d => (d, first - places)
    | none => search b first fuel (places + 1)

/-- Moves zeros at the end of the digits into the exponent. -/
def dropZeros (d : Nat) (e : Int) : Nat → Nat × Int
  | 0 => (d, e)
  | fuel + 1 => if d % 10 == 0 && d != 0 then dropZeros (d / 10) (e + 1) fuel else (d, e)

/-- The digits, as a number, and the power of ten that multiplies them. -/
def digits (b : Binary) : Nat × Int :=
  if b.mantissa == 0 then (0, 0)
  else
    let first := leadingExponent (Quotient.scaled b.mantissa b.exponent)
    let (d, e) := search b first 18 0
    dropZeros d e 400

/-! ## Placing the decimal point -/

/-- Writes all digits positionally, with at least one digit on both sides of the point. -/
def positional (d : Nat) (e : Int) : String :=
  let text := (toString d).toList
  let zeros (n : Nat) := List.replicate n '0'
  if 0 ≤ e then String.ofList (text ++ zeros e.toNat ++ ['.', '0'])
  else
    let places := (-e).toNat
    let padded := zeros (places + 1 - text.length) ++ text
    let cut := padded.length - places
    String.ofList (padded.take cut ++ ['.'] ++ padded.drop cut)

/-- The first exponent that is written with the letter `e`, and the last small one. -/
def largestPositional : Int := 16

/-- Numbers below this power of ten are written with the letter `e`. -/
def smallestPositional : Int := -5

/-- Writes digits positionally while the point stays near them, and with an exponent beyond. -/
def render (d : Nat) (e : Int) : String :=
  let text := (toString d).toList
  let point := (text.length : Int) + e
  if smallestPositional < point && point ≤ largestPositional then positional d e
  else
    let mantissa := match text with
      | [c] => [c]
      | c :: rest => c :: '.' :: rest
      | [] => []
    String.ofList mantissa ++ (if 0 < point then "e+" else "e") ++ toString (point - 1)

end Shortest

/-- A double, written with the fewest digits that read back. -/
def ofFloat (x : Float) : String :=
  let bits := x.toBits
  let sign := if bits.toNat / Nat.pow 2 63 == 1 then "-" else ""
  let (d, e) := Shortest.digits (Binary.ofBits bits)
  sign ++ Shortest.render d e

end Decimal
end RenderForest
