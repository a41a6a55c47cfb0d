import RenderForest.Catalog
import RenderForest.Decimal.Shortest
/-!
# Value — JSON values and their text

This file defines:

* `Json.Number` and `Json.Value`, the data model of JSON with ordered object fields;
* `Json.Value.same`, equality of values;
* `Json.Value.compact`, the text without blanks, and `Json.Value.pretty`, the indented text.
-/

namespace RenderForest
namespace Json

/-! ## The data model -/

/-- A double that is a number: neither infinite nor undefined. -/
structure Double where
  value : Float
  finite : value.isFinite = true

/-- Doubles are compared as numbers, so that both zeros are equal. -/
instance : BEq Double := ⟨fun a b => a.value == b.value⟩

instance : Repr Double := ⟨fun d p => reprPrec d.value p⟩

/-- An integer, or a double for every other number. -/
inductive Number where
  | int (value : Int)
  | real (value : Double)
  deriving BEq, Repr

def Number.ofFloat? (x : Float) : Option Number :=
  if h : x.isFinite = true then some (.real ⟨x, h⟩) else none

/-- A JSON value; the fields of an object keep their order. -/
inductive Value where
  | null
  | bool (value : Bool)
  | number (value : Number)
  | string (value : String)
  | array (items : List Value)
  | object (fields : List (String × Value))
  deriving Repr

abbrev Fields := Catalog Value

namespace Value

/-! ## Equality -/

mutual

def same : Value → Value → Bool
  | .null, .null => true
  | .bool a, .bool b => a == b
  | .number a, .number b => a == b
  | .string a, .string b => a == b
  | .array as, .array bs => sameItems as bs
  | .object as, .object bs => sameFields as bs
  | _, _ => false

def sameItems : List Value → List Value → Bool
  | [], [] => true
  | a :: as, b :: bs => a.same b && sameItems as bs
  | _, _ => false

def sameFields : List (String × Value) → List (String × Value) → Bool
  | [], [] => true
  | (n, a) :: as, (m, b) :: bs => n == m && a.same b && sameFields as bs
  | _, _ => false

end

instance : BEq Value := ⟨same⟩

/-! ## Parts -/

/-- The value of a field of an object, the last of several. -/
def field? (v : Value) (name : String) : Option Value :=
  match v with
  | .object fields => fields.reverse.lookup name
  | _ => none

def ofNat (n : Nat) : Value :=
  .number (.int n)

def ofText? : Option String → Value
  | some s => .string s
  | none => .null

/-! ## Text -/

def hexPair (n : Nat) : List Char :=
  let digit (k : Nat) := if k < 10 then Char.ofNat (48 + k) else Char.ofNat (87 + k)
  [digit (n / 16), digit (n % 16)]

def quoteChar (c : Char) : List Char :=
  match c with
  | '\x22' => ['\\', '\x22']
  | '\\' => ['\\', '\\']
  | '\x08' => ['\\', 'b']
  | '\x0c' => ['\\', 'f']
  | '\n' => ['\\', 'n']
  | '\r' => ['\\', 'r']
  | '\t' => ['\\', 't']
  | c => if c.toNat < 32 then ['\\', 'u', '0', '0'] ++ hexPair c.toNat else [c]

def quote (s : String) : String :=
  String.ofList ('\x22' :: s.toList.flatMap quoteChar ++ ['\x22'])

def numberText : Number → String
  | .int n => toString n
  | .real x => Decimal.ofFloat x.value

mutual

/-- The text without blanks. -/
def compact : Value → String
  | .null => "null"
  | .bool true => "true"
  | .bool false => "false"
  | .number n => numberText n
  | .string s => quote s
  | .array items => "[" ++ compactItems true items ++ "]"
  | .object fields => "\x7b" ++ compactFields true fields ++ "\x7d"

def compactItems (first : Bool) : List Value → String
  | [] => ""
  | v :: rest => (if first then "" else ",") ++ compact v ++ compactItems false rest

def compactFields (first : Bool) : List (String × Value) → String
  | [] => ""
  | (n, v) :: rest =>
    (if first then "" else ",") ++ quote n ++ ":" ++ compact v ++ compactFields false rest

end

/-- A line break followed by two spaces per level. -/
def newline (level : Nat) : String :=
  String.ofList ('\n' :: List.replicate (2 * level) ' ')

mutual

/-- The text with one item or field on a line. -/
def prettyAt (level : Nat) : Value → String
  | .null => "null"
  | .bool true => "true"
  | .bool false => "false"
  | .number n => numberText n
  | .string s => quote s
  | .array [] => "[]"
  | .array (v :: rest) =>
    "[" ++ newline (level + 1) ++ prettyAt (level + 1) v ++ prettyItems (level + 1) rest ++
      newline level ++ "]"
  | .object [] => "\x7b\x7d"
  | .object ((n, v) :: rest) =>
    "\x7b" ++ newline (level + 1) ++ quote n ++ ": " ++ prettyAt (level + 1) v ++
      prettyFields (level + 1) rest ++ newline level ++ "\x7d"

def prettyItems (level : Nat) : List Value → String
  | [] => ""
  | v :: rest => "," ++ newline level ++ prettyAt level v ++ prettyItems level rest

def prettyFields (level : Nat) : List (String × Value) → String
  | [] => ""
  | (n, v) :: rest =>
    "," ++ newline level ++ quote n ++ ": " ++ prettyAt level v ++ prettyFields level rest

end

def pretty (v : Value) : String :=
  prettyAt 0 v

end Value
end Json
end RenderForest
