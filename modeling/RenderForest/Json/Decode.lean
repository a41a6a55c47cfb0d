import RenderForest.Json.Draft
import RenderForest.Text.Inspect
/-!
# Decode — values of a given shape out of JSON

A decoder takes the number of levels that may still be entered and a draft.  It meets the parts
of the draft in the order of the text, so that the first fault of any kind is the one reported.
This file defines:

* `Json.Decoder` with `bool`, `string`, `natural`, `bounded`, `nullable`, `list`, `pair`;
* `Json.Decoder.record`, which reads a record from an object or from a list of its fields;
* `Json.Decoder.value`, which keeps any value;
* `Json.decodeText`, which runs a decoder on a whole text.
-/

namespace RenderForest
namespace Json

/-- Reads a value of some shape; the number is that of the levels left to enter. -/
abbrev Decoder (α : Type) := Nat → Draft → Except Error α

/-- The number of levels of lists and objects that a text may have, plus one. -/
def levelLimit : Nat := 128

/-! ## Faults of shape -/

def Draft.describe : Draft → String
  | .null => "null"
  | .bool true => "boolean `true`"
  | .bool false => "boolean `false`"
  | .number (.int n) => "integer `" ++ toString n ++ "`"
  | .number (.real x) => "floating point `" ++ Decimal.ofFloat x.value ++ "`"
  | .string s => "string " ++ Text.inspect s
  | .array .. => "sequence"
  | .object .. => "map"
  | .unreadable e => e.message
  | .broken e => e.message

def Draft.wrongType (d : Draft) (expected : String) : Error :=
  match d with
  | .unreadable e => e
  | .broken e => e
  | d => .wrongType d.describe expected

def enter (levels : Nat) (k : Nat → Except Error α) : Except Error α :=
  match levels with
  | 0 => .error .tooDeep
  | 1 => .error .tooDeep
  | n + 2 => k (n + 1)

/-- The fault of a list of which a reader wanted no more items. -/
def closeList (rest : List Draft) (stop : Option Error) : Except Error Unit :=
  match rest, stop with
  | [], none => .ok ()
  | [], some .trailingComma => .error .trailingComma
  | [], some .noListSeparator => .error .trailingCharacters
  | [], some e => .error e
  | _ :: _, _ => .error .trailingCharacters

/-- Skips a value, and reports a fault of syntax in it. -/
def skip (d : Draft) : Except Error Unit :=
  match d.fault? with
  | some e => .error e
  | none => .ok ()

namespace Decoder

/-! ## Scalars -/

def bool : Decoder Bool := fun _ d =>
  match d with
  | .bool b => .ok b
  | d => .error (d.wrongType "a boolean")

def string : Decoder String := fun _ d =>
  match d with
  | .string s => .ok s
  | d => .error (d.wrongType "a string")

/-- An integer between two bounds; the name of the range is used in messages. -/
def bounded (low high : Int) (name : String) : Decoder Int := fun _ d =>
  match d with
  | .number (.int n) =>
    if low ≤ n && n ≤ high then .ok n else .error (.wrongValue d.describe name)
  | d => .error (d.wrongType name)

/-- A natural number below two to the sixty-fourth. -/
def natural : Decoder Nat := fun levels d =>
  (bounded 0 18446744073709551615 "usize" levels d).map Int.toNat

/-- A signed number of sixty-four bits. -/
def signed : Decoder Int :=
  bounded (-9223372036854775808) 9223372036854775807 "isize"

/-! ## Containers -/

/-- Nothing for null, and otherwise a value. -/
def nullable (inner : Decoder α) : Decoder (Option α) := fun levels d =>
  match d with
  | .null => .ok none
  | d => (inner levels d).map some

/-- The default for null, and otherwise a value. -/
def orDefault [Inhabited α] (inner : Decoder α) : Decoder α := fun levels d =>
  (nullable inner levels d).map fun v => v.getD default

def eachItem (read : β → Except Error α) : List β → Except Error (List α)
  | [] => .ok []
  | d :: rest =>
    match read d with
    | .error e => .error e
    | .ok v => (eachItem read rest).map (v :: ·)

def list (inner : Decoder α) : Decoder (List α) := fun levels d =>
  match d with
  | .array items stop => enter levels fun levels =>
    match eachItem (inner levels) items with
    | .error e => .error e
    | .ok values =>
      match stop with
      | some e => .error e
      | none => .ok values
  | d => .error (d.wrongType "a sequence")

def pair (first : Decoder α) (second : Decoder β) : Decoder (α × β) := fun levels d =>
  let expected := "a tuple of size 2"
  match d with
  | .array items stop => enter levels fun levels =>
    let missing (n : Nat) : Except Error (α × β) := .error (stop.getD (.wrongLength n expected))
    match items with
    | [] => missing 0
    | a :: rest =>
      match first levels a with
      | .error e => .error e
      | .ok a =>
        match rest with
        | [] => missing 1
        | b :: rest =>
          match second levels b with
          | .error e => .error e
          | .ok b => (closeList rest stop).map fun _ => (a, b)
  | d => .error (d.wrongType expected)

/-! ## Whole values -/

mutual

/-- Keeps a value as it is; of a repeated field the last value counts. -/
def valueAt (levels : Nat) : Draft → Except Error Value
  | .null => .ok .null
  | .bool b => .ok (.bool b)
  | .number n => .ok (.number n)
  | .string s => .ok (.string s)
  | .array items stop =>
    if levels ≤ 1 then .error .tooDeep
    else
      match valuesAt (levels - 1) items with
      | .error e => .error e
      | .ok values =>
        match stop with
        | some e => .error e
        | none => .ok (.array values)
  | .object fields stop =>
    if levels ≤ 1 then .error .tooDeep
    else
      match fieldsAt (levels - 1) fields with
      | .error e => .error e
      | .ok fields =>
        match stop with
        | some e => .error e
        | none => .ok (.object (Catalog.ofEntries fields))
  | .unreadable e => .error e
  | .broken e => .error e

def valuesAt (levels : Nat) : List Draft → Except Error (List Value)
  | [] => .ok []
  | d :: rest =>
    match valueAt levels d with
    | .error e => .error e
    | .ok v => (valuesAt levels rest).map (v :: ·)

def fieldsAt (levels : Nat) : List (String × Draft) → Except Error (List (String × Value))
  | [] => .ok []
  | (n, d) :: rest =>
    match valueAt levels d with
    | .error e => .error e
    | .ok v => (fieldsAt levels rest).map ((n, v) :: ·)

end

def value : Decoder Value := valueAt

/-! ## Records -/

/-- A field of a record: its name and what its value does to the record. -/
structure Field (σ : Type) where
  name : String
  store : Nat → Draft → σ → Except Error σ

def Field.of (name : String) (inner : Decoder α) (store : α → σ → σ) : Field σ where
  name := name
  store levels d s := (inner levels d).map fun v => store v s

/-- Reads the fields of an object into a record; unknown ones are skipped. -/
def storeFields (known : List (Field σ)) (levels : Nat) :
    List String → List (String × Draft) → σ → Except Error σ
  | _, [], s => .ok s
  | seen, (n, d) :: rest, s =>
    match known.find? (·.name == n) with
    | none =>
      match skip d with
      | .error e => .error e
      | .ok () => storeFields known levels seen rest s
    | some f =>
      if seen.contains n then .error (.repeatedField n)
      else
        match f.store levels d s with
        | .error e => .error e
        | .ok s => storeFields known levels (n :: seen) rest s

/-- Reads the items of a list into the fields of a record, in their order. -/
def storeItems (levels : Nat) (stop : Option Error) :
    List (Field σ) → List Draft → σ → Except Error σ
  | [], items, s => (closeList items stop).map fun _ => s
  | _ :: _, [], s =>
    match stop with
    | some e => .error e
    | none => .ok s
  | f :: fields, d :: items, s =>
    match f.store levels d s with
    | .error e => .error e
    | .ok s => storeItems levels stop fields items s

/-- A record whose missing fields keep their initial values. -/
def record (name : String) (known : List (Field σ)) (initial : σ) : Decoder σ := fun levels d =>
  match d with
  | .object fields stop => enter levels fun levels =>
    match storeFields known levels [] fields initial with
    | .error e => .error e
    | .ok s =>
      match stop with
      | some e => .error e
      | none => .ok s
  | .array items stop => enter levels fun levels => storeItems levels stop known items initial
  | d => .error (d.wrongType ("struct " ++ name))

end Decoder

def decodeText (decoder : Decoder α) (text : String) : Except Error α :=
  let (draft, more) := Draft.read text
  match decoder levelLimit draft with
  | .error e => .error e
  | .ok v => if more then .error .trailingCharacters else .ok v

mutual

def Value.draft : Value → Draft
  | .null => .null
  | .bool b => .bool b
  | .number n => .number n
  | .string s => .string s
  | .array items => .array (draftItems items) none
  | .object fields => .object (draftFields fields) none

def Value.draftItems : List Value → List Draft
  | [] => []
  | v :: rest => v.draft :: Value.draftItems rest

def Value.draftFields : List (String × Value) → List (String × Draft)
  | [] => []
  | (n, v) :: rest => (n, v.draft) :: Value.draftFields rest

end

def decodeValue (decoder : Decoder α) (v : Value) : Except Error α :=
  decoder levelLimit v.draft

end Json
end RenderForest
