import RenderForest.Text.Blank
/-!
# Host — names and addresses of machines in URLs

A host is a domain, an address of four numbers, or an address of eight groups in brackets.  This
file defines:

* `Host.isFour`, addresses of four numbers, and `Host.isEight`, addresses of eight groups;
* `Host.isDomain`, what stands for a machine in a URL of a well-known scheme;
* `Host.isName`, what stands for one in any other URL.
-/

namespace RenderForest
namespace Hypertext
namespace Host

/-! ## Four numbers -/

def isDigitOf (base : Nat) (c : Char) : Bool :=
  Text.isHexDigit c && decide (Text.hexValue c < base)

/-- A number in the base that its beginning tells: `0x` sixteen, `0` eight, else ten. -/
def number? (s : List Char) : Option Nat :=
  let (base, digits) :=
    match s with
    | '0' :: 'x' :: rest => (16, rest)
    | '0' :: 'X' :: rest => (16, rest)
    | '0' :: d :: rest => (8, d :: rest)
    | s => (10, s)
  if s.isEmpty || !digits.all (isDigitOf base) then none else some (Text.numeral base digits)

/-- The parts of a dotted name; a dot at the end adds none. -/
def labels (s : List Char) : List (List Char) :=
  let parts := Text.splitOn '.' s
  if parts.getLast? == some [] then parts.dropLast else parts

def endsInNumber (s : List Char) : Bool :=
  match (labels s).getLast? with
  | none => false
  | some last => !last.isEmpty && last.all Char.isDigit || (number? last).isSome

/-- Whether a text is an address of at most four numbers; the last fills what is left. -/
def isFour (s : List Char) : Bool :=
  let parts := labels s
  match parts.reverse.mapM number? with
  | some (last :: others) =>
    decide (parts.length ≤ 4) && decide (last < Nat.pow 256 (5 - parts.length)) &&
      others.all fun n => decide (n < 256)
  | _ => false

/-! ## Eight groups -/

/-- Whether a text is a group of an address: one to four digits of base sixteen. -/
def isGroup (s : List Char) : Bool :=
  !s.isEmpty && decide (s.length ≤ 4) && s.all Text.isHexDigit

/-- Whether a text is a number below 256 without needless zeros. -/
def isByte (s : List Char) : Bool :=
  !s.isEmpty && s.all Char.isDigit && decide (Text.numeral 10 s < 256) &&
    (s.length == 1 || s.head? != some '0')

/-- The number of groups in a part of an address; four bytes at its end are two groups. -/
def groups? (mayEnd : Bool) (s : List Char) : Option Nat :=
  if s.isEmpty then some 0
  else
    let parts := Text.splitOn ':' s
    if parts.all isGroup then some parts.length
    else
      let bytes := Text.splitOn '.' (parts.getLastD [])
      if mayEnd && parts.dropLast.all isGroup && bytes.length == 4 && bytes.all isByte then
        some (parts.length + 1)
      else none

/-- Whether a text is an address of eight groups; two colons stand for groups left out. -/
def isEight (s : List Char) : Bool :=
  match Text.breakOn? [':', ':'] s with
  | none => groups? true s == some 8
  | some (before, after) =>
    match groups? false before, groups? true after with
    | some m, some n => decide (m + n < 8)
    | _, _ => false

def bracketed? (s : List Char) : Option (List Char) :=
  match s with
  | '[' :: rest => if rest.getLast? == some ']' then some rest.dropLast else some []
  | _ => none

/-! ## Names -/

def isForbidden (c : Char) : Bool :=
  c.toNat == 0 || "\t\n\r #/:<>?@[\\]^|".toList.contains c

def isForbiddenInDomain (c : Char) : Bool :=
  isForbidden c || Text.isAsciiControl c || c == '%' || c == '\ufffd' ||
    (0x80 ≤ c.toNat && c.toNat < 0xa0)

/-- The bytes of a text whose percent signs with two digits stand for one byte. -/
def decodePercents : List Char → List UInt8
  | [] => []
  | '%' :: a :: b :: rest =>
    if Text.isHexDigit a && Text.isHexDigit b then
      UInt8.ofNat (Text.numeral 16 [a, b]) :: decodePercents rest
    else 0x25 :: decodePercents (a :: b :: rest)
  | c :: rest => (String.singleton c).toUTF8.toList ++ decodePercents rest

def decoded? (s : List Char) : Option (List Char) :=
  (String.fromUTF8? ⟨(decodePercents s).toArray⟩).map String.toList

/-- Whether a text is a host of a URL with a well-known scheme. -/
def isDomain (s : List Char) : Bool :=
  match bracketed? s with
  | some address => isEight address
  | none =>
    match decoded? s with
    | none => false
    | some name =>
      !name.isEmpty && !name.any isForbiddenInDomain && (!endsInNumber name || isFour name)

/-- Whether a text is a host of any other URL. -/
def isName (s : List Char) : Bool :=
  match bracketed? s with
  | some address => isEight address
  | none => !s.any isForbidden

end Host
end Hypertext
end RenderForest
