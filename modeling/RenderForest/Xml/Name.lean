import RenderForest.Text.Blank
/-!
# Name — the characters and names of XML

This file defines:

* `Xml.isXmlChar`, `Xml.isNameStart`, `Xml.isNameChar`, the productions of XML 1.0;
* `Xml.QName`, a name with its namespace prefix, and `Xml.readQName?`, which reads one;
* `Xml.readName?`, which reads a name without looking at colons.
-/

namespace RenderForest
namespace Xml

/-! ## Characters -/

def isXmlChar (c : Char) : Bool :=
  let n := c.toNat
  n == 9 || n == 10 || n == 13 || (32 ≤ n && n ≤ 0xd7ff) || (0xe000 ≤ n && n ≤ 0xfffd) ||
    0x10000 ≤ n

def isSpace (c : Char) : Bool :=
  c == ' ' || c == '\t' || c == '\n' || c == '\r'

def isNameStart (c : Char) : Bool :=
  let n := c.toNat
  c.isAlpha || c == '_' || c == ':' || (0xc0 ≤ n && n ≤ 0xd6) || (0xd8 ≤ n && n ≤ 0xf6) ||
    (0xf8 ≤ n && n ≤ 0x2ff) || (0x370 ≤ n && n ≤ 0x37d) || (0x37f ≤ n && n ≤ 0x1fff) ||
    (0x200c ≤ n && n ≤ 0x200d) || (0x2070 ≤ n && n ≤ 0x218f) || (0x2c00 ≤ n && n ≤ 0x2fef) ||
    (0x3001 ≤ n && n ≤ 0xd7ff) || (0xf900 ≤ n && n ≤ 0xfdcf) || (0xfdf0 ≤ n && n ≤ 0xfffd) ||
    (0x10000 ≤ n && n ≤ 0xeffff)

def isNameChar (c : Char) : Bool :=
  let n := c.toNat
  isNameStart c || c.isDigit || c == '-' || c == '.' || n == 0xb7 ||
    (0x300 ≤ n && n ≤ 0x36f) || (0x203f ≤ n && n ≤ 0x2040)

/-! ## Names -/

/-- A name with its prefix; no prefix is written as an empty one. -/
structure QName where
  space : String
  base : String
  deriving DecidableEq, Repr

def readName? (s : List Char) : Option (List Char × List Char) :=
  match s with
  | [] => none
  | c :: rest =>
    if isNameStart c then some (c :: rest.takeWhile isNameChar, rest.dropWhile isNameChar)
    else none

/-- The name in a run of name characters: with one colon at most, and with both parts beginning
like a name. -/
def qname? (run : List Char) : Option QName :=
  match Text.splitOn ':' run with
  | [name] => if startsName name then some ⟨"", String.ofList name⟩ else none
  | [space, name] =>
    if (space.isEmpty || startsName space) && startsName name then
      some ⟨String.ofList space, String.ofList name⟩
    else none
  | _ => none
where
  startsName : List Char → Bool
    | [] => false
    | c :: _ => isNameStart c

def readQName? (s : List Char) : Option (QName × List Char) :=
  (qname? (s.takeWhile isNameChar)).map fun name => (name, s.dropWhile isNameChar)

end Xml
end RenderForest
