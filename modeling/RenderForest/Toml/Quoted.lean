import RenderForest.Text.Blank
import RenderForest.Text.Reference
/-!
# Quoted — the strings of TOML

A string stands in double quotes, with escapes, or in single quotes, without; three quotes let it
run over several lines.  This file defines:

* `Quoted.newline?`, a line break, and `Quoted.isBlank`;
* `Quoted.basic?` and `Quoted.literal?`, the strings of one line;
* `Quoted.manyBasic?` and `Quoted.manyLiteral?`, the strings of several lines;
* `Quoted.read?`, any of them, and what follows it.
-/

namespace RenderForest
namespace Toml
namespace Quoted

/-! ## Characters -/

def isBlank (c : Char) : Bool :=
  c == ' ' || c == '\t'

def newline? (s : List Char) : Option (List Char) :=
  match s with
  | '\n' :: rest => some rest
  | '\r' :: '\n' :: rest => some rest
  | _ => none

def isPrintable (c : Char) : Bool :=
  c == '\t' || !Text.isAsciiControl c

/-- The character whose number is written with a count of digits, and what follows. -/
def numbered? (count : Nat) (s : List Char) : Option (Char × List Char) :=
  let digits := s.take count
  if digits.length == count && digits.all Text.isHexDigit then
    (Text.scalar? (Text.numeral 16 digits)).map fun c => (c, s.drop count)
  else none

def escape? (s : List Char) : Option (Char × List Char) :=
  match s with
  | 'b' :: rest => some ('\x08', rest)
  | 't' :: rest => some ('\t', rest)
  | 'n' :: rest => some ('\n', rest)
  | 'f' :: rest => some ('\x0c', rest)
  | 'r' :: rest => some ('\r', rest)
  | '\x22' :: rest => some ('\x22', rest)
  | '\\' :: rest => some ('\\', rest)
  | 'u' :: rest => numbered? 4 rest
  | 'U' :: rest => numbered? 8 rest
  | _ => none

def cons (c : Char) (r : List Char × List Char) : List Char × List Char :=
  (c :: r.1, r.2)

/-! ## One line -/

/-- The string behind a double quote, and what follows its end; the fuel bounds its length. -/
def basic? : Nat → List Char → Option (List Char × List Char)
  | 0, _ => none
  | fuel + 1, s =>
    match s with
    | [] => none
    | '\x22' :: rest => some ([], rest)
    | '\\' :: rest => (escape? rest).bind fun (c, rest) => (basic? fuel rest).map (cons c)
    | c :: rest => if isPrintable c then (basic? fuel rest).map (cons c) else none

def literal? (s : List Char) : Option (List Char × List Char) :=
  let text := s.takeWhile fun c => c != '\x27' && isPrintable c
  (Text.stripStart? ['\x27'] (s.drop text.length)).map fun rest => (text, rest)

/-! ## Several lines -/

/-- The greatest number of quotes at the end of a string of several lines. -/
def maxQuotes : Nat := 5

/-- The quotes at the start of a text, if they end a string of several lines: those that belong
to the string, and what follows. -/
def closing? (quote : Char) (s : List Char) : Option (List Char × List Char) :=
  let run := min (s.takeWhile (· == quote)).length maxQuotes
  if 3 ≤ run then some (List.replicate (run - 3) quote, s.drop run) else none

/-- What follows a line break that is not part of the string: blanks up to the end of the line,
and all blanks and line breaks behind it. -/
def joined? (s : List Char) : Option (List Char) :=
  (newline? (s.dropWhile isBlank)).map skip
where
  skip : List Char → List Char
    | [] => []
    | '\r' :: '\n' :: rest => skip rest
    | c :: rest => if isBlank c || c == '\n' then skip rest else c :: rest

/-- The string behind three double quotes, and what follows its end; the fuel bounds its
length. -/
def manyBasic? : Nat → List Char → Option (List Char × List Char)
  | 0, _ => none
  | fuel + 1, s =>
    match closing? '\x22' s with
    | some r => some r
    | none =>
      match newline? s with
      | some rest => (manyBasic? fuel rest).map (cons '\n')
      | none =>
        match s with
        | [] => none
        | '\\' :: rest =>
          match joined? rest with
          | some rest => manyBasic? fuel rest
          | none => (escape? rest).bind fun (c, rest) => (manyBasic? fuel rest).map (cons c)
        | c :: rest => if isPrintable c then (manyBasic? fuel rest).map (cons c) else none

def manyLiteral? : Nat → List Char → Option (List Char × List Char)
  | 0, _ => none
  | fuel + 1, s =>
    match closing? '\x27' s with
    | some r => some r
    | none =>
      match newline? s with
      | some rest => (manyLiteral? fuel rest).map (cons '\n')
      | none =>
        match s with
        | [] => none
        | c :: rest => if isPrintable c then (manyLiteral? fuel rest).map (cons c) else none

def dropBreak (s : List Char) : List Char :=
  (newline? s).getD s

/-! ## All strings -/

def readLine? (s : List Char) : Option (List Char × List Char) :=
  match s with
  | '\x22' :: rest => basic? s.length rest
  | '\x27' :: rest => literal? rest
  | _ => none

def read? (s : List Char) : Option (List Char × List Char) :=
  match s with
  | '\x22' :: '\x22' :: '\x22' :: rest => manyBasic? s.length (dropBreak rest)
  | '\x27' :: '\x27' :: '\x27' :: rest => manyLiteral? s.length (dropBreak rest)
  | s => readLine? s

end Quoted
end Toml
end RenderForest
