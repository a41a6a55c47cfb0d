import RenderForest.Toml.Item
import RenderForest.Toml.Quoted
import RenderForest.Toml.Scalar
/-!
# Document — reading TOML

A document is a list of lines: comments, headers, and keys with values.  This file defines:

* `Document.readKey?`, a dotted key, and `Document.readValue?`, a value;
* `Document.readLines`, the lines of a document one after another;
* `Toml.read?`, the table of a document, if it is one.
-/

namespace RenderForest
namespace Toml
namespace Document

/-! ## Blanks and comments -/

def skipBlanks (s : List Char) : List Char :=
  s.dropWhile Quoted.isBlank

def skipComment (s : List Char) : List Char :=
  match s with
  | '#' :: rest => rest.dropWhile Quoted.isPrintable
  | s => s

/-- What follows the end of a line, before which blanks and a comment may stand. -/
def endLine? (s : List Char) : Option (List Char) :=
  match skipComment (skipBlanks s) with
  | [] => some []
  | s => Quoted.newline? s

/-- Drops blanks, line breaks and comments; the fuel bounds their number. -/
def skipSpace : Nat → List Char → List Char
  | 0, s => s
  | fuel + 1, s =>
    match skipBlanks s with
    | '#' :: rest => skipSpace fuel (skipComment ('#' :: rest))
    | s =>
      match Quoted.newline? s with
      | some rest => skipSpace fuel rest
      | none => s

/-! ## Keys -/

def isKeyChar (c : Char) : Bool :=
  c.isAlphanum || c == '-' || c == '_'

def readPart? (s : List Char) : Option (String × List Char) :=
  let s := skipBlanks s
  let part :=
    match s.takeWhile isKeyChar with
    | [] => Quoted.readLine? s
    | name => some (name, s.drop name.length)
  part.map fun (name, rest) => (String.ofList name, skipBlanks rest)

/-- The depth to which values are nested and keys are dotted. -/
def maxDepth : Nat := 80

/-- The parts of a key: those on the way, the last one, and what follows; the fuel bounds their
number. -/
def readKey? : Nat → List Char → Option (List String × String × List Char)
  | 0, _ => none
  | fuel + 1, s =>
    (readPart? s).bind fun (name, rest) =>
      match rest with
      | '.' :: rest => (readKey? fuel rest).map fun (path, last, rest) => (name :: path, last, rest)
      | rest => some ([], name, rest)

def key? (s : List Char) : Option (List String × String × List Char) :=
  readKey? (maxDepth - 1) s

/-! ## Values -/

mutual

/-- A value, and what follows it.  The first number is the fuel, the second how much deeper
values may be nested. -/
def readValue? : Nat → Nat → List Char → Option (Item × List Char)
  | 0, _, _ => none
  | fuel + 1, depth, s =>
    match s with
    | '[' :: rest =>
      match depth with
      | 0 => none
      | depth + 1 =>
        (readItems? fuel depth (skipSpace rest.length rest)).map fun (items, rest) =>
          (.list items, rest)
    | '\x7b' :: rest =>
      match depth with
      | 0 => none
      | depth + 1 =>
        match skipBlanks rest with
        | '\x7d' :: rest => some (.table .inline [], rest)
        | rest =>
          (readEntries? fuel depth [] rest).map fun (entries, rest) =>
            (.table .inline entries, rest)
    | '\x22' :: _ => (Quoted.read? s).map fun (t, rest) => (.text (String.ofList t), rest)
    | '\x27' :: _ => (Quoted.read? s).map fun (t, rest) => (.text (String.ofList t), rest)
    | 't' :: 'r' :: 'u' :: 'e' :: rest => some (.flag true, rest)
    | 'f' :: 'a' :: 'l' :: 's' :: 'e' :: rest => some (.flag false, rest)
    | s => (Scalar.read? s).map fun rest => (.scalar, rest)

/-- The items of a list up to its closing bracket; the text begins with an item or the
bracket. -/
def readItems? : Nat → Nat → List Char → Option (List Item × List Char)
  | 0, _, _ => none
  | fuel + 1, depth, s =>
    match s with
    | ']' :: rest => some ([], rest)
    | s =>
      (readValue? fuel depth s).bind fun (item, rest) =>
        match skipSpace rest.length rest with
        | ',' :: rest =>
          (readItems? fuel depth (skipSpace rest.length rest)).map fun (items, rest) =>
            (item :: items, rest)
        | ']' :: rest => some ([item], rest)
        | _ => none

def readEntries? : Nat → Nat → Entries → List Char → Option (Entries × List Char)
  | 0, _, _, _ => none
  | fuel + 1, depth, entries, s =>
    (key? s).bind fun (path, key, rest) =>
      match rest with
      | '=' :: rest =>
        (readValue? fuel depth (skipBlanks rest)).bind fun (item, rest) =>
          (entries.insert? path key item).bind fun entries =>
            match skipBlanks rest with
            | ',' :: rest => readEntries? fuel depth entries rest
            | '\x7d' :: rest => some (entries, rest)
            | _ => none
      | _ => none

end

/-! ## Lines -/

/-- A document while it is read: its table, and the path of the header whose table is open. -/
structure State where
  root : Entries := []
  path : List String := []

def readHeader? (state : State) (s : List Char) : Option (State × List Char) :=
  match s with
  | '[' :: rest => do
    let (path, key, rest) ← key? rest
    let rest ← Text.stripStart? [']', ']'] rest
    let root ← state.root.append? path key
    let rest ← endLine? rest
    return ({ root, path := path ++ [key] }, rest)
  | rest => do
    let (path, key, rest) ← key? rest
    let rest ← Text.stripStart? [']'] rest
    let root ← state.root.open? path key
    let rest ← endLine? rest
    return ({ root, path := path ++ [key] }, rest)

def readAssignment? (state : State) (s : List Char) : Option (State × List Char) := do
  let (path, key, rest) ← key? s
  let rest ← Text.stripStart? ['='] rest
  let value := skipBlanks rest
  let (item, rest) ← readValue? (2 * value.length + 1) (maxDepth - 1) value
  let rest ← endLine? rest
  let root ← state.root.within? (Entries.insert? path key item) state.path
  return ({ state with root }, rest)

def readLines? : Nat → State → List Char → Option Entries
  | 0, _, _ => none
  | fuel + 1, state, s =>
    match skipBlanks s with
    | [] => some state.root
    | '#' :: rest => (endLine? ('#' :: rest)).bind (readLines? fuel state)
    | '[' :: rest => (readHeader? state rest).bind fun (state, rest) => readLines? fuel state rest
    | s =>
      match Quoted.newline? s with
      | some rest => readLines? fuel state rest
      | none => (readAssignment? state s).bind fun (state, rest) => readLines? fuel state rest

end Document

def read? (text : String) : Option Entries :=
  let s :=
    match text.toList with
    | '\ufeff' :: rest => rest
    | s => s
  Document.readLines? (s.length + 1) {} s

end Toml
end RenderForest
