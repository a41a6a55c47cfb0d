import RenderForest.Text.Escape
/-!
# Token — the tags and texts of written HTML

HTML as it is written by `toHtml` is cut into tags, comments and texts.  Behind the start tag of
some elements, everything up to their end tag is text.  This file defines:

* `Hypertext.Token`;
* `Hypertext.Content`, how the text at a place is to be read;
* `Hypertext.next`, the first token of a text, and what follows it.
-/

namespace RenderForest
namespace Hypertext

/-! ## Tokens -/

inductive Token where
  | startTag (name : String) (attrs : List (String × String))
  | endTag (name : String)
  | text (chars : List Char)
  | comment
  | finish
  deriving DecidableEq, Repr

inductive Content where
  /-- Tags, comments and texts. -/
  | markup
  /-- Text with references up to the end tag of an element. -/
  | decoded (name : String)
  /-- Text up to the end tag of an element. -/
  | raw (name : String)
  /-- Text up to the end tag of a script, which may hold commented scripts. -/
  | script
  /-- Text up to the end. -/
  | plain
  deriving DecidableEq, Repr

/-! ## Characters -/

def replacement : Char := '\ufffd'

def replaceNull (s : List Char) : List Char :=
  s.map fun c => if c.toNat == 0 then replacement else c

/-- Makes a line feed of every line break. -/
def joinBreaks : List Char → List Char
  | [] => []
  | '\r' :: '\n' :: rest => '\n' :: joinBreaks rest
  | '\r' :: rest => '\n' :: joinBreaks rest
  | c :: rest => c :: joinBreaks rest

/-- A text as it is read: without a byte order mark, and with line feeds only. -/
def prepare (s : String) : List Char :=
  match s.toList with
  | '\ufeff' :: rest => joinBreaks rest
  | chars => joinBreaks chars

/-! ## Tags -/

def endsName (c : Char) : Bool :=
  Text.isAsciiBlank c || c == '/' || c == '>'

def lowerName (name : List Char) : String :=
  String.ofList (name.map Char.toLower)

def skipBlanks (s : List Char) : List Char :=
  s.dropWhile Text.isAsciiBlank

def readValue (s : List Char) : List Char × List Char :=
  match skipBlanks s with
  | '\x22' :: rest =>
    (rest.takeWhile (· != '\x22'), (rest.dropWhile (· != '\x22')).tail)
  | '\x27' :: rest =>
    (rest.takeWhile (· != '\x27'), (rest.dropWhile (· != '\x27')).tail)
  | s =>
    let isValue (c : Char) : Bool := !Text.isAsciiBlank c && c != '>'
    (s.takeWhile isValue, s.dropWhile isValue)

/-- Adds an attribute unless its name is there already. -/
def addAttr (attrs : List (String × String)) (name value : String) : List (String × String) :=
  if attrs.any (·.1 == name) then attrs else attrs ++ [(name, value)]

/-- The attributes of a start tag, and what follows the tag, if it ends; the fuel bounds their
number. -/
def readAttrs :
    Nat → List (String × String) → List Char → Option (List (String × String) × List Char)
  | 0, _, _ => none
  | fuel + 1, attrs, s =>
    match s.dropWhile fun c => Text.isAsciiBlank c || c == '/' with
    | [] => none
    | '>' :: rest => some (attrs, rest)
    | c :: rest =>
      let isName (c : Char) : Bool := !endsName c && c != '='
      let name := lowerName (replaceNull (c :: rest.takeWhile isName))
      let after := rest.dropWhile isName
      match skipBlanks after with
      | '=' :: rest =>
        let (value, rest) := readValue rest
        let value := String.ofList (Text.unescapeChars (replaceNull value))
        readAttrs fuel (addAttr attrs name value) rest
      | _ => readAttrs fuel (addAttr attrs name "") after

def readName (s : List Char) : String × List Char :=
  (lowerName (replaceNull (s.takeWhile fun c => !endsName c)), s.dropWhile fun c => !endsName c)

def behindSign (s : List Char) : List Char :=
  (s.dropWhile (· != '>')).tail

/-- The tag behind a less-than sign, and what follows it.  A tag that does not end is left out
with all that follows. -/
def readTag? (s : List Char) : Option (Token × List Char) :=
  match s with
  | '/' :: '>' :: rest => some (.comment, rest)
  | '/' :: c :: rest =>
    if c.isAlpha then
      let (name, tail) := readName (c :: rest)
      match readAttrs (tail.length + 1) [] tail with
      | some (_, rest) => some (.endTag name, rest)
      | none => some (.finish, [])
    else some (.comment, behindSign (c :: rest))
  | '!' :: rest => some (.comment, behindSign rest)
  | '?' :: rest => some (.comment, behindSign rest)
  | c :: rest =>
    if c.isAlpha then
      let (name, tail) := readName (c :: rest)
      match readAttrs (tail.length + 1) [] tail with
      | some (attrs, rest) => some (.startTag name attrs, rest)
      | none => some (.finish, [])
    else none
  | [] => none

/-! ## Comments -/

def behindEnd : List Char → List Char
  | [] => []
  | '-' :: '-' :: '>' :: rest => rest
  | '-' :: '-' :: '!' :: '>' :: rest => rest
  | _ :: rest => behindEnd rest

/-- What follows a comment whose beginning is left out. -/
def behindComment (s : List Char) : List Char :=
  match s with
  | '>' :: rest => rest
  | '-' :: '>' :: rest => rest
  | s => behindEnd s

/-! ## Texts -/

def startsEnd (name : String) (s : List Char) : Bool :=
  match s with
  | '<' :: '/' :: rest =>
    (rest.take name.length).map Char.toLower == name.toList &&
      (match rest.drop name.length with
      | c :: _ => endsName c
      | [] => false)
  | _ => false

/-- The text before the end tag of an element, and what follows from there on. -/
def upToEnd (name : String) : List Char → List Char × List Char
  | [] => ([], [])
  | c :: rest =>
    if startsEnd name (c :: rest) then ([], c :: rest)
    else
      let (text, rest) := upToEnd name rest
      (c :: text, rest)

/-- Where a script stands: outside comments, in a comment, or in a script in a comment. -/
inductive ScriptPlace where
  | outside
  | inComment
  | inScript
  deriving DecidableEq, Repr

def startsScript (s : List Char) : Bool :=
  match s with
  | '<' :: rest =>
    (rest.take 6).map Char.toLower == "script".toList &&
      (match rest.drop 6 with
      | c :: _ => endsName c
      | [] => false)
  | _ => false

def ScriptPlace.step (p : ScriptPlace) (s : List Char) : ScriptPlace :=
  match p with
  | .outside => if "<!--".toList.isPrefixOf s then .inComment else .outside
  | .inComment =>
    if "-->".toList.isPrefixOf s then .outside
    else if startsScript s then .inScript
    else .inComment
  | .inScript =>
    if "-->".toList.isPrefixOf s then .outside
    else if startsEnd "script" s then .inComment
    else .inScript

def upToScriptEnd (p : ScriptPlace) : List Char → List Char × List Char
  | [] => ([], [])
  | c :: rest =>
    if p != .inScript && startsEnd "script" (c :: rest) then ([], c :: rest)
    else
      let (text, rest) := upToScriptEnd (p.step (c :: rest)) rest
      (c :: text, rest)

/-! ## The first token -/

/-- The first token of a text outside the elements that hold text only. -/
def nextMarkup (s : List Char) : Token × List Char :=
  match s with
  | [] => (.finish, [])
  | '<' :: '!' :: '-' :: '-' :: rest => (.comment, behindComment rest)
  | '<' :: rest =>
    match readTag? rest with
    | some (t, rest) => (t, rest)
    | none => (.text ['<'], rest)
  | c :: rest =>
    (.text (Text.unescapeChars (c :: rest.takeWhile (· != '<'))), rest.dropWhile (· != '<'))

def textOr (text rest : List Char) : Token × List Char :=
  if text.isEmpty then nextMarkup rest else (.text (replaceNull text), rest)

def next (content : Content) (s : List Char) : Token × List Char :=
  match content with
  | .markup => nextMarkup s
  | .decoded name =>
    let (text, rest) := upToEnd name s
    textOr (Text.unescapeChars text) rest
  | .raw name =>
    let (text, rest) := upToEnd name s
    textOr text rest
  | .script =>
    let (text, rest) := upToScriptEnd .outside s
    textOr text rest
  | .plain => if s.isEmpty then (.finish, []) else (.text (replaceNull s), [])

end Hypertext
end RenderForest
