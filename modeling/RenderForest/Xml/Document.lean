import RenderForest.Xml.CharData
/-!
# Document — well-formed XML with its namespaces

A document is one element.  The reader refuses everything that is not well formed, document types
included, and resolves the prefixes of names.  This file defines:

* `Xml.Attr` and `Xml.Tree`, the resolved tree;
* `Xml.Scope`, the prefixes in force, and `Xml.resolve?`, which resolves one start tag;
* `Xml.read?`, which reads a document.
-/

namespace RenderForest
namespace Xml

/-! ## Trees -/

structure Attr where
  space : Option String
  name : String
  value : String
  deriving DecidableEq, Repr

/-- A tree; `remark` stands for comments and processing instructions. -/
inductive Tree where
  | text (s : String)
  | remark
  | element (space : Option String) (name : String) (attrs : List Attr) (children : List Tree)
  deriving Repr

/-! ## Namespaces -/

def xmlSpace : String := "http://www.w3.org/XML/1998/namespace"

def xmlnsSpace : String := "http://www.w3.org/2000/xmlns/"

/-- The namespaces in force under their prefixes, the innermost first; the default namespace has
the empty prefix. -/
abbrev Scope := List (String × String)

/-- An attribute as it is written, with its value read. -/
abbrev RawAttr := QName × String

/-- Adds the declarations of a start tag, given those that it made so far; `none` if one of them
is not allowed. -/
def declare? (own : Scope) : List RawAttr → Option Scope
  | [] => some own
  | (name, value) :: rest =>
    if name.space == "xmlns" then
      if value == xmlnsSpace then none
      else if (name.base == "xml") != (value == xmlSpace) then none
      else if own.any (·.1 == name.base) then none
      else declare? (if value == xmlSpace then own else own ++ [(name.base, value)]) rest
    else if name.base == "xmlns" then
      if value == xmlSpace || value == xmlnsSpace then none
      else declare? (own ++ [("", value)]) rest
    else declare? own rest

def isDeclaration (a : RawAttr) : Bool :=
  a.1.space == "xmlns" || a.1.base == "xmlns"

/-- The namespace of an element name; `none` if its prefix is not declared. -/
def elementSpace? (scope : Scope) (name : QName) : Option (Option String) :=
  match scope.lookup name.space with
  | some uri => some (some uri)
  | none => if name.space.isEmpty then some none else none

/-- The namespace of an attribute name; a name without prefix has none. -/
def attrSpace? (scope : Scope) (name : QName) : Option (Option String) :=
  if name.space == "xml" then some (some xmlSpace)
  else if name.space.isEmpty then some none
  else (scope.lookup name.space).map some

/-- Resolves the attributes of a start tag; `none` if one is repeated or has no namespace. -/
def resolveAttrs? (scope : Scope) (done : List Attr) : List RawAttr → Option (List Attr)
  | [] => some done.reverse
  | (name, value) :: rest =>
    if isDeclaration (name, value) then resolveAttrs? scope done rest
    else
      match attrSpace? scope name with
      | none => none
      | some space =>
        if done.any fun a => a.space == space && a.name == name.base then none
        else resolveAttrs? scope (⟨space, name.base, value⟩ :: done) rest

/-- A start tag with its names resolved, and the scope inside the element. -/
structure StartTag where
  space : Option String
  attrs : List Attr
  scope : Scope

def resolve? (scope : Scope) (name : QName) (attrs : List RawAttr) : Option StartTag :=
  if name.space == "xmlns" then none
  else
    match declare? [] attrs with
    | none => none
    | some own =>
      let inner := own ++ scope
      match elementSpace? inner name, resolveAttrs? inner [] attrs with
      | some space, some resolved => some ⟨space, resolved, inner⟩
      | _, _ => none

/-! ## Reading -/

def skipSpace (s : List Char) : List Char :=
  s.dropWhile isSpace

/-- Reads an attribute; blanks may stand around the equals sign. -/
def readAttr? (s : List Char) : Option (RawAttr × List Char) :=
  match readQName? s with
  | none => none
  | some (name, rest) =>
    match skipSpace rest with
    | '=' :: rest =>
      match skipSpace rest with
      | q :: rest =>
        if q == '\x22' || q == '\x27' then
          let inside (c : Char) := c != q && c != '<'
          match rest.dropWhile inside with
          | e :: after =>
            if e == q then
              (valueOf? (rest.takeWhile inside)).map fun v => ((name, String.ofList v), after)
            else none
          | [] => none
        else none
      | [] => none
    | _ => none

/-- Reads the attributes of a start tag and its end; the flag tells an element without content. -/
def readAttrs? : Nat → List RawAttr → List Char → Option (List RawAttr × Bool × List Char)
  | 0, _, _ => none
  | fuel + 1, done, s =>
    match skipSpace s with
    | '/' :: '>' :: rest => some (done.reverse, true, rest)
    | '>' :: rest => some (done.reverse, false, rest)
    | rest =>
      if s.head?.any isSpace then
        match readAttr? rest with
        | some (a, rest) => readAttrs? fuel (a :: done) rest
        | none => none
      else none

def readComment? (s : List Char) : Option (List Char) :=
  match Text.breakOn? ['-', '-', '>'] s with
  | some (body, rest) =>
    if body.all isXmlChar && (Text.breakOn? ['-', '-'] body).isNone &&
        body.getLast? != some '-' then
      some rest
    else none
  | none => none

def readSection? (s : List Char) : Option (List Char × List Char) :=
  match Text.breakOn? [']', ']', '>'] s with
  | some (body, rest) => if body.all isXmlChar then some (body, rest) else none
  | none => none

/-- Reads a processing instruction behind `<?`; it must not be an XML declaration. -/
def readInstruction? (s : List Char) : Option (List Char) :=
  if (Text.stripStart? "xml ".toList s).isSome then none
  else
    match readName? s with
    | some (_, rest) =>
      match Text.breakOn? ['?', '>'] (skipSpace rest) with
      | some (body, rest) => if body.all isXmlChar then some rest else none
      | none => none
    | none => none

def readEndTag? (s : List Char) : Option (QName × List Char) :=
  match readQName? s with
  | some (name, rest) =>
    match skipSpace rest with
    | '>' :: rest => some (name, rest)
    | _ => none
  | none => none

mutual

def readElement? : Nat → Scope → List Char → Option (Tree × List Char)
  | 0, _, _ => none
  | fuel + 1, scope, s =>
    match readQName? s with
    | none => none
    | some (name, rest) =>
      match readAttrs? (rest.length + 1) [] rest with
      | none => none
      | some (raw, closed, rest) =>
        match resolve? scope name raw with
        | none => none
        | some start =>
          if closed then some (.element start.space name.base start.attrs [], rest)
          else
            match readContent? fuel start.scope [] rest with
            | some (children, stop, rest) =>
              if stop == name then
                some (.element start.space name.base start.attrs children, rest)
              else none
            | none => none

/-- Reads the content of an element up to an end tag; gives the children and the name that the
end tag closes. -/
def readContent? : Nat → Scope → List Tree → List Char → Option (List Tree × QName × List Char)
  | 0, _, _, _ => none
  | fuel + 1, scope, done, s =>
    match s with
    | [] => none
    | '<' :: '!' :: '-' :: '-' :: rest =>
      match readComment? rest with
      | some rest => readContent? fuel scope (.remark :: done) rest
      | none => none
    | '<' :: '!' :: rest =>
      match Text.stripStart? "[CDATA[".toList rest with
      | some rest =>
        match readSection? rest with
        | some (body, rest) => readContent? fuel scope (.text (String.ofList body) :: done) rest
        | none => none
      | none => none
    | '<' :: '?' :: rest =>
      match readInstruction? rest with
      | some rest => readContent? fuel scope (.remark :: done) rest
      | none => none
    | '<' :: '/' :: rest => (readEndTag? rest).map fun (name, rest) => (done.reverse, name, rest)
    | '<' :: rest =>
      match readElement? fuel scope rest with
      | some (e, rest) => readContent? fuel scope (e :: done) rest
      | none => none
    | c :: rest =>
      match textOf? (c :: rest.takeWhile (· != '<')) with
      | some body =>
        readContent? fuel scope (.text (String.ofList body) :: done) (rest.dropWhile (· != '<'))
      | none => none

end

/-- Drops the blanks, comments and instructions behind the element of a document. -/
def skipMisc? : Nat → List Char → Option (List Char)
  | 0, _ => none
  | fuel + 1, s =>
    match skipSpace s with
    | '<' :: '!' :: '-' :: '-' :: rest => (readComment? rest).bind (skipMisc? fuel)
    | '<' :: '?' :: rest => (readInstruction? rest).bind (skipMisc? fuel)
    | rest => some rest

def read? (s : List Char) : Option Tree :=
  match s with
  | '<' :: rest =>
    match readElement? (2 * s.length + 2) [] rest with
    | some (root, rest) =>
      match skipMisc? (rest.length + 1) rest with
      | some [] => some root
      | _ => none
    | none => none
  | _ => none

end Xml
end RenderForest
