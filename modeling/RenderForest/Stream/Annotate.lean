import RenderForest.Safety
import RenderForest.Source.LineRange
/-!
# Annotate — what every token is given before it is rendered

Each block token at the top learns its source lines and its index in the stream; in safe mode the
values that may not be written are emptied at every depth.  This file defines:

* `SourceAttr`, the names of the three bookkeeping attributes, and `isSourceAttr`;
* `Token.prepare`, the part that reaches the tokens inside;
* `Token.annotate`, one top token at an index, and `annotate`, a stream.
-/

namespace RenderForest

/-! ## Bookkeeping attributes -/

namespace SourceAttr

/-- The first source line, from one. -/
def lineStart : String := "data-source-line-start"

/-- The line behind the last source line, from one. -/
def lineEnd : String := "data-source-line-end"

def tokenIndex : String := "data-token-idx"

end SourceAttr

def isSourceAttr (name : String) : Bool :=
  name == SourceAttr.lineStart || name == SourceAttr.lineEnd || name == SourceAttr.tokenIndex

/-! ## Preparing -/

/-- Empties a value that may not be written. -/
def neutralize (attr : String × String) : String × String :=
  if Safety.isSafeValue attr.1 attr.2 then attr else (attr.1, "")

mutual

/-- Gives a token, and the tokens inside, a record of extra data; in safe mode the unsafe values
are emptied. -/
def Token.prepare (safe : Bool) : Token → Token
  | ⟨kind, tag, attrs, map, nesting, level, children, content, markup, info, data, block, hidden⟩ =>
    ⟨kind, tag, if safe then attrs.map neutralize else attrs, map, nesting, level,
      Token.prepareInner safe children, content, markup, info, some (data.getD {}), block, hidden⟩

def Token.prepareInner (safe : Bool) : Option (List Token) → Option (List Token)
  | none => none
  | some ts => some (Token.prepareList safe ts)

def Token.prepareList (safe : Bool) : List Token → List Token
  | [] => []
  | t :: rest => t.prepare safe :: Token.prepareList safe rest

end

/-! ## Annotating -/

def Token.mirrorAttrs (t : Token) : Token :=
  { t with details := some { t.details.getD {} with attrs := Catalog.ofEntries t.attrs } }

/-- Writes the source lines of a token that has any. -/
def Token.markLines (env : Env) (t : Token) : Token :=
  match t.map with
  | none => t
  | some _ =>
    let (start, stop) := t.lineRange env
    (t.setAttr SourceAttr.lineStart (toString (start + 1))).setAttr SourceAttr.lineEnd
      (toString (stop + 1))

/-- Annotates the token at an index of the top stream. -/
def Token.annotate (env : Env) (index : Nat) (t : Token) : Token :=
  let t := t.prepare env.safeMode
  if t.block then
    ((t.markLines env).setAttr SourceAttr.tokenIndex (toString index)).mirrorAttrs
  else t

def annotate (env : Env) (tokens : List Token) : List Token :=
  tokens.mapIdx fun index t => t.annotate env index

end RenderForest
