import RenderForest.Tree.Node
/-!
# Token — the flat stream that a document arrives in

A document is a list of tokens; only the nesting marks of its tokens tell the tree.  This file
defines:

* `Nesting`, the mark, with the integers that stand for it;
* `TokenMeta` and `Token`;
* the attribute operations `Token.attrIndex?`, `Token.attr?`, `Token.setAttr`, `Token.pushAttr`
  and `Token.joinAttr`;
* `Token.withMeta`, which makes sure that a token has a record of extra data.
-/

namespace RenderForest

/-! ## Nesting -/

/-- Whether a token closes, stands alone, or opens. -/
inductive Nesting where
  | closing
  | selfClosing
  | opening
  deriving DecidableEq, Repr

namespace Nesting

def toInt : Nesting → Int
  | .closing => -1
  | .selfClosing => 0
  | .opening => 1

def ofInt? : Int → Option Nesting
  | -1 => some .closing
  | 0 => some .selfClosing
  | 1 => some .opening
  | _ => none

def refusal (n : Int) : String :=
  "nesting must be -1, 0 or 1, got " ++ toString n

theorem ofInt?_toInt (n : Nesting) : ofInt? n.toInt = some n := by
  cases n <;> rfl

end Nesting

/-! ## Tokens -/

/-- Data attached to a token while it is compiled. -/
structure TokenMeta where
  /-- The attributes as the annotation left them. -/
  attrs : Catalog String := []
  /-- A node computed beforehand; it is never read from a text. -/
  node : Option Node := none
  /-- Further data, kept as it came. -/
  extra : Json.Fields := []
  deriving Repr, Inhabited

/-- One unit of a parsed document. -/
structure Token where
  kind : String := ""
  tag : String := ""
  attrs : List (String × String) := []
  /-- The first source line, from zero, and the line behind the last. -/
  map : Option (Nat × Nat) := none
  nesting : Nesting := .selfClosing
  level : Int := 0
  children : Option (List Token) := none
  content : String := ""
  markup : String := ""
  info : String := ""
  details : Option TokenMeta := none
  block : Bool := false
  hidden : Bool := false
  deriving Repr

instance : Inhabited Token := ⟨{}⟩

namespace Token

def attrIndex? (t : Token) (name : String) : Option Nat :=
  t.attrs.findIdx? fun (n, _) => n == name

/-- The value of the first attribute of a name. -/
def attr? (t : Token) (name : String) : Option String :=
  t.attrs.lookup name

/-- Replaces the value of the first attribute of a name, or appends a new attribute. -/
def setAttr (t : Token) (name value : String) : Token :=
  { t with attrs := Attributes.setEntries name value t.attrs }

/-- Appends an attribute, whether or not the name is new. -/
def pushAttr (t : Token) (name value : String) : Token :=
  { t with attrs := t.attrs ++ [(name, value)] }

def joined (old value : String) : String :=
  if old.isEmpty then value else old ++ " " ++ value

/-- Joins a value to the first attribute of a name with a space, or appends a new attribute. -/
def joinAttr (t : Token) (name value : String) : Token :=
  match t.attr? name with
  | some old => t.setAttr name (joined old value)
  | none => t.pushAttr name value

/-- Gives the token a record of extra data if it has none. -/
def withMeta (t : Token) : Token :=
  { t with details := some (t.details.getD {}) }

/-- The tokens inside, none if there is no list. -/
def inner (t : Token) : List Token :=
  t.children.getD []

/-- Tokens of this kind hold the inline content of a block. -/
def isInline (t : Token) : Bool :=
  t.kind == "inline"

end Token
end RenderForest
