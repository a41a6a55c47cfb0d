import RenderForest.Text.Blank
/-!
# Attributes — an insertion-ordered map from names to values

The attributes of an element keep the order in which their names were first set.  This file
defines:

* `Attributes` with `get?`, `contains`, `set`, `push` and `remove`;
* `Attributes.ofList`, which sets entries one after another;
* `Attributes.mergeClass`, which adds a word to the `class` value.
-/

namespace RenderForest

/-- Names with their values, in order. -/
structure Attributes where
  entries : List (String × String) := []
  deriving DecidableEq, Repr, Inhabited

namespace Attributes

def empty : Attributes := ⟨[]⟩

/-- The value under a name, the first of several. -/
def get? (a : Attributes) (name : String) : Option String :=
  a.entries.lookup name

def contains (a : Attributes) (name : String) : Bool :=
  (a.get? name).isSome

/-- Replaces the value under a name in place, or appends a new entry. -/
def setEntries (name value : String) : List (String × String) → List (String × String)
  | [] => [(name, value)]
  | (n, v) :: rest => if n == name then (n, value) :: rest else (n, v) :: setEntries name value rest

def set (a : Attributes) (name value : String) : Attributes :=
  ⟨setEntries name value a.entries⟩

/-- Appends an entry whose name is known to be new. -/
def push (a : Attributes) (name value : String) : Attributes :=
  ⟨a.entries ++ [(name, value)]⟩

/-- Drops the first entry of a name. -/
def removeEntries (name : String) : List (String × String) → List (String × String)
  | [] => []
  | (n, v) :: rest => if n == name then rest else (n, v) :: removeEntries name rest

def remove (a : Attributes) (name : String) : Option String × Attributes :=
  (a.get? name, ⟨removeEntries name a.entries⟩)

def ofList (entries : List (String × String)) : Attributes :=
  entries.foldl (fun a (n, v) => a.set n v) empty

/-- The value of a class list with a further class, unless it holds that word already. -/
def addWord (value word : String) : String :=
  if (Text.words value.toList).contains word.toList then value
  else if value.isEmpty then word
  else value ++ " " ++ word

def mergeClass (a : Attributes) (word : String) : Attributes :=
  match a.get? "class" with
  | some value => a.set "class" (addWord value word)
  | none => a.push "class" word

def ofListWhere (keep : String × String → Bool) (entries : List (String × String)) : Attributes :=
  ofList (entries.filter keep)

end Attributes
end RenderForest
