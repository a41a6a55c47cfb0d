/-!
# Item — the values and tables of a TOML document

A document is a table.  Tables can be written as a whole, by headers or by dotted keys, and each
way has its own rules on what may be added later.  This file defines:

* `Origin`, the way in which a table came to be, and `Item`;
* `Entries.within?`, which goes down to the table of a header;
* `Entries.insert?`, which adds a value under a dotted key;
* `Entries.open?` and `Entries.append?`, the two kinds of headers.
-/

namespace RenderForest
namespace Toml

/-! ## Items -/

inductive Origin where
  /-- Written as a value; nothing can be added. -/
  | inline
  /-- Opened by its own header. -/
  | header
  /-- Named on the way in a header. -/
  | implied
  /-- Named on the way in a dotted key. -/
  | dotted
  deriving DecidableEq, Repr

inductive Item where
  | text (s : String)
  | flag (b : Bool)
  /-- A number or a date. -/
  | scalar
  | list (items : List Item)
  | table (origin : Origin) (entries : List (String × Item))
  /-- Tables of one name, the last one first. -/
  | tables (all : List (List (String × Item)))

abbrev Entries := List (String × Item)

namespace Entries

def put (key : String) (item : Item) : Entries → Entries
  | [] => [(key, item)]
  | (k, i) :: rest => if k == key then (k, item) :: rest else (k, i) :: put key item rest

def get? (entries : Entries) (key : String) : Option Item :=
  entries.lookup key

theorem get?_cons (k other : String) (item : Item) (rest : Entries) :
    Entries.get? ((k, item) :: rest) other = if other = k then some item else rest.get? other := by
  by_cases h : other = k
  · simp [get?, h]
  · have hb : (other == k) = false := by simpa using h
    simp [get?, List.lookup_cons, h, hb]

/-- Setting the item of a key changes exactly that key. -/
theorem get?_put (entries : Entries) (key other : String) (item : Item) :
    (entries.put key item).get? other = if other = key then some item else entries.get? other := by
  induction entries with
  | nil => exact get?_cons key other item []
  | cons e rest ih =>
    obtain ⟨k, i⟩ := e
    by_cases hk : k = key
    · subst hk
      simp only [put, BEq.rfl, if_true, get?_cons]
      by_cases h : other = k <;> simp [h]
    · have hb : (k == key) = false := by simpa using hk
      simp only [put, hb, get?_cons]
      by_cases h : other = k
      · subst h
        simp [hk, get?_cons]
      · simp [h, get?_cons, ih]

/-! ## Going down -/

/-- Changes the table at the end of a path of headers; tables that are missing are added. -/
def within? (f : Entries → Option Entries) : List String → Entries → Option Entries
  | [], entries => f entries
  | key :: path, entries =>
    match entries.get? key with
    | none => (within? f path []).map fun es => entries.put key (.table .implied es)
    | some (.table .inline _) => none
    | some (.table origin es) =>
      (within? f path es).map fun es => entries.put key (.table origin es)
    | some (.tables (last :: others)) =>
      (within? f path last).map fun es => entries.put key (.tables (es :: others))
    | some _ => none

def add? (key : String) (value : Item) (entries : Entries) : Option Entries :=
  match entries.get? key with
  | none => some (entries.put key value)
  | some _ => none

/-- Adds a value at the end of a path of dotted keys below a table of a given origin.  Values are
added only to tables that dotted keys made, and tables that have a header are not entered. -/
def insertBelow? (key : String) (value : Item) :
    Origin → List String → Entries → Option Entries
  | origin, [], entries => if origin == .dotted then entries.add? key value else none
  | _, k :: path, entries =>
    match entries.get? k with
    | none =>
      (insertBelow? key value .dotted path []).map fun es => entries.put k (.table .dotted es)
    | some (.table .implied es) =>
      (insertBelow? key value .implied path es).map fun es => entries.put k (.table .implied es)
    | some (.table .dotted es) =>
      (insertBelow? key value .dotted path es).map fun es => entries.put k (.table .dotted es)
    | some (.tables (last :: others)) =>
      (insertBelow? key value .header path last).map fun es =>
        entries.put k (.tables (es :: others))
    | some _ => none

def insert? (path : List String) (key : String) (value : Item) (entries : Entries) :
    Option Entries :=
  match path with
  | [] => entries.add? key value
  | path => insertBelow? key value .header path entries

/-! ## Headers -/

/-- Opens the table of a header, which must be new or only named on the way before. -/
def open? (path : List String) (key : String) (entries : Entries) : Option Entries :=
  entries.within? (fun es =>
    match es.get? key with
    | none => some (es.put key (.table .header []))
    | some (.table .implied inner) => some (es.put key (.table .header inner))
    | some _ => none) path

/-- Begins another table of those with one name. -/
def append? (path : List String) (key : String) (entries : Entries) : Option Entries :=
  entries.within? (fun es =>
    match es.get? key with
    | none => some (es.put key (.tables [[]]))
    | some (.tables all) => some (es.put key (.tables ([] :: all)))
    | some _ => none) path

end Entries
end Toml
end RenderForest
