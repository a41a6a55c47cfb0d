/-!
# Catalog — entries sorted by name

A catalog holds at most one value per name and lists its entries by name, in the order of code
points.  This file defines:

* `Catalog.insert`, which stores a value under a name;
* `Catalog.ofEntries`, which stores entries one after another, so that the last of a name stays;
* `Catalog.get?`, the value under a name.
-/

namespace RenderForest

/-- Entries in the order of their names. -/
abbrev Catalog (α : Type) := List (String × α)

namespace Catalog

def insert (name : String) (value : α) : Catalog α → Catalog α
  | [] => [(name, value)]
  | (n, v) :: rest =>
    if name == n then (n, value) :: rest
    else if name < n then (name, value) :: (n, v) :: rest
    else (n, v) :: insert name value rest

def ofEntries (entries : List (String × α)) : Catalog α :=
  entries.foldl (fun c (n, v) => insert n v c) []

def get? (c : Catalog α) (name : String) : Option α :=
  c.lookup name

end Catalog
end RenderForest
