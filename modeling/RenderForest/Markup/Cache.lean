import RenderForest.Markup.Policy
/-!
# Cache — raw markup that was parsed before

The nodes of short fragments are kept, the most recently asked first; when there is no room the
fragment that was asked longest ago is dropped.  This file defines:

* `Markup.Cache` with its capacity;
* `Markup.Cache.parse`, which answers like `Markup.parse` and updates the cache.
-/

namespace RenderForest
namespace Markup

abbrev CacheKey := String × Policy

/-- The parsed fragments, the most recently asked first. -/
structure Cache where
  capacity : Nat
  entries : List (CacheKey × List Node) := []

namespace Cache

def defaultCapacity : Nat := 256

/-- The longest fragment, in bytes, that is kept. -/
def longestKept : Nat := 4096

/-- An empty cache; there is room for one fragment at least. -/
def ofCapacity (n : Nat) : Cache :=
  { capacity := max n 1 }

instance : Inhabited Cache := ⟨ofCapacity defaultCapacity⟩

def size (c : Cache) : Nat :=
  c.entries.length

def isEmpty (c : Cache) : Bool :=
  c.size == 0

/-- Moves an entry to the front, and drops what exceeds the capacity. -/
def touch (c : Cache) (key : CacheKey) (nodes : List Node) : Cache :=
  { c with
    entries := ((key, nodes) :: c.entries.filter fun e => e.1 != key).take c.capacity }

def parse (c : Cache) (raw : String) (policy : Policy) : List Node × Cache :=
  if longestKept < raw.utf8ByteSize then (Markup.parse raw policy, c)
  else
    match c.entries.lookup (raw, policy) with
    | some nodes => (nodes, c.touch (raw, policy) nodes)
    | none =>
      let nodes := Markup.parse raw policy
      (nodes, c.touch (raw, policy) nodes)

end Cache
end Markup
end RenderForest
