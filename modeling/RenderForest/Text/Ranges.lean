import RenderForest.Text.Blank
/-!
# Ranges — sets of characters given by ranges of code points

A table of a character property lists ranges in base sixteen, such as `61-7a`, or single code
points.  This file defines:

* `Text.Ranges`, the ranges, and `Text.Ranges.ofTable`, which reads a table;
* `Text.Ranges.contains`, the membership test.
-/

namespace RenderForest
namespace Text

/-- Closed ranges of code points. -/
abbrev Ranges := Array (Nat × Nat)

def readRange (s : List Char) : Nat × Nat :=
  match splitOn '-' s with
  | [low, high] => (numeral 16 low, numeral 16 high)
  | [single] => (numeral 16 single, numeral 16 single)
  | _ => (1, 0)

def Ranges.ofTable (lines : List String) : Ranges :=
  (lines.flatMap fun line => (words line.toList).map readRange).toArray

def Ranges.contains (r : Ranges) (c : Char) : Bool :=
  r.any fun (low, high) => low ≤ c.toNat && c.toNat ≤ high

end Text
end RenderForest
