import RenderForest.Markdown.Event
/-!
# Emphasis — pairing runs of delimiters

A run that may close is paired with the nearest run before it that may open and fits.  What is
left of a run is text.  This file defines:

* `Part`, a tree or a run that has not been paired;
* `Opener.fits`, whether an opening and a closing run fit;
* `Emphasis.resolve`, the trees of parts.
-/

namespace RenderForest
namespace Markdown

/-- A tree, or a run of delimiters that starts at a position. -/
inductive Part where
  | tree (t : Tree)
  | run (mark : Char) (start count : Nat) (opens closes : Bool)

def textLeaf (s : Source) (start stop : Nat) : Tree :=
  .leaf (.text (s.text start stop)) ⟨start, stop⟩

namespace Emphasis

/-- A run that may open; `length` is the length that it had at first. -/
structure Opener where
  mark : Char
  start : Nat
  count : Nat
  length : Nat
  /-- Whether the run may close as well. -/
  both : Bool
  /-- Whether the run may still be paired. -/
  live : Bool := true

/-- What has been read: trees and runs that may open. -/
inductive Entry where
  | tree (t : Tree)
  | opener (o : Opener)

/-- The characters of a run as texts of one character each. -/
def runTexts (s : Source) (start count : Nat) : List Tree :=
  (List.range count).map fun k => textLeaf s (start + k) (start + k + 1)

/-- The trees of entries; runs are text. -/
def Entry.trees (s : Source) : Entry → List Tree
  | .tree t => [t]
  | .opener o => runTexts s o.start o.count

/-- Whether a closing run of a length fits an opening run.  If one of them may do both, their
lengths must not add up to a multiple of three, unless both are multiples of three; strikethrough
needs runs of equal length. -/
def Opener.fits (o : Opener) (mark : Char) (length : Nat) (both : Bool) : Bool :=
  o.live && o.mark == mark && (mark != '~' || o.length == length) &&
    ((!both && !o.both) || (length + o.length) % 3 != 0 || length % 3 == 0)

/-- The entries behind the nearest opener that fits, the last first, with it and the entries before
it. -/
def split? (fits : Opener → Bool) : List Entry → Option (List Entry × Opener × List Entry)
  | [] => none
  | e :: rest =>
    let further := (split? fits rest).map fun (inner, o, outer) => (e :: inner, o, outer)
    match e with
    | .opener o => if fits o then some ([], o, rest) else further
    | .tree _ => further

/-- Wraps trees in emphasis with delimiters on both sides, two at a time from the inside out. -/
def wrap (mark : Char) : Nat → Nat → Nat → List Tree → Tree
  | 0, start, stop, children => .node .emphasis ⟨start, stop⟩ children
  | 1, start, stop, children =>
    .node (if mark == '~' then .strikethrough else .emphasis) ⟨start - 1, stop + 1⟩ children
  | n + 2, start, stop, children =>
    let inner := Tree.node (if mark == '~' then .strikethrough else .strong)
      ⟨start - 2, stop + 2⟩ children
    if n == 0 then inner else wrap mark n (start - 2) (stop + 2) [inner]

def retire (mark : Char) : Entry → Entry
  | .opener o => .opener (if o.mark == mark then { o with live := false } else o)
  | e => e

/-- Pairs a closing run with openers as long as one fits; gives what is left of the run. -/
def close (s : Source) (mark : Char) (length : Nat) (both : Bool) :
    Nat → Nat → Nat → List Entry → Nat × Nat × List Entry
  | 0, start, count, entries => (start, count, entries)
  | fuel + 1, start, count, entries =>
    if count == 0 then (start, count, entries)
    else
      match split? (fun o => o.fits mark length both) entries with
      | none =>
        (start, count, if mark == '~' then entries.map (retire mark) else entries)
      | some (inner, o, outer) =>
        let n := min count o.count
        let children := inner.reverse.flatMap (Entry.trees s)
        let tree := wrap mark n (o.start + o.count) start children
        let outer := if n < o.count then .opener { o with count := o.count - n } :: outer else outer
        close s mark length both fuel (start + n) (count - n) (.tree tree :: outer)

def step (s : Source) (entries : List Entry) : Part → List Entry
  | .tree t => .tree t :: entries
  | .run mark start length opens closes =>
    let both := opens && closes
    let (start, count, entries) :=
      if closes then close s mark length both length start length entries
      else (start, length, entries)
    if count == 0 then entries
    else if opens then .opener { mark, start, count, length, both } :: entries
    else ((runTexts s start count).map Entry.tree).reverse ++ entries

def resolve (s : Source) (parts : List Part) : List Tree :=
  (parts.foldl (step s) []).reverse.flatMap (Entry.trees s)

end Emphasis
end Markdown
end RenderForest
