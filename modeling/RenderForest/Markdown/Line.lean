import RenderForest.Markdown.Source
/-!
# Line — the indentation of a line, column by column

A tab reaches to the next multiple of four columns, and a container may use up only some of its
columns.  This file defines:

* `Line`, a place in a line with the columns of a tab that are left;
* `Line.spaces` and `Line.skipSpaces`, which use up columns;
* `Line.char?`, which uses up one given character;
* `Prefix`, what a container demands of a line, and `Line.enter`, which checks the containers.
-/

namespace RenderForest
namespace Markdown

structure Line where
  pos : Nat
  /-- The position from which the next tab is counted. -/
  tabStart : Nat
  /-- The columns of a tab that have not been used up. -/
  spare : Nat := 0

namespace Line

def start (pos : Nat) : Line :=
  { pos, tabStart := pos }

/-- Uses up a number of columns, if blanks fill them; gives the number that is missing. -/
def takeSpaces (s : Source) (n : Nat) (l : Line) : Nat × Line :=
  let used := min l.spare n
  go (n - used) { l with spare := l.spare - used }
where
  go : Nat → Line → Nat × Line
    | 0, l => (0, l)
    | n + 1, l =>
      match s.at? l.pos with
      | some ' ' => go n { l with pos := l.pos + 1 }
      | some '\t' =>
        let width := 4 - (l.pos - l.tabStart) % 4
        let used := min width (n + 1)
        let next : Line :=
          { pos := l.pos + 1, tabStart := l.pos + 1, spare := width - used }
        if n + 1 ≤ width then (0, next) else go (n + 1 - width) next
      | _ => (n + 1, l)
  termination_by n => n
  decreasing_by
    · omega
    · have : (l.pos - l.tabStart) % 4 < 4 := Nat.mod_lt _ (by omega)
      omega

/-- Uses up exactly a number of columns; otherwise as many as there are. -/
def spaces (s : Source) (n : Nat) (l : Line) : Bool × Line :=
  let (missing, l) := l.takeSpaces s n
  (missing == 0, l)

/-- Uses up at most a number of columns; gives how many. -/
def spacesUpTo (s : Source) (n : Nat) (l : Line) : Nat × Line :=
  let (missing, l) := l.takeSpaces s n
  (n - missing, l)

def skipSpaces (s : Source) (l : Line) : Line :=
  { l with pos := s.runEnd (fun c => c == ' ' || c == '\t') l.pos, spare := 0 }

def char? (s : Source) (c : Char) (l : Line) : Option Line :=
  if s.isAt l.pos c then some { l with pos := l.pos + 1 } else none

def atEnd (s : Source) (l : Line) : Bool :=
  match s.at? l.pos with
  | none => true
  | some c => Source.isBreak c

def quoteMark? (s : Source) (l : Line) : Option Line :=
  (l.char? s '>').map fun l => (l.spaces s 1).2

/-! ## Containers -/

end Line

/-- What a container demands of each line: nothing, the mark of a quote, or a number of columns. -/
inductive Prefix where
  | free
  | quote
  | indent (columns : Nat)
  deriving DecidableEq, Repr

/-- Passes over what a container demands, if it is there.  An empty line belongs to every list
item. -/
def Prefix.pass? (s : Source) (l : Line) : Prefix → Option Line
  | .free => some l
  | .quote => (l.spacesUpTo s 3).2.quoteMark? s
  | .indent n =>
    let (full, next) := l.spaces s n
    if full || next.atEnd s then some next else none

namespace Line

/-- Passes over what containers demand, from the outermost on; gives the number of those whose
demand is met. -/
def enter (s : Source) : List Prefix → Line → Nat × Line
  | [], l => (0, l)
  | p :: rest, l =>
    match p.pass? s l with
    | none => (0, l)
    | some next =>
      let (n, last) := enter s rest next
      (n + 1, last)

/-- The place behind the containers of the line at a position, if it lies in all of them. -/
def within? (s : Source) (containers : List Prefix) (pos : Nat) : Option Line :=
  let (n, l) := enter s containers (start pos)
  if n == containers.length then some l else none

/-- The place behind those containers of the line at a position in which it lies. -/
def behind (s : Source) (containers : List Prefix) (pos : Nat) : Line :=
  (enter s containers (start pos)).2

end Line
end Markdown
end RenderForest
