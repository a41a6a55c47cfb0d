import RenderForest.Hypertext.Token
/-!
# Scanner — a page cut at its tags

A scanner reads a page from left to right.  A less-than sign begins a tag, inside of which double
quotes delimit the values of attributes; all that stands outside of tags is text.  A scanner that
knows comments reads them as HTML does: one ends behind the next `-->` or `--!>`, or at once if it
begins with `>` or `->`.  Nothing is decoded while a page is cut.  This file defines:

* `Html.Mark`, a tag or a comment, and `Html.Runs`, a page cut at its marks;
* `Html.scan`, the scanner;
* `Html.Runs.unescaped`, the same runs with their references read back.
-/

namespace RenderForest
namespace Html

/-! ## Marks and runs -/

/-- What stands between the texts of a page. -/
inductive Mark where
  | start (name : String) (attrs : List (String × String))
  | stop (name : String)
  | comment (text : String)
  deriving DecidableEq, Repr

/-- A page cut at its marks: the text before the first of them, and each mark with the text behind
it. -/
structure Runs where
  head : String
  tail : List (Mark × String)
  deriving DecidableEq, Repr

attribute [ext] Runs

namespace Runs

def empty : Runs := ⟨"", []⟩

def text (s : String) (r : Runs) : Runs := { r with head := s ++ r.head }

def mark (m : Mark) (r : Runs) : Runs := ⟨"", (m, r.head) :: r.tail⟩

def marks (r : Runs) : List Mark := r.tail.map Prod.fst

@[simp] theorem marks_text (s : String) (r : Runs) : (r.text s).marks = r.marks := rfl

@[simp] theorem marks_mark (m : Mark) (r : Runs) : (r.mark m).marks = m :: r.marks := rfl

end Runs

/-! ## Inside of a tag -/

/-- Cuts a text behind the greater-than sign that ends a tag: one outside of double quotes. -/
def tagSpan? (quoted : Bool) : List Char → Option (List Char × List Char)
  | [] => none
  | c :: rest =>
    if c == '>' && !quoted then some ([], rest)
    else
      (tagSpan? (if c == '\x22' then !quoted else quoted) rest).map fun (inside, after) =>
        (c :: inside, after)

def isAttrChar (c : Char) : Bool :=
  !Text.isAsciiBlank c && c != '='

/-- The attributes inside of a tag, with their values as they are written. -/
def attrsOf (s : List Char) : List (String × String) :=
  match _h : s.dropWhile Text.isAsciiBlank with
  | [] => []
  | c :: rest =>
    let name := String.ofList ((c :: rest).takeWhile isAttrChar)
    match _h' : (c :: rest).dropWhile isAttrChar with
    | '=' :: '\x22' :: after =>
      (name, String.ofList (after.takeWhile (· != '\x22'))) ::
        attrsOf (after.dropWhile (· != '\x22')).tail
    | after => (name, "") :: attrsOf after.tail
termination_by s.length
decreasing_by
  all_goals
    have hs := (List.dropWhile_sublist Text.isAsciiBlank (l := s)).length_le
    have hrest := (List.dropWhile_sublist isAttrChar (l := c :: rest)).length_le
    simp only [_h, _h', List.length_cons, List.length_tail] at hs hrest ⊢
  · have hafter := (List.dropWhile_sublist (· != '\x22') (l := after)).length_le
    omega
  · omega

def tagOf (inside : List Char) : Mark :=
  match inside with
  | '/' :: name => .stop (String.ofList name)
  | _ =>
    .start (String.ofList (inside.takeWhile fun c => !Text.isAsciiBlank c))
      (attrsOf (inside.dropWhile fun c => !Text.isAsciiBlank c))

/-! ## Comments -/

/-- The text up to the end of a comment, and what follows the end. -/
def commentSpan : List Char → List Char × List Char
  | [] => ([], [])
  | '-' :: '-' :: '>' :: rest => ([], rest)
  | '-' :: '-' :: '!' :: '>' :: rest => ([], rest)
  | c :: rest => (c :: (commentSpan rest).1, (commentSpan rest).2)

/-- The text of a comment whose beginning is left out, and what follows the comment. -/
def readComment (s : List Char) : List Char × List Char :=
  match s with
  | '>' :: rest => ([], rest)
  | '-' :: '>' :: rest => ([], rest)
  | s => commentSpan s

/-- A comment ends where the reader of written HTML takes it to end. -/
theorem readComment_snd (s : List Char) : (readComment s).2 = Hypertext.behindComment s := by
  have hspan : ∀ t, (commentSpan t).2 = Hypertext.behindEnd t := by
    intro t
    induction t using commentSpan.induct with
    | case1 => rfl
    | case2 rest => rfl
    | case3 rest => rfl
    | case4 c rest hend hbang ih =>
        rw [commentSpan, Hypertext.behindEnd]
        · exact ih
        · exact hend
        · exact hbang
        · exact hend
        · exact hbang
  -- Both treat the two ends at the beginning alike, before they look for the others.
  unfold readComment Hypertext.behindComment
  split <;> simp_all

/-! ## The scanner -/

/-- The mark behind a less-than sign, and what follows it, if it ends. -/
def readMark? (comments : Bool) (s : List Char) : Option (Mark × List Char) :=
  match comments, s with
  | true, '!' :: '-' :: '-' :: rest =>
    some (.comment (String.ofList (readComment rest).1), (readComment rest).2)
  | _, s => (tagSpan? false s).map fun (inside, after) => (tagOf inside, after)

theorem tagSpan?_length {quoted : Bool} {s inside after : List Char}
    (h : tagSpan? quoted s = some (inside, after)) : after.length < s.length := by
  induction s generalizing quoted inside with
  | nil => cases h
  | cons c rest ih =>
      unfold tagSpan? at h
      split at h
      · cases h
        exact Nat.lt_succ_self _
      · rcases Option.map_eq_some_iff.1 h with ⟨⟨t, u⟩, ht, heq⟩
        cases heq
        exact Nat.lt_succ_of_lt (ih ht)

theorem commentSpan_length (s : List Char) : (commentSpan s).2.length ≤ s.length := by
  induction s using commentSpan.induct with
  | case1 => exact Nat.le_refl _
  | case2 rest => simp only [commentSpan, List.length_cons]; omega
  | case3 rest => simp only [commentSpan, List.length_cons]; omega
  | case4 c rest hend hbang ih =>
      rw [commentSpan]
      · exact Nat.le_succ_of_le ih
      · exact hend
      · exact hbang

theorem readMark?_length {comments : Bool} {s after : List Char} {m : Mark}
    (h : readMark? comments s = some (m, after)) : after.length < s.length := by
  unfold readMark? at h
  split at h
  · rename_i rest
    cases h
    have hspan := commentSpan_length rest
    unfold readComment
    split <;> simp only [List.length_cons] at hspan ⊢ <;> omega
  · rcases Option.map_eq_some_iff.1 h with ⟨⟨inside, u⟩, hspan, heq⟩
    cases heq
    exact tagSpan?_length hspan

/-- Cuts a page at its marks.  A less-than sign whose tag does not end is text. -/
def scan (comments : Bool) (s : List Char) : Runs :=
  match s with
  | [] => .empty
  | c :: rest =>
    if c == '<' then
      match _h : readMark? comments rest with
      | some (m, after) => (scan comments after).mark m
      | none => (scan comments rest).text (String.singleton c)
    else (scan comments rest).text (String.singleton c)
termination_by s.length
decreasing_by
  · have hafter := readMark?_length _h
    simp only [List.length_cons]
    omega
  · simp
  · simp

/-! ## References -/

def Mark.unescaped : Mark → Mark
  | .start name attrs => .start name (attrs.map fun (n, v) => (n, Text.unescape v))
  | m => m

def Runs.unescaped (r : Runs) : Runs :=
  ⟨Text.unescape r.head, r.tail.map fun (m, s) => (m.unescaped, Text.unescape s)⟩

end Html
end RenderForest
