import RenderForest.Proofs.Html.Scanner
import RenderForest.Tree.Html
/-!
# Outline — what a forest puts into a page

The outline of a forest is told without any writing: the texts, tags and comments that its nodes
stand for, in document order.  An element whose tag is no name gives way to its children, a void
element has a start tag and nothing else, and a rich block gives way to the node that it shows.
This file defines:

* `Html.Piece`, a text or a mark, and `Node.outline`, the pieces of a tree;
* `Html.withBreaks`, which sets a line feed behind each tag that ends a line;
* `Html.Piece.write`, the text of a piece;
* `Html.Nested`, that the end tags of a list of marks close what its start tags open;

and shows in `writeNodes_eq` that the page of a forest is the text of its outline, and in
`nested_outlineAll` that the marks of an outline are nested.
-/

namespace RenderForest

/-! ## Pieces -/

namespace Html

inductive Piece where
  | text (s : String)
  | mark (m : Mark)
  deriving DecidableEq, Repr

/-- The attributes whose names are valid, in order. -/
def shownAttrs (attrs : Attributes) : List (String × String) :=
  attrs.entries.filter fun a => Safety.isValidAttributeName a.1

def isVoid (tag : String) : Bool :=
  voidElements.contains (lowerTag tag)

end Html

open Html in
mutual

/-- The pieces of a tree in document order. -/
def Node.outline : Node → List Piece
  | .text s => [.text s]
  | .comment s => [.mark (.comment s)]
  | .fragment children => Node.outlineAll children
  | .element tag attrs _ children =>
    if !isValidTag tag then Node.outlineAll children
    else if isVoid tag then [.mark (.start tag (shownAttrs attrs))]
    else
      .mark (.start tag (shownAttrs attrs)) :: (Node.outlineAll children ++ [.mark (.stop tag)])
  -- A rich block shows the node that it has, and its default render if it has none.
  | .component ⟨.component _ (.node n), _, _, _⟩ => n.outline
  | .component ⟨_, _, _, fallback⟩ => fallback.outline
  | .deferred ⟨_, _, _, _, .loaded n⟩ => n.outline
  | .deferred ⟨_, _, fallback, _, _⟩ => fallback.outline

def Node.outlineAll : List Node → List Piece
  | [] => []
  | n :: rest => n.outline ++ Node.outlineAll rest

end

/-! ## Rich blocks -/

namespace Node

theorem outline_component (c : Component Node) : (Node.component c).outline = c.render.outline := by
  rcases c with ⟨⟨_, _ | _ | _⟩ | _, _, _, _⟩ <;> simp [outline, Component.render]

theorem outline_deferred (d : Deferred Node) : (Node.deferred d).outline = d.snapshot.outline := by
  rcases d with ⟨_, _, _, _, _ | _ | _ | _⟩ <;> simp [outline, Deferred.snapshot]

end Node

namespace Html

theorem writeNodes_append (a b : List Node) :
    writeNodes (a ++ b) = writeNodes a ++ writeNodes b := by
  induction a with
  | nil => simp [writeNodes]
  | cons n a ih => rw [List.cons_append, writeNodes, writeNodes, ih, String.append_assoc]

theorem writeNode_component (c : Component Node) :
    writeNode (.component c) = writeNode c.render := by
  rcases c with ⟨⟨_, _ | _ | _⟩ | _, _, _, _⟩ <;> simp [writeNode, Component.render]

theorem writeNode_deferred (d : Deferred Node) :
    writeNode (.deferred d) = writeNode d.snapshot := by
  rcases d with ⟨_, _, _, _, _ | _ | _ | _⟩ <;> simp [writeNode, Deferred.snapshot]

end Html

/-- The cases of an induction over what is shown: a rich block has a property if the node that it
shows does. -/
structure Node.ShownCases (P : Node → Prop) (Q : List Node → Prop) : Prop where
  text : ∀ s, P (.text s)
  comment : ∀ s, P (.comment s)
  fragment : ∀ children, Q children → P (.fragment children)
  element : ∀ tag attrs handlers children, Q children → P (.element tag attrs handlers children)
  component : ∀ c : Component Node, P c.render → P (.component c)
  deferred : ∀ d : Deferred Node, P d.snapshot → P (.deferred d)
  nil : Q []
  cons : ∀ n rest, P n → Q rest → Q (n :: rest)

namespace Node.ShownCases

variable {P : Node → Prop} {Q : List Node → Prop}

mutual

-- The cases split as `Node.outline` does, so that each call is on a part of the node.
theorem holds (h : ShownCases P Q) : ∀ n : Node, P n
  | .text s => h.text s
  | .comment s => h.comment s
  | .fragment children => h.fragment children (h.holdsAll children)
  | .element tag attrs handlers children =>
    h.element tag attrs handlers children (h.holdsAll children)
  | .component ⟨.component _ (.node n), _, _, _⟩ => h.component _ (h.holds n)
  | .component ⟨.component _ (.failed _), _, _, fallback⟩ => h.component _ (h.holds fallback)
  | .component ⟨.component _ (.panicked _), _, _, fallback⟩ => h.component _ (h.holds fallback)
  | .component ⟨.descriptor _, _, _, fallback⟩ => h.component _ (h.holds fallback)
  | .deferred ⟨_, _, _, _, .loaded n⟩ => h.deferred _ (h.holds n)
  | .deferred ⟨_, _, fallback, _, .pending⟩ => h.deferred _ (h.holds fallback)
  | .deferred ⟨_, _, fallback, _, .failed _⟩ => h.deferred _ (h.holds fallback)
  | .deferred ⟨_, _, fallback, _, .timedOut⟩ => h.deferred _ (h.holds fallback)

theorem holdsAll (h : ShownCases P Q) : ∀ nodes : List Node, Q nodes
  | [] => h.nil
  | n :: rest => h.cons n rest (h.holds n) (h.holdsAll rest)

end

end Node.ShownCases

namespace Html

def Mark.endsLine : Mark → Bool
  | .start name _ => lowerTag name == "hr"
  | .stop name => blockElements.contains (lowerTag name)
  | .comment _ => false

/-- Sets a line feed behind each mark that ends a line. -/
def withBreaks : List Piece → List Piece
  | [] => []
  | .text s :: rest => .text s :: withBreaks rest
  | .mark m :: rest =>
    .mark m :: ((if m.endsLine then [.text "\n"] else []) ++ withBreaks rest)

theorem withBreaks_append (ps qs : List Piece) :
    withBreaks (ps ++ qs) = withBreaks ps ++ withBreaks qs := by
  induction ps with
  | nil => rfl
  | cons p ps ih =>
      cases p with
      | text s => simp [withBreaks, ih]
      | mark m => simp [withBreaks, ih]

/-! ## Marks -/

def Piece.mark? : Piece → Option Mark
  | .text _ => none
  | .mark m => some m

def marksOf (ps : List Piece) : List Mark :=
  ps.filterMap Piece.mark?

@[simp] theorem marksOf_nil : marksOf [] = [] := rfl

@[simp] theorem marksOf_text (s : String) (ps : List Piece) :
    marksOf (.text s :: ps) = marksOf ps := rfl

@[simp] theorem marksOf_mark (m : Mark) (ps : List Piece) :
    marksOf (.mark m :: ps) = m :: marksOf ps := rfl

@[simp] theorem marksOf_append (ps qs : List Piece) :
    marksOf (ps ++ qs) = marksOf ps ++ marksOf qs :=
  List.filterMap_append

@[simp] theorem marksOf_withBreaks (ps : List Piece) : marksOf (withBreaks ps) = marksOf ps := by
  induction ps with
  | nil => rfl
  | cons p ps ih =>
      cases p with
      | text s => simpa [withBreaks] using ih
      | mark m =>
          -- The line feed behind the mark is a text.
          have hbreak : marksOf (if m.endsLine then [.text "\n"] else []) = [] := by
            split <;> rfl
          simp [withBreaks, hbreak, ih]

/-- Marks of which each start tag of an element that is not void is closed by an end tag of its
name, with nested marks between the two.  The names of tags and of attributes are valid. -/
inductive Nested : List Mark → Prop where
  | nil : Nested []
  | comment {ms : List Mark} (s : String) : Nested ms → Nested (.comment s :: ms)
  | void {ms : List Mark} {tag : String} {attrs : List (String × String)} :
      isValidTag tag = true → (∀ a ∈ attrs, Safety.isValidAttributeName a.1 = true) →
      isVoid tag = true → Nested ms → Nested (.start tag attrs :: ms)
  | element {inside ms : List Mark} {tag : String} {attrs : List (String × String)} :
      isValidTag tag = true → (∀ a ∈ attrs, Safety.isValidAttributeName a.1 = true) →
      isVoid tag = false → Nested inside → Nested ms →
      Nested (.start tag attrs :: (inside ++ .stop tag :: ms))

theorem Nested.append {ms ms' : List Mark} (h : Nested ms) (h' : Nested ms') :
    Nested (ms ++ ms') := by
  -- Only what follows the last element at the top changes; what stands inside of elements is kept.
  induction h with
  | nil => exact h'
  | comment s _ ih => exact Nested.comment s ih
  | void htag hattrs hvoid _ ih => exact Nested.void htag hattrs hvoid ih
  | element htag hattrs hvoid hinside _ _ ih =>
      have hall := Nested.element htag hattrs hvoid hinside ih
      simpa using hall

theorem valid_of_mem_shownAttrs (attrs : Attributes) :
    ∀ a ∈ shownAttrs attrs, Safety.isValidAttributeName a.1 = true :=
  fun _ ha => (List.mem_filter.1 ha).2

theorem shownCases_nested :
    Node.ShownCases (fun n => Nested (marksOf n.outline))
      (fun nodes => Nested (marksOf (Node.outlineAll nodes))) where
  text s := by
    rw [Node.outline]
    exact Nested.nil
  comment s := by
    rw [Node.outline]
    exact Nested.comment s Nested.nil
  fragment children ih := by
    rw [Node.outline]
    exact ih
  element tag attrs handlers children ih := by
    rw [Node.outline]
    have hattrs := valid_of_mem_shownAttrs attrs
    cases htag : isValidTag tag with
    | false => simpa using ih
    | true =>
        cases hvoid : isVoid tag with
        | true => exact Nested.void htag hattrs hvoid Nested.nil
        | false =>
            have hall := Nested.element htag hattrs hvoid ih Nested.nil
            simpa using hall
  component c ih := by
    rw [Node.outline_component]
    exact ih
  deferred d ih := by
    rw [Node.outline_deferred]
    exact ih
  nil := by
    rw [Node.outlineAll]
    exact Nested.nil
  cons n rest hn hrest := by
    rw [Node.outlineAll, marksOf_append]
    exact hn.append hrest

theorem nested_outlineAll (nodes : List Node) : Nested (marksOf (Node.outlineAll nodes)) :=
  shownCases_nested.holdsAll nodes

/-! ## Writing pieces -/

def Mark.write : Mark → List Char
  | .start name attrs => '<' :: (name.toList ++ ((writeAttrs attrs).toList ++ ['>']))
  | .stop name => '<' :: '/' :: (name.toList ++ ['>'])
  | .comment s => '<' :: '!' :: '-' :: '-' :: (spaceHyphens s.toList ++ ['-', '-', '>'])

def Piece.write : Piece → List Char
  | .text s => (Text.escape s).toList
  | .mark m => m.write

def writePieces (ps : List Piece) : List Char :=
  ps.flatMap Piece.write

@[simp] theorem writePieces_nil : writePieces [] = [] := rfl

@[simp] theorem writePieces_cons (p : Piece) (ps : List Piece) :
    writePieces (p :: ps) = p.write ++ writePieces ps := rfl

@[simp] theorem writePieces_append (ps qs : List Piece) :
    writePieces (ps ++ qs) = writePieces ps ++ writePieces qs :=
  List.flatMap_append

/-- Attributes that are left out leave no trace. -/
theorem writeAttrs_shownAttrs (attrs : Attributes) :
    writeAttrs (shownAttrs attrs) = writeAttrs attrs.entries := by
  rcases attrs with ⟨entries⟩
  induction entries with
  | nil => rfl
  | cons a rest ih =>
      cases ha : Safety.isValidAttributeName a.1 with
      | true => simp_all [shownAttrs, writeAttrs]
      | false => simp_all [shownAttrs, writeAttrs]

theorem toList_startTag (tag : String) (attrs : Attributes) :
    (startTag tag attrs).toList = (Mark.start tag (shownAttrs attrs)).write := by
  simp [startTag, Mark.write, writeAttrs_shownAttrs]

theorem toList_writeComment (s : String) :
    (writeComment s).toList = (Mark.comment s).write := by
  simp [writeComment, Mark.write]

theorem write_break (p : Prop) [Decidable p] :
    writePieces (if p then [.text "\n"] else []) = (if p then "\n" else "").toList := by
  split <;> rfl

theorem ne_hr_of_not_isVoid {tag : String} (h : isVoid tag = false) : lowerTag tag ≠ "hr" := by
  intro heq
  rw [isVoid, heq] at h
  exact absurd h (by decide)

theorem writeNode_element (tag : String) (attrs : Attributes) (handlers : List EventHandler)
    (children : List Node) :
    writeNode (.element tag attrs handlers children) =
      if !isValidTag tag then writeNodes children
      else if isVoid tag then
        startTag tag attrs ++ (if lowerTag tag == "hr" then "\n" else "")
      else
        startTag tag attrs ++ writeNodes children ++ "</" ++ tag ++ ">" ++
          (if blockElements.contains (lowerTag tag) then "\n" else "") := by
  rw [writeNode, isVoid]

theorem shownCases_write :
    Node.ShownCases (fun n => (writeNode n).toList = writePieces (withBreaks n.outline))
      (fun nodes =>
        (writeNodes nodes).toList = writePieces (withBreaks (Node.outlineAll nodes))) where
  text s := by
    simp [writeNode, Node.outline, withBreaks, Piece.write]
  comment s := by
    simp [writeNode, Node.outline, withBreaks, Piece.write, toList_writeComment, Mark.endsLine]
  fragment children ih := by
    rw [writeNode, Node.outline]
    exact ih
  element tag attrs handlers children ih := by
    rw [writeNode_element, Node.outline]
    cases htag : isValidTag tag with
    | false => simpa using ih
    | true =>
        cases hvoid : isVoid tag with
        | true =>
            simp [toList_startTag, withBreaks, Mark.endsLine, Piece.write, write_break]
        | false =>
            -- A start tag ends a line only if nothing else is written of its element.
            have hline := ne_hr_of_not_isVoid hvoid
            simp [toList_startTag, withBreaks, withBreaks_append, Mark.endsLine, Piece.write,
              write_break, hline, ih, Mark.write]
  component c ih := by
    rw [writeNode_component, Node.outline_component]
    exact ih
  deferred d ih := by
    rw [writeNode_deferred, Node.outline_deferred]
    exact ih
  nil := by
    rw [writeNodes, Node.outlineAll]
    rfl
  cons n rest hn hrest := by
    rw [writeNodes, Node.outlineAll, withBreaks_append, writePieces_append, String.toList_append,
      hn, hrest]

/-- A page is the text of the outline of its forest, with the line feeds. -/
theorem writeNodes_eq (nodes : List Node) :
    (writeNodes nodes).toList = writePieces (withBreaks (Node.outlineAll nodes)) :=
  shownCases_write.holdsAll nodes

end Html
end RenderForest
