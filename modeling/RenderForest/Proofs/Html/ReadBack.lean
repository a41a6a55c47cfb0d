import RenderForest.Proofs.Html.Pieces
/-!
# ReadBack — what a reader finds in the page of a forest

A page is read back if a scanner that decodes the five references finds the outline of the forest
in it: the same tags with the same attributes, in order, and the same texts between them.  This
file defines:

* `Html.pageRuns`, what a page holds;
* `Node.areBasic`, that a forest is made of elements, texts and fragments;
* `Html.CommentsHold`, that each comment of a page extends to the end that was written for it;

and shows in `scan_toHtml` that a page without comments is read back whatever its strings are, and
in `commentsHold_iff` for which texts comments hold.  A reader of raw texts, as `script` and
`textarea` have them, is not considered.
-/

namespace RenderForest

mutual

/-- Whether a tree is made of elements, texts and fragments. -/
def Node.isBasic : Node → Bool
  | .element _ _ _ children => Node.areBasic children
  | .text _ => true
  | .fragment children => Node.areBasic children
  | .comment _ => false
  | .component _ => false
  | .deferred _ => false

def Node.areBasic : List Node → Bool
  | [] => true
  | n :: rest => n.isBasic && Node.areBasic rest

end

namespace Html

variable {comments : Bool}

/-! ## Pages -/

/-- What a page holds: the outline of its forest, with a line feed behind each mark that ends a
line, and with no line feed at the end. -/
def pageRuns (nodes : List Node) : Runs :=
  (Runs.ofPieces (withBreaks (Node.outlineAll nodes))).trimEnd

/-- A page is read back when each of its comments is, and not otherwise. -/
theorem unescaped_scan_toHtml_iff {nodes : List Node}
    (hcomments : comments = true ∨ commentTexts (marksOf (Node.outlineAll nodes)) = []) :
    (scan comments (toHtml nodes).toList).unescaped = pageRuns nodes ↔
      ∀ t ∈ commentTexts (marksOf (Node.outlineAll nodes)),
        EndsNoComment (spaceHyphens t.toList) := by
  -- The page is written from pieces that end with no line feed.
  obtain ⟨qs, hwrite, hruns, hmarks⟩ := exists_trimmed_pieces (withBreaks (Node.outlineAll nodes))
  rw [marksOf_withBreaks] at hmarks
  have hpage : (toHtml nodes).toList = writePieces qs ++ [] := by
    rw [toHtml, String.toList_ofList, writeNodes_eq, hwrite, List.append_nil]
  rw [hpage, pageRuns, ← hruns, Runs.ofPieces, unescaped_scan_pieces_iff, hmarks,
    unescaped_scan_nil]
  · exact and_iff_left rfl
  · rw [hmarks]
    exact (nested_outlineAll nodes).isWritable
  · rwa [hmarks]

/-! ## Pages without comments -/

theorem commentTexts_append (ms ms' : List Mark) :
    commentTexts (ms ++ ms') = commentTexts ms ++ commentTexts ms' :=
  List.filterMap_append

mutual

theorem commentTexts_outline :
    ∀ n : Node, n.isBasic = true → commentTexts (marksOf n.outline) = []
  | .text _, _ => by
    rw [Node.outline]
    rfl
  | .fragment children, h => by
    rw [Node.outline]
    exact commentTexts_outlineAll children h
  | .element tag attrs _ children, h => by
    have ih := commentTexts_outlineAll children h
    rw [Node.outline]
    split
    · exact ih
    · split
      · rfl
      · rw [marksOf_mark, marksOf_append]
        exact (commentTexts_append _ _).trans (by rw [ih]; rfl)
  | .comment _, h => by cases h
  | .component _, h => by cases h
  | .deferred _, h => by cases h

theorem commentTexts_outlineAll :
    ∀ nodes : List Node, Node.areBasic nodes = true →
      commentTexts (marksOf (Node.outlineAll nodes)) = []
  | [], _ => by
    rw [Node.outlineAll]
    rfl
  | n :: rest, h => by
    rcases Bool.and_eq_true_iff.1 h with ⟨hn, hrest⟩
    rw [Node.outlineAll, marksOf_append, commentTexts_append, commentTexts_outline n hn,
      commentTexts_outlineAll rest hrest]
    rfl

end

/-- Without comments, a mark is read as it was written. -/
theorem map_spaced_of_commentTexts {ms : List Mark} (h : commentTexts ms = []) :
    ms.map Mark.spaced = ms := by
  induction ms with
  | nil => rfl
  | cons m ms ih =>
      cases m with
      | start name attrs => exact congrArg (_ :: ·) (ih h)
      | stop name => exact congrArg (_ :: ·) (ih h)
      | comment s => cases h

theorem marks_pageRuns (nodes : List Node) :
    (pageRuns nodes).marks = (marksOf (Node.outlineAll nodes)).map Mark.spaced := by
  obtain ⟨qs, _, hruns, hmarks⟩ := exists_trimmed_pieces (withBreaks (Node.outlineAll nodes))
  calc
    (pageRuns nodes).marks = (Runs.ofPieces qs).marks := congrArg Runs.marks hruns.symm
    _ = (marksOf qs).map Mark.spaced := marks_ofPieces qs
    _ = (marksOf (Node.outlineAll nodes)).map Mark.spaced := by rw [hmarks, marksOf_withBreaks]

/-- A forest of elements, texts and fragments is read back from its page, whatever its strings are:
the marks are the tags of its outline, each end tag closes the start tag before it that is still
open, and decoding gives the attributes and the texts. -/
theorem scan_toHtml (comments : Bool) {nodes : List Node} (h : Node.areBasic nodes = true) :
    (scan comments (toHtml nodes).toList).unescaped = pageRuns nodes ∧
      (pageRuns nodes).marks = marksOf (Node.outlineAll nodes) ∧
      Nested (marksOf (Node.outlineAll nodes)) := by
  have hnone := commentTexts_outlineAll nodes h
  refine ⟨?_, ?_, nested_outlineAll nodes⟩
  · refine (unescaped_scan_toHtml_iff (Or.inr hnone)).2 ?_
    rw [hnone]
    intro t ht
    cases ht
  · rw [marks_pageRuns, map_spaced_of_commentTexts hnone]

/-- A forest whose strings look like markup. -/
def hostileForest : List Node :=
  [.element "div" ⟨[("title", "\x22><b a=\x22&quot;"), ("no name", "x")]⟩ []
    [.text "</div>", .element "no tag" ⟨[]⟩ [] [.text "&lt;"], .element "br" ⟨[]⟩ [] [.text "x"],
      .fragment [.text "<!--\n", .element "HR" ⟨[]⟩ [] []]],
    .text "\n\n"]

theorem scan_toHtml_hostileForest :
    Node.areBasic hostileForest = true ∧
      (scan true (toHtml hostileForest).toList).unescaped =
        ⟨"", [(.start "div" [("title", "\x22><b a=\x22&quot;")], "</div>&lt;"),
          (.start "br" [], "<!--\n"), (.start "HR" [], "\n"), (.stop "div", "")]⟩ := by
  have hbasic : Node.areBasic hostileForest = true := by decide
  have hread := scan_toHtml true hbasic
  exact ⟨hbasic, hread.1.trans (by decide +kernel)⟩

/-! ## Comments -/

/-- Each comment of a page extends to the end that was written for it: a scanner that knows comments
reads the page back, and what is written of the text of a comment is inert. -/
structure CommentsHold (nodes : List Node) : Prop where
  read : (scan true (toHtml nodes).toList).unescaped = pageRuns nodes
  inert : ∀ t ∈ commentTexts (marksOf (Node.outlineAll nodes)), IsInert (spaceHyphens t.toList)

/-- The comments of a page hold exactly when their texts have no three hyphens in a row and begin
neither with a greater-than sign nor with an arrow; and the page is read back exactly when no
comment ends in what is written of its text. -/
theorem commentsHold_iff (nodes : List Node) :
    (CommentsHold nodes ↔
        ∀ t ∈ commentTexts (marksOf (Node.outlineAll nodes)), IsTame t.toList) ∧
      ((scan true (toHtml nodes).toList).unescaped = pageRuns nodes ↔
        ∀ t ∈ commentTexts (marksOf (Node.outlineAll nodes)),
          EndsNoComment (spaceHyphens t.toList)) := by
  have hread : (scan true (toHtml nodes).toList).unescaped = pageRuns nodes ↔ _ :=
    unescaped_scan_toHtml_iff (Or.inl rfl)
  refine ⟨?_, hread⟩
  constructor
  · intro h t ht
    exact (isInert_spaceHyphens_iff _).1 (h.inert t ht)
  · intro h
    -- In an inert text no comment ends.
    have hinert := fun t ht => (isInert_spaceHyphens_iff _).2 (h t ht)
    exact ⟨hread.2 fun t ht => (hinert t ht).endsNoComment, hinert⟩

/-- The pair of hyphens that is left ends the comment, and the rest of its text is a start tag. -/
theorem not_commentsHold :
    ¬ CommentsHold [.comment "---><script>alert(1)</script>"] := by
  intro h
  have hends := (unescaped_scan_toHtml_iff (Or.inl rfl)).1 h.read _ (List.mem_singleton.2 rfl)
  exact hends.close (by decide)

example : (scan true (toHtml [.comment "---><script>alert(1)</script>"]).toList).marks =
    [.comment "- ", .start "script" [], .stop "script"] := by
  decide +kernel

end Html
end RenderForest
