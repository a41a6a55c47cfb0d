import RenderForest.Proofs.Html.CommentText
import RenderForest.Proofs.Html.Outline
import RenderForest.Proofs.Html.TagText
/-!
# Pieces — written pieces, cut at their marks again

A scanner takes the text of pieces apart again, one piece after another.  This file defines:

* `Html.Runs.ofPieces`, the runs that pieces make;
* `Html.Runs.trimEnd`, runs without the line feeds at the end of the last text;
* `Html.commentTexts`, the texts of the comments among marks;

and shows in `unescaped_scan_pieces_iff` that written pieces are read back exactly when no comment
ends in the text of one, and in `exists_trimmed_pieces` that dropping line feeds keeps all marks.
-/

namespace RenderForest
namespace Html

variable {comments : Bool} {u s rest : List Char}

/-! ## Texts and marks -/

theorem text_text (a b : String) (r : Runs) : (r.text b).text a = r.text (a ++ b) := by
  simp [Runs.text, String.append_assoc]

theorem scan_nil : scan comments [] = .empty := by
  rw [scan]

theorem scan_mark {m : Mark} (h : readMark? comments s = some (m, rest)) :
    scan comments ('<' :: s) = (scan comments rest).mark m := by
  rw [scan, if_pos (by decide)]
  split
  · rename_i m' rest' hread
    rw [h] at hread
    cases hread
    rfl
  · rename_i hnone
    rw [h] at hnone
    cases hnone

theorem scan_append (hu : ∀ c ∈ u, c ≠ '<') (s : List Char) :
    scan comments (u ++ s) = (scan comments s).text (String.ofList u) := by
  induction u with
  | nil => simp [Runs.text]
  | cons c u ih =>
      have hc : ¬ ((c == '<') = true) := by simpa using hu c (List.mem_cons_self ..)
      rw [List.cons_append, scan, if_neg hc, ih fun d hd => hu d (List.mem_cons_of_mem _ hd),
        text_text]
      simp [← String.ofList_cons]

/-! ## Pieces -/

/-- The mark that is read where a mark was written: a blank stands between the hyphens of each pair
in a comment. -/
def Mark.spaced : Mark → Mark
  | .start name attrs => .start name attrs
  | .stop name => .stop name
  | .comment s => .comment (String.ofList (spaceHyphens s.toList))

def Piece.onto : Piece → Runs → Runs
  | .text s, r => r.text s
  | .mark m, r => r.mark m.spaced

/-- The runs that pieces make: texts without a mark between them are one. -/
def Runs.ofPieces (ps : List Piece) : Runs :=
  ps.foldr Piece.onto .empty

theorem Runs.text_inj {t : String} {r r' : Runs} : r.text t = r'.text t ↔ r = r' := by
  rcases r with ⟨head, tail⟩
  rcases r' with ⟨head', tail'⟩
  simp [Runs.text]

theorem Runs.mark_inj {m : Mark} {r r' : Runs} : r.mark m = r'.mark m ↔ r = r' := by
  rcases r with ⟨head, tail⟩
  rcases r' with ⟨head', tail'⟩
  simp [Runs.mark]

theorem unescaped_mark (m : Mark) (r : Runs) :
    (r.mark m).unescaped = r.unescaped.mark m.unescaped := by
  simp [Runs.mark, Runs.unescaped, Text.unescape, Text.unescapeChars]

/-- Written values are read back. -/
theorem unescaped_start (tag : String) (attrs : List (String × String)) :
    (Mark.start tag (attrs.map fun a => (a.1, Text.escape a.2))).unescaped = .start tag attrs := by
  simp [Mark.unescaped, Text.unescape_escape, Function.comp_def]

theorem unescaped_text (t : String) (r : Runs) :
    (r.text (Text.escape t)).unescaped = r.unescaped.text t := by
  simp [Runs.text, Runs.unescaped, Text.unescape_escape_append]

theorem unescaped_empty : Runs.empty.unescaped = .empty := by
  simp [Runs.empty, Runs.unescaped, Text.unescape, Text.unescapeChars]

theorem unescaped_scan_nil : (scan comments []).unescaped = .empty := by
  rw [scan_nil, unescaped_empty]

theorem unescaped_scan_text (t : String) (rest : List Char) :
    (scan comments ((Text.escape t).toList ++ rest)).unescaped =
      (scan comments rest).unescaped.text t := by
  rw [scan_append fun c hc => Text.ne_lt_of_mem_escape hc, String.ofList_toList, unescaped_text]

theorem unescaped_scan_start {tag : String} {attrs : List (String × String)}
    (htag : isValidTag tag = true)
    (hattrs : ∀ a ∈ attrs, Safety.isValidAttributeName a.1 = true) (rest : List Char) :
    (scan comments ((Mark.start tag attrs).write ++ rest)).unescaped =
      (scan comments rest).unescaped.mark (.start tag attrs) := by
  let escaped := Mark.start tag (attrs.map fun a => (a.1, Text.escape a.2))
  have hread := readMark?_start comments htag hattrs rest
  have hvalues : escaped.unescaped = .start tag attrs := unescaped_start tag attrs
  have hscan : scan comments ((Mark.start tag attrs).write ++ rest) =
      (scan comments rest).mark escaped := by
    simpa [Mark.write] using scan_mark hread
  calc
    (scan comments ((Mark.start tag attrs).write ++ rest)).unescaped
        = ((scan comments rest).mark escaped).unescaped := by rw [hscan]
    _ = (scan comments rest).unescaped.mark escaped.unescaped := unescaped_mark escaped _
    _ = (scan comments rest).unescaped.mark (.start tag attrs) := by rw [hvalues]

theorem unescaped_scan_stop {tag : String} (htag : isValidTag tag = true) (rest : List Char) :
    (scan comments ((Mark.stop tag).write ++ rest)).unescaped =
      (scan comments rest).unescaped.mark (.stop tag) := by
  have hread := readMark?_stop comments htag rest
  have hscan : scan comments ((Mark.stop tag).write ++ rest) =
      (scan comments rest).mark (.stop tag) := by
    simpa [Mark.write] using scan_mark hread
  exact (congrArg Runs.unescaped hscan).trans (unescaped_mark (.stop tag) _)

/-- A written comment is read back when its text ends none, and not otherwise. -/
theorem unescaped_scan_comment_iff (t : String) (rest : List Char) (r : Runs) :
    (scan true ((Mark.comment t).write ++ rest)).unescaped = r.mark (Mark.comment t).spaced ↔
      EndsNoComment (spaceHyphens t.toList) ∧ (scan true rest).unescaped = r := by
  -- What stands behind the beginning of the comment, with the end that was written for it.
  let s := spaceHyphens t.toList ++ '-' :: '-' :: '>' :: rest
  have hread : readMark? true ('!' :: '-' :: '-' :: s) =
      some (.comment (String.ofList (readComment s).1), (readComment s).2) := rfl
  have hwrite : (Mark.comment t).write ++ rest = '<' :: '!' :: '-' :: '-' :: s := by
    simp [Mark.write, s]
  rw [hwrite, scan_mark hread, unescaped_mark]
  rcases readComment_append (spaceHyphens t.toList) rest with ⟨hends, heq⟩ | ⟨hends, hne⟩
  · rw [and_iff_right hends, heq]
    exact Runs.mark_inj
  · refine iff_of_false ?_ fun h => hends h.1
    intro heq
    -- The first mark is a comment with another text.
    have hmarks := congrArg Runs.marks heq
    rw [Runs.marks_mark, Runs.marks_mark] at hmarks
    have htext := Mark.comment.inj (List.cons.inj hmarks).1
    exact hne (String.ofList_injective htext)

/-! ## Lists of pieces -/

/-- A mark with valid names. -/
def Mark.IsWritable : Mark → Prop
  | .start tag attrs =>
    isValidTag tag = true ∧ ∀ a ∈ attrs, Safety.isValidAttributeName a.1 = true
  | .stop tag => isValidTag tag = true
  | .comment _ => True

theorem Nested.isWritable {ms : List Mark} (h : Nested ms) : ∀ m ∈ ms, m.IsWritable := by
  induction h with
  | nil =>
      intro m hm
      cases hm
  | comment s _ ih => exact List.forall_mem_cons.2 ⟨trivial, ih⟩
  | void htag hattrs _ _ ih => exact List.forall_mem_cons.2 ⟨⟨htag, hattrs⟩, ih⟩
  | element htag hattrs _ _ _ ihinside ih =>
      refine List.forall_mem_cons.2 ⟨⟨htag, hattrs⟩, ?_⟩
      exact List.forall_mem_append.2 ⟨ihinside, List.forall_mem_cons.2 ⟨htag, ih⟩⟩

def commentTexts (ms : List Mark) : List String :=
  ms.filterMap fun
    | .comment s => some s
    | _ => none

/-- Written pieces are read back when each comment among them is, and not otherwise. -/
theorem unescaped_scan_pieces_iff {ps : List Piece} (hps : ∀ m ∈ marksOf ps, m.IsWritable)
    (hcomments : comments = true ∨ commentTexts (marksOf ps) = []) (rest : List Char) (r : Runs) :
    (scan comments (writePieces ps ++ rest)).unescaped = ps.foldr Piece.onto r ↔
      (∀ t ∈ commentTexts (marksOf ps), EndsNoComment (spaceHyphens t.toList)) ∧
        (scan comments rest).unescaped = r := by
  -- Texts and tags are always read back, so that only a comment adds to the right side.
  induction ps with
  | nil => simp [commentTexts]
  | cons p ps ih =>
      rw [writePieces_cons, List.append_assoc, List.foldr_cons]
      cases p with
      | text t =>
          have htail := ih hps hcomments
          rw [Piece.write, unescaped_scan_text, Piece.onto, Runs.text_inj]
          exact htail
      | mark m =>
          rw [marksOf_mark] at hps hcomments ⊢
          have hm := hps m (List.mem_cons_self ..)
          have hps' := fun m' hm' => hps m' (List.mem_cons_of_mem _ hm')
          cases m with
          | start tag attrs =>
              have htail := ih hps' hcomments
              rw [Piece.write, unescaped_scan_start hm.1 hm.2, Piece.onto, Mark.spaced,
                Runs.mark_inj]
              exact htail
          | stop tag =>
              have htail := ih hps' hcomments
              rw [Piece.write, unescaped_scan_stop hm, Piece.onto, Mark.spaced, Runs.mark_inj]
              exact htail
          | comment t =>
              -- A scanner that does not know comments reads no piece that is one.
              have htrue : comments = true := hcomments.resolve_right (by simp [commentTexts])
              subst htrue
              have htail := ih hps' (Or.inl rfl)
              rw [Piece.write, Piece.onto, unescaped_scan_comment_iff, htail]
              simp [commentTexts, and_assoc]

/-! ## Line feeds at the end -/

theorem dropLineFeeds_append (u v : List Char) :
    dropLineFeeds (u ++ v) =
      if dropLineFeeds v = [] then dropLineFeeds u else u ++ dropLineFeeds v := by
  unfold dropLineFeeds
  rw [List.reverse_append, List.dropWhile_append]
  by_cases h : v.reverse.dropWhile (· == '\n') = []
  · simp [h]
  · simp [h]

theorem dropLineFeeds_of_last {c : Char} (hc : c ≠ '\n') (u : List Char) :
    dropLineFeeds (u ++ [c]) = u ++ [c] := by
  simp [dropLineFeeds, hc]

/-- Line feeds are written as they are, and nothing else becomes one. -/
theorem dropLineFeeds_escapeChars (t : List Char) :
    dropLineFeeds (Text.escapeChars t) = Text.escapeChars (dropLineFeeds t) := by
  induction t using List.reverseRecOn with
  | nil => rfl
  | append_singleton t c ih =>
      have happ : Text.escapeChars (t ++ [c]) =
          Text.escapeChars t ++ (Text.reference? c).getD [c] := by
        rw [Text.escapeChars_append, Text.escapeChars, Text.escapeChars, List.append_nil]
      by_cases hc : c = '\n'
      · subst hc
        have hfeed : dropLineFeeds ['\n'] = [] := rfl
        rw [happ, dropLineFeeds_append, dropLineFeeds_append, hfeed]
        exact ih
      · rw [dropLineFeeds_of_last hc, happ]
        cases hr : Text.reference? c with
        | none => exact dropLineFeeds_of_last hc _
        | some r =>
            -- A reference ends with its semicolon.
            obtain ⟨u, rfl⟩ := Text.last_reference hr
            rw [Option.getD_some, ← List.append_assoc]
            exact dropLineFeeds_of_last (by decide) _

/-- A string without the line feeds at its end. -/
def trimFeeds (t : String) : String :=
  String.ofList (dropLineFeeds t.toList)

/-- Runs whose last text lost the line feeds at its end. -/
def trimFrom (head : String) : List (Mark × String) → Runs
  | [] => ⟨trimFeeds head, []⟩
  | (m, t) :: rest => ((trimFrom t rest).mark m).text head

def Runs.trimEnd (r : Runs) : Runs :=
  trimFrom r.head r.tail

theorem trimEnd_mark (m : Mark) (r : Runs) : (r.mark m).trimEnd = r.trimEnd.mark m := by
  simp [Runs.mark, Runs.trimEnd, trimFrom, Runs.text]

theorem trimEnd_text (t : String) (r : Runs) :
    (r.text t).trimEnd =
      if r.trimEnd = .empty then ⟨trimFeeds t, []⟩ else r.trimEnd.text t := by
  rcases r with ⟨head, _ | ⟨⟨m, u⟩, tail⟩⟩
  · simp [Runs.text, Runs.trimEnd, trimFrom, trimFeeds, Runs.empty, dropLineFeeds_append]
    split <;> simp_all [String.ofList_append]
  · have hne : Runs.trimEnd ⟨head, (m, u) :: tail⟩ ≠ .empty := by
      simp [Runs.trimEnd, trimFrom, Runs.text, Runs.mark, Runs.empty]
    rw [if_neg hne]
    exact (text_text t head _).symm

theorem writePieces_eq_nil_iff {ps : List Piece} :
    writePieces ps = [] ↔ Runs.ofPieces ps = .empty := by
  -- Nothing is written of empty texts, and they make no runs.
  induction ps with
  | nil => exact iff_of_true rfl rfl
  | cons p ps ih =>
      rw [Runs.ofPieces, List.foldr_cons, writePieces_cons, List.append_eq_nil_iff, ih]
      cases p with
      | text t =>
          have htext : (Text.escape t).toList = [] ↔ t = "" := by
            rw [Text.escape, String.toList_ofList, Text.escapeChars_eq_nil_iff,
              String.toList_eq_nil_iff]
          simp [Piece.write, htext, Piece.onto, Runs.ofPieces, Runs.text, Runs.ext_iff, Runs.empty,
            and_assoc]
      | mark m =>
          have hwrite : (Piece.mark m).write ≠ [] := by
            cases m <;> exact List.cons_ne_nil _ _
          refine iff_of_false (fun h => hwrite h.1) ?_
          simp [Piece.onto, Runs.mark, Runs.empty]

theorem marks_ofPieces (ps : List Piece) :
    (Runs.ofPieces ps).marks = (marksOf ps).map Mark.spaced := by
  induction ps with
  | nil => rfl
  | cons p ps ih =>
      cases p with
      | text t => exact ih
      | mark m => exact congrArg (m.spaced :: ·) ih

theorem last_write (m : Mark) : ∃ u, m.write = u ++ ['>'] := by
  cases m with
  | start name attrs =>
      exact ⟨'<' :: (name.toList ++ (writeAttrs attrs).toList), by simp [Mark.write]⟩
  | stop name => exact ⟨'<' :: '/' :: name.toList, rfl⟩
  | comment t =>
      refine ⟨'<' :: '!' :: '-' :: '-' :: (spaceHyphens t.toList ++ ['-', '-']), ?_⟩
      simp [Mark.write]

/-- The line feeds at the end of a page stand in texts, so that some other pieces are written
without them. -/
theorem exists_trimmed_pieces (ps : List Piece) :
    ∃ qs, writePieces qs = dropLineFeeds (writePieces ps) ∧
      Runs.ofPieces qs = (Runs.ofPieces ps).trimEnd ∧ marksOf qs = marksOf ps := by
  induction ps with
  | nil => exact ⟨[], rfl, rfl, rfl⟩
  | cons p ps ih =>
      rcases ih with ⟨qs, hwrite, hruns, hmarks⟩
      rw [writePieces_cons, dropLineFeeds_append, ← hwrite]
      cases p with
      | mark m =>
          -- A mark ends with a greater-than sign, so that the line feeds stand behind it.
          refine ⟨.mark m :: qs, ?_, ?_, ?_⟩
          · rw [writePieces_cons]
            split
            · rename_i hnil
              obtain ⟨u, hu⟩ := last_write m
              rw [hnil, List.append_nil, Piece.write, hu, dropLineFeeds_of_last (by decide)]
            · rfl
          · exact (congrArg (Runs.mark m.spaced) hruns).trans (trimEnd_mark m.spaced _).symm
          · rw [marksOf_mark, marksOf_mark, hmarks]
      | text t =>
          have htrim : Runs.ofPieces (.text t :: ps) = (Runs.ofPieces ps).text t := rfl
          rw [htrim, trimEnd_text, ← hruns, marksOf_text]
          have hiff := @writePieces_eq_nil_iff qs
          by_cases hnil : writePieces qs = []
          · -- Nothing but line feeds follows the text, and so no mark.
            have hnone : (marksOf qs).map Mark.spaced = [] := by
              rw [← marks_ofPieces, hiff.1 hnil]
              rfl
            refine ⟨[.text (trimFeeds t)], ?_, ?_, ?_⟩
            · rw [if_pos hnil]
              simp [Piece.write, Text.escape, trimFeeds, dropLineFeeds_escapeChars]
            · rw [if_pos (hiff.1 hnil)]
              simp [Runs.ofPieces, Piece.onto, Runs.text, Runs.empty]
            · rw [← hmarks, List.map_eq_nil_iff.1 hnone]
              rfl
          · refine ⟨.text t :: qs, ?_, ?_, hmarks⟩
            · rw [if_neg hnil]
              rfl
            · rw [if_neg (hiff.not.1 hnil)]
              rfl

end Html
end RenderForest
