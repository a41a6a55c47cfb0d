import RenderForest.Proofs.Markup.CleanedFragments
import RenderForest.Proofs.Markup.RereadTrees
import RenderForest.Proofs.Safety.FoldedValues
/-!
# RereadOutlines — what a second cleaning leaves

What was cleaned is read and cleaned once more.  A scanner then finds the same texts and tags, but
for the line ends and tabs that XML reads as other blanks, and for declarations of the prefix of
links that nothing needs.  This file defines:

* `Html.Runs.reread`, runs whose texts and values are read as XML where they were written;
* `Html.Runs.unlinked`, runs without the declarations of the prefix of links;

and shows in `ofPieces_rereadFrom` that a second cleaning keeps the outline of trees.
-/

namespace RenderForest
namespace Html

/-! ## Runs that are read again -/

/-- A mark whose values are read where they were written. -/
def Mark.reread : Mark → Mark
  | .start name attrs => .start name (attrs.map fun a => (a.1, Xml.rereadValue a.2))
  | m => m

def Mark.unlinked : Mark → Mark
  | .start name attrs => .start name (attrs.filter fun a => a.1 != "xmlns:xlink")
  | m => m

namespace Runs

def reread (r : Runs) : Runs :=
  ⟨Xml.rereadText r.head, r.tail.map fun m => (m.1.reread, Xml.rereadText m.2)⟩

def unlinked (r : Runs) : Runs :=
  ⟨r.head, r.tail.map fun m => (m.1.unlinked, m.2)⟩

/-- No text holds a carriage return, and no value a tab or a line end. -/
structure IsPlain (r : Runs) : Prop where
  head : '\r' ∉ r.head.toList
  texts : ∀ m ∈ r.tail, '\r' ∉ m.2.toList
  values : ∀ m ∈ r.tail, ∀ name attrs, m.1 = .start name attrs →
    ∀ a ∈ attrs, ∀ c ∈ a.2.toList, c ≠ '\t' ∧ c ≠ '\n' ∧ c ≠ '\r'

/-- Plain runs are read as they were written. -/
theorem IsPlain.reread_eq {r : Runs} (h : r.IsPlain) : r.reread = r := by
  have hmark : ∀ m ∈ r.tail, (m.1.reread, Xml.rereadText m.2) = m := by
    rintro ⟨m, text⟩ hm
    have htext := Xml.rereadText_of_not_mem (h.texts _ hm)
    cases m with
    | start name attrs =>
        have hattrs : ∀ a ∈ attrs, (a.1, Xml.rereadValue a.2) = a := by
          intro a ha
          have hvalue := Xml.foldBlanks_of_forall (h.values _ hm name attrs rfl a ha)
          rw [Xml.rereadValue, hvalue, String.ofList_toList]
        rw [Mark.reread, htext, List.map_congr_left hattrs, List.map_id']
    | stop name => exact congrArg (Prod.mk (Mark.stop name)) htext
    | comment s => exact congrArg (Prod.mk (Mark.comment s)) htext
  rw [Runs.reread, Xml.rereadText_of_not_mem h.head, List.map_congr_left hmark, List.map_id']

variable {r : Runs}

@[simp] theorem unlinked_mark (m : Mark) (r : Runs) :
    (r.mark m).unlinked = r.unlinked.mark m.unlinked := rfl

@[simp] theorem unlinked_text (s : String) (r : Runs) :
    (r.text s).unlinked = r.unlinked.text s := rfl

theorem text_empty (r : Runs) : r.text "" = r := by
  simp [text]

theorem rereadText_empty : Xml.rereadText "" = "" :=
  Xml.rereadText_eq_empty_iff.2 rfl

@[simp] theorem reread_mark (m : Mark) (r : Runs) :
    (r.mark m).reread = r.reread.mark m.reread := by
  simp [mark, reread, rereadText_empty]

/-- A text that a mark follows is read by itself. -/
theorem reread_text (hr : r.head = "") (s : String) :
    (r.text s).reread = r.reread.text (Xml.rereadText s) := by
  simp [text, reread, hr, rereadText_empty]

theorem reread_empty : Runs.empty.reread = .empty := by
  simp [reread, empty, rereadText_empty]

end Runs
end Html

namespace Vector

open Xml

/-! ## Attributes -/

theorem isKept_rereadAttr (a : Attr) : isKept (rereadAttr a) = isKept a := by
  rw [isKept, isKept, qualifiedName_rereadAttr]
  exact congrArg _ (Safety.isSafeValue_rereadValue _ _)

theorem keptAttrs_reread (attrs : List Attr) :
    keptAttrs ((attrs.filter isKept).map rereadAttr) =
      (keptAttrs attrs).map fun a => (a.1, rereadValue a.2) := by
  have hkept : isKept ∘ rereadAttr = isKept := funext isKept_rereadAttr
  have hwritten : (fun a : Attr => (qualifiedName a, a.value)) ∘ rereadAttr =
      (fun a => (a.1, rereadValue a.2)) ∘ fun a : Attr => (qualifiedName a, a.value) := by
    funext a
    exact congrArg (·, rereadValue a.value) (qualifiedName_rereadAttr a)
  rw [keptAttrs, keptAttrs, List.filter_map, hkept, List.filter_filter, List.map_map, List.map_map,
    hwritten]
  simp only [Bool.and_self]

/-- Namespace declarations at the top are kept, but for that of links. -/
theorem filter_spaceAttrs (space : Option String) (xlink xlink' : Bool) :
    (spaceAttrs (space.map rereadValue) xlink').filter (fun a => a.1 != "xmlns:xlink") =
      ((spaceAttrs space xlink).map fun a => (a.1, rereadValue a.2)).filter
        fun a => a.1 != "xmlns:xlink" := by
  cases space <;> cases xlink <;> cases xlink' <;> rfl

theorem unlinked_start (top : Bool) (space outer : Option String) (name : String)
    (attrs : List Attr) (children children' : List Tree) :
    (Html.Mark.start name (writtenAttrs top (innerSpace top space outer)
        ((attrs.filter isKept).map rereadAttr) children')).unlinked =
      (Html.Mark.start name (writtenAttrs top space attrs children)).reread.unlinked := by
  unfold writtenAttrs
  simp only [Html.Mark.unlinked, Html.Mark.reread, List.filter_append, List.map_append,
    keptAttrs_reread]
  cases top with
  | false => rfl
  | true => exact congrArg (fun l => Html.Mark.start name (l ++ _)) (filter_spaceAttrs space _ _)

/-! ## Outlines -/

theorem outlineAll_append (top : Bool) (ts us : List Tree) :
    outlineAll top (ts ++ us) = outlineAll top ts ++ outlineAll top us := by
  induction ts with
  | nil => rfl
  | cons t ts ih => rw [List.cons_append, outlineAll, outlineAll, ih, List.append_assoc]

variable {r r' : Html.Runs}

/-- A text that is read again stands in front of what is read behind it. -/
theorem foldr_textTrees (top : Bool) (seen : String) (hr : r.head = "")
    (h : r'.unlinked = r.reread.unlinked) :
    ((outlineAll top (textTrees seen)).foldr Html.Piece.onto r').unlinked =
      (r.text seen).reread.unlinked := by
  rw [Html.Runs.reread_text hr, Html.Runs.unlinked_text, ← h]
  unfold textTrees
  split
  · rename_i hempty
    rw [String.isEmpty_iff.1 hempty, Html.Runs.rereadText_empty]
    simp [outlineAll, Html.Runs.text]
  · rfl

/-- A second cleaning keeps what a scanner reads, line ends and tabs aside. -/
theorem foldr_rereadFrom :
    ∀ (ts : List Tree) (top : Bool) (outer : Option String) (seen : String) {r r' : Html.Runs},
      r.head = "" → r'.unlinked = r.reread.unlinked →
      ((outlineAll top (rereadFrom top outer seen ts)).foldr Html.Piece.onto r').unlinked =
        (((outlineAll top ts).foldr Html.Piece.onto r).text seen).reread.unlinked
  | [], top, outer, seen, r, r', hr, h => by
    rw [rereadFrom, outlineAll]
    exact foldr_textTrees top seen hr h
  | .text s :: ts, top, outer, seen, r, r', hr, h => by
    rw [rereadFrom, foldr_rereadFrom ts top outer (seen ++ s) hr h, outlineAll, outline]
    exact congrArg (fun r => (Html.Runs.reread r).unlinked) (Html.text_text seen s _).symm
  | .remark :: ts, top, outer, seen, r, r', hr, h => by
    rw [rereadFrom, foldr_rereadFrom ts top outer seen hr h, outlineAll, outline]
    rfl
  | .element space name attrs children :: ts, top, outer, seen, r, r', hr, h => by
    cases hname : Safety.isDangerousElement name with
    | true =>
        rw [rereadFrom, if_pos hname, foldr_rereadFrom ts top outer seen hr h, outlineAll, outline,
          if_pos hname]
        rfl
    | false =>
        -- Behind the start tag come the children, the end tag and the trees behind the element.
        let rest := (outlineAll top ts).foldr Html.Piece.onto r
        let rest' := (outlineAll top (rereadFrom top outer "" ts)).foldr Html.Piece.onto r'
        let kids := rereadFrom false (innerSpace top space outer) "" children
        let inside := (outlineAll false children).foldr Html.Piece.onto (rest.mark (.stop name))
        let inside' := (outlineAll false kids).foldr Html.Piece.onto (rest'.mark (.stop name))
        have hrest : rest'.unlinked = rest.reread.unlinked := by
          have hread := foldr_rereadFrom ts top outer "" hr h
          rwa [Html.Runs.text_empty] at hread
        have hstop : (rest'.mark (.stop name)).unlinked =
            (rest.mark (.stop name)).reread.unlinked := by
          rw [Html.Runs.reread_mark, Html.Runs.unlinked_mark, Html.Runs.unlinked_mark, hrest]
          rfl
        have hinside : inside'.unlinked = inside.reread.unlinked := by
          have hread := foldr_rereadFrom children false (innerSpace top space outer) "" rfl hstop
          rwa [Html.Runs.text_empty] at hread
        have hstart : (inside'.mark (.start name (writtenAttrs top (innerSpace top space outer)
              ((attrs.filter isKept).map rereadAttr) kids))).unlinked =
            (inside.mark
              (.start name (writtenAttrs top space attrs children))).reread.unlinked := by
          rw [Html.Runs.reread_mark, Html.Runs.unlinked_mark, Html.Runs.unlinked_mark, hinside,
            unlinked_start]
        have htexts := foldr_textTrees top seen rfl hstart
        rw [rereadFrom, if_neg (by simp [hname]), outlineAll_append, outlineAll, outlineAll,
          rereadTree, outline_element hname, outline_element hname]
        simpa [Html.Piece.onto, Html.Mark.spaced, rest, rest', inside, inside', kids] using htexts
termination_by ts => sizeOf ts

/-- What is read where trees were written has their outline, line ends and tabs aside. -/
theorem ofPieces_rereadFrom (ts : List Tree) :
    (Html.Runs.ofPieces (outlineAll true (rereadFrom true none "" ts))).unlinked =
      (Html.Runs.ofPieces (outlineAll true ts)).reread.unlinked := by
  have hnone : Html.Runs.empty.unlinked = Html.Runs.empty.reread.unlinked := by
    rw [Html.Runs.reread_empty]
  have hread := foldr_rereadFrom ts true none "" rfl hnone
  rwa [Html.Runs.text_empty] at hread

/-! ## Nothing -/

theorem writeTrees_append (top : Bool) (ts us : List Tree) :
    writeTrees top (ts ++ us) = writeTrees top ts ++ writeTrees top us := by
  induction ts with
  | nil => exact (String.empty_append).symm
  | cons t ts ih => rw [List.cons_append, writeTrees, writeTrees, ih, String.append_assoc]

theorem writeTree_element_ne_empty {name : String} (hname : Safety.isDangerousElement name = false)
    (top : Bool) (space : Option String) (attrs : List Attr) (children : List Tree) :
    writeTree top (.element space name attrs children) ≠ "" := by
  rw [Ne, ← String.toList_eq_nil_iff, toList_writeTree hname]
  exact List.cons_ne_nil _ _

/-- Nothing is left only where nothing was written. -/
theorem writeTrees_rereadFrom_eq_empty :
    ∀ (ts : List Tree) (top : Bool) (outer : Option String) (seen : String),
      writeTrees top (rereadFrom top outer seen ts) = "" → seen = "" ∧ writeTrees top ts = ""
  | [], top, outer, seen, h => by
    refine ⟨?_, by rw [writeTrees]⟩
    rw [rereadFrom, textTrees] at h
    split at h
    · rename_i hempty
      exact String.isEmpty_iff.1 hempty
    · rw [writeTrees, writeTree, String.append_eq_empty_iff, Text.escape_eq_empty_iff,
        rereadText_eq_empty_iff] at h
      exact h.1
  | .text s :: ts, top, outer, seen, h => by
    rw [rereadFrom] at h
    rcases writeTrees_rereadFrom_eq_empty ts top outer (seen ++ s) h with ⟨hseen, hts⟩
    rcases String.append_eq_empty_iff.1 hseen with ⟨hseen, hs⟩
    rw [writeTrees, writeTree, hts, String.append_eq_empty_iff, Text.escape_eq_empty_iff]
    exact ⟨hseen, hs, rfl⟩
  | .remark :: ts, top, outer, seen, h => by
    rw [rereadFrom] at h
    rw [writeTrees, writeTree, String.empty_append]
    exact writeTrees_rereadFrom_eq_empty ts top outer seen h
  | .element space name attrs children :: ts, top, outer, seen, h => by
    cases hname : Safety.isDangerousElement name with
    | true =>
        rw [rereadFrom, if_pos hname] at h
        rw [writeTrees, writeTree, if_pos hname, String.empty_append]
        exact writeTrees_rereadFrom_eq_empty ts top outer seen h
    | false =>
        -- The element is written again.
        rw [rereadFrom, if_neg (by simp [hname]), writeTrees_append, writeTrees, rereadTree,
          String.append_eq_empty_iff, String.append_eq_empty_iff] at h
        exact absurd h.2.1 (writeTree_element_ne_empty hname _ _ _ _)

end Vector
end RenderForest
