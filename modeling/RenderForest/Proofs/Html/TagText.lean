import Mathlib.Tactic.Tauto
import RenderForest.Proofs.Html.Scanner
import RenderForest.Proofs.Text.Escaped
import RenderForest.Tree.Html
/-!
# TagText — written tags, as the scanner sees them

The names of a written tag hold nothing that ends a name or a tag, and its values hold no quote.
This file defines:

* `Html.delimiters`, the characters that mean something inside of a tag;
* `Html.Passes`, that the scanner passes over a part of the inside of a tag;

and shows in `readMark?_start` and `readMark?_stop` that a written tag is read as it was written,
its values still escaped.
-/

namespace RenderForest
namespace Html

/-! ## Characters of names -/

/-- The characters that end a name inside of a tag, end the tag, or quote. -/
def delimiters : List Char :=
  ['\t', '\n', '\x0c', '\r', ' ', '=', '>', '\x22']

theorem not_mem_delimiters {p : Char → Bool} (hp : (delimiters.all fun d => !p d) = true) {c : Char}
    (hc : p c = true) : c ∉ delimiters := by
  intro hmem
  have hnot := List.all_eq_true.1 hp c hmem
  rw [hc] at hnot
  cases hnot

theorem isAttrChar_of_not_mem {c : Char} (h : c ∉ delimiters) : isAttrChar c = true := by
  simp only [delimiters, List.mem_cons, List.not_mem_nil, or_false, not_or] at h
  simp only [isAttrChar, Text.isAsciiBlank, Bool.and_eq_true, Bool.not_eq_true',
    Bool.or_eq_false_iff, beq_eq_false_iff_ne, bne_iff_ne]
  tauto

theorem not_isAsciiBlank_of_not_mem {c : Char} (h : c ∉ delimiters) :
    Text.isAsciiBlank c = false := by
  have hattr := isAttrChar_of_not_mem h
  rw [isAttrChar, Bool.and_eq_true, Bool.not_eq_true'] at hattr
  exact hattr.1

/-- A tag is a letter, with further characters that delimit nothing. -/
theorem exists_cons_of_isValidTag {tag : String} (h : isValidTag tag = true) :
    ∃ c rest, tag.toList = c :: rest ∧ c ≠ '/' ∧ c ≠ '!' ∧ ∀ d ∈ tag.toList, d ∉ delimiters := by
  unfold isValidTag at h
  split at h
  · cases h
  · rename_i c rest htag
    rcases Bool.and_eq_true_iff.1 h with ⟨hc, hrest⟩
    refine ⟨c, rest, htag, ?_, ?_, ?_⟩
    · exact ne_of_apply_ne Char.isAlpha (by rw [hc]; decide)
    · exact ne_of_apply_ne Char.isAlpha (by rw [hc]; decide)
    · intro d hd
      rw [htag] at hd
      rcases List.mem_cons.1 hd with rfl | hd
      · exact not_mem_delimiters (p := Char.isAlpha) (by decide) hc
      · exact not_mem_delimiters (p := fun c => c.isAlphanum || c == '-' || c == ':') (by decide)
          (List.all_eq_true.1 hrest d hd)

theorem not_mem_of_isValidAttributeName {name : String}
    (h : Safety.isValidAttributeName name = true) :
    name.toList ≠ [] ∧ ∀ c ∈ name.toList, c ∉ delimiters := by
  unfold Safety.isValidAttributeName at h
  split at h
  · cases h
  · rename_i c rest hname
    simp only [Bool.and_eq_true] at h
    rw [hname]
    refine ⟨List.cons_ne_nil _ _, ?_⟩
    intro d hd
    rcases List.mem_cons.1 hd with rfl | hd
    · exact not_mem_delimiters (p := Safety.isNameStart) (by decide) h.1.1
    · exact not_mem_delimiters (p := Safety.isNameChar) (by decide)
        (List.all_eq_true.1 h.1.2 d hd)

/-! ## The extent of a tag -/

variable {u v s rest : List Char} {quoted quoted' : Bool} {attrs : List (String × String)}

/-- A part of the inside of a tag: the scanner passes over it, and whether it stands between quotes
changes as given. -/
def Passes (quoted : Bool) (u : List Char) (quoted' : Bool) : Prop :=
  ∀ s inside after, tagSpan? quoted' s = some (inside, after) →
    tagSpan? quoted (u ++ s) = some (u ++ inside, after)

theorem passes_nil : Passes quoted [] quoted :=
  fun _ _ _ h => h

theorem Passes.cons {c : Char} (hc : c = '>' → quoted = true)
    (h : Passes (if c == '\x22' then !quoted else quoted) u quoted') :
    Passes quoted (c :: u) quoted' := by
  intro s inside after hs
  -- A greater-than sign between quotes does not end the tag.
  have hend : ¬ ((c == '>' && !quoted) = true) := by
    simpa using hc
  rw [List.cons_append, tagSpan?, if_neg hend, h s inside after hs]
  rfl

theorem Passes.append {quoted'' : Bool} (h : Passes quoted u quoted')
    (h' : Passes quoted' v quoted'') : Passes quoted (u ++ v) quoted'' := by
  intro s inside after hs
  have hv := h' s inside after hs
  have hu := h (v ++ s) (v ++ inside) after hv
  simpa using hu

theorem passes_of_ne (hend : quoted = true ∨ ∀ c ∈ u, c ≠ '>') (hquote : ∀ c ∈ u, c ≠ '\x22') :
    Passes quoted u quoted := by
  induction u with
  | nil => exact passes_nil
  | cons c u ih =>
      have htail := ih (hend.imp id fun h d hd => h d (List.mem_cons_of_mem _ hd))
        (fun d hd => hquote d (List.mem_cons_of_mem _ hd))
      refine Passes.cons ?_ ?_
      · intro hc
        exact hend.resolve_right fun h => h c (List.mem_cons_self ..) hc
      · have hne : (c == '\x22') = false := by simpa using hquote c (List.mem_cons_self ..)
        rw [hne]
        exact htail

theorem passes_plain (hu : ∀ c ∈ u, c ∉ delimiters) : Passes false u false := by
  refine passes_of_ne (Or.inr ?_) ?_
  · intro c hc heq
    exact hu c hc (by rw [heq]; decide)
  · intro c hc heq
    exact hu c hc (by rw [heq]; decide)

/-- A written attribute: a blank, the name, and the value between quotes. -/
theorem toList_writeAttrs_cons {a : String × String}
    (ha : Safety.isValidAttributeName a.1 = true) (l : List (String × String)) :
    (writeAttrs (a :: l)).toList =
      ' ' :: (a.1.toList ++ ('=' :: '\x22' ::
        ((Text.escape a.2).toList ++ '\x22' :: (writeAttrs l).toList))) := by
  rw [writeAttrs, if_pos ha]
  simp [writeAttr]

theorem passes_writeAttrs (h : ∀ a ∈ attrs, Safety.isValidAttributeName a.1 = true) :
    Passes false (writeAttrs attrs).toList false := by
  induction attrs with
  | nil => exact passes_nil
  | cons a l ih =>
      have ha := h a (List.mem_cons_self ..)
      have hname : Passes false a.1.toList false :=
        passes_plain (not_mem_of_isValidAttributeName ha).2
      have hvalue : Passes true (Text.escape a.2).toList true :=
        passes_of_ne (Or.inl rfl) fun c hc => Text.ne_quote_of_mem_escape hc
      have hl := ih fun b hb => h b (List.mem_cons_of_mem _ hb)
      -- The first quote opens the value, and the second closes it.
      have hclose : Passes true ('\x22' :: (writeAttrs l).toList) false :=
        Passes.cons (by decide) hl
      have hopen : Passes false ('\x22' ::
          ((Text.escape a.2).toList ++ '\x22' :: (writeAttrs l).toList)) false :=
        Passes.cons (by decide) (hvalue.append hclose)
      rw [toList_writeAttrs_cons ha]
      exact Passes.cons (by decide) (hname.append (Passes.cons (by decide) hopen))

/-! ## The attributes of a tag -/

theorem takeWhile_append_cons {p : Char → Bool} {c : Char} (hu : ∀ d ∈ u, p d = true)
    (hc : p c = false) : (u ++ c :: v).takeWhile p = u ∧ (u ++ c :: v).dropWhile p = c :: v := by
  rw [List.takeWhile_append_of_pos hu, List.dropWhile_append_of_pos hu]
  simp [hc]

theorem attrsOf_nil : attrsOf [] = [] := by
  rw [attrsOf]
  rfl

theorem attrsOf_of_value {c : Char} {after : List Char}
    (hskip : s.dropWhile Text.isAsciiBlank = c :: rest)
    (hcut : (c :: rest).dropWhile isAttrChar = '=' :: '\x22' :: after) :
    attrsOf s =
      (String.ofList ((c :: rest).takeWhile isAttrChar),
          String.ofList (after.takeWhile (· != '\x22'))) ::
        attrsOf (after.dropWhile (· != '\x22')).tail := by
  rw [attrsOf]
  split
  · rename_i hnil
    rw [hskip] at hnil
    cases hnil
  · rename_i d tail hcons
    rw [hskip] at hcons
    cases hcons
    simp only
    split
    · rename_i after' hafter
      rw [hcut] at hafter
      cases hafter
      rfl
    · rename_i hnone
      exact absurd hcut (hnone _)

theorem attrsOf_cons {name value : List Char} (hne : name ≠ [])
    (hname : ∀ c ∈ name, c ∉ delimiters) (hvalue : ∀ c ∈ value, c ≠ '\x22') (s : List Char) :
    attrsOf (' ' :: (name ++ ('=' :: '\x22' :: (value ++ '\x22' :: s)))) =
      (String.ofList name, String.ofList value) :: attrsOf s := by
  rcases List.exists_cons_of_ne_nil hne with ⟨c, w, rfl⟩
  have hblank := not_isAsciiBlank_of_not_mem (hname c (List.mem_cons_self ..))
  -- The blank is skipped, the name ends at the equals sign, and the value at the second quote.
  have hskip : ∀ t : List Char,
      (' ' :: (c :: w ++ t)).dropWhile Text.isAsciiBlank = c :: (w ++ t) := by
    intro t
    rw [List.dropWhile_cons_of_pos (by decide), List.cons_append,
      List.dropWhile_cons_of_neg (by simp [hblank])]
  have hcut : ∀ t : List Char, (c :: (w ++ '=' :: t)).takeWhile isAttrChar = c :: w ∧
      (c :: (w ++ '=' :: t)).dropWhile isAttrChar = '=' :: t :=
    fun t => takeWhile_append_cons (fun d hd => isAttrChar_of_not_mem (hname d hd)) (by decide)
  have hclose : (value ++ '\x22' :: s).takeWhile (· != '\x22') = value ∧
      (value ++ '\x22' :: s).dropWhile (· != '\x22') = '\x22' :: s :=
    takeWhile_append_cons (fun d hd => by simpa using hvalue d hd) (by decide)
  rw [attrsOf_of_value (hskip _) (hcut _).2, (hcut _).1, hclose.1, hclose.2, List.tail_cons]

theorem attrsOf_writeAttrs (h : ∀ a ∈ attrs, Safety.isValidAttributeName a.1 = true) :
    attrsOf (writeAttrs attrs).toList = attrs.map fun a => (a.1, Text.escape a.2) := by
  induction attrs with
  | nil => exact attrsOf_nil
  | cons a l ih =>
      have ha := h a (List.mem_cons_self ..)
      have hname := not_mem_of_isValidAttributeName ha
      rw [toList_writeAttrs_cons ha, attrsOf_cons hname.1 hname.2
        fun c hc => Text.ne_quote_of_mem_escape hc]
      rw [ih fun b hb => h b (List.mem_cons_of_mem _ hb)]
      simp

/-! ## Tags -/

variable (comments : Bool) {tag : String}

theorem tagSpan?_end (h : Passes false u false) (rest : List Char) :
    tagSpan? false (u ++ '>' :: rest) = some (u, rest) := by
  have hend := h ('>' :: rest) [] rest (by simp [tagSpan?])
  rwa [List.append_nil] at hend

/-- What does not begin like a comment is a tag. -/
theorem readMark?_of_passes {c : Char} (hc : c ≠ '!') (h : Passes false (c :: u) false)
    (rest : List Char) :
    readMark? comments (c :: (u ++ '>' :: rest)) = some (tagOf (c :: u), rest) := by
  have hspan := tagSpan?_end h rest
  rw [List.cons_append] at hspan
  unfold readMark?
  -- A comment would begin with an exclamation mark.
  split
  · rename_i heq
    exact absurd (List.cons.inj heq).1 hc
  · rw [hspan]
    rfl

/-- A tag begins with its name, if that delimits nothing, and its attributes follow. -/
theorem tagOf_writeAttrs {c : Char} {w : List Char} (htag : tag.toList = c :: w) (hslash : c ≠ '/')
    (hplain : ∀ d ∈ tag.toList, d ∉ delimiters)
    (h : ∀ a ∈ attrs, Safety.isValidAttributeName a.1 = true) :
    tagOf (tag.toList ++ (writeAttrs attrs).toList) =
      .start tag (attrs.map fun a => (a.1, Text.escape a.2)) := by
  have hblank : ∀ d ∈ tag.toList, (!Text.isAsciiBlank d) = true := by
    intro d hd
    simpa using not_isAsciiBlank_of_not_mem (hplain d hd)
  -- The name ends at the blank before the first attribute, or with the inside of the tag.
  have hcut : (tag.toList ++ (writeAttrs attrs).toList).takeWhile (fun c => !Text.isAsciiBlank c) =
        tag.toList ∧
      (tag.toList ++ (writeAttrs attrs).toList).dropWhile (fun c => !Text.isAsciiBlank c) =
        (writeAttrs attrs).toList := by
    cases attrs with
    | nil =>
        rw [List.takeWhile_append_of_pos hblank, List.dropWhile_append_of_pos hblank]
        simp [writeAttrs]
    | cons a l =>
        rw [toList_writeAttrs_cons (h a (List.mem_cons_self ..))]
        exact takeWhile_append_cons hblank (by decide)
  unfold tagOf
  split
  · rename_i name hname
    rw [htag] at hname
    exact absurd (List.cons.inj hname).1 hslash
  · rw [hcut.1, hcut.2, String.ofList_toList, attrsOf_writeAttrs h]

theorem tagOf_start (htag : isValidTag tag = true)
    (h : ∀ a ∈ attrs, Safety.isValidAttributeName a.1 = true) :
    tagOf (tag.toList ++ (writeAttrs attrs).toList) =
      .start tag (attrs.map fun a => (a.1, Text.escape a.2)) := by
  rcases exists_cons_of_isValidTag htag with ⟨c, w, htag', hslash, _, hplain⟩
  exact tagOf_writeAttrs htag' hslash hplain h

theorem readMark?_start (htag : isValidTag tag = true)
    (h : ∀ a ∈ attrs, Safety.isValidAttributeName a.1 = true) (rest : List Char) :
    readMark? comments (tag.toList ++ ((writeAttrs attrs).toList ++ '>' :: rest)) =
      some (.start tag (attrs.map fun a => (a.1, Text.escape a.2)), rest) := by
  rcases exists_cons_of_isValidTag htag with ⟨c, w, htag', _, hbang, hplain⟩
  have hpasses : Passes false (c :: (w ++ (writeAttrs attrs).toList)) false := by
    rw [← List.cons_append, ← htag']
    exact (passes_plain hplain).append (passes_writeAttrs h)
  have hread : readMark? comments (c :: (w ++ (writeAttrs attrs).toList ++ '>' :: rest)) =
      some (tagOf (c :: (w ++ (writeAttrs attrs).toList)), rest) :=
    readMark?_of_passes comments hbang hpasses rest
  rw [← tagOf_start htag h, htag']
  simpa using hread

theorem readMark?_stop (htag : isValidTag tag = true) (rest : List Char) :
    readMark? comments ('/' :: (tag.toList ++ '>' :: rest)) = some (.stop tag, rest) := by
  rcases exists_cons_of_isValidTag htag with ⟨_, _, _, _, _, hplain⟩
  have hpasses : Passes false ('/' :: tag.toList) false :=
    Passes.cons (by decide) (passes_plain hplain)
  rw [readMark?_of_passes comments (by decide) hpasses, tagOf, String.ofList_toList]

end Html
end RenderForest
