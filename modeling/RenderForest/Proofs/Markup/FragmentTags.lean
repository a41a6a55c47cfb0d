import RenderForest.Proofs.Html.Pieces
import RenderForest.Proofs.Markup.WrittenAttributes
/-!
# FragmentTags — a fragment of XML, cut at its tags

A fragment is read from left to right like a page, but a tag that ends with a slash starts an
element and stops it at once.  Declarations, comments and instructions are read as tags, too:
their names begin with an exclamation or a question mark, and so are none.  This file defines:

* `Html.tagMarks`, the marks of one tag;
* `Html.scanFragment`, the scanner of fragments;

and shows in `unescaped_scanFragment_start`, `unescaped_scanFragment_empty` and
`unescaped_scanFragment_stop` that the tags that are written of names and attributes are read as
those, and nothing else.
-/

namespace RenderForest

/-! ## Names -/

namespace Xml

theorem IsName.plain {name : String} (h : IsName name) : ∀ c ∈ name.toList, c ∉ Html.delimiters :=
  fun c hc => Html.not_mem_delimiters (p := isNameChar) (by decide) (h.2 c hc)

theorem IsName.ne_slash {name : String} (h : IsName name) : ∀ c ∈ name.toList, c ≠ '/' :=
  fun c hc => ne_of_apply_ne isNameChar (by rw [h.2 c hc]; decide)

end Xml

namespace Markup

/-- Attributes in XML are written like those in a page. -/
theorem attrChars_eq {l : List (String × String)}
    (hl : ∀ a ∈ l, Safety.isValidAttributeName a.1 = true) :
    attrChars l = (Html.writeAttrs l).toList := by
  induction l with
  | nil => rfl
  | cons a l ih =>
      rw [attrChars_cons, Html.toList_writeAttrs_cons (hl a (List.mem_cons_self ..))]
      rw [ih fun b hb => hl b (List.mem_cons_of_mem _ hb)]

/-- Attributes end with a quote. -/
theorem last_attrChars (a : String × String) (l : List (String × String)) :
    ∃ u, attrChars (a :: l) = u ++ ['\x22'] := by
  induction l generalizing a with
  | nil =>
      refine ⟨' ' :: (a.1.toList ++ '=' :: '\x22' :: (Text.escape a.2).toList), ?_⟩
      rw [attrChars_cons]
      simp [attrChars]
  | cons b l ih =>
      rcases ih b with ⟨u, hu⟩
      refine ⟨' ' :: (a.1.toList ++
        '=' :: '\x22' :: ((Text.escape a.2).toList ++ '\x22' :: u)), ?_⟩
      rw [attrChars_cons, hu]
      simp

end Markup

namespace Html

variable {name : String} {l : List (String × String)} {u inside rest : List Char}

/-! ## One tag -/

/-- The marks of a tag that ends with a slash. -/
def Mark.closed : Mark → List Mark
  | .start name attrs => [.start name attrs, .stop name]
  | m => [m]

/-- The marks of the tag whose inside is given. -/
def tagMarks (inside : List Char) : List Mark :=
  if inside.getLast? == some '/' then (tagOf inside.dropLast).closed else [tagOf inside]

theorem tagMarks_of_last {c : Char} (hc : c ≠ '/') (hu : inside = u ++ [c]) :
    tagMarks inside = [tagOf inside] := by
  rw [tagMarks, if_neg]
  simp [hu, hc]

theorem tagMarks_slash (inside : List Char) :
    tagMarks (inside ++ ['/']) = (tagOf inside).closed := by
  rw [tagMarks, if_pos (by simp), List.dropLast_concat]

/-- A tag does not end with a slash if none is written there: its last character belongs to the
name or is the quote behind the last value. -/
theorem exists_last (hname : Xml.IsName name) (l : List (String × String)) :
    ∃ v c, c ≠ '/' ∧ name.toList ++ Markup.attrChars l = v ++ [c] := by
  cases l with
  | nil =>
      -- Without attributes the tag ends with its name.
      have hlast := hname.ne_slash _ (List.getLast_mem hname.1)
      refine ⟨name.toList.dropLast, name.toList.getLast hname.1, hlast, ?_⟩
      rw [List.dropLast_append_getLast]
      exact List.append_nil _
  | cons a l =>
      rcases Markup.last_attrChars a l with ⟨v, hv⟩
      refine ⟨name.toList ++ v, '\x22', by decide, ?_⟩
      rw [hv, List.append_assoc]

theorem tagOf_attrChars (hname : Xml.IsName name)
    (hl : ∀ a ∈ l, Safety.isValidAttributeName a.1 = true) :
    tagOf (name.toList ++ Markup.attrChars l) =
      .start name (l.map fun a => (a.1, Text.escape a.2)) := by
  rcases List.exists_cons_of_ne_nil hname.1 with ⟨c, w, hcw⟩
  have hslash : c ≠ '/' := hname.ne_slash c (hcw ▸ List.mem_cons_self ..)
  rw [Markup.attrChars_eq hl]
  exact tagOf_writeAttrs hcw hslash hname.plain hl

theorem passes_attrChars (hname : Xml.IsName name)
    (hl : ∀ a ∈ l, Safety.isValidAttributeName a.1 = true) :
    Passes false (name.toList ++ Markup.attrChars l) false := by
  rw [Markup.attrChars_eq hl]
  exact (passes_plain hname.plain).append (passes_writeAttrs hl)

/-! ## The scanner -/

/-- Cuts a fragment at its tags.  A less-than sign whose tag does not end is text. -/
def scanFragment (s : List Char) : Runs :=
  match s with
  | [] => .empty
  | c :: rest =>
    if c == '<' then
      match _h : tagSpan? false rest with
      | some (inside, after) => (tagMarks inside).foldr Runs.mark (scanFragment after)
      | none => (scanFragment rest).text (String.singleton c)
    else (scanFragment rest).text (String.singleton c)
termination_by s.length
decreasing_by
  · have hafter := tagSpan?_length _h
    simp only [List.length_cons]
    omega
  · simp
  · simp

theorem scanFragment_nil : scanFragment [] = .empty := by
  rw [scanFragment]

theorem scanFragment_append (hu : ∀ c ∈ u, c ≠ '<') (rest : List Char) :
    scanFragment (u ++ rest) = (scanFragment rest).text (String.ofList u) := by
  induction u with
  | nil => simp [Runs.text]
  | cons c u ih =>
      have hc : ¬ ((c == '<') = true) := by simpa using hu c (List.mem_cons_self ..)
      rw [List.cons_append, scanFragment, if_neg hc]
      rw [ih fun d hd => hu d (List.mem_cons_of_mem _ hd), text_text]
      simp [← String.ofList_cons]

/-- The scanner reads the marks of a tag and goes on behind it. -/
theorem scanFragment_tag (h : Passes false inside false) (rest : List Char) :
    scanFragment ('<' :: (inside ++ '>' :: rest)) =
      (tagMarks inside).foldr Runs.mark (scanFragment rest) := by
  have hspan := tagSpan?_end h rest
  rw [scanFragment, if_pos (by decide)]
  -- The tag ends, so that the less-than sign is no text.
  split
  · rename_i inside' after heq
    rw [hspan] at heq
    cases heq
    rfl
  · rename_i heq
    rw [hspan] at heq
    cases heq

/-! ## Written texts and tags -/

theorem unescaped_scanFragment_nil : (scanFragment []).unescaped = .empty := by
  rw [scanFragment_nil, unescaped_empty]

theorem unescaped_scanFragment_text (t : String) (rest : List Char) :
    (scanFragment ((Text.escape t).toList ++ rest)).unescaped =
      (scanFragment rest).unescaped.text t := by
  rw [scanFragment_append fun c hc => Text.ne_lt_of_mem_escape hc, String.ofList_toList,
    unescaped_text]

theorem unescaped_scanFragment_start (hname : Xml.IsName name)
    (hl : ∀ a ∈ l, Safety.isValidAttributeName a.1 = true) (rest : List Char) :
    (scanFragment ('<' :: (name.toList ++ (Markup.attrChars l ++ '>' :: rest)))).unescaped =
      (scanFragment rest).unescaped.mark (.start name l) := by
  -- The scanner finds the values as they are written.
  let escaped := Mark.start name (l.map fun a => (a.1, Text.escape a.2))
  rcases exists_last hname l with ⟨v, c, hc, hlast⟩
  have hmarks : tagMarks (name.toList ++ Markup.attrChars l) = [escaped] := by
    rw [tagMarks_of_last hc hlast, tagOf_attrChars hname hl]
  have hscan := scanFragment_tag (passes_attrChars hname hl) rest
  rw [hmarks, List.append_assoc] at hscan
  calc
    (scanFragment ('<' :: (name.toList ++ (Markup.attrChars l ++ '>' :: rest)))).unescaped
        = ((scanFragment rest).mark escaped).unescaped := congrArg Runs.unescaped hscan
    _ = (scanFragment rest).unescaped.mark escaped.unescaped := unescaped_mark escaped _
    _ = (scanFragment rest).unescaped.mark (.start name l) := by rw [unescaped_start]

/-- An element without content has no end tag, and is read with one. -/
theorem unescaped_scanFragment_empty (hname : Xml.IsName name)
    (hl : ∀ a ∈ l, Safety.isValidAttributeName a.1 = true) (rest : List Char) :
    (scanFragment ('<' :: (name.toList ++ (Markup.attrChars l ++ '/' :: '>' :: rest)))).unescaped =
      ((scanFragment rest).unescaped.mark (.stop name)).mark (.start name l) := by
  let escaped := Mark.start name (l.map fun a => (a.1, Text.escape a.2))
  have hmarks : tagMarks (name.toList ++ Markup.attrChars l ++ ['/']) = [escaped, .stop name] := by
    rw [tagMarks_slash, tagOf_attrChars hname hl, Mark.closed]
  have hslash : Passes false ['/'] false := Passes.cons (by decide) passes_nil
  have hscan := scanFragment_tag ((passes_attrChars hname hl).append hslash) rest
  rw [hmarks, List.append_assoc, List.append_assoc, List.singleton_append] at hscan
  calc
    (scanFragment ('<' :: (name.toList ++ (Markup.attrChars l ++ '/' :: '>' :: rest)))).unescaped
        = (((scanFragment rest).mark (.stop name)).mark escaped).unescaped :=
          congrArg Runs.unescaped hscan
    _ = ((scanFragment rest).mark (.stop name)).unescaped.mark escaped.unescaped :=
          unescaped_mark escaped _
    _ = ((scanFragment rest).unescaped.mark (.stop name)).mark (.start name l) := by
          rw [unescaped_mark, unescaped_start]
          rfl

theorem unescaped_scanFragment_stop (hname : Xml.IsName name) (rest : List Char) :
    (scanFragment ('<' :: '/' :: (name.toList ++ '>' :: rest))).unescaped =
      (scanFragment rest).unescaped.mark (.stop name) := by
  rcases exists_last hname [] with ⟨v, c, hc, hlast⟩
  have hmarks : tagMarks ('/' :: name.toList) = [.stop name] := by
    have hlast' : '/' :: name.toList = '/' :: v ++ [c] := by
      rw [List.cons_append, ← hlast]
      exact congrArg ('/' :: ·) (List.append_nil _).symm
    rw [tagMarks_of_last hc hlast', tagOf, String.ofList_toList]
  have hpasses : Passes false ('/' :: name.toList) false :=
    Passes.cons (by decide) (passes_plain hname.plain)
  have hscan := scanFragment_tag hpasses rest
  rw [hmarks] at hscan
  exact (congrArg Runs.unescaped hscan).trans (unescaped_mark (.stop name) _)

end Html
end RenderForest
