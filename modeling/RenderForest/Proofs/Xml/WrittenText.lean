import RenderForest.Proofs.Text.Escaped
import RenderForest.Proofs.Text.Splitting
import RenderForest.Proofs.Tree.Sorted
import RenderForest.Xml.CharData
/-!
# WrittenText — texts and values that are written with references, read as XML

The markup characters of a text or a value are written as references, and all else as it is.  XML
reads the references back; but a line end that is written as it is becomes a line feed in a text,
and a line end or a tab becomes a blank in a value.  This file defines:

* `Xml.rereadText`, the text that is read where a text was written;
* `Xml.foldBlanks` and `Xml.rereadValue`, the value that is read where a value was written;

and shows in `textOf?_escape` and `valueOf?_escape` that texts and values of characters of XML are
read again.
-/

namespace RenderForest
namespace Xml

variable {c : Char} {r s t done after : List Char} {literal : Bool}

/-! ## Characters -/

/-- A reference stands for a character of XML and ends in front of the rest. -/
theorem readReference?_some (h : readReference? s = some (c, after)) :
    isXmlChar c = true ∧ after <:+ s := by
  have hnumber : ∀ {base : Nat} {isDigit : Char → Bool} {digits : List Char} {d : Char},
      numbered? base isDigit digits = some d → isXmlChar d = true :=
    fun hd => (Option.filter_eq_some_iff.1 hd).2
  have hentity : ∀ e ∈ entities, isXmlChar e.2 = true := by decide
  have hdrop : ∀ {p : Char → Bool} {u v : List Char} {d : Char}, u.dropWhile p = d :: v → v <:+ u :=
    fun hu => (List.suffix_cons _ _).trans (hu ▸ List.dropWhile_suffix _)
  unfold readReference? at h
  -- A number in base sixteen, one in base ten, and a name.
  split at h
  · split at h
    · rename_i hrest
      rcases Option.map_eq_some_iff.1 h with ⟨d, hd, heq⟩
      cases heq
      exact ⟨hnumber hd, ((hdrop hrest).trans (List.suffix_cons _ _)).trans (List.suffix_cons _ _)⟩
    · cases h
  · split at h
    · rename_i hrest
      rcases Option.map_eq_some_iff.1 h with ⟨d, hd, heq⟩
      cases heq
      exact ⟨hnumber hd, (hdrop hrest).trans (List.suffix_cons _ _)⟩
    · cases h
  · split at h
    · rename_i name _ hname
      rcases Option.map_eq_some_iff.1 h with ⟨d, hd, heq⟩
      cases heq
      constructor
      · exact hentity _ (Catalog.mem_of_lookup hd)
      · unfold readName? at hname
        split at hname
        · cases hname
        · split at hname
          · rename_i first rest _
            have hrest := (Prod.mk.inj (Option.some.inj hname)).2
            exact (hdrop hrest).trans (List.suffix_cons _ _)
          · cases hname
    · cases h

theorem forall_mem_pushText {p : Char → Prop} (hline : p '\n') (hc : p c)
    (hdone : ∀ d ∈ done, p d) (last : Bool) : ∀ d ∈ pushText last c done, p d := by
  unfold pushText
  split
  · have htail := fun d hd => hdone d (List.mem_cons_of_mem _ hd)
    split
    · simpa [hline] using htail
    · split <;> simpa [hline, hc] using htail
  · split <;> simpa [hline, hc] using hdone

/-- Texts are read of characters of XML. -/
theorem forall_mem_textFrom (h : textFrom literal done s = some t)
    (hdone : ∀ d ∈ done, isXmlChar d = true) (hs : ∀ d ∈ s, isXmlChar d = true) :
    ∀ d ∈ t, isXmlChar d = true := by
  fun_induction textFrom literal done s with
  | case1 literal done =>
      cases h
      intro d hd
      exact hdone d (List.mem_reverse.1 hd)
  | case2 literal done c rest hc d after hread ih =>
      rcases readReference?_some hread with ⟨hd, hafter⟩
      refine ih h (List.forall_mem_cons.2 ⟨hd, hdone⟩) ?_
      exact fun e he => hs e (List.mem_cons_of_mem _ (hafter.subset he))
  | case3 => cases h
  | case4 done c rest hc ih =>
      have hsplit := List.forall_mem_cons.1 hs
      exact ih h (List.forall_mem_cons.2 ⟨hsplit.1, hdone⟩) hsplit.2
  | case5 literal done c rest hc hliteral ih =>
      have hsplit := List.forall_mem_cons.1 hs
      exact ih h (forall_mem_pushText (by decide) hsplit.1 hdone _) hsplit.2

theorem forall_mem_textOf? (h : textOf? s = some t) : ∀ d ∈ t, isXmlChar d = true := by
  unfold textOf? at h
  split at h
  · cases h
  · rename_i hgood
    simp only [Bool.or_eq_true, Bool.not_eq_true', not_or, Bool.not_eq_false] at hgood
    exact forall_mem_textFrom h (List.forall_mem_nil _) (List.all_eq_true.1 hgood.1)

theorem isXmlChar_valueChar (hc : isXmlChar c = true) : isXmlChar (valueChar c) = true := by
  unfold valueChar
  split
  · decide
  · exact hc

/-- Values are read of characters of XML. -/
theorem forall_mem_valueFrom (h : valueFrom done s = some t)
    (hdone : ∀ d ∈ done, isXmlChar d = true) (hs : ∀ d ∈ s, isXmlChar d = true) :
    ∀ d ∈ t, isXmlChar d = true := by
  fun_induction valueFrom done s with
  | case1 done =>
      cases h
      intro d hd
      exact hdone d (List.mem_reverse.1 hd)
  | case2 done c rest hc d after hread ih =>
      rcases readReference?_some hread with ⟨hd, hafter⟩
      refine ih h (List.forall_mem_cons.2 ⟨hd, hdone⟩) ?_
      exact fun e he => hs e (List.mem_cons_of_mem _ (hafter.subset he))
  | case3 => cases h
  | case4 done c rest hc hline ih => exact ih h hdone (List.forall_mem_cons.1 hs).2
  | case5 done c rest hc hline ih =>
      have hsplit := List.forall_mem_cons.1 hs
      exact ih h (List.forall_mem_cons.2 ⟨isXmlChar_valueChar hsplit.1, hdone⟩) hsplit.2

theorem forall_mem_valueOf? (h : valueOf? s = some t) : ∀ d ∈ t, isXmlChar d = true := by
  unfold valueOf? at h
  split at h
  · cases h
  · rename_i hgood
    have hall : s.all isXmlChar = true := by simpa using hgood
    exact forall_mem_valueFrom h (List.forall_mem_nil _) (List.all_eq_true.1 hall)

/-! ## References -/

/-- The five references are read as XML reads them. -/
theorem readReference?_reference (h : Text.reference? c = some ('&' :: r)) (s : List Char) :
    readReference? (r ++ s) = some (c, s) := by
  -- Each of the five references is looked up and evaluated.
  unfold Text.reference? at h
  split at h <;> cases h <;> rfl

theorem isXmlChar_of_mem_reference (h : Text.reference? c = some r) :
    ∀ d ∈ r, isXmlChar d = true := by
  unfold Text.reference? at h
  split at h <;> cases h <;> exact List.all_eq_true.1 (by decide)

theorem forall_mem_escapeChars (hs : ∀ d ∈ s, isXmlChar d = true) :
    ∀ d ∈ Text.escapeChars s, isXmlChar d = true := by
  induction s with
  | nil => exact List.forall_mem_nil _
  | cons c s ih =>
      rcases List.forall_mem_cons.1 hs with ⟨hc, hs⟩
      refine List.forall_mem_append.2 ⟨?_, ih hs⟩
      cases hr : Text.reference? c with
      | none => exact List.forall_mem_singleton.2 hc
      | some r => exact isXmlChar_of_mem_reference hr

/-! ## Texts -/

theorem textFrom_reference (h : Text.reference? c = some r) (literal : Bool)
    (done s : List Char) : textFrom literal done (r ++ s) = textFrom true (c :: done) s := by
  rcases Text.head_reference h with ⟨r, rfl⟩
  rw [List.cons_append, textFrom, if_pos (beq_self_eq_true _)]
  split
  · rename_i d after hread
    rw [readReference?_reference h] at hread
    cases hread
    rfl
  · rename_i hnone
    rw [readReference?_reference h] at hnone
    cases hnone

theorem textFrom_plain (hc : Text.reference? c = none) (literal : Bool) (done s : List Char) :
    textFrom literal done (c :: s) =
      textFrom false (if literal then c :: done else pushText s.isEmpty c done) s := by
  have hne : ¬ ((c == '&') = true) := by
    rw [beq_iff_eq]
    rintro rfl
    cases hc
  rw [textFrom, if_neg hne]
  cases literal <;> rfl

theorem pushText_ne_nil (last : Bool) (c : Char) (done : List Char) :
    pushText last c done ≠ [] := by
  unfold pushText
  split
  · split
    · exact List.cons_ne_nil _ _
    · split <;> exact List.cons_ne_nil _ _
  · split <;> exact List.cons_ne_nil _ _

/-- An escaped text is always read, and nothing is only read of nothing. -/
theorem exists_textFrom_escapeChars (literal : Bool) (done s : List Char) :
    ∃ t, textFrom literal done (Text.escapeChars s) = some t ∧ (t = [] → done = [] ∧ s = []) := by
  induction s generalizing literal done with
  | nil =>
      refine ⟨done.reverse, by rw [Text.escapeChars, textFrom], ?_⟩
      exact fun h => ⟨List.reverse_eq_nil_iff.1 h, rfl⟩
  | cons c s ih =>
      rw [Text.escapeChars]
      cases hc : Text.reference? c with
      | some r =>
          rcases ih true (c :: done) with ⟨t, ht, hne⟩
          rw [Option.getD_some, textFrom_reference hc]
          exact ⟨t, ht, fun h => absurd (hne h).1 (List.cons_ne_nil _ _)⟩
      | none =>
          let pushed := if literal then c :: done else pushText (Text.escapeChars s).isEmpty c done
          have hpushed : pushed ≠ [] := by
            unfold pushed
            split
            · exact List.cons_ne_nil _ _
            · exact pushText_ne_nil _ _ _
          rcases ih false pushed with ⟨t, ht, hne⟩
          rw [Option.getD_none, List.singleton_append, textFrom_plain hc]
          exact ⟨t, ht, fun h => absurd (hne h).1 hpushed⟩

/-- Without carriage returns a text is read as it is. -/
theorem pushText_of_ne (hc : c ≠ '\r') (hdone : '\r' ∉ done) (last : Bool) :
    pushText last c done = c :: done := by
  unfold pushText
  split
  · exact absurd (List.mem_cons_self ..) hdone
  · rw [if_neg (by simp [hc])]

theorem textFrom_escapeChars_of_not_mem (literal : Bool) (hdone : '\r' ∉ done) (hs : '\r' ∉ s) :
    textFrom literal done (Text.escapeChars s) = some (done.reverse ++ s) := by
  induction s generalizing literal done with
  | nil => rw [Text.escapeChars, textFrom, List.append_nil]
  | cons c s ih =>
      have hc := List.ne_of_not_mem_cons hs
      have hs' := List.not_mem_of_not_mem_cons hs
      have hdone' := List.not_mem_cons_of_ne_of_not_mem hc hdone
      rw [Text.escapeChars, List.append_cons, ← List.reverse_cons]
      cases hr : Text.reference? c with
      | some r =>
          rw [Option.getD_some, textFrom_reference hr]
          exact ih true hdone' hs'
      | none =>
          rw [Option.getD_none, List.singleton_append, textFrom_plain hr,
            pushText_of_ne (Ne.symm hc) hdone, ite_self]
          exact ih false hdone' hs'

/-- An escaped text does not end a marked section. -/
theorem holdsSectionEnd_escapeChars (s : List Char) :
    holdsSectionEnd (Text.escapeChars s) = false := by
  rw [holdsSectionEnd, Option.isSome_eq_false_iff, Option.isNone_iff_eq_none]
  cases h : Text.breakOn? [']', ']', '>'] (Text.escapeChars s) with
  | none => rfl
  | some parts =>
      have hsplit := (Text.eq_append_of_breakOn? (List.cons_ne_nil _ _) h).1
      have hmem : '>' ∈ Text.escapeChars s := by simp [hsplit]
      exact absurd rfl (Text.ne_of_mem_escapeChars (Or.inr (Or.inr rfl)) hmem)

/-- The text that is read where a text was written. -/
def rereadText (s : String) : String :=
  String.ofList ((textFrom false [] (Text.escapeChars s.toList)).getD [])

theorem textOf?_escape {s : String} (hs : ∀ c ∈ s.toList, isXmlChar c = true) :
    textOf? (Text.escapeChars s.toList) = some (rereadText s).toList := by
  have hall : (Text.escapeChars s.toList).all isXmlChar = true :=
    List.all_eq_true.2 (forall_mem_escapeChars hs)
  rcases exists_textFrom_escapeChars false [] s.toList with ⟨t, ht, _⟩
  rw [textOf?, hall, holdsSectionEnd_escapeChars, rereadText, ht, Option.getD_some,
    String.toList_ofList]
  rfl

/-- A text is read as it was written unless it holds carriage returns. -/
theorem rereadText_of_not_mem {s : String} (hreturn : '\r' ∉ s.toList) : rereadText s = s := by
  have hread := textFrom_escapeChars_of_not_mem false List.not_mem_nil hreturn
  rw [rereadText, hread]
  simp

theorem rereadText_eq_empty_iff {s : String} : rereadText s = "" ↔ s = "" := by
  rcases exists_textFrom_escapeChars false [] s.toList with ⟨t, ht, hne⟩
  have hread : (rereadText s).toList = t := by
    rw [rereadText, ht, Option.getD_some, String.toList_ofList]
  rw [← String.toList_eq_nil_iff, hread, ← String.toList_eq_nil_iff]
  constructor
  · exact fun h => (hne h).2
  · intro h
    rw [h, Text.escapeChars, textFrom] at ht
    cases ht
    rfl

/-! ## Values -/

/-- A value as it is read where it was written: tabs and line ends become blanks. -/
def foldBlanks : List Char → List Char
  | [] => []
  | c :: rest =>
    if c == '\r' && rest.head? == some '\n' then foldBlanks rest
    else valueChar c :: foldBlanks rest

/-- A value that holds no blank when it is read is read as it was written. -/
theorem foldBlanks_of_not_mem (h : ' ' ∉ foldBlanks s) : foldBlanks s = s := by
  induction s with
  | nil => rfl
  | cons c s ih =>
      rw [foldBlanks] at h ⊢
      split at h
      · -- The line feed behind a carriage return becomes a blank.
        rename_i hline
        simp only [Bool.and_eq_true, beq_iff_eq] at hline
        rcases List.head?_eq_some_iff.1 hline.2 with ⟨t, rfl⟩
        exact absurd (List.mem_cons_self ..) h
      · rename_i hline
        have hc := List.ne_of_not_mem_cons h
        have htail := ih (List.not_mem_of_not_mem_cons h)
        have hvalue : valueChar c = c := by
          unfold valueChar at hc ⊢
          split at hc
          · exact absurd rfl hc
          · rename_i hblank
            rw [if_neg hblank]
        rw [if_neg hline, hvalue, htail]

theorem foldBlanks_of_forall (h : ∀ c ∈ s, c ≠ '\t' ∧ c ≠ '\n' ∧ c ≠ '\r') :
    foldBlanks s = s := by
  induction s with
  | nil => rfl
  | cons c s ih =>
      rcases List.forall_mem_cons.1 h with ⟨⟨htab, hline, hreturn⟩, hs⟩
      have hvalue : valueChar c = c := if_neg (by simp [htab, hline, hreturn])
      rw [foldBlanks, if_neg (by simp [hreturn]), hvalue, ih hs]

/-- The value that is read where a value was written. -/
def rereadValue (v : String) : String :=
  String.ofList (foldBlanks v.toList)

theorem valueFrom_reference (h : Text.reference? c = some r) (done s : List Char) :
    valueFrom done (r ++ s) = valueFrom (c :: done) s := by
  rcases Text.head_reference h with ⟨r, rfl⟩
  rw [List.cons_append, valueFrom, if_pos (beq_self_eq_true _)]
  split
  · rename_i d after hread
    rw [readReference?_reference h] at hread
    cases hread
    rfl
  · rename_i hnone
    rw [readReference?_reference h] at hnone
    cases hnone

/-- Where a line feed begins an escaped text, it begins the text. -/
theorem head?_escapeChars (s : List Char) :
    ((Text.escapeChars s).head? == some '\n') = (s.head? == some '\n') := by
  cases s with
  | nil => rfl
  | cons c s =>
      rw [Text.escapeChars]
      cases hc : Text.reference? c with
      | none => rfl
      | some r =>
          rcases Text.head_reference hc with ⟨r, rfl⟩
          have hne : c ≠ '\n' := by
            rintro rfl
            cases hc
          simp [hne]

theorem valueFrom_escapeChars (done s : List Char) :
    valueFrom done (Text.escapeChars s) = some (done.reverse ++ foldBlanks s) := by
  induction s generalizing done with
  | nil => rw [Text.escapeChars, valueFrom, foldBlanks, List.append_nil]
  | cons c s ih =>
      -- A markup character is read of its reference, and no other character begins one.
      rw [Text.escapeChars, foldBlanks]
      cases hc : Text.reference? c with
      | some r =>
          have hplain : valueChar c = c ∧ c ≠ '\r' := by
            unfold Text.reference? at hc
            split at hc <;> cases hc <;> decide
          rw [Option.getD_some, valueFrom_reference hc, ih, if_neg (by simp [hplain.2]), hplain.1,
            List.reverse_cons, List.append_assoc, List.singleton_append]
      | none =>
          have hne : ¬ ((c == '&') = true) := by
            rw [beq_iff_eq]
            rintro rfl
            cases hc
          rw [Option.getD_none, List.singleton_append, valueFrom, if_neg hne, head?_escapeChars]
          split
          · exact ih done
          · rw [ih, List.reverse_cons, List.append_assoc, List.singleton_append]

theorem valueOf?_escape {v : String} (hv : ∀ c ∈ v.toList, isXmlChar c = true) :
    valueOf? (Text.escapeChars v.toList) = some (foldBlanks v.toList) := by
  have hall : (Text.escapeChars v.toList).all isXmlChar = true :=
    List.all_eq_true.2 (forall_mem_escapeChars hv)
  rw [valueOf?, hall, valueFrom_escapeChars]
  rfl

end Xml
end RenderForest
