import RenderForest.Markup.Vector
import RenderForest.Proofs.Markup.Stored
import RenderForest.Proofs.Text.Escaped
import RenderForest.Proofs.Text.Splitting
import RenderForest.Proofs.Xml.ReadTrees
/-!
# WrittenAttributes — cleaned attributes, read leniently

A valid attribute name may hold dots, and the lenient reader of tags ends a name at each of them.
This file defines:

* `Markup.isWordChar` and `Markup.isCut`, the characters that the reader takes into a name, and
  those at which it cuts one;
* `Markup.cutEntry`, the attributes that the reader finds in one that is written;
* `Markup.attrChars`, the text of written attributes;

and shows in `readAttributes_attrs` that the attributes of a written tag are read cut at their
dots.
-/

namespace RenderForest
namespace Markup

/-! ## Characters -/

/-- The characters that the reader takes into a name, the slash of an end aside. -/
def isWordChar (c : Char) : Bool :=
  isIdent c && c != '/'

/-- The characters at which the reader cuts a name in two. -/
def isCut (c : Char) : Bool :=
  !isIdent c && !isGap c && !isClosing c && c != '='

/-- A character at which a tag does not end and that is not passed over. -/
def IsInner (c : Char) : Prop :=
  isGap c = false ∧ isClosing c = false

theorem isIdent_of_isWordChar {c : Char} (h : isWordChar c = true) : isIdent c = true :=
  (Bool.and_eq_true_iff.1 h).1

theorem isInner_of_isWordChar {c : Char} (h : isWordChar c = true) : IsInner c := by
  have hspace : c ≠ ' ' := ne_of_apply_ne isWordChar (by rw [h]; decide)
  have hline : c ≠ '\n' := ne_of_apply_ne isWordChar (by rw [h]; decide)
  have hslash : c ≠ '/' := ne_of_apply_ne isWordChar (by rw [h]; decide)
  have hgreater : c ≠ '>' := ne_of_apply_ne isWordChar (by rw [h]; decide)
  exact ⟨by simp [isGap, hspace, hline], by simp [isClosing, hslash, hgreater]⟩

theorem isInner_of_isCut {c : Char} (h : isCut c = true) : IsInner c := by
  simp only [isCut, Bool.and_eq_true, Bool.not_eq_true'] at h
  exact ⟨h.1.1.2, h.1.2⟩

/-- Identifiers are made of characters of ASCII, which take one byte. -/
theorem utf8Size_of_isIdent {c : Char} (h : isIdent c = true) : c.utf8Size = 1 := by
  have hupper : c.isUpper = decide (c.val ≥ 'A'.val ∧ c.val ≤ 'Z'.val) := rfl
  have hlower : c.isLower = (decide (c.val ≥ 'a'.val) && decide (c.val ≤ 'z'.val)) := rfl
  have halpha : c.isAlpha = (c.isUpper || c.isLower) := rfl
  -- The ranges and the single characters of an identifier all end at or below 0x7f.
  have hval : c.val ≤ 0x7f := by
    simp only [isIdent, Char.isAlphanum, halpha, hupper, hlower, Char.isDigit, Bool.or_eq_true,
      Bool.and_eq_true, decide_eq_true_eq, beq_iff_eq, ge_iff_le] at h
    rcases h with (((((((⟨_, h⟩ | ⟨_, h⟩) | ⟨_, h⟩) | h) | h) | h) | h) | h)
    all_goals first
      | exact UInt32.le_trans h (by decide)
      | (rw [h]; decide)
  simp [Char.utf8Size, hval]

/-- The reader takes a character of a name of XML into a name or cuts the name there. -/
theorem isWordChar_or_isCut {c : Char} (h : Xml.isNameChar c = true) :
    isWordChar c = true ∨ isCut c = true := by
  have hspace : c ≠ ' ' := ne_of_apply_ne Xml.isNameChar (by rw [h]; decide)
  have hline : c ≠ '\n' := ne_of_apply_ne Xml.isNameChar (by rw [h]; decide)
  have hslash : c ≠ '/' := ne_of_apply_ne Xml.isNameChar (by rw [h]; decide)
  have hgreater : c ≠ '>' := ne_of_apply_ne Xml.isNameChar (by rw [h]; decide)
  have hequals : c ≠ '=' := ne_of_apply_ne Xml.isNameChar (by rw [h]; decide)
  cases hident : isIdent c with
  | true => exact Or.inl (by simp [isWordChar, hident, hslash])
  | false =>
      exact Or.inr (by simp [isCut, isGap, isClosing, hident, hspace, hline, hslash, hgreater,
        hequals])

theorem isWordChar_or_dot {c : Char} (h : Safety.isNameChar c = true) :
    isWordChar c = true ∨ c = '.' := by
  by_cases hdot : c = '.'
  · exact Or.inr hdot
  · left
    have hslash : c ≠ '/' := ne_of_apply_ne Safety.isNameChar (by rw [h]; decide)
    simp only [Safety.isNameChar, Bool.or_eq_true, beq_iff_eq] at h
    simp only [isWordChar, isIdent, Bool.and_eq_true, Bool.or_eq_true, beq_iff_eq, bne_iff_ne]
    tauto

/-- The characters of a valid attribute name; the reader cuts it at the dots. -/
theorem isWordChar_of_valid {name : String} (h : Safety.isValidAttributeName name = true) :
    name.toList ≠ [] ∧ ∀ c ∈ name.toList, isWordChar c = true ∨ c = '.' := by
  unfold Safety.isValidAttributeName at h
  split at h
  · cases h
  · rename_i c rest hname
    rw [hname]
    simp only [Bool.and_eq_true] at h
    refine ⟨List.cons_ne_nil _ _, ?_⟩
    intro d hd
    rcases List.mem_cons.1 hd with rfl | hd
    · have hstart := h.1.1
      refine isWordChar_or_dot ?_
      simp only [Safety.isNameStart, Safety.isNameChar, Char.isAlphanum, Bool.or_eq_true,
        beq_iff_eq] at hstart ⊢
      tauto
    · exact isWordChar_or_dot (List.all_eq_true.1 h.1.2 d hd)

/-! ## One attribute -/

variable {u v e s : List Char}

theorem spanWhile_append {p : Char → Bool} {x : Char} (hu : ∀ c ∈ u, p c = true)
    (hx : p x = false) : spanWhile p (u ++ x :: v) = (u, x :: v) := by
  have htake : (x :: v).takeWhile p = [] := List.takeWhile_cons_of_neg (by simp [hx])
  have hdrop : (x :: v).dropWhile p = x :: v := List.dropWhile_cons_of_neg (by simp [hx])
  rw [spanWhile, List.takeWhile_append_of_pos hu, List.dropWhile_append_of_pos hu, htake, hdrop,
    List.append_nil]

theorem skipGap_cons {c : Char} (hc : isGap c = false) : skipGap (c :: s) = c :: s :=
  List.dropWhile_cons_of_neg (by simp [hc])

theorem readAttribute_value (hu : ∀ c ∈ u, isIdent c = true) (he : ∀ c ∈ e, c ≠ '\x22') :
    readAttribute (u ++ '=' :: '\x22' :: (e ++ '\x22' :: s)) =
      (String.ofList u, some (String.ofList e), '\x22' :: s) := by
  have hvalue : spanWhile (· != '\x22') (e ++ '\x22' :: s) = (e, '\x22' :: s) :=
    spanWhile_append (fun c hc => by simpa using he c hc) (by decide)
  simp only [readAttribute, spanWhile_append hu (by decide : isIdent '=' = false),
    skipGap_cons (by decide : isGap '=' = false)]
  simp only [readValue, skipGap_cons (by decide : isGap '\x22' = false), hvalue]

/-- An attribute without a value ends behind the gaps that follow its name. -/
theorem readAttribute_bare {x y : Char} {t : List Char} (hu : ∀ c ∈ u, isIdent c = true)
    (hy : isIdent y = false) (hskip : skipGap (y :: t) = x :: v) (hx : x ≠ '=') :
    readAttribute (u ++ y :: t) = (String.ofList u, none, x :: v) := by
  simp only [readAttribute, spanWhile_append hu hy, hskip]
  split
  · rename_i heq
    exact absurd (List.cons.inj heq).1 hx
  · rfl

/-- The attributes behind the one that is read next. -/
theorem readAttributes_step {name : String} {value : Option String} {d : Char} {tail : List Char}
    (hhead : ∀ c, s.head? = some c → IsInner c)
    (hread : readAttribute s = (name, value, d :: tail)) (raw : RawAttributes) :
    readAttributes raw s =
      if isClosing d then some (raw.store name value, d :: tail)
      else readAttributes
        (if 1 < d.utf8Size then (raw.store name value).store "" none
          else raw.store name value) tail := by
  cases s with
  | nil => cases hread
  | cons c s =>
      rcases hhead c rfl with ⟨hgap, hclosing⟩
      have hskip := skipGap_cons (s := s) hgap
      rw [readAttributes]
      split
      · rename_i hnil
        rw [hskip] at hnil
        cases hnil
      · rename_i c' s' hcons
        rw [hskip] at hcons
        cases hcons
        rw [if_neg (by simp [hclosing])]
        split
        rename_i name' value' after hread'
        rw [hread] at hread'
        cases hread'
        rfl

theorem isInner_head {x c : Char} (hu : ∀ c ∈ u, isWordChar c = true) (hx : IsInner x)
    (hc : (u ++ x :: v).head? = some c) : IsInner c := by
  cases u with
  | nil =>
      cases hc
      exact hx
  | cons d u =>
      cases hc
      exact isInner_of_isWordChar (hu _ (List.mem_cons_self ..))

theorem readAttributes_value (hu : ∀ c ∈ u, isWordChar c = true) (he : ∀ c ∈ e, c ≠ '\x22')
    (raw : RawAttributes) :
    readAttributes raw (u ++ '=' :: '\x22' :: (e ++ '\x22' :: s)) =
      readAttributes (raw.store (String.ofList u) (some (String.ofList e))) s := by
  have hread := readAttribute_value (s := s) (fun c hc => isIdent_of_isWordChar (hu c hc)) he
  rw [readAttributes_step (fun c hc => isInner_head hu ⟨by decide, by decide⟩ hc) hread]
  rw [if_neg (by decide), if_neg (by decide)]

/-- The reader cuts a name in two; what stands before the cut has no value. -/
theorem readAttributes_cut {x : Char} (hu : ∀ c ∈ u, isWordChar c = true)
    (hx : isCut x = true) (raw : RawAttributes) :
    readAttributes raw (u ++ x :: v) =
      readAttributes
        (if 1 < x.utf8Size then (raw.store (String.ofList u) none).store "" none
          else raw.store (String.ofList u) none) v := by
  have hinner := isInner_of_isCut hx
  simp only [isCut, Bool.and_eq_true, Bool.not_eq_true', bne_iff_ne] at hx
  have hread := readAttribute_bare (fun c hc => isIdent_of_isWordChar (hu c hc)) hx.1.1.1
    (skipGap_cons (s := v) hinner.1) hx.2
  rw [readAttributes_step (fun c hc => isInner_head hu hinner hc) hread]
  rw [if_neg (by simp [hinner.2])]

/-! ## Written attributes -/

/-- The pieces of a name as names; the last takes the value, and the others go bare. -/
def cutWith {α : Type} (bare value : α) : List (List Char) → List (String × α)
  | [] => []
  | [piece] => [(String.ofList piece, value)]
  | piece :: next :: pieces =>
    (String.ofList piece, bare) :: cutWith bare value (next :: pieces)

/-- The attributes that the reader finds in a written one. -/
def cutEntry (a : String × String) : List (String × String) :=
  cutWith "" a.2 (Text.splitOn '.' a.1.toList)

/-- The same attributes as the reader stores them, the value still escaped. -/
def storedEntry (a : String × String) : List (String × Option String) :=
  cutWith none (some (Text.escape a.2)) (Text.splitOn '.' a.1.toList)

theorem map_decodeEntry_cutWith (bare value : Option String) (pieces : List (List Char)) :
    (cutWith bare value pieces).map decodeEntry =
      cutWith (Text.decode (bare.getD "")) (Text.decode (value.getD "")) pieces := by
  induction pieces with
  | nil => rfl
  | cons piece rest ih =>
      cases rest with
      | nil => rfl
      | cons next pieces => exact congrArg _ ih

theorem map_storedEntry (a : String × String) : (storedEntry a).map decodeEntry = cutEntry a := by
  have hbare : Text.decode "" = "" := by
    rw [Text.decode, String.toList_empty, Text.decodeChars]
  rw [storedEntry, map_decodeEntry_cutWith, Option.getD_none, Option.getD_some, hbare,
    Text.decode_escape, cutEntry]

/-- A name without dots is not cut. -/
theorem cutEntry_of_not_mem {name : String} (h : '.' ∉ name.toList) (value : String) :
    cutEntry (name, value) = [(name, value)] := by
  rw [cutEntry, Text.splitOn_of_not_mem h, cutWith, String.ofList_toList]

/-- The text of attributes as they are written. -/
def attrChars (l : List (String × String)) : List Char :=
  l.flatMap fun a => (Vector.writeAttr a.1 a.2).toList

theorem attrChars_cons (a : String × String) (l : List (String × String)) :
    attrChars (a :: l) =
      ' ' :: (a.1.toList ++
        '=' :: '\x22' :: ((Text.escape a.2).toList ++ '\x22' :: attrChars l)) := by
  simp [attrChars, Vector.writeAttr]

/-- A written name is read piece by piece; `u` is the part of the first piece that was seen. -/
theorem readAttributes_pieces {w : List Char} (hu : ∀ c ∈ u, isWordChar c = true)
    (hw : ∀ c ∈ w, isWordChar c = true ∨ c = '.') (he : ∀ c ∈ e, c ≠ '\x22')
    (raw : RawAttributes) :
    readAttributes raw (u ++ (w ++ '=' :: '\x22' :: (e ++ '\x22' :: s))) =
      readAttributes (raw.storeAll (cutWith none (some (String.ofList e))
        ((Text.splitOn '.' w).modifyHead (u ++ ·)))) s := by
  -- The induction is on what is left of the name; `u` grows until the next dot.
  induction w generalizing u raw with
  | nil =>
      rw [List.nil_append, readAttributes_value hu he, Text.splitOn, List.modifyHead_cons,
        List.append_nil]
      rfl
  | cons c w ih =>
      have hw' : ∀ d ∈ w, isWordChar d = true ∨ d = '.' :=
        fun d hd => hw d (List.mem_cons_of_mem _ hd)
      by_cases hdot : c = '.'
      · -- The dot ends the piece, which goes without a value.
        subst hdot
        have hnext := ih (u := []) (fun _ hd => by cases hd) hw'
          (raw.store (String.ofList u) none)
        rw [List.cons_append, readAttributes_cut hu (by decide), if_neg (by decide)]
        rw [List.nil_append] at hnext
        rw [hnext, Text.splitOn_sep, List.modifyHead_cons, List.append_nil]
        cases hsplit : Text.splitOn '.' w with
        | nil => exact absurd hsplit (Text.splitOn_ne_nil _ _)
        | cons piece pieces => rfl
      · -- Another character goes into the piece.
        have hc : isWordChar c = true := (hw c (List.mem_cons_self ..)).resolve_right hdot
        have hu' : ∀ d ∈ u ++ [c], isWordChar d = true := by
          intro d hd
          rcases List.mem_append.1 hd with hd | hd
          · exact hu d hd
          · rw [List.mem_singleton.1 hd]
            exact hc
        have hnext := ih hu' hw' raw
        rw [List.append_assoc, List.singleton_append] at hnext
        rw [List.cons_append, hnext, Text.splitOn_cons hdot, List.modifyHead_modifyHead]
        simp [Function.comp_def]

theorem readAttributes_name {w : List Char} (hw : ∀ c ∈ w, isWordChar c = true ∨ c = '.')
    (he : ∀ c ∈ e, c ≠ '\x22') (raw : RawAttributes) :
    readAttributes raw (w ++ '=' :: '\x22' :: (e ++ '\x22' :: s)) =
      readAttributes (raw.storeAll (cutWith none (some (String.ofList e))
        (Text.splitOn '.' w))) s := by
  have hempty : (Text.splitOn '.' w).modifyHead ([] ++ ·) = Text.splitOn '.' w := by
    cases Text.splitOn '.' w <;> rfl
  have hpieces := readAttributes_pieces (u := []) (s := s) (fun _ hc => by cases hc) hw he raw
  rw [hempty] at hpieces
  exact hpieces

theorem readAttributes_blank (raw : RawAttributes) (s : List Char) :
    readAttributes raw (' ' :: s) = readAttributes raw s := by
  have hskip : skipGap (' ' :: s) = skipGap s := rfl
  rw [readAttributes]
  conv => rhs; rw [readAttributes]
  rw [hskip]

theorem readAttributes_closing {d : Char} (hd : isClosing d = true) (raw : RawAttributes)
    (s : List Char) : readAttributes raw (d :: s) = some (raw, d :: s) := by
  have hgap : isGap d = false := by
    rcases Bool.or_eq_true_iff.1 hd with h | h <;> rw [eq_of_beq h] <;> decide
  have hskip := skipGap_cons (s := s) hgap
  rw [readAttributes]
  split
  · rename_i hnil
    rw [hskip] at hnil
    cases hnil
  · rename_i c rest hcons
    rw [hskip] at hcons
    cases hcons
    rw [if_pos hd]

/-- The attributes of a written tag are read cut at the dots of their names. -/
theorem readAttributes_attrs {l : List (String × String)}
    (hl : ∀ a ∈ l, Safety.isValidAttributeName a.1 = true) {d : Char} (hd : isClosing d = true)
    (raw : RawAttributes) (s : List Char) :
    readAttributes raw (attrChars l ++ d :: s) =
      some (raw.storeAll (l.flatMap storedEntry), d :: s) := by
  induction l generalizing raw with
  | nil => exact readAttributes_closing hd raw s
  | cons a l ih =>
      have hname := isWordChar_of_valid (hl a (List.mem_cons_self ..))
      have hquote : ∀ c ∈ (Text.escape a.2).toList, c ≠ '\x22' :=
        fun c hc => Text.ne_quote_of_mem_escape hc
      rw [attrChars_cons, List.cons_append, readAttributes_blank]
      simp only [List.append_assoc, List.cons_append]
      rw [readAttributes_name hname.2 hquote, ih fun b hb => hl b (List.mem_cons_of_mem _ hb)]
      rw [List.flatMap_cons, RawAttributes.storeAll_append, storedEntry, String.ofList_toList]

end Markup
end RenderForest
