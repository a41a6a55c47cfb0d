import RenderForest.Proofs.Markup.WrittenAttributes
/-!
# WrittenTags — cleaned start tags, read leniently

The name of a written element is a name of XML; the lenient reader takes only some of its
characters into a name.  This file defines:

* `Markup.IsEnd`, the end of a written start tag;

and shows what becomes of a start tag: in `readTag_plain`, that a name without cuts is kept, with
the attributes cut at their dots, and in `readTag_cut`, that one with a cut gets an attribute
without a name.  Either way reading goes on behind the tag.
-/

namespace RenderForest
namespace Markup

variable {e rest : List Char} {l : List (String × String)}

/-- The end of a start tag in front of a text, with or without content to follow. -/
def IsEnd (e rest : List Char) : Prop :=
  e = '>' :: rest ∨ e = '/' :: '>' :: rest

theorem IsEnd.exists_closing (he : IsEnd e rest) : ∃ d s, e = d :: s ∧ isClosing d = true := by
  rcases he with rfl | rfl
  · exact ⟨_, _, rfl, by decide⟩
  · exact ⟨_, _, rfl, by decide⟩

/-- The attributes of a tag are read up to its end. -/
theorem readAttributes_end (hl : ∀ a ∈ l, Safety.isValidAttributeName a.1 = true)
    (he : IsEnd e rest) (raw : RawAttributes) :
    readAttributes raw (attrChars l ++ e) = some (raw.storeAll (l.flatMap storedEntry), e) := by
  rcases he.exists_closing with ⟨d, s, rfl, hd⟩
  exact readAttributes_attrs hl hd raw s

/-! ## Names with cuts -/

/-- The first character of an attribute name is one that the reader may swallow. -/
theorem inner_of_nameChar {x : Char} (hx : isWordChar x = true ∨ x = '.') :
    IsInner x ∧ x ≠ '=' ∧ x.utf8Size = 1 := by
  rcases hx with hx | rfl
  · have hequals : x ≠ '=' := ne_of_apply_ne isWordChar (by rw [hx]; decide)
    exact ⟨isInner_of_isWordChar hx, hequals, utf8Size_of_isIdent (isIdent_of_isWordChar hx)⟩
  · exact ⟨⟨by decide, by decide⟩, by decide, by decide⟩

theorem isInner_head_word {u s : List Char} (hu : ∀ c ∈ u, isWordChar c = true) (hne : u ≠ [])
    {c : Char} (hc : (u ++ s).head? = some c) : IsInner c := by
  cases u with
  | nil => exact absurd rfl hne
  | cons d u =>
      cases hc
      exact isInner_of_isWordChar (hu _ (List.mem_cons_self ..))

/-- A last piece in front of the end of the tag is read as an attribute without a value. -/
theorem exists_readAttributes_last {u : List Char} (hu : ∀ c ∈ u, isWordChar c = true)
    (hne : u ≠ []) (he : IsEnd e rest) (raw : RawAttributes) :
    ∃ stored e', IsEnd e' rest ∧
      readAttributes raw (u ++ e) = some (raw.storeAll stored, e') := by
  have hident : ∀ c ∈ u, isIdent c = true := fun c hc => isIdent_of_isWordChar (hu c hc)
  rcases he with rfl | rfl
  · refine ⟨[(String.ofList u, none)], '>' :: rest, Or.inl rfl, ?_⟩
    have hread := readAttribute_bare hident (by decide : isIdent '>' = false)
      (skipGap_cons (s := rest) (by decide)) (by decide)
    exact (readAttributes_step (fun c => isInner_head_word hu hne) hread raw).trans
      (if_pos (by decide))
  · -- The slash of the end is taken for a part of the name.
    refine ⟨[(String.ofList (u ++ ['/']), none)], '>' :: rest, Or.inl rfl, ?_⟩
    have hslash : ∀ c ∈ u ++ ['/'], isIdent c = true := by
      intro c hc
      rcases List.mem_append.1 hc with hc | hc
      · exact hident c hc
      · rw [List.mem_singleton.1 hc]
        decide
    have hread := readAttribute_bare hslash (by decide : isIdent '>' = false)
      (skipGap_cons (s := rest) (by decide)) (by decide)
    rw [List.append_assoc, List.singleton_append] at hread
    exact (readAttributes_step (fun c => isInner_head_word hu hne) hread raw).trans
      (if_pos (by decide))

/-- A last piece in front of a written attribute is read as one without a value, too, and the
first character of the next name is swallowed. -/
theorem exists_readAttributes_swallow {u : List Char} (hu : ∀ c ∈ u, isWordChar c = true)
    (hne : u ≠ []) {a : String × String} (ha : Safety.isValidAttributeName a.1 = true)
    (hl : ∀ a ∈ l, Safety.isValidAttributeName a.1 = true) (he : IsEnd e rest)
    (raw : RawAttributes) :
    ∃ stored, readAttributes raw (u ++ (attrChars (a :: l) ++ e)) =
      some (raw.storeAll stored, e) := by
  rcases isWordChar_of_valid ha with ⟨hname, hchars⟩
  rcases List.exists_cons_of_ne_nil hname with ⟨x, w, hxw⟩
  rw [hxw] at hchars
  have hx := inner_of_nameChar (hchars x (List.mem_cons_self ..))
  have hquote : ∀ c ∈ (Text.escape a.2).toList, c ≠ '\x22' :=
    fun c hc => Text.ne_quote_of_mem_escape hc
  let tail := w ++ '=' :: '\x22' :: ((Text.escape a.2).toList ++ '\x22' :: (attrChars l ++ e))
  have hskip : skipGap (' ' :: x :: tail) = x :: tail := skipGap_cons hx.1.1
  have hread := readAttribute_bare (fun c hc => isIdent_of_isWordChar (hu c hc))
    (by decide : isIdent ' ' = false) hskip hx.2.1
  have hstep := readAttributes_step (fun c => isInner_head_word hu hne) hread raw
  rw [if_neg (by simp [hx.1.2]), if_neg (by simp [hx.2.2])] at hstep
  -- What is left of the next attribute is read like a whole one.
  rw [readAttributes_name (fun c hc => hchars c (List.mem_cons_of_mem _ hc)) hquote,
    readAttributes_end hl he] at hstep
  refine ⟨(String.ofList u, none) ::
    (cutWith none (some (String.ofList (Text.escape a.2).toList)) (Text.splitOn '.' w) ++
      l.flatMap storedEntry), ?_⟩
  rw [attrChars_cons, hxw]
  simpa [RawAttributes.storeAll_cons, RawAttributes.storeAll_append] using hstep

/-- Reading stays in step with the tag behind the last piece of a name. -/
theorem exists_readAttributes_word {u : List Char} (hu : ∀ c ∈ u, isWordChar c = true)
    (hl : ∀ a ∈ l, Safety.isValidAttributeName a.1 = true) (he : IsEnd e rest)
    (raw : RawAttributes) :
    ∃ stored e', IsEnd e' rest ∧
      readAttributes raw (u ++ (attrChars l ++ e)) = some (raw.storeAll stored, e') := by
  by_cases hne : u = []
  · subst hne
    exact ⟨_, e, he, readAttributes_end hl he raw⟩
  · cases l with
    | nil => exact exists_readAttributes_last hu hne he raw
    | cons a l =>
        rcases exists_readAttributes_swallow hu hne (hl a (List.mem_cons_self ..))
          (fun b hb => hl b (List.mem_cons_of_mem _ hb)) he raw with ⟨stored, hread⟩
        exact ⟨stored, e, he, hread⟩

/-- The rest of a name of XML, up to the end of the tag: more attributes are stored, and reading
stays in step with the tag.  The induction is on the length, since each cut leaves less. -/
theorem exists_readAttributes_name (hl : ∀ a ∈ l, Safety.isValidAttributeName a.1 = true)
    (he : IsEnd e rest) (w : List Char) (hw : ∀ c ∈ w, Xml.isNameChar c = true)
    (raw : RawAttributes) :
    ∃ stored e', IsEnd e' rest ∧
      readAttributes raw (w ++ (attrChars l ++ e)) = some (raw.storeAll stored, e') := by
  induction hn : w.length using Nat.strongRecOn generalizing w raw with
  | ind n ih =>
      have hu : ∀ c ∈ w.takeWhile isWordChar, isWordChar c = true :=
        List.all_eq_true.1 List.all_takeWhile
      have hsplit := List.takeWhile_append_dropWhile (p := isWordChar) (l := w)
      cases hv : w.dropWhile isWordChar with
      | nil =>
          -- No further cut: the last piece is followed by the attributes.
          rw [hv, List.append_nil] at hsplit
          rw [← hsplit]
          exact exists_readAttributes_word hu hl he raw
      | cons x v =>
          rw [hv] at hsplit
          have hword : isWordChar x = false := by
            have hhead := List.head?_dropWhile_not isWordChar w
            rw [hv] at hhead
            simpa using hhead
          have hmem : ∀ c ∈ x :: v, c ∈ w := by
            intro c hc
            rw [← hsplit]
            exact List.mem_append_right _ hc
          have hcut : isCut x = true :=
            (isWordChar_or_isCut (hw x (hmem x (List.mem_cons_self ..)))).resolve_left
              (by simp [hword])
          have hlength : v.length < n := by
            rw [← hn, ← hsplit, List.length_append, List.length_cons]
            omega
          -- A character of several bytes leaves an attribute without a name behind.
          have hread := readAttributes_cut (v := v ++ (attrChars l ++ e)) hu hcut raw
          rw [← hsplit, List.append_assoc, List.cons_append, hread]
          split
          · rcases ih _ hlength v (fun c hc => hw c (hmem c (List.mem_cons_of_mem _ hc)))
              ((raw.store (String.ofList (w.takeWhile isWordChar)) none).store "" none) rfl with
              ⟨stored, e', he', heq⟩
            exact ⟨(String.ofList (w.takeWhile isWordChar), none) :: ("", none) :: stored, e', he',
              heq⟩
          · rcases ih _ hlength v (fun c hc => hw c (hmem c (List.mem_cons_of_mem _ hc)))
              (raw.store (String.ofList (w.takeWhile isWordChar)) none) rfl with
              ⟨stored, e', he', heq⟩
            exact ⟨(String.ofList (w.takeWhile isWordChar), none) :: stored, e', he', heq⟩

/-! ## Tags -/

theorem readStart_of_end {raw : RawAttributes} {s : List Char}
    (hread : readAttributes {} s = some (raw, e)) (he : IsEnd e rest) (name : List Char) :
    ∃ closed, readStart name s = (.start (String.ofList name) raw closed, rest) := by
  rcases he with rfl | rfl
  · refine ⟨voidElements.contains (String.ofList name), ?_⟩
    rw [readStart, hread]
    rfl
  · refine ⟨true, ?_⟩
    rw [readStart, hread]
    rfl

/-- A tag that begins with a name of XML is a start tag. -/
theorem readTag_name {name : String} (hname : Xml.IsName name) (s : List Char) :
    readTag (name.toList ++ s) =
      readStart ((name.toList ++ s).takeWhile isIdent) ((name.toList ++ s).dropWhile isIdent) := by
  -- A name begins neither with a gap nor with the mark of an end tag or a declaration.
  rcases List.exists_cons_of_ne_nil hname.1 with ⟨c, w, hcw⟩
  have hc : Xml.isNameChar c = true := hname.2 c (hcw ▸ List.mem_cons_self ..)
  have hinner : IsInner c := (isWordChar_or_isCut hc).elim isInner_of_isWordChar isInner_of_isCut
  have hskip := skipGap_cons (s := w ++ s) hinner.1
  rw [hcw, List.cons_append]
  unfold readTag
  split
  · rename_i hnil
    rw [hskip] at hnil
    cases hnil
  · rename_i after heq
    rw [hskip] at heq
    exact absurd (List.cons.inj heq).1 (ne_of_apply_ne Xml.isNameChar (by rw [hc]; decide))
  · rename_i after heq
    rw [hskip] at heq
    exact absurd (List.cons.inj heq).1 (ne_of_apply_ne Xml.isNameChar (by rw [hc]; decide))
  · rw [hskip]

/-- The start tag of an element whose name has no cuts is read with that name, to which the slash
of an end without attributes is added, and with its attributes cut at their dots. -/
theorem readTag_plain {name : String} (hname : Xml.IsName name)
    (hplain : ∀ c ∈ name.toList, isIdent c = true)
    (hl : ∀ a ∈ l, Safety.isValidAttributeName a.1 = true) (he : IsEnd e rest) :
    ∃ n closed, (n = name ∨ n = name ++ "/") ∧
      readTag (name.toList ++ (attrChars l ++ e)) =
        (.start n (({} : RawAttributes).storeAll (l.flatMap storedEntry)) closed, rest) := by
  rw [readTag_name hname, List.takeWhile_append_of_pos hplain,
    List.dropWhile_append_of_pos hplain]
  -- The blank in front of an attribute ends the name; without attributes the end of the tag does.
  cases l with
  | cons a l =>
      have hread := readAttributes_end hl he {}
      have hstop : (attrChars (a :: l) ++ e).takeWhile isIdent = [] := by
        rw [attrChars_cons]
        rfl
      have hstop' : (attrChars (a :: l) ++ e).dropWhile isIdent = attrChars (a :: l) ++ e := by
        rw [attrChars_cons]
        rfl
      rcases readStart_of_end hread he name.toList with ⟨closed, hstart⟩
      refine ⟨name, closed, Or.inl rfl, ?_⟩
      rw [hstop, hstop', List.append_nil, hstart, String.ofList_toList]
  | nil =>
      have hread : readAttributes {} ('>' :: rest) =
          some (({} : RawAttributes).storeAll [], '>' :: rest) :=
        readAttributes_closing (by decide) {} rest
      have hstop : ('>' :: rest).takeWhile isIdent = [] := rfl
      have hstop' : ('>' :: rest).dropWhile isIdent = '>' :: rest := rfl
      rcases he with rfl | rfl
      · rcases readStart_of_end hread (Or.inl rfl) name.toList with ⟨closed, hstart⟩
        refine ⟨name, closed, Or.inl rfl, ?_⟩
        rw [String.ofList_toList] at hstart
        simpa [attrChars, hstop, hstop'] using hstart
      · -- The slash of the end is taken for a part of the name.
        rcases readStart_of_end hread (Or.inl rfl) (name ++ "/").toList with ⟨closed, hstart⟩
        refine ⟨name ++ "/", closed, Or.inr rfl, ?_⟩
        have hslash : isIdent '/' = true := by decide
        rw [String.ofList_toList] at hstart
        simpa [attrChars, hslash, hstop, hstop'] using hstart

/-- Behind a name the reader cuts, it finds an attribute without a name. -/
theorem exists_isNameless {x : Char} {v : List Char} (hx : isCut x = true)
    (hv : ∀ c ∈ v, Xml.isNameChar c = true)
    (hl : ∀ a ∈ l, Safety.isValidAttributeName a.1 = true) (he : IsEnd e rest) :
    ∃ raw e', raw.IsNameless ∧ IsEnd e' rest ∧
      readAttributes {} (x :: (v ++ (attrChars l ++ e))) = some (raw, e') := by
  have hread := readAttributes_cut (u := []) (v := v ++ (attrChars l ++ e))
    (fun _ hc => by cases hc) hx {}
  rw [List.nil_append] at hread
  rw [hread]
  split
  · rcases exists_readAttributes_name hl he v hv _ with ⟨stored, e', he', heq⟩
    exact ⟨_, e', (RawAttributes.isNameless_store _ _).storeAll stored, he', heq⟩
  · rcases exists_readAttributes_name hl he v hv _ with ⟨stored, e', he', heq⟩
    exact ⟨_, e', (RawAttributes.isNameless_store _ _).storeAll stored, he', heq⟩

/-- The start tag of an element whose name has a cut is read with an attribute without a name. -/
theorem readTag_cut {name : String} (hname : Xml.IsName name)
    (hcut : ¬ ∀ c ∈ name.toList, isIdent c = true)
    (hl : ∀ a ∈ l, Safety.isValidAttributeName a.1 = true) (he : IsEnd e rest) :
    ∃ n raw closed, raw.IsNameless ∧
      readTag (name.toList ++ (attrChars l ++ e)) = (.start n raw closed, rest) := by
  have hu : ∀ c ∈ name.toList.takeWhile isIdent, isIdent c = true :=
    List.all_eq_true.1 List.all_takeWhile
  have hsplit := List.takeWhile_append_dropWhile (p := isIdent) (l := name.toList)
  cases hv : name.toList.dropWhile isIdent with
  | nil =>
      rw [hv, List.append_nil] at hsplit
      exact absurd (hsplit ▸ hu) hcut
  | cons x v =>
      rw [hv] at hsplit
      have hident : isIdent x = false := by
        have hhead := List.head?_dropWhile_not isIdent name.toList
        rw [hv] at hhead
        simpa using hhead
      have hchars : ∀ c ∈ x :: v, Xml.isNameChar c = true := by
        intro c hc
        refine hname.2 c ?_
        rw [← hsplit]
        exact List.mem_append_right _ hc
      have hx : isCut x = true := by
        refine (isWordChar_or_isCut (hchars x (List.mem_cons_self ..))).resolve_left ?_
        simp [isWordChar, hident]
      -- The name of the tag ends at the cut, and what is left of it is read as attributes.
      have hspan := spanWhile_append (v := v ++ (attrChars l ++ e)) hu hident
      rw [← List.cons_append, ← List.append_assoc, hsplit] at hspan
      rcases Prod.mk.inj hspan with ⟨htake, hdrop⟩
      rcases exists_isNameless hx (fun c hc => hchars c (List.mem_cons_of_mem _ hc)) hl he with
        ⟨raw, e', hnameless, he', hread⟩
      rcases readStart_of_end hread he' (name.toList.takeWhile isIdent) with ⟨closed, hstart⟩
      refine ⟨String.ofList (name.toList.takeWhile isIdent), raw, closed, hnameless, ?_⟩
      rw [readTag_name hname, htake, hdrop]
      exact hstart

end Markup
end RenderForest
