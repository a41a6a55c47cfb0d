import RenderForest.Proofs.Markup.RereadOutlines
import RenderForest.Proofs.Text.Blanks
/-!
# Recleaned — fragments that are cleaned twice

A cleaned fragment may begin and end with blanks, which the next cleaning drops before it reads the
fragment.  This file defines:

* `Vector.StaysClean`, that a text is well formed and cleaning it changes none of its elements,
  attributes and texts;
* `Vector.SurvivesCleaning`, the same up to the blanks, line ends and declarations that are not
  kept;

and shows in `survivesCleaning_sanitize` that a cleaned fragment survives exactly when no element of
it has two attributes whose written names are the same.
-/

namespace RenderForest
namespace Vector

open Xml

variable {ts : List Tree}

/-! ## Blanks at the ends -/

/-- Trees that are written, and read again. -/
structure AreReadable (ts : List Tree) : Prop where
  sound : AreSound ts
  distinct : AreDistinct ts

/-- What trimming does to a text at the end at which it trims. -/
structure IsTrimming (trim : List Char → List Char) : Prop where
  nil : trim [] = []
  escape : ∀ s, trim (Text.escapeChars s) = Text.escapeChars (trim s)
  mem : ∀ s, ∀ c ∈ trim s, c ∈ s
  tag : ∀ u, trim ('<' :: (u ++ ['>'])) = '<' :: (u ++ ['>'])

theorem isTrimming_trimStart : IsTrimming Text.trimStart where
  nil := rfl
  escape := Text.trimStart_escapeChars
  mem := fun _ _ hc => Text.mem_of_mem_trimStart hc
  tag := fun _ => Text.trimStart_cons (by decide) _

theorem isTrimming_trimEnd : IsTrimming Text.trimEnd where
  nil := rfl
  escape := Text.trimEnd_escapeChars
  mem := fun _ _ hc => Text.mem_of_mem_trimEnd hc
  tag := fun u => Text.trimEnd_concat (by decide) ('<' :: u)

/-- A trimmed tree is written of a tree. -/
theorem IsTrimming.exists_writeTree {trim : List Char → List Char} (htrim : IsTrimming trim)
    (top : Bool) {t : Tree} (hsound : t.IsSound) (hdistinct : t.IsDistinct) :
    ∃ t' : Tree, t'.IsSound ∧ t'.IsDistinct ∧
      (writeTree top t').toList = trim (writeTree top t).toList := by
  have hremark : (writeTree top .remark).toList = [] := by
    rw [writeTree]
    rfl
  cases t with
  | text s =>
      refine ⟨.text (String.ofList (trim s.toList)), ?_, trivial, ?_⟩
      · rw [Tree.IsSound, String.toList_ofList]
        exact fun c hc => hsound c (htrim.mem _ c hc)
      · rw [writeTree, writeTree, Text.escape, Text.escape, String.toList_ofList,
          String.toList_ofList, String.toList_ofList, htrim.escape]
  | remark =>
      refine ⟨.remark, trivial, trivial, ?_⟩
      rw [hremark, htrim.nil]
  | element space name attrs children =>
      cases hname : Safety.isDangerousElement name with
      | true =>
          refine ⟨.remark, trivial, trivial, ?_⟩
          rw [hremark, writeTree, if_pos hname, String.toList_empty, htrim.nil]
      | false =>
          -- The text of an element begins and ends with the signs of a tag.
          have htag : ∃ u, (writeTree top (.element space name attrs children)).toList =
              '<' :: (u ++ ['>']) := by
            rw [toList_writeTree hname]
            split
            · exact ⟨name.toList ++ (Markup.attrChars (writtenAttrs top space attrs children) ++
                ['/']), by simp⟩
            · exact ⟨name.toList ++ (Markup.attrChars (writtenAttrs top space attrs children) ++
                '>' :: ((writeTrees false children).toList ++ '<' :: '/' :: name.toList)),
                by simp⟩
          rcases htag with ⟨u, hu⟩
          refine ⟨.element space name attrs children, hsound, hdistinct, ?_⟩
          rw [hu, htrim.tag]

theorem exists_writeTrees_trimStart (top : Bool) (h : AreReadable ts) :
    ∃ ts', AreReadable ts' ∧
      (writeTrees top ts').toList = Text.trimStart (writeTrees top ts).toList := by
  induction ts with
  | nil => exact ⟨[], h, by rw [writeTrees]; rfl⟩
  | cons t ts ih =>
      rcases ih ⟨h.sound.2, h.distinct.2⟩ with ⟨ts', hts', hwritten⟩
      rcases isTrimming_trimStart.exists_writeTree top h.sound.1 h.distinct.1 with
        ⟨t', hsound, hdistinct, htree⟩
      rw [writeTrees, String.toList_append, Text.trimStart_append]
      split
      · exact ⟨ts', hts', hwritten⟩
      · refine ⟨t' :: ts, ⟨⟨hsound, h.sound.2⟩, ⟨hdistinct, h.distinct.2⟩⟩, ?_⟩
        rw [writeTrees, String.toList_append, htree]

theorem exists_writeTrees_trimEnd (top : Bool) (h : AreReadable ts) :
    ∃ ts', AreReadable ts' ∧
      (writeTrees top ts').toList = Text.trimEnd (writeTrees top ts).toList := by
  induction ts with
  | nil => exact ⟨[], h, by rw [writeTrees]; rfl⟩
  | cons t ts ih =>
      rcases ih ⟨h.sound.2, h.distinct.2⟩ with ⟨ts', hts', hwritten⟩
      rcases isTrimming_trimEnd.exists_writeTree top h.sound.1 h.distinct.1 with
        ⟨t', hsound, hdistinct, htree⟩
      rw [writeTrees, String.toList_append, Text.trimEnd_append]
      split
      · refine ⟨[t'], ⟨⟨hsound, trivial⟩, ⟨hdistinct, trivial⟩⟩, ?_⟩
        rw [writeTrees, writeTrees, String.append_empty, htree]
      · refine ⟨t :: ts', ⟨⟨h.sound.1, hts'.sound⟩, ⟨h.distinct.1, hts'.distinct⟩⟩, ?_⟩
        rw [writeTrees, String.toList_append, hwritten]

/-! ## Declarations -/

/-- No instruction begins what is written. -/
theorem writeTrees_ne_instruction (top : Bool) (hsound : AreSound ts) (u : List Char) :
    (writeTrees top ts).toList ≠ '<' :: '?' :: u := by
  induction ts with
  | nil =>
      rw [writeTrees]
      exact (List.cons_ne_nil _ _).symm
  | cons t ts ih =>
      rw [writeTrees, String.toList_append]
      cases t with
      | text s =>
          intro heq
          rw [writeTree] at heq
          cases hs : (Text.escape s).toList with
          | nil =>
              rw [hs] at heq
              exact ih hsound.2 heq
          | cons c v =>
              -- The text would begin with a less-than sign.
              have hc : c ≠ '<' := Text.ne_lt_of_mem_escape (hs ▸ List.mem_cons_self ..)
              rw [hs] at heq
              exact hc (List.cons.inj heq).1
      | remark =>
          rw [writeTree]
          exact ih hsound.2
      | element space name attrs children =>
          cases hname : Safety.isDangerousElement name with
          | true =>
              rw [writeTree, if_pos hname]
              exact ih hsound.2
          | false =>
              intro heq
              rcases hsound.1.2.1.isQName.exists_cons with ⟨c, v, hcons, hc⟩
              rw [toList_writeTree hname, hcons] at heq
              obtain rfl : c = '?' := (List.cons.inj (List.cons.inj heq).2).1
              revert hc
              decide

theorem dropDeclaration_writeTrees (top : Bool) (hsound : AreSound ts) :
    dropDeclaration (writeTrees top ts).toList = (writeTrees top ts).toList := by
  have hnone : Text.stripStart? "<?xml".toList (writeTrees top ts).toList = none := by
    cases hstrip : Text.stripStart? "<?xml".toList (writeTrees top ts).toList with
    | none => rfl
    | some rest =>
        have hsplit := Text.eq_append_of_stripStart? hstrip
        exact absurd hsplit (writeTrees_ne_instruction top hsound _)
  rw [dropDeclaration, hnone]

/-- Blanks aside, a cleaned fragment is what is written of readable trees. -/
theorem exists_fragmentOf_sanitize {raw : String} (h : AreDistinct (treesOf raw)) :
    ∃ ts, AreReadable ts ∧ fragmentOf (sanitize raw) = (writeTrees true ts).toList ∧
      Text.trim (sanitize raw).toList = (writeTrees true ts).toList := by
  rcases exists_writeTrees_trimStart true ⟨areSound_treesOf raw, h⟩ with ⟨us, hus, hstart⟩
  rcases exists_writeTrees_trimEnd true hus with ⟨ts, hts, hend⟩
  have htrim : Text.trim (sanitize raw).toList = (writeTrees true ts).toList := by
    rw [sanitize_eq, Text.trim, ← hstart, ← hend]
  refine ⟨ts, hts, ?_, htrim⟩
  rw [fragmentOf, htrim, dropDeclaration_writeTrees true hts.sound]

/-! ## Cleaning twice -/

/-- A text is a well-formed fragment, with and without the blanks at its ends, and cleaning keeps
all its elements, attributes and texts.  Only the blanks at the ends are dropped; line ends and tabs
are read as XML reads them, and declarations of the prefix of links are not compared.  Nothing is
left of blanks only. -/
structure SurvivesCleaning (s : String) : Prop where
  wrapped : (trees? s.toList).isSome = true
  trimmed : ∃ lead trail, s.toList = lead ++ (fragmentOf s ++ trail) ∧
    (∀ c ∈ lead, Text.isBlank c = true) ∧ ∀ c ∈ trail, Text.isBlank c = true
  accepted : (trees? (fragmentOf s)).isSome = true
  keeps : (Html.scanFragment (sanitize s).toList).unescaped.unlinked =
    (Html.scanFragment (fragmentOf s)).unescaped.reread.unlinked
  keeps_plain : (Html.scanFragment (fragmentOf s)).unescaped.IsPlain →
    (Html.scanFragment (sanitize s).toList).unescaped.unlinked =
      (Html.scanFragment (fragmentOf s)).unescaped.unlinked
  empty_iff : sanitize s = "" ↔ ∀ c ∈ s.toList, Text.isBlank c = true

theorem sanitize_of_blanks {s : String} (h : ∀ c ∈ s.toList, Text.isBlank c = true) :
    sanitize s = "" := by
  have hstart : Text.trimStart s.toList = [] := List.dropWhile_eq_nil_iff.2 h
  unfold sanitize
  rw [Text.trim, hstart]
  rfl

theorem survivesCleaning_of_areDistinct (raw : String) (h : AreDistinct (treesOf raw)) :
    SurvivesCleaning (sanitize raw) := by
  rcases exists_fragmentOf_sanitize h with ⟨ts, hts, hfragment, htrim⟩
  have htrees : trees? (fragmentOf (sanitize raw)) = some (rereadFrom true none "" ts) := by
    rw [hfragment, trees?_writeTrees hts.sound, if_pos hts.distinct]
  have hagain : treesOf (sanitize raw) = rereadFrom true none "" ts := by
    rw [treesOf_eq, htrees, Option.getD_some]
  have hfirst : (Html.scanFragment (fragmentOf (sanitize raw))).unescaped =
      .ofPieces (outlineAll true ts) := by
    have hscan := unescaped_scan_writeTrees true ts hts.sound.areNamed []
    rw [List.append_nil, Html.unescaped_scanFragment_nil] at hscan
    rw [hfragment]
    exact hscan
  have hkeeps : (Html.scanFragment (sanitize (sanitize raw)).toList).unescaped.unlinked =
      (Html.scanFragment (fragmentOf (sanitize raw))).unescaped.reread.unlinked := by
    rw [unescaped_scan_sanitize, hagain, hfirst, ofPieces_rereadFrom]
  have htrimmed : ∃ lead trail,
      (sanitize raw).toList = lead ++ (fragmentOf (sanitize raw) ++ trail) ∧
        (∀ c ∈ lead, Text.isBlank c = true) ∧ ∀ c ∈ trail, Text.isBlank c = true := by
    rw [hfragment, ← htrim]
    exact Text.exists_trim _
  constructor
  · rw [sanitize_eq, trees?_writeTrees (areSound_treesOf raw), if_pos h]
    rfl
  · exact htrimmed
  · rw [htrees]
    rfl
  · exact hkeeps
  · intro hplain
    rw [hkeeps, hplain.reread_eq]
  · constructor
    · intro hempty
      rw [sanitize_eq, hagain] at hempty
      have hnone := (writeTrees_rereadFrom_eq_empty ts true none "" hempty).2
      rcases htrimmed with ⟨lead, trail, hsplit, hlead, htrail⟩
      rw [hsplit, hfragment, hnone]
      -- Nothing but the blanks at the ends was written.
      exact List.forall_mem_append.2 ⟨hlead, htrail⟩
    · exact sanitize_of_blanks

/-- A cleaned fragment survives exactly when no two attributes of an element are written under one
name. -/
theorem survivesCleaning_sanitize (raw : String) :
    SurvivesCleaning (sanitize raw) ↔ AreDistinct (treesOf raw) := by
  constructor
  · intro h
    by_contra hrepeats
    have hwrapped := h.wrapped
    rw [sanitize_eq, trees?_writeTrees (areSound_treesOf raw), if_neg hrepeats] at hwrapped
    cases hwrapped
  · exact survivesCleaning_of_areDistinct raw

/-- A drawing with a namespace, an attribute whose prefix is dropped, and a link. -/
def linkedDrawing : String :=
  "<svg xmlns='a' xmlns:b='c' b:id='d'><g xlink:href='#d'>&lt;</g></svg>"

theorem survivesCleaning_sanitize_linkedDrawing :
    AreDistinct (treesOf linkedDrawing) ∧ sanitize linkedDrawing ≠ "" ∧
      SurvivesCleaning (sanitize linkedDrawing) := by
  -- The condition is evaluated where it is asked for, and once more as a part of the statement.
  refine ⟨?_, ?_, (survivesCleaning_sanitize _).2 ?_⟩ <;> decide +kernel

/-- A text is a well-formed fragment, and cleaning it changes none of its elements, attributes and
texts and leaves something of it. -/
structure StaysClean (s : String) : Prop where
  accepted : (trees? s.toList).isSome = true
  keeps : (Html.scanFragment (sanitize s).toList).unescaped = (Html.scanFragment s.toList).unescaped
  nonempty : sanitize s ≠ ""

/-- A drawing with two attributes of one local name, told apart by a prefix. -/
def repeatedName : String := "<svg xmlns:a='b' a:x='1' x='2'/>"

/-- Where a prefix is dropped, an attribute may be written twice, and what is written is refused. -/
theorem not_staysClean_sanitize : ¬ ∀ raw, sanitize raw ≠ "" → StaysClean (sanitize raw) := by
  intro h
  have hwritten : sanitize repeatedName = "<svg x=\"1\" x=\"2\"/>" := by decide +kernel
  have hrefused : ¬ (trees? "<svg x=\"1\" x=\"2\"/>".toList).isSome = true := by decide +kernel
  have hclean := h repeatedName (by rw [hwritten]; decide)
  rw [hwritten] at hclean
  exact hrefused hclean.accepted

-- Blanks at the ends are dropped, although a text of blanks may be left by a first cleaning.
example : sanitize "<!--a--> <!--b-->" = " " ∧ sanitize " " = "" := by decide +kernel

-- A carriage return that was written by reference is read as a line feed.
example : sanitize "a&#13;b" = "a\rb" ∧ sanitize "a\rb" = "a\nb" := by decide +kernel

-- The prefix of links is declared for a link that is not kept, and no longer when nothing uses it.
example : sanitize "<svg xlink:href='javascript:1'/>" =
      "<svg xmlns:xlink=\"http://www.w3.org/1999/xlink\"/>" ∧
    sanitize "<svg xmlns:xlink=\"http://www.w3.org/1999/xlink\"/>" = "<svg/>" := by
  decide +kernel

end Vector
end RenderForest
