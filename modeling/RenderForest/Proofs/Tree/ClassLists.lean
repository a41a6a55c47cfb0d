import RenderForest.Proofs.Text.Words
import RenderForest.Proofs.Tree.Entries
/-!
# ClassLists — merging a text into the class list

A class list is a value that is read as words.  A text is merged into it by appending it behind a
space, unless it is one of the words.  This file defines:

* `Attributes.classWords`, the words of the class list;
* `Attributes.KeepsOthers` and `Attributes.Merges`, what a merge is asked for;

and shows in `mergeClass_mergeClass_iff` that a text is merged for good only if it is one word, or
if nothing is merged into nothing: what has a blank in it is no word, so that it is never found and
is appended again.
-/

namespace RenderForest
namespace Attributes

/-- The words of the class list; none if there is no such attribute. -/
def classWords (attrs : Attributes) : List (List Char) :=
  Text.words ((attrs.get? "class").getD "").toList

/-! ## Merging a class -/

/-- A class is merged by setting `class`, in place if there is one. -/
theorem mergeClass_eq_set (attrs : Attributes) (word : String) :
    attrs.mergeClass word = attrs.set "class" (addWord ((attrs.get? "class").getD "") word) := by
  unfold mergeClass
  cases h : attrs.get? "class" with
  | some value => rfl
  | none =>
      have hnew : "class" ∉ names attrs.entries := get?_eq_none_iff.1 h
      have hword : addWord "" word = word := by
        rw [addWord]
        split
        · rename_i hmem
          cases hmem
        · rfl
      show attrs.push "class" word = attrs.set "class" (addWord "" word)
      rw [hword, push, set, setEntries_of_not_mem hnew]

theorem nodup_names_mergeClass {attrs : Attributes} (h : (names attrs.entries).Nodup)
    (word : String) : (names (attrs.mergeClass word).entries).Nodup := by
  rw [mergeClass_eq_set]
  exact nodup_names_setEntries h

/-- What is merged into `class` leaves the other attributes as they are. -/
theorem filterNames_mergeClass (attrs : Attributes) (word : String) :
    (attrs.mergeClass word).filterNames (· != "class") = attrs.filterNames (· != "class") := by
  rw [mergeClass_eq_set, filterNames_set]
  rfl

/-! ## Words of a longer list -/

variable {value word : String}

/-- A text is appended with all its words, unless it is itself one of the words. -/
theorem words_addWord (value word : String) :
    Text.words (addWord value word).toList =
      if word.toList ∈ Text.words value.toList then Text.words value.toList
      else Text.words value.toList ++ Text.words word.toList := by
  unfold addWord
  by_cases hmem : word.toList ∈ Text.words value.toList
  · rw [if_pos (List.contains_iff_mem.2 hmem), if_pos hmem]
  · rw [if_neg (mt List.contains_iff_mem.1 hmem), if_neg hmem]
    split
    · rename_i hempty
      rw [String.isEmpty_iff.1 hempty]
      rfl
    · have hlist : (value ++ " " ++ word).toList = value.toList ++ ' ' :: word.toList := by
        simp
      rw [hlist]
      exact Text.words_append_blank (by decide) value.toList word.toList

/-- A text that is added is one of the words now exactly if it is a word. -/
theorem mem_words_addWord_iff :
    word.toList ∈ Text.words (addWord value word).toList ↔ Text.IsWord word.toList := by
  rw [words_addWord]
  split
  · rename_i hmem
    exact iff_of_true hmem (Text.isWord_of_mem_words hmem)
  · rename_i hmem
    rw [List.mem_append, or_iff_right hmem]
    exact Text.mem_words_self_iff

/-- A list stays as it is if the word is there, or if nothing is added to nothing. -/
theorem addWord_eq_self_iff :
    addWord value word = value ↔
      word.toList ∈ Text.words value.toList ∨ word = "" ∧ value = "" := by
  unfold addWord
  by_cases hmem : word.toList ∈ Text.words value.toList
  · exact iff_of_true (if_pos (List.contains_iff_mem.2 hmem)) (Or.inl hmem)
  · rw [if_neg (mt List.contains_iff_mem.1 hmem), or_iff_right hmem]
    by_cases hvalue : value = ""
    · subst hvalue
      exact (and_iff_left rfl).symm
    · -- The longer list has at least a space more.
      have hlonger : value ++ " " ++ word ≠ value := by
        intro heq
        have hlength := congrArg String.length heq
        rw [String.length_append, String.length_append] at hlength
        have hspace : " ".length = 1 := by
          decide
        omega
      have hempty : value.isEmpty = false := by
        simpa using hvalue
      rw [hempty]
      exact iff_of_false hlonger fun h => hvalue h.2

theorem addWord_addWord_iff :
    addWord (addWord value word) word = addWord value word ↔
      Text.IsWord word.toList ∨ word = "" ∧ value = "" := by
  rw [addWord_eq_self_iff, mem_words_addWord_iff]
  refine or_congr_right (and_congr_right fun hword => ?_)
  subst hword
  have hmem : "".toList ∉ Text.words value.toList := fun h =>
    (Text.isWord_of_mem_words h).ne_nil rfl
  have hadded : addWord value "" = if value.isEmpty then "" else value ++ " " ++ "" :=
    if_neg (mt List.contains_iff_mem.1 hmem)
  rw [hadded]
  by_cases hvalue : value = ""
  · rw [hvalue]
    exact iff_of_true rfl rfl
  · -- Behind a list that is not empty a space is added at least.
    rw [if_neg (mt String.isEmpty_iff.1 hvalue)]
    exact iff_of_false (by simp) hvalue

/-! ## Merging once and again -/

variable {attrs : Attributes}

theorem classWords_mergeClass (attrs : Attributes) (word : String) :
    (attrs.mergeClass word).classWords =
      if word.toList ∈ attrs.classWords then attrs.classWords
      else attrs.classWords ++ Text.words word.toList := by
  rw [classWords, mergeClass_eq_set, get?_set]
  exact words_addWord _ _

/-- Setting a value again changes nothing exactly if it is the same value. -/
theorem set_set_iff {name v w : String} :
    (attrs.set name v).set name w = attrs.set name v ↔ w = v := by
  constructor
  · intro h
    have hget := congrArg (get? · name) h
    simpa only [get?_set, Option.some.injEq] using hget
  · rintro rfl
    exact congrArg Attributes.mk (setEntries_of_lookup (get?_set attrs name w))

/-- A second merge changes nothing exactly if one word is merged, or nothing into nothing. -/
theorem mergeClass_mergeClass_iff :
    (attrs.mergeClass word).mergeClass word = attrs.mergeClass word ↔
      Text.IsWord word.toList ∨ word = "" ∧ (attrs.get? "class").getD "" = "" := by
  rw [mergeClass_eq_set, mergeClass_eq_set, get?_set, set_set_iff]
  exact addWord_addWord_iff

/-! ## What a merge is asked for -/

/-- Nothing but the class list is changed, and a new one goes last. -/
structure KeepsOthers (attrs : Attributes) (word : String) : Prop where
  values : (attrs.mergeClass word).filterNames (· != "class") = attrs.filterNames (· != "class")
  order : names (attrs.mergeClass word).entries =
    if "class" ∈ names attrs.entries then names attrs.entries
    else names attrs.entries ++ ["class"]

/-- The words that were not there are added in their order, and a second merge adds nothing. -/
structure Merges (attrs : Attributes) (word : String) : Prop extends KeepsOthers attrs word where
  words : (attrs.mergeClass word).classWords =
    attrs.classWords ++ (Text.words word.toList).filter (· ∉ attrs.classWords)
  once : (attrs.mergeClass word).mergeClass word = attrs.mergeClass word

theorem keepsOthers (attrs : Attributes) (word : String) : attrs.KeepsOthers word := by
  constructor
  · exact filterNames_mergeClass attrs word
  · rw [mergeClass_eq_set]
    exact names_setEntries _ _ _

theorem merges_of_isWord (h : Text.IsWord word.toList) : attrs.Merges word := by
  refine { keepsOthers attrs word with words := ?_, once := mergeClass_mergeClass_iff.2 (.inl h) }
  rw [classWords_mergeClass, Text.words_of_isWord h]
  by_cases hmem : word.toList ∈ attrs.classWords
  · simp [hmem]
  · simp [hmem]

/-- Nothing but the class list is changed by a merge, which leaves it as it is or appends all
words of the text.  It adds just the words that were missing, and a second merge nothing, exactly
if the text is one word, or if it is empty and so is the class list. -/
theorem merges_iff (attrs : Attributes) (word : String) :
    attrs.KeepsOthers word ∧
    ((attrs.mergeClass word).classWords =
      if word.toList ∈ attrs.classWords then attrs.classWords
      else attrs.classWords ++ Text.words word.toList) ∧
    (attrs.Merges word ↔
      Text.IsWord word.toList ∨ word = "" ∧ (attrs.get? "class").getD "" = "") := by
  refine ⟨keepsOthers attrs word, classWords_mergeClass attrs word, ?_⟩
  constructor
  · intro h
    exact mergeClass_mergeClass_iff.1 h.once
  · rintro (hword | ⟨rfl, hvalue⟩)
    · exact merges_of_isWord hword
    · refine { keepsOthers attrs "" with
        words := ?_, once := mergeClass_mergeClass_iff.2 (.inr ⟨rfl, hvalue⟩) }
      rw [classWords_mergeClass]
      split
      · exact (List.append_nil _).symm
      · rfl

/-- Two words, such as a class for all code with that of a language, are appended again. -/
theorem not_merges_two_words :
    ¬ ∀ (attrs : Attributes) (word : String),
      (names attrs.entries).Nodup → attrs.Merges word := by
  intro h
  have honce := (h ⟨[("class", "hljs language-js")]⟩ "hljs language-js" (by decide)).once
  revert honce
  decide

end Attributes
end RenderForest
