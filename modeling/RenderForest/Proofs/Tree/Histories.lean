import Mathlib.Data.List.Induction
import RenderForest.Proofs.Tree.ClassLists
/-!
# Histories — attribute lists that are edited step by step

An attribute list is edited by setting and removing names, by merging classes, and by collecting
entries into a new one.  This file defines:

* `Attributes.Edit` and `Attributes.run`, the edits and the list that a history of them leaves;
* `Edit.drops`, `Edit.written` and `Edit.leaves`, which tell of one edit what names it takes out,
  what names it gives a value, and what is found under a name behind it;
* `Attributes.IsInsertionOrdered`, what makes a list a map in the order of insertion;

and shows in `isInsertionOrdered` that every history leaves such a map.  What one edit does to the
names is in `names_edit`, and what it does to the values in `get?_edit`; both need the names to be
distinct, which `nodup_names_edit` keeps.
-/

namespace RenderForest
namespace Attributes

/-! ## Edits -/

/-- One change of an attribute list.  Collecting does not go on with the list that was there. -/
inductive Edit where
  | set (name value : String)
  | remove (name : String)
  | mergeClass (word : String)
  | collect (entries : List (String × String))
  deriving DecidableEq, Repr

def edit (attrs : Attributes) : Edit → Attributes
  | .set name value => attrs.set name value
  | .remove name => (attrs.remove name).2
  | .mergeClass word => attrs.mergeClass word
  | .collect entries => ofList entries

/-- The list that a history leaves, which begins without attributes. -/
def run (history : List Edit) : Attributes :=
  history.foldl edit empty

namespace Edit

def written : Edit → List String
  | .set name _ => [name]
  | .remove _ => []
  | .mergeClass _ => ["class"]
  | .collect entries => names entries

/-- Whether a name is taken out.  Collecting takes out every name, also one that is added again. -/
def drops (name : String) : Edit → Bool
  | .set _ _ => false
  | .remove n => name == n
  | .mergeClass _ => false
  | .collect _ => true

/-- Whether an edit is a write or a removal of a name. -/
def touches (name : String) (e : Edit) : Bool :=
  e.drops name || e.written.contains name

/-- What is found under a name behind an edit, if `old` was found before. -/
def leaves (name : String) (old : Option String) : Edit → Option String
  | .set n value => if name = n then some value else old
  | .remove n => if name = n then none else old
  | .mergeClass word => if name = "class" then some (addWord (old.getD "") word) else old
  | .collect entries => entries.reverse.lookup name

end Edit

/-- The names of a list that an edit does not take out. -/
def keptNames (attrs : Attributes) (e : Edit) : List String :=
  (names attrs.entries).filter fun n => !e.drops n

variable {attrs : Attributes} {name : String} {l : List (String × String)} {e : Edit}

/-! ## Removing a name -/

theorem names_removeEntries (h : (names l).Nodup) :
    names (removeEntries name l) = (names l).filter fun n => !(n == name) := by
  have herase : names (removeEntries name l) = (names l).erase name := by
    clear h
    induction l with
    | nil => rfl
    | cons a rest ih =>
        rcases a with ⟨n, v⟩
        by_cases hn : n = name
        · simp [removeEntries, names, hn]
        · simpa [removeEntries, names, hn] using ih
  exact herase.trans (h.erase_eq_filter name)

/-- Under other names the same is found as before, whatever the names are. -/
theorem lookup_removeEntries_of_ne {n : String} (hn : n ≠ name) :
    (removeEntries name l).lookup n = l.lookup n := by
  induction l with
  | nil => rfl
  | cons a rest ih =>
      rcases a with ⟨m, v⟩
      rw [removeEntries]
      split
      · rename_i hm
        have hne : n ≠ m := fun heq => hn (heq.trans (eq_of_beq hm))
        exact ((Catalog.lookup_cons _ _ _).trans (if_neg hne)).symm
      · rw [Catalog.lookup_cons, Catalog.lookup_cons, ih]

theorem lookup_removeEntries (h : (names l).Nodup) (n : String) :
    (removeEntries name l).lookup n = if n = name then none else l.lookup n := by
  by_cases hn : n = name
  · rw [if_pos hn, lookup_eq_none_iff, names_removeEntries h]
    simp [hn]
  · rw [if_neg hn]
    exact lookup_removeEntries_of_ne hn

/-! ## Collecting entries -/

/-- Each name stands where it came first. -/
theorem names_ofList (l : List (String × String)) :
    names (ofList l).entries = (names l).eraseDups := by
  -- The last entry is set last, so that the induction is on the list from behind.
  induction l using List.reverseRecOn with
  | nil => rfl
  | append_singleton l a ih =>
      have hset : (ofList (l ++ [a])).entries = setEntries a.1 a.2 (ofList l).entries := by
        rw [ofList, List.foldl_append]
        rfl
      have hnames : names (l ++ [a]) = names l ++ [a.1] := List.map_append
      have hmem : a.1 ∈ (names l).eraseDups ↔ a.1 ∈ names l := List.mem_eraseDups
      rw [hset, names_setEntries, ih, hnames, List.eraseDups_append]
      by_cases ha : a.1 ∈ names l
      · simp [hmem, ha, List.removeAll]
      · simp [hmem, ha, List.removeAll, List.eraseDups_cons]

/-! ## One edit -/

theorem nodup_names_edit (h : (names attrs.entries).Nodup) (e : Edit) :
    (names (attrs.edit e).entries).Nodup := by
  cases e with
  | set name value => exact nodup_names_setEntries h
  | remove name =>
      show (names (removeEntries name attrs.entries)).Nodup
      rw [names_removeEntries h]
      exact h.filter _
  | mergeClass word => exact nodup_names_mergeClass h word
  | collect entries => exact nodup_names_ofList entries

/-- Writing under a name puts it behind the others, unless it is there. -/
theorem names_setEntries_eq_append (name value : String) (l : List (String × String)) :
    names (setEntries name value l) = names l ++ [name].eraseDups.filter (· ∉ names l) := by
  have hsingle : [name].eraseDups = [name] := by
    simp [List.eraseDups_cons]
  rw [names_setEntries, hsingle]
  split
  · rename_i hmem
    simp [hmem]
  · rename_i hmem
    simp [hmem]

/-- The names that are kept come first, in the order in which they were; behind them come the
written names that are not among them, each once. -/
theorem names_edit (h : (names attrs.entries).Nodup) (e : Edit) :
    names (attrs.edit e).entries =
      attrs.keptNames e ++ e.written.eraseDups.filter (· ∉ attrs.keptNames e) := by
  have hall : ∀ l : List String, (l.filter fun _ => !false) = l := by
    simp
  cases e with
  | set name value =>
      have hkept : attrs.keptNames (.set name value) = names attrs.entries := hall _
      rw [hkept]
      exact names_setEntries_eq_append name value attrs.entries
  | remove name =>
      calc
        names (removeEntries name attrs.entries) = attrs.keptNames (.remove name) :=
          names_removeEntries h
        _ = attrs.keptNames (.remove name) ++ [] := (List.append_nil _).symm
  | mergeClass word =>
      have hkept : attrs.keptNames (.mergeClass word) = names attrs.entries := hall _
      rw [hkept]
      show names (attrs.mergeClass word).entries = _
      rw [mergeClass_eq_set]
      exact names_setEntries_eq_append "class" _ attrs.entries
  | collect entries =>
      have hkept : attrs.keptNames (.collect entries) = [] := by
        simp [keptNames, Edit.drops]
      rw [hkept]
      calc
        names (ofList entries).entries = (names entries).eraseDups := names_ofList entries
        _ = [] ++ (names entries).eraseDups.filter (· ∉ []) := by simp

/-- The names that an edit keeps stay in front. -/
theorem keptNames_isPrefix (h : (names attrs.entries).Nodup) (e : Edit) :
    attrs.keptNames e <+: names (attrs.edit e).entries :=
  ⟨_, (names_edit h e).symm⟩

theorem get?_edit (h : (names attrs.entries).Nodup) (e : Edit) (name : String) :
    (attrs.edit e).get? name = e.leaves name (attrs.get? name) := by
  cases e with
  | set n value => exact lookup_setEntries n value name attrs.entries
  | remove n => exact lookup_removeEntries h name
  | mergeClass word =>
      show (attrs.mergeClass word).get? name =
        if name = "class" then some (addWord ((attrs.get? name).getD "") word)
        else attrs.get? name
      rw [mergeClass_eq_set]
      by_cases hname : name = "class"
      · rw [hname, if_pos rfl]
        exact get?_set attrs "class" _
      · rw [if_neg hname]
        exact (lookup_setEntries "class" _ name attrs.entries).trans (if_neg hname)
  | collect entries => exact get?_ofList entries name

/-! ## What an edit tells of a name -/

namespace Edit

theorem leaves_of_not_touches (h : e.touches name = false) (old : Option String) :
    e.leaves name old = old := by
  rcases Bool.or_eq_false_iff.1 h with ⟨hdrops, hwritten⟩
  cases e with
  | set n value =>
      have hn : name ≠ n := by
        simpa [written] using hwritten
      exact if_neg hn
  | remove n => exact if_neg (beq_eq_false_iff_ne.1 hdrops)
  | mergeClass word =>
      have hn : name ≠ "class" := by
        simpa [written] using hwritten
      exact if_neg hn
  | collect entries => cases hdrops

/-- Behind an edit of a name it is there exactly if the edit is a write. -/
theorem isSome_leaves (h : e.touches name = true) (old : Option String) :
    (e.leaves name old).isSome = e.written.contains name := by
  cases e with
  | set n value =>
      have hn : name = n := by
        simpa [touches, drops, written] using h
      simp [leaves, written, hn]
  | remove n =>
      have hn : name = n := by
        simpa [touches, drops, written] using h
      simp [leaves, written, hn]
  | mergeClass word =>
      have hn : name = "class" := by
        simpa [touches, drops, written] using h
      simp [leaves, written, hn]
  | collect entries =>
      have hnames : names entries.reverse = (names entries).reverse := List.map_reverse
      have hnone := lookup_eq_none_iff (l := entries.reverse) (n := name)
      rw [hnames, List.mem_reverse] at hnone
      rw [leaves, written, Bool.eq_iff_iff, List.contains_iff_mem, Option.isSome_iff_ne_none]
      exact not_iff_comm.1 hnone.symm

end Edit

/-! ## Histories -/

/-- What a history leaves is a map in the order of insertion. -/
structure IsInsertionOrdered (history : List Edit) : Prop where
  /-- No name is repeated. -/
  distinct : (names (run history).entries).Nodup
  /-- The names of the list are those that it is said to contain. -/
  contained : ∀ name, (run history).contains name = true ↔ name ∈ names (run history).entries
  /-- Nothing is found under a name that was neither written nor removed. -/
  untouched : ∀ name, (∀ e ∈ history, e.touches name = false) →
    (run history).get? name = none ∧ (run history).contains name = false
  /-- The last write or removal of a name tells what is found there. -/
  reflects : ∀ name before e after, history = before ++ e :: after → e.touches name = true →
    (∀ e ∈ after, e.touches name = false) →
    (run history).get? name = e.leaves name ((run before).get? name) ∧
      (run history).contains name = e.written.contains name
  /-- The names that were there at some time and not taken out since come first, in the order in
  which they were. -/
  keepsPlaces : ∀ before after, history = before ++ after →
    ((names (run before).entries).filter fun n => after.all fun e => !e.drops n) <+:
      names (run history).entries
  /-- The names that the last edit adds come behind those that it keeps. -/
  addsLast : ∀ before e, history = before ++ [e] →
    names (run history).entries = (run before).keptNames e ++
      e.written.eraseDups.filter (· ∉ (run before).keptNames e)
  /-- Its own entries make the list again. -/
  rebuilt : run (history ++ [.collect (run history).entries]) = run history

theorem run_append (before after : List Edit) :
    run (before ++ after) = after.foldl edit (run before) :=
  List.foldl_append

theorem nodup_names_empty : (names empty.entries).Nodup :=
  List.nodup_nil

theorem nodup_names_run (history : List Edit) : (names (run history).entries).Nodup :=
  List.foldlRecOn (motive := fun attrs => (names attrs.entries).Nodup) history edit
    nodup_names_empty fun _ h e _ => nodup_names_edit h e

/-- Edits of other names change nothing under a name. -/
theorem get?_foldl_edit_of_not_touches (h : (names attrs.entries).Nodup) {after : List Edit}
    (hafter : ∀ e ∈ after, e.touches name = false) :
    (after.foldl edit attrs).get? name = attrs.get? name := by
  induction after generalizing attrs with
  | nil => rfl
  | cons e after ih =>
      rcases List.forall_mem_cons.1 hafter with ⟨he, hafter⟩
      calc
        (after.foldl edit (attrs.edit e)).get? name = (attrs.edit e).get? name :=
          ih (nodup_names_edit h e) hafter
        _ = e.leaves name (attrs.get? name) := get?_edit h e name
        _ = attrs.get? name := Edit.leaves_of_not_touches he _

/-- Names that no edit takes out stay in front of all others. -/
theorem filter_names_isPrefix_foldl_edit (h : (names attrs.entries).Nodup) (after : List Edit) :
    ((names attrs.entries).filter fun n => after.all fun e => !e.drops n) <+:
      names (after.foldl edit attrs).entries := by
  induction after generalizing attrs with
  | nil => simp
  | cons e after ih =>
      have hfilter : ((names attrs.entries).filter fun n => (e :: after).all fun e => !e.drops n) =
          (attrs.keptNames e).filter fun n => after.all fun e => !e.drops n := by
        rw [keptNames, List.filter_filter]
        exact List.filter_congr fun n _ => Bool.and_comm ..
      rw [hfilter]
      exact ((keptNames_isPrefix h e).filter _).trans (ih (nodup_names_edit h e))

theorem get?_run (before : List Edit) (e : Edit) {after : List Edit}
    (hafter : ∀ e ∈ after, e.touches name = false) :
    (run (before ++ e :: after)).get? name = e.leaves name ((run before).get? name) := by
  have hbefore := nodup_names_run before
  calc
    (run (before ++ e :: after)).get? name =
        (after.foldl edit ((run before).edit e)).get? name := by rw [run_append]; rfl
    _ = ((run before).edit e).get? name :=
      get?_foldl_edit_of_not_touches (nodup_names_edit hbefore e) hafter
    _ = e.leaves name ((run before).get? name) := get?_edit hbefore e name

theorem isInsertionOrdered (history : List Edit) : IsInsertionOrdered history where
  distinct := nodup_names_run history
  contained := by
    intro name
    rw [contains, Option.isSome_iff_ne_none, ne_eq, get?_eq_none_iff, not_not]
  untouched := by
    intro name h
    have hget : (run history).get? name = none :=
      get?_foldl_edit_of_not_touches nodup_names_empty h
    exact ⟨hget, congrArg Option.isSome hget⟩
  reflects := by
    rintro name before e after rfl he hafter
    have hget := get?_run before e hafter
    exact ⟨hget, (congrArg Option.isSome hget).trans (Edit.isSome_leaves he _)⟩
  keepsPlaces := by
    rintro before after rfl
    rw [run_append]
    exact filter_names_isPrefix_foldl_edit (nodup_names_run before) after
  addsLast := by
    rintro before e rfl
    rw [run_append]
    exact names_edit (nodup_names_run before) e
  rebuilt := by
    rw [run_append]
    exact foldl_set_of_nodup (nodup_names_run history)

/-- A name that is removed and set again goes last, and one that is only set again does not. -/
example : run [.set "a" "1", .set "b" "2", .set "c" "3", .remove "a", .set "b" "4", .set "a" "5"] =
    ⟨[("b", "4"), ("c", "3"), ("a", "5")]⟩ := by
  decide

end Attributes
end RenderForest
