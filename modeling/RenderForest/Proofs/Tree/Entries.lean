import Mathlib.Data.List.Nodup
import Mathlib.Tactic.Tauto
import RenderForest.Proofs.Tree.Sorted
import RenderForest.Tree.Attributes
/-!
# Entries — what setting attributes one after another leaves

Setting an attribute replaces the value of its name or adds an entry.  This file shows:

* `mem_setEntries`, `mem_ofList`: every entry that is left was set at some time;
* `mem_names_setEntries`, `nodup_names_setEntries`: every name that was set is left, and once;
* `get?_ofList`: of several entries of a name the value of the last is left;
* `filter_setEntries`, `map_setEntries`: dropping names and rewriting values may be done before
  the entries are set as well as after.
-/

namespace RenderForest
namespace Attributes

/-! ## Entries that are left -/

theorem mem_setEntries {name value : String} {l : List (String × String)} {a : String × String}
    (h : a ∈ setEntries name value l) : a = (name, value) ∨ a ∈ l := by
  induction l with
  | nil => exact Or.inl (List.mem_singleton.1 h)
  | cons e rest ih =>
      rcases e with ⟨n, v⟩
      unfold setEntries at h
      split at h
      · rename_i hn
        rcases List.mem_cons.1 h with rfl | h
        · exact Or.inl (by rw [eq_of_beq hn])
        · exact Or.inr (List.mem_cons_of_mem _ h)
      · rcases List.mem_cons.1 h with rfl | h
        · exact Or.inr (List.mem_cons_self ..)
        · rcases ih h with h | h
          · exact Or.inl h
          · exact Or.inr (List.mem_cons_of_mem _ h)

theorem mem_set {attrs : Attributes} {name value : String} {a : String × String}
    (h : a ∈ (attrs.set name value).entries) : a = (name, value) ∨ a ∈ attrs.entries :=
  mem_setEntries h

theorem mem_foldl_set {l : List (String × String)} {attrs : Attributes} {a : String × String}
    (h : a ∈ (l.foldl (fun a (n, v) => a.set n v) attrs).entries) :
    a ∈ attrs.entries ∨ a ∈ l := by
  induction l generalizing attrs with
  | nil => exact Or.inl h
  | cons e rest ih =>
      rcases ih h with h | h
      · rcases mem_set h with rfl | h
        · exact Or.inr (List.mem_cons_self ..)
        · exact Or.inl h
      · exact Or.inr (List.mem_cons_of_mem _ h)

theorem mem_ofList {l : List (String × String)} {a : String × String}
    (h : a ∈ (ofList l).entries) : a ∈ l := by
  rcases mem_foldl_set h with h | h
  · cases h
  · exact h

theorem mem_ofListWhere {keep : String × String → Bool} {l : List (String × String)}
    {a : String × String} (h : a ∈ (ofListWhere keep l).entries) : a ∈ l ∧ keep a = true :=
  List.mem_filter.1 (mem_ofList h)

/-- The value that was set last under a name is found there. -/
theorem get?_set (attrs : Attributes) (name value : String) :
    (attrs.set name value).get? name = some value := by
  rw [get?, set]
  induction attrs.entries with
  | nil => simp [setEntries]
  | cons e rest ih =>
      rcases e with ⟨n, v⟩
      by_cases hn : n = name
      · simp [setEntries, hn]
      · have hn' : (name == n) = false := by
          simpa using Ne.symm hn
        simpa [setEntries, hn, List.lookup_cons, hn'] using ih

/-! ## Names -/

def names (l : List (String × String)) : List String :=
  l.map Prod.fst

theorem mem_names_setEntries {name value n : String} {l : List (String × String)} :
    n ∈ names (setEntries name value l) ↔ n = name ∨ n ∈ names l := by
  induction l with
  | nil => simp [setEntries, names]
  | cons e rest ih =>
      rcases e with ⟨m, v⟩
      by_cases hm : m = name
      · simp [setEntries, names, hm]
      · have ih' : n ∈ (setEntries name value rest).map Prod.fst ↔
            n = name ∨ n ∈ rest.map Prod.fst := ih
        simp only [setEntries, names, beq_iff_eq, hm, if_false, List.map_cons, List.mem_cons, ih']
        tauto

theorem nodup_names_setEntries {name value : String} {l : List (String × String)}
    (h : (names l).Nodup) : (names (setEntries name value l)).Nodup := by
  induction l with
  | nil => exact List.nodup_singleton name
  | cons e rest ih =>
      rcases e with ⟨n, v⟩
      rcases List.nodup_cons.1 h with ⟨hn, hrest⟩
      -- A name that is there keeps its place, and a new one does not repeat the first.
      by_cases hname : n = name
      · simpa [setEntries, hname, names] using h
      · have hset : setEntries name value ((n, v) :: rest) =
            (n, v) :: setEntries name value rest := by
          simp [setEntries, hname]
        rw [hset]
        refine List.nodup_cons.2 ⟨?_, ih hrest⟩
        intro hmem
        rcases mem_names_setEntries.1 hmem with heq | hmem
        · exact hname heq
        · exact hn hmem

theorem mem_names_foldl_set {n : String} {l : List (String × String)} {attrs : Attributes} :
    n ∈ names (l.foldl (fun a (n, v) => a.set n v) attrs).entries ↔
      n ∈ names attrs.entries ∨ n ∈ names l := by
  induction l generalizing attrs with
  | nil => simp [names]
  | cons e rest ih =>
      rw [List.foldl_cons, ih]
      show n ∈ names (setEntries e.1 e.2 attrs.entries) ∨ n ∈ names rest ↔
        n ∈ names attrs.entries ∨ n ∈ e.1 :: names rest
      rw [mem_names_setEntries, List.mem_cons]
      tauto

/-- Behind entries of other names a name is set as if they were not there. -/
theorem setEntries_append {name : String} {front : List (String × String)}
    (h : name ∉ names front) {value : String} (l : List (String × String)) :
    setEntries name value (front ++ l) = front ++ setEntries name value l := by
  induction front with
  | nil => rfl
  | cons e rest ih =>
      rcases e with ⟨n, v⟩
      have hn : n ≠ name := fun heq => h (heq ▸ List.mem_cons_self ..)
      have hrest : name ∉ names rest := fun hmem => h (List.mem_cons_of_mem _ hmem)
      simp [setEntries, hn, ih hrest]

/-- A new name goes last. -/
theorem setEntries_of_not_mem {name value : String} {l : List (String × String)}
    (h : name ∉ names l) : setEntries name value l = l ++ [(name, value)] :=
  calc setEntries name value l
    _ = setEntries name value (l ++ []) := by rw [List.append_nil]
    _ = l ++ [(name, value)] := setEntries_append h []

/-- A name that is there keeps its place, and a new one goes last. -/
theorem names_setEntries (name value : String) (l : List (String × String)) :
    names (setEntries name value l) = if name ∈ names l then names l else names l ++ [name] := by
  split
  · rename_i hmem
    induction l with
    | nil => cases hmem
    | cons e rest ih =>
        rcases e with ⟨n, v⟩
        by_cases hn : n = name
        · simp [setEntries, names, hn]
        · have hrest : name ∈ names rest := by
            rcases List.mem_cons.1 hmem with heq | hrest
            · exact absurd heq.symm hn
            · exact hrest
          simpa [setEntries, names, hn] using ih hrest
  · rename_i hmem
    rw [setEntries_of_not_mem hmem, names, List.map_append]
    rfl

theorem nodup_names_foldl_set {l : List (String × String)} {attrs : Attributes}
    (h : (names attrs.entries).Nodup) :
    (names (l.foldl (fun a (n, v) => a.set n v) attrs).entries).Nodup := by
  induction l generalizing attrs with
  | nil => exact h
  | cons e rest ih => exact ih (nodup_names_setEntries h)

theorem nodup_names_ofList (l : List (String × String)) : (names (ofList l).entries).Nodup :=
  nodup_names_foldl_set List.nodup_nil

/-- Entries without a repeated name are left as they were set. -/
theorem foldl_set_of_nodup {l : List (String × String)} {attrs : Attributes}
    (h : (names (attrs.entries ++ l)).Nodup) :
    l.foldl (fun a (n, v) => a.set n v) attrs = ⟨attrs.entries ++ l⟩ := by
  induction l generalizing attrs with
  | nil => simp
  | cons e rest ih =>
      -- The name comes neither before nor again, so that its entry is appended.
      have hnew : e.1 ∉ names attrs.entries := by
        intro hmem
        rw [names, List.map_append, List.map_cons, List.nodup_append] at h
        exact h.2.2 e.1 hmem e.1 (List.mem_cons_self ..) rfl
      have hset : attrs.set e.1 e.2 = ⟨attrs.entries ++ [e]⟩ :=
        congrArg Attributes.mk (setEntries_of_not_mem hnew)
      rw [List.foldl_cons]
      show rest.foldl (fun a (n, v) => a.set n v) (attrs.set e.1 e.2) = _
      rw [hset, ih (by simpa using h)]
      simp

/-! ## Values that are left -/

/-- Nothing is found under a name exactly if it is not there. -/
theorem lookup_eq_none_iff {l : List (String × String)} {n : String} :
    l.lookup n = none ↔ n ∉ names l := by
  rw [List.lookup_eq_none_iff, names, List.mem_map]
  constructor
  · rintro h ⟨e, he, rfl⟩
    simpa using h e he
  · intro h e he
    rw [bne_iff_ne]
    rintro rfl
    exact h ⟨e, he, rfl⟩

theorem get?_eq_none_iff {attrs : Attributes} {n : String} :
    attrs.get? n = none ↔ n ∉ names attrs.entries :=
  lookup_eq_none_iff

/-- Setting a value that is found already changes nothing. -/
theorem setEntries_of_lookup {name value : String} {l : List (String × String)}
    (h : l.lookup name = some value) : setEntries name value l = l := by
  induction l with
  | nil => cases h
  | cons e rest ih =>
      rcases e with ⟨n, v⟩
      rw [Catalog.lookup_cons] at h
      split at h
      · rename_i hn
        cases h
        simp [setEntries, hn]
      · rename_i hn
        have hne : n ≠ name := fun heq => hn heq.symm
        simp [setEntries, hne, ih h]

/-- Setting an attribute changes what is found under its own name and no other. -/
theorem lookup_setEntries (name value n : String) (l : List (String × String)) :
    (setEntries name value l).lookup n = if n = name then some value else l.lookup n := by
  induction l with
  | nil => exact Catalog.lookup_cons _ _ _
  | cons e rest ih =>
      rcases e with ⟨m, v⟩
      rw [setEntries]
      split
      · rename_i hm
        rw [← eq_of_beq hm, Catalog.lookup_cons, Catalog.lookup_cons]
        split <;> rfl
      · rename_i hm
        have hne : m ≠ name := fun heq => hm (by simp [heq])
        rw [Catalog.lookup_cons, Catalog.lookup_cons, ih]
        by_cases hn : n = m
        · rw [if_pos hn, if_pos hn, if_neg fun h => hne (hn.symm.trans h)]
        · rw [if_neg hn, if_neg hn]

theorem get?_foldl_set (l : List (String × String)) (attrs : Attributes) (n : String) :
    (l.foldl (fun a (n, v) => a.set n v) attrs).get? n =
      (l.reverse.lookup n).or (attrs.get? n) := by
  induction l generalizing attrs with
  | nil => rfl
  | cons e rest ih =>
      have hset : (attrs.set e.1 e.2).get? n = if n = e.1 then some e.2 else attrs.get? n :=
        lookup_setEntries e.1 e.2 n attrs.entries
      rw [List.foldl_cons, ih, hset, List.reverse_cons, List.lookup_append, Option.or_assoc,
        Catalog.lookup_cons, List.lookup_nil]
      split <;> rfl

theorem mem_of_get? {attrs : Attributes} {n v : String} (h : attrs.get? n = some v) :
    (n, v) ∈ attrs.entries :=
  Catalog.mem_of_lookup h

/-- Of several entries of a name the last is left. -/
theorem get?_ofList (l : List (String × String)) (n : String) :
    (ofList l).get? n = l.reverse.lookup n := by
  rw [ofList, get?_foldl_set]
  exact Option.or_none

/-- Entries of other names have no effect on what is left under a name. -/
theorem get?_ofListWhere (keep : String → Bool) {n : String} (hn : keep n = true)
    (l : List (String × String)) :
    (ofListWhere (fun a => keep a.1) l).get? n = l.reverse.lookup n := by
  rw [ofListWhere, get?_ofList, ← List.filter_reverse, Catalog.lookup_filter_name keep hn]

/-- Without a repeated name the first entry of a name is the last. -/
theorem lookup_reverse_of_nodup {l : List (String × String)} (h : (names l).Nodup) (n : String) :
    l.reverse.lookup n = l.lookup n := by
  induction l with
  | nil => rfl
  | cons e rest ih =>
      rcases List.nodup_cons.1 h with ⟨he, hrest⟩
      rw [List.reverse_cons, List.lookup_append, ih hrest, Catalog.lookup_cons, Catalog.lookup_cons]
      by_cases hn : n = e.1
      · have hnone : rest.lookup n = none := lookup_eq_none_iff.2 (hn ▸ he)
        rw [hnone, Option.none_or]
        rfl
      · rw [if_neg hn, if_neg hn]
        exact Option.or_none

/-! ## Dropping names and rewriting values -/

theorem filter_setEntries (keep : String → Bool) (name value : String)
    (l : List (String × String)) :
    (setEntries name value l).filter (fun a => keep a.1) =
      if keep name then setEntries name value (l.filter fun a => keep a.1)
      else l.filter fun a => keep a.1 := by
  induction l with
  | nil => by_cases hk : keep name = true <;> simp [setEntries, hk]
  | cons e rest ih =>
      rcases e with ⟨n, v⟩
      -- An entry of the name that is set goes or stays with it.
      by_cases hn : n = name
      · subst hn
        by_cases hk : keep n = true <;> simp [setEntries, hk]
      · by_cases hk : keep n = true <;> by_cases hk' : keep name = true <;>
          simp [setEntries, hn, hk, hk', ih]

theorem map_setEntries (rewrite : String → String → String) (name value : String)
    (l : List (String × String)) :
    (setEntries name value l).map (fun a => (a.1, rewrite a.1 a.2)) =
      setEntries name (rewrite name value) (l.map fun a => (a.1, rewrite a.1 a.2)) := by
  induction l with
  | nil => rfl
  | cons e rest ih =>
      rcases e with ⟨n, v⟩
      by_cases hn : n = name <;> simp [setEntries, hn, ih]

/-- The attributes whose names pass a test. -/
def filterNames (keep : String → Bool) (attrs : Attributes) : Attributes :=
  ⟨attrs.entries.filter fun a => keep a.1⟩

/-- The attributes with their values rewritten. -/
def mapValues (rewrite : String → String → String) (attrs : Attributes) : Attributes :=
  ⟨attrs.entries.map fun a => (a.1, rewrite a.1 a.2)⟩

theorem filterNames_set (keep : String → Bool) (attrs : Attributes) (name value : String) :
    (attrs.set name value).filterNames keep =
      if keep name then (attrs.filterNames keep).set name value
      else attrs.filterNames keep := by
  rw [filterNames, set, filter_setEntries]
  split <;> rfl

theorem filterNames_foldl_set (keep : String → Bool) (l : List (String × String))
    (attrs : Attributes) :
    (l.foldl (fun a (n, v) => a.set n v) attrs).filterNames keep =
      (l.filter fun a => keep a.1).foldl (fun a (n, v) => a.set n v) (attrs.filterNames keep) := by
  induction l generalizing attrs with
  | nil => rfl
  | cons e rest ih =>
      rw [List.foldl_cons, ih, filterNames_set]
      cases hk : keep e.1 <;> simp [hk]

theorem mapValues_set (rewrite : String → String → String) (attrs : Attributes)
    (name value : String) :
    (attrs.set name value).mapValues rewrite =
      (attrs.mapValues rewrite).set name (rewrite name value) := by
  rw [mapValues, set, map_setEntries]
  rfl

end Attributes
end RenderForest
