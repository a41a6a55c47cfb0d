import Mathlib.Data.List.Nodup
import Mathlib.Data.List.Perm.Basic
import Mathlib.Data.String.Basic
import RenderForest.Catalog
/-!
# Sorted — what storing entries in a catalog leaves

A catalog that entries are stored in one after another is sorted by name, and so holds each name
once.  This file defines:

* `Catalog.IsSorted`;

and shows in `lookup_ofEntries` that the last of several entries of a name stays, and in
`ofEntries_of_perm` that the entries of a sorted catalog make it again in whatever order they are
stored.
-/

namespace RenderForest
namespace Catalog

variable {α : Type} {c : Catalog α} {name : String} {value : α} {l : List (String × α)}

/-- The entries stand in the order of their names, and no name is repeated. -/
def IsSorted (c : Catalog α) : Prop :=
  c.Pairwise fun a b => a.1 < b.1

theorem isSorted_nil : IsSorted ([] : Catalog α) :=
  List.Pairwise.nil

/-! ## Storing one entry -/

theorem mem_insert {e : String × α} (h : e ∈ insert name value c) : e = (name, value) ∨ e ∈ c := by
  induction c with
  | nil => exact .inl (List.mem_singleton.1 h)
  | cons first rest ih =>
      rcases first with ⟨n, v⟩
      rw [insert] at h
      -- The entry replaces the first, stands before it, or goes on.
      split at h
      · rename_i hname
        rcases List.mem_cons.1 h with rfl | h
        · exact .inl (by rw [eq_of_beq hname])
        · exact .inr (List.mem_cons_of_mem _ h)
      · split at h
        · exact List.mem_cons.1 h
        · rcases List.mem_cons.1 h with rfl | h
          · exact .inr List.mem_cons_self
          · rcases ih h with h | h
            · exact .inl h
            · exact .inr (List.mem_cons_of_mem _ h)

theorem IsSorted.insert (h : c.IsSorted) (name : String) (value : α) :
    (insert name value c).IsSorted := by
  induction c with
  | nil => exact List.pairwise_singleton _ _
  | cons first rest ih =>
      rcases first with ⟨n, v⟩
      rcases List.pairwise_cons.1 h with ⟨hfirst, hrest⟩
      rw [Catalog.insert]
      split
      · exact List.pairwise_cons.2 ⟨hfirst, hrest⟩
      · rename_i hne
        split
        · -- What is greater than the first name is greater than the new one.
          rename_i hlt
          refine List.pairwise_cons.2 ⟨?_, h⟩
          intro e he
          rcases List.mem_cons.1 he with rfl | he
          · exact hlt
          · exact lt_trans hlt (hfirst e he)
        · rename_i hnlt
          have hgt : n < name := by
            have hne' : n ≠ name := fun heq => hne (by simp [heq])
            exact lt_of_le_of_ne (not_lt.1 hnlt) hne'
          refine List.pairwise_cons.2 ⟨?_, ih hrest⟩
          intro e he
          rcases mem_insert he with rfl | he
          · exact hgt
          · exact hfirst e he

/-- The first entry of a name is found. -/
theorem lookup_cons (e : String × α) (rest : List (String × α)) (name : String) :
    (e :: rest).lookup name = if name = e.1 then some e.2 else rest.lookup name := by
  by_cases h : name = e.1
  · rw [if_pos h, h, List.lookup_cons_self]
  · have hne : (name == e.1) = false := by
      simpa using h
    rw [if_neg h, List.lookup_cons, hne]

/-- What is found under a key is an entry. -/
theorem mem_of_lookup {κ : Type} [BEq κ] [LawfulBEq κ] {entries : List (κ × α)} {key : κ}
    (h : entries.lookup key = some value) : (key, value) ∈ entries := by
  rcases List.lookup_eq_some_iff.1 h with ⟨before, after, hsplit, _⟩
  rw [hsplit]
  exact List.mem_append_right _ List.mem_cons_self

/-- Dropping entries of other names changes nothing under a name. -/
theorem lookup_filter_name (keep : String → Bool) {n : String} (hn : keep n = true)
    (l : List (String × α)) : (l.filter fun a => keep a.1).lookup n = l.lookup n := by
  induction l with
  | nil => rfl
  | cons e rest ih =>
      rw [List.filter_cons]
      split
      · rw [lookup_cons, lookup_cons, ih]
      · rename_i he
        rw [lookup_cons, ih, if_neg]
        rintro rfl
        exact he hn

/-- Storing an entry changes what is found under its own name and no other. -/
theorem lookup_insert (name other : String) (value : α) (c : Catalog α) :
    (insert name value c).lookup other =
      if other = name then some value else c.lookup other := by
  induction c with
  | nil => exact lookup_cons _ _ _
  | cons first rest ih =>
      rcases first with ⟨n, v⟩
      rw [insert]
      split
      · -- The value of the first entry is replaced.
        rename_i hname
        rw [eq_of_beq hname, lookup_cons, lookup_cons]
        split <;> rfl
      · split
        · exact lookup_cons _ _ _
        · rename_i hne _
          have hne' : name ≠ n := fun heq => hne (by simp [heq])
          rw [lookup_cons, lookup_cons, ih]
          by_cases hn : other = n
          · rw [if_pos hn, if_pos hn, if_neg fun h => hne' (h.symm.trans hn)]
          · rw [if_neg hn, if_neg hn]

/-- A new name brings one more entry. -/
theorem insert_perm (h : name ∉ c.map Prod.fst) (value : α) :
    (insert name value c).Perm ((name, value) :: c) := by
  induction c with
  | nil => exact List.Perm.refl _
  | cons first rest ih =>
      rcases first with ⟨n, v⟩
      rw [List.map_cons, List.mem_cons, not_or] at h
      have hname : (name == n) = false := by
        simpa using h.1
      rw [insert, hname]
      simp only [Bool.false_eq_true, if_false]
      split
      · exact List.Perm.refl _
      · exact ((ih h.2).cons _).trans (List.Perm.swap _ _ _)

/-! ## Storing many entries -/

theorem mem_ofEntries {e : String × α} (h : e ∈ ofEntries l) : e ∈ l := by
  -- An entry that is left was stored at some time.
  have hfrom : ∀ e ∈ ofEntries l, e ∈ l := by
    refine List.foldlRecOn (motive := fun c => ∀ e ∈ c, e ∈ l) l _ (fun _ he => by cases he) ?_
    intro c hc new hnew e he
    rcases mem_insert he with rfl | he
    · exact hnew
    · exact hc e he
  exact hfrom e h

theorem isSorted_foldl (h : c.IsSorted) (l : List (String × α)) :
    (l.foldl (fun c (n, v) => insert n v c) c).IsSorted :=
  List.foldlRecOn l _ h fun _ hc e _ => hc.insert e.1 e.2

theorem isSorted_ofEntries (l : List (String × α)) : (ofEntries l).IsSorted :=
  isSorted_foldl isSorted_nil l

theorem lookup_foldl (l : List (String × α)) (c : Catalog α) (name : String) :
    (l.foldl (fun c (n, v) => insert n v c) c).lookup name =
      (l.reverse.lookup name).or (c.lookup name) := by
  induction l generalizing c with
  | nil => rfl
  | cons e rest ih =>
      rw [List.foldl_cons, ih, lookup_insert, List.reverse_cons, List.lookup_append,
        Option.or_assoc, lookup_cons, List.lookup_nil]
      split <;> rfl

/-- Of several entries of a name the last is found. -/
theorem lookup_ofEntries (l : List (String × α)) (name : String) :
    (ofEntries l).lookup name = l.reverse.lookup name := by
  rw [ofEntries, lookup_foldl, List.lookup_nil, Option.or_none]

theorem foldl_perm (h : (c.map Prod.fst ++ l.map Prod.fst).Nodup) :
    (l.foldl (fun c (n, v) => insert n v c) c).Perm (c ++ l) := by
  induction l generalizing c with
  | nil => simp
  | cons e rest ih =>
      have hnew : e.1 ∉ c.map Prod.fst := by
        intro hmem
        exact (List.nodup_append.1 h).2.2 e.1 hmem e.1 List.mem_cons_self rfl
      -- The name is new now, and the names of the rest are still new behind it.
      have hperm := insert_perm hnew e.2
      have hmiddle : (c ++ e :: rest).Perm (e :: c ++ rest) := List.perm_middle
      refine (ih ?_).trans ((hperm.append_right rest).trans hmiddle.symm)
      have hnames : (c.map Prod.fst ++ (e :: rest).map Prod.fst).Perm
          ((insert e.1 e.2 c).map Prod.fst ++ rest.map Prod.fst) := by
        rw [← List.map_append, ← List.map_append]
        exact (hmiddle.trans (hperm.symm.append_right rest)).map Prod.fst
      exact hnames.nodup_iff.1 h

theorem IsSorted.nodup (h : c.IsSorted) : (c.map Prod.fst).Nodup :=
  List.pairwise_map.2 (h.imp fun hlt => ne_of_lt hlt)

/-- The entries of a sorted catalog make it again, in whatever order they are stored. -/
theorem ofEntries_of_perm (h : l.Perm c) (hc : c.IsSorted) : ofEntries l = c := by
  have hnodup : (l.map Prod.fst).Nodup := (h.map Prod.fst).nodup_iff.2 hc.nodup
  have hperm : (ofEntries l).Perm c := (foldl_perm (by simpa using hnodup)).trans h
  refine List.Perm.eq_of_pairwise ?_ (isSorted_ofEntries l) hc hperm
  intro a b _ _ hab hba
  exact absurd hba (lt_asymm hab)

end Catalog
end RenderForest
