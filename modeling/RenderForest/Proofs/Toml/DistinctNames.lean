import RenderForest.Proofs.Tree.Sorted
import RenderForest.Toml.Document
/-!
# DistinctNames — no table of a document names a key twice

A table may be written in several places, by headers, dotted keys and braces, and each of them adds
to what is there.  This file defines:

* `Toml.Item.IsDistinct`, that no table of an item names a key twice, however deep it stands;
* `Toml.Entries.IsDistinct`, the same of the entries of a table;

and shows in `isDistinct_read` that every document is such a table.
-/

namespace RenderForest
namespace Toml

/-- No table of an item, at any depth, names a key twice. -/
inductive Item.IsDistinct : Item → Prop where
  | text (s : String) : IsDistinct (.text s)
  | flag (b : Bool) : IsDistinct (.flag b)
  | scalar : IsDistinct .scalar
  | list {items : List Item} : (∀ i ∈ items, IsDistinct i) → IsDistinct (.list items)
  | table {entries : Entries} (origin : Origin) : (entries.map Prod.fst).Nodup →
      (∀ e ∈ entries, IsDistinct e.2) → IsDistinct (.table origin entries)
  | tables {all : List Entries} : (∀ entries ∈ all, (entries.map Prod.fst).Nodup) →
      (∀ entries ∈ all, ∀ e ∈ entries, IsDistinct e.2) → IsDistinct (.tables all)

/-- A table names no key twice, and neither does any table inside. -/
structure Entries.IsDistinct (entries : Entries) : Prop where
  names : (entries.map Prod.fst).Nodup
  items : ∀ e ∈ entries, e.2.IsDistinct

namespace Entries

variable {entries : Entries} {key : String} {item : Item}

theorem isDistinct_nil : IsDistinct [] where
  names := List.nodup_nil
  items := List.forall_mem_nil _

theorem IsDistinct.table (h : entries.IsDistinct) (origin : Origin) :
    (Item.table origin entries).IsDistinct :=
  .table origin h.names h.items

theorem isDistinct_of_table {origin : Origin} (h : (Item.table origin entries).IsDistinct) :
    entries.IsDistinct := by
  cases h with
  | table _ names items => exact ⟨names, items⟩

theorem isDistinct_of_tables {all : List Entries} (h : (Item.tables all).IsDistinct) :
    ∀ entries ∈ all, entries.IsDistinct := by
  cases h with
  | tables names items => exact fun entries hmem => ⟨names entries hmem, items entries hmem⟩

theorem isDistinct_tables {all : List Entries} (h : ∀ entries ∈ all, entries.IsDistinct) :
    (Item.tables all).IsDistinct :=
  .tables (fun entries hmem => (h entries hmem).names) fun entries hmem => (h entries hmem).items

/-! ## Looking up and setting -/

theorem mem_of_get? (h : entries.get? key = some item) : (key, item) ∈ entries :=
  Catalog.mem_of_lookup h

theorem IsDistinct.get? (h : entries.IsDistinct) (hitem : entries.get? key = some item) :
    item.IsDistinct :=
  h.items _ (mem_of_get? hitem)

/-- Setting an item changes no name, or adds one that is new. -/
theorem names_put (entries : Entries) (key : String) (item : Item) :
    (entries.put key item).map Prod.fst =
      if key ∈ entries.map Prod.fst then entries.map Prod.fst
      else entries.map Prod.fst ++ [key] := by
  induction entries with
  | nil => rfl
  | cons e rest ih =>
      rcases e with ⟨name, other⟩
      rw [put]
      split
      · rename_i hname
        have heq : name = key := by simpa using hname
        simp [heq]
      · rename_i hname
        have hne : key ≠ name := by
          rintro rfl
          simp at hname
        have hiff : key ∈ name :: rest.map Prod.fst ↔ key ∈ rest.map Prod.fst := by simp [hne]
        simp only [List.map_cons, ih, hiff]
        split
        · rfl
        · rfl

theorem mem_put {e : String × Item} (he : e ∈ entries.put key item) :
    e ∈ entries ∨ e.2 = item := by
  induction entries with
  | nil => exact Or.inr (congrArg Prod.snd (List.mem_singleton.1 he))
  | cons other rest ih =>
      rw [put] at he
      split at he
      · rcases List.mem_cons.1 he with rfl | he
        · exact Or.inr rfl
        · exact Or.inl (List.mem_cons_of_mem _ he)
      · rcases List.mem_cons.1 he with rfl | he
        · exact Or.inl List.mem_cons_self
        · exact (ih he).imp_left (List.mem_cons_of_mem _)

theorem IsDistinct.put (h : entries.IsDistinct) (hitem : item.IsDistinct) :
    (entries.put key item).IsDistinct where
  names := by
    rw [names_put]
    split
    · exact h.names
    · rename_i hmem
      apply List.nodup_append.2
      refine ⟨h.names, List.nodup_cons.2 ⟨List.not_mem_nil, List.nodup_nil⟩, ?_⟩
      rintro name hname _ hkey rfl
      rw [List.mem_singleton.1 hkey] at hname
      exact hmem hname
  items := by
    intro e he
    rcases mem_put he with hold | hnew
    · exact h.items e hold
    · exact hnew ▸ hitem

/-! ## Going down -/

theorem IsDistinct.within? {f : Entries → Option Entries}
    (hf : ∀ es es', IsDistinct es → f es = some es' → es'.IsDistinct) {path : List String}
    {entries entries' : Entries} (h : entries.IsDistinct)
    (hwithin : entries.within? f path = some entries') : entries'.IsDistinct := by
  induction path generalizing entries entries' with
  | nil => exact hf _ _ h hwithin
  | cons key path ih =>
      rw [Entries.within?] at hwithin
      -- A missing table, one that is closed, one that is open, the last of several, and no table.
      split at hwithin
      · rcases Option.map_eq_some_iff.1 hwithin with ⟨es, hes, rfl⟩
        exact h.put ((ih isDistinct_nil hes).table _)
      · cases hwithin
      · rename_i origin es _ hget
        rcases Option.map_eq_some_iff.1 hwithin with ⟨es', hes, rfl⟩
        exact h.put ((ih (isDistinct_of_table (h.get? hget)) hes).table _)
      · rename_i last others hget
        rcases Option.map_eq_some_iff.1 hwithin with ⟨es', hes, rfl⟩
        rcases List.forall_mem_cons.1 (isDistinct_of_tables (h.get? hget)) with ⟨hlast, hothers⟩
        exact h.put (isDistinct_tables (List.forall_mem_cons.2 ⟨ih hlast hes, hothers⟩))
      · cases hwithin

theorem IsDistinct.add? (h : entries.IsDistinct) (hitem : item.IsDistinct) {entries' : Entries}
    (hadd : entries.add? key item = some entries') : entries'.IsDistinct := by
  rw [Entries.add?] at hadd
  split at hadd
  · cases hadd
    exact h.put hitem
  · cases hadd

theorem IsDistinct.insertBelow? (hitem : item.IsDistinct) {path : List String} {origin : Origin}
    {entries entries' : Entries} (h : entries.IsDistinct)
    (hinsert : insertBelow? key item origin path entries = some entries') :
    entries'.IsDistinct := by
  induction path generalizing origin entries entries' with
  | nil =>
      rw [Entries.insertBelow?] at hinsert
      split at hinsert
      · exact h.add? hitem hinsert
      · cases hinsert
  | cons name path ih =>
      rw [Entries.insertBelow?] at hinsert
      -- A missing table, the two kinds that may be entered, the last of several, and no table.
      split at hinsert
      · rcases Option.map_eq_some_iff.1 hinsert with ⟨es, hes, rfl⟩
        exact h.put ((ih isDistinct_nil hes).table _)
      · rename_i es hget
        rcases Option.map_eq_some_iff.1 hinsert with ⟨es', hes, rfl⟩
        exact h.put ((ih (isDistinct_of_table (h.get? hget)) hes).table _)
      · rename_i es hget
        rcases Option.map_eq_some_iff.1 hinsert with ⟨es', hes, rfl⟩
        exact h.put ((ih (isDistinct_of_table (h.get? hget)) hes).table _)
      · rename_i last others hget
        rcases Option.map_eq_some_iff.1 hinsert with ⟨es', hes, rfl⟩
        rcases List.forall_mem_cons.1 (isDistinct_of_tables (h.get? hget)) with ⟨hlast, hothers⟩
        exact h.put (isDistinct_tables (List.forall_mem_cons.2 ⟨ih hlast hes, hothers⟩))
      · cases hinsert

theorem IsDistinct.insert? (h : entries.IsDistinct) (hitem : item.IsDistinct)
    {path : List String} {entries' : Entries}
    (hinsert : entries.insert? path key item = some entries') : entries'.IsDistinct := by
  unfold Entries.insert? at hinsert
  split at hinsert
  · exact h.add? hitem hinsert
  · exact h.insertBelow? hitem hinsert

theorem IsDistinct.open? (h : entries.IsDistinct) {path : List String} {entries' : Entries}
    (hopen : entries.open? path key = some entries') : entries'.IsDistinct := by
  refine h.within? ?_ hopen
  intro es es' hes hlast
  split at hlast
  · cases hlast
    exact hes.put (isDistinct_nil.table _)
  · rename_i inner hget
    cases hlast
    exact hes.put ((isDistinct_of_table (hes.get? hget)).table _)
  · cases hlast

theorem IsDistinct.append? (h : entries.IsDistinct) {path : List String} {entries' : Entries}
    (happend : entries.append? path key = some entries') : entries'.IsDistinct := by
  refine h.within? ?_ happend
  intro es es' hes hlast
  split at hlast
  · cases hlast
    exact hes.put (isDistinct_tables (by simpa using isDistinct_nil))
  · rename_i all hget
    cases hlast
    refine hes.put (isDistinct_tables (List.forall_mem_cons.2 ⟨isDistinct_nil, ?_⟩))
    exact isDistinct_of_tables (hes.get? hget)
  · cases hlast

end Entries

/-! ## Reading -/

namespace Document

/-- What is read with some fuel names no key twice. -/
structure ReadsDistinct (fuel : Nat) : Prop where
  value : ∀ depth s item rest, readValue? fuel depth s = some (item, rest) → item.IsDistinct
  items : ∀ depth s items rest, readItems? fuel depth s = some (items, rest) →
    ∀ i ∈ items, i.IsDistinct
  entries : ∀ depth (entries : Entries) s entries' rest, entries.IsDistinct →
    readEntries? fuel depth entries s = some (entries', rest) → entries'.IsDistinct

theorem ReadsDistinct.succ_value {fuel : Nat} (ih : ReadsDistinct fuel) {depth : Nat}
    {s rest : List Char} {item : Item}
    (h : readValue? (fuel + 1) depth s = some (item, rest)) : item.IsDistinct := by
  unfold readValue? at h
  -- A list, a table, a text in either quotes, a truth value and a scalar.
  split at h
  · split at h
    · cases h
    · rcases Option.map_eq_some_iff.1 h with ⟨⟨items, after⟩, hitems, heq⟩
      cases heq
      exact .list (ih.items _ _ _ _ hitems)
  · split at h
    · cases h
    · split at h
      · cases h
        exact Entries.isDistinct_nil.table _
      · rcases Option.map_eq_some_iff.1 h with ⟨⟨entries, after⟩, hentries, heq⟩
        cases heq
        exact (ih.entries _ _ _ _ _ Entries.isDistinct_nil hentries).table _
  · rcases Option.map_eq_some_iff.1 h with ⟨_, _, heq⟩
    cases heq
    exact .text _
  · rcases Option.map_eq_some_iff.1 h with ⟨_, _, heq⟩
    cases heq
    exact .text _
  · cases h
    exact .flag _
  · cases h
    exact .flag _
  · rcases Option.map_eq_some_iff.1 h with ⟨_, _, heq⟩
    cases heq
    exact .scalar

theorem ReadsDistinct.succ_items {fuel : Nat} (ih : ReadsDistinct fuel) {depth : Nat}
    {s rest : List Char} {items : List Item}
    (h : readItems? (fuel + 1) depth s = some (items, rest)) : ∀ i ∈ items, i.IsDistinct := by
  unfold readItems? at h
  split at h
  · cases h
    exact List.forall_mem_nil _
  · rcases Option.bind_eq_some_iff.1 h with ⟨⟨item, after⟩, hitem, hrest⟩
    have hfirst := ih.value _ _ _ _ hitem
    dsimp only at hrest
    -- Behind an item stands a comma or the end of the list.
    split at hrest
    · rcases Option.map_eq_some_iff.1 hrest with ⟨⟨others, tail⟩, hothers, heq⟩
      cases heq
      exact List.forall_mem_cons.2 ⟨hfirst, ih.items _ _ _ _ hothers⟩
    · cases hrest
      simpa using hfirst
    · cases hrest

theorem ReadsDistinct.succ_entries {fuel : Nat} (ih : ReadsDistinct fuel) {depth : Nat}
    {s rest : List Char} {entries entries' : Entries} (hentries : entries.IsDistinct)
    (h : readEntries? (fuel + 1) depth entries s = some (entries', rest)) :
    entries'.IsDistinct := by
  unfold readEntries? at h
  rcases Option.bind_eq_some_iff.1 h with ⟨⟨path, key, after⟩, _, hvalue⟩
  dsimp only at hvalue
  split at hvalue
  · rcases Option.bind_eq_some_iff.1 hvalue with ⟨⟨item, tail⟩, hitem, hinsert⟩
    rcases Option.bind_eq_some_iff.1 hinsert with ⟨entries'', hadded, hmore⟩
    have hdistinct := hentries.insert? (ih.value _ _ _ _ hitem) hadded
    dsimp only at hmore
    -- Behind an entry stands a comma or the end of the table.
    split at hmore
    · exact ih.entries _ _ _ _ _ hdistinct hmore
    · cases hmore
      exact hdistinct
    · cases hmore
  · cases hvalue

theorem readsDistinct (fuel : Nat) : ReadsDistinct fuel := by
  -- The readers of values, lists and tables hand one unit of fuel less to each other.
  induction fuel with
  | zero =>
      constructor
      · intro depth s item rest h
        rw [readValue?] at h
        cases h
      · intro depth s items rest h
        rw [readItems?] at h
        cases h
      · intro depth entries s entries' rest _ h
        rw [readEntries?] at h
        cases h
  | succ fuel ih =>
      constructor
      · intro depth s item rest h
        exact ih.succ_value h
      · intro depth s items rest h
        exact ih.succ_items h
      · intro depth entries s entries' rest hentries h
        exact ih.succ_entries hentries h

/-! ## Lines -/

variable {state state' : State} {s rest : List Char}

theorem isDistinct_readHeader? (hstate : state.root.IsDistinct)
    (h : readHeader? state s = some (state', rest)) : state'.root.IsDistinct := by
  unfold readHeader? at h
  -- A header of a table that is one of several, and one of a single table.
  split at h
  · rcases Option.bind_eq_some_iff.1 h with ⟨⟨path, key, after⟩, _, hclose⟩
    rcases Option.bind_eq_some_iff.1 hclose with ⟨_, _, happend⟩
    rcases Option.bind_eq_some_iff.1 happend with ⟨root, hroot, hend⟩
    rcases Option.bind_eq_some_iff.1 hend with ⟨_, _, heq⟩
    cases heq
    exact hstate.append? hroot
  · rcases Option.bind_eq_some_iff.1 h with ⟨⟨path, key, after⟩, _, hclose⟩
    rcases Option.bind_eq_some_iff.1 hclose with ⟨_, _, hopen⟩
    rcases Option.bind_eq_some_iff.1 hopen with ⟨root, hroot, hend⟩
    rcases Option.bind_eq_some_iff.1 hend with ⟨_, _, heq⟩
    cases heq
    exact hstate.open? hroot

theorem isDistinct_readAssignment? (hstate : state.root.IsDistinct)
    (h : readAssignment? state s = some (state', rest)) : state'.root.IsDistinct := by
  unfold readAssignment? at h
  simp only [bind, Option.bind_eq_some_iff] at h
  rcases h with ⟨_, _, _, _, item, hitem, _, _, root, hroot, heq⟩
  cases heq
  refine hstate.within? ?_ hroot
  intro es es' hes hinsert
  exact hes.insert? ((readsDistinct _).value _ _ _ _ hitem) hinsert

/-- Each line keeps the table of a document distinct. -/
theorem isDistinct_readLines? {fuel : Nat} {entries : Entries} (hstate : state.root.IsDistinct)
    (h : readLines? fuel state s = some entries) : entries.IsDistinct := by
  induction fuel generalizing state s with
  | zero =>
      rw [readLines?] at h
      cases h
  | succ fuel ih =>
      rw [readLines?] at h
      -- The end of the document, a comment, a header, an empty line and a key with its value.
      split at h
      · cases h
        exact hstate
      · rcases Option.bind_eq_some_iff.1 h with ⟨_, _, hrest⟩
        exact ih hstate hrest
      · rcases Option.bind_eq_some_iff.1 h with ⟨⟨state', _⟩, hheader, hrest⟩
        exact ih (isDistinct_readHeader? hstate hheader) hrest
      · split at h
        · exact ih hstate h
        · rcases Option.bind_eq_some_iff.1 h with ⟨⟨state', _⟩, hassignment, hrest⟩
          exact ih (isDistinct_readAssignment? hstate hassignment) hrest

end Document

/-- No table of a document names a key twice. -/
theorem isDistinct_read {text : String} {entries : Entries} (h : read? text = some entries) :
    entries.IsDistinct :=
  Document.isDistinct_readLines? Entries.isDistinct_nil h

end Toml
end RenderForest
