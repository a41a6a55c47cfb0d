import RenderForest.Markup.Policy
import RenderForest.Proofs.Tree.Writable
/-!
# Stored — the attributes that the reader of a tag collects

The reader stores attributes one after another; of several with one name the last counts, and
`id` and `class` are kept apart.  This file defines:

* `Markup.decodeEntry`, the attribute that a stored one stands for;
* `Markup.RawAttributes.storeAll`, attributes stored one after another;
* `Markup.RawAttributes.IsNameless`, that an attribute without a name was stored;

and shows in `mayBeWritten_storeAll` that what was collected may be written when the same
attributes may, set one after another.
-/

namespace RenderForest
namespace Markup

/-- The attribute that a stored one stands for. -/
def decodeEntry (a : String × Option String) : String × String :=
  (a.1, Text.decode (a.2.getD ""))

theorem map_storeNamed (name : String) (value : Option String)
    (l : List (String × Option String)) :
    (storeNamed name value l).map decodeEntry =
      Attributes.setEntries name (Text.decode (value.getD "")) (l.map decodeEntry) := by
  induction l with
  | nil => rfl
  | cons e rest ih =>
      rcases e with ⟨n, v⟩
      by_cases hn : n = name <;> simp [storeNamed, Attributes.setEntries, decodeEntry, hn, ih]

namespace RawAttributes

/-- Stores attributes one after another. -/
def storeAll (raw : RawAttributes) (l : List (String × Option String)) : RawAttributes :=
  l.foldl (fun raw (n, v) => raw.store n v) raw

theorem storeAll_cons (raw : RawAttributes) (n : String) (v : Option String)
    (l : List (String × Option String)) :
    raw.storeAll ((n, v) :: l) = (raw.store n v).storeAll l := rfl

theorem storeAll_append (raw : RawAttributes) (l l' : List (String × Option String)) :
    raw.storeAll (l ++ l') = (raw.storeAll l).storeAll l' :=
  List.foldl_append

/-- What the attributes with names of their own stand for. -/
def ownAttributes (raw : RawAttributes) : Attributes :=
  ⟨raw.named.map decodeEntry⟩

theorem ownAttributes_store (raw : RawAttributes) (name : String) (value : Option String) :
    (raw.store name value).ownAttributes =
      if name = "id" ∨ name = "class" then raw.ownAttributes
      else raw.ownAttributes.set name (Text.decode (value.getD "")) := by
  by_cases hid : name = "id"
  · simp [store, hid, ownAttributes]
  · by_cases hclass : name = "class"
    · simp [store, hclass, ownAttributes]
    · simp [store, hid, hclass, ownAttributes, Attributes.set, map_storeNamed]

theorem nodup_ownAttributes_store {raw : RawAttributes}
    (h : (Attributes.names raw.ownAttributes.entries).Nodup) (name : String)
    (value : Option String) :
    (Attributes.names (raw.store name value).ownAttributes.entries).Nodup := by
  rw [ownAttributes_store]
  split
  · exact h
  · exact Attributes.nodup_names_setEntries h

theorem nodup_ownAttributes_storeAll {raw : RawAttributes}
    (h : (Attributes.names raw.ownAttributes.entries).Nodup)
    (l : List (String × Option String)) :
    (Attributes.names (raw.storeAll l).ownAttributes.entries).Nodup := by
  induction l generalizing raw with
  | nil => exact h
  | cons e rest ih => exact ih (nodup_ownAttributes_store h e.1 e.2)

/-! ## Risky attributes -/

/-- `id` and `class` are not risky, so that they may as well be set like the others. -/
theorem risky_store (raw : RawAttributes) (name : String) (value : Option String) :
    (raw.store name value).ownAttributes.filterNames Safety.isRisky =
      (raw.ownAttributes.set name (Text.decode (value.getD ""))).filterNames Safety.isRisky := by
  rw [ownAttributes_store]
  split
  · rename_i hname
    -- What was not stored with the others would be dropped.
    have hplain : Safety.isRisky name = false := by
      rcases hname with rfl | rfl <;> decide
    rw [Attributes.filterNames_set, hplain]
    rfl
  · rfl

theorem risky_storeAll (raw : RawAttributes) (l : List (String × Option String)) :
    (raw.storeAll l).ownAttributes.filterNames Safety.isRisky =
      ((l.map decodeEntry).foldl (fun a (n, v) => a.set n v) raw.ownAttributes).filterNames
        Safety.isRisky := by
  induction l generalizing raw with
  | nil => rfl
  | cons e rest ih =>
      rcases e with ⟨name, value⟩
      rw [storeAll_cons, ih, Attributes.filterNames_foldl_set, risky_store]
      exact (Attributes.filterNames_foldl_set _ _ _).symm

theorem toAttributes_trusted (raw : RawAttributes) :
    raw.toAttributes .trusted =
      (raw.toList.map decodeEntry).foldl (fun a (n, v) => a.set n v) .empty := by
  rw [List.foldl_map]
  rfl

theorem risky_toAttributes {raw : RawAttributes}
    (h : (Attributes.names raw.ownAttributes.entries).Nodup) :
    (raw.toAttributes .trusted).filterNames Safety.isRisky =
      raw.ownAttributes.filterNames Safety.isRisky := by
  have hown : (raw.named.map decodeEntry).foldl (fun a (n, v) => a.set n v) .empty =
      raw.ownAttributes :=
    Attributes.foldl_set_of_nodup (by simpa [ownAttributes, Attributes.empty] using h)
  have hid : Safety.isRisky "id" = false := by decide
  have hclass : Safety.isRisky "class" = false := by decide
  -- The entries of `id` and `class` come last, and are dropped again.
  rw [toAttributes_trusted, toList, List.map_append, List.map_append, List.foldl_append,
    List.foldl_append, hown, Attributes.filterNames_foldl_set, Attributes.filterNames_foldl_set]
  cases raw.ident <;> cases raw.classes <;> simp [decodeEntry, hid, hclass]

/-- What a tag collects may be written when the attributes that it stored may, set one after
another. -/
theorem mayBeWritten_storeAll (l : List (String × Option String)) :
    ((({} : RawAttributes).storeAll l).toAttributes .trusted).MayBeWritten ↔
      (Attributes.ofList (l.map decodeEntry)).MayBeWritten := by
  have hnodup : (Attributes.names ({} : RawAttributes).ownAttributes.entries).Nodup :=
    List.nodup_nil
  rw [← Attributes.mayBeWritten_filterNames, risky_toAttributes
    (nodup_ownAttributes_storeAll hnodup l), risky_storeAll, Attributes.mayBeWritten_filterNames]
  rfl

/-! ## Attributes without a name -/

/-- An attribute without a name was stored. -/
def IsNameless (raw : RawAttributes) : Prop :=
  "" ∈ Attributes.names raw.ownAttributes.entries

theorem isNameless_store (raw : RawAttributes) (value : Option String) :
    (raw.store "" value).IsNameless := by
  -- No name is neither `id` nor `class`.
  rw [IsNameless, ownAttributes_store, if_neg (by decide)]
  exact Attributes.mem_names_setEntries.2 (Or.inl rfl)

theorem IsNameless.store {raw : RawAttributes} (h : raw.IsNameless) (name : String)
    (value : Option String) : (raw.store name value).IsNameless := by
  rw [IsNameless, ownAttributes_store]
  split
  · exact h
  · exact Attributes.mem_names_setEntries.2 (Or.inr h)

theorem IsNameless.storeAll {raw : RawAttributes} (h : raw.IsNameless)
    (l : List (String × Option String)) : (raw.storeAll l).IsNameless := by
  induction l generalizing raw with
  | nil => exact h
  | cons e rest ih => exact ih (h.store e.1 e.2)

/-- No name is not a valid name. -/
theorem IsNameless.not_mayBeWritten {raw : RawAttributes} (h : raw.IsNameless) :
    ¬ (raw.toAttributes .trusted).MayBeWritten := by
  intro hwritten
  -- Trusted attributes keep every name that was stored.
  have hmem : "" ∈ Attributes.names (raw.toAttributes .trusted).entries := by
    rw [toAttributes_trusted, Attributes.mem_names_foldl_set]
    refine Or.inr ?_
    rw [toList, List.map_append, List.map_append, Attributes.names, List.map_append,
      List.map_append]
    exact List.mem_append_left _ (List.mem_append_left _ h)
  rcases List.mem_map.1 hmem with ⟨a, ha, hname⟩
  have hvalid := hwritten.valid a ha
  rw [hname] at hvalid
  revert hvalid
  decide

end RawAttributes
end Markup
end RenderForest
