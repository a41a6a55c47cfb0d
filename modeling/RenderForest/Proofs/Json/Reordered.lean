import Mathlib.Data.List.Perm.Basic
import RenderForest.Json.Decode
import RenderForest.Proofs.Tree.Sorted
/-!
# Reordered — JSON values whose fields stand in another order

The order of the fields of an object means nothing, and a value that is kept has the fields of
each object sorted.  This file defines:

* `Value.height`, how deep lists and objects stand in one another;
* `Value.IsSorted`, that the objects of a value are sorted catalogs, at every depth;
* `Value.Reorders`, that two values are the same but for the order of fields, at every depth;

and shows in `isSorted_of_valueAt` that a value that is kept is sorted, and in
`valueAt_of_reorders` that a sorted value is kept as it is, in whatever order its fields stand.
-/

namespace RenderForest
namespace Json
namespace Value

/-! ## Heights -/

mutual

/-- The number of lists and objects that stand in one another. -/
def height : Value → Nat
  | .array items => heightOfItems items + 1
  | .object fields => heightOfFields fields + 1
  | _ => 0

def heightOfItems : List Value → Nat
  | [] => 0
  | v :: rest => max v.height (heightOfItems rest)

def heightOfFields : List (String × Value) → Nat
  | [] => 0
  | (_, v) :: rest => max v.height (heightOfFields rest)

end

theorem height_le_of_mem_items {v : Value} {items : List Value} (h : v ∈ items) :
    v.height ≤ heightOfItems items := by
  induction items with
  | nil => cases h
  | cons first rest ih =>
      rw [heightOfItems]
      rcases List.mem_cons.1 h with rfl | h
      · exact Nat.le_max_left _ _
      · exact (ih h).trans (Nat.le_max_right _ _)

theorem height_le_of_mem_fields {e : String × Value} {fields : List (String × Value)}
    (h : e ∈ fields) : e.2.height ≤ heightOfFields fields := by
  induction fields with
  | nil => cases h
  | cons first rest ih =>
      rw [heightOfFields]
      rcases List.mem_cons.1 h with rfl | h
      · exact Nat.le_max_left _ _
      · exact (ih h).trans (Nat.le_max_right _ _)

theorem height_lt_array {v : Value} {items : List Value} (h : v ∈ items) :
    v.height < (Value.array items).height :=
  Nat.lt_succ_of_le (height_le_of_mem_items h)

theorem height_lt_object {e : String × Value} {fields : List (String × Value)} (h : e ∈ fields) :
    e.2.height < (Value.object fields).height :=
  Nat.lt_succ_of_le (height_le_of_mem_fields h)

/-! ## Sorted values -/

mutual

/-- The fields of each object are sorted by name, at every depth. -/
def IsSorted : Value → Prop
  | .array items => AreSorted items
  | .object fields => Catalog.IsSorted fields ∧ FieldsAreSorted fields
  | _ => True

def AreSorted : List Value → Prop
  | [] => True
  | v :: rest => v.IsSorted ∧ AreSorted rest

def FieldsAreSorted : List (String × Value) → Prop
  | [] => True
  | (_, v) :: rest => v.IsSorted ∧ FieldsAreSorted rest

end

theorem areSorted_iff {items : List Value} : AreSorted items ↔ ∀ v ∈ items, v.IsSorted := by
  induction items with
  | nil => simp [AreSorted]
  | cons v rest ih => simp [AreSorted, ih]

theorem fieldsAreSorted_iff {fields : List (String × Value)} :
    FieldsAreSorted fields ↔ ∀ e ∈ fields, e.2.IsSorted := by
  induction fields with
  | nil => simp [FieldsAreSorted]
  | cons e rest ih => simp [FieldsAreSorted, ih]

/-! ## The order of fields -/

mutual

/-- The first value is the second with the fields of its objects in any order. -/
def Reorders : Value → Value → Prop
  | .array items, w => ∃ items', w = .array items' ∧ ItemsReorder items items'
  | .object fields, w =>
    ∃ met fields', w = .object fields' ∧ FieldsReorder fields met ∧ met.Perm fields'
  | v, w => w = v

def ItemsReorder : List Value → List Value → Prop
  | [], ws => ws = []
  | v :: rest, ws => ∃ w rest', ws = w :: rest' ∧ v.Reorders w ∧ ItemsReorder rest rest'

def FieldsReorder : List (String × Value) → List (String × Value) → Prop
  | [], ws => ws = []
  | (n, v) :: rest, ws =>
    ∃ w rest', ws = (n, w) :: rest' ∧ v.Reorders w ∧ FieldsReorder rest rest'

end

/-- Two fields have one name, and the first value is the second but for the order of fields. -/
def FieldReorders (a b : String × Value) : Prop :=
  a.1 = b.1 ∧ a.2.Reorders b.2

theorem itemsReorder_iff {vs ws : List Value} :
    ItemsReorder vs ws ↔ List.Forall₂ Reorders vs ws := by
  induction vs generalizing ws with
  | nil => simp [ItemsReorder]
  | cons v rest ih =>
      rw [ItemsReorder, List.forall₂_cons_left_iff]
      constructor
      · rintro ⟨w, rest', rfl, hv, hrest⟩
        exact ⟨w, rest', hv, ih.1 hrest, rfl⟩
      · rintro ⟨w, rest', hv, hrest, rfl⟩
        exact ⟨w, rest', rfl, hv, ih.2 hrest⟩

theorem fieldsReorder_iff {vs ws : List (String × Value)} :
    FieldsReorder vs ws ↔ List.Forall₂ FieldReorders vs ws := by
  induction vs generalizing ws with
  | nil => simp [FieldsReorder]
  | cons e rest ih =>
      rcases e with ⟨n, v⟩
      rw [FieldsReorder, List.forall₂_cons_left_iff]
      constructor
      · rintro ⟨w, rest', rfl, hv, hrest⟩
        exact ⟨(n, w), rest', ⟨rfl, hv⟩, ih.1 hrest, rfl⟩
      · rintro ⟨⟨m, w⟩, rest', ⟨rfl, hv⟩, hrest, rfl⟩
        exact ⟨w, rest', rfl, hv, ih.2 hrest⟩

section Inversion

variable {v : Value}

theorem reorders_null : v.Reorders .null ↔ v = .null := by
  cases v <;> simp [Reorders, eq_comm]

theorem reorders_bool {b : Bool} : v.Reorders (.bool b) ↔ v = .bool b := by
  cases v <;> simp [Reorders, eq_comm]

theorem reorders_number {n : Number} : v.Reorders (.number n) ↔ v = .number n := by
  cases v <;> simp [Reorders, eq_comm]

theorem reorders_string {s : String} : v.Reorders (.string s) ↔ v = .string s := by
  cases v <;> simp [Reorders, eq_comm]

theorem reorders_array {ws : List Value} :
    v.Reorders (.array ws) ↔ ∃ vs, v = .array vs ∧ List.Forall₂ Reorders vs ws := by
  cases v <;> simp [Reorders, itemsReorder_iff]

/-- The fields of an object may be put into the order of another before they are compared. -/
theorem reorders_object {ws : List (String × Value)} :
    v.Reorders (.object ws) ↔
      ∃ vs met, v = .object vs ∧ vs.Perm met ∧ List.Forall₂ FieldReorders met ws := by
  constructor
  · intro h
    cases v with
    | object vs =>
        rcases h with ⟨met, ws', heq, hmet, hperm⟩
        cases heq
        -- Comparing and permuting may change places.
        have hcomp : Relation.Comp (List.Forall₂ FieldReorders) List.Perm vs ws :=
          ⟨met, fieldsReorder_iff.1 hmet, hperm⟩
        rw [List.forall₂_comp_perm_eq_perm_comp_forall₂] at hcomp
        rcases hcomp with ⟨met', hperm', hmet'⟩
        exact ⟨vs, met', rfl, hperm', hmet'⟩
    | _ => simp [Reorders] at h
  · rintro ⟨vs, met, rfl, hperm, hmet⟩
    rcases List.perm_comp_forall₂ hperm hmet with ⟨met', hmet', hperm'⟩
    exact ⟨met', ws, rfl, fieldsReorder_iff.2 hmet', hperm'⟩

end Inversion

mutual

theorem Reorders.refl : ∀ v : Value, v.Reorders v
  | .null => rfl
  | .bool _ => rfl
  | .number _ => rfl
  | .string _ => rfl
  | .array items => ⟨items, rfl, ItemsReorder.refl items⟩
  | .object fields => ⟨fields, fields, rfl, FieldsReorder.refl fields, List.Perm.refl _⟩

theorem ItemsReorder.refl : ∀ items : List Value, ItemsReorder items items
  | [] => rfl
  | v :: rest => ⟨v, rest, rfl, Reorders.refl v, ItemsReorder.refl rest⟩

theorem FieldsReorder.refl : ∀ fields : List (String × Value), FieldsReorder fields fields
  | [] => rfl
  | (_, v) :: rest => ⟨v, rest, rfl, Reorders.refl v, FieldsReorder.refl rest⟩

end

/-! ## Drafts of values -/

theorem draftItems_eq (items : List Value) : draftItems items = items.map draft := by
  induction items with
  | nil => rfl
  | cons v rest ih => rw [draftItems, ih, List.map_cons]

theorem draftFields_eq (fields : List (String × Value)) :
    draftFields fields = fields.map fun e => (e.1, e.2.draft) := by
  induction fields with
  | nil => rfl
  | cons e rest ih => rw [draftFields, ih, List.map_cons]

end Value

/-! ## Values that are kept -/

namespace Decoder

open Value

mutual

/-- Whatever is read is kept sorted. -/
theorem isSorted_of_valueAt (levels : Nat) :
    ∀ (d : Draft) (v : Value), valueAt levels d = .ok v → v.IsSorted
  | .null, v, h => by cases h; trivial
  | .bool _, v, h => by cases h; trivial
  | .number _, v, h => by cases h; trivial
  | .string _, v, h => by cases h; trivial
  | .array items stop, v, h => by
    rw [valueAt] at h
    split at h
    · cases h
    · split at h
      · cases h
      · rename_i values hvalues
        split at h
        · cases h
        · cases h
          exact areSorted_of_valuesAt (levels - 1) items values hvalues
  | .object fields stop, v, h => by
    rw [valueAt] at h
    split at h
    · cases h
    · split at h
      · cases h
      · rename_i entries hentries
        split at h
        · cases h
        · cases h
          have hsorted := fieldsAreSorted_of_fieldsAt (levels - 1) fields entries hentries
          refine ⟨Catalog.isSorted_ofEntries entries, fieldsAreSorted_iff.2 ?_⟩
          intro e he
          exact fieldsAreSorted_iff.1 hsorted e (Catalog.mem_ofEntries he)
  | .unreadable _, v, h => by cases h
  | .broken _, v, h => by cases h

theorem areSorted_of_valuesAt (levels : Nat) :
    ∀ (items : List Draft) (vs : List Value), valuesAt levels items = .ok vs → AreSorted vs
  | [], vs, h => by cases h; trivial
  | d :: rest, vs, h => by
    rw [valuesAt] at h
    split at h
    · cases h
    · rename_i v hv
      cases hrest : valuesAt levels rest with
      | error e => rw [hrest] at h; cases h
      | ok vs' =>
          rw [hrest] at h
          cases h
          exact ⟨isSorted_of_valueAt levels d v hv, areSorted_of_valuesAt levels rest vs' hrest⟩

theorem fieldsAreSorted_of_fieldsAt (levels : Nat) :
    ∀ (fields : List (String × Draft)) (es : List (String × Value)),
      fieldsAt levels fields = .ok es → FieldsAreSorted es
  | [], es, h => by cases h; trivial
  | (n, d) :: rest, es, h => by
    rw [fieldsAt] at h
    split at h
    · cases h
    · rename_i v hv
      cases hrest : fieldsAt levels rest with
      | error e => rw [hrest] at h; cases h
      | ok es' =>
          rw [hrest] at h
          cases h
          exact ⟨isSorted_of_valueAt levels d v hv,
            fieldsAreSorted_of_fieldsAt levels rest es' hrest⟩

end

mutual

/-- A sorted value is kept as it is, in whatever order its fields stand. -/
theorem valueAt_of_reorders : ∀ (v w : Value) (levels : Nat), v.Reorders w → w.IsSorted →
    w.height < levels → valueAt levels v.draft = .ok w
  | .null, w, levels, h, _, _ => by cases h; rfl
  | .bool _, w, levels, h, _, _ => by cases h; rfl
  | .number _, w, levels, h, _, _ => by cases h; rfl
  | .string _, w, levels, h, _, _ => by cases h; rfl
  | .array vs, w, levels, h, hsorted, hheight => by
    rcases h with ⟨ws, rfl, hitems⟩
    have hlevels : ¬ levels ≤ 1 := by
      rw [height] at hheight
      omega
    have hws := valuesAt_of_reorder vs ws (levels - 1) hitems fun w hw =>
      ⟨areSorted_iff.1 hsorted w hw, by have := height_lt_array hw; omega⟩
    rw [draft, valueAt, if_neg hlevels, hws]
  | .object vs, w, levels, h, hsorted, hheight => by
    rcases h with ⟨met, ws, rfl, hfields, hperm⟩
    have hlevels : ¬ levels ≤ 1 := by
      rw [height] at hheight
      omega
    have hmet := fieldsAt_of_reorder vs met (levels - 1) hfields fun e he => by
      have hmem := hperm.subset he
      have := height_lt_object hmem
      exact ⟨fieldsAreSorted_iff.1 hsorted.2 e hmem, by omega⟩
    -- The fields that were met are those of the sorted object in another order.
    have hkept : Catalog.ofEntries met = ws := Catalog.ofEntries_of_perm hperm hsorted.1
    rw [draft, valueAt, if_neg hlevels, hmet]
    exact congrArg (fun fields => Except.ok (Value.object fields)) hkept

theorem valuesAt_of_reorder : ∀ (vs ws : List Value) (levels : Nat), ItemsReorder vs ws →
    (∀ w ∈ ws, w.IsSorted ∧ w.height < levels) → valuesAt levels (draftItems vs) = .ok ws
  | [], ws, levels, h, _ => by cases h; rfl
  | v :: rest, ws, levels, h, hws => by
    rcases h with ⟨w, rest', rfl, hv, hrest⟩
    rcases List.forall_mem_cons.1 hws with ⟨⟨hsorted, hheight⟩, hws'⟩
    rw [draftItems, valuesAt, valueAt_of_reorders v w levels hv hsorted hheight,
      valuesAt_of_reorder rest rest' levels hrest hws']
    rfl

theorem fieldsAt_of_reorder : ∀ (vs ws : List (String × Value)) (levels : Nat),
    FieldsReorder vs ws → (∀ e ∈ ws, e.2.IsSorted ∧ e.2.height < levels) →
      fieldsAt levels (draftFields vs) = .ok ws
  | [], ws, levels, h, _ => by cases h; rfl
  | (n, v) :: rest, ws, levels, h, hws => by
    rcases h with ⟨w, rest', rfl, hv, hrest⟩
    rcases List.forall_mem_cons.1 hws with ⟨⟨hsorted, hheight⟩, hws'⟩
    rw [draftFields, fieldsAt, valueAt_of_reorders v w levels hv hsorted hheight,
      fieldsAt_of_reorder rest rest' levels hrest hws']
    rfl

end

end Decoder
end Json
end RenderForest
