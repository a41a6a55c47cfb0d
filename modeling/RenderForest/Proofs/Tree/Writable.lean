import RenderForest.Proofs.Tree.Entries
import RenderForest.Safety
/-!
# Writable — attributes that may be written

This file defines:

* `Attributes.IsSafe` and `Attributes.HasValidNames`, that all values are safe and all names
  valid, and `Attributes.MayBeWritten`, that both are so;
* `Safety.isRisky`, the names whose attributes may be refused;

and shows in `mayBeWritten_filterNames` that only risky names decide.
-/

namespace RenderForest

/-! ## Values that are safe for each name -/

namespace Safety

theorem isSafeValue_empty (name : String) : isSafeValue name "" = true := by
  unfold isSafeValue
  split
  · rfl
  · split <;> decide

/-- Attributes that hold no URL take every value. -/
theorem isSafeValue_of_not_sensitive {name : String} (h : isSensitiveAttribute name = false)
    (value : String) : isSafeValue name value = true := by
  simp [isSafeValue, h]

end Safety

/-! ## Attributes that may be written -/

namespace Attributes

def IsSafe (attrs : Attributes) : Prop :=
  ∀ a ∈ attrs.entries, Safety.isSafeValue a.1 a.2 = true

def HasValidNames (attrs : Attributes) : Prop :=
  ∀ a ∈ attrs.entries, Safety.isValidAttributeName a.1 = true

structure MayBeWritten (attrs : Attributes) : Prop where
  safe : attrs.IsSafe
  valid : attrs.HasValidNames

theorem mayBeWritten_iff {attrs : Attributes} :
    attrs.MayBeWritten ↔
      ∀ a ∈ attrs.entries,
        Safety.isSafeValue a.1 a.2 = true ∧ Safety.isValidAttributeName a.1 = true := by
  constructor
  · intro h a ha
    exact ⟨h.safe a ha, h.valid a ha⟩
  · intro h
    exact ⟨fun a ha => (h a ha).1, fun a ha => (h a ha).2⟩

instance (attrs : Attributes) : Decidable attrs.MayBeWritten :=
  decidable_of_iff' _ mayBeWritten_iff

theorem mayBeWritten_empty : MayBeWritten .empty := by
  constructor <;> intro a ha <;> cases ha

theorem MayBeWritten.setSafe {attrs : Attributes} (h : attrs.MayBeWritten) {name value : String}
    (hname : Safety.isValidAttributeName name = true)
    (hsafe : Safety.isSafeValue name value = true) : (attrs.set name value).MayBeWritten := by
  constructor
  · intro a ha
    rcases mem_set ha with rfl | ha
    · exact hsafe
    · exact h.safe a ha
  · intro a ha
    rcases mem_set ha with rfl | ha
    · exact hname
    · exact h.valid a ha

theorem MayBeWritten.set {attrs : Attributes} (h : attrs.MayBeWritten) {name : String}
    (hname : Safety.isValidAttributeName name = true)
    (hplain : Safety.isSensitiveAttribute name = false) (value : String) :
    (attrs.set name value).MayBeWritten :=
  h.setSafe hname (Safety.isSafeValue_of_not_sensitive hplain value)

theorem MayBeWritten.foldl_set {attrs : Attributes} (h : attrs.MayBeWritten)
    {l : List (String × String)} (hsafe : ∀ a ∈ l, Safety.isSafeValue a.1 a.2 = true)
    (hvalid : ∀ a ∈ l, Safety.isValidAttributeName a.1 = true) :
    (l.foldl (fun a (n, v) => a.set n v) attrs).MayBeWritten := by
  constructor
  · intro a ha
    rcases mem_foldl_set ha with ha | ha
    · exact h.safe a ha
    · exact hsafe a ha
  · intro a ha
    rcases mem_foldl_set ha with ha | ha
    · exact h.valid a ha
    · exact hvalid a ha

theorem mayBeWritten_ofListWhere {keep : String × String → Bool} {l : List (String × String)}
    (hsafe : ∀ a ∈ l, keep a = true → Safety.isSafeValue a.1 a.2 = true)
    (hvalid : ∀ a ∈ l, keep a = true → Safety.isValidAttributeName a.1 = true) :
    (ofListWhere keep l).MayBeWritten := by
  constructor
  · intro a ha
    rcases mem_ofListWhere ha with ⟨ha, hk⟩
    exact hsafe a ha hk
  · intro a ha
    rcases mem_ofListWhere ha with ⟨ha, hk⟩
    exact hvalid a ha hk

theorem MayBeWritten.push {attrs : Attributes} (h : attrs.MayBeWritten) {name : String}
    (hname : Safety.isValidAttributeName name = true)
    (hplain : Safety.isSensitiveAttribute name = false) (value : String) :
    (attrs.push name value).MayBeWritten := by
  constructor
  · intro a ha
    rcases List.mem_append.1 ha with ha | ha
    · exact h.safe a ha
    · rw [List.mem_singleton.1 ha]
      exact Safety.isSafeValue_of_not_sensitive hplain value
  · intro a ha
    rcases List.mem_append.1 ha with ha | ha
    · exact h.valid a ha
    · rw [List.mem_singleton.1 ha]
      exact hname

/-- Class lists hold no URL. -/
theorem MayBeWritten.mergeClass {attrs : Attributes} (h : attrs.MayBeWritten) (word : String) :
    (attrs.mergeClass word).MayBeWritten := by
  unfold Attributes.mergeClass
  split
  · exact h.set (by decide) (by decide) _
  · exact h.push (by decide) (by decide) _

end Attributes

/-! ## Names that decide -/

namespace Safety

/-- An attribute of such a name may be refused: the name is not valid, or its values are URLs. -/
def isRisky (name : String) : Bool :=
  !isValidAttributeName name || isSensitiveAttribute name

end Safety

namespace Attributes

/-- Whether attributes may be written is decided by those with risky names. -/
theorem mayBeWritten_filterNames {attrs : Attributes} :
    (attrs.filterNames Safety.isRisky).MayBeWritten ↔ attrs.MayBeWritten := by
  constructor
  · intro h
    -- An attribute that is dropped has a valid name, and no value of it is looked at.
    have hrisky : ∀ a ∈ attrs.entries, Safety.isRisky a.1 = true →
        a ∈ (attrs.filterNames Safety.isRisky).entries :=
      fun a ha hr => List.mem_filter.2 ⟨ha, hr⟩
    constructor
    · intro a ha
      cases hs : Safety.isSensitiveAttribute a.1 with
      | false => exact Safety.isSafeValue_of_not_sensitive hs a.2
      | true => exact h.safe a (hrisky a ha (by simp [Safety.isRisky, hs]))
    · intro a ha
      cases hv : Safety.isValidAttributeName a.1 with
      | false =>
          have hvalid := h.valid a (hrisky a ha (by simp [Safety.isRisky, hv]))
          rw [hv] at hvalid
          cases hvalid
      | true => rfl
  · intro h
    constructor
    · intro a ha
      exact h.safe a (List.mem_filter.1 ha).1
    · intro a ha
      exact h.valid a (List.mem_filter.1 ha).1

end Attributes
end RenderForest
