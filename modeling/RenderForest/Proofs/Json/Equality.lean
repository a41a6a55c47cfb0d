import RenderForest.Json.Value
/-!
# Equality — a JSON value is equal to itself

A double that is undefined would not be equal to itself, but no number of a value is.  This file
shows:

* `Json.Double.beq_self`: a finite double is equal to itself;
* `Json.Value.same_self`: so is a value.
-/

namespace RenderForest
namespace Json

/-- A finite double is equal to itself. -/
theorem Double.beq_self (d : Double) : (d == d) = true := by
  change d.value.toModel.unpack.beq d.value.toModel.unpack = true
  have hfinite : d.value.toModel.unpack.isFinite = true := d.finite
  cases hunpacked : d.value.toModel.unpack with
  | infinity sign =>
      rw [hunpacked] at hfinite
      cases hfinite
  | notANumber =>
      rw [hunpacked] at hfinite
      cases hfinite
  | zero sign => rfl
  | finite sign mantissa exponent positive =>
      -- Exponent and mantissa are compared with themselves, the other way round below zero.
      have hparts : (compare exponent exponent).then (compare mantissa mantissa) = .eq := by
        rw [Std.compare_self, Std.compare_self]
        rfl
      cases sign with
      | positive =>
          change (some ((compare exponent exponent).then (compare mantissa mantissa)) ==
            some .eq) = true
          rw [hparts]
          rfl
      | negative =>
          change (some ((compare exponent exponent).then (compare mantissa mantissa)).swap ==
            some .eq) = true
          rw [hparts]
          rfl

instance : ReflBEq Double := ⟨fun {d} => d.beq_self⟩

instance : ReflBEq Number where
  rfl := by
    intro n
    cases n with
    | int n => exact beq_self_eq_true n
    | real d => exact d.beq_self

namespace Value

mutual

/-- A value is equal to itself. -/
theorem same_self : ∀ v : Value, v.same v = true
  | .null => rfl
  | .bool b => beq_self_eq_true b
  | .number n => beq_self_eq_true n
  | .string s => beq_self_eq_true s
  | .array items => sameItems_self items
  | .object fields => sameFields_self fields

theorem sameItems_self : ∀ items : List Value, sameItems items items = true
  | [] => rfl
  | v :: rest => by rw [sameItems, same_self v, sameItems_self rest, Bool.and_self]

theorem sameFields_self : ∀ fields : List (String × Value), sameFields fields fields = true
  | [] => rfl
  | (n, v) :: rest => by
    rw [sameFields, beq_self_eq_true, same_self v, sameFields_self rest, Bool.and_self,
      Bool.and_self]

end

end Value

instance : ReflBEq Value := ⟨fun {v} => v.same_self⟩

end Json
end RenderForest
