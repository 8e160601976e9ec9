import Mathlib
/-!
# JSON values

What ArduinoJson makes of a document. A real is its 64 bits; of several members
with one name the first is found.
-/

namespace OrangeBox

inductive Json where
  | null
  | bool (value : Bool)
  | integer (value : Int)
  | real (bits : UInt64)
  | text (chars : List UInt8)
  | array (elements : List Json)
  | object (members : List (String × Json))

namespace Json

/-- `value[key]`, `none` when it is unbound. -/
def member (key : String) : Json → Option Json
  | .object members => members.lookup key
  | _ => none

/-- `is<long>()`, with the value; `int` has the same 32 bits. -/
def asLong : Json → Option Int
  | .integer value => if -2 ^ 31 ≤ value ∧ value < 2 ^ 31 then some value else none
  | _ => none

/-- `is<unsigned int>()`, with the value. -/
def asUnsigned : Json → Option Nat
  | .integer value => if 0 ≤ value ∧ value < 2 ^ 32 then some value.toNat else none
  | _ => none

/-- `size()` and the elements, none unless it is an array. -/
def elements : Json → List Json
  | .array elements => elements
  | _ => []

theorem eq_of_asLong {value : Json} {number : Int} (h : value.asLong = some number) : value = .integer number := by
  unfold asLong at h
  split at h
  · rw [Option.ite_none_right_eq_some, Option.some.injEq] at h
    rw [h.2]
  · cases h

theorem asUnsigned_iff {value : Json} {number : Nat} :
    value.asUnsigned = some number ↔ value = .integer number ∧ number < 2 ^ 32 := by
  unfold asUnsigned
  constructor
  · intro h
    split at h
    · obtain ⟨hrange, h⟩ := Option.ite_none_right_eq_some.1 h
      obtain rfl := Option.some.inj h
      rw [Int.toNat_of_nonneg hrange.1]
      exact ⟨rfl, by omega⟩
    · cases h
  · rintro ⟨rfl, hlt⟩
    exact if_pos ⟨by omega, by exact_mod_cast hlt⟩

end Json

end OrangeBox
