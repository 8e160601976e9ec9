import Mathlib
/-!
# Wrapping tick counters

A 32-bit counter that is read as time goes on. `stamp t` is what it shows `t`
ticks after it was at zero. The distance between two readings, taken modulo
`2 ^ 32`, never exceeds the time that passed between them.
-/

namespace Clock

/-- The counter at tick `t`. -/
def stamp (t : Nat) : UInt32 := UInt32.ofNat t

variable {s t : Nat}

theorem toNat_stamp (t : Nat) : (stamp t).toNat = t % 2 ^ 32 := UInt32.toNat_ofNat'

theorem toNat_stamp_sub (h : s ≤ t) : (stamp t - stamp s).toNat = (t - s) % 2 ^ 32 := by
  rw [UInt32.toNat_sub, toNat_stamp, toNat_stamp]
  omega

/-- The counter may have wrapped, but it never counts too much. -/
theorem toNat_stamp_sub_le (h : s ≤ t) : (stamp t - stamp s).toNat ≤ t - s := by
  rw [toNat_stamp_sub h]
  exact Nat.mod_le _ _

/-- Readings of a clock that was started earlier. -/
theorem stamp_add (t k : Nat) : stamp (t + k) = stamp t + stamp k := by
  apply UInt32.toNat_inj.1
  rw [UInt32.toNat_add, toNat_stamp, toNat_stamp, toNat_stamp, Nat.add_mod]

/-- Distances do not depend on where the counter started. -/
theorem add_sub_add (s t k : UInt32) : s + k - (t + k) = s - t := by
  apply UInt32.toNat_inj.1
  rw [UInt32.toNat_sub, UInt32.toNat_sub, UInt32.toNat_add, UInt32.toNat_add]
  have hs := s.toNat_lt
  have ht := t.toNat_lt
  omega

end Clock
