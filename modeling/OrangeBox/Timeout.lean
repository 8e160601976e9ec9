import OrangeBox.Lib.Clock
/-!
# Timeouts

`timeout.h`. Timestamps are readings of the 32-bit millisecond counter.
-/
open Clock

namespace OrangeBox

def timeoutElapsed (timeoutStart timeoutLength now : UInt32) : Bool := timeoutLength ≤ now - timeoutStart

def timeoutRemaining (timeoutStart timeoutLength now : UInt32) : UInt32 :=
  let elapsed := now - timeoutStart
  if timeoutLength ≤ elapsed then 0 else timeoutLength - elapsed

variable {s t : Nat} {length : UInt32}

/-- A timeout never ends early, however often the counter has wrapped. -/
theorem le_of_timeoutElapsed (h : s ≤ t) (he : timeoutElapsed (stamp s) length (stamp t) = true) :
    s + length.toNat ≤ t := by
  have hle : length.toNat ≤ (stamp t - stamp s).toNat := UInt32.le_iff_toNat_le.1 (of_decide_eq_true he)
  have := toNat_stamp_sub_le h
  omega

/-- Unless the counter goes all the way round, a timeout does not end late. -/
theorem timeoutElapsed_of_le (h : s + length.toNat ≤ t) (hlt : t < s + 2 ^ 32) :
    timeoutElapsed (stamp s) length (stamp t) = true := by
  refine decide_eq_true (UInt32.le_iff_toNat_le.2 ?_)
  rw [toNat_stamp_sub (by omega), Nat.mod_eq_of_lt (by omega)]
  omega

/-- Whatever the timestamp, a timeout is over soon, and then for a while. The
counter may be about to wrap, which puts it off by `slack`. -/
theorem exists_timeoutElapsed (start length : UInt32) (t slack : Nat) (hlt : length.toNat + slack < 2 ^ 32) :
    ∃ d, t ≤ d ∧ d ≤ t + length.toNat + slack ∧
      ∀ u, d ≤ u → u ≤ d + slack → timeoutElapsed start length (stamp u) = true := by
  have hsub : ∀ u, t ≤ u → (stamp u - start).toNat = ((stamp t - start).toNat + (u - t)) % 2 ^ 32 := by
    intro u hu
    have hs := start.toNat_lt
    rw [UInt32.toNat_sub, UInt32.toNat_sub, toNat_stamp, toNat_stamp]
    omega
  have hover : ∀ u, t ≤ u → length.toNat ≤ ((stamp t - start).toNat + (u - t)) % 2 ^ 32 →
      timeoutElapsed start length (stamp u) = true := by
    intro u hu hle
    rw [← hsub u hu] at hle
    exact decide_eq_true (UInt32.le_iff_toNat_le.2 hle)
  have hr := (stamp t - start).toNat_lt
  generalize (stamp t - start).toNat = r at hover hr
  by_cases hearly : r < length.toNat
  · exact ⟨t + length.toNat - r, by omega, by omega, fun u _ _ => hover u (by omega) (by omega)⟩
  by_cases hwrap : r + slack < 2 ^ 32
  · exact ⟨t, Nat.le_refl _, by omega, fun u _ _ => hover u (by omega) (by omega)⟩
  -- The counter wraps within `slack`, and then the timeout runs once more.
  · exact ⟨t + (2 ^ 32 - r) + length.toNat, by omega, by omega, fun u _ _ => hover u (by omega) (by omega)⟩

@[simp] theorem timeoutElapsed_add (start length now k : UInt32) :
    timeoutElapsed (start + k) length (now + k) = timeoutElapsed start length now := by
  rw [timeoutElapsed, add_sub_add]
  rfl

@[simp] theorem timeoutRemaining_add (start length now k : UInt32) :
    timeoutRemaining (start + k) length (now + k) = timeoutRemaining start length now := by
  rw [timeoutRemaining, add_sub_add]
  rfl

end OrangeBox
