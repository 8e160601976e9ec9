import Mathlib
/-!
# Decimal texts

Numbers written as ASCII digits and read back. `text` is what a formatted
output of an unsigned number gives, `value` the loop that reads one digit after
the other.
-/

namespace Decimal

/-- The digits of a number, without leading zeros. -/
def text (n : Nat) : List UInt8 := (Nat.toDigits 10 n).map fun ch => ch.toNat.toUInt8

def isDigit (ch : UInt8) : Bool := 48 ≤ ch && ch ≤ 57

/-- A digit more. -/
def push (number : Nat) (ch : UInt8) : Nat := number * 10 + (ch.toNat - 48)

def value (digits : List UInt8) : Nat := digits.foldl push 0

theorem le_push (number : Nat) (ch : UInt8) : number ≤ push number ch := by
  unfold push; omega

/-- Reading on only makes the number larger. -/
theorem le_foldl_push (digits : List UInt8) (number : Nat) : number ≤ digits.foldl push number := by
  induction digits generalizing number with
  | nil => exact Nat.le_refl _
  | cons ch digits ih => exact Nat.le_trans (le_push number ch) (ih _)

theorem toNat_toUInt8 {ch : Char} (h : ch.isDigit = true) : ch.toNat.toUInt8.toNat = ch.toNat := by
  have hle : ch.toNat ≤ 57 := by
    simp only [Char.isDigit, Bool.and_eq_true, decide_eq_true_eq] at h
    exact UInt32.le_iff_toNat_le.1 h.2
  change ch.toNat % 2 ^ 8 = ch.toNat
  omega

theorem isDigit_toUInt8 {ch : Char} (h : ch.isDigit = true) : isDigit ch.toNat.toUInt8 = true := by
  have hnat := toNat_toUInt8 h
  simp only [Char.isDigit, Bool.and_eq_true, decide_eq_true_eq] at h
  have hlo : 48 ≤ ch.toNat := UInt32.le_iff_toNat_le.1 h.1
  have hhi : ch.toNat ≤ 57 := UInt32.le_iff_toNat_le.1 h.2
  simp only [isDigit, Bool.and_eq_true, decide_eq_true_eq]
  exact ⟨UInt8.le_iff_toNat_le.2 (by rw [hnat]; exact hlo), UInt8.le_iff_toNat_le.2 (by rw [hnat]; exact hhi)⟩

/-- Only digits are written. -/
theorem isDigit_of_mem {n : Nat} {ch : UInt8} (h : ch ∈ text n) : isDigit ch = true := by
  obtain ⟨c, hc, rfl⟩ := List.mem_map.1 h
  exact isDigit_toUInt8 (Nat.isDigit_of_mem_toDigits (by decide) (by decide) hc)

theorem text_ne_nil (n : Nat) : text n ≠ [] := by
  unfold text
  rw [ne_eq, List.map_eq_nil_iff]
  exact Nat.toDigits_ne_nil

theorem length_text_le_iff {n k : Nat} (h : 0 < k) : (text n).length ≤ k ↔ n < 10 ^ k := by
  rw [text, List.length_map, Nat.length_toDigits_le_iff (by decide) h]

/-- What was written is read back. -/
@[simp] theorem value_text (n : Nat) : value (text n) = n := by
  have hread : ∀ (chars : List Char) (number : Nat), (∀ ch ∈ chars, ch.isDigit = true) →
      (chars.map fun ch => ch.toNat.toUInt8).foldl push number = Nat.ofDigitChars 10 chars number := by
    intro chars
    induction chars with
    | nil => intro number _; rfl
    | cons ch chars ih =>
      intro number hall
      have hch := toNat_toUInt8 (hall ch (by simp))
      rw [List.map_cons, List.foldl_cons, ih _ fun c hc => hall c (by simp [hc]), Nat.ofDigitChars_cons, push, hch,
        Nat.mul_comm]
      rfl
  rw [value, text, hread _ _ fun ch hch => Nat.isDigit_of_mem_toDigits (by decide) (by decide) hch]
  exact Nat.ofDigitChars_ten_toDigits

theorem noNul_text (n : Nat) : 0 ∉ text n := fun h => absurd (isDigit_of_mem h) (by decide)

end Decimal
