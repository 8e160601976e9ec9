import Mathlib
/-!
# Hexadecimal digits

Digits of both cases and the two of a byte, the high one first.
-/

namespace Hexadecimal

/-- A digit and its value. -/
inductive IsDigit : UInt8 → Nat → Prop
  | decimal {ch : UInt8} {v : Nat} (h : ch.toNat = 48 + v) (hv : v < 10) : IsDigit ch v
  | lower {ch : UInt8} {v : Nat} (h : ch.toNat = 97 + v) (hv : v < 6) : IsDigit ch (10 + v)
  | upper {ch : UInt8} {v : Nat} (h : ch.toNat = 65 + v) (hv : v < 6) : IsDigit ch (10 + v)

theorem IsDigit.lt {ch : UInt8} {v : Nat} (h : IsDigit ch v) : v < 16 := by
  cases h <;> omega

theorem isDigit_iff {ch : UInt8} {v : Nat} :
    IsDigit ch v ↔ ch.toNat = 48 + v ∧ v < 10 ∨ 10 ≤ v ∧ v < 16 ∧ (ch.toNat = 87 + v ∨ ch.toNat = 55 + v) := by
  constructor
  · intro h
    cases h <;> omega
  · rintro (⟨h, hv⟩ | ⟨hlo, hhi, h | h⟩)
    · exact .decimal h hv
    · obtain ⟨w, rfl⟩ := Nat.exists_eq_add_of_le hlo
      exact .lower (by omega) (by omega)
    · obtain ⟨w, rfl⟩ := Nat.exists_eq_add_of_le hlo
      exact .upper (by omega) (by omega)

/-- The values of a byte's digits. -/
def nibbles (byte : UInt8) : List Nat := [byte.toNat / 16, byte.toNat % 16]

/-- The digit of a value, in lower case. -/
def digit (v : Nat) : UInt8 := if v < 10 then (48 + v).toUInt8 else (87 + v).toUInt8

theorem isDigit_digit {v : Nat} (h : v < 16) : IsDigit (digit v) v := by
  unfold digit
  by_cases hv : v < 10
  · rw [if_pos hv]
    exact .decimal (UInt8.toNat_ofNat_of_lt' (by change 48 + v < 256; omega)) hv
  · rw [if_neg hv]
    have hten : v = 10 + (v - 10) := by omega
    rw [hten]
    refine .lower ?_ (by omega)
    rw [← hten]
    exact (UInt8.toNat_ofNat_of_lt' (by change 87 + v < 256; omega)).trans (by omega)

/-- The digits of a byte in lower case. -/
def digits (byte : UInt8) : List UInt8 := (nibbles byte).map digit

/-- Two digits put together. -/
theorem toNat_join {high low : UInt8} (hhigh : high.toNat < 16) (hlow : low.toNat < 16) :
    ((high <<< 4) ||| low).toNat = 16 * high.toNat + low.toNat := by
  have hshift : (high <<< 4).toNat = high.toNat <<< 4 := by
    rw [UInt8.toNat_shiftLeft, Nat.mod_eq_of_lt]
    · rfl
    · rw [Nat.shiftLeft_eq]
      change high.toNat * 2 ^ 4 < 2 ^ 8
      omega
  rw [UInt8.toNat_or, hshift, Nat.shiftLeft_eq, Nat.mul_comm]
  exact (Nat.two_pow_add_eq_or_of_lt (show low.toNat < 2 ^ 4 from hlow) high.toNat).symm

theorem nibbles_join {high low : UInt8} (hhigh : high.toNat < 16) (hlow : low.toNat < 16) :
    nibbles ((high <<< 4) ||| low) = [high.toNat, low.toNat] := by
  unfold nibbles
  rw [toNat_join hhigh hlow]
  congr 1
  · omega
  · congr 1
    omega

/-- The digits of a byte are those of no other. -/
theorem nibbles_inj {a b : UInt8} (h : nibbles a = nibbles b) : a = b := by
  unfold nibbles at h
  simp only [List.cons.injEq, and_true] at h
  apply UInt8.toNat_inj.1
  omega

theorem length_nibbles (bytes : List UInt8) : (bytes.flatMap nibbles).length = 2 * bytes.length := by
  rw [List.length_flatMap]
  simp only [nibbles, List.length_cons, List.length_nil, List.map_const', List.sum_replicate]
  rw [smul_eq_mul, Nat.mul_comm]

/-- Bytes are spelled by the digit sequences of even length. -/
theorem exists_bytes_iff {ds : List Nat} (h : ∀ v ∈ ds, v < 16) : (∃ bytes : List UInt8, ds = bytes.flatMap nibbles) ↔ Even ds.length := by
  constructor
  · rintro ⟨bytes, rfl⟩
    rw [length_nibbles]
    exact even_two_mul _
  · intro heven
    obtain ⟨n, hn⟩ := heven
    induction n generalizing ds with
    | zero => exact ⟨[], List.length_eq_zero_iff.1 hn⟩
    | succ n ih =>
      -- Two digits are taken off at a time.
      have hlen : ds.length = n + n + 1 + 1 := by omega
      obtain ⟨a, tail, rfl⟩ := List.exists_cons_of_length_eq_add_one hlen
      rw [List.length_cons, Nat.add_right_cancel_iff] at hlen
      obtain ⟨b, ds, rfl⟩ := List.exists_cons_of_length_eq_add_one hlen
      obtain ⟨bytes, rfl⟩ := ih (fun v hv => h v (List.mem_cons_of_mem _ (List.mem_cons_of_mem _ hv))) (by
        simp only [List.length_cons] at hn
        omega)
      have ha := h a List.mem_cons_self
      have hb := h b (List.mem_cons_of_mem _ List.mem_cons_self)
      refine ⟨(16 * a + b).toUInt8 :: bytes, ?_⟩
      have hbyte : (16 * a + b).toUInt8.toNat = 16 * a + b := UInt8.toNat_ofNat_of_lt' (by change 16 * a + b < 256; omega)
      rw [List.flatMap_cons]
      unfold nibbles
      rw [hbyte, show (16 * a + b) / 16 = a by omega, show (16 * a + b) % 16 = b by omega]
      rfl

theorem digit_inj : ∀ v < 16, ∀ v' < 16, digit v = digit v' → v = v' := by decide

theorem digits_inj {a b : UInt8} (h : digits a = digits b) : a = b := by
  have ha := a.toNat_lt
  have hb := b.toNat_lt
  simp only [digits, nibbles, List.map_cons, List.map_nil, List.cons.injEq, and_true] at h
  have hhigh := digit_inj _ (by omega) _ (by omega) h.1
  have hlow := digit_inj _ (by omega) _ (by omega) h.2
  exact UInt8.toNat_inj.1 (by omega)

/-- The digits of some bytes are those of no others. -/
theorem flatMap_digits_inj {as bs : List UInt8} (h : as.flatMap digits = bs.flatMap digits) : as = bs := by
  induction as generalizing bs with
  | nil =>
    cases bs with
    | nil => rfl
    | cons b bs => cases h
  | cons a as ih =>
    cases bs with
    | nil => cases h
    | cons b bs =>
      simp only [List.flatMap_cons] at h
      obtain ⟨hbyte, hrest⟩ := List.append_inj h rfl
      rw [digits_inj hbyte, ih hrest]

theorem length_digits (bytes : List UInt8) : (bytes.flatMap digits).length = 2 * bytes.length := by
  rw [← length_nibbles, List.length_flatMap, List.length_flatMap]
  rfl

/-- What digits are made of. -/
theorem exists_digit_of_mem {bytes : List UInt8} {ch : UInt8} (h : ch ∈ bytes.flatMap digits) :
    ∃ v < 16, ch = digit v := by
  obtain ⟨byte, -, hch⟩ := List.mem_flatMap.1 h
  obtain ⟨v, hv, rfl⟩ := List.mem_map.1 hch
  refine ⟨v, ?_, rfl⟩
  have hbyte := byte.toNat_lt
  simp only [nibbles, List.mem_cons, List.not_mem_nil, or_false] at hv
  omega

end Hexadecimal
