import Mathlib
/-!
# Base64

The encoding of bytes without padding, and its decoding.
-/

namespace Base64

/-- The character of six bits. -/
def digit (v : Nat) : UInt8 :=
  if v < 26 then (65 + v).toUInt8
  else if v < 52 then (71 + v).toUInt8
  else if v < 62 then (v - 4).toUInt8
  else if v = 62 then 43
  else 47

/-- The six bits of a character. -/
def value (ch : UInt8) : Option Nat :=
  if 65 ≤ ch.toNat ∧ ch.toNat ≤ 90 then some (ch.toNat - 65)
  else if 97 ≤ ch.toNat ∧ ch.toNat ≤ 122 then some (ch.toNat - 71)
  else if 48 ≤ ch.toNat ∧ ch.toNat ≤ 57 then some (ch.toNat + 4)
  else if ch = 43 then some 62
  else if ch = 47 then some 63
  else none

theorem value_digit {v : Nat} (h : v < 64) : value (digit v) = some v := by
  interval_cases v <;> rfl

/-- The `i`-th of the characters of three bytes. -/
def place (t i : Nat) : UInt8 := digit (t / 64 ^ (3 - i) % 64)

def encode : List UInt8 → List UInt8
  | [] => []
  | [a] => [place (a.toNat * 65536) 0, place (a.toNat * 65536) 1]
  | [a, b] =>
    let t := a.toNat * 65536 + b.toNat * 256
    [place t 0, place t 1, place t 2]
  | a :: b :: c :: rest =>
    let t := a.toNat * 65536 + b.toNat * 256 + c.toNat
    [place t 0, place t 1, place t 2, place t 3] ++ encode rest

/-- The `i`-th of the bytes of four characters. -/
def byte (t i : Nat) : UInt8 := (t / 256 ^ (2 - i) % 256).toUInt8

def decode : List UInt8 → Option (List UInt8)
  | [] => some []
  | [_] => none
  | [p, q] => do
    let t := (← value p) * 262144 + (← value q) * 4096
    return [byte t 0]
  | [p, q, r] => do
    let t := (← value p) * 262144 + (← value q) * 4096 + (← value r) * 64
    return [byte t 0, byte t 1]
  | p :: q :: r :: s :: rest => do
    let t := (← value p) * 262144 + (← value q) * 4096 + (← value r) * 64 + (← value s)
    return [byte t 0, byte t 1, byte t 2] ++ (← decode rest)

theorem value_place (t i : Nat) : value (place t i) = some (t / 64 ^ (3 - i) % 64) := value_digit (Nat.mod_lt _ (by omega))

theorem toNat_byte (t i : Nat) : (byte t i).toNat = t / 256 ^ (2 - i) % 256 := by
  rw [byte, Nat.toUInt8_eq, UInt8.toNat_ofNat']
  omega

theorem byte_eq {t i : Nat} {a : UInt8} (h : t / 256 ^ (2 - i) % 256 = a.toNat) : byte t i = a :=
  UInt8.toNat_inj.1 ((toNat_byte t i).trans h)

theorem decode_encode (bytes : List UInt8) : decode (encode bytes) = some bytes := by
  fun_induction encode bytes with
  | case1 => rfl
  | case2 a =>
    have ha := a.toNat_lt
    simp only [decode, value_place, Option.bind_eq_bind, Option.bind_some, Option.pure_def, Option.some.injEq,
      List.cons.injEq, and_true]
    exact byte_eq (by norm_num; omega)
  | case3 a b t =>
    have ha := a.toNat_lt
    have hb := b.toNat_lt
    simp only [decode, value_place, Option.bind_eq_bind, Option.bind_some, Option.pure_def, Option.some.injEq,
      List.cons.injEq, and_true]
    exact ⟨byte_eq (by norm_num [t]; omega), byte_eq (by norm_num [t]; omega)⟩
  | case4 a b c rest t ih =>
    have ha := a.toNat_lt
    have hb := b.toNat_lt
    have hc := c.toNat_lt
    simp only [List.cons_append, List.nil_append, decode, value_place, ih, Option.bind_eq_bind, Option.bind_some,
      Option.pure_def, Option.some.injEq, List.cons.injEq, and_true]
    exact ⟨byte_eq (by norm_num [t]; omega), byte_eq (by norm_num [t]; omega), byte_eq (by norm_num [t]; omega)⟩

theorem encode_inj {a b : List UInt8} (h : encode a = encode b) : a = b :=
  Option.some.inj ((decode_encode a).symm.trans ((congrArg decode h).trans (decode_encode b)))

theorem length_encode (bytes : List UInt8) : (encode bytes).length = (4 * bytes.length + 2) / 3 := by
  fun_induction encode bytes with
  | case1 => rfl
  | case2 => simp
  | case3 => simp
  | case4 a b c rest t ih =>
    simp only [List.length_append, List.length_cons, List.length_nil, ih]
    omega

/-- Every character is a digit. -/
theorem isSome_value_of_mem_encode {bytes : List UInt8} {ch : UInt8} (h : ch ∈ encode bytes) : (value ch).isSome := by
  have hplace : ∀ t i, (value (place t i)).isSome := fun t i => by rw [value_place]; rfl
  fun_induction encode bytes with
  | case1 => cases h
  | case2 a =>
    rcases List.mem_pair.1 h with rfl | rfl <;> exact hplace _ _
  | case3 a b t =>
    simp only [List.mem_cons, List.not_mem_nil, or_false] at h
    rcases h with rfl | rfl | rfl <;> exact hplace _ _
  | case4 a b c rest t ih =>
    simp only [List.cons_append, List.nil_append, List.mem_cons] at h
    rcases h with rfl | rfl | rfl | rfl | h
    · exact hplace _ _
    · exact hplace _ _
    · exact hplace _ _
    · exact hplace _ _
    · exact ih h

end Base64
