import OrangeBox.Lib.Decimal
/-!
# `%.17g`

How `printf` writes a finite double with 17 significant digits, from its 64 bits.
The digits are those of the exact value, rounded half to even.
-/

namespace PrintReal

/-- A finite double without its sign, as a fraction. -/
def magnitude (bits : UInt64) : Nat × Nat :=
  let exponent := ((bits >>> 52) &&& 0x7ff).toNat
  let fraction := (bits &&& 0xfffffffffffff).toNat
  let mantissa := if exponent = 0 then fraction else fraction + 2 ^ 52
  let power := max exponent 1
  if 1075 ≤ power then (mantissa * 2 ^ (power - 1075), 1) else (mantissa, 2 ^ (1075 - power))

/-- The power of ten of the first digit. -/
def exponent (num den : Nat) : Int :=
  if den ≤ num then Nat.log 10 (num / den) else -(Nat.clog 10 ((den + num - 1) / num) : Int)

/-- `num / den * 10 ^ k`, rounded half to even. -/
def scaled (num den : Nat) (k : Int) : Nat :=
  let n := num * 10 ^ k.toNat
  let d := den * 10 ^ (-k).toNat
  if d < 2 * (n % d) ∨ d = 2 * (n % d) ∧ n / d % 2 = 1 then n / d + 1 else n / d

/-- The 17 digits, and the power of ten of the first one. -/
def significant (num den : Nat) : Nat × Int :=
  let digits := scaled num den (16 - exponent num den)
  if digits = 10 ^ 17 then (10 ^ 16, exponent num den + 1) else (digits, exponent num den)

/-- Digits behind a point, without trailing zeros, and without the point if there
are no others. -/
def point (digits : List UInt8) : List UInt8 :=
  let kept := (digits.reverse.dropWhile (· = 48)).reverse
  if kept = [] then [] else 46 :: kept

/-- At least two digits. -/
def twoDigits (n : Nat) : List UInt8 := if n < 10 then 48 :: Decimal.text n else Decimal.text n

def g17 (bits : UInt64) : List UInt8 :=
  let sign := if bits >>> 63 = 1 then [45] else []
  let (num, den) := magnitude bits
  if num = 0 then sign ++ [48]
  else
    let (digits, x) := significant num den
    let text := Decimal.text digits
    if x < -4 ∨ 17 ≤ x then
      sign ++ text.take 1 ++ point (text.drop 1) ++ [101, if x < 0 then 45 else 43] ++ twoDigits x.natAbs
    else if 0 ≤ x then sign ++ text.take (x.toNat + 1) ++ point (text.drop (x.toNat + 1))
    else sign ++ [48] ++ point (List.replicate (x.natAbs - 1) 48 ++ text)

end PrintReal
