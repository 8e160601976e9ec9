import Mathlib
/-!
# Fixed-size character arrays

A `char[cap]` is read by the firmware only through `strnlen`, `strcmp`,
`strncmp`, `strncpy`, `strstr` and the loop of `copyCredential`, which all stop
at the first NUL. So an array is modeled by the text it holds: the bytes before
its first NUL, or all `cap` bytes when there is none.
-/

namespace OrangeBox

/-- What C functions see of a text with a NUL. -/
theorem takeWhile_of_noNul {text : List UInt8} (h : 0 ∉ text) : text.takeWhile (· ≠ 0) = text :=
  List.takeWhile_eq_self_iff.2 fun _ hch => decide_eq_true fun hz => h (hz ▸ hch)

/-- The text a `char[cap]` array holds. -/
structure CText (cap : Nat) where
  bytes : List UInt8
  bounded : bytes.length ≤ cap
  noNul : 0 ∉ bytes
  deriving DecidableEq

namespace CText
variable {cap cap' : Nat}

@[ext] theorem ext {t t' : CText cap} (h : t.bytes = t'.bytes) : t = t' := by
  cases t; cases t'; simpa using h

/-- A zeroed array. -/
def empty : CText cap := ⟨[], Nat.zero_le _, List.not_mem_nil⟩

/-- What the array holds after the bytes of `buffer` were stored in it. -/
def read (cap : Nat) (buffer : List UInt8) : CText cap :=
  ⟨(buffer.takeWhile (· ≠ 0)).take cap, List.length_take_le cap _, fun h => by
    simpa using List.mem_takeWhile_imp (List.mem_of_mem_take h)⟩

/-- A text that fits is read back whole. -/
theorem read_bytes {buffer : List UInt8} (h0 : 0 ∉ buffer) (hlen : buffer.length ≤ cap) : (read cap buffer).bytes = buffer := by
  unfold read
  simp only [takeWhile_of_noNul h0]
  exact List.take_of_length_le hlen

/-- Copy at most `n` characters into a larger array and terminate them:
`strncpy` with a final NUL, and each branch of `copyCredential`. -/
def truncate (n : Nat) (h : n ≤ cap') (t : CText cap) : CText cap' :=
  ⟨t.bytes.take n, Nat.le_trans (List.length_take_le n _) h, fun hm => t.noNul (List.mem_of_mem_take hm)⟩

@[simp] theorem empty_bytes : (empty : CText cap).bytes = [] := rfl

@[simp] theorem truncate_bytes (n : Nat) (h : n ≤ cap') (t : CText cap) :
    (t.truncate n h).bytes = t.bytes.take n := rfl

theorem truncate_of_le {n : Nat} (h : n ≤ cap) {t : CText cap} (hn : t.bytes.length ≤ n) : t.truncate n h = t :=
  CText.ext (List.take_of_length_le hn)

end CText

theorem noNul_takeWhile (text : List UInt8) : 0 ∉ text.takeWhile (· ≠ 0) := fun h => by
  simpa using List.mem_takeWhile_imp h

theorem takeWhile_nul {head tail : List UInt8} (h : 0 ∉ head) : (head ++ 0 :: tail).takeWhile (· ≠ 0) = head := by
  have hall : ∀ ch ∈ head, decide (ch ≠ 0) = true := fun ch hch => decide_eq_true fun hz => h (hz ▸ hch)
  rw [List.takeWhile_append_of_pos hall, List.takeWhile_cons_of_neg (by decide), List.append_nil]

/-- A text is what comes before its first NUL, or has none. -/
theorem eq_takeWhile_nul (chars : List UInt8) :
    0 ∉ chars ∧ chars.takeWhile (· ≠ 0) = chars ∨ ∃ tail, chars = chars.takeWhile (· ≠ 0) ++ 0 :: tail := by
  induction chars with
  | nil => exact Or.inl ⟨List.not_mem_nil, rfl⟩
  | cons ch chars ih =>
    by_cases hz : ch = 0
    · rw [hz, List.takeWhile_cons_of_neg (by decide)]
      exact Or.inr ⟨chars, rfl⟩
    · rw [List.takeWhile_cons, if_pos (decide_eq_true hz)]
      rcases ih with ⟨hno, hwhole⟩ | ⟨tail, htail⟩
      · rw [hwhole, List.mem_cons, not_or]
        exact Or.inl ⟨⟨fun h => hz h.symm, hno⟩, rfl⟩
      · exact Or.inr ⟨tail, congrArg (ch :: ·) htail⟩

/-- The characters of a literal. -/
def literal (text : String) : List UInt8 := text.toList.map fun ch => ch.toNat.toUInt8

/-- `strnlen(value, limit)`. -/
def strnlen (value : List UInt8) (limit : Nat) : Nat := min value.length limit

end OrangeBox
