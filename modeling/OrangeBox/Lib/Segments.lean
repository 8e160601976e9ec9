import Mathlib
/-!
# Segments

A line cut into consecutive segments, and the two loops that find the one a
point lies in: `seek` goes along the starting points, `walkOff` takes the
lengths off one after the other. Both end at the right segment if they have as
many rounds as there are segments in between.
-/

namespace Segments

/-- `while (start(i + 1) <= x) ++i`. -/
def seek (start : Nat → Int) (x : Int) : Nat → Nat → Nat
  | 0, i => i
  | fuel + 1, i => if start (i + 1) ≤ x then seek start x fuel (i + 1) else i

/-- `while (x >= length(i)) x -= length(i++)`. -/
def walkOff (length : Nat → Int) : Nat → Int → Nat → Int × Nat
  | 0, x, i => (x, i)
  | fuel + 1, x, i => if length i ≤ x then walkOff length fuel (x - length i) (i + 1) else (x, i)

/-- The lengths of the segments from `i` on, `n` of them. -/
def total (length : Nat → Int) (i n : Nat) : Int := ((List.range n).map fun m => length (i + m)).sum

variable {start length : Nat → Int} {x d : Int} {i j n fuel : Nat}

theorem seek_eq (hmono : Monotone start) (hij : i ≤ j) (hle : start j ≤ x) (hlt : x < start (j + 1)) (hfuel : j ≤ i + fuel) :
    seek start x fuel i = j := by
  induction fuel generalizing i with
  | zero =>
    obtain rfl : i = j := by omega
    rfl
  | succ fuel ih =>
    unfold seek
    by_cases he : i = j
    · rw [he, if_neg (Int.not_le.2 hlt)]
    · have hnext : start (i + 1) ≤ x := (hmono (by omega : i + 1 ≤ j)).trans hle
      rw [if_pos hnext, ih (by omega) (by omega)]

theorem total_succ (length : Nat → Int) (i n : Nat) : total length i (n + 1) = length i + total length (i + 1) n := by
  unfold total
  rw [List.range_succ_eq_map, List.map_cons, List.sum_cons, List.map_map, Nat.add_zero]
  congr 2
  refine List.map_congr_left fun m _ => ?_
  simp only [Function.comp_apply]
  congr 1
  omega

theorem total_add (length : Nat → Int) (i n m : Nat) : total length i (n + m) = total length i n + total length (i + n) m := by
  induction n generalizing i with
  | zero => rw [Nat.zero_add, Nat.add_zero, show total length i 0 = 0 from rfl, Int.zero_add]
  | succ n ih =>
    rw [show n + 1 + m = n + m + 1 by omega, total_succ, total_succ, ih, show i + 1 + n = i + (n + 1) by omega, Int.add_assoc]

theorem total_nonneg (h : ∀ i, 0 ≤ length i) (i n : Nat) : 0 ≤ total length i n :=
  List.sum_nonneg fun x hx => by
    obtain ⟨m, -, rfl⟩ := List.mem_map.1 hx
    exact h _

/-- A point `d` into the segment `n` behind the first one is found there. -/
theorem walkOff_eq (hpos : ∀ i, 0 ≤ length i) (hd : 0 ≤ d) (hlt : d < length (i + n)) (hfuel : n ≤ fuel) :
    walkOff length fuel (total length i n + d) i = (d, i + n) := by
  induction n generalizing i fuel with
  | zero =>
    rw [Nat.add_zero] at hlt ⊢
    rw [show total length i 0 = 0 from rfl, Int.zero_add]
    cases fuel with
    | zero => rfl
    | succ fuel => rw [walkOff, if_neg (Int.not_le.2 hlt)]
  | succ n ih =>
    obtain ⟨fuel, rfl⟩ : ∃ f, fuel = f + 1 := ⟨fuel - 1, by omega⟩
    have hrest := total_nonneg hpos (i + 1) n
    have hnext : i + (n + 1) = i + 1 + n := by omega
    rw [hnext] at hlt ⊢
    rw [walkOff, total_succ, if_pos (by omega), show length i + total length (i + 1) n + d - length i =
      total length (i + 1) n + d by omega]
    exact ih hlt (by omega)

end Segments
