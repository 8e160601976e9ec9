import Mathlib
/-!
# Circular buffers

A bounded queue in an array: `count` cells in use, from `head` on, around the
end. `contents` is the queue as a list, the oldest value first.
-/

structure CircularBuffer (n : Nat) (α : Type) where
  cells : Fin n → α
  head : Fin n
  count : Nat
  bounded : count ≤ n

namespace CircularBuffer
variable {n : Nat} {α : Type}

/-- The cell `k` places after the head. -/
def cell (r : CircularBuffer n α) (k : Nat) : Fin n := ⟨(r.head + k) % n, Nat.mod_lt _ r.head.pos⟩

def contents (r : CircularBuffer n α) : List α := (List.range r.count).map fun k => r.cells (r.cell k)

def isFull (r : CircularBuffer n α) : Bool := r.count = n

/-- The oldest value. -/
def peek (r : CircularBuffer n α) : Option α := if r.count = 0 then none else some (r.cells r.head)

/-- Forget the oldest value. -/
def pop (r : CircularBuffer n α) : CircularBuffer n α :=
  if r.count = 0 then r
  else { r with head := r.cell 1, count := r.count - 1, bounded := Nat.le_trans (Nat.sub_le _ _) r.bounded }

/-- Append a value where there is room. -/
def put (x : α) (r : CircularBuffer n α) : CircularBuffer n α :=
  if h : r.count < n then { r with cells := Function.update r.cells (r.cell r.count) x, count := r.count + 1, bounded := h }
  else r

def empty (x : α) (h : 0 < n) : CircularBuffer n α := ⟨fun _ => x, ⟨0, h⟩, 0, Nat.zero_le n⟩

variable {r : CircularBuffer n α}

@[simp] theorem contents_empty (x : α) (h : 0 < n) : (empty x h).contents = [] := rfl

@[simp] theorem length_contents : r.contents.length = r.count := by
  rw [contents, List.length_map, List.length_range]

theorem cell_zero : r.cell 0 = r.head := by
  apply Fin.ext
  exact Nat.mod_eq_of_lt r.head.isLt

/-- Two of the cells in use are different. -/
theorem cell_inj {j k : Nat} (hj : j < n) (hk : k < n) (h : r.cell j = r.cell k) : j = k := by
  have hmod : (r.head + j) % n = (r.head + k) % n := congrArg Fin.val h
  have hcong : j % n = k % n := Nat.ModEq.add_left_cancel' r.head hmod
  rwa [Nat.mod_eq_of_lt hj, Nat.mod_eq_of_lt hk] at hcong

theorem peek_eq : r.peek = r.contents.head? := by
  unfold peek contents
  cases hc : r.count with
  | zero => rfl
  | succ k =>
    rw [if_neg (Nat.succ_ne_zero k), List.range_succ_eq_map, List.map_cons, List.head?_cons, cell_zero]

theorem contents_pop : r.pop.contents = r.contents.tail := by
  obtain ⟨cells, head, count, bounded⟩ := r
  cases count with
  | zero => rfl
  | succ k =>
    rw [pop, if_neg (Nat.succ_ne_zero k)]
    unfold contents
    change List.map _ (List.range k) = (List.map _ (List.range (k + 1))).tail
    rw [List.range_succ_eq_map, List.map_cons, List.tail_cons, List.map_map]
    refine List.map_congr_left fun j _ => congrArg cells ?_
    apply Fin.ext
    change ((head + 1) % n + j) % n = (head + (j + 1)) % n
    rw [Nat.mod_add_mod, Nat.add_assoc, Nat.add_comm 1]

theorem contents_put (x : α) (h : r.count < n) : (r.put x).contents = r.contents ++ [x] := by
  unfold put
  rw [dif_pos h]
  unfold contents
  rw [List.range_succ, List.map_append, List.map_singleton]
  congr 1
  · refine List.map_congr_left fun j hj => Function.update_of_ne (fun heq => ?_) _ _
    have hj := List.mem_range.1 hj
    have heq' : r.cell j = r.cell r.count := heq
    have := cell_inj (Nat.lt_trans hj h) h heq'
    omega
  · exact congrArg (fun y => [y]) (Function.update_self ..)

@[simp] theorem count_pop : r.pop.count = r.count - 1 := by
  unfold pop
  split <;> simp_all

end CircularBuffer
