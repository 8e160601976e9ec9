import Mathlib
/-!
# Following a partial function

A loop that follows `f : K → Option K` from key to key, until there is no next
key, either ends within as many steps as there are keys or never ends. So a
bound of `card K` steps decides whether the loop terminates.
-/

namespace Walk

variable {K : Type}

/-- The key after `n` steps, if the walk gets that far. -/
def steps (f : K → Option K) : Nat → K → Option K
  | 0, k => some k
  | n + 1, k => (f k).bind (steps f n)

variable {f : K → Option K}

theorem steps_add (m n : Nat) (k : K) : steps f (m + n) k = (steps f m k).bind (steps f n) := by
  induction m generalizing k with
  | zero => simp [steps]
  | succ m ih =>
    rw [Nat.succ_add]
    cases h : f k with
    | none => simp [steps, h]
    | some k' => simp [steps, h, ih]

theorem steps_isSome_of_le {m n : Nat} (hmn : m ≤ n) {k : K} (h : (steps f n k).isSome) :
    (steps f m k).isSome := by
  obtain ⟨j, rfl⟩ := Nat.exists_eq_add_of_le hmn
  rw [steps_add] at h
  cases hm : steps f m k with
  | none => simp [hm] at h
  | some k' => rfl

/-- A walk through keys that all have a next one of their kind never ends. -/
theorem steps_of_closed {S : K → Prop} (hS : ∀ k, S k → ∃ k', f k = some k' ∧ S k') (n : Nat) {k : K} (hk : S k) :
    (steps f n k).isSome := by
  induction n generalizing k with
  | zero => rfl
  | succ n ih =>
    obtain ⟨k', hk', hS'⟩ := hS k hk
    simpa [steps, hk'] using ih hS'

/-- A walk stays where its steps lead. -/
theorem steps_mem {S : K → Prop} (hS : ∀ k k', S k → f k = some k' → S k') {n : Nat} {k k' : K} (hk : S k)
    (h : steps f n k = some k') : S k' := by
  induction n generalizing k with
  | zero => exact Option.some.inj h ▸ hk
  | succ n ih =>
    obtain ⟨k₁, hk₁, h⟩ := Option.bind_eq_some_iff.1 h
    exact ih (hS k k₁ hk hk₁) h

/-- A walk gets to every key of a path from its start. -/
theorem exists_steps {k : K} {l : List K} (h : (k :: l).IsChain fun a b => f a = some b) :
    ∀ k' ∈ k :: l, ∃ n, steps f n k = some k' := by
  induction l generalizing k with
  | nil => exact fun k' hk' => ⟨0, by rw [List.mem_singleton.1 hk']; rfl⟩
  | cons k₁ l ih =>
    obtain ⟨hk₁, h⟩ := List.isChain_cons_cons.1 h
    intro k' hk'
    rcases List.mem_cons.1 hk' with rfl | hk'
    · exact ⟨0, rfl⟩
    · obtain ⟨n, hn⟩ := ih h k' hk'
      exact ⟨n + 1, by rw [steps, hk₁]; exact hn⟩

/-- A walk that takes `card K` steps comes back to some key, so it goes on
forever. -/
theorem steps_forever [Fintype K] {k : K} (h : (steps f (Fintype.card K) k).isSome) (n : Nat) :
    (steps f n k).isSome := by
  have hdef : ∀ i : Fin (Fintype.card K + 1), (steps f i k).isSome := fun i =>
    steps_isSome_of_le (Nat.le_of_lt_succ i.isLt) h
  obtain ⟨i, j, hij, he⟩ := Fintype.exists_ne_map_eq_of_card_lt
    (fun i : Fin (Fintype.card K + 1) => (steps f i k).get (hdef i)) (by simp)
  have he' : steps f i k = steps f j k := by
    rw [← Option.some_get (hdef i), ← Option.some_get (hdef j)]
    exact congrArg some he
  clear he
  wlog hlt : i.val < j.val generalizing i j
  · exact this j i hij.symm he'.symm (by omega)
  -- Past `j`, a walk of `n` steps is as good as one of `n - (j - i)`.
  induction n using Nat.strong_induction_on with
  | _ n ih =>
    by_cases hn : n ≤ Fintype.card K
    · exact steps_isSome_of_le hn h
    · obtain ⟨d, rfl⟩ := Nat.exists_eq_add_of_le (show j.val ≤ n by omega)
      rw [steps_add, ← he', ← steps_add]
      exact ih (i.val + d) (by omega)

end Walk
