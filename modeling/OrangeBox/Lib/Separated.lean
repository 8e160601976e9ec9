import Mathlib
/-!
# Separated parts

Sequences cut into parts at a separator that no part holds.
-/

/-- One part or more, with a separator between each two. -/
inductive Separated {α : Type} (sep : α) (Part : List α → Prop) : List α → Prop
  | part {l : List α} (h : Part l) : Separated sep Part l
  | more {l rest : List α} (h : Part l) (hrest : Separated sep Part rest) : Separated sep Part (l ++ sep :: rest)

namespace Separated
variable {α : Type} {sep : α} {Part : List α → Prop} {a b p rest x y : List α}

/-- The first separator is in one place. -/
theorem cut_inj (ha : sep ∉ a) (hb : sep ∉ b) (h : a ++ sep :: x = b ++ sep :: y) : a = b ∧ x = y := by
  induction a generalizing b with
  | nil =>
    cases b with
    | nil => exact ⟨rfl, (List.cons.inj h).2⟩
    | cons c b => exact absurd ((List.cons.inj h).1 ▸ List.mem_cons_self) hb
  | cons c a ih =>
    rw [List.mem_cons, not_or] at ha
    cases b with
    | nil => exact absurd (List.cons.inj h).1.symm ha.1
    | cons d b =>
      rw [List.mem_cons, not_or] at hb
      obtain ⟨rfl, htail⟩ := List.cons.inj h
      obtain ⟨rfl, rfl⟩ := ih ha.2 hb.2 htail
      exact ⟨rfl, rfl⟩

/-- Without a separator there is one part. -/
theorem single_iff (hp : sep ∉ p) : Separated sep Part p ↔ Part p := by
  constructor
  · intro h
    cases h with
    | part h => exact h
    | more _ _ => exact absurd (List.mem_append_right _ List.mem_cons_self) hp
  · exact .part

/-- The first part ends at the first separator. -/
theorem cut_iff (hpart : ∀ l, Part l → sep ∉ l) (hp : sep ∉ p) :
    Separated sep Part (p ++ sep :: rest) ↔ Part p ∧ Separated sep Part rest := by
  constructor
  · intro h
    generalize hall : p ++ sep :: rest = all at h
    cases h with
    | part h => exact absurd (hall ▸ List.mem_append_right _ List.mem_cons_self) (hpart _ h)
    | more h hrest =>
      obtain ⟨rfl, rfl⟩ := cut_inj hp (hpart _ h) hall
      exact ⟨h, hrest⟩
  · rintro ⟨h, hrest⟩
    exact .more h hrest

/-- What comes before any separator begins a part. -/
theorem begins (h : Separated sep Part (p ++ rest)) (hp : sep ∉ p) : ∃ tail, Part (p ++ tail) := by
  generalize hall : p ++ rest = all at h
  cases h with
  | part h => exact ⟨rest, hall ▸ h⟩
  | more h _ =>
    rcases List.append_eq_append_iff.1 hall with ⟨tail, hl, _⟩ | ⟨tail, hl, hrest⟩
    · exact ⟨tail, hl ▸ h⟩
    · cases tail with
      | nil =>
        rw [List.append_nil] at hl
        exact ⟨[], by rw [hl, List.append_nil]; exact h⟩
      | cons c tail =>
        rw [hl, (List.cons.inj hrest).1] at hp
        exact absurd (List.mem_append_right _ List.mem_cons_self) hp

end Separated
