import Mathlib
/-!
# What passes through a buffer

A buffer is filled at one end and emptied at the other. `Carries` relates what
came in, what went out, what is still held and how much of it is missing. What
went out is in the order in which it came in, and with nothing missing it is all
of it (`Carries.exact`).
-/

namespace Conduit

variable {α : Type} {entered left held xs : List α} {missing : Nat}

structure Carries (entered left held : List α) (missing : Nat) : Prop where
  order : (left ++ held).Sublist entered
  count : entered.length = left.length + held.length + missing

theorem Carries.empty : Carries ([] : List α) [] [] 0 := ⟨.refl _, rfl⟩

/-- New things are held behind the old ones. -/
theorem Carries.enter (h : Carries entered left held missing) (xs : List α) :
    Carries (entered ++ xs) left (held ++ xs) missing := by
  constructor
  · rw [← List.append_assoc]
    exact h.order.append_right xs
  · have hcount := h.count
    simp only [List.length_append]
    omega

/-- Things come in that there is no room for. -/
theorem Carries.overflow (h : Carries entered left held missing) (xs : List α) :
    Carries (entered ++ xs) left held (missing + xs.length) := by
  constructor
  · exact h.order.trans (List.sublist_append_left entered xs)
  · have hcount := h.count
    simp only [List.length_append]
    omega

/-- There is room for the first of them. -/
theorem Carries.enter_take (h : Carries entered left held missing) (xs : List α) (k : Nat) :
    Carries (entered ++ xs) left (held ++ xs.take k) (missing + (xs.length - k)) := by
  have hall := (h.enter (xs.take k)).overflow (xs.drop k)
  rwa [List.append_assoc, List.take_append_drop, List.length_drop] at hall

/-- What is held longest goes out. -/
theorem Carries.leave (h : Carries entered left (xs ++ held) missing) : Carries entered (left ++ xs) held missing := by
  constructor
  · rw [List.append_assoc]
    exact h.order
  · have hcount := h.count
    simp only [List.length_append] at hcount ⊢
    omega

/-- What is held longest is lost. -/
theorem Carries.lose (h : Carries entered left (xs ++ held) missing) :
    Carries entered left held (missing + xs.length) := by
  constructor
  · exact (List.sublist_append_right xs held).append_left left |>.trans h.order
  · have hcount := h.count
    simp only [List.length_append] at hcount
    omega

/-- What is held longest goes out in part, and the rest stays. -/
theorem Carries.leave_take (h : Carries entered left (xs ++ held) missing) (k : Nat) :
    Carries entered (left ++ xs.take k) (xs.drop k ++ held) missing := by
  apply Carries.leave
  rwa [← List.append_assoc, List.take_append_drop]

/-- With nothing missing, what went out and what is held make up what came in. -/
theorem Carries.exact (h : Carries entered left held 0) : left ++ held = entered :=
  h.order.eq_of_length (by rw [List.length_append, h.count, Nat.add_zero])

end Conduit
