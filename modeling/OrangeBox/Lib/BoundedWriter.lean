import Mathlib
/-!
# A bounded writer

Output into a buffer of a fixed capacity that keeps its last place for an end
mark. What does not fit is dropped and remembered. Everything a writer does is
said by `holding`: the whole output so far, cut to the buffer.
-/

/-- A writer: its buffer's capacity, what was stored, from the first place on,
and whether all of it could be. -/
structure BoundedWriter (α : Type) where
  capacity : Nat
  out : List α
  ok : Bool

namespace BoundedWriter
variable {α : Type} {capacity : Nat} {text : List α} {ok : Bool} {w : BoundedWriter α}

/-- Store one item at the next place, unless that is the last one. -/
def put (item : α) (w : BoundedWriter α) : BoundedWriter α :=
  if w.out.length + 1 < w.capacity then { w with out := w.out ++ [item] } else { w with ok := false }

/-- Store one after the other. -/
def write (items : List α) (w : BoundedWriter α) : BoundedWriter α := items.foldl (fun w item => w.put item) w

/-- Something is missing from the output. -/
def fail (w : BoundedWriter α) : BoundedWriter α := { w with ok := false }

/-- The end mark behind what was stored. -/
def finish (mark : α) (w : BoundedWriter α) : Bool × List α := (w.ok, if w.capacity = 0 then w.out else w.out ++ [mark])

/-- The writer after this output. -/
def holding (capacity : Nat) (text : List α) (ok : Bool) : BoundedWriter α :=
  ⟨capacity, text.take (capacity - 1), ok && text.length < capacity⟩

theorem put_holding (item : α) (h : 1 ≤ capacity) : (holding capacity text ok).put item = holding capacity (text ++ [item]) ok := by
  unfold holding put
  simp only [List.length_take, List.length_append, List.length_singleton]
  by_cases hfits : text.length + 1 < capacity
  · have hroom : min (capacity - 1) text.length + 1 < capacity := by omega
    have hwhole : text.length ≤ capacity - 1 := by omega
    rw [if_pos hroom, List.take_of_length_le hwhole, List.take_of_length_le (by simp; omega)]
    simp [hfits, show text.length < capacity by omega]
  · have hfull : ¬min (capacity - 1) text.length + 1 < capacity := by omega
    rw [if_neg hfull, List.take_append_of_le_length (by omega)]
    simp [hfits]

theorem write_holding (items : List α) (h : 1 ≤ capacity) :
    (holding capacity text ok).write items = holding capacity (text ++ items) ok := by
  induction items generalizing text with
  | nil => rw [List.append_nil]; rfl
  | cons item items ih =>
    change ((holding capacity text ok).put item).write items = _
    rw [put_holding item h, ih, List.append_assoc, List.singleton_append]

theorem fail_holding : (holding capacity text ok).fail = holding capacity text false := by
  simp [holding, fail]

theorem holding_nil (h : 1 ≤ capacity) : (⟨capacity, [], true⟩ : BoundedWriter α) = holding capacity [] true := by
  simp [holding, show 0 < capacity by omega]

theorem finish_holding (mark : α) (h : 1 ≤ capacity) :
    (holding capacity text ok).finish mark = (ok && text.length < capacity, text.take (capacity - 1) ++ [mark]) := by
  simp [holding, finish, show capacity ≠ 0 by omega]

/-- The mark ends what is within the buffer. -/
theorem length_finish_holding (mark : α) (h : 1 ≤ capacity) : ((holding capacity text ok).finish mark).2.length ≤ capacity := by
  rw [finish_holding mark h, List.length_append, List.length_take, List.length_singleton]
  omega

end BoundedWriter
