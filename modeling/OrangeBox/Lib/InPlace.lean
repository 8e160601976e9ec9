import Mathlib
/-!
# Expanding a text in its own buffer

Every item of a text is replaced by at least one, in the buffer the text lies
in and from its end backwards. Before the item `i` is read the items below it
are still those of the text, and what stands from the destination on is the
replacement of the items from `i` on (`Backward`).
-/

namespace InPlace
variable {α : Type} {f : α → List α} {text start buffer : List α} {i destination : Nat}

/-- The buffer with items stored from a place on. -/
def overwrite (items : List α) (place : Nat) (buffer : List α) : List α :=
  buffer.take place ++ (items ++ buffer.drop (place + items.length))

section Overwrite
variable {items : List α} {place : Nat}

theorem length_overwrite (h : place + items.length ≤ buffer.length) : (overwrite items place buffer).length = buffer.length := by
  unfold overwrite
  rw [List.length_append, List.length_append, List.length_take, List.length_drop]
  omega

/-- Nothing below the place changes. -/
theorem take_overwrite (hi : i ≤ place) (h : place ≤ buffer.length) : (overwrite items place buffer).take i = buffer.take i := by
  have hlen : (buffer.take place).length = place := List.length_take_of_le h
  unfold overwrite
  rw [List.take_append_of_le_length (by omega), List.take_take, Nat.min_eq_left hi]

theorem drop_overwrite (h : place ≤ buffer.length) :
    (overwrite items place buffer).drop place = items ++ buffer.drop (place + items.length) := by
  have hlen : (buffer.take place).length = place := List.length_take_of_le h
  exact List.drop_left' hlen

end Overwrite

/-- The items of `text` from `i` on have been replaced, those below are still to
be read. `start` is the buffer at the start. -/
structure Backward (f : α → List α) (text start buffer : List α) (i destination : Nat) : Prop where
  le : i ≤ text.length
  destination_eq : destination = ((text.take i).flatMap f).length
  length_eq : buffer.length = start.length
  fits : (text.flatMap f).length ≤ start.length
  unread : buffer.take i = text.take i
  written : buffer.drop destination = (text.drop i).flatMap f ++ start.drop (text.flatMap f).length

theorem length_le_flatMap (hf : ∀ a, 1 ≤ (f a).length) (text : List α) : text.length ≤ (text.flatMap f).length := by
  induction text with
  | nil => exact Nat.zero_le _
  | cons a text ih =>
    have ha := hf a
    rw [List.flatMap_cons, List.length_append, List.length_cons]
    omega

namespace Backward

/-- The text lies at the beginning of the buffer. -/
theorem begin (htext : start.take text.length = text) (hfits : (text.flatMap f).length ≤ start.length) :
    Backward f text start start text.length (text.flatMap f).length where
  le := Nat.le_refl _
  destination_eq := by rw [List.take_length]
  length_eq := rfl
  fits := hfits
  unread := by rw [htext, List.take_length]
  written := by rw [List.drop_length, List.flatMap_nil, List.nil_append]

/-- The destination is never behind the items still to be read. -/
theorem le_destination (hf : ∀ a, 1 ≤ (f a).length) (h : Backward f text start buffer i destination) : i ≤ destination := by
  have hlen := length_le_flatMap hf (text.take i)
  rw [List.length_take_of_le h.le] at hlen
  rw [h.destination_eq]
  exact hlen

theorem destination_le (h : Backward f text start buffer i destination) : destination ≤ buffer.length := by
  have hsub : List.Sublist ((text.take i).flatMap f) (text.flatMap f) := (List.take_sublist i text).flatMap f
  rw [h.destination_eq, h.length_eq]
  exact hsub.length_le.trans h.fits

/-- The item read next is that of the text. -/
theorem getElem?_eq (h : Backward f text start buffer (i + 1) destination) : buffer[i]? = text[i]? := by
  have hread := congrArg (·[i]?) h.unread
  simpa only [List.getElem?_take_of_lt (Nat.lt_succ_self i)] using hread

/-- A round: the replacement of an item goes in front of the destination. -/
theorem step (hf : ∀ a, 1 ≤ (f a).length) (h : Backward f text start buffer (i + 1) destination) {a : α}
    (ha : buffer[i]? = some a) : (f a).length ≤ destination ∧
      Backward f text start (overwrite (f a) (destination - (f a).length) buffer) i (destination - (f a).length) := by
  have hlt : i < text.length := h.le
  have hitem : text[i] = a := by
    rw [h.getElem?_eq, List.getElem?_eq_getElem hlt] at ha
    exact Option.some.inj ha
  have hsplit : text.take (i + 1) = text.take i ++ [a] := by rw [List.take_succ_eq_append_getElem hlt, hitem]
  have hdest : destination = ((text.take i).flatMap f).length + (f a).length := by
    rw [h.destination_eq, hsplit, List.flatMap_append, List.flatMap_singleton, List.length_append]
  have hback : destination - (f a).length = ((text.take i).flatMap f).length := by omega
  have hroom := h.destination_le
  have hahead : i ≤ destination - (f a).length := by
    have hlen := length_le_flatMap hf (text.take i)
    rw [List.length_take_of_le (Nat.le_of_lt hlt)] at hlen
    omega
  refine ⟨by omega, Nat.le_of_lt hlt, hback, ?_, h.fits, ?_, ?_⟩
  · rw [length_overwrite (by omega), h.length_eq]
  · have hunread := congrArg (List.take i) h.unread
    rw [List.take_take, List.take_take, Nat.min_eq_left (Nat.le_succ i)] at hunread
    rw [take_overwrite hahead (by omega), hunread]
  · have hrest : text.drop i = a :: text.drop (i + 1) := by rw [List.drop_eq_getElem_cons hlt, hitem]
    rw [drop_overwrite (by omega), Nat.sub_add_cancel (by omega), h.written, hrest, List.flatMap_cons, List.append_assoc]

/-- In the end the whole text is replaced. -/
theorem finish (h : Backward f text start buffer 0 destination) :
    buffer = text.flatMap f ++ start.drop (text.flatMap f).length := by
  have hzero : destination = 0 := h.destination_eq
  have hall := h.written
  rwa [hzero, List.drop_zero, List.drop_zero] at hall

end Backward
end InPlace
