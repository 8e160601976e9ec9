import Mathlib
/-!
# Erasing from a list while walking over it

A loop runs an index over a list and erases the elements with a property as it
goes, without stepping back. The element behind an erased one moves to its place
and is passed over: what is left has none with the property exactly when no two
neighbours had it (`survivors_clean_iff`).
-/

namespace EraseWalk
variable {α : Type} {p : α → Bool} {x y : α} {l : List α}

/-- One round of the loop, on the list and on what was erased so far. -/
def step (p : α → Bool) (s : List α × List α) (i : Nat) : List α × List α :=
  match s.1[i]? with
  | none => s
  | some x => if p x then (s.1.eraseIdx i, s.2 ++ [x]) else s

/-- The loop. -/
def walk (p : α → Bool) (l : List α) : List α × List α := (List.range l.length).foldl (step p) (l, [])

/-- What the loop leaves. -/
def survivors (p : α → Bool) : List α → List α
  | [] => []
  | [x] => if p x then [] else [x]
  | x :: y :: l => if p x then y :: survivors p l else x :: survivors p (y :: l)

/-- What the loop erases. -/
def erased (p : α → Bool) : List α → List α
  | [] => []
  | [x] => if p x then [x] else []
  | x :: y :: l => if p x then x :: erased p l else erased p (y :: l)

/-! ## The loop -/

theorem step_past {s : List α × List α} {i : Nat} (h : s.1.length ≤ i) : step p s i = s := by
  unfold step
  rw [List.getElem?_eq_none h]

theorem foldl_past {is : List Nat} {s : List α × List α} (h : ∀ i ∈ is, s.1.length ≤ i) : is.foldl (step p) s = s := by
  induction is with
  | nil => rfl
  | cons i is ih =>
    rw [List.foldl_cons, step_past (h i List.mem_cons_self)]
    exact ih fun j hj => h j (List.mem_cons_of_mem _ hj)

theorem step_at (a e : List α) (x : α) (l : List α) :
    step p (a ++ x :: l, e) a.length = if p x then (a ++ l, e ++ [x]) else (a ++ x :: l, e) := by
  unfold step
  simp only [List.getElem?_append_right (Nat.le_refl _), Nat.sub_self, List.getElem?_cons_zero]
  split
  · rw [List.eraseIdx_append_of_length_le (Nat.le_refl _), Nat.sub_self, List.eraseIdx_cons_zero]
  · rfl

/-- The rounds that are left, after the first part of the list is done. -/
theorem foldl_range' (m : Nat) (l a e : List α) (h : l.length ≤ m) :
    (List.range' a.length m).foldl (step p) (a ++ l, e) = (a ++ survivors p l, e ++ erased p l) := by
  induction m generalizing l a e with
  | zero =>
    obtain rfl := List.eq_nil_of_length_eq_zero (Nat.le_zero.1 h)
    simp [survivors, erased]
  | succ m ih =>
    rw [List.range'_succ, List.foldl_cons]
    match l with
    | [] =>
      rw [step_past (by simp), foldl_past fun i hi => ?_]
      · simp [survivors, erased]
      · have := (List.mem_range'_1.1 hi).1
        simp
        omega
    | [x] =>
      rw [step_at]
      split
      · rename_i hx
        rw [foldl_past fun i hi => ?_]
        · simp [survivors, erased, hx]
        · have := (List.mem_range'_1.1 hi).1
          simp
          omega
      · rename_i hx
        rw [foldl_past fun i hi => ?_]
        · simp [survivors, erased, hx]
        · have := (List.mem_range'_1.1 hi).1
          simp
          omega
    | x :: y :: l =>
      rw [step_at]
      simp only [List.length_cons] at h
      -- Either way the next element joins the part that is done.
      split
      · rename_i hx
        have hnext := ih l (a ++ [y]) (e ++ [x]) (by omega)
        rw [List.length_append, List.length_singleton, List.append_assoc, List.singleton_append] at hnext
        rw [hnext]
        simp [survivors, erased, hx]
      · rename_i hx
        have hnext := ih (y :: l) (a ++ [x]) e (by simp only [List.length_cons]; omega)
        rw [List.length_append, List.length_singleton, List.append_assoc, List.singleton_append] at hnext
        rw [hnext]
        simp [survivors, erased, hx]

theorem walk_eq (p : α → Bool) (l : List α) : walk p l = (survivors p l, erased p l) := by
  have h := foldl_range' (p := p) l.length l [] [] (Nat.le_refl _)
  rw [List.nil_append, List.nil_append, List.nil_append] at h
  rw [walk, List.range_eq_range']
  exact h

/-! ## What is left -/

theorem survivors_sublist : (survivors p l).Sublist l := by
  induction l using survivors.induct p with
  | case1 => exact .slnil
  | case2 x hx => simp [survivors, hx]
  | case3 x hx => simp [survivors, hx]
  | case4 x y l hx ih =>
    simp only [survivors, hx, if_true]
    exact (ih.cons_cons y).cons x
  | case5 x y l hx ih =>
    simp only [survivors, hx]
    exact ih.cons_cons x

/-- Every element is erased or left. -/
theorem perm : (erased p l ++ survivors p l).Perm l := by
  induction l using survivors.induct p with
  | case1 => exact .nil
  | case2 x hx => simp [survivors, erased, hx]
  | case3 x hx => simp [survivors, erased, hx]
  | case4 x y l hx ih =>
    simp only [survivors, erased, hx, if_true, List.cons_append]
    exact (List.perm_middle.trans (ih.cons y)).cons x
  | case5 x y l hx ih =>
    simp only [survivors, erased, hx]
    exact List.perm_middle.trans (ih.cons x)

theorem of_mem_erased (h : x ∈ erased p l) : p x = true := by
  induction l using survivors.induct p with
  | case1 => cases h
  | case2 y hy =>
    simp only [erased, hy, if_true, List.mem_singleton] at h
    rw [h, hy]
  | case3 y hy => simp [erased, hy] at h
  | case4 y z l hy ih =>
    simp only [erased, hy, if_true, List.mem_cons] at h
    rcases h with rfl | h
    · exact hy
    · exact ih h
  | case5 y z l hy ih =>
    simp only [erased, hy] at h
    exact ih h

/-- Behind an element without the property the loop starts afresh: it comes to the
next one whether it passes over this one or not. -/
theorem erased_behind (front : List α) (hy : p y = false) : ∃ e, erased p (front ++ y :: l) = e ++ erased p l := by
  -- Along the steps of the loop, which takes two elements where it erases one.
  induction front using survivors.induct p with
  | case1 =>
    refine ⟨[], ?_⟩
    cases l with
    | nil => simp [erased, hy]
    | cons z l => simp [erased, hy]
  | case2 a ha => exact ⟨[a], by simp [erased, ha]⟩
  | case3 a ha =>
    refine ⟨[], ?_⟩
    cases l with
    | nil => simp [erased, ha, hy]
    | cons z l => simp [erased, ha, hy]
  | case4 a b front ha ih =>
    obtain ⟨e, he⟩ := ih
    exact ⟨a :: e, by simp [erased, ha, he]⟩
  | case5 a b front ha ih =>
    obtain ⟨e, he⟩ := ih
    exact ⟨e, by simpa [erased, ha] using he⟩

theorem mem_erased_cons (hx : p x = true) : x ∈ erased p (x :: l) := by
  cases l with
  | nil => simp [erased, hx]
  | cons y l => simp [erased, hx]

/-- The loop erases whatever has the property and stands first or behind an
element without it. -/
theorem mem_erased {front back : List α} (hx : p x = true) (hfront : ∀ y ∈ front.getLast?, p y = false) :
    x ∈ erased p (front ++ x :: back) := by
  rcases List.eq_nil_or_concat front with rfl | ⟨front, y, rfl⟩
  · exact mem_erased_cons hx
  · obtain ⟨e, he⟩ := erased_behind (l := x :: back) front (hfront y (by simp))
    rw [List.concat_eq_append, List.append_assoc, List.singleton_append, he]
    exact List.mem_append_right _ (mem_erased_cons hx)

theorem mem_survivors (h : x ∈ l) (hx : p x = false) : x ∈ survivors p l := by
  have hmem := (perm (p := p)).symm.subset h
  refine (List.mem_append.1 hmem).resolve_left fun herased => ?_
  rw [of_mem_erased herased] at hx
  cases hx

/-- The elements without the property stay as they were. -/
theorem filter_survivors : (survivors p l).filter (!p ·) = l.filter (!p ·) := by
  induction l using survivors.induct p with
  | case1 => rfl
  | case2 x hx => simp [survivors, hx]
  | case3 x hx => simp [survivors, hx]
  | case4 x y l hx ih => simp [survivors, hx, List.filter_cons, ih]
  | case5 x y l hx ih =>
    rw [survivors, if_neg hx, List.filter_cons, List.filter_cons, ih]

/-- None with the property is left exactly when no two neighbours had it. -/
theorem survivors_clean_iff :
    (∀ x ∈ survivors p l, p x = false) ↔ l.IsChain fun x y => ¬(p x = true ∧ p y = true) := by
  induction l using survivors.induct p with
  | case1 => simp [survivors]
  | case2 x hx => simp [survivors, hx]
  | case3 x hx => simp [survivors, hx]
  | case4 x y l hx ih =>
    simp only [survivors, hx, if_true, List.forall_mem_cons, List.isChain_cons_cons, true_and, Bool.not_eq_true]
    refine and_congr_right fun hy => ih.trans ?_
    cases l with
    | nil => simp
    | cons z l => simp [hy]
  | case5 x y l hx ih =>
    simp only [survivors, hx, List.isChain_cons_cons]
    simp only [Bool.not_eq_true] at hx
    simp [hx, ih]

/-- Without two such neighbours the loop is a filter. -/
theorem survivors_eq_filter (h : l.IsChain fun x y => ¬(p x = true ∧ p y = true)) : survivors p l = l.filter (!p ·) := by
  rw [← filter_survivors, eq_comm, List.filter_eq_self]
  intro x hx
  rw [survivors_clean_iff.2 h x hx, Bool.not_false]

end EraseWalk
