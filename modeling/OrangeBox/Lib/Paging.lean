import Mathlib
/-!
# Paging by key

A list is read page by page: each page is the next few entries whose key is
above every key read so far, in the order of the list. The reading ends with an
empty page (`read_terminates`), and it gives the whole list in increasing order
exactly when the list stands in that order (`read_sorted_iff`).
-/

namespace Paging
variable {α K : Type} [LinearOrder K] (key : α → K)

/-- The entries above every key read so far. -/
def above (read l : List α) : List α := l.filter fun a => read.all fun b => key b < key a

/-- The next page, of at most `n` entries. -/
def page (l : List α) (n : Nat) (read : List α) : List α := (above key read l).take n

/-- Pages until an empty one, `none` if there are more than `fuel`. -/
def readAll (l : List α) (n : Nat) : Nat → List α → Option (List α)
  | 0, _ => none
  | fuel + 1, read => if page key l n read = [] then some read else readAll l n fuel (read ++ page key l n read)

variable {key} {l read p out rest : List α} {n fuel : Nat}

theorem mem_above {a : α} : a ∈ above key read l ↔ a ∈ l ∧ ∀ b ∈ read, key b < key a := by
  simp [above]

@[simp] theorem above_nil : above key [] l = l := by simp [above]

theorem above_append : above key (read ++ p) l = above key p (above key read l) := by
  simp only [above, List.all_append, List.filter_filter, Bool.and_comm]

/-- The entries of a page are not above it. -/
theorem above_take (n : Nat) : above key (l.take n) l = above key (l.take n) (l.drop n) := by
  have hsplit := congrArg (above key (l.take n)) (List.take_append_drop n l)
  rw [← hsplit, above, List.filter_append, List.filter_eq_nil_iff.2, List.nil_append, above]
  intro a ha hall
  have hself := List.all_eq_true.1 hall a ha
  simp at hself

theorem page_eq_nil_iff (hn : n ≠ 0) : page key l n read = [] ↔ above key read l = [] := by
  rw [page, List.take_eq_nil_iff]
  exact or_iff_right hn

/-- A page that is not empty leaves fewer entries to read. -/
theorem length_above_lt (h : page key l n read ≠ []) :
    (above key (read ++ page key l n read) l).length < (above key read l).length := by
  rw [above_append, page, above_take]
  have hle := List.length_filter_le (fun a => ((above key read l).take n).all fun b => key b < key a)
    ((above key read l).drop n)
  have hpos : 0 < ((above key read l).take n).length := List.length_pos_iff.2 h
  rw [List.length_take] at hpos
  rw [above]
  rw [List.length_drop] at hle
  omega

/-- As many rounds as there are entries are enough, with one for the empty page. -/
theorem readAll_terminates (h : (above key read l).length < fuel) : ∃ out, readAll key l n fuel read = some out := by
  induction fuel generalizing read with
  | zero => omega
  | succ fuel ih =>
    unfold readAll
    split
    · exact ⟨read, rfl⟩
    · rename_i hp
      have hlt := length_above_lt hp
      exact ih (by omega)

theorem read_terminates (key : α → K) (l : List α) (n : Nat) : ∃ out, readAll key l n (l.length + 1) [] = some out :=
  readAll_terminates (by rw [above_nil]; exact Nat.lt_succ_self _)

/-- What was read stays read. -/
theorem prefix_of_readAll (h : readAll key l n fuel read = some out) : read <+: out := by
  induction fuel generalizing read with
  | zero => contradiction
  | succ fuel ih =>
    unfold readAll at h
    split at h
    · exact Option.some.inj h ▸ List.prefix_refl _
    · exact (List.prefix_append _ _).trans (ih h)

/-- What stands behind a page of a sorted list is above it. -/
theorem above_take_of_sorted (hl : l.Pairwise fun a b => key a < key b) (n : Nat) : above key (l.take n) l = l.drop n := by
  rw [above_take, above, List.filter_eq_self]
  intro a ha
  have hsplit := List.take_append_drop n l
  rw [← hsplit] at hl
  simpa using fun b hb => (List.pairwise_append.1 hl).2.2 b hb a ha

/-- From a sorted list everything is read, in order. -/
theorem readAll_of_sorted (hn : n ≠ 0) (hl : (above key read l).Pairwise fun a b => key a < key b)
    (h : readAll key l n fuel read = some out) : out = read ++ above key read l := by
  induction fuel generalizing read with
  | zero => contradiction
  | succ fuel ih =>
    unfold readAll at h
    split at h
    · rename_i hp
      rw [(page_eq_nil_iff hn).1 hp, List.append_nil]
      exact (Option.some.inj h).symm
    · have hrest : above key (read ++ page key l n read) l = (above key read l).drop n := by
        rw [above_append, page, above_take_of_sorted hl]
      have hout := ih (by rw [hrest]; exact hl.drop) h
      rw [hout, hrest, page, List.append_assoc, List.take_append_drop]

/-- If everything is read in order, it stands in order. -/
theorem above_eq_of_read (hn : n ≠ 0) (h : readAll key l n fuel read = some (read ++ rest))
    (hperm : rest.Perm (above key read l)) (hsorted : rest.Pairwise fun a b => key a < key b) :
    above key read l = rest := by
  induction fuel generalizing read rest with
  | zero => contradiction
  | succ fuel ih =>
    unfold readAll at h
    split at h
    · rename_i hp
      have hnil := (page_eq_nil_iff hn).1 hp
      rw [hnil] at hperm ⊢
      exact hperm.eq_nil.symm
    · -- The page is the first part of what is read, and the rest of what is left is above it.
      obtain ⟨rest', rfl⟩ := (List.prefix_append_right_inj read).1 (prefix_of_readAll h)
      rw [← List.append_assoc] at h
      have hdrop : rest'.Perm ((above key read l).drop n) := by
        refine (List.perm_append_left_iff (page key l n read)).1 ?_
        rw [page, List.take_append_drop]
        exact hperm
      obtain ⟨-, hs', hacross⟩ := List.pairwise_append.1 hsorted
      have hleft : above key (read ++ page key l n read) l = (above key read l).drop n := by
        rw [above_append, page, above_take, above, List.filter_eq_self]
        intro a ha
        exact List.all_eq_true.2 fun b hb => decide_eq_true (hacross b hb a (hdrop.mem_iff.2 ha))
      have hrest := ih h (by rw [hleft]; exact hdrop) hs'
      rw [← hrest, hleft, page, List.take_append_drop]

/-- Reading gives the whole list in increasing order exactly when the list
stands in that order. -/
theorem read_sorted_iff (hn : n ≠ 0) (h : readAll key l n fuel [] = some out) :
    (out.Perm l ∧ out.Pairwise fun a b => key a < key b) ↔ l.Pairwise fun a b => key a < key b := by
  constructor
  · rintro ⟨hperm, hsorted⟩
    have hl : above key [] l = out := above_eq_of_read hn h (by rwa [above_nil]) hsorted
    rw [above_nil] at hl
    rwa [hl]
  · intro hl
    have hout := readAll_of_sorted hn (by rwa [above_nil]) h
    rw [above_nil, List.nil_append] at hout
    rw [hout]
    exact ⟨.refl _, hl⟩

end Paging
