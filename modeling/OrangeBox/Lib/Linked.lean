import Mathlib
/-!
# Doubly linked lists in a keyed store

Records of type `R` sit in a store `read : K → Option R` and name each other
by key, through `next` and `prev`. `Chain` says that a list of keys is linked
both ways; a change of the store that keeps its links keeps the chain
(`Chain.congr`). A path to a last key is unique and visits no key twice
(`path_begins`, `path_unique`, `path_nodup`).
-/

namespace Linked

variable {K R : Type}

section Links
variable (next prev : R → K)

/-- `a` names `b` as its next record. -/
def Fwd (read : K → Option R) (a b : K) : Prop := (read a).map next = some b

/-- `b` names `a` as its previous record. -/
def Bwd (read : K → Option R) (a b : K) : Prop := (read b).map prev = some a

/-- `a` and `b` are neighbours. -/
def Link (read : K → Option R) (a b : K) : Prop := Fwd next read a b ∧ Bwd prev read a b

/-- The keys are linked one after the other, both ways. -/
abbrev Chain (read : K → Option R) (l : List K) : Prop := l.IsChain (Link next prev read)

end Links

variable {next prev : R → K} {read read' : K → Option R}

theorem fwd_iff {a b : K} : Fwd next read a b ↔ ∃ r, read a = some r ∧ next r = b := Option.map_eq_some_iff

theorem bwd_iff {a b : K} : Bwd prev read a b ↔ ∃ r, read b = some r ∧ prev r = a := Option.map_eq_some_iff

theorem fwd_unique {a b c : K} (h : Fwd next read a b) (h' : Fwd next read a c) : b = c :=
  Option.some.inj (h.symm.trans h')

/-! ## Changing the store -/

/-- A chain stays a chain while the forward links of all keys but the last and
the backward links of all keys but the first stay as they were. -/
theorem Chain.congr {l : List K} (h : Chain next prev read l)
    (hf : ∀ k ∈ l.dropLast, (read' k).map next = (read k).map next)
    (hb : ∀ k ∈ l.tail, (read' k).map prev = (read k).map prev) : Chain next prev read' l := by
  induction l with
  | nil => exact .nil
  | cons a l ih =>
    cases l with
    | nil => exact .singleton a
    | cons b l =>
      obtain ⟨⟨hab, hba⟩, hl⟩ := List.isChain_cons_cons.1 h
      refine List.isChain_cons_cons.2 ⟨⟨?_, ?_⟩, ih hl ?_ ?_⟩
      · rw [Fwd, hf a (by simp), hab]
      · rw [Bwd, hb b (by simp), hba]
      · intro k hk
        exact hf k (by simp only [List.dropLast_cons_cons, List.mem_cons] at hk ⊢; exact .inr hk)
      · intro k hk
        exact hb k (List.mem_of_mem_tail hk)

/-- A chain in a store whose records on the chain are unchanged. -/
theorem Chain.frame {l : List K} (h : Chain next prev read l) (he : ∀ k ∈ l, read' k = read k) :
    Chain next prev read' l :=
  h.congr (fun k hk => by rw [he k ((List.dropLast_subset l) hk)]) (fun k hk => by rw [he k (List.mem_of_mem_tail hk)])

theorem chain_append_pair {l : List K} {a b : K} :
    Chain next prev read (l ++ [a, b]) ↔ Chain next prev read (l ++ [a]) ∧ Link next prev read a b := by
  show List.IsChain _ (l ++ a :: b :: []) ↔ _
  rw [List.isChain_append_cons_cons]
  simp

/-! ## Paths -/

theorem Chain.fwd {l : List K} (h : Chain next prev read l) : l.IsChain (Fwd next read) := h.imp fun _ _ h => h.1

/-- A path stays a path while the links of all keys but the last do. -/
theorem path_congr {l : List K} (h : l.IsChain (Fwd next read))
    (hf : ∀ k ∈ l.dropLast, (read' k).map next = (read k).map next) : l.IsChain (Fwd next read') := by
  induction l with
  | nil => exact .nil
  | cons a l ih =>
    cases l with
    | nil => exact .singleton a
    | cons b l =>
      obtain ⟨hab, hl⟩ := List.isChain_cons_cons.1 h
      refine List.isChain_cons_cons.2 ⟨?_, ih hl fun k hk => hf k ?_⟩
      · rw [Fwd, hf a (by simp), hab]
      · simp only [List.dropLast_cons_cons, List.mem_cons] at hk ⊢
        exact .inr hk

/-- A path that has not gone past `t` is the beginning of the path to `t`. -/
theorem path_begins {a t : K} {l l' : List K} (h : (a :: l).IsChain (Fwd next read))
    (h' : (a :: (l' ++ [t])).IsChain (Fwd next read)) (ht : t ∉ l.dropLast) : l <+: l' ++ [t] := by
  induction l generalizing a l' with
  | nil => exact List.nil_prefix
  | cons b l ih =>
    obtain ⟨hab, hl⟩ := List.isChain_cons_cons.1 h
    cases l' with
    | nil =>
      obtain rfl := fwd_unique hab (List.isChain_cons_cons.1 h').1
      cases l with
      | nil => exact List.prefix_rfl
      | cons c l => exact absurd (by simp) ht
    | cons b' l' =>
      obtain ⟨hab', hl'⟩ := List.isChain_cons_cons.1 h'
      obtain rfl := fwd_unique hab hab'
      refine List.cons_prefix_cons.2 ⟨rfl, ih hl hl' (fun hm => ht ?_)⟩
      cases l with
      | nil => simp at hm
      | cons c l => exact List.mem_cons_of_mem _ hm

/-- Following `next` from `a` to the first `t` is deterministic. -/
theorem path_unique {a t : K} {l l' : List K} (h : (a :: (l ++ [t])).IsChain (Fwd next read))
    (h' : (a :: (l' ++ [t])).IsChain (Fwd next read)) (ht : t ∉ l) (ht' : t ∉ l') : l = l' := by
  induction l generalizing a l' with
  | nil =>
    cases l' with
    | nil => rfl
    | cons b l' =>
      have := fwd_unique (List.isChain_cons_cons.1 h).1 (List.isChain_cons_cons.1 h').1
      exact absurd this (fun he => ht' (by simp [he]))
  | cons b l ih =>
    cases l' with
    | nil =>
      have := fwd_unique (List.isChain_cons_cons.1 h').1 (List.isChain_cons_cons.1 h).1
      exact absurd this (fun he => ht (by simp [he]))
    | cons b' l' =>
      obtain ⟨hb, hl⟩ := List.isChain_cons_cons.1 h
      obtain ⟨hb', hl'⟩ := List.isChain_cons_cons.1 h'
      obtain rfl := fwd_unique hb hb'
      rw [ih hl hl' (fun hm => ht (List.mem_cons_of_mem _ hm)) (fun hm => ht' (List.mem_cons_of_mem _ hm))]

/-- A path to the first `t` visits no key twice: from a repeated key it would
have to go on the same way, and never end. -/
theorem path_nodup {a t : K} {l : List K} (h : (a :: (l ++ [t])).IsChain (Fwd next read)) (ht : t ∉ a :: l) :
    (a :: (l ++ [t])).Nodup := by
  induction l generalizing a with
  | nil =>
    have : t ≠ a := fun he => ht (by simp [he])
    simp [this.symm]
  | cons b l ih =>
    obtain ⟨hab, hl⟩ := List.isChain_cons_cons.1 h
    have htl : t ∉ b :: l := fun hm => ht (List.mem_cons_of_mem _ hm)
    refine List.nodup_cons.2 ⟨fun hm => ?_, ih hl htl⟩
    have ham : a ∈ b :: l := by
      rcases List.mem_append.1 hm with hm | hm
      · exact hm
      · exact absurd (List.mem_singleton.1 hm) (fun he => ht (by simp [he]))
    obtain ⟨s, l', hs⟩ := List.append_of_mem ham
    have hsuf : (a :: (l' ++ [t])).IsChain (Fwd next read) := by
      have he : b :: (l ++ [t]) = s ++ a :: (l' ++ [t]) := by
        rw [← List.cons_append, hs]; simp
      rw [show b :: l.append [t] = _ from he] at hl
      exact hl.right_of_append
    have := path_unique h hsuf htl (fun hm => htl (by rw [hs]; simp [hm]))
    have := congrArg List.length (this.symm.trans hs)
    simp at this
    omega

end Linked
