import Mathlib
/-!
# Programs over a key-value flash

A program reads and writes a key-value flash and keeps some state in RAM. Each
write, remove or clear is one atomic operation and meets the next entry of a
fault schedule: it works, it fails and leaves the flash as it was, or power is
lost before it happens. Past the end of the schedule every operation works.

- `Traced`: what a program writes when nothing fails. Losing power after `k` of
  those writes leaves exactly the first `k` of them (`Traced.flash_cut`).
- `write_of_mem`: what one write does when power stays on but calls may fail.
- `RecoversTo`: a boot program that may itself be cut, any number of times,
  ends where an uncut boot ends.
-/

namespace Flash

/-- What the hardware does with one flash operation. -/
inductive Fault where
  | works
  | fails
  | powerLost
  deriving DecidableEq, Repr

/-- One atomic operation on the flash. -/
inductive Write (K V : Type) where
  | put (k : K) (v : V)
  | remove (k : K)
  | clear

/-- The flash contents, the schedule of the operations to come, and the RAM. -/
structure Sys (K V ρ : Type) where
  blobs : K → Option V
  faults : List Fault
  ram : ρ

/-- How a program ends: it returns, power is lost, or it runs forever. -/
inductive Outcome (K V ρ α : Type) where
  | ret (a : α) (s : Sys K V ρ)
  | powerLost (blobs : K → Option V)
  | hangs (blobs : K → Option V)

/-- A program over the flash. -/
def Prog (K V ρ α : Type) : Type := Sys K V ρ → Outcome K V ρ α

variable {K V ρ α β : Type}

/-- What is left on the flash. -/
def Outcome.flash : Outcome K V ρ α → K → Option V
  | .ret _ s => s.blobs
  | .powerLost p => p
  | .hangs p => p

/-- Go on with `f` unless power was lost or the program hangs. -/
def Outcome.andThen (o : Outcome K V ρ α) (f : α → Prog K V ρ β) : Outcome K V ρ β :=
  match o with
  | .ret a s => f a s
  | .powerLost p => .powerLost p
  | .hangs p => .hangs p

instance : Monad (Prog K V ρ) where
  pure a := fun s => .ret a s
  bind m f := fun s => (m s).andThen f

@[simp] theorem pure_apply (a : α) (s : Sys K V ρ) : (pure a : Prog K V ρ α) s = .ret a s := rfl

@[simp] theorem bind_apply (m : Prog K V ρ α) (f : α → Prog K V ρ β) (s : Sys K V ρ) :
    (m >>= f) s = (m s).andThen f := rfl

@[simp] theorem andThen_ret (a : α) (s : Sys K V ρ) (f : α → Prog K V ρ β) :
    (Outcome.ret a s).andThen f = f a s := rfl

@[simp] theorem andThen_powerLost (p : K → Option V) (f : α → Prog K V ρ β) :
    (Outcome.powerLost p : Outcome K V ρ α).andThen f = .powerLost p := rfl

@[simp] theorem andThen_hangs (p : K → Option V) (f : α → Prog K V ρ β) :
    (Outcome.hangs p : Outcome K V ρ α).andThen f = .hangs p := rfl

@[simp] theorem ite_prog_apply (c : Prop) [Decidable c] (m m' : Prog K V ρ α) (s : Sys K V ρ) :
    (if c then m else m') s = if c then m s else m' s := by
  split <;> rfl

/-- A composed program that returns went through both parts. -/
theorem ret_of_bind {m : Prog K V ρ α} {f : α → Prog K V ρ β} {s s' : Sys K V ρ} {b : β} (h : (m >>= f) s = .ret b s') :
    ∃ a s₁, m s = .ret a s₁ ∧ f a s₁ = .ret b s' := by
  rw [bind_apply] at h
  cases hm : m s with
  | ret a s₁ => exact ⟨a, s₁, rfl, by rwa [hm, andThen_ret] at h⟩
  | powerLost => rw [hm] at h; cases h
  | hangs => rw [hm] at h; cases h

theorem flash_andThen_pure (o : Outcome K V ρ α) (f : α → β) : (o.andThen fun a => pure (f a)).flash = o.flash := by
  cases o <;> rfl

/-! ## Reading and RAM -/

/-- The flash contents. -/
def contents : Prog K V ρ (K → Option V) := fun s => .ret s.blobs s

/-- The RAM. -/
def ram : Prog K V ρ ρ := fun s => .ret s.ram s

/-- Change the RAM. -/
def setRam (f : ρ → ρ) : Prog K V ρ Unit := fun s => .ret () { s with ram := f s.ram }

/-- A loop that never ends. -/
def hang : Prog K V ρ α := fun s => .hangs s.blobs

@[simp] theorem contents_apply (s : Sys K V ρ) : contents s = .ret s.blobs s := rfl
@[simp] theorem ram_apply (s : Sys K V ρ) : ram s = .ret s.ram s := rfl
@[simp] theorem setRam_apply (f : ρ → ρ) (s : Sys K V ρ) :
    setRam f s = .ret () { s with ram := f s.ram } := rfl
@[simp] theorem hang_apply (s : Sys K V ρ) : (hang : Prog K V ρ α) s = .hangs s.blobs := rfl

/-- A program that leaves part of the RAM as it is. -/
def Keeps (f : ρ → β) (m : Prog K V ρ α) : Prop := ∀ s a s', m s = .ret a s' → f s'.ram = f s.ram

section Keeping
variable {γ : Type} {f : ρ → γ} {m m' : Prog K V ρ α} {g : α → Prog K V ρ β}

theorem Keeps.pure (a : α) : Keeps f (pure a : Prog K V ρ α) := by
  intro s a s' h
  cases h
  rfl

theorem Keeps.bind (h : Keeps f m) (h' : ∀ a, Keeps f (g a)) : Keeps f (m >>= g) := by
  intro s b s' hs
  obtain ⟨a, s₁, hm, hg⟩ := ret_of_bind hs
  exact (h' a _ _ _ hg).trans (h _ _ _ hm)

theorem Keeps.contents : Keeps f (contents : Prog K V ρ (K → Option V)) := by
  intro s a s' h
  cases h
  rfl

theorem Keeps.setRam {u : ρ → ρ} (h : ∀ r, f (u r) = f r) : Keeps f (setRam u : Prog K V ρ Unit) := by
  intro s a s' hs
  cases hs
  exact h _

theorem Keeps.ite {c : Prop} [Decidable c] (h : Keeps f m) (h' : Keeps f m') : Keeps f (if c then m else m') := by
  split
  · exact h
  · exact h'

end Keeping

/-! ## Writing -/

section Writing
variable [DecidableEq K]

/-- The flash after the operation. -/
def Write.apply (w : Write K V) (p : K → Option V) : K → Option V :=
  match w with
  | .put k v => Function.update p k (some v)
  | .remove k => Function.update p k none
  | .clear => fun _ => none

/-- What a working operation returns. Removing an absent key is an error. -/
def Write.result (w : Write K V) (p : K → Option V) : Bool :=
  match w with
  | .remove k => (p k).isSome
  | _ => true

def applyAll (ws : List (Write K V)) (p : K → Option V) : K → Option V :=
  ws.foldl (fun p w => w.apply p) p

/-- One flash operation; it takes the next fault of the schedule. -/
def write (w : Write K V) : Prog K V ρ Bool := fun s =>
  match s.faults with
  | [] => .ret (w.result s.blobs) { s with blobs := w.apply s.blobs }
  | .works :: fs => .ret (w.result s.blobs) { s with blobs := w.apply s.blobs, faults := fs }
  | .fails :: fs => .ret false { s with faults := fs }
  | .powerLost :: _ => .powerLost s.blobs

theorem Keeps.write {γ : Type} {f : ρ → γ} (w : Write K V) : Keeps f (write w : Prog K V ρ Bool) := by
  intro s a s' h
  unfold Flash.write at h
  split at h <;> cases h <;> rfl

@[simp] theorem applyAll_nil (p : K → Option V) : applyAll [] p = p := rfl

@[simp] theorem applyAll_cons (w : Write K V) (ws : List (Write K V)) (p : K → Option V) :
    applyAll (w :: ws) p = applyAll ws (w.apply p) := rfl

theorem applyAll_append (ws ws' : List (Write K V)) (p : K → Option V) :
    applyAll (ws ++ ws') p = applyAll ws' (applyAll ws p) := by
  simp [applyAll]

@[simp] theorem write_nil (w : Write K V) (p : K → Option V) (r : ρ) :
    write w ⟨p, [], r⟩ = .ret (w.result p) ⟨w.apply p, [], r⟩ := rfl

@[simp] theorem put_apply_self (k : K) (v : V) (p : K → Option V) : (Write.put k v).apply p k = some v := by
  simp [Write.apply]

theorem put_apply_of_ne {k k' : K} (v : V) (p : K → Option V) (h : k' ≠ k) :
    (Write.put k v).apply p k' = p k' := by
  simp [Write.apply, h]

@[simp] theorem remove_apply_self (k : K) (p : K → Option V) : (Write.remove k).apply p k = none := by
  simp [Write.apply]

theorem remove_apply_of_ne {k k' : K} (p : K → Option V) (h : k' ≠ k) :
    (Write.remove k : Write K V).apply p k' = p k' := by
  simp [Write.apply, h]

@[simp] theorem clear_apply (p : K → Option V) : (Write.clear : Write K V).apply p = fun _ => none := rfl

/-! ## Failing calls

With power on, an operation either happens or leaves the flash alone. -/

/-- Whether the next operation works. -/
def nextWorks (fs : List Fault) : Bool := fs.head? ≠ some .fails

/-- The operation, if it works. -/
def Write.applyIf (w : Write K V) (b : Bool) (p : K → Option V) : K → Option V := if b then w.apply p else p

@[simp] theorem applyIf_true (w : Write K V) (p : K → Option V) : w.applyIf true p = w.apply p := rfl
@[simp] theorem applyIf_false (w : Write K V) (p : K → Option V) : w.applyIf false p = p := rfl

theorem write_of_mem (w : Write K V) {p : K → Option V} {fs : List Fault} {r : ρ} (h : Fault.powerLost ∉ fs) :
    write w ⟨p, fs, r⟩ = .ret (nextWorks fs && w.result p) ⟨w.applyIf (nextWorks fs) p, fs.tail, r⟩ := by
  rcases fs with _ | ⟨_ | _ | _, fs⟩
  · rfl
  · rfl
  · rfl
  · simp at h

theorem powerLost_not_mem_tail {fs : List Fault} (h : Fault.powerLost ∉ fs) : Fault.powerLost ∉ fs.tail :=
  fun hm => h (List.mem_of_mem_tail hm)

/-! ## Losing power -/

/-- Power is lost at the operation after the first `k`. -/
def lossAfter (k : Nat) : List Fault := List.replicate k .works ++ [.powerLost]

@[simp] theorem lossAfter_zero : lossAfter 0 = [.powerLost] := rfl

theorem lossAfter_succ (k : Nat) : lossAfter (k + 1) = .works :: lossAfter k := rfl

/-- Started on flash `p` with RAM `r`, the program performs exactly the
operations `ws` and returns `a` with RAM `r'`, unless power is lost first. -/
structure Traced (m : Prog K V ρ α) (p : K → Option V) (r : ρ) (ws : List (Write K V)) (a : α) (r' : ρ) :
    Prop where
  whole : m ⟨p, [], r⟩ = .ret a ⟨applyAll ws p, [], r'⟩
  cut : ∀ k < ws.length, m ⟨p, lossAfter k, r⟩ = .powerLost (applyAll (ws.take k) p)
  rest : ∀ k, m ⟨p, lossAfter (ws.length + k), r⟩ = .ret a ⟨applyAll ws p, lossAfter k, r'⟩

variable {m : Prog K V ρ α} {f : α → Prog K V ρ β} {p : K → Option V} {r r' r'' : ρ}
  {ws ws' : List (Write K V)} {a : α} {b : β}

/-- A program that only reads. -/
theorem Traced.of_reads (h : ∀ fs, m ⟨p, fs, r⟩ = .ret a ⟨p, fs, r'⟩) : Traced m p r [] a r' where
  whole := h _
  cut k hk := absurd hk (Nat.not_lt_zero k)
  rest k := by simpa using h (lossAfter k)

theorem Traced.pure (a : α) : Traced (pure a) p r [] a r := .of_reads fun _ => rfl

theorem Traced.write (w : Write K V) : Traced (write w) p r [w] (w.result p) r where
  whole := rfl
  cut k hk := by
    obtain rfl : k = 0 := by simpa using hk
    rfl
  rest k := by
    rw [List.length_singleton, Nat.add_comm, lossAfter_succ]
    rfl

theorem Traced.bind (h : Traced m p r ws a r') (h' : Traced (f a) (applyAll ws p) r' ws' b r'') :
    Traced (m >>= f) p r (ws ++ ws') b r'' where
  whole := by rw [bind_apply, h.whole, andThen_ret, h'.whole, applyAll_append]
  cut k hk := by
    rw [bind_apply]
    by_cases hlt : k < ws.length
    · rw [h.cut k hlt, andThen_powerLost, List.take_append_of_le_length (Nat.le_of_lt hlt)]
    · obtain ⟨j, rfl⟩ := Nat.exists_eq_add_of_le (Nat.le_of_not_lt hlt)
      rw [List.length_append] at hk
      rw [h.rest j, andThen_ret, h'.cut j (by omega), List.take_length_add_append, applyAll_append]
  rest k := by
    rw [bind_apply, List.length_append, Nat.add_assoc, h.rest, andThen_ret, h'.rest, applyAll_append]

/-- Two programs that agree on a flash and a RAM have the same trace there. -/
theorem Traced.congr {m' : Prog K V ρ α} (h : Traced m p r ws a r') (he : ∀ fs, m' ⟨p, fs, r⟩ = m ⟨p, fs, r⟩) :
    Traced m' p r ws a r' where
  whole := by rw [he, h.whole]
  cut k hk := by rw [he, h.cut k hk]
  rest k := by rw [he, h.rest]

/-- Losing power after `k` operations leaves the first `k` of them. -/
theorem Traced.flash_cut (h : Traced m p r ws a r') (k : Nat) :
    (m ⟨p, lossAfter k, r⟩).flash = applyAll (ws.take k) p := by
  by_cases hk : k < ws.length
  · rw [h.cut k hk]; rfl
  · obtain ⟨j, rfl⟩ := Nat.exists_eq_add_of_le (Nat.le_of_not_lt hk)
    rw [h.rest j, List.take_of_length_le (by omega)]; rfl

theorem Traced.flash_whole (h : Traced m p r ws a r') : (m ⟨p, [], r⟩).flash = applyAll ws p := by
  rw [h.whole]; rfl

/-! ## Recovery -/

/-- Boots from RAM `r`, each cut after the given number of operations. `τ` is
what a boot reads from outside, such as the clock. -/
def reboots {τ : Type} (boot : τ → Prog K V ρ α) (r : ρ) (p : K → Option V) (cuts : List (Nat × τ)) :
    K → Option V :=
  cuts.foldl (fun p c => (boot c.2 ⟨p, lossAfter c.1, r⟩).flash) p

/-- Booting from `p` ends in `q`: `p` is in a class of contents that all boot
to `q` and that a boot cut anywhere does not leave. -/
def RecoversTo {τ : Type} (boot : τ → Prog K V ρ α) (r : ρ) (q p : K → Option V) : Prop :=
  ∃ C : (K → Option V) → Prop, C p ∧ ∀ p', C p' → ∀ t, ∃ ws a r', Traced (boot t) p' r ws a r' ∧
    applyAll ws p' = q ∧ ∀ k, C (applyAll (ws.take k) p')

/-- Any number of cut boots followed by a whole one. -/
theorem RecoversTo.reboots {τ : Type} {boot : τ → Prog K V ρ α} {q : K → Option V} (h : RecoversTo boot r q p)
    (cuts : List (Nat × τ)) (t : τ) : ∃ a r', boot t ⟨reboots boot r p cuts, [], r⟩ = .ret a ⟨q, [], r'⟩ := by
  obtain ⟨C, hp, hC⟩ := h
  induction cuts generalizing p with
  | nil =>
    obtain ⟨ws, a, r', htr, hq, -⟩ := hC p hp t
    exact ⟨a, r', by rw [← hq]; exact htr.whole⟩
  | cons c cuts ih =>
    obtain ⟨ws, a, r', htr, -, hcut⟩ := hC p hp c.2
    simp only [Flash.reboots, List.foldl_cons] at ih ⊢
    rw [htr.flash_cut]
    exact ih (hcut c.1)

/-- A boot that writes its way to `q` through contents that recover to `q`. -/
theorem RecoversTo.of_traced {τ : Type} {boot : τ → Prog K V ρ α} {q : K → Option V}
    (h : ∀ t, ∃ ws a r', Traced (boot t) p r ws a r' ∧ applyAll ws p = q ∧
      ∀ k, 0 < k → RecoversTo boot r q (applyAll (ws.take k) p)) : RecoversTo boot r q p := by
  refine ⟨fun p' => p' = p ∨ RecoversTo boot r q p', .inl rfl, ?_⟩
  rintro p' (rfl | ⟨C, hp', hC⟩) t
  · obtain ⟨ws, a, r', htr, hq, hcut⟩ := h t
    refine ⟨ws, a, r', htr, hq, fun k => ?_⟩
    cases k with
    | zero => exact .inl rfl
    | succ k => exact .inr (hcut _ (Nat.succ_pos k))
  · obtain ⟨ws, a, r', htr, hq, hcut⟩ := hC p' hp' t
    exact ⟨ws, a, r', htr, hq, fun k => .inr ⟨C, hcut k, hC⟩⟩

/-- A boot that writes nothing. -/
theorem RecoversTo.refl {τ : Type} {boot : τ → Prog K V ρ α} (h : ∀ t, ∃ a r', Traced (boot t) p r [] a r') :
    RecoversTo boot r p p := by
  refine ⟨(· = p), rfl, ?_⟩
  rintro p' rfl t
  obtain ⟨a, r', htr⟩ := h t
  exact ⟨[], a, r', htr, rfl, fun k => by simp⟩

end Writing

end Flash
