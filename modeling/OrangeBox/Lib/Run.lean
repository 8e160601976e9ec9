import Mathlib
/-!
# Runs of a step relation

A run is a list of events with the state they lead to. What holds at the start
and is kept by every step holds after every run (`Run.inv`), and so do
properties of its steps (`Run.within`).
-/

namespace Runs

variable {S E : Type}

/-- The events lead from `s₀` to a state. -/
inductive Run (step : S → E → S → Prop) (s₀ : S) : List E → S → Prop
  | nil : Run step s₀ [] s₀
  | snoc {es : List E} {s s' : S} {e : E} : Run step s₀ es s → step s e s' → Run step s₀ (es ++ [e]) s'

variable {step : S → E → S → Prop} {s₀ s₁ s s' : S} {es es' : List E} {e : E}

/-- An invariant kept by every step holds after every run. -/
theorem Run.inv (I : S → Prop) (h0 : I s₀) (hstep : ∀ s e s', I s → step s e s' → I s') (h : Run step s₀ es s) :
    I s := by
  induction h with
  | nil => exact h0
  | snoc _ hs ih => exact hstep _ _ _ ih hs

theorem Run.append (h : Run step s₀ es s₁) (h' : Run step s₁ es' s) : Run step s₀ (es ++ es') s := by
  induction h' with
  | nil => rwa [List.append_nil]
  | snoc _ hs ih =>
    rw [← List.append_assoc]
    exact ih.snoc hs

theorem Run.single (h : step s e s') : Run step s [e] s' := Run.nil.snoc h

theorem Run.cons (h : step s₀ e s₁) (h' : Run step s₁ es s) : Run step s₀ (e :: es) s := (Run.single h).append h'

/-- A run that ends with an event. -/
theorem Run.last (h : Run step s₀ (es ++ [e]) s) : ∃ s₁, Run step s₀ es s₁ ∧ step s₁ e s := by
  generalize hall : es ++ [e] = all at h
  cases h with
  | nil => simp at hall
  | snoc hrun hs =>
    obtain ⟨rfl, he⟩ := List.append_inj' hall rfl
    obtain rfl := List.singleton_inj.1 he
    exact ⟨_, hrun, hs⟩

/-- Two runs over the same events, when a relation is kept by every pair of steps. -/
theorem Run.lockstep {S' E' : Type} {step' : S' → E' → S' → Prop} {s₀' s' : S'} {f : E → E'} (R : S → S' → Prop)
    (h0 : R s₀ s₀') (hstep : ∀ s s' e r r', R s s' → step s e r → step' s' (f e) r' → R r r') (h : Run step s₀ es s)
    (h' : Run step' s₀' (es.map f) s') : R s s' := by
  induction h generalizing s' with
  | nil =>
    generalize hnone : List.map f [] = none at h'
    cases h' with
    | nil => exact h0
    | snoc => simp at hnone
  | snoc _ hs ih =>
    rw [List.map_append] at h'
    obtain ⟨s₁', hrun', hs'⟩ := h'.last
    exact hstep _ _ _ _ _ (ih hrun') hs hs'

/-- A run whose steps are steps of another relation, under other events. -/
theorem Run.map {E' : Type} {step' : S → E' → S → Prop} (f : E → E') (hstep : ∀ s e s', step s e s' → step' s (f e) s')
    (h : Run step s₀ es s) : Run step' s₀ (es.map f) s := by
  induction h with
  | nil => exact .nil
  | snoc _ hs ih =>
    rw [List.map_append]
    exact ih.snoc (hstep _ _ _ hs)

/-- The run of a step function over a list of events. -/
theorem Run.of_foldlM {next : E → S → Option S} (h : es.foldlM (fun s e => next e s) s₀ = some s) :
    Run (fun s e s' => next e s = some s') s₀ es s := by
  induction es generalizing s₀ with
  | nil =>
    obtain rfl := Option.some.inj h
    exact .nil
  | cons e es ih =>
    rw [List.foldlM_cons] at h
    obtain ⟨s₁, hs, hrest⟩ := Option.bind_eq_some_iff.1 h
    exact Run.cons hs (ih hrest)

/-- What can be seen of the state such a run leads to. -/
theorem Run.of_foldlM_map {O : Type} {next : E → S → Option S} (observe : S → O) {seen : O}
    (h : (es.foldlM (fun s e => next e s) s₀).map observe = some seen) :
    ∃ s, Run (fun s e s' => next e s = some s') s₀ es s ∧ observe s = seen := by
  obtain ⟨s, hs, hseen⟩ := Option.map_eq_some_iff.1 h
  exact ⟨s, .of_foldlM hs, hseen⟩

/-- The steps with a property. -/
def Within (step P : S → E → S → Prop) (s : S) (e : E) (s' : S) : Prop := step s e s' ∧ P s e s'

theorem Run.mono {step' : S → E → S → Prop} (h : Run step s₀ es s) (hstep : ∀ s e s', step s e s' → step' s e s') :
    Run step' s₀ es s := by
  induction h with
  | nil => exact .nil
  | snoc _ hs ih => exact ih.snoc (hstep _ _ _ hs)

/-- A property that the steps of runs have when an invariant holds. -/
theorem Run.within {P : S → E → S → Prop} (I : S → Prop) (h0 : I s₀) (h : Run step s₀ es s)
    (hstep : ∀ s e s', e ∈ es → I s → step s e s' → P s e s' ∧ I s') : Run (Within step P) s₀ es s ∧ I s := by
  induction h with
  | nil => exact ⟨.nil, h0⟩
  | snoc _ hs ih =>
    obtain ⟨hrun, hi⟩ := ih fun s e s' he => hstep s e s' (List.mem_append_left _ he)
    obtain ⟨hp, hi'⟩ := hstep _ _ _ (by simp) hi hs
    exact ⟨hrun.snoc ⟨hs, hp⟩, hi'⟩

/-- Along a run that keeps an invariant, two properties of steps are the same
if they are in every state with the invariant. -/
theorem Run.within_iff {P Q : S → E → S → Prop} (I : S → Prop) (h0 : I s₀)
    (hiff : ∀ s e s', I s → step s e s' → (P s e s' ↔ Q s e s')) (hkeep : ∀ s e s', I s → step s e s' → Q s e s' → I s') :
    Run (Within step P) s₀ es s ↔ Run (Within step Q) s₀ es s := by
  constructor
  · intro h
    have hw := h.within (P := Q) I h0 fun s e s' _ hi hs =>
      have hq := (hiff s e s' hi hs.1).1 hs.2
      ⟨hq, hkeep s e s' hi hs.1 hq⟩
    exact hw.1.mono fun s e s' hs => ⟨hs.1.1, hs.2⟩
  · intro h
    have hw := h.within (P := P) I h0 fun s e s' _ hi hs => ⟨(hiff s e s' hi hs.1).2 hs.2, hkeep s e s' hi hs.1 hs.2⟩
    exact hw.1.mono fun s e s' hs => ⟨hs.1.1, hs.2⟩

/-! ## Observed runs -/

variable {O : Type}

/-- Beside its state a run carries what was observed at its steps. -/
def Watched (step : S → E → S → Prop) (obs : S → E → S → List O) (s : S × List O) (e : E) (s' : S × List O) : Prop :=
  step s.1 e s'.1 ∧ s'.2 = s.2 ++ obs s.1 e s'.1

theorem Run.observe {obs : S → E → S → List O} {w₀ : S × List O} {os : List O} (h : Run (Watched step obs) w₀ es (s, os))
    (hs : step s e s') : Run (Watched step obs) w₀ (es ++ [e]) (s', os ++ obs s e s') := h.snoc ⟨hs, rfl⟩

end Runs
