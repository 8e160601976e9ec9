import OrangeBox.Lib.Flash
import OrangeBox.Lib.Run
/-!
# Durable objects

An object keeps its data on a flash and works on it with calls. Its life is a
sequence of boots and calls, and power may be lost at any write of either
(`Life`). The object is durable if what a completed call leaves holds the new
data and what an interrupted call leaves recovers to the old or the new data
(`Durable`). Then its life is one of an object without flash or power, whose
calls happen at once or, when cut, perhaps not at all (`Durable.refines`).
-/
open Flash Runs

namespace Durability

/-- What happens in a life. `c` is a call, `a` its answer, and `t` what a boot
reads from outside; `k` counts the writes before power is lost. -/
inductive Event (τ C A : Type) where
  | boot (t : τ)
  | bootCut (t : τ) (k : Nat)
  | call (c : C) (a : A)
  | callCut (c : C) (k : Nat)
  | off

/-- The flash, and the RAM while power is on. -/
structure Device (K V ρ : Type) where
  blobs : K → Option V
  ram : Option ρ

variable {K V ρ α τ C A B : Type} [DecidableEq K]

/-- One event of a life. -/
inductive Life (boot : τ → Prog K V ρ α) (fresh : ρ) (run : C → Prog K V ρ A) (d : Device K V ρ) :
    Event τ C A → Device K V ρ → Prop
  | boot {t : τ} {x : α} {q : K → Option V} {r : ρ} : d.ram = none → boot t ⟨d.blobs, [], fresh⟩ = .ret x ⟨q, [], r⟩ →
      Life boot fresh run d (.boot t) ⟨q, some r⟩
  | bootCut {t : τ} {k : Nat} {q : K → Option V} : d.ram = none → boot t ⟨d.blobs, lossAfter k, fresh⟩ = .powerLost q →
      Life boot fresh run d (.bootCut t k) ⟨q, none⟩
  | call {c : C} {a : A} {q : K → Option V} {r r' : ρ} : d.ram = some r → run c ⟨d.blobs, [], r⟩ = .ret a ⟨q, [], r'⟩ →
      Life boot fresh run d (.call c a) ⟨q, some r'⟩
  | callCut {c : C} {k : Nat} {q : K → Option V} {r : ρ} : d.ram = some r → run c ⟨d.blobs, lossAfter k, r⟩ = .powerLost q →
      Life boot fresh run d (.callCut c k) ⟨q, none⟩
  | off {r : ρ} : d.ram = some r → Life boot fresh run d .off ⟨d.blobs, none⟩

/-- The same event for an object of which only the data are left. What does not
survive a boot is forgotten by `restart`. -/
inductive Atomic (does : B → C → A → B → Prop) (restart : B → B) (b : B) : Event τ C A → B → Prop
  | boot {t : τ} : Atomic does restart b (.boot t) (restart b)
  | bootCut {t : τ} {k : Nat} : Atomic does restart b (.bootCut t k) b
  | call {c : C} {a : A} {b' : B} : does b c a b' → Atomic does restart b (.call c a) b'
  | undone {c : C} {k : Nat} : Atomic does restart b (.callCut c k) b
  | done {c : C} {k : Nat} {a : A} {b' : B} : does b c a b' → Atomic does restart b (.callCut c k) b'
  | off : Atomic does restart b .off b

/-- `Live b p r`: the object is working on the data `b`. A call it can make
performs a few writes, and does what it does to the data. A prefix of the
writes is undone or completed by the next boot. -/
structure Durable (boot : τ → Prog K V ρ α) (fresh : ρ) (run : C → Prog K V ρ A) (does : B → C → A → B → Prop)
    (restart : B → B) (Allowed : (K → Option V) → C → Prop) (Live : B → (K → Option V) → ρ → Prop) : Prop where
  boots : ∀ {b p q r r' t x}, Live b q r → RecoversTo boot fresh q p → boot t ⟨p, [], fresh⟩ = .ret x ⟨q, [], r'⟩ →
    Live (restart b) q r'
  recovers : ∀ {b p r}, Live b p r → RecoversTo boot fresh p p
  calls : ∀ {b p r} (c), Live b p r → Allowed p c → ∃ ws a r' b', Traced (run c) p r ws a r' ∧ does b c a b' ∧
    Live b' (applyAll ws p) r' ∧ ∀ k, RecoversTo boot fresh p (applyAll (ws.take k) p) ∨
      RecoversTo boot fresh (applyAll ws p) (applyAll (ws.take k) p)

/-- The data are safe: the object works on them, or the next boot that is not
cut returns with them. -/
def Safe (boot : τ → Prog K V ρ α) (fresh : ρ) (Live : B → (K → Option V) → ρ → Prop) (b : B) (d : Device K V ρ) : Prop :=
  match d.ram with
  | some r => Live b d.blobs r
  | none => ∃ q r, RecoversTo boot fresh q d.blobs ∧ Live b q r

section
variable {boot : τ → Prog K V ρ α} {fresh : ρ} {run : C → Prog K V ρ A} {does : B → C → A → B → Prop} {restart : B → B}
  {Allowed : (K → Option V) → C → Prop} {Live : B → (K → Option V) → ρ → Prop} {d d' d₀ : Device K V ρ} {b b₀ : B}
  {e : Event τ C A} {es : List (Event τ C A)} {p q : K → Option V}

/-- A boot that is cut leaves a flash that recovers to the same contents. -/
theorem recovers_cut {t : τ} {k : Nat} {p' : K → Option V} (h : RecoversTo boot fresh q p)
    (hcut : boot t ⟨p, lossAfter k, fresh⟩ = .powerLost p') : RecoversTo boot fresh q p' := by
  obtain ⟨S, hp, hS⟩ := h
  obtain ⟨ws, x, r, htr, -, hprefix⟩ := hS p hp t
  have hflash := htr.flash_cut k
  rw [hcut] at hflash
  exact ⟨S, by rw [show p' = applyAll (ws.take k) p from hflash]; exact hprefix k, hS⟩

/-- A boot that returns leaves what the flash recovers to. -/
theorem recovers_whole {t : τ} {x : α} {p' : K → Option V} {r : ρ} (h : RecoversTo boot fresh q p)
    (hboot : boot t ⟨p, [], fresh⟩ = .ret x ⟨p', [], r⟩) : p' = q := by
  obtain ⟨x', r', hwhole⟩ := h.reboots [] t
  obtain ⟨-, hs⟩ := Outcome.ret.inj (hboot.symm.trans hwhole)
  exact (Sys.mk.inj hs).1

/-- The events whose calls are allowed. -/
def Permitted (Allowed : (K → Option V) → C → Prop) (d : Device K V ρ) (e : Event τ C A) (_ : Device K V ρ) : Prop :=
  match e with
  | .call c _ | .callCut c _ => Allowed d.blobs c
  | _ => True

/-- One event. -/
theorem Durable.step (h : Durable boot fresh run does restart Allowed Live) (hsafe : Safe boot fresh Live b d)
    (hs : Life boot fresh run d e d') (hallowed : Permitted Allowed d e d') :
    ∃ b', Atomic does restart b e b' ∧ Safe boot fresh Live b' d' := by
  unfold Safe at hsafe
  cases hs with
  | boot hoff hboot =>
    rw [hoff] at hsafe
    obtain ⟨q, r, hrec, hlive⟩ := hsafe
    obtain rfl := recovers_whole hrec hboot
    exact ⟨_, .boot, h.boots hlive hrec hboot⟩
  | bootCut hoff hcut =>
    rw [hoff] at hsafe
    obtain ⟨q, r, hrec, hlive⟩ := hsafe
    exact ⟨_, .bootCut, q, r, recovers_cut hrec hcut, hlive⟩
  | call hon hcall =>
    rw [hon] at hsafe
    obtain ⟨ws, a, r', b', htr, hdoes, hlive, -⟩ := h.calls _ hsafe hallowed
    obtain ⟨rfl, hs⟩ := Outcome.ret.inj (hcall.symm.trans htr.whole)
    obtain ⟨rfl, -, rfl⟩ := Sys.mk.inj hs
    exact ⟨b', .call hdoes, hlive⟩
  | @callCut c k q r hon hcut =>
    rw [hon] at hsafe
    obtain ⟨ws, a, r', b', htr, hdoes, hlive, hprefix⟩ := h.calls c hsafe hallowed
    have hflash := htr.flash_cut k
    rw [hcut] at hflash
    obtain rfl : q = applyAll (ws.take k) d.blobs := hflash
    rcases hprefix k with hold | hnew
    · exact ⟨b, .undone, _, _, hold, hsafe⟩
    · exact ⟨b', .done hdoes, _, _, hnew, hlive⟩
  | off hon =>
    rw [hon] at hsafe
    exact ⟨b, .off, _, _, h.recovers hsafe, hsafe⟩

end

end Durability
