import OrangeBox.PassStore.Ready
import OrangeBox.StateMachine.Steps
/-!
# The machine and its credential store

`BoxStateMachine` over a `CredStorage` that nothing fails in. Between its events
and updates the administrator adds, edits and removes credentials, the cache is
refreshed, and the clock and the rest of the box move on (`Turn`). The machine
charges only the credential verified last, and the store changes none but the
one it is called for, so a credential that is not verified again and not edited
stays as it is (`Box.Apart.run`).
-/
open Flash Linked Clock Runs OrangeBox.PassStore

namespace OrangeBox.StateMachine

/-! ## The box -/

/-- The store, and what `time` reads. -/
structure Vault where
  flash : Nvs
  ram : CredStorage
  time : UInt64

/-- A call of the store. -/
def Vault.call {α : Type} (op : UInt64 → Op α) (failed : α) (v : Vault) : α × Vault :=
  match op v.time ⟨v.flash, [], v.ram⟩ with
  | .ret a s => (a, { v with flash := s.blobs, ram := s.ram })
  | _ => (failed, v)

/-- The devices with this store. -/
def Devices.stored {W : Type} (dev : Devices W) : Devices (Vault × W) where
  verifyCred value credType w :=
    let (door, v) := w.1.call (PassStore.verifyCred (some value) credType) doorUnknown
    (door, v, w.2)
  usedCred door w :=
    let (done, v) := w.1.call (PassStore.usedCred door) false
    (done, v, w.2)
  openDoor door w := ((dev.openDoor door w.2).1, w.1, (dev.openDoor door w.2).2)
  readDoorState door w := dev.readDoorState door w.2
  ambientOn w := (w.1, dev.ambientOn w.2)
  ambientOff w := (w.1, dev.ambientOff w.2)
  display d w := (w.1, dev.display d w.2)
  rand w := ((dev.rand w.2).1, w.1, (dev.rand w.2).2)
  onUIUpdate action w := (w.1, dev.onUIUpdate action w.2)
  onStateChange old new t w := (w.1, dev.onStateChange old new t w.2)

/-- What happens to the box. -/
inductive Happening (W : Type) where
  | event (e : BoxEvent) (t t' : Nat)
  | update (t t' : Nat)
  | added (rec : CacheRecord)
  | updated (rec : CacheRecord)
  | removed (rec : CacheRecord)
  | refreshed (now : UInt64)
  | elsewhere (now : UInt64) (w : W)

/-- The box at a time. -/
abbrev Box (W : Type) := Moment (Vault × W)

/-- The store of the box after a call. -/
def Box.with {W : Type} (b : Box W) (s : Sys Key Blob CredStorage) : Box W :=
  { b with machine.world := ({ b.machine.world.1 with flash := s.blobs, ram := s.ram }, b.machine.world.2) }

/-- The system of the store. -/
def Box.sys {W : Type} (b : Box W) : Sys Key Blob CredStorage := ⟨b.machine.world.1.flash, [], b.machine.world.1.ram⟩

/-- The ids have not run out when a credential is added. -/
inductive Turn {W : Type} (dev : Devices W) (b : Box W) : Happening W → Box W → Prop
  | event {e : BoxEvent} {t t' : Nat} : b.clock ≤ t → t ≤ t' →
      Turn dev b (.event e t t') ⟨processEvent dev.stored e (stamp t) (stamp t') b.machine, t'⟩
  | update {t t' : Nat} : b.clock ≤ t → t ≤ t' →
      Turn dev b (.update t t') ⟨update dev.stored (stamp t) (stamp t') b.machine, t'⟩
  | added {rec : CacheRecord} {newId : UInt32} {s : Sys Key Blob CredStorage} :
      addCred rec b.sys = .ret newId s → newId ≠ lastKey → Turn dev b (.added rec) (b.with s)
  | updated {rec : CacheRecord} {done : Bool} {s : Sys Key Blob CredStorage} :
      updateCred rec b.sys = .ret done s → Turn dev b (.updated rec) (b.with s)
  | removed {rec : CacheRecord} {id : UInt32} {s : Sys Key Blob CredStorage} :
      removeCred rec b.sys = .ret id s → Turn dev b (.removed rec) (b.with s)
  | refreshed {done : Bool} {s : Sys Key Blob CredStorage} :
      refreshCache b.machine.world.1.time b.sys = .ret done s → Turn dev b (.refreshed b.machine.world.1.time) (b.with s)
  | elsewhere {now : UInt64} {w : W} :
      Turn dev b (.elsewhere now w) { b with machine.world := ({ b.machine.world.1 with time := now }, w) }

variable {W : Type} {dev : Devices W} {b b' b₀ : Box W} {m m' : Machine (Vault × W)} {v : Vault} {e : BoxEvent}
  {target : BoxState} {now millis : UInt32} {x : Option CacheRecord} {id : UInt32} {value : List UInt8} {credType : CredType}
  {happening : Happening W} {happenings : List (Happening W)} {door : UInt8} {verified verified' : Bool}

/-! ## What the machine does to the store -/

/-- The rest of the box leaves the store alone. -/
theorem stored_quiet (dev : Devices W) : Quiet dev.stored (fun w w' => w'.1 = w.1) where
  refl _ := rfl
  trans h h' := h'.trans h
  ambientOn _ := rfl
  ambientOff _ := rfl
  display _ _ := rfl
  rand _ := rfl
  onUIUpdate _ _ := rfl
  onStateChange _ _ _ _ := rfl

theorem verify_eq (v : Vault) (value : List UInt8) (credType : CredType) :
    v.call (PassStore.verifyCred (some value) credType) doorUnknown =
      match accepted v.ram (some value) credType v.time with
      | none => (doorUnknown, { v with ram := { v.ram with verifiedCredId := 0 } })
      | some c => (c.doorNum, { v with ram := { v.ram with verifiedCredId := c.credId } }) := by
  unfold Vault.call
  rw [verifyCred_eq]
  cases accepted v.ram (some value) credType v.time <;> rfl

/-- Only the transition to Open charges a credential. -/
theorem transitionTo_vault (dev : Devices W) (target : BoxState) (now millis : UInt32) (m : Machine (Vault × W)) :
    (transitionTo dev.stored target now millis m).world.1 =
      if target = .opened ∧ m.context.state ≠ .opened ∧ consumes m = true then
        (m.world.1.call (PassStore.usedCred m.context.doorToOpen) false).2
      else m.world.1 := by
  have hq := stored_quiet dev
  by_cases hself : target = m.context.state
  · have hnot : ¬(target = .opened ∧ m.context.state ≠ .opened ∧ consumes m = true) := fun h => h.2.1 (hself ▸ h.1)
    rw [transitionTo_self hself, if_neg hnot]
  by_cases hopening : target = .opening
  · -- Opening asks the rest of the box to open a door.
    subst hopening
    rw [transitionTo_world hself, if_neg (by simp)]
    obtain ⟨w, hw, ⟨-, -, hlast⟩ | ⟨-, -, hlast⟩⟩ := hq.opening now millis m
    · exact hlast.trans hw
    · exact hlast.trans hw
  by_cases hopened : target = .opened
  · -- Open is the one state whose entry calls the store.
    subst hopened
    rw [transitionTo_world hself]
    obtain ⟨w, hw, hlast⟩ := hq.opened now millis m
    have hworld : (entered dev.stored .opened now millis m).1 =
        (if consumes m = true then (dev.stored.usedCred m.context.doorToOpen w).2 else w).1 := hlast
    have hw' : w.1 = m.world.1 := hw
    change (entered dev.stored .opened now millis m).1 = _
    rw [hworld]
    by_cases hc : consumes m = true
    · rw [if_pos hc, if_pos ⟨rfl, Ne.symm hself, hc⟩, ← hw']
      rfl
    · rw [if_neg hc, if_neg fun h => hc h.2.2, hw']
  · rw [if_neg fun h => hopened h.1]
    exact hq.transitionTo hopening hopened m

/-- The text an event has verified. -/
def verifies (now : UInt32) (c : BoxStateContext) (e : BoxEvent) : Option (List UInt8 × CredType) :=
  if evaluated now c e then presented e else none

theorem verifies_of_presented {c : BoxStateContext} (he : evaluated now c e = true) (hp : presented e = some (value, credType)) :
    verifies now c e = some (value, credType) := by
  rw [verifies, if_pos he, hp]

/-- Before the transition an event verifies a text, or leaves the store alone. -/
theorem Reaction.vault (h : Reaction dev.stored now m e m' target) : m'.world.1 =
    match verifies now m.context e with
    | some (value, credType) => (m.world.1.call (PassStore.verifyCred (some value) credType) doorUnknown).2
    | none => m.world.1 := by
  have hnone : evaluated now m.context e = false → verifies now m.context e = none := fun he => by simp [verifies, he]
  cases h with
  | ignored hh =>
    rw [hnone (by cases e <;> simp_all [handled, evaluated])]
    exact (stored_quiet dev).notice _ _
  | penalty _ _ he =>
    rw [hnone (by rcases he with rfl | rfl <;> rfl)]
    rfl
  | password | scan | presence | web | opened | closed => rfl
  | home _ he =>
    rw [hnone he]
  | accepted he hp =>
    rw [verifies_of_presented he hp]
    rfl
  | refused he hp =>
    rw [verifies_of_presented he hp]
    rfl
  | invalidCode he =>
    rw [verifies, if_pos he]
    rfl

theorem transitionTo_credVerified (h : (transitionTo dev.stored target now millis m).context.credVerified = true) :
    m.context.credVerified = true := by
  by_cases hself : target = m.context.state
  · rwa [transitionTo_self hself] at h
  have hself := Ne.symm hself
  cases target with
  | home =>
    rw [transitionTo_home _ _ _ hself] at h
    cases h
  | password =>
    rw [transitionTo_password _ _ _ hself] at h
    exact h
  | presence =>
    obtain ⟨code, hc⟩ := transitionTo_presence dev.stored now millis hself
    rw [hc] at h
    exact h
  | opening =>
    rw [transitionTo_opening _ _ _ hself] at h
    exact h
  | opened =>
    rw [transitionTo_opened _ _ _ hself] at h
    cases h
  | closed =>
    rw [transitionTo_closed _ _ _ hself] at h
    exact h
  | external =>
    rw [transitionTo_external _ _ _ hself] at h
    exact h
  | badPass =>
    rw [transitionTo_badPass _ _ _ hself] at h
    split at h <;> exact h
  | scan =>
    rw [transitionTo_scan _ _ _ hself] at h
    cases h

/-- Only a verified text sets the flag. -/
theorem Reaction.credVerified (h : Reaction dev.stored now m e m' target) (hv : m'.context.credVerified = true) :
    m.context.credVerified = true ∨ (verifies now m.context e).isSome = true := by
  cases h with
  | ignored =>
    rw [notice_context] at hv
    exact .inl hv
  | accepted he hp | refused he hp => exact .inr (by rw [verifies_of_presented he hp]; rfl)
  | web => cases hv
  | opened | closed =>
    rw [notice_context] at hv
    exact .inl hv
  | _ => exact .inl hv

/-! ## A store in use -/

/-- The pool is well formed with ids left, and the cache agrees with it. -/
def Vault.Sane (v : Vault) : Prop := ∃ ids listed, Ready v.flash ids listed v.ram

namespace Vault.Sane

/-- A use returns. -/
theorem used (h : v.Sane) (door : UInt8) : ∃ done q r, usedCred door v.time ⟨v.flash, [], v.ram⟩ = .ret done ⟨q, [], r⟩ ∧
    v.call (PassStore.usedCred door) false = (done, { v with flash := q, ram := r }) := by
  obtain ⟨ids, listed, hready⟩ := h
  obtain ⟨done, q, r, hused⟩ : ∃ done q r, usedCred door v.time ⟨v.flash, [], v.ram⟩ = .ret done ⟨q, [], r⟩ := by
    rcases usedCred_cases door v.time hready.settled hready.cached with ⟨r, hused, -⟩ | ⟨c, q, r, huse⟩
    · exact ⟨false, _, r, hused⟩
    · exact ⟨true, q, r, huse.result⟩
  refine ⟨done, q, r, hused, ?_⟩
  unfold Vault.call
  rw [hused]

theorem use (h : v.Sane) (door : UInt8) : (v.call (PassStore.usedCred door) false).2.Sane := by
  obtain ⟨done, q, r, hused, hcall⟩ := h.used door
  obtain ⟨ids, listed, hready⟩ := h
  obtain ⟨q', r', ids', listed', hs, heff, hcached, -⟩ := hready.usedCred hused
  obtain ⟨rfl, -, rfl⟩ := Sys.mk.inj hs
  rw [hcall]
  exact ⟨ids', listed', hready.of_effect heff hcached⟩

theorem verify (h : v.Sane) (value : List UInt8) (credType : CredType) :
    (v.call (PassStore.verifyCred (some value) credType) doorUnknown).2.Sane := by
  obtain ⟨ids, listed, hready⟩ := h
  rw [verify_eq]
  split
  · exact ⟨ids, listed, hready.with_ram rfl⟩
  · exact ⟨ids, listed, hready.with_ram rfl⟩

theorem transitionTo (h : m.world.1.Sane) : (transitionTo dev.stored target now millis m).world.1.Sane := by
  rw [transitionTo_vault]
  split
  · exact h.use _
  · exact h

theorem event (h : m.world.1.Sane) : (processEvent dev.stored e now millis m).world.1.Sane := by
  obtain ⟨m', target, hr, he⟩ := processEvent_reaction dev.stored e now millis m
  rw [he]
  apply transitionTo
  rw [hr.vault]
  cases verifies now m.context e with
  | none => exact h
  | some text => exact h.verify text.1 text.2

theorem update (h : m.world.1.Sane) : (update dev.stored now millis m).world.1.Sane := by
  obtain ⟨target, -, hu⟩ := update_elapse dev.stored now millis m
  have hvault : (refresh dev.stored now m).world.1 = m.world.1 := (stored_quiet dev).refresh m
  rw [hu]
  apply transitionTo
  rw [hvault]
  exact h

end Vault.Sane

/-- Whatever happens leaves the store in order. -/
theorem Turn.sane (ht : Turn dev b happening b') (h : b.machine.world.1.Sane) : b'.machine.world.1.Sane := by
  cases ht with
  | event => exact h.event
  | update => exact h.update
  | added hadd hlast =>
    obtain ⟨ids, listed, hready⟩ := h
    obtain ⟨q, r', ids', listed', rfl, heff, hcached, -⟩ := hready.addCred hadd hlast
    exact ⟨ids', listed', hready.of_effect heff hcached⟩
  | updated hupdate =>
    obtain ⟨ids, listed, hready⟩ := h
    obtain ⟨q, r', listed', rfl, heff, hcached, -⟩ := hready.updateCred hupdate
    exact ⟨ids, listed', hready.of_effect heff hcached⟩
  | removed hremove =>
    obtain ⟨ids, listed, hready⟩ := h
    obtain ⟨q, r', ids', listed', rfl, heff, hcached, -⟩ := hready.removeCred hremove
    exact ⟨ids', listed', hready.of_effect heff hcached⟩
  | refreshed hrefresh =>
    obtain ⟨ids, listed, hready⟩ := h
    obtain ⟨r', rfl, hready', -⟩ := hready.refreshCache hrefresh
    exact ⟨ids, _, hready'⟩
  | elsewhere => exact h

/-! ## A credential that is left alone -/

/-- Credential `id` is stored as `x`, and is not the one that a verified text is
charged to. -/
structure Apart (id : UInt32) (x : Option CacheRecord) (verified : Bool) (v : Vault) : Prop where
  sane : v.Sane
  real : isRealCredId id = true
  issued : Issued v.flash id
  stored : storedCred v.flash id = x
  apart : verified = true → v.ram.verifiedCredId ≠ id

namespace Apart

theorem weaken (h : Apart id x verified v) (hv : verified' = true → verified = true) : Apart id x verified' v :=
  { h with apart := fun hverified => h.apart (hv hverified) }

/-- Another credential is verified, or none. -/
theorem verify (h : Apart id x verified v)
    (hother : ∀ c, accepted v.ram (some value) credType v.time = some c → c.credId ≠ id) :
    Apart id x true (v.call (PassStore.verifyCred (some value) credType) doorUnknown).2 := by
  obtain ⟨ids, listed, hready⟩ := h.sane
  rw [verify_eq]
  cases hacc : accepted v.ram (some value) credType v.time with
  | none => exact ⟨⟨ids, listed, hready.with_ram rfl⟩, h.real, h.issued, h.stored, fun _ => (isRealCredId_iff.1 h.real).1.symm⟩
  | some c => exact ⟨⟨ids, listed, hready.with_ram rfl⟩, h.real, h.issued, h.stored, fun _ => hother c hacc⟩

/-- The credential charged is another one. -/
theorem use (h : Apart id x true v) : Apart id x false (v.call (PassStore.usedCred door) false).2 := by
  obtain ⟨done, q, r, hused, hcall⟩ := h.sane.used door
  obtain ⟨ids, listed, hready⟩ := h.sane
  obtain ⟨q', r', ids', listed', hs, heff, hcached, -, -, hkeeps, -⟩ := hready.usedCred hused
  obtain ⟨rfl, -, rfl⟩ := Sys.mk.inj hs
  rw [hcall]
  exact ⟨⟨ids', listed', hready.of_effect heff hcached⟩, h.real, heff.issued hready.settled h.issued,
    (hkeeps id (h.apart rfl).symm).trans h.stored, fun h => absurd h Bool.false_ne_true⟩

theorem transitionTo (h : Apart id x m.context.credVerified m.world.1) :
    Apart id x (transitionTo dev.stored target now millis m).context.credVerified
      (transitionTo dev.stored target now millis m).world.1 := by
  rw [transitionTo_vault]
  split
  · rename_i hused
    obtain ⟨rfl, hne, hc⟩ := hused
    have hverified : m.context.credVerified = true := (Bool.and_eq_true_iff.1 hc).1
    rw [hverified] at h
    -- The flag is taken back with the use.
    refine h.use.weaken fun hv => ?_
    rw [transitionTo_opened _ _ _ hne] at hv
    exact hv
  · exact h.weaken transitionTo_credVerified

theorem event (h : Apart id x m.context.credVerified m.world.1) (hother : ∀ value credType c,
      verifies now m.context e = some (value, credType) →
        accepted m.world.1.ram (some value) credType m.world.1.time = some c → c.credId ≠ id) :
    Apart id x (processEvent dev.stored e now millis m).context.credVerified
      (processEvent dev.stored e now millis m).world.1 := by
  obtain ⟨m', target, hr, he⟩ := processEvent_reaction dev.stored e now millis m
  rw [he]
  apply transitionTo
  rw [hr.vault]
  cases hv : verifies now m.context e with
  | none =>
    refine h.weaken fun hverified => (hr.credVerified hverified).resolve_right fun hsome => ?_
    rw [hv] at hsome
    cases hsome
  | some text =>
    -- Whatever the text is verified for, it is not this credential.
    obtain ⟨value, credType⟩ := text
    exact (h.verify fun c => hother value credType c hv).weaken fun _ => rfl

theorem update (h : Apart id x m.context.credVerified m.world.1) :
    Apart id x (update dev.stored now millis m).context.credVerified (update dev.stored now millis m).world.1 := by
  obtain ⟨target, -, hu⟩ := update_elapse dev.stored now millis m
  have hvault : (refresh dev.stored now m).world.1 = m.world.1 := (stored_quiet dev).refresh m
  have hverified : (refresh dev.stored now m).context.credVerified = m.context.credVerified :=
    refresh_eq (·.credVerified) (fun _ _ _ _ _ => rfl) m
  rw [hu]
  apply transitionTo
  rw [hvault, hverified]
  exact h

end Apart

/-- Nothing that happens is about credential `id`: no edit, and no text verified for it. -/
def Spares (id : UInt32) (b : Box W) : Happening W → Prop
  | .event e t _ => ∀ value credType c, verifies (stamp t) b.machine.context e = some (value, credType) →
      accepted b.machine.world.1.ram (some value) credType b.machine.world.1.time = some c → c.credId ≠ id
  | .updated rec | .removed rec => rec.credId ≠ id
  | _ => True

/-- Credential `id` is left alone by the box. -/
def Box.Apart (id : UInt32) (x : Option CacheRecord) (b : Box W) : Prop :=
  StateMachine.Apart id x b.machine.context.credVerified b.machine.world.1

theorem Box.Apart.turn (h : b.Apart id x) (ht : Turn dev b happening b') (hs : Spares id b happening) : b'.Apart id x := by
  obtain ⟨ids, listed, hready⟩ := h.sane
  cases ht with
  | event => exact h.event hs
  | update => exact h.update
  | added hadd hlast =>
    obtain ⟨q, r', ids', listed', rfl, heff, hcached, hver, hkeeps, -⟩ := hready.addCred hadd hlast
    exact ⟨⟨ids', listed', hready.of_effect heff hcached⟩, h.real, heff.issued hready.settled h.issued,
      (hkeeps id h.real h.issued).1.trans h.stored, fun hv => hver.symm ▸ h.apart hv⟩
  | updated hupdate =>
    obtain ⟨q, r', listed', rfl, heff, hcached, hver, hkeeps, -⟩ := hready.updateCred hupdate
    exact ⟨⟨ids, listed', hready.of_effect heff hcached⟩, h.real, heff.issued hready.settled h.issued,
      (hkeeps id (Ne.symm hs)).1.trans h.stored, fun hv => hver.symm ▸ h.apart hv⟩
  | removed hremove =>
    obtain ⟨q, r', ids', listed', rfl, heff, hcached, hver, -, hkeeps, -⟩ := hready.removeCred hremove
    exact ⟨⟨ids', listed', hready.of_effect heff hcached⟩, h.real, heff.issued hready.settled h.issued,
      (hkeeps id (Ne.symm hs)).1.trans h.stored, fun hv => hver.symm ▸ h.apart hv⟩
  | refreshed hrefresh =>
    obtain ⟨r', rfl, hready', hver⟩ := hready.refreshCache hrefresh
    exact ⟨⟨ids, _, hready'⟩, h.real, h.issued, h.stored, fun hv => hver.symm ▸ h.apart hv⟩
  | elsewhere => exact ⟨⟨ids, listed, hready⟩, h.real, h.issued, h.stored, h.apart⟩

/-- A credential that is left alone is stored as before. -/
theorem Box.Apart.run (h : b₀.Apart id x) (hrun : Run (Within (Turn dev) fun b happening _ => Spares id b happening) b₀ happenings b) :
    b.Apart id x := by
  induction hrun with
  | nil => exact h
  | snoc _ hs ih => exact ih.turn hs.1 hs.2

end OrangeBox.StateMachine
