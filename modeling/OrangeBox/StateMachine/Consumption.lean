import OrangeBox.PassStore.Verify
import OrangeBox.StateMachine.Vault
/-!
# Charging a credential for a door

A text is verified for a credential, the lock of its door is activated, and the
door is found open: three steps with others in between. The credential is
charged once, and for this door, exactly when no web request came in between and
the cache was not refreshed outside its validity (`consumed_once_iff`).
-/
open Flash Linked Clock Runs OrangeBox.PassStore

namespace OrangeBox.StateMachine

variable {W : Type} {dev : Devices W} {b b' b₀ b₁ b₂ b₃ : Box W} {m : Machine (Vault × W)} {v : Vault} {e : BoxEvent}
  {target : BoxState} {now millis : UInt32} {c : CacheRecord} {happening : Happening W} {flow : List (Happening W)}
  {t t' start : Nat} {kept kept' : Prop}

/-! ## An opening -/

/-- A text is verified for credential `c`, which has uses left, and the lock of
its door is activated. -/
structure Opens (dev : Devices W) (b : Box W) (e : BoxEvent) (t t' : Nat) (c : CacheRecord) (b₁ : Box W) : Prop where
  turn : Turn dev b (.event e t t') b₁
  verified : ∃ value credType, verifies (stamp t) b.machine.context e = some (value, credType) ∧
    accepted b.machine.world.1.ram (some value) credType b.machine.world.1.time = some c
  counted : 0 < c.remaining
  opening : b₁.machine.context.state = .opening
  activated : b₁.machine.context.doorOpenDuration ≠ 0

/-- The door is reported open, by its contact or to an update. -/
def Reports (dev : Devices W) (door : UInt8) (b : Box W) : Happening W → Prop
  | .event e _ _ => e = .doorOpened door
  | .update t _ => dev.readDoorState door (refresh dev.stored (stamp t) b.machine).world.2 = doorOpen
  | _ => False

/-- The machine looks at its clock before `deadline`, if it does. -/
def Before (deadline : Nat) : Happening W → Prop
  | .event _ t _ | .update t _ => t < deadline
  | _ => True

/-- Between the verification and the report: the timeout of Opening has not come,
the door was not reported open, and nothing is about the credential. -/
structure Meanwhile (dev : Devices W) (c : CacheRecord) (deadline : Nat) (b : Box W) (happening : Happening W) : Prop where
  spares : Spares c.credId b happening
  before : Before deadline happening
  shut : ¬Reports dev c.doorNum b happening
  timeout : ∀ t t', happening ≠ .event .doorOpenTimeout t t'

def webRequested : Happening W → Bool
  | .event (.webOpenBox _) _ _ => true
  | _ => false

def refreshTime : Happening W → Option UInt64
  | .refreshed now => some now
  | _ => none

/-- The time of the last refresh. -/
def lastRefresh (flow : List (Happening W)) : Option UInt64 := (flow.filterMap refreshTime).getLast?

/-- Credential `c` is in the cache after the last refresh. -/
def CacheKept (c : CacheRecord) (flow : List (Happening W)) : Prop := ∀ now, lastRefresh flow = some now → c.isActive now = true

/-! ## The flag of the scanner test -/

@[simp] theorem setExternal_scannerTestKeepCred (action : UInt8) (m : Machine (Vault × W)) :
    (setExternal dev.stored action m).scannerTestKeepCred = m.scannerTestKeepCred := by
  unfold setExternal
  split <;> rfl

theorem onExit_scannerTestKeepCred (state : BoxState) (m : Machine (Vault × W)) :
    (onExit dev.stored state m).scannerTestKeepCred = m.scannerTestKeepCred := by
  cases state <;> rfl

theorem onEnter_scannerTestKeepCred (state : BoxState) (m : Machine (Vault × W)) :
    (onEnter dev.stored state now millis m).scannerTestKeepCred = m.scannerTestKeepCred := by
  cases state with
  | home => simp [onEnter, onEnterHome, enableExternal]
  | password => simp [onEnter, onEnterPassword, disableExternal]
  | presence => simp [onEnter, onEnterPresence, generatePresenceCode]
  | opening =>
    simp only [onEnter, onEnterOpening, activateLock]
    split <;> split <;> simp [disableExternal]
  | opened =>
    simp only [onEnter, onEnterOpen]
    split <;> rfl
  | closed | external => rfl
  | badPass =>
    simp only [onEnter, onEnterBadPass, write_scannerTestKeepCred]
    split <;> split <;> rfl
  | scan => simp [onEnter, onEnterScan, disableExternal]

theorem transitionTo_scannerTestKeepCred (target : BoxState) (m : Machine (Vault × W)) :
    (transitionTo dev.stored target now millis m).scannerTestKeepCred = m.scannerTestKeepCred := by
  unfold transitionTo
  split
  · rfl
  · dsimp only
    rw [Machine.call_scannerTestKeepCred, scheduleNextDisplayRefresh, Machine.set_scannerTestKeepCred, onEnter_scannerTestKeepCred,
      Machine.set_scannerTestKeepCred, onExit_scannerTestKeepCred]

theorem Reaction.scannerTestKeepCred {m' : Machine (Vault × W)} (h : Reaction dev.stored now m e m' target) :
    m'.scannerTestKeepCred = m.scannerTestKeepCred := by
  cases h with
  | ignored =>
    unfold notice
    split <;> rfl
  | _ => rfl

theorem refresh_scannerTestKeepCred (m : Machine (Vault × W)) :
    (refresh dev.stored now m).scannerTestKeepCred = m.scannerTestKeepCred := by
  have hdisplay : ∀ m : Machine (Vault × W), (refreshPeriodicDisplay dev.stored now m).2.scannerTestKeepCred = m.scannerTestKeepCred := by
    intro m
    unfold refreshPeriodicDisplay
    dsimp only
    split
    · rfl
    · dsimp only
      split <;> rfl
    · dsimp only
      split <;> rfl
    all_goals rfl
  unfold refresh
  dsimp only
  split
  · split
    · exact hdisplay _
    · exact hdisplay _
  · rfl

/-- No turn sets the flag. -/
theorem Turn.scannerTestKeepCred (h : Turn dev b happening b') :
    b'.machine.scannerTestKeepCred = b.machine.scannerTestKeepCred := by
  cases h with
  | event =>
    obtain ⟨m', target, hr, he⟩ := processEvent_reaction dev.stored _ (stamp _) (stamp _) b.machine
    dsimp only
    rw [he, transitionTo_scannerTestKeepCred, hr.scannerTestKeepCred]
  | update =>
    obtain ⟨target, -, hu⟩ := update_elapse dev.stored (stamp _) (stamp _) b.machine
    dsimp only
    rw [hu, transitionTo_scannerTestKeepCred, refresh_scannerTestKeepCred]
  | _ => rfl

/-! ## The verified credential -/

/-- The store holds `c`, which is the verified credential and is cached if `kept`. -/
structure Held (c : CacheRecord) (kept : Prop) (v : Vault) : Prop where
  ready : ∃ ids listed, Ready v.flash ids listed v.ram ∧ (c.credId ∈ listed ↔ kept)
  real : isRealCredId c.credId = true
  stored : storedCred v.flash c.credId = some c
  verified : v.ram.verifiedCredId = c.credId

namespace Held

theorem ne_zero (h : Held c kept v) : v.ram.verifiedCredId ≠ 0 := by
  rw [h.verified]
  exact (isRealCredId_iff.1 h.real).1

theorem congr (h : Held c kept v) (hk : kept ↔ kept') : Held c kept' v := by
  obtain ⟨ids, listed, hready, hlisted⟩ := h.ready
  exact { h with ready := ⟨ids, listed, hready, hlisted.trans hk⟩ }

/-- A text was verified for `c`. -/
theorem of_accepted {value : List UInt8} {credType : CredType} (h : v.Sane)
    (hacc : accepted v.ram (some value) credType v.time = some c) :
    Held c True (v.call (PassStore.verifyCred (some value) credType) doorUnknown).2 := by
  obtain ⟨ids, listed, hready⟩ := h
  obtain ⟨-, -, hmem, -⟩ := accepted_some hacc
  obtain ⟨hlisted, old, hold, heq, -⟩ := hready.settled.stored_of_mem hready.cached hmem
  have hreal : isRealCredId c.credId = true := hready.settled.real (hready.settled.sub hlisted)
  rw [verify_eq, hacc]
  exact ⟨⟨ids, listed, hready.with_ram rfl, by simp [hlisted]⟩, hreal, storedCred_eq_some.2 ⟨old, hold, heq⟩, rfl⟩

/-- The cache entry that a use finds is the credential. -/
theorem charged_iff (h : Held c kept v) {c' : CacheRecord} : charged v.ram c.doorNum = some c' ↔ kept ∧ c' = c := by
  obtain ⟨ids, listed, hready, hlisted⟩ := h.ready
  -- A cached credential of this id is the stored one.
  have hsame : ∀ x, charged v.ram c.doorNum = some x → kept ∧ x = c := by
    intro x hx
    obtain ⟨hmem, hid, -⟩ := charged_some hx
    obtain ⟨hx', old, hold, heq, -⟩ := hready.settled.stored_of_mem hready.cached hmem
    rw [hid, h.verified] at hold hx'
    have hstored := h.stored.symm.trans (storedCred_eq_some.2 ⟨old, hold, heq⟩)
    exact ⟨hlisted.1 hx', (Option.some.inj hstored).symm⟩
  constructor
  · exact hsame c'
  · rintro ⟨hk, rfl⟩
    have hmem : c' ∈ v.ram.credsCache := by
      rw [hready.cached]
      exact mem_entries.2 ⟨c'.credId, hlisted.2 hk, h.stored⟩
    cases hx : charged v.ram c'.doorNum with
    | some x => rw [(hsame x hx).2]
    | none =>
      have hnone := List.find?_eq_none.1 hx c' hmem
      simp [h.verified] at hnone

/-- A use charges the cached credential. -/
theorem charge (h : Held c kept v) (hk : kept) (hactive : c.isActive v.time = true) :
    Apart c.credId c.consumed false (v.call (PassStore.usedCred c.doorNum) false).2 := by
  have hcharged := h.charged_iff.2 ⟨hk, rfl⟩
  have hverified := h.ne_zero
  obtain ⟨ids, listed, hready, -⟩ := h.ready
  have hmem := hready.mem_of_stored h.real h.stored
  obtain ⟨q, r, huse⟩ := exists_use hready.settled hready.cached hverified hcharged hactive
  have hcall : v.call (PassStore.usedCred c.doorNum) false = (true, { v with flash := q, ram := r }) := by
    unfold Vault.call
    rw [huse.result]
  rw [hcall]
  exact ⟨⟨_, _, hready.of_effect huse.effect huse.cached⟩, h.real, huse.effect.issued hready.settled (hready.issued hmem),
    (huse.stored c.credId).trans (if_pos rfl), fun hv => absurd hv Bool.false_ne_true⟩

/-- Without a use the credential stays as it is. -/
theorem apart (h : Held c kept v) : Apart c.credId (some c) false v := by
  obtain ⟨ids, listed, hready, -⟩ := h.ready
  exact ⟨⟨ids, listed, hready⟩, h.real, hready.issued (hready.mem_of_stored h.real h.stored), h.stored,
    fun hv => absurd hv Bool.false_ne_true⟩

/-- A use that does not find the credential changes nothing stored. -/
theorem miss (h : Held c kept v) (hk : ¬kept) : Apart c.credId (some c) false (v.call (PassStore.usedCred c.doorNum) false).2 := by
  have hcharged : charged v.ram c.doorNum = none := by
    cases hx : charged v.ram c.doorNum with
    | none => rfl
    | some x => exact absurd (h.charged_iff.1 hx).1 hk
  have hcall : v.call (PassStore.usedCred c.doorNum) false = (false, { v with ram := { v.ram with verifiedCredId := 0 } }) := by
    unfold Vault.call
    rw [usedCred_unknown h.ne_zero hcharged]
  obtain ⟨ids, listed, hready, -⟩ := h.ready
  rw [hcall]
  exact { h.apart with sane := ⟨ids, listed, hready.with_ram rfl⟩, apart := fun hv => absurd hv Bool.false_ne_true }

end Held

/-- The machine is called. -/
def Happening.Clocked : Happening W → Prop
  | .event .. | .update .. => True
  | _ => False

/-- The credential is cached after something happened. -/
def keptAfter (c : CacheRecord) (kept : Prop) (happening : Happening W) : Prop :=
  match refreshTime happening with
  | some now => c.isActive now = true
  | none => kept

/-- The administrator and the cache leave the verified credential stored. -/
theorem Held.turn (h : Held c kept b.machine.world.1) (ht : Turn dev b happening b') (hs : Spares c.credId b happening)
    (hclocked : ¬happening.Clocked) :
    Held c (keptAfter c kept happening) b'.machine.world.1 := by
  obtain ⟨ids, listed, hready, hlisted⟩ := h.ready
  have hmem := hready.mem_of_stored h.real h.stored
  cases ht with
  | event => exact absurd trivial hclocked
  | update => exact absurd trivial hclocked
  | added hadd hlast =>
    -- The new id is another one, since that of `c` was given out.
    obtain ⟨q, r', ids', listed', rfl, heff, hcached, hver, hkeeps, -⟩ := hready.addCred hadd hlast
    obtain ⟨hstored, hlisted'⟩ := hkeeps c.credId h.real (hready.issued hmem)
    exact ⟨⟨ids', listed', hready.of_effect heff hcached, hlisted'.trans hlisted⟩, h.real, hstored.trans h.stored,
      hver.trans h.verified⟩
  | updated hupdate =>
    obtain ⟨q, r', listed', rfl, heff, hcached, hver, hkeeps, -⟩ := hready.updateCred hupdate
    obtain ⟨hstored, hlisted'⟩ := hkeeps c.credId (Ne.symm hs)
    exact ⟨⟨ids, listed', hready.of_effect heff hcached, hlisted'.trans hlisted⟩, h.real, hstored.trans h.stored,
      hver.trans h.verified⟩
  | removed hremove =>
    obtain ⟨q, r', ids', listed', rfl, heff, hcached, hver, -, hkeeps, -⟩ := hready.removeCred hremove
    obtain ⟨hstored, hlisted'⟩ := hkeeps c.credId (Ne.symm hs)
    exact ⟨⟨ids', listed', hready.of_effect heff hcached, hlisted'.trans hlisted⟩, h.real, hstored.trans h.stored,
      hver.trans h.verified⟩
  | refreshed hrefresh =>
    obtain ⟨r', rfl, hready', hver⟩ := hready.refreshCache hrefresh
    -- The cache is built anew of what is active at the time of the refresh.
    refine ⟨⟨ids, _, hready', ?_⟩, h.real, h.stored, hver.trans h.verified⟩
    obtain ⟨old, hold, rfl⟩ := storedCred_eq_some.1 h.stored
    rw [List.mem_filter, activeIn, hold]
    exact and_iff_right hmem
  | elsewhere => exact ⟨⟨ids, listed, hready, hlisted⟩, h.real, h.stored, h.verified⟩

/-! ## In Opening -/

section
variable {V : Type} {dev : Devices V} {m : Machine V}

/-- In Opening an event does nothing, or it is one of three. -/
theorem processEvent_of_opening (dev : Devices V) (e : BoxEvent) (now millis : UInt32) (hs : m.context.state = .opening) :
    processEvent dev e now millis m = notice dev e m ∨ e = .doorOpenTimeout ∨ (∃ doorNum, e = .webOpenBox doorNum) ∨
      e = .doorOpened m.context.doorToOpen := by
  cases hh : handled m.context e with
  | false => exact .inl (processEvent_ignored hh)
  | true =>
    cases e with
    | doorOpenTimeout => exact .inr (.inl rfl)
    | webOpenBox doorNum => exact .inr (.inr (.inl ⟨doorNum, rfl⟩))
    | doorOpened doorNum =>
      simp only [handled, Bool.and_eq_true, decide_eq_true_eq] at hh
      exact .inr (.inr (.inr (by rw [hh.2])))
    | _ => simp [handled, hs] at hh

theorem doorOpened_of_opening (dev : Devices V) (now millis : UInt32) (hs : m.context.state = .opening) :
    processEvent dev (.doorOpened m.context.doorToOpen) now millis m =
      transitionTo dev .opened now millis (notice dev (.doorOpened m.context.doorToOpen) m) := by
  simp [processEvent, handleSensorEvent, notice, write, hs]

theorem update_of_opening (dev : Devices V) (now millis : UInt32) (hs : m.context.state = .opening) : update dev now millis m =
    if dev.readDoorState m.context.doorToOpen (refresh dev now m).world = doorOpen then
      transitionTo dev .opened now millis (refresh dev now m)
    else if timeoutElapsed m.context.doorOpenStartedAt m.context.doorOpenDuration now then
      transitionTo dev .home now millis (refresh dev now m)
    else refresh dev now m := by
  have hstate : (refresh dev now m).context.state = .opening := (refresh_state m).trans hs
  have hdoor : (refresh dev now m).context.doorToOpen = m.context.doorToOpen :=
    refresh_eq (·.doorToOpen) (fun _ _ _ _ _ => rfl) m
  have hstarted : (refresh dev now m).context.doorOpenStartedAt = m.context.doorOpenStartedAt :=
    refresh_eq (·.doorOpenStartedAt) (fun _ _ _ _ _ => rfl) m
  have hduration : (refresh dev now m).context.doorOpenDuration = m.context.doorOpenDuration :=
    refresh_eq (·.doorOpenDuration) (fun _ _ _ _ _ => rfl) m
  unfold update
  dsimp only
  rw [hstate]
  dsimp only
  rw [hdoor, hstarted, hduration]

end

/-! ## Waiting for the door -/

/-- Opening waits for the door of credential `c`, whose lock was activated at `start`. -/
structure Awaits (c : CacheRecord) (start : Nat) (kept : Prop) (b : Box W) : Prop where
  state : b.machine.context.state = .opening
  door : b.machine.context.doorToOpen = c.doorNum
  verified : b.machine.context.credVerified = true
  duration : b.machine.context.doorOpenDuration = doorOpeningTimeout
  startedAt : b.machine.context.doorOpenStartedAt = stamp start
  keep : b.machine.scannerTestKeepCred = false
  started : start ≤ b.clock
  held : Held c kept b.machine.world.1

theorem Awaits.congr (h : Awaits c start kept b) (hk : kept ↔ kept') : Awaits c start kept' b :=
  { h with held := h.held.congr hk }

theorem verifyCred_door (dev : Devices W) {w : Vault × W} {value : List UInt8} {credType : CredType}
    (hacc : accepted w.1.ram (some value) credType w.1.time = some c) : (dev.stored.verifyCred value credType w).1 = c.doorNum := by
  have hcall := verify_eq w.1 value credType
  rw [hacc] at hcall
  exact congrArg Prod.fst hcall

/-- A text is evaluated outside Opening. -/
theorem accept_ne_opening {value : List UInt8} {credType : CredType} (he : evaluated now m.context e = true) :
    (accept dev.stored value credType m).context.state ≠ .opening := by
  intro hstate
  rcases evaluated_state he with hs | hs
  · cases hs.symm.trans hstate
  · cases hs.symm.trans hstate

/-- Opening waits once the lock is activated for a verified text. -/
theorem awaits_of_accepted {value : List UInt8} {credType : CredType}
    (hacc : accepted b.machine.world.1.ram (some value) credType b.machine.world.1.time = some c)
    (hne : (accept dev.stored value credType b.machine).context.state ≠ .opening) (hsane : b.machine.world.1.Sane)
    (hkeep : (transitionTo dev.stored .opening now (stamp t') (accept dev.stored value credType b.machine)).scannerTestKeepCred = false)
    (hactivated : (transitionTo dev.stored .opening now (stamp t')
      (accept dev.stored value credType b.machine)).context.doorOpenDuration ≠ 0) :
    Awaits c t' True ⟨transitionTo dev.stored .opening now (stamp t') (accept dev.stored value credType b.machine), t'⟩ := by
  have hctx := transitionTo_opening dev.stored now (stamp t') hne
  rw [hctx] at hactivated
  -- The duration is 0 when the lock was not activated.
  have htried : (tried dev.stored (accept dev.stored value credType b.machine)).1 = true := by
    by_contra hfailed
    exact hactivated (if_neg hfailed)
  rw [htried] at hctx
  refine ⟨transitionTo_state _ _ _ _ _, ?_, ?_, ?_, ?_, hkeep, Nat.le_refl t', ?_⟩
  · rw [hctx]
    exact verifyCred_door dev hacc
  · rw [hctx]
    rfl
  · rw [hctx]
    rfl
  · rw [hctx]
  · dsimp only
    rw [transitionTo_vault, if_neg (by simp)]
    exact .of_accepted hsane hacc

theorem Opens.awaits (h : Opens dev b e t t' c b₁) (hkeep : b.machine.scannerTestKeepCred = false)
    (hsane : b.machine.world.1.Sane) : Awaits c t' True b₁ := by
  have hkeep₁ := h.turn.scannerTestKeepCred.trans hkeep
  obtain ⟨value, credType, hv, hacc⟩ := h.verified
  have hopening := h.opening
  have hactivated := h.activated
  cases h.turn with
  | event hle hle' =>
    unfold verifies at hv
    split at hv
    · rename_i he
      have hp : processEvent dev.stored e (stamp t) (stamp t') b.machine = _ := processEvent_presented he hv
      dsimp only at hopening hactivated hkeep₁ ⊢
      rw [hp] at hopening hactivated hkeep₁ ⊢
      split at hopening
      · -- A refused text leads to BadPass.
        rw [transitionTo_state] at hopening
        contradiction
      · rename_i hknown
        rw [if_neg hknown] at hactivated hkeep₁ ⊢
        exact awaits_of_accepted hacc (accept_ne_opening he) hsane hkeep₁ hactivated
    · cases hv

/-- The same wait, as far as it goes. -/
theorem Awaits.of_context (h : Awaits c start kept b) (hstate : b'.machine.context.state = b.machine.context.state)
    (hdoor : b'.machine.context.doorToOpen = b.machine.context.doorToOpen)
    (hverified : b'.machine.context.credVerified = b.machine.context.credVerified)
    (hduration : b'.machine.context.doorOpenDuration = b.machine.context.doorOpenDuration)
    (hstarted : b'.machine.context.doorOpenStartedAt = b.machine.context.doorOpenStartedAt)
    (hkeep : b'.machine.scannerTestKeepCred = b.machine.scannerTestKeepCred) (hclock : b.clock ≤ b'.clock)
    (hheld : Held c kept' b'.machine.world.1) : Awaits c start kept' b' where
  state := hstate.trans h.state
  door := hdoor.trans h.door
  verified := hverified.trans h.verified
  duration := hduration.trans h.duration
  startedAt := hstarted.trans h.startedAt
  keep := hkeep.trans h.keep
  started := h.started.trans hclock
  held := hheld

theorem Opens.clock (h : Opens dev b e t t' c b₁) : b₁.clock = t' := by
  cases h.turn
  rfl

/-- The event is not the awaited one, not the timeout and no web request. -/
theorem Awaits.event (h : Awaits c start kept b) (ht : Turn dev b (.event e t t') b')
    (hopened : e ≠ .doorOpened c.doorNum) (htimeout : e ≠ .doorOpenTimeout) (hweb : ∀ doorNum, e ≠ .webOpenBox doorNum) :
    Awaits c start kept b' := by
  have hkeep := ht.scannerTestKeepCred
  cases ht with
  | event hle hle' =>
    have he : processEvent dev.stored e (stamp t) (stamp t') b.machine = notice dev.stored e b.machine := by
      rcases processEvent_of_opening dev.stored e (stamp t) (stamp t') h.state with he | he | ⟨doorNum, he⟩ | he
      · exact he
      · exact absurd he htimeout
      · exact absurd he (hweb doorNum)
      · exact absurd (he.trans (by rw [h.door])) hopened
    have hvault : (notice dev.stored e b.machine).world.1 = b.machine.world.1 := (stored_quiet dev).notice e b.machine
    have hcontext : (processEvent dev.stored e (stamp t) (stamp t') b.machine).context = b.machine.context := by
      rw [he, notice_context]
    refine h.of_context ?_ ?_ ?_ ?_ ?_ hkeep (hle.trans hle') ?_
    · exact congrArg (·.state) hcontext
    · exact congrArg (·.doorToOpen) hcontext
    · exact congrArg (·.credVerified) hcontext
    · exact congrArg (·.doorOpenDuration) hcontext
    · exact congrArg (·.doorOpenStartedAt) hcontext
    · dsimp only
      rw [he, hvault]
      exact h.held

/-- The update finds the door shut before the timeout. -/
theorem Awaits.update (h : Awaits c start kept b) (ht : Turn dev b (.update t t') b')
    (hshut : ¬Reports dev c.doorNum b (.update t t')) (hbefore : t < start + doorOpeningTimeout.toNat) : Awaits c start kept b' := by
  have hkeep := ht.scannerTestKeepCred
  cases ht with
  | update hle hle' =>
    have hdoor : dev.stored.readDoorState b.machine.context.doorToOpen (refresh dev.stored (stamp t) b.machine).world ≠ doorOpen := by
      rw [h.door]
      exact hshut
    -- The stamps show no more time than has passed.
    have hrunning : timeoutElapsed b.machine.context.doorOpenStartedAt b.machine.context.doorOpenDuration (stamp t) = false := by
      by_contra hover
      rw [h.startedAt, h.duration, Bool.not_eq_false] at hover
      exact absurd hbefore (Nat.not_lt.2 (le_of_timeoutElapsed (h.started.trans hle) hover))
    have hu := update_of_opening dev.stored (stamp t) (stamp t') h.state
    rw [if_neg hdoor, hrunning, if_neg Bool.false_ne_true] at hu
    have hvault : (refresh dev.stored (stamp t) b.machine).world.1 = b.machine.world.1 := (stored_quiet dev).refresh b.machine
    dsimp only at hkeep
    rw [hu] at hkeep ⊢
    refine h.of_context ?_ ?_ ?_ ?_ ?_ hkeep (hle.trans hle') ?_
    · exact refresh_state b.machine
    · exact refresh_eq (·.doorToOpen) (fun _ _ _ _ _ => rfl) b.machine
    · exact refresh_eq (·.credVerified) (fun _ _ _ _ _ => rfl) b.machine
    · exact refresh_eq (·.doorOpenDuration) (fun _ _ _ _ _ => rfl) b.machine
    · exact refresh_eq (·.doorOpenStartedAt) (fun _ _ _ _ _ => rfl) b.machine
    · dsimp only
      rw [hvault]
      exact h.held

/-- Until the door is reported open or the timeout comes, Opening waits on,
unless there is a web request. -/
theorem Awaits.turn (h : Awaits c start kept b) (ht : Turn dev b happening b')
    (hm : Meanwhile dev c (start + doorOpeningTimeout.toNat) b happening) (hweb : webRequested happening = false) :
    Awaits c start (keptAfter c kept happening) b' := by
  cases happening with
  | event e t t' =>
    refine h.event ht hm.shut ?_ ?_
    · rintro rfl
      exact hm.timeout t t' rfl
    · rintro doorNum rfl
      cases hweb
  | update t t' => exact h.update ht hm.shut hm.before
  | added | updated | removed | refreshed | elsewhere =>
    have hheld := h.held.turn ht hm.spares id
    cases ht
    exact h.of_context rfl rfl rfl rfl rfl rfl (Nat.le_refl _) hheld

/-- A web request in Opening takes the verification back, and the lock was activated. -/
theorem Awaits.web (h : Awaits c start kept b) (ht : Turn dev b happening b') (hweb : webRequested happening = true) :
    b'.Apart c.credId (some c) := by
  cases ht with
  | @event e t t' hle hle' =>
    unfold webRequested at hweb
    split at hweb
    · rename_i doorNum _ _ he
      cases he
      -- Going to the state it is in, the machine keeps what the request overwrote.
      have hself : processEvent dev.stored (.webOpenBox doorNum) (stamp t) (stamp t') b.machine = request doorNum b.machine :=
        transitionTo_self h.state.symm
      rw [Box.Apart, hself]
      exact h.held.apart
    · cases hweb
  | _ => cases hweb

/-- The transition to Open uses the credential for the door that is waited for. -/
theorem opened_uses {m : Machine (Vault × W)} (hstate : m.context.state = .opening) (hverified : m.context.credVerified = true)
    (hkeep : m.scannerTestKeepCred = false) : (transitionTo dev.stored .opened now millis m).world.1 =
      (m.world.1.call (PassStore.usedCred m.context.doorToOpen) false).2 ∧
      (transitionTo dev.stored .opened now millis m).context.credVerified = false := by
  have hne : m.context.state ≠ .opened := by rw [hstate]; simp
  have hconsumes : consumes m = true := by simp [consumes, hverified, hkeep]
  constructor
  · rw [transitionTo_vault, if_pos ⟨rfl, hne, hconsumes⟩]
  · rw [transitionTo_opened _ _ _ hne]

/-- When the door is reported open the credential is used, once. -/
theorem Awaits.report (h : Awaits c start kept b) (ht : Turn dev b happening b') (hr : Reports dev c.doorNum b happening) :
    b'.machine.world.1 = (b.machine.world.1.call (PassStore.usedCred c.doorNum) false).2 ∧
      b'.machine.context.credVerified = false := by
  cases ht with
  | @event e t t' =>
    have hopened : e = .doorOpened b.machine.context.doorToOpen := by rw [h.door]; exact hr
    subst hopened
    have hvault : (notice dev.stored (.doorOpened b.machine.context.doorToOpen) b.machine).world.1 = b.machine.world.1 :=
      (stored_quiet dev).notice _ b.machine
    dsimp only
    rw [doorOpened_of_opening dev.stored _ _ h.state, ← hvault, ← h.door]
    exact opened_uses h.state h.verified h.keep
  | @update t t' =>
    have hopen : dev.stored.readDoorState b.machine.context.doorToOpen (refresh dev.stored (stamp t) b.machine).world = doorOpen := by
      rw [h.door]
      exact hr
    have hvault : (refresh dev.stored (stamp t) b.machine).world.1 = b.machine.world.1 := (stored_quiet dev).refresh b.machine
    have hdoor : (refresh dev.stored (stamp t) b.machine).context.doorToOpen = b.machine.context.doorToOpen :=
      refresh_eq (·.doorToOpen) (fun _ _ _ _ _ => rfl) b.machine
    have hverified : (refresh dev.stored (stamp t) b.machine).context.credVerified = b.machine.context.credVerified :=
      refresh_eq (·.credVerified) (fun _ _ _ _ _ => rfl) b.machine
    dsimp only
    rw [update_of_opening dev.stored _ _ h.state, if_pos hopen, ← hvault, ← h.door, ← hdoor]
    exact opened_uses ((refresh_state b.machine).trans h.state) (hverified.trans h.verified)
      ((refresh_scannerTestKeepCred b.machine).trans h.keep)
  | _ => exact absurd hr id

/-! ## Charged once -/

theorem cacheKept_concat : CacheKept c (flow ++ [happening]) ↔ keptAfter c (CacheKept c flow) happening := by
  unfold CacheKept keptAfter lastRefresh
  rw [List.filterMap_append]
  cases hr : refreshTime happening with
  | none => simp [hr]
  | some now => simp [hr]

/-- Opening waits for the door with the credential, or a web request took it
back and the credential is left alone. -/
theorem Awaits.meanwhile (h : Awaits c start True b₁) (hrun : Run (Within (Turn dev) fun b happening _ =>
      Meanwhile dev c (start + doorOpeningTimeout.toNat) b happening) b₁ flow b) :
    flow.any webRequested = false ∧ Awaits c start (CacheKept c flow) b ∨
      flow.any webRequested = true ∧ b.Apart c.credId (some c) := by
  -- `Awaits` is kept up to the first web request, `Apart` from there on.
  induction hrun with
  | nil => exact .inl ⟨rfl, h.congr (by simp [CacheKept, lastRefresh])⟩
  | @snoc flow b b' happening _ hs ih =>
    obtain ⟨ht, hm⟩ := hs
    rcases ih with ⟨hnone, hawaits⟩ | ⟨hsome, hapart⟩
    · cases hweb : webRequested happening with
      | false => exact .inl ⟨by simp [hnone, hweb], (hawaits.turn ht hm hweb).congr cacheKept_concat.symm⟩
      | true => exact .inr ⟨by simp [hweb], hawaits.web ht hweb⟩
    · exact .inr ⟨by simp [hsome], hapart.turn ht hm.spares⟩

/-- The box that starts on the store a boot left, with the flag of the scanner
test off. -/
inductive Powered (dev : Devices W) (σ : History) : Box W → Prop
  | mk {m : Machine (Vault × W)} {t : Nat} : m.scannerTestKeepCred = false →
      m.world.1.flash = σ.flash → m.world.1.ram = σ.ram → Powered dev σ (started dev.stored t m)

theorem started_vault (m : Machine (Vault × W)) : (started dev.stored t m).machine.world.1 = m.world.1 := by
  unfold started initializeMachine onEnterHome enableExternal setExternal
  dsimp only
  split
  · rfl
  · rfl

theorem Powered.booted {p : Nvs} {σ : History} {first : Nat} (h : Powered dev σ b) (hboots : Boots p σ) (hstart : Starts σ first) :
    b.machine.world.1.Sane ∧ b.machine.scannerTestKeepCred = false := by
  cases h with
  | @mk m t hkeep hflash hram =>
    obtain ⟨ids, hready⟩ := hstart.ready hboots
    constructor
    · rw [started_vault]
      refine ⟨ids, σ.listed, ?_⟩
      rw [hflash, hram]
      exact hready
    · simp [started, initializeMachine, scheduleNextDisplayRefresh, onEnterHome, enableExternal, hkeep]

/-- The store stays in order and the flag off. -/
theorem Powered.run {p : Nvs} {σ : History} {first : Nat} {happenings : List (Happening W)} (h : Powered dev σ b₀)
    (hboots : Boots p σ) (hstart : Starts σ first) (hrun : Run (Turn dev) b₀ happenings b) :
    b.machine.world.1.Sane ∧ b.machine.scannerTestKeepCred = false :=
  hrun.inv (fun b => b.machine.world.1.Sane ∧ b.machine.scannerTestKeepCred = false) (h.booted hboots hstart)
    fun _ _ _ hi ht => ⟨ht.sane hi.1, ht.scannerTestKeepCred.trans hi.2⟩

/-- A use changes a count. -/
theorem consumed_ne (h : 0 < c.remaining) : c.consumed ≠ some c := by
  intro hsame
  unfold CacheRecord.consumed at hsame
  split_ifs at hsame with hmore hone
  · have hcount := congrArg CacheRecord.remaining (Option.some.inj hsame)
    dsimp only at hcount
    omega
  · omega

/-- A report is about no credential. -/
theorem Reports.spares {door : UInt8} (h : Reports dev door b happening) (id : UInt32) : Spares id b happening := by
  cases happening with
  | event e t t' =>
    obtain rfl : e = .doorOpened door := h
    intro value credType c hv
    simp [verifies, presented] at hv
  | update => trivial
  | added | updated | removed | refreshed | elsewhere => cases h

/-- After a boot that left a pool to work with, a credential is charged once for
the door it opened, and stays so until it is edited or verified again, exactly
when no web request came before the report and the cache was not refreshed
outside its validity. -/
theorem consumed_once_iff {first : Nat} {p : Nvs} {σ : History} {before : List (Happening W)} (hboots : Boots p σ)
    (hstart : Starts σ first) (hpowered : Powered dev σ b₀) (hbefore : Run (Turn dev) b₀ before b) (hopens : Opens dev b e t t' c b₁)
    (hflow : Run (Within (Turn dev) fun b happening _ => Meanwhile dev c (t' + doorOpeningTimeout.toNat) b happening) b₁ flow b₂)
    (hreport : Turn dev b₂ happening b₃) (hopen : Reports dev c.doorNum b₂ happening)
    (hactive : c.isActive b₂.machine.world.1.time = true) :
    (∀ after b₄, Run (Within (Turn dev) fun b happening _ => Spares c.credId b happening) b₃ after b₄ →
      storedCred b₄.machine.world.1.flash c.credId = c.consumed) ↔ flow.any webRequested = false ∧ CacheKept c flow := by
  obtain ⟨hsane, hkeep⟩ := hpowered.run hboots hstart hbefore
  -- A credential that is left alone with another count than the claimed one.
  have hunchanged : b₃.Apart c.credId (some c) → ¬∀ after b₄,
      Run (Within (Turn dev) fun b happening _ => Spares c.credId b happening) b₃ after b₄ →
        storedCred b₄.machine.world.1.flash c.credId = c.consumed := by
    intro hapart hall
    exact consumed_ne hopens.counted ((hall [] b₃ .nil).symm.trans hapart.stored)
  rcases (hopens.awaits hkeep hsane).meanwhile hflow with ⟨hnone, hawaits⟩ | ⟨hsome, hapart⟩
  · -- The report calls `usedCred`, which looks in the cache.
    obtain ⟨hvault, hverified⟩ := hawaits.report hreport hopen
    by_cases hk : CacheKept c flow
    · refine iff_of_true ?_ ⟨hnone, hk⟩
      intro after b₄ hafter
      have hapart : b₃.Apart c.credId c.consumed := by
        rw [Box.Apart, hverified, hvault]
        exact hawaits.held.charge hk hactive
      exact (hapart.run hafter).stored
    · refine iff_of_false (hunchanged ?_) fun h => hk h.2
      rw [Box.Apart, hverified, hvault]
      exact hawaits.held.miss hk
  · refine iff_of_false (hunchanged (hapart.turn hreport (hopen.spares c.credId))) fun h => ?_
    rw [hsome] at h
    cases h.1

/-! ## One credential with five uses -/

/-- The credential of `onePool`. -/
def pinCred : CacheRecord := toCacheRecord (sampleCred 1 firstKey lastKey)

/-- Its PIN as it is entered. -/
def pinEntry : BoxEvent := .keyboardEnter ⟨samplePin, by decide, by decide⟩

/-- Where every lock works an accepted text opens its door. -/
theorem Opens.of_lock {value : List UInt8} {credType : CredType} (hle : b.clock ≤ t) (hle' : t ≤ t')
    (he : evaluated (stamp t) b.machine.context e = true) (hp : presented e = some (value, credType))
    (hacc : accepted b.machine.world.1.ram (some value) credType b.machine.world.1.time = some c) (hcount : 0 < c.remaining)
    (hknown : c.doorNum ≠ doorUnknown) (hlock : ∀ door w, (dev.openDoor door w).1 = door) :
    Opens dev b e t t' c ⟨processEvent dev.stored e (stamp t) (stamp t') b.machine, t'⟩ := by
  have hdoor : (dev.stored.verifyCred value credType b.machine.world).1 = c.doorNum := verifyCred_door dev hacc
  have hopens : processEvent dev.stored e (stamp t) (stamp t') b.machine = _ := processEvent_presented he hp
  rw [if_neg (by rwa [hdoor])] at hopens
  refine ⟨.event hle hle', ⟨value, credType, verifies_of_presented he hp, hacc⟩, hcount, ?_, ?_⟩
  · rw [hopens, transitionTo_state]
  · obtain ⟨w, -, ⟨hunknown, -⟩ | ⟨-, htried, -⟩⟩ :=
      (stored_quiet dev).opening (stamp t) (stamp t') (accept dev.stored value credType b.machine)
    · exact absurd (hdoor.symm.trans hunknown) hknown
    · rw [hopens, transitionTo_opening _ _ _ (accept_ne_opening he), htried]
      simp [Devices.stored, hlock, doorOpeningTimeout]

/-- The box with `onePool` after a boot. -/
def pinBox (m : UInt32) : Box Unit := started emptyBox.stored 0 (constructed (⟨onePool, onePoolRam m, 0⟩, ()))

/-- It asks for the PIN. -/
def pinAsked (m : UInt32) : Box Unit := ⟨processEvent emptyBox.stored .keyboardKey1 (stamp 1) (stamp 1) (pinBox m).machine, 1⟩

theorem pinAsked_vault (m : UInt32) : (pinAsked m).machine.world.1 = ⟨onePool, onePoolRam m, 0⟩ := rfl

theorem pinCred_accepted (m : UInt32) : accepted (pinAsked m).machine.world.1.ram (some samplePin) .password
    (pinAsked m).machine.world.1.time = some pinCred := by
  rw [pinAsked_vault, onePoolRam, cacheOf_onePool]
  rfl

theorem pinCred_active (now : UInt64) : pinCred.isActive now = true := by
  simp [pinCred, CacheRecord.isActive, activeAt, toCacheRecord, sampleCred, CredRecord.zero]

/-- The PIN is entered, and door 1 can be opened. -/
theorem pin_opens : ∃ σ b₀ b b₁, Boots onePool σ ∧ Starts σ 2 ∧ Powered emptyBox σ b₀ ∧
    Run (Turn emptyBox) b₀ [.event .keyboardKey1 1 1] b ∧ Opens emptyBox b pinEntry 2 2 pinCred b₁ := by
  obtain ⟨m, hm⟩ := begin_wellFormed 0 .fresh onePool_wellFormed (by decide)
  have hboots : Boots onePool ⟨onePool, onePoolRam m, (chainIds onePool).filter (activeIn onePool 0), 0⟩ := .mk hm.whole
  have hstart : Starts _ 2 := hboots.starts_of_wellFormed onePool_wellFormed (by decide) onePool_blank
    (show readRecord onePool lastKey = some _ from rfl) (by decide)
  have hpowered : Powered emptyBox ⟨onePool, onePoolRam m, (chainIds onePool).filter (activeIn onePool 0), 0⟩ (pinBox m) :=
    .mk rfl rfl rfl
  have hkey : Turn emptyBox (pinBox m) (.event .keyboardKey1 1 1) (pinAsked m) := .event (Nat.zero_le 1) (Nat.le_refl 1)
  have hopens : Opens emptyBox (pinAsked m) pinEntry 2 2 pinCred _ :=
    .of_lock (Nat.le_succ 1) (Nat.le_refl 2) rfl rfl (pinCred_accepted m) (by decide) (by decide) fun _ _ => rfl
  exact ⟨_, _, _, _, hboots, hstart, hpowered, .single hkey, hopens⟩

/-- The door is opened. -/
def pinReport : Happening Unit := .event (.doorOpened 1) 4 4

theorem consumed_once_pin : ∃ b b₁ b₃, Opens emptyBox b pinEntry 2 2 pinCred b₁ ∧ Turn emptyBox b₁ pinReport b₃ ∧
    storedCred b₃.machine.world.1.flash 1 = pinCred.consumed := by
  obtain ⟨σ, b₀, b, b₁, hboots, hstart, hpowered, hbefore, hopens⟩ := pin_opens
  have hreport : Turn emptyBox b₁ pinReport _ := .event (by rw [hopens.clock]; decide) (Nat.le_refl 4)
  have hcharged := (consumed_once_iff hboots hstart hpowered hbefore hopens .nil hreport rfl (pinCred_active _)).2
    ⟨rfl, fun now hnow => by cases hnow⟩
  exact ⟨b, b₁, _, hopens, hreport, hcharged [] _ .nil⟩

/-- A web request for door 2 while Opening waits for door 1. -/
def webRequest : Happening Unit := .event (.webOpenBox 2) 3 3

/-- With it the door is opened without being charged for. -/
theorem web_request_uncharged : ∃ σ b₀ b b₁ b₂ b₃, Boots onePool σ ∧ Starts σ 2 ∧ Powered emptyBox σ b₀ ∧
    Run (Turn emptyBox) b₀ [.event .keyboardKey1 1 1] b ∧ Opens emptyBox b pinEntry 2 2 pinCred b₁ ∧
    Run (Within (Turn emptyBox) fun b happening _ => Meanwhile emptyBox pinCred (2 + doorOpeningTimeout.toNat) b happening)
      b₁ [webRequest] b₂ ∧ Turn emptyBox b₂ pinReport b₃ ∧ pinCred.isActive b₂.machine.world.1.time = true ∧
      storedCred b₃.machine.world.1.flash 1 = some pinCred ∧ pinCred.consumed ≠ some pinCred := by
  obtain ⟨σ, b₀, b, b₁, hboots, hstart, hpowered, hbefore, hopens⟩ := pin_opens
  obtain ⟨hsane, hkeep⟩ := hpowered.run hboots hstart hbefore
  have hweb : Turn emptyBox b₁ webRequest ⟨processEvent emptyBox.stored (.webOpenBox 2) (stamp 3) (stamp 3) b₁.machine, 3⟩ :=
    .event (by rw [hopens.clock]; decide) (Nat.le_refl 3)
  have hmeanwhile : Meanwhile emptyBox pinCred (2 + doorOpeningTimeout.toNat) b₁ webRequest := by
    refine ⟨?_, show 3 < 2 + doorOpeningTimeout.toNat by decide, ?_, ?_⟩
    · intro value credType c hv
      simp [verifies, presented] at hv
    · intro hopened
      cases hopened
    · intro t t' h
      cases h
  have hreport : Turn emptyBox ⟨processEvent emptyBox.stored (.webOpenBox 2) (stamp 3) (stamp 3) b₁.machine, 3⟩ pinReport _ :=
    .event (Nat.le_succ 3) (Nat.le_refl 4)
  have hopen : Reports emptyBox pinCred.doorNum ⟨processEvent emptyBox.stored (.webOpenBox 2) (stamp 3) (stamp 3) b₁.machine, 3⟩ pinReport := rfl
  have hapart := ((hopens.awaits hkeep hsane).web hweb rfl).turn hreport (hopen.spares pinCred.credId)
  exact ⟨σ, b₀, b, b₁, _, _, hboots, hstart, hpowered, hbefore, hopens, .single ⟨hweb, hmeanwhile⟩, hreport, pinCred_active _, hapart.stored,
    consumed_ne (by decide)⟩

end OrangeBox.StateMachine
