import OrangeBox.Hal.Gpio
/-!
# Locks and their pulses

What the lock functions write, and what it means that an energised lock will be
released: some timer is going to drive its pin low.
-/

namespace OrangeBox.Hal

variable {doorNum pin : UInt8} {level : Bool} {now millis : UInt32} {g : GpioHAL} {tm : TimerManager} {i : Fin maxTimers}

/-! ## Lock pins -/

namespace GpioHAL

/-- The pin drives a lock of the logical door. -/
def Drives (doorNum pin : UInt8) (g : GpioHAL) : Prop := ∃ x ∈ g.doors, x.locks doorNum = true ∧ x.gpioPin = pin

/-- The pin drives some lock. -/
def IsLock (pin : UInt8) (g : GpioHAL) : Prop := ∃ doorNum, g.Drives doorNum pin

instance : Decidable (g.Drives doorNum pin) := inferInstanceAs (Decidable (∃ x ∈ g.doors, _))

theorem Drives.ne_invalid (h : g.Drives doorNum pin) : pin ≠ invalidPin := by
  obtain ⟨x, -, hlocks, rfl⟩ := h
  simp only [DoorMapping.locks, Bool.and_eq_true, decide_eq_true_eq] at hlocks
  exact hlocks.2

/-- A loop that writes one level to the pins of some doors. -/
theorem foldl_digitalWrite {X : Type} (chosen : X → Prop) [DecidablePred chosen] (pinOf : X → UInt8) (level : Bool)
    (xs : List X) (pins : UInt8 → Bool) (pin : UInt8) :
    xs.foldl (fun pins x => if chosen x then digitalWrite (pinOf x) level pins else pins) pins pin =
      if ∃ x ∈ xs, chosen x ∧ pinOf x = pin then level else pins pin := by
  induction xs generalizing pins with
  | nil => simp
  | cons x xs ih =>
    rw [List.foldl_cons, ih]
    by_cases hrest : ∃ y ∈ xs, chosen y ∧ pinOf y = pin
    · obtain ⟨y, hy, hchosen⟩ := hrest
      rw [if_pos ⟨y, hy, hchosen⟩, if_pos ⟨y, List.mem_cons_of_mem x hy, hchosen⟩]
    · rw [if_neg hrest]
      by_cases hx : chosen x ∧ pinOf x = pin
      · rw [if_pos hx.1, if_pos ⟨x, by simp, hx⟩, digitalWrite, hx.2, Function.update_self]
      · have hnone : ¬∃ y ∈ x :: xs, chosen y ∧ pinOf y = pin := by
          rintro ⟨y, hy, hchosen⟩
          rcases List.mem_cons.1 hy with rfl | hy
          · exact hx hchosen
          · exact hrest ⟨y, hy, hchosen⟩
        rw [if_neg hnone]
        split
        · rename_i hchosen
          exact Function.update_of_ne (fun heq => hx ⟨hchosen, heq.symm⟩) ..
        · rfl

/-- Every lock of the logical door gets the level, and no other pin does. -/
theorem drive_apply (doorNum : UInt8) (level : Bool) (doors : List Door) (pins : UInt8 → Bool) (pin : UInt8) :
    drive doorNum level doors pins pin = if ∃ x ∈ doors, x.locks doorNum = true ∧ x.gpioPin = pin then level else pins pin :=
  foldl_digitalWrite (fun x : Door => x.locks doorNum = true) (·.gpioPin) level doors pins pin

/-- `openDoor` of a door with a lock. -/
theorem openDoor_locked (h : ∃ pin, g.Drives doorNum pin) : g.openDoor doorNum millis tm =
    (doorNum, { g with pins := drive doorNum true g.doors g.pins },
      (tm.scheduleOnce doorDelay lockDeactivateAction (doorText doorNum) millis).2) := by
  obtain ⟨pin, x, hx, hlocks, -⟩ := h
  have hany : g.doors.any (·.locks doorNum) = true := List.any_eq_true.2 ⟨x, hx, hlocks⟩
  unfold openDoor writeLocks
  simp only [hany, if_true]

/-- `openDoor` of a door without a lock does nothing. -/
theorem openDoor_unlocked (h : ¬∃ pin, g.Drives doorNum pin) : g.openDoor doorNum millis tm = (PassStore.doorUnknown, g, tm) := by
  have hnone : ∀ x ∈ g.doors, x.locks doorNum ≠ true := fun x hx hlocks => h ⟨x.gpioPin, x, hx, hlocks, rfl⟩
  have hany : g.doors.any (·.locks doorNum) = false := List.any_eq_false.2 hnone
  have hsame : drive doorNum true g.doors g.pins = g.pins := by
    funext pin
    rw [drive_apply, if_neg]
    rintro ⟨x, hx, hlocks, -⟩
    exact hnone x hx hlocks
  unfold openDoor writeLocks
  simp only [hany, hsame]
  rfl

theorem releaseAll_apply (mappings : List DoorMapping) (pins : UInt8 → Bool) (pin : UInt8) : releaseAll mappings pins pin =
    if ∃ x ∈ mappings, x.gpioPin ≠ invalidPin ∧ x.gpioPin = pin then false else pins pin :=
  foldl_digitalWrite (fun x : DoorMapping => x.gpioPin ≠ invalidPin) (·.gpioPin) false mappings pins pin

/-- `initializeGpioHAL` releases every lock. -/
theorem initializeGpioHAL_released {mappings : List DoorMapping} {ambientPin : UInt8} {samples : Nat → Bool}
    {pins : UInt8 → Bool} (h : (initializeGpioHAL mappings ambientPin samples millis pins).IsLock pin) :
    (initializeGpioHAL mappings ambientPin samples millis pins).pins pin = false := by
  obtain ⟨doorNum, x, hx, hlocks, rfl⟩ := h
  simp only [DoorMapping.locks, Bool.and_eq_true, decide_eq_true_eq] at hlocks
  unfold initializeGpioHAL at hx ⊢
  dsimp only at hx ⊢
  obtain ⟨i, hi, rfl⟩ := List.mem_mapIdx.1 hx
  have hmem : ∃ y ∈ mappings.take doorCount, y.gpioPin ≠ invalidPin ∧ y.gpioPin = ((mappings.take doorCount)[i]).gpioPin :=
    ⟨_, List.getElem_mem hi, hlocks.2, rfl⟩
  have hlow : releaseAll (mappings.take doorCount) pins ((mappings.take doorCount)[i]).gpioPin = false := by
    rw [releaseAll_apply, if_pos hmem]
  change (if ambientPin ≠ invalidPin then digitalWrite ambientPin false (releaseAll (mappings.take doorCount) pins)
    else releaseAll (mappings.take doorCount) pins) ((mappings.take doorCount)[i]).gpioPin = false
  split
  · by_cases heq : ((mappings.take doorCount)[i]).gpioPin = ambientPin
    · rw [heq]
      exact Function.update_self ..
    · exact (Function.update_of_ne heq ..).trans hlow
  · exact hlow

end GpioHAL

/-! ## Pulses -/

/-- A one-shot timer will drive the pin low. -/
structure Pending (g : GpioHAL) (tm : TimerManager) (i : Fin maxTimers) (pin : UInt8) : Prop where
  active : (tm.timers i).active = true
  once : (tm.timers i).repeats = false
  action : (tm.timers i).action = lockDeactivateAction
  door : g.Drives (atoi (tm.timers i).arg.bytes) pin

/-- Every energised lock has a timer that will release it. -/
def Guarded (g : GpioHAL) (tm : TimerManager) : Prop :=
  ∀ pin, g.IsLock pin → g.pins pin = true → ∃ i, Pending g tm i pin

/-- The timers are the ends of pulses. -/
def OnlyPulses (tm : TimerManager) : Prop := ∀ i, (tm.timers i).active = true →
  (tm.timers i).repeats = false ∧ (tm.timers i).action = lockDeactivateAction

/-- A pulse for the door leaves no lock without a timer: there is a slot for its
timer, or its locks are being pulsed already; and the light, when it is wired to
a lock, is wired to one that is pulsed. -/
def Affordable (doorNum : UInt8) (g : GpioHAL) (tm : TimerManager) : Prop :=
  (∃ pin, g.Drives doorNum pin) →
    (tm.findFreeSlot ≠ none ∨ ∀ pin, g.Drives doorNum pin → ∃ i, Pending g tm i pin) ∧
    (g.IsLock g.ambientPin → g.Drives doorNum g.ambientPin ∨ ∃ i, Pending g tm i g.ambientPin)

theorem Pending.congr {g' : GpioHAL} {tm' : TimerManager} (h : Pending g tm i pin) (hd : g'.doors = g.doors)
    (ht : tm'.timers i = tm.timers i) : Pending g' tm' i pin := by
  refine ⟨by rw [ht]; exact h.active, by rw [ht]; exact h.once, by rw [ht]; exact h.action, ?_⟩
  rw [ht, GpioHAL.Drives, hd]
  exact h.door

/-- The timer of a pulse stands in the slot it was given. -/
theorem pending_scheduled {slot : Fin maxTimers} (hfree : tm.findFreeSlot = some slot) (h : g.Drives doorNum pin) :
    Pending g (tm.scheduleOnce doorDelay lockDeactivateAction (doorText doorNum) millis).2 slot pin := by
  rw [TimerManager.scheduleOnce_some _ _ hfree (by decide)]
  refine ⟨by simp, by simp, by simp, ?_⟩
  have harg : (CText.read maxTimerParameters (doorText doorNum)).bytes = doorText doorNum := doorArg_bytes doorNum
  rw [TimerManager.put_timers_self, harg, atoi_doorText]
  exact h

theorem OnlyPulses.schedule (h : OnlyPulses tm) (arg : List UInt8) (millis : UInt32) :
    OnlyPulses (tm.scheduleOnce doorDelay lockDeactivateAction arg millis).2 := by
  cases hfree : tm.findFreeSlot with
  | none => rwa [TimerManager.scheduleOnce_none _ _ hfree]
  | some slot =>
    rw [TimerManager.scheduleOnce_some _ _ hfree (by decide)]
    intro i hi
    by_cases heq : i = slot
    · subst heq
      simp
    · dsimp only at hi ⊢
      rw [TimerManager.put_timers_of_ne heq] at hi ⊢
      exact h i hi

theorem OnlyPulses.finish (h : OnlyPulses tm) (now : UInt32) (i : Fin maxTimers) : OnlyPulses (tm.finish now i) := by
  intro j hj
  by_cases heq : j = i
  · subst heq
    unfold TimerManager.finish at hj ⊢
    split at hj
    · rename_i hrep
      rw [if_pos hrep]
      simp only [TimerManager.put_timers_self] at hj ⊢
      exact h j hj
    · simp at hj
  · rw [TimerManager.finish_keeps heq] at hj ⊢
    exact h j hj

/-! ## Guarded locks -/

theorem setAmbient_pins (level : Bool) (g : GpioHAL) (pin : UInt8) : (g.setAmbient level).pins pin =
    if pin = g.ambientPin ∧ pin ≠ invalidPin then level else g.pins pin := by
  unfold GpioHAL.setAmbient
  by_cases hnone : g.ambientPin = invalidPin
  · rw [if_pos hnone, if_neg]
    rintro ⟨rfl, hne⟩
    exact hne hnone
  · rw [if_neg hnone]
    by_cases hpin : pin = g.ambientPin
    · subst hpin
      rw [if_pos ⟨rfl, hnone⟩]
      exact Function.update_self ..
    · rw [if_neg fun h => hpin h.1]
      exact Function.update_of_ne hpin ..

@[simp] theorem setAmbient_doors (level : Bool) (g : GpioHAL) : (g.setAmbient level).doors = g.doors := by
  unfold GpioHAL.setAmbient; split <;> rfl

@[simp] theorem setAmbient_ambientPin (level : Bool) (g : GpioHAL) : (g.setAmbient level).ambientPin = g.ambientPin := by
  unfold GpioHAL.setAmbient; split <;> rfl

theorem drives_congr {g' : GpioHAL} (h : g'.doors = g.doors) : g'.Drives doorNum pin ↔ g.Drives doorNum pin := by
  rw [GpioHAL.Drives, h]
  rfl

theorem isLock_congr {g' : GpioHAL} (h : g'.doors = g.doors) : g'.IsLock pin ↔ g.IsLock pin :=
  exists_congr fun _ => drives_congr h

/-- Lowering pins harms no lock. -/
theorem Guarded.lower {g' : GpioHAL} (h : Guarded g tm) (hd : g'.doors = g.doors)
    (hp : ∀ pin, g'.pins pin = true → g.pins pin = true) : Guarded g' tm := fun pin hlock hhigh => by
  obtain ⟨i, hi⟩ := h pin ((isLock_congr hd).1 hlock) (hp pin hhigh)
  exact ⟨i, hi.congr hd rfl⟩

theorem Guarded.dim (h : Guarded g tm) : Guarded (g.setAmbient false) tm :=
  h.lower (setAmbient_doors _ _) fun pin hhigh => by
    rw [setAmbient_pins] at hhigh
    split at hhigh
    · contradiction
    · exact hhigh

theorem affordable_congr {g' : GpioHAL} (hd : g'.doors = g.doors) (ha : g'.ambientPin = g.ambientPin) :
    Affordable doorNum g' tm ↔ Affordable doorNum g tm := by
  have hpending : ∀ pin, (∃ i, Pending g' tm i pin) ↔ ∃ i, Pending g tm i pin := fun pin =>
    exists_congr fun i => ⟨fun h => h.congr hd.symm rfl, fun h => h.congr hd rfl⟩
  simp only [Affordable, drives_congr hd, isLock_congr hd, ha, hpending]

/-- A timer that is pending after a pulse for the door was pending before it, or
is the one of the pulse. -/
theorem Pending.of_scheduled (h : Pending g (tm.scheduleOnce doorDelay lockDeactivateAction (doorText doorNum) millis).2 i pin) :
    g.Drives doorNum pin ∧ tm.findFreeSlot ≠ none ∨ Pending g tm i pin := by
  cases hfree : tm.findFreeSlot with
  | none =>
    rw [TimerManager.scheduleOnce_none _ _ hfree] at h
    exact .inr h
  | some slot =>
    by_cases heq : i = slot
    · subst heq
      have hdoor := h.door
      have harg : (CText.read maxTimerParameters (doorText doorNum)).bytes = doorText doorNum := doorArg_bytes doorNum
      rw [TimerManager.scheduleOnce_some _ _ hfree (by decide), TimerManager.put_timers_self, harg, atoi_doorText] at hdoor
      exact .inl ⟨hdoor, by simp⟩
    · rw [TimerManager.scheduleOnce_some _ _ hfree (by decide)] at h
      exact .inr (h.congr rfl (TimerManager.put_timers_of_ne heq _ _).symm)

/-- The locks after a pulse for the door: they are guarded exactly when the pulse
could be afforded. -/
theorem guarded_pulse_iff (h : Guarded g tm) (hdoor : ∃ pin, g.Drives doorNum pin) :
    Guarded (GpioHAL.setAmbient true { g with pins := GpioHAL.drive doorNum true g.doors g.pins })
      (tm.scheduleOnce doorDelay lockDeactivateAction (doorText doorNum) millis).2 ↔ Affordable doorNum g tm := by
  generalize hraised : ({ g with pins := GpioHAL.drive doorNum true g.doors g.pins } : GpioHAL) = g₁
  have hd : (g₁.setAmbient true).doors = g.doors := by rw [setAmbient_doors, ← hraised]
  have hhigh : ∀ pin, (g₁.setAmbient true).pins pin = true ↔
      pin = g.ambientPin ∧ pin ≠ invalidPin ∨ g.Drives doorNum pin ∨ g.pins pin = true := fun pin => by
    rw [setAmbient_pins, ← hraised]
    dsimp only
    rw [GpioHAL.drive_apply]
    by_cases ha : pin = g.ambientPin ∧ pin ≠ invalidPin
    · rw [if_pos ha]
      exact iff_of_true rfl (.inl ha)
    · rw [if_neg ha]
      by_cases hdrives : g.Drives doorNum pin
      · rw [if_pos (by exact hdrives)]
        simp [hdrives]
      · rw [if_neg (by exact hdrives)]
        simp [ha, hdrives]
  have hkeep : ∀ {i pin}, Pending g tm i pin →
      Pending (g₁.setAmbient true) (tm.scheduleOnce doorDelay lockDeactivateAction (doorText doorNum) millis).2 i pin :=
    fun h => h.congr hd (TimerManager.scheduleOnce_keeps _ _ _ _ h.active)
  have hback : ∀ {i pin},
      Pending (g₁.setAmbient true) (tm.scheduleOnce doorDelay lockDeactivateAction (doorText doorNum) millis).2 i pin →
      g.Drives doorNum pin ∧ tm.findFreeSlot ≠ none ∨ Pending g tm i pin :=
    fun h => (h.congr hd.symm rfl).of_scheduled
  constructor
  · -- Without a free slot nothing was scheduled, so each pin had its timer before.
    intro hall _
    refine ⟨?_, fun hlock => ?_⟩
    · by_cases hfree : tm.findFreeSlot = none
      · refine .inr fun pin hdrives => ?_
        obtain ⟨i, hi⟩ := hall pin ((isLock_congr hd).2 ⟨doorNum, hdrives⟩) ((hhigh pin).2 (.inr (.inl hdrives)))
        exact ⟨i, (hback hi).resolve_left fun hn => hn.2 hfree⟩
      · exact .inl hfree
    · obtain ⟨door, hdrives⟩ := hlock
      obtain ⟨i, hi⟩ := hall _ ((isLock_congr hd).2 ⟨door, hdrives⟩) ((hhigh _).2 (.inl ⟨rfl, hdrives.ne_invalid⟩))
      exact (hback hi).imp And.left fun hi => ⟨i, hi⟩
  · intro hafford pin hlock hpin
    obtain ⟨hslot, hambient⟩ := hafford hdoor
    have hdriven : g.Drives doorNum pin → ∃ i, Pending (g₁.setAmbient true)
        (tm.scheduleOnce doorDelay lockDeactivateAction (doorText doorNum) millis).2 i pin := fun hdrives => by
      rcases hslot with hfree | hcovered
      · obtain ⟨slot, hslot⟩ := Option.ne_none_iff_exists'.1 hfree
        exact ⟨slot, (pending_scheduled hslot hdrives).congr hd rfl⟩
      · obtain ⟨i, hi⟩ := hcovered pin hdrives
        exact ⟨i, hkeep hi⟩
    -- A pin that is high is the ambient one, one of this door, or was high before.
    rcases (hhigh pin).1 hpin with ⟨rfl, -⟩ | hdrives | hbefore
    · rcases hambient ((isLock_congr hd).1 hlock) with hdrives | ⟨i, hi⟩
      · exact hdriven hdrives
      · exact ⟨i, hkeep hi⟩
    · exact hdriven hdrives
    · obtain ⟨i, hi⟩ := h pin ((isLock_congr hd).1 hlock) hbefore
      exact ⟨i, hkeep hi⟩

/-- The end of a pulse: the locks of the door are released with its timer. -/
theorem Guarded.release (h : Guarded g tm) (now : UInt32) (i : Fin maxTimers) :
    Guarded (g.lockDeactivate (atoi (tm.timers i).arg.bytes)).2 (tm.finish now i) := by
  intro pin hlock hhigh
  have hd : (g.lockDeactivate (atoi (tm.timers i).arg.bytes)).2.doors = g.doors := rfl
  have hhigh' : (if g.Drives (atoi (tm.timers i).arg.bytes) pin then false else g.pins pin) = true := by
    rw [← hhigh]
    exact (GpioHAL.drive_apply ..).symm
  by_cases hdrives : g.Drives (atoi (tm.timers i).arg.bytes) pin
  · rw [if_pos hdrives] at hhigh'
    contradiction
  · rw [if_neg hdrives] at hhigh'
    obtain ⟨j, hj⟩ := h pin ((isLock_congr hd).1 hlock) hhigh'
    have hne : j ≠ i := fun heq => hdrives (heq ▸ hj.door)
    exact ⟨j, hj.congr hd (TimerManager.finish_keeps hne tm)⟩

end OrangeBox.Hal
