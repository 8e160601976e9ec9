import OrangeBox.Hal.Gpio
/-!
# What the contacts say

The state of a logical door in closed form (`readDoorState_eq`), and what a poll
does to it. A door that some contact shows open can only read as closed after a
poll that announces it (`shut_announced`).
-/

namespace OrangeBox.Hal

variable {doorNum : UInt8} {now : UInt32} {samples : Nat → Bool} {g : GpioHAL} {x y : Door}

theorem DoorMapping.senses_iff {x : DoorMapping} :
    x.senses doorNum = true ↔ x.logDoorNum = doorNum ∧ x.statePin ≠ invalidPin := by
  simp [DoorMapping.senses]

/-- The two states of a contact are different, and neither is unknown. -/
theorem contactState_inj (x y : DoorMapping) : x.contactState = y.contactState ↔ x.lastState = y.lastState := by
  unfold DoorMapping.contactState
  cases x.lastState <;> cases y.lastState <;> decide

theorem contactState_ne_unknown (x : DoorMapping) : x.contactState ≠ PassStore.doorUnknown := by
  unfold DoorMapping.contactState
  cases x.lastState <;> decide

namespace GpioHAL

/-! ## Reading a door -/

/-- A contact of the logical door is open. -/
def Ajar (doorNum : UInt8) (g : GpioHAL) : Prop := ∃ x ∈ g.doors, x.senses doorNum = true ∧ x.lastState = true

/-- The rest of the loop once a contact has been read. -/
theorem readDoors_known (doors : List Door) (y : Door) : readDoors doorNum doors y.contactState =
    if ∀ x ∈ doors, x.senses doorNum = true → x.lastState = y.lastState then y.contactState else doorMixed := by
  induction doors with
  | nil => simp [readDoors]
  | cons x doors ih =>
    unfold readDoors
    by_cases hs : x.senses doorNum = true
    · rw [if_pos hs, if_neg (contactState_ne_unknown _)]
      by_cases heq : x.lastState = y.lastState
      · rw [if_neg (not_not.2 ((contactState_inj _ _).2 heq.symm)), ih]
        simp [heq]
      · rw [if_pos fun h => heq ((contactState_inj _ _).1 h).symm, if_neg]
        exact fun hall => heq (hall x (by simp) hs)
    · rw [if_neg hs, ih]
      simp [hs]

/-- The loop from the start: the first contact decides what the others are compared with. -/
theorem readDoors_unknown (doors : List Door) : readDoors doorNum doors PassStore.doorUnknown =
    if ∀ x ∈ doors, x.senses doorNum = false then PassStore.doorUnknown
    else if ∀ x ∈ doors, x.senses doorNum = true → x.lastState = true then doorOpen
    else if ∀ x ∈ doors, x.senses doorNum = true → x.lastState = false then doorClosed
    else doorMixed := by
  induction doors with
  | nil => simp [readDoors]
  | cons x doors ih =>
    unfold readDoors
    by_cases hs : x.senses doorNum = true
    · have hsome : ¬∀ z ∈ x :: doors, z.senses doorNum = false := fun h => by
        simpa [hs] using h x (by simp)
      rw [if_pos hs, if_pos rfl, readDoors_known, if_neg hsome]
      cases hx : x.lastState with
      | true =>
        have hopen : x.contactState = doorOpen := by simp [DoorMapping.contactState, hx]
        have hnot : ¬∀ z ∈ x :: doors, z.senses doorNum = true → z.lastState = false := fun h => by
          simpa [hx] using h x (by simp) hs
        rw [hopen, if_neg hnot]
        simp [hs, hx]
      | false =>
        have hclosed : x.contactState = doorClosed := by simp [DoorMapping.contactState, hx]
        have hnot : ¬∀ z ∈ x :: doors, z.senses doorNum = true → z.lastState = true := fun h => by
          simpa [hx] using h x (by simp) hs
        rw [hclosed, if_neg hnot]
        simp [hs, hx]
    · rw [if_neg hs, ih]
      simp [hs]

/-- `readDoorState` of a logical door: unknown without a contact, else the state
its contacts agree on. -/
theorem readDoorState_eq (doorNum : UInt8) (g : GpioHAL) : g.readDoorState doorNum =
    if ∀ x ∈ g.doors, x.senses doorNum = false then PassStore.doorUnknown
    else if ∀ x ∈ g.doors, x.senses doorNum = true → x.lastState = true then doorOpen
    else if ∀ x ∈ g.doors, x.senses doorNum = true → x.lastState = false then doorClosed
    else doorMixed := readDoors_unknown g.doors

/-- Open and mixed are the states with an open contact. -/
theorem ajar_iff : g.Ajar doorNum ↔ g.readDoorState doorNum = doorOpen ∨ g.readDoorState doorNum = doorMixed := by
  rw [readDoorState_eq]
  unfold Ajar
  split
  · rename_i hnone
    refine iff_of_false ?_ (by decide)
    rintro ⟨x, hx, hs, -⟩
    simp [hnone x hx] at hs
  rename_i hsome
  push Not at hsome
  obtain ⟨y, hy, hys⟩ := hsome
  split
  · rename_i hopen
    exact iff_of_true ⟨y, hy, by simpa using hys, hopen y hy (by simpa using hys)⟩ (.inl rfl)
  split
  · rename_i hclosed
    refine iff_of_false ?_ (by decide)
    rintro ⟨x, hx, hs, hl⟩
    simp [hclosed x hx hs] at hl
  · rename_i hmixed
    push Not at hmixed
    obtain ⟨z, hz, hzs, hzl⟩ := hmixed
    exact iff_of_true ⟨z, hz, hzs, by simpa using hzl⟩ (.inr rfl)

/-- A door with a contact, none of them open, is closed. -/
theorem readDoorState_closed (hx : x ∈ g.doors) (hs : x.senses doorNum = true) (h : ¬g.Ajar doorNum) :
    g.readDoorState doorNum = doorClosed := by
  have hclosed : ∀ z ∈ g.doors, z.senses doorNum = true → z.lastState = false := fun z hz hzs => by
    by_contra hl
    exact h ⟨z, hz, hzs, by simpa using hl⟩
  have hsome : ¬∀ z ∈ g.doors, z.senses doorNum = false := fun hnone => by
    simp [hnone x hx] at hs
  have hshut : ¬∀ z ∈ g.doors, z.senses doorNum = true → z.lastState = true := fun hopen => by
    simpa [hclosed x hx hs] using hopen x hx hs
  rw [readDoorState_eq, if_neg hsome, if_neg hshut, if_pos hclosed]

end GpioHAL

/-! ## Polling -/

@[simp] theorem Door.noteSample_toDoorMapping (now : UInt32) (sample : Bool) (x : Door) :
    (x.noteSample now sample).toDoorMapping = x.toDoorMapping := by
  unfold noteSample; split <;> rfl

/-- A poll changes only the state of a mapping, and only when the contact changes. -/
theorem Door.poll_toDoorMapping (now : UInt32) (sample : Bool) (x : Door) : (x.poll now sample).toDoorMapping =
    if x.changes now sample then { x.toDoorMapping with lastState := sample } else x.toDoorMapping := by
  unfold poll
  by_cases hpin : x.statePin = invalidPin
  · simp [hpin, changes]
  · rw [if_neg hpin]
    split <;> simp

theorem Door.poll_senses (now : UInt32) (sample : Bool) (x : Door) : (x.poll now sample).senses doorNum = x.senses doorNum := by
  unfold DoorMapping.senses
  rw [poll_toDoorMapping]
  split <;> rfl

theorem Door.poll_locks (now : UInt32) (sample : Bool) (x : Door) : (x.poll now sample).locks doorNum = x.locks doorNum := by
  unfold DoorMapping.locks
  rw [poll_toDoorMapping]
  split <;> rfl

theorem Door.poll_gpioPin (now : UInt32) (sample : Bool) (x : Door) : (x.poll now sample).gpioPin = x.gpioPin := by
  rw [poll_toDoorMapping]
  split <;> rfl

namespace GpioHAL

theorem mem_polled : y ∈ (g.updateDoorStates now samples).2.doors ↔
    ∃ (i : Nat) (x : Door), g.doors[i]? = some x ∧ x.poll now (samples i) = y := by
  rw [updateDoorStates]
  simp only [List.mem_iff_getElem?, List.getElem?_mapIdx, Option.map_eq_some_iff]

theorem doorChanges_iff : g.doorChanges now samples doorNum = true ↔
    ∃ (i : Nat) (x : Door), g.doors[i]? = some x ∧ x.logDoorNum = doorNum ∧ x.changes now (samples i) = true := by
  simp only [doorChanges, List.any_eq_true, Prod.exists, List.mem_zipIdx_iff_getElem?, Bool.and_eq_true, decide_eq_true_eq]
  exact ⟨fun ⟨x, i, hi, h⟩ => ⟨i, x, hi, h⟩, fun ⟨i, x, hi, h⟩ => ⟨x, i, hi, h⟩⟩

/-- The doors that `onChange` is called for. -/
theorem mem_announced : doorNum ∈ (g.updateDoorStates now samples).1 ↔
    doorNum ≠ PassStore.doorUnknown ∧ g.doorChanges now samples doorNum = true := by
  rw [updateDoorStates, List.mem_filter, List.mem_map]
  refine and_congr_left fun _ => ⟨?_, fun hne => ⟨doorNum.toNat, ?_, UInt8.ofNat_toNat⟩⟩
  · rintro ⟨n, hn, rfl⟩ heq
    rw [List.mem_range] at hn
    have := congrArg UInt8.toNat heq
    rw [UInt8.toNat_ofNat'] at this
    have hmod : n % 2 ^ 8 = n := Nat.mod_eq_of_lt (Nat.lt_trans hn (by decide))
    omega
  · have hlt := doorNum.toNat_lt
    have hne' : doorNum.toNat ≠ 255 := fun h => hne (UInt8.toNat_inj.1 h)
    rw [List.mem_range]
    change doorNum.toNat < 255
    omega

/-- No door is announced twice. -/
theorem announced_nodup (now : UInt32) (samples : Nat → Bool) (g : GpioHAL) : (g.updateDoorStates now samples).1.Nodup := by
  refine List.Nodup.filter _ (List.Nodup.map_on (fun m hm n hn heq => ?_) List.nodup_range)
  have hlt : ∀ m ∈ List.range PassStore.doorUnknown.toNat, m < 2 ^ 8 := fun m hm =>
    Nat.lt_trans (List.mem_range.1 hm) (by decide)
  have htoNat := congrArg UInt8.toNat heq
  rwa [UInt8.toNat_ofNat', UInt8.toNat_ofNat', Nat.mod_eq_of_lt (hlt m hm), Nat.mod_eq_of_lt (hlt n hn)] at htoNat

/-- A poll that finds every contact as it was announces nothing. -/
theorem announced_nil (h : ∀ p ∈ g.doors.zipIdx, p.1.changes now (samples p.2) = false) :
    (g.updateDoorStates now samples).1 = [] := by
  refine List.filter_eq_nil_iff.2 fun door _ hc => ?_
  obtain ⟨p, hp, hchange⟩ := List.any_eq_true.1 hc
  simp [h p hp] at hchange

/-- A door with an open contact is still ajar after a poll, or it reads closed
and the poll announces it. -/
theorem shut_announced (now : UInt32) (samples : Nat → Bool) (h : g.Ajar doorNum) (hdoor : doorNum ≠ PassStore.doorUnknown) :
    (g.updateDoorStates now samples).2.Ajar doorNum ∨
      (g.updateDoorStates now samples).2.readDoorState doorNum = doorClosed ∧ doorNum ∈ (g.updateDoorStates now samples).1 := by
  obtain ⟨x, hx, hs, hl⟩ := h
  obtain ⟨i, hi⟩ := List.mem_iff_getElem?.1 hx
  have hmem : x.poll now (samples i) ∈ (g.updateDoorStates now samples).2.doors := mem_polled.2 ⟨i, x, hi, rfl⟩
  have hsenses : (x.poll now (samples i)).senses doorNum = true := by rwa [Door.poll_senses]
  by_cases hajar : (g.updateDoorStates now samples).2.Ajar doorNum
  · exact .inl hajar
  refine .inr ⟨readDoorState_closed hmem hsenses hajar, mem_announced.2 ⟨hdoor, doorChanges_iff.2 ⟨i, x, hi, ?_, ?_⟩⟩⟩
  · exact (DoorMapping.senses_iff.1 hs).1
  · -- The contact was open and is closed now.
    by_contra hsame
    refine hajar ⟨_, hmem, hsenses, ?_⟩
    rw [Door.poll_toDoorMapping, if_neg hsame]
    exact hl

end GpioHAL

end OrangeBox.Hal
