import OrangeBox.Hal.Contacts
/-!
# Debouncing

A contact that was polled over and over. It takes over a new state at the first
poll that finds it settled: the samples changed to that state at some poll at
least `doorContactDebounceMs` ago, and have not changed since (`debounced`).
-/
open Clock

namespace OrangeBox.Hal

/-! ## Polls -/

/-- A box that was set up, and the polls that follow: when they come, and what
the contact of each door reads. -/
structure Polls where
  mappings : List DoorMapping
  ambientPin : UInt8
  millis : UInt32
  pins : UInt8 → Bool
  initially : Nat → Bool
  now : Nat → Nat
  sample : Nat → Nat → Bool

namespace Polls

/-- The box before the poll `k`. -/
def box (p : Polls) : Nat → GpioHAL
  | 0 => .initializeGpioHAL p.mappings p.ambientPin p.initially p.millis p.pins
  | k + 1 => ((p.box k).updateDoorStates (stamp (p.now k)) (p.sample k)).2

/-- The calls of `onChange` in the poll `k`, with the box as each of them finds
it: they come after the loop over the contacts. -/
def calls (p : Polls) (k : Nat) : List (UInt8 × GpioHAL) :=
  ((p.box k).updateDoorStates (stamp (p.now k)) (p.sample k)).1.map (·, p.box (k + 1))

/-- The sample before the poll `k`. -/
def before (p : Polls) (c : Nat) : Nat → Bool
  | 0 => p.initially c
  | k + 1 => p.sample k c

/-- The polls come in order, and the counter does not get half way round between two of them. -/
def Spaced (p : Polls) : Prop := ∀ k, p.now k ≤ p.now (k + 1) ∧ p.now (k + 1) < p.now k + 2 ^ 31

/-- The sample of the contact changed to `v` in the poll `j`, and was `v` in
every poll from there to the one before `k`. -/
structure Held (p : Polls) (c : Nat) (v : Bool) (j k : Nat) : Prop where
  earlier : j < k
  changed : p.before c j ≠ v
  constant : ∀ l, j ≤ l → l < k → p.sample l c = v

/-- In the poll `k` the contact has been held long enough. -/
def Settled (p : Polls) (c : Nat) (v : Bool) (k : Nat) : Prop :=
  ∃ j, p.Held c v j (k + 1) ∧ p.now j + doorContactDebounceMs.toNat ≤ p.now k

/-- The poll `k` changes what the contact has published. -/
def Publishes (p : Polls) (k c : Nat) (x x' : Door) : Prop :=
  (p.box k).doors[c]? = some x ∧ (p.box (k + 1)).doors[c]? = some x' ∧ x.statePin ≠ invalidPin ∧ x'.lastState ≠ x.lastState

end Polls

variable {p : Polls} {k c : Nat} {x x' : Door}

/-! ## One contact -/

section Poll

variable {now : UInt32} {sample : Bool}

theorem Door.noteSample_sampled (now : UInt32) (sample : Bool) (x : Door) :
    (x.noteSample now sample).sampledDoorState = sample := by
  unfold noteSample
  split
  · rfl
  · rename_i hsame
    exact (not_not.1 hsame).symm

theorem Door.poll_sampled (hpin : x.statePin ≠ invalidPin) : (x.poll now sample).sampledDoorState = sample := by
  rw [poll, if_neg hpin]
  split <;> exact noteSample_sampled now sample x

theorem Door.poll_startedAt (hpin : x.statePin ≠ invalidPin) : (x.poll now sample).doorSampleStartedAt =
    if sample ≠ x.sampledDoorState then now else x.doorSampleStartedAt := by
  have hnote : (x.noteSample now sample).doorSampleStartedAt =
      if sample ≠ x.sampledDoorState then now else x.doorSampleStartedAt := by
    unfold noteSample
    split <;> rfl
  rw [← hnote, poll, if_neg hpin]
  split <;> rfl

theorem Door.poll_lastState (now : UInt32) (sample : Bool) (x : Door) :
    (x.poll now sample).lastState = if x.changes now sample then sample else x.lastState := by
  rw [poll_toDoorMapping]
  split <;> rfl

end Poll

namespace Polls

theorem box_succ (hx : (p.box k).doors[c]? = some x) :
    (p.box (k + 1)).doors[c]? = some (x.poll (stamp (p.now k)) (p.sample k c)) := by
  rw [box, GpioHAL.updateDoorStates, List.getElem?_mapIdx, hx]
  rfl

/-- A contact was there in the poll before. -/
theorem box_pred (hx : (p.box (k + 1)).doors[c]? = some x') :
    ∃ x, (p.box k).doors[c]? = some x ∧ x' = x.poll (stamp (p.now k)) (p.sample k c) := by
  rw [box, GpioHAL.updateDoorStates, List.getElem?_mapIdx] at hx
  obtain ⟨x, hx, hpoll⟩ := Option.map_eq_some_iff.1 hx
  exact ⟨x, hx, hpoll.symm⟩

/-! ### Held samples -/

namespace Held

variable {v : Bool} {j j' : Nat}

theorem last (h : p.Held c v j (k + 1)) : p.sample k c = v :=
  h.constant k (Nat.le_of_lt_succ h.earlier) (Nat.lt_succ_self k)

theorem before (h : p.Held c v j k) : p.before c k = v := by
  cases k with
  | zero => exact absurd h.earlier (Nat.not_lt_zero j)
  | succ k => exact h.last

/-- A sample that differs from the one before starts anew. -/
theorem fresh (h : p.sample k c ≠ p.before c k) : p.Held c (p.sample k c) k (k + 1) where
  earlier := Nat.lt_succ_self k
  changed := h.symm
  constant l hl hlt := by rw [Nat.le_antisymm (Nat.le_of_lt_succ hlt) hl]

theorem goOn (h : p.Held c v j k) (hs : p.sample k c = v) : p.Held c v j (k + 1) where
  earlier := Nat.lt_succ_of_lt h.earlier
  changed := h.changed
  constant l hl hlt := by
    rcases Nat.lt_succ_iff_lt_or_eq.1 hlt with hlt | rfl
    · exact h.constant l hl hlt
    · exact hs

/-- It was held before, or it changed just now. -/
theorem pred (h : p.Held c v j (k + 1)) : j = k ∧ p.before c k ≠ v ∨ p.Held c v j k := by
  rcases Nat.lt_succ_iff_lt_or_eq.1 h.earlier with hlt | rfl
  · exact .inr ⟨hlt, h.changed, fun l hl hlk => h.constant l hl (Nat.lt_succ_of_lt hlk)⟩
  · exact .inl ⟨rfl, h.changed⟩

/-- While it is held it does not change. -/
theorem le_of_held (h : p.Held c v j k) (h' : p.Held c v j' k) : j' ≤ j := by
  by_contra hlt
  cases j' with
  | zero => exact hlt (Nat.zero_le j)
  | succ l => exact h'.changed (h.constant l (by omega) (by have := h'.earlier; omega))

theorem unique (h : p.Held c v j k) (h' : p.Held c v j' k) : j = j' :=
  Nat.le_antisymm (h'.le_of_held h) (h.le_of_held h')

end Held

/-! ### The entry of the contact -/

/-- What is known of a contact before the poll `k`. -/
structure Tracks (p : Polls) (c k : Nat) (x : Door) : Prop where
  sampled : x.sampledDoorState = p.before c k
  stamped : ∀ v j, p.Held c v j k → x.doorSampleStartedAt = stamp (p.now j)
  waiting : x.lastState ≠ p.before c k → ∃ j, p.Held c (p.before c k) j k ∧
    ∀ l, j ≤ l → l < k → p.now l < p.now j + doorContactDebounceMs.toNat

/-- A poll publishes a sample that is new and settled. -/
theorem Tracks.changes_iff (hp : p.Spaced) (h : p.Tracks c k x) (hpin : x.statePin ≠ invalidPin) :
    x.changes (stamp (p.now k)) (p.sample k c) = true ↔
      p.sample k c ≠ x.lastState ∧ p.Settled c (p.sample k c) k := by
  have hdelay : doorContactDebounceMs.toNat = 100 := rfl
  rw [Door.changes, Bool.and_eq_true, Bool.and_eq_true, decide_eq_true_iff, decide_eq_true_iff, and_assoc]
  refine (and_iff_right hpin).trans (and_congr_right fun hnew => ?_)
  unfold Door.noteSample
  by_cases hsame : p.sample k c = x.sampledDoorState
  · rw [if_neg (not_not.2 hsame)]
    have hbefore : p.sample k c = p.before c k := hsame.trans h.sampled
    obtain ⟨j, hheld, hshort⟩ := h.waiting fun heq => hnew (hbefore.trans heq.symm)
    rw [← hbefore] at hheld
    rw [h.stamped _ j hheld]
    constructor
    · intro helapsed
      have hle : p.now j ≤ p.now k := monotone_nat_of_le_succ (fun k => (hp k).1) (Nat.le_of_lt hheld.earlier)
      exact ⟨j, hheld.goOn rfl, le_of_timeoutElapsed hle helapsed⟩
    · -- The poll before was too early, so the counter has not come round.
      rintro ⟨j', hheld', hlong⟩
      obtain ⟨-, hchanged⟩ | hheld' := hheld'.pred
      · exact absurd hbefore.symm hchanged
      obtain rfl := hheld.unique hheld'
      obtain ⟨m, rfl⟩ : ∃ m, k = m + 1 := ⟨k - 1, by have := hheld.earlier; omega⟩
      have hlast := hshort m (Nat.le_of_lt_succ hheld.earlier) (Nat.lt_succ_self m)
      have hspaced := (hp m).2
      exact timeoutElapsed_of_le hlong (by omega)
  · rw [if_pos hsame]
    refine iff_of_false (fun helapsed => ?_) ?_
    · have := le_of_timeoutElapsed (Nat.le_refl _) helapsed
      omega
    · rintro ⟨j, hheld, hlong⟩
      obtain ⟨rfl, -⟩ | hheld := hheld.pred
      · omega
      · exact hsame (hheld.before.symm.trans h.sampled.symm)

theorem Tracks.poll (hp : p.Spaced) (h : p.Tracks c k x) (hpin : x.statePin ≠ invalidPin) :
    p.Tracks c (k + 1) (x.poll (stamp (p.now k)) (p.sample k c)) where
  sampled := Door.poll_sampled hpin
  stamped v j hheld := by
    rw [Door.poll_startedAt hpin, h.sampled]
    obtain ⟨rfl, hchanged⟩ | hheld' := hheld.pred
    · rw [hheld.last, if_pos hchanged.symm]
    · rw [hheld.last, if_neg (not_not.2 hheld'.before.symm)]
      exact h.stamped v j hheld'
  waiting hlast := by
    rw [Door.poll_lastState] at hlast
    split at hlast
    · exact absurd rfl hlast
    rename_i hsilent
    change x.lastState ≠ p.sample k c at hlast
    have hunsettled : ¬p.Settled c (p.sample k c) k := fun hsettled =>
      hsilent ((h.changes_iff hp hpin).2 ⟨hlast.symm, hsettled⟩)
    change ∃ j, p.Held c (p.sample k c) j (k + 1) ∧ _
    by_cases hsame : p.sample k c = p.before c k
    · rw [hsame] at hlast hunsettled ⊢
      obtain ⟨j, hheld, hshort⟩ := h.waiting hlast
      refine ⟨j, hheld.goOn hsame, fun l hl hlt => ?_⟩
      rcases Nat.lt_succ_iff_lt_or_eq.1 hlt with hlt | rfl
      · exact hshort l hl hlt
      · exact Nat.lt_of_not_le fun hlong => hunsettled ⟨j, hheld.goOn hsame, hlong⟩
    · refine ⟨k, .fresh hsame, fun l hl hlt => ?_⟩
      rw [Nat.le_antisymm (Nat.le_of_lt_succ hlt) hl]
      exact Nat.lt_add_of_pos_right (by decide)

theorem poll_statePin (now : UInt32) (sample : Bool) (x : Door) : (x.poll now sample).statePin = x.statePin := by
  rw [Door.poll_toDoorMapping]
  split <;> rfl

/-- A contact starts with the state it shows. -/
theorem tracks_initially (hx : (p.box 0).doors[c]? = some x) (hpin : x.statePin ≠ invalidPin) : p.Tracks c 0 x := by
  rw [box, GpioHAL.initializeGpioHAL, List.getElem?_mapIdx] at hx
  obtain ⟨mapping, -, rfl⟩ := Option.map_eq_some_iff.1 hx
  have hstate : (mapping.statePin ≠ invalidPin && p.initially c) = p.initially c := by
    rw [decide_eq_true (show mapping.statePin ≠ invalidPin from hpin), Bool.true_and]
  refine ⟨hstate, fun v j hheld => absurd hheld.earlier (Nat.not_lt_zero j), fun hlast => absurd hstate hlast⟩

theorem tracks (hp : p.Spaced) (hx : (p.box k).doors[c]? = some x) (hpin : x.statePin ≠ invalidPin) : p.Tracks c k x := by
  induction k generalizing x with
  | zero => exact tracks_initially hx hpin
  | succ k ih =>
    obtain ⟨y, hy, rfl⟩ := box_pred hx
    rw [poll_statePin] at hpin
    exact (ih hy hpin).poll hp hpin

/-! ## The doors -/

/-- The entry of its door shows when a contact is published. -/
theorem publishes_iff (hx : (p.box k).doors[c]? = some x) :
    (∃ x', p.Publishes k c x x') ↔ x.changes (stamp (p.now k)) (p.sample k c) = true := by
  constructor
  · rintro ⟨x', -, hx', -, hne⟩
    obtain rfl := Option.some.inj ((box_succ hx).symm.trans hx')
    rw [Door.poll_lastState] at hne
    by_contra hsilent
    rw [if_neg hsilent] at hne
    exact hne rfl
  · intro hchange
    refine ⟨_, hx, box_succ hx, ?_⟩
    rw [Door.poll_lastState, if_pos hchange]
    rw [Door.changes, Bool.and_eq_true, Bool.and_eq_true] at hchange
    exact ⟨of_decide_eq_true hchange.1.1, of_decide_eq_true hchange.1.2⟩

theorem calls_doors (p : Polls) (k : Nat) : (p.calls k).map Prod.fst =
    ((p.box k).updateDoorStates (stamp (p.now k)) (p.sample k)).1 := by
  rw [calls, List.map_map]
  exact List.map_id _

theorem mem_calls {door : UInt8} : door ∈ (p.calls k).map Prod.fst ↔
    door ≠ PassStore.doorUnknown ∧ ∃ c x x', p.Publishes k c x x' ∧ x.logDoorNum = door := by
  rw [calls_doors, GpioHAL.mem_announced, GpioHAL.doorChanges_iff]
  refine and_congr_right fun _ => ⟨?_, ?_⟩
  · rintro ⟨c, x, hx, hdoor, hchange⟩
    obtain ⟨x', hpub⟩ := (publishes_iff hx).2 hchange
    exact ⟨c, x, x', hpub, hdoor⟩
  · rintro ⟨c, x, x', hpub, hdoor⟩
    exact ⟨c, x, hpub.1, hdoor, (publishes_iff hpub.1).1 ⟨x', hpub⟩⟩

theorem calls_nodup (p : Polls) (k : Nat) : ((p.calls k).map Prod.fst).Nodup := by
  rw [calls_doors]
  exact GpioHAL.announced_nodup ..

/-- A contact publishes `v` at the first poll that finds it settled at `v`, and
`onChange` is called once for each door of such a contact, with all the
contacts up to date. Door `doorUnknown` is none. -/
theorem debounced (p : Polls) (hp : p.Spaced) (k : Nat) :
    (∀ c x, (p.box k).doors[c]? = some x → x.statePin ≠ invalidPin → ∃ x', (p.box (k + 1)).doors[c]? = some x' ∧
      (x'.lastState ≠ x.lastState → p.Settled c x'.lastState k) ∧ ∀ v, p.Settled c v k → x'.lastState = v) ∧
    ((p.calls k).map Prod.fst).Nodup ∧
    (∀ door, door ∈ (p.calls k).map Prod.fst ↔
      door ≠ PassStore.doorUnknown ∧ ∃ c x x', p.Publishes k c x x' ∧ x.logDoorNum = door) ∧
    ∀ call ∈ p.calls k, call.2 = p.box (k + 1) := by
  refine ⟨fun c x hx hpin => ⟨_, box_succ hx, fun hne => ?_, fun v hsettled => ?_⟩, calls_nodup p k, fun _ => mem_calls, ?_⟩
  · have hchange := (publishes_iff hx).1 ⟨_, hx, box_succ hx, hpin, hne⟩
    rw [Door.poll_lastState, if_pos hchange]
    exact (((tracks hp hx hpin).changes_iff hp hpin).1 hchange).2
  · have hsample : p.sample k c = v := by
      obtain ⟨j, hheld, -⟩ := hsettled
      exact hheld.last
    subst hsample
    rw [Door.poll_lastState]
    split
    · rfl
    · rename_i hsilent
      by_contra hne
      exact hsilent (((tracks hp hx hpin).changes_iff hp hpin).2 ⟨Ne.symm hne, hsettled⟩)
  · intro call hcall
    obtain ⟨door, -, rfl⟩ := List.mem_map.1 hcall
    rfl

/-- Two contacts of one door that close and stay closed, polled ten times a second. -/
abbrev pair : Polls :=
  { mappings := [⟨0, 20, 10, 0, false⟩, ⟨0, 21, 11, 0, false⟩], ambientPin := invalidPin, millis := 0, pins := fun _ => false,
    initially := fun _ => false, now := fun k => 100 * k, sample := fun _ _ => true }

theorem pair_spaced : pair.Spaced := by
  intro k
  change 100 * k ≤ 100 * (k + 1) ∧ 100 * (k + 1) < 100 * k + 2 ^ 31
  omega

theorem debounced_pair : ∃ x', (pair.box 2).doors[0]? = some x' ∧ x'.lastState = true ∧
    pair.calls 1 = [(0, pair.box 2)] := by
  have hheld : pair.Held 0 true 0 2 := ⟨by decide, by decide, fun _ _ _ => rfl⟩
  obtain ⟨x', hx', -, hsettled⟩ := (debounced pair pair_spaced 1).1 0 _ rfl (by decide)
  exact ⟨x', hx', hsettled true ⟨0, hheld, by decide⟩, rfl⟩

/-- The same with a contact that is set up for the door `doorUnknown`. -/
abbrev unknownDoor : Polls := { pair with mappings := [⟨PassStore.doorUnknown, 20, 10, 0, false⟩] }

theorem unknown_door_not_called : unknownDoor.Spaced ∧
    (∃ x x', unknownDoor.Publishes 1 0 x x' ∧ x.logDoorNum = PassStore.doorUnknown) ∧ unknownDoor.calls 1 = [] :=
  ⟨pair_spaced, ⟨_, _, ⟨rfl, rfl, by decide, by decide⟩, rfl⟩, rfl⟩

end Polls

end OrangeBox.Hal
