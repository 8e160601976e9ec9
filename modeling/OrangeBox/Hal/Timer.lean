import OrangeBox.Lib.Decimal
import OrangeBox.Text
import OrangeBox.Timeout
/-!
# Timers

`timer.h` and `timer.cpp`: ten slots shared by everything that waits. A timer
that finds no free slot is dropped without notice.
-/
open Clock

namespace OrangeBox.Hal

/-! ## Slots -/

abbrev maxTimers : Nat := 10
abbrev maxTimerParameters : Nat := 11
abbrev watchdogSend : UInt8 := 1
abbrev lockDeactivateAction : UInt8 := 2
abbrev passwordTimeoutAction : UInt8 := 3
abbrev ambientDeactivate : UInt8 := 4
abbrev streamDeactivate : UInt8 := 8
abbrev notifyDoorChange : UInt8 := 16

/-- `struct Timer`. -/
structure Timer where
  active : Bool
  startedAt : UInt32
  interval : UInt32
  repeats : Bool
  action : UInt8
  arg : CText maxTimerParameters
  deriving DecidableEq

def Timer.zero : Timer :=
  { active := false, startedAt := 0, interval := 0, repeats := false, action := 0, arg := .empty }

/-- `TimerManager`. -/
structure TimerManager where
  timers : Fin maxTimers → Timer

namespace TimerManager

def constructed : TimerManager := ⟨fun _ => .zero⟩

/-- Store a slot. -/
def put (i : Fin maxTimers) (t : Timer) (tm : TimerManager) : TimerManager := ⟨Function.update tm.timers i t⟩

@[simp] theorem put_timers_self (i : Fin maxTimers) (t : Timer) (tm : TimerManager) : (tm.put i t).timers i = t :=
  Function.update_self ..

theorem put_timers_of_ne {i j : Fin maxTimers} (h : j ≠ i) (t : Timer) (tm : TimerManager) :
    (tm.put i t).timers j = tm.timers j := Function.update_of_ne h ..

/-- The first slot that is not active. -/
def findFreeSlot (tm : TimerManager) : Option (Fin maxTimers) :=
  (List.finRange maxTimers).find? fun i => !(tm.timers i).active

theorem findFreeSlot_some {tm : TimerManager} {i : Fin maxTimers} (h : tm.findFreeSlot = some i) :
    (tm.timers i).active = false := by
  simpa using List.find?_some h

/-! ## Scheduling -/

/-- `scheduleOnce` with the clock at `millis`, and the slot it took. -/
def scheduleOnce (delayMs : UInt32) (action : UInt8) (arg : List UInt8) (millis : UInt32) (tm : TimerManager) :
    Option (Fin maxTimers) × TimerManager :=
  match tm.findFreeSlot with
  | none => (none, tm)
  | some slot =>
    if action = 0 then (none, tm)
    else (some slot, tm.put slot
      { active := true, startedAt := millis, interval := delayMs, repeats := false, action := action, arg := .read _ arg })

/-- A timer gets the first free slot. -/
theorem scheduleOnce_some {delayMs : UInt32} {action : UInt8} (arg : List UInt8) (millis : UInt32) {tm : TimerManager}
    {slot : Fin maxTimers} (hfree : tm.findFreeSlot = some slot) (haction : action ≠ 0) :
    tm.scheduleOnce delayMs action arg millis = (some slot, tm.put slot
      { active := true, startedAt := millis, interval := delayMs, repeats := false, action := action,
        arg := .read _ arg }) := by
  rw [scheduleOnce, hfree]
  exact if_neg haction

/-- Without a free slot nothing is scheduled. -/
theorem scheduleOnce_none {delayMs : UInt32} {action : UInt8} (arg : List UInt8) (millis : UInt32) {tm : TimerManager}
    (hfree : tm.findFreeSlot = none) : tm.scheduleOnce delayMs action arg millis = (none, tm) := by
  rw [scheduleOnce, hfree]

/-- Scheduling leaves the active timers alone. -/
theorem scheduleOnce_keeps (delayMs : UInt32) (action : UInt8) (arg : List UInt8) (millis : UInt32) {tm : TimerManager}
    {i : Fin maxTimers} (h : (tm.timers i).active = true) :
    (tm.scheduleOnce delayMs action arg millis).2.timers i = tm.timers i := by
  unfold scheduleOnce
  split
  · rfl
  · rename_i slot hfree
    have hne : i ≠ slot := by
      rintro rfl
      rw [findFreeSlot_some hfree] at h
      contradiction
    split
    · rfl
    · exact put_timers_of_ne hne _ _

/-- `scheduleRepeat`. -/
def scheduleRepeat (intervalMs : UInt32) (action : UInt8) (arg : List UInt8) (millis : UInt32) (tm : TimerManager) :
    Option (Fin maxTimers) × TimerManager :=
  match tm.findFreeSlot with
  | none => (none, tm)
  | some slot =>
    if action = 0 ∨ intervalMs = 0 then (none, tm)
    else (some slot, tm.put slot
      { active := true, startedAt := millis, interval := intervalMs, repeats := true, action := action, arg := .read _ arg })

/-- Either kind of timer. -/
def schedule (repeats : Bool) (interval : UInt32) (action : UInt8) (arg : List UInt8) (millis : UInt32)
    (tm : TimerManager) : Option (Fin maxTimers) × TimerManager :=
  if repeats then tm.scheduleRepeat interval action arg millis else tm.scheduleOnce interval action arg millis

/-- Scheduling does nothing, or puts a timer in a slot that was free. -/
theorem schedule_cases (repeats : Bool) (interval : UInt32) (action : UInt8) (arg : List UInt8) (millis : UInt32)
    (tm : TimerManager) : tm.schedule repeats interval action arg millis = (none, tm) ∨
      ∃ slot, (tm.timers slot).active = false ∧ tm.schedule repeats interval action arg millis = (some slot, tm.put slot
        { active := true, startedAt := millis, interval := interval, repeats := repeats, action := action,
          arg := .read _ arg }) := by
  cases hfree : tm.findFreeSlot with
  | none =>
    refine .inl ?_
    unfold schedule scheduleRepeat scheduleOnce
    rw [hfree]
    exact ite_self _
  | some slot =>
    cases repeats with
    | true =>
      simp only [schedule, scheduleRepeat, hfree, if_true]
      split
      · exact .inl rfl
      · exact .inr ⟨slot, findFreeSlot_some hfree, rfl⟩
    | false =>
      simp only [schedule, scheduleOnce, hfree, Bool.false_eq_true, if_false]
      split
      · exact .inl rfl
      · exact .inr ⟨slot, findFreeSlot_some hfree, rfl⟩

/-- The slot a `timerId` stands for. -/
def slotOf (timerId : Int) : Option (Fin maxTimers) :=
  if h : 0 ≤ timerId ∧ timerId < maxTimers then some ⟨timerId.toNat, by omega⟩ else none

def cancel (timerId : Int) (tm : TimerManager) : Bool × TimerManager :=
  match slotOf timerId with
  | none => (false, tm)
  | some i => if (tm.timers i).active then (true, tm.put i { tm.timers i with active := false }) else (false, tm)

/-! ## Firing -/

/-- The slot has a timer that is due. -/
def due (now : UInt32) (i : Fin maxTimers) (tm : TimerManager) : Bool :=
  (tm.timers i).active && timeoutElapsed (tm.timers i).startedAt (tm.timers i).interval now

/-- What `update` does with a slot after the action handler ran. -/
def finish (now : UInt32) (i : Fin maxTimers) (tm : TimerManager) : TimerManager :=
  if (tm.timers i).repeats then tm.put i { tm.timers i with startedAt := now }
  else tm.put i { tm.timers i with active := false }

section
variable {S : Type} (timersOf : S → TimerManager) (setTimers : TimerManager → S → S) (actionHandler : UInt8 → List UInt8 → S → S)

/-- One round of the loop of `update`. The handler runs while the slot is still
active, and may schedule timers itself. -/
def visit (now : UInt32) (i : Fin maxTimers) (s : S) : S :=
  if (timersOf s).due now i then
    let s := actionHandler ((timersOf s).timers i).action ((timersOf s).timers i).arg.bytes s
    setTimers ((timersOf s).finish now i) s
  else s

end

theorem finish_keeps {now : UInt32} {i j : Fin maxTimers} (h : j ≠ i) (tm : TimerManager) :
    (tm.finish now i).timers j = tm.timers j := by
  unfold finish
  split <;> exact put_timers_of_ne h _ _

end TimerManager

/-! ## Door numbers as arguments -/

/-- `String(doorNum)`. -/
def doorText (doorNum : UInt8) : List UInt8 := Decimal.text doorNum.toNat

/-- `atoi` into a `uint8_t`, of a text of digits. -/
def atoi (arg : List UInt8) : UInt8 := UInt8.ofNat (Decimal.value (arg.takeWhile Decimal.isDigit))

/-- The argument of a timer for a door. -/
def doorArg (doorNum : UInt8) : CText maxTimerParameters := .read _ (doorText doorNum)

theorem doorArg_bytes (doorNum : UInt8) : (doorArg doorNum).bytes = doorText doorNum := by
  refine CText.read_bytes (Decimal.noNul_text _) ?_
  exact (Decimal.length_text_le_iff (by decide)).2 (Nat.lt_of_lt_of_le doorNum.toNat_lt (by decide))

/-- A door number survives its way through a timer. -/
@[simp] theorem atoi_doorText (doorNum : UInt8) : atoi (doorText doorNum) = doorNum := by
  have hall : (doorText doorNum).takeWhile Decimal.isDigit = doorText doorNum :=
    List.takeWhile_eq_self_iff.2 fun _ => Decimal.isDigit_of_mem
  rw [atoi, hall, doorText, Decimal.value_text, UInt8.ofNat_toNat]

end OrangeBox.Hal
