import OrangeBox.Lib.Clock
/-!
# The circuit breaker

`circuit_breaker.h`. A mapping whose local end cannot be reached is left alone
for a while, longer after each failure. `Streak` is what the breaker is for: the
failures of a mapping in a row and the time of the last one.
-/
open Clock

namespace OrangeBox.Tunnel

abbrev maxMappingHealth : Nat := 8
abbrev failThreshold : Nat := 3
abbrev backoffBaseMs : UInt32 := 1000
abbrev backoffCapMs : UInt32 := 60000

structure MappingHealth where
  remoteBindPort : Int
  consecutiveFails : Nat
  backoffUntilMs : UInt32
deriving DecidableEq

namespace MappingHealth

def unused : MappingHealth := ⟨0, 0, 0⟩

/-- The back-off is on; the difference is read as a signed number. -/
def isOpen (now : UInt32) (h : MappingHealth) : Bool := h.backoffUntilMs ≠ 0 && 2 ^ 31 ≤ (now - h.backoffUntilMs).toNat

/-- How long to back off after so many failures. -/
def delay (fails : Nat) : UInt32 :=
  let exp := min (fails - failThreshold) 16
  min (backoffBaseMs <<< UInt32.ofNat exp) backoffCapMs

/-- One more failure. -/
def fail (now : UInt32) (h : MappingHealth) : MappingHealth :=
  let fails := if h.consecutiveFails < 100 then h.consecutiveFails + 1 else h.consecutiveFails
  { h with consecutiveFails := fails, backoffUntilMs := if failThreshold ≤ fails then now + delay fails else h.backoffUntilMs }

def recover (h : MappingHealth) : MappingHealth := { h with consecutiveFails := 0, backoffUntilMs := 0 }

end MappingHealth

structure CircuitBreaker where
  health : List MappingHealth
  totalTrips : Nat

namespace CircuitBreaker

def new : CircuitBreaker := ⟨List.replicate maxMappingHealth .unused, 0⟩

/-- The place of the entry of a port. -/
def entry (port : Int) (health : List MappingHealth) : Option Nat := health.findIdx? fun h => h.remoteBindPort = port

def find (port : Int) (b : CircuitBreaker) : Option MappingHealth :=
  if port = 0 then none else b.health.find? fun h => h.remoteBindPort = port

/-- The place of the entry of a port, a new one if need be, with the table. -/
def findOrAlloc (port : Int) (health : List MappingHealth) : Option (Nat × List MappingHealth) :=
  match entry port health with
  | some i => some (i, health)
  | none => (entry 0 health).map fun i => (i, health.set i ⟨port, 0, 0⟩)

def isBackedOff (port : Int) (now : UInt32) (b : CircuitBreaker) : Bool :=
  match b.find port with
  | none => false
  | some h => h.isOpen now

def recordFailure (port : Int) (now : UInt32) (b : CircuitBreaker) : Bool × CircuitBreaker :=
  if port = 0 then (false, b)
  else
    match findOrAlloc port b.health with
    | none => (false, b)
    | some (i, health) =>
      let h := health.getD i .unused
      let failed := h.fail now
      let health' := health.set i failed
      if failThreshold ≤ failed.consecutiveFails && !h.isOpen now then (true, ⟨health', b.totalTrips + 1⟩)
      else (false, ⟨health', b.totalTrips⟩)

def recordSuccess (port : Int) (b : CircuitBreaker) : CircuitBreaker :=
  if port = 0 then b
  else
    match findOrAlloc port b.health with
    | none => b
    | some (i, health) => { b with health := health.set i (health.getD i .unused).recover }

end CircuitBreaker

/-! ## What is reported -/

/-- A call of the breaker, with the true time of a failure. -/
inductive Report where
  | failure (port : Int) (time : Nat)
  | success (port : Int)

namespace Report

def port : Report → Int
  | .failure port _ => port
  | .success port => port

end Report

namespace CircuitBreaker

def report (b : CircuitBreaker) : Report → CircuitBreaker
  | .failure port time => (b.recordFailure port (stamp time)).2
  | .success port => b.recordSuccess port

/-- The breaker after some reports. -/
def after (reports : List Report) : CircuitBreaker := reports.foldl report new

end CircuitBreaker

/-- The failures since the last success, and when the last of them was. -/
structure Streak where
  fails : Nat
  last : Nat

namespace Streak

def add (port : Int) (s : Streak) : Report → Streak
  | .failure p time => if p = port then ⟨s.fails + 1, time⟩ else s
  | .success p => if p = port then ⟨0, s.last⟩ else s

/-- The streak of a port. -/
def of (port : Int) (reports : List Report) : Streak := reports.foldl (add port) ⟨0, 0⟩

/-- One second after the third failure, and twice as long after each further
one, but never more than a minute. -/
def pause (s : Streak) : Nat := if s.fails < failThreshold then 0 else min (1000 * 2 ^ (s.fails - failThreshold)) 60000

theorem pause_pos {s : Streak} (h : failThreshold ≤ s.fails) : 0 < s.pause := by
  have hpow : 0 < 2 ^ (s.fails - failThreshold) := Nat.two_pow_pos _
  rw [pause, if_neg (Nat.not_lt.2 h)]
  omega

end Streak

/-- The breaker keeps the first ports it hears of, as long as it has room. -/
def hear (ports : List Int) (r : Report) : List Int :=
  if r.port = 0 ∨ r.port ∈ ports ∨ maxMappingHealth ≤ ports.length then ports else ports ++ [r.port]

def heard (reports : List Report) : List Int := reports.foldl hear []

/-! ## The table -/

namespace MappingHealth

/-- The entry of a port with a streak. -/
def ofStreak (port : Int) (s : Streak) : MappingHealth :=
  { remoteBindPort := port
    consecutiveFails := min s.fails 100
    backoffUntilMs := if failThreshold ≤ s.fails then stamp s.last + delay s.fails else 0 }

theorem toNat_delay (fails : Nat) : (delay fails).toNat = min (1000 * 2 ^ (fails - failThreshold)) 60000 := by
  unfold delay
  generalize fails - failThreshold = exp
  obtain hsmall | hlarge := Nat.le_total exp 16
  · rw [Nat.min_eq_left hsmall]
    interval_cases exp <;> decide
  · have hpow : 2 ^ 16 ≤ 2 ^ exp := Nat.pow_le_pow_right (by decide) hlarge
    rw [Nat.min_eq_right hlarge, Nat.min_eq_right (by omega)]
    decide

theorem delay_min (fails : Nat) : delay (min fails 100) = delay fails := by
  have hexp : min (min fails 100 - failThreshold) 16 = min (fails - failThreshold) 16 := by
    simp only [failThreshold]
    omega
  rw [delay, delay, hexp]

variable {port : Int} {s : Streak}

theorem ofStreak_fail (time : Nat) : (ofStreak port s).fail (stamp time) = ofStreak port ⟨s.fails + 1, time⟩ := by
  have hcount : (ofStreak port s).consecutiveFails = min s.fails 100 := rfl
  have hfails : (if (ofStreak port s).consecutiveFails < 100 then (ofStreak port s).consecutiveFails + 1
      else (ofStreak port s).consecutiveFails) = min (s.fails + 1) 100 := by
    by_cases h : s.fails < 100
    · rw [if_pos (by omega), hcount]
      omega
    · rw [if_neg (by omega), hcount]
      omega
  have huntil : (if failThreshold ≤ min (s.fails + 1) 100 then stamp time + delay (s.fails + 1)
      else (ofStreak port s).backoffUntilMs) = if failThreshold ≤ s.fails + 1 then stamp time + delay (s.fails + 1) else 0 := by
    simp only [ofStreak, failThreshold]
    by_cases h : 3 ≤ s.fails + 1
    · rw [if_pos h, if_pos (by omega)]
    · rw [if_neg h, if_neg (by omega), if_neg (by omega)]
  simp only [fail, hfails, delay_min, huntil]
  rfl

theorem ofStreak_recover : (ofStreak port s).recover = ofStreak port ⟨0, s.last⟩ := rfl

/-- The back-off of a streak is on until its pause is over. The moment at which
it is over must not look like no back-off at all. -/
theorem ofStreak_isOpen {now : Nat} (hnow : s.last ≤ now) (hlate : 0 < s.pause → now < s.last + 2 ^ 31)
    (hzero : 0 < s.pause → stamp (s.last + s.pause) ≠ 0) :
    (ofStreak port s).isOpen (stamp now) = true ↔ now < s.last + s.pause := by
  by_cases h : failThreshold ≤ s.fails
  · have hpos := Streak.pause_pos h
    have hlate := hlate hpos
    have hzero := hzero hpos
    unfold Streak.pause at hzero ⊢
    have hlt : ¬s.fails < failThreshold := Nat.not_lt.2 h
    rw [if_neg hlt, ← toNat_delay] at hzero ⊢
    have hcap : (delay s.fails).toNat ≤ 60000 := by
      rw [toNat_delay]
      exact Nat.min_le_right _ _
    generalize hd : delay s.fails = d at hzero hcap
    rw [stamp_add, show stamp d.toNat = d from UInt32.ofNat_toNat] at hzero
    simp only [ofStreak, isOpen, if_pos h, hd, ne_eq, hzero, not_false_eq_true, decide_true, Bool.true_and,
      decide_eq_true_eq]
    rw [UInt32.toNat_sub, UInt32.toNat_add, toNat_stamp, toNat_stamp]
    have hlt := d.toNat_lt
    omega
  · have hlt : s.fails < failThreshold := Nat.lt_of_not_le h
    simp only [ofStreak, isOpen, Streak.pause, if_neg h, if_pos hlt]
    simpa using hnow

end MappingHealth

/-- The entries of the ports, and room for more. -/
def table (health : Int → MappingHealth) (ports : List Int) : List MappingHealth :=
  ports.map health ++ List.replicate (maxMappingHealth - ports.length) .unused

theorem table_congr {f g : Int → MappingHealth} {ports : List Int} (h : ∀ p ∈ ports, f p = g p) :
    table f ports = table g ports := by
  rw [table, table, List.map_congr_left h]

section Table
variable {health : Int → MappingHealth} {ports : List Int} {port : Int}

theorem entry_map (hport : ∀ p, (health p).remoteBindPort = p) :
    CircuitBreaker.entry port (ports.map health) = if port ∈ ports then some (ports.idxOf port) else none := by
  simp only [CircuitBreaker.entry, List.findIdx?_map, Function.comp_def, hport]
  split
  · rename_i hm
    exact List.findIdx?_eq_some_iff_findIdx_eq.2 ⟨List.idxOf_lt_length_iff.2 hm, rfl⟩
  · rename_i hm
    rw [List.findIdx?_eq_none_iff]
    intro p hp
    simp only [decide_eq_false_iff_not]
    rintro rfl
    exact hm hp

theorem entry_table (hport : ∀ p, (health p).remoteBindPort = p) (h0 : port ≠ 0) :
    CircuitBreaker.entry port (table health ports) = if port ∈ ports then some (ports.idxOf port) else none := by
  have hrest : CircuitBreaker.entry port (List.replicate (maxMappingHealth - ports.length) .unused) = none := by
    simp [CircuitBreaker.entry, MappingHealth.unused, Ne.symm h0]
  have happ : CircuitBreaker.entry port (table health ports) =
      (CircuitBreaker.entry port (ports.map health)).or
        ((CircuitBreaker.entry port (List.replicate (maxMappingHealth - ports.length) .unused)).map (· + (ports.map health).length)) :=
    List.findIdx?_append
  rw [happ, hrest, entry_map hport]
  simp

theorem find_table (hport : ∀ p, (health p).remoteBindPort = p) (h0 : port ≠ 0) :
    (table health ports).find? (fun h => h.remoteBindPort = port) = if port ∈ ports then some (health port) else none := by
  have hrest : (List.replicate (maxMappingHealth - ports.length) MappingHealth.unused).find?
      (fun h => h.remoteBindPort = port) = none := by
    simp [MappingHealth.unused, Ne.symm h0]
  rw [table, List.find?_append, hrest, Option.or_none, List.find?_map, Function.comp_def]
  simp only [hport]
  split
  · rename_i hm
    obtain ⟨p, hp⟩ : ∃ p, ports.find? (fun p => decide (p = port)) = some p :=
      Option.isSome_iff_exists.1 (List.find?_isSome.2 ⟨port, hm, decide_eq_true rfl⟩)
    obtain rfl : p = port := by simpa using List.find?_some hp
    rw [hp, Option.map_some]
  · rename_i hm
    rw [Option.map_eq_none_iff, List.find?_eq_none]
    rintro p hp heq
    exact hm (of_decide_eq_true heq ▸ hp)

theorem entry_zero_table (hport : ∀ p, (health p).remoteBindPort = p) (h0 : 0 ∉ ports) :
    CircuitBreaker.entry 0 (table health ports) = if ports.length < maxMappingHealth then some ports.length else none := by
  have happ : CircuitBreaker.entry 0 (table health ports) =
      (CircuitBreaker.entry 0 (ports.map health)).or
        ((CircuitBreaker.entry 0 (List.replicate (maxMappingHealth - ports.length) .unused)).map (· + (ports.map health).length)) :=
    List.findIdx?_append
  rw [happ, entry_map hport, if_neg h0, Option.none_or]
  split
  · rename_i h
    obtain ⟨n, hn⟩ := Nat.exists_eq_add_of_lt h
    rw [show maxMappingHealth - ports.length = n + 1 by omega]
    simp [CircuitBreaker.entry, List.replicate_succ, List.findIdx?_cons, MappingHealth.unused]
  · rename_i h
    rw [Nat.sub_eq_zero_of_le (Nat.le_of_not_lt h)]
    rfl

/-- Changing the entry of a port. -/
theorem set_table {x : MappingHealth} (hn : ports.Nodup) (hm : port ∈ ports) :
    (table health ports).set (ports.idxOf port) x = table (Function.update health port x) ports := by
  rw [table, table, hn.map_update, if_pos hm, List.set_append_left]
  rw [List.length_map]
  exact List.idxOf_lt_length_iff.2 hm

theorem getD_table (hm : port ∈ ports) : (table health ports).getD (ports.idxOf port) .unused = health port := by
  have hlt := List.idxOf_lt_length_iff.2 hm
  rw [table, List.getD_append _ _ _ _ (by rwa [List.length_map]), List.getD_eq_getElem _ _ (by rwa [List.length_map]),
    List.getElem_map, List.getElem_idxOf]

/-- Taking an unused entry. -/
theorem set_length_table {x : MappingHealth} (hm : port ∉ ports) (hlt : ports.length < maxMappingHealth) :
    (table health ports).set ports.length x = table (Function.update health port x) (ports ++ [port]) := by
  obtain ⟨n, hn⟩ := Nat.exists_eq_add_of_lt hlt
  have hrest : ports.map (Function.update health port x) = ports.map health := by
    apply List.map_congr_left
    intro p hp
    refine Function.update_of_ne ?_ _ _
    rintro rfl
    exact hm hp
  rw [table, table, List.set_append_right _ _ (by simp), List.length_map, Nat.sub_self, List.map_append, hrest,
    show maxMappingHealth - ports.length = n + 1 by omega, List.replicate_succ, List.set_cons_zero, List.length_append,
    List.length_singleton, show maxMappingHealth - (ports.length + 1) = n by omega, List.map_singleton,
    Function.update_self, List.append_assoc, List.singleton_append]

end Table

/-! ## The breaker follows the streaks -/

namespace Streak

variable {port : Int} {reports : List Report} {r : Report}

theorem of_snoc : of port (reports ++ [r]) = (of port reports).add port r := by
  rw [of, List.foldl_append]
  rfl

theorem add_of_ne {s : Streak} (h : r.port ≠ port) : s.add port r = s := by
  cases r <;> exact if_neg h

end Streak

theorem heard_snoc {reports : List Report} {r : Report} : heard (reports ++ [r]) = hear (heard reports) r := by
  rw [heard, List.foldl_append]
  rfl

namespace CircuitBreaker

/-- The table with the entry of a port changed. -/
def alter (f : MappingHealth → MappingHealth) (port : Int) (health : List MappingHealth) : List MappingHealth :=
  if port = 0 then health
  else
    match findOrAlloc port health with
    | none => health
    | some (i, found) => found.set i (f (found.getD i .unused))

theorem health_recordFailure {port : Int} {now : UInt32} {b : CircuitBreaker} :
    (b.recordFailure port now).2.health = alter (·.fail now) port b.health := by
  unfold recordFailure alter
  split
  · rfl
  · split
    · rfl
    · simp only
      split <;> rfl

theorem health_recordSuccess {port : Int} {b : CircuitBreaker} :
    (b.recordSuccess port).health = alter (·.recover) port b.health := by
  unfold recordSuccess alter
  split
  · rfl
  · split <;> rfl

/-- How a report changes an entry. -/
def change : Report → MappingHealth → MappingHealth
  | .failure _ time => (·.fail (stamp time))
  | .success _ => (·.recover)

theorem health_report {b : CircuitBreaker} {r : Report} : (b.report r).health = alter (change r) r.port b.health := by
  cases r with
  | failure port time => exact health_recordFailure
  | success port => exact health_recordSuccess

theorem change_ofStreak {r : Report} {s : Streak} :
    change r (.ofStreak r.port s) = .ofStreak r.port (s.add r.port r) := by
  cases r with
  | failure port time =>
    simp only [Report.port, Streak.add, if_true]
    exact MappingHealth.ofStreak_fail time
  | success port =>
    simp only [Report.port, Streak.add, if_true]
    exact MappingHealth.ofStreak_recover

/-- The table after some reports: an entry for each port that was heard of. -/
structure Follows (reports : List Report) (health : List MappingHealth) : Prop where
  health_eq : health = table (fun p => .ofStreak p (.of p reports)) (heard reports)
  nodup : (heard reports).Nodup
  zero : 0 ∉ heard reports
  room : (heard reports).length ≤ maxMappingHealth
  silent : ∀ p, p ≠ 0 → p ∉ heard reports → (heard reports).length < maxMappingHealth → Streak.of p reports = ⟨0, 0⟩

/-- The entries change as the streaks do. -/
theorem update_ofStreak {reports : List Report} {r : Report} {x : MappingHealth}
    (hx : x = .ofStreak r.port (.of r.port (reports ++ [r]))) (ports : List Int) :
    table (Function.update (fun p => .ofStreak p (.of p reports)) r.port x) ports =
      table (fun p => .ofStreak p (.of p (reports ++ [r]))) ports := by
  apply table_congr
  intro p _
  by_cases hp : p = r.port
  · rw [hp, Function.update_self, hx]
  · rw [Function.update_of_ne hp, Streak.of_snoc, Streak.add_of_ne (Ne.symm hp)]

theorem Follows.report {reports : List Report} {health : List MappingHealth} (h : Follows reports health) (r : Report) :
    Follows (reports ++ [r]) (alter (change r) r.port health) := by
  have hport : ∀ p, (MappingHealth.ofStreak p (.of p reports)).remoteBindPort = p := fun _ => rfl
  have hother : ∀ p, p ≠ r.port → Streak.of p (reports ++ [r]) = Streak.of p reports := fun p hp =>
    Streak.of_snoc.trans (Streak.add_of_ne (Ne.symm hp))
  have hchanged : change r (.ofStreak r.port (.of r.port reports)) = .ofStreak r.port (.of r.port (reports ++ [r])) := by
    rw [change_ofStreak, Streak.of_snoc]
  by_cases h0 : r.port = 0
  · -- no entry is kept for port 0
    have hheard : heard (reports ++ [r]) = heard reports := by rw [heard_snoc, hear, if_pos (.inl h0)]
    rw [alter, if_pos h0]
    refine ⟨?_, hheard ▸ h.nodup, hheard ▸ h.zero, hheard ▸ h.room, fun p hp hm hlt => ?_⟩
    · rw [hheard, h.health_eq]
      refine table_congr fun p hp => ?_
      rw [hother p (by rintro rfl; exact h.zero (h0 ▸ hp))]
    · rw [hheard] at hm hlt
      rw [hother p (by rintro rfl; exact hp h0)]
      exact h.silent p hp hm hlt
  rw [alter, if_neg h0, findOrAlloc, h.health_eq, entry_table hport h0]
  by_cases hm : r.port ∈ heard reports
  · -- The port has its entry, and only that entry changes.
    have hheard : heard (reports ++ [r]) = heard reports := by rw [heard_snoc, hear, if_pos (.inr (.inl hm))]
    rw [if_pos hm]
    simp only
    rw [getD_table hm, set_table h.nodup hm, hchanged, update_ofStreak rfl]
    refine ⟨by rw [hheard], hheard ▸ h.nodup, hheard ▸ h.zero, hheard ▸ h.room, fun p hp hm' hlt => ?_⟩
    rw [hheard] at hm' hlt
    rw [hother p (by rintro rfl; exact hm' hm)]
    exact h.silent p hp hm' hlt
  rw [if_neg hm]
  simp only
  rw [entry_zero_table hport h.zero]
  by_cases hlt : (heard reports).length < maxMappingHealth
  · -- a new entry looks like a streak of no failures, which is what the port has
    have hheard : heard (reports ++ [r]) = heard reports ++ [r.port] := by
      rw [heard_snoc, hear, if_neg (by rintro (h | h | h); exacts [h0 h, hm h, absurd hlt (Nat.not_lt.2 h)])]
    have hnew : (⟨r.port, 0, 0⟩ : MappingHealth) = .ofStreak r.port (.of r.port reports) := by
      rw [h.silent r.port h0 hm hlt]
      rfl
    have hmem : r.port ∈ heard reports ++ [r.port] := by simp
    have hnodup : (heard reports ++ [r.port]).Nodup := by
      rw [List.nodup_append_comm]
      exact List.nodup_cons.2 ⟨hm, h.nodup⟩
    have hsame : Function.update (fun p => MappingHealth.ofStreak p (.of p reports)) r.port
        (.ofStreak r.port (.of r.port reports)) = fun p => .ofStreak p (.of p reports) := Function.update_eq_self _ _
    have hidx : (heard reports).length = (heard reports ++ [r.port]).idxOf r.port := by
      rw [List.idxOf_append_of_notMem hm]
      simp
    rw [if_pos hlt, Option.map_some]
    simp only
    rw [set_length_table hm hlt, hnew, hsame, hidx, getD_table hmem, set_table hnodup hmem, hchanged, update_ofStreak rfl]
    refine ⟨by rw [hheard], hheard ▸ hnodup, ?_, ?_, fun p hp hm' _ => ?_⟩
    · rw [hheard, List.mem_append, List.mem_singleton]
      rintro (h' | h')
      · exact h.zero h'
      · exact h0 h'.symm
    · rw [hheard, List.length_append, List.length_singleton]
      omega
    · rw [hheard, List.mem_append, List.mem_singleton, not_or] at hm'
      rw [hother p hm'.2]
      exact h.silent p hp hm'.1 hlt
  · -- The table is full, and a port without an entry is not heard.
    have hheard : heard (reports ++ [r]) = heard reports := by
      rw [heard_snoc, hear, if_pos (.inr (.inr (Nat.le_of_not_lt hlt)))]
    rw [if_neg hlt]
    refine ⟨?_, hheard ▸ h.nodup, hheard ▸ h.zero, hheard ▸ h.room, fun p _ _ hlt' => absurd (hheard ▸ hlt') hlt⟩
    rw [hheard]
    refine table_congr fun p hp => ?_
    rw [hother p (by rintro rfl; exact hm hp)]

theorem follows_after (reports : List Report) : Follows reports (after reports).health := by
  induction reports using List.reverseRecOn with
  | nil => exact ⟨rfl, .nil, by simp [heard], by simp [heard], fun _ _ _ _ => rfl⟩
  | append_singleton reports r ih =>
    rw [after, List.foldl_append, List.foldl_cons, List.foldl_nil, health_report]
    exact ih.report r

/-- A mapping the breaker has an entry for is backed off exactly while the pause
after its last failure lasts; for other mappings the breaker is never open. If
there is a pause it is asked within 2^31 ms of that failure: later the signed
difference would take the end of the pause for a time still to come. An end whose
stamp is 0 reads as no pause at all. -/
theorem isBackedOff_after (reports : List Report) (port : Int) (now : Nat) (hnow : (Streak.of port reports).last ≤ now)
    (hlate : 0 < (Streak.of port reports).pause → now < (Streak.of port reports).last + 2 ^ 31)
    (hzero : 0 < (Streak.of port reports).pause →
      stamp ((Streak.of port reports).last + (Streak.of port reports).pause) ≠ 0) :
    (after reports).isBackedOff port (stamp now) = true ↔
      port ∈ heard reports ∧ now < (Streak.of port reports).last + (Streak.of port reports).pause := by
  have h := follows_after reports
  by_cases h0 : port = 0
  · subst h0
    simp [isBackedOff, find, h.zero]
  · rw [isBackedOff, find, if_neg h0, h.health_eq, find_table (fun _ => rfl) h0]
    by_cases hm : port ∈ heard reports
    · rw [if_pos hm, and_iff_right hm]
      exact MappingHealth.ofStreak_isOpen hnow hlate hzero
    · simp [hm]

/-- Three failures in a row are followed by a pause of a second. -/
theorem isBackedOff_after_three :
    (after [.failure 22 1000, .failure 22 2000, .failure 22 3000]).isBackedOff 22 (stamp 3999) = true :=
  (isBackedOff_after _ 22 3999 (by decide) (by decide) (by decide)).2 (by decide)

end CircuitBreaker

end OrangeBox.Tunnel
