import OrangeBox.Logging.Connection
import OrangeBox.Logging.Delivery
/-!
# When the log connection is closed

`update` compares the stamp of the last activity with a time that was sampled
before. An activity in between lies ahead of the sample, and reads as an age of
almost `2 ^ 32` milliseconds. Apart from that a connection is closed only after
the delay of its rule (`patient_run_iff`).
-/
open Clock Runs

namespace OrangeBox.Logging

variable {activity sampled t : Nat} {delay : UInt32}

/-! ## Ages -/

/-- The activity is so far ahead of the sample that its age reads as short. -/
def Wraps (delay : UInt32) (activity sampled : Nat) : Prop :=
  (activity - sampled) % 2 ^ 32 = 0 ∨ 2 ^ 32 < (activity - sampled) % 2 ^ 32 + delay.toNat

/-- An activity ahead of the sample reads as an old one, unless it wraps. -/
theorem timeoutElapsed_ahead (h : sampled < activity) (hdelay : 0 < delay.toNat) :
    timeoutElapsed (stamp activity) delay (stamp sampled) = true ↔ ¬Wraps delay activity sampled := by
  have hlt := delay.toNat_lt
  unfold timeoutElapsed Wraps
  rw [decide_eq_true_iff, UInt32.le_iff_toNat_le, UInt32.toNat_sub, toNat_stamp, toNat_stamp]
  omega

/-- The activity is not ahead of the sample, or it is over for the delay. -/
def Settled (delay : UInt32) (activity sampled t : Nat) : Prop :=
  activity ≤ sampled ∨ activity + delay.toNat ≤ t ∨ Wraps delay activity sampled

theorem settled_iff (hsampled : sampled ≤ t) (hdelay : 0 < delay.toNat) : Settled delay activity sampled t ↔
    (timeoutElapsed (stamp activity) delay (stamp sampled) = true → activity + delay.toNat ≤ t) := by
  unfold Settled
  by_cases hahead : sampled < activity
  · rw [timeoutElapsed_ahead hahead hdelay, or_iff_right (Nat.not_le.2 hahead), or_comm, or_iff_not_imp_left]
  · have hpast : activity ≤ sampled := Nat.not_lt.1 hahead
    refine iff_of_true (.inl hpast) fun helapsed => ?_
    have := le_of_timeoutElapsed hpast helapsed
    omega

namespace Connection

variable {c c' : Connection} {deed : Deed} {deeds : List Deed}

/-! ## Stamps -/

/-- While there is a connection its stamp is that of the last activity. -/
structure Stamped (c : Connection) : Prop where
  stamped : c.transport.state = .connected ∨ c.transport.state = .handshaking →
    c.transport.lastActivityMillis = stamp c.activity
  sampled : ∀ sampled, c.phase = .entered sampled ∨ c.phase = .inside sampled → sampled ≤ c.clock

theorem Stamped.started (t : Nat) : (started t).Stamped where
  stamped h := by rcases h with h | h <;> cases h
  sampled sampled h := by rcases h with h | h <;> cases h

/-- Steps outside of `update`, or within. -/
theorem Stamped.keep (h : c.Stamped) (hphase : c'.phase = c.phase) (hclock : c.clock ≤ c'.clock)
    (hstamp : c'.transport.state = .connected ∨ c'.transport.state = .handshaking →
      c'.transport.lastActivityMillis = stamp c'.activity) : c'.Stamped where
  stamped := hstamp
  sampled sampled hs := by
    rw [hphase] at hs
    exact Nat.le_trans (h.sampled sampled hs) hclock

theorem Stamped.connected (h : c.Stamped) (written : Bool) (hle : c.clock ≤ t) :
    Stamped { c with transport := c.transport.handleConnect written (stamp t), clock := t, activity := t } := by
  refine h.keep rfl hle fun hs => ?_
  unfold WebSocketLogTransport.handleConnect at hs ⊢
  cases written with
  | true => rfl
  | false => rcases hs with hs | hs <;> cases hs

theorem Stamped.received (h : c.Stamped) (data : List UInt8) {later : Nat} (hle : c.clock ≤ t) (hlater : t ≤ later) :
    let transport := c.transport.handleData data (stamp t) (stamp later)
    Stamped { c with
      transport := transport
      clock := later
      activity := if c.transport.state = .handshaking ∧ transport.state = .connected then later else t } := by
  intro transport
  refine h.keep rfl (Nat.le_trans hle hlater) fun hs => ?_
  change transport.state = _ ∨ transport.state = _ at hs
  change transport.lastActivityMillis = stamp _
  by_cases hhand : c.transport.state = .handshaking
  · -- The response is too long, complete, complete and refused, or goes on.
    unfold transport WebSocketLogTransport.handleData at hs ⊢
    simp only [hhand, ne_eq, not_true_eq_false, if_false] at hs ⊢
    split at hs
    · rcases hs with hs | hs <;> cases hs
    · rename_i hroom
      rw [if_neg hroom] at *
      split
      · simp
      · rename_i hup
        split
        · rename_i hend
          rw [if_neg hup, if_pos hend] at hs
          rcases hs with hs | hs <;> cases hs
        · simp
  · unfold transport WebSocketLogTransport.handleData
    simp only [hhand, ne_eq, not_false_eq_true, if_true, false_and, if_false]

theorem checkHandshake_cases (sampled : Nat) (linked : Bool) (transport : WebSocketLogTransport) :
    transport.checkHandshake (stamp sampled) linked = transport ∨
      (transport.checkHandshake (stamp sampled) linked).state = .disconnected := by
  unfold WebSocketLogTransport.checkHandshake
  dsimp only
  split
  · split
    · exact .inr rfl
    · exact .inr rfl
  · split
    · exact .inr rfl
    · exact .inl rfl

theorem checkIdle_cases (sampled : Nat) (linked : Bool) (transport : WebSocketLogTransport) :
    transport.checkIdle (stamp sampled) linked = transport ∨
      (transport.checkIdle (stamp sampled) linked).state = .disconnected := by
  unfold WebSocketLogTransport.checkIdle
  split
  · exact .inr rfl
  · exact .inl rfl

/-- A check leaves the transport alone or closes the connection. -/
theorem Stamped.checked (h : c.Stamped) {transport : WebSocketLogTransport} {phase : Phase}
    (hphase : ∀ sampled, phase = .entered sampled ∨ phase = .inside sampled → sampled ≤ t)
    (hcheck : transport = c.transport ∨ transport.state = .disconnected) :
    Stamped { c with transport := transport, phase := phase, clock := t } where
  stamped hs := by
    rcases hcheck with rfl | hclosed
    · exact h.stamped hs
    · rcases hs with hs | hs <;> cases hclosed.symm.trans hs
  sampled := hphase

theorem reconnect_cases (linked opens : Bool) (millis : UInt32) (transport : WebSocketLogTransport) :
    transport.reconnect linked opens millis = transport ∨
      (transport.reconnect linked opens millis).state = .connecting ∨
      (transport.reconnect linked opens millis).state = .disconnected := by
  unfold WebSocketLogTransport.reconnect
  split
  · exact .inl rfl
  split
  · exact .inl rfl
  cases opens with
  | true => exact .inr (.inl rfl)
  | false => exact .inr (.inr rfl)

theorem Stamped.queue (h : c.Stamped) {act : Act} {linked opens : Bool} (log : LogState) (hle : c.clock ≤ t) :
    let transport := if c.transport.log.reconnects act then c.transport.reconnect linked opens (stamp t) else c.transport
    let transport := if act.transmits then transport.sentFrame (stamp t) else transport
    Stamped
      { transport := { transport with log := log }
        phase := nextPhase act c.phase
        clock := t
        activity := if act.transmits then t else c.activity } := by
  intro transport transport'
  constructor
  · intro hs
    change transport'.state = _ ∨ transport'.state = _ at hs
    change transport'.lastActivityMillis = _
    cases hsent : act.transmits with
    | true =>
      simp only [transport', hsent, if_true]
      rfl
    | false =>
      simp only [transport', hsent, Bool.false_eq_true, if_false] at hs ⊢
      -- Someone who connects anew has no connection yet.
      have hcases : transport = c.transport ∨ transport.state = .connecting ∨ transport.state = .disconnected := by
        unfold transport
        split
        · exact reconnect_cases ..
        · exact .inl rfl
      rcases hcases with hsame | hnew | hnew
      · rw [hsame] at hs ⊢
        exact h.stamped hs
      · rcases hs with hs | hs <;> cases hnew.symm.trans hs
      · rcases hs with hs | hs <;> cases hnew.symm.trans hs
  · intro sampled hphase
    refine Nat.le_trans (h.sampled sampled ?_) hle
    change nextPhase act c.phase = _ ∨ nextPhase act c.phase = _ at hphase
    unfold nextPhase at hphase
    split at hphase
    · rename_i hentered
      rcases hphase with hphase | hphase
      · cases hphase
      · cases hphase
        exact .inl hentered
    · exact hphase

/-! ## Steps -/

theorem step_enter {linked : Bool} (h : c.step (.enter sampled t linked) = some c') :
    c.clock ≤ t ∧ sampled ≤ t ∧
      c' = { c with transport := c.transport.checkHandshake (stamp sampled) linked, phase := .entered sampled, clock := t } := by
  simp only [step] at h
  split at h
  · rename_i hok
    exact ⟨hok.1, hok.2.1, (Option.some.inj h).symm⟩
  · cases h

theorem step_leave {linked : Bool} (h : c.step (.leave t linked) = some c') :
    ∃ sampled, c.phase = .inside sampled ∧ c.clock ≤ t ∧
      c' = { c with transport := c.transport.checkIdle (stamp sampled) linked, phase := .outside, clock := t } := by
  simp only [step] at h
  split at h
  · rename_i sampled hphase _
    split at h
    · rename_i hle
      exact ⟨sampled, hphase, hle, (Option.some.inj h).symm⟩
    · cases h
  · cases h

theorem Stamped.step (h : c.Stamped) (hs : Step c deed c') : c'.Stamped := by
  unfold Step at hs
  cases deed with
  | connected written t =>
    simp only [Connection.step] at hs
    split at hs
    · rename_i hle
      exact Option.some.inj hs ▸ h.connected written hle
    · cases hs
  | disconnected t =>
    simp only [Connection.step] at hs
    split at hs
    · rename_i hle
      refine Option.some.inj hs ▸ h.keep rfl hle fun hstate => ?_
      rcases hstate with hstate | hstate <;> cases hstate
    · cases hs
  | received data t later =>
    simp only [Connection.step] at hs
    split at hs
    · rename_i hle
      exact Option.some.inj hs ▸ h.received data hle.1 hle.2
    · cases hs
  | enter sampled t linked =>
    obtain ⟨-, hsampled, rfl⟩ := step_enter hs
    refine h.checked (fun n hn => ?_) (checkHandshake_cases sampled linked _)
    rcases hn with hn | hn <;> cases hn
    exact hsampled
  | queue act t linked opens =>
    simp only [Connection.step] at hs
    split at hs
    · rename_i hle
      obtain ⟨log, -, rfl⟩ := Option.map_eq_some_iff.1 hs
      exact h.queue log hle.1
    · cases hs
  | leave t linked =>
    obtain ⟨sampled, -, -, rfl⟩ := step_leave hs
    refine h.checked (fun n hn => ?_) (checkIdle_cases sampled linked _)
    rcases hn with hn | hn <;> cases hn

/-! ## Closing -/

/-- A connection that is being made is given up, and one that was made is
closed, only after the delay. -/
structure Patient (c : Connection) (deed : Deed) (c' : Connection) : Prop where
  handshake : ∀ sampled t linked, deed = .enter sampled t linked → c.transport.state = .handshaking →
    c'.transport.state ≠ .handshaking → c.activity + logHandshakeTimeout.toNat ≤ t
  idle : ∀ t linked, deed = .leave t linked → c.transport.state = .connected → c'.transport.state ≠ .connected →
    c.activity + logIdleDisconnectDelay.toNat ≤ t

/-- No check finds an activity ahead of the time that `update` was given. -/
structure Ordered (c : Connection) (deed : Deed) (_ : Connection) : Prop where
  handshake : ∀ sampled t linked, deed = .enter sampled t linked → c.transport.state = .handshaking →
    Settled logHandshakeTimeout c.activity sampled t
  idle : ∀ sampled t linked, deed = .leave t linked → c.phase = .inside sampled → c.transport.isConnected linked = true →
    c.transport.log.transport.hasPendingOutput = false → Settled logIdleDisconnectDelay c.activity sampled t

theorem Stamped.gives_up_iff (h : c.Stamped) (linked : Bool) (hstate : c.transport.state = .handshaking) :
    (c.transport.checkHandshake (stamp sampled) linked).state ≠ .handshaking ↔
      timeoutElapsed (stamp c.activity) logHandshakeTimeout (stamp sampled) = true := by
  unfold WebSocketLogTransport.checkHandshake
  rw [h.stamped (.inr hstate)]
  cases timeoutElapsed (stamp c.activity) logHandshakeTimeout (stamp sampled) with
  | true =>
    simp only [hstate, decide_true, Bool.and_true, if_true, ne_eq, iff_true]
    split <;> exact ConnectionState.noConfusion
  | false => simp [hstate]

theorem Stamped.closes_iff (h : c.Stamped) (linked : Bool) (hstate : c.transport.state = .connected) :
    (c.transport.checkIdle (stamp sampled) linked).state ≠ .connected ↔
      linked = true ∧ c.transport.log.transport.hasPendingOutput = false ∧
        timeoutElapsed (stamp c.activity) logIdleDisconnectDelay (stamp sampled) = true := by
  unfold WebSocketLogTransport.checkIdle WebSocketLogTransport.isConnected
  rw [h.stamped (.inl hstate)]
  split
  · rename_i hclose
    simp only [hstate, decide_true, Bool.true_and, Bool.and_eq_true, Bool.not_eq_true'] at hclose
    refine iff_of_true ConnectionState.noConfusion ⟨hclose.1.1, hclose.1.2, hclose.2⟩
  · rename_i hopen
    simp only [hstate, decide_true, Bool.true_and, Bool.and_eq_true, Bool.not_eq_true'] at hopen
    exact iff_of_false (not_not.2 hstate) fun hall => hopen ⟨⟨hall.1, hall.2.1⟩, hall.2.2⟩

theorem Stamped.patient_iff (h : c.Stamped) (hs : Step c deed c') : Patient c deed c' ↔ Ordered c deed c' := by
  constructor
  · intro hp
    constructor
    · rintro sampled t linked rfl hstate
      obtain ⟨-, hsampled, rfl⟩ := step_enter hs
      refine (settled_iff hsampled (by decide)).2 fun helapsed => ?_
      exact hp.handshake sampled t linked rfl hstate ((h.gives_up_iff linked hstate).2 helapsed)
    · rintro sampled t linked rfl hphase hconn hnone
      obtain ⟨_, hphase', hle, rfl⟩ := step_leave hs
      cases hphase.symm.trans hphase'
      have hconn := Bool.and_eq_true_iff.1 hconn
      have hstate := of_decide_eq_true hconn.1
      refine (settled_iff (Nat.le_trans (h.sampled sampled (.inr hphase)) hle) (by decide)).2 fun helapsed => ?_
      exact hp.idle t linked rfl hstate ((h.closes_iff linked hstate).2 ⟨hconn.2, hnone, helapsed⟩)
  · intro ho
    constructor
    · rintro sampled t linked rfl hstate hclosed
      obtain ⟨-, hsampled, rfl⟩ := step_enter hs
      exact (settled_iff hsampled (by decide)).1 (ho.handshake sampled t linked rfl hstate)
        ((h.gives_up_iff linked hstate).1 hclosed)
    · rintro t linked rfl hstate hclosed
      obtain ⟨sampled, hphase, hle, rfl⟩ := step_leave hs
      obtain ⟨hlinked, hnone, helapsed⟩ := (h.closes_iff linked hstate).1 hclosed
      have hconn : c.transport.isConnected linked = true := by
        rw [WebSocketLogTransport.isConnected, hstate, hlinked]
        rfl
      exact (settled_iff (Nat.le_trans (h.sampled sampled (.inr hphase)) hle) (by decide)).1
        (ho.idle sampled t linked rfl hphase hconn hnone) helapsed

/-- Connections are closed late enough along a run exactly when no check of the
run finds an activity ahead of the time it was given. -/
theorem patient_run_iff (t : Nat) (deeds : List Deed) (c : Connection) :
    Run (Within Step Patient) (.started t) deeds c ↔ Run (Within Step Ordered) (.started t) deeds c :=
  Run.within_iff Stamped (.started t) (fun _ _ _ hi hs => hi.patient_iff hs) fun _ _ _ hi hs _ => hi.step hs

/-- `"HTTP/1.1 101 OK\r\nUpgrade: websocket\r\n\r\n"`. -/
def agreed : List UInt8 :=
  [72, 84, 84, 80, 47, 49, 46, 49, 32, 49, 48, 49, 32, 79, 75, 13, 10, 85, 112, 103, 114, 97, 100, 101, 58, 32, 119, 101, 98,
    115, 111, 99, 107, 101, 116, 13, 10, 13, 10]

/-- An event is logged, the connection is made, and an update that is given the
time 10 sends the event at 11. -/
def talk : List Deed :=
  [.queue (.log doorOpened) 0 false false, .enter 0 0 false, .queue (.update 0) 0 false false,
    .queue (.connect false false) 0 false true, .leave 0 false, .connected true 1, .received agreed 2 2, .enter 10 10 true,
    .queue (.update 10) 10 true false, .queue (.connect true true) 10 true false, .queue (.readDropped 0) 10 true false,
    .queue (.copy true) 10 true false, .queue (.recordSent true) 11 true false, .queue .pop 11 true false,
    .queue (.copy true) 11 true false]

/-- The update that sends the event closes the connection at once. -/
theorem closed_at_once : ∃ c c', Run Step (.started 0) talk c ∧ Step c (.leave 11 true) c' ∧ c.activity = 11 ∧
    c.transport.state = .connected ∧ c'.transport.state = .disconnected := by
  obtain ⟨c, hrun, hseen⟩ := Run.of_foldlM_map
    (fun c : Connection => (c.activity, c.transport.state, (c.step (.leave 11 true)).map (·.transport.state)))
    (show (talk.foldlM (fun c deed => step deed c) (.started 0)).map _ =
      some (11, .connected, some .disconnected) by decide +kernel)
  simp only [Prod.mk.injEq, Option.map_eq_some_iff] at hseen
  obtain ⟨hactivity, hstate, c', hleave, hclosed⟩ := hseen
  exact ⟨c, c', hrun, hleave, hactivity, hstate, hclosed⟩

end Connection

end OrangeBox.Logging
