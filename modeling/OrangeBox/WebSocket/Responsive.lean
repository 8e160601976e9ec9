import OrangeBox.WebSocket.Sweep
/-!
# Responsive clients

The manager with a clock and a record of when pings were sent and when clients
were heard. A client is due to be closed when it has left a ping unanswered for
`watchdogTimeout`. The sweep does not look that far: it closes whoever was not
heard for `watchdogInterval`. It closes lapsed clients only as long as every
client is heard within that interval, or has lapsed (`lapsed_only`).
-/
open Clock Runs

namespace OrangeBox.WebSocket

/-- The manager and what went on between it and the clients: when each client
connected, when it was heard since (latest first), and when pings were sent. -/
structure Session where
  manager : WebSocketManager
  clock : Nat
  pings : List Nat
  connectedAt : Client → Nat
  pongs : Client → List Nat

/-- What happens, with its time. An update is given a time sampled before; its
ping is sent at `sent`, and the clock is read once more at `t`. -/
inductive Occurrence where
  | connect (client : Client) (t : Nat)
  | disconnect (client : Client) (t : Nat)
  | pong (client : Client) (t : Nat)
  | update (sampled sent t : Nat)

namespace Session

/-- The manager as constructed at time `t`. -/
def start (t : Nat) : Session :=
  { manager := .constructed, clock := t, pings := [], connectedAt := fun _ => 0, pongs := fun _ => [] }

/-- When the client was heard last. -/
def heard (client : Client) (s : Session) : Nat := (s.pongs client).headD (s.connectedAt client)

def next : Occurrence → Session → Session
  | .connect client t, s =>
    { s with
      manager := (s.manager.call (.connected client (stamp t))).1
      clock := t
      connectedAt := Function.update s.connectedAt client t
      pongs := Function.update s.pongs client [] }
  | .disconnect client t, s => { s with manager := (s.manager.call (.disconnected client)).1, clock := t }
  | .pong client t, s =>
    { s with
      manager := (s.manager.call (.pong client (stamp t))).1
      clock := t
      pongs := Function.update s.pongs client (t :: s.pongs client) }
  | .update sampled sent t, s =>
    { s with
      manager := (s.manager.call (.update (stamp sampled) (stamp t))).1
      clock := t
      pings := if s.manager.feedDue (stamp sampled) then sent :: s.pings else s.pings }

/-- The times are in order. -/
def Timely (s : Session) : Occurrence → Prop
  | .connect _ t => s.clock ≤ t
  | .disconnect _ t => s.clock ≤ t
  | .pong _ t => s.clock ≤ t
  | .update sampled sent t => s.clock ≤ t ∧ sampled ≤ sent ∧ sent ≤ t

instance (s : Session) : (e : Occurrence) → Decidable (s.Timely e)
  | .connect _ t | .disconnect _ t | .pong _ t => inferInstanceAs (Decidable (s.clock ≤ t))
  | .update sampled sent t => inferInstanceAs (Decidable (s.clock ≤ t ∧ sampled ≤ sent ∧ sent ≤ t))

def Step (s : Session) (e : Occurrence) (s' : Session) : Prop := s.Timely e ∧ s.next e = s'

variable {s s' : Session} {e : Occurrence} {es : List Occurrence} {client : Client} {t : Nat} {x y : WatchDogEntry}
  {m : WebSocketManager} {millis : UInt32}

/-! ## What the stamps stand for -/

/-- Every entry carries the stamp of when its client was heard last. -/
structure Stamped (s : Session) : Prop where
  tracks : s.manager.Tracks
  stamped : ∀ x ∈ s.manager.table, x.lastPongTime = stamp (heard x.clientId s)
  past : ∀ client, heard client s ≤ s.clock

theorem Stamped.start (t : Nat) : (start t).Stamped where
  tracks := .constructed
  stamped := by simp [Session.start, WebSocketManager.table, WebSocketManager.constructed]
  past _ := Nat.zero_le t

/-- Whoever answers is heard now, and the others when they were heard before. -/
theorem Stamped.answer (h : s.Stamped) (hle : s.clock ≤ t) (hmanager : s'.manager = s.manager.handleWatchdogResponse client (stamp t))
    (hclock : s'.clock = t) (hself : heard client s' = t) (hother : ∀ c, c ≠ client → heard c s' = heard c s) :
    s'.Stamped where
  tracks := hmanager ▸ h.tracks.handleWatchdogResponse client (stamp t)
  stamped x hx := by
    rw [hmanager] at hx
    rcases h.tracks.handled hx with ⟨hc, hpong⟩ | ⟨hc, hmem⟩
    · rw [hpong, hc, hself]
    · rw [hother _ hc]
      exact h.stamped x hmem
  past c := by
    rw [hclock]
    by_cases hc : c = client
    · rw [hc, hself]
    · rw [hother c hc]
      exact Nat.le_trans (h.past c) hle

/-- Entries that go leave the others as they are. -/
theorem Stamped.shrink (h : s.Stamped) (hle : s.clock ≤ s'.clock) (hsub : s'.manager.table.Sublist s.manager.table)
    (hheard : ∀ c, heard c s' = heard c s) : s'.Stamped where
  tracks := h.tracks.of_sublist hsub
  stamped x hx := by
    rw [hheard]
    exact h.stamped x (hsub.subset hx)
  past c := by
    rw [hheard]
    exact Nat.le_trans (h.past c) hle

theorem Stamped.step (h : s.Stamped) (hs : Step s e s') : s'.Stamped := by
  obtain ⟨ht, rfl⟩ := hs
  cases e with
  | connect client t =>
    refine h.answer ht rfl rfl ?_ fun c hc => ?_
    · simp [next, heard]
    · simp [next, heard, Function.update_of_ne hc]
  | disconnect client t =>
    refine h.shrink ht ?_ fun c => rfl
    change (s.manager.watchdogRemoveEntry client).table.Sublist _
    rw [h.tracks.table_removeEntry]
    exact List.filter_sublist
  | pong client t =>
    refine h.answer ht rfl rfl ?_ fun c hc => ?_
    · simp [next, heard]
    · simp [next, heard, Function.update_of_ne hc]
  | update sampled sent t =>
    refine h.shrink ht.1 ?_ fun c => rfl
    exact WebSocketManager.table_update_sublist _ _ _

/-! ## Closing -/

/-- Every ping the client was sent by time `t` was answered within
`watchdogTimeout`, or can still be. -/
def Responsive (client : Client) (t : Nat) (s : Session) : Prop :=
  ∀ ping ∈ s.pings, s.connectedAt client ≤ ping → t < ping + watchdogTimeout.toNat ∨
    ∃ pong ∈ s.pongs client, ping ≤ pong ∧ pong ≤ ping + watchdogTimeout.toNat

/-- The client was not heard for `watchdogTimeout`, and left a ping unanswered
that long. -/
def Lapsed (client : Client) (t : Nat) (s : Session) : Prop :=
  heard client s + watchdogTimeout.toNat ≤ t ∧ ¬Responsive client t s

/-- Only lapsed clients are closed. -/
def ClosesLapsed (s : Session) (e : Occurrence) (s' : Session) : Prop :=
  ∀ sampled sent t, e = .update sampled sent t →
    ∀ client ∈ (s.manager.call (.update (stamp sampled) (stamp t))).2, Lapsed client t s'

/-- At a sweep every tracked client was heard within the interval of the sweeps,
or has lapsed. -/
def Prompt (s : Session) (e : Occurrence) (s' : Session) : Prop :=
  ∀ sampled sent t, e = .update sampled sent t → s.manager.feedDue (stamp sampled) = true →
    ∀ client ∈ s.manager.clients, t < heard client s + watchdogInterval.toNat ∨ Lapsed client t s'

theorem Stamped.closes (h : s.Stamped) (hs : Step s e s') (hprompt : Prompt s e s') : ClosesLapsed s e s' := by
  rintro sampled sent t rfl client hclosed
  have hle : s.clock ≤ t := hs.1.1
  obtain ⟨hdue, x, hx, hstale, rfl⟩ := h.tracks.of_closed hclosed
  refine (hprompt sampled sent t rfl hdue x.clientId (List.mem_map_of_mem hx)).resolve_left fun hheard => ?_
  -- The stamp of the entry cannot make its client look older than it is.
  rw [WebSocketManager.Stale, h.stamped x hx] at hstale
  have hage := le_of_timeoutElapsed (Nat.le_trans (h.past x.clientId) hle) hstale
  omega

/-- A client that was not heard for the interval, but for less than
`watchdogTimeout`, is closed before it has lapsed if it stands first in the table
or behind one that was heard within the interval. -/
theorem Stamped.not_closesLapsed {front back : List WatchDogEntry} {sampled sent : Nat} (h : s.Stamped)
    (hs : Step s (.update sampled sent t) s') (hdue : s.manager.feedDue (stamp sampled) = true)
    (htable : s.manager.table = front ++ x :: back)
    (hfront : ∀ y ∈ front.getLast?, t < heard y.clientId s + watchdogInterval.toNat)
    (hlong : heard x.clientId s + watchdogInterval.toNat ≤ t) (hshort : t < heard x.clientId s + watchdogTimeout.toNat) :
    ¬ClosesLapsed s (.update sampled sent t) s' := by
  obtain ⟨hle, rfl⟩ := hs
  intro hlapsed
  have hstale : WebSocketManager.Stale (stamp t) x := by
    have h30 : watchdogTimeout.toNat = 30000 := rfl
    rw [WebSocketManager.Stale, h.stamped x (by simp [htable])]
    exact timeoutElapsed_of_le hlong (by omega)
  have hfresh : ∀ y ∈ front.getLast?, ¬WebSocketManager.Stale (stamp t) y := by
    intro y hy hold
    have hmem : y ∈ s.manager.table := by simp [htable, List.mem_of_getLast? hy]
    rw [WebSocketManager.Stale, h.stamped y hmem] at hold
    have hage := le_of_timeoutElapsed (Nat.le_trans (h.past y.clientId) hle.1) hold
    have := hfront y hy
    omega
  -- The sweep looks at it, as it has erased nothing just before.
  have hclosed := h.tracks.closes hdue htable hstale hfresh
  have hsilent : heard x.clientId s + watchdogTimeout.toNat ≤ t := (hlapsed _ _ _ rfl _ hclosed).1
  omega

/-- In every run in which the clients that have not lapsed are heard within the
interval of the sweeps, only lapsed clients are closed. -/
theorem lapsed_only (hrun : Run (Within Step Prompt) (start t) es s) : Run (Within Step ClosesLapsed) (start t) es s := by
  have hw := hrun.within (P := ClosesLapsed) Stamped (.start t) fun s e s' _ h hs =>
    ⟨h.closes hs.1 hs.2, h.step hs.1⟩
  exact hw.1.mono fun s e s' hs => ⟨hs.1.1, hs.2⟩

theorem Prompt.of_heard {sampled sent : Nat} (h : ∀ client ∈ s.manager.clients, t < heard client s + watchdogInterval.toNat) :
    Prompt s (.update sampled sent t) s' := by
  rintro _ _ _ ⟨⟩ - client hclient
  exact .inl (h client hclient)

/-- A client that answers just before the next sweep. -/
theorem lapsed_only_prompt : ∃ s, Run (Within Step ClosesLapsed) (start 0)
    [.connect 1 0, .update 0 0 0, .pong 1 1, .update 10000 10000 10000] s :=
  ⟨_, lapsed_only ((((Run.single ⟨⟨by decide, rfl⟩, nofun⟩).snoc ⟨⟨by decide, rfl⟩, .of_heard (by decide +kernel)⟩).snoc
    ⟨⟨by decide, rfl⟩, nofun⟩).snoc ⟨⟨by decide, rfl⟩, .of_heard (by decide +kernel)⟩)⟩

/-- A client that answers within a millisecond is closed at the next sweep. -/
theorem responsive_closed : ∃ s s', Run Step (start 0) [.connect 1 0, .update 0 0 0, .pong 1 1] s ∧
    Step s (.update 10001 10001 10001) s' ∧ 1 ∈ (s.manager.call (.update (stamp 10001) (stamp 10001))).2 ∧
    Responsive 1 10001 s' := by
  refine ⟨_, _, ((Run.single ⟨by decide, rfl⟩).snoc ⟨by decide, rfl⟩).snoc ⟨by decide, rfl⟩, ⟨by decide, rfl⟩, ?_⟩
  unfold Responsive
  decide +kernel

end Session

end OrangeBox.WebSocket
