import OrangeBox.Lib.Run
import OrangeBox.WebSocket.Watchdog
/-!
# Sweeps of the watchdog

Whatever clients connect, answer and leave, the entries in use are the entries
of different clients, and a client that leaves takes only its own entry along.
A sweep closes a stale client and goes on behind the one that moved to its
place: it clears the table exactly when no two neighbours are stale
(`run_right_iff`).
-/
open Runs

namespace OrangeBox.WebSocket

/-- What reaches the manager, with the clock at `millis` where it is read. -/
inductive Call where
  | connected (client : Client) (millis : UInt32)
  | disconnected (client : Client)
  | pong (client : Client) (millis : UInt32)
  | update (currentMillis millis : UInt32)

namespace WebSocketManager

/-- The clients that a call closes are beside the state it leads to. -/
def call : Call → WebSocketManager → WebSocketManager × List Client
  | .connected client millis, m => (m.handleWatchdogResponse client millis, [])
  | .disconnected client, m => (m.watchdogRemoveEntry client, [])
  | .pong client millis, m => (m.handleWatchdogResponse client millis, [])
  | .update currentMillis millis, m => m.update currentMillis millis

def Called (m : WebSocketManager) (e : Call) (m' : WebSocketManager) : Prop := (call e m).1 = m'

variable {m m' : WebSocketManager} {e : Call} {es : List Call} {x : WatchDogEntry} {client : Client}
  {millis currentMillis : UInt32}

/-! ## The table -/

def clients (m : WebSocketManager) : List Client := m.table.map (·.clientId)

/-- The entries in use are active entries of different clients. -/
structure Tracks (m : WebSocketManager) : Prop where
  room : m.freeWatchdogEntry ≤ maxWsClients
  active : ∀ x ∈ m.table, x.active = true
  distinct : m.clients.Nodup

theorem Tracks.constructed : Tracks .constructed where
  room := Nat.zero_le _
  active := by simp [table, WebSocketManager.constructed]
  distinct := .nil

theorem Tracks.entryOf (h : m.Tracks) (hx : x ∈ m.table) : entryOf client x = decide (x.clientId = client) := by
  rw [WebSocketManager.entryOf, h.active x hx, Bool.true_and]

/-- Removals keep the table in order. -/
theorem Tracks.of_sublist (h : m.Tracks) (hsub : m'.table.Sublist m.table) : m'.Tracks where
  room := by
    have hle := hsub.length_le
    rw [table_length, table_length] at hle
    exact Nat.le_trans hle h.room
  active x hx := h.active x (hsub.subset hx)
  distinct := h.distinct.sublist (hsub.map _)

/-- No two neighbours with the same client. -/
theorem Tracks.apart (h : m.Tracks) (client : Client) :
    m.table.IsChain fun x y => ¬(WebSocketManager.entryOf client x = true ∧ WebSocketManager.entryOf client y = true) := by
  have hpair := List.pairwise_map.1 h.distinct
  refine hpair.isChain.imp fun x y hne ⟨hx, hy⟩ => hne ?_
  simp only [WebSocketManager.entryOf, Bool.and_eq_true, decide_eq_true_eq] at hx hy
  rw [hx.2, hy.2]

theorem Tracks.table_removeEntry (h : m.Tracks) (client : Client) :
    (m.watchdogRemoveEntry client).table = m.table.filter fun x => x.clientId ≠ client := by
  rw [WebSocketManager.table_removeEntry, EraseWalk.survivors_eq_filter (h.apart client)]
  refine List.filter_congr fun x hx => ?_
  rw [h.entryOf hx, decide_not]

theorem Tracks.removeEntry (h : m.Tracks) (client : Client) : (m.watchdogRemoveEntry client).Tracks := by
  refine h.of_sublist ?_
  rw [h.table_removeEntry]
  exact List.filter_sublist

theorem Tracks.cleanup (h : m.Tracks) (millis : UInt32) : (m.cleanupConnections millis).1.Tracks := by
  refine h.of_sublist ?_
  rw [table_cleanupConnections]
  exact EraseWalk.survivors_sublist

/-- A stamped entry stays the entry of its client. -/
theorem Tracks.stamp (h : m.Tracks) {i : Nat} (hi : m.table[i]? = some x)
    (htable : m'.table = m.table.set i { x with lastPongTime := millis }) : m'.Tracks where
  room := by
    have hlen := congrArg List.length htable
    rw [table_length, List.length_set, table_length] at hlen
    exact hlen ▸ h.room
  active y hy := by
    rw [htable] at hy
    rcases List.mem_or_eq_of_mem_set hy with hy | rfl
    · exact h.active y hy
    · exact h.active x (List.mem_of_getElem? hi)
  distinct := by
    obtain ⟨hlt, hx⟩ := List.getElem?_eq_some_iff.1 hi
    have hsame : m'.clients = m.clients := by
      have hbound : i < m.clients.length := by rwa [clients, List.length_map]
      have hname : m.clients[i] = x.clientId := by simp only [clients, List.getElem_map, hx]
      rw [clients, htable, List.map_set, ← clients, ← hname, List.set_getElem_self]
    rw [hsame]
    exact h.distinct

/-- A new client gets an entry of its own. -/
theorem Tracks.push (h : m.Tracks) (hnew : ∀ x ∈ m.table, WebSocketManager.entryOf client x = false)
    (hroom : m.freeWatchdogEntry < maxWsClients) (htable : m'.table = m.table ++ [⟨true, client, millis⟩]) :
    m'.Tracks where
  room := by
    have hlen := congrArg List.length htable
    rw [table_length, List.length_append, table_length] at hlen
    exact hlen ▸ hroom
  active y hy := by
    rw [htable, List.mem_append, List.mem_singleton] at hy
    rcases hy with hy | rfl
    · exact h.active y hy
    · rfl
  distinct := by
    rw [clients, htable, List.map_append, List.map_singleton]
    refine List.nodup_append.2 ⟨h.distinct, List.nodup_singleton _, fun a ha b hb => ?_⟩
    obtain ⟨y, hy, rfl⟩ := List.mem_map.1 ha
    rw [List.mem_singleton] at hb
    have hne := hnew y hy
    rw [h.entryOf hy] at hne
    rw [hb]
    exact of_decide_eq_false hne

theorem Tracks.handleWatchdogResponse (h : m.Tracks) (client : Client) (millis : UInt32) :
    (m.handleWatchdogResponse client millis).Tracks := by
  rcases table_handleWatchdogResponse client millis m with ⟨i, x, hi, -, htable⟩ | ⟨hnew, htable⟩
  · exact h.stamp hi htable
  · split at htable
    · exact h.push hnew ‹_› htable
    · refine h.of_sublist ?_
      rw [htable]

/-- An answer concerns the entry of its client and no other. -/
theorem Tracks.handled (h : m.Tracks) (hx : x ∈ (m.handleWatchdogResponse client millis).table) :
    x.clientId = client ∧ x.lastPongTime = millis ∨ x.clientId ≠ client ∧ x ∈ m.table := by
  rcases table_handleWatchdogResponse client millis m with ⟨i, y, hi, howner, htable⟩ | ⟨hnew, htable⟩
  · rw [h.entryOf (List.mem_of_getElem? hi), decide_eq_true_eq] at howner
    obtain ⟨hlt, hy⟩ := List.getElem?_eq_some_iff.1 hi
    rw [htable] at hx
    obtain ⟨j, hj, hx⟩ := List.mem_iff_getElem.1 hx
    rw [List.length_set] at hj
    rw [List.getElem_set] at hx
    split at hx
    · rw [← hx]
      exact .inl ⟨howner, rfl⟩
    · rename_i hij
      -- Another place is the place of another client.
      refine .inr ⟨fun hsame => hij ?_, hx ▸ List.getElem_mem hj⟩
      have hclients : m.clients[i]? = m.clients[j]? := by
        rw [clients, List.getElem?_map, List.getElem?_map, hi, List.getElem?_eq_getElem hj, hx, Option.map_some,
          Option.map_some, howner, hsame]
      exact (List.getElem?_inj (by rwa [clients, List.length_map]) h.distinct).1 hclients
  · have hold : x ∈ m.table → x.clientId ≠ client := fun hmem hsame => by
      have hne := hnew x hmem
      rw [h.entryOf hmem, decide_eq_false_iff_not] at hne
      exact hne hsame
    rw [htable] at hx
    split at hx
    · rcases List.mem_append.1 hx with hx | hx
      · exact .inr ⟨hold hx, hx⟩
      · rw [List.mem_singleton.1 hx]
        exact .inl ⟨rfl, rfl⟩
    · exact .inr ⟨hold hx, hx⟩

theorem table_update (currentMillis millis : UInt32) (m : WebSocketManager) :
    (m.update currentMillis millis).1.table =
      if m.feedDue currentMillis then (m.cleanupConnections millis).1.table else m.table := by
  unfold update
  split
  · rw [table_cleanupConnections, table_cleanupConnections]
    rfl
  · rfl

theorem table_update_sublist (currentMillis millis : UInt32) (m : WebSocketManager) :
    (m.update currentMillis millis).1.table.Sublist m.table := by
  rw [table_update]
  split
  · rw [table_cleanupConnections]
    exact EraseWalk.survivors_sublist
  · exact .refl _

theorem Tracks.call (h : m.Tracks) (e : Call) : (m.call e).1.Tracks := by
  cases e with
  | connected client millis => exact h.handleWatchdogResponse client millis
  | disconnected client => exact h.removeEntry client
  | pong client millis => exact h.handleWatchdogResponse client millis
  | update currentMillis millis => exact h.of_sublist (table_update_sublist ..)

/-! ## What a call must do -/

/-- The entry was last heard at least the sweep limit ago. -/
def Stale (millis : UInt32) (x : WatchDogEntry) : Prop := timeoutElapsed x.lastPongTime watchdogInterval millis = true

/-- A sweep leaves no stale entry and keeps all others; a client is closed once
if it loses its entry, and else not at all. -/
structure Swept (millis : UInt32) (m : WebSocketManager) : Prop where
  clean : ∀ x ∈ (m.cleanupConnections millis).1.table, ¬Stale millis x
  kept : ∀ x ∈ m.table, ¬Stale millis x → x ∈ (m.cleanupConnections millis).1.table
  closed : ∀ client, (m.cleanupConnections millis).2.count client =
    if client ∈ m.clients ∧ client ∉ (m.cleanupConnections millis).1.clients then 1 else 0

/-- A call leaves a table of active entries of different clients. One that
leaves takes its own entry and no other, and a sweep is complete. -/
structure Right (m : WebSocketManager) (e : Call) (m' : WebSocketManager) : Prop where
  tracks : m'.Tracks
  left : ∀ client, e = .disconnected client → m'.table = m.table.filter fun x => x.clientId ≠ client
  swept : ∀ currentMillis millis, e = .update currentMillis millis → m.feedDue currentMillis = true → Swept millis m

/-- No two neighbours are stale when the connections are swept. -/
def Scattered (m : WebSocketManager) (e : Call) (_ : WebSocketManager) : Prop :=
  ∀ currentMillis millis, e = .update currentMillis millis → m.feedDue currentMillis = true →
    m.table.IsChain fun x y => ¬(Stale millis x ∧ Stale millis y)

theorem Tracks.expired (h : m.Tracks) (hx : x ∈ m.table) : expired millis x = true ↔ Stale millis x := by
  rw [WebSocketManager.expired, h.active x hx, Bool.true_and, Stale]

/-- The clients closed and the clients left are the clients of the table. -/
theorem closed_perm (millis : UInt32) (m : WebSocketManager) :
    ((m.cleanupConnections millis).2 ++ (m.cleanupConnections millis).1.clients).Perm m.clients := by
  rw [cleanupConnections_closed, clients, table_cleanupConnections, ← List.map_append]
  exact EraseWalk.perm.map _

theorem Tracks.count_closed (h : m.Tracks) (millis : UInt32) (client : Client) :
    (m.cleanupConnections millis).2.count client =
      if client ∈ m.clients ∧ client ∉ (m.cleanupConnections millis).1.clients then 1 else 0 := by
  have hcount := (closed_perm millis m).count_eq client
  rw [List.count_append, h.distinct.count, (h.cleanup millis).distinct.count] at hcount
  grind

/-- Whoever an update closes is tracked, and stale at a sweep. -/
theorem Tracks.of_closed (h : m.Tracks) (hclosed : client ∈ (m.update currentMillis millis).2) :
    m.feedDue currentMillis = true ∧ ∃ x ∈ m.table, Stale millis x ∧ x.clientId = client := by
  unfold update at hclosed
  split at hclosed
  · rename_i hdue
    rw [cleanupConnections_closed] at hclosed
    obtain ⟨x, hx, hname⟩ := List.mem_map.1 hclosed
    have hmem : x ∈ m.table := EraseWalk.perm.subset (List.mem_append_left _ hx)
    exact ⟨hdue, x, hmem, (h.expired hmem).1 (EraseWalk.of_mem_erased hx), hname⟩
  · cases hclosed

/-- A stale client is closed if the one before it in the table is not stale. -/
theorem Tracks.closes {front back : List WatchDogEntry} (h : m.Tracks) (hdue : m.feedDue currentMillis = true)
    (htable : m.table = front ++ x :: back) (hx : Stale millis x) (hfront : ∀ y ∈ front.getLast?, ¬Stale millis y) :
    x.clientId ∈ (m.update currentMillis millis).2 := by
  have hmem : x ∈ m.table := by simp [htable]
  have hexpired : WebSocketManager.expired millis x = true := (h.expired hmem).2 hx
  have hfresh : ∀ y ∈ front.getLast?, WebSocketManager.expired millis y = false := by
    intro y hy
    have hmem : y ∈ m.table := by simp [htable, List.mem_of_getLast? hy]
    exact Bool.eq_false_iff.2 fun hexp => hfront y hy ((h.expired hmem).1 hexp)
  have herased : x ∈ EraseWalk.erased (WebSocketManager.expired millis) (front ++ x :: back) :=
    EraseWalk.mem_erased hexpired hfresh
  rw [← htable] at herased
  rw [update, if_pos hdue, cleanupConnections_closed]
  exact List.mem_map_of_mem herased

theorem Tracks.swept_iff (h : m.Tracks) (millis : UInt32) :
    Swept millis m ↔ m.table.IsChain fun x y => ¬(Stale millis x ∧ Stale millis y) := by
  have hchain : (m.table.IsChain fun x y => ¬(Stale millis x ∧ Stale millis y)) ↔
      m.table.IsChain fun x y => ¬(WebSocketManager.expired millis x = true ∧ WebSocketManager.expired millis y = true) :=
    List.IsChain.iff_of_mem_imp fun x y hx hy => by rw [h.expired hx, h.expired hy]
  rw [hchain, ← EraseWalk.survivors_clean_iff]
  constructor
  · intro hs x hx
    have hmem := EraseWalk.survivors_sublist.subset hx
    rw [← table_cleanupConnections] at hx
    exact Bool.eq_false_iff.2 fun hexp => hs.clean x hx ((h.expired hmem).1 hexp)
  · intro hclean
    refine ⟨fun x hx hstale => ?_, fun x hx hfresh => ?_, h.count_closed millis⟩
    · rw [table_cleanupConnections] at hx
      have hmem := EraseWalk.survivors_sublist.subset hx
      rw [← h.expired hmem, hclean x hx] at hstale
      cases hstale
    · rw [table_cleanupConnections]
      exact EraseWalk.mem_survivors hx (Bool.eq_false_iff.2 fun hexp => hfresh ((h.expired hx).1 hexp))

theorem Tracks.right_iff (h : m.Tracks) (hcall : Called m e m') : Right m e m' ↔ Scattered m e m' := by
  obtain rfl := hcall
  constructor
  · intro hr currentMillis millis he hdue
    exact (h.swept_iff millis).1 (hr.swept currentMillis millis he hdue)
  · intro hs
    refine ⟨h.call e, ?_, fun currentMillis millis he hdue => (h.swept_iff millis).2 (hs currentMillis millis he hdue)⟩
    rintro client rfl
    exact h.table_removeEntry client

/-- Over any calls from a manager as constructed, every call does what it must
exactly when no sweep meets two stale entries side by side. -/
theorem run_right_iff (es : List Call) (m : WebSocketManager) :
    Run (Within Called Right) .constructed es m ↔ Run (Within Called Scattered) .constructed es m := by
  exact Run.within_iff Tracks Tracks.constructed (fun _ _ _ hi hs => hi.right_iff hs) fun m e m' hi hs _ => by
    obtain rfl := hs
    exact hi.call e

/-- Two clients connect at the same time, and never answer. The sweep 10 seconds
later passes over the second. -/
theorem neighbour_stays : ∃ m, Run Called .constructed [.update 0 0, .connected 1 0, .connected 2 0] m ∧
    m.feedDue 10000 = true ∧ ⟨true, 2, 0⟩ ∈ (m.cleanupConnections 10000).1.table ∧ Stale 10000 ⟨true, 2, 0⟩ := by
  refine ⟨_, ((Run.single rfl).snoc rfl).snoc rfl, ?_⟩
  unfold Stale
  decide +kernel

end WebSocketManager

end OrangeBox.WebSocket
