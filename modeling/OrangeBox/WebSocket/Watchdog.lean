import OrangeBox.Lib.EraseWalk
import OrangeBox.Timeout
/-!
# The watchdog of the clients

`websocket.h` and `websocket.cpp`: when each connected client was last heard,
in an array whose first `freeWatchdogEntry` entries are in use. Every entry
point of the manager is given by what it does to the entries in use, as a list
(`table`).
-/
open Clock

namespace OrangeBox.WebSocket

abbrev maxWsClients : Nat := 15
abbrev watchdogInterval : UInt32 := 10000
abbrev watchdogTimeout : UInt32 := 30000

/-- The address of an `AsyncWebSocketClient`. -/
abbrev Client := Nat

/-- `struct watchDogEntry`. -/
structure WatchDogEntry where
  active : Bool
  clientId : Client
  lastPongTime : UInt32
  deriving DecidableEq

/-- `WebSocketManager`, as far as the watchdog uses it. -/
structure WebSocketManager where
  watchDogEntries : Nat → WatchDogEntry
  freeWatchdogEntry : Nat
  watchdogFeedStartedAt : UInt32
  watchdogFeedStarted : Bool

namespace WebSocketManager

def constructed : WebSocketManager :=
  { watchDogEntries := fun _ => ⟨false, 0, 0⟩
    freeWatchdogEntry := 0
    watchdogFeedStartedAt := 0
    watchdogFeedStarted := false }

/-- Store an entry. -/
def put (i : Nat) (x : WatchDogEntry) (m : WebSocketManager) : WebSocketManager :=
  { m with watchDogEntries := Function.update m.watchDogEntries i x }

/-! ## Entry points -/

/-- The entry is the client's. -/
def entryOf (client : Client) (x : WatchDogEntry) : Bool := x.active && decide (x.clientId = client)

/-- The first step of a removal: the entry is marked. -/
def deactivate (i : Nat) (m : WebSocketManager) : WebSocketManager :=
  if (m.watchDogEntries i).active then m.put i { m.watchDogEntries i with active := false } else m

def watchdogRemoveEntryIdx (clientIdx : Nat) (m : WebSocketManager) : WebSocketManager :=
  if m.freeWatchdogEntry ≤ clientIdx then m
  else
    let m := m.deactivate clientIdx
    let m := (List.range' clientIdx (m.freeWatchdogEntry - 1 - clientIdx)).foldl
      (fun m fidx => m.put fidx (m.watchDogEntries (fidx + 1))) m
    { m with freeWatchdogEntry := m.freeWatchdogEntry - 1 }

/-- The loop goes on to where the entries ended at first, since there are only
fewer of them later; past their end it does nothing. -/
def watchdogRemoveEntry (client : Client) (m : WebSocketManager) : WebSocketManager :=
  (List.range m.freeWatchdogEntry).foldl (fun m cidx =>
    if cidx < m.freeWatchdogEntry && entryOf client (m.watchDogEntries cidx) then m.watchdogRemoveEntryIdx cidx else m) m

def handleWatchdogResponse (client : Client) (millis : UInt32) (m : WebSocketManager) : WebSocketManager :=
  match (List.range m.freeWatchdogEntry).find? fun cidx => entryOf client (m.watchDogEntries cidx) with
  | some cidx => m.put cidx { m.watchDogEntries cidx with lastPongTime := millis }
  | none =>
    if m.freeWatchdogEntry < maxWsClients then
      { m.put m.freeWatchdogEntry ⟨true, client, millis⟩ with freeWatchdogEntry := m.freeWatchdogEntry + 1 }
    else m

/-- The entry is due to be closed. The limit is the interval of the pings. -/
def expired (currentTime : UInt32) (x : WatchDogEntry) : Bool :=
  x.active && timeoutElapsed x.lastPongTime watchdogInterval currentTime

/-- One round of the loop of `cleanupConnections`, with the clients closed so far. -/
def cleanupRound (currentTime : UInt32) (s : WebSocketManager × List Client) (i : Nat) : WebSocketManager × List Client :=
  if i < s.1.freeWatchdogEntry && expired currentTime (s.1.watchDogEntries i) then
    (s.1.watchdogRemoveEntryIdx i, s.2 ++ [(s.1.watchDogEntries i).clientId])
  else s

/-- The clients that were closed, in order. -/
def cleanupConnections (millis : UInt32) (m : WebSocketManager) : WebSocketManager × List Client :=
  (List.range m.freeWatchdogEntry).foldl (cleanupRound millis) (m, [])

/-- The watchdog is due to be fed. -/
def feedDue (currentMillis : UInt32) (m : WebSocketManager) : Bool :=
  !m.watchdogFeedStarted || timeoutElapsed m.watchdogFeedStartedAt watchdogInterval currentMillis

/-- With the clock at `millis` when the connections are cleaned up. A ping is
sent to every client before. -/
def update (currentMillis millis : UInt32) (m : WebSocketManager) : WebSocketManager × List Client :=
  if m.feedDue currentMillis then
    cleanupConnections millis { m with watchdogFeedStartedAt := currentMillis, watchdogFeedStarted := true }
  else (m, [])

/-! ## The entries in use -/

def table (m : WebSocketManager) : List WatchDogEntry := (List.range m.freeWatchdogEntry).map m.watchDogEntries

variable {m : WebSocketManager} {i j : Nat} {x : WatchDogEntry} {client : Client} {millis currentMillis : UInt32}

@[simp] theorem put_freeWatchdogEntry (i : Nat) (x : WatchDogEntry) (m : WebSocketManager) :
    (m.put i x).freeWatchdogEntry = m.freeWatchdogEntry := rfl

theorem put_watchDogEntries (i : Nat) (x : WatchDogEntry) (m : WebSocketManager) (j : Nat) :
    (m.put i x).watchDogEntries j = if j = i then x else m.watchDogEntries j := Function.update_apply ..

@[simp] theorem table_length (m : WebSocketManager) : m.table.length = m.freeWatchdogEntry := by simp [table]

theorem table_getElem? (m : WebSocketManager) (i : Nat) :
    m.table[i]? = if i < m.freeWatchdogEntry then some (m.watchDogEntries i) else none := by
  unfold table
  rw [List.getElem?_map]
  split
  · rename_i hi
    rw [List.getElem?_range hi]
    rfl
  · rename_i hi
    rw [List.getElem?_eq_none (by simpa using hi)]
    rfl

theorem mem_table : x ∈ m.table ↔ ∃ i < m.freeWatchdogEntry, m.watchDogEntries i = x := by simp [table]

/-- Entries move down by one, from the first place to the last. -/
theorem shift_entries (k n : Nat) (m : WebSocketManager) (j : Nat) :
    ((List.range' k n).foldl (fun m fidx => m.put fidx (m.watchDogEntries (fidx + 1))) m).watchDogEntries j =
      if k ≤ j ∧ j < k + n then m.watchDogEntries (j + 1) else m.watchDogEntries j := by
  induction n generalizing k m with
  | zero => rw [if_neg (by omega)]; rfl
  | succ n ih =>
    rw [List.range'_succ, List.foldl_cons, ih (k + 1)]
    simp only [put_watchDogEntries]
    split
    · rw [if_neg (by omega), if_pos (by omega)]
    · split
      · rename_i hj
        rw [if_pos (by omega), hj]
      · rw [if_neg (by omega)]

theorem shift_free (is : List Nat) (m : WebSocketManager) :
    (is.foldl (fun m fidx => m.put fidx (m.watchDogEntries (fidx + 1))) m).freeWatchdogEntry = m.freeWatchdogEntry := by
  induction is generalizing m with
  | nil => rfl
  | cons i is ih => rw [List.foldl_cons, ih, put_freeWatchdogEntry]

@[simp] theorem deactivate_free (i : Nat) (m : WebSocketManager) :
    (m.deactivate i).freeWatchdogEntry = m.freeWatchdogEntry := by
  unfold deactivate
  split <;> rfl

theorem deactivate_entries (h : j ≠ i) (m : WebSocketManager) :
    (m.deactivate i).watchDogEntries j = m.watchDogEntries j := by
  unfold deactivate
  split
  · rw [put_watchDogEntries, if_neg h]
  · rfl

theorem removeEntryIdx_free (h : i < m.freeWatchdogEntry) :
    (m.watchdogRemoveEntryIdx i).freeWatchdogEntry = m.freeWatchdogEntry - 1 := by
  unfold watchdogRemoveEntryIdx
  rw [if_neg (by omega)]
  simp only [shift_free, deactivate_free]

theorem removeEntryIdx_entries (h : i < m.freeWatchdogEntry) (hj : j < m.freeWatchdogEntry - 1) :
    (m.watchdogRemoveEntryIdx i).watchDogEntries j = m.watchDogEntries (if j < i then j else j + 1) := by
  unfold watchdogRemoveEntryIdx
  rw [if_neg (by omega)]
  simp only [shift_entries, deactivate_free]
  -- The mark on the removed entry is overwritten, or left behind the end.
  by_cases hji : j < i
  · rw [if_neg (by omega), if_pos hji, deactivate_entries (by omega)]
  · rw [if_pos (by omega), if_neg hji, deactivate_entries (by omega)]

/-- Removing an entry takes it out of the table; the ones behind it move up. -/
theorem table_removeEntryIdx (h : i < m.freeWatchdogEntry) : (m.watchdogRemoveEntryIdx i).table = m.table.eraseIdx i := by
  refine List.ext_getElem? fun j => ?_
  rw [List.getElem?_eraseIdx, table_getElem?, table_getElem?, table_getElem?, removeEntryIdx_free h]
  by_cases hj : j < m.freeWatchdogEntry - 1
  · rw [if_pos hj, removeEntryIdx_entries h hj]
    split
    · rw [if_pos (by omega)]
    · rw [if_pos (by omega)]
  · rw [if_neg hj, if_neg (by omega), if_neg (by omega)]

/-! ## What the entry points do to the table -/

/-- A round of either loop is a round of the walk that erases. -/
theorem table_round (p : WatchDogEntry → Bool) (closed : List WatchDogEntry) (i : Nat) (m : WebSocketManager) :
    EraseWalk.step p (m.table, closed) i =
      if i < m.freeWatchdogEntry && p (m.watchDogEntries i) then
        ((m.watchdogRemoveEntryIdx i).table, closed ++ [m.watchDogEntries i])
      else (m.table, closed) := by
  unfold EraseWalk.step
  simp only [table_getElem?]
  by_cases hi : i < m.freeWatchdogEntry
  · rw [if_pos hi]
    simp only [hi, decide_true, Bool.true_and]
    rw [table_removeEntryIdx hi]
  · rw [if_neg hi]
    simp only [hi, decide_false, Bool.false_and, Bool.false_eq_true, if_false]

theorem foldl_cleanup (millis : UInt32) (is : List Nat) (m : WebSocketManager) (closed : List WatchDogEntry) :
    let r := is.foldl (cleanupRound millis) (m, closed.map (·.clientId))
    let w := is.foldl (EraseWalk.step (expired millis)) (m.table, closed)
    r.1.table = w.1 ∧ r.2 = w.2.map (·.clientId) := by
  induction is generalizing m closed with
  | nil => exact ⟨rfl, rfl⟩
  | cons i is ih =>
    simp only [List.foldl_cons, table_round, cleanupRound]
    split
    · have hnext := ih (m.watchdogRemoveEntryIdx i) (closed ++ [m.watchDogEntries i])
      rw [List.map_append, List.map_singleton] at hnext
      exact hnext
    · exact ih m closed

theorem foldl_remove (client : Client) (is : List Nat) (m : WebSocketManager) (closed : List WatchDogEntry) :
    (is.foldl (fun m cidx =>
      if cidx < m.freeWatchdogEntry && entryOf client (m.watchDogEntries cidx) then m.watchdogRemoveEntryIdx cidx
      else m) m).table = (is.foldl (EraseWalk.step (entryOf client)) (m.table, closed)).1 := by
  induction is generalizing m closed with
  | nil => rfl
  | cons i is ih =>
    simp only [List.foldl_cons, table_round]
    split
    · exact ih _ _
    · exact ih m closed

/-- The walk over the whole table. -/
theorem foldl_table (p : WatchDogEntry → Bool) (m : WebSocketManager) :
    (List.range m.freeWatchdogEntry).foldl (EraseWalk.step p) (m.table, []) =
      (EraseWalk.survivors p m.table, EraseWalk.erased p m.table) := by
  rw [← EraseWalk.walk_eq, EraseWalk.walk, table_length]

theorem table_cleanupConnections (millis : UInt32) (m : WebSocketManager) :
    (m.cleanupConnections millis).1.table = EraseWalk.survivors (expired millis) m.table := by
  have h := (foldl_cleanup millis (List.range m.freeWatchdogEntry) m []).1
  rw [foldl_table] at h
  exact h

theorem cleanupConnections_closed (millis : UInt32) (m : WebSocketManager) :
    (m.cleanupConnections millis).2 = (EraseWalk.erased (expired millis) m.table).map (·.clientId) := by
  have h := (foldl_cleanup millis (List.range m.freeWatchdogEntry) m []).2
  rw [foldl_table] at h
  exact h

theorem table_removeEntry (client : Client) (m : WebSocketManager) :
    (m.watchdogRemoveEntry client).table = EraseWalk.survivors (entryOf client) m.table := by
  have h := foldl_remove client (List.range m.freeWatchdogEntry) m []
  rw [foldl_table] at h
  exact h

theorem table_put (i : Nat) (x : WatchDogEntry) (m : WebSocketManager) : (m.put i x).table = m.table.set i x := by
  refine List.ext_getElem? fun j => ?_
  rw [List.getElem?_set, table_getElem?, table_getElem?, table_length, put_watchDogEntries, put_freeWatchdogEntry]
  grind

/-- A new entry goes to the end. -/
theorem table_push (x : WatchDogEntry) (m : WebSocketManager) :
    ({ m.put m.freeWatchdogEntry x with freeWatchdogEntry := m.freeWatchdogEntry + 1 } : WebSocketManager).table =
      m.table ++ [x] := by
  unfold table
  simp only [List.range_succ, List.map_append, List.map_singleton, put_watchDogEntries, if_true]
  congr 1
  refine List.map_congr_left fun j hj => ?_
  have := List.mem_range.1 hj
  rw [put_watchDogEntries, if_neg (by omega)]

/-- An answer stamps the client's entry, or makes one while there is room. -/
theorem table_handleWatchdogResponse (client : Client) (millis : UInt32) (m : WebSocketManager) :
    (∃ i x, m.table[i]? = some x ∧ entryOf client x = true ∧
      (m.handleWatchdogResponse client millis).table = m.table.set i { x with lastPongTime := millis }) ∨
    (∀ x ∈ m.table, entryOf client x = false) ∧ (m.handleWatchdogResponse client millis).table =
      if m.freeWatchdogEntry < maxWsClients then m.table ++ [⟨true, client, millis⟩] else m.table := by
  unfold handleWatchdogResponse
  split
  · rename_i cidx hfind
    have hidx := List.mem_range.1 (List.mem_of_find?_eq_some hfind)
    have howner : entryOf client (m.watchDogEntries cidx) = true := by simpa using List.find?_some hfind
    refine .inl ⟨cidx, m.watchDogEntries cidx, ?_, howner, table_put ..⟩
    rw [table_getElem?, if_pos hidx]
  · rename_i hfind
    refine .inr ⟨fun x hx => ?_, ?_⟩
    · obtain ⟨i, hi, rfl⟩ := mem_table.1 hx
      simpa using List.find?_eq_none.1 hfind i (List.mem_range.2 hi)
    · split
      · exact table_push ..
      · rfl

end WebSocketManager

end OrangeBox.WebSocket
