import OrangeBox.Vpn.Manager
/-!
# Interleavings of the VPN manager

What holds however the calls of the one task and the steps of the worker are
interleaved: the worker serves the commands in the order of their posts, it
connects under the last of them only, and it keeps the pause after a failure.
-/

namespace OrangeBox.Vpn

open Clock Runs

/-- The command that the worker has taken and not yet applied. -/
def Place.serving : Place → Option Command
  | .disconnecting command => some command
  | .applying command => some command
  | _ => none

/-- The worker is in `updateInternal`. -/
def Place.updating : Place → Bool
  | .receive | .disconnecting _ | .applying _ | .check | .delay => false
  | _ => true

/-- The commands that an act takes. -/
def Act.takes : Act → List Command
  | .took command => [command]
  | _ => []

/-- The command that an event puts into the queue. -/
def Event.posts : Event → List Command
  | .post command => [command]
  | _ => []

def Event.takes : Event → List Command
  | .work act => act.takes
  | _ => []

/-- The milliseconds of an event. -/
def Event.ms : Event → Nat
  | .tick ms => ms
  | _ => 0

/-- What is left of a pause and the time since it began. -/
def Event.pauses (pause : Option (UInt32 × Nat)) : Event → Option (UInt32 × Nat)
  | .work (.took _) => none
  | .work (.scheduled delay) => some (delay, 0)
  | e => pause.map fun (delay, passed) => (delay, passed + e.ms)

theorem Event.pauses_some {e : Event} {delay : UInt32} {passed : Nat} (htakes : e.takes = [])
    (hscheduled : ∀ delay, e ≠ .work (.scheduled delay)) :
    e.pauses (some (delay, passed)) = some (delay, passed + e.ms) := by
  cases e with
  | work act =>
    cases act with
    | took command => cases htakes
    | scheduled delay => exact absurd rfl (hscheduled delay)
    | connectSSH => rfl
    | none => rfl
  | _ => rfl

namespace VPNManager

variable {T : Type} {backend : Backend T}

/-! ## The worker alone -/

/-- The next steps of the worker, with what they did. -/
def works (backend : Backend T) : Nat → VPNManager T → List Event × VPNManager T
  | 0, m => ([], m)
  | n + 1, m =>
    match m.work backend with
    | (act, m) =>
      match works backend n m with
      | (es, m) => (.work act :: es, m)

theorem work_started (m : VPNManager T) : (m.work backend).2.started = m.started := by
  unfold VPNManager.work
  grind

/-- A step within `updateInternal` takes no command, and leaves the queue and the
configuration alone. -/
theorem work_updating {m m' : VPNManager T} {act : Act} (hm : m.place.updating = true)
    (h : m.work backend = (act, m')) :
    act.takes = [] ∧ m'.place.serving = none ∧ m'.commandQueue = m.commandQueue ∧ m'.posting = m.posting ∧
      m'.storing = m.storing ∧ m'.configured = m.configured ∧ m'.config = m.config := by
  cases hp : m.place <;> simp only [VPNManager.work, hp] at h <;> grind [Place.updating, Place.serving, Act.takes, failure]

/-- A step that takes no command and schedules nothing keeps the pause, except
after a success, and gets to an attempt only through `canAttemptConnect`. -/
theorem work_pausing {m m' : VPNManager T} {act : Act} (hserving : m.place.serving = none)
    (h : m.work backend = (act, m')) (htakes : act.takes = []) (hscheduled : ∀ delay, act ≠ .scheduled delay) :
    m'.now = m.now ∧ m'.place.serving = none ∧ m'.reconnectStartedAt = m.reconnectStartedAt ∧
      (m.place = .succeed ∨ m'.reconnectDelayMs = m.reconnectDelayMs) ∧
      (m'.place ∈ [.announce, .connecting, .succeed] →
        m.place ∈ [.announce, .connecting, .succeed] ∨ m.canAttemptConnect (stamp m.now) = true) := by
  cases hp : m.place <;> simp only [VPNManager.work, hp] at h <;> grind [Place.serving, Act.takes, failure]

theorem run_works (n : Nat) {m : VPNManager T} (h : m.started = true) :
    Run (Step backend) m (works backend n m).1 (works backend n m).2 := by
  induction n generalizing m with
  | zero => exact .nil
  | succ n ih =>
    have hstarted : (m.work backend).2.started = true := (work_started m).trans h
    exact .cons ⟨h, rfl⟩ (ih hstarted)

/-! ## Commands -/

def posted (es : List Event) : List Command := es.flatMap Event.posts

def taken (es : List Event) : List Command := es.flatMap Event.takes

/-- What the posted and the taken commands say about a state. -/
structure Obeys (backend : Backend T) (ps ts : List Command) (m : VPNManager T) : Prop where
  order : (ts ++ m.commandQueue.toList).Sublist ps
  latest : (ts ++ m.commandQueue.toList).getLast? = ps.getLast?
  valid : ∀ vpnConfig, .configure vpnConfig ∈ ps → isConfigValid vpnConfig = true
  posting : ∀ vpnConfig ∈ m.posting, isConfigValid vpnConfig = true
  storing : ∀ state ∈ m.storing, state = .disconnected
  serving : ∀ command ∈ m.place.serving, ts.getLast? = some command
  current : m.place.serving = none → m.configured = true → ts.getLast? = some (.configure m.config)
  updating : m.place.updating = true → m.configured = true
  off : (m.configured = false ∨ ∃ command, m.place = .applying command) →
    backend.isConnected m.client = false ∧ m.state ≠ .connected

variable {ps ts : List Command} {m m' : VPNManager T}

/-- The worker goes on, and what it serves stays the same. -/
theorem Obeys.goto {place : Place} (h : Obeys backend ps ts m) (hm : m.place.serving = none)
    (hserving : place.serving = none) (hupdating : place.updating = true → m.configured = true) :
    Obeys backend ps ts { m with place := place } := by
  refine { h with serving := by simp [hserving], current := fun _ => h.current hm, updating := hupdating, off := ?_ }
  rintro (hoff | ⟨command, hplace⟩)
  · exact h.off (.inl hoff)
  · change place = _ at hplace
    rw [hplace] at hserving
    cases hserving

/-- In `updateInternal` there is a configuration, and the tunnel may change. -/
theorem Obeys.progress {act : Act} (h : Obeys backend ps ts m) (hm : m.place.updating = true)
    (hwork : m.work backend = (act, m')) : Obeys backend ps (ts ++ act.takes) m' := by
  obtain ⟨htakes, hserving, hqueue, hposting, hstoring, hconfigured, hconfig⟩ := work_updating hm hwork
  have hset := h.updating hm
  have hnone : m.place.serving = none := by
    cases hp : m.place <;> rw [hp] at hm <;> first | rfl | cases hm
  rw [htakes, List.append_nil]
  refine ⟨?_, ?_, h.valid, ?_, ?_, by simp [hserving], fun _ _ => ?_, fun _ => hconfigured.trans hset, ?_⟩
  · rw [hqueue]
    exact h.order
  · rw [hqueue]
    exact h.latest
  · rw [hposting]
    exact h.posting
  · rw [hstoring]
    exact h.storing
  · rw [hconfig]
    exact h.current hnone hset
  · rintro (hoff | ⟨command, hplace⟩)
    · exact absurd (hoff.symm.trans (hconfigured.trans hset)) (by decide)
    · rw [hplace] at hserving
      cases hserving

/-- A step of the worker. -/
theorem Obeys.work {act : Act} (hoff : ∀ t, backend.isConnected (backend.disconnect t) = false)
    (hkeep : ∀ vpnConfig t, backend.isConnected (backend.applyConfig vpnConfig t).2 = backend.isConnected t)
    (h : Obeys backend ps ts m) (hwork : m.work backend = (act, m')) :
    Obeys backend ps (ts ++ act.takes) m' := by
  have hsame : ∀ m', Obeys backend ps ts m' → Obeys backend ps (ts ++ []) m' := fun m' hm' => by rwa [List.append_nil]
  cases hp : m.place with
  | receive =>
    simp only [VPNManager.work, hp] at hwork
    split at hwork
    · rename_i command hqueue
      cases hwork
      -- The command goes from the queue to the end of what was taken.
      have horder := h.order
      have hlatest := h.latest
      rw [hqueue] at horder hlatest
      refine { h with
        order := by simpa [Act.takes] using horder, latest := by simpa [Act.takes] using hlatest
        serving := by simp [Place.serving, Act.takes], current := nofun, updating := nofun, off := ?_ }
      rintro (hoff' | ⟨_, hplace⟩)
      · exact h.off (.inl hoff')
      · cases hplace
    · cases hwork
      exact hsame _ (h.goto (by rw [hp]; rfl) rfl nofun)
  | disconnecting command =>
    simp only [VPNManager.work, hp] at hwork
    cases hwork
    refine hsame _ { h with
      serving := fun c hc => h.serving c (by rw [hp]; exact hc), current := nofun, updating := nofun
      off := fun _ => ⟨hoff _, ?_⟩ }
    dsimp only
    split <;> decide
  | applying command =>
    have hclosed := h.off (.inr ⟨command, hp⟩)
    have hlast := h.serving command (by rw [hp]; rfl)
    cases command with
    | disconnect =>
      simp only [VPNManager.work, hp] at hwork
      cases hwork
      exact hsame _ { h with serving := nofun, current := nofun, updating := nofun, off := fun _ => ⟨hclosed.1, nofun⟩ }
    | configure config =>
      simp only [VPNManager.work, hp] at hwork
      cases hwork
      -- The tunnel was brought down for this command, and `applyConfig` leaves it so.
      refine hsame _ { h with
        serving := nofun, current := fun _ _ => hlast, updating := nofun
        off := fun _ => ⟨(hkeep _ _).trans hclosed.1, ?_⟩ }
      dsimp only
      split <;> decide
  | check =>
    simp only [VPNManager.work, hp] at hwork
    cases hwork
    refine hsame _ (h.goto (by rw [hp]; rfl) (by split <;> rfl) ?_)
    split
    · exact fun _ => ‹_›
    · exact nofun
  | delay =>
    simp only [VPNManager.work, hp] at hwork
    cases hwork
    exact hsame _ (h.goto (by rw [hp]; rfl) rfl nofun)
  -- All other places are in `updateInternal`.
  | _ => exact h.progress (by rw [hp]; rfl) hwork

/-- Starting the worker, if there is none, for a configuration that is valid. -/
theorem Obeys.start {vpnConfig : VPNConfig} (h : Obeys backend ps ts m) (hvalid : isConfigValid vpnConfig = true) :
    Obeys backend ps ts { m with started := true, posting := some vpnConfig } := by
  refine { h with posting := ?_ }
  intro vpnConfig' hposting
  obtain rfl := Option.some.inj hposting
  exact hvalid

/-- Posting a command, of which the one that waited may have been lost. -/
theorem Obeys.post {command : Command} (h : Obeys backend ps ts m) (hposts : m.Posts command) :
    Obeys backend (ps ++ [command]) ts
      { m with commandQueue := some command, posting := none, storing := some .disconnected } := by
  refine { h with order := ?_, latest := by simp, valid := ?_, posting := nofun, storing := by simp }
  · exact ((List.sublist_append_left _ _).trans h.order).append (.refl _)
  · intro vpnConfig hmem
    obtain hold | hnew := List.mem_append.1 hmem
    · exact h.valid vpnConfig hold
    · cases hposts with
      | begin hposting =>
        obtain rfl : vpnConfig = _ := by simpa using hnew
        exact h.posting vpnConfig hposting
      | disconnect => simp at hnew

/-- What is stored is never that the tunnel is connected. -/
theorem Obeys.store {state : VPNConnectionState} (h : Obeys backend ps ts m) (hstate : state ≠ .connected)
    {storing : Option VPNConnectionState} (hstoring : ∀ state ∈ storing, state = .disconnected) :
    Obeys backend ps ts { m with state := state, storing := storing } :=
  { h with storing := hstoring, off := fun hoff => ⟨(h.off hoff).1, hstate⟩ }

theorem posted_snoc (es : List Event) (e : Event) : posted (es ++ [e]) = posted es ++ e.posts := by simp [posted]

theorem taken_snoc (es : List Event) (e : Event) : taken (es ++ [e]) = taken es ++ e.takes := by simp [taken]

theorem obeys_of_run {vpnConfig : VPNConfig} {client : T} {es : List Event}
    (hoff : ∀ t, backend.isConnected (backend.disconnect t) = false)
    (hkeep : ∀ vpnConfig t, backend.isConnected (backend.applyConfig vpnConfig t).2 = backend.isConnected t)
    (hclient : backend.isConnected client = false) (h : Run (Step backend) (init vpnConfig client) es m) :
    Obeys backend (posted es) (taken es) m := by
  induction h with
  | nil => exact ⟨.slnil, rfl, nofun, nofun, nofun, nofun, fun _ => nofun, nofun, fun _ => ⟨hclient, nofun⟩⟩
  | @snoc es m m' e _ hstep ih =>
    rw [posted_snoc, taken_snoc]
    cases e with
    | tick ms =>
      obtain rfl := hstep
      simp only [Event.posts, Event.takes, List.append_nil]
      exact { ih with }
    | start vpnConfig =>
      obtain ⟨-, -, hvalid, rfl⟩ := hstep
      simp only [Event.posts, Event.takes, List.append_nil]
      exact ih.start hvalid
    | post command =>
      obtain ⟨-, hposts, rfl⟩ := hstep
      simp only [Event.posts, Event.takes, List.append_nil]
      exact ih.post hposts
    | store =>
      obtain ⟨state, hstate, rfl⟩ := hstep
      simp only [Event.posts, Event.takes, List.append_nil]
      obtain rfl := ih.storing state hstate
      exact ih.store (by decide) nofun
    | refuse state =>
      obtain ⟨-, -, hrefuses, rfl⟩ := hstep
      simp only [Event.posts, Event.takes, List.append_nil]
      refine ih.store ?_ ih.storing
      cases hrefuses <;> decide
    | work act =>
      simp only [Event.posts, Event.takes, List.append_nil]
      exact ih.work hoff hkeep hstep.2

/-- However the calls and the steps are interleaved, the worker takes the commands
in the order of their posts, and of those it never takes each was overwritten by
a later one. When it connects, it is under the command it took last, which is a
configuration that was valid. Unless a configuration is applied or a command is
being served the tunnel is down, and the manager says so. The tunnel is one that
`disconnect` brings down and `applyConfig` does not bring up. -/
theorem commands_obeyed {vpnConfig : VPNConfig} {client : T} {es : List Event}
    (hoff : ∀ t, backend.isConnected (backend.disconnect t) = false)
    (hkeep : ∀ vpnConfig t, backend.isConnected (backend.applyConfig vpnConfig t).2 = backend.isConnected t)
    (hclient : backend.isConnected client = false) (h : Run (Step backend) (init vpnConfig client) es m) :
    (taken es).Sublist (posted es) ∧ (taken es ++ m.commandQueue.toList).getLast? = (posted es).getLast? ∧
      (m.place = .connecting → (taken es).getLast? = some (.configure m.config) ∧ isConfigValid m.config = true) ∧
      (m.place.serving = none → (taken es).getLast? ≠ some (.configure m.config) →
        backend.isConnected m.client = false ∧ m.state ≠ .connected) := by
  have hobeys := obeys_of_run hoff hkeep hclient h
  have hsub : (taken es).Sublist (posted es) := (List.sublist_append_left _ _).trans hobeys.order
  refine ⟨hsub, hobeys.latest, fun hplace => ?_, fun hserving hlast => ?_⟩
  · have hconfigured := hobeys.updating (by rw [hplace]; rfl)
    have hlast := hobeys.current (by rw [hplace]; rfl) hconfigured
    exact ⟨hlast, hobeys.valid _ (hsub.subset (List.mem_of_getLast? hlast))⟩
  · apply hobeys.off
    left
    by_contra hconfigured
    exact hlast (hobeys.current hserving (by simpa using hconfigured))

/-- A server that cannot be reached. -/
def unreachable : Backend Bool :=
  { applyConfig := fun _ t => (true, t), init := fun t => (true, t), connectSSH := fun _ => (false, false)
    disconnect := fun _ => false, loop := id, isConnected := id, lastConnectFailureWasReverseListener := fun _ => false
    getBoundPort := fun _ => 0 }

def relayConfig : VPNConfig :=
  { sshHost := [114], sshPort := 8080, username := [98], authMode := .password, password := [112], privateKey := []
    publicKey := [], keyPassphrase := [], verifyHostKey := true, hostKeyFingerprint := [83], hostKeyType := []
    tunnel := { remoteBindHost := [108], remoteBindPort := 8084, localHost := [108], localPort := 80 }
    keepAliveIntervalSec := 30, reconnectDelayMs := 5000, staleRemoteListenerCooldownMs := 35000, maxReconnectAttempts := 5
    connectionTimeoutSec := 30, bufferSize := 8192, maxChannels := 5, tunnelRingBufferSize := 65536 }

/-- The manager once `begin` has started the worker. -/
def idling : VPNManager Bool := { init relayConfig false with started := true, posting := some relayConfig }

theorem works_idling : works unreachable 3 idling = (List.replicate 3 (.work .none), idling) := by decide +kernel

/-- The manager once `begin` has posted the configuration. -/
def begun : VPNManager Bool :=
  { idling with commandQueue := some (.configure relayConfig), posting := none, storing := some .disconnected }

/-- The worker goes round once before there is a command. -/
theorem run_begun : Run (Step unreachable) (init relayConfig false)
    (.start relayConfig :: List.replicate 3 (.work .none) ++ [.post (.configure relayConfig)]) begun := by
  have hworks : Run (Step unreachable) idling (works unreachable 3 idling).1 (works unreachable 3 idling).2 := run_works 3 rfl
  rw [works_idling] at hworks
  exact Run.cons ⟨rfl, rfl, by decide, rfl⟩ (hworks.snoc ⟨rfl, .begin rfl, rfl⟩)

/-- Nine steps later the worker is about to connect. -/
def calling : VPNManager Bool :=
  { begun with commandQueue := none, state := .connecting, configured := true, initialized := true, place := .connecting }

theorem works_begun :
    works unreachable 9 begun = (.work (.took (.configure relayConfig)) :: List.replicate 8 (.work .none), calling) := by
  decide +kernel

/-- The events until then. -/
def called : List Event :=
  (.start relayConfig :: List.replicate 3 (.work .none) ++ [.post (.configure relayConfig)]) ++
    .work (.took (.configure relayConfig)) :: List.replicate 8 (.work .none)

theorem run_calling : Run (Step unreachable) (init relayConfig false) called calling := by
  have hworks : Run (Step unreachable) begun (works unreachable 9 begun).1 (works unreachable 9 begun).2 := run_works 9 rfl
  rw [works_begun] at hworks
  exact run_begun.append hworks

theorem commands_obeyed_calling : (taken called).getLast? = some (.configure relayConfig) :=
  ((commands_obeyed (fun _ => rfl) (fun _ _ => rfl) rfl run_calling).2.2.1 rfl).1

/-! ## The pause after a failure -/

/-- The milliseconds that pass. -/
def elapsed (es : List Event) : Nat := (es.map Event.ms).sum

/-- The pause that was scheduled last under the current command, and the time since. -/
def pause (es : List Event) : Option (UInt32 × Nat) :=
  es.foldl (fun pause e => e.pauses pause) none

/-- The worker keeps a pause of `delay` that began `passed` milliseconds ago. -/
structure Waits (delay : UInt32) (passed : Nat) (m : VPNManager T) : Prop where
  wait : delay.toNat ≤ passed ∨
    m.reconnectDelayMs = delay ∧ passed ≤ m.now ∧ m.reconnectStartedAt = stamp (m.now - passed)
  connecting : m.place ∈ [.announce, .connecting, .succeed] → delay.toNat ≤ passed
  serving : m.place.serving = none

theorem canAttemptConnect_of_waits {delay : UInt32} {passed : Nat} (h : Waits delay passed m)
    (hcan : m.canAttemptConnect (stamp m.now) = true) : delay.toNat ≤ passed := by
  obtain hover | ⟨hdelay, hpassed, hstart⟩ := h.wait
  · exact hover
  · rw [canAttemptConnect, hdelay, hstart] at hcan
    have hle := le_of_timeoutElapsed (Nat.sub_le m.now passed) hcan
    omega

/-- A pause goes on while nothing is scheduled. -/
theorem Waits.goes {delay : UInt32} {passed : Nat} (h : Waits delay passed m)
    (hdelay : m'.reconnectDelayMs = m.reconnectDelayMs) (hstart : m'.reconnectStartedAt = m.reconnectStartedAt)
    (hnow : m'.now = m.now) (hplace : m'.place ∈ [.announce, .connecting, .succeed] → delay.toNat ≤ passed)
    (hserving : m'.place.serving = none) : Waits delay passed m' :=
  ⟨by rw [hdelay, hstart, hnow]; exact h.wait, hplace, hserving⟩

/-- A step of the worker in which it takes no command and schedules nothing. -/
theorem Waits.work {delay : UInt32} {passed : Nat} {act : Act} (h : Waits delay passed m)
    (hwork : m.work backend = (act, m')) (htakes : act.takes = []) (hscheduled : ∀ delay, act ≠ .scheduled delay) :
    Waits delay passed m' := by
  obtain ⟨hnow, hserving, hstart, hdelay, hplace⟩ := work_pausing h.serving hwork htakes hscheduled
  refine ⟨?_, fun hattempt => ?_, hserving⟩
  · rcases hdelay with hsucceed | hdelay
    · -- The success ends the pause, but the attempt before it had to wait.
      exact .inl (h.connecting (by simp [hsucceed]))
    · rw [hdelay, hstart, hnow]
      exact h.wait
  · rcases hplace hattempt with hattempt | hcan
    · exact h.connecting hattempt
    · exact canAttemptConnect_of_waits h hcan

/-- Only `scheduleReconnect` schedules. -/
theorem work_scheduled {delay : UInt32} (h : m.work backend = (.scheduled delay, m')) :
    m' = { m with reconnectStartedAt := stamp m.now, reconnectDelayMs := delay, place := .bound } := by
  unfold VPNManager.work at h
  grind

theorem pause_snoc (es : List Event) (e : Event) : pause (es ++ [e]) = e.pauses (pause es) := by simp [pause]

theorem elapsed_snoc (es : List Event) (e : Event) : elapsed (es ++ [e]) = elapsed es + e.ms := by simp [elapsed]

/-- The pause that was scheduled last is kept, and no command is served in it. -/
theorem waits_of_run {vpnConfig : VPNConfig} {client : T} {es : List Event}
    (h : Run (Step backend) (init vpnConfig client) es m) :
    ∀ delay passed, pause es = some (delay, passed) → Waits delay passed m := by
  induction h with
  | nil => exact nofun
  | @snoc es m m' e _ hstep ih =>
    intro delay passed hpause
    rw [pause_snoc] at hpause
    -- A step that neither takes nor schedules goes on with the pause there was.
    have hmore : ∀ ms, (pause es).map (fun p => (p.1, p.2 + ms)) = some (delay, passed) →
        ∃ before, passed = before + ms ∧ Waits delay before m := by
      intro ms hmap
      obtain ⟨⟨_, before⟩, hbefore, heq⟩ := Option.map_eq_some_iff.1 hmap
      cases heq
      exact ⟨before, rfl, ih _ _ hbefore⟩
    cases e with
    | tick ms =>
      obtain rfl := hstep
      obtain ⟨before, rfl, hwaits⟩ := hmore ms hpause
      refine ⟨?_, fun hplace => (hwaits.connecting hplace).trans (by omega), hwaits.serving⟩
      obtain hover | ⟨hdelay, hpassed, hstart⟩ := hwaits.wait
      · exact .inl (by omega)
      · exact .inr ⟨hdelay, by change before + ms ≤ m.now + ms; omega, by rw [Nat.add_sub_add_right]; exact hstart⟩
    | start vpnConfig =>
      obtain ⟨-, -, -, rfl⟩ := hstep
      obtain ⟨before, rfl, hwaits⟩ := hmore 0 hpause
      exact hwaits.goes rfl rfl rfl hwaits.connecting hwaits.serving
    | post command =>
      obtain ⟨-, -, rfl⟩ := hstep
      obtain ⟨before, rfl, hwaits⟩ := hmore 0 hpause
      exact hwaits.goes rfl rfl rfl hwaits.connecting hwaits.serving
    | store =>
      obtain ⟨state, -, rfl⟩ := hstep
      obtain ⟨before, rfl, hwaits⟩ := hmore 0 hpause
      exact hwaits.goes rfl rfl rfl hwaits.connecting hwaits.serving
    | refuse state =>
      obtain ⟨-, -, -, rfl⟩ := hstep
      obtain ⟨before, rfl, hwaits⟩ := hmore 0 hpause
      exact hwaits.goes rfl rfl rfl hwaits.connecting hwaits.serving
    | work act =>
      cases act with
      | took command => cases hpause
      | scheduled delay' =>
        cases hpause
        rw [work_scheduled hstep.2]
        exact ⟨.inr ⟨rfl, Nat.zero_le _, rfl⟩, by simp, rfl⟩
      | connectSSH =>
        obtain ⟨before, rfl, hwaits⟩ := hmore 0 hpause
        exact hwaits.work hstep.2 rfl nofun
      | none =>
        obtain ⟨before, rfl, hwaits⟩ := hmore 0 hpause
        exact hwaits.work hstep.2 rfl nofun

/-- However the calls and the steps are interleaved, the worker does not connect
before the pause that it scheduled last is over, unless a command has come. The
time is that of the world; the counter of milliseconds may have wrapped. -/
theorem connects_after_pause {vpnConfig : VPNConfig} {client : T} {before after : List Event} {delay : UInt32}
    (h : Run (Step backend) (init vpnConfig client)
      (before ++ [.work (.scheduled delay)] ++ after ++ [.work .connectSSH]) m)
    (hquiet : ∀ e ∈ after, e.takes = [] ∧ ∀ delay, e ≠ .work (.scheduled delay)) : delay.toNat ≤ elapsed after := by
  obtain ⟨m₁, hrun, hstep⟩ := h.last
  have hpause : pause (before ++ [.work (.scheduled delay)] ++ after) = some (delay, elapsed after) := by
    clear h hrun hstep
    induction after using List.reverseRecOn with
    | nil => rw [List.append_nil, pause_snoc]; rfl
    | append_singleton after e ih =>
      have hrest := ih fun e' he' => hquiet e' (List.mem_append_left _ he')
      obtain ⟨htakes, hscheduled⟩ := hquiet e (by simp)
      rw [← List.append_assoc, pause_snoc, hrest, elapsed_snoc, Event.pauses_some htakes hscheduled]
  have hwaits := waits_of_run hrun _ _ hpause
  have hplace : m₁.place = .connecting := by
    have hwork := hstep.2
    unfold VPNManager.work at hwork
    grind
  exact hwaits.connecting (by simp [hplace])

/-- The server was not reached, and the pause is scheduled. -/
def refused : VPNManager Bool :=
  { calling with state := .error, reconnectDelayMs := 5000, place := .bound }

theorem works_calling : works unreachable 3 calling = ([.work .connectSSH, .work .none, .work (.scheduled 5000)], refused) := by
  decide +kernel

/-- Five seconds later the worker connects again. -/
def later : VPNManager Bool := { refused with now := 5000 }

theorem works_refused :
    (works unreachable 11 later).1 = List.replicate 10 (.work .none) ++ [.work .connectSSH] := by
  decide +kernel

/-- The events between the failure and the attempt. -/
def waited : List Event := .tick 5000 :: List.replicate 10 (.work .none)

theorem run_later : Run (Step unreachable) (init relayConfig false)
    ((called ++ [.work .connectSSH, .work .none]) ++ [.work (.scheduled 5000)] ++ waited ++ [.work .connectSSH])
    (works unreachable 11 later).2 := by
  have hfail : Run (Step unreachable) calling (works unreachable 3 calling).1 (works unreachable 3 calling).2 :=
    run_works 3 rfl
  rw [works_calling] at hfail
  have hagain : Run (Step unreachable) later (works unreachable 11 later).1 (works unreachable 11 later).2 :=
    run_works 11 rfl
  rw [works_refused] at hagain
  have hwait : Run (Step unreachable) refused [.tick 5000] later := .single rfl
  have hrun := ((run_calling.append hfail).append hwait).append hagain
  simp only [waited, List.append_assoc, List.cons_append, List.nil_append] at hrun ⊢
  exact hrun

theorem connects_after_pause_refused : (5000 : UInt32).toNat ≤ elapsed waited := by
  apply connects_after_pause run_later
  intro e he
  obtain rfl | he := List.mem_cons.1 he
  · exact ⟨rfl, nofun⟩
  · obtain rfl := List.eq_of_mem_replicate he
    exact ⟨rfl, nofun⟩

end VPNManager

end OrangeBox.Vpn
