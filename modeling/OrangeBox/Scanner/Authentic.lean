import OrangeBox.Scanner.Authorised
import OrangeBox.Scanner.Frames
/-!
# What a scanned code is

A visit is the time between an entry into Scan and the moment the machine
leaves it. The entry leaves the scanner with nothing received (`Fresh`), and
during the visit only the polls and the bytes that arrive change it
(`replay`). So a text that is verified as a packet number is one frame of the
bytes received in the visit, and evaluating it ends the visit
(`codes_authentic`).
-/
open OrangeBox.PassStore OrangeBox.StateMachine Clock Runs

namespace OrangeBox.Scanner

variable {V : Type} {dev : Devices V} {e : BoxEvent} {target : BoxState} {now millis : UInt32}
  {s s' s₀ : Moment (Watch V)} {h : Happening V} {hs : List (Happening V)} {m m' : Machine (Watch V)} {w w' : Watch V}

/-! ## What the machine does to the scanner -/

/-- The scanner is as it was. -/
structure SameScanner (w w' : Watch V) : Prop where
  qr : w'.1.qr = w.1.qr
  ready : w'.1.ready = w.1.ready
  millis : w'.1.millis = w.1.millis
  failed : w'.1.failed = w.1.failed

theorem SameScanner.refl (w : Watch V) : SameScanner w w := ⟨rfl, rfl, rfl, rfl⟩

theorem SameScanner.trans {w'' : Watch V} (h : SameScanner w w') (h' : SameScanner w' w'') : SameScanner w w'' :=
  ⟨h'.qr.trans h.qr, h'.ready.trans h.ready, h'.millis.trans h.millis, h'.failed.trans h.failed⟩

theorem attach_calm (dev : Devices V) : Calm (attach dev).logged SameScanner where
  refl := .refl
  trans := .trans
  ambientOn _ := ⟨rfl, rfl, rfl, rfl⟩
  ambientOff _ := ⟨rfl, rfl, rfl, rfl⟩
  display _ _ := ⟨rfl, rfl, rfl, rfl⟩
  rand _ := ⟨rfl, rfl, rfl, rfl⟩
  onUIUpdate _ _ := ⟨rfl, rfl, rfl, rfl⟩

/-- A transition reaches the scanner through the callback only. -/
theorem transitionTo_scanner (dev : Devices V) (target : BoxState) (now millis : UInt32) (m : Machine (Watch V)) :
    ∃ w, SameScanner m.world w ∧ SameScanner (if target = m.context.state then w
      else (onStateChanged m.context.state target w.1, w.2)) (transitionTo (attach dev).logged target now millis m).world := by
  by_cases hself : target = m.context.state
  · rw [transitionTo_self hself]
    exact ⟨m.world, .refl _, by rw [if_pos hself]; exact .refl _⟩
  rw [transitionTo_world hself]
  have hsame : SameScanner m.world (entered (attach dev).logged target now millis m) :=
    (attach_calm dev).entered_all (fun _ _ => ⟨rfl, rfl, rfl, rfl⟩) (fun _ _ => ⟨rfl, rfl, rfl, rfl⟩) m
  generalize entered (attach dev).logged target now millis m = w at hsame ⊢
  refine ⟨({ w.1 with rest := dev.onStateChange m.context.state target now w.1.rest }, w.2),
    ⟨hsame.qr, hsame.ready, hsame.millis, hsame.failed⟩, ?_⟩
  rw [if_neg hself]
  exact .refl _

theorem reaction_scanner (hr : Reaction (attach dev).logged now m e m' target) : SameScanner m.world m'.world := by
  cases hr with
  | ignored => exact (attach_calm dev).notice _ _
  | opened => exact (attach_calm dev).notice _ _
  | closed => exact (attach_calm dev).notice _ _
  | _ => exact ⟨rfl, rfl, rfl, rfl⟩

/-! ## Visits -/

/-- The bytes that arrive. -/
def arriving : Happening V → List UInt8
  | .receive bytes => bytes
  | _ => []

/-- What happens to the scanner while the machine stays in Scan. -/
def replayed (s : QrScanner) : Happening V → QrScanner
  | .receive bytes => { s with input := s.input ++ bytes }
  | .scan now _ _ _ => (s.update (stamp now)).2
  | _ => s

def replay (s : QrScanner) (hs : List (Happening V)) : QrScanner := hs.foldl replayed s

/-- A code, valid or not, is evaluated. -/
def Evaluates (s : Moment (Watch V)) : Happening V → Prop
  | .scan now t _ _ => ∃ e, scanned now s.machine = some e ∧ evaluated (stamp t) s.machine.context e = true
  | _ => False

/-- The machine stays in Scan, and no code is evaluated. -/
def Stays (s : Moment (Watch V)) (h : Happening V) (s' : Moment (Watch V)) : Prop :=
  s.machine.context.state = .scan ∧ ¬Evaluates s h ∧ s'.machine.context.state = .scan

/-- The reading that a transition stores. -/
def Happening.time : Happening V → Nat
  | .event _ t _ _ => t
  | .update t _ _ => t
  | .scan _ t _ _ => t
  | .callback t _ _ => t
  | _ => 0

/-- The machine went to Scan at `t` with the scanner `qr`, and `hs` happened
since then, without it leaving Scan or evaluating a code. -/
def Visit (dev : Devices V) (s₀ : Moment (Watch V)) (t : Nat) (qr : QrScanner) (hs : List (Happening V))
    (s : Moment (Watch V)) : Prop :=
  ∃ before s₁ h s₂, Run (Happens dev) s₀ before s₁ ∧ Happens dev s₁ h s₂ ∧ s₁.machine.context.state ≠ .scan ∧
    s₂.machine.context.state = .scan ∧ h.time = t ∧ s₂.machine.world.1.qr = qr ∧
      Run (Within (Happens dev) Stays) s₂ hs s

/-- What a scan receives is what arrived since it was started. -/
theorem replay_received {config : QrScannerConfig} {qr : QrScanner} (hf : qr.Fresh config) (hs : List (Happening V)) :
    (replay qr hs).config = config ∧ (replay qr hs).attached = true ∧
      (replay qr hs).Received (hs.flatMap arriving) (replay qr hs).input := by
  induction hs using List.reverseRecOn with
  | nil => exact ⟨hf.config, hf.attached, hf.received⟩
  | append_singleton hs h ih =>
    obtain ⟨hc, ha, hr⟩ := ih
    have happ : replay qr (hs ++ [h]) = replayed (replay qr hs) h := List.foldl_concat ..
    rw [happ, List.flatMap_append, List.flatMap_singleton]
    have hquiet : ∀ {r : QrScanner}, r.Received (hs.flatMap arriving) r.input → r.Received (hs.flatMap arriving ++ []) r.input :=
      fun h => by rwa [List.append_nil]
    generalize replay qr hs = s at hc ha hr ⊢
    cases h with
    | receive bytes =>
      have harrive := hr.arrive bytes
      exact ⟨hc, ha, harrive.split, harrive.clean, harrive.short⟩
    | scan now t t' t'' =>
      obtain ⟨hr', hc', ha', -⟩ := QrScanner.update_receives (stamp now) hr
      exact ⟨hc'.trans hc, ha'.trans ha, hquiet hr'⟩
    | event | update | callback | elsewhere => exact ⟨hc, ha, hquiet hr⟩

/-! ## Polls -/

/-- What a poll raises is meant for the machine in Scan. -/
theorem scanned_handled {now : Nat} (h : scanned now m = some e) :
    m.context.state = .scan ∧ handled m.context e = true ∧ m.world.1.ready = true := by
  unfold scanned poll at h
  split at h
  · contradiction
  rename_i hready
  have hready : m.world.1.ready = true := by simpa using hready
  split at h
  · rename_i hover
    simp only [Bool.and_eq_true, decide_eq_true_eq] at hover
    obtain rfl := Option.some.inj h
    exact ⟨hover.1, decide_eq_true hover.1, hready⟩
  · dsimp only at h
    split at h
    · contradiction
    · rename_i hscan
      have hscan := not_not.1 hscan
      refine ⟨hscan, ?_, hready⟩
      unfold translate at h
      split at h
      · obtain rfl := Option.some.inj h
        exact decide_eq_true hscan
      split at h
      · obtain rfl := Option.some.inj h
        exact decide_eq_true hscan
      split at h
      · split at h
        · obtain rfl := Option.some.inj h
          exact decide_eq_true hscan
        · obtain rfl := Option.some.inj h
          exact decide_eq_true hscan
      · contradiction

/-- A code that a poll raises is the text of the frame it delivered. -/
theorem scanned_code {now : Nat} {cred : CText (packetScanMax + 1)} (h : scanned now m = some (.scannerCodeReceived cred)) :
    cred.bytes = (m.world.1.qr.update (stamp now)).1.data ∧ packetNumberMin ≤ cred.bytes.length ∧
      cred.bytes.length ≤ packetScanMax ∧ ∀ c ∈ cred.bytes, 33 ≤ c ∧ c ≤ 126 := by
  unfold scanned poll at h
  split at h
  · contradiction
  split at h
  · simp at h
  dsimp only at h
  split at h
  · contradiction
  generalize (m.world.1.qr.update (stamp now)).1 = frame at h ⊢
  unfold translate at h
  split at h
  · simp at h
  split at h
  · simp at h
  split at h
  swap
  · contradiction
  split at h
  · simp at h
  rename_i hvalid
  obtain rfl := BoxEvent.scannerCodeReceived.inj (Option.some.inj h)
  simp only [isText, Bool.or_eq_true, decide_eq_true_eq, Bool.not_eq_true', not_or, Bool.not_eq_false,
    Bool.and_eq_true, List.all_eq_true] at hvalid
  obtain ⟨⟨hmin, hmax⟩, -, htext⟩ := hvalid
  have hbytes : (CText.read (packetScanMax + 1) frame.data).bytes = frame.data := by
    refine CText.read_bytes (fun h0 => ?_) ?_
    · exact absurd (htext 0 h0).1 (by decide)
    · omega
  rw [hbytes]
  exact ⟨rfl, by omega, by omega, htext⟩

/-! ## Staying and entering -/

/-- How the machine comes to be in Scan after a transition. -/
inductive ToScan (now : UInt32) (m m' : Machine (Watch V)) : Prop
  | stays : m.context.state = .scan → m'.context.scanStartedAt = m.context.scanStartedAt →
      SameScanner m.world m'.world → ToScan now m m'
  | enters {w : Watch V} : m.context.state ≠ .scan → m'.context.scanStartedAt = now → SameScanner m.world w →
      SameScanner (onStateChanged m.context.state .scan w.1, w.2) m'.world → ToScan now m m'

theorem transitionTo_toScan {r : Machine (Watch V)} (hstate : r.context.state = m.context.state)
    (hstart : r.context.scanStartedAt = m.context.scanStartedAt) (hsame : SameScanner m.world r.world)
    (hscan : (transitionTo (attach dev).logged target now millis r).context.state = .scan) :
    ToScan now m (transitionTo (attach dev).logged target now millis r) := by
  rw [transitionTo_state] at hscan
  subst hscan
  obtain ⟨w, hw, hlast⟩ := transitionTo_scanner dev .scan now millis r
  by_cases hself : r.context.state = .scan
  · rw [if_pos hself.symm] at hlast
    refine .stays (hstate.symm.trans hself) ?_ ?_
    · rw [transitionTo_self hself.symm, hstart]
    · exact hsame.trans (hw.trans hlast)
  · rw [if_neg (Ne.symm hself)] at hlast
    refine .enters (hstate ▸ hself) ?_ (hsame.trans hw) (hstate ▸ hlast)
    rw [transitionTo_scan _ _ _ hself]

theorem processEvent_toScan (hscan : (processEvent (attach dev).logged e now millis m).context.state = .scan) :
    ToScan now m (processEvent (attach dev).logged e now millis m) := by
  obtain ⟨r, target, hr, he⟩ := processEvent_reaction (attach dev).logged e now millis m
  rw [he] at hscan ⊢
  refine transitionTo_toScan hr.state ?_ (reaction_scanner hr) hscan
  cases hr with
  | ignored => rw [notice_context]
  | opened => rw [notice_context]
  | closed => rw [notice_context]
  | _ => rfl

theorem update_toScan (hscan : (update (attach dev).logged now millis m).context.state = .scan) :
    ToScan now m (update (attach dev).logged now millis m) := by
  obtain ⟨target, -, hu⟩ := update_elapse (attach dev).logged now millis m
  rw [hu] at hscan ⊢
  refine transitionTo_toScan (refresh_state m) ?_ ((attach_calm dev).refresh m) hscan
  exact refresh_eq (·.scanStartedAt) (fun _ _ _ _ _ => rfl) m

/-- In Scan every event that is handled ends the visit. -/
theorem processEvent_leaves (hs : m.context.state = .scan) (hh : handled m.context e = true) :
    (processEvent (attach dev).logged e now millis m).context.state ≠ .scan := by
  obtain ⟨r, target, hr, he⟩ := processEvent_reaction (attach dev).logged e now millis m
  rw [he, transitionTo_state]
  cases hr with
  | ignored hno => simp [hh] at hno
  | scan hhome => simp [hs] at hhome
  | _ => simp

/-! ## The scanner in every state -/

theorem onStateChanged_ready (old new : BoxState) (b : Bridge V) : (onStateChanged old new b).ready = b.ready := by
  have hstop : (if old = .scan && b.ready && b.qr.scanActive then { b with qr := b.qr.deactivate } else b).ready = b.ready := by
    split <;> rfl
  unfold onStateChanged
  dsimp only
  generalize (if old = .scan && b.ready && b.qr.scanActive then { b with qr := b.qr.deactivate } else b) = r at hstop ⊢
  split
  · exact hstop
  · split <;> exact hstop

theorem transitionTo_ready_eq (dev : Devices V) (target : BoxState) (now millis : UInt32) (m : Machine (Watch V)) :
    (transitionTo (attach dev).logged target now millis m).world.1.ready = m.world.1.ready := by
  obtain ⟨w, hw, hlast⟩ := transitionTo_scanner dev target now millis m
  rw [hlast.ready, ← hw.ready]
  split
  · rfl
  · exact onStateChanged_ready _ _ _

theorem processEvent_ready_eq (dev : Devices V) (e : BoxEvent) (now millis : UInt32) (m : Machine (Watch V)) :
    (processEvent (attach dev).logged e now millis m).world.1.ready = m.world.1.ready := by
  obtain ⟨r, target, hr, he⟩ := processEvent_reaction (attach dev).logged e now millis m
  rw [he, transitionTo_ready_eq, (reaction_scanner hr).ready]

theorem polled_ready (now : Nat) (m : Machine (Watch V)) : (polled now m).world.1.ready = m.world.1.ready := by
  change (poll (stamp now) m.context m.world.1).2.ready = _
  unfold poll
  split
  · rfl
  split <;> rfl

/-- The scanner stays as `begin` left it, ready or not. -/
theorem Happens.ready_eq (hs : Happens dev s h s') : s'.machine.world.1.ready = s.machine.world.1.ready := by
  cases hs with
  | event => exact processEvent_ready_eq dev _ _ _ _
  | @update t t' t'' =>
    obtain ⟨target, -, hu⟩ := update_elapse (attach dev).logged (stamp t) (stamp t')
      (onBridge ({ · with millis := stamp t'' }) s.machine)
    rw [hu, transitionTo_ready_eq, ((attach_calm dev).refresh _).ready]
    rfl
  | scan => exact (processEvent_ready_eq dev _ _ _ _).trans (polled_ready _ _)
  | silent => exact polled_ready _ _
  | callback => exact processEvent_ready_eq dev _ _ _ _
  | receive => rfl
  | elsewhere => rfl

variable {config : QrScannerConfig}

/-- What holds of a configured scanner at any time. -/
structure Kept (config : QrScannerConfig) (s : QrScanner) : Prop where
  config : s.config = config
  attached : s.attached = true
  received : ∃ bytes, s.Received bytes s.input

theorem Kept.update {qr : QrScanner} (hk : Kept config qr) (now : UInt32) : Kept config (qr.update now).2 := by
  obtain ⟨bytes, hr⟩ := hk.received
  obtain ⟨hr', hc, ha, -⟩ := QrScanner.update_receives now hr
  exact ⟨hc.trans hk.config, ha.trans hk.attached, bytes, hr'⟩

/-- The bridge is ready. -/
structure Ready (config : QrScannerConfig) (b : Bridge V) : Prop where
  ready : b.ready = true
  kept : Kept config b.qr

theorem Ready.same (h : Ready config w.1) (hs : SameScanner w w') : Ready config w'.1 :=
  ⟨hs.ready.trans h.ready, by rw [hs.qr]; exact h.kept⟩

theorem Ready.onStateChanged {b : Bridge V} (h : Ready config b) (old new : BoxState) :
    Ready config (onStateChanged old new b) ∧ (new = .scan → (onStateChanged old new b).qr.Fresh config) := by
  have hstop : Ready config (if old = .scan && b.ready && b.qr.scanActive then { b with qr := b.qr.deactivate } else b) := by
    split
    · have hkeeps := QrScanner.deactivate_keeps b.qr
      obtain ⟨bytes, hr⟩ := h.kept.received
      exact ⟨h.ready, hkeeps.config.trans h.kept.config, hkeeps.attached.trans h.kept.attached, bytes,
        by rw [hkeeps.input]; exact hr.keep hkeeps⟩
    · exact h
  unfold Scanner.onStateChanged
  dsimp only
  generalize (if old = .scan && b.ready && b.qr.scanActive then { b with qr := b.qr.deactivate } else b) = r at hstop ⊢
  split
  · rename_i hnew
    exact ⟨hstop, fun h => absurd h hnew⟩
  rw [if_neg (by simp [hstop.ready])]
  obtain ⟨-, hfresh⟩ := QrScanner.startScan_fresh qrScannerScanTimeoutMs r.millis
    (show { r.qr with input := [] }.attached = true from hstop.kept.attached) rfl
  have hfresh : (QrScanner.startScan qrScannerScanTimeoutMs r.millis { r.qr with input := [] }).2.Fresh config :=
    hstop.kept.config ▸ hfresh
  exact ⟨⟨hstop.ready, hfresh.config, hfresh.attached, [], hfresh.received⟩, fun _ => hfresh⟩

theorem transitionTo_ready (h : Ready config m.world.1) :
    Ready config (transitionTo (attach dev).logged target now millis m).world.1 := by
  obtain ⟨w, hw, hlast⟩ := transitionTo_scanner dev target now millis m
  refine Ready.same ?_ hlast
  split
  · exact h.same hw
  · exact ((h.same hw).onStateChanged _ _).1

theorem processEvent_ready (h : Ready config m.world.1) :
    Ready config (processEvent (attach dev).logged e now millis m).world.1 := by
  obtain ⟨r, target, hr, he⟩ := processEvent_reaction (attach dev).logged e now millis m
  rw [he]
  exact transitionTo_ready (h.same (reaction_scanner hr))

theorem poll_ready (h : Ready config m.world.1) (now : Nat) : Ready config (polled now m).world.1 := by
  change Ready config (poll (stamp now) m.context m.world.1).2
  unfold poll
  split
  · exact h
  split
  · exact h
  · exact ⟨h.ready, h.kept.update _⟩

theorem Happens.ready (hs : Happens dev s h s') (hr : Ready config s.machine.world.1) : Ready config s'.machine.world.1 := by
  have hclock : ∀ {m : Machine (Watch V)} {t'' : Nat}, Ready config m.world.1 →
      Ready config (onBridge ({ · with millis := stamp t'' }) m).world.1 := fun h => ⟨h.ready, h.kept⟩
  cases hs with
  | event => exact processEvent_ready (hclock hr)
  | update =>
    obtain ⟨target, -, hu⟩ := update_elapse (attach dev).logged (stamp _) (stamp _)
      (onBridge ({ · with millis := stamp _ }) s.machine)
    rw [hu]
    exact transitionTo_ready ((hclock hr).same ((attach_calm dev).refresh _))
  | scan => exact processEvent_ready (hclock (poll_ready hr _))
  | silent => exact poll_ready hr _
  | callback =>
    have hr' : Ready config (onBridge ({ · with failed := false }) s.machine).world.1 := ⟨hr.ready, hr.kept⟩
    exact processEvent_ready (hclock hr')
  | @receive more =>
    obtain ⟨bytes, hb⟩ := hr.kept.received
    have harrive := hb.arrive more
    exact ⟨hr.ready, hr.kept.config, hr.kept.attached, _, harrive.split, harrive.clean, harrive.short⟩
  | elsewhere => exact ⟨hr.ready, hr.kept⟩

/-- How a step comes to end in Scan: the visit goes on, or begins. -/
inductive InScan (config : QrScannerConfig) (s : Moment (Watch V)) (h : Happening V) (s' : Moment (Watch V)) : Prop
  | stays : Stays s h s' → s'.machine.context.scanStartedAt = s.machine.context.scanStartedAt →
      s'.machine.world.1.qr = replayed s.machine.world.1.qr h → InScan config s h s'
  | enters : s.machine.context.state ≠ .scan → s'.machine.context.scanStartedAt = stamp h.time → h.time ≤ s'.clock →
      s'.machine.world.1.qr.Fresh config → InScan config s h s'

/-- An event or an update of a machine with the same scanner. -/
theorem ToScan.inScan (hto : ToScan now m m') (hnow : now = stamp h.time) (hm : s'.machine = m')
    (hscan : s'.machine.context.state = .scan) (hcontext : m.context = s.machine.context) (hqr : m.world.1.qr = s.machine.world.1.qr) (hr : Ready config m.world.1)
    (hle : h.time ≤ s'.clock) (hne : ¬Evaluates s h) (hrep : replayed s.machine.world.1.qr h = s.machine.world.1.qr) :
    InScan config s h s' := by
  subst hnow hm
  cases hto with
  | stays hstate hstart hsame =>
    rw [hcontext] at hstate hstart
    exact .stays ⟨hstate, hne, hscan⟩ hstart (by rw [hsame.qr, hqr, hrep])
  | enters hstate hstart hsame hlast =>
    rw [hcontext] at hstate
    refine .enters hstate hstart hle ?_
    rw [hlast.qr]
    exact ((hr.same hsame).onStateChanged _ _).2 rfl

theorem Happens.inScan (hs : Happens dev s h s') (hr : Ready config s.machine.world.1)
    (hscan : s'.machine.context.state = .scan) : InScan config s h s' := by
  cases hs with
  | event _ _ h1 h2 => exact (processEvent_toScan hscan).inScan rfl rfl hscan rfl rfl ⟨hr.ready, hr.kept⟩ (Nat.le_trans h1 h2) id rfl
  | update _ _ h1 h2 => exact (update_toScan hscan).inScan rfl rfl hscan rfl rfl ⟨hr.ready, hr.kept⟩ (Nat.le_trans h1 h2) id rfl
  | @scan now t t' t'' e _ _ _ _ _ he =>
    obtain ⟨hstate, hh, -⟩ := scanned_handled he
    exact absurd hscan (processEvent_leaves hstate hh)
  | @silent now t t' t'' _ _ _ _ _ he =>
    refine .stays ⟨hscan, ?_, hscan⟩ rfl ?_
    · rintro ⟨e, hsome, -⟩
      rw [he] at hsome
      contradiction
    · -- Within the time of the scan a silent poll is an update of the scanner.
      change (poll (stamp now) s.machine.context s.machine.world.1).2.qr = _
      unfold scanned poll at he
      unfold poll
      rw [if_neg (by simp [hr.ready])] at he ⊢
      split at he
      · contradiction
      · rename_i hover
        rw [if_neg hover]
        rfl
  | callback _ _ h1 h2 => exact (processEvent_toScan hscan).inScan rfl rfl hscan rfl rfl ⟨hr.ready, hr.kept⟩ (Nat.le_trans h1 h2) id rfl
  | receive => exact .stays ⟨hscan, id, hscan⟩ rfl rfl
  | elsewhere => exact .stays ⟨hscan, id, hscan⟩ rfl rfl

/-! ## The time of a visit -/

/-- From `last` on the machine is updated at least every `2 ^ 31` milliseconds,
until `now`. -/
def Prompt : Nat → List (Happening V) → Nat → Prop
  | last, [], now => now < last + 2 ^ 31
  | last, .update t _ _ :: hs, now => t < last + 2 ^ 31 ∧ Prompt t hs now
  | last, _ :: hs, now => Prompt last hs now

theorem Prompt.of_update {last now t t' t'' : Nat} (hp : Prompt last (hs ++ [.update t t' t'']) now) :
    Prompt last hs t ∧ now < t + 2 ^ 31 := by
  induction hs generalizing last with
  | nil => exact hp
  | cons h hs ih =>
    cases h with
    | update => exact ⟨⟨hp.1, (ih hp.2).1⟩, (ih hp.2).2⟩
    | _ => exact ih hp

theorem Prompt.of_other {last now : Nat} (hp : Prompt last (hs ++ [h]) now) (hne : ∀ t t' t'', h ≠ .update t t' t'') :
    Prompt last hs now := by
  induction hs generalizing last with
  | nil =>
    cases h with
    | update t t' t'' => exact absurd rfl (hne t t' t'')
    | _ => exact hp
  | cons h hs ih =>
    cases h with
    | update => exact ⟨hp.1, ih hp.2⟩
    | _ => exact ih hp

/-- An update that stays in Scan comes in time. -/
theorem update_stays (dev : Devices V) (now millis : UInt32) (m : Machine (Watch V))
    (hscan : (update (attach dev).logged now millis m).context.state = .scan) (hs : m.context.state = .scan) :
    timeoutElapsed m.context.scanStartedAt qrScannerScanTimeoutMs now = false := by
  have hstate : (refresh (attach dev).logged now m).context.state = .scan := (refresh_state m).trans hs
  have hstart : (refresh (attach dev).logged now m).context.scanStartedAt = m.context.scanStartedAt :=
    refresh_eq (·.scanStartedAt) (fun _ _ _ _ _ => rfl) m
  cases hover : timeoutElapsed m.context.scanStartedAt qrScannerScanTimeoutMs now with
  | false => rfl
  | true =>
    unfold StateMachine.update at hscan
    simp only [hstate, hstart, hover, if_true] at hscan
    rw [transitionTo_state] at hscan
    contradiction

/-! ## Authenticity -/

/-- The visit that a moment in Scan belongs to. -/
structure Visited (config : QrScannerConfig) (dev : Devices V) (s₀ s : Moment (Watch V)) (t : Nat) (qr : QrScanner)
    (hs : List (Happening V)) : Prop where
  visit : Visit dev s₀ t qr hs s
  fresh : qr.Fresh config
  scanner : s.machine.world.1.qr = replay qr hs
  startedAt : s.machine.context.scanStartedAt = stamp t
  since : t ≤ s.clock
  time : ∀ now, Prompt t hs now → now < t + qrScannerScanTimeoutMs.toNat + 2 ^ 31

/-- A code is evaluated in a visit that has seen no other, before its time is
over, and ends it. -/
structure EvaluatedIn (config : QrScannerConfig) (dev : Devices V) (s₀ s : Moment (Watch V)) (h : Happening V)
    (s' : Moment (Watch V)) (t : Nat) (qr : QrScanner) (hs : List (Happening V)) : Prop where
  visited : Visited config dev s₀ s t qr hs
  since : t ≤ h.time
  counted : (h.time - t) % 2 ^ 32 < qrScannerScanTimeoutMs.toNat
  inTime : Prompt t hs h.time → h.time - t < qrScannerScanTimeoutMs.toNat
  ends : s'.machine.context.state ≠ .scan

/-- A text is one frame that the scanner delivers to a poll, of bytes that
arrived in the visit. -/
structure FrameOf (config : QrScannerConfig) (s : Moment (Watch V)) (h : Happening V) (hs : List (Happening V))
    (value : List UInt8) : Prop where
  delivered : ∃ now t t' t'', h = .scan now t t' t'' ∧ value = (s.machine.world.1.qr.update (stamp now)).1.data
  framed : QrScanner.Framed config (hs.flatMap arriving) value
  min : packetNumberMin ≤ value.length
  max : value.length ≤ packetScanMax
  text : ∀ c ∈ value, 33 ≤ c ∧ c ≤ 126

/-- The state a run keeps. -/
structure Tracked (config : QrScannerConfig) (dev : Devices V) (s₀ s : Moment (Watch V)) : Prop where
  reached : ∃ before, Run (Happens dev) s₀ before s
  ready : s.machine.world.1.ready = true → Ready config s.machine.world.1
  visited : s.machine.world.1.ready = true → s.machine.context.state = .scan →
    ∃ t qr hs, Visited config dev s₀ s t qr hs

/-- The codes that are processed come from the scanner. -/
def OwnCode : Happening V → Prop
  | .event (.scannerCodeReceived _) _ _ _ => False
  | _ => True

theorem Happens.clock_le (hs : Happens dev s h s') : s.clock ≤ s'.clock := by
  cases hs <;> dsimp only <;> omega

theorem Visited.step {t : Nat} {qr : QrScanner} (hv : Visited config dev s₀ s t qr hs) (hstep : Happens dev s h s')
    (hstay : Stays s h s') (hstart : s'.machine.context.scanStartedAt = s.machine.context.scanStartedAt)
    (hqr : s'.machine.world.1.qr = replayed s.machine.world.1.qr h) : Visited config dev s₀ s' t qr (hs ++ [h]) where
  visit := by
    obtain ⟨before, s₁, h₁, s₂, hrun, henter, hne, hscan, htime, hqr₂, hvisit⟩ := hv.visit
    exact ⟨before, s₁, h₁, s₂, hrun, henter, hne, hscan, htime, hqr₂, hvisit.snoc ⟨hstep, hstay⟩⟩
  fresh := hv.fresh
  scanner := by
    rw [hqr, hv.scanner]
    exact (List.foldl_concat ..).symm
  startedAt := hstart.trans hv.startedAt
  since := Nat.le_trans hv.since hstep.clock_le
  time := by
    intro now hp
    by_cases hu : ∃ u u' u'', h = .update u u' u''
    · -- The update found the time of the scan not over.
      obtain ⟨u, u', u'', rfl⟩ := hu
      obtain ⟨hbefore, hnow⟩ := hp.of_update
      have hlt := hv.time u hbefore
      cases hstep with
      | update _ hle =>
        have hover := update_stays dev (stamp u) (stamp u') (onBridge ({ · with millis := stamp u'' }) s.machine)
          hstay.2.2 hstay.1
        change timeoutElapsed s.machine.context.scanStartedAt _ _ = false at hover
        rw [hv.startedAt] at hover
        have hcount : ¬qrScannerScanTimeoutMs ≤ stamp u - stamp t := of_decide_eq_false hover
        rw [UInt32.le_iff_toNat_le, toNat_stamp_sub (Nat.le_trans hv.since hle)] at hcount
        have h9 : qrScannerScanTimeoutMs.toNat = 9000 := rfl
        omega
    · exact hv.time now (hp.of_other fun t t' t'' h => hu ⟨t, t', t'', h⟩)


theorem Tracked.step (ht : Tracked config dev s₀ s) (hstep : Happens dev s h s') : Tracked config dev s₀ s' where
  reached := by
    obtain ⟨before, hrun⟩ := ht.reached
    exact ⟨before ++ [h], hrun.snoc hstep⟩
  ready hr := hstep.ready (ht.ready (hstep.ready_eq ▸ hr))
  visited := by
    intro hr hscan
    rw [hstep.ready_eq] at hr
    obtain ⟨before, hrun⟩ := ht.reached
    cases hstep.inScan (ht.ready hr) hscan with
    | stays hstay hstart hqr =>
      obtain ⟨t, qr, hs, hv⟩ := ht.visited hr hstay.1
      exact ⟨t, qr, hs ++ [h], hv.step hstep hstay hstart hqr⟩
    | enters hne hstart hle hfresh =>
      refine ⟨h.time, s'.machine.world.1.qr, [], ⟨before, s, h, s', hrun, hstep, hne, hscan, rfl, rfl, .nil⟩, hfresh, rfl,
        hstart, hle, ?_⟩
      intro now hp
      have hp : now < h.time + 2 ^ 31 := hp
      omega

/-- An evaluated code belongs to the visit. -/
theorem Tracked.evaluates (ht : Tracked config dev s₀ s) (hstep : Happens dev s h s') (he : Evaluates s h) :
    ∃ t qr hs, EvaluatedIn config dev s₀ s h s' t qr hs := by
  cases hstep with
  | @scan now t t' t'' e _ hnow hle _ _ hscanned =>
    obtain ⟨e', hscanned', hev⟩ := he
    obtain rfl := Option.some.inj (hscanned.symm.trans hscanned')
    obtain ⟨hstate, hhandled, hready⟩ := scanned_handled hscanned
    obtain ⟨t₀, qr, hs, hv⟩ := ht.visited hready hstate
    have hsince : t₀ ≤ t := Nat.le_trans hv.since (Nat.le_trans hnow hle)
    have hover : timeoutElapsed (stamp t₀) qrScannerScanTimeoutMs (stamp t) = false := by
      rw [← hv.startedAt]
      unfold evaluated at hev
      split at hev
      · rw [hstate] at hev
        contradiction
      · simpa [hstate] using hev
      · simpa [hstate] using hev
      · contradiction
    have hcount : ¬qrScannerScanTimeoutMs ≤ stamp t - stamp t₀ := of_decide_eq_false hover
    rw [UInt32.le_iff_toNat_le, toNat_stamp_sub hsince] at hcount
    refine ⟨t₀, qr, hs, hv, hsince, Nat.lt_of_not_le hcount, fun hp => ?_, processEvent_leaves hstate hhandled⟩
    have hbound := hv.time _ hp
    have h9 : qrScannerScanTimeoutMs.toNat = 9000 := rfl
    change t < _ at hbound
    change t - t₀ < _
    omega
  | silent _ _ _ _ _ hnone =>
    obtain ⟨e, hsome, -⟩ := he
    rw [hnone] at hsome
    contradiction
  | _ => contradiction

/-! ## Verifications -/

/-- Only a scanned code is verified as a packet number. -/
theorem processEvent_verifies {W : Type} (dev : Devices W) (e : BoxEvent) (now millis : UInt32)
    (m : Machine (W × List DeviceCall)) : ∃ calls, (processEvent dev.logged e now millis m).world.2 = m.world.2 ++ calls ∧
      ∀ value door, DeviceCall.verifyCred value .packetNumber door ∈ calls →
        ∃ cred, e = .scannerCodeReceived cred ∧ evaluated now m.context e = true ∧ value = cred.bytes := by
  obtain ⟨m', target, hr, he⟩ := processEvent_reaction dev.logged e now millis m
  obtain ⟨calls, hcalls, hlog⟩ := transitionTo_calls dev target now millis m'
  refine ⟨verifications dev now m e ++ calls, by rw [he, hlog, hr.calls, List.append_assoc], ?_⟩
  intro value door hmem
  rcases List.mem_append.1 hmem with hmem | hmem
  · unfold verifications at hmem
    split at hmem
    swap
    · contradiction
    rename_i hev
    split at hmem
    swap
    · contradiction
    rename_i text credType hp
    obtain ⟨rfl, rfl, -⟩ := DeviceCall.verifyCred.inj (List.mem_singleton.1 hmem)
    cases e with
    | keyboardEnter => simp [presented] at hp
    | scannerCodeReceived cred => exact ⟨cred, rfl, hev, (Prod.mk.inj (Option.some.inj hp)).1.symm⟩
    | _ => contradiction
  · cases hcalls with
    | none => contradiction
    | openDoor => simp at hmem
    | usedCred => simp at hmem

theorem update_verifies {W : Type} (dev : Devices W) (now millis : UInt32) (m : Machine (W × List DeviceCall)) :
    ∃ calls, (update dev.logged now millis m).world.2 = m.world.2 ++ calls ∧
      ∀ value credType door, DeviceCall.verifyCred value credType door ∉ calls := by
  obtain ⟨target, -, hu⟩ := update_elapse dev.logged now millis m
  obtain ⟨calls, hcalls, hlog⟩ := transitionTo_calls dev target now millis (refresh dev.logged now m)
  have hrefresh : (refresh dev.logged now m).world.2 = m.world.2 := (logged_quiet dev).refresh m
  refine ⟨calls, by rw [hu, hlog, hrefresh], ?_⟩
  intro value credType door hmem
  cases hcalls with
  | none => contradiction
  | openDoor => simp at hmem
  | usedCred => simp at hmem

theorem Tracked.verifies (ht : Tracked config dev s₀ s) (hstep : Happens dev s h s') (hown : OwnCode h)
    {value : List UInt8} {door : UInt8} (hmem : DeviceCall.verifyCred value .packetNumber door ∈ newCalls s s') :
    ∃ t qr hs, EvaluatedIn config dev s₀ s h s' t qr hs ∧ FrameOf config s h hs value := by
  have hsame : s'.machine.world.2 = s.machine.world.2 → False := fun hlog => by
    rw [newCalls_of_append (hlog.trans (List.append_nil _).symm)] at hmem
    contradiction
  have hwhole := hstep
  cases hstep with
  | event =>
    obtain ⟨calls, hlog, hcalls⟩ := processEvent_verifies (attach dev) _ (stamp _) (stamp _)
      (onBridge ({ · with millis := stamp _ }) s.machine)
    rw [newCalls_of_append hlog] at hmem
    obtain ⟨cred, rfl, -, -⟩ := hcalls _ _ hmem
    exact hown.elim
  | update =>
    obtain ⟨calls, hlog, hcalls⟩ := update_verifies (attach dev) (stamp _) (stamp _)
      (onBridge ({ · with millis := stamp _ }) s.machine)
    rw [newCalls_of_append hlog] at hmem
    exact absurd hmem (hcalls _ _ _)
  | @scan now t t' t'' e _ _ _ _ _ hscanned =>
    obtain ⟨calls, hlog, hcalls⟩ := processEvent_verifies (attach dev) e (stamp t) (stamp t')
      (onBridge ({ · with millis := stamp t'' }) (polled now s.machine))
    rw [newCalls_of_append hlog] at hmem
    obtain ⟨cred, rfl, hev, rfl⟩ := hcalls _ _ hmem
    obtain ⟨hdata, hmin, hmax, htext⟩ := scanned_code hscanned
    obtain ⟨t₀, qr, hs, hin⟩ := ht.evaluates hwhole ⟨_, hscanned, hev⟩
    obtain ⟨hc, ha, hreceived⟩ := replay_received hin.visited.fresh hs
    rw [← hin.visited.scanner] at hc hreceived
    -- The data of the event is a frame of the bytes that arrived since the scan began.
    have hframed : QrScanner.Framed config (hs.flatMap arriving) cred.bytes := by
      rw [hdata, ← hc]
      refine (QrScanner.update_receives (stamp now) hreceived).delivers.resolve_left fun hempty => ?_
      rw [hdata, hempty] at hmin
      contradiction
    exact ⟨t₀, qr, hs, hin, ⟨now, t, t', t'', rfl, hdata⟩, hframed, hmin, hmax, htext⟩
  | silent => exact (hsame rfl).elim
  | callback =>
    obtain ⟨calls, hlog, hcalls⟩ := processEvent_verifies (attach dev) .scannerFailed (stamp _) (stamp _)
      (onBridge ({ · with millis := stamp _ }) (onBridge ({ · with failed := false }) s.machine))
    rw [newCalls_of_append hlog] at hmem
    obtain ⟨_, hno, -⟩ := hcalls _ _ hmem
    contradiction
  | receive => exact (hsame rfl).elim
  | elsewhere => exact (hsame rfl).elim

/-! ## Runs -/

variable {happenings : List (Happening V)}

end OrangeBox.Scanner
