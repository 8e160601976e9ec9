import OrangeBox.Scanner.QrScanner
/-!
# Frames

What a frame event carries is a run of consecutive received bytes without a
terminator, less the blanks around it. `Received bytes s` says that `bytes` are
all the bytes received since a scan was started: the ones already done with, the
frame being received, and the input that is still to be read.
-/

namespace OrangeBox.Scanner.QrScanner

variable {s s' : QrScanner} {value : UInt8} {now timeoutMs : UInt32} {bytes data : List UInt8} {event : QrScannerEvent}

/-! ## The hardware -/

/-- A step that leaves what is received alone. -/
structure KeepsInput (s s' : QrScanner) : Prop where
  config : s'.config = s.config
  attached : s'.attached = s.attached
  input : s'.input = s.input
  rxFrame : s'.rxFrame = s.rxFrame
  lastByteMillis : s'.lastByteMillis = s.lastByteMillis
  lastFrame : s'.lastFrame = s.lastFrame

theorem KeepsInput.refl (s : QrScanner) : KeepsInput s s := ⟨rfl, rfl, rfl, rfl, rfl, rfl⟩

theorem KeepsInput.trans {s'' : QrScanner} (h : KeepsInput s s') (h' : KeepsInput s' s'') : KeepsInput s s'' :=
  ⟨h'.config.trans h.config, h'.attached.trans h.attached, h'.input.trans h.input, h'.rxFrame.trans h.rxFrame,
    h'.lastByteMillis.trans h.lastByteMillis, h'.lastFrame.trans h.lastFrame⟩

theorem setSwitchActive_keeps (active : Bool) (s : QrScanner) : KeepsInput s (setSwitchActive active s) := by
  unfold setSwitchActive
  split <;> exact ⟨rfl, rfl, rfl, rfl, rfl, rfl⟩

theorem writeCommand_keeps (command : List UInt8) (s : QrScanner) : KeepsInput s (writeCommand command s) := by
  unfold writeCommand
  split <;> exact ⟨rfl, rfl, rfl, rfl, rfl, rfl⟩

theorem activateHardware_keeps (s : QrScanner) : KeepsInput s (activateHardware s) := by
  have hswitch : KeepsInput s (if usesSwitch s.config.activationMode then setSwitchActive true s else s) := by
    split
    · exact setSwitchActive_keeps _ _
    · exact .refl s
  unfold activateHardware
  dsimp only
  generalize (if usesSwitch s.config.activationMode then setSwitchActive true s else s) = r at hswitch ⊢
  split
  · exact hswitch.trans (writeCommand_keeps _ _)
  · exact hswitch

theorem deactivateHardware_keeps (s : QrScanner) : KeepsInput s (deactivateHardware s) := by
  unfold deactivateHardware
  dsimp only
  split
  · exact (writeCommand_keeps _ s).trans (setSwitchActive_keeps _ _)
  · exact writeCommand_keeps _ s

theorem deactivateAfterTerminalEvent_keeps (s : QrScanner) : KeepsInput s (deactivateAfterTerminalEvent s) := by
  obtain ⟨hc, ha, hi, hr, hb, hl⟩ := deactivateHardware_keeps s
  exact ⟨hc, ha, hi, hr, hb, hl⟩

theorem deactivate_keeps (s : QrScanner) : KeepsInput s s.deactivate := by
  obtain ⟨hc, ha, hi, hr, hb, hl⟩ := deactivateHardware_keeps s
  exact ⟨hc, ha, hi, hr, hb, hl⟩

/-! ## What is received -/

/-- The byte ends a frame. -/
def Terminates (config : QrScannerConfig) (value : UInt8) : Prop := config.frameTerminators.contains value = true

/-- `bytes` are the bytes received so far, of which `left` are still to be read. -/
structure Received (bytes left : List UInt8) (s : QrScanner) : Prop where
  split : ∃ done, bytes = done ++ s.rxFrame ++ left
  clean : ∀ value ∈ s.rxFrame, ¬Terminates s.config value
  short : s.rxFrame.length ≤ qrScannerMaxFrameLen

/-- The data of a frame: a run of received bytes without a terminator, less the
blanks around it. -/
def Framed (config : QrScannerConfig) (bytes data : List UInt8) : Prop :=
  ∃ done frame rest, bytes = done ++ frame ++ rest ∧ (∀ value ∈ frame, ¬Terminates config value) ∧
    data = if config.trimFrames then (frame.dropWhile isBlank).rdropWhile isBlank else frame

/-- The event carries nothing, or a frame. -/
def Delivers (config : QrScannerConfig) (bytes : List UInt8) (event : QrScannerEvent) : Prop :=
  event.data = [] ∨ Framed config bytes event.data

variable {left : List UInt8}

theorem Received.keep (h : Received bytes left s) (hk : KeepsInput s s') : Received bytes left s' where
  split := by rw [hk.rxFrame]; exact h.split
  clean := by rw [hk.rxFrame, hk.config]; exact h.clean
  short := by rw [hk.rxFrame]; exact h.short

theorem Received.arrive (h : Received bytes left s) (more : List UInt8) : Received (bytes ++ more) (left ++ more) s where
  split := by
    obtain ⟨done, hd⟩ := h.split
    exact ⟨done, by rw [hd, List.append_assoc _ left]⟩
  clean := h.clean
  short := h.short

/-- Dropping the frame that is being received. -/
theorem Received.drop (h : Received bytes left s) : Received bytes left { s with rxFrame := [] } where
  split := by
    obtain ⟨done, hd⟩ := h.split
    exact ⟨done ++ s.rxFrame, by rw [hd, List.append_nil]⟩
  clean := by simp
  short := Nat.zero_le _

/-- A byte between two frames is done with. -/
theorem Received.skip (h : Received bytes (value :: left) s) (he : s.rxFrame = []) : Received bytes left s where
  split := by
    obtain ⟨done, hd⟩ := h.split
    exact ⟨done ++ [value], by rw [hd, he]; simp⟩
  clean := h.clean
  short := h.short

theorem trimFrame_length_le (s : QrScanner) (data : List UInt8) : (trimFrame data s).length ≤ data.length := by
  unfold trimFrame
  split
  · exact Nat.le_trans (List.IsPrefix.length_le (List.rdropWhile_prefix _ _))
      (List.IsSuffix.length_le (List.dropWhile_suffix _))
  · exact Nat.le_refl _

/-- What finalizing a frame leaves. -/
theorem finalizeFrame_state (s : QrScanner) : (finalizeFrame s).2.config = s.config ∧
    (finalizeFrame s).2.attached = s.attached ∧ (finalizeFrame s).2.input = s.input ∧
      (finalizeFrame s).2.rxFrame = [] := by
  unfold finalizeFrame
  dsimp only
  split
  · exact ⟨rfl, rfl, rfl, rfl⟩
  split
  · exact ⟨rfl, rfl, rfl, rfl⟩
  · exact ⟨rfl, rfl, rfl, rfl⟩
  · have hk := deactivateAfterTerminalEvent_keeps
      (makeFrameEvent .codeReceived (trimFrame s.rxFrame s) { s with rxFrame := [] }).2
    exact ⟨hk.config, hk.attached, hk.input, hk.rxFrame⟩
  · exact ⟨rfl, rfl, rfl, rfl⟩

/-- A finished frame is delivered, or was blank. -/
theorem finalizeFrame_delivers (h : Received bytes left s) : Delivers s.config bytes (finalizeFrame s).1 := by
  have htake : (trimFrame s.rxFrame s).take qrScannerMaxFrameLen = trimFrame s.rxFrame s :=
    List.take_of_length_le (Nat.le_trans (trimFrame_length_le s _) h.short)
  obtain ⟨done, hd⟩ := h.split
  have hframed : Framed s.config bytes ((trimFrame s.rxFrame s).take qrScannerMaxFrameLen) :=
    ⟨done, s.rxFrame, left, hd, h.clean, by rw [htake]; rfl⟩
  unfold finalizeFrame
  dsimp only
  split
  · exact .inl rfl
  split <;> exact .inr hframed

theorem finalizeFrame_received (h : Received bytes left s) : Received bytes left (finalizeFrame s).2 := by
  obtain ⟨-, -, -, hr⟩ := finalizeFrame_state s
  refine ⟨?_, by simp [hr], by simp [hr]⟩
  rw [hr]
  exact h.drop.split

/-- What a step of the receiver keeps, and what its event carries. -/
structure Receives (bytes left : List UInt8) (s : QrScanner) (r : QrScannerEvent × QrScanner) : Prop where
  received : Received bytes left r.2
  config : r.2.config = s.config
  attached : r.2.attached = s.attached
  delivers : Delivers s.config bytes r.1

/-- One byte goes into the frame, or ends it. -/
theorem processByte_receives (now : UInt32) (h : Received bytes (value :: left) s) :
    Receives bytes left s (processByte value now s) := by
  have h' : Received bytes (value :: left) { s with lastByteMillis := now } := ⟨h.split, h.clean, h.short⟩
  unfold processByte
  dsimp only
  split
  · rename_i hterm
    split
    · rename_i hempty
      exact ⟨h'.skip (List.eq_nil_of_length_eq_zero hempty), rfl, rfl, .inl rfl⟩
    · obtain ⟨hc, ha, -, hr⟩ := finalizeFrame_state { s with lastByteMillis := now }
      exact ⟨(finalizeFrame_received h').skip hr, hc, ha, finalizeFrame_delivers h'⟩
  · rename_i hterm
    split
    · exact ⟨h'.drop.skip rfl, rfl, rfl, .inl rfl⟩
    · rename_i hshort
      obtain ⟨done, hd⟩ := h.split
      refine ⟨⟨⟨done, ?_⟩, fun b hb => ?_, ?_⟩, rfl, rfl, .inl rfl⟩
      · rw [hd, List.append_assoc, List.append_assoc, List.append_assoc]
        rfl
      · rcases List.mem_append.1 hb with hb | hb
        · exact h.clean b hb
        · rw [List.mem_singleton.1 hb]
          exact hterm
      · rw [List.length_append, List.length_singleton]
        omega

theorem readBytes_receives (now : UInt32) (h : Received bytes left s) :
    Receives bytes (readBytes now left s).2.input s (readBytes now left s) := by
  induction left generalizing s with
  | nil => exact ⟨⟨h.split, h.clean, h.short⟩, rfl, rfl, .inl rfl⟩
  | cons value rest ih =>
    obtain ⟨hr, hc, ha, hd⟩ := processByte_receives now h
    unfold readBytes
    dsimp only
    split
    · exact ⟨⟨hr.split, hr.clean, hr.short⟩, hc, ha, hd⟩
    · obtain ⟨hr', hc', ha', hd'⟩ := ih hr
      exact ⟨hr', hc'.trans hc, ha'.trans ha, hc ▸ hd'⟩

theorem updateTimeouts_receives (now : UInt32) (h : Received bytes s.input s) :
    Receives bytes (updateTimeouts now s).2.input s (updateTimeouts now s) := by
  unfold updateTimeouts
  split
  · obtain ⟨hc, ha, hi, -⟩ := finalizeFrame_state s
    exact ⟨hi ▸ finalizeFrame_received h, hc, ha, finalizeFrame_delivers h⟩
  dsimp only
  have hwait : KeepsInput s (if s.currentState = .waitingActivationResponse
      && timeoutElapsed s.responseStartedAt s.responseTimeoutMs now then { s with currentState := .waitingCode } else s) := by
    split <;> exact ⟨rfl, rfl, rfl, rfl, rfl, rfl⟩
  generalize (if s.currentState = .waitingActivationResponse
      && timeoutElapsed s.responseStartedAt s.responseTimeoutMs now then { s with currentState := .waitingCode } else s) = r
    at hwait ⊢
  have hr : Received bytes r.input r := hwait.input ▸ h.keep hwait
  split
  · exact ⟨⟨hr.split, hr.clean, hr.short⟩, hwait.config, hwait.attached, .inl rfl⟩
  split
  · have hk := deactivateAfterTerminalEvent_keeps r
    exact ⟨hk.input ▸ hr.keep hk, hk.config.trans hwait.config, hk.attached.trans hwait.attached, .inl rfl⟩
  · exact ⟨hr, hwait.config, hwait.attached, .inl rfl⟩

/-- One call of `update`. -/
theorem update_receives (now : UInt32) (h : Received bytes s.input s) :
    Receives bytes (update now s).2.input s (update now s) := by
  unfold update
  split
  · exact ⟨⟨h.split, h.clean, h.short⟩, rfl, rfl, .inl rfl⟩
  split
  · exact ⟨h, rfl, rfl, .inl rfl⟩
  dsimp only
  have hread := readBytes_receives now h
  split
  · exact hread
  · have htime := updateTimeouts_receives now hread.received
    exact ⟨htime.received, htime.config.trans hread.config, htime.attached.trans hread.attached, hread.config ▸ htime.delivers⟩

/-! ## A new scan -/

/-- A scanner that was just started: nothing is received, and the first call of
`update` reads nothing. -/
structure Fresh (config : QrScannerConfig) (s : QrScanner) : Prop where
  config : s.config = config
  attached : s.attached = true
  input : s.input = []
  rxFrame : s.rxFrame = []
  lastByteMillis : s.lastByteMillis = 0
  lastFrame : s.lastFrame = []
  pendingEvent : s.pendingEvent = .activated

theorem startScan_fresh (timeoutMs now : UInt32) (ha : s.attached = true) (hi : s.input = []) :
    (startScan timeoutMs now s).1 = true ∧ Fresh s.config (startScan timeoutMs now s).2 := by
  have hstop : KeepsInput s (if s.scanActive then deactivateAfterTerminalEvent s else s) := by
    split
    · exact deactivateAfterTerminalEvent_keeps s
    · exact .refl s
  unfold startScan
  rw [if_neg (by simp [ha])]
  dsimp only
  generalize (if s.scanActive then deactivateAfterTerminalEvent s else s) = r at hstop ⊢
  have hk := activateHardware_keeps (resetReceiver r)
  exact ⟨rfl, hk.config.trans hstop.config, hk.attached.trans (hstop.attached.trans ha),
    hk.input.trans (hstop.input.trans hi), hk.rxFrame, hk.lastByteMillis, hk.lastFrame, rfl⟩

theorem Fresh.received {config : QrScannerConfig} (h : Fresh config s) : Received [] s.input s where
  split := ⟨[], by rw [h.rxFrame, h.input]; rfl⟩
  clean := by simp [h.rxFrame]
  short := by simp [h.rxFrame]

end OrangeBox.Scanner.QrScanner
