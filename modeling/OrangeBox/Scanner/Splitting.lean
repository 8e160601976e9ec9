import OrangeBox.Scanner.Frames
/-!
# Splitting into frames

What the scanner should make of a stream: the stream is cut at the terminators
and at the gaps the scanner notices, and every run between two cuts is one
frame. The code keeps to it except where a run is longer than the frame buffer:
after the overflow it goes on collecting, so the end of such a run comes out as
a frame of its own.
-/

namespace OrangeBox.Scanner.QrScanner

/-! ## The splitter -/

/-- What cuts the stream up, in the order it is read. -/
inductive Mark where
  | byte (value : UInt8)
  | gap
  deriving DecidableEq, Repr

/-- The runs that are over, and the one that is going on. -/
structure Splitting where
  runs : List (List UInt8)
  current : List UInt8
  deriving DecidableEq, Repr

namespace Splitting

def close (r : Splitting) : Splitting := ⟨r.runs ++ [r.current], []⟩

def mark (config : QrScannerConfig) (r : Splitting) : Mark → Splitting
  | .byte value =>
    if config.frameTerminators.contains value then r.close else { r with current := r.current ++ [value] }
  | .gap => r.close

end Splitting

def splitting (config : QrScannerConfig) (marks : List Mark) : Splitting :=
  marks.foldl (Splitting.mark config) ⟨[], []⟩

/-- What comes out of the receiver. -/
inductive Out where
  | frame (data : List UInt8)
  | overflow
  deriving DecidableEq, Repr

def frames (outs : List Out) : List (List UInt8) :=
  outs.filterMap fun
    | .frame data => some data
    | .overflow => none

def trimmed (config : QrScannerConfig) (run : List UInt8) : List UInt8 :=
  if config.trimFrames then (run.dropWhile isBlank).rdropWhile isBlank else run

/-- The frame in a run, if it is not blank. -/
def payload (config : QrScannerConfig) (run : List UInt8) : List (List UInt8) :=
  if trimmed config run = [] then [] else [trimmed config run]

/-- What a run should come to. -/
structure Answers (config : QrScannerConfig) (run : List UInt8) (outs : List Out) : Prop where
  short : run.length ≤ qrScannerMaxFrameLen → outs = (payload config run).map .frame
  long : qrScannerMaxFrameLen < run.length → frames outs = [] ∧ .overflow ∈ outs

/-- What the run that is going on should have come to. -/
structure Awaits (run : List UInt8) (outs : List Out) : Prop where
  short : run.length ≤ qrScannerMaxFrameLen → outs = []
  long : qrScannerMaxFrameLen < run.length → frames outs = [] ∧ .overflow ∈ outs

/-- Every run has what it should come to, run after run. -/
def Splits (config : QrScannerConfig) (r : Splitting) (outs : List Out) : Prop :=
  ∃ parts last, outs = parts.flatten ++ last ∧ List.Forall₂ (Answers config) r.runs parts ∧ Awaits r.current last

/-! ## The scanner, watched -/

/-- Between two resets of the receiver. -/
inductive Feed where
  | arrive (bytes : List UInt8)
  | update (now : UInt32)
  | deactivate
  deriving Repr

def outOf (event : QrScannerEvent) : List Out :=
  match event.type with
  | .rxOverflow => [.overflow]
  | .activationResponse | .commandResponse | .codeReceived | .unexpectedFrame => [.frame event.data]
  | _ => []

/-- A scanner with what it has read, when it last read something, and what has
come out of it. -/
structure Reading where
  scanner : QrScanner
  heard : UInt32
  marks : List Mark
  outs : List Out

namespace Reading

def started (s : QrScanner) : Reading := ⟨s, 0, [], []⟩

/-- `update` looks at the receiver, finds nothing, and the gap is long enough. -/
def seesGap (now : UInt32) (r : Reading) : Bool :=
  r.scanner.pendingEvent = .none && r.scanner.attached && r.scanner.config.frameIdleMs > 0
    && timeoutElapsed r.heard r.scanner.config.frameIdleMs now

/-- What `update` took from the input. -/
def taken (now : UInt32) (r : Reading) : List UInt8 :=
  r.scanner.input.take (r.scanner.input.length - (r.scanner.update now).2.input.length)

def feed (r : Reading) : Feed → Reading
  | .arrive bytes => { r with scanner := { r.scanner with input := r.scanner.input ++ bytes } }
  | .update now =>
    { scanner := (r.scanner.update now).2
      heard := if r.taken now = [] then r.heard else now
      marks := r.marks ++ if r.taken now = [] then (if r.seesGap now then [.gap] else []) else (r.taken now).map .byte
      outs := r.outs ++ outOf (r.scanner.update now).1 }
  | .deactivate => { r with scanner := r.scanner.deactivate }

end Reading

/-- A scanner that was fed. -/
def fed (s : QrScanner) (feeds : List Feed) : Reading := feeds.foldl Reading.feed (.started s)

/-- A receiver that was just reset. -/
structure Reset (s : QrScanner) : Prop where
  rxFrame : s.rxFrame = []
  lastByteMillis : s.lastByteMillis = 0
  pendingEvent : s.pendingEvent = .none ∨ s.pendingEvent = .activated ∨ s.pendingEvent = .deactivated

variable {s s' : QrScanner} {config : QrScannerConfig} {r : Splitting} {outs : List Out} {run : List UInt8}
  {value : UInt8} {now : UInt32}

/-! ## What the receiver makes of a run -/

/-- One more byte than the buffer holds: these go with every overflow. -/
abbrev overflowSpan : Nat := qrScannerMaxFrameLen + 1

/-- What is in the buffer after the bytes of a run. -/
def remainder (run : List UInt8) : List UInt8 := run.drop (overflowSpan * (run.length / overflowSpan))

/-- What the scanner makes of a run. -/
def emits (config : QrScannerConfig) (run : List UInt8) : List Out :=
  List.replicate (run.length / overflowSpan) .overflow ++ (payload config (remainder run)).map .frame

theorem payload_nil (config : QrScannerConfig) : payload config [] = [] := by simp [payload, trimmed]

theorem remainder_length (run : List UInt8) : (remainder run).length = run.length % overflowSpan := by
  rw [remainder, List.length_drop]
  dsimp only [overflowSpan, qrScannerMaxFrameLen]
  omega

theorem div_overflowSpan_of_short (h : run.length ≤ qrScannerMaxFrameLen) : run.length / overflowSpan = 0 :=
  Nat.div_eq_of_lt (Nat.lt_succ_of_le h)

theorem div_overflowSpan_pos (h : qrScannerMaxFrameLen < run.length) : 0 < run.length / overflowSpan :=
  Nat.div_pos h (Nat.succ_pos _)

theorem remainder_of_short (h : run.length ≤ qrScannerMaxFrameLen) : remainder run = run := by
  rw [remainder, div_overflowSpan_of_short h]
  rfl

/-- A byte that still fits into the buffer. -/
theorem remainder_push (value : UInt8) (h : (remainder run).length < qrScannerMaxFrameLen) :
    remainder (run ++ [value]) = remainder run ++ [value] ∧
      (run ++ [value]).length / overflowSpan = run.length / overflowSpan := by
  rw [remainder_length] at h
  have hdiv : (run ++ [value]).length / overflowSpan = run.length / overflowSpan := by
    rw [List.length_append, List.length_singleton]
    dsimp only [overflowSpan, qrScannerMaxFrameLen] at h ⊢
    omega
  refine ⟨?_, hdiv⟩
  rw [remainder, hdiv, List.drop_append_of_le_length (Nat.mul_div_le _ _)]
  rfl

/-- The byte that makes the buffer overflow. -/
theorem remainder_full (value : UInt8) (h : qrScannerMaxFrameLen ≤ (remainder run).length) :
    remainder (run ++ [value]) = [] ∧ (run ++ [value]).length / overflowSpan = run.length / overflowSpan + 1 := by
  rw [remainder_length] at h
  have hdiv : (run ++ [value]).length / overflowSpan = run.length / overflowSpan + 1 := by
    rw [List.length_append, List.length_singleton]
    dsimp only [overflowSpan, qrScannerMaxFrameLen] at h ⊢
    omega
  refine ⟨?_, hdiv⟩
  rw [remainder, hdiv]
  apply List.drop_eq_nil_of_le
  rw [List.length_append, List.length_singleton]
  dsimp only [overflowSpan, qrScannerMaxFrameLen] at h ⊢
  omega

/-! ## What the scanner does -/

/-- The scanner is where the splitter is. -/
structure Follows (config : QrScannerConfig) (r : Splitting) (outs : List Out) (s : QrScanner) : Prop where
  configured : s.config = config
  rxFrame : s.rxFrame = remainder r.current
  outs : outs = r.runs.flatMap (emits config) ++ List.replicate (r.current.length / overflowSpan) .overflow

theorem Follows.keep (h : Follows config r outs s) (hk : KeepsInput s s') : Follows config r outs s' where
  configured := hk.config.trans h.configured
  rxFrame := hk.rxFrame.trans h.rxFrame
  outs := h.outs

theorem Follows.length_le (h : Follows config r outs s) : s.rxFrame.length ≤ qrScannerMaxFrameLen := by
  rw [h.rxFrame, remainder_length]
  exact Nat.le_of_lt_succ (Nat.mod_lt _ (Nat.succ_pos _))

/-- A cut: what is in the buffer comes out. -/
theorem Follows.close (h : Follows config r outs s) (hc : s'.config = config) (hr : s'.rxFrame = []) :
    Follows config r.close (outs ++ (payload config s.rxFrame).map .frame) s' where
  configured := hc
  rxFrame := hr.trans List.drop_nil.symm
  outs := by
    rw [h.outs, h.rxFrame]
    simp [Splitting.close, emits]

/-- A cut with nothing in the buffer. -/
theorem Follows.close_empty (h : Follows config r outs s) (hr : s.rxFrame = []) : Follows config r.close outs s := by
  have hclose := h.close h.configured hr
  rw [hr, payload_nil, List.map_nil, List.append_nil] at hclose
  exact hclose

/-- What no step of the receiver changes. -/
structure Same (s s' : QrScanner) : Prop where
  attached : s'.attached = s.attached
  input : s'.input = s.input
  lastByteMillis : s'.lastByteMillis = s.lastByteMillis
  pendingEvent : s'.pendingEvent = s.pendingEvent

theorem deactivateHardware_pendingEvent (s : QrScanner) : (deactivateHardware s).pendingEvent = s.pendingEvent := by
  have hwrite : (writeCommand s.config.deactivateCommand s).pendingEvent = s.pendingEvent := by
    unfold writeCommand
    split <;> rfl
  unfold deactivateHardware setSwitchActive
  dsimp only
  split
  · split <;> exact hwrite
  · exact hwrite

theorem deactivateAfterTerminalEvent_same (s : QrScanner) : Same s (deactivateAfterTerminalEvent s) := by
  have hk := deactivateAfterTerminalEvent_keeps s
  exact ⟨hk.attached, hk.input, hk.lastByteMillis, deactivateHardware_pendingEvent s⟩

theorem finalizeFrame_same (s : QrScanner) : Same s (finalizeFrame s).2 := by
  unfold finalizeFrame
  dsimp only
  split
  · exact ⟨rfl, rfl, rfl, rfl⟩
  split
  · exact ⟨rfl, rfl, rfl, rfl⟩
  · exact ⟨rfl, rfl, rfl, rfl⟩
  · obtain ⟨ha, hi, hl, hp⟩ := deactivateAfterTerminalEvent_same
      (makeFrameEvent .codeReceived (trimFrame s.rxFrame s) { s with rxFrame := [] }).2
    exact ⟨ha, hi, hl, hp⟩
  · exact ⟨rfl, rfl, rfl, rfl⟩

/-- What is in the buffer comes out as one frame, unless it is blank. -/
theorem finalizeFrame_out (hs : s.rxFrame.length ≤ qrScannerMaxFrameLen) :
    outOf (finalizeFrame s).1 = (payload s.config s.rxFrame).map .frame := by
  have htake : (trimFrame s.rxFrame s).take qrScannerMaxFrameLen = trimFrame s.rxFrame s :=
    List.take_of_length_le (Nat.le_trans (trimFrame_length_le s _) hs)
  have htrim : trimmed s.config s.rxFrame = trimFrame s.rxFrame s := rfl
  unfold finalizeFrame payload
  rw [htrim]
  dsimp only
  split
  · rename_i hblank
    rw [if_pos (List.eq_nil_of_length_eq_zero hblank)]
    rfl
  · rename_i hframe
    rw [if_neg fun hnil => hframe (by rw [hnil]; rfl)]
    split <;> simp [makeFrameEvent, outOf, htake]

/-- Finishing a frame closes the run. -/
theorem finalizeFrame_follows (h : Follows config r outs s) :
    Follows config r.close (outs ++ outOf (finalizeFrame s).1) (finalizeFrame s).2 := by
  obtain ⟨hc, -, -, hr⟩ := finalizeFrame_state s
  rw [finalizeFrame_out h.length_le, h.configured]
  exact h.close (hc.trans h.configured) hr

/-- A byte goes to the splitter as it goes to the buffer. -/
theorem processByte_follows (value : UInt8) (now : UInt32) (h : Follows config r outs s) :
    Follows config (r.mark config (.byte value)) (outs ++ outOf (processByte value now s).1) (processByte value now s).2 := by
  have h' : Follows config r outs { s with lastByteMillis := now } := ⟨h.configured, h.rxFrame, h.outs⟩
  have hterm : isTerminator value { s with lastByteMillis := now } = config.frameTerminators.contains value := by
    rw [← h.configured]
    rfl
  unfold processByte Splitting.mark
  dsimp only
  rw [hterm]
  split
  · split
    · rename_i hempty
      have hclose := h'.close_empty (List.eq_nil_of_length_eq_zero hempty)
      exact ⟨hclose.configured, hclose.rxFrame, (List.append_nil _).trans hclose.outs⟩
    · exact finalizeFrame_follows h'
  · split
    · rename_i hfull
      rw [h.rxFrame] at hfull
      obtain ⟨hrem, hdiv⟩ := remainder_full value hfull
      refine ⟨h.configured, hrem.symm, ?_⟩
      rw [hdiv, h.outs, List.replicate_succ', List.append_assoc]
      rfl
    · rename_i hfits
      rw [h.rxFrame] at hfits
      obtain ⟨hrem, hdiv⟩ := remainder_push value (Nat.lt_of_not_le hfits)
      refine ⟨h.configured, ?_, ?_⟩
      · rw [hrem, ← h.rxFrame]
      · rw [hdiv, h.outs]
        exact List.append_nil _

theorem processByte_same (value : UInt8) (now : UInt32) (s : QrScanner) :
    Same { s with lastByteMillis := now } (processByte value now s).2 := by
  unfold processByte
  dsimp only
  split
  · split
    · exact ⟨rfl, rfl, rfl, rfl⟩
    · exact finalizeFrame_same _
  · split <;> exact ⟨rfl, rfl, rfl, rfl⟩

@[simp] theorem outOf_none {event : QrScannerEvent} (h : event.type = .none) : outOf event = [] := by simp [outOf, h]

/-- The bytes that `readBytes` takes from the input. -/
structure Reads (config : QrScannerConfig) (r : Splitting) (outs : List Out) (now : UInt32) (left : List UInt8)
    (s : QrScanner) (taken : List UInt8) (result : QrScannerEvent × QrScanner) : Prop where
  input : left = taken ++ result.2.input
  follows : Follows config ((taken.map Mark.byte).foldl (Splitting.mark config) r) (outs ++ outOf result.1) result.2
  attached : result.2.attached = s.attached
  pendingEvent : result.2.pendingEvent = s.pendingEvent
  lastByteMillis : result.2.lastByteMillis = if taken = [] then s.lastByteMillis else now
  none : taken = [] → result.1.type = .none

theorem readBytes_reads (now : UInt32) (left : List UInt8) (h : Follows config r outs s) :
    ∃ taken, Reads config r outs now left s taken (readBytes now left s) := by
  induction left generalizing r outs s with
  | nil => exact ⟨[], rfl, ⟨h.configured, h.rxFrame, (List.append_nil _).trans h.outs⟩, rfl, rfl, rfl, fun _ => rfl⟩
  | cons value rest ih =>
    have hbyte := processByte_follows value now h
    obtain ⟨ha, -, hl, hp⟩ := processByte_same value now s
    unfold readBytes
    dsimp only
    split
    · exact ⟨[value], rfl, ⟨hbyte.configured, hbyte.rxFrame, hbyte.outs⟩, ha, hp, hl, fun hnil => absurd hnil (List.cons_ne_nil _ _)⟩
    · rename_i hnone
      rw [outOf_none (not_not.1 hnone), List.append_nil] at hbyte
      obtain ⟨taken, hi, hf, ha', hp', hl', -⟩ := ih hbyte
      refine ⟨value :: taken, congrArg (value :: ·) hi, hf, ha'.trans ha, hp'.trans hp, ?_,
        fun hnil => absurd hnil (List.cons_ne_nil _ _)⟩
      rw [hl', if_neg (List.cons_ne_nil _ _)]
      split
      · exact hl
      · rfl

/-- The scanner sees that nothing has come for long enough. -/
def idle (now : UInt32) (s : QrScanner) : Bool :=
  s.config.frameIdleMs > 0 && timeoutElapsed s.lastByteMillis s.config.frameIdleMs now

/-- Nothing is over at the moment a byte is read. -/
theorem idle_of_read (h : s.lastByteMillis = now) : idle now s = false := by
  unfold idle timeoutElapsed
  rw [h, UInt32.sub_self]
  by_cases hz : s.config.frameIdleMs = 0
  · simp [hz]
  · simpa using fun _ => hz

/-- Seeing a gap closes the run, be there something in the buffer or not. -/
theorem updateTimeouts_follows (now : UInt32) (h : Follows config r outs s) : Same s (updateTimeouts now s).2 ∧
    Follows config (if idle now s then r.close else r) (outs ++ outOf (updateTimeouts now s).1) (updateTimeouts now s).2 := by
  have hfollows : s.rxFrame.length = 0 ∨ idle now s = false → Follows config (if idle now s then r.close else r) outs s := by
    intro hquiet
    split
    · rename_i hidle
      exact h.close_empty (List.eq_nil_of_length_eq_zero (hquiet.resolve_right (by simp [hidle])))
    · exact h
  unfold updateTimeouts
  split
  · rename_i hover
    rw [Bool.and_assoc, Bool.and_eq_true] at hover
    rw [if_pos (show idle now s = true from hover.2)]
    exact ⟨finalizeFrame_same s, finalizeFrame_follows h⟩
  rename_i hover
  have hstays := hfollows (by
    rw [Bool.and_assoc, Bool.and_eq_true, not_and, decide_eq_true_eq] at hover
    rcases Nat.eq_zero_or_pos s.rxFrame.length with hz | hpos
    · exact .inl hz
    · exact .inr (Bool.eq_false_iff.2 (hover hpos)))
  generalize (if idle now s then r.close else r) = r' at hstays ⊢
  dsimp only
  have hwait : Same s (if s.currentState = .waitingActivationResponse
      && timeoutElapsed s.responseStartedAt s.responseTimeoutMs now then { s with currentState := .waitingCode } else s) ∧
      KeepsInput s (if s.currentState = .waitingActivationResponse
      && timeoutElapsed s.responseStartedAt s.responseTimeoutMs now then { s with currentState := .waitingCode } else s) := by
    split <;> exact ⟨⟨rfl, rfl, rfl, rfl⟩, rfl, rfl, rfl, rfl, rfl, rfl⟩
  generalize (if s.currentState = .waitingActivationResponse
      && timeoutElapsed s.responseStartedAt s.responseTimeoutMs now then { s with currentState := .waitingCode } else s) = w
    at hwait ⊢
  obtain ⟨hsame, hkeep⟩ := hwait
  have hw := hstays.keep hkeep
  split
  · exact ⟨⟨hsame.attached, hsame.input, hsame.lastByteMillis, hsame.pendingEvent⟩,
      hw.configured, hw.rxFrame, (List.append_nil _).trans hw.outs⟩
  split
  · obtain ⟨ha, hi, hl, hp⟩ := deactivateAfterTerminalEvent_same w
    have hd := hw.keep (deactivateAfterTerminalEvent_keeps w)
    exact ⟨⟨ha.trans hsame.attached, hi.trans hsame.input, hl.trans hsame.lastByteMillis, hp.trans hsame.pendingEvent⟩,
      hd.configured, hd.rxFrame, (List.append_nil _).trans hd.outs⟩
  · exact ⟨hsame, hw.configured, hw.rxFrame, (List.append_nil _).trans hw.outs⟩

/-- The only events that are ever left for the next `update`. -/
def Quiet (event : QrScannerEventType) : Prop := event = .none ∨ event = .activated ∨ event = .deactivated

theorem outOf_quiet {event : QrScannerEventType} (h : Quiet event) : outOf (makeEvent event) = [] := by
  rcases h with rfl | rfl | rfl <;> rfl

/-- What one `update` goes through: the bytes it took, or a gap it saw. -/
def passed (now : UInt32) (taken : List UInt8) (s : QrScanner) : List Mark :=
  if taken = [] then (if s.pendingEvent = .none && s.attached && idle now s then [.gap] else []) else taken.map .byte

/-- `update` keeps the splitter and the scanner together. -/
structure Updates (config : QrScannerConfig) (r : Splitting) (outs : List Out) (now : UInt32) (s : QrScanner)
    (taken : List UInt8) (result : QrScannerEvent × QrScanner) : Prop where
  input : s.input = taken ++ result.2.input
  follows : Follows config ((passed now taken s).foldl (Splitting.mark config) r) (outs ++ outOf result.1) result.2
  lastByteMillis : result.2.lastByteMillis = if taken = [] then s.lastByteMillis else now
  quiet : Quiet result.2.pendingEvent

/-- A call that does not look at the receiver. -/
theorem updates_unread (h : Follows config r outs s) (hquiet : Quiet s'.pendingEvent) {event : QrScannerEvent}
    (hout : outOf event = []) (hk : KeepsInput s s') (hlooks : (s.pendingEvent = .none && s.attached) = false) :
    Updates config r outs now s [] (event, s') := by
  refine ⟨hk.input.symm, ?_, hk.lastByteMillis, hquiet⟩
  rw [hout, List.append_nil, passed, if_pos rfl, hlooks]
  exact h.keep hk

theorem update_updates (now : UInt32) (h : Follows config r outs s) (hquiet : Quiet s.pendingEvent) :
    ∃ taken, Updates config r outs now s taken (update now s) := by
  by_cases hp : s.pendingEvent = .none
  swap
  · -- An event that was left over comes first.
    rw [show update now s = (makeEvent s.pendingEvent, { s with pendingEvent := .none }) by simp [update, hp]]
    exact ⟨[], updates_unread h (.inl rfl) (outOf_quiet hquiet) ⟨rfl, rfl, rfl, rfl, rfl, rfl⟩ (by simp [hp])⟩
  by_cases ha : s.attached = false
  · rw [show update now s = (makeEvent .none, s) by simp [update, hp, ha]]
    exact ⟨[], updates_unread h hquiet rfl (.refl s) (by simp [ha])⟩
  have hlooks : (s.pendingEvent = .none && s.attached) = true := by simp [hp, ha]
  obtain ⟨taken, hread⟩ := readBytes_reads now s.input h
  refine ⟨taken, ?_⟩
  rw [show update now s = (if (readBytes now s.input s).1.type ≠ .none then readBytes now s.input s
    else updateTimeouts now (readBytes now s.input s).2) by simp [update, hp, ha]]
  generalize readBytes now s.input s = result at hread ⊢
  have hquiet' : Quiet result.2.pendingEvent := hread.pendingEvent ▸ hquiet
  split
  · rename_i hsome
    refine ⟨hread.input, ?_, hread.lastByteMillis, hquiet'⟩
    rw [passed, if_neg fun htaken => hsome (hread.none htaken)]
    exact hread.follows
  · rename_i hnone
    have hfollows := hread.follows
    rw [outOf_none (not_not.1 hnone), List.append_nil] at hfollows
    obtain ⟨hsame, htimeouts⟩ := updateTimeouts_follows now hfollows
    refine ⟨hsame.input ▸ hread.input, ?_, hsame.lastByteMillis.trans hread.lastByteMillis, hsame.pendingEvent ▸ hquiet'⟩
    rw [passed, hlooks, Bool.true_and]
    have hlast := hread.lastByteMillis
    split at hlast
    · -- Nothing was there to be read: the gap is the one since the last byte.
      rename_i htaken
      have hidle : idle now result.2 = idle now s := by
        unfold idle
        rw [hlast, hfollows.configured, h.configured]
      rw [hidle] at htimeouts
      subst htaken
      rw [if_pos rfl]
      split
      · rename_i hgap
        rwa [if_pos hgap] at htimeouts
      · rename_i hgap
        rwa [if_neg hgap] at htimeouts
    · rename_i htaken
      rw [idle_of_read hlast] at htimeouts
      rw [if_neg htaken]
      exact htimeouts

/-! ## Runs -/

/-- What is known of a watched scanner. -/
structure Watched (config : QrScannerConfig) (w : Reading) : Prop where
  follows : Follows config (splitting config w.marks) w.outs w.scanner
  heard : w.scanner.lastByteMillis = w.heard
  quiet : Quiet w.scanner.pendingEvent

variable {w : Reading}

theorem splitting_append (config : QrScannerConfig) (marks more : List Mark) :
    splitting config (marks ++ more) = more.foldl (Splitting.mark config) (splitting config marks) :=
  List.foldl_append

theorem take_taken {taken left : List UInt8} :
    (taken ++ left).take ((taken ++ left).length - left.length) = taken := by
  rw [List.length_append, Nat.add_sub_cancel, List.take_left]

/-- What a call of `update` takes, and the marks it leaves. -/
theorem Watched.passed (h : Watched config w) (now : UInt32) : ∃ taken,
    Updates config (splitting config w.marks) w.outs now w.scanner taken (w.scanner.update now) ∧ w.taken now = taken ∧
      (w.feed (.update now)).marks = w.marks ++ passed now taken w.scanner := by
  obtain ⟨taken, hupdate⟩ := update_updates now h.follows h.quiet
  have htaken : w.taken now = taken := by
    rw [Reading.taken, hupdate.input, take_taken]
  have hgap : w.seesGap now = (w.scanner.pendingEvent = .none && w.scanner.attached && idle now w.scanner) := by
    rw [idle, h.heard]
    simp [Reading.seesGap, Bool.and_assoc]
  refine ⟨taken, hupdate, htaken, ?_⟩
  unfold Reading.feed QrScanner.passed
  dsimp only
  rw [htaken, hgap]

theorem Watched.update (h : Watched config w) (now : UInt32) : Watched config (w.feed (.update now)) := by
  obtain ⟨taken, hupdate, htaken, hmarks⟩ := h.passed now
  refine ⟨?_, ?_, hupdate.quiet⟩
  · rw [hmarks, splitting_append]
    exact hupdate.follows
  · change (w.scanner.update now).2.lastByteMillis = if w.taken now = [] then w.heard else now
    rw [htaken, ← h.heard]
    exact hupdate.lastByteMillis

theorem Watched.feed (h : Watched config w) (f : Feed) : Watched config (w.feed f) := by
  cases f with
  | arrive bytes => exact ⟨⟨h.follows.configured, h.follows.rxFrame, h.follows.outs⟩, h.heard, h.quiet⟩
  | update now => exact h.update now
  | deactivate =>
    have hk := deactivate_keeps w.scanner
    exact ⟨h.follows.keep hk, hk.lastByteMillis.trans h.heard, .inr (.inr rfl)⟩

/-- A receiver that was just reset is where the splitter starts. -/
theorem Reset.watched (h : Reset s) : Watched s.config (.started s) where
  follows := ⟨rfl, h.rxFrame.trans List.drop_nil.symm, by simp [splitting, Reading.started]⟩
  heard := h.lastByteMillis
  quiet := h.pendingEvent

theorem Reset.feeds (h : Reset s) (feeds : List Feed) : Watched s.config (fed s feeds) :=
  List.foldlRecOn feeds Reading.feed h.watched fun _ hw f _ => hw.feed f

/-! ## The bytes -/

def bytesOf (marks : List Mark) : List UInt8 :=
  marks.filterMap fun
    | .byte value => some value
    | .gap => none

def arrived (feeds : List Feed) : List UInt8 :=
  feeds.flatMap fun
    | .arrive bytes => bytes
    | _ => []

theorem bytesOf_passed (now : UInt32) (taken : List UInt8) (s : QrScanner) : bytesOf (passed now taken s) = taken := by
  unfold passed
  split
  · rename_i hnone
    subst hnone
    split <;> rfl
  · induction taken with
    | nil => rfl
    | cons value taken ih =>
      cases taken with
      | nil => rfl
      | cons value' taken => exact congrArg (value :: ·) (ih nofun)

/-- Bytes only move from the input to the marks. -/
theorem Watched.bytes (h : Watched config w) (f : Feed) :
    bytesOf (w.feed f).marks ++ (w.feed f).scanner.input = bytesOf w.marks ++ w.scanner.input ++ arrived [f] := by
  cases f with
  | arrive bytes => simp [Reading.feed, arrived]
  | update now =>
    obtain ⟨taken, hupdate, -, hmarks⟩ := h.passed now
    have hbytes : bytesOf (w.marks ++ QrScanner.passed now taken w.scanner) = bytesOf w.marks ++ taken :=
      List.filterMap_append.trans (congrArg (bytesOf w.marks ++ ·) (bytesOf_passed now taken w.scanner))
    rw [hmarks, hbytes, hupdate.input]
    simp [Reading.feed, arrived]
  | deactivate => simp [Reading.feed, arrived, (deactivate_keeps w.scanner).input]

/-! ## Meeting the specification -/

theorem frames_append (outs outs' : List Out) : frames (outs ++ outs') = frames outs ++ frames outs' :=
  List.filterMap_append

theorem frames_replicate (n : Nat) : frames (List.replicate n .overflow) = [] := by simp [frames]

theorem frames_map (datas : List (List UInt8)) : frames (datas.map .frame) = datas := by
  induction datas with
  | nil => rfl
  | cons data datas ih => exact congrArg (data :: ·) ih

theorem frames_emits (config : QrScannerConfig) (run : List UInt8) :
    frames (emits config run) = payload config (remainder run) := by
  rw [emits, frames_append, frames_replicate, frames_map, List.nil_append]

theorem payload_eq_nil : payload config run = [] ↔ trimmed config run = [] := by simp [payload]

/-- After a run that is too long there is an overflow at least. -/
theorem overflow_mem_replicate (h : qrScannerMaxFrameLen < run.length) :
    Out.overflow ∈ List.replicate (run.length / overflowSpan) Out.overflow := by
  rw [List.mem_replicate]
  exact ⟨(div_overflowSpan_pos h).ne', rfl⟩

theorem emits_answers (h : qrScannerMaxFrameLen < run.length → trimmed config (remainder run) = []) :
    Answers config run (emits config run) where
  short hs := by
    rw [emits, div_overflowSpan_of_short hs, remainder_of_short hs]
    rfl
  long hl := by
    refine ⟨?_, List.mem_append_left _ (overflow_mem_replicate hl)⟩
    rw [frames_emits, payload_eq_nil.2 (h hl)]

theorem replicate_awaits (run : List UInt8) : Awaits run (List.replicate (run.length / overflowSpan) .overflow) where
  short hs := by
    rw [div_overflowSpan_of_short hs]
    rfl
  long hl := ⟨frames_replicate _, overflow_mem_replicate hl⟩

/-- What was asked for is never more than what the scanner makes, and it is as
much only if no end of a run that was too long came out. -/
theorem frames_answers {runs : List (List UInt8)} {parts : List (List Out)}
    (h : List.Forall₂ (Answers config) runs parts) :
    (frames parts.flatten).length ≤ (frames (runs.flatMap (emits config))).length ∧
      ((frames parts.flatten).length = (frames (runs.flatMap (emits config))).length →
        ∀ run ∈ runs, qrScannerMaxFrameLen < run.length → trimmed config (remainder run) = []) := by
  induction h with
  | nil => exact ⟨Nat.le_refl _, fun _ _ => nofun⟩
  | @cons run part runs parts hrun _ ih =>
    obtain ⟨hle, heq⟩ := ih
    have hpart : (frames part).length ≤ (frames (emits config run)).length := by
      rcases Nat.lt_or_ge qrScannerMaxFrameLen run.length with hl | hs
      · rw [(hrun.long hl).1]
        exact Nat.zero_le _
      · rw [hrun.short hs, emits, div_overflowSpan_of_short hs, remainder_of_short hs]
        exact Nat.le_refl _
    rw [List.flatten_cons, List.flatMap_cons, frames_append, frames_append, List.length_append, List.length_append]
    refine ⟨Nat.add_le_add hpart hle, fun hsum => ?_⟩
    intro run' hmem hl
    rcases List.mem_cons.1 hmem with rfl | hmem
    · have hzero : (frames (emits config run')).length = 0 := by
        rw [(hrun.long hl).1] at hpart hsum
        rw [List.length_nil] at hsum
        omega
      rw [frames_emits] at hzero
      exact payload_eq_nil.1 (List.eq_nil_of_length_eq_zero hzero)
    · exact heq (by omega) run' hmem hl

theorem Follows.splits (h : Follows config r outs s) : Splits config r outs ↔
    ∀ run ∈ r.runs, qrScannerMaxFrameLen < run.length → trimmed config (remainder run) = [] := by
  constructor
  · rintro ⟨parts, last, hparts, hrun, hlast⟩
    refine (frames_answers hrun).2 ?_
    have hawaits : frames last = [] := by
      rcases Nat.lt_or_ge qrScannerMaxFrameLen r.current.length with hl | hs
      · exact (hlast.long hl).1
      · rw [hlast.short hs]
        rfl
    have hframes := congrArg frames (hparts.symm.trans h.outs)
    rw [frames_append, frames_append, hawaits, frames_replicate, List.append_nil, List.append_nil] at hframes
    rw [hframes]
  · intro hblank
    refine ⟨r.runs.map (emits config), _, h.outs, ?_, replicate_awaits r.current⟩
    rw [List.forall₂_map_right_iff, List.forall₂_same]
    exact fun run hmem => emits_answers (hblank run hmem)

/-- The bytes that were read and those that were not are the bytes fed. -/
theorem Reset.bytes (h : Reset s) (feeds : List Feed) :
    bytesOf (fed s feeds).marks ++ (fed s feeds).scanner.input = s.input ++ arrived feeds := by
  induction feeds using List.reverseRecOn with
  | nil => exact (List.append_nil _).symm
  | append_singleton feeds f ih =>
    rw [show fed s (feeds ++ [f]) = (fed s feeds).feed f from List.foldl_append, (h.feeds feeds).bytes f, ih]
    simp [arrived]

/-- The scanner splits every stream it is fed into its frames exactly when the
end of every run that was too long is blank: the part behind the last overflow
comes out as a frame otherwise. -/
theorem splits_iff (h : Reset s) (feeds : List Feed) :
    bytesOf (fed s feeds).marks ++ (fed s feeds).scanner.input = s.input ++ arrived feeds ∧
    (Splits s.config (splitting s.config (fed s feeds).marks) (fed s feeds).outs ↔
      ∀ run ∈ (splitting s.config (fed s feeds).marks).runs, qrScannerMaxFrameLen < run.length →
        trimmed s.config (remainder run) = []) :=
  ⟨h.bytes feeds, (h.feeds feeds).follows.splits⟩

/-! ## Resets -/

theorem begin_reset (config : QrScannerConfig) (s : QrScanner) : Reset (begin config s) := by
  unfold begin
  dsimp only
  generalize hr : resetReceiver _ = r
  have hk := setSwitchActive_keeps false r
  have hp : (setSwitchActive false r).pendingEvent = r.pendingEvent := by
    unfold setSwitchActive
    split <;> rfl
  subst hr
  exact ⟨hk.rxFrame, hk.lastByteMillis, .inl hp⟩

theorem startScan_reset (timeoutMs now : UInt32) (hs : (startScan timeoutMs now s).1 = true) :
    Reset (startScan timeoutMs now s).2 := by
  unfold startScan at hs ⊢
  split at hs
  · contradiction
  rename_i ha
  rw [if_neg ha]
  dsimp only
  generalize (if s.scanActive then deactivateAfterTerminalEvent s else s) = r
  have hk := activateHardware_keeps (resetReceiver r)
  exact ⟨hk.rxFrame, hk.lastByteMillis, .inr (.inl rfl)⟩

/-- A scanner with the built-in settings. -/
abbrev begun : QrScanner := begin .default .constructed

/-- A frame, with blanks around it, in two pieces and then a gap. -/
theorem splits_iff_gap : Splits begun.config ⟨[[32, 65, 66]], []⟩ [.frame [65, 66]] := by
  have h := (splits_iff (begin_reset .default .constructed) [.arrive [32, 65], .update 1, .arrive [66], .update 2,
    .update 42]).2.2
  exact h (by decide +kernel)

/-- A byte more than the buffer holds, and one more: that one comes out. -/
abbrev longRun : List Feed := [.arrive (List.replicate 1026 65 ++ [13]), .update 1, .update 2]

theorem tail_delivered : (fed begun longRun).outs = [.overflow, .frame [65]] ∧
    ¬Splits begun.config (splitting begun.config (fed begun longRun).marks) (fed begun longRun).outs := by
  refine ⟨by decide +kernel, fun hsplits => ?_⟩
  have hruns : (splitting begun.config (fed begun longRun).marks).runs = [List.replicate 1026 65] := by decide +kernel
  have hlong : qrScannerMaxFrameLen < (List.replicate 1026 (65 : UInt8)).length := by
    rw [List.length_replicate]
    decide
  have hblank := ((begin_reset .default .constructed).feeds longRun).follows.splits.1 hsplits (List.replicate 1026 65)
    (by rw [hruns]; exact List.mem_singleton_self _) hlong
  exact absurd hblank (by decide +kernel)

end OrangeBox.Scanner.QrScanner
