import OrangeBox.Lib.Decimal
import OrangeBox.Lib.Run
import OrangeBox.Lib.Separated
import OrangeBox.Text
/-!
# The image stream

The callback of `handleStream`, which sends frame after frame in parts of
`multipart/x-mixed-replace`. The line end behind an image is sent only with its
last bytes: when these leave less than two places in the buffer, it is missing
(`missing_line_end`). With room for it the output is made of complete parts
(`complete_parts`).
-/
open Runs

namespace OrangeBox.Camera

/-- What the streams see of the captured frames. A frame lies within its buffer. -/
structure Capture where
  readBuffer : Fin 2
  imageReady : Fin 2 → Bool
  imageLength : Fin 2 → Nat
  imageBuffer : Fin 2 → List UInt8
  fits : ∀ i, imageLength i ≤ (imageBuffer i).length

/-- `StreamState`; the buffer index is `none` for 255. -/
structure StreamState where
  bufferIndex : Option (Fin 2)
  imageSize : Nat
  offset : Nat
  headerSent : Bool
  frameLocked : Bool

/-- A call of the callback: the size of its buffer, whether it gets the mutex,
and the frames at that time. -/
structure Call where
  maxLen : Nat
  taken : Bool
  capture : Capture

def header (imageSize : Nat) : List UInt8 :=
  literal "--frame\r\nContent-Type: image/jpeg\r\nContent-Length: " ++ Decimal.text imageSize ++ literal "\r\n\r\n"

/-- The state to send from, `none` when the callback returns 0 before that. -/
def StreamState.lock (c : Call) (s : StreamState) : Option StreamState :=
  if s.frameLocked = false ∨ s.imageSize ≤ s.offset then
    if c.taken then
      let currentRead := c.capture.readBuffer
      if c.capture.imageReady currentRead then
        some { bufferIndex := some currentRead, imageSize := c.capture.imageLength currentRead, offset := 0, headerSent := false, frameLocked := true }
      else none
    else none
  else some s

/-- The rest of the callback: a header, or a slice of the image. -/
def StreamState.send (c : Call) (s : StreamState) : StreamState × List UInt8 :=
  if s.headerSent = false then
    if c.maxLen < (header s.imageSize).length then (s, [])
    else ({ s with headerSent := true }, header s.imageSize)
  else if s.offset < s.imageSize then
    let remaining := s.imageSize - s.offset
    let toSend := min remaining c.maxLen
    let slice := (((s.bufferIndex.map c.capture.imageBuffer).getD []).drop s.offset).take toSend
    if s.imageSize ≤ s.offset + toSend ∧ toSend + 2 ≤ c.maxLen then
      ({ s with offset := s.offset + toSend, frameLocked := false }, slice ++ [13, 10])
    else ({ s with offset := s.offset + toSend }, slice)
  else (s, [])

/-- The callback of `handleStream`: the state after it and what it returns. -/
def handleStream (c : Call) (s : StreamState) : StreamState × List UInt8 :=
  match s.lock c with
  | none => (s, [])
  | some s => s.send c

/-! ## Runs -/

/-- A client's stream: all that was returned so far, and the images of the
frames that were locked. -/
structure Stream where
  state : StreamState
  output : List UInt8
  images : List (List UInt8)

def Stream.initial : Stream :=
  { state := { bufferIndex := none, imageSize := 0, offset := 0, headerSent := false, frameLocked := false }
    output := []
    images := [] }

/-- The image of the frame that may be locked next. -/
def Capture.image (capture : Capture) : List UInt8 :=
  (capture.imageBuffer capture.readBuffer).take (capture.imageLength capture.readBuffer)

/-- The call locks a frame. -/
def StreamState.Locks (c : Call) (s : StreamState) : Prop :=
  (s.frameLocked = false ∨ s.imageSize ≤ s.offset) ∧ c.taken = true ∧ c.capture.imageReady c.capture.readBuffer = true

instance (c : Call) (s : StreamState) : Decidable (s.Locks c) := inferInstanceAs (Decidable (_ ∧ _ ∧ _))

def Stream.call (c : Call) (w : Stream) : Stream :=
  { state := (handleStream c w.state).1
    output := w.output ++ (handleStream c w.state).2
    images := if w.state.Locks c then w.images ++ [c.capture.image] else w.images }

/-- A complete part. -/
def part (image : List UInt8) : List UInt8 := header image.length ++ image ++ [13, 10]

/-- Every header fits into the buffer. -/
def Call.Large (c : Call) : Prop := ∀ i, (header (c.capture.imageLength i)).length ≤ c.maxLen

/-- The contents of a locked frame are those it was locked with. -/
def Stream.Fixed (w : Stream) (c : Call) : Prop :=
  ∀ i image, w.state.frameLocked = true → w.state.bufferIndex = some i → w.images.getLast? = some image →
    (c.capture.imageBuffer i).take image.length = image

/-- A frame that is locked has a byte, and what is left of an image leaves two
places if the buffer takes all of it. -/
def Stream.Room (w : Stream) (c : Call) : Prop :=
  (w.state.Locks c → 0 < c.capture.imageLength c.capture.readBuffer) ∧
    (w.state.headerSent = true → w.state.offset < w.state.imageSize → w.state.imageSize - w.state.offset ≤ c.maxLen →
      w.state.imageSize - w.state.offset + 2 ≤ c.maxLen)

/-- A call of the callback. -/
def Calls (w : Stream) (c : Call) (w' : Stream) : Prop := w' = w.call c ∧ w.Fixed c ∧ c.Large

/-! ## Steps -/

variable {c : Call} {s : StreamState} {w w' : Stream} {done : List (List UInt8)} {image : List UInt8} {cs : List Call}

theorem lock_of_locks (h : s.Locks c) : s.lock c = some
    { bufferIndex := some c.capture.readBuffer, imageSize := c.capture.imageLength c.capture.readBuffer, offset := 0, headerSent := false, frameLocked := true } := by
  unfold StreamState.lock
  rw [if_pos h.1, if_pos h.2.1]
  exact if_pos h.2.2

/-- A frame under way is kept. -/
theorem lock_of_locked (hlocked : s.frameLocked = true) (hoffset : s.offset < s.imageSize) : s.lock c = some s :=
  if_neg (by simp [hlocked, hoffset])

theorem lock_of_not_locks (h : s.frameLocked = false) (hnot : ¬s.Locks c) : s.lock c = none := by
  unfold StreamState.lock
  rw [if_pos (Or.inl h)]
  by_cases htaken : c.taken = true
  · rw [if_pos htaken]
    exact if_neg fun hready => hnot ⟨Or.inl h, htaken, hready⟩
  · exact if_neg htaken

/-- Between two parts. -/
structure Closed (w : Stream) : Prop where
  unlocked : w.state.frameLocked = false
  output : w.output = w.images.flatMap part

/-- Within the part of `image`, with the parts of `done` before it. -/
structure Open (w : Stream) (done : List (List UInt8)) (image : List UInt8) : Prop where
  locked : w.state.frameLocked = true
  index : ∃ i, w.state.bufferIndex = some i
  images : w.images = done ++ [image]
  size : w.state.imageSize = image.length
  offset : w.state.offset < image.length
  header : w.state.headerSent = false → w.state.offset = 0
  output : w.output = done.flatMap part ++ if w.state.headerSent then Camera.header image.length ++ image.take w.state.offset else []

/-- The output is that of a sender of complete parts. -/
def Stream.Inv (w : Stream) : Prop := Closed w ∨ ∃ done image, Open w done image

theorem length_image (capture : Capture) : capture.image.length = capture.imageLength capture.readBuffer := by
  unfold Capture.image
  rw [List.length_take]
  exact Nat.min_eq_left (capture.fits _)

/-- The header of a locked frame, or nothing when it is too long. -/
theorem Open.send_header (h : Open w done image) (hsent : w.state.headerSent = false) :
    Open { w with state := (w.state.send c).1, output := w.output ++ (w.state.send c).2 } done image := by
  have hsend : w.state.send c = if c.maxLen < (Camera.header w.state.imageSize).length then (w.state, [])
      else ({ w.state with headerSent := true }, Camera.header w.state.imageSize) := if_pos hsent
  rw [hsend]
  split
  · dsimp only
    rw [List.append_nil]
    exact h
  · refine ⟨h.locked, h.index, h.images, h.size, h.offset, (fun hno => by cases hno), ?_⟩
    have hout := h.output
    rw [hsent] at hout
    dsimp only
    rw [hout, h.header hsent, h.size]
    simp

/-- A slice within what is fixed of a buffer. -/
theorem take_drop_of_take_eq {contents : List UInt8} {k n : Nat} (h : contents.take image.length = image) (hn : k + n ≤ image.length) :
    (contents.drop k).take n = (image.drop k).take n := by
  conv_rhs => rw [← h]
  rw [List.drop_take, List.take_take, Nat.min_eq_left (by omega)]

/-- What a call sends of an image, with `n` bytes. -/
theorem Open.send_eq (h : Open w done image) (hsent : w.state.headerSent = true) (hfixed : w.Fixed c) :
    ∃ n, n = min (image.length - w.state.offset) c.maxLen ∧
      w.state.send c = if image.length ≤ w.state.offset + n ∧ n + 2 ≤ c.maxLen then
          ({ w.state with offset := w.state.offset + n, frameLocked := false }, (image.drop w.state.offset).take n ++ [13, 10])
        else ({ w.state with offset := w.state.offset + n }, (image.drop w.state.offset).take n) := by
  obtain ⟨i, hi⟩ := h.index
  have hlast : w.images.getLast? = some image := by
    rw [h.images]
    exact List.getLast?_concat
  have hcontents := hfixed i image h.locked hi hlast
  have hoffset := h.offset
  have hmin := Nat.min_le_left (image.length - w.state.offset) c.maxLen
  refine ⟨_, rfl, ?_⟩
  unfold StreamState.send
  dsimp only
  rw [if_neg (by simp [hsent]), h.size, if_pos hoffset, hi, Option.map_some, Option.getD_some,
    take_drop_of_take_eq hcontents (by omega)]

/-- A slice of the image; with the last one the part is complete. -/
theorem Open.send_slice (h : Open w done image) (hsent : w.state.headerSent = true) (hfixed : w.Fixed c) (hroom : w.Room c) :
    Stream.Inv { w with state := (w.state.send c).1, output := w.output ++ (w.state.send c).2 } := by
  obtain ⟨n, hn, hsend⟩ := h.send_eq hsent hfixed
  have hoffset := h.offset
  have hrest := hroom.2 hsent
  rw [h.size] at hrest
  have hout := h.output
  rw [hsent, if_pos rfl] at hout
  have hgrown : image.take w.state.offset ++ (image.drop w.state.offset).take n = image.take (w.state.offset + n) := List.take_add.symm
  rw [hsend]
  by_cases hend : image.length ≤ w.state.offset + n
  · -- The buffer takes the rest, so there is room for the line end.
    rw [if_pos ⟨hend, by omega⟩]
    refine Or.inl ⟨rfl, ?_⟩
    dsimp only
    rw [hout, h.images, List.flatMap_append, List.flatMap_singleton, part]
    rw [List.take_of_length_le hend] at hgrown
    simp only [List.append_assoc]
    rw [← List.append_assoc (image.take _), hgrown]
  · rw [if_neg fun hboth => hend hboth.1]
    refine Or.inr ⟨done, image, h.locked, h.index, h.images, h.size, Nat.not_le.1 hend, fun hno => ?_, ?_⟩
    · dsimp only at hno
      rw [hsent] at hno
      cases hno
    · dsimp only
      rw [hout, hsent, if_pos rfl, List.append_assoc, List.append_assoc, hgrown]

/-- A call keeps the invariant. -/
theorem inv_call (h : w.Inv) (hfixed : w.Fixed c) (hroom : w.Room c) : (w.call c).Inv := by
  rcases h with h | ⟨done, image, h⟩
  · by_cases hlocks : w.state.Locks c
    · -- The next frame is locked, and its header is due.
      have hstarted : Open { w with
          state := { bufferIndex := some c.capture.readBuffer, imageSize := c.capture.imageLength c.capture.readBuffer, offset := 0, headerSent := false, frameLocked := true }
          images := w.images ++ [c.capture.image] } w.images c.capture.image := by
        refine ⟨rfl, ⟨_, rfl⟩, rfl, (length_image c.capture).symm, ?_, fun _ => rfl, ?_⟩
        · rw [length_image]
          exact hroom.1 hlocks
        · rw [h.output]
          simp
      have hsent := hstarted.send_header (c := c) rfl
      unfold Stream.call handleStream
      rw [lock_of_locks hlocks, if_pos hlocks]
      exact Or.inr ⟨_, _, hsent⟩
    · unfold Stream.call handleStream
      rw [lock_of_not_locks h.unlocked hlocks, if_neg hlocks]
      exact Or.inl ⟨h.unlocked, by rw [List.append_nil]; exact h.output⟩
  · have hlt : w.state.offset < w.state.imageSize := by
      rw [h.size]
      exact h.offset
    have hnot : ¬w.state.Locks c := by
      rintro ⟨hfree | hended, _⟩
      · rw [h.locked] at hfree
        cases hfree
      · omega
    unfold Stream.call handleStream
    rw [lock_of_locked h.locked hlt, if_neg hnot]
    cases hsent : w.state.headerSent with
    | false => exact Or.inr ⟨_, _, h.send_header hsent⟩
    | true => exact h.send_slice hsent hfixed hroom

/-- The output so far begins a sequence of complete parts. -/
theorem Stream.Inv.begins (h : w.Inv) : w.output <+: w.images.flatMap part := by
  rcases h with h | ⟨done, image, h⟩
  · rw [h.output]
  · rw [h.output, h.images, List.flatMap_append, List.flatMap_singleton, List.prefix_append_right_inj]
    split
    · exact ((List.prefix_append_right_inj _).2 (List.take_prefix _ _)).trans (List.prefix_append _ _)
    · exact List.nil_prefix

/-- With room for the line ends, the output is made of complete parts, in every
run and at every call of it. -/
theorem complete_parts (h : Run (Within Calls fun w c _ => w.Room c) Stream.initial cs w) : w.output <+: w.images.flatMap part := by
  have hinv : w.Inv := by
    refine h.inv Stream.Inv (Or.inl ⟨rfl, rfl⟩) ?_
    rintro w c w' hinv ⟨⟨rfl, hfixed, _⟩, hroom⟩
    exact inv_call hinv hfixed hroom
  exact hinv.begins

/-- A frame of 57 bytes, as many as its header has. -/
def evenFrame : Capture where
  readBuffer := 0
  imageReady _ := true
  imageLength _ := 57
  imageBuffer _ := List.replicate 57 0
  fits _ := Nat.le_refl 57

/-- A call while the frame stays. -/
def evenCall (maxLen : Nat) : Call := { maxLen, taken := true, capture := evenFrame }

theorem calls_evenCall {maxLen : Nat} (hlarge : 57 ≤ maxLen) (hlast : w.images.getLast?.getD evenFrame.image = evenFrame.image) :
    Calls w (evenCall maxLen) (w.call (evenCall maxLen)) := by
  have hheader : (header 57).length ≤ maxLen := (by decide : (header 57).length ≤ 57).trans hlarge
  refine ⟨rfl, ?_, fun _ => hheader⟩
  intro i image _ _ himage
  rw [himage] at hlast
  rw [show image = evenFrame.image from hlast]
  rfl

theorem complete_parts_even :
    ((Stream.initial.call (evenCall 100)).call (evenCall 100)).output <+:
      ((Stream.initial.call (evenCall 100)).call (evenCall 100)).images.flatMap part := by
  have hready : 0 < 57 := by decide
  have hfirst : Stream.initial.Room (evenCall 100) := ⟨fun _ => hready, fun hsent => by cases hsent⟩
  have hsecond : (Stream.initial.call (evenCall 100)).Room (evenCall 100) := ⟨fun _ => hready, fun _ _ _ => (by decide : 59 ≤ 100)⟩
  exact complete_parts (.cons ⟨calls_evenCall (by decide) rfl, hfirst⟩ (.single ⟨calls_evenCall (by decide) rfl, hsecond⟩))

/-! ## The missing line end -/

/-- The length in a header ends at its line end. -/
theorem header_cut {n m : Nat} {x y : List UInt8} (h : header n ++ x = header m ++ y) : n = m ∧ x = y := by
  have hno : ∀ k, 13 ∉ Decimal.text k := fun k hk => absurd (Decimal.isDigit_of_mem hk) (by decide)
  have hend : literal "\r\n\r\n" = 13 :: [10, 13, 10] := rfl
  unfold header at h
  rw [hend] at h
  generalize literal "--frame\r\nContent-Type: image/jpeg\r\nContent-Length: " = start at h
  simp only [List.append_assoc, List.append_cancel_left_eq] at h
  obtain ⟨htext, hrest⟩ := Separated.cut_inj (hno n) (hno m) h
  have hvalue := congrArg Decimal.value htext
  rw [Decimal.value_text, Decimal.value_text] at hvalue
  exact ⟨hvalue, List.append_cancel_left hrest⟩

/-- A header behind an image begins no sequence of complete parts. -/
theorem not_parts {tail : List UInt8} (images : List (List UInt8)) :
    ¬(header image.length ++ (image ++ 45 :: tail)) <+: images.flatMap part := by
  rintro ⟨rest, hrest⟩
  cases images with
  | nil => simp [header] at hrest
  | cons first images =>
    rw [List.flatMap_cons, part] at hrest
    simp only [List.append_assoc] at hrest
    obtain ⟨hlen, hrest⟩ := header_cut hrest
    obtain ⟨_, hend⟩ := List.append_inj hrest hlen
    cases hend

theorem missing_line_end : ¬∀ cs w, Run Calls Stream.initial cs w → ∃ images : List (List UInt8), w.output <+: images.flatMap part := by
  intro h
  -- The second call fills its buffer with the image, and the third sends a header.
  have hrun : Run Calls Stream.initial [evenCall 57, evenCall 57, evenCall 57]
      (((Stream.initial.call (evenCall 57)).call (evenCall 57)).call (evenCall 57)) :=
    .cons (calls_evenCall (Nat.le_refl _) rfl) (.cons (calls_evenCall (Nat.le_refl _) rfl) (.single (calls_evenCall (Nat.le_refl _) rfl)))
  obtain ⟨images, himages⟩ := h _ _ hrun
  have hout : (((Stream.initial.call (evenCall 57)).call (evenCall 57)).call (evenCall 57)).output =
      header evenFrame.image.length ++ (evenFrame.image ++ 45 :: (header 57).tail) := by decide +kernel
  rw [hout] at himages
  exact not_parts images himages

end OrangeBox.Camera
