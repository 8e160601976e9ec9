import Mathlib
/-!
# The buffers of a channel

`prepend_buffer.h` and `ring_buffer.h`. The ring itself belongs to the operating
system: `Ringbuf` is what its documentation promises of a byte buffer, with the
bytes it holds and its size.
-/

namespace OrangeBox.Tunnel

/-! ## Putting back -/

/-- `PrependBuffer`; `data` are the first `len_` bytes of `buf_`. -/
structure PrependBuffer where
  bound : Bool
  cap : Nat
  data : List UInt8
  off : Nat

namespace PrependBuffer

def unbound : PrependBuffer := ⟨false, 0, [], 0⟩

/-- `reset` with a storage. -/
def reset (capacity : Nat) : PrependBuffer := ⟨true, capacity, [], 0⟩

def empty (b : PrependBuffer) : Bool := b.data.length ≤ b.off

def pending (b : PrependBuffer) : Nat := b.data.length - b.off

def writeToFront (data : List UInt8) (b : PrependBuffer) : Nat × PrependBuffer :=
  if !b.bound || data.length = 0 || b.cap < data.length then (0, b)
  else if b.off < b.data.length then (0, b)
  else (data.length, { b with data := data, off := 0 })

def read (len : Nat) (b : PrependBuffer) : List UInt8 × PrependBuffer :=
  if !b.bound || len = 0 || b.data.length ≤ b.off then ([], b)
  else
    let copy := min b.pending len
    let out := (b.data.drop b.off).take copy
    if b.data.length ≤ b.off + copy then (out, { b with data := [], off := 0 }) else (out, { b with off := b.off + copy })

/-- The bytes that are still to be read. -/
def bytes (b : PrependBuffer) : List UInt8 := b.data.drop b.off

variable {b : PrependBuffer} {data : List UInt8} {len : Nat}

@[simp] theorem length_bytes : b.bytes.length = b.pending := List.length_drop

theorem empty_iff : b.empty = true ↔ b.bytes = [] := by
  rw [empty, decide_eq_true_eq, bytes, List.drop_eq_nil_iff]

theorem writeToFront_of_fits (hbound : b.bound = true) (hb : b.bytes = []) (h0 : data ≠ []) (hd : data.length ≤ b.cap) :
    b.writeToFront data = (data.length, { b with data := data, off := 0 }) := by
  have hoff : b.data.length ≤ b.off := List.drop_eq_nil_iff.1 hb
  have hlen : data.length ≠ 0 := fun h => h0 (List.length_eq_zero_iff.1 h)
  simp [writeToFront, hbound, hlen, Nat.not_lt.2 hd, Nat.not_lt.2 hoff]

theorem read_of_empty (hb : b.bytes = []) : b.read len = ([], b) := by
  rw [read, if_pos]
  simp [List.drop_eq_nil_iff.1 hb]

variable (len) in
/-- A reader gets the oldest bytes, as many as are there. -/
theorem read_eq (hbound : b.bound = true) :
    (b.read len).1 = b.bytes.take len ∧ (b.read len).2.bytes = b.bytes.drop len ∧
      (b.read len).2.bound = true ∧ (b.read len).2.cap = b.cap := by
  unfold read
  split
  · rename_i h
    simp only [hbound, Bool.not_true, Bool.false_or, Bool.or_eq_true, decide_eq_true_eq] at h
    rcases h with rfl | h
    · simp [hbound]
    · have hb : b.bytes = [] := List.drop_eq_nil_iff.2 h
      simp [hb, hbound]
  · simp only
    have hout : (b.data.drop b.off).take (min b.pending len) = b.bytes.take len := by
      rw [← length_bytes, Nat.min_comm, ← List.take_take, bytes, List.take_length]
    split
    · rename_i hall
      refine ⟨hout, ?_, hbound, rfl⟩
      have hlen : b.bytes.length ≤ len := by
        rw [length_bytes]
        unfold pending at hall ⊢
        omega
      rw [List.drop_eq_nil_of_le hlen]
      rfl
    · rename_i hall
      refine ⟨hout, ?_, hbound, rfl⟩
      have hlen : min b.pending len = len := by
        unfold pending at hall ⊢
        omega
      simp only [bytes, hlen, List.drop_drop]

end PrependBuffer

/-! ## The ring -/

/-- A byte buffer of `freertos/ringbuf.h`. -/
structure Ringbuf (R : Type) where
  create : Nat → R
  getCurFreeSize : R → Nat
  send : List UInt8 → R → Option R
  /-- `xRingbufferReceiveUpTo`, with the item returned. -/
  receiveUpTo : Nat → R → Option (List UInt8 × R)
  contents : R → List UInt8
  size : R → Nat
  create_spec : ∀ n, contents (create n) = [] ∧ size (create n) = n
  free_add : ∀ r, getCurFreeSize r + (contents r).length = size r
  send_isSome : ∀ r data, data ≠ [] → data.length ≤ getCurFreeSize r → (send data r).isSome
  send_spec : ∀ r data r', send data r = some r' → contents r' = contents r ++ data ∧ size r' = size r
  receive_isSome : ∀ r n, 0 < n → contents r ≠ [] → (receiveUpTo n r).isSome
  /-- At the end of the storage an item may be shorter than what is there. -/
  receive_spec : ∀ r n item r', receiveUpTo n r = some (item, r') →
    contents r = item ++ contents r' ∧ item ≠ [] ∧ item.length ≤ n ∧ size r' = size r

/-- A byte buffer that keeps its bytes in a list. -/
def listRing : Ringbuf { p : List UInt8 × Nat // p.1.length ≤ p.2 } where
  create n := ⟨([], n), Nat.zero_le n⟩
  getCurFreeSize r := r.1.2 - r.1.1.length
  send data r := if h : (r.1.1 ++ data).length ≤ r.1.2 then some ⟨(r.1.1 ++ data, r.1.2), h⟩ else none
  receiveUpTo n r :=
    if r.1.1.take n = [] then none
    else some (r.1.1.take n, ⟨(r.1.1.drop n, r.1.2), by rw [List.length_drop]; exact (Nat.sub_le _ _).trans r.2⟩)
  contents r := r.1.1
  size r := r.1.2
  create_spec _ := ⟨rfl, rfl⟩
  free_add r := Nat.sub_add_cancel r.2
  send_isSome r data _ hfits := by
    have hle := r.2
    rw [dif_pos (by rw [List.length_append]; omega)]
    rfl
  send_spec r data r' h := by
    split at h
    · obtain rfl := Option.some.inj h
      exact ⟨rfl, rfl⟩
    · cases h
  receive_isSome r n hn hr := by
    rw [if_neg (by simp [List.take_eq_nil_iff, hr]; omega)]
    rfl
  receive_spec r n item r' h := by
    split at h
    · cases h
    · rename_i hne
      obtain ⟨rfl, rfl⟩ := Prod.mk.inj (Option.some.inj h)
      exact ⟨(List.take_append_drop n _).symm, hne, List.length_take_le n _, rfl⟩

variable {R : Type}

abbrev prependCap : Nat := 8192

/-- `DataRingBuffer`. Without memory it has no ring and nowhere to put bytes back. -/
structure DataRingBuffer (rb : Ringbuf R) where
  handle : Option R
  capacity : Nat
  prepend : PrependBuffer
  sized : ∀ r ∈ handle, rb.size r = capacity
  bound : handle.isSome → prepend.bound = true ∧ prepend.cap = prependCap
  unbound : handle.isNone → prepend.bytes = [] ∧ prepend.bound = false

namespace DataRingBuffer

variable {rb : Ringbuf R}

/-- The constructor, by whether there was memory for all of it. -/
def new (rb : Ringbuf R) (size : Nat) (allocated : Bool) : DataRingBuffer rb :=
  if allocated then
    { handle := some (rb.create size), capacity := size, prepend := .reset prependCap
      sized := by rintro r ⟨⟩; exact (rb.create_spec size).2
      bound := fun _ => ⟨rfl, rfl⟩
      unbound := fun h => by cases h }
  else
    { handle := none, capacity := size, prepend := .unbound
      sized := by rintro r ⟨⟩
      bound := fun h => by cases h
      unbound := fun _ => ⟨rfl, rfl⟩ }

/-- The loop of `write` on the ring, with the number of bytes it took. -/
def writeRing (rb : Ringbuf R) (data : List UInt8) (written : Nat) (r : R) : Nat × R :=
  if data.length ≤ written then (written, r)
  else if rb.getCurFreeSize r = 0 then (written, r)
  else
    let chunk := min (data.length - written) (rb.getCurFreeSize r)
    match rb.send ((data.drop written).take chunk) r with
    | none => (written, r)
    | some r' => writeRing rb data (written + chunk) r'
termination_by data.length - written

theorem writeRing_spec (rb : Ringbuf R) (data : List UInt8) (written : Nat) (r : R) (hw : written ≤ data.length) :
    ∃ n r', writeRing rb data written r = (n, r') ∧ written ≤ n ∧ n ≤ data.length ∧
      rb.contents r' = rb.contents r ++ (data.drop written).take (n - written) ∧ rb.size r' = rb.size r ∧
      (data.length - written ≤ rb.getCurFreeSize r → n = data.length) := by
  fun_induction writeRing rb data written r with
  | case1 written r hall =>
    refine ⟨written, r, rfl, le_refl _, hw, ?_, rfl, fun _ => by omega⟩
    simp
  | case2 written r hmore hfull =>
    refine ⟨written, r, rfl, le_refl _, hw, ?_, rfl, fun h => by omega⟩
    simp
  | case3 written r hmore hfree chunk hnone =>
    have hsome := rb.send_isSome r ((data.drop written).take chunk) ?_ ?_
    · rw [hnone] at hsome
      cases hsome
    · rw [Ne, List.take_eq_nil_iff, List.drop_eq_nil_iff]
      omega
    · rw [List.length_take]
      omega
  | case4 written r hmore hfree chunk r' hsend ih =>
    obtain ⟨hcontents, hsize⟩ := rb.send_spec _ _ _ hsend
    obtain ⟨n, r'', heq, hle, hn, hc, hs, hfits⟩ := ih (by omega)
    refine ⟨n, r'', heq, by omega, hn, ?_, hs.trans hsize, fun hroom => hfits ?_⟩
    · rw [hc, hcontents, List.append_assoc, List.append_cancel_left_eq,
        show n - written = chunk + (n - (written + chunk)) by omega, List.take_add, List.drop_drop]
    · have hfree := rb.free_add r
      have hfree' := rb.free_add r'
      rw [hcontents, List.length_append, List.length_take, List.length_drop] at hfree'
      omega

/-- Appends at the end; tells how many bytes there was room for. -/
def write (data : List UInt8) (d : DataRingBuffer rb) : Nat × DataRingBuffer rb :=
  match h : d.handle with
  | none => (0, d)
  | some r =>
    let wrote := writeRing rb data 0 r
    (wrote.1,
      { d with
        handle := some wrote.2
        sized := by
          rintro r' ⟨⟩
          obtain ⟨n, r', heq, -, -, -, hs, -⟩ := writeRing_spec rb data 0 r (Nat.zero_le _)
          rw [show (writeRing rb data 0 r).2 = r' by rw [heq], hs, d.sized r h]
        bound := fun _ => d.bound (by rw [h]; rfl)
        unbound := fun hn => by cases hn })

def writeToFront (data : List UInt8) (d : DataRingBuffer rb) : Nat × DataRingBuffer rb :=
  ((d.prepend.writeToFront data).1,
    { d with
      prepend := (d.prepend.writeToFront data).2
      bound := fun hs => by
        obtain ⟨hb, hc⟩ := d.bound hs
        unfold PrependBuffer.writeToFront
        split
        · exact ⟨hb, hc⟩
        · split <;> exact ⟨hb, hc⟩
      unbound := fun hn => by
        obtain ⟨hb, hu⟩ := d.unbound hn
        rw [PrependBuffer.writeToFront, if_pos (by simp [hu])]
        exact ⟨hb, hu⟩ })

/-- The ring's part of `read`. -/
def readRing (len : Nat) (d : DataRingBuffer rb) : List UInt8 × DataRingBuffer rb :=
  match h : d.handle with
  | none => ([], d)
  | some r =>
    match hr : rb.receiveUpTo len r with
    | none => ([], d)
    | some (item, r') =>
      (item.take len,
        { d with
          handle := some r'
          sized := by
            rintro r'' ⟨⟩
            rw [(rb.receive_spec _ _ _ _ hr).2.2.2, d.sized r h]
          bound := fun _ => d.bound (by rw [h]; rfl)
          unbound := fun hn => by cases hn })

/-- The part of `read` that gives back what was put in front. -/
def readFront (len : Nat) (d : DataRingBuffer rb) : List UInt8 × DataRingBuffer rb :=
  ((d.prepend.read len).1,
    { d with
      prepend := (d.prepend.read len).2
      bound := fun hs => by
        obtain ⟨hb, hc⟩ := d.bound hs
        obtain ⟨-, -, hb', hc'⟩ := PrependBuffer.read_eq len hb
        exact ⟨hb', hc'.trans hc⟩
      unbound := fun hn => by
        obtain ⟨hb, hu⟩ := d.unbound hn
        rw [PrependBuffer.read_of_empty hb]
        exact ⟨hb, hu⟩ })

def read (len : Nat) (d : DataRingBuffer rb) : List UInt8 × DataRingBuffer rb :=
  if len = 0 then ([], d)
  else
    let (front, d') := if d.prepend.empty then ([], d) else d.readFront len
    if len ≤ front.length then (front, d')
    else
      let (item, d'') := d'.readRing (len - front.length)
      (front ++ item, d'')

def size (d : DataRingBuffer rb) : Nat :=
  match d.handle with
  | none => d.prepend.pending
  | some r =>
    let freeSpace := rb.getCurFreeSize r
    d.prepend.pending + if d.capacity < freeSpace then 0 else d.capacity - freeSpace

def available (d : DataRingBuffer rb) : Nat :=
  match d.handle with
  | none => 0
  | some r => rb.getCurFreeSize r

def empty (d : DataRingBuffer rb) : Bool := d.size = 0

/-! ## What the buffer holds -/

variable (d : DataRingBuffer rb) {data : List UInt8} {len : Nat}

/-- The bytes in the ring. -/
def ringBytes : List UInt8 := d.handle.elim [] rb.contents

/-- The bytes in the order in which they will be read. -/
def bytes : List UInt8 := d.prepend.bytes ++ d.ringBytes

/-- The constructor found memory. -/
def Allocated : Prop := d.handle.isSome

theorem ringBytes_of_some {r : R} (h : d.handle = some r) : d.ringBytes = rb.contents r := by
  rw [ringBytes, h, Option.elim_some]

theorem ringBytes_of_none (h : d.handle = none) : d.ringBytes = [] := by rw [ringBytes, h, Option.elim_none]

theorem available_add (hd : d.Allocated) : d.available + d.ringBytes.length = d.capacity := by
  obtain ⟨r, h⟩ := Option.isSome_iff_exists.1 hd
  rw [available, d.ringBytes_of_some h, ← d.sized r h, h]
  exact rb.free_add r

theorem size_eq : d.size = d.bytes.length := by
  rw [size, bytes, List.length_append, PrependBuffer.length_bytes]
  cases h : d.handle with
  | none => rw [d.ringBytes_of_none h, List.length_nil, Nat.add_zero]
  | some r =>
    have hfree := rb.free_add r
    rw [d.sized r h] at hfree
    rw [d.ringBytes_of_some h]
    simp only
    split <;> omega

theorem empty_iff : d.empty = true ↔ d.bytes = [] := by
  rw [empty, decide_eq_true_eq, size_eq, List.length_eq_zero_iff]

/-- Without memory nothing is ever held. -/
theorem allocated_of_bytes (h : d.bytes ≠ []) : d.Allocated := by
  rw [Allocated, ← Option.not_isNone, Bool.not_eq_true', ← Bool.not_eq_true]
  intro hnone
  rw [bytes, (d.unbound hnone).1, d.ringBytes_of_none (Option.isNone_iff_eq_none.1 hnone)] at h
  exact h rfl

@[simp] theorem bytes_new (size : Nat) (allocated : Bool) : (new rb size allocated).bytes = [] := by
  unfold new
  split
  · simp [bytes, ringBytes, PrependBuffer.bytes, PrependBuffer.reset, (rb.create_spec size).1]
  · simp [bytes, ringBytes, PrependBuffer.bytes, PrependBuffer.unbound]

/-- What an operation leaves alone. -/
structure Same (d d' : DataRingBuffer rb) : Prop where
  capacity : d'.capacity = d.capacity
  allocated : d'.Allocated ↔ d.Allocated

/-- The bytes there is room for are read after all others. -/
theorem write_spec (data : List UInt8) :
    ∃ n d', d.write data = (n, d') ∧ n ≤ data.length ∧ d'.bytes = d.bytes ++ data.take n ∧
      (data.length ≤ d.available → n = data.length) ∧ d'.prepend = d.prepend ∧ Same d d' := by
  unfold write
  split
  · rename_i h
    refine ⟨0, d, rfl, Nat.zero_le _, by simp, fun hroom => ?_, rfl, ⟨rfl, .rfl⟩⟩
    rw [available, h] at hroom
    exact (Nat.le_zero.1 hroom).symm
  · rename_i r h
    obtain ⟨n, r', heq, -, hn, hcontents, -, hroom⟩ := writeRing_spec rb data 0 r (Nat.zero_le _)
    simp only [heq]
    refine ⟨n, _, rfl, hn, ?_, fun hle => hroom ?_, rfl, ⟨rfl, by simp [Allocated, h]⟩⟩
    · rw [List.drop_zero, Nat.sub_zero] at hcontents
      rw [bytes, bytes, List.append_assoc, ringBytes_of_some _ rfl, hcontents, d.ringBytes_of_some h]
    · rwa [available, h] at hle

/-- The room that is left, by the bytes that are held. -/
theorem available_add_bytes (hd : d.Allocated) : d.available + d.bytes.length = d.capacity + d.prepend.bytes.length := by
  have h := d.available_add hd
  rw [bytes, List.length_append]
  omega

/-- What is put in front is read before all others. -/
theorem writeToFront_spec (hd : d.Allocated) (hfront : d.prepend.bytes = []) (h0 : data ≠ [])
    (hle : data.length ≤ prependCap) :
    ∃ d', d.writeToFront data = (data.length, d') ∧ d'.bytes = data ++ d.bytes ∧ d'.prepend.bytes = data ∧ Same d d' := by
  obtain ⟨hbound, hcap⟩ := d.bound hd
  have hw := PrependBuffer.writeToFront_of_fits hbound hfront h0 (hcap.symm ▸ hle)
  refine ⟨(d.writeToFront data).2, Prod.ext (by simp only [writeToFront, hw]) rfl, ?_, ?_, ⟨rfl, .rfl⟩⟩
  · rw [bytes, bytes, hfront, List.nil_append]
    simp only [writeToFront, hw, PrependBuffer.bytes, List.drop_zero]
    rfl
  · simp only [writeToFront, hw, PrependBuffer.bytes, List.drop_zero]

theorem readRing_spec (h0 : 0 < len) :
    ∃ out d', d.readRing len = (out, d') ∧ d.ringBytes = out ++ d'.ringBytes ∧
      out.length ≤ len ∧ (out = [] → d.ringBytes = []) ∧ d'.prepend = d.prepend ∧ Same d d' := by
  unfold readRing
  split
  · rename_i h
    exact ⟨[], d, rfl, by simp, Nat.zero_le _, fun _ => d.ringBytes_of_none h, rfl, ⟨rfl, .rfl⟩⟩
  · rename_i r h
    split
    · rename_i hr
      refine ⟨[], d, rfl, by simp, Nat.zero_le _, fun _ => ?_, rfl, ⟨rfl, .rfl⟩⟩
      rw [d.ringBytes_of_some h]
      by_contra hne
      have := rb.receive_isSome r len h0 hne
      rw [hr] at this
      cases this
    · rename_i item r' hr
      obtain ⟨hcontents, hne, hlen, -⟩ := rb.receive_spec _ _ _ _ hr
      refine ⟨item, _, Prod.ext (List.take_of_length_le hlen) rfl, ?_, hlen, fun h => absurd h hne, rfl,
        ⟨rfl, by simp [Allocated, h]⟩⟩
      rw [d.ringBytes_of_some h, hcontents, ringBytes_of_some _ rfl]

theorem readFront_spec (len : Nat) :
    ∃ out d', d.readFront len = (out, d') ∧ d.bytes = out ++ d'.bytes ∧ out = d.prepend.bytes.take len ∧
      d'.prepend.bytes = d.prepend.bytes.drop len ∧ d'.handle = d.handle ∧ Same d d' := by
  have hread : (d.prepend.read len).1 = d.prepend.bytes.take len ∧ (d.prepend.read len).2.bytes = d.prepend.bytes.drop len := by
    cases hb : d.prepend.bound with
    | true => exact ⟨(PrependBuffer.read_eq _ hb).1, (PrependBuffer.read_eq _ hb).2.1⟩
    | false =>
      have hnone : d.handle.isNone := by
        by_contra h
        have := (d.bound (by simpa [Option.isSome_iff_ne_none] using h)).1
        rw [hb] at this
        cases this
      rw [PrependBuffer.read_of_empty (d.unbound hnone).1, (d.unbound hnone).1]
      simp
  refine ⟨_, _, rfl, ?_, hread.1, hread.2, rfl, ⟨rfl, .rfl⟩⟩
  simp only [bytes]
  rw [hread.1, hread.2, ← List.append_assoc, List.take_append_drop]
  rfl

/-- A reader gets the oldest bytes, and some if there are any. What was put in
front comes first, and nothing of it is left if the reader asks for enough. -/
theorem read_spec (h0 : 0 < len) :
    ∃ out d', d.read len = (out, d') ∧ d.bytes = out ++ d'.bytes ∧ out.length ≤ len ∧ (out = [] → d.bytes = []) ∧
      (d.prepend.bytes.length ≤ len → d'.prepend.bytes = []) ∧ Same d d' := by
  rw [read, if_neg (by omega)]
  obtain ⟨front, d₁, h₁, hbytes₁, hfront, hprepend₁, hhandle, hsame₁⟩ :
      ∃ front d₁, (if d.prepend.empty then ([], d) else d.readFront len) = (front, d₁) ∧ d.bytes = front ++ d₁.bytes ∧
        front = d.prepend.bytes.take len ∧ d₁.prepend.bytes = d.prepend.bytes.drop len ∧ d₁.handle = d.handle ∧ Same d d₁ := by
    split
    · rename_i hempty
      rw [PrependBuffer.empty_iff] at hempty
      exact ⟨[], d, rfl, rfl, by simp [hempty], by simp [hempty], rfl, ⟨rfl, .rfl⟩⟩
    · exact d.readFront_spec len
  simp only [h₁]
  have hlen : front.length = min len d.prepend.bytes.length := by rw [hfront, List.length_take]
  split
  · refine ⟨front, d₁, rfl, hbytes₁, by omega, fun hnil => ?_, fun hall => ?_, hsame₁⟩
    · subst hnil
      simp at *
      omega
    · rw [hprepend₁, List.drop_eq_nil_of_le hall]
  · rename_i hmore
    obtain ⟨item, d₂, h₂, hring, hitem, hnone, hprepend₂, hsame₂⟩ := d₁.readRing_spec (show 0 < len - front.length by omega)
    have hdone : d₁.prepend.bytes = [] := by
      rw [hprepend₁, List.drop_eq_nil_iff]
      omega
    have hd₁ : d₁.bytes = item ++ d₂.bytes := by
      rw [bytes, bytes, hprepend₂, hdone, List.nil_append, List.nil_append, hring]
    simp only [h₂]
    refine ⟨front ++ item, d₂, rfl, ?_, ?_, fun hnil => ?_, fun _ => hprepend₂ ▸ hdone,
      ⟨hsame₂.capacity.trans hsame₁.capacity, hsame₂.allocated.trans hsame₁.allocated⟩⟩
    · rw [hbytes₁, hd₁, List.append_assoc]
    · rw [List.length_append]
      omega
    · obtain ⟨rfl, rfl⟩ := List.append_eq_nil_iff.1 hnil
      rw [hbytes₁, List.nil_append, bytes, hdone, hnone rfl]
      rfl

/-- What is left of a read goes back to the front, or to the end when the front is taken. -/
def putBack (data : List UInt8) (d : DataRingBuffer rb) : DataRingBuffer rb :=
  let (stored, d') := d.writeToFront data
  if stored = 0 then (d'.write data).2 else d'

theorem putBack_spec (hd : d.Allocated) (hfront : d.prepend.bytes = []) (h0 : data ≠ []) (hle : data.length ≤ prependCap) :
    (d.putBack data).bytes = data ++ d.bytes ∧ (d.putBack data).prepend.bytes = data ∧ Same d (d.putBack data) := by
  obtain ⟨d', heq, hbytes, hprepend, hsame⟩ := d.writeToFront_spec hd hfront h0 hle
  have hlen : data.length ≠ 0 := fun h => h0 (List.length_eq_zero_iff.1 h)
  simp only [putBack, heq, if_neg hlen]
  exact ⟨hbytes, hprepend, hsame⟩

end DataRingBuffer

end OrangeBox.Tunnel
