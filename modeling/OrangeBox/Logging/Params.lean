import OrangeBox.Logging.Record
/-!
# Parameters of a log record

The reading half of `log_params.cpp`. What was appended to a block is read back
(`block_round_trip`), and no block, whatever its bytes are, makes `get` read
outside of it.
-/

namespace OrangeBox.Logging

variable {block block' : LogParamBlock} {p : LogParam} {ps rest : List LogParam} {source before behind : List UInt8}
  {cursor skip : Nat}

/-! ## Reading -/

/-- A parameter as `get` gives it; a text is a pointer into the block. -/
inductive StoredParam where
  | signed (value : Int64)
  | unsigned (value : UInt64)
  | real (bits : UInt64)
  | boolean (value : Bool)
  | text (pointer : Nat)
  deriving DecidableEq

/-- The 64-bit value of bytes in memory. -/
def ofLittleEndian (bytes : List UInt8) : UInt64 := UInt64.ofNat (bytes.foldr (fun byte n => byte.toNat + 256 * n) 0)

namespace LogParamBlock

/-- `data`. -/
def bytes (block : LogParamBlock) : List UInt8 := List.ofFn block.data

/-- Bytes of `data` from a place on, `none` if they are not all in it. -/
def load (block : LogParamBlock) (start n : Nat) : Option (List UInt8) :=
  if start + n ≤ logParamDataMaxLen then some ((block.bytes.drop start).take n) else none

/-- The entry at the cursor, of a type and a size; `some none` is `false`. -/
def decode (block : LogParamBlock) (type : UInt8) (size cursor : Nat) : Option (Option StoredParam) :=
  if type = 0 then
    if size ≠ 8 then some none
    else (block.load cursor 8).map fun bytes => some (.signed (ofLittleEndian bytes).toInt64)
  else if type = 1 then
    if size ≠ 8 then some none
    else (block.load cursor 8).map fun bytes => some (.unsigned (ofLittleEndian bytes))
  else if type = 2 then
    if size ≠ 8 then some none
    else (block.load cursor 8).map fun bytes =>
      if isfinite (ofLittleEndian bytes) = true then some (.real (ofLittleEndian bytes)) else none
  else if type = 3 then
    if size ≠ 1 then some none
    else (block.load cursor 1).map fun bytes =>
      if bytes.headD 0 > 1 then none else some (.boolean (bytes.headD 0 ≠ 0))
  else if type = 4 then
    if size = 0 then some none
    else (block.load (cursor + size - 1) 1).map fun bytes => if bytes.headD 0 ≠ 0 then none else some (.text cursor)
  else some none

/-- The loop of `get`, `skip` entries before the one that is read. -/
def getFrom (block : LogParamBlock) : Nat → Nat → Option (Option StoredParam)
  | skip, cursor =>
    if cursor + 3 > block.used.toNat then some none
    else
      match block.load cursor 3 with
      | some [type, low, high] =>
        let size := low.toNat ||| high.toNat <<< 8
        if size > block.used.toNat - (cursor + 3) then some none
        else
          match skip with
          | 0 => block.decode type size (cursor + 3)
          | skip + 1 => getFrom block skip (cursor + 3 + size)
      | _ => none

/-- `get`: `none` if it reads outside of `data`, `some none` if it is `false`. -/
def get (index : UInt8) (block : LogParamBlock) : Option (Option StoredParam) :=
  if index ≥ block.count ∨ block.count.toNat > logMaxParams ∨ block.used.toNat > logParamDataMaxLen then some none
  else block.getFrom index.toNat 0

/-- The C text at a pointer, `none` if it does not end in `data`. -/
def cText (block : LogParamBlock) (pointer : Nat) : Option (List UInt8) :=
  if 0 ∈ block.bytes.drop pointer then some ((block.bytes.drop pointer).takeWhile (· ≠ 0)) else none

/-- A parameter with its text. -/
def paramOf (block : LogParamBlock) : StoredParam → Option LogParam
  | .signed value => some (.signed value)
  | .unsigned value => some (.unsigned value)
  | .real bits => some (.real bits)
  | .boolean value => some (.boolean value)
  | .text pointer => (block.cText pointer).map fun text => .text (some text)

end LogParamBlock

/-- The result of `append`, and the block after it. -/
def LogParamBlock.tryAppend (p : LogParam) (block : LogParamBlock) : Bool × LogParamBlock :=
  match block.append p with
  | some block' => (true, block')
  | none => (false, block)

/-- The value of a parameter: of its text, what comes before the NUL. -/
def LogParam.value : LogParam → LogParam
  | .text (some chars) => .text (some (chars.takeWhile (· ≠ 0)))
  | p => p

/-! ## Bytes of a value -/

theorem foldr_bytes (x k : Nat) :
    ((List.range k).map fun i => x / 256 ^ i % 256).foldr (fun byte n => byte + 256 * n) 0 = x % 256 ^ k := by
  induction k generalizing x with
  | zero => rw [Nat.pow_zero, Nat.mod_one, List.range_zero, List.map_nil, List.foldr_nil]
  | succ k ih =>
    have hnext : (List.range k).map (fun i => x / 256 ^ (i + 1) % 256) = (List.range k).map fun i => x / 256 / 256 ^ i % 256 :=
      List.map_congr_left fun i _ => by rw [Nat.div_div_eq_div_mul, Nat.pow_succ']
    rw [List.range_succ_eq_map, List.map_cons, List.foldr_cons, List.map_map]
    change x / 256 ^ 0 % 256 + 256 * ((List.range k).map fun i => x / 256 ^ (i + 1) % 256).foldr _ 0 = _
    rw [hnext, ih, Nat.pow_zero, Nat.div_one, Nat.pow_succ', Nat.mod_mul]

theorem toNat_byteAt (bits : UInt64) {i : Nat} (h : i < 8) :
    ((bits >>> (8 * i).toUInt64).toUInt8).toNat = bits.toNat / 256 ^ i % 256 := by
  have hshift : ((8 * i).toUInt64).toNat = 8 * i := Nat.mod_eq_of_lt (by omega)
  rw [UInt64.toNat_toUInt8, UInt64.toNat_shiftRight, hshift, Nat.mod_eq_of_lt (by omega : 8 * i < 64),
    Nat.shiftRight_eq_div_pow, Nat.pow_mul]

/-- A value is read back from its bytes. -/
@[simp] theorem ofLittleEndian_littleEndian (bits : UInt64) : ofLittleEndian (littleEndian bits) = bits := by
  have hbytes : (littleEndian bits).foldr (fun byte n => byte.toNat + 256 * n) 0 = bits.toNat % 256 ^ 8 := by
    rw [← foldr_bytes, littleEndian, List.foldr_map, List.foldr_map]
    refine List.foldr_ext _ _ _ fun i hi n => ?_
    rw [toNat_byteAt bits (List.mem_range.1 hi)]
  have hlt : bits.toNat < 256 ^ 8 := bits.toNat_lt
  rw [ofLittleEndian, hbytes, Nat.mod_eq_of_lt hlt, UInt64.ofNat_toNat]

@[simp] theorem length_littleEndian (bits : UInt64) : (littleEndian bits).length = 8 := by
  rw [littleEndian, List.length_map, List.length_range]

/-! ## What a block holds -/

/-- The bytes of an entry. -/
def LogParam.entry (p : LogParam) : List UInt8 :=
  match p.bytes with
  | some source => [p.type, source.length.toUInt8, (source.length / 256).toUInt8] ++ source
  | none => []

theorem LogParam.entry_eq (h : p.bytes = some source) :
    p.entry = [p.type, source.length.toUInt8, (source.length / 256).toUInt8] ++ source := by
  rw [entry, h]

/-- The block holds these parameters, one entry behind the other. -/
structure Holds (block : LogParamBlock) (ps : List LogParam) : Prop where
  count : block.count.toNat = ps.length
  count_le : ps.length ≤ logMaxParams
  used : block.used.toNat = (ps.flatMap LogParam.entry).length
  used_le : (ps.flatMap LogParam.entry).length ≤ logParamDataMaxLen
  valid : ∀ p ∈ ps, ∃ source, p.bytes = some source
  data : block.bytes.take block.used.toNat = ps.flatMap LogParam.entry

theorem holds_empty : Holds .empty [] where
  count := rfl
  count_le := Nat.zero_le _
  used := rfl
  used_le := Nat.zero_le _
  valid := fun _ hp => absurd hp List.not_mem_nil
  data := rfl

@[simp] theorem length_bytes (block : LogParamBlock) : block.bytes.length = logParamDataMaxLen := List.length_ofFn

/-- Behind the place where they are stored, the bytes are what they were. -/
theorem take_store {data : Fin logParamDataMaxLen → UInt8} {start : Nat} {bytes : List UInt8}
    (h : start + bytes.length ≤ logParamDataMaxLen) :
    (List.ofFn (LogParamBlock.store start bytes data)).take (start + bytes.length) = (List.ofFn data).take start ++ bytes := by
  refine List.ext_getElem (by simp only [List.length_take, List.length_ofFn, List.length_append]; omega) fun i hi hi' => ?_
  have hlt : i < start + bytes.length := by
    rw [List.length_take] at hi
    omega
  rw [List.getElem_take, List.getElem_ofFn]
  unfold LogParamBlock.store
  by_cases hi₁ : i < start
  · have hleft : i < ((List.ofFn data).take start).length := by
      rw [List.length_take, List.length_ofFn]
      omega
    rw [List.getElem_append_left hleft, List.getElem_take, List.getElem_ofFn, if_neg (by dsimp only; omega)]
  · have hlen : ((List.ofFn data).take start).length = start := by
      rw [List.length_take, List.length_ofFn]
      omega
    rw [List.getElem_append_right (by omega), if_pos (by dsimp only; omega)]
    simp only [hlen]
    rw [List.getD_eq_getElem _ _ (by omega)]

/-- When `append` refuses. -/
theorem append_eq_none_iff (h : Holds block ps) : block.append p = none ↔
    p.bytes = none ∨ ps.length = logMaxParams ∨ logParamDataMaxLen < (ps.flatMap LogParam.entry).length + p.entry.length := by
  have hcount := h.count_le
  have hused := h.used_le
  unfold LogParamBlock.append
  rw [h.count, h.used]
  cases hp : p.bytes with
  | none => simp
  | some source =>
    dsimp only
    rw [ite_eq_left_iff, p.entry_eq hp, List.length_append]
    have hlen : [p.type, source.length.toUInt8, (source.length / 256).toUInt8].length = 3 := rfl
    rw [hlen]
    simp only [reduceCtorEq, imp_false, not_not, false_or]
    omega

/-- An entry more. -/
theorem Holds.append (h : Holds block ps) (happ : block.append p = some block') : Holds block' (ps ++ [p]) := by
  have hsome : block.append p ≠ none := by
    rw [happ]
    exact Option.some_ne_none _
  rw [ne_eq, append_eq_none_iff h, not_or, not_or] at hsome
  obtain ⟨hvalid, hcount, hfits⟩ := hsome
  have hcount_le := h.count_le
  have h160 : logParamDataMaxLen = 160 := rfl
  have h12 : logMaxParams = 12 := rfl
  obtain ⟨source, hsource⟩ := Option.ne_none_iff_exists'.1 hvalid
  have hlen : p.entry.length = 3 + source.length := by
    rw [LogParam.entry_eq hsource, List.length_append]
    rfl
  have hentries : (ps ++ [p]).flatMap LogParam.entry = ps.flatMap LogParam.entry ++ p.entry := by
    rw [List.flatMap_append, List.flatMap_singleton]
  unfold LogParamBlock.append at happ
  rw [hsource] at happ
  dsimp only at happ
  obtain ⟨-, happ⟩ := Option.ite_none_left_eq_some.1 happ
  obtain rfl := Option.some.inj happ
  -- The sum stays below the length of the data, so the 16 bits do not wrap.
  have hused_cast : (block.used + 3 + source.length.toUInt16).toNat = block.used.toNat + p.entry.length := by
    have h3 : (3 : UInt16).toNat = 3 := rfl
    have hsize : source.length.toUInt16.toNat = source.length := Nat.mod_eq_of_lt (by omega)
    have hused := h.used
    rw [UInt16.toNat_add, UInt16.toNat_add, h3, hsize]
    omega
  constructor
  · have h1 : (1 : UInt8).toNat = 1 := rfl
    have hc := h.count
    rw [UInt8.toNat_add, h1, List.length_append, List.length_singleton]
    omega
  · rw [List.length_append, List.length_singleton]
    omega
  · dsimp only
    rw [hused_cast, hentries, List.length_append, h.used]
  · rw [hentries, List.length_append]
    omega
  · intro q hq
    rcases List.mem_append.1 hq with hq | hq
    · exact h.valid q hq
    · rw [List.mem_singleton.1 hq]
      exact ⟨source, hsource⟩
  · dsimp only
    rw [hused_cast, hentries, ← h.data, LogParam.entry_eq hsource]
    have hstart := h.used
    rw [LogParam.entry_eq hsource] at hfits
    exact take_store (by omega)

/-! ## Reading an entry -/

theorem load_eq {mid : List UInt8} (h : block.bytes = before ++ (mid ++ behind)) : block.load before.length mid.length = some mid := by
  have hlen := congrArg List.length h
  rw [length_bytes, List.length_append, List.length_append] at hlen
  unfold LogParamBlock.load
  rw [if_pos (by omega), h, List.drop_left, List.take_left]

/-- Within `data` there is something to load. -/
theorem exists_load (block : LogParamBlock) {start n : Nat} (h : start + n ≤ logParamDataMaxLen) :
    ∃ bytes, block.load start n = some bytes ∧ bytes.length = n := by
  refine ⟨_, if_pos h, ?_⟩
  rw [List.length_take, List.length_drop, length_bytes]
  omega

theorem size_eq {n : Nat} (h : n < 65536) : n.toUInt8.toNat ||| (n / 256).toUInt8.toNat <<< 8 = n := by
  have hlow : n.toUInt8.toNat = n % 256 := rfl
  have hhigh : (n / 256).toUInt8.toNat = n / 256 := Nat.mod_eq_of_lt (by omega)
  rw [hlow, hhigh, Nat.or_comm, ← Nat.shiftLeft_add_eq_or_of_lt (by omega : n % 256 < 2 ^ 8), Nat.shiftLeft_eq]
  omega

theorem cText_eq {text : List UInt8} (h : block.bytes = before ++ (text ++ 0 :: behind)) (hno : 0 ∉ text) :
    block.cText before.length = some text := by
  unfold LogParamBlock.cText
  rw [h, List.drop_left, if_pos (by simp), takeWhile_nul hno]

theorem decode_signed (block : LogParamBlock) (size cursor : Nat) : block.decode 0 size cursor =
    if size ≠ 8 then some none
    else (block.load cursor 8).map fun bytes => some (.signed (ofLittleEndian bytes).toInt64) := rfl

theorem decode_unsigned (block : LogParamBlock) (size cursor : Nat) : block.decode 1 size cursor =
    if size ≠ 8 then some none
    else (block.load cursor 8).map fun bytes => some (.unsigned (ofLittleEndian bytes)) := rfl

theorem decode_real (block : LogParamBlock) (size cursor : Nat) : block.decode 2 size cursor =
    if size ≠ 8 then some none
    else (block.load cursor 8).map fun bytes =>
      if isfinite (ofLittleEndian bytes) = true then some (.real (ofLittleEndian bytes)) else none := rfl

theorem decode_boolean (block : LogParamBlock) (size cursor : Nat) : block.decode 3 size cursor =
    if size ≠ 1 then some none
    else (block.load cursor 1).map fun bytes =>
      if bytes.headD 0 > 1 then none else some (.boolean (bytes.headD 0 ≠ 0)) := rfl

theorem decode_text (block : LogParamBlock) (size cursor : Nat) : block.decode 4 size cursor =
    if size = 0 then some none
    else (block.load (cursor + size - 1) 1).map fun bytes => if bytes.headD 0 ≠ 0 then none else some (.text cursor) := rfl

/-- An entry is read back. -/
theorem decode_entry (hp : p.bytes = some source) (h : block.bytes = before ++ (source ++ behind)) :
    ∃ stored, block.decode p.type source.length before.length = some (some stored) ∧ block.paramOf stored = some p.value := by
  have hload := load_eq h
  have hlen := congrArg List.length h
  rw [length_bytes, List.length_append, List.length_append] at hlen
  cases p with
  | signed value =>
    obtain rfl := Option.some.inj hp
    refine ⟨.signed value, ?_, rfl⟩
    rw [length_littleEndian] at hload
    have htype : (LogParam.signed value).type = 0 := rfl
    rw [htype, decode_signed, length_littleEndian, if_neg (by decide), hload]
    simp
  | unsigned value =>
    obtain rfl := Option.some.inj hp
    refine ⟨.unsigned value, ?_, rfl⟩
    rw [length_littleEndian] at hload
    have htype : (LogParam.unsigned value).type = 1 := rfl
    rw [htype, decode_unsigned, length_littleEndian, if_neg (by decide), hload]
    simp
  | real bits =>
    obtain ⟨hfinite, hs⟩ := Option.ite_none_right_eq_some.1 hp
    obtain rfl := Option.some.inj hs
    refine ⟨.real bits, ?_, rfl⟩
    rw [length_littleEndian] at hload
    have htype : (LogParam.real bits).type = 2 := rfl
    rw [htype, decode_real, length_littleEndian, if_neg (by decide), hload]
    simp [hfinite]
  | boolean value =>
    obtain rfl := Option.some.inj hp
    refine ⟨.boolean value, ?_, rfl⟩
    rw [List.length_singleton] at hload ⊢
    have htype : (LogParam.boolean value).type = 3 := rfl
    rw [htype, decode_boolean, if_neg (by decide), hload]
    cases value <;> decide
  | text value =>
    cases value with
    | none => contradiction
    | some chars =>
      obtain rfl := Option.some.inj hp
      have h160 : logParamDataMaxLen = 160 := rfl
      have hwhole : (chars.takeWhile (· ≠ 0)).take logParamDataMaxLen = chars.takeWhile (· ≠ 0) := by
        rw [List.take_eq_self_iff]
        rw [List.length_append, List.length_take, List.length_singleton] at hlen
        omega
      have hno : 0 ∉ chars.takeWhile (· ≠ 0) := noNul_takeWhile chars
      rw [hwhole] at h hlen ⊢
      have hpointer : block.cText before.length = some (chars.takeWhile (· ≠ 0)) := by
        rw [List.append_assoc, List.singleton_append] at h
        exact cText_eq h hno
      -- The last byte of the entry is the NUL.
      have hlast : block.load (before.length + (chars.takeWhile (· ≠ 0)).length) 1 = some [0] := by
        have hsplit : block.bytes = (before ++ chars.takeWhile (· ≠ 0)) ++ ([0] ++ behind) := by
          rw [h]
          simp only [List.append_assoc]
        rw [← List.length_append]
        exact load_eq hsplit
      refine ⟨.text before.length, ?_, ?_⟩
      · have htype : (LogParam.text (some chars)).type = 4 := rfl
        rw [htype, decode_text, if_neg (by simp), List.length_append, List.length_singleton, ← Nat.add_assoc,
          Nat.add_sub_cancel, hlast]
        rfl
      · have hread : block.paramOf (.text before.length) =
            (block.cText before.length).map fun text => .text (some text) := rfl
        rw [hread, hpointer]
        rfl

/-- The loop of `get` over the entries that are left. -/
theorem getFrom_entries (hvalid : ∀ p ∈ rest, ∃ source, p.bytes = some source)
    (h : block.bytes = before ++ (rest.flatMap LogParam.entry ++ behind))
    (hused : block.used.toNat = before.length + (rest.flatMap LogParam.entry).length) (hskip : skip < rest.length) :
    ∃ stored, block.getFrom skip before.length = some (some stored) ∧
      block.paramOf stored = (rest.map LogParam.value)[skip]? := by
  induction rest generalizing before skip with
  | nil => exact absurd hskip (Nat.not_lt_zero skip)
  | cons p rest ih =>
    obtain ⟨source, hsource⟩ := hvalid p List.mem_cons_self
    have hlen := congrArg List.length h
    rw [List.flatMap_cons, LogParam.entry_eq hsource] at h hused
    have hheader : [p.type, source.length.toUInt8, (source.length / 256).toUInt8].length = 3 := rfl
    simp only [List.append_assoc] at h
    have hload := load_eq h
    rw [hheader] at hload
    simp only [List.length_append, hheader] at hused
    have hbytes : source.length < 65536 := by
      have hmax := block.used.toNat_lt
      omega
    have hbefore : before.length + 3 = (before ++ [p.type, source.length.toUInt8, (source.length / 256).toUInt8]).length := by
      rw [List.length_append, hheader]
    unfold LogParamBlock.getFrom
    rw [if_neg (by omega), hload]
    dsimp only
    rw [size_eq hbytes, if_neg (by omega)]
    cases skip with
    | zero =>
      dsimp only
      rw [hbefore]
      exact decode_entry hsource (by rw [h, List.append_assoc])
    | succ skip =>
      dsimp only
      have hnext : before.length + 3 + source.length =
          (before ++ ([p.type, source.length.toUInt8, (source.length / 256).toUInt8] ++ source)).length := by
        rw [List.length_append, List.length_append, hheader, Nat.add_assoc]
      rw [hnext]
      refine ih (fun q hq => hvalid q (List.mem_cons_of_mem p hq)) ?_ ?_ (Nat.lt_of_succ_lt_succ hskip)
      · rw [h]
        simp only [List.append_assoc]
      · rw [← hnext]
        omega

/-- The block reads back what it holds. -/
theorem Holds.get (h : Holds block ps) (hi : index.toNat < ps.length) :
    ∃ stored, block.get index = some (some stored) ∧ block.paramOf stored = (ps.map LogParam.value)[index.toNat]? := by
  have hcount := h.count
  have hbytes : block.bytes = [] ++ (ps.flatMap LogParam.entry ++ block.bytes.drop block.used.toNat) := by
    rw [List.nil_append, ← h.data, List.take_append_drop]
  have hin : ¬(index ≥ block.count ∨ block.count.toNat > logMaxParams ∨ block.used.toNat > logParamDataMaxLen) := by
    have hle := h.count_le
    have hused := h.used
    have hused_le := h.used_le
    rw [ge_iff_le, UInt8.le_iff_toNat_le]
    omega
  unfold LogParamBlock.get
  rw [if_neg hin]
  exact getFrom_entries h.valid hbytes (by rw [h.used, List.length_nil, Nat.zero_add]) hi

/-! ## Any block -/

/-- A pointer to the text of an entry: behind a header of its type and size,
within what is used, and with its NUL within that size. -/
def InEntry (block : LogParamBlock) (pointer : Nat) : Prop :=
  ∃ start low high text, pointer = start + 3 ∧ block.load start 3 = some [4, low, high] ∧
    pointer + (low.toNat ||| high.toNat <<< 8) ≤ block.used.toNat ∧ block.used.toNat ≤ logParamDataMaxLen ∧
    block.cText pointer = some text ∧ text.length < low.toNat ||| high.toNat <<< 8

/-- A NUL in some bytes ends the text before they end. -/
theorem cText_of_nul {pointer size : Nat} (hsize : size ≠ 0) (hfits : pointer + size ≤ logParamDataMaxLen)
    (hnul : block.load (pointer + size - 1) 1 = some [0]) : ∃ text, block.cText pointer = some text ∧ text.length < size := by
  have hdrop : block.bytes.drop (pointer + size - 1) = 0 :: block.bytes.drop (pointer + size) := by
    unfold LogParamBlock.load at hnul
    rw [if_pos (by omega), Option.some_inj] at hnul
    have hlt : pointer + size - 1 < block.bytes.length := by
      rw [length_bytes]
      omega
    rw [List.drop_eq_getElem_cons hlt, List.take_succ_cons, List.cons.injEq] at hnul
    rw [List.drop_eq_getElem_cons hlt, hnul.1]
    congr 2
    omega
  have hsplit : block.bytes.drop pointer =
      (block.bytes.drop pointer).take (size - 1) ++ 0 :: block.bytes.drop (pointer + size) := by
    rw [← hdrop, show pointer + size - 1 = pointer + (size - 1) by omega, ← List.drop_drop, List.take_append_drop]
  refine ⟨(block.bytes.drop pointer).takeWhile (· ≠ 0), ?_, ?_⟩
  · unfold LogParamBlock.cText
    rw [if_pos (by rw [hsplit]; simp)]
  · -- The text ends at that NUL, or before it.
    rw [hsplit]
    rcases eq_takeWhile_nul ((block.bytes.drop pointer).take (size - 1)) with ⟨hno, -⟩ | ⟨tail, htail⟩
    · rw [takeWhile_nul hno, List.length_take]
      omega
    · have hno : 0 ∉ ((block.bytes.drop pointer).take (size - 1)).takeWhile (· ≠ 0) := noNul_takeWhile _
      have hlen := congrArg List.length htail
      rw [List.length_append, List.length_cons, List.length_take] at hlen
      rw [htail, List.append_assoc, List.cons_append, takeWhile_nul hno]
      omega

/-- A value of a fixed size is read without leaving `data`. -/
theorem plain_safe {size n : Nat} {f : List UInt8 → Option StoredParam} (h : cursor + size ≤ logParamDataMaxLen)
    (hf : ∀ bytes pointer, f bytes ≠ some (.text pointer)) :
    ∃ result, (if size ≠ n then some none else (block.load cursor n).map f) = some result ∧
      ∀ pointer, result ≠ some (.text pointer) := by
  by_cases hs : size ≠ n
  · rw [if_pos hs]
    exact ⟨none, rfl, fun pointer he => absurd he.symm (Option.some_ne_none _)⟩
  · rw [not_not] at hs
    subst hs
    obtain ⟨bytes, hload, -⟩ := exists_load block h
    rw [if_neg (not_not.2 rfl), hload]
    exact ⟨f bytes, rfl, hf bytes⟩

/-- An entry is read without leaving `data`. -/
theorem decode_safe (block : LogParamBlock) (type : UInt8) {size : Nat} (h : cursor + size ≤ logParamDataMaxLen) :
    ∃ result, block.decode type size cursor = some result ∧
      ∀ pointer, result = some (.text pointer) → pointer = cursor ∧ type = 4 ∧
        ∃ text, block.cText pointer = some text ∧ text.length < size := by
  by_cases htext : type = 4
  · subst htext
    rw [decode_text]
    by_cases hs : size = 0
    · rw [if_pos hs]
      exact ⟨none, rfl, fun _ he => (by cases he)⟩
    · have hlast : cursor + size - 1 + 1 ≤ logParamDataMaxLen := by omega
      obtain ⟨bytes, hload, hlen⟩ := exists_load block hlast
      obtain ⟨last, rfl⟩ := List.length_eq_one_iff.1 hlen
      rw [if_neg hs, hload]
      refine ⟨_, rfl, fun pointer he => ?_⟩
      dsimp only at he
      by_cases hz : last ≠ 0
      · rw [List.headD_cons, if_pos hz] at he
        cases he
      · rw [List.headD_cons, if_neg hz] at he
        cases he
        rw [not_not.1 hz] at hload
        exact ⟨rfl, rfl, cText_of_nul hs h hload⟩
  · -- No other type gives a text.
    have hplain : ∃ result, block.decode type size cursor = some result ∧ ∀ pointer, result ≠ some (.text pointer) := by
      unfold LogParamBlock.decode
      split
      · exact plain_safe h fun bytes pointer he => (by cases he)
      split
      · exact plain_safe h fun bytes pointer he => (by cases he)
      split
      · refine plain_safe h fun bytes pointer he => ?_
        split at he <;> cases he
      split
      · refine plain_safe h fun bytes pointer he => ?_
        split at he <;> cases he
      exact ⟨none, rfl, fun pointer he => absurd he.symm (Option.some_ne_none _)⟩
    obtain ⟨result, hdecode, hne⟩ := hplain
    exact ⟨result, hdecode, fun pointer he => absurd he (hne pointer)⟩

/-- `get` stays within `data`, and a text that it returns ends in its entry. -/
theorem getFrom_safe (hused : block.used.toNat ≤ logParamDataMaxLen) (skip cursor : Nat) :
    ∃ result, block.getFrom skip cursor = some result ∧
      ∀ pointer, result = some (.text pointer) → InEntry block pointer := by
  induction skip generalizing cursor with
  | zero =>
    unfold LogParamBlock.getFrom
    by_cases hend : cursor + 3 > block.used.toNat
    · rw [if_pos hend]
      exact ⟨none, rfl, fun _ he => by cases he⟩
    · obtain ⟨bytes, hload, hlen⟩ := exists_load block (by omega : cursor + 3 ≤ logParamDataMaxLen)
      obtain ⟨type, low, high, rfl⟩ := List.length_eq_three.1 hlen
      rw [if_neg hend, hload]
      dsimp only
      by_cases hsize : (low.toNat ||| high.toNat <<< 8) > block.used.toNat - (cursor + 3)
      · rw [if_pos hsize]
        exact ⟨none, rfl, fun _ he => by cases he⟩
      · rw [if_neg hsize]
        obtain ⟨result, hdecode, htext⟩ :=
          decode_safe block type (show cursor + 3 + (low.toNat ||| high.toNat <<< 8) ≤ logParamDataMaxLen by omega)
        refine ⟨result, hdecode, fun pointer he => ?_⟩
        obtain ⟨rfl, rfl, text, hc, hlt⟩ := htext pointer he
        exact ⟨cursor, low, high, text, rfl, hload, by omega, hused, hc, hlt⟩
  | succ skip ih =>
    unfold LogParamBlock.getFrom
    by_cases hend : cursor + 3 > block.used.toNat
    · rw [if_pos hend]
      exact ⟨none, rfl, fun _ he => by cases he⟩
    · obtain ⟨bytes, hload, hlen⟩ := exists_load block (by omega : cursor + 3 ≤ logParamDataMaxLen)
      obtain ⟨type, low, high, rfl⟩ := List.length_eq_three.1 hlen
      rw [if_neg hend, hload]
      dsimp only
      by_cases hsize : (low.toNat ||| high.toNat <<< 8) > block.used.toNat - (cursor + 3)
      · rw [if_pos hsize]
        exact ⟨none, rfl, fun _ he => by cases he⟩
      · rw [if_neg hsize]
        exact ih _

theorem get_safe (block : LogParamBlock) (index : UInt8) :
    ∃ result, block.get index = some result ∧ ∀ pointer, result = some (.text pointer) → InEntry block pointer := by
  unfold LogParamBlock.get
  by_cases h : index ≥ block.count ∨ block.count.toNat > logMaxParams ∨ block.used.toNat > logParamDataMaxLen
  · rw [if_pos h]
    exact ⟨none, rfl, fun _ he => by cases he⟩
  · rw [if_neg h]
    exact getFrom_safe (by omega) _ _

/-! ## The round trip -/

/-- Parameters appended one after the other, and those that were accepted. -/
def appendAll (params : List LogParam) : LogParamBlock × List LogParam :=
  params.foldl (fun (block, accepted) p => ((block.tryAppend p).2, if (block.tryAppend p).1 = true then accepted ++ [p] else accepted))
    (.empty, [])

/-- A block holds what it accepted, in this order. -/
theorem holds_appendAll (params : List LogParam) : Holds (appendAll params).1 (appendAll params).2 := by
  unfold appendAll
  induction params using List.reverseRecOn with
  | nil => exact holds_empty
  | append_singleton params p ih =>
    rw [List.foldl_append, List.foldl_cons, List.foldl_nil]
    generalize params.foldl _ (LogParamBlock.empty, []) = now at ih ⊢
    obtain ⟨block, accepted⟩ := now
    dsimp only
    unfold LogParamBlock.tryAppend
    cases happ : block.append p with
    | none => exact ih
    | some block' => exact ih.append happ

/-- A value that no block takes: a real that is not finite, or no text at all. -/
theorem bytes_eq_none_iff : p.bytes = none ↔ (∃ bits, p = .real bits ∧ isfinite bits = false) ∨ p = .text none := by
  cases p with
  | real bits =>
    have hread : (LogParam.real bits).bytes = if isfinite bits = true then some (littleEndian bits) else none := rfl
    rw [hread]
    by_cases h : isfinite bits = true
    · rw [if_pos h]
      simp [h]
    · rw [if_neg h]
      simp [h]
  | text value =>
    cases value with
    | none => simp [LogParam.bytes]
    | some chars => simp [LogParam.bytes]
  | _ => simp [LogParam.bytes]

/-- Parameter blocks. Of any sequence of parameters that are appended to an empty
block, it gives back those that it accepted, in this order and with their values,
and nothing beyond them; it refuses the values that are none, and those for which
there is no room, and stays as it was. No block at all, however its bytes came
about, makes `get` read outside of it or return a text that goes on behind its
entry. -/
theorem block_round_trip :
    (∀ params : List LogParam,
      (∀ index : UInt8, index < (appendAll params).1.count → ∃ stored p, (appendAll params).1.get index = some (some stored) ∧
        (appendAll params).2[index.toNat]? = some p ∧ (appendAll params).1.paramOf stored = some p.value) ∧
      (appendAll params).1.count.toNat = (appendAll params).2.length ∧
      (∀ index : UInt8, (appendAll params).1.count ≤ index → (appendAll params).1.get index = some none) ∧
      ∀ p, (((appendAll params).1.tryAppend p).1 = false ↔
          (∃ bits, p = .real bits ∧ isfinite bits = false) ∨ p = .text none ∨ (appendAll params).2.length = logMaxParams ∨
            logParamDataMaxLen < ((appendAll params).2.flatMap LogParam.entry).length + p.entry.length) ∧
        (((appendAll params).1.tryAppend p).1 = false → ((appendAll params).1.tryAppend p).2 = (appendAll params).1)) ∧
    ∀ (block : LogParamBlock) (index : UInt8),
      ∃ result, block.get index = some result ∧ ∀ pointer, result = some (.text pointer) → InEntry block pointer := by
  refine ⟨fun params => ?_, get_safe⟩
  have hold := holds_appendAll params
  generalize (appendAll params).1 = block at hold ⊢
  generalize (appendAll params).2 = accepted at hold ⊢
  have hcount := hold.count
  refine ⟨fun index hindex => ?_, hcount, fun index hindex => ?_, fun p => ⟨?_, fun h => ?_⟩⟩
  · rw [UInt8.lt_iff_toNat_lt, hcount] at hindex
    obtain ⟨stored, hget, hvalue⟩ := hold.get hindex
    refine ⟨stored, accepted.get ⟨index.toNat, hindex⟩, hget, List.getElem?_eq_getElem hindex, ?_⟩
    rw [hvalue, List.getElem?_map, List.getElem?_eq_getElem hindex]
    rfl
  · unfold LogParamBlock.get
    rw [if_pos (Or.inl hindex)]
  · rw [← or_assoc, ← bytes_eq_none_iff, ← append_eq_none_iff hold]
    unfold LogParamBlock.tryAppend
    cases block.append p <;> simp
  · unfold LogParamBlock.tryAppend at h ⊢
    cases happ : block.append p with
    | none => rfl
    | some block' =>
      rw [happ] at h
      contradiction

/-- A refused value between two accepted ones leaves no trace. -/
theorem block_round_trip_second : ∃ stored,
    (appendAll [.text (some [65, 0, 66]), .real 0x7ff0000000000000, .boolean true]).1.get 1 = some (some stored) ∧
      (appendAll [.text (some [65, 0, 66]), .real 0x7ff0000000000000, .boolean true]).1.paramOf stored = some (.boolean true) := by
  have hcount : (1 : UInt8) < (appendAll [.text (some [65, 0, 66]), .real 0x7ff0000000000000, .boolean true]).1.count := by decide
  have haccepted : (appendAll [.text (some [65, 0, 66]), .real 0x7ff0000000000000, .boolean true]).2[1]? = some (.boolean true) := by
    decide
  obtain ⟨stored, p, hget, hp, hvalue⟩ := (block_round_trip.1 _).1 1 hcount
  obtain rfl := Option.some.inj (haccepted.symm.trans hp)
  exact ⟨stored, hget, hvalue⟩

end OrangeBox.Logging
