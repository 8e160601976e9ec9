import OrangeBox.PassStore.Surgery
/-!
# The operations on a well-formed pool

On a well-formed pool every read of `addCred`, `updateCred` and `removeCred`
succeeds, and comes before the first write. So each operation either does
nothing or is a few writes in a row, whose results decide the rest: one
equation an operation, for any fault schedule.
-/
open Flash Linked

namespace OrangeBox.PassStore

variable {p : Nvs} {ids : List UInt32} {rec : CacheRecord} {old ra rb t : CredRecord} {k : UInt32}
  {fs : List Fault} {r : CredStorage}

/-! ## Reads -/

theorem WellLinked.exists_neighbours (h : WellLinked p ids) (hk : k ∈ ids) (hr : readRecord p k = some old) :
    ∃ ra rb, readRecord p old.prevId = some ra ∧ ra.nextId = k ∧ readRecord p old.nextId = some rb ∧
      rb.prevId = k := by
  obtain ⟨u, v, hl⟩ := h.neighbours hk hr
  have hc := h.chained
  rw [Chained, hl] at hc
  obtain ⟨-, hak, hc⟩ := List.isChain_append_cons_cons.1 hc
  obtain ⟨hkb, -⟩ := List.isChain_cons_cons.1 hc
  obtain ⟨ra, hra, hnext⟩ := fwd_iff.1 hak.1
  obtain ⟨rb, hrb, hprev⟩ := bwd_iff.1 hkb.2
  exact ⟨ra, rb, hra, hnext, hrb, hprev⟩

theorem WellLinked.exists_tail (h : WellLinked p ids) :
    ∃ t ra l, readRecord p lastKey = some t ∧ readRecord p t.prevId = some ra ∧ firstKey :: ids = l ++ [t.prevId] := by
  obtain ⟨t, ht, -⟩ := h.tail
  obtain ⟨l, ra, hl, hra, -⟩ := h.last ht
  exact ⟨t, ra, l, ht, hra, hl⟩

/-- Every record of the pool is linked in. -/
theorem verifyLocalChain_eq (h : WellLinked p ids) (hr : readRecord p k = some old) (hk : k ∈ nodes ids) :
    verifyLocalChain k ⟨p, fs, r⟩ = .ret true ⟨p, fs, r⟩ := by
  have hid := h.read_credId hk hr
  by_cases hreal : k = firstKey ∨ k = lastKey
  · simp [verifyLocalChain, hr, hid, hreal]
  · have hk : k ∈ ids := by
      simp only [not_or] at hreal
      simpa [hreal] using hk
    obtain ⟨ra, rb, hra, hnext, hrb, hprev⟩ := h.exists_neighbours hk hr
    simp [verifyLocalChain, hr, hid, hreal, hra, hrb, hnext, hprev]

/-! ## Adding -/

/-- The end of `addCred`. -/
def addDone (rec : CacheRecord) (newId : UInt32) : Op UInt32 :=
  if newId = 0 then return 0
  else do
    setRam fun r => { r with credsCache := r.credsCache ++ [{ rec with credId := newId }] }
    return newId

theorem addDone_zero : addDone rec 0 ⟨p, fs, r⟩ = .ret 0 ⟨p, fs, r⟩ := rfl

theorem addDone_of_ne {newId : UInt32} (h : newId ≠ 0) : addDone rec newId ⟨p, fs, r⟩ =
    .ret newId ⟨p, fs, { r with credsCache := r.credsCache ++ [{ rec with credId := newId }] }⟩ := by
  simp [addDone, h]

theorem writeCred_insert {credIn : CredRecord} (ht : readRecord p lastKey = some t)
    (hra : readRecord p t.prevId = some ra) (hid : credIn.credId = 0) :
    writeCred credIn ⟨p, fs, r⟩ = insertCred credIn t ra ⟨p, fs, r⟩ := by
  simp [writeCred, hid, ht, hra]

/-- The writes of `insertCred`. -/
def insertWrites (t ra rn : CredRecord) : List (Write Key Blob) :=
  [store (ra.withNext t.nextId), store rn, store ((t.withNext (t.nextId + 1)).withPrev t.nextId)]

theorem insertCred_eq {credIn : CredRecord} (ht : t.recordType = .credentialV1) (hra : ra.recordType = .credentialV1)
    (hc : credIn.recordType = .credentialV1) :
    insertCred credIn t ra = do
      let _ ← write (store (ra.withNext t.nextId))
      let _ ← write (store (newRecord credIn t))
      let written ← write (store ((t.withNext (t.nextId + 1)).withPrev t.nextId))
      if written = true then return t.nextId else return 0 := by
  have h1 : (ra.withNext t.nextId).recordType = .credentialV1 := by rw [withNext_recordType, hra]
  have h2 : (newRecord credIn t).recordType = .credentialV1 := hc
  have h3 : ((t.withNext (t.nextId + 1)).withPrev t.nextId).recordType = .credentialV1 := by
    rw [withPrev_recordType, withNext_recordType, ht]
  rw [← writeData_eq h1, ← writeData_eq h2, ← writeData_eq h3]
  rfl

theorem insertCred_traced {credIn : CredRecord} (ht : t.recordType = .credentialV1)
    (hra : ra.recordType = .credentialV1) (hc : credIn.recordType = .credentialV1) :
    Traced (insertCred credIn t ra) p r (insertWrites t ra (newRecord credIn t)) t.nextId r := by
  rw [insertCred_eq ht hra hc]
  exact Traced.bind (.write _) (Traced.bind (.write _) (Traced.bind (.write _) (.pure _)))

/-- Power stays on, but writes may fail. -/
theorem insertCred_of_mem {credIn : CredRecord} (ht : t.recordType = .credentialV1)
    (hra : ra.recordType = .credentialV1) (hc : credIn.recordType = .credentialV1) (hfs : Fault.powerLost ∉ fs) :
    insertCred credIn t ra ⟨p, fs, r⟩ =
      .ret (if nextWorks fs.tail.tail = true then t.nextId else 0)
        ⟨inserted p t ra (newRecord credIn t) (nextWorks fs) (nextWorks fs.tail) (nextWorks fs.tail.tail),
          fs.tail.tail.tail, r⟩ := by
  have h1 := powerLost_not_mem_tail hfs
  have h2 := powerLost_not_mem_tail h1
  rw [insertCred_eq ht hra hc]
  simp only [bind_apply, write_of_mem _ hfs, write_of_mem _ h1, write_of_mem _ h2, andThen_ret]
  cases nextWorks fs.tail.tail <;> rfl

theorem addCred_invalid (hv : validateCred rec = false) (s : Sys Key Blob CredStorage) :
    addCred rec s = .ret 0 s := by
  simp [addCred, hv]

theorem addCred_valid (ht : readRecord p lastKey = some t) (hra : readRecord p t.prevId = some ra)
    (hv : validateCred rec = true) :
    addCred rec ⟨p, fs, r⟩ = (insertCred (newCredRecord rec) t ra >>= addDone rec) ⟨p, fs, r⟩ := by
  simp only [addCred, hv, Bool.true_eq_false, if_false, bind_apply, writeCred_insert ht hra (show (newCredRecord rec).credId = 0 from rfl)]
  rfl

/-- With nothing failing and an id left, a valid credential is added. -/
theorem addCred_run (ht : readRecord p lastKey = some t) (hra : readRecord p t.prevId = some ra)
    (hv : validateCred rec = true) (h0 : t.nextId ≠ 0) :
    addCred rec ⟨p, [], r⟩ = .ret t.nextId ⟨inserted p t ra (newRecord (newCredRecord rec) t) true true true, [],
      { r with credsCache := r.credsCache ++ [{ rec with credId := t.nextId }] }⟩ := by
  rw [addCred_valid ht hra hv, bind_apply,
    insertCred_of_mem (recordType_of_read ht) (recordType_of_read hra) rfl List.not_mem_nil]
  exact addDone_of_ne h0

/-! ## Updating -/

@[simp] theorem updated_credId : (old.updated rec).credId = old.credId := rfl
@[simp] theorem updated_nextId : (old.updated rec).nextId = old.nextId := rfl
@[simp] theorem updated_prevId : (old.updated rec).prevId = old.prevId := rfl
@[simp] theorem updated_recordType : (old.updated rec).recordType = old.recordType := rfl

/-- The end of `updateCred`. -/
def updateDone (rec : CacheRecord) (updated : Bool) : Op Bool :=
  if updated = true then do
    setRam fun r => { r with credsCache := replaceCached rec r.credsCache }
    return true
  else return false

theorem updateDone_true : updateDone rec true ⟨p, fs, r⟩ =
    .ret true ⟨p, fs, { r with credsCache := replaceCached rec r.credsCache }⟩ := rfl

theorem updateDone_false : updateDone rec false ⟨p, fs, r⟩ = .ret false ⟨p, fs, r⟩ := rfl

/-- `updateCred rec` finds its record. -/
structure Updates (p : Nvs) (rec : CacheRecord) (old : CredRecord) : Prop where
  valid : validateCred rec = true
  stored : readRecord p rec.credId = some old
  same : sameCred old rec = true

theorem sameCred_iff {c : CredRecord} : sameCred c rec = true ↔
    c.credType = rec.credType ∧ c.name = rec.name ∧ c.credential = rec.credential := by
  simp [sameCred, and_assoc]

theorem updateCred_refused (h : ∀ old, ¬Updates p rec old) :
    updateCred rec ⟨p, fs, r⟩ = .ret false ⟨p, fs, r⟩ := by
  by_cases hv : validateCred rec = true
  · cases hr : readRecord p rec.credId with
    | none => simp [updateCred, update, hv, hr]
    | some old =>
      have hs : sameCred old rec = false := by
        by_contra hs
        exact h old ⟨hv, hr, by simpa using hs⟩
      simp [updateCred, update, hv, hr, hs]
  · simp [updateCred, Bool.not_eq_true _ ▸ hv]

theorem Updates.credId (h : WellFormed p ids) (hu : Updates p rec old) : old.credId = rec.credId :=
  h.read_credId (h.mem_of_read hu.stored) hu.stored

/-- A stored credential is written back with the new fields. -/
theorem updateCred_stored (h : WellFormed p ids) (hu : Updates p rec old) (hid : rec.credId ≠ firstKey) :
    updateCred rec ⟨p, fs, r⟩ = (write (store (old.updated rec)) >>= updateDone rec) ⟨p, fs, r⟩ := by
  have hold : (old.updated rec).credId = rec.credId := by rw [updated_credId, hu.credId h]
  have htype : (old.updated rec).recordType = .credentialV1 := by rw [updated_recordType, recordType_of_read hu.stored]
  have hchain : verifyLocalChain rec.credId ⟨p, fs, r⟩ = .ret true ⟨p, fs, r⟩ :=
    verifyLocalChain_eq h.toWellLinked hu.stored (h.mem_of_read hu.stored)
  simp only [updateCred, update, writeCred, bind_apply, readData_apply, andThen_ret, hu.stored, hu.same, hu.valid, hold,
    hid, hchain, writeData_eq htype, ite_prog_apply, Bool.true_eq_false, if_false, false_or, reduceCtorEq]
  cases write (store (old.updated rec)) ⟨p, fs, r⟩ with
  | ret b s => cases b <;> simp [updateDone, hid]
  | _ => rfl

theorem updateCred_run (h : WellFormed p ids) (hu : Updates p rec old) (hid : rec.credId ≠ firstKey) :
    updateCred rec ⟨p, [], r⟩ = .ret true ⟨(store (old.updated rec)).apply p, [],
      { r with credsCache := replaceCached rec r.credsCache }⟩ := by
  rw [updateCred_stored h hu hid]
  rfl

/-- HEAD's text, updated under id 0, is inserted as a new credential. -/
theorem updateCred_head (h : WellFormed p ids) (hu : Updates p rec old) (hid : rec.credId = firstKey)
    (ht : readRecord p lastKey = some t) (hra : readRecord p t.prevId = some ra) :
    updateCred rec ⟨p, fs, r⟩ =
      (insertCred (old.updated rec) t ra >>= fun newId => updateDone rec (newId ≠ 0)) ⟨p, fs, r⟩ := by
  have hold : (old.updated rec).credId = 0 := by rw [updated_credId, hu.credId h, hid]
  simp only [updateCred, update, bind_apply, readData_apply, andThen_ret, hu.stored, hu.same, hu.valid,
    ite_prog_apply, Bool.true_eq_false, if_false, writeCred_insert ht hra hold]
  cases insertCred (old.updated rec) t ra ⟨p, fs, r⟩ <;> rfl

/-! ## Removing -/

/-- The end of `removeCred`. -/
def removeDone (rec : CacheRecord) : Op UInt32 := do
  setRam fun r => { r with credsCache := r.credsCache.eraseP (·.credId = rec.credId) }
  return rec.credId

theorem removeDone_eq : removeDone rec ⟨p, fs, r⟩ =
    .ret rec.credId ⟨p, fs, { r with credsCache := r.credsCache.eraseP (·.credId = rec.credId) }⟩ := rfl

/-- `removeCred rec` finds its record and the neighbours. -/
structure Removes (p : Nvs) (rec : CacheRecord) (old ra rb : CredRecord) : Prop where
  stored : readRecord p rec.credId = some old
  text : validateCredential (some rec.credential.bytes) rec.credType 0 = true
  same : sameCred old rec = true
  prev : readRecord p old.prevId = some ra
  next : readRecord p old.nextId = some rb

theorem Removes.credId (h : WellFormed p ids) (hr : Removes p rec old ra rb) : old.credId = rec.credId :=
  h.read_credId (h.mem_of_read hr.stored) hr.stored

/-- The writes of `unlinkCred`. -/
def unlinkWrites (x : UInt32) (old ra rb : CredRecord) : List (Write Key Blob) :=
  [store (ra.withNext old.nextId), discard x, store (rb.withPrev old.prevId)]

theorem unlinkCred_eq {x : UInt32} (hra : ra.recordType = .credentialV1) (hrb : rb.recordType = .credentialV1) :
    unlinkCred x old ra rb = do
      let _ ← write (store (ra.withNext old.nextId))
      let _ ← write (discard x)
      let _ ← write (store (rb.withPrev old.prevId))
      return () := by
  have h1 : (ra.withNext old.nextId).recordType = .credentialV1 := by rw [withNext_recordType, hra]
  have h3 : (rb.withPrev old.prevId).recordType = .credentialV1 := by rw [withPrev_recordType, hrb]
  rw [← writeData_eq h1, ← writeData_eq h3]
  rfl

theorem unlinkCred_traced {x : UInt32} (hra : ra.recordType = .credentialV1) (hrb : rb.recordType = .credentialV1) :
    Traced (unlinkCred x old ra rb) p r (unlinkWrites x old ra rb) () r := by
  rw [unlinkCred_eq hra hrb]
  exact Traced.bind (.write _) (Traced.bind (.write _) (Traced.bind (.write _) (.pure _)))

theorem unlinkCred_of_mem (x : UInt32) (old : CredRecord) (hra : ra.recordType = .credentialV1)
    (hrb : rb.recordType = .credentialV1) (hfs : Fault.powerLost ∉ fs) :
    unlinkCred x old ra rb ⟨p, fs, r⟩ =
      .ret () ⟨deleted p x old ra rb (nextWorks fs) (nextWorks fs.tail) (nextWorks fs.tail.tail), fs.tail.tail.tail, r⟩ := by
  have h1 := powerLost_not_mem_tail hfs
  have h2 := powerLost_not_mem_tail h1
  rw [unlinkCred_eq hra hrb]
  simp only [bind_apply, write_of_mem _ hfs, write_of_mem _ h1, write_of_mem _ h2, andThen_ret]
  rfl

theorem removeCred_removes (h : WellFormed p ids) (hr : Removes p rec old ra rb) :
    removeCred rec ⟨p, fs, r⟩ = (unlinkCred rec.credId old ra rb >>= fun _ => removeDone rec) ⟨p, fs, r⟩ := by
  have hchain : verifyLocalChain rec.credId ⟨p, fs, r⟩ = .ret true ⟨p, fs, r⟩ :=
    verifyLocalChain_eq h.toWellLinked hr.stored (h.mem_of_read hr.stored)
  simp only [removeCred, bind_apply, readData_apply, andThen_ret, hr.stored, hchain, hr.text, hr.same, hr.prev, hr.next,
    ite_prog_apply, Bool.true_eq_false, if_false, or_self]
  rfl

theorem removeCred_run (h : WellFormed p ids) (hr : Removes p rec old ra rb) :
    removeCred rec ⟨p, [], r⟩ = .ret rec.credId ⟨deleted p rec.credId old ra rb true true true, [],
      { r with credsCache := r.credsCache.eraseP (·.credId = rec.credId) }⟩ := by
  rw [removeCred_removes h hr, bind_apply,
    unlinkCred_of_mem _ _ (recordType_of_read hr.prev) (recordType_of_read hr.next) List.not_mem_nil]
  rfl

theorem removeCred_refused (h : WellFormed p ids) (hno : ∀ old ra rb, ¬Removes p rec old ra rb) :
    removeCred rec ⟨p, fs, r⟩ = .ret 0 ⟨p, fs, r⟩ := by
  cases hr : readRecord p rec.credId with
  | none => simp [removeCred, hr]
  | some old =>
    have hchain : verifyLocalChain rec.credId ⟨p, fs, r⟩ = .ret true ⟨p, fs, r⟩ :=
      verifyLocalChain_eq h.toWellLinked hr (h.mem_of_read hr)
    by_cases hbad : validateCredential (some rec.credential.bytes) rec.credType 0 = false ∨ sameCred old rec = false
    · simp [removeCred, hr, hchain, hbad]
    · obtain ⟨htext, hsame⟩ := not_or.1 hbad
      cases hra : readRecord p old.prevId with
      | none => simp [removeCred, hr, hchain, hbad, hra]
      | some ra =>
        cases hrb : readRecord p old.nextId with
        | none => simp [removeCred, hr, hchain, hbad, hra, hrb]
        | some rb => exact absurd ⟨hr, by simpa using htext, by simpa using hsame, hra, hrb⟩ (hno old ra rb)

/-! ## Verifying -/

/-- The first cached credential with the entered text. -/
def candidate (r : CredStorage) (credEntered : Option (List UInt8)) (credType : CredType) : Option CacheRecord :=
  if validateCredential credEntered credType (if credType = .packetNumber then packetScanMax else 0) = false then none
  else r.credsCache.find? fun p => p.credType = credType && textMatches p (credEntered.getD []) credType

/-- The credential `verifyCred` accepts. -/
def accepted (r : CredStorage) (credEntered : Option (List UInt8)) (credType : CredType) (now : UInt64) :
    Option CacheRecord :=
  (candidate r credEntered credType).filter (·.isActive now)

theorem verifyCred_eq (credEntered : Option (List UInt8)) (credType : CredType) (now : UInt64) :
    verifyCred credEntered credType now ⟨p, fs, r⟩ =
      match accepted r credEntered credType now with
      | none => .ret doorUnknown ⟨p, fs, { r with verifiedCredId := 0 }⟩
      | some c => .ret c.doorNum ⟨p, fs, { r with verifiedCredId := c.credId }⟩ := by
  simp only [verifyCred, bind_apply, setVerified, setRam_apply, andThen_ret, ite_prog_apply, ram_apply, accepted, candidate]
  by_cases hval : validateCredential credEntered credType (if credType = .packetNumber then packetScanMax else 0) = false
  · rw [if_pos hval, if_pos hval]
    rfl
  · rw [if_neg hval, if_neg hval]
    cases r.credsCache.find? fun p => p.credType = credType && textMatches p (credEntered.getD []) credType with
    | none => rfl
    | some c =>
      by_cases hact : c.isActive now = true
      · simp [hact, Option.filter]
      · simp [hact, Option.filter]

/-! ## Using -/

section Use
variable {c : CacheRecord} {doorNum : UInt8} {now : UInt64}

/-- The end of `usedCred`: a use that was stored is taken off the verification. -/
def usedDone (done : Bool) : Op Bool :=
  if done = true then do
    setVerified 0
    return true
  else return false

theorem usedDone_true : usedDone true ⟨p, fs, r⟩ = .ret true ⟨p, fs, { r with verifiedCredId := 0 }⟩ := rfl

theorem usedDone_false : usedDone false ⟨p, fs, r⟩ = .ret false ⟨p, fs, r⟩ := rfl

/-- The cached credential a use of door `doorNum` is charged to. -/
def charged (r : CredStorage) (doorNum : UInt8) : Option CacheRecord :=
  r.credsCache.find? fun p => p.credId = r.verifiedCredId && p.doorNum = doorNum

theorem charged_some (h : charged r doorNum = some c) :
    c ∈ r.credsCache ∧ c.credId = r.verifiedCredId ∧ c.doorNum = doorNum := by
  have := List.find?_some h
  simp only [Bool.and_eq_true, decide_eq_true_eq] at this
  exact ⟨List.mem_of_find?_eq_some h, this⟩

/-- The id that `usedCred` sees once the charged credential is erased. -/
def idMoved (r : CredStorage) (doorNum : UInt8) : UInt32 :=
  credIdAfterErase (fun p => p.credId = r.verifiedCredId && p.doorNum = doorNum) r.credsCache

theorem idMoved_ne_zero (hc : charged r doorNum = some c) (hids : ∀ x ∈ r.credsCache, x.credId ≠ 0) : idMoved r doorNum ≠ 0 := by
  obtain ⟨hfound, front, behind, hcache, hfront⟩ := List.find?_eq_some_iff_append.1 hc
  have hall : ∀ x ∈ front, (!(decide (x.credId = r.verifiedCredId) && decide (x.doorNum = doorNum))) = true := hfront
  rw [hcache] at hids
  -- The search and the erase stop at the same entry: what follows it has moved there.
  rw [idMoved, credIdAfterErase, hcache, List.dropWhile_append_of_pos hall, List.dropWhile_cons_of_neg (by simpa using hfound)]
  cases behind with
  | nil => exact hids c (by simp)
  | cons next behind => exact hids next (by simp)

theorem usedCred_unverified (hv : r.verifiedCredId = 0) :
    usedCred doorNum now ⟨p, fs, r⟩ = .ret false ⟨p, fs, r⟩ := by
  simp [usedCred, hv]

theorem usedCred_unknown (hv : r.verifiedCredId ≠ 0) (hc : charged r doorNum = none) :
    usedCred doorNum now ⟨p, fs, r⟩ = .ret false ⟨p, fs, { r with verifiedCredId := 0 }⟩ := by
  rw [charged] at hc
  simp [usedCred, hv, hc, setVerified]

theorem usedCred_inactive (hv : r.verifiedCredId ≠ 0) (hc : charged r doorNum = some c)
    (hact : c.isActive now = false) :
    usedCred doorNum now ⟨p, fs, r⟩ = .ret false ⟨p, fs, { r with verifiedCredId := 0 }⟩ := by
  rw [charged] at hc
  simp [usedCred, hv, hc, hact, setVerified]

theorem usedCred_counted (hv : r.verifiedCredId ≠ 0) (hc : charged r doorNum = some c) (hact : c.isActive now = true)
    (hrem : 1 < c.remaining) : usedCred doorNum now ⟨p, fs, r⟩ =
      (updateCred { c with remaining := c.remaining - 1 } >>= usedDone) ⟨p, fs, r⟩ := by
  rw [charged] at hc
  simp only [usedCred, bind_apply, ram_apply, andThen_ret, ite_prog_apply, hv, if_false, hc, hact, Bool.true_eq_false,
    gt_iff_lt, hrem, if_true]
  rfl

theorem usedCred_last (hv : r.verifiedCredId ≠ 0) (hc : charged r doorNum = some c) (hact : c.isActive now = true)
    (hrem : c.remaining = 1) : usedCred doorNum now ⟨p, fs, r⟩ =
      (removeCred c >>= fun removed => usedDone (removed ≠ 0 ∧ idMoved r doorNum ≠ 0)) ⟨p, fs, r⟩ := by
  rw [charged] at hc
  simp only [usedCred, bind_apply, ram_apply, andThen_ret, ite_prog_apply, hv, if_false, hc, hact, Bool.true_eq_false,
    gt_iff_lt, hrem, if_true, Int.lt_irrefl]
  cases removeCred c ⟨p, fs, r⟩ with
  | ret id s =>
    -- The call returns 0 if it refused, or if the entry that moved has the id 0.
    by_cases h0 : id = 0
    · simp [usedDone, h0]
    · by_cases hmoved : idMoved r doorNum = 0
      · simp [usedDone, idMoved, show credIdAfterErase _ r.credsCache = 0 from hmoved]
      · simp [usedDone, idMoved, h0, show ¬credIdAfterErase _ r.credsCache = 0 from hmoved]
  | _ => rfl

theorem usedCred_unlimited (hv : r.verifiedCredId ≠ 0) (hc : charged r doorNum = some c)
    (hact : c.isActive now = true) (hrem : c.remaining < 1) :
    usedCred doorNum now ⟨p, fs, r⟩ = .ret true ⟨p, fs, { r with verifiedCredId := 0 }⟩ := by
  rw [charged] at hc
  have h1 : ¬1 < c.remaining := by omega
  have h2 : c.remaining ≠ 1 := by omega
  simp [usedCred, hv, hc, hact, h1, h2, setVerified]

end Use

/-! ## Calls -/

/-- The calls of the class. -/
inductive Call where
  | addCred (rec : CacheRecord)
  | updateCred (rec : CacheRecord)
  | removeCred (rec : CacheRecord)
  | verifyCred (credEntered : Option (List UInt8)) (credType : CredType) (now : UInt64)
  | usedCred (doorNum : UInt8) (now : UInt64)
  | refreshCache (now : UInt64)

/-- A call whose result is dropped. -/
def Call.run : Call → Op Unit
  | .addCred rec => do let _ ← PassStore.addCred rec
  | .updateCred rec => do let _ ← PassStore.updateCred rec
  | .removeCred rec => do let _ ← PassStore.removeCred rec
  | .verifyCred credEntered credType now => do let _ ← PassStore.verifyCred credEntered credType now
  | .usedCred doorNum now => do let _ ← PassStore.usedCred doorNum now
  | .refreshCache now => do let _ ← PassStore.refreshCache now

end OrangeBox.PassStore
