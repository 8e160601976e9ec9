import OrangeBox.CredProtocol.Request
import OrangeBox.PassStore.Runs
/-!
# Credential changes

`applyCredChange` of `cred_protocol.cpp`. Up to its one call of `addCred`,
`updateCred` or `removeCred` it only reads, so a refused request changes
nothing, and an accepted one does what that call does
(`applyCredChange_transactional`).
-/
open Flash Linked OrangeBox.PassStore

namespace OrangeBox.CredProtocol

/-! ## The request handler -/

/-- The response document of `set_cred`. -/
structure Response where
  credType : Option String
  success : Option Bool
  error : Option String
  lastresult : Option String
  credId : Option UInt32
  action : Option String

def Response.cleared : Response :=
  { credType := none, success := none, error := none, lastresult := none, credId := none, action := none }

/-- The texts of a refusal. -/
structure Failure where
  reason : String
  resultCode : String

/-- `fail`. -/
def Response.failed (response : Response) (failure : Failure) : Response :=
  { response with success := some false, error := some failure.reason, lastresult := some failure.resultCode }

def invalidCredType : Failure := ⟨"txt_invalid_cred_type", "R31"⟩
def invalidAction : Failure := ⟨"txt_invalid_action", "R33"⟩
def invalidCredId : Failure := ⟨"txt_invalid_cred_id", "R34"⟩
def credNotFound : Failure := ⟨"txt_cred_not_found", "R35"⟩
def invalidCredName : Failure := ⟨"txt_invalid_cred_name", "R36"⟩
def invalidCredValue : Failure := ⟨"txt_invalid_cred_value", "R37"⟩
def invalidDateRange : Failure := ⟨"invalid_date_range", "R38"⟩
def invalidDoor : Failure := ⟨"txt_invalid_door", "R39"⟩
def invalidUnlimited : Failure := ⟨"txt_invalid_unlimited", "R40"⟩
def invalidAmount : Failure := ⟨"txt_invalid_amount", "R41"⟩
def credChangeFailed : Failure := ⟨"txt_cred_change_failed", "R42"⟩

variable (request : JsonObject)

def setName (fields : Fields) (cred : CacheRecord) : Except Failure CacheRecord :=
  match copyText (maxNameLength + 1) (request fields.name) (maxNameLength + 1) with
  | some name => .ok { cred with name := name }
  | none => .error invalidCredName

/-- `pin` and `packetNumber` share their bytes but differ in size. -/
def setValue (fields : Fields) (cred : CacheRecord) : Except Failure CacheRecord :=
  match copyText (packetNumberMax + 1) (request fields.value)
    (if cred.credType = .password then maxPinLength + 1 else packetNumberMax + 1) with
  | some credential => .ok { cred with credential := credential }
  | none => .error invalidCredValue

/-- A date the request gives, or the one there is. -/
def optionalDate (value : JsonVariant) (endOfDay : Bool) (date : UInt64) : Option UInt64 :=
  if value.isNull = true then some date else parseDate value endOfDay

def setDates (fields : Fields) (cred : CacheRecord) : Except Failure CacheRecord :=
  match optionalDate (request fields.from) false cred.validFrom with
  | none => .error invalidDateRange
  | some validFrom =>
    match optionalDate (request fields.to) true cred.validTo with
    | none => .error invalidDateRange
    | some validTo =>
      if validFrom ≠ 0 ∧ validTo ≠ 0 ∧ validFrom > validTo then .error invalidDateRange
      else .ok { cred with validFrom := validFrom, validTo := validTo }

def setDoor (cred : CacheRecord) : Except Failure CacheRecord :=
  if (request "doornum").isNull = true then .ok cred
  else
    match ParamChecks.integer (request "doornum") 0 254 with
    | some door => .ok { cred with doorNum := door.toNat.toUInt8 }
    | none => .error invalidDoor

/-- Only PINs have a count in the request. -/
def setRemaining (cred : CacheRecord) : Except Failure CacheRecord :=
  let unlimited := request "checkbox-unlimited"
  if cred.credType ≠ .password then .ok cred
  else if unlimited.isNull = false ∧ unlimited.asBool = none then .error invalidUnlimited
  else if unlimited.asBool = some true then .ok { cred with remaining := -1 }
  else if (request "amount").isNull = false then
    match ParamChecks.integer (request "amount") (-1) 0x7fffffff with
    | some amount =>
      if unlimited.asBool.isSome = true ∧ amount < 0 then .error invalidAmount
      else .ok { cred with remaining := amount }
    | none => .error invalidAmount
  else if unlimited.asBool.isSome = true then .error invalidAmount
  else .ok cred

/-- The credential the request describes, on top of the stored one. -/
def editCred (fields : Fields) (deleting : Bool) (cred : CacheRecord) : Except Failure CacheRecord := do
  let cred ← setName request fields cred
  let cred ← setValue request fields cred
  if deleting = true then return cred
  else
    let cred ← setDates request fields cred
    let cred ← setDoor request cred
    setRemaining request cred

/-- A new credential before the request is read. -/
def newCred (type : CredType) : CacheRecord :=
  { toCacheRecord CredRecord.zero with credType := type, remaining := if type = .packetNumber then 1 else -1 }

/-- The call the request asks for, with the id it is about. -/
def changeCred (deleting : Bool) (cred : CacheRecord) : Op (Option UInt32) :=
  if deleting = true then do
    let removed ← removeCred cred
    return if removed = cred.credId then some cred.credId else none
  else if cred.credId ≠ 0 then do
    let updated ← updateCred cred
    return if updated = true then some cred.credId else none
  else do
    let newId ← addCred cred
    return if newId ≠ 0 then some newId else none

/-- The response to a change that was made. -/
def Response.changed (response : Response) (deleting : Bool) (id newId : UInt32) : Response :=
  { response with
    success := some true
    credId := some newId
    action := some (if deleting then "txt_deleted" else if id ≠ 0 then "txt_updated" else "txt_created")
    lastresult := some (if deleting then "R44" else "R43") }

/-- The handler once the credential to start from is known. -/
def applyChange (response : Response) (fields : Fields) (deleting : Bool) (id : UInt32) (cred : CacheRecord) :
    Op (Bool × Response) :=
  match editCred request fields deleting cred with
  | .error failure => return (false, response.failed failure)
  | .ok cred => do
    match ← changeCred deleting cred with
    | none => return (false, response.failed credChangeFailed)
    | some newId => return (true, response.changed deleting id newId)

/-- Log calls are left out, as everywhere. -/
def applyCredChange : Op (Bool × Response) := do
  match parseType (request "credType") with
  | none => return (false, Response.cleared.failed invalidCredType)
  | some type =>
    let response := { Response.cleared with credType := some (credTypeName type) }
    let fields := fieldsFor type
    match parseAction (request "clicked") with
    | none => return (false, response.failed invalidAction)
    | some deleting =>
      match ParamChecks.integer (request fields.id) 0 0xfffffffe with
      | none => return (false, response.failed invalidCredId)
      | some id =>
        let id := id.toNat.toUInt32
        if deleting = true ∧ id = 0 then return (false, response.failed invalidCredId)
        else
          let stored ← if id = 0 then pure (some (newCred type)) else getCred id type
          match stored with
          | none => return (false, response.failed credNotFound)
          | some cred => applyChange request response fields deleting id cred

/-! ## Reading the request -/

section Read
variable {request : JsonObject} {fields : Fields} {deleting : Bool} {cred cred' : CacheRecord}

theorem bind_eq_ok {α β : Type} {m : Except Failure α} {f : α → Except Failure β} {b : β} (h : m >>= f = .ok b) :
    ∃ a, m = .ok a ∧ f a = .ok b := by
  cases m with
  | error => contradiction
  | ok a => exact ⟨a, rfl, h⟩

theorem setName_ok (h : setName request fields cred = .ok cred') :
    ∃ name, (request fields.name).asText = some name.bytes ∧ cred' = { cred with name := name } := by
  unfold setName at h
  split at h
  · rename_i name hname
    exact ⟨name, copyText_bytes hname (by decide), (Except.ok.inj h).symm⟩
  · contradiction

theorem setValue_ok (h : setValue request fields cred = .ok cred') :
    ∃ credential, (request fields.value).asText = some credential.bytes ∧ cred' = { cred with credential := credential } := by
  unfold setValue at h
  split at h
  · rename_i credential hvalue
    refine ⟨credential, copyText_bytes hvalue ?_, (Except.ok.inj h).symm⟩
    split <;> decide
  · contradiction

theorem setDates_ok (h : setDates request fields cred = .ok cred') : ∃ validFrom validTo,
    ((request fields.from).isNull = true → validFrom = cred.validFrom) ∧
      ((request fields.to).isNull = true → validTo = cred.validTo) ∧
      cred' = { cred with validFrom := validFrom, validTo := validTo } := by
  unfold setDates at h
  split at h
  · contradiction
  · rename_i validFrom hfrom
    split at h
    · contradiction
    · rename_i validTo hto
      split at h
      · contradiction
      · refine ⟨validFrom, validTo, fun hnull => ?_, fun hnull => ?_, (Except.ok.inj h).symm⟩
        · rw [optionalDate, if_pos hnull] at hfrom
          exact (Option.some.inj hfrom).symm
        · rw [optionalDate, if_pos hnull] at hto
          exact (Option.some.inj hto).symm

theorem setDoor_ok (h : setDoor request cred = .ok cred') : ∃ doorNum,
    ((request "doornum").isNull = true → doorNum = cred.doorNum) ∧ cred' = { cred with doorNum := doorNum } := by
  unfold setDoor at h
  split at h
  · exact ⟨cred.doorNum, fun _ => rfl, (Except.ok.inj h).symm⟩
  · rename_i hnull
    split at h
    · exact ⟨_, fun h => absurd h hnull, (Except.ok.inj h).symm⟩
    · contradiction

theorem setRemaining_ok (h : setRemaining request cred = .ok cred') : ∃ remaining,
    ((request "amount").isNull = true → (request "checkbox-unlimited").isNull = true → remaining = cred.remaining) ∧
      cred' = { cred with remaining := remaining } := by
  unfold setRemaining at h
  dsimp only at h
  split at h
  · exact ⟨cred.remaining, fun _ _ => rfl, (Except.ok.inj h).symm⟩
  · split at h
    · contradiction
    · split at h
      · rename_i hunlimited
        refine ⟨-1, fun _ hnull => ?_, (Except.ok.inj h).symm⟩
        simp only [JsonVariant.isNull, decide_eq_true_eq] at hnull
        rw [hnull] at hunlimited
        contradiction
      · split at h
        · rename_i hamount
          split at h
          · split at h
            · contradiction
            · exact ⟨_, fun hnull _ => by rw [hnull] at hamount; contradiction, (Except.ok.inj h).symm⟩
          · contradiction
        · split at h
          · contradiction
          · exact ⟨cred.remaining, fun _ _ => rfl, (Except.ok.inj h).symm⟩

/-- The fields the request leaves out are those of the credential before. -/
structure Omitted (request : JsonObject) (fields : Fields) (cred cred' : CacheRecord) : Prop where
  doorNum : (request "doornum").isNull = true → cred'.doorNum = cred.doorNum
  validFrom : (request fields.from).isNull = true → cred'.validFrom = cred.validFrom
  validTo : (request fields.to).isNull = true → cred'.validTo = cred.validTo
  remaining : (request "amount").isNull = true → (request "checkbox-unlimited").isNull = true →
    cred'.remaining = cred.remaining

theorem editCred_ok (h : editCred request fields deleting cred = .ok cred') :
    cred'.credType = cred.credType ∧ cred'.credId = cred.credId ∧ (request fields.name).asText = some cred'.name.bytes ∧
      (request fields.value).asText = some cred'.credential.bytes ∧ Omitted request fields cred cred' := by
  unfold editCred at h
  obtain ⟨cred₁, h₁, h⟩ := bind_eq_ok h
  obtain ⟨cred₂, h₂, h⟩ := bind_eq_ok h
  obtain ⟨name, hname, rfl⟩ := setName_ok h₁
  obtain ⟨credential, hvalue, rfl⟩ := setValue_ok h₂
  cases deleting with
  | true =>
    obtain rfl := Except.ok.inj h
    exact ⟨rfl, rfl, hname, hvalue, fun _ => rfl, fun _ => rfl, fun _ => rfl, fun _ _ => rfl⟩
  | false =>
    simp only [Bool.false_eq_true, if_false] at h
    obtain ⟨cred₃, h₃, h⟩ := bind_eq_ok h
    obtain ⟨cred₄, h₄, h₅⟩ := bind_eq_ok h
    obtain ⟨validFrom, validTo, hfrom, hto, rfl⟩ := setDates_ok h₃
    obtain ⟨doorNum, hdoor, rfl⟩ := setDoor_ok h₄
    obtain ⟨remaining, hremaining, rfl⟩ := setRemaining_ok h₅
    exact ⟨rfl, rfl, hname, hvalue, hdoor, hfrom, hto, hremaining⟩

end Read

/-! ## What a change does -/

variable {request} {p q : Nvs} {ids ids' : List UInt32} {old new t : CredRecord} {cred : CacheRecord} {id k : UInt32}
  {r : CredStorage} {deleting : Bool}

/-- Type, name and text are the request's. -/
structure Described (request : JsonObject) (rec : CredRecord) : Prop where
  credType : parseType (request "credType") = some rec.credType
  name : (request (fieldsFor rec.credType).name).asText = some rec.name.bytes
  value : (request (fieldsFor rec.credType).value).asText = some rec.credential.bytes

/-- Every other credential keeps all its fields but the links, and these too
unless it is one of the two neighbours. -/
def OthersKept (p q : Nvs) (id prevId nextId : UInt32) : Prop :=
  ∀ k, isRealCredId k = true → k ≠ id →
    (readRecord q k).map CredRecord.contents = (readRecord p k).map CredRecord.contents ∧
      (k ≠ prevId → k ≠ nextId → readRecord q k = readRecord p k)

/-- Credential `id` was changed as the action says, and nothing else. -/
inductive Changed (p : Nvs) (ids : List UInt32) (request : JsonObject) (id : UInt32) (q : Nvs) : String → Prop
  | created {new : CredRecord} : id ∉ ids → readRecord p id = none → readRecord q id = some new →
      Described request new → WellFormed q (ids ++ [id]) → OthersKept p q id new.prevId new.nextId →
      Changed p ids request id q "txt_created"
  | updated {old new : CredRecord} : id ∈ ids → readRecord p id = some old → readRecord q id = some new →
      Described request new → Omitted request (fieldsFor new.credType) (toCacheRecord old) (toCacheRecord new) →
      new.prevId = old.prevId → new.nextId = old.nextId → WellFormed q ids → OthersKept p q id id id →
      Changed p ids request id q "txt_updated"
  | deleted {old : CredRecord} : id ∈ ids → readRecord p id = some old → Described request old →
      readRecord q id = none → WellFormed q (ids.erase id) → OthersKept p q id old.prevId old.nextId →
      Changed p ids request id q "txt_deleted"

theorem Insertion.othersKept {l : List UInt32} {ra rn : CredRecord} (h : Insertion p ids l t ra rn) :
    OthersKept p (inserted p t ra rn true true true) t.nextId rn.prevId rn.nextId := by
  intro k hreal hne
  have hlast := (isRealCredId_iff.1 hreal).2
  have hread : readRecord (inserted p t ra rn true true true) k =
      if k = t.prevId then some (ra.withNext t.nextId) else readRecord p k := by
    rw [h.read, if_neg (fun hf => hlast hf.2), if_neg (fun hf => hne hf.2)]
    simp
  rw [hread]
  by_cases he : k = t.prevId
  · rw [if_pos he, he, h.prev]
    exact ⟨rfl, fun hp => absurd h.prevId.symm hp⟩
  · rw [if_neg he]
    exact ⟨rfl, fun _ _ => rfl⟩

theorem Deletion.othersKept {u v : List UInt32} {ra rb : CredRecord} (h : Deletion p ids u v id old ra rb) :
    OthersKept p (deleted p id old ra rb true true true) id old.prevId old.nextId := by
  intro k _ hne
  have hread : readRecord (deleted p id old ra rb true true true) k = if k = old.nextId then some (rb.withPrev old.prevId)
      else if k = old.prevId then some (ra.withNext old.nextId) else readRecord p k := by
    rw [h.read]
    simp [hne]
  rw [hread]
  by_cases hb : k = old.nextId
  · rw [if_pos hb, hb, h.next]
    exact ⟨rfl, fun _ hf => absurd rfl hf⟩
  · rw [if_neg hb]
    by_cases ha : k = old.prevId
    · rw [if_pos ha, ha, h.prev]
      exact ⟨rfl, fun hf => absurd rfl hf⟩
    · rw [if_neg ha]
      exact ⟨rfl, fun _ _ => rfl⟩

theorem getCred_none_or (id : UInt32) (credType : CredType) :
    getCred id credType ⟨p, [], r⟩ = .ret none ⟨p, [], r⟩ ∨
      ∃ old, readRecord p id = some old ∧ isRealCredId id = true ∧ old.credId = id ∧ old.credType = credType ∧
        getCred id credType ⟨p, [], r⟩ = .ret (some (toCacheRecord old)) ⟨p, [], r⟩ := by
  unfold getCred
  cases hr : readRecord p id with
  | none => exact .inl (by simp [hr])
  | some old =>
    by_cases hok : (isRealCredId id && isCredentialType credType && old.credId = id && old.credType = credType
        && isStoredCredValid old) = true
    · refine .inr ⟨old, rfl, ?_, ?_, ?_, by simp only [bind_apply, readData_apply, andThen_ret, hr, hok]; rfl⟩
      all_goals simp_all
    · exact .inl (by simp only [bind_apply, readData_apply, andThen_ret, hr, hok]; rfl)

/-- The one call of the handler that writes. -/
theorem changeCred_cases (hp : WellFormed p ids) (ht : readRecord p lastKey = some t)
    (hreal : isRealCredId t.nextId = true) (hdel : deleting = true → cred.credId ≠ 0) :
    changeCred deleting cred ⟨p, [], r⟩ = .ret none ⟨p, [], r⟩ ∨
      ∃ newId q r', changeCred deleting cred ⟨p, [], r⟩ = .ret (some newId) ⟨q, [], r'⟩ ∧
        ((deleting = true ∧ newId = cred.credId ∧ ∃ old ra rb, Removes p cred old ra rb ∧
            q = deleted p cred.credId old ra rb true true true) ∨
          (deleting = false ∧ cred.credId ≠ 0 ∧ newId = cred.credId ∧ ∃ old, Updates p cred old ∧
            q = (store (old.updated cred)).apply p) ∨
          (deleting = false ∧ cred.credId = 0 ∧ newId = t.nextId ∧ validateCred cred = true ∧
            ∃ l ra, Insertion p ids l t ra (newRecord (newCredRecord cred) t) ∧
              q = inserted p t ra (newRecord (newCredRecord cred) t) true true true)) := by
  unfold changeCred
  cases deleting with
  | true =>
    -- An id other than 0 that is returned is the sign of a removal.
    have h0 := hdel rfl
    by_cases hr : ∃ old ra rb, Removes p cred old ra rb
    · obtain ⟨old, ra, rb, hr⟩ := hr
      refine .inr ⟨cred.credId, _, { r with credsCache := r.credsCache.eraseP (·.credId = cred.credId) }, ?_,
        .inl ⟨rfl, rfl, old, ra, rb, hr, rfl⟩⟩
      rw [if_pos rfl, bind_apply, removeCred_run hp hr, andThen_ret, if_pos rfl]
      rfl
    · left
      rw [if_pos rfl, bind_apply, removeCred_refused hp (by simpa using hr)]
      simp [Ne.symm h0]
  | false =>
    rw [if_neg (by decide)]
    by_cases h0 : cred.credId = 0
    · rw [if_neg (not_not.2 h0)]
      by_cases hv : validateCred cred = true
      · obtain ⟨l, ra, hra, hins⟩ := hp.insertion hv ht hreal
        have hnew := (isRealCredId_iff.1 hreal).1
        refine .inr ⟨t.nextId, _, { r with credsCache := r.credsCache ++ [{ cred with credId := t.nextId }] }, ?_,
          .inr (.inr ⟨rfl, h0, rfl, hv, l, ra, hins, rfl⟩)⟩
        rw [bind_apply, addCred_run ht hra hv hnew, andThen_ret, if_pos hnew]
        rfl
      · left
        rw [bind_apply, addCred_invalid (by simpa using hv)]
        rfl
    · rw [if_pos h0]
      by_cases hu : ∃ old, Updates p cred old
      · obtain ⟨old, hu⟩ := hu
        refine .inr ⟨cred.credId, _, { r with credsCache := replaceCached cred r.credsCache }, ?_,
          .inr (.inl ⟨rfl, h0, rfl, old, hu, rfl⟩)⟩
        rw [bind_apply, updateCred_run hp hu h0]
        rfl
      · left
        rw [bind_apply, updateCred_refused (by simpa using hu)]
        rfl

/-- The request gives the credential its type, its name and its text. -/
structure Names (request : JsonObject) (cred : CacheRecord) : Prop where
  credType : parseType (request "credType") = some cred.credType
  name : (request (fieldsFor cred.credType).name).asText = some cred.name.bytes
  value : (request (fieldsFor cred.credType).value).asText = some cred.credential.bytes

namespace Names

theorem described {rec : CredRecord} (h : Names request cred) (hs : sameCred rec cred = true) : Described request rec := by
  obtain ⟨htype, hname, hcred⟩ := sameCred_iff.1 hs
  refine ⟨?_, ?_, ?_⟩
  · rw [htype, h.credType]
  · rw [htype, hname, h.name]
  · rw [htype, hcred, h.value]

/-- The stored credential has the text of the request. -/
theorem deleted {ra rb : CredRecord} (h : Names request cred) (hp : WellFormed p ids) (hreal : isRealCredId cred.credId = true)
    (hr : Removes p cred old ra rb) :
    Changed p ids request cred.credId (deleted p cred.credId old ra rb true true true) "txt_deleted" := by
  have hmem := hp.mem_of_real hreal hr.stored
  obtain ⟨u, v, hsplit⟩ := hp.neighbours hmem hr.stored
  have hd : Deletion p ids u v cred.credId old ra rb := ⟨hp, hmem, hsplit, hr.stored, hr.prev, hr.next⟩
  exact .deleted hmem hr.stored (h.described hr.same) (by rw [hd.read_own]; rfl) hd.wellFormed (Deletion.othersKept hd)

/-- Everything else is as stored. -/
theorem updated (h : Names request cred) (hp : WellFormed p ids) (hreal : isRealCredId cred.credId = true) (hu : Updates p cred old)
    (homitted : Omitted request (fieldsFor cred.credType) (toCacheRecord old) cred) :
    Changed p ids request cred.credId ((store (old.updated cred)).apply p) "txt_updated" := by
  have hmem := hp.mem_of_real hreal hu.stored
  have hid := hu.credId hp
  have hcurrent : (old.updated cred).recordType = .credentialV1 := by
    rw [updated_recordType, recordType_of_read hu.stored]
  have hread : ∀ k, readRecord ((store (old.updated cred)).apply p) k =
      if k = cred.credId then some (old.updated cred) else readRecord p k := by
    intro k
    rw [readRecord_store hcurrent, updated_credId, hid]
  have hsame : sameCred (old.updated cred) cred = true := hu.same
  have htype : (old.updated cred).credType = cred.credType := (sameCred_iff.1 hsame).1
  have hkept : Omitted request (fieldsFor (old.updated cred).credType) (toCacheRecord old) (toCacheRecord (old.updated cred)) := by
    rw [toCacheRecord_updated hu hid, htype]
    exact homitted
  refine .updated hmem hu.stored (by rw [hread, if_pos rfl]) (h.described hsame) hkept rfl rfl (hu.wellFormed hp hmem) ?_
  intro k _ hne
  rw [hread, if_neg hne]
  exact ⟨rfl, fun _ _ => rfl⟩

/-- The credential is stored under the next id. -/
theorem created {l : List UInt32} {ra : CredRecord} (h : Names request cred) (hp : WellFormed p ids) (hv : validateCred cred = true)
    (hins : Insertion p ids l t ra (newRecord (newCredRecord cred) t)) :
    Changed p ids request t.nextId (inserted p t ra (newRecord (newCredRecord cred) t) true true true) "txt_created" := by
  have hsame : sameCred (newRecord (newCredRecord cred) t) cred = true :=
    sameCred_iff.2 ⟨rfl, truncate_name_of_valid hv, copyCredential_of_valid (validateCred_iff.1 hv).1⟩
  have hfresh := hins.new_fresh
  exact .created (fun hmem => hfresh (by simp [hmem])) (hp.read_none hfresh) (by rw [hins.read_new]; rfl) (h.described hsame)
    hins.wellFormed (Insertion.othersKept hins)

end Names

/-- A request gets as far as changing `start`: a new credential, or the stored one it names. -/
structure Started (p : Nvs) (request : JsonObject) (type : CredType) (deleting : Bool) (id : UInt32) (start : CacheRecord) :
    Prop where
  type_eq : parseType (request "credType") = some type
  credType : start.credType = type
  credId : start.credId = id
  deleting_ne : deleting = true → id ≠ 0
  new_eq : id = 0 → start = newCred type
  stored : id ≠ 0 → ∃ old, readRecord p id = some old ∧ isRealCredId id = true ∧ start = toCacheRecord old

/-- The handler from there on: nothing, or the change its response names. -/
theorem applyChange_spec {type : CredType} {response : Response} {start : CacheRecord} (hp : WellFormed p ids)
    (ht : readRecord p lastKey = some t) (hreal : isRealCredId t.nextId = true) (h : Started p request type deleting id start) :
    ∃ changed response' q r', applyChange request response (fieldsFor type) deleting id start ⟨p, [], r⟩ =
        .ret (changed, response') ⟨q, [], r'⟩ ∧ (changed = false → q = p ∧ r' = r) ∧
      (changed = true → ∃ newId action, response'.credId = some newId ∧ response'.action = some action ∧
        Changed p ids request newId q action) := by
  unfold applyChange
  cases hedit : editCred request (fieldsFor type) deleting start with
  | error failure => exact ⟨false, _, p, r, rfl, fun _ => ⟨rfl, rfl⟩, fun hf => absurd hf Bool.false_ne_true⟩
  | ok cred =>
    obtain ⟨htype, hid, hname, hvalue, homitted⟩ := editCred_ok hedit
    rw [h.credType] at htype
    rw [h.credId] at hid
    have hnames : Names request cred := by
      refine ⟨?_, ?_, ?_⟩
      · rw [htype, h.type_eq]
      · rw [htype, hname]
      · rw [htype, hvalue]
    rcases changeCred_cases (r := r) hp ht hreal (fun hf => by rw [hid]; exact h.deleting_ne hf) with
      hnone | ⟨newId, q, r', hchange, hcase⟩
    · refine ⟨false, response.failed credChangeFailed, p, r, ?_, fun _ => ⟨rfl, rfl⟩, fun hf => absurd hf Bool.false_ne_true⟩
      simp only [bind_apply, hnone, andThen_ret]
      rfl
    · refine ⟨true, response.changed deleting id newId, q, r', ?_, fun hf => absurd hf.symm Bool.false_ne_true, fun _ => ?_⟩
      · simp only [bind_apply, hchange, andThen_ret]
        rfl
      refine ⟨newId, _, rfl, rfl, ?_⟩
      rcases hcase with ⟨rfl, rfl, old, ra, rb, hr, rfl⟩ | ⟨rfl, h0, rfl, old, hu, rfl⟩ | ⟨rfl, h0, rfl, hv, l, ra, hins, rfl⟩
      · obtain ⟨-, -, hidreal, -⟩ := h.stored (h.deleting_ne rfl)
        exact hnames.deleted hp (hid ▸ hidreal) hr
      · obtain ⟨old', hold', hidreal, rfl⟩ := h.stored (hid ▸ h0)
        obtain rfl : old' = old := Option.some.inj (hold'.symm.trans (hid ▸ hu.stored))
        have haction : (if id ≠ 0 then "txt_updated" else "txt_created") = "txt_updated" := if_pos (hid ▸ h0)
        show Changed p ids request cred.credId _ (if id ≠ 0 then "txt_updated" else "txt_created")
        rw [haction]
        exact hnames.updated hp (hid ▸ hidreal) hu (htype ▸ homitted)
      · have haction : (if id ≠ 0 then "txt_updated" else "txt_created") = "txt_created" := if_neg (not_not.2 (hid ▸ h0))
        show Changed p ids request t.nextId _ (if id ≠ 0 then "txt_updated" else "txt_created")
        rw [haction]
        exact hnames.created hp hv hins

/-- A request that names a stored credential. -/
theorem applyCredChange_stored {type : CredType} {n : Int} {s : Sys Key Blob CredStorage}
    (htype : parseType (request "credType") = some type) (haction : parseAction (request "clicked") = some deleting)
    (hinteger : ParamChecks.integer (request (fieldsFor type).id) 0 0xfffffffe = some n) (hid : n.toNat.toUInt32 = id)
    (h0 : id ≠ 0) (hget : getCred id type s = .ret (some cred) s) : applyCredChange request s =
      applyChange request { Response.cleared with credType := some (credTypeName type) } (fieldsFor type) deleting id cred s := by
  simp only [applyCredChange, htype, haction, hinteger, hid, h0, and_false, if_false, bind_apply, hget, andThen_ret]

/-- A request is refused at once, or has a credential to start from. -/
theorem applyCredChange_cases (p : Nvs) (r : CredStorage) (request : JsonObject) :
    (∃ response, applyCredChange request ⟨p, [], r⟩ = .ret (false, response) ⟨p, [], r⟩) ∨
      ∃ type deleting id start, Started p request type deleting id start ∧ applyCredChange request ⟨p, [], r⟩ =
        applyChange request { Response.cleared with credType := some (credTypeName type) } (fieldsFor type) deleting id start
          ⟨p, [], r⟩ := by
  cases htype : parseType (request "credType") with
  | none => exact .inl ⟨_, by simp only [applyCredChange, htype]; rfl⟩
  | some type =>
    cases haction : parseAction (request "clicked") with
    | none => exact .inl ⟨_, by simp only [applyCredChange, htype, haction]; rfl⟩
    | some deleting =>
      cases hinteger : ParamChecks.integer (request (fieldsFor type).id) 0 0xfffffffe with
      | none => exact .inl ⟨_, by simp only [applyCredChange, htype, haction, hinteger]; rfl⟩
      | some n =>
        by_cases hbad : deleting = true ∧ n.toNat.toUInt32 = 0
        · exact .inl ⟨_, by simp only [applyCredChange, htype, haction, hinteger, hbad, and_self, if_true]; rfl⟩
        · have hdel : deleting = true → n.toNat.toUInt32 ≠ 0 := fun h h0 => hbad ⟨h, h0⟩
          by_cases h0 : n.toNat.toUInt32 = 0
          · refine .inr ⟨type, deleting, n.toNat.toUInt32, newCred type,
              ⟨htype, rfl, h0.symm, hdel, fun _ => rfl, fun h => absurd h0 h⟩, ?_⟩
            simp only [applyCredChange, htype, haction, hinteger, if_neg hbad, if_pos h0]
            rfl
          · rcases getCred_none_or (p := p) (r := r) n.toNat.toUInt32 type with hnone | ⟨old, hold, hreal, hoid, hot, hget⟩
            · refine .inl ⟨{ Response.cleared with credType := some (credTypeName type) }.failed credNotFound, ?_⟩
              simp only [applyCredChange, htype, haction, hinteger, if_neg hbad, if_neg h0, bind_apply, hnone, andThen_ret]
              rfl
            · refine .inr ⟨type, deleting, n.toNat.toUInt32, toCacheRecord old,
                ⟨htype, hot, hoid, hdel, fun h => absurd h h0, fun _ => ⟨old, hold, hreal, rfl⟩⟩, ?_⟩
              exact applyCredChange_stored htype haction hinteger rfl h0 hget

/-- Every `set_cred` request either changes nothing, or makes exactly the
change its response names. -/
theorem applyCredChange_transactional (hp : WellFormed p ids) (ht : readRecord p lastKey = some t)
    (hreal : isRealCredId t.nextId = true) (r : CredStorage) (request : JsonObject) :
    ∃ changed response q r', applyCredChange request ⟨p, [], r⟩ = .ret (changed, response) ⟨q, [], r'⟩ ∧
      (changed = false → q = p ∧ r' = r) ∧
      (changed = true → ∃ id action, response.credId = some id ∧ response.action = some action ∧
        Changed p ids request id q action) := by
  rcases applyCredChange_cases p r request with ⟨response, hrefused⟩ | ⟨type, deleting, id, start, hstart, heq⟩
  · exact ⟨false, response, p, r, hrefused, fun _ => ⟨rfl, rfl⟩, fun h => absurd h Bool.false_ne_true⟩
  · rw [heq]
    exact applyChange_spec hp ht hreal hstart

/-- A request to create PIN 123456 with name A. -/
def createRequest : JsonObject := fun field =>
  if field = "credType" then .text (ascii ['c', 't', 'P', 'i', 'n'])
  else if field = "clicked" then .text (ascii ['s', 'a', 'v', 'e', 'b', 'u', 't', 't', 'o', 'n'])
  else if field = "pinid" then .integer 0
  else if field = "pinname" then .text [65]
  else if field = "pinvalue" then .text (ascii ['1', '2', '3', '4', '5', '6'])
  else .null

theorem applyCredChange_onePool :
    ∃ changed response q r', applyCredChange createRequest ⟨onePool, [], .fresh⟩ = .ret (changed, response) ⟨q, [], r'⟩ ∧
      (changed = false → q = onePool ∧ r' = .fresh) ∧
      (changed = true → ∃ id action, response.credId = some id ∧ response.action = some action ∧
        Changed onePool [1] createRequest id q action) :=
  applyCredChange_transactional onePool_wellFormed (show readRecord onePool lastKey = some _ from rfl) (by decide) .fresh
    createRequest

end OrangeBox.CredProtocol
