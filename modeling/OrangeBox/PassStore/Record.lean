import OrangeBox.Text
/-!
# Credential records

The records of `pass_store.h`, and the checks and copies at the top of
`pass_store.cpp`. Enumerations are stored as one byte each and flash may hold
any byte, so each has a constructor for the values the source does not name.
`pin` and `packetNumber` are a union, modeled by the text of its 21 bytes.
-/

namespace OrangeBox.PassStore

abbrev firstKey : UInt32 := 0
abbrev lastKey : UInt32 := 0xffffffff

abbrev minPinLength : Nat := 6
abbrev maxPinLength : Nat := 8
abbrev maxNameLength : Nat := 10
abbrev packetNumberMin : Nat := 8
abbrev packetNumberMax : Nat := 20
abbrev packetScanMax : Nat := 64
abbrev doorUnknown : UInt8 := 255

inductive RecordType where
  | credentialV1
  | unknown (raw : UInt8)
  deriving DecidableEq, Repr

/-- `all` is a query filter, never the type of a stored credential. -/
inductive CredType where
  | all
  | password
  | packetNumber
  | unknown (raw : UInt8)
  deriving DecidableEq, Repr

structure CredRecord where
  recordType : RecordType
  credType : CredType
  credId : UInt32
  prevId : UInt32
  nextId : UInt32
  doorNum : UInt8
  name : CText (maxNameLength + 1)
  credential : CText (packetNumberMax + 1)
  validFrom : UInt64
  validTo : UInt64
  remaining : Int
  deriving DecidableEq

structure CacheRecord where
  credType : CredType
  credId : UInt32
  name : CText (maxNameLength + 1)
  credential : CText (packetNumberMax + 1)
  doorNum : UInt8
  validFrom : UInt64
  validTo : UInt64
  remaining : Int
  deriving DecidableEq

/-- `CredRecord rec = {}`. -/
def CredRecord.zero : CredRecord :=
  { recordType := .credentialV1, credType := .password, credId := 0, prevId := 0, nextId := 0, doorNum := 0,
    name := .empty, credential := .empty, validFrom := 0, validTo := 0, remaining := 0 }

def CredRecord.withNext (rec : CredRecord) (id : UInt32) : CredRecord := { rec with nextId := id }

def CredRecord.withPrev (rec : CredRecord) (id : UInt32) : CredRecord := { rec with prevId := id }

/-! ## Checks -/

def isRealCredId (credId : UInt32) : Bool := credId ≠ firstKey && credId ≠ lastKey

def isCredentialType (type : CredType) : Bool := type = .password || type = .packetNumber

/-- Digits in a PIN, printable ASCII without blank in a packet number. -/
def isCredentialChar (type : CredType) (ch : UInt8) : Bool :=
  if type = .password then 48 ≤ ch && ch ≤ 57 else 33 ≤ ch && ch ≤ 126

def credentialMin (type : CredType) : Nat := if type = .password then minPinLength else packetNumberMin

def credentialMax (type : CredType) (maxOverride : Nat) : Nat :=
  if maxOverride ≠ 0 then maxOverride else if type = .password then maxPinLength else packetNumberMax

/-- `value` is `none` for a null pointer. -/
def validateCredential (value : Option (List UInt8)) (type : CredType) (maxOverride : Nat) : Bool :=
  match value with
  | none => false
  | some value =>
    if !isCredentialType type then false
    else
      let length := strnlen value (credentialMax type maxOverride + 1)
      if length < credentialMin type || length > credentialMax type maxOverride then false
      else (value.take length).all (isCredentialChar type)

/-- Contents of a credential: text, name and date range. -/
def validateCred (p : CacheRecord) : Bool :=
  if !validateCredential (some p.credential.bytes) p.credType 0 then false
  else
    let nameLength := strnlen p.name.bytes (maxNameLength + 1)
    if nameLength = 0 || nameLength > maxNameLength then false
    else !(p.validFrom ≠ 0 && p.validTo ≠ 0 && p.validFrom > p.validTo)

/-! ## Copies -/

theorem maxNameLength_le : maxNameLength ≤ maxNameLength + 1 := by decide
theorem packetNumberMax_le : packetNumberMax ≤ packetNumberMax + 1 := by decide
theorem maxPinLength_le : maxPinLength ≤ packetNumberMax + 1 := by decide

/-- The text `copyCredential` leaves in the destination's union. -/
def copyCredential (type : CredType) (source : CText (packetNumberMax + 1)) : CText (packetNumberMax + 1) :=
  if type = .packetNumber then source.truncate packetNumberMax packetNumberMax_le
  else source.truncate maxPinLength maxPinLength_le

def toCacheRecord (rec : CredRecord) : CacheRecord :=
  { credType := rec.credType
    credId := rec.credId
    name := rec.name.truncate maxNameLength maxNameLength_le
    credential := copyCredential rec.credType rec.credential
    doorNum := rec.doorNum
    validFrom := rec.validFrom
    validTo := rec.validTo
    remaining := rec.remaining }

def isStoredCredValid (rec : CredRecord) : Bool :=
  if !isRealCredId rec.credId then false
  else if rec.recordType ≠ .credentialV1 || !validateCredential (some rec.credential.bytes) rec.credType 0
      || strnlen rec.name.bytes (maxNameLength + 1) > maxNameLength then false
  else validateCred (toCacheRecord rec)

/-! ## Links are not contents -/

/-- All fields but the links. -/
def CredRecord.contents (rec : CredRecord) : CredRecord := (rec.withNext 0).withPrev 0

section Links
variable (rec : CredRecord) (id : UInt32)

@[simp] theorem withNext_nextId : (rec.withNext id).nextId = id := rfl
@[simp] theorem withNext_prevId : (rec.withNext id).prevId = rec.prevId := rfl
@[simp] theorem withNext_credId : (rec.withNext id).credId = rec.credId := rfl
@[simp] theorem withNext_recordType : (rec.withNext id).recordType = rec.recordType := rfl
@[simp] theorem withPrev_nextId : (rec.withPrev id).nextId = rec.nextId := rfl
@[simp] theorem withPrev_prevId : (rec.withPrev id).prevId = id := rfl
@[simp] theorem withPrev_credId : (rec.withPrev id).credId = rec.credId := rfl
@[simp] theorem withPrev_recordType : (rec.withPrev id).recordType = rec.recordType := rfl

@[simp] theorem toCacheRecord_withNext : toCacheRecord (rec.withNext id) = toCacheRecord rec := rfl
@[simp] theorem toCacheRecord_withPrev : toCacheRecord (rec.withPrev id) = toCacheRecord rec := rfl
@[simp] theorem isStoredCredValid_withNext : isStoredCredValid (rec.withNext id) = isStoredCredValid rec := rfl
@[simp] theorem isStoredCredValid_withPrev : isStoredCredValid (rec.withPrev id) = isStoredCredValid rec := rfl

@[simp] theorem withNext_withNext (id' : UInt32) : (rec.withNext id).withNext id' = rec.withNext id' := rfl
theorem withNext_withPrev (id' : UInt32) : (rec.withPrev id).withNext id' = (rec.withNext id').withPrev id := rfl

end Links

theorem withNext_of_eq {rec : CredRecord} {id : UInt32} (h : rec.nextId = id) : rec.withNext id = rec := by
  subst h; rfl

theorem withPrev_of_eq {rec : CredRecord} {id : UInt32} (h : rec.prevId = id) : rec.withPrev id = rec := by
  subst h; rfl

/-! ## What the checks mean -/

theorem isRealCredId_iff {credId : UInt32} : isRealCredId credId = true ↔ credId ≠ firstKey ∧ credId ≠ lastKey := by
  simp [isRealCredId]

theorem validateCredential_iff {value : List UInt8} {type : CredType} {maxOverride : Nat} :
    validateCredential (some value) type maxOverride = true ↔
      isCredentialType type = true ∧ credentialMin type ≤ value.length ∧
        value.length ≤ credentialMax type maxOverride ∧ ∀ ch ∈ value, isCredentialChar type ch = true := by
  by_cases hlen : value.length ≤ credentialMax type maxOverride
  · have : strnlen value (credentialMax type maxOverride + 1) = value.length := by
      simp only [strnlen]; omega
    simp [validateCredential, this, hlen]
  · have : credentialMax type maxOverride < strnlen value (credentialMax type maxOverride + 1) := by
      simp only [strnlen]; omega
    simp [validateCredential, hlen, this]

theorem validateCred_iff {p : CacheRecord} :
    validateCred p = true ↔
      validateCredential (some p.credential.bytes) p.credType 0 = true ∧ 0 < p.name.bytes.length ∧
        p.name.bytes.length ≤ maxNameLength ∧ ¬(p.validFrom ≠ 0 ∧ p.validTo ≠ 0 ∧ p.validTo < p.validFrom) := by
  have hn : strnlen p.name.bytes (maxNameLength + 1) = 0 ↔ p.name.bytes.length = 0 := by simp [strnlen]
  have hn' : maxNameLength < strnlen p.name.bytes (maxNameLength + 1) ↔ maxNameLength < p.name.bytes.length := by
    simp only [strnlen]; omega
  simp only [validateCred, Bool.or_eq_true, decide_eq_true_eq, gt_iff_lt, hn, hn']
  grind

/-- A valid text fits its type's array, so copying it changes nothing. -/
theorem copyCredential_of_valid {type : CredType} {t : CText (packetNumberMax + 1)}
    (h : validateCredential (some t.bytes) type 0 = true) : copyCredential type t = t := by
  obtain ⟨htype, -, hlen, -⟩ := validateCredential_iff.1 h
  cases type with
  | password => exact CText.truncate_of_le maxPinLength_le hlen
  | packetNumber => exact CText.truncate_of_le packetNumberMax_le hlen
  | _ => simp [isCredentialType] at htype

/-- Copying a valid record into the cache keeps its text and name. -/
theorem truncate_name_of_valid {p : CacheRecord} (h : validateCred p = true) :
    p.name.truncate maxNameLength maxNameLength_le = p.name :=
  CText.truncate_of_le _ (validateCred_iff.1 h).2.2.1

theorem isStoredCredValid_iff {rec : CredRecord} :
    isStoredCredValid rec = true ↔
      isRealCredId rec.credId = true ∧ rec.recordType = .credentialV1 ∧
        validateCredential (some rec.credential.bytes) rec.credType 0 = true ∧ 0 < rec.name.bytes.length ∧
        rec.name.bytes.length ≤ maxNameLength ∧
        ¬(rec.validFrom ≠ 0 ∧ rec.validTo ≠ 0 ∧ rec.validTo < rec.validFrom) := by
  have hn : strnlen rec.name.bytes (maxNameLength + 1) > maxNameLength ↔ maxNameLength < rec.name.bytes.length := by
    simp only [strnlen]; omega
  simp only [isStoredCredValid, Bool.or_eq_true, decide_eq_true_eq, hn]
  constructor
  · intro h
    split at h
    · contradiction
    · split at h
      · contradiction
      · rename_i hreal hrec
        simp only [not_or, Bool.not_eq_true', Bool.not_eq_false, not_lt, ne_eq, not_not] at hreal hrec
        obtain ⟨-, hname, -, hdate⟩ := validateCred_iff.1 h
        simp only [toCacheRecord, CText.truncate_bytes, List.length_take] at hname hdate
        exact ⟨by simpa using hreal, hrec.1.1, hrec.1.2, by omega, hrec.2, hdate⟩
  · rintro ⟨hreal, htype, hcred, hname, hlen, hdate⟩
    have hcopy : (toCacheRecord rec).credential = rec.credential := copyCredential_of_valid hcred
    have : validateCred (toCacheRecord rec) = true := by
      refine validateCred_iff.2 ⟨by rw [hcopy]; exact hcred, ?_, ?_, hdate⟩
      · simp only [toCacheRecord, CText.truncate_bytes, List.length_take]; omega
      · simp only [toCacheRecord, CText.truncate_bytes, List.length_take]; omega
    simp [hreal, htype, hcred, this, Nat.not_lt.2 hlen]

/-- A record with the contents of a valid request is valid. -/
theorem isStoredCredValid_of_same {c : CredRecord} {rec : CacheRecord} (hv : validateCred rec = true)
    (hreal : isRealCredId c.credId = true) (htype : c.recordType = .credentialV1) (hct : c.credType = rec.credType)
    (hname : c.name = rec.name) (hcred : c.credential = rec.credential) (hfrom : c.validFrom = rec.validFrom)
    (hto : c.validTo = rec.validTo) : isStoredCredValid c = true := by
  obtain ⟨htext, hlen, hlen', hdate⟩ := validateCred_iff.1 hv
  refine isStoredCredValid_iff.2 ⟨hreal, htype, ?_, ?_, ?_, ?_⟩
  · rw [hcred, hct]; exact htext
  · rw [hname]; exact hlen
  · rw [hname]; exact hlen'
  · rw [hfrom, hto]; exact hdate

theorem recordType_of_valid {rec : CredRecord} (h : isStoredCredValid rec = true) : rec.recordType = .credentialV1 :=
  (isStoredCredValid_iff.1 h).2.1

end OrangeBox.PassStore
