import OrangeBox.Lib.Flash
import OrangeBox.PassStore.Record
/-!
# The credential storage

`CredStorage` of `pass_store.cpp`, function by function, as programs over the
"pins" namespace. Opening the namespace and reading from it always succeed;
what a write or a remove does is up to the fault schedule. Log calls are left
out: nothing reads them.

`now` is the value of `time(nullptr)` in one call, as the 64-bit unsigned
number the validity bounds are compared with.
-/
open Flash

namespace OrangeBox.PassStore

/-! ## The namespace -/

/-- An NVS key. -/
abbrev Key := List Char

/-- `sizeof(CredRecord)`. -/
abbrev credRecordSize : Nat := 80

/-- A stored blob: a record if it has the size of one. -/
inductive Blob where
  | record (r : CredRecord)
  | other (length : { n : Nat // n ≠ credRecordSize })

def Blob.length : Blob → Nat
  | .record _ => credRecordSize
  | .other n => n

abbrev Nvs := Key → Option Blob

def hexDigit (n : Nat) : Char :=
  ['0', '1', '2', '3', '4', '5', '6', '7', '8', '9', 'A', 'B', 'C', 'D', 'E', 'F'].getD n '0'

/-- `%08X`. -/
def credKey (id : UInt32) : Key := [7, 6, 5, 4, 3, 2, 1, 0].map fun i => hexDigit (id.toNat / 16 ^ i % 16)

abbrev firstKeyKey : Key := ['0', '0', '0', '0', '0', '0', '0', '0']

/-- What `readData` finds under `id`: a blob of the right size and format. -/
def readRecord (p : Nvs) (id : UInt32) : Option CredRecord :=
  match p (credKey id) with
  | some (.record r) => if r.recordType = .credentialV1 then some r else none
  | _ => none

/-! ## The class -/

/-- The RAM fields of a `CredStorage`. -/
structure CredStorage where
  credsCache : List CacheRecord
  maxCredId : UInt32
  nextCredId : UInt32
  verifiedCredId : UInt32

/-- A `CredStorage` as constructed. -/
def CredStorage.fresh : CredStorage :=
  { credsCache := [], maxCredId := 0, nextCredId := 1, verifiedCredId := 0 }

/-- A program of the class. -/
abbrev Op := Prog Key Blob CredStorage

def readData (id : UInt32) : Op (Option CredRecord) := do return readRecord (← contents) id

def writeData (rec : CredRecord) : Op Bool :=
  if rec.recordType ≠ .credentialV1 then return false
  else write (.put (credKey rec.credId) (.record rec))

def setVerified (credId : UInt32) : Op Unit := setRam fun r => { r with verifiedCredId := credId }

/-- The validity test shared by `isActive`, `verifyCred`, `usedCred` and
`getCreds`. A bound of 0 is open. -/
def activeAt (validFrom validTo : UInt64) (remaining : Int) (now : UInt64) : Bool :=
  !(validFrom ≠ 0 && now < validFrom) && !(validTo ≠ 0 && now > validTo) && remaining ≠ 0

def isActive (rec : CredRecord) (now : UInt64) : Bool := activeAt rec.validFrom rec.validTo rec.remaining now

def CacheRecord.isActive (p : CacheRecord) (now : UInt64) : Bool :=
  activeAt p.validFrom p.validTo p.remaining now

/-- The record is linked in: both neighbours name it. -/
def verifyLocalChain (credId : UInt32) : Op Bool := do
  match ← readData credId with
  | none => return false
  | some rec =>
    if rec.credId = firstKey ∨ rec.credId = lastKey then return true
    else
      match ← readData rec.prevId with
      | none => return false
      | some prevrec =>
        match ← readData rec.nextId with
        | none => return false
        | some nextrec => return prevrec.nextId = rec.credId && nextrec.prevId = rec.credId

/-- The record `writeCred` links in before TAIL. -/
def newRecord (credIn lastCred : CredRecord) : CredRecord :=
  { credIn with credId := lastCred.nextId, nextId := lastKey, prevId := lastCred.prevId }

/-- The branch of `writeCred` that links a new record in before TAIL. Only the
result of the third write is looked at. -/
def insertCred (credIn lastCred prevCred : CredRecord) : Op UInt32 := do
  let cred := newRecord credIn lastCred
  let _ ← writeData (prevCred.withNext cred.credId)
  let _ ← writeData cred
  let written ← writeData ((lastCred.withNext (lastCred.nextId + 1)).withPrev cred.credId)
  if written = true then return cred.credId else return 0

def writeCred (credIn : CredRecord) : Op UInt32 := do
  let storedCred ← readData credIn.credId
  if credIn.credId = 0 ∨ storedCred = none then
    match ← readData lastKey with
    | none => return 0
    | some lastCred =>
      match ← readData lastCred.prevId with
      | none => return 0
      | some prevCred => insertCred credIn lastCred prevCred
  else
    let chained ← verifyLocalChain credIn.credId
    if chained = true then
      let written ← writeData credIn
      if written = true then return credIn.credId else return 0
    else return 0

/-- The record is the one the caller means: only its validity, count and door
may change. -/
def sameCred (credRec : CredRecord) (cacheRec : CacheRecord) : Bool :=
  credRec.credType = cacheRec.credType && credRec.name = cacheRec.name && credRec.credential = cacheRec.credential

/-- The fields `update` overwrites. -/
def CredRecord.updated (credRec : CredRecord) (cacheRec : CacheRecord) : CredRecord :=
  { credRec with
    validFrom := cacheRec.validFrom
    validTo := cacheRec.validTo
    remaining := cacheRec.remaining
    doorNum := cacheRec.doorNum }

def update (cacheRec : CacheRecord) : Op Bool := do
  match ← readData cacheRec.credId with
  | none => return false
  | some credRec =>
    if sameCred credRec cacheRec = false then return false
    else
      let written ← writeCred (credRec.updated cacheRec)
      return written ≠ 0

/-- The cache with `rec` in place of the first entry of the same id, or at the
end. -/
def replaceCached (rec : CacheRecord) : List CacheRecord → List CacheRecord
  | [] => [rec]
  | r :: rs => if r.credId = rec.credId then rec :: rs else r :: replaceCached rec rs

def updateCred (rec : CacheRecord) : Op Bool := do
  if validateCred rec = false then return false
  else
    let updated ← update rec
    if updated = true then
      setRam fun r => { r with credsCache := replaceCached rec r.credsCache }
      return true
    else return false

/-- The record `addCred` hands to `writeCred`. -/
def newCredRecord (rec : CacheRecord) : CredRecord :=
  { CredRecord.zero with
    name := rec.name.truncate maxNameLength maxNameLength_le
    credType := rec.credType
    credential := copyCredential rec.credType rec.credential
    validFrom := rec.validFrom
    validTo := rec.validTo
    remaining := rec.remaining
    doorNum := rec.doorNum }

def addCred (rec : CacheRecord) : Op UInt32 := do
  if validateCred rec = false then return 0
  else
    let newId ← writeCred (newCredRecord rec)
    if newId = 0 then return 0
    else
      setRam fun r => { r with credsCache := r.credsCache ++ [{ rec with credId := newId }] }
      return newId

/-- The entry's text is the one entered: equal for a PIN, contained in the
scanned code for a packet number. -/
def textMatches (p : CacheRecord) (credEntered : List UInt8) (credType : CredType) : Bool :=
  if credType = .password then p.credential.bytes = credEntered else p.credential.bytes <:+: credEntered

/-- `credEntered` is `none` for a null pointer. -/
def verifyCred (credEntered : Option (List UInt8)) (credType : CredType) (now : UInt64) : Op UInt8 := do
  setVerified 0
  if validateCredential credEntered credType (if credType = .packetNumber then packetScanMax else 0) = false then
    return doorUnknown
  else
    let r ← ram
    match r.credsCache.find? fun p => p.credType = credType && textMatches p (credEntered.getD []) credType with
    | none => return doorUnknown
    | some p =>
      if p.isActive now = true then
        setVerified p.credId
        return p.doorNum
      else return doorUnknown

/-- The three writes of `removeCred`. None of their results is looked at. -/
def unlinkCred (credId : UInt32) (credRec prevRec nextRec : CredRecord) : Op Unit := do
  let _ ← writeData (prevRec.withNext credRec.nextId)
  let _ ← write (.remove (credKey credId))
  let _ ← writeData (nextRec.withPrev credRec.prevId)
  return ()

def removeCred (rec : CacheRecord) : Op UInt32 := do
  match ← readData rec.credId with
  | none => return 0
  | some credRec =>
    let chained ← verifyLocalChain rec.credId
    if chained = false then return 0
    else if validateCredential (some rec.credential.bytes) rec.credType 0 = false ∨ sameCred credRec rec = false then
      return 0
    else
      match ← readData credRec.prevId with
      | none => return 0
      | some prevRec =>
        match ← readData credRec.nextId with
        | none => return 0
        | some nextRec =>
          unlinkCred rec.credId credRec prevRec nextRec
          setRam fun r => { r with credsCache := r.credsCache.eraseP (·.credId = rec.credId) }
          return rec.credId

/-- What `rec.credId` is at the end of `removeCred(rec)` if `rec` refers to the
first entry of the cache that is `found`: `erase` has moved the next entry there.
Behind the last one nothing is moved, and it stands where it stood. -/
def credIdAfterErase (found : CacheRecord → Bool) (credsCache : List CacheRecord) : UInt32 :=
  match credsCache.dropWhile fun p => !found p with
  | _ :: next :: _ => next.credId
  | [p] => p.credId
  | [] => 0

/-- `removeCred` is given a reference to the entry `p` itself, whose id it
returns once the entry is erased. -/
def usedCred (doorNum : UInt8) (now : UInt64) : Op Bool := do
  let r ← ram
  if r.verifiedCredId = 0 then return false
  else
    match r.credsCache.find? fun p => p.credId = r.verifiedCredId && p.doorNum = doorNum with
    | none =>
      setVerified 0
      return false
    | some p =>
      if p.isActive now = false then
        setVerified 0
        return false
      else if p.remaining > 1 then
        let updated ← updateCred { p with remaining := p.remaining - 1 }
        if updated = true then
          setVerified 0
          return true
        else return false
      else if p.remaining = 1 then
        let removed ← removeCred p
        if removed = 0 then return false
        else if credIdAfterErase (fun p => p.credId = r.verifiedCredId && p.doorNum = doorNum) r.credsCache = 0 then
          return false
        else
          setVerified 0
          return true
      else
        setVerified 0
        return true

def getCred (credId : UInt32) (credType : CredType) : Op (Option CacheRecord) := do
  let stored ← readData credId
  match stored with
  | none => return none
  | some stored =>
    if isRealCredId credId && isCredentialType credType && stored.credId = credId && stored.credType = credType
        && isStoredCredValid stored then
      return some (toCacheRecord stored)
    else return none

/-! ## Boot -/

/-- The loop of `rebuildCache` from `cur` on, with the cache and `maxCredId`
built so far. `none` when `fuel` iterations do not reach its end. -/
def rebuildLoop (p : Nvs) (now : UInt64) : Nat → UInt32 → List CacheRecord × UInt32 →
    Option (List CacheRecord × UInt32)
  | 0, _, _ => none
  | fuel + 1, cur, (credsCache, maxCredId) =>
    if cur = lastKey then some (credsCache, maxCredId)
    else
      match readRecord p cur with
      | none => some (credsCache, maxCredId)
      | some curCred =>
        if cur = firstKey then rebuildLoop p now fuel curCred.nextId (credsCache, maxCredId)
        else
          rebuildLoop p now fuel curCred.nextId
            (if isActive curCred now = true then credsCache ++ [toCacheRecord curCred] else credsCache,
              if curCred.credId > maxCredId then curCred.credId else maxCredId)

/-- One iteration more than there are keys: a longer walk never ends
(`rebuildLoop_exact`). -/
def rebuildFuel : Nat := 2 ^ 32 + 1

def rebuildCache (now : UInt64) : Op Bool := do
  setRam fun r => { r with credsCache := [], maxCredId := 0 }
  let p ← contents
  if p firstKeyKey = none then return false
  else
    match rebuildLoop p now rebuildFuel firstKey ([], 0) with
    | none => hang
    | some (credsCache, maxCredId) =>
      setRam fun r => { r with credsCache := credsCache, maxCredId := maxCredId }
      return true

def refreshCache (now : UInt64) : Op Bool := rebuildCache now

def emptyHead : CredRecord := { CredRecord.zero with credId := firstKey, prevId := firstKey, nextId := lastKey }

def emptyTail : CredRecord := { CredRecord.zero with credId := lastKey, prevId := firstKey, nextId := 1 }

def resetPool : Op Unit := do
  let _ ← write .clear
  let _ ← writeData emptyHead
  let _ ← writeData emptyTail
  setRam fun r => { r with credsCache := [], maxCredId := 0, nextCredId := 1 }

def ensurePool : Op Bool := do
  let head ← readData firstKey
  let tail ← readData lastKey
  match head, tail with
  | some head, some tail =>
    if head.credId ≠ firstKey ∨ tail.credId ≠ lastKey then
      resetPool
      return false
    else return true
  | _, _ =>
    resetPool
    return false

abbrev credGcMaxScanId : Nat := 4096

/-- The back link is corrected if it names no record. -/
def relink (current next : CredRecord) : Op Bool := do
  match ← readData next.prevId with
  | none =>
    let _ ← writeData (next.withPrev current.credId)
    return true
  | some _ => return false

/-- A back link that does not name the record before it: an interrupted
insert of the last record, or an interrupted delete. -/
def repairBackLink (tail current next : CredRecord) : Op Bool := do
  if next.prevId = current.prevId ∧ next.credId = lastKey then
    let _ ← writeData ((tail.withPrev current.credId).withNext (current.credId + 1))
    return true
  else
    match ← readData next.prevId with
    | some deleted =>
      if next.prevId = deleted.credId then
        let _ ← write (.remove (credKey deleted.credId))
    | none => pure ()
    relink current next

/-- The loop of `repairCredChain`, with `steps` iterations left. -/
def repairLoop (tail : CredRecord) : Nat → CredRecord → Op Bool
  | 0, _ => return false
  | steps + 1, current => do
    if current.nextId = firstKey ∨ current.nextId = current.credId then return false
    else
      match ← readData current.nextId with
      | none =>
        -- Interrupted insert, first step: roll back.
        if current.credId = tail.prevId then
          let _ ← writeData (current.withNext lastKey)
          return true
        else return false
      | some next =>
        if next.credId ≠ current.nextId then return false
        else if isRealCredId next.credId = true ∧ isStoredCredValid next = false then return false
        else if next.prevId ≠ current.credId then repairBackLink tail current next
        else if next.credId = lastKey then return true
        else repairLoop tail steps next

def repairCredChain : Op Bool := do
  match ← readData lastKey with
  | none => return false
  | some tail =>
    if tail.credId ≠ lastKey then return false
    else
      match ← readData firstKey with
      | none => return false
      | some current =>
        if current.credId ≠ firstKey then return false else repairLoop tail credGcMaxScanId current

def garbageCollect : Op Unit := do
  let pool ← ensurePool
  if pool = true then
    let repaired ← repairCredChain
    if repaired = true then return () else resetPool
  else return ()

/-- `CredStorage::begin`, whose first step discards a pool of the old, smaller
records. -/
def begin (now : UInt64) : Op Bool := do
  let p ← contents
  match p firstKeyKey with
  | some blob => if blob.length < credRecordSize then resetPool else pure ()
  | none => pure ()
  garbageCollect
  let _ ← rebuildCache now
  return true

end OrangeBox.PassStore
