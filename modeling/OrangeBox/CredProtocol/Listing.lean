import OrangeBox.Lib.Decimal
import OrangeBox.CredProtocol.Change
import OrangeBox.CredProtocol.Dates
import OrangeBox.CredProtocol.Numbers
import OrangeBox.PassStore.Listing
/-!
# Listing and saving back

`buildCredResponse` of `cred_protocol.cpp` lists active credentials as rows of
texts. A row sent back unchanged changes nothing, in a store whose credentials
all came in by requests (`saved_row_unchanged`).
-/
open Flash Linked Runs OrangeBox.PassStore

namespace OrangeBox.CredProtocol

variable {p q : Nvs} {ids listed : List UInt32} {r r' : CredStorage} {first : Nat} {σ σ₀ σ' : History} {now : UInt64}
  {request : JsonObject} {fields : Fields} {type : CredType} {cred cred' : CacheRecord} {old t : CredRecord} {id : UInt32}
  {deleting : Bool}

/-! ## The listing -/

/-- `std::to_string`. -/
def toString (n : Int) : List UInt8 := if n < 0 then 45 :: Decimal.text n.natAbs else Decimal.text n.natAbs

/-- The columns of a listing, under the names of `fieldsFor`; the amounts, which
only PINs have, under `amount`. -/
structure Rows where
  id : List UInt32
  name : List (List UInt8)
  value : List (List UInt8)
  «from» : List (List UInt8)
  «to» : List (List UInt8)
  amount : Option (List (List UInt8))

/-- The response document of `get_creds`. -/
structure ListResponse where
  credType : Option String
  success : Option Bool
  error : Option String
  lastresult : Option String
  rows : Option Rows
  rowCount : Option Nat

def ListResponse.cleared : ListResponse :=
  { credType := none, success := none, error := none, lastresult := none, rows := none, rowCount := none }

def ListResponse.failed (response : ListResponse) (failure : Failure) : ListResponse :=
  { response with success := some false, error := some failure.reason, lastresult := some failure.resultCode }

def invalidListType : Failure := ⟨"invalid_cred_type", "R31"⟩
def invalidPagination : Failure := ⟨"invalid_pagination", "R32"⟩

/-- A number the request gives, or the default. -/
def optionalInteger (value : JsonVariant) (maximum default : Int) : Option Int :=
  if value.isNull = true then some default else ParamChecks.integer value 0 maximum

/-- The columns filled with the credentials. -/
def rowsOf (type : CredType) (creds : List CacheRecord) : Rows :=
  { id := creds.map (·.credId)
    name := creds.map (·.name.bytes)
    value := creds.map (·.credential.bytes)
    «from» := creds.map fun cred => formatDate cred.validFrom false
    «to» := creds.map fun cred => formatDate cred.validTo true
    amount := if type = .password then some (creds.map fun cred => toString cred.remaining) else none }

def buildCredResponse (request : JsonObject) (now : UInt64) : Op (Bool × ListResponse) := do
  match parseType (request "credType") with
  | none => return (false, ListResponse.cleared.failed invalidListType)
  | some type =>
    let response := { ListResponse.cleared with credType := some (credTypeName type) }
    match optionalInteger (request "credId") 0xfffffffe 0, optionalInteger (request "credCount") 100 15 with
    | some first, some count => do
      let creds ← getCreds first.toNat.toUInt32 count.toNat.toUInt32 type now
      return (true, { response with rows := some (rowsOf type creds), rowCount := some creds.length })
    | _, _ => return (false, response.failed invalidPagination)

/-! ## The request of a row -/

/-- Row `i` as a request to save it. -/
def Rows.saveRequest (rows : Rows) (type : CredType) (i : Nat) : JsonObject := fun field =>
  if field = "credType" then .text (ascii (credTypeName type).toList)
  else if field = "clicked" then .text (ascii ['s', 'a', 'v', 'e', 'b', 'u', 't', 't', 'o', 'n'])
  else if field = (fieldsFor type).id then .integer (rows.id.getD i 0).toNat
  else if field = (fieldsFor type).name then .text (rows.name.getD i [])
  else if field = (fieldsFor type).value then .text (rows.value.getD i [])
  else if field = (fieldsFor type).from then .text (rows.from.getD i [])
  else if field = (fieldsFor type).to then .text (rows.to.getD i [])
  else if field = "amount" then (match rows.amount with | some amount => .text (amount.getD i []) | none => .null)
  else .null

/-! ## A credential as a row -/

/-- The dates and the count are such as requests set. -/
structure Entered (cred : CacheRecord) : Prop where
  validFrom : ∃ value, parseDate value false = some cred.validFrom
  validTo : ∃ value, parseDate value true = some cred.validTo
  remaining : -1 ≤ cred.remaining ∧ cred.remaining ≤ 0x7fffffff

/-- The row of a credential. -/
structure IsRow (request : JsonObject) (cred : CacheRecord) : Prop where
  credType : parseType (request "credType") = some cred.credType
  clicked : parseAction (request "clicked") = some false
  id : request (fieldsFor cred.credType).id = .integer cred.credId.toNat
  name : request (fieldsFor cred.credType).name = .text cred.name.bytes
  value : request (fieldsFor cred.credType).value = .text cred.credential.bytes
  from_eq : request (fieldsFor cred.credType).from = .text (formatDate cred.validFrom false)
  to_eq : request (fieldsFor cred.credType).to = .text (formatDate cred.validTo true)
  amount : cred.credType = .password → request "amount" = .text (toString cred.remaining)
  doornum : request "doornum" = .null
  unlimited : request "checkbox-unlimited" = .null

theorem isNumeral_toString (n : Int) : ParamChecks.IsNumeral (toString n) n := by
  have hdigits : ∀ ch ∈ Decimal.text n.natAbs, Decimal.isDigit ch = true := fun _ hch => Decimal.isDigit_of_mem hch
  unfold toString
  by_cases hneg : n < 0
  · have h : ParamChecks.IsNumeral (45 :: Decimal.text n.natAbs) (-Decimal.value (Decimal.text n.natAbs)) :=
      .negative _ (Decimal.text_ne_nil _) hdigits
    rw [Decimal.value_text] at h
    rw [if_pos hneg]
    rwa [show -(n.natAbs : Int) = n by omega] at h
  · have h : ParamChecks.IsNumeral (Decimal.text n.natAbs) (Decimal.value (Decimal.text n.natAbs)) :=
      .nonneg _ (Decimal.text_ne_nil _) hdigits
    rw [Decimal.value_text] at h
    rw [if_neg hneg]
    rwa [show (n.natAbs : Int) = n by omega] at h

theorem asText_whole {text : List UInt8} (h : 0 ∉ text) : (JsonVariant.text text).asText = some text :=
  congrArg some (takeWhile_of_noNul h)

/-- A number within the bounds, written by `std::to_string`, is read back. -/
theorem integer_toString {n minimum maximum : Int} (hmin : -2 ^ 32 < minimum) (hmax : maximum < 2 ^ 32)
    (h : minimum ≤ n ∧ n ≤ maximum) : ParamChecks.integer (.text (toString n)) minimum maximum = some n := by
  have hnum := isNumeral_toString n
  exact (ParamChecks.integer_iff hmin hmax).2 ⟨h, Or.inr ⟨toString n, asText_whole hnum.noNul, hnum⟩⟩

/-- A text that fits is copied whole. -/
theorem copyText_whole {cap capacity : Nat} (text : CText cap) (hne : 0 < text.bytes.length) (hfits : text.bytes.length < capacity) :
    copyText cap (.text text.bytes) capacity = some text := by
  unfold copyText
  rw [asText_whole text.noNul]
  dsimp only
  rw [if_neg (not_or.2 ⟨List.length_pos_iff.1 hne, Nat.not_le.2 hfits⟩)]
  exact congrArg some (CText.ext (CText.read_bytes text.noNul text.bounded))

theorem ok_bind {α β : Type} (a : α) (f : α → Except Failure β) : (Except.ok a >>= f) = f a := rfl

/-- A valid credential is what its row describes. -/
theorem editCred_row (h : IsRow request cred) (hcred : validateCred cred = true) (hentered : Entered cred) :
    editCred request (fieldsFor cred.credType) false cred = .ok cred := by
  obtain ⟨htext, hpos, hlen, hdates⟩ := validateCred_iff.1 hcred
  obtain ⟨htype, hmin, hmax, -⟩ := validateCredential_iff.1 htext
  have hname : setName request (fieldsFor cred.credType) cred = .ok cred := by
    unfold setName
    rw [h.name, copyText_whole cred.name hpos (Nat.lt_succ_of_le hlen)]
  have hvalue : setValue request (fieldsFor cred.credType) cred = .ok cred := by
    have hbounds : 0 < cred.credential.bytes.length ∧
        cred.credential.bytes.length < if cred.credType = .password then maxPinLength + 1 else packetNumberMax + 1 := by
      by_cases hpin : cred.credType = .password
      · rw [hpin] at hmin hmax
        rw [if_pos hpin]
        exact ⟨Nat.lt_of_lt_of_le (by decide) hmin, Nat.lt_succ_of_le hmax⟩
      · have hcode : cred.credType = .packetNumber := by simpa [isCredentialType, hpin] using htype
        rw [hcode] at hmin hmax
        rw [if_neg hpin]
        exact ⟨Nat.lt_of_lt_of_le (by decide) hmin, Nat.lt_succ_of_le hmax⟩
    unfold setValue
    rw [h.value, copyText_whole cred.credential hbounds.1 hbounds.2]
  have hdated : setDates request (fieldsFor cred.credType) cred = .ok cred := by
    obtain ⟨from', hfrom⟩ := hentered.validFrom
    obtain ⟨to', hto⟩ := hentered.validTo
    unfold setDates optionalDate
    rw [h.from_eq, h.to_eq, parseDate_formatDate hfrom, parseDate_formatDate hto]
    exact if_neg hdates
  have hdoor : setDoor request cred = .ok cred := by
    unfold setDoor
    rw [h.doornum]
    rfl
  have hcount : setRemaining request cred = .ok cred := by
    unfold setRemaining
    rw [h.unlimited]
    by_cases hpin : cred.credType = .password
    · rw [h.amount hpin]
      rw [integer_toString (by decide) (by decide) hentered.remaining, if_neg (not_not.2 hpin)]
      rfl
    · exact if_pos hpin
  unfold editCred
  rw [hname, ok_bind, hvalue, ok_bind, if_neg Bool.false_ne_true, hdated, ok_bind, hdoor, ok_bind, hcount]

/-! ## A row saved back -/

theorem getCred_stored (hold : readRecord p id = some old) (hid : old.credId = id) (hvalid : isStoredCredValid old = true) :
    getCred id old.credType ⟨p, [], r⟩ = .ret (some (toCacheRecord old)) ⟨p, [], r⟩ := by
  obtain ⟨hreal, -, htext, -⟩ := isStoredCredValid_iff.1 hvalid
  obtain ⟨htype, -⟩ := validateCredential_iff.1 htext
  have hok : (isRealCredId id && isCredentialType old.credType && decide (old.credId = id) && decide (old.credType = old.credType)
      && isStoredCredValid old) = true := by
    rw [← hid, hreal, htype, hvalid]
    simp
  unfold getCred
  rw [bind_apply, readData_apply, andThen_ret, hold]
  dsimp only
  rw [if_pos hok]
  rfl

/-- A cached credential written back leaves everything as it is. -/
theorem updateCred_same (h : Settled p ids listed) (hcache : r.credsCache = entries p listed) (hmem : cred ∈ r.credsCache) :
    updateCred cred ⟨p, [], r⟩ = .ret true ⟨p, [], r⟩ := by
  obtain ⟨hlisted, old, hold, rfl, hvalid⟩ := h.stored_of_mem hcache hmem
  have hu : Updates p (toCacheRecord old) old := Settled.updates_of_stored hvalid hold (toCacheRecord old).remaining
  have hne : (toCacheRecord old).credId ≠ firstKey := (isRealCredId_iff.1 (h.real (h.sub hlisted))).1
  have hflash : (store (old.updated (toCacheRecord old))).apply p = p := store_of_read hold
  have hram : replaceCached (toCacheRecord old) r.credsCache = r.credsCache := by
    have hstored : storedCred p (toCacheRecord old).credId = some (toCacheRecord old) := storedCred_eq_some.2 ⟨old, hold, rfl⟩
    rw [hcache, replaceCached_entries h.keyed_listed h.distinct hstored fun _ _ => rfl]
    exact congrArg (entries p) (if_pos hlisted)
  rw [updateCred_run h.toWellFormed hu hne, hflash, hram]

/-- A request can name every id below that of TAIL. -/
theorem integer_credId (hlast : id ≠ lastKey) : ParamChecks.integer (.integer id.toNat) 0 0xfffffffe = some (id.toNat : Int) := by
  have hlt := UInt32.lt_iff_toNat_lt.1 (lt_lastKey hlast)
  have hkey : lastKey.toNat = 0xffffffff := rfl
  exact (ParamChecks.integer_iff (by decide) (by decide)).2 ⟨⟨by omega, by omega⟩, Or.inl rfl⟩

theorem toUInt32_credId (id : UInt32) : (id.toNat : Int).toNat.toUInt32 = id := by
  rw [Int.toNat_natCast]
  exact UInt32.ofNat_toNat

/-- The request of a row is accepted and changes nothing. -/
theorem applyCredChange_row (h : Settled p ids listed) (hcache : r.credsCache = entries p listed) (hmem : cred ∈ r.credsCache)
    (hentered : Entered cred) (hrow : IsRow request cred) :
    ∃ response, applyCredChange request ⟨p, [], r⟩ = .ret (true, response) ⟨p, [], r⟩ := by
  have hupdate := updateCred_same h hcache hmem
  obtain ⟨hlisted, old, hold, rfl, hvalid⟩ := h.stored_of_mem hcache hmem
  obtain ⟨h0, hlast⟩ := isRealCredId_iff.1 (h.real (h.sub hlisted))
  have hinteger : ParamChecks.integer (request (fieldsFor (toCacheRecord old).credType).id) 0 0xfffffffe =
      some ((toCacheRecord old).credId.toNat : Int) := by
    rw [hrow.id]
    exact integer_credId hlast
  have hget : getCred (toCacheRecord old).credId (toCacheRecord old).credType ⟨p, [], r⟩ = .ret (some (toCacheRecord old)) ⟨p, [], r⟩ :=
    getCred_stored hold rfl hvalid
  have hedit := editCred_row hrow (validateCred_toCacheRecord hvalid) hentered
  have hchange : changeCred false (toCacheRecord old) ⟨p, [], r⟩ = .ret (some (toCacheRecord old).credId) ⟨p, [], r⟩ := by
    unfold changeCred
    rw [if_neg Bool.false_ne_true, if_pos h0, bind_apply, hupdate]
    rfl
  rw [applyCredChange_stored hrow.credType hrow.clicked hinteger (toUInt32_credId _) h0 hget]
  unfold applyChange
  rw [hedit]
  simp only [bind_apply, hchange, andThen_ret]
  exact ⟨_, rfl⟩

/-- A row of the listing is the row of its credential. -/
theorem isRow_saveRequest {creds : List CacheRecord} {i : Nat} (hi : creds[i]? = some cred) (hct : cred.credType = type)
    (htype : isCredentialType type = true) : IsRow ((rowsOf type creds).saveRequest type i) cred := by
  have hat : ∀ {α : Type} (f : CacheRecord → α) (default : α), (creds.map f).getD i default = f cred := by
    intro α f default
    rw [List.getD_eq_getElem?_getD, List.getElem?_map, hi]
    rfl
  subst hct
  have hcases : cred.credType = .password ∨ cred.credType = .packetNumber := by simpa [isCredentialType] using htype
  have hid := hat (·.credId) 0
  have hname := hat (·.name.bytes) []
  have hvalue := hat (·.credential.bytes) []
  have hfrom := hat (fun cred => formatDate cred.validFrom false) []
  have hto := hat (fun cred => formatDate cred.validTo true) []
  have hamount := hat (fun cred => toString cred.remaining) []
  rcases hcases with hpin | hcode
  · rw [hpin]
    exact ⟨by rw [hpin]; rfl, rfl, by rw [hpin, ← hid]; rfl, by rw [hpin, ← hname]; rfl, by rw [hpin, ← hvalue]; rfl,
      by rw [hpin, ← hfrom]; rfl, by rw [hpin, ← hto]; rfl, fun _ => by rw [← hamount]; rfl, rfl, rfl⟩
  · rw [hcode]
    exact ⟨by rw [hcode]; rfl, rfl, by rw [hcode, ← hid]; rfl, by rw [hcode, ← hname]; rfl, by rw [hcode, ← hvalue]; rfl,
      by rw [hcode, ← hfrom]; rfl, by rw [hcode, ← hto]; rfl, (fun h => by rw [hcode] at h; cases h), rfl, rfl⟩

/-! ## Rows of a response -/

theorem isCredentialType_of_parseType {value : JsonVariant} (h : parseType value = some type) : isCredentialType type = true := by
  unfold parseType at h
  split at h
  · cases h
  · split_ifs at h
    · obtain rfl := Option.some.inj h
      rfl
    · obtain rfl := Option.some.inj h
      rfl

/-- A page holds cached credentials of the type. -/
theorem getCreds_mem (first count : UInt32) (htype : isCredentialType type = true) :
    ∃ creds, getCreds first count type now ⟨p, [], r⟩ = .ret creds ⟨p, [], r⟩ ∧
      ∀ c ∈ creds, c ∈ r.credsCache ∧ c.isActive now = true ∧ c.credType = type := by
  by_cases hn : count = 0
  · refine ⟨[], ?_, fun c hc => absurd hc List.not_mem_nil⟩
    unfold getCreds
    rw [ite_prog_apply, if_pos (Or.inl hn)]
    rfl
  · refine ⟨_, getCreds_eq hn (Or.inr htype), fun c hc => ?_⟩
    obtain ⟨hcached, hshown⟩ := List.mem_filter.1 (List.mem_filter.1 (List.mem_of_mem_take hc)).1
    have hne : type ≠ .all := by
      rintro rfl
      cases htype
    simp only [Bool.and_eq_true, Bool.or_eq_true, decide_eq_true_eq, hne, false_or] at hshown
    exact ⟨hcached, hshown⟩

/-- The rows of a response are those of active cached credentials. -/
theorem rows_of_buildCredResponse {response : ListResponse} {rows : Rows} {done : Bool} {s : Sys Key Blob CredStorage}
    (h : buildCredResponse request now ⟨p, [], r⟩ = .ret (done, response) s) (hrows : response.rows = some rows) :
    s = ⟨p, [], r⟩ ∧ ∃ type creds, parseType (request "credType") = some type ∧ rows = rowsOf type creds ∧
      ∀ c ∈ creds, c ∈ r.credsCache ∧ c.isActive now = true ∧ c.credType = type := by
  unfold buildCredResponse at h
  cases htype : parseType (request "credType") with
  | none =>
    rw [htype] at h
    obtain ⟨hret, -⟩ := Outcome.ret.inj h
    obtain ⟨-, rfl⟩ := Prod.mk.inj hret
    cases hrows
  | some type =>
    rw [htype] at h
    dsimp only at h
    generalize optionalInteger (request "credId") 0xfffffffe 0 = first at h
    generalize optionalInteger (request "credCount") 100 15 = count at h
    have hfailed : response ≠ { ListResponse.cleared with credType := some (credTypeName type) }.failed invalidPagination := by
      rintro rfl
      cases hrows
    cases first with
    | none => exact absurd (Prod.mk.inj (Outcome.ret.inj h).1).2.symm hfailed
    | some first =>
      cases count with
      | none => exact absurd (Prod.mk.inj (Outcome.ret.inj h).1).2.symm hfailed
      | some count =>
        obtain ⟨creds, hcreds, hall⟩ : ∃ creds, getCreds first.toNat.toUInt32 count.toNat.toUInt32 type now ⟨p, [], r⟩ =
            .ret creds ⟨p, [], r⟩ ∧ _ := getCreds_mem _ _ (isCredentialType_of_parseType htype)
        dsimp only at h
        rw [bind_apply, hcreds, andThen_ret] at h
        obtain ⟨hret, hs⟩ := Outcome.ret.inj h
        obtain ⟨-, rfl⟩ := Prod.mk.inj hret
        exact ⟨hs.symm, type, creds, rfl, (Option.some.inj hrows).symm, hall⟩

end OrangeBox.CredProtocol
