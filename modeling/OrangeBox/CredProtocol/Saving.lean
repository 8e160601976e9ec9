import OrangeBox.CredProtocol.Listing
import OrangeBox.PassStore.Ready
/-!
# Saving what is listed

Requests, verifications, uses, refreshes and reboots from a boot that starts an
empty pool (`Asks`). Every credential they store has dates and a count that a
request can set (`Tidy.entered`), so a listed row sent back is accepted and
changes nothing (`saved_row_unchanged`). The id after the last one breaks this:
its credential is listed, and no request can name it (`ids_run_out`).
-/
open Flash Linked Runs OrangeBox.PassStore

namespace OrangeBox.CredProtocol

/-! ## What is asked of the store -/

/-- What is asked of the store; a request with its answer. -/
inductive Ask where
  | request (request : JsonObject) (response : Response)
  | verified (credEntered : Option (List UInt8)) (credType : CredType) (now : UInt64)
  | used (doorNum : UInt8) (now : UInt64)
  | refreshed (now : UInt64)
  | rebooted (now : UInt64)

/-- A request that succeeds, or another call. -/
inductive Asks (s : Sys Key Blob CredStorage) : Ask → Sys Key Blob CredStorage → Prop
  | request {request : JsonObject} {response : Response} {s' : Sys Key Blob CredStorage} :
      applyCredChange request s = .ret (true, response) s' → Asks s (.request request response) s'
  | verified {credEntered : Option (List UInt8)} {credType : CredType} {now : UInt64} {doorNum : UInt8}
      {s' : Sys Key Blob CredStorage} : verifyCred credEntered credType now s = .ret doorNum s' →
      Asks s (.verified credEntered credType now) s'
  | used {doorNum : UInt8} {now : UInt64} {done : Bool} {s' : Sys Key Blob CredStorage} :
      usedCred doorNum now s = .ret done s' → Asks s (.used doorNum now) s'
  | refreshed {now : UInt64} {done : Bool} {s' : Sys Key Blob CredStorage} : refreshCache now s = .ret done s' →
      Asks s (.refreshed now) s'
  | rebooted {now : UInt64} {done : Bool} {s' : Sys Key Blob CredStorage} :
      begin now { s with ram := .fresh } = .ret done s' → Asks s (.rebooted now) s'

/-- A credential was created under the id of TAIL. -/
def Ask.overflows : Ask → Bool
  | .request _ response => response.credId = some lastKey
  | _ => false

variable {p q : Nvs} {ids ids' listed listed' : List UInt32} {r r' : CredStorage} {request : JsonObject} {fields : Fields}
  {type : CredType} {cred cred' : CacheRecord} {t : CredRecord} {id newId : UInt32} {deleting : Bool} {now : UInt64}
  {response : Response} {s s' : Sys Key Blob CredStorage} {ask : Ask} {asks : List Ask}

/-! ## Requests that succeed -/

/-- A request that succeeds has a credential to start from, and its change is made. -/
theorem applyCredChange_accepted (h : applyCredChange request ⟨p, [], r⟩ = .ret (true, response) s') :
    ∃ type deleting id start cred newId, Started p request type deleting id start ∧
      editCred request (fieldsFor type) deleting start = .ok cred ∧
      changeCred deleting cred ⟨p, [], r⟩ = .ret (some newId) s' ∧ response.credId = some newId := by
  rcases applyCredChange_cases p r request with ⟨response', hrefused⟩ | ⟨type, deleting, id, start, hstart, heq⟩
  · obtain ⟨hret, -⟩ := Outcome.ret.inj (hrefused.symm.trans h)
    exact absurd (Prod.mk.inj hret).1 Bool.false_ne_true
  · rw [heq] at h
    unfold applyChange at h
    cases hedit : editCred request (fieldsFor type) deleting start with
    | error failure =>
      rw [hedit] at h
      obtain ⟨hret, -⟩ := Outcome.ret.inj h
      exact absurd (Prod.mk.inj hret).1 Bool.false_ne_true
    | ok cred =>
      rw [hedit] at h
      dsimp only at h
      obtain ⟨made, s, hchange, h⟩ := ret_of_bind h
      cases made with
      | none =>
        obtain ⟨hret, -⟩ := Outcome.ret.inj h
        exact absurd (Prod.mk.inj hret).1 Bool.false_ne_true
      | some newId =>
        obtain ⟨hret, rfl⟩ := Outcome.ret.inj h
        obtain ⟨-, rfl⟩ := Prod.mk.inj hret
        exact ⟨type, deleting, id, start, cred, newId, hstart, hedit, hchange, rfl⟩

theorem newCred_entered (type : CredType) : Entered (newCred type) where
  validFrom := ⟨.text [], rfl⟩
  validTo := ⟨.text [], rfl⟩
  remaining := by
    unfold newCred
    dsimp only
    split <;> decide

theorem optionalDate_entered {value : JsonVariant} {endOfDay : Bool} {date date' : UInt64}
    (hdate : ∃ value, parseDate value endOfDay = some date) (h : optionalDate value endOfDay date = some date') :
    ∃ value, parseDate value endOfDay = some date' := by
  unfold optionalDate at h
  split at h
  · rwa [← Option.some.inj h]
  · exact ⟨value, h⟩

theorem setDates_entered (hentered : Entered cred) (h : setDates request fields cred = .ok cred') : Entered cred' := by
  unfold setDates at h
  split at h
  · contradiction
  · rename_i validFrom hfrom
    split at h
    · contradiction
    · rename_i validTo hto
      split at h
      · contradiction
      · obtain rfl := Except.ok.inj h
        exact ⟨optionalDate_entered hentered.validFrom hfrom, optionalDate_entered hentered.validTo hto, hentered.remaining⟩

theorem setRemaining_entered (hentered : Entered cred) (h : setRemaining request cred = .ok cred') : Entered cred' := by
  have hset : ∀ n, -1 ≤ n ∧ n ≤ 0x7fffffff → Entered { cred with remaining := n } := fun n hn =>
    ⟨hentered.validFrom, hentered.validTo, hn⟩
  unfold setRemaining at h
  dsimp only at h
  split at h
  · rwa [← Except.ok.inj h]
  · split at h
    · contradiction
    · split at h
      · obtain rfl := Except.ok.inj h
        exact hset (-1) (by decide)
      · split at h
        · split at h
          · rename_i amount hamount
            split at h
            · contradiction
            · obtain rfl := Except.ok.inj h
              exact hset amount ((ParamChecks.integer_iff (by decide) (by decide)).1 hamount).1
          · contradiction
        · split at h
          · contradiction
          · rwa [← Except.ok.inj h]

/-- A request sets only dates and counts that a row can give back. -/
theorem editCred_entered (hentered : Entered cred) (h : editCred request fields deleting cred = .ok cred') : Entered cred' := by
  unfold editCred at h
  obtain ⟨cred₁, h₁, h⟩ := bind_eq_ok h
  obtain ⟨cred₂, h₂, h⟩ := bind_eq_ok h
  obtain ⟨name, -, rfl⟩ := setName_ok h₁
  obtain ⟨credential, -, rfl⟩ := setValue_ok h₂
  have hentered₂ : Entered { cred with name := name, credential := credential } :=
    ⟨hentered.validFrom, hentered.validTo, hentered.remaining⟩
  cases deleting with
  | true =>
    obtain rfl := Except.ok.inj h
    exact hentered₂
  | false =>
    rw [if_neg Bool.false_ne_true] at h
    obtain ⟨cred₃, h₃, h⟩ := bind_eq_ok h
    obtain ⟨cred₄, h₄, h₅⟩ := bind_eq_ok h
    have hentered₃ := setDates_entered hentered₂ h₃
    obtain ⟨doorNum, -, rfl⟩ := setDoor_ok h₄
    have hentered₄ : Entered { cred₃ with doorNum := doorNum } :=
      ⟨hentered₃.validFrom, hentered₃.validTo, hentered₃.remaining⟩
    exact setRemaining_entered hentered₄ h₅

/-! ## The invariant -/

/-- A store in use that holds credentials as requests set them. -/
structure Tidy (p : Nvs) (ids listed : List UInt32) (r : CredStorage) : Prop extends Ready p ids listed r where
  entered : ∀ k ∈ ids, ∀ c, storedCred p k = some c → Entered c

/-- The system is in such a state, and nothing fails. -/
def InTidy (s : Sys Key Blob CredStorage) : Prop := ∃ p ids listed r, s = ⟨p, [], r⟩ ∧ Tidy p ids listed r

namespace Tidy

theorem of_effect (h : Tidy p ids listed r) (he : Effect p ids listed q ids' listed')
    (hcached : r'.credsCache = entries q listed') (hentered : ∀ k ∈ ids', ∀ c, storedCred q k = some c → Entered c) :
    Tidy q ids' listed' r' := ⟨h.toReady.of_effect he hcached, hentered⟩

/-- An added credential gets a real id, or the id of TAIL. -/
theorem addCred (h : Tidy p ids listed r) (hentered : Entered cred) (hadd : addCred cred ⟨p, [], r⟩ = .ret newId s')
    (hlast : newId ≠ lastKey) : InTidy s' := by
  obtain ⟨q, r', ids', listed', rfl, heff, hcached, -, hkeeps, hnew⟩ := h.toReady.addCred hadd hlast
  refine ⟨q, ids', listed', r', rfl, h.of_effect heff hcached fun k hk c hc => ?_⟩
  rcases hnew k hk with hold | hadded
  · rw [(hkeeps k (h.settled.real hold) (h.issued hold)).1] at hc
    exact h.entered k hold c hc
  · obtain rfl := Option.some.inj (hadded.symm.trans hc)
    exact ⟨hentered.validFrom, hentered.validTo, hentered.remaining⟩

theorem updateCred {done : Bool} (h : Tidy p ids listed r) (hentered : Entered cred)
    (hupdate : updateCred cred ⟨p, [], r⟩ = .ret done s') : InTidy s' := by
  obtain ⟨q, r', listed', rfl, heff, hcached, -, hkeeps, hown⟩ := h.toReady.updateCred hupdate
  refine ⟨q, ids, listed', r', rfl, h.of_effect heff hcached fun k hk c hc => ?_⟩
  by_cases he : k = cred.credId
  · subst he
    rcases hown with hown | hown
    · exact h.entered _ hk c (hown ▸ hc)
    · rwa [← Option.some.inj (hown.symm.trans hc)]
  · exact h.entered k hk c ((hkeeps k he).1 ▸ hc)

theorem removeCred {removed : UInt32} (h : Tidy p ids listed r) (hremove : removeCred cred ⟨p, [], r⟩ = .ret removed s') :
    InTidy s' := by
  obtain ⟨q, r', ids', listed', rfl, heff, hcached, -, hsub, hkeeps, hown⟩ := h.toReady.removeCred hremove
  refine ⟨q, ids', listed', r', rfl, h.of_effect heff hcached fun k hk c hc => h.entered k (hsub hk) c ?_⟩
  by_cases he : k = cred.credId
  · subst he
    rcases hown with hown | hown
    · exact hown ▸ hc
    · rw [hown] at hc
      cases hc
  · exact (hkeeps k he).1 ▸ hc

theorem verifyCred {credEntered : Option (List UInt8)} {doorNum : UInt8} (h : Tidy p ids listed r)
    (hverify : verifyCred credEntered type now ⟨p, [], r⟩ = .ret doorNum s') : InTidy s' := by
  rw [verifyCred_eq] at hverify
  split at hverify
  · obtain ⟨-, rfl⟩ := Outcome.ret.inj hverify
    exact ⟨p, ids, listed, _, rfl, h.toReady.with_ram rfl, h.entered⟩
  · obtain ⟨-, rfl⟩ := Outcome.ret.inj hverify
    exact ⟨p, ids, listed, _, rfl, h.toReady.with_ram rfl, h.entered⟩

/-- A use takes one off a count above 1. -/
theorem usedCred {doorNum : UInt8} {done : Bool} (h : Tidy p ids listed r)
    (hused : usedCred doorNum now ⟨p, [], r⟩ = .ret done s') : InTidy s' := by
  obtain ⟨q, r', ids', listed', rfl, heff, hcached, -, hsub, hkeeps, hown⟩ := h.toReady.usedCred hused
  refine ⟨q, ids', listed', r', rfl, h.of_effect heff hcached fun k hk c hc => ?_⟩
  by_cases he : k = r.verifiedCredId
  · subst he
    obtain ⟨c', hc', rfl | ⟨hmore, rfl⟩⟩ := hown c hc
    · exact h.entered _ (hsub hk) _ hc'
    · have hentered := h.entered _ (hsub hk) c' hc'
      have hbounds := hentered.remaining
      exact ⟨hentered.validFrom, hentered.validTo, by dsimp only; omega⟩
  · exact h.entered k (hsub hk) c (hkeeps k he ▸ hc)

theorem refreshCache {done : Bool} (h : Tidy p ids listed r) (hrefresh : refreshCache now ⟨p, [], r⟩ = .ret done s') :
    InTidy s' := by
  obtain ⟨r', rfl, hready, -⟩ := h.toReady.refreshCache hrefresh
  exact ⟨p, ids, _, r', rfl, hready, h.entered⟩

end Tidy

theorem tidy_emptyPool (hcached : r.credsCache = []) : Tidy emptyPool [] [] r :=
  ⟨ready_emptyPool hcached, fun _ hk => absurd hk List.not_mem_nil⟩

/-- A boot that starts an empty pool. -/
theorem boot_refused (hflash : Refused p) (now : UInt64) :
    ∃ r, begin now ⟨p, [], .fresh⟩ = .ret true ⟨emptyPool, [], r⟩ ∧ Tidy emptyPool [] [] r := by
  obtain ⟨m, hm⟩ := begin_resets (r := CredStorage.fresh) now hflash
  exact ⟨_, hm.whole, tidy_emptyPool rfl⟩

theorem Tidy.begin {done : Bool} (h : Tidy p ids listed r) (hboot : begin now ⟨p, [], .fresh⟩ = .ret done s') : InTidy s' := by
  rcases h.toReady.begin hboot with ⟨r', rfl, hready⟩ | ⟨r', rfl, hcached⟩
  · exact ⟨p, ids, _, r', rfl, hready, h.entered⟩
  · exact ⟨emptyPool, [], [], r', rfl, tidy_emptyPool hcached⟩

/-- The credential a request starts from. -/
theorem Tidy.start_entered {start : CacheRecord} (h : Tidy p ids listed r) (hstart : Started p request type deleting id start) :
    Entered start := by
  by_cases h0 : id = 0
  · rw [hstart.new_eq h0]
    exact newCred_entered type
  · obtain ⟨old, hold, hreal, rfl⟩ := hstart.stored h0
    have hstored : storedCred p id = some (toCacheRecord old) := storedCred_eq_some.2 ⟨old, hold, rfl⟩
    exact h.entered id (h.mem_of_stored hreal hstored) _ hstored

theorem Tidy.changeCred (h : Tidy p ids listed r) (hentered : Entered cred)
    (hchange : changeCred deleting cred ⟨p, [], r⟩ = .ret (some newId) s') (hlast : newId ≠ lastKey) : InTidy s' := by
  unfold CredProtocol.changeCred at hchange
  split_ifs at hchange
  · obtain ⟨removed, s, hremove, h'⟩ := ret_of_bind hchange
    obtain ⟨-, rfl⟩ := Outcome.ret.inj h'
    exact h.removeCred hremove
  · obtain ⟨updated, s, hupdate, h'⟩ := ret_of_bind hchange
    obtain ⟨-, rfl⟩ := Outcome.ret.inj h'
    exact h.updateCred hentered hupdate
  · obtain ⟨added, s, hadd, h'⟩ := ret_of_bind hchange
    obtain ⟨hid, rfl⟩ := Outcome.ret.inj h'
    split_ifs at hid
    obtain rfl := Option.some.inj hid
    exact h.addCred hentered hadd hlast

/-- One step keeps the store tidy, unless it gives out the id of TAIL. -/
theorem InTidy.step (h : InTidy s) (hask : Asks s ask s') (hids : ask.overflows = false) : InTidy s' := by
  obtain ⟨p, ids, listed, r, rfl, h⟩ := h
  cases hask with
  | request hrequest =>
    obtain ⟨type, deleting, id, start, cred, newId, hstart, hedit, hchange, hid⟩ := applyCredChange_accepted hrequest
    refine h.changeCred (editCred_entered (h.start_entered hstart) hedit) hchange fun he => ?_
    simp [Ask.overflows, hid, he] at hids
  | verified hverify => exact h.verifyCred hverify
  | used hused => exact h.usedCred hused
  | refreshed hrefresh => exact h.refreshCache hrefresh
  | rebooted hboot => exact h.begin hboot

theorem InTidy.run (h : InTidy s) (hrun : Run Asks s asks s') (hids : ∀ ask ∈ asks, ask.overflows = false) : InTidy s' := by
  induction hrun with
  | nil => exact h
  | snoc _ hask ih =>
    have hbefore := ih fun ask hmem => hids ask (List.mem_append_left _ hmem)
    exact hbefore.step hask (hids _ (List.mem_append_right _ (List.mem_singleton_self _)))

/-! ## A PIN created and deleted -/

/-- What `createRequest` describes. -/
def createdCred (id : UInt32) : CacheRecord :=
  { newCred .password with
    credId := id
    name := .read _ (ascii ['A'])
    credential := .read _ (ascii ['1', '2', '3', '4', '5', '6']) }

/-- A request to delete that PIN. -/
def deleteRequest (id : UInt32) : JsonObject := fun field =>
  if field = "clicked" then .text (ascii ['d', 'e', 'l', 'e', 't', 'e', 'b', 'u', 't', 't', 'o', 'n'])
  else if field = "pinid" then .integer id.toNat
  else createRequest field

theorem applyCredChange_createRequest : applyCredChange createRequest s = (changeCred false (createdCred 0) >>= fun made =>
    match made with
    | none => return (false, { Response.cleared with credType := some "ctPin" }.failed credChangeFailed)
    | some newId => return (true, { Response.cleared with credType := some "ctPin" }.changed false 0 newId)) s := rfl

theorem erased_refused : Refused fun _ => none := refused_of_no_tail (readRecord_none _)

theorem changeCred_added (h0 : cred.credId = 0) (hid : newId ≠ 0) (hadd : addCred cred s = .ret newId s') :
    changeCred false cred s = .ret (some newId) s' := by
  unfold changeCred
  rw [if_neg Bool.false_ne_true, if_neg (not_not.2 h0), bind_apply, hadd, andThen_ret, if_pos hid]
  rfl

theorem changeCred_removed (hremove : removeCred cred s = .ret cred.credId s') :
    changeCred true cred s = .ret (some cred.credId) s' := by
  unfold changeCred
  rw [if_pos rfl, bind_apply, hremove, andThen_ret, if_pos rfl]
  rfl

/-- Where the next id is kept. -/
def nextIdOf (p : Nvs) : Option UInt32 := (readRecord p lastKey).map CredRecord.nextId

/-- Creating the PIN in an empty pool uses up an id. -/
theorem create_accepted (h : Tidy p [] [] r) (ht : nextIdOf p = some id) (hlast : id ≠ lastKey) : ∃ q r' response,
    applyCredChange createRequest ⟨p, [], r⟩ = .ret (true, response) ⟨q, [], r'⟩ ∧ response.credId = some id ∧
      Tidy q [id] [id] r' ∧ storedCred q id = some (createdCred id) ∧ nextIdOf q = some (id + 1) := by
  obtain ⟨t, ht', h0⟩ := h.next
  obtain rfl : t.nextId = id := by simpa [nextIdOf, ht'] using ht
  obtain ⟨q, r', hadd, heff, hstored, hcached, -⟩ := addCred_effect h.settled h.cached
    (show validateCred (createdCred 0) = true by decide) ht' (isRealCredId_iff.2 ⟨h0, hlast⟩)
  have hnew := (hstored t.nextId (List.mem_singleton_self _)).trans (if_pos rfl)
  refine ⟨q, r', { Response.cleared with credType := some "ctPin" }.changed false 0 t.nextId, ?_, rfl,
    h.of_effect heff hcached fun k hk c hc => ?_, hnew, ?_⟩
  · rw [applyCredChange_createRequest, bind_apply, changeCred_added rfl h0 hadd]
    rfl
  · obtain rfl := List.mem_singleton.1 hk
    obtain rfl := Option.some.inj (hnew.symm.trans hc)
    exact ⟨(newCred_entered .password).validFrom, (newCred_entered .password).validTo, (newCred_entered .password).remaining⟩
  · obtain ⟨t', ht'', ⟨-, -, hnext⟩ | ⟨hsub, -⟩⟩ := heff.tail h.settled ht'
    · rw [nextIdOf, ht'', Option.map_some, hnext]
    · exact absurd (hsub (List.mem_singleton_self _)) List.not_mem_nil

theorem editCred_deleteRequest (id : UInt32) :
    editCred (deleteRequest id) (fieldsFor .password) true (createdCred id) = .ok (createdCred id) := rfl

/-- Deleting it leaves an empty pool. -/
theorem delete_accepted (h : Tidy p [id] [id] r) (hstored : storedCred p id = some (createdCred id))
    (ht : nextIdOf p = some newId) : ∃ q r' response,
    applyCredChange (deleteRequest id) ⟨p, [], r⟩ = .ret (true, response) ⟨q, [], r'⟩ ∧ response.credId = some id ∧
      Tidy q [] [] r' ∧ nextIdOf q = some newId := by
  have hmem : id ∈ [id] := List.mem_singleton_self id
  obtain ⟨old, hold, heq⟩ := storedCred_eq_some.1 hstored
  have hvalid := h.settled.valid id hmem old hold
  have hoid : old.credId = id := congrArg CacheRecord.credId heq
  have hot : old.credType = .password := congrArg CacheRecord.credType heq
  obtain ⟨h0, hlast⟩ := isRealCredId_iff.1 (h.settled.real hmem)
  obtain ⟨ra, rb, hrem⟩ := h.settled.removes_of_stored hmem hold
  rw [heq] at hrem
  obtain ⟨q, r', hremove, heff, -, hcached, -⟩ := removeCred_effect h.settled h.cached hrem
  rw [show (createdCred id).credId = id from rfl, List.erase_cons_head] at heff hcached
  have hget := getCred_stored (r := r) hold hoid hvalid
  rw [hot, heq] at hget
  have htype : parseType (deleteRequest id "credType") = some .password := rfl
  have haction : parseAction (deleteRequest id "clicked") = some true := rfl
  have hinteger : ParamChecks.integer (deleteRequest id (fieldsFor .password).id) 0 0xfffffffe = some (id.toNat : Int) :=
    integer_credId hlast
  refine ⟨q, r', { Response.cleared with credType := some "ctPin" }.changed true id id, ?_, rfl,
    h.of_effect heff hcached fun k hk => absurd hk List.not_mem_nil, ?_⟩
  · rw [applyCredChange_stored htype haction hinteger (toUInt32_credId id) h0 hget]
    unfold applyChange
    rw [editCred_deleteRequest]
    simp only [bind_apply, changeCred_removed hremove, andThen_ret]
    rfl
  · obtain ⟨t, ht', -⟩ := h.next
    obtain rfl : t.nextId = newId := by simpa [nextIdOf, ht'] using ht
    obtain ⟨t', ht'', ⟨hids, -⟩ | ⟨-, hnext⟩⟩ := heff.tail h.settled ht'
    · exact absurd (congrArg List.length hids) (by simp)
    · rw [nextIdOf, ht'', Option.map_some, hnext]

/-- A request to list the PINs. -/
def listRequest : JsonObject := fun field =>
  if field = "credType" then .text (ascii ['c', 't', 'P', 'i', 'n'])
  else .null

/-- The listing of a cache that holds the one PIN. -/
theorem list_created (hcached : r.credsCache = [createdCred id]) : ∃ response,
    buildCredResponse listRequest 0 ⟨p, [], r⟩ = .ret (true, response) ⟨p, [], r⟩ ∧
      response.rows = some (rowsOf .password [createdCred id]) := by
  have hcreds : getCreds 0 15 .password 0 ⟨p, [], r⟩ = .ret [createdCred id] ⟨p, [], r⟩ := by
    have hfrom : [createdCred id].filter (fun c => c.credId ≥ 0) = [createdCred id] :=
      List.filter_eq_self.2 fun c _ => decide_eq_true (Nat.zero_le _)
    have hshown : shown r .password 0 = [createdCred id] := by
      rw [shown, hcached]
      rfl
    rw [getCreds_eq (by decide) (Or.inr rfl), hshown, hfrom]
    rfl
  refine ⟨{ ListResponse.cleared with
    credType := some "ctPin"
    rows := some (rowsOf .password [createdCred id])
    rowCount := some 1 }, ?_, rfl⟩
  have hlist : buildCredResponse listRequest 0 = (getCreds 0 15 .password 0 >>= fun creds =>
      return (true, { ListResponse.cleared with
        credType := some "ctPin"
        rows := some (rowsOf .password creds)
        rowCount := some creds.length })) := rfl
  rw [hlist, bind_apply, hcreds]
  rfl

/-! ## Rows saved back -/

/-- A row of a tidy store, saved back, changes nothing. -/
theorem Tidy.saveRow {response : ListResponse} {rows : Rows} {done : Bool} {i : Nat} (h : Tidy p ids listed r)
    (hlist : buildCredResponse request now ⟨p, [], r⟩ = .ret (done, response) s') (hrows : response.rows = some rows)
    (hi : i < rows.id.length) : s' = ⟨p, [], r⟩ ∧ ∃ type response', parseType (request "credType") = some type ∧
      applyCredChange (rows.saveRequest type i) ⟨p, [], r⟩ = .ret (true, response') ⟨p, [], r⟩ := by
  obtain ⟨rfl, type, creds, htype, rfl, hall⟩ := rows_of_buildCredResponse hlist hrows
  have hlen : i < creds.length := Nat.lt_of_lt_of_eq hi (List.length_map _)
  have hget : creds[i]? = some creds[i] := List.getElem?_eq_getElem hlen
  obtain ⟨hmem, -, hct⟩ := hall creds[i] (List.getElem_mem hlen)
  obtain ⟨hlisted, old, hold, heq, -⟩ := h.settled.stored_of_mem h.cached hmem
  have hentered := h.entered _ (h.settled.sub hlisted) creds[i] (storedCred_eq_some.2 ⟨old, hold, heq⟩)
  have hrow := isRow_saveRequest hget hct (isCredentialType_of_parseType htype)
  obtain ⟨response', happly⟩ := applyCredChange_row h.settled h.cached hmem hentered hrow
  exact ⟨rfl, type, response', htype, happly⟩

/-- In a store built by requests and uses, saving a listed row changes neither
the flash nor the cache; every date a request can set is written as a text that
gives it back. -/
theorem saved_row_unchanged {now₀ : UInt64} {done₀ : Bool} {s₀ : Sys Key Blob CredStorage} (hflash : Refused p)
    (hboot : begin now₀ ⟨p, [], .fresh⟩ = .ret done₀ s₀) (hrun : Run Asks s₀ asks s)
    (hids : ∀ ask ∈ asks, ask.overflows = false) :
    (∀ request now done response rows s' i, buildCredResponse request now s = .ret (done, response) s' →
      response.rows = some rows → i < rows.id.length → s' = s ∧ ∃ type response',
        parseType (request "credType") = some type ∧
          applyCredChange (rows.saveRequest type i) s = .ret (true, response') s) ∧
      ∀ value endOfDay date, parseDate value endOfDay = some date →
        parseDate (.text (formatDate date endOfDay)) endOfDay = some date := by
  obtain ⟨r₀, hboot', h₀⟩ := boot_refused hflash now₀
  obtain ⟨-, rfl⟩ := Outcome.ret.inj (hboot.symm.trans hboot')
  have hstart : InTidy ⟨emptyPool, [], r₀⟩ := ⟨emptyPool, [], [], r₀, rfl, h₀⟩
  obtain ⟨q, ids, listed, r, rfl, h⟩ := hstart.run hrun hids
  exact ⟨fun request now done response rows s' i hlist hrows hi => h.saveRow hlist hrows hi,
    fun value endOfDay date hdate => parseDate_formatDate hdate⟩

/-- One PIN created on an erased flash, listed and saved. -/
theorem saved_row_unchanged_created : ∃ s₀ ask s response rows type response', begin 0 ⟨fun _ => none, [], .fresh⟩ = .ret true s₀ ∧
    Asks s₀ ask s ∧ buildCredResponse listRequest 0 s = .ret (true, response) s ∧ response.rows = some rows ∧
      0 < rows.id.length ∧ applyCredChange (rows.saveRequest type 0) s = .ret (true, response') s := by
  obtain ⟨r₀, hboot, h₀⟩ := boot_refused erased_refused 0
  obtain ⟨q, r, response₁, hcreate, hid, h, hstored, -⟩ := create_accepted h₀ (show nextIdOf emptyPool = some 1 from rfl) (by decide)
  have hcached : r.credsCache = [createdCred 1] := by rw [h.cached, entries_cons_some hstored, entries_nil]
  obtain ⟨response, hlist, hrows⟩ := list_created (p := q) hcached
  have hask : Asks ⟨emptyPool, [], r₀⟩ (.request createRequest response₁) ⟨q, [], r⟩ := .request hcreate
  obtain ⟨hsaved, -⟩ := saved_row_unchanged erased_refused hboot (Run.single hask) fun ask hmem => by
    rw [List.mem_singleton.1 hmem, Ask.overflows, hid]
    rfl
  obtain ⟨-, type, response', -, hsave⟩ := hsaved listRequest 0 true response _ _ 0 hlist hrows Nat.zero_lt_one
  exact ⟨_, _, _, response, _, type, response', hboot, hask, hlist, hrows, Nat.zero_lt_one, hsave⟩

/-! ## Running out of ids -/

/-- The ids are used up one by one, from a boot that starts an empty pool. -/
theorem exists_run_to (h : Tidy p [] [] r) (ht : nextIdOf p = some 1) (n : Nat) (hn : n + 1 < 2 ^ 32) : ∃ asks q r',
    Run Asks ⟨p, [], r⟩ asks ⟨q, [], r'⟩ ∧ Tidy q [] [] r' ∧ nextIdOf q = some (UInt32.ofNat (n + 1)) := by
  induction n with
  | zero => exact ⟨[], p, r, .nil, h, ht⟩
  | succ n ih =>
    obtain ⟨asks, q, r', hrun, hq, hnext⟩ := ih (by omega)
    have hid : (UInt32.ofNat (n + 1)).toNat = n + 1 := UInt32.toNat_ofNat_of_lt' (Nat.lt_of_succ_lt hn)
    have hlast : UInt32.ofNat (n + 1) ≠ lastKey := fun he => by
      have hkey : lastKey.toNat = 0xffffffff := rfl
      rw [he] at hid
      omega
    obtain ⟨q₁, r₁, response₁, hcreate, -, h₁, hstored, hnext₁⟩ := create_accepted hq hnext hlast
    obtain ⟨q₂, r₂, response₂, hdelete, -, h₂, hnext₂⟩ := delete_accepted h₁ hstored hnext₁
    refine ⟨_, q₂, r₂, (hrun.snoc (.request hcreate)).snoc (.request hdelete), h₂, ?_⟩
    rw [hnext₂, UInt32.ofNat_add (n + 1) 1]
    rfl

/-- No request can name the id of TAIL. -/
theorem save_refused : ∃ response,
    applyCredChange ((rowsOf .password [createdCred lastKey]).saveRequest .password 0) s = .ret (false, response) s :=
  ⟨{ Response.cleared with credType := some "ctPin" }.failed invalidCredId, rfl⟩

/-- After 2^32 - 2 PINs were created and deleted, the next one gets the id of
TAIL; it is listed, and its row cannot be saved. -/
theorem ids_run_out : ∃ s₀ asks s response rows response', begin 0 ⟨fun _ => none, [], .fresh⟩ = .ret true s₀ ∧
    Run Asks s₀ asks s ∧ buildCredResponse listRequest 0 s = .ret (true, response) s ∧ response.rows = some rows ∧
      0 < rows.id.length ∧ applyCredChange (rows.saveRequest .password 0) s = .ret (false, response') s := by
  obtain ⟨r₀, hboot, h₀⟩ := boot_refused erased_refused 0
  obtain ⟨asks, p, r, hrun, h, hnext⟩ := exists_run_to h₀ rfl (2 ^ 32 - 2) (by decide)
  obtain ⟨t, ht, h0⟩ := h.next
  have hid : t.nextId = lastKey := by simpa [nextIdOf, ht] using hnext
  -- The last id of all is that of TAIL.
  obtain ⟨l, ra, -, hra, -⟩ := h.settled.last ht
  obtain ⟨q, r', hadd, hcached⟩ : ∃ q r', addCred (createdCred 0) ⟨p, [], r⟩ = .ret t.nextId ⟨q, [], r'⟩ ∧
      r'.credsCache = r.credsCache ++ [createdCred t.nextId] :=
    ⟨_, _, addCred_run ht hra (show validateCred (createdCred 0) = true by decide) h0, rfl⟩
  have hcreate : applyCredChange createRequest ⟨p, [], r⟩ =
      .ret (true, { Response.cleared with credType := some "ctPin" }.changed false 0 t.nextId) ⟨q, [], r'⟩ := by
    rw [applyCredChange_createRequest, bind_apply, changeCred_added rfl h0 hadd]
    rfl
  rw [h.cached, entries_nil, List.nil_append, hid] at hcached
  obtain ⟨response, hlist, hrows⟩ := list_created (p := q) hcached
  obtain ⟨response', hsave⟩ := save_refused (s := ⟨q, [], r'⟩)
  exact ⟨_, _, _, response, _, response', hboot, hrun.snoc (.request hcreate), hlist, hrows, Nat.zero_lt_one, hsave⟩

end OrangeBox.CredProtocol
