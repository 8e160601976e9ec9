import OrangeBox.Lib.Paging
import OrangeBox.PassStore.Verify
/-!
# Listing

`getCreds` cuts a page out of the cache in cache order, while the client asks
for the next page by id. The pages together are the active credentials exactly
when these stand in the cache in increasing order (`paging_complete_iff`). The
cache is built in that order; only `updateCred` can disturb it, with a credential
that is not cached and has an id below a cached one.
-/
open Flash Linked Runs

namespace OrangeBox.PassStore

variable {p q : Nvs} {ids ids' listed listed' : List UInt32} {r : CredStorage} {first : Nat} {σ σ₀ σ' : History}
  {call : Call} {calls : List Call} {fs : List Fault} {firstCredId numCreds : UInt32} {credType : CredType}
  {now : UInt64} {creds : List CacheRecord}

/-! ## The query -/

/-- The loop of `getCreds` over the rest of the cache. -/
def collectCreds (firstCredId numCreds : UInt32) (credType : CredType) (now : UInt64) :
    List CacheRecord → List CacheRecord → List CacheRecord
  | [], creds => creds
  | cred :: rest, creds =>
    if cred.isActive now = false then collectCreds firstCredId numCreds credType now rest creds
    else if cred.credId ≥ firstCredId ∧ (credType = .all ∨ cred.credType = credType) then
      if (creds ++ [cred]).length = numCreds.toNat then creds ++ [cred]
      else collectCreds firstCredId numCreds credType now rest (creds ++ [cred])
    else collectCreds firstCredId numCreds credType now rest creds

def getCreds (firstCredId numCreds : UInt32) (credType : CredType) (now : UInt64) : Op (List CacheRecord) := do
  if numCreds = 0 ∨ (credType ≠ .all ∧ isCredentialType credType = false) then return []
  else
    let r ← ram
    return collectCreds firstCredId numCreds credType now r.credsCache []

/-! ## The client -/

def largestId (creds : List CacheRecord) : UInt32 :=
  creds.foldl (fun id c => if id < c.credId then c.credId else id) 0

/-- `firstCredId` of the request that follows what was returned so far. -/
def nextFirst (creds : List CacheRecord) : UInt32 := if creds = [] then 0 else largestId creds + 1

/-- Requests until a page is empty, `none` if there are more than `fuel`. -/
def pageThrough (numCreds : UInt32) (credType : CredType) (now : UInt64) : Nat → List CacheRecord →
    Op (Option (List CacheRecord))
  | 0, _ => return none
  | fuel + 1, creds => do
    let page ← getCreds (nextFirst creds) numCreds credType now
    if page = [] then return some creds else pageThrough numCreds credType now fuel (creds ++ page)

/-- The cached credentials of a type that are active. -/
def shown (r : CredStorage) (credType : CredType) (now : UInt64) : List CacheRecord :=
  r.credsCache.filter fun c => c.isActive now && (credType = .all || c.credType = credType)

/-- In increasing id order, without repetition. -/
def Increasing (creds : List CacheRecord) : Prop := creds.Pairwise fun c c' => c.credId.toNat < c'.credId.toNat

/-- The client ends, with every active credential of the type once and in order. -/
def Paged (p : Nvs) (r : CredStorage) (credType : CredType) (numCreds : UInt32) (now : UInt64) : Prop :=
  ∃ fuel creds, pageThrough numCreds credType now fuel [] ⟨p, [], r⟩ = .ret (some creds) ⟨p, [], r⟩ ∧
    creds.Perm (shown r credType now) ∧ Increasing creds

/-! ## A page -/

/-- A cached credential belongs on the page, or on a later one. -/
def CacheRecord.listedFrom (firstCredId : UInt32) (credType : CredType) (now : UInt64) (c : CacheRecord) : Bool :=
  c.isActive now && (c.credId ≥ firstCredId && (credType = .all || c.credType = credType))

theorem collectCreds_eq (cache : List CacheRecord) (h : creds.length < numCreds.toNat) :
    collectCreds firstCredId numCreds credType now cache creds = creds ++
      (cache.filter (CacheRecord.listedFrom firstCredId credType now)).take (numCreds.toNat - creds.length) := by
  induction cache generalizing creds with
  | nil => simp [collectCreds]
  | cons cred rest ih =>
    rw [collectCreds]
    by_cases hact : cred.isActive now = false
    · have hdrop : ¬cred.listedFrom firstCredId credType now = true := by simp [CacheRecord.listedFrom, hact]
      rw [if_pos hact, List.filter_cons_of_neg hdrop, ih h]
    rw [if_neg hact]
    by_cases hin : cred.credId ≥ firstCredId ∧ (credType = .all ∨ cred.credType = credType)
    · have hkeep : cred.listedFrom firstCredId credType now = true := by
        simpa [CacheRecord.listedFrom, hact] using hin
      have hlen : (creds ++ [cred]).length = creds.length + 1 := List.length_append
      obtain ⟨k, hk⟩ : ∃ k, numCreds.toNat - creds.length = k + 1 := ⟨_, (Nat.succ_pred_eq_of_pos (by omega)).symm⟩
      rw [if_pos hin, List.filter_cons_of_pos hkeep, hk, List.take_succ_cons]
      split
      · rw [show k = 0 by omega, List.take_zero]
      · rw [ih (by omega), hlen, show numCreds.toNat - (creds.length + 1) = k by omega, List.append_assoc]
        rfl
    · have hdrop : ¬cred.listedFrom firstCredId credType now = true := by
        simpa [CacheRecord.listedFrom, hact] using hin
      rw [if_neg hin, List.filter_cons_of_neg hdrop, ih h]

/-- A type the storage can be asked for. -/
def Queried (credType : CredType) : Prop := credType = .all ∨ isCredentialType credType = true

theorem getCreds_eq (hn : numCreds ≠ 0) (htype : Queried credType) : getCreds firstCredId numCreds credType now ⟨p, fs, r⟩ =
    .ret (((shown r credType now).filter (·.credId ≥ firstCredId)).take numCreds.toNat) ⟨p, fs, r⟩ := by
  have hpos : ([] : List CacheRecord).length < numCreds.toNat := Nat.pos_of_ne_zero fun h => hn (UInt32.toNat_inj.1 h)
  have hguard : ¬(numCreds = 0 ∨ (credType ≠ .all ∧ isCredentialType credType = false)) := by
    rintro (h | ⟨h, h'⟩)
    · exact hn h
    · rw [htype.resolve_left h] at h'
      contradiction
  have hfilter : r.credsCache.filter (CacheRecord.listedFrom firstCredId credType now) =
      (shown r credType now).filter (·.credId ≥ firstCredId) := by
    rw [shown, List.filter_filter]
    refine List.filter_congr fun c _ => ?_
    rw [CacheRecord.listedFrom, Bool.and_left_comm]
  rw [getCreds, ite_prog_apply, if_neg hguard, bind_apply, ram_apply, andThen_ret]
  dsimp only
  rw [collectCreds_eq _ hpos, hfilter]
  rfl

/-! ## The whole listing -/

theorem largestId_lt {k : UInt32} : largestId creds < k ↔ 0 < k ∧ ∀ c ∈ creds, c.credId < k := by
  unfold largestId
  generalize (0 : UInt32) = m
  induction creds generalizing m with
  | nil => simp
  | cons c creds ih =>
    rw [List.foldl_cons, ih, List.forall_mem_cons, ← and_assoc]
    refine and_congr_left fun _ => ?_
    split <;> grind

theorem lt_lastKey {k : UInt32} (h : k ≠ lastKey) : k < lastKey := by
  have hne : k.toNat ≠ lastKey.toNat := fun he => h (UInt32.toNat_inj.1 he)
  have hlast : lastKey.toNat = 2 ^ 32 - 1 := rfl
  have hlt := k.toNat_lt
  exact UInt32.lt_iff_toNat_lt.2 (by omega)

/-- The next request starts above everything returned so far. -/
theorem nextFirst_le_iff (hids : ∀ c ∈ creds, c.credId ≠ lastKey) {id : UInt32} :
    nextFirst creds ≤ id ↔ ∀ c ∈ creds, c.credId < id := by
  by_cases hnil : creds = []
  · simp [nextFirst, hnil]
  · obtain ⟨c, hc⟩ := List.exists_mem_of_ne_nil creds hnil
    have hlast : largestId creds < lastKey :=
      largestId_lt.2 ⟨by decide, fun c hc => lt_lastKey (hids c hc)⟩
    have hsucc : largestId creds + 1 ≤ id ↔ largestId creds < id := by
      rw [UInt32.le_iff_toNat_le, UInt32.lt_iff_toNat_lt, toNat_succ (UInt32.ne_of_lt hlast)]
      exact Nat.succ_le_iff
    rw [nextFirst, if_neg hnil, hsucc, largestId_lt]
    refine and_iff_right_of_imp fun h => ?_
    exact UInt32.lt_of_le_of_lt UInt32.zero_le (h c hc)

theorem pageThrough_eq (hn : numCreds ≠ 0) (htype : Queried credType) (hcache : ∀ c ∈ r.credsCache, c.credId ≠ lastKey)
    (fuel : Nat) (hcreds : ∀ c ∈ creds, c.credId ≠ lastKey) :
    pageThrough numCreds credType now fuel creds ⟨p, fs, r⟩ =
      .ret (Paging.readAll (fun c : CacheRecord => c.credId.toNat) (shown r credType now) numCreds.toNat fuel creds)
        ⟨p, fs, r⟩ := by
  induction fuel generalizing creds with
  | zero => rfl
  | succ fuel ih =>
    -- The ids from the next first one on are those above all that were returned.
    have hpage : ((shown r credType now).filter (·.credId ≥ nextFirst creds)).take numCreds.toNat =
        Paging.page (fun c : CacheRecord => c.credId.toNat) (shown r credType now) numCreds.toNat creds := by
      rw [Paging.page, Paging.above]
      congr 1
      refine List.filter_congr fun c _ => ?_
      have hnext : nextFirst creds ≤ c.credId ↔ ∀ c' ∈ creds, c'.credId < c.credId := nextFirst_le_iff hcreds
      simp only [ge_iff_le, hnext, UInt32.lt_iff_toNat_lt, List.decide_forall_mem]
    rw [pageThrough, bind_apply, getCreds_eq hn htype, andThen_ret, hpage, Paging.readAll, ite_prog_apply]
    split
    · rfl
    · refine ih fun c hc => ?_
      rcases List.mem_append.1 hc with hc | hc
      · exact hcreds c hc
      · refine hcache c ?_
        have hmem := (Paging.mem_above.1 (List.mem_of_mem_take hc)).1
        exact (List.mem_filter.1 hmem).1

/-- The client sees every active credential once and in order exactly when they
stand in order in the cache. -/
theorem paged_iff (hn : numCreds ≠ 0) (htype : Queried credType) (hcache : ∀ c ∈ r.credsCache, c.credId ≠ lastKey) :
    Paged p r credType numCreds now ↔ Increasing (shown r credType now) := by
  have hpages : ∀ fuel, pageThrough numCreds credType now fuel [] ⟨p, [], r⟩ = .ret _ ⟨p, [], r⟩ := fun fuel =>
    pageThrough_eq hn htype hcache fuel fun c hc => absurd hc List.not_mem_nil
  have hnat : numCreds.toNat ≠ 0 := fun h => hn (UInt32.toNat_inj.1 h)
  constructor
  · rintro ⟨fuel, creds, hrun, hperm, hinc⟩
    rw [hpages] at hrun
    exact (Paging.read_sorted_iff hnat (Outcome.ret.inj hrun).1).1 ⟨hperm, hinc⟩
  · intro hinc
    obtain ⟨creds, hread⟩ := Paging.read_terminates (fun c : CacheRecord => c.credId.toNat) (shown r credType now)
      numCreds.toNat
    refine ⟨_, creds, by rw [hpages, hread], ?_⟩
    exact (Paging.read_sorted_iff hnat hread).2 hinc

/-! ## Runs -/

/-- An update that succeeds finds its credential in the cache, or its id is above
those of all cached credentials. -/
def InOrder (σ : History) (call : Call) (_ : History) : Prop :=
  ∀ rec s, call = .updateCred rec → updateCred rec ⟨σ.flash, [], σ.ram⟩ = .ret true s →
    (∃ c ∈ σ.ram.credsCache, c.credId = rec.credId) ∨ ∀ c ∈ σ.ram.credsCache, c.credId < rec.credId

theorem ids_entries (h : Keyed p listed) : (entries p listed).map (·.credId) = listed := by
  induction listed with
  | nil => rfl
  | cons k l ih =>
    obtain ⟨c, hc, hid⟩ := h.storedCred List.mem_cons_self
    rw [entries_cons_some hc, List.map_cons, hid, ih fun k hk => h k (List.mem_cons_of_mem _ hk)]

theorem pairwise_concat {l : List UInt32} {k : UInt32} (h : l.Pairwise (· < ·)) (hk : ∀ id ∈ l, id < k) :
    (l ++ [k]).Pairwise (· < ·) :=
  List.pairwise_append.2 ⟨h, List.pairwise_singleton _ _, fun id hid _ hk' => List.mem_singleton.1 hk' ▸ hk id hid⟩

/-- The chain stays in increasing order. -/
theorem Effect.ids_increasing (h : Settled p ids listed) (he : Effect p ids listed q ids' listed')
    (hids : ids.Pairwise (· < ·)) : ids'.Pairwise (· < ·) := by
  cases he with
  | nothing => exact hids
  | refresh _ => exact hids
  | rewrite _ => exact hids
  | insert _ hins => exact pairwise_concat hids fun id hid => h.below id hid _ hins.tail
  | delete _ => exact hids.sublist List.erase_sublist

/-- One call leaves the listed ids in increasing order. -/
theorem Calls.listed_increasing (h : Sound first ids σ) (hc : Calls σ call σ') (hs : Sound first ids' σ')
    (hids : ids'.Pairwise (· < ·)) (hlisted : σ.listed.Pairwise (· < ·)) (hcond : InOrder σ call σ') :
    σ'.listed.Pairwise (· < ·) := by
  have hmem : ∀ id, id ∈ σ.listed ↔ ∃ c ∈ σ.ram.credsCache, c.credId = id := fun id => by
    conv_lhs => rw [← ids_entries h.settled.keyed_listed, ← h.cached]
    exact List.mem_map
  cases hc with
  | addCred hcall =>
    rename_i rec newId q r
    dsimp only
    split
    · exact hlisted
    · -- The new id is the one TAIL held.
      rename_i hne
      obtain ⟨t, ht, hpos, -⟩ := h.next
      have h0 : t.nextId ≠ 0 := fun he => by simp [he] at hpos
      by_cases hv : validateCred rec = true
      · obtain ⟨l, ra, -, hra, -⟩ := h.settled.last ht
        obtain ⟨rfl, -⟩ := Outcome.ret.inj (hcall.symm.trans (addCred_run ht hra hv h0))
        exact pairwise_concat hlisted fun id hid => h.settled.below id (h.settled.sub hid) t ht
      · rw [addCred_invalid (by simpa using hv)] at hcall
        exact absurd (Outcome.ret.inj hcall).1.symm hne
  | updateCred hcall =>
    rename_i rec done q r
    dsimp only
    split
    · rename_i hdone
      subst hdone
      unfold note
      split
      · exact hlisted
      · -- An update of a credential that is not cached goes to the end.
        rename_i hnew
        refine pairwise_concat hlisted fun id hid => ?_
        obtain ⟨c, hc, rfl⟩ := (hmem id).1 hid
        rcases hcond rec _ rfl hcall with hold | habove
        · exact absurd ((hmem _).2 hold) hnew
        · exact habove c hc
    · exact hlisted
  | removeCred _ => exact hlisted.sublist List.erase_sublist
  | verifyCred _ => exact hlisted
  | usedCred _ => exact hlisted.sublist List.filter_sublist
  | refreshCache _ =>
    refine List.Pairwise.sublist List.filter_sublist ?_
    rwa [chainIds_eq hs.settled.toWellLinked]

/-- A run whose updates keep to the order leaves the cache in order. -/
theorem listed_increasing (h₀ : Sound first ids σ₀) (hids₀ : ids.Pairwise (· < ·)) (hlisted₀ : σ₀.listed.Pairwise (· < ·))
    (hrun : Run (Within Calls InOrder) σ₀ calls σ) (hids : first + σ.insertions < 2 ^ 32) :
    ∃ ids', Sound first ids' σ ∧ ids'.Pairwise (· < ·) ∧ σ.listed.Pairwise (· < ·) := by
  induction hrun with
  | nil => exact ⟨ids, h₀, hids₀, hlisted₀⟩
  | snoc hrun hs ih =>
    -- The chain grows at its end only, so a refresh lists it in order.
    have hmono := hs.1.insertions_le
    obtain ⟨ids₁, h₁, hids₁, hlisted₁⟩ := ih (by omega)
    obtain ⟨ids₂, heff, h₂⟩ := h₁.step hs.1 hids
    have hids₂ := heff.ids_increasing h₁.settled hids₁
    exact ⟨ids₂, h₂, hids₂, hs.1.listed_increasing h₁ h₂ hids₂ hlisted₁ hs.2⟩

theorem Sound.increasing (h : Sound first ids σ) (hlisted : σ.listed.Pairwise (· < ·)) :
    Increasing (shown σ.ram credType now) := by
  rw [← ids_entries h.settled.keyed_listed, ← h.cached] at hlisted
  have hall : Increasing σ.ram.credsCache := (List.pairwise_map.1 hlisted).imp UInt32.lt_iff_toNat_lt.1
  exact hall.sublist List.filter_sublist

/-- Paging is complete exactly when the active cached credentials stand in
increasing order, and they do if no update disturbs the order of the cache. -/
theorem paging_complete_iff (hb : Boots p σ₀) (hstart : Starts σ₀ first) (hrun : Run Calls σ₀ calls σ)
    (hids : first + σ.insertions < 2 ^ 32) :
    (∀ credType numCreds now, Queried credType → numCreds ≠ 0 →
      (Paged σ.flash σ.ram credType numCreds now ↔ Increasing (shown σ.ram credType now))) ∧
      ((chainIds σ₀.flash).Pairwise (· < ·) → Run (Within Calls InOrder) σ₀ calls σ →
        ∀ credType numCreds now, Queried credType → numCreds ≠ 0 → Paged σ.flash σ.ram credType numCreds now) := by
  obtain ⟨⟨ids₀, h₀⟩, -⟩ := hstart.sound hb
  obtain ⟨ids, h⟩ := h₀.run hrun hids
  have hpaged : ∀ credType numCreds now, Queried credType → numCreds ≠ 0 →
      (Paged σ.flash σ.ram credType numCreds now ↔ Increasing (shown σ.ram credType now)) := by
    intro credType numCreds now htype hn
    refine paged_iff hn htype fun c hc => ?_
    have hlisted := (h.settled.stored_of_mem h.cached hc).1
    exact (isRealCredId_iff.1 (h.settled.real (h.settled.sub hlisted))).2
  refine ⟨hpaged, fun hchain hkept credType numCreds now htype hn => ?_⟩
  have hids₀ : ids₀.Pairwise (· < ·) := by
    rwa [chainIds_eq h₀.settled.toWellLinked] at hchain
  have hlisted₀ : σ₀.listed.Pairwise (· < ·) := by
    cases hb
    exact hchain.sublist List.filter_sublist
  obtain ⟨ids', h', -, hlisted⟩ := listed_increasing h₀ hids₀ hlisted₀ hkept hids
  exact (hpaged credType numCreds now htype hn).2 (h'.increasing hlisted)

/-- The credential of `laterPool`, valid from now on. -/
def soonCred : CacheRecord := { toCacheRecord laterCred with validFrom := 0 }

/-- TAIL of `laterPool`. -/
def laterTail : CredRecord := (emptyTail.withNext 2).withPrev 1

/-- `laterPool` after another credential was added. -/
def twoPool : Nvs :=
  inserted laterPool laterTail laterCred (newRecord (newCredRecord tailCred) laterTail) true true true

theorem twoPool_insertion : Insertion laterPool [1] [0] laterTail laterCred
    (newRecord (newCredRecord tailCred) laterTail) where
  pool := laterPool_wellFormed
  tail := by decide
  prev := by decide
  last := by decide
  real := by decide
  credId := rfl
  prevId := rfl
  nextId := rfl
  valid := by decide

theorem twoPool_wellFormed : WellFormed twoPool [1, 2] := twoPool_insertion.wellFormed

theorem twoPool_blank : SentinelsBlank twoPool :=
  .of_eq (show readRecord twoPool firstKey = some _ from rfl) (show readRecord twoPool lastKey = some _ from rfl)
    (by decide) (by decide)

theorem cacheOf_twoPool : cacheOf twoPool 100 [1, 2] = [toCacheRecord laterCred, { tailCred with credId := 2 }] := by decide

theorem soonCred_updates : Updates twoPool soonCred (laterCred.withNext 2) := ⟨by decide, by decide, by decide⟩

/-- The class after a boot of that pool. -/
def twoPoolRam (m : UInt32) : CredStorage :=
  { CredStorage.fresh with credsCache := [toCacheRecord laterCred, { tailCred with credId := 2 }], maxCredId := m }

/-- Two credentials are paged through one by one after the first was updated. -/
theorem paging_complete_twoPool : ∃ σ₀ σ, Boots twoPool σ₀ ∧ Run Calls σ₀ [.updateCred soonCred] σ ∧
    (shown σ.ram .password 0).map (·.credId) = [1, 2] ∧ Paged σ.flash σ.ram .password 1 0 := by
  obtain ⟨m, hm⟩ := begin_wellFormed 100 .fresh twoPool_wellFormed (by decide)
  have hb : Boots twoPool _ := .mk hm.whole
  rw [cacheOf_twoPool] at hb
  have hstart : Starts _ 3 := hb.starts_of_wellFormed twoPool_wellFormed (by decide) twoPool_blank
    (show readRecord twoPool lastKey = some _ from rfl) (by decide)
  have hupdate : updateCred soonCred ⟨twoPool, [], twoPoolRam m⟩ =
    .ret true ⟨_, [], { twoPoolRam m with credsCache := [soonCred, { tailCred with credId := 2 }] }⟩ :=
    updateCred_run twoPool_wellFormed soonCred_updates (by decide)
  have hcall := Calls.updateCred (σ := ⟨twoPool, twoPoolRam m, (chainIds twoPool).filter (activeIn twoPool 100), 0⟩) hupdate
  have hcached : ∀ σ', InOrder ⟨twoPool, twoPoolRam m, (chainIds twoPool).filter (activeIn twoPool 100), 0⟩
      (.updateCred soonCred) σ' := by
    rintro σ' rec s hrec -
    obtain rfl := Call.updateCred.inj hrec
    exact .inl ⟨toCacheRecord laterCred, List.mem_cons_self, rfl⟩
  have hchain : (chainIds twoPool).Pairwise (· < ·) := by
    rw [chainIds_eq twoPool_wellFormed.toWellLinked]
    decide
  have hpaged := (paging_complete_iff hb hstart (.single hcall) (show (3 : Nat) + 0 < 2 ^ 32 by decide)).2 hchain
    (.single ⟨hcall, hcached _⟩)
  exact ⟨_, _, hb, .single hcall, rfl, hpaged .password 1 0 (.inr rfl) (by decide)⟩

/-- A credential that is not cached yet is updated after a later one was added:
it goes behind that one, and the pages leave it out. -/
theorem updated_credential_skipped : WellFormed laterPool [1] ∧ ∃ σ₀ σ, Boots laterPool σ₀ ∧
    Run Calls σ₀ [.addCred tailCred, .updateCred soonCred] σ ∧ σ.ram.credsCache.map (·.credId) = [2, 1] ∧
      ¬Paged σ.flash σ.ram .password 1 0 := by
  obtain ⟨m, hm⟩ := begin_wellFormed 0 .fresh laterPool_wellFormed (by decide)
  have hb : Boots laterPool _ := .mk hm.whole
  rw [cacheOf_laterPool] at hb
  have hadd : addCred tailCred ⟨laterPool, [], { CredStorage.fresh with credsCache := [], maxCredId := m }⟩ =
      .ret 2 ⟨twoPool, [], { CredStorage.fresh with credsCache := [{ tailCred with credId := 2 }], maxCredId := m }⟩ :=
    addCred_run twoPool_insertion.tail twoPool_insertion.prev (by decide) (by decide)
  have hupdate : updateCred soonCred ⟨twoPool, [], { CredStorage.fresh with credsCache := [{ tailCred with credId := 2 }], maxCredId := m }⟩ =
      .ret true ⟨(store ((laterCred.withNext 2).updated soonCred)).apply twoPool, [],
        { CredStorage.fresh with credsCache := [{ tailCred with credId := 2 }, soonCred], maxCredId := m }⟩ :=
    updateCred_run twoPool_wellFormed soonCred_updates (by decide)
  refine ⟨laterPool_wellFormed, _, _, hb, Run.cons (.addCred hadd) (.single (.updateCred hupdate)), rfl, fun hpaged => ?_⟩
  have hshown : Increasing [{ tailCred with credId := 2 }, soonCred] := by
    refine (paged_iff (by decide) (.inr rfl) fun c hc => ?_).1 hpaged
    have hall : ∀ c ∈ [{ tailCred with credId := 2 }, soonCred], c.credId ≠ lastKey := by decide
    exact hall c hc
  have hlt := (List.pairwise_cons.1 hshown).1 soonCred List.mem_cons_self
  exact absurd hlt (by decide)

end OrangeBox.PassStore
