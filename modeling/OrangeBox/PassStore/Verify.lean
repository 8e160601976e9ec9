import OrangeBox.PassStore.Runs
/-!
# Verification

`verifyCred` answers from the cache. On a pool that was well formed at boot its
answers are sound for what is stored (`verifyCred_sound`). They are complete
exactly when the cache holds a fitting credential and no credential of the same
text ahead of it is out of date (`verifyCred_complete_iff`).
-/
open Flash Linked Runs

namespace OrangeBox.PassStore

variable {p q : Nvs} {ids ids' listed listed' : List UInt32} {rec : CacheRecord} {old t : CredRecord} {k id : UInt32}
  {r r' : CredStorage} {now : UInt64} {first : Nat} {σ σ₀ σ₁ σ₂ σ' : History} {call : Call} {calls : List Call}
  {value : List UInt8} {credType : CredType} {doorNum : UInt8}

/-! ## The stored chain -/

/-- A credential met by following `nextId` from HEAD. -/
def OnChain (p : Nvs) (id : UInt32) : Prop :=
  isRealCredId id = true ∧ ∃ n, Walk.steps (rebuildStep p) n firstKey = some id

theorem WellLinked.onChain_iff (h : WellLinked p ids) : OnChain p id ↔ id ∈ ids := by
  constructor
  · rintro ⟨hreal, n, hn⟩
    have hmem : id ∈ nodes ids := by
      refine Walk.steps_mem (S := (· ∈ nodes ids)) (fun k k' hk hstep => ?_) (by simp) hn
      unfold rebuildStep at hstep
      split at hstep
      · contradiction
      · rename_i hne
        obtain ⟨rec, hrec, rfl⟩ := Option.map_eq_some_iff.1 hstep
        obtain ⟨u, v, huv⟩ := List.append_of_mem hk
        have hid := h.read_credId hk hrec
        rw [← hid] at huv hrec hne
        obtain ⟨v', -, rfl, -⟩ := h.next_of_nodes huv hrec hne
        rw [huv]
        simp
    obtain ⟨h0, h1⟩ := isRealCredId_iff.1 hreal
    simpa [h0, h1] using hmem
  · intro hid
    refine ⟨h.real hid, ?_⟩
    have hpath : (firstKey :: ids).IsChain fun a b => rebuildStep p a = some b := by
      have hfwd := h.chained.fwd
      rw [nodes, ← List.cons_append] at hfwd
      have hne : lastKey ∉ firstKey :: ids := by
        simp only [List.mem_cons, not_or]
        exact ⟨by decide, (nodes_nodup.1 h.nodup).2.2⟩
      refine List.IsChain.imp_of_mem_imp (fun a b ha _ hab => ?_) hfwd.left_of_append
      have ha : a ≠ lastKey := fun he => hne (he ▸ ha)
      rw [rebuildStep, if_neg ha]
      exact hab
    exact Walk.exists_steps hpath id (by simp [hid])

/-- The credential `id` on the chain opens door `doorNum` for `value` at `now`. -/
def Grants (p : Nvs) (value : List UInt8) (credType : CredType) (now : UInt64) (doorNum : UInt8) (id : UInt32) : Prop :=
  OnChain p id ∧ ∃ rec, readRecord p id = some rec ∧ rec.credType = credType ∧
    (if credType = .password then rec.credential.bytes = value else rec.credential.bytes <:+: value) ∧
    rec.doorNum = doorNum ∧ (rec.validFrom = 0 ∨ rec.validFrom ≤ now) ∧ (rec.validTo = 0 ∨ now ≤ rec.validTo) ∧
    rec.remaining ≠ 0

theorem activeAt_iff {validFrom validTo : UInt64} {remaining : Int} : activeAt validFrom validTo remaining now = true ↔
    (validFrom = 0 ∨ validFrom ≤ now) ∧ (validTo = 0 ∨ now ≤ validTo) ∧ remaining ≠ 0 := by
  simp only [activeAt, Bool.and_eq_true, Bool.not_eq_true', Bool.and_eq_false_iff, decide_eq_false_iff_not, not_not,
    decide_eq_true_eq, gt_iff_lt, UInt64.not_lt, ne_eq, and_assoc]

/-- The type and text of a cached credential are the ones asked for. -/
def CacheRecord.fits (value : List UInt8) (credType : CredType) (c : CacheRecord) : Bool :=
  c.credType = credType && textMatches c value credType

/-- It also opens a door now. -/
def CacheRecord.serves (value : List UInt8) (credType : CredType) (now : UInt64) (c : CacheRecord) : Bool :=
  c.fits value credType && c.isActive now && c.doorNum ≠ doorUnknown

/-- A stored credential grants what its cache entry would. -/
theorem grants_iff (hp : WellFormed p ids) (hid : id ∈ ids) {c : CacheRecord} (hc : storedCred p id = some c) :
    Grants p value credType now doorNum id ↔
      c.fits value credType = true ∧ c.isActive now = true ∧ c.doorNum = doorNum := by
  obtain ⟨rec, hrec, rfl⟩ := storedCred_eq_some.1 hc
  obtain ⟨-, -, htext, -⟩ := isStoredCredValid_iff.1 (hp.valid id hid rec hrec)
  have hcred : (toCacheRecord rec).credential = rec.credential := copyCredential_of_valid htext
  have hfits : (toCacheRecord rec).fits value credType = true ↔ rec.credType = credType ∧
      (if credType = .password then rec.credential.bytes = value else rec.credential.bytes <:+: value) := by
    simp only [CacheRecord.fits, textMatches, hcred, Bool.and_eq_true, decide_eq_true_eq]
    refine and_congr_right fun _ => ?_
    split <;> simp
  have hact : (toCacheRecord rec).isActive now = true ↔ (rec.validFrom = 0 ∨ rec.validFrom ≤ now) ∧
      (rec.validTo = 0 ∨ now ≤ rec.validTo) ∧ rec.remaining ≠ 0 := activeAt_iff
  rw [hfits, hact]
  constructor
  · rintro ⟨-, rec', hrec', htype, hmatch, hdoor, hactive⟩
    obtain rfl := Option.some.inj (hrec.symm.trans hrec')
    exact ⟨⟨htype, hmatch⟩, hactive, hdoor⟩
  · rintro ⟨⟨htype, hmatch⟩, hactive, hdoor⟩
    exact ⟨hp.toWellLinked.onChain_iff.2 hid, rec, hrec, htype, hmatch, hdoor, hactive⟩

/-! ## Soundness -/

theorem accepted_some {credEntered : Option (List UInt8)} {c : CacheRecord}
    (h : accepted r credEntered credType now = some c) :
    ∃ value, credEntered = some value ∧ c ∈ r.credsCache ∧ c.fits value credType = true ∧ c.isActive now = true := by
  obtain ⟨hc, hact⟩ := Option.filter_eq_some_iff.1 h
  unfold candidate at hc
  by_cases hvalid : validateCredential credEntered credType (if credType = .packetNumber then packetScanMax else 0) = false
  · rw [if_pos hvalid] at hc
    contradiction
  · rw [if_neg hvalid] at hc
    cases credEntered with
    | none => exact absurd rfl hvalid
    | some value => exact ⟨value, rfl, List.mem_of_find?_eq_some hc, List.find?_some hc, hact⟩

/-- The credential was given out, and is not on the chain. -/
def Retired (σ : History) (id : UInt32) : Prop :=
  ¬OnChain σ.flash id ∧ ∀ t, readRecord σ.flash lastKey = some t → id < t.nextId

/-- Ids are not given out twice. -/
theorem Retired.step (h : Sound first ids σ) (hc : Calls σ call σ') (hids : first + σ'.insertions < 2 ^ 32)
    (hret : Retired σ id) : Retired σ' id := by
  obtain ⟨ids', heff, h'⟩ := h.step hc hids
  obtain ⟨hoff, hbelow⟩ := hret
  obtain ⟨t, ht, -⟩ := h.next
  obtain ⟨t', ht', hcase⟩ := heff.tail h.settled ht
  have hlt := hbelow t ht
  rw [h.settled.toWellLinked.onChain_iff] at hoff
  refine ⟨?_, fun t'' ht'' => ?_⟩
  · rw [h'.settled.toWellLinked.onChain_iff]
    rcases hcase with ⟨rfl, -⟩ | ⟨hsub, -⟩
    · intro hm
      rcases List.mem_append.1 hm with hm | hm
      · exact hoff hm
      · rw [List.mem_singleton.1 hm] at hlt
        exact UInt32.lt_irrefl _ hlt
    · exact fun hm => hoff (hsub hm)
  · obtain rfl := Option.some.inj (ht'.symm.trans ht'')
    rcases hcase with ⟨-, hlast, hnext⟩ | ⟨-, hnext⟩
    · rw [hnext]
      grind
    · rw [hnext]; exact hlt

theorem Retired.run (h : Sound first ids σ) (hrun : Run Calls σ calls σ') (hids : first + σ'.insertions < 2 ^ 32)
    (hret : Retired σ id) : Retired σ' id := by
  induction hrun with
  | nil => exact hret
  | snoc hrun hc ih =>
    have hmono := hc.insertions_le
    obtain ⟨ids', h'⟩ := h.run hrun (by omega)
    exact (ih (by omega)).step h' hc hids

/-- A credential that was on the chain and is not any more is retired. -/
theorem Retired.of_removed (h : Sound first ids σ) (hrun : Run Calls σ calls σ') (hids : first + σ'.insertions < 2 ^ 32)
    (hon : OnChain σ.flash id) (hoff : ¬OnChain σ'.flash id) : Retired σ' id := by
  -- From the first state on, the id is below the next one.
  have hbelow : ∀ σ' calls, Run Calls σ calls σ' → first + σ'.insertions < 2 ^ 32 →
      ∀ t, readRecord σ'.flash lastKey = some t → id < t.nextId := by
    intro σ' calls hrun
    induction hrun with
    | nil =>
      intro _ t ht
      rw [h.settled.toWellLinked.onChain_iff] at hon
      exact h.settled.below id hon t ht
    | snoc hrun hc ih =>
      intro hids t ht
      have hmono := hc.insertions_le
      obtain ⟨ids₁, h₁⟩ := h.run hrun (by omega)
      obtain ⟨ids₂, heff, -⟩ := h₁.step hc hids
      obtain ⟨t₁, ht₁, -⟩ := h₁.next
      have hlt := ih (by omega) t₁ ht₁
      obtain ⟨t', ht', ⟨-, hlast, hnext⟩ | ⟨-, hnext⟩⟩ := heff.tail h₁.settled ht₁
      · obtain rfl := Option.some.inj (ht'.symm.trans ht)
        rw [hnext]
        grind
      · obtain rfl := Option.some.inj (ht'.symm.trans ht)
        rw [hnext]; exact hlt
  exact ⟨hoff, hbelow σ' calls hrun hids⟩

/-- An accepted credential grants the entered text. -/
theorem Sound.grants_of_accepted (h : Sound first ids σ) {credEntered : Option (List UInt8)} {c : CacheRecord}
    (hacc : accepted σ.ram credEntered credType now = some c) :
    ∃ value, credEntered = some value ∧ Grants σ.flash value credType now c.doorNum c.credId := by
  obtain ⟨value, hvalue, hmem, hfits, hact⟩ := accepted_some hacc
  obtain ⟨hlisted, old, hold, rfl, -⟩ := h.settled.stored_of_mem h.cached hmem
  refine ⟨value, hvalue, ?_⟩
  exact (grants_iff h.settled.toWellFormed (h.settled.sub hlisted) (storedCred_eq_some.2 ⟨old, hold, rfl⟩)).2
    ⟨hfits, hact, rfl⟩

/-- What `verifyCred` accepts is stored, and has been since it was added. -/
theorem verifyCred_sound (hp : WellFormed p ids) (hblank : SentinelsBlank p) (ht : readRecord p lastKey = some t)
    (hfirst : t.nextId ≠ 0) (hb : Boots p σ₀) (hrun : Run Calls σ₀ calls σ)
    (hids : t.nextId.toNat + σ.insertions < 2 ^ 32) {credEntered : Option (List UInt8)} {s : Sys Key Blob CredStorage}
    (hv : verifyCred credEntered credType now ⟨σ.flash, [], σ.ram⟩ = .ret doorNum s) (hd : doorNum ≠ doorUnknown) :
    (∃ value, credEntered = some value ∧ Grants σ.flash value credType now doorNum s.ram.verifiedCredId) ∧
      ∀ calls₁ calls₂ calls₃ σ₁ σ₂ id, Run Calls σ₀ calls₁ σ₁ → Run Calls σ₁ calls₂ σ₂ → Run Calls σ₂ calls₃ σ →
        OnChain σ₁.flash id → ¬OnChain σ₂.flash id → s.ram.verifiedCredId ≠ id := by
  obtain ⟨ids₀, h₀⟩ := hb.sound hp hblank ht hfirst
  obtain ⟨ids', h⟩ := h₀.run hrun hids
  have hgrants : ∃ value, credEntered = some value ∧ Grants σ.flash value credType now doorNum s.ram.verifiedCredId := by
    rw [verifyCred_eq] at hv
    split at hv
    · exact absurd (Outcome.ret.inj hv).1.symm hd
    · rename_i c hacc
      obtain ⟨rfl, rfl⟩ := Outcome.ret.inj hv
      exact h.grants_of_accepted hacc
  refine ⟨hgrants, ?_⟩
  rintro calls₁ calls₂ calls₃ σ₁ σ₂ id hrun₁ hrun₂ hrun₃ hon hoff rfl
  obtain ⟨value, -, hgrant⟩ := hgrants
  have hle₂ := Calls.insertions_le_run hrun₂
  have hle₃ := Calls.insertions_le_run hrun₃
  obtain ⟨ids₁, h₁⟩ := h₀.run hrun₁ (by omega)
  obtain ⟨ids₂, h₂⟩ := h₁.run hrun₂ (by omega)
  have hret := Retired.of_removed h₁ hrun₂ (by omega) hon hoff
  exact (hret.run h₂ hrun₃ hids).1 hgrant.1

/-- The PIN of `sampleCred`. -/
def samplePin : List UInt8 := [49, 50, 51, 52, 53, 54]

/-- What a boot of `onePool` caches. -/
theorem cacheOf_onePool : cacheOf onePool 0 [1] = [toCacheRecord (sampleCred 1 firstKey lastKey)] := by decide

/-- The class after that boot. -/
def onePoolRam (m : UInt32) : CredStorage :=
  { CredStorage.fresh with credsCache := cacheOf onePool 0 [1], maxCredId := m }

theorem verifyCred_onePool (m : UInt32) : verifyCred (some samplePin) .password 0 ⟨onePool, [], onePoolRam m⟩ =
    .ret 1 ⟨onePool, [], { onePoolRam m with verifiedCredId := 1 }⟩ := by
  rw [verifyCred_eq, onePoolRam, cacheOf_onePool]
  rfl

theorem verifyCred_sound_onePool : ∃ σ s, Boots onePool σ ∧
    verifyCred (some samplePin) .password 0 ⟨σ.flash, [], σ.ram⟩ = .ret 1 s ∧
      ∃ value, some samplePin = some value ∧ Grants σ.flash value .password 0 1 s.ram.verifiedCredId := by
  obtain ⟨m, hm⟩ := begin_wellFormed 0 .fresh onePool_wellFormed (by decide)
  have hboot : Boots onePool _ := .mk hm.whole
  have hverify := verifyCred_onePool m
  refine ⟨_, _, hboot, hverify, ?_⟩
  exact (verifyCred_sound onePool_wellFormed onePool_blank (show readRecord onePool lastKey = some _ from rfl) (by decide)
    hboot .nil (show (2 : Nat) + 0 < 2 ^ 32 by decide) hverify (by decide)).1

/-- An empty pool whose TAIL carries a credential text. -/
def tailTextPool : Nvs := (store (sampleCred lastKey firstKey 1)).apply emptyPool

theorem tailTextPool_wellFormed : WellFormed tailTextPool [] :=
  emptyPool_wellFormed.rewrite (r := emptyTail) (by rw [read_emptyPool]; rfl) (fun hne => absurd rfl hne) (by simp) rfl rfl
    (fun hr => absurd hr (by decide))

/-- The text of TAIL, as an administrator may save it. -/
def tailCred : CacheRecord := toCacheRecord (sampleCred lastKey firstKey 1)

/-- TAIL's text can be updated, and is then accepted from the cache. -/
theorem tail_text_accepted : WellFormed tailTextPool [] ∧ ∃ σ₀ σ s, Boots tailTextPool σ₀ ∧
    Run Calls σ₀ [.updateCred tailCred] σ ∧ σ.insertions = 0 ∧
      verifyCred (some samplePin) .password 0 ⟨σ.flash, [], σ.ram⟩ = .ret 1 s ∧ ∀ id, ¬OnChain σ.flash id := by
  have hp := tailTextPool_wellFormed
  obtain ⟨m, hm⟩ := begin_wellFormed 0 .fresh hp (by decide)
  have hu : Updates tailTextPool tailCred (sampleCred lastKey firstKey 1) := ⟨by decide, by decide, by decide⟩
  have hupdate : updateCred tailCred ⟨tailTextPool, [], { CredStorage.fresh with credsCache := [], maxCredId := m }⟩ =
      .ret true ⟨(store ((sampleCred lastKey firstKey 1).updated tailCred)).apply tailTextPool, [],
        { CredStorage.fresh with credsCache := [tailCred], maxCredId := m }⟩ := by
    rw [updateCred_stored hp hu (by decide)]
    rfl
  have hq : WellFormed ((store ((sampleCred lastKey firstKey 1).updated tailCred)).apply tailTextPool) [] :=
    hp.rewrite (r := sampleCred lastKey firstKey 1) (by decide) (fun hne => absurd rfl hne) (by simp) rfl rfl
      (fun hr => absurd hr (by decide))
  have hverify : ∀ q r, r.credsCache = [tailCred] → verifyCred (some samplePin) .password 0 ⟨q, [], r⟩ =
      .ret 1 ⟨q, [], { r with verifiedCredId := lastKey }⟩ := fun q r hr => by
    rw [verifyCred_eq, accepted, candidate, hr]
    rfl
  refine ⟨hp, _, _, _, .mk hm.whole, .single (.updateCred hupdate), rfl, hverify _ _ rfl, fun id hid => ?_⟩
  exact absurd (hq.toWellLinked.onChain_iff.1 hid) List.not_mem_nil

/-! ## Completeness -/

/-- Some credential on the chain opens a door. -/
def Opens (p : Nvs) (value : List UInt8) (credType : CredType) (now : UInt64) : Prop :=
  ∃ id doorNum, doorNum ≠ doorUnknown ∧ Grants p value credType now doorNum id

/-- The entered text has the form of a credential. -/
def wellEntered (value : List UInt8) (credType : CredType) : Bool :=
  validateCredential (some value) credType (if credType = .packetNumber then packetScanMax else 0)

/-- `verifyCred` finds a door if a stored credential opens one. -/
def Complete (p : Nvs) (r : CredStorage) (value : List UInt8) (credType : CredType) (now : UInt64) : Prop :=
  wellEntered value credType = true → Opens p value credType now →
    ∃ doorNum s, verifyCred (some value) credType now ⟨p, [], r⟩ = .ret doorNum s ∧ doorNum ≠ doorUnknown

/-- A credential that opens a door is cached, and none cached ahead of it has
the text but is out of date, used up or without a door. -/
def Served (cache : List CacheRecord) (value : List UInt8) (credType : CredType) (now : UInt64) : Prop :=
  ∃ l c l', cache = l ++ c :: l' ∧ c.serves value credType now = true ∧
    ∀ c' ∈ l, c'.fits value credType = true → c'.serves value credType now = true

theorem CacheRecord.serves_iff {c : CacheRecord} : c.serves value credType now = true ↔
    c.fits value credType = true ∧ c.isActive now = true ∧ c.doorNum ≠ doorUnknown := by
  simp [CacheRecord.serves, and_assoc]

/-- The first credential of the text decides. -/
theorem served_iff {cache : List CacheRecord} : Served cache value credType now ↔
    ∃ c, cache.find? (CacheRecord.fits value credType) = some c ∧ c.serves value credType now = true := by
  constructor
  · rintro ⟨l, c, l', rfl, hc, hl⟩
    cases hfind : l.find? (CacheRecord.fits value credType) with
    | none => exact ⟨c, by simp [List.find?_append, hfind, (CacheRecord.serves_iff.1 hc).1], hc⟩
    | some c' =>
      refine ⟨c', by simp [List.find?_append, hfind], ?_⟩
      exact hl c' (List.mem_of_find?_eq_some hfind) (List.find?_some hfind)
  · rintro ⟨c, hfind, hc⟩
    obtain ⟨-, l, l', rfl, hl⟩ := List.find?_eq_some_iff_append.1 hfind
    refine ⟨l, c, l', rfl, hc, fun c' hc' hfits => ?_⟩
    have := hl c' hc'
    simp [hfits] at this

theorem verifyCred_opens_iff (hvalue : wellEntered value credType = true) :
    (∃ doorNum s, verifyCred (some value) credType now ⟨p, [], r⟩ = .ret doorNum s ∧ doorNum ≠ doorUnknown) ↔
      Served r.credsCache value credType now := by
  have hacc : accepted r (some value) credType now =
      (r.credsCache.find? (CacheRecord.fits value credType)).filter (·.isActive now) := by
    unfold wellEntered at hvalue
    rw [accepted, candidate, hvalue, if_neg (by decide)]
    rfl
  rw [served_iff]
  constructor
  · rintro ⟨doorNum, s, hv, hd⟩
    rw [verifyCred_eq] at hv
    split at hv
    · exact absurd (Outcome.ret.inj hv).1.symm hd
    · rename_i c hc
      obtain ⟨rfl, -⟩ := Outcome.ret.inj hv
      rw [hacc] at hc
      obtain ⟨hfind, hact⟩ := Option.filter_eq_some_iff.1 hc
      exact ⟨c, hfind, CacheRecord.serves_iff.2 ⟨List.find?_some hfind, hact, hd⟩⟩
  · rintro ⟨c, hfind, hc⟩
    obtain ⟨-, hact, hd⟩ := CacheRecord.serves_iff.1 hc
    have hc : accepted r (some value) credType now = some c := by
      rw [hacc, Option.filter_eq_some_iff]
      exact ⟨hfind, hact⟩
    exact ⟨c.doorNum, _, by rw [verifyCred_eq, hc], hd⟩

/-- Verification is complete exactly when, should a stored credential open a
door, the cache serves one. After a boot of a well-formed pool the cache holds
the listed ids. -/
theorem verifyCred_complete_iff (hb : Boots p σ₀) (hrun : Run Calls σ₀ calls σ) (value : List UInt8)
    (credType : CredType) (now : UInt64) :
    (Complete σ.flash σ.ram value credType now ↔
        (wellEntered value credType = true → Opens σ.flash value credType now →
          Served σ.ram.credsCache value credType now)) ∧
      ∀ ids t, WellFormed p ids → SentinelsBlank p → readRecord p lastKey = some t → t.nextId ≠ 0 →
        t.nextId.toNat + σ.insertions < 2 ^ 32 → σ.ram.credsCache = entries σ.flash σ.listed := by
  refine ⟨?_, fun ids t hp hblank ht hfirst hids => ?_⟩
  · unfold Complete
    refine forall_congr' fun hvalue => forall_congr' fun _ => ?_
    exact verifyCred_opens_iff hvalue
  · obtain ⟨ids₀, h₀⟩ := hb.sound hp hblank ht hfirst
    obtain ⟨ids', h⟩ := h₀.run hrun hids
    exact h.cached

/-- A credential that becomes valid at 100. -/
def laterCred : CredRecord := { sampleCred 1 firstKey lastKey with validFrom := 100 }

/-- A pool with that credential. -/
def laterPool : Nvs := inserted emptyPool emptyTail emptyHead laterCred true true true

theorem laterPool_insertion : Insertion emptyPool [] [] emptyTail emptyHead laterCred :=
  { onePool_insertion with credId := rfl, prevId := rfl, nextId := rfl, valid := by decide }

theorem laterPool_wellFormed : WellFormed laterPool [1] := laterPool_insertion.wellFormed

theorem cacheOf_laterPool : cacheOf laterPool 0 [1] = [] := by decide

/-- Booted at 0, the credential is not accepted at 200. -/
theorem later_credential_missed : ∃ σ, Boots laterPool σ ∧ ¬Complete σ.flash σ.ram samplePin .password 200 := by
  obtain ⟨m, hm⟩ := begin_wellFormed 0 .fresh laterPool_wellFormed (by decide)
  refine ⟨_, .mk hm.whole, fun h => ?_⟩
  have hon : OnChain laterPool 1 := laterPool_wellFormed.toWellLinked.onChain_iff.2 (by simp)
  have hopens : Opens laterPool samplePin .password 200 :=
    ⟨1, 1, by decide, hon, laterCred, by decide, by decide, by decide, by decide, by decide, by decide, by decide⟩
  obtain ⟨doorNum, s, hv, hd⟩ := h (by decide) hopens
  rw [verifyCred_eq, cacheOf_laterPool] at hv
  exact hd (Outcome.ret.inj hv).1.symm

theorem verifyCred_complete_onePool : ∃ σ, Boots onePool σ ∧
    (Complete σ.flash σ.ram samplePin .password 0 ↔
      (wellEntered samplePin .password = true → Opens σ.flash samplePin .password 0 →
        Served σ.ram.credsCache samplePin .password 0)) := by
  obtain ⟨m, hm⟩ := begin_wellFormed 0 .fresh onePool_wellFormed (by decide)
  exact ⟨_, .mk hm.whole, (verifyCred_complete_iff (.mk hm.whole) .nil samplePin .password 0).1⟩

end OrangeBox.PassStore
