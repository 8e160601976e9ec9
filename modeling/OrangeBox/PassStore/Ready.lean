import OrangeBox.PassStore.Runs
/-!
# A store in use

With ids left and nothing failing every call finds the pool well formed and the
cache in agreement with it, and leaves it so (`Ready`). For each call there is
one lemma on what it does to a single credential.
-/
open Flash Linked Runs

namespace OrangeBox.PassStore

variable {p q : Nvs} {ids ids' listed listed' : List UInt32} {rec c : CacheRecord} {t : CredRecord} {k newId : UInt32}
  {r r' : CredStorage} {now : UInt64} {s' : Sys Key Blob CredStorage} {doorNum : UInt8} {done : Bool}

/-- A settled pool with ids left, and the listed ids cached. -/
structure Ready (p : Nvs) (ids listed : List UInt32) (r : CredStorage) : Prop where
  settled : Settled p ids listed
  cached : r.credsCache = entries p listed
  next : ∃ t, readRecord p lastKey = some t ∧ t.nextId ≠ 0

/-- The id was given out. -/
def Issued (p : Nvs) (k : UInt32) : Prop := ∃ t, readRecord p lastKey = some t ∧ k < t.nextId

/-- An id given out stays so. -/
theorem Effect.issued (h : Settled p ids listed) (he : Effect p ids listed q ids' listed') (hk : Issued p k) : Issued q k := by
  obtain ⟨t, ht, hlt⟩ := hk
  obtain ⟨t', ht', ⟨-, hlast, hnext⟩ | ⟨-, hnext⟩⟩ := he.tail h ht
  · refine ⟨t', ht', ?_⟩
    have hsucc := toNat_succ hlast
    rw [UInt32.lt_iff_toNat_lt] at hlt ⊢
    rw [hnext, hsucc]
    omega
  · exact ⟨t', ht', by rw [hnext]; exact hlt⟩

namespace Ready

theorem of_effect (h : Ready p ids listed r) (he : Effect p ids listed q ids' listed')
    (hcached : r'.credsCache = entries q listed') : Ready q ids' listed' r' := by
  refine ⟨he.settled h.settled, hcached, ?_⟩
  obtain ⟨t, ht, h0⟩ := h.next
  obtain ⟨t', ht', ⟨-, hlast, hnext⟩ | ⟨-, hnext⟩⟩ := he.tail h.settled ht
  · refine ⟨t', ht', fun hzero => ?_⟩
    have hsucc := toNat_succ hlast
    rw [← hnext, hzero] at hsucc
    exact absurd hsucc (Nat.succ_ne_zero _).symm
  · exact ⟨t', ht', by rw [hnext]; exact h0⟩

theorem with_ram (h : Ready p ids listed r) (hcached : r'.credsCache = r.credsCache) : Ready p ids listed r' :=
  ⟨h.settled, hcached.trans h.cached, h.next⟩

theorem issued (h : Ready p ids listed r) (hk : k ∈ ids) : Issued p k := by
  obtain ⟨t, ht, -⟩ := h.next
  exact ⟨t, ht, h.settled.below k hk t ht⟩

/-- A stored credential is on the chain. -/
theorem mem_of_stored (h : Ready p ids listed r) (hreal : isRealCredId k = true) (hc : storedCred p k = some c) : k ∈ ids := by
  obtain ⟨old, hold, -⟩ := storedCred_eq_some.1 hc
  exact h.settled.mem_of_real hreal hold

/-! ### The calls -/

/-- An added credential gets a new id; no other credential changes. -/
theorem addCred (h : Ready p ids listed r) (hadd : addCred rec ⟨p, [], r⟩ = .ret newId s') (hlast : newId ≠ lastKey) :
    ∃ q r' ids' listed', s' = ⟨q, [], r'⟩ ∧ Effect p ids listed q ids' listed' ∧ r'.credsCache = entries q listed' ∧
      r'.verifiedCredId = r.verifiedCredId ∧
      (∀ k, isRealCredId k = true → Issued p k → storedCred q k = storedCred p k ∧ (k ∈ listed' ↔ k ∈ listed)) ∧
      ∀ k ∈ ids', k ∈ ids ∨ storedCred q k = some { rec with credId := k } := by
  obtain ⟨t, ht, h0⟩ := h.next
  by_cases hv : validateCred rec = true
  · obtain ⟨l, ra, -, hra, -⟩ := h.settled.last ht
    obtain ⟨hid, -⟩ := Outcome.ret.inj (hadd.symm.trans (addCred_run ht hra hv h0))
    subst hid
    have hreal : isRealCredId t.nextId = true := isRealCredId_iff.2 ⟨h0, hlast⟩
    obtain ⟨q, r', hadd', heff, hstored, hcached, hver⟩ := addCred_effect h.settled h.cached hv ht hreal
    obtain ⟨-, rfl⟩ := Outcome.ret.inj (hadd.symm.trans hadd')
    refine ⟨q, r', _, _, rfl, heff, hcached, hver, fun k hk hissued => ?_, fun k hk => ?_⟩
    · obtain ⟨t', ht', hlt⟩ := hissued
      obtain rfl := Option.some.inj (ht.symm.trans ht')
      have hne : k ≠ t.nextId := UInt32.ne_of_lt hlt
      refine ⟨?_, by simp [hne]⟩
      by_cases hmem : k ∈ ids
      · exact (hstored k (by simp [hmem])).trans (if_neg hne)
      · -- An id that is on neither chain is stored nowhere.
        obtain ⟨hk0, hk1⟩ := isRealCredId_iff.1 hk
        have hafter : k ∉ nodes (ids ++ [t.nextId]) := by simp [hk0, hk1, hmem, hne]
        have hbefore : k ∉ nodes ids := by simp [hk0, hk1, hmem]
        rw [storedCred, storedCred, (heff.settled h.settled).read_none hafter, h.settled.read_none hbefore]
    · by_cases he : k = t.nextId
      · subst he
        exact .inr ((hstored _ hk).trans (if_pos rfl))
      · exact .inl (by simpa [he] using hk)
  · rw [addCred_invalid (Bool.not_eq_true _ ▸ hv)] at hadd
    obtain ⟨-, rfl⟩ := Outcome.ret.inj hadd
    exact ⟨p, r, ids, listed, rfl, .nothing, h.cached, rfl, fun k _ _ => ⟨rfl, Iff.rfl⟩, fun k hk => .inl hk⟩

theorem updateCred (h : Ready p ids listed r) (hupdate : updateCred rec ⟨p, [], r⟩ = .ret done s') :
    ∃ q r' listed', s' = ⟨q, [], r'⟩ ∧ Effect p ids listed q ids listed' ∧ r'.credsCache = entries q listed' ∧
      r'.verifiedCredId = r.verifiedCredId ∧
      (∀ k ≠ rec.credId, storedCred q k = storedCred p k ∧ (k ∈ listed' ↔ k ∈ listed)) ∧
      (storedCred q rec.credId = storedCred p rec.credId ∨ storedCred q rec.credId = some rec) := by
  by_cases hu : ∃ old, Updates p rec old
  · obtain ⟨old, hu⟩ := hu
    obtain ⟨q, r', hupdate', heff, hq, hcached, hver⟩ := updateCred_effect h.settled h.cached hu
    obtain ⟨-, rfl⟩ := Outcome.ret.inj (hupdate.symm.trans hupdate')
    refine ⟨q, r', _, rfl, heff, hcached, hver, fun k hk => ⟨?_, ?_⟩, .inr ?_⟩
    · rw [hq, storedCred_rewrite h.settled.toWellFormed hu, if_neg hk]
    · unfold note
      split
      · exact Iff.rfl
      · simp [hk]
    · rw [hq, storedCred_rewrite h.settled.toWellFormed hu, if_pos rfl]
  · rw [updateCred_refused (not_exists.1 hu)] at hupdate
    obtain ⟨-, rfl⟩ := Outcome.ret.inj hupdate
    exact ⟨p, r, listed, rfl, .nothing, h.cached, rfl, fun k _ => ⟨rfl, Iff.rfl⟩, .inl rfl⟩

theorem removeCred {removed : UInt32} (h : Ready p ids listed r) (hremove : removeCred rec ⟨p, [], r⟩ = .ret removed s') :
    ∃ q r' ids' listed', s' = ⟨q, [], r'⟩ ∧ Effect p ids listed q ids' listed' ∧ r'.credsCache = entries q listed' ∧
      r'.verifiedCredId = r.verifiedCredId ∧ ids' ⊆ ids ∧
      (∀ k ≠ rec.credId, storedCred q k = storedCred p k ∧ (k ∈ listed' ↔ k ∈ listed)) ∧
      (storedCred q rec.credId = storedCred p rec.credId ∨ storedCred q rec.credId = none) := by
  by_cases hr : ∃ old ra rb, Removes p rec old ra rb
  · obtain ⟨old, ra, rb, hr⟩ := hr
    obtain ⟨q, r', hremove', heff, hstored, hcached, hver⟩ := removeCred_effect h.settled h.cached hr
    obtain ⟨-, rfl⟩ := Outcome.ret.inj (hremove.symm.trans hremove')
    refine ⟨q, r', _, _, rfl, heff, hcached, hver, List.erase_subset, fun k hk => ⟨?_, ?_⟩, .inr ?_⟩
    · rw [hstored, if_neg hk]
    · exact List.mem_erase_of_ne hk
    · rw [hstored, if_pos rfl]
  · rw [removeCred_refused h.settled.toWellFormed fun old ra rb hrem => hr ⟨old, ra, rb, hrem⟩] at hremove
    obtain ⟨-, rfl⟩ := Outcome.ret.inj hremove
    exact ⟨p, r, ids, listed, rfl, .nothing, h.cached, rfl, fun _ hk => hk, fun k _ => ⟨rfl, Iff.rfl⟩, .inl rfl⟩

/-- A use changes the verified credential only. -/
theorem usedCred (h : Ready p ids listed r) (hused : usedCred doorNum now ⟨p, [], r⟩ = .ret done s') :
    ∃ q r' ids' listed', s' = ⟨q, [], r'⟩ ∧ Effect p ids listed q ids' listed' ∧ r'.credsCache = entries q listed' ∧
      r'.verifiedCredId = 0 ∧ ids' ⊆ ids ∧ (∀ k ≠ r.verifiedCredId, storedCred q k = storedCred p k) ∧
      ∀ c, storedCred q r.verifiedCredId = some c → ∃ c', storedCred p r.verifiedCredId = some c' ∧
        (c = c' ∨ 1 < c'.remaining ∧ c = { c' with remaining := c'.remaining - 1 }) := by
  rcases usedCred_cases doorNum now h.settled h.cached with ⟨r', hnothing, hcached, hver⟩ | ⟨c, q, r', huse⟩
  · obtain ⟨-, rfl⟩ := Outcome.ret.inj (hused.symm.trans hnothing)
    exact ⟨p, r', ids, listed, rfl, .nothing, hcached.trans h.cached, hver, fun _ hk => hk, fun _ _ => rfl,
      fun c hc => ⟨c, hc, .inl rfl⟩⟩
  · obtain ⟨-, rfl⟩ := Outcome.ret.inj (hused.symm.trans huse.result)
    obtain ⟨hmem, hid, -⟩ := charged_some huse.found
    obtain ⟨-, old, hold, heq, -⟩ := h.settled.stored_of_mem h.cached hmem
    have hstored : storedCred p r.verifiedCredId = some c := by
      rw [← hid]
      exact storedCred_eq_some.2 ⟨old, hold, heq⟩
    refine ⟨q, r', _, _, rfl, huse.effect, huse.cached, huse.cleared, ?_, fun k hk => ?_, fun c' hc' => ⟨c, hstored, ?_⟩⟩
    · split
      · exact List.erase_subset
      · exact fun _ hk => hk
    · rw [huse.stored, if_neg (hid ▸ hk)]
    · rw [huse.stored, if_pos hid.symm, CacheRecord.consumed] at hc'
      split_ifs at hc' with hmore
      · exact .inr ⟨hmore, (Option.some.inj hc').symm⟩
      · exact .inl (Option.some.inj hc').symm

theorem refreshCache (h : Ready p ids listed r) (hrefresh : refreshCache now ⟨p, [], r⟩ = .ret done s') :
    ∃ r', s' = ⟨p, [], r'⟩ ∧ Ready p ids (ids.filter (activeIn p now)) r' ∧ r'.verifiedCredId = r.verifiedCredId := by
  obtain ⟨r', hrefresh', hver, hcached⟩ := refreshCache_effect (r := r) h.settled now
  obtain ⟨-, rfl⟩ := Outcome.ret.inj (hrefresh.symm.trans hrefresh')
  exact ⟨r', rfl, h.of_effect (.refresh now) hcached, hver⟩

theorem begin (h : Ready p ids listed r) (hboot : begin now ⟨p, [], .fresh⟩ = .ret done s') :
    (∃ r', s' = ⟨p, [], r'⟩ ∧ Ready p ids (ids.filter (activeIn p now)) r') ∨
      ∃ r', s' = ⟨emptyPool, [], r'⟩ ∧ r'.credsCache = [] := by
  rcases begin_keeps_or_resets h.settled.toWellFormed now with ⟨m, hm⟩ | ⟨m, hm⟩
  · obtain ⟨-, rfl⟩ := Outcome.ret.inj (hboot.symm.trans hm.whole)
    exact .inl ⟨_, rfl, h.settled.refresh now, cacheOf_eq_entries p now ids, h.next⟩
  · obtain ⟨-, rfl⟩ := Outcome.ret.inj (hboot.symm.trans hm.whole)
    exact .inr ⟨_, rfl, rfl⟩

end Ready

/-- An empty pool. -/
theorem ready_emptyPool (hcached : r.credsCache = []) : Ready emptyPool [] [] r where
  settled := ⟨emptyPool_wellFormed, emptyPool_blank, List.nodup_nil, List.nil_subset _⟩
  cached := hcached
  next := ⟨emptyTail, by rw [read_emptyPool]; rfl, by decide⟩

/-- A boot that leaves a pool to work with has cached it. -/
theorem Starts.ready {first : Nat} {σ : History} (h : Starts σ first) (hb : Boots p σ) :
    ∃ ids, Ready σ.flash ids σ.listed σ.ram := by
  obtain ⟨⟨ids, hsound⟩, -⟩ := h.sound hb
  obtain ⟨t, ht, hpos, -⟩ := hsound.next
  refine ⟨ids, hsound.settled, hsound.cached, t, ht, ?_⟩
  rintro h0
  rw [h0] at hpos
  exact absurd hpos (by decide)

end OrangeBox.PassStore
