import OrangeBox.PassStore.Verify
/-!
# One use for one verification

`verifyCred` leaves the id of the credential it accepts in `verifiedCredId`, and
a `usedCred` that returns true takes it out. Along a run the id stands there
only while no other verification and no use came after (`pending`), and an
id is not given out twice. So each use that returns true has a verification of
its own, of the credential it is charged to (`usedCred_matched`).
-/
open Flash Linked Runs

namespace OrangeBox.PassStore

variable {p q : Nvs} {ids listed : List UInt32} {t : CredRecord} {k id : UInt32} {r r' : CredStorage} {now : UInt64}
  {first : Nat} {σ σ₀ σ₁ σ' : History} {doorNum : UInt8} {done : Bool}

/-! ## What a run shows -/

/-- A call and what it returned; for `verifyCred` also the id it left in
`verifiedCredId`. -/
inductive Seen where
  | verified (credEntered : Option (List UInt8)) (credType : CredType) (now : UInt64) (doorNum : UInt8) (id : UInt32)
  | used (doorNum : UInt8) (now : UInt64) (done : Bool)
  | changed (call : Call)

/-- Neither a verification nor a use that returned true. -/
def Seen.Keeps : Seen → Prop
  | .verified .. => False
  | .used _ _ done => done = false
  | .changed _ => True

/-- One call, with what it returned. -/
inductive Shows (σ : History) : Seen → History → Prop
  | verified {credEntered : Option (List UInt8)} {credType : CredType} {now : UInt64} {doorNum : UInt8} {q : Nvs}
      {r : CredStorage} : verifyCred credEntered credType now ⟨σ.flash, [], σ.ram⟩ = .ret doorNum ⟨q, [], r⟩ →
      Shows σ (.verified credEntered credType now doorNum r.verifiedCredId) ⟨q, r, σ.listed, σ.insertions⟩
  | used {doorNum : UInt8} {now : UInt64} {done : Bool} {q : Nvs} {r : CredStorage} :
      usedCred doorNum now ⟨σ.flash, [], σ.ram⟩ = .ret done ⟨q, [], r⟩ →
      Shows σ (.used doorNum now done) ⟨q, r, σ.listed.filter fun id => (readRecord q id).isSome, σ.insertions⟩
  | addCred {rec : CacheRecord} {σ' : History} : Calls σ (.addCred rec) σ' → Shows σ (.changed (.addCred rec)) σ'
  | updateCred {rec : CacheRecord} {σ' : History} :
      Calls σ (.updateCred rec) σ' → Shows σ (.changed (.updateCred rec)) σ'
  | removeCred {rec : CacheRecord} {σ' : History} :
      Calls σ (.removeCred rec) σ' → Shows σ (.changed (.removeCred rec)) σ'
  | refreshCache {now : UInt64} {σ' : History} :
      Calls σ (.refreshCache now) σ' → Shows σ (.changed (.refreshCache now)) σ'

/-- The call. -/
def Seen.call : Seen → Call
  | .verified credEntered credType now _ _ => .verifyCred credEntered credType now
  | .used doorNum now _ => .usedCred doorNum now
  | .changed call => call

variable {e : Seen} {seen before after : List Seen}

theorem Shows.calls (h : Shows σ e σ') : Calls σ e.call σ' := by
  cases h with
  | verified h => exact .verifyCred h
  | used h => exact .usedCred h
  | addCred h => exact h
  | updateCred h => exact h
  | removeCred h => exact h
  | refreshCache h => exact h

theorem calls_of_shows (h : Run Shows σ₀ seen σ) : Run Calls σ₀ (seen.map Seen.call) σ := h.map _ fun _ _ _ => Shows.calls

/-! ## The pending verification -/

/-- After the calls `before` a call accepted the credential `id`, and since then
there was neither another verification nor a use that returned true. -/
structure Verified (σ₀ : History) (seen : List Seen) (σ : History) (before after : List Seen) (σ₁ σ₂ : History)
    (id : UInt32) : Prop where
  reached : Run Shows σ₀ before σ₁
  accepts : ∃ value credType now doorNum, Shows σ₁ (.verified (some value) credType now doorNum id) σ₂ ∧
    Grants σ₁.flash value credType now doorNum id ∧
    seen = before ++ .verified (some value) credType now doorNum id :: after
  since : Run Shows σ₂ after σ
  keeps : ∀ e ∈ after, e.Keeps

theorem Verified.step {σ₂ : History} (h : Verified σ₀ seen σ before after σ₁ σ₂ id) (hs : Shows σ e σ')
    (hk : e.Keeps) : Verified σ₀ (seen ++ [e]) σ' before (after ++ [e]) σ₁ σ₂ id := by
  obtain ⟨value, credType, now, doorNum, hv, hg, rfl⟩ := h.accepts
  refine ⟨h.reached, ⟨value, credType, now, doorNum, hv, hg, ?_⟩, h.since.snoc hs, ?_⟩
  · rw [List.append_assoc, List.cons_append]
  · intro e' he'
    rcases List.mem_append.1 he' with he' | he'
    · exact h.keeps e' he'
    · exact List.mem_singleton.1 he' ▸ hk

/-- A use that returned true comes before the verification still pending. -/
theorem Verified.used_before {σ₂ : History} (h : Verified σ₀ seen σ before after σ₁ σ₂ id) {i : Nat}
    (hi : seen[i]? = some (.used doorNum now true)) : i < before.length := by
  obtain ⟨value, credType, now, doorNum, -, -, rfl⟩ := h.accepts
  by_contra hlt
  rw [List.getElem?_append_right (Nat.le_of_not_lt hlt)] at hi
  cases hn : i - before.length with
  | zero =>
    rw [hn] at hi
    cases Option.some.inj hi
  | succ n =>
    rw [hn, List.getElem?_cons_succ] at hi
    exact absurd (h.keeps _ (List.mem_of_getElem? hi)) (by simp [Seen.Keeps])

/-- The accepted credential is on the chain until the last state in which it is. -/
theorem Verified.present {σ₂ τ : History} {ids : List UInt32} (h₀ : Sound first ids σ₀)
    (h : Verified σ₀ seen σ before after σ₁ σ₂ id) (hids : first + σ.insertions < 2 ^ 32) (hon : OnChain σ.flash id)
    {seen₁ seen₂ : List Seen} (hrun₁ : Run Shows σ₂ seen₁ τ) (hrun₂ : Run Shows τ seen₂ σ) : OnChain τ.flash id := by
  obtain ⟨value, credType, now, doorNum, hv, hg, -⟩ := h.accepts
  have hτ := Calls.insertions_le_run (calls_of_shows hrun₂)
  have hrun₁ := calls_of_shows (Run.cons hv hrun₁)
  have hle := Calls.insertions_le_run hrun₁
  obtain ⟨ids₁, h₁⟩ := h₀.run (calls_of_shows h.reached) (by omega)
  obtain ⟨ids₂, h₂⟩ := h₁.run hrun₁ (by omega)
  by_contra hoff
  -- An id that left the chain never comes back.
  have hret := Retired.of_removed h₁ hrun₁ (by omega) hg.1 hoff
  exact (hret.run h₂ (calls_of_shows hrun₂) hids).1 hon

/-- What one call leaves in `verifiedCredId`. -/
theorem Shows.verifiedCredId (h : Sound first ids σ) (hs : Shows σ e σ') (hids : first + σ'.insertions < 2 ^ 32) :
    σ'.ram.verifiedCredId = 0 ∨ (e.Keeps ∧ σ'.ram.verifiedCredId = σ.ram.verifiedCredId) ∨
      ∃ value credType now doorNum, e = .verified (some value) credType now doorNum σ'.ram.verifiedCredId ∧
        Grants σ.flash value credType now doorNum σ'.ram.verifiedCredId := by
  have hcall := hs.calls
  have hother : e.Keeps → e.call.keepsVerified = true → e.Keeps ∧ σ'.ram.verifiedCredId = σ.ram.verifiedCredId := by
    intro hk hcalled
    obtain ⟨-, -, -, -, hver⟩ := h.effect hcall hids
    exact ⟨hk, hver hcalled⟩
  cases hs with
  | verified hv =>
    rename_i credEntered credType now doorNum q r
    rw [verifyCred_eq] at hv
    split at hv
    · obtain ⟨-, hs⟩ := Outcome.ret.inj hv
      obtain ⟨-, -, rfl⟩ := Sys.mk.inj hs
      exact .inl rfl
    · rename_i c hacc
      obtain ⟨rfl, hs⟩ := Outcome.ret.inj hv
      obtain ⟨-, -, rfl⟩ := Sys.mk.inj hs
      obtain ⟨value, rfl, hgrant⟩ := h.grants_of_accepted hacc
      exact .inr (.inr ⟨value, credType, now, _, rfl, hgrant⟩)
  | used hu =>
    rcases usedCred_cases _ _ h.settled h.cached with ⟨r', hu', -, hzero⟩ | ⟨c, q', r', huse⟩
    · obtain ⟨-, hs⟩ := Outcome.ret.inj (hu.symm.trans hu')
      obtain ⟨-, -, rfl⟩ := Sys.mk.inj hs
      exact .inl hzero
    · obtain ⟨-, hs⟩ := Outcome.ret.inj (hu.symm.trans huse.result)
      obtain ⟨-, -, rfl⟩ := Sys.mk.inj hs
      exact .inl huse.cleared
  | addCred _ => exact .inr (.inl (hother trivial rfl))
  | updateCred _ => exact .inr (.inl (hother trivial rfl))
  | removeCred _ => exact .inr (.inl (hother trivial rfl))
  | refreshCache _ => exact .inr (.inl (hother trivial rfl))

/-- Whatever id is pending was accepted, and is pending since. -/
theorem pending (h₀ : Sound first ids σ₀) (hzero : σ₀.ram.verifiedCredId = 0) (hrun : Run Shows σ₀ seen σ)
    (hids : first + σ.insertions < 2 ^ 32) (hne : σ.ram.verifiedCredId ≠ 0) :
    ∃ before after σ₁ σ₂, Verified σ₀ seen σ before after σ₁ σ₂ σ.ram.verifiedCredId := by
  induction hrun with
  | nil => exact absurd hzero hne
  | snoc hrun hs ih =>
    have hmono := hs.calls.insertions_le
    obtain ⟨ids', h⟩ := h₀.run (calls_of_shows hrun) (by omega)
    rcases hs.verifiedCredId h hids with hnew | ⟨hk, hnew⟩ | ⟨value, credType, now, doorNum, rfl, hgrant⟩
    · exact absurd hnew hne
    · rw [hnew] at hne ⊢
      obtain ⟨before, after, σ₁, σ₂, hv⟩ := ih (by omega) hne
      exact ⟨before, _, σ₁, σ₂, hv.step hs hk⟩
    · exact ⟨_, [], _, _, hrun, ⟨value, credType, now, doorNum, hs, hgrant, rfl⟩, .nil, by simp⟩

/-! ## What a use changes -/

/-- The use of door `doorNum` takes one off the credential `c`, or takes it out,
where it is stored and where it is cached; no other credential is changed. -/
structure Charges (σ σ' : History) (c : CacheRecord) (doorNum : UInt8) (now : UInt64) : Prop where
  onChain : OnChain σ.flash c.credId
  stored : storedCred σ.flash c.credId = some c
  cached : c ∈ σ.ram.credsCache
  door : c.doorNum = doorNum
  active : c.isActive now = true
  flash : ∀ k, storedCred σ'.flash k = if k = c.credId then c.consumed else storedCred σ.flash k
  chain : ∀ k, OnChain σ'.flash k ↔ OnChain σ.flash k ∧ (k = c.credId → c.remaining ≠ 1)
  cache : σ'.ram.credsCache = σ.ram.credsCache.filterMap fun x => if x.credId = c.credId then x.consumed else some x

/-- Taking the charged credential out of the cache, or one off it. -/
theorem entries_consumed {c : CacheRecord} (hkeyed : Keyed p listed) (hc : storedCred p c.credId = some c)
    (hstored : ∀ k, storedCred q k = if k = c.credId then c.consumed else storedCred p k) :
    entries q listed = (entries p listed).filterMap fun x => if x.credId = c.credId then x.consumed else some x := by
  rw [entries, entries, List.filterMap_filterMap]
  refine List.filterMap_congr fun k hk => ?_
  obtain ⟨x, hx, hid⟩ := hkeyed.storedCred hk
  rw [hstored, hx, Option.bind_some, hid]
  by_cases he : k = c.credId
  · rw [if_pos he, if_pos he]
    rw [he, hc] at hx
    rw [Option.some.inj hx]
  · rw [if_neg he, if_neg he]

theorem Use.charges {c : CacheRecord} (h : Sound first ids σ) (hu : Use σ.flash ids σ.listed σ.ram doorNum now c q r)
    (l : List UInt32) (n : Nat) : Charges σ ⟨q, r, l, n⟩ c doorNum now := by
  obtain ⟨hmem, -, hdoor⟩ := charged_some hu.found
  obtain ⟨hlisted, old, hold, hcache, -⟩ := h.settled.stored_of_mem h.cached hmem
  have hc : storedCred σ.flash c.credId = some c := storedCred_eq_some.2 ⟨old, hold, hcache⟩
  have hsettled := hu.effect.settled h.settled
  have hdistinct := (nodes_nodup.1 h.settled.nodup).1
  refine ⟨?_, hc, hmem, hdoor, hu.active, hu.stored, fun k => ?_, ?_⟩
  · exact h.settled.toWellLinked.onChain_iff.2 (h.settled.sub hlisted)
  · rw [hsettled.toWellLinked.onChain_iff, h.settled.toWellLinked.onChain_iff]
    by_cases hone : c.remaining = 1
    · rw [if_pos hone, hdistinct.mem_erase_iff]
      simp [hone, and_comm]
    · rw [if_neg hone]
      simp [hone]
  · rw [hu.cached, h.cached, ← entries_consumed h.settled.keyed_listed hc hu.stored]
    by_cases hone : c.remaining = 1
    · -- The id that was erased is not stored any more.
      rw [if_pos hone, h.settled.distinct.erase_eq_filter, entries, entries, List.filterMap_filter]
      refine List.filterMap_congr fun k hk => ?_
      by_cases he : k = c.credId
      · rw [hu.stored, if_pos he, CacheRecord.consumed, hone]
        simp [he]
      · simp [he]
    · rw [if_neg hone]

/-! ## Single use -/

/-- Each use that returns true has a verification of its own, of the credential
it is charged to; one that returns false changes no credential. -/
theorem usedCred_matched (hb : Boots p σ₀) (hstart : Starts σ₀ first) (hrun : Run Shows σ₀ seen σ)
    (hids : first + σ.insertions < 2 ^ 32) (hu : Shows σ (.used doorNum now done) σ') :
    (done = true → ∃ before after σ₁ σ₂ c, Verified σ₀ seen σ before after σ₁ σ₂ c.credId ∧
        Charges σ σ' c doorNum now ∧ (c.remaining < 0 → σ'.flash = σ.flash ∧ σ'.ram.credsCache = σ.ram.credsCache) ∧
        (∀ seen₁ seen₂ τ, after = seen₁ ++ seen₂ → Run Shows σ₂ seen₁ τ → Run Shows τ seen₂ σ →
          OnChain τ.flash c.credId) ∧
        ∀ i doorNum now, seen[i]? = some (.used doorNum now true) → i < before.length) ∧
      (done = false → σ'.flash = σ.flash ∧ σ'.ram.credsCache = σ.ram.credsCache) := by
  obtain ⟨⟨ids₀, h₀⟩, hzero⟩ := hstart.sound hb
  obtain ⟨ids, h⟩ := h₀.run (calls_of_shows hrun) hids
  cases hu with
  | used hcall =>
    rename_i q r
    rcases usedCred_cases _ _ h.settled h.cached with ⟨r', hfalse, hcache, -⟩ | ⟨c, q', r', huse⟩
    · obtain ⟨rfl, hs⟩ := Outcome.ret.inj (hcall.symm.trans hfalse)
      obtain ⟨rfl, -, rfl⟩ := Sys.mk.inj hs
      exact ⟨fun h => absurd h Bool.false_ne_true, fun _ => ⟨rfl, hcache⟩⟩
    · obtain ⟨rfl, hs⟩ := Outcome.ret.inj (hcall.symm.trans huse.result)
      obtain ⟨rfl, -, rfl⟩ := Sys.mk.inj hs
      refine ⟨fun _ => ?_, fun h => absurd h.symm Bool.false_ne_true⟩
      -- The id that is charged was set by a verification that is still pending.
      obtain ⟨before, after, σ₁, σ₂, hv⟩ := pending h₀ hzero hrun hids huse.verified
      rw [← (charged_some huse.found).2.1] at hv
      have hcharges := huse.charges h (σ.listed.filter fun id => (readRecord q id).isSome) σ.insertions
      refine ⟨before, after, σ₁, σ₂, c, hv, hcharges, fun hneg => ?_, ?_, fun i _ _ hi => hv.used_before hi⟩
      · have hunlimited : usedCred doorNum now ⟨σ.flash, [], σ.ram⟩ = .ret true ⟨σ.flash, [], _⟩ :=
          usedCred_unlimited huse.verified huse.found huse.active (by omega)
        obtain ⟨-, hs⟩ := Outcome.ret.inj (hcall.symm.trans hunlimited)
        obtain ⟨rfl, -, rfl⟩ := Sys.mk.inj hs
        exact ⟨rfl, rfl⟩
      · intro seen₁ seen₂ τ _ hrun₁ hrun₂
        exact hv.present h₀ hids hcharges.onChain hrun₁ hrun₂

/-- The PIN of `onePool` is verified and used once. -/
theorem usedCred_matched_onePool : ∃ σ₀ σ σ' seen, Boots onePool σ₀ ∧ Run Shows σ₀ seen σ ∧
    Shows σ (.used 1 0 true) σ' ∧ ∃ c, Charges σ σ' c 1 0 := by
  obtain ⟨m, hm⟩ := begin_wellFormed 0 .fresh onePool_wellFormed (by decide)
  have hb : Boots onePool _ := .mk hm.whole
  have hstart : Starts _ 2 := hb.starts_of_wellFormed onePool_wellFormed (by decide) onePool_blank
    (show readRecord onePool lastKey = some _ from rfl) (by decide)
  have hrun := Run.single (Shows.verified (σ := ⟨onePool, _, (chainIds onePool).filter (activeIn onePool 0), 0⟩)
    (verifyCred_onePool m))
  obtain ⟨⟨ids₀, h₀⟩, -⟩ := hstart.sound hb
  obtain ⟨ids, h⟩ := h₀.run (calls_of_shows hrun) (show (2 : Nat) + 0 < 2 ^ 32 by decide)
  have hcharged : charged { onePoolRam m with verifiedCredId := 1 } 1 =
      some (toCacheRecord (sampleCred 1 firstKey lastKey)) := by
    rw [charged, onePoolRam, cacheOf_onePool]
    rfl
  have hactive : (toCacheRecord (sampleCred 1 firstKey lastKey)).isActive 0 = true := by decide
  obtain ⟨q, r, huse⟩ := exists_use h.settled h.cached (show (1 : UInt32) ≠ 0 by decide) hcharged hactive
  have hu : Shows _ (.used 1 0 true) _ := .used huse.result
  obtain ⟨-, -, -, -, c, -, hc, -⟩ := (usedCred_matched hb hstart hrun (show (2 : Nat) + 0 < 2 ^ 32 by decide) hu).1 rfl
  exact ⟨_, _, _, _, hb, hrun, hu, c, hc⟩

/-! ## A last use that is reported as none -/

/-- A credential with one use left. -/
def lastUseCred : CredRecord := { sampleCred 1 firstKey lastKey with remaining := 1 }

theorem lastUse_insertion : Insertion emptyPool [] [] emptyTail emptyHead lastUseCred :=
  { onePool_insertion with credId := rfl, prevId := rfl, nextId := rfl, valid := by decide }

/-- A pool with that credential, whose HEAD carries a credential text. -/
def lastUsePool : Nvs :=
  (store (sampleCred firstKey firstKey 1)).apply (inserted emptyPool emptyTail emptyHead lastUseCred true true true)

theorem lastUsePool_wellFormed : WellFormed lastUsePool [1] :=
  lastUse_insertion.wellFormed.rewrite (show readRecord _ firstKey = some _ from rfl) (fun _ => by decide)
    (fun he => absurd he (by decide)) (by decide) rfl (fun hr => absurd hr (by decide))

theorem cacheOf_lastUsePool : cacheOf lastUsePool 0 [1] = [toCacheRecord lastUseCred] := by decide

/-- The text of HEAD, as an administrator may save it. -/
def headCred : CacheRecord := toCacheRecord (sampleCred firstKey firstKey 1)

/-- TAIL of that pool. -/
def lastUseTail : CredRecord := (emptyTail.withNext 2).withPrev 1

/-- The pool with HEAD's text saved. -/
def headSavedPool : Nvs :=
  inserted lastUsePool lastUseTail lastUseCred (newRecord ((sampleCred firstKey firstKey 1).updated headCred) lastUseTail)
    true true true

/-- The class after that. -/
def headSavedRam (m : UInt32) : CredStorage :=
  { CredStorage.fresh with credsCache := [toCacheRecord lastUseCred, headCred], maxCredId := m }

/-- HEAD's text is saved, and cached under the id 0 behind the credential. The
last use of the credential then takes it out and returns false. -/
theorem last_use_reported_false : WellFormed lastUsePool [1] ∧ ∃ σ₀ σ₁ σ₂ σ', Boots lastUsePool σ₀ ∧
    Run Shows σ₀ [.changed (.updateCred headCred)] σ₁ ∧
    Shows σ₁ (.verified (some samplePin) .password 0 1 1) σ₂ ∧ Shows σ₂ (.used 1 0 false) σ' ∧ σ₂.insertions = 0 ∧
      (storedCred σ₂.flash 1).map (·.remaining) = some 1 ∧ storedCred σ'.flash 1 = none ∧ σ'.ram.credsCache = [headCred] := by
  obtain ⟨m, hm⟩ := begin_wellFormed 0 .fresh lastUsePool_wellFormed (by decide)
  have hb : Boots lastUsePool _ := .mk hm.whole
  rw [cacheOf_lastUsePool] at hb
  have hsave : updateCred headCred ⟨lastUsePool, [], { CredStorage.fresh with
      credsCache := [toCacheRecord lastUseCred], maxCredId := m }⟩ = .ret true ⟨headSavedPool, [], headSavedRam m⟩ := rfl
  have hverify : verifyCred (some samplePin) .password 0 ⟨headSavedPool, [], headSavedRam m⟩ =
    .ret 1 ⟨headSavedPool, [], { headSavedRam m with verifiedCredId := 1 }⟩ := rfl
  -- The entry that moves to the place of the erased one is HEAD's, with the id 0.
  obtain ⟨q, hused, hgone⟩ : ∃ q, usedCred 1 0 ⟨headSavedPool, [], { headSavedRam m with verifiedCredId := 1 }⟩ =
      .ret false ⟨q, [], { headSavedRam m with credsCache := [headCred], verifiedCredId := 1 }⟩ ∧ storedCred q 1 = none :=
    ⟨_, rfl, rfl⟩
  exact ⟨lastUsePool_wellFormed, _, _, _, _, hb, .single (.updateCred (.updateCred hsave)),
    .verified (r := { headSavedRam m with verifiedCredId := 1 }) hverify, .used hused, rfl, rfl, hgone, rfl⟩

end OrangeBox.PassStore
