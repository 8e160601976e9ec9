import OrangeBox.Lib.Run
import OrangeBox.PassStore.Effects
/-!
# Runs of calls

A boot and any calls after it, nothing failing. Beside the flash and the RAM
fields a state carries which ids the cache should hold: those of the records
active when it was last built, and those added or updated since, less those
removed (`Calls`). On a well-formed pool with ids left it does
(`Sound.run`).
-/
open Flash Linked Runs

namespace OrangeBox.PassStore

variable {p q : Nvs} {ids ids' listed listed' : List UInt32} {rec : CacheRecord} {old t : CredRecord} {k : UInt32}
  {r r' : CredStorage} {now : UInt64}

/-! ## The chain -/

open Classical in
/-- The ids on the chain from HEAD to TAIL, if there is one. -/
noncomputable def chainIds (p : Nvs) : List UInt32 := if h : ∃ ids, WellLinked p ids then h.choose else []

theorem chainIds_eq (h : WellLinked p ids) : chainIds p = ids := by
  have hex : ∃ ids, WellLinked p ids := ⟨ids, h⟩
  rw [chainIds, dif_pos hex]
  exact hex.choose_spec.unique h

/-! ## Histories -/

/-- A state of a run. `insertions` counts the credentials added so far. -/
structure History where
  flash : Nvs
  ram : CredStorage
  listed : List UInt32
  insertions : Nat

/-- The state after `begin` on a flash. -/
inductive Boots (p : Nvs) : History → Prop
  | mk {now : UInt64} {a : Bool} {q : Nvs} {r : CredStorage} : begin now ⟨p, [], .fresh⟩ = .ret a ⟨q, [], r⟩ →
      Boots p ⟨q, r, (chainIds q).filter (activeIn q now), 0⟩

/-- One call, and what it means for the listed ids. -/
inductive Calls (σ : History) : Call → History → Prop
  | addCred {rec : CacheRecord} {newId : UInt32} {q : Nvs} {r : CredStorage} :
      addCred rec ⟨σ.flash, [], σ.ram⟩ = .ret newId ⟨q, [], r⟩ →
      Calls σ (.addCred rec) ⟨q, r, if newId = 0 then σ.listed else σ.listed ++ [newId],
        if newId = 0 then σ.insertions else σ.insertions + 1⟩
  | updateCred {rec : CacheRecord} {done : Bool} {q : Nvs} {r : CredStorage} :
      updateCred rec ⟨σ.flash, [], σ.ram⟩ = .ret done ⟨q, [], r⟩ →
      Calls σ (.updateCred rec) ⟨q, r, if done = true then note rec.credId σ.listed else σ.listed, σ.insertions⟩
  | removeCred {rec : CacheRecord} {removed : UInt32} {q : Nvs} {r : CredStorage} :
      removeCred rec ⟨σ.flash, [], σ.ram⟩ = .ret removed ⟨q, [], r⟩ →
      Calls σ (.removeCred rec) ⟨q, r, σ.listed.erase removed, σ.insertions⟩
  | verifyCred {credEntered : Option (List UInt8)} {credType : CredType} {now : UInt64} {doorNum : UInt8} {q : Nvs}
      {r : CredStorage} : verifyCred credEntered credType now ⟨σ.flash, [], σ.ram⟩ = .ret doorNum ⟨q, [], r⟩ →
      Calls σ (.verifyCred credEntered credType now) ⟨q, r, σ.listed, σ.insertions⟩
  | usedCred {doorNum : UInt8} {now : UInt64} {done : Bool} {q : Nvs} {r : CredStorage} :
      usedCred doorNum now ⟨σ.flash, [], σ.ram⟩ = .ret done ⟨q, [], r⟩ →
      Calls σ (.usedCred doorNum now) ⟨q, r, σ.listed.filter fun id => (readRecord q id).isSome, σ.insertions⟩
  | refreshCache {now : UInt64} {done : Bool} {q : Nvs} {r : CredStorage} :
      refreshCache now ⟨σ.flash, [], σ.ram⟩ = .ret done ⟨q, [], r⟩ →
      Calls σ (.refreshCache now) ⟨q, r, (chainIds q).filter (activeIn q now), σ.insertions⟩

/-! ## Booting a well-formed pool -/

/-- What follows a record on the path. -/
theorem WellLinked.next_of_nodes (h : WellLinked p ids) {pre v : List UInt32} {c : CredRecord}
    (hv : nodes ids = pre ++ c.credId :: v) (hc : readRecord p c.credId = some c) (hne : c.credId ≠ lastKey) :
    ∃ v' n, v = c.nextId :: v' ∧ readRecord p c.nextId = some n ∧ n.prevId = c.credId := by
  cases v with
  | nil =>
    have hlast := congrArg List.getLast? hv
    rw [nodes, ← List.cons_append, List.getLast?_concat, List.getLast?_concat] at hlast
    exact absurd (Option.some.inj hlast).symm hne
  | cons k v =>
    have hchain := h.chained
    rw [Chained, hv] at hchain
    obtain ⟨-, hck, -⟩ := List.isChain_append_cons_cons.1 hchain
    obtain ⟨c', hc', hnext⟩ := fwd_iff.1 hck.1
    obtain rfl := Option.some.inj (hc.symm.trans hc')
    obtain ⟨n, hn, hprev⟩ := bwd_iff.1 hck.2
    exact ⟨v, n, by rw [hnext], by rw [hnext, hn], hprev⟩

theorem Scanned.credId_ne_lastKey {pre : List UInt32} {c : CredRecord} (hs : Scanned p pre c) : c.credId ≠ lastKey :=
  fun hl => hs.ne_lastKey (by simp [hl])

/-- The scan of a linked pool goes along its path. -/
theorem Scanned.on_path {pre : List UInt32} {c : CredRecord} (h : WellLinked p ids) (hs : Scanned p pre c) :
    ∃ v, nodes ids = pre ++ c.credId :: v := by
  induction hs with
  | head _ hid => exact ⟨ids ++ [lastKey], by rw [hid]; rfl⟩
  | next hs he _ _ ih =>
    obtain ⟨v, hv⟩ := ih
    obtain ⟨v', -, rfl, -⟩ := h.next_of_nodes hv hs.stored hs.credId_ne_lastKey
    exact ⟨v', by rw [hv, he.credId, List.append_assoc]; rfl⟩

theorem Scanned.next_stored {pre : List UInt32} {c : CredRecord} (h : WellLinked p ids) (hs : Scanned p pre c) :
    ∃ n, readRecord p c.nextId = some n ∧ n.prevId = c.credId := by
  obtain ⟨v, hv⟩ := hs.on_path h
  obtain ⟨-, n, -, hn, hprev⟩ := h.next_of_nodes hv hs.stored hs.credId_ne_lastKey
  exact ⟨n, hn, hprev⟩

/-- A well-formed pool boots as it is, or is dropped because it is too long. -/
theorem begin_keeps_or_resets (h : WellFormed p ids) (now : UInt64) :
    (∃ m, Traced (begin now) p .fresh [] true { CredStorage.fresh with credsCache := cacheOf p now ids, maxCredId := m }) ∨
      ∃ m, Traced (begin now) p .fresh resetWrites true { CredStorage.fresh with credsCache := [], maxCredId := m } := by
  obtain ⟨t, ht, htid⟩ := h.tail
  have hs : Sentinels p t := ⟨h.head, ht, htid⟩
  -- Where the scan stops, the next record is there and names the one before it.
  rcases repairCredChain_cases hs with hbad | ⟨pre, c, hstop, -, -, hnone, -⟩ | ⟨pre, c, n, hstop, he, hend⟩
  · obtain ⟨m, hm⟩ := begin_resets now (.chain hs hbad)
    exact .inr ⟨m, hm⟩
  · obtain ⟨n, hn, -⟩ := hstop.scanned.next_stored h.toWellLinked
    rw [hn] at hnone
    contradiction
  · obtain ⟨n', hn', hprev⟩ := hstop.scanned.next_stored h.toWellLinked
    obtain rfl := Option.some.inj (hn'.symm.trans he.stored)
    have hlast := hend.resolve_left fun hne => hne hprev
    exact .inl (begin_repaired now hs (hstop.done he hprev hlast) h.toWellLinked)

/-! ## What each call does -/

/-- A valid credential can be added while there are ids left. -/
theorem WellFormed.insertion (h : WellFormed p ids) (hv : validateCred rec = true) (ht : readRecord p lastKey = some t)
    (hreal : isRealCredId t.nextId = true) :
    ∃ l ra, readRecord p t.prevId = some ra ∧ Insertion p ids l t ra (newRecord (newCredRecord rec) t) := by
  obtain ⟨l, ra, hl, hra, -⟩ := h.last ht
  exact ⟨l, ra, hra, h, ht, hra, hl, hreal, rfl, rfl, rfl, newCredRecord_valid hv hreal⟩

/-- Adding a credential changes no other. -/
theorem storedCred_inserted {l : List UInt32} {ra : CredRecord} (hv : validateCred rec = true)
    (hins : Insertion p ids l t ra (newRecord (newCredRecord rec) t)) (hk : k ∈ ids ++ [t.nextId]) :
    storedCred (inserted p t ra (newRecord (newCredRecord rec) t) true true true) k =
      if k = t.nextId then some { rec with credId := t.nextId } else storedCred p k := by
  by_cases he : k = t.nextId
  · rw [if_pos he, he, storedCred, hins.read_new, ← toCacheRecord_newRecord hv]
    rfl
  · rw [if_neg he]
    exact hins.storedCred_eq (by simpa [he] using hk)

theorem addCred_effect (h : Settled p ids listed) (hr : r.credsCache = entries p listed) (hv : validateCred rec = true)
    (ht : readRecord p lastKey = some t) (hreal : isRealCredId t.nextId = true) :
    ∃ q r', addCred rec ⟨p, [], r⟩ = .ret t.nextId ⟨q, [], r'⟩ ∧
      Effect p ids listed q (ids ++ [t.nextId]) (listed ++ [t.nextId]) ∧
      (∀ k ∈ ids ++ [t.nextId], storedCred q k = if k = t.nextId then some { rec with credId := t.nextId } else storedCred p k) ∧
      r'.credsCache = entries q (listed ++ [t.nextId]) ∧ r'.verifiedCredId = r.verifiedCredId := by
  obtain ⟨l, ra, hra, hins⟩ := h.toWellFormed.insertion hv ht hreal
  have hstored : ∀ k ∈ ids ++ [t.nextId], storedCred (inserted p t ra (newRecord (newCredRecord rec) t) true true true) k =
      if k = t.nextId then some { rec with credId := t.nextId } else storedCred p k := fun k hk => storedCred_inserted hv hins hk
  refine ⟨_, _, addCred_run ht hra hv (isRealCredId_iff.1 hreal).1, .insert hv hins, hstored, ?_, rfl⟩
  have hnew := (hstored t.nextId (by simp)).trans (if_pos rfl)
  have hkeep : entries p listed = entries (inserted p t ra (newRecord (newCredRecord rec) t) true true true) listed :=
    entries_congr fun k hk => (hins.storedCred_eq (h.sub hk)).symm
  rw [entries_append, entries_cons_some hnew, entries_nil, ← hkeep, hr]

theorem updateCred_effect (h : Settled p ids listed) (hr : r.credsCache = entries p listed) (hu : Updates p rec old) :
    ∃ q r', updateCred rec ⟨p, [], r⟩ = .ret true ⟨q, [], r'⟩ ∧ Effect p ids listed q ids (note rec.credId listed) ∧
      q = (store (old.updated rec)).apply p ∧ r'.credsCache = entries q (note rec.credId listed) ∧
      r'.verifiedCredId = r.verifiedCredId := by
  have hid := (isRealCredId_iff.1 (h.real (h.mem_of_updates hu))).1
  refine ⟨_, _, updateCred_run h.toWellFormed hu hid, .rewrite hu, rfl, ?_, rfl⟩
  rw [hr]
  refine replaceCached_entries h.keyed_listed h.distinct ?_ fun k hk => ?_
  · rw [storedCred_rewrite h.toWellFormed hu, if_pos rfl]
  · rw [storedCred_rewrite h.toWellFormed hu, if_neg hk]

theorem removeCred_effect {ra rb : CredRecord} (h : Settled p ids listed) (hr : r.credsCache = entries p listed)
    (hrem : Removes p rec old ra rb) :
    ∃ q r', removeCred rec ⟨p, [], r⟩ = .ret rec.credId ⟨q, [], r'⟩ ∧
      Effect p ids listed q (ids.erase rec.credId) (listed.erase rec.credId) ∧
      (∀ k, storedCred q k = if k = rec.credId then none else storedCred p k) ∧
      r'.credsCache = entries q (listed.erase rec.credId) ∧ r'.verifiedCredId = r.verifiedCredId := by
  have hmem := h.mem_of_removes hrem
  obtain ⟨u, v, hsplit⟩ := h.neighbours hmem hrem.stored
  have hdel : Deletion p ids u v rec.credId old ra rb := ⟨h.toWellFormed, hmem, hsplit, hrem.stored, hrem.prev, hrem.next⟩
  refine ⟨_, _, removeCred_run h.toWellFormed hrem, .delete hdel, fun k => ?_, ?_, rfl⟩
  · by_cases he : k = rec.credId
    · rw [if_pos he, he, storedCred, hdel.read_own]; rfl
    · rw [if_neg he, hdel.storedCred_eq he]
  · rw [hr]
    exact eraseP_entries h.keyed_listed h.distinct fun k hk => hdel.storedCred_eq hk

theorem refreshCache_effect (h : Settled p ids listed) (now : UInt64) :
    ∃ r', refreshCache now ⟨p, [], r⟩ = .ret true ⟨p, [], r'⟩ ∧ r'.verifiedCredId = r.verifiedCredId ∧
      r'.credsCache = entries p (ids.filter (activeIn p now)) := by
  obtain ⟨m, hm⟩ := rebuildCache_wellLinked now h.toWellLinked
  refine ⟨_, (hm r).whole, rfl, ?_⟩
  exact cacheOf_eq_entries p now ids

/-- A cached credential is stored, valid and linked in. -/
theorem Settled.stored_of_mem {c : CacheRecord} (h : Settled p ids listed) (hr : r.credsCache = entries p listed)
    (hc : c ∈ r.credsCache) : c.credId ∈ listed ∧ ∃ old, readRecord p c.credId = some old ∧ toCacheRecord old = c ∧
      isStoredCredValid old = true := by
  rw [hr] at hc
  obtain ⟨k, hk, hkc⟩ := mem_entries.1 hc
  obtain ⟨old, hold, rfl⟩ := storedCred_eq_some.1 hkc
  have hid : (toCacheRecord old).credId = k := h.read_credId (by simp [h.sub hk]) hold
  rw [hid]
  exact ⟨hk, old, hold, rfl, h.valid k (h.sub hk) old hold⟩

/-- A cached id is not that of HEAD. -/
theorem Settled.credId_ne_zero {c : CacheRecord} (h : Settled p ids listed) (hr : r.credsCache = entries p listed)
    (hc : c ∈ r.credsCache) : c.credId ≠ 0 :=
  (isRealCredId_iff.1 (h.real (h.sub (h.stored_of_mem hr hc).1))).1

/-- What is cached of a valid record is the record. -/
theorem sameCred_toCacheRecord (hv : isStoredCredValid old = true) : sameCred old (toCacheRecord old) = true := by
  obtain ⟨-, -, htext, -, hlen, -⟩ := isStoredCredValid_iff.1 hv
  refine sameCred_iff.2 ⟨rfl, ?_, (copyCredential_of_valid htext).symm⟩
  exact (CText.truncate_of_le maxNameLength_le hlen).symm

theorem validateCred_toCacheRecord (hv : isStoredCredValid old = true) : validateCred (toCacheRecord old) = true := by
  obtain ⟨-, -, htext, hpos, hlen, hdate⟩ := isStoredCredValid_iff.1 hv
  have hcred : (toCacheRecord old).credential = old.credential := copyCredential_of_valid htext
  have hname : (toCacheRecord old).name = old.name := CText.truncate_of_le maxNameLength_le hlen
  refine validateCred_iff.2 ⟨?_, ?_, ?_, hdate⟩
  · rw [hcred]; exact htext
  · rw [hname]; exact hpos
  · rw [hname]; exact hlen

theorem Settled.updates_of_stored (hv : isStoredCredValid old = true) (hold : readRecord p old.credId = some old)
    (n : Int) : Updates p { toCacheRecord old with remaining := n } old where
  valid := validateCred_iff.2 (validateCred_iff.1 (validateCred_toCacheRecord hv))
  stored := hold
  same := sameCred_iff.2 (sameCred_iff.1 (sameCred_toCacheRecord hv))

theorem Settled.removes_of_stored (h : Settled p ids listed) (hk : k ∈ ids) (hold : readRecord p k = some old) :
    ∃ ra rb, Removes p (toCacheRecord old) old ra rb := by
  have hid := h.read_credId (by simp [hk]) hold
  have hv := h.valid k hk old hold
  obtain ⟨ra, rb, hra, -, hrb, -⟩ := h.exists_neighbours hk hold
  refine ⟨ra, rb, ?_, (validateCred_iff.1 (validateCred_toCacheRecord hv)).1, sameCred_toCacheRecord hv, hra, hrb⟩
  rw [show (toCacheRecord old).credId = old.credId from rfl, hid, hold]

/-- The listed ids that are still stored. -/
theorem Settled.filter_stored (h : Settled p ids listed) :
    listed.filter (fun id => (readRecord p id).isSome) = listed :=
  List.filter_eq_self.2 fun k hk => by
    obtain ⟨rec, hrec, -⟩ := h.keyed_listed k hk
    rw [hrec]; rfl

/-- What a use leaves of a credential. -/
def CacheRecord.consumed (c : CacheRecord) : Option CacheRecord :=
  if 1 < c.remaining then some { c with remaining := c.remaining - 1 } else if c.remaining = 1 then none else some c

/-- A use that is charged to the cached credential `c`: nothing else stored is
changed. -/
structure Use (p : Nvs) (ids listed : List UInt32) (r : CredStorage) (doorNum : UInt8) (now : UInt64) (c : CacheRecord)
    (q : Nvs) (r' : CredStorage) : Prop where
  verified : r.verifiedCredId ≠ 0
  found : charged r doorNum = some c
  active : c.isActive now = true
  result : usedCred doorNum now ⟨p, [], r⟩ = .ret true ⟨q, [], r'⟩
  cleared : r'.verifiedCredId = 0
  effect : Effect p ids listed q (if c.remaining = 1 then ids.erase c.credId else ids)
    (if c.remaining = 1 then listed.erase c.credId else listed)
  cached : r'.credsCache = entries q (if c.remaining = 1 then listed.erase c.credId else listed)
  stored : ∀ k, storedCred q k = if k = c.credId then c.consumed else storedCred p k

/-- A use is charged if the verified credential is cached for the door and active. -/
theorem exists_use {doorNum : UInt8} {c : CacheRecord} (h : Settled p ids listed) (hr : r.credsCache = entries p listed)
    (hv : r.verifiedCredId ≠ 0) (hc : charged r doorNum = some c) (hact : c.isActive now = true) :
    ∃ q r', Use p ids listed r doorNum now c q r' := by
  obtain ⟨hid, old, hold, rfl, hvalid⟩ := h.stored_of_mem hr (charged_some hc).1
  have hstored : storedCred p (toCacheRecord old).credId = some (toCacheRecord old) :=
    storedCred_eq_some.2 ⟨old, hold, rfl⟩
  rcases lt_trichotomy 1 (toCacheRecord old).remaining with hrem | hrem | hrem
  · -- More than one use is left: the record is rewritten with one less.
    have hu := Settled.updates_of_stored hvalid hold ((toCacheRecord old).remaining - 1)
    obtain ⟨q, r', hupd, heff, hq, hcache, -⟩ := updateCred_effect h hr hu
    have hnote : note (toCacheRecord old).credId listed = listed := if_pos hid
    have hne : (toCacheRecord old).remaining ≠ 1 := Int.ne_of_gt hrem
    refine ⟨q, { r' with verifiedCredId := 0 }, hv, hc, hact, ?_, rfl, ?_, ?_, fun k => ?_⟩
    · rw [usedCred_counted hv hc hact hrem, bind_apply, hupd]
      rfl
    · rw [if_neg hne, if_neg hne]
      exact Eq.mp (congrArg (Effect p ids listed q ids) hnote) heff
    · rw [if_neg hne]
      exact hcache.trans (congrArg (entries q) hnote)
    · rw [hq, storedCred_rewrite h.toWellFormed hu, CacheRecord.consumed, if_pos hrem]
  · -- The last use: the entry that moves to its place has no id 0 either.
    obtain ⟨ra, rb, hremoves⟩ := h.removes_of_stored (h.sub hid) hold
    obtain ⟨q, r', hremove, heff, hgone, hcache, -⟩ := removeCred_effect h hr hremoves
    have hne : (toCacheRecord old).credId ≠ 0 := h.credId_ne_zero hr (charged_some hc).1
    have hmoved : idMoved r doorNum ≠ 0 := idMoved_ne_zero hc fun _ => h.credId_ne_zero hr
    refine ⟨q, { r' with verifiedCredId := 0 }, hv, hc, hact, ?_, rfl, ?_, ?_, fun k => ?_⟩
    · rw [usedCred_last hv hc hact hrem.symm, bind_apply, hremove]
      simp [hne, hmoved, usedDone_true]
    · rw [if_pos hrem.symm, if_pos hrem.symm]
      exact heff
    · rw [if_pos hrem.symm]
      exact hcache
    · rw [hgone, CacheRecord.consumed, if_neg (Int.not_lt.2 hrem.ge), if_pos hrem.symm]
  · -- An active credential with no count above 0 has no limit.
    have hne : (toCacheRecord old).remaining ≠ 1 := Int.ne_of_lt hrem
    refine ⟨_, _, hv, hc, hact, usedCred_unlimited hv hc hact hrem, rfl, ?_, ?_, fun k => ?_⟩
    · rw [if_neg hne, if_neg hne]
      exact .nothing
    · rw [if_neg hne]
      exact hr
    · rw [CacheRecord.consumed, if_neg (Int.not_lt.2 (Int.le_of_lt hrem)), if_neg hne]
      split
      · rename_i he
        rw [he, hstored]
      · rfl

/-- A use is charged, or changes nothing that is stored or cached. -/
theorem usedCred_cases (doorNum : UInt8) (now : UInt64) (h : Settled p ids listed) (hr : r.credsCache = entries p listed) :
    (∃ r', usedCred doorNum now ⟨p, [], r⟩ = .ret false ⟨p, [], r'⟩ ∧ r'.credsCache = r.credsCache ∧
        r'.verifiedCredId = 0) ∨
      ∃ c q r', Use p ids listed r doorNum now c q r' := by
  by_cases hv : r.verifiedCredId = 0
  · exact .inl ⟨r, usedCred_unverified hv, rfl, hv⟩
  cases hc : charged r doorNum with
  | none => exact .inl ⟨_, usedCred_unknown hv hc, rfl, rfl⟩
  | some c =>
    by_cases hact : c.isActive now = true
    · exact .inr ⟨c, exists_use h hr hv hc hact⟩
    · exact .inl ⟨_, usedCred_inactive hv hc (by simpa using hact), rfl, rfl⟩

/-- A use takes one off the credential, or removes it. -/
theorem usedCred_effect {doorNum : UInt8} (h : Settled p ids listed) (hr : r.credsCache = entries p listed) :
    ∃ done q r' ids', usedCred doorNum now ⟨p, [], r⟩ = .ret done ⟨q, [], r'⟩ ∧
      Effect p ids listed q ids' (listed.filter fun id => (readRecord q id).isSome) ∧
      r'.credsCache = entries q (listed.filter fun id => (readRecord q id).isSome) ∧ ids' ⊆ ids := by
  rcases usedCred_cases doorNum now h hr with ⟨r', hu, hcache, -⟩ | ⟨c, q, r', hu⟩
  · refine ⟨false, p, r', ids, hu, ?_, ?_, fun _ hk => hk⟩
    · rw [h.filter_stored]; exact .nothing
    · rw [h.filter_stored, hcache, hr]
  · have hlisted : listed.filter (fun id => (readRecord q id).isSome) =
        if c.remaining = 1 then listed.erase c.credId else listed := by
      by_cases hone : c.remaining = 1
      · rw [if_pos hone, h.distinct.erase_eq_filter]
        refine List.filter_congr fun k hk => ?_
        obtain ⟨c', hc', -⟩ := h.keyed_listed.storedCred hk
        have hread : (readRecord q k).isSome = (storedCred q k).isSome := by rw [storedCred, Option.isSome_map]
        rw [hread, hu.stored, CacheRecord.consumed, hone, hc']
        by_cases he : k = c.credId
        · simp [he]
        · simp [he]
      · have hkept := (hu.effect.settled h).filter_stored
        rw [if_neg hone] at hkept ⊢
        exact hkept
    refine ⟨true, q, r', _, hu.result, hlisted ▸ hu.effect, hlisted ▸ hu.cached, ?_⟩
    split
    · exact List.erase_subset
    · exact fun _ hk => hk

/-! ## Every state of a run -/

/-- The state of a run on a pool that is settled, with the listed ids cached.
`first` is the id given out first. -/
structure Sound (first : Nat) (ids : List UInt32) (σ : History) : Prop where
  settled : Settled σ.flash ids σ.listed
  cached : σ.ram.credsCache = entries σ.flash σ.listed
  next : ∃ t, readRecord σ.flash lastKey = some t ∧ 1 ≤ t.nextId.toNat ∧ t.nextId.toNat ≤ first + σ.insertions

/-- Only an insert gives out an id. -/
theorem Effect.tail (h : Settled p ids listed) (he : Effect p ids listed q ids' listed')
    (ht : readRecord p lastKey = some t) : ∃ t', readRecord q lastKey = some t' ∧
      ((ids' = ids ++ [t.nextId] ∧ t.nextId ≠ lastKey ∧ t'.nextId = t.nextId + 1) ∨
        (ids' ⊆ ids ∧ t'.nextId = t.nextId)) := by
  cases he with
  | nothing => exact ⟨t, ht, .inr ⟨fun _ hk => hk, rfl⟩⟩
  | refresh now => exact ⟨t, ht, .inr ⟨fun _ hk => hk, rfl⟩⟩
  | insert hv hins =>
    obtain rfl := Option.some.inj (ht.symm.trans hins.tail)
    exact ⟨_, hins.read_tail, .inl ⟨rfl, hins.new_ne_lastKey, rfl⟩⟩
  | rewrite hu =>
    have hid := hu.credId h.toWellFormed
    have hne : lastKey ≠ _ := (isRealCredId_iff.1 (h.real (h.mem_of_updates hu))).2.symm
    refine ⟨t, ?_, .inr ⟨fun _ hk => hk, rfl⟩⟩
    rw [readRecord_store (by rw [updated_recordType, recordType_of_read hu.stored]), updated_credId, hid, if_neg hne, ht]
  | delete hdel =>
    rename_i u v x old ra rb
    have hsub : ids.erase x ⊆ ids := List.erase_subset
    rcases List.mem_cons.1 hdel.last_mem with hl | hl
    · refine ⟨rb.withPrev old.prevId, by rw [hl, hdel.read_next]; rfl, .inr ⟨hsub, ?_⟩⟩
      obtain rfl := Option.some.inj (ht.symm.trans (hl ▸ hdel.next))
      rfl
    · exact ⟨t, by rw [hdel.read_of_mem (List.mem_append_right _ hl), ht], .inr ⟨hsub, rfl⟩⟩

variable {first : Nat} {σ σ' : History} {call : Call} {calls : List Call}

theorem Calls.insertions_le (h : Calls σ call σ') : σ.insertions ≤ σ'.insertions := by
  cases h with
  | addCred _ => dsimp only; split <;> omega
  | _ => exact Nat.le_refl _

/-- Neither a verification nor a use. -/
def Call.keepsVerified : Call → Bool
  | .verifyCred .. | .usedCred .. => false
  | _ => true

theorem Sound.effect (h : Sound first ids σ) (hc : Calls σ call σ') (hids : first + σ'.insertions < 2 ^ 32) :
    ∃ ids', Effect σ.flash ids σ.listed σ'.flash ids' σ'.listed ∧ σ'.ram.credsCache = entries σ'.flash σ'.listed ∧
      (ids' ⊆ ids ∨ σ'.insertions = σ.insertions + 1) ∧
      (call.keepsVerified = true → σ'.ram.verifiedCredId = σ.ram.verifiedCredId) := by
  obtain ⟨t, ht, hpos, hle⟩ := h.next
  have h0 : t.nextId ≠ 0 := fun he => by simp [he] at hpos
  cases hc with
  | addCred hcall =>
    rename_i rec newId q r
    by_cases hv : validateCred rec = true
    · obtain ⟨l, ra, -, hra, -⟩ := h.settled.last ht
      have hnew : newId = t.nextId := (Outcome.ret.inj (hcall.symm.trans (addCred_run ht hra hv h0))).1
      subst hnew
      -- The id after the last one would exceed the count.
      have hreal : isRealCredId t.nextId = true := by
        refine isRealCredId_iff.2 ⟨h0, fun he => ?_⟩
        simp only [if_neg h0] at hids
        have : t.nextId.toNat = 2 ^ 32 - 1 := by rw [he]; rfl
        omega
      obtain ⟨q', r', hcall', heff, -, hcache, hver⟩ := addCred_effect h.settled h.cached hv ht hreal
      obtain ⟨-, hs⟩ := Outcome.ret.inj (hcall.symm.trans hcall')
      obtain ⟨rfl, -, rfl⟩ := Sys.mk.inj hs
      simp only [if_neg h0]
      exact ⟨_, heff, hcache, .inr trivial, fun _ => hver⟩
    · rw [addCred_invalid (by simpa using hv)] at hcall
      obtain ⟨rfl, hs⟩ := Outcome.ret.inj hcall
      obtain ⟨rfl, -, rfl⟩ := Sys.mk.inj hs
      exact ⟨ids, .nothing, h.cached, .inl fun _ hk => hk, fun _ => rfl⟩
  | updateCred hcall =>
    rename_i rec done q r
    by_cases hu : ∃ old, Updates σ.flash rec old
    · obtain ⟨old, hu⟩ := hu
      obtain ⟨q', r', hcall', heff, -, hcache, hver⟩ := updateCred_effect h.settled h.cached hu
      obtain ⟨rfl, hs⟩ := Outcome.ret.inj (hcall.symm.trans hcall')
      obtain ⟨rfl, -, rfl⟩ := Sys.mk.inj hs
      exact ⟨ids, heff, hcache, .inl fun _ hk => hk, fun _ => hver⟩
    · rw [updateCred_refused (by simpa using hu)] at hcall
      obtain ⟨rfl, hs⟩ := Outcome.ret.inj hcall
      obtain ⟨rfl, -, rfl⟩ := Sys.mk.inj hs
      exact ⟨ids, .nothing, h.cached, .inl fun _ hk => hk, fun _ => rfl⟩
  | removeCred hcall =>
    rename_i rec removed q r
    by_cases hr : ∃ old ra rb, Removes σ.flash rec old ra rb
    · obtain ⟨old, ra, rb, hr⟩ := hr
      obtain ⟨q', r', hcall', heff, -, hcache, hver⟩ := removeCred_effect h.settled h.cached hr
      obtain ⟨rfl, hs⟩ := Outcome.ret.inj (hcall.symm.trans hcall')
      obtain ⟨rfl, -, rfl⟩ := Sys.mk.inj hs
      exact ⟨_, heff, hcache, .inl List.erase_subset, fun _ => hver⟩
    · rw [removeCred_refused h.settled.toWellFormed (by simpa using hr)] at hcall
      obtain ⟨rfl, hs⟩ := Outcome.ret.inj hcall
      obtain ⟨rfl, -, rfl⟩ := Sys.mk.inj hs
      have hlisted : σ.listed.erase 0 = σ.listed := List.erase_of_not_mem fun hm =>
        (isRealCredId_iff.1 (h.settled.real (h.settled.sub hm))).1 rfl
      rw [hlisted]
      exact ⟨ids, .nothing, h.cached, .inl fun _ hk => hk, fun _ => rfl⟩
  | verifyCred hcall =>
    rename_i credEntered credType now doorNum q r
    rw [verifyCred_eq] at hcall
    refine ⟨ids, ?_⟩
    split at hcall <;>
    · obtain ⟨-, hs⟩ := Outcome.ret.inj hcall
      obtain ⟨rfl, -, rfl⟩ := Sys.mk.inj hs
      exact ⟨.nothing, h.cached, .inl fun _ hk => hk, fun h => absurd h Bool.false_ne_true⟩
  | usedCred hcall =>
    rename_i doorNum now done q r
    obtain ⟨done', q', r', ids', hcall', heff, hcache, hsub⟩ := usedCred_effect h.settled h.cached
    obtain ⟨-, hs⟩ := Outcome.ret.inj (hcall.symm.trans hcall')
    obtain ⟨rfl, -, rfl⟩ := Sys.mk.inj hs
    exact ⟨ids', heff, hcache, .inl hsub, fun h => absurd h Bool.false_ne_true⟩
  | refreshCache hcall =>
    rename_i now done q r
    obtain ⟨r', hcall', hver, hcache⟩ := refreshCache_effect h.settled now
    obtain ⟨-, hs⟩ := Outcome.ret.inj (hcall.symm.trans hcall')
    obtain ⟨rfl, -, rfl⟩ := Sys.mk.inj hs
    rw [chainIds_eq h.settled.toWellLinked]
    exact ⟨ids, .refresh now, hcache, .inl fun _ hk => hk, fun _ => hver⟩

theorem toNat_succ (h : k ≠ lastKey) : (k + 1).toNat = k.toNat + 1 := by
  have hne : k.toNat ≠ 2 ^ 32 - 1 := fun he => h (UInt32.toNat_inj.1 he)
  have hlt := k.toNat_lt
  rw [UInt32.toNat_add]
  exact Nat.mod_eq_of_lt (Nat.add_lt_of_lt_sub (Nat.lt_of_le_of_ne (Nat.le_pred_of_lt hlt) hne))

/-- One call keeps a sound state, while there are ids left. -/
theorem Sound.step (h : Sound first ids σ) (hc : Calls σ call σ') (hids : first + σ'.insertions < 2 ^ 32) :
    ∃ ids', Effect σ.flash ids σ.listed σ'.flash ids' σ'.listed ∧ Sound first ids' σ' := by
  obtain ⟨ids', heff, hcache, hcount, -⟩ := h.effect hc hids
  obtain ⟨t, ht, hpos, hle⟩ := h.next
  have hmono := hc.insertions_le
  refine ⟨ids', heff, heff.settled h.settled, hcache, ?_⟩
  obtain ⟨t', ht', ⟨rfl, hlast, hnext⟩ | ⟨-, hnext⟩⟩ := heff.tail h.settled ht
  · have hfresh : t.nextId ∉ ids := fun hm => by
      have := h.settled.below _ hm t ht
      exact UInt32.lt_irrefl _ this
    have hone := hcount.resolve_left fun hsub => hfresh (hsub (by simp))
    have hadd := toNat_succ hlast
    exact ⟨t', ht', by rw [hnext, hadd]; omega, by rw [hnext, hadd]; omega⟩
  · exact ⟨t', ht', by rw [hnext]; exact hpos, by rw [hnext]; omega⟩

theorem Calls.insertions_le_run (h : Run Calls σ calls σ') : σ.insertions ≤ σ'.insertions := by
  induction h with
  | nil => exact Nat.le_refl _
  | snoc _ hc ih => exact Nat.le_trans ih hc.insertions_le

theorem Sound.run (h : Sound first ids σ) (hrun : Run Calls σ calls σ') (hids : first + σ'.insertions < 2 ^ 32) :
    ∃ ids', Sound first ids' σ' := by
  induction hrun with
  | nil => exact ⟨ids, h⟩
  | snoc _ hc ih =>
    have hmono := hc.insertions_le
    obtain ⟨ids', h'⟩ := ih (by omega)
    obtain ⟨ids'', -, h''⟩ := h'.step hc hids
    exact ⟨ids'', h''⟩

theorem emptyPool_blank : SentinelsBlank emptyPool :=
  .of_eq (show readRecord emptyPool firstKey = some emptyHead by rw [read_emptyPool]; rfl)
    (show readRecord emptyPool lastKey = some emptyTail by rw [read_emptyPool]; rfl) (by decide) (by decide)

theorem onePool_blank : SentinelsBlank onePool :=
  .of_eq (show readRecord onePool firstKey = some _ from rfl) (show readRecord onePool lastKey = some _ from rfl)
    (by decide) (by decide)

/-! ## Starting -/

/-- A boot has left a pool to work with: a well-formed one whose sentinels carry
no credential text. `first` is the id given out first. -/
structure Starts (σ : History) (first : Nat) : Prop where
  pool : ∃ ids, WellFormed σ.flash ids
  blank : SentinelsBlank σ.flash
  next : ∃ t, readRecord σ.flash lastKey = some t ∧ t.nextId ≠ 0 ∧ t.nextId.toNat = first

theorem Starts.sound (h : Starts σ first) (hb : Boots p σ) : (∃ ids, Sound first ids σ) ∧ σ.ram.verifiedCredId = 0 := by
  obtain @⟨now, a, q, r, hboot⟩ := hb
  obtain ⟨ids, hp⟩ := h.pool
  obtain ⟨t, ht, h0, rfl⟩ := h.next
  obtain ⟨hcache, hver⟩ := begin_cached hboot hp.toWellLinked
  have hsettled : Settled q ids [] := ⟨hp, h.blank, List.nodup_nil, List.nil_subset _⟩
  have hchain : chainIds q = ids := chainIds_eq hp.toWellLinked
  have hpos : 1 ≤ t.nextId.toNat := Nat.one_le_iff_ne_zero.2 fun he => h0 (UInt32.toNat_inj.1 he)
  refine ⟨⟨ids, ?_, ?_, t, ht, hpos, Nat.le_refl _⟩, hver⟩
  · exact hchain ▸ hsettled.refresh now
  · exact hchain ▸ hcache.trans (cacheOf_eq_entries q now ids)

theorem Sound.mono {n : Nat} (h : Sound first ids σ) (hle : first ≤ n) : Sound n ids σ := by
  obtain ⟨t, ht, hpos, hnext⟩ := h.next
  exact ⟨h.settled, h.cached, t, ht, hpos, by omega⟩

/-- What a flash recovers to is what the boot leaves. -/
theorem Boots.flash_eq (hb : Boots p σ) (hrec : RecoversTo begin .fresh q p) : σ.flash = q := by
  obtain @⟨now, a, q', r, hboot⟩ := hb
  obtain ⟨x, r', hwhole⟩ := hrec.reboots [] now
  obtain ⟨-, hs⟩ := Outcome.ret.inj (hboot.symm.trans hwhole)
  exact (Sys.mk.inj hs).1

/-- A boot that repairs an interrupted call starts, also after boots that were
cut. -/
theorem Boots.starts (hb : Boots p σ) (hrec : RecoversTo begin .fresh q p) (hq : WellFormed q ids) (hblank : SentinelsBlank q)
    (ht : readRecord q lastKey = some t) (h0 : t.nextId ≠ 0) : Starts σ t.nextId.toNat := by
  obtain rfl := hb.flash_eq hrec
  exact ⟨⟨ids, hq⟩, hblank, t, ht, h0, rfl⟩

theorem Boots.starts_of_wellFormed (hb : Boots p σ) (hp : WellFormed p ids) (hlen : ids.length < credGcMaxScanId)
    (hblank : SentinelsBlank p) (ht : readRecord p lastKey = some t) (h0 : t.nextId ≠ 0) : Starts σ t.nextId.toNat :=
  hb.starts (recovers_wellFormed hp hlen) hp hblank ht h0

/-- A flash that was reset gives out the id 1 first. -/
theorem starts_emptyPool (h : σ.flash = emptyPool) : Starts σ 1 where
  pool := ⟨[], h ▸ emptyPool_wellFormed⟩
  blank := h ▸ emptyPool_blank
  next := ⟨emptyTail, by rw [h, read_emptyPool]; rfl, by decide, rfl⟩

theorem Boots.starts_of_refused (hb : Boots p σ) (h : Refused p) : Starts σ 1 :=
  starts_emptyPool (hb.flash_eq (recovers_refused h))

/-- A boot from a well-formed pool with blank sentinels, also one that is too
long and is dropped. -/
theorem Boots.sound (hp : WellFormed p ids) (hblank : SentinelsBlank p) (ht : readRecord p lastKey = some t)
    (hfirst : t.nextId ≠ 0) (hb : Boots p σ) : ∃ ids', Sound t.nextId.toNat ids' σ := by
  obtain @⟨now, a, q, r, hboot⟩ := id hb
  -- A pool that is dropped gives out the id 1 first, which is no more than it had.
  rcases begin_keeps_or_resets hp now with ⟨m, hm⟩ | ⟨m, hm⟩
  · obtain ⟨-, hs⟩ := Outcome.ret.inj (hboot.symm.trans hm.whole)
    obtain ⟨rfl, -, -⟩ := Sys.mk.inj hs.symm
    exact (Starts.sound ⟨⟨ids, hp⟩, hblank, t, ht, hfirst, rfl⟩ hb).1
  · obtain ⟨-, hs⟩ := Outcome.ret.inj (hboot.symm.trans hm.whole)
    obtain ⟨rfl, -, -⟩ := Sys.mk.inj hs
    obtain ⟨ids', hsound⟩ := ((starts_emptyPool rfl).sound hb).1
    have hpos : 1 ≤ t.nextId.toNat := Nat.one_le_iff_ne_zero.2 fun he => hfirst (UInt32.toNat_inj.1 he)
    exact ⟨ids', hsound.mono hpos⟩

end OrangeBox.PassStore
