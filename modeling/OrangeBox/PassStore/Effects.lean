import OrangeBox.PassStore.PowerLoss
/-!
# What a call does when nothing fails

The pool a class instance works on is well formed, its sentinels carry no
credential text, and the cache holds what is stored for some ids (`Settled`).
Each call has one of five effects on the flash and on those ids (`Effect`),
and every effect leaves such a pool.
-/
open Flash Linked

namespace OrangeBox.PassStore

variable {p q : Nvs} {ids ids' listed listed' : List UInt32} {rec : CacheRecord} {old t : CredRecord} {k : UInt32}
  {r : CredStorage} {now : UInt64}

/-! ## Stored credentials -/

/-- What is stored under an id, as the cache holds it. -/
def storedCred (p : Nvs) (id : UInt32) : Option CacheRecord := (readRecord p id).map toCacheRecord

/-- What is stored under each of `ids`. -/
def entries (p : Nvs) (ids : List UInt32) : List CacheRecord := ids.filterMap (storedCred p)

/-- Stored under `id`, and active at `now`. -/
def activeIn (p : Nvs) (now : UInt64) (id : UInt32) : Bool := (readRecord p id).any (isActive · now)

theorem storedCred_eq_some {c : CacheRecord} : storedCred p k = some c ↔ ∃ rec, readRecord p k = some rec ∧
    toCacheRecord rec = c := by
  simp [storedCred]

@[simp] theorem entries_nil : entries p [] = [] := rfl

theorem entries_cons_some {c : CacheRecord} (h : storedCred p k = some c) : entries p (k :: ids) = c :: entries p ids := by
  simp [entries, h]

theorem entries_append : entries p (ids ++ ids') = entries p ids ++ entries p ids' := List.filterMap_append

theorem entries_congr (h : ∀ k ∈ ids, storedCred p k = storedCred q k) : entries p ids = entries q ids :=
  List.filterMap_congr h

theorem mem_entries {c : CacheRecord} : c ∈ entries p ids ↔ ∃ k ∈ ids, storedCred p k = some c := by
  simp [entries]

theorem Keyed.storedCred (h : Keyed p ids) (hk : k ∈ ids) : ∃ c, storedCred p k = some c ∧ c.credId = k := by
  obtain ⟨rec, hrec, hid⟩ := h k hk
  exact ⟨toCacheRecord rec, storedCred_eq_some.2 ⟨rec, hrec, rfl⟩, hid⟩

/-- The cache after a boot. -/
theorem cacheOf_eq_entries (p : Nvs) (now : UInt64) (ids : List UInt32) :
    cacheOf p now ids = entries p (ids.filter (activeIn p now)) := by
  unfold cacheOf entries
  induction ids with
  | nil => rfl
  | cons k ids ih =>
    cases hk : readRecord p k with
    | none => simp [hk, activeIn, ih]
    | some rec =>
      by_cases hact : isActive rec now = true
      · simp [hk, activeIn, hact, storedCred, ih]
      · simp [hk, activeIn, hact, ih]

/-- `id` is listed, at the end if it is new. -/
def note (id : UInt32) (listed : List UInt32) : List UInt32 := if id ∈ listed then listed else listed ++ [id]

/-- The cache entry of an id is replaced where it stands. -/
theorem replaceCached_entries (hkeyed : Keyed p listed) (hnodup : listed.Nodup)
    (hnew : storedCred q rec.credId = some rec) (hold : ∀ k, k ≠ rec.credId → storedCred q k = storedCred p k) :
    replaceCached rec (entries p listed) = entries q (note rec.credId listed) := by
  unfold note
  induction listed with
  | nil => simp [replaceCached, entries, hnew]
  | cons k l ih =>
    obtain ⟨c, hc, hid⟩ := hkeyed.storedCred (List.mem_cons_self)
    obtain ⟨hk, hl⟩ := List.nodup_cons.1 hnodup
    have ih := ih (fun k hk => hkeyed k (List.mem_cons_of_mem _ hk)) hl
    rw [entries_cons_some hc, replaceCached, hid]
    by_cases he : k = rec.credId
    · subst he
      rw [if_pos rfl, if_pos List.mem_cons_self, entries_cons_some hnew, entries_congr]
      intro k' hk'
      exact (hold k' fun he => hk (he ▸ hk')).symm
    · rw [if_neg he, ih]
      have hqc : storedCred q k = some c := by rw [hold k he, hc]
      by_cases hm : rec.credId ∈ l
      · rw [if_pos hm, if_pos (List.mem_cons_of_mem _ hm), entries_cons_some hqc]
      · have hne : rec.credId ∉ k :: l := by simp [Ne.symm he, hm]
        rw [if_neg hm, if_neg hne, List.cons_append, entries_cons_some hqc]

/-- The cache entry of an id is taken out. -/
theorem eraseP_entries (hkeyed : Keyed p listed) (hnodup : listed.Nodup)
    (hold : ∀ id, id ≠ k → storedCred q id = storedCred p id) :
    (entries p listed).eraseP (·.credId = k) = entries q (listed.erase k) := by
  induction listed with
  | nil => rfl
  | cons id l ih =>
    obtain ⟨c, hc, hid⟩ := hkeyed.storedCred (List.mem_cons_self)
    obtain ⟨hk, hl⟩ := List.nodup_cons.1 hnodup
    have ih := ih (fun k hk => hkeyed k (List.mem_cons_of_mem _ hk)) hl
    rw [entries_cons_some hc]
    by_cases he : id = k
    · subst he
      rw [List.eraseP_cons_of_pos (by simp [hid]), List.erase_cons_head, entries_congr]
      intro k' hk'
      exact (hold k' fun he => hk (he ▸ hk')).symm
    · have hqc : storedCred q id = some c := by rw [hold id he, hc]
      rw [List.eraseP_cons_of_neg (by simp [hid, he]), ih, List.erase_cons_tail (by simpa using he), entries_cons_some hqc]

/-! ## Settled pools -/

/-- No sentinel carries a credential text, as `resetPool` leaves them. -/
def SentinelsBlank (p : Nvs) : Prop :=
  ∀ id rec, isRealCredId id = false → readRecord p id = some rec →
    validateCredential (some rec.credential.bytes) rec.credType 0 = false

theorem SentinelsBlank.of_eq {head : CredRecord} (hhead : readRecord p firstKey = some head)
    (ht : readRecord p lastKey = some t)
    (hhead' : validateCredential (some head.credential.bytes) head.credType 0 = false)
    (ht' : validateCredential (some t.credential.bytes) t.credType 0 = false) : SentinelsBlank p := by
  intro id rec hid hrec
  have hid : id = firstKey ∨ id = lastKey := by
    by_contra hne
    rw [isRealCredId_iff.2 (not_or.1 hne)] at hid
    contradiction
  rcases hid with rfl | rfl
  · exact Option.some.inj (hhead.symm.trans hrec) ▸ hhead'
  · exact Option.some.inj (ht.symm.trans hrec) ▸ ht'

/-- A well-formed pool with blank sentinels, and the ids whose records are in
the cache. -/
structure Settled (p : Nvs) (ids listed : List UInt32) : Prop extends WellFormed p ids where
  blank : SentinelsBlank p
  distinct : listed.Nodup
  sub : listed ⊆ ids

namespace Settled

theorem keyed_listed (h : Settled p ids listed) : Keyed p listed := h.keyed.subset fun k hk => by simp [h.sub hk]

theorem refresh (h : Settled p ids listed) (now : UInt64) : Settled p ids (ids.filter (activeIn p now)) where
  toWellFormed := h.toWellFormed
  blank := h.blank
  distinct := (nodes_nodup.1 h.nodup).1.filter _
  sub _ hk := List.mem_of_mem_filter hk

/-- Only credentials carry a valid text. -/
theorem mem_of_text (h : Settled p ids listed) (hr : readRecord p k = some old)
    (htext : validateCredential (some old.credential.bytes) old.credType 0 = true) : k ∈ ids := by
  have hreal : isRealCredId k = true := by
    by_contra hreal
    have := h.blank k old (by simpa using hreal) hr
    rw [htext] at this
    contradiction
  exact h.mem_of_real hreal hr

theorem mem_of_updates (h : Settled p ids listed) (hu : Updates p rec old) : rec.credId ∈ ids := by
  obtain ⟨htype, -, hcred⟩ := sameCred_iff.1 hu.same
  exact h.mem_of_text hu.stored (by rw [htype, hcred]; exact (validateCred_iff.1 hu.valid).1)

theorem mem_of_removes {ra rb : CredRecord} (h : Settled p ids listed) (hr : Removes p rec old ra rb) :
    rec.credId ∈ ids := by
  obtain ⟨htype, -, hcred⟩ := sameCred_iff.1 hr.same
  exact h.mem_of_text hr.stored (by rw [htype, hcred]; exact hr.text)

end Settled

/-! ## The effects -/

/-- What a call does to the flash and to the listed ids. -/
inductive Effect (p : Nvs) (ids listed : List UInt32) : Nvs → List UInt32 → List UInt32 → Prop
  | nothing : Effect p ids listed p ids listed
  | refresh (now : UInt64) : Effect p ids listed p ids (ids.filter (activeIn p now))
  | insert {l : List UInt32} {rec : CacheRecord} {t ra : CredRecord} : validateCred rec = true →
      Insertion p ids l t ra (newRecord (newCredRecord rec) t) →
      Effect p ids listed (inserted p t ra (newRecord (newCredRecord rec) t) true true true) (ids ++ [t.nextId])
        (listed ++ [t.nextId])
  | rewrite {rec : CacheRecord} {old : CredRecord} : Updates p rec old →
      Effect p ids listed ((store (old.updated rec)).apply p) ids (note rec.credId listed)
  | delete {u v : List UInt32} {x : UInt32} {old ra rb : CredRecord} : Deletion p ids u v x old ra rb →
      Effect p ids listed (deleted p x old ra rb true true true) (ids.erase x) (listed.erase x)

/-- The credential `addCred` stores is the one it caches. -/
theorem toCacheRecord_newRecord (hv : validateCred rec = true) :
    toCacheRecord (newRecord (newCredRecord rec) t) = { rec with credId := t.nextId } := by
  have hcred := copyCredential_of_valid (validateCred_iff.1 hv).1
  have hname := truncate_name_of_valid hv
  have hcopy : toCacheRecord (newRecord (newCredRecord rec) t) =
      { rec with
        credId := t.nextId
        name := (rec.name.truncate maxNameLength maxNameLength_le).truncate maxNameLength maxNameLength_le
        credential := copyCredential rec.credType (copyCredential rec.credType rec.credential) } := rfl
  rw [hcopy, hname, hname, hcred, hcred]

/-- The credential `updateCred` stores is the one it caches. -/
theorem toCacheRecord_updated (hu : Updates p rec old) (hid : old.credId = rec.credId) :
    toCacheRecord (old.updated rec) = rec := by
  obtain ⟨htype, hname, hcred⟩ := sameCred_iff.1 hu.same
  have hcopy : toCacheRecord (old.updated rec) =
      { rec with
        credType := old.credType
        credId := old.credId
        name := old.name.truncate maxNameLength maxNameLength_le
        credential := copyCredential old.credType old.credential } := rfl
  rw [hcopy, htype, hid, hname, hcred, truncate_name_of_valid hu.valid,
    copyCredential_of_valid (validateCred_iff.1 hu.valid).1]

/-- A credential written back leaves a well-formed pool. -/
theorem Updates.wellFormed (hp : WellFormed p ids) (hu : Updates p rec old) (hmem : rec.credId ∈ ids) :
    WellFormed ((store (old.updated rec)).apply p) ids := by
  have hid := hu.credId hp
  obtain ⟨htype, hname, hcred⟩ := sameCred_iff.1 hu.same
  have hreal := hp.real hmem
  have hrt := recordType_of_read hu.stored
  refine hp.rewrite (r := old) (by rw [updated_credId, hid, hu.stored]) (fun _ => rfl) (fun he => ?_) rfl hrt fun _ => ?_
  · rw [updated_credId, hid] at he
    exact absurd he (isRealCredId_iff.1 hreal).2
  · exact isStoredCredValid_of_same hu.valid (by rw [updated_credId, hid, hreal]) hrt htype hname hcred rfl rfl

section Reads
variable {l u v : List UInt32} {x : UInt32} {ra rb : CredRecord}

theorem Insertion.storedCred_eq {rn : CredRecord} (h : Insertion p ids l t ra rn) (hk : k ∈ ids) :
    storedCred (inserted p t ra rn true true true) k = storedCred p k := by
  have hmem : k ∈ l ++ [t.prevId] := by rw [← h.last]; simp [hk]
  rcases List.mem_append.1 hmem with hm | hm
  · rw [storedCred, h.read_of_mem hm]; rfl
  · obtain rfl := List.mem_singleton.1 hm
    rw [storedCred, h.read_prev, storedCred, h.prev]
    rfl

theorem Deletion.storedCred_eq (h : Deletion p ids u v x old ra rb) (hk : k ≠ x) :
    storedCred (deleted p x old ra rb true true true) k = storedCred p k := by
  rw [storedCred, storedCred, h.read, if_neg (by simp [hk] : ¬(true = true ∧ k = x))]
  split
  · rename_i hb
    rw [hb.2, h.next]; rfl
  · split
    · rename_i ha
      rw [ha.2, h.prev]; rfl
    · rfl

theorem storedCred_rewrite (hp : WellFormed p ids) (hu : Updates p rec old) (k : UInt32) :
    storedCred ((store (old.updated rec)).apply p) k = if k = rec.credId then some rec else storedCred p k := by
  have htype : (old.updated rec).recordType = .credentialV1 := by rw [updated_recordType, recordType_of_read hu.stored]
  have hid := hu.credId hp
  rw [storedCred, readRecord_store htype, updated_credId, hid]
  split
  · rw [Option.map_some, toCacheRecord_updated hu hid]
  · rfl

end Reads

/-- Writing back a record whose text does not change. -/
theorem SentinelsBlank.after_store {new : CredRecord} (h : SentinelsBlank p) (htype : new.recordType = .credentialV1)
    (hnew : isRealCredId new.credId = false → ∃ old, readRecord p new.credId = some old ∧ new.credType = old.credType ∧
      new.credential = old.credential) : SentinelsBlank ((store new).apply p) := by
  intro id rec hid hrec
  rw [readRecord_store htype] at hrec
  split at hrec
  · obtain rfl := Option.some.inj hrec
    subst id
    obtain ⟨old, hold, hct, hcred⟩ := hnew hid
    rw [hct, hcred]
    exact h _ old hid hold
  · exact h id rec hid hrec

theorem SentinelsBlank.after_discard {x : UInt32} (h : SentinelsBlank p) : SentinelsBlank ((discard x).apply p) := by
  intro id rec hid hrec
  rw [readRecord_discard] at hrec
  split at hrec
  · contradiction
  · exact h id rec hid hrec

theorem Insertion.blank {l : List UInt32} {ra : CredRecord} (h : Insertion p ids l t ra (newRecord (newCredRecord rec) t))
    (hblank : SentinelsBlank p) : SentinelsBlank (inserted p t ra (newRecord (newCredRecord rec) t) true true true) := by
  have hpid := h.prev_credId
  have h1 : SentinelsBlank ((store (ra.withNext t.nextId)).apply p) :=
    hblank.after_store (by simp [recordType_of_read h.prev]) fun _ => ⟨ra, by rw [withNext_credId, hpid, h.prev], rfl, rfl⟩
  have h2 : SentinelsBlank ((store (newRecord (newCredRecord rec) t)).apply ((store (ra.withNext t.nextId)).apply p)) := by
    refine h1.after_store rfl fun hreal => ?_
    have hnew : isRealCredId (newRecord (newCredRecord rec) t).credId = true := h.real
    rw [hnew] at hreal
    contradiction
  refine h2.after_store (by simp [recordType_of_read h.tail]) fun _ => ⟨t, ?_, rfl, rfl⟩
  have hra : (ra.withNext t.nextId).recordType = .credentialV1 := by simp [recordType_of_read h.prev]
  have hne : t.prevId ≠ lastKey := (h.path_ne (by simp)).1
  rw [withPrev_credId, withNext_credId, h.tail_credId, readRecord_store rfl, h.credId, if_neg h.new_ne_lastKey.symm,
    readRecord_store hra, withNext_credId, hpid, if_neg hne.symm, h.tail]

theorem Deletion.blank {u v : List UInt32} {x : UInt32} {ra rb : CredRecord} (h : Deletion p ids u v x old ra rb)
    (hblank : SentinelsBlank p) : SentinelsBlank (deleted p x old ra rb true true true) := by
  have hra : (ra.withNext old.nextId).recordType = .credentialV1 := by simp [recordType_of_read h.prev]
  have h1 : SentinelsBlank ((store (ra.withNext old.nextId)).apply p) :=
    hblank.after_store hra fun _ => ⟨ra, by rw [withNext_credId, h.prev_credId, h.prev], rfl, rfl⟩
  refine h1.after_discard.after_store (by simp [recordType_of_read h.next]) fun _ => ⟨rb, ?_, rfl, rfl⟩
  rw [withPrev_credId, h.next_credId, readRecord_discard, if_neg h.ne.2.2.1.symm, readRecord_store hra,
    withNext_credId, h.prev_credId, if_neg h.ne.2.1.symm, h.next]

theorem nodup_note (h : listed.Nodup) (k : UInt32) : (note k listed).Nodup := by
  unfold note
  split
  · exact h
  · rename_i hk
    rw [← List.concat_eq_append]
    exact h.concat hk

theorem note_subset (h : listed ⊆ ids) (hk : k ∈ ids) : note k listed ⊆ ids := by
  unfold note
  split
  · exact h
  · exact List.append_subset.2 ⟨h, by simpa using hk⟩

/-- Each effect leaves a settled pool. -/
theorem Effect.settled (h : Settled p ids listed) (he : Effect p ids listed q ids' listed') : Settled q ids' listed' := by
  cases he with
  | nothing => exact h
  | refresh now => exact h.refresh now
  | @insert l rec t ra hv hins =>
    have hfresh : t.nextId ∉ listed := fun hm => hins.new_fresh (by simp [h.sub hm])
    refine ⟨hins.wellFormed, hins.blank h.blank, ?_, ?_⟩
    · rw [← List.concat_eq_append]
      exact h.distinct.concat hfresh
    · exact List.append_subset.2 ⟨fun k hk => List.mem_append_left _ (h.sub hk), List.subset_append_right _ _⟩
  | @rewrite rec old hu =>
    have hmem := h.mem_of_updates hu
    have hid := hu.credId h.toWellFormed
    have hcurrent : (old.updated rec).recordType = .credentialV1 := recordType_of_read (r := old) hu.stored
    refine ⟨hu.wellFormed h.toWellFormed hmem, ?_, nodup_note h.distinct _, note_subset h.sub hmem⟩
    exact h.blank.after_store hcurrent fun _ => ⟨old, by rw [updated_credId, hid, hu.stored], rfl, rfl⟩
  | @delete u v x old ra rb hdel =>
    refine ⟨hdel.wellFormed, hdel.blank h.blank, h.distinct.erase x, fun k hk => ?_⟩
    have hne : k ≠ x := fun he => h.distinct.not_mem_erase (he ▸ hk)
    exact (List.mem_erase_of_ne hne).2 (h.sub (List.mem_of_mem_erase hk))

end OrangeBox.PassStore
