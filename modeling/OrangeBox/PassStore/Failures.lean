import OrangeBox.PassStore.PowerLoss
/-!
# Failing writes

`addCred` looks at the result of its third write only, and `removeCred` at
none. For every pattern of failing calls we say whether what they report agrees
with the pool after the next boot (`reported_results_agree_iff`).

A failing call leaves its key as it was, so a pattern is which of the three
writes worked.
-/
open Flash Linked

namespace OrangeBox.PassStore

variable {p q : Nvs} {ids : List UInt32} {rec : CacheRecord} {r : CredStorage} {fs : List Fault} {now : UInt64}
  {id : UInt32}

/-! ## What survives a boot -/

/-- On the chain from HEAD to TAIL. -/
def InPool (q : Nvs) (id : UInt32) : Prop := ∃ ids, WellLinked q ids ∧ id ∈ ids

/-- Still in the pool, with the same contents. -/
def Kept (p q : Nvs) (id : UInt32) : Prop :=
  InPool q id ∧ (readRecord q id).map CredRecord.contents = (readRecord p id).map CredRecord.contents

/-- The next boot returns, with a flash where `P` holds. -/
def AfterBoot (q : Nvs) (now : UInt64) (P : Nvs → Prop) : Prop :=
  ∃ a s, begin now ⟨q, [], .fresh⟩ = .ret a s ∧ P s.blobs

theorem afterBoot_iff {q' : Nvs} {P : Nvs → Prop} (h : RecoversTo begin .fresh q' q) : AfterBoot q now P ↔ P q' := by
  obtain ⟨a, r', hboot⟩ := h.reboots [] now
  constructor
  · rintro ⟨a', s, hboot', hP⟩
    obtain ⟨rfl, rfl⟩ := Outcome.ret.inj (hboot.symm.trans hboot')
    exact hP
  · exact fun hP => ⟨a, _, hboot, hP⟩

theorem AfterBoot.of_repair {tail : CredRecord} {ws : List (Write Key Blob)} {P : Nvs → Prop} (hs : Sentinels q tail)
    (hrepair : Traced repairCredChain q .fresh ws true .fresh) (h : AfterBoot q now P) : P (applyAll ws q) := by
  obtain ⟨a, s, hboot, hP⟩ := h
  have hflash := begin_flash now hs hrepair
  rw [hboot] at hflash
  exact hflash ▸ hP

theorem InPool.stored (h : InPool q id) : ∃ rec, readRecord q id = some rec := by
  obtain ⟨ids, hq, hid⟩ := h
  obtain ⟨rec, hrec, -⟩ := hq.keyed id (by simp [hid])
  exact ⟨rec, hrec⟩

theorem not_inPool_of_none (h : readRecord q id = none) : ¬InPool q id := fun hin => by
  obtain ⟨rec, hrec⟩ := hin.stored
  rw [h] at hrec
  contradiction

theorem WellLinked.inPool_iff (h : WellLinked q ids) : InPool q id ↔ id ∈ ids := by
  constructor
  · rintro ⟨ids', h', hid⟩
    exact h'.unique h ▸ hid
  · exact fun hid => ⟨ids, h, hid⟩

theorem not_inPool_emptyPool : ¬InPool emptyPool id := by
  rw [emptyPool_wellFormed.toWellLinked.inPool_iff]
  simp

theorem not_inPool_lastKey : ¬InPool q lastKey := fun ⟨_, hq, hid⟩ => (nodes_nodup.1 hq.nodup).2.2 hid

theorem WellLinked.kept (h : WellLinked p ids) (hid : id ∈ ids) : Kept p p id := ⟨⟨ids, h, hid⟩, rfl⟩

/-! ## Adding -/

/-- What a result of `addCred` says about the pool after the boot. -/
def AddAgrees (p : Nvs) (ids : List UInt32) (newId : UInt32) (q : Nvs) : Prop :=
  (newId ≠ 0 → InPool q newId) ∧ (newId = 0 → ∀ id, InPool q id → id ∈ ids) ∧ ∀ id ∈ ids, Kept p q id

/-- Nothing happened, and nothing was reported. -/
theorem addAgrees_self (h : WellLinked p ids) : AddAgrees p ids 0 p :=
  ⟨fun h0 => absurd rfl h0, fun _ _ hid => h.inPool_iff.1 hid, fun _ hid => h.kept hid⟩

namespace Insertion
variable {l : List UInt32} {t ra rn : CredRecord} {w₁ w₂ w₃ : Bool}

theorem contents_eq (h : Insertion p ids l t ra rn) (hid : id ∈ ids) :
    (readRecord (inserted p t ra rn w₁ w₂ w₃) id).map CredRecord.contents =
      (readRecord p id).map CredRecord.contents := by
  have hmem : id ∈ l ++ [t.prevId] := by rw [← h.last]; simp [hid]
  rcases List.mem_append.1 hmem with hm | hm
  · rw [h.read_of_mem hm]
  · obtain rfl := List.mem_singleton.1 hm
    rw [h.read_prev, h.prev]
    split <;> rfl

/-- With the first and the third write missing the new record is an orphan. -/
theorem wellLinked_orphan (h : Insertion p ids l t ra rn) : WellLinked (inserted p t ra rn false w₂ false) ids where
  keyed := h.keyed
  chained := by
    refine h.pool.chained.frame fun k hk => ?_
    have hne : k ≠ t.nextId := fun he => h.new_fresh (he ▸ hk)
    simp [h.read, hne]
  nodup := h.pool.nodup

theorem recovers_orphan (h : Insertion p ids l t ra rn) (hlen : ids.length < credGcMaxScanId) :
    RecoversTo begin .fresh (inserted p t ra rn false w₂ false) (inserted p t ra rn false w₂ false) := by
  refine recovers_sound h.wellLinked_orphan (fun k hk rk hrk => ?_) hlen
  have hne : k ≠ t.nextId := fun he => h.new_fresh (he ▸ by simp [hk])
  rw [h.read] at hrk
  simp only [Bool.false_eq_true, false_and, if_false, hne, and_false] at hrk
  exact h.pool.valid k hk rk hrk

/-- With the second write missing but the third done, the last link leads to a
record that is not there, and TAIL does not say that it was the last one. -/
theorem refused_missing (h : Insertion p ids l t ra rn) (hlen : ids.length < credGcMaxScanId) :
    Refused (inserted p t ra rn true false true) := by
  have hs : Sentinels (inserted p t ra rn true false true) ((t.withNext (t.nextId + 1)).withPrev t.nextId) := h.sentinels
  have hscan : Scanned (inserted p t ra rn true false true) l (ra.withNext t.nextId) := h.scanned
  have hstop : Stops (inserted p t ra rn true false true) ((t.withNext (t.nextId + 1)).withPrev t.nextId) l
      (ra.withNext t.nextId) := ⟨hs, hscan, by rw [h.length_eq]; exact hlen⟩
  refine .chain hs fun r => hstop.interrupted (isRealCredId_iff.1 h.real).1 h.new_ne_prev ?_ h.new_ne_prev.symm
  rw [withNext_nextId, h.read_new]
  rfl

/-- With the first write missing but the third done, TAIL's back link is stale,
and the next boot removes the new record. -/
theorem repaired_stale_tail (h : Insertion p ids l t ra rn) (w₂ : Bool) (hlen : ids.length < credGcMaxScanId) :
    ∃ tail ws, Sentinels (inserted p t ra rn false w₂ true) tail ∧
      Traced repairCredChain (inserted p t ra rn false w₂ true) .fresh ws true .fresh ∧
      readRecord (applyAll ws (inserted p t ra rn false w₂ true)) t.nextId = none := by
  have hs : Sentinels (inserted p t ra rn false w₂ true) ((t.withNext (t.nextId + 1)).withPrev t.nextId) := h.sentinels
  have hscan : Scanned (inserted p t ra rn false w₂ true) l ra := h.scanned
  have hstop : Stops (inserted p t ra rn false w₂ true) ((t.withNext (t.nextId + 1)).withPrev t.nextId) l ra :=
    ⟨hs, hscan, by rw [h.length_eq]; exact hlen⟩
  have hedge : Edge (inserted p t ra rn false w₂ true) ra ((t.withNext (t.nextId + 1)).withPrev t.nextId) := by
    refine ⟨?_, ?_, ?_, ?_, ?_⟩
    · rw [h.prev_nextId]; decide
    · rw [h.prev_nextId, h.prev_credId]; exact (h.path_ne (by simp)).1.symm
    · rw [h.prev_nextId, h.read_tail]; rfl
    · rw [h.prev_nextId]; exact h.tail_credId
    · rw [withPrev_credId, withNext_credId, h.tail_credId]; exact fun hr => absurd hr (by decide)
  have hnot : ¬(t.nextId = ra.prevId ∧ t.credId = lastKey) := by
    rintro ⟨he, -⟩
    -- The record before the last one is in the pool, or HEAD itself.
    by_cases h0 : t.prevId = firstKey
    · exact (isRealCredId_iff.1 h.real).1 (he.trans (h.pool.headPrev ra (h0 ▸ h.prev)))
    · have hmem : t.prevId ∈ ids := by
        have : t.prevId ∈ firstKey :: ids := by rw [h.last]; simp
        exact (List.mem_cons.1 this).resolve_left h0
      obtain ⟨ra', -, hra', -⟩ := h.pool.exists_neighbours hmem h.prev
      exact h.new_fresh (he ▸ h.pool.mem_of_read hra')
  have hne : t.nextId ≠ lastKey := h.new_ne_lastKey
  have htype : (((t.withNext (t.nextId + 1)).withPrev t.nextId).withPrev ra.credId).recordType = .credentialV1 := by
    simp [recordType_of_read h.tail]
  have hkey : (((t.withNext (t.nextId + 1)).withPrev t.nextId).withPrev ra.credId).credId = lastKey := h.tail_credId
  cases w₂ with
  | true =>
    refine ⟨_, _, hs, hstop.removed hedge h.new_ne_prev hnot (d := rn) ?_ h.credId, ?_⟩
    · rw [withPrev_prevId, h.read_new]; rfl
    · rw [applyAll_cons, applyAll_cons, applyAll_nil, readRecord_store htype, hkey, if_neg hne, readRecord_discard,
        withPrev_prevId, if_pos rfl]
  | false =>
    refine ⟨_, _, hs, hstop.relinked hedge h.new_ne_prev hnot ?_, ?_⟩
    · rw [withPrev_prevId, h.read_new]; rfl
    · rw [applyAll_cons, applyAll_nil, readRecord_store htype, hkey, if_neg hne, h.read_new]
      rfl

/-- The result of adding agrees with the pool after the boot if and only if the
third write worked exactly when the first two did. -/
theorem addAgrees_iff (h : Insertion p ids l t ra rn) (hlen : ids.length + 1 < credGcMaxScanId) :
    AfterBoot (inserted p t ra rn w₁ w₂ w₃) now (AddAgrees p ids (if w₃ = true then t.nextId else 0)) ↔
      (w₃ = true ↔ w₁ = true ∧ w₂ = true) := by
  have hn0 : t.nextId ≠ 0 := (isRealCredId_iff.1 h.real).1
  have hlen' : ids.length < credGcMaxScanId := Nat.lt_of_succ_lt hlen
  have hnotin : t.nextId ∉ ids := fun hm => h.new_fresh (by simp [hm])
  have hin : InPool (inserted p t ra rn true true true) t.nextId := ⟨_, h.wellFormed.toWellLinked, by simp⟩
  cases w₃ with
  | true =>
    simp only [if_true, true_iff]
    cases w₁ with
    | true =>
      cases w₂ with
      | true =>
        rw [afterBoot_iff (recovers_wellFormed h.wellFormed (by rwa [List.length_append]))]
        refine ⟨fun _ => ⟨rfl, rfl⟩, fun _ => ⟨fun _ => hin, fun h0 => absurd h0 hn0, fun id hid => ⟨?_, h.contents_eq hid⟩⟩⟩
        exact ⟨_, h.wellFormed.toWellLinked, by simp [hid]⟩
      | false =>
        rw [afterBoot_iff (recovers_refused (h.refused_missing hlen'))]
        exact ⟨fun hP => absurd (hP.1 hn0) not_inPool_emptyPool, fun hw => absurd hw.2 (by decide)⟩
    | false =>
      refine ⟨fun hP => ?_, fun hw => absurd hw.1 (by decide)⟩
      obtain ⟨tail, ws, hs, hrepair, hnone⟩ := h.repaired_stale_tail w₂ hlen'
      exact absurd ((hP.of_repair hs hrepair).1 hn0) (not_inPool_of_none hnone)
  | false =>
    simp only [Bool.false_eq_true, if_false, false_iff]
    cases w₁ with
    | true =>
      cases w₂ with
      | true =>
        rw [afterBoot_iff (h.recovers_stored hlen)]
        exact ⟨fun hP => absurd (hP.2.1 rfl _ hin) hnotin, fun hw => absurd ⟨rfl, rfl⟩ hw⟩
      | false =>
        rw [afterBoot_iff (h.recovers_linked hlen')]
        exact ⟨fun _ hw => absurd hw.2 (by decide), fun _ => addAgrees_self h.pool.toWellLinked⟩
    | false =>
      rw [afterBoot_iff (h.recovers_orphan hlen')]
      have hq : WellLinked (inserted p t ra rn false w₂ false) ids := h.wellLinked_orphan
      refine ⟨fun _ hw => absurd hw.1 (by decide), fun _ => ⟨fun h0 => absurd rfl h0, fun _ id hid => ?_, fun id hid => ?_⟩⟩
      · exact hq.inPool_iff.1 hid
      · exact ⟨⟨ids, hq, hid⟩, h.contents_eq hid⟩

end Insertion

/-! ## Removing -/

/-- What a result of `removeCred` for `x` says about the pool after the boot. -/
def RemoveAgrees (p : Nvs) (ids : List UInt32) (x result : UInt32) (q : Nvs) : Prop :=
  (result ≠ 0 → ¬InPool q x) ∧ ∀ id ∈ ids, id ≠ x → Kept p q id

namespace Deletion
variable {u v : List UInt32} {x : UInt32} {old ra rb : CredRecord} {w₁ w₂ w₃ : Bool}

theorem contents_eq (h : Deletion p ids u v x old ra rb) (hid : id ∈ ids) (hne : id ≠ x) :
    (readRecord (deleted p x old ra rb w₁ w₂ w₃) id).map CredRecord.contents =
      (readRecord p id).map CredRecord.contents := by
  by_cases ha : id = old.prevId
  · subst id
    rw [h.read_prev, h.prev]
    split <;> rfl
  · by_cases hb : id = old.nextId
    · subst id
      rw [h.read_next, h.next]
      split <;> rfl
    · rw [h.read, if_neg (by simp [hb]), if_neg (by simp [hne]), if_neg (by simp [ha])]

/-- Without `x` the pool is as it was, with its key still there or not. -/
theorem removeAgrees (h : Deletion p ids u v x old ra rb) : RemoveAgrees p ids x x (deleted p x old ra rb true w₂ true) := by
  have hq : WellLinked (deleted p x old ra rb true w₂ true) (ids.erase x) := h.wellLinked
  have hnodup := (nodes_nodup.1 h.pool.nodup).1
  refine ⟨fun _ hin => hnodup.not_mem_erase (hq.inPool_iff.1 hin), fun id hid hne => ⟨?_, h.contents_eq hid hne⟩⟩
  exact ⟨_, hq, (List.mem_erase_of_ne hne).2 hid⟩

/-- The two neighbours rewritten, `x` an orphan. -/
theorem recovers_orphan (h : Deletion p ids u v x old ra rb) (hlen : ids.length ≤ credGcMaxScanId) :
    RecoversTo begin .fresh (deleted p x old ra rb true false true) (deleted p x old ra rb true false true) := by
  refine recovers_sound h.wellLinked (fun k hk rk hrk => ?_) (Nat.lt_of_lt_of_le h.length_erase_lt hlen)
  have hk := List.mem_of_mem_erase hk
  rw [h.read] at hrk
  split at hrk
  · rename_i hb
    rw [← Option.some.inj hrk]
    exact h.pool.valid k hk rb (hb.2 ▸ h.next)
  · rw [if_neg (by simp)] at hrk
    split at hrk
    · rename_i ha
      rw [← Option.some.inj hrk]
      exact h.pool.valid k hk ra (ha.2 ▸ h.prev)
    · exact h.pool.valid k hk rk hrk

theorem prev_nextId (h : Deletion p ids u v x old ra rb) : ra.nextId = x := by
  have hc := h.pool.chained
  rw [Chained, h.split] at hc
  obtain ⟨-, hax, -⟩ := List.isChain_append_cons_cons.1 hc
  simpa [Fwd, h.prev] using hax.1

theorem real (h : Deletion p ids u v x old ra rb) : x ≠ firstKey ∧ x ≠ lastKey := isRealCredId_iff.1 (h.pool.real h.mem)

/-- TAIL does not follow the record before `x`. -/
theorem tail_prevId (h : Deletion p ids u v x old ra rb) {t : CredRecord} (ht : readRecord p lastKey = some t) :
    t.prevId ≠ old.prevId := by
  intro he
  obtain ⟨-, ra', -, hra', hnext⟩ := h.pool.last ht
  rw [he, h.prev] at hra'
  obtain rfl := Option.some.inj hra'
  exact h.real.2 (h.prev_nextId.symm.trans hnext)

/-- The first write missing, the record removed: the chain ends there. -/
theorem refused_gap (h : Deletion p ids u v x old ra rb) (hlen : ids.length < credGcMaxScanId)
    (hw : w₃ = true → old.nextId ≠ lastKey) : Refused (deleted p x old ra rb false true w₃) := by
  obtain ⟨t, ht, htid⟩ := h.pool.tail
  have hlast : readRecord (deleted p x old ra rb false true w₃) lastKey = some t := by
    rw [h.read, if_neg fun hf => hw hf.1 hf.2.symm, if_neg fun hf => h.real.2 hf.2.symm, if_neg (by simp), ht]
  have hs : Sentinels (deleted p x old ra rb false true w₃) t := by
    obtain ⟨tail, hs⟩ := h.exists_sentinels false true w₃
    exact ⟨hs.head, hlast, htid⟩
  have hscan : Scanned (deleted p x old ra rb false true w₃) u ra := h.scanned
  have hstop : Stops (deleted p x old ra rb false true w₃) t u ra := ⟨hs, hscan, Nat.lt_trans h.length_lt hlen⟩
  refine .chain hs fun r => hstop.interrupted ?_ ?_ ?_ ?_
  · rw [h.prev_nextId]; exact h.real.1
  · rw [h.prev_nextId, h.prev_credId]; exact h.ne.1.symm
  · rw [h.prev_nextId, h.read_own]; rfl
  · rw [h.prev_credId]; exact (h.tail_prevId ht).symm

/-- The first write missing, but TAIL's back link corrected: the last link is
taken back. -/
theorem recovers_gap (h : Deletion p ids u v x old ra rb) (hlen : ids.length < credGcMaxScanId)
    (hb : old.nextId = lastKey) :
    RecoversTo begin .fresh (deleted p x old ra rb true true true) (deleted p x old ra rb false true true) := by
  have hlast : readRecord (deleted p x old ra rb false true true) lastKey = some (rb.withPrev old.prevId) := by
    rw [← hb, h.read_next]; rfl
  have hs : Sentinels (deleted p x old ra rb false true true) (rb.withPrev old.prevId) := by
    obtain ⟨tail, hs⟩ := h.exists_sentinels false true true
    exact ⟨hs.head, hlast, h.next_credId.trans hb⟩
  have hscan : Scanned (deleted p x old ra rb false true true) u ra := h.scanned
  have hstop : Stops (deleted p x old ra rb false true true) (rb.withPrev old.prevId) u ra :=
    ⟨hs, hscan, Nat.lt_trans h.length_lt hlen⟩
  have hrepair := hstop.rolledBack (r := .fresh) (by rw [h.prev_nextId]; exact h.real.1)
    (by rw [h.prev_nextId, h.prev_credId]; exact h.ne.1.symm) (by rw [h.prev_nextId, h.read_own]; rfl) h.prev_credId
  refine recovers_repaired_one hs hrepair ?_ h.wellFormed (Nat.lt_trans h.length_erase_lt hlen)
  have hab : (ra.withNext lastKey).credId ≠ (rb.withPrev old.prevId).credId := by
    rw [withNext_credId, withPrev_credId, h.prev_credId, h.next_credId]
    exact h.ne.2.1
  have hax : (ra.withNext lastKey).credId ≠ x := by
    rw [withNext_credId, h.prev_credId]
    exact h.ne.1
  rw [deleted, deleted, hb, applyIf_true, applyIf_true, applyIf_true, applyIf_false, store_comm hab,
    store_discard_comm hax]
  rfl

/-- After only the last write the repair stops at the removed credential, whose
successor names the one before it. -/
theorem stops_stale_next (h : Deletion p ids u v x old ra rb) (hlen : ids.length < credGcMaxScanId) : ∃ tail,
    Stops (deleted p x old ra rb false false true) tail (u ++ [ra.credId]) old ∧
      Edge (deleted p x old ra rb false false true) old (rb.withPrev old.prevId) := by
  obtain ⟨tail, hs⟩ := h.exists_sentinels false false true
  have hscan : Scanned (deleted p x old ra rb false false true) u ra := h.scanned
  have hedge : Edge (deleted p x old ra rb false false true) ra old := by
    refine ⟨?_, ?_, ?_, ?_, ?_⟩
    · rw [h.prev_nextId]; exact h.real.1
    · rw [h.prev_nextId, h.prev_credId]; exact h.ne.1.symm
    · rw [h.prev_nextId, h.read_own]; rfl
    · rw [h.prev_nextId, h.own_credId]
    · exact fun _ => h.pool.valid x h.mem old h.own
  have hnext : Scanned (deleted p x old ra rb false false true) (u ++ [ra.credId]) old :=
    hscan.next hedge h.prev_credId.symm (by rw [h.own_credId]; exact h.real.2)
  have hshort : (u ++ [ra.credId]).length < credGcMaxScanId := by
    rw [List.length_append]
    exact Nat.lt_of_le_of_lt (Nat.succ_le_of_lt h.length_lt) hlen
  refine ⟨tail, ⟨hs, hnext, hshort⟩, ?_, ?_, ?_, h.next_credId, ?_⟩
  · intro he
    rcases List.mem_append.1 h.first_mem with hm | hm
    · exact h.ne.2.2.2.2.2.1 (he ▸ hm)
    · exact h.ne.2.1 ((List.mem_singleton.1 hm).symm.trans he.symm)
  · rw [h.own_credId]; exact h.ne.2.2.1.symm
  · rw [h.read_next]; rfl
  · intro hreal
    rw [withPrev_credId, h.next_credId] at hreal
    exact h.pool.valid _ (h.pool.mem_of_real hreal h.next) rb h.next

/-- At TAIL that is taken for an insert that was not finished, and the removed
credential is put back. -/
theorem repaired_stale_last (h : Deletion p ids u v x old ra rb) (hlen : ids.length < credGcMaxScanId)
    (hb : old.nextId = lastKey) : ∃ tail ws, Sentinels (deleted p x old ra rb false false true) tail ∧
      Traced repairCredChain (deleted p x old ra rb false false true) .fresh ws true .fresh ∧
      ¬RemoveAgrees p ids x x (applyAll ws (deleted p x old ra rb false false true)) := by
  obtain ⟨tail, hstop, hend⟩ := h.stops_stale_next hlen
  have hstale : (rb.withPrev old.prevId).prevId ≠ old.credId := by rw [withPrev_prevId, h.own_credId]; exact h.ne.1
  refine ⟨tail, _, hstop.sentinels, hstop.redone hend hstale ⟨rfl, h.next_credId.trans hb⟩, fun hP => ?_⟩
  obtain rfl : rb.withPrev old.prevId = tail := by
    have htail := hstop.sentinels.stored
    rw [← hb, hend.stored] at htail
    exact Option.some.inj htail
  refine hP.1 h.real.1 ⟨ids, ?_, h.mem⟩
  have hp : WellLinked ((store (((rb.withPrev old.prevId).withPrev old.credId).withNext (old.credId + 1))).apply p)
      ids := h.pool.toWellLinked.rewrite (r := rb) (by rw [withNext_credId, withPrev_credId, withPrev_credId, h.next_credId, h.next])
    (fun hne => absurd (h.next_credId.trans hb) hne) (by rw [withNext_prevId, withPrev_prevId, h.own_credId, h.next_prevId])
    (by simp [recordType_of_read h.next])
  have hkey : (((rb.withPrev old.prevId).withPrev old.credId).withNext (old.credId + 1)).credId =
      (rb.withPrev old.prevId).credId := rfl
  rw [applyAll_cons, applyAll_nil, deleted, applyIf_true, applyIf_false, applyIf_false, store_store hkey]
  exact hp

/-- Elsewhere it is taken for a delete of the record before the removed one. -/
theorem repaired_stale_inner (h : Deletion p ids u v x old ra rb) (hlen : ids.length < credGcMaxScanId)
    (hb : old.nextId ≠ lastKey) : ∃ tail ws, Sentinels (deleted p x old ra rb false false true) tail ∧
      Traced repairCredChain (deleted p x old ra rb false false true) .fresh ws true .fresh ∧
      ¬RemoveAgrees p ids x x (applyAll ws (deleted p x old ra rb false false true)) := by
  obtain ⟨tail, hstop, hend⟩ := h.stops_stale_next hlen
  have hstale : (rb.withPrev old.prevId).prevId ≠ old.credId := by rw [withPrev_prevId, h.own_credId]; exact h.ne.1
  have hnot : ¬((rb.withPrev old.prevId).prevId = old.prevId ∧ (rb.withPrev old.prevId).credId = lastKey) := fun hf =>
    hb (h.next_credId.symm.trans hf.2)
  have hprev : readRecord (deleted p x old ra rb false false true) (rb.withPrev old.prevId).prevId = some ra := by
    rw [withPrev_prevId, h.read_prev]; rfl
  have htype : ((rb.withPrev old.prevId).withPrev old.credId).recordType = .credentialV1 := by
    simp [recordType_of_read h.next]
  have hkey : ((rb.withPrev old.prevId).withPrev old.credId).credId = old.nextId := h.next_credId
  have hgone : readRecord (applyAll [discard (rb.withPrev old.prevId).prevId,
      store ((rb.withPrev old.prevId).withPrev old.credId)] (deleted p x old ra rb false false true)) old.prevId = none := by
    rw [applyAll_cons, applyAll_cons, applyAll_nil, readRecord_store htype, hkey, if_neg h.ne.2.1, readRecord_discard,
      withPrev_prevId, if_pos rfl]
  refine ⟨tail, _, hstop.sentinels, hstop.removed hend hstale hnot hprev h.prev_credId, fun hP => ?_⟩
  by_cases h0 : old.prevId = firstKey
  · have hmem : old.nextId ∈ ids := by
      have hm : old.nextId ∈ nodes ids := by simp [h.split]
      have hne : old.nextId ≠ firstKey := fun he => h.ne.2.1 (h0.trans he.symm)
      simpa [hb, hne] using hm
    obtain ⟨⟨ids', hids', -⟩, -⟩ := hP.2 _ hmem h.ne.2.2.1.symm
    obtain ⟨head, hhead, -⟩ := hids'.head
    rw [← h0, hgone] at hhead
    contradiction
  · have hmem : old.prevId ∈ ids := by
      have hm : old.prevId ∈ nodes ids := by simp [h.split]
      have hne : old.prevId ≠ lastKey := fun he => by
        rcases List.mem_cons.1 (he ▸ h.last_mem) with hm | hm
        · exact h.ne.2.1 hm
        · exact h.ne.2.2.2.2.2.2.1 hm
      simpa [h0, hne] using hm
    exact not_inPool_of_none hgone (hP.2 _ hmem h.ne.1).1

/-- Only the last write worked: at TAIL the removed credential is put back, and
elsewhere the one before it is removed in its place. -/
theorem repaired_stale_next (h : Deletion p ids u v x old ra rb) (hlen : ids.length < credGcMaxScanId) :
    ∃ tail ws, Sentinels (deleted p x old ra rb false false true) tail ∧
      Traced repairCredChain (deleted p x old ra rb false false true) .fresh ws true .fresh ∧
      ¬RemoveAgrees p ids x x (applyAll ws (deleted p x old ra rb false false true)) := by
  by_cases hb : old.nextId = lastKey
  · exact h.repaired_stale_last hlen hb
  · exact h.repaired_stale_inner hlen hb

/-- Unlinked from the record before it, the credential is gone after the boot. -/
theorem removeAgrees_unlinked (h : Deletion p ids u v x old ra rb) (hlen : ids.length < credGcMaxScanId) :
    AfterBoot (deleted p x old ra rb true w₂ w₃) now (RemoveAgrees p ids x x) := by
  have hle := Nat.le_of_lt hlen
  cases w₂ with
  | true =>
    cases w₃ with
    | true => exact (afterBoot_iff (recovers_wellFormed h.wellFormed (Nat.lt_trans h.length_erase_lt hlen))).2 h.removeAgrees
    | false => exact (afterBoot_iff (h.recovers_discarded hle)).2 h.removeAgrees
  | false =>
    cases w₃ with
    | true => exact (afterBoot_iff (h.recovers_orphan hle)).2 h.removeAgrees
    | false => exact (afterBoot_iff (h.recovers_unlinked hle)).2 h.removeAgrees

/-- A gap before TAIL is closed by the boot; elsewhere the pool is given up. -/
theorem removeAgrees_gap (h : Deletion p ids u v x old ra rb) (hlen : ids.length < credGcMaxScanId) :
    AfterBoot (deleted p x old ra rb false true true) now (RemoveAgrees p ids x x) ↔ old.nextId = lastKey := by
  by_cases hb : old.nextId = lastKey
  · rw [afterBoot_iff (h.recovers_gap hlen hb)]
    exact iff_of_true h.removeAgrees hb
  · rw [afterBoot_iff (recovers_refused (h.refused_gap hlen fun _ => hb))]
    refine iff_of_false (fun hP => ?_) hb
    have hmem : old.nextId ∈ ids := by
      have hm : old.nextId ∈ nodes ids := by simp [h.split]
      have hne : old.nextId ≠ firstKey := fun he => by
        rcases List.mem_append.1 h.first_mem with hm | hm
        · exact h.ne.2.2.2.2.2.1 (he ▸ hm)
        · exact h.ne.2.1 ((List.mem_singleton.1 hm).symm.trans he.symm)
      simpa [hb, hne] using hm
    exact not_inPool_emptyPool (hP.2 _ hmem h.ne.2.2.1.symm).1

/-- With only the record removed the pool is given up. -/
theorem removeAgrees_dangling (h : Deletion p ids u v x old ra rb) (hlen : ids.length < credGcMaxScanId) :
    AfterBoot (deleted p x old ra rb false true false) now (RemoveAgrees p ids x x) ↔ ids = [x] := by
  rw [afterBoot_iff (recovers_refused (h.refused_gap hlen (by simp)))]
  constructor
  · intro hP
    have hall : ∀ id ∈ ids, id = x := fun id hid => by
      by_contra hne
      exact not_inPool_emptyPool (hP.2 id hid hne).1
    have hone : ids.length ≤ 1 := by
      have hnodup := (nodes_nodup.1 h.pool.nodup).1
      rw [List.eq_replicate_of_mem hall] at hnodup
      simpa using List.nodup_replicate.1 hnodup
    have hlen1 : ids.length = 1 := Nat.le_antisymm hone (List.length_pos_of_mem h.mem)
    rw [List.eq_replicate_of_mem hall, hlen1]
    rfl
  · rintro rfl
    exact ⟨fun _ => not_inPool_emptyPool, fun id hid hne => absurd (List.mem_singleton.1 hid) hne⟩

/-- The result of removing agrees with the pool after the boot if and only if
the first write worked, or the removal did and either the pool held nothing
else or the back link of TAIL was written. -/
theorem removeAgrees_iff (h : Deletion p ids u v x old ra rb) (hlen : ids.length < credGcMaxScanId) :
    AfterBoot (deleted p x old ra rb w₁ w₂ w₃) now (RemoveAgrees p ids x x) ↔
      w₁ = true ∨ (w₂ = true ∧ ((w₃ = true ∧ old.nextId = lastKey) ∨ (w₃ = false ∧ ids = [x]))) := by
  cases w₁ with
  | true => exact iff_of_true (h.removeAgrees_unlinked hlen) (.inl rfl)
  | false =>
    simp only [Bool.false_eq_true, false_or]
    cases w₂ with
    | true =>
      cases w₃ with
      | true => simpa using h.removeAgrees_gap hlen
      | false => simpa using h.removeAgrees_dangling hlen
    | false =>
      simp only [Bool.false_eq_true, false_and, iff_false]
      cases w₃ with
      | true =>
        obtain ⟨tail, ws, hs, hrepair, hno⟩ := h.repaired_stale_next hlen
        exact fun hP => hno (hP.of_repair hs hrepair)
      | false =>
        have hself : RecoversTo begin .fresh p (deleted p x old ra rb false false false) := recovers_wellFormed h.pool hlen
        rw [afterBoot_iff hself]
        exact fun hP => hP.1 h.real.1 ⟨ids, h.pool.toWellLinked, h.mem⟩

end Deletion

/-! ## The sentinels -/

/-- The id after the last one is the key of TAIL: the new record takes its
place, and only the last write can put it back. -/
theorem addAgrees_iff_lastKey {t ra credIn : CredRecord} (hp : WellFormed p ids) (hlen : ids.length < credGcMaxScanId)
    (ht : readRecord p lastKey = some t) (hra : readRecord p t.prevId = some ra) (hc : credIn.recordType = .credentialV1)
    (hlast : t.nextId = lastKey) (w₁ w₂ w₃ : Bool) :
    AfterBoot (inserted p t ra (newRecord credIn t) w₁ w₂ w₃) now (AddAgrees p ids (if w₃ = true then t.nextId else 0)) ↔
      w₃ = false := by
  cases w₃ with
  | true =>
    simp only [if_true, Bool.true_eq_false, iff_false]
    rintro ⟨a, s, -, hP⟩
    exact not_inPool_lastKey (hlast ▸ hP.1 (by rw [hlast]; decide))
  | false =>
    simp only [Bool.false_eq_true, if_false, iff_true]
    obtain ⟨l, ra', hsplit, hra', hnext⟩ := hp.last ht
    obtain rfl := Option.some.inj (hra.symm.trans hra')
    have hid : ra.credId = t.prevId := hp.read_credId (hp.mem_of_read hra) hra
    -- The first write stores the record before TAIL as it was.
    have hfirst : (store (ra.withNext t.nextId)).applyIf w₁ p = p := by
      cases w₁ with
      | false => rfl
      | true =>
        rw [applyIf_true, withNext_of_eq (hnext.trans hlast.symm)]
        exact store_of_read (by rw [hid, hra])
    have hkey : (newRecord credIn t).credId = lastKey := hlast
    have htype : (newRecord credIn t).recordType = .credentialV1 := hc
    rw [inserted, applyIf_false, hfirst]
    cases w₂ with
    | false =>
      rw [applyIf_false, afterBoot_iff (recovers_wellFormed hp hlen)]
      exact addAgrees_self hp.toWellLinked
    | true =>
      have hq : WellFormed ((store (newRecord credIn t)).apply p) ids := by
        refine hp.rewrite (r := t) (by rw [hkey, ht]) (fun hne => absurd hkey hne) (fun _ k hk => ?_) rfl htype ?_
        · have := hp.below k hk t ht
          rwa [hlast] at this
        · rw [hkey]; exact fun hr => absurd hr (by decide)
      rw [applyIf_true, afterBoot_iff (recovers_wellFormed hq hlen)]
      refine ⟨fun h0 => absurd rfl h0, fun _ id hid => hq.toWellLinked.inPool_iff.1 hid, fun id hid => ⟨⟨ids, hq.toWellLinked, hid⟩, ?_⟩⟩
      rw [readRecord_store htype, hkey, if_neg (isRealCredId_iff.1 (hp.real hid)).2]

/-- Removing HEAD, which takes a text on it: its neighbours are rewritten as
they were. -/
theorem removeAgrees_iff_firstKey {head rb : CredRecord} (hp : WellFormed p ids) (hlen : ids.length < credGcMaxScanId)
    (hhead : readRecord p firstKey = some head) (hrb : readRecord p head.nextId = some rb) (w₁ w₂ w₃ : Bool) :
    AfterBoot (deleted p firstKey head head rb w₁ w₂ w₃) now (RemoveAgrees p ids firstKey 0) ↔ w₂ = false ∨ ids = [] := by
  have hheadPrev := hp.headPrev head hhead
  have hid : head.credId = firstKey := hp.read_credId (by simp) hhead
  have hrbid : rb.credId = head.nextId := hp.read_credId (hp.mem_of_read hrb) hrb
  have hfirst : (store (head.withNext head.nextId)).applyIf w₁ p = p := by
    cases w₁ with
    | false => rfl
    | true => exact store_of_read (by rw [withNext_of_eq rfl, hid, hhead])
  obtain ⟨hne, hback⟩ : head.nextId ≠ firstKey ∧ rb.prevId = firstKey := by
    have hc := hp.chained
    have hn := hp.nodup
    obtain ⟨k, l, hl⟩ : ∃ k l, nodes ids = firstKey :: k :: l := by
      cases ids with
      | nil => exact ⟨lastKey, [], rfl⟩
      | cons k l => exact ⟨k, l ++ [lastKey], rfl⟩
    rw [Chained, hl] at hc
    rw [hl] at hn
    obtain ⟨hfwd, hbwd⟩ := (List.isChain_cons_cons.1 hc).1
    have hk : head.nextId = k := by simpa [Fwd, hhead] using hfwd
    refine ⟨fun he => ?_, ?_⟩
    · exact (List.nodup_cons.1 hn).1 (by simp [← hk, he])
    · simpa [Bwd, ← hk, hrb] using hbwd
  have hlast : ∀ q, readRecord q head.nextId = some rb → (store (rb.withPrev head.prevId)).applyIf w₃ q = q := fun q hq => by
    cases w₃ with
    | false => rfl
    | true => exact store_of_read (by rw [withPrev_of_eq (hback.trans hheadPrev.symm), hrbid, hq])
  rw [deleted, hfirst]
  cases w₂ with
  | false =>
    -- HEAD stays, and the other two writes change nothing.
    rw [applyIf_false, hlast p hrb, afterBoot_iff (recovers_wellFormed hp hlen)]
    exact iff_of_true ⟨fun h0 => absurd rfl h0, fun id hid _ => hp.toWellLinked.kept hid⟩ (.inl rfl)
  | true =>
    have hrb' : readRecord ((discard firstKey).apply p) head.nextId = some rb := by
      rw [readRecord_discard, if_neg hne, hrb]
    -- Without HEAD the boot drops the pool.
    have hgone : Refused ((discard firstKey).apply p) := .sentinels (by
      rintro ⟨t, ⟨head', hhead', -⟩, -⟩
      rw [readRecord_discard, if_pos rfl] at hhead'
      contradiction)
    rw [applyIf_true, hlast _ hrb', afterBoot_iff (recovers_refused hgone)]
    simp only [Bool.true_eq_false, false_or]
    constructor
    · intro hP
      refine List.eq_nil_iff_forall_not_mem.2 fun id hid => not_inPool_emptyPool (hP.2 id hid ?_).1
      exact (isRealCredId_iff.1 (hp.real hid)).1
    · rintro rfl
      exact ⟨fun h0 => absurd rfl h0, fun id hid => absurd hid List.not_mem_nil⟩

/-- Removing TAIL, which takes a text on it and the last id: its key is gone
until the last write. -/
theorem removeAgrees_iff_lastKey {t ra : CredRecord} (hp : WellFormed p ids) (hlen : ids.length < credGcMaxScanId)
    (ht : readRecord p lastKey = some t) (hra : readRecord p t.prevId = some ra) (hlast : t.nextId = lastKey)
    (w₁ w₂ w₃ : Bool) :
    AfterBoot (deleted p lastKey t ra t w₁ w₂ w₃) now (RemoveAgrees p ids lastKey lastKey) ↔
      w₂ = false ∨ w₃ = true ∨ ids = [] := by
  obtain ⟨l, ra', -, hra', hnext⟩ := hp.last ht
  obtain rfl := Option.some.inj (hra.symm.trans hra')
  have hid : ra.credId = t.prevId := hp.read_credId (hp.mem_of_read hra) hra
  have htid : t.credId = lastKey := hp.read_credId (by simp) ht
  have hfirst : (store (ra.withNext t.nextId)).applyIf w₁ p = p := by
    cases w₁ with
    | false => rfl
    | true =>
      rw [applyIf_true, withNext_of_eq (hnext.trans hlast.symm)]
      exact store_of_read (by rw [hid, hra])
  have hsame : t.withPrev t.prevId = t := withPrev_of_eq rfl
  have hself : AfterBoot p now (RemoveAgrees p ids lastKey lastKey) :=
    (afterBoot_iff (recovers_wellFormed hp hlen)).2 ⟨fun _ => not_inPool_lastKey, fun id hid _ => hp.toWellLinked.kept hid⟩
  have hback : (store t).apply p = p := store_of_read (by rw [htid, ht])
  rw [deleted, hfirst, hsame]
  cases w₂ with
  | false =>
    refine iff_of_true ?_ (.inl rfl)
    cases w₃ with
    | false => exact hself
    | true => rwa [applyIf_false, applyIf_true, hback]
  | true =>
    cases w₃ with
    | true =>
      have hput : (store t).apply ((discard lastKey).apply p) = p := by
        rw [← htid, store_discard, hback]
      rw [applyIf_true, applyIf_true, hput]
      exact iff_of_true hself (.inr (.inl rfl))
    | false =>
      have hgone : readRecord ((discard lastKey).apply p) lastKey = none := by rw [readRecord_discard, if_pos rfl]
      rw [applyIf_true, applyIf_false, afterBoot_iff (recovers_refused (refused_of_no_tail hgone))]
      simp only [Bool.true_eq_false, Bool.false_eq_true, false_or]
      constructor
      · intro hP
        refine List.eq_nil_iff_forall_not_mem.2 fun id hid => not_inPool_emptyPool (hP.2 id hid ?_).1
        exact (isRealCredId_iff.1 (hp.real hid)).2
      · rintro rfl
        exact ⟨fun _ => not_inPool_lastKey, fun id hid => absurd hid List.not_mem_nil⟩

/-! ## The two calls -/

/-- What `addCred` reports agrees with the pool after the next boot. -/
def AddReliable (p : Nvs) (ids : List UInt32) (rec : CacheRecord) (fs : List Fault) (r : CredStorage) (now : UInt64) :
    Prop :=
  ∃ newId s, addCred rec ⟨p, fs, r⟩ = .ret newId s ∧ AfterBoot s.blobs now (AddAgrees p ids newId)

/-- What `removeCred` reports agrees with the pool after the next boot. -/
def RemoveReliable (p : Nvs) (ids : List UInt32) (rec : CacheRecord) (fs : List Fault) (r : CredStorage) (now : UInt64) :
    Prop :=
  ∃ removed s, removeCred rec ⟨p, fs, r⟩ = .ret removed s ∧
    AfterBoot s.blobs now (RemoveAgrees p ids rec.credId removed)

/-- `addCred` refuses, or has no id left and keeps TAIL, or its last write
works exactly when the first two do. -/
def AddSettled (p : Nvs) (rec : CacheRecord) (w₁ w₂ w₃ : Bool) : Prop :=
  validateCred rec = false ∨ ∃ t, readRecord p lastKey = some t ∧
    (t.nextId = 0 ∨ (t.nextId = lastKey ∧ w₃ = false) ∨
      (isRealCredId t.nextId = true ∧ (w₃ = true ↔ w₁ = true ∧ w₂ = true)))

/-- `removeCred` refuses, or the credential is unlinked from the one before it
at least, or the links that are left can be told from an insert. -/
def RemoveSettled (p : Nvs) (ids : List UInt32) (rec : CacheRecord) (w₁ w₂ w₃ : Bool) : Prop :=
  ∀ old ra rb, Removes p rec old ra rb →
    (isRealCredId rec.credId = true →
      w₁ = true ∨ (w₂ = true ∧ ((w₃ = true ∧ old.nextId = lastKey) ∨ (w₃ = false ∧ ids = [rec.credId])))) ∧
    (rec.credId = firstKey → w₂ = false ∨ ids = []) ∧
    (rec.credId = lastKey → w₂ = false ∨ w₃ = true ∨ ids = [])

/-- What `addCred` reports and leaves for a credential it accepts. -/
theorem addReliable_iff {t ra : CredRecord} (rec : CacheRecord) (hv : validateCred rec = true) (ht : readRecord p lastKey = some t)
    (hra : readRecord p t.prevId = some ra) (hfs : Fault.powerLost ∉ fs) (r : CredStorage) (now : UInt64) :
    AddReliable p ids rec fs r now ↔
      AfterBoot (inserted p t ra (newRecord (newCredRecord rec) t) (nextWorks fs) (nextWorks fs.tail)
        (nextWorks fs.tail.tail)) now (AddAgrees p ids (if nextWorks fs.tail.tail = true then t.nextId else 0)) := by
  have hadd : ∀ newId q fs', insertCred (newCredRecord rec) t ra ⟨p, fs, r⟩ = .ret newId ⟨q, fs', r⟩ →
      ∃ r', addCred rec ⟨p, fs, r⟩ = .ret newId ⟨q, fs', r'⟩ := by
    intro newId q fs' h
    rw [addCred_valid ht hra hv, bind_apply, h, andThen_ret]
    by_cases h0 : newId = 0
    · exact ⟨r, by rw [h0, addDone_zero]⟩
    · exact ⟨_, addDone_of_ne h0⟩
  obtain ⟨r', hadd⟩ := hadd _ _ _ (insertCred_of_mem (recordType_of_read ht) (recordType_of_read hra) rfl hfs)
  constructor
  · rintro ⟨newId, s, hcall, hboot⟩
    obtain ⟨rfl, rfl⟩ := Outcome.ret.inj (hadd.symm.trans hcall)
    exact hboot
  · exact fun hboot => ⟨_, _, hadd, hboot⟩

/-- With no id left nothing is stored, whichever writes work. -/
theorem addAgrees_exhausted {t ra credIn : CredRecord} (hp : WellFormed p []) (ht : readRecord p lastKey = some t)
    (hra : readRecord p t.prevId = some ra) (htype : credIn.recordType = .credentialV1) (h0 : t.nextId = 0) (now : UInt64) :
    AfterBoot (inserted p t ra (newRecord credIn t) w₁ w₂ w₃) now (AddAgrees p [] 0) := by
  rcases exhausted_cases hp ht hra htype h0 w₁ w₂ w₃ with hq | hq
  · rw [afterBoot_iff (recovers_wellFormed hq (by decide))]
    exact ⟨fun h => absurd rfl h, fun _ id hid => hq.toWellLinked.inPool_iff.1 hid, fun id hid => absurd hid List.not_mem_nil⟩
  · rw [afterBoot_iff (recovers_refused hq)]
    exact ⟨fun h => absurd rfl h, fun _ id hid => absurd hid not_inPool_emptyPool, fun id hid => absurd hid List.not_mem_nil⟩

theorem addCred_reliable_iff (rec : CacheRecord) (hp : WellFormed p ids) (hlen : ids.length ≤ 4094)
    (hfs : Fault.powerLost ∉ fs) (r : CredStorage) (now : UInt64) :
    AddReliable p ids rec fs r now ↔
      AddSettled p rec (nextWorks fs) (nextWorks fs.tail) (nextWorks fs.tail.tail) := by
  have hlen' : ids.length < credGcMaxScanId := Nat.lt_of_le_of_lt hlen (by decide)
  by_cases hv : validateCred rec = true
  · obtain ⟨t, ra, l, ht, hra, hl⟩ := hp.toWellLinked.exists_tail
    have hsettled : ∀ w₁ w₂ w₃, AddSettled p rec w₁ w₂ w₃ ↔ t.nextId = 0 ∨ (t.nextId = lastKey ∧ w₃ = false) ∨
        (isRealCredId t.nextId = true ∧ (w₃ = true ↔ w₁ = true ∧ w₂ = true)) := fun w₁ w₂ w₃ => by
      simp [AddSettled, hv, ht]
    rw [addReliable_iff rec hv ht hra hfs, hsettled]
    by_cases h0 : t.nextId = 0
    · have hids := hp.eq_nil_of_nextId ht h0
      subst hids
      have hsame : (if nextWorks fs.tail.tail = true then t.nextId else 0) = 0 := by simp [h0]
      rw [hsame]
      exact iff_of_true (addAgrees_exhausted hp ht hra rfl h0 now) (.inl h0)
    by_cases hlast : t.nextId = lastKey
    · have hreal : isRealCredId t.nextId = false := by rw [hlast]; decide
      rw [addAgrees_iff_lastKey hp hlen' ht hra rfl hlast]
      constructor
      · exact fun hw => .inr (.inl ⟨hlast, hw⟩)
      · rintro (h | ⟨-, hw⟩ | ⟨h, -⟩)
        · exact absurd h h0
        · exact hw
        · rw [hreal] at h
          contradiction
    · have hreal : isRealCredId t.nextId = true := isRealCredId_iff.2 ⟨h0, hlast⟩
      have hins : Insertion p ids l t ra (newRecord (newCredRecord rec) t) :=
        ⟨hp, ht, hra, hl, hreal, rfl, rfl, rfl, newCredRecord_valid hv hreal⟩
      rw [hins.addAgrees_iff (Nat.lt_of_le_of_lt (Nat.succ_le_succ hlen) (by decide))]
      simp [h0, hlast, hreal]
  · have hv : validateCred rec = false := by simpa using hv
    refine iff_of_true ⟨0, _, addCred_invalid hv _, ?_⟩ (.inl hv)
    exact (afterBoot_iff (recovers_wellFormed hp hlen')).2 (addAgrees_self hp.toWellLinked)

/-- What `removeCred` reports and leaves for a credential it finds. -/
theorem removeReliable_iff {ra rb : CredRecord} (rec : CacheRecord) (hp : WellFormed p ids) (hr : Removes p rec old ra rb)
    (hfs : Fault.powerLost ∉ fs) (r : CredStorage) (now : UInt64) : RemoveReliable p ids rec fs r now ↔
      AfterBoot (deleted p rec.credId old ra rb (nextWorks fs) (nextWorks fs.tail) (nextWorks fs.tail.tail)) now
        (RemoveAgrees p ids rec.credId rec.credId) := by
  have hcall : ∃ s, removeCred rec ⟨p, fs, r⟩ = .ret rec.credId s ∧ s.blobs = deleted p rec.credId old ra rb
      (nextWorks fs) (nextWorks fs.tail) (nextWorks fs.tail.tail) := by
    rw [removeCred_removes hp hr, bind_apply,
      unlinkCred_of_mem _ _ (recordType_of_read hr.prev) (recordType_of_read hr.next) hfs]
    exact ⟨_, rfl, rfl⟩
  obtain ⟨s, hcall, hblobs⟩ := hcall
  rw [← hblobs]
  constructor
  · rintro ⟨removed, s', hcall', hboot⟩
    obtain ⟨rfl, rfl⟩ := Outcome.ret.inj (hcall.symm.trans hcall')
    exact hboot
  · exact fun hboot => ⟨_, s, hcall, hboot⟩

theorem removeSettled_iff {ra rb : CredRecord} {rec : CacheRecord} (hr : Removes p rec old ra rb) :
    RemoveSettled p ids rec w₁ w₂ w₃ ↔
      (isRealCredId rec.credId = true →
        w₁ = true ∨ (w₂ = true ∧ ((w₃ = true ∧ old.nextId = lastKey) ∨ (w₃ = false ∧ ids = [rec.credId])))) ∧
      (rec.credId = firstKey → w₂ = false ∨ ids = []) ∧
      (rec.credId = lastKey → w₂ = false ∨ w₃ = true ∨ ids = []) := by
  constructor
  · exact fun h => h old ra rb hr
  · intro h old' ra' rb' hr'
    obtain rfl := Option.some.inj (hr.stored.symm.trans hr'.stored)
    exact h

/-- TAIL of a pool with no id left is removed, or nothing is. -/
theorem removeAgrees_exhausted {t ra rb : CredRecord} (hp : WellFormed p []) (ht : readRecord p lastKey = some t)
    (hra : readRecord p t.prevId = some ra) (hrb : readRecord p t.nextId = some rb) (h0 : t.nextId = 0) (now : UInt64) :
    AfterBoot (deleted p lastKey t ra rb w₁ w₂ w₃) now (RemoveAgrees p [] lastKey lastKey) := by
  have hagrees : ∀ q, RemoveAgrees p [] lastKey lastKey q := fun q =>
    ⟨fun _ => not_inPool_lastKey, fun id hid => absurd hid List.not_mem_nil⟩
  rcases tail_removal_cases hp ht hra hrb h0 w₁ w₂ w₃ with hq | hq
  · exact (afterBoot_iff (recovers_wellFormed hq (by decide))).2 (hagrees _)
  · exact (afterBoot_iff (recovers_refused hq)).2 (hagrees _)

theorem removeCred_reliable_iff (rec : CacheRecord) (hp : WellFormed p ids) (hlen : ids.length ≤ 4094)
    (hfs : Fault.powerLost ∉ fs) (r : CredStorage) (now : UInt64) :
    RemoveReliable p ids rec fs r now ↔
      RemoveSettled p ids rec (nextWorks fs) (nextWorks fs.tail) (nextWorks fs.tail.tail) := by
  have hlen' : ids.length < credGcMaxScanId := Nat.lt_of_le_of_lt hlen (by decide)
  by_cases hr : ∃ old ra rb, Removes p rec old ra rb
  · obtain ⟨old, ra, rb, hr⟩ := hr
    rw [removeReliable_iff rec hp hr hfs, removeSettled_iff hr]
    -- What is removed is HEAD, a credential or TAIL.
    rcases mem_nodes.1 (hp.mem_of_read hr.stored) with h0 | hmem | h1
    · have hstored := h0 ▸ hr.stored
      have hra : ra = old := by
        have hprev := hr.prev
        rw [hp.headPrev old hstored, hstored] at hprev
        exact (Option.some.inj hprev).symm
      have hreal : isRealCredId firstKey = false := by decide
      have hne : firstKey ≠ lastKey := by decide
      rw [h0, hra]
      refine (removeAgrees_iff_firstKey hp hlen' hstored hr.next _ _ _).trans ?_
      simp [hreal, hne]
    · obtain ⟨u, v, hsplit⟩ := hp.neighbours hmem hr.stored
      have hdel : Deletion p ids u v rec.credId old ra rb := ⟨hp, hmem, hsplit, hr.stored, hr.prev, hr.next⟩
      obtain ⟨h0, h1⟩ := isRealCredId_iff.1 (hp.real hmem)
      rw [hdel.removeAgrees_iff hlen']
      simp [h0, h1, hp.real hmem]
    · have hstored := h1 ▸ hr.stored
      have hreal : isRealCredId lastKey = false := by decide
      have hne : lastKey ≠ firstKey := by decide
      rw [h1]
      by_cases hlast : old.nextId = lastKey
      · have hrb : rb = old := by
          have hnext := hr.next
          rw [hlast, hstored] at hnext
          exact (Option.some.inj hnext).symm
        rw [hrb, removeAgrees_iff_lastKey hp hlen' hstored hr.prev hlast]
        simp [hreal, hne]
      · have h0 : old.nextId = 0 := by
          by_contra h0
          exact hp.nextId_fresh hstored (isRealCredId_iff.2 ⟨h0, hlast⟩) (hp.mem_of_read hr.next)
        have hids := hp.eq_nil_of_nextId hstored h0
        subst hids
        exact iff_of_true (removeAgrees_exhausted hp hstored hr.prev hr.next h0 now) (by simp [hreal, hne])
  · have hno : ∀ old ra rb, ¬Removes p rec old ra rb := by simpa using hr
    refine iff_of_true ⟨0, _, removeCred_refused hp hno, ?_⟩ fun old ra rb hr => absurd hr (hno old ra rb)
    exact (afterBoot_iff (recovers_wellFormed hp hlen')).2
      ⟨fun h0 => absurd rfl h0, fun id hid _ => hp.toWellLinked.kept hid⟩

/-- Whatever single writes fail, what the two calls report is exact precisely
when the writes that failed are harmless. -/
theorem reported_results_agree_iff (hp : WellFormed p ids) (hlen : ids.length ≤ 4094) (hfs : Fault.powerLost ∉ fs)
    (rec : CacheRecord) (r : CredStorage) (now : UInt64) :
    (AddReliable p ids rec fs r now ↔
        AddSettled p rec (nextWorks fs) (nextWorks fs.tail) (nextWorks fs.tail.tail)) ∧
      (RemoveReliable p ids rec fs r now ↔
        RemoveSettled p ids rec (nextWorks fs) (nextWorks fs.tail) (nextWorks fs.tail.tail)) :=
  ⟨addCred_reliable_iff rec hp hlen hfs r now, removeCred_reliable_iff rec hp hlen hfs r now⟩

theorem reported_results_onePool :
    (AddReliable onePool [1] (toCacheRecord (sampleCred 0 0 0)) [.fails] .fresh 0 ↔
        AddSettled onePool (toCacheRecord (sampleCred 0 0 0)) false true true) ∧
      (RemoveReliable onePool [1] (toCacheRecord (sampleCred 0 0 0)) [.fails] .fresh 0 ↔
        RemoveSettled onePool [1] (toCacheRecord (sampleCred 0 0 0)) false true true) :=
  reported_results_agree_iff onePool_wellFormed (by decide) (by decide) _ .fresh 0

/-- The credential of `onePool`, and a copy of it still to be added. -/
def oneCred : CacheRecord := toCacheRecord (sampleCred 1 firstKey lastKey)

/-- A credential reported as refused is there after the boot, and one reported
as removed as well. -/
theorem results_misreported :
    WellFormed onePool [1] ∧ ¬AddReliable onePool [1] oneCred [.works, .works, .fails] .fresh 0 ∧
      ¬RemoveReliable onePool [1] oneCred [.fails, .fails, .fails] .fresh 0 := by
  refine ⟨onePool_wellFormed, fun h => ?_, fun h => ?_⟩
  · have hsettled := (addCred_reliable_iff oneCred onePool_wellFormed (by decide) (by decide) .fresh 0).1 h
    rcases hsettled with hv | ⟨t, ht, hrest⟩
    · exact absurd hv (by decide)
    · have hnext : t.nextId = 2 := Option.some.inj ((congrArg (Option.map CredRecord.nextId) ht).symm.trans (by decide))
      rw [hnext] at hrest
      exact absurd hrest (by decide)
  · have hsettled := (removeCred_reliable_iff oneCred onePool_wellFormed (by decide) (by decide) .fresh 0).1 h
    have hremoves : ∃ old ra rb, Removes onePool oneCred old ra rb :=
      ⟨sampleCred 1 firstKey lastKey, _, _, by decide, by decide, by decide, rfl, rfl⟩
    obtain ⟨old, ra, rb, hr⟩ := hremoves
    exact absurd ((hsettled old ra rb hr).1 (by decide)) (by simp [nextWorks])

end OrangeBox.PassStore
