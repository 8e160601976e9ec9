import OrangeBox.PassStore.Boot
import OrangeBox.PassStore.Ops
/-!
# Booting after an interrupted operation

What `begin` makes of a pool that is well formed, of one in the middle of an
insert or a delete, and of one it cannot repair. Each boot may itself be cut.
-/
open Flash Linked

namespace OrangeBox.PassStore

variable {p : Nvs} {ids : List UInt32} {tail c n : CredRecord}

/-! ## A sound pool -/

/-- The scan gets through a linked pool of valid credentials. -/
theorem WellLinked.stops (h : WellLinked p ids)
    (hvalid : ∀ k ∈ ids, ∀ r, readRecord p k = some r → isStoredCredValid r = true)
    (hlen : ids.length < credGcMaxScanId) :
    ∃ pre c t, Stops p t pre c ∧ Edge p c t ∧ t.prevId = c.credId ∧ t.credId = lastKey := by
  obtain ⟨t, ht, htid⟩ := h.tail
  obtain ⟨l, c, hl, hc, hnext⟩ := h.last ht
  have hsub : ∀ k ∈ l ++ [t.prevId], k = firstKey ∨ k ∈ ids := fun k hk => by
    rw [← hl] at hk
    exact List.mem_cons.1 hk
  have hmem : t.prevId ∈ nodes ids := by
    rcases hsub t.prevId (by simp) with hk | hk <;> simp [hk]
  have hcid : c.credId = t.prevId := h.read_credId hmem hc
  obtain ⟨hnodup, h0, h1⟩ := nodes_nodup.1 h.nodup
  have hchain := h.chained
  rw [Chained, nodes, ← List.cons_append, hl] at hchain
  have hne : lastKey ∉ l ++ [t.prevId] := by rw [← hl]; simp only [List.mem_cons, not_or]; exact ⟨by decide, h1⟩
  have hscan : Scanned p l c := by
    refine Scanned.of_chained ⟨ids, hl.symm⟩ (h.keyed.subset fun k hk => ?_) hchain.left_of_append ?_ hne ?_
      (by rw [hcid]) (by rw [hcid, hc])
    · rcases hsub k hk with rfl | hk <;> simp [*]
    · rw [← hl]; exact List.nodup_cons.2 ⟨h0, hnodup⟩
    · intro k hk hk0 r hr
      exact hvalid k ((hsub k hk).resolve_left hk0) r hr
  have hlen' : l.length < credGcMaxScanId := by
    have := congrArg List.length hl
    simp only [List.length_cons, List.length_append, List.length_nil] at this
    omega
  refine ⟨l, c, t, ⟨⟨h.head, ht, htid⟩, hscan, hlen'⟩, ⟨?_, ?_, ?_, ?_, ?_⟩, hcid.symm, htid⟩
  · rw [hnext]; decide
  · rw [hnext, hcid]
    exact fun he => hne (by simp [he])
  · rw [hnext, ht]
  · rw [hnext, htid]
  · rw [htid]; exact fun hr => absurd hr (by decide)

/-- Such a pool boots without a write. -/
theorem begin_sound (now : UInt64) (r : CredStorage) (h : WellLinked p ids)
    (hvalid : ∀ k ∈ ids, ∀ r, readRecord p k = some r → isStoredCredValid r = true)
    (hlen : ids.length < credGcMaxScanId) :
    ∃ m, Traced (begin now) p r [] true { r with credsCache := cacheOf p now ids, maxCredId := m } := by
  obtain ⟨pre, c, t, hstop, he, hprev, hlast⟩ := h.stops hvalid hlen
  exact begin_repaired now hstop.sentinels (hstop.done he hprev hlast) h

theorem recovers_sound (h : WellLinked p ids)
    (hvalid : ∀ k ∈ ids, ∀ r, readRecord p k = some r → isStoredCredValid r = true)
    (hlen : ids.length < credGcMaxScanId) : RecoversTo begin .fresh p p := by
  refine RecoversTo.refl fun now => ?_
  obtain ⟨m, hm⟩ := begin_sound now .fresh h hvalid hlen
  exact ⟨_, _, hm⟩

theorem begin_wellFormed (now : UInt64) (r : CredStorage) (h : WellFormed p ids) (hlen : ids.length < credGcMaxScanId) :
    ∃ m, Traced (begin now) p r [] true { r with credsCache := cacheOf p now ids, maxCredId := m } :=
  begin_sound now r h.toWellLinked h.valid hlen

theorem recovers_wellFormed (h : WellFormed p ids) (hlen : ids.length < credGcMaxScanId) :
    RecoversTo begin .fresh p p := recovers_sound h.toWellLinked h.valid hlen

/-! ## A pool beyond repair -/

/-- The empty flash, and one with HEAD only: the reset was cut. -/
theorem resetWrites_take (p : Nvs) (k : Nat) (hk : 0 < k) :
    applyAll (resetWrites.take k) p = emptyPool ∨ Refused (applyAll (resetWrites.take k) p) := by
  match k, hk with
  | 1, _ => exact .inr (.sentinels (by rintro ⟨tail, -, htail, -⟩; simp [resetWrites] at htail))
  | 2, _ =>
    refine .inr (.sentinels ?_)
    rintro ⟨tail, -, htail, -⟩
    have hread : readRecord (applyAll (resetWrites.take 2) p) lastKey = none := by
      have : applyAll (resetWrites.take 2) p = (store emptyHead).apply fun _ => none := rfl
      rw [this, readRecord_store rfl]
      rfl
    rw [hread] at htail
    contradiction
  | k + 3, _ => exact .inl (by rw [List.take_of_length_le (by simp [resetWrites]), applyAll_resetWrites])

theorem recovers_refused (h : Refused p) : RecoversTo begin .fresh emptyPool p := by
  have hreset : ∀ p, Refused p → ∀ now, ∃ a r', Traced (begin now) p .fresh resetWrites a r' := fun p h now => by
    obtain ⟨m, hm⟩ := begin_resets now h
    exact ⟨_, _, hm⟩
  refine ⟨fun q => q = emptyPool ∨ Refused q, .inr h, ?_⟩
  rintro q (rfl | hq) now
  · obtain ⟨m, hm⟩ := begin_wellFormed now .fresh emptyPool_wellFormed (by decide)
    exact ⟨[], _, _, hm, rfl, fun k => .inl (by simp)⟩
  · obtain ⟨a, r', htr⟩ := hreset q hq now
    refine ⟨resetWrites, a, r', htr, rfl, fun k => ?_⟩
    cases k with
    | zero => exact .inr hq
    | succ k => exact resetWrites_take q _ (Nat.succ_pos k)

/-- A repair that writes its way to `q`. -/
theorem recovers_repaired {ws : List (Write Key Blob)} {q : Nvs} (hs : Sentinels p tail)
    (hrepair : Traced repairCredChain p .fresh ws true .fresh) (hq : applyAll ws p = q) (hlinked : WellLinked q ids)
    (hcut : ∀ k, 0 < k → RecoversTo begin .fresh q (applyAll (ws.take k) p)) : RecoversTo begin .fresh q p := by
  refine RecoversTo.of_traced fun now => ?_
  obtain ⟨m, hm⟩ := begin_repaired now hs hrepair (hq.symm ▸ hlinked)
  exact ⟨ws, _, _, hm, hq, hcut⟩

/-- A repair of a single write. -/
theorem recovers_repaired_one {w : Write Key Blob} {q : Nvs} (hs : Sentinels p tail)
    (hrepair : Traced repairCredChain p .fresh [w] true .fresh) (hq : w.apply p = q) (hpool : WellFormed q ids)
    (hlen : ids.length < credGcMaxScanId) : RecoversTo begin .fresh q p := by
  refine recovers_repaired hs hrepair hq hpool.toWellLinked fun k hk => ?_
  cases k with
  | zero => exact absurd hk (Nat.lt_irrefl 0)
  | succ k =>
    rw [List.take_succ_cons, List.take_nil, applyAll_cons, applyAll_nil, hq]
    exact recovers_wellFormed hpool hlen

/-! ## An interrupted insert -/

namespace Insertion
variable {l : List UInt32} {t ra rn : CredRecord} {w₁ w₂ w₃ : Bool}

theorem sentinels (h : Insertion p ids l t ra rn) :
    Sentinels (inserted p t ra rn w₁ w₂ w₃)
      (if w₃ = true then (t.withNext (t.nextId + 1)).withPrev t.nextId else t) where
  head := h.keyed firstKey (by simp)
  stored := by rw [h.read_tail]; split <;> rfl
  credId := by split <;> exact h.tail_credId

/-- The scan gets to the insertion point. -/
theorem scanned (h : Insertion p ids l t ra rn) :
    Scanned (inserted p t ra rn w₁ w₂ w₃) l (if w₁ = true then ra.withNext t.nextId else ra) := by
  have hid : (if w₁ = true then ra.withNext t.nextId else ra).credId = t.prevId := by
    split <;> exact h.prev_credId
  have hsub : l ++ [t.prevId] ⊆ nodes ids := fun k hk => by
    rw [← h.last] at hk
    rcases List.mem_cons.1 hk with rfl | hk <;> simp [*]
  refine Scanned.of_chained ⟨ids, h.last.symm⟩ (h.keyed.subset hsub) h.chained_prev ?_ ?_ ?_ (by rw [hid])
    (by rw [hid, h.read_prev]; split <;> rfl)
  · have := h.pool.nodup
    rw [h.nodes_eq, List.append_cons] at this
    exact (List.nodup_append.1 this).1
  · exact fun hm => (h.path_ne hm).1 rfl
  · intro k hk hk0 r hr
    have hmem : k ∈ ids := by
      rw [← h.last] at hk
      exact (List.mem_cons.1 hk).resolve_left hk0
    rcases List.mem_append.1 hk with hk | hk
    · rw [h.read_of_mem hk] at hr
      exact h.pool.valid k hmem r hr
    · obtain rfl := List.mem_singleton.1 hk
      rw [h.read_prev] at hr
      have := h.pool.valid _ hmem ra h.prev
      split at hr <;> (obtain rfl := Option.some.inj hr; exact this)

theorem new_ne_prev (h : Insertion p ids l t ra rn) : t.nextId ≠ ra.credId := by
  rw [h.prev_credId]; exact (h.path_ne (by simp)).2.symm

theorem length_eq (h : Insertion p ids l t ra rn) : l.length = ids.length := by
  simpa using (congrArg List.length h.last).symm

/-- After the first write: the link to the missing record is taken back. -/
theorem recovers_linked (h : Insertion p ids l t ra rn) (hlen : ids.length < credGcMaxScanId) :
    RecoversTo begin .fresh p (inserted p t ra rn true false false) := by
  have hscan : Scanned (inserted p t ra rn true false false) l (ra.withNext t.nextId) := h.scanned
  have hs : Sentinels (inserted p t ra rn true false false) t := h.sentinels
  have hstop : Stops (inserted p t ra rn true false false) t l (ra.withNext t.nextId) :=
    ⟨hs, hscan, by rw [h.length_eq]; exact hlen⟩
  obtain ⟨hn0, hn1⟩ := isRealCredId_iff.1 h.real
  have hrepair := hstop.rolledBack (r := .fresh) hn0 h.new_ne_prev (by simp [h.read_new]) h.prev_credId
  refine recovers_repaired_one hs hrepair ?_ h.pool hlen
  have hold : ra.withNext lastKey = ra := withNext_of_eq h.prev_nextId
  have hsame : (ra.withNext t.nextId).credId = ra.credId := rfl
  rw [withNext_withNext, hold, inserted, applyIf_true, applyIf_false, applyIf_false, store_store hsame.symm,
    store_of_read (by rw [h.prev_credId, h.prev])]

/-- After the second write: TAIL is written. -/
theorem recovers_stored (h : Insertion p ids l t ra rn) (hlen : ids.length + 1 < credGcMaxScanId) :
    RecoversTo begin .fresh (inserted p t ra rn true true true) (inserted p t ra rn true true false) := by
  have hs : Sentinels (inserted p t ra rn true true false) t := h.sentinels
  have hscan : Scanned (inserted p t ra rn true true false) l (ra.withNext t.nextId) := h.scanned
  obtain ⟨hn0, hn1⟩ := isRealCredId_iff.1 h.real
  have hedge : Edge (inserted p t ra rn true true false) (ra.withNext t.nextId) rn :=
    ⟨hn0, h.new_ne_prev, by simp [h.read_new], h.credId, fun _ => h.valid⟩
  have hnew : Scanned (inserted p t ra rn true true false) (l ++ [ra.credId]) rn :=
    hscan.next hedge (by rw [h.prevId, withNext_credId, h.prev_credId]) (by rw [h.credId]; exact hn1)
  have hstop : Stops (inserted p t ra rn true true false) t (l ++ [ra.credId]) rn :=
    ⟨hs, hnew, by rw [List.length_append, h.length_eq]; exact hlen⟩
  have hend : Edge (inserted p t ra rn true true false) rn t := by
    refine ⟨?_, ?_, ?_, ?_, ?_⟩
    · rw [h.nextId]; decide
    · rw [h.nextId, h.credId]; exact hn1.symm
    · rw [h.nextId, h.read_tail]; rfl
    · rw [h.nextId, h.tail_credId]
    · rw [h.tail_credId]; exact fun hr => absurd hr (by decide)
  have hstale : t.prevId ≠ rn.credId := by
    rw [h.credId]; exact (h.path_ne (by simp)).2
  have hrepair := hstop.redone (r := .fresh) hend hstale ⟨h.prevId.symm, h.tail_credId⟩
  refine recovers_repaired_one hs hrepair ?_ h.wellFormed (by rw [List.length_append]; exact hlen)
  rw [h.credId, withNext_withPrev]
  rfl

end Insertion

/-! ## An interrupted delete -/

namespace Deletion
variable {u v : List UInt32} {x : UInt32} {r ra rb : CredRecord} {w₁ w₂ w₃ : Bool}

theorem exists_sentinels (h : Deletion p ids u v x r ra rb) (w₁ w₂ w₃ : Bool) :
    ∃ tail, Sentinels (deleted p x r ra rb w₁ w₂ w₃) tail := by
  have hkeyed : Keyed (deleted p x r ra rb w₁ w₂ w₃) (nodes (ids.erase x)) := h.keyed
  obtain ⟨t, ht, htid⟩ := hkeyed lastKey (by simp)
  exact ⟨t, hkeyed firstKey (by simp), ht, htid⟩

/-- The scan gets to the record before the deleted one. -/
theorem scanned (h : Deletion p ids u v x r ra rb) :
    Scanned (deleted p x r ra rb w₁ w₂ w₃) u (if w₁ = true then ra.withNext r.nextId else ra) := by
  have hid : (if w₁ = true then ra.withNext r.nextId else ra).credId = r.prevId := by
    split <;> exact h.prev_credId
  have hnodup := h.pool.nodup
  rw [h.split, List.append_cons] at hnodup
  have hne : lastKey ∉ u ++ [r.prevId] := fun hm =>
    (List.nodup_append.1 hnodup).2.2 _ hm lastKey (List.mem_cons_of_mem _ h.last_mem) rfl
  refine Scanned.of_chained h.starts (h.keyed.subset fun k hk => ?_) h.chained_prev (List.nodup_append.1 hnodup).1 hne ?_
    (by rw [hid]) (by rw [hid, h.read_prev]; split <;> rfl)
  · rw [h.nodes_erase, List.append_cons]
    exact List.mem_append_left _ hk
  · intro k hk hk0 r' hr'
    have hmem : k ∈ ids := by
      have hkn : k ∈ nodes ids := by rw [h.split, List.append_cons]; exact List.mem_append_left _ hk
      rcases mem_nodes.1 hkn with hk' | hk' | rfl
      · exact absurd hk' hk0
      · exact hk'
      · exact absurd hk hne
    rcases List.mem_append.1 hk with hk | hk
    · rw [h.read_of_mem (List.mem_append_left _ hk)] at hr'
      exact h.pool.valid k hmem r' hr'
    · obtain rfl := List.mem_singleton.1 hk
      rw [h.read_prev] at hr'
      have := h.pool.valid _ hmem ra h.prev
      split at hr' <;> (obtain rfl := Option.some.inj hr'; exact this)

theorem length_lt (h : Deletion p ids u v x r ra rb) : u.length < ids.length := by
  have := congrArg List.length h.split
  simp only [nodes, List.length_cons, List.length_append, List.length_nil] at this
  omega

theorem length_erase_lt (h : Deletion p ids u v x r ra rb) : (ids.erase x).length < ids.length := by
  have := List.length_pos_of_mem h.mem
  rw [List.length_erase_of_mem h.mem]
  omega

/-- The record before the deleted one does not follow it. -/
theorem prev_prevId_ne (h : Deletion p ids u v x r ra rb) : ra.prevId ≠ x := by
  intro he
  by_cases h0 : r.prevId = firstKey
  · have := h.pool.headPrev ra (h0 ▸ h.prev)
    exact (isRealCredId_iff.1 (h.pool.real h.mem)).1 (he.symm.trans this)
  · have hmem : r.prevId ∈ ids := by
      have hm : r.prevId ∈ nodes ids := by simp [h.split]
      rcases mem_nodes.1 hm with hm | hm | hm
      · exact absurd hm h0
      · exact hm
      · have hl := h.last_mem
        rw [← hm] at hl
        rcases List.mem_cons.1 hl with hl | hl
        · exact absurd hl h.ne.2.1
        · exact absurd hl h.ne.2.2.2.2.2.2.1
    obtain ⟨r', -, hr', hnext, -⟩ := h.pool.exists_neighbours hmem h.prev
    rw [he, h.own] at hr'
    obtain rfl := Option.some.inj hr'
    exact h.ne.2.1 hnext.symm

/-- With the first write done, the link from the record before goes past `x`,
and the back link there is stale. -/
theorem stale (h : Deletion p ids u v x r ra rb) (w₂ : Bool) :
    Edge (deleted p x r ra rb true w₂ false) (ra.withNext r.nextId) rb ∧ rb.prevId ≠ (ra.withNext r.nextId).credId ∧
      ¬(rb.prevId = (ra.withNext r.nextId).prevId ∧ rb.credId = lastKey) := by
  have hstarts := h.first_mem
  refine ⟨⟨?_, ?_, ?_, h.next_credId, ?_⟩, ?_, ?_⟩
  · intro he
    have he : r.nextId = firstKey := he
    rw [← he] at hstarts
    rcases List.mem_append.1 hstarts with hm | hm
    · exact h.ne.2.2.2.2.2.1 hm
    · exact h.ne.2.1 (List.mem_singleton.1 hm).symm
  · rw [withNext_nextId, withNext_credId, h.prev_credId]
    exact h.ne.2.1.symm
  · rw [withNext_nextId, h.read_next]
    rfl
  · intro hreal
    have hm : r.nextId ∈ nodes ids := by simp [h.split]
    rw [h.next_credId] at hreal
    obtain ⟨h0, h1⟩ := isRealCredId_iff.1 hreal
    exact h.pool.valid _ (by simpa [h0, h1] using hm) rb h.next
  · rw [h.next_prevId, withNext_credId, h.prev_credId]
    exact h.ne.1.symm
  · rw [h.next_prevId]
    exact fun he => h.prev_prevId_ne he.1.symm

/-- After the second write: the back link is corrected. -/
theorem recovers_discarded (h : Deletion p ids u v x r ra rb) (hlen : ids.length ≤ credGcMaxScanId) :
    RecoversTo begin .fresh (deleted p x r ra rb true true true) (deleted p x r ra rb true true false) := by
  obtain ⟨tail, hs⟩ := h.exists_sentinels true true false
  have hscan : Scanned (deleted p x r ra rb true true false) u (ra.withNext r.nextId) := h.scanned
  have hstop : Stops (deleted p x r ra rb true true false) tail u (ra.withNext r.nextId) :=
    ⟨hs, hscan, Nat.lt_of_lt_of_le h.length_lt hlen⟩
  obtain ⟨hedge, hstale, hnot⟩ := h.stale true
  have hrepair := hstop.relinked (r := .fresh) hedge hstale hnot (by rw [h.next_prevId, h.read_own]; rfl)
  refine recovers_repaired_one hs hrepair ?_ h.wellFormed (Nat.lt_of_lt_of_le h.length_erase_lt hlen)
  rw [withNext_credId, h.prev_credId]
  rfl

/-- After the first write: the record is removed, and the back link corrected. -/
theorem recovers_unlinked (h : Deletion p ids u v x r ra rb) (hlen : ids.length ≤ credGcMaxScanId) :
    RecoversTo begin .fresh (deleted p x r ra rb true true true) (deleted p x r ra rb true false false) := by
  obtain ⟨tail, hs⟩ := h.exists_sentinels true false false
  have hscan : Scanned (deleted p x r ra rb true false false) u (ra.withNext r.nextId) := h.scanned
  have hstop : Stops (deleted p x r ra rb true false false) tail u (ra.withNext r.nextId) :=
    ⟨hs, hscan, Nat.lt_of_lt_of_le h.length_lt hlen⟩
  obtain ⟨hedge, hstale, hnot⟩ := h.stale false
  have hrepair := hstop.removed (r := .fresh) hedge hstale hnot (d := r) (by rw [h.next_prevId, h.read_own]; rfl)
    (by rw [h.next_prevId, h.own_credId])
  have hwhole : applyAll [discard rb.prevId, store (rb.withPrev (ra.withNext r.nextId).credId)]
      (deleted p x r ra rb true false false) = deleted p x r ra rb true true true := by
    rw [h.next_prevId, withNext_credId, h.prev_credId]
    rfl
  refine recovers_repaired hs hrepair hwhole h.wellFormed.toWellLinked fun k hk => ?_
  match k, hk with
  | 1, _ =>
    have : applyAll ([discard rb.prevId, store (rb.withPrev (ra.withNext r.nextId).credId)].take 1)
        (deleted p x r ra rb true false false) = deleted p x r ra rb true true false := by
      rw [h.next_prevId]
      rfl
    rw [this]
    exact h.recovers_discarded hlen
  | k + 2, _ =>
    rw [List.take_of_length_le (by simp), hwhole]
    exact recovers_wellFormed h.wellFormed (Nat.lt_of_lt_of_le h.length_erase_lt hlen)

end Deletion

end OrangeBox.PassStore
