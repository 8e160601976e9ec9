import OrangeBox.Lib.Linked
import OrangeBox.PassStore.Storage
/-!
# Credential pools

A pool is a doubly linked list in flash, from HEAD (key 0) to TAIL
(key 0xFFFFFFFF). `WellLinked` is what the code needs to walk it; `WellFormed`
adds what `addCred`, `updateCred` and `removeCred` maintain: valid credentials,
no other keys, and every id below the next one to be given out.

A record rewritten in place leaves a pool well formed (`WellFormed.rewrite`).
-/
open Flash Linked

namespace OrangeBox.PassStore

/-! ## Keys -/

theorem hexDigit_inj {a b : Nat} (ha : a < 16) (hb : b < 16) (h : hexDigit a = hexDigit b) : a = b := by
  have key : ∀ a b : Fin 16, hexDigit a = hexDigit b → a = b := by decide
  exact congrArg Fin.val (key ⟨a, ha⟩ ⟨b, hb⟩ h)

theorem credKey_inj {a b : UInt32} (h : credKey a = credKey b) : a = b := by
  have hdigit : ∀ i, i < 8 → a.toNat / 16 ^ i % 16 = b.toNat / 16 ^ i % 16 := by
    intro i hi
    refine hexDigit_inj (Nat.mod_lt _ (by decide)) (Nat.mod_lt _ (by decide)) ?_
    simp only [credKey, List.map_cons, List.map_nil, List.cons.injEq, and_true] at h
    obtain ⟨h7, h6, h5, h4, h3, h2, h1, h0⟩ := h
    interval_cases i <;> assumption
  have ha := a.toNat_lt
  have hb := b.toNat_lt
  have h0 := hdigit 0 (by decide)
  have h1 := hdigit 1 (by decide)
  have h2 := hdigit 2 (by decide)
  have h3 := hdigit 3 (by decide)
  have h4 := hdigit 4 (by decide)
  have h5 := hdigit 5 (by decide)
  have h6 := hdigit 6 (by decide)
  have h7 := hdigit 7 (by decide)
  apply UInt32.toNat_inj.1
  simp only [Nat.reducePow, Nat.div_one] at *
  omega

theorem credKey_firstKey : credKey firstKey = firstKeyKey := by decide

/-! ## Reading and writing records -/

/-- Write `r` under its own id. -/
def store (r : CredRecord) : Write Key Blob := .put (credKey r.credId) (.record r)

/-- Remove the key of `id`. -/
def discard (id : UInt32) : Write Key Blob := .remove (credKey id)

theorem readRecord_eq_some {p : Nvs} {id : UInt32} {r : CredRecord} :
    readRecord p id = some r ↔ p (credKey id) = some (.record r) ∧ r.recordType = .credentialV1 := by
  rw [readRecord]
  split
  · rename_i r' hp
    simp only [hp, Option.some.injEq, Blob.record.injEq]
    split
    · simp only [Option.some.injEq]
      exact ⟨fun h => ⟨h, h ▸ ‹_›⟩, fun h => h.1⟩
    · simp only [reduceCtorEq, false_iff]
      rintro ⟨rfl, h⟩
      contradiction
  · simp_all

theorem recordType_of_read {p : Nvs} {id : UInt32} {r : CredRecord} (h : readRecord p id = some r) :
    r.recordType = .credentialV1 := (readRecord_eq_some.1 h).2

theorem writeData_eq {r : CredRecord} (h : r.recordType = .credentialV1) : writeData r = write (store r) := by
  simp [writeData, h, store]

@[simp] theorem readData_apply (id : UInt32) (s : Sys Key Blob CredStorage) :
    readData id s = .ret (readRecord s.blobs id) s := rfl

theorem readRecord_store {p : Nvs} {r : CredRecord} (h : r.recordType = .credentialV1) (id : UInt32) :
    readRecord ((store r).apply p) id = if id = r.credId then some r else readRecord p id := by
  split
  · subst id
    exact readRecord_eq_some.2 ⟨put_apply_self _ _ _, h⟩
  · rename_i hne
    simp only [readRecord, store, put_apply_of_ne _ p (mt credKey_inj hne)]

theorem readRecord_discard {p : Nvs} (id id' : UInt32) :
    readRecord ((discard id).apply p) id' = if id' = id then none else readRecord p id' := by
  split
  · subst id'
    simp [readRecord, discard]
  · rename_i hne
    simp only [readRecord, discard, remove_apply_of_ne p (mt credKey_inj hne)]

theorem readRecord_storeIf {p : Nvs} {r : CredRecord} (h : r.recordType = .credentialV1) (w : Bool) (id : UInt32) :
    readRecord ((store r).applyIf w p) id = if w = true ∧ id = r.credId then some r else readRecord p id := by
  cases w <;> simp [readRecord_store h]

theorem readRecord_discardIf {p : Nvs} (id : UInt32) (w : Bool) (id' : UInt32) :
    readRecord ((discard id).applyIf w p) id' = if w = true ∧ id' = id then none else readRecord p id' := by
  cases w <;> simp [readRecord_discard]

@[simp] theorem readRecord_none (id : UInt32) : readRecord (fun _ => none) id = none := rfl

theorem store_isSome {r : CredRecord} {p : Nvs} {key : Key} (h : (store r).apply p key ≠ none) :
    p key ≠ none ∨ key = credKey r.credId := by
  by_cases hk : key = credKey r.credId
  · exact .inr hk
  · exact .inl (by rwa [store, put_apply_of_ne _ p hk] at h)

theorem discard_isSome {id : UInt32} {p : Nvs} {key : Key} (h : (discard id).apply p key ≠ none) :
    p key ≠ none ∧ key ≠ credKey id := by
  by_cases hk : key = credKey id
  · subst hk; simp [discard] at h
  · exact ⟨by rwa [discard, remove_apply_of_ne p hk] at h, hk⟩

/-- Writing back what is stored changes nothing. -/
theorem store_of_read {p : Nvs} {r : CredRecord} (h : readRecord p r.credId = some r) : (store r).apply p = p := by
  simp only [store, Write.apply, ← (readRecord_eq_some.1 h).1, Function.update_eq_self]

theorem store_store {p : Nvs} {r r' : CredRecord} (h : r.credId = r'.credId) :
    (store r).apply ((store r').apply p) = (store r).apply p := by
  simp only [store, Write.apply, h, Function.update_idem]

theorem store_discard {p : Nvs} {r : CredRecord} :
    (store r).apply ((discard r.credId).apply p) = (store r).apply p := by
  simp only [store, discard, Write.apply, Function.update_idem]

theorem store_comm {p : Nvs} {r r' : CredRecord} (h : r.credId ≠ r'.credId) :
    (store r).apply ((store r').apply p) = (store r').apply ((store r).apply p) :=
  Function.update_comm (mt credKey_inj h.symm) _ _ _

theorem store_discard_comm {p : Nvs} {r : CredRecord} {id : UInt32} (h : r.credId ≠ id) :
    (store r).apply ((discard id).apply p) = (discard id).apply ((store r).apply p) :=
  Function.update_comm (mt credKey_inj h.symm) _ _ _

/-! ## Pools -/

/-- The keys from HEAD to TAIL. -/
def nodes (ids : List UInt32) : List UInt32 := firstKey :: (ids ++ [lastKey])

/-- `b` follows `a`, and both records say so. -/
abbrev Neighbours (p : Nvs) (a b : UInt32) : Prop := Link CredRecord.nextId CredRecord.prevId (readRecord p) a b

/-- The keys are chained by `nextId` and `prevId`. -/
abbrev Chained (p : Nvs) (l : List UInt32) : Prop := Chain CredRecord.nextId CredRecord.prevId (readRecord p) l

/-- Every key holds a readable record of that id. -/
def Keyed (p : Nvs) (l : List UInt32) : Prop := ∀ k ∈ l, ∃ r, readRecord p k = some r ∧ r.credId = k

/-- `nextId` leads from HEAD through `ids` to TAIL without repetition, every
record is stored under its id and every `prevId` names the predecessor. -/
structure WellLinked (p : Nvs) (ids : List UInt32) : Prop where
  keyed : Keyed p (nodes ids)
  chained : Chained p (nodes ids)
  nodup : (nodes ids).Nodup

/-- A pool as the operations leave it. -/
structure WellFormed (p : Nvs) (ids : List UInt32) : Prop extends WellLinked p ids where
  headPrev : ∀ r, readRecord p firstKey = some r → r.prevId = firstKey
  valid : ∀ k ∈ ids, ∀ r, readRecord p k = some r → isStoredCredValid r = true
  only : ∀ key, p key ≠ none → ∃ k ∈ nodes ids, key = credKey k
  below : ∀ k ∈ ids, ∀ r, readRecord p lastKey = some r → k < r.nextId

@[simp] theorem mem_nodes {ids : List UInt32} {k : UInt32} :
    k ∈ nodes ids ↔ k = firstKey ∨ k ∈ ids ∨ k = lastKey := by
  simp [nodes]

theorem nodes_nodup {ids : List UInt32} :
    (nodes ids).Nodup ↔ ids.Nodup ∧ firstKey ∉ ids ∧ lastKey ∉ ids := by
  simp only [nodes, List.nodup_cons, List.mem_append, List.mem_singleton, List.nodup_append, List.nodup_nil,
    List.not_mem_nil]
  grind

section Facts
variable {p : Nvs} {ids : List UInt32} {k : UInt32}

theorem WellLinked.head (h : WellLinked p ids) : ∃ r, readRecord p firstKey = some r ∧ r.credId = firstKey :=
  h.keyed firstKey (by simp)

theorem WellLinked.tail (h : WellLinked p ids) : ∃ r, readRecord p lastKey = some r ∧ r.credId = lastKey :=
  h.keyed lastKey (by simp)

theorem WellLinked.real (h : WellLinked p ids) (hk : k ∈ ids) : isRealCredId k = true := by
  obtain ⟨-, h0, h1⟩ := nodes_nodup.1 h.nodup
  exact isRealCredId_iff.2 ⟨fun he => h0 (he ▸ hk), fun he => h1 (he ▸ hk)⟩

theorem WellLinked.read_credId (h : WellLinked p ids) (hk : k ∈ nodes ids) {r : CredRecord}
    (hr : readRecord p k = some r) : r.credId = k := by
  obtain ⟨r', hr', hid⟩ := h.keyed k hk
  obtain rfl := Option.some.inj (hr.symm.trans hr')
  exact hid

/-- A path from HEAD to TAIL has no repetition. -/
theorem WellLinked.of_path {l : List UInt32} (hstart : ∃ l', l = firstKey :: l') (hlast : lastKey ∉ l)
    (hkeyed : Keyed p (l ++ [lastKey])) (hchain : Chained p (l ++ [lastKey])) :
    ∃ ids, l = firstKey :: ids ∧ WellLinked p ids := by
  obtain ⟨ids, rfl⟩ := hstart
  exact ⟨ids, rfl, hkeyed, hchain, path_nodup hchain.fwd hlast⟩

/-- The chain from HEAD determines the ids. -/
theorem WellLinked.unique {ids' : List UInt32} (h : WellLinked p ids) (h' : WellLinked p ids') : ids = ids' :=
  path_unique h.chained.fwd h'.chained.fwd (nodes_nodup.1 h.nodup).2.2 (nodes_nodup.1 h'.nodup).2.2

theorem exists_nodes (hk : k ∈ ids) :
    ∃ u a b v, nodes ids = u ++ a :: k :: b :: v := by
  obtain ⟨l, l', hl⟩ := List.append_of_mem hk
  obtain ⟨u, a, hu⟩ : ∃ u a, firstKey :: l = u ++ [a] := ⟨_, _, (List.dropLast_append_getLast (by simp)).symm⟩
  obtain ⟨b, v, hv⟩ : ∃ b v, l' ++ [lastKey] = b :: v := List.exists_cons_of_ne_nil (by simp)
  refine ⟨u, a, b, v, ?_⟩
  calc nodes ids = (firstKey :: l) ++ k :: (l' ++ [lastKey]) := by simp [nodes, hl]
    _ = u ++ a :: k :: b :: v := by rw [hu, hv]; simp

/-- The record before TAIL. -/
theorem exists_last (ids : List UInt32) : ∃ l a, firstKey :: ids = l ++ [a] ∧ nodes ids = l ++ [a, lastKey] := by
  obtain ⟨l, a, hl⟩ : ∃ l a, firstKey :: ids = l ++ [a] :=
    ⟨_, _, (List.dropLast_append_getLast (List.cons_ne_nil firstKey ids)).symm⟩
  exact ⟨l, a, hl, by rw [nodes, ← List.cons_append, hl]; simp⟩

/-- Outside the pool nothing is stored. -/
theorem WellFormed.read_none (h : WellFormed p ids) (hk : k ∉ nodes ids) : readRecord p k = none := by
  cases hp : p (credKey k) with
  | none => simp [readRecord, hp]
  | some b =>
    obtain ⟨k', hk', he⟩ := h.only (credKey k) (by simp [hp])
    exact absurd (credKey_inj he ▸ hk') hk

theorem WellFormed.mem_of_read (h : WellFormed p ids) {r : CredRecord} (hr : readRecord p k = some r) :
    k ∈ nodes ids := by
  by_contra hk
  simp [h.read_none hk] at hr

/-- A record that is no sentinel is on the chain. -/
theorem WellFormed.mem_of_real (h : WellFormed p ids) (hreal : isRealCredId k = true) {r : CredRecord}
    (hr : readRecord p k = some r) : k ∈ ids := by
  obtain ⟨h0, h1⟩ := isRealCredId_iff.1 hreal
  simpa [h0, h1] using h.mem_of_read hr

/-- The next id to be given out names no record. -/
theorem WellFormed.nextId_fresh (h : WellFormed p ids) {r : CredRecord} (hr : readRecord p lastKey = some r)
    (hreal : isRealCredId r.nextId = true) : r.nextId ∉ nodes ids := by
  obtain ⟨h0, h1⟩ := isRealCredId_iff.1 hreal
  simp only [mem_nodes, not_or]
  exact ⟨h0, fun hm => absurd (h.below _ hm r hr) (UInt32.lt_irrefl _), h1⟩

/-- After the last id there is room only for an empty pool. -/
theorem WellFormed.eq_nil_of_nextId (h : WellFormed p ids) {r : CredRecord} (hr : readRecord p lastKey = some r)
    (h0 : r.nextId = 0) : ids = [] := by
  refine List.eq_nil_iff_forall_not_mem.2 fun k hk => ?_
  have := h.below k hk r hr
  rw [h0] at this
  exact absurd this UInt32.not_lt_zero

/-- The neighbours of a credential in the chain. -/
theorem WellLinked.neighbours (h : WellLinked p ids) (hk : k ∈ ids) {r : CredRecord} (hr : readRecord p k = some r) :
    ∃ u v, nodes ids = u ++ r.prevId :: k :: r.nextId :: v := by
  obtain ⟨u, a, b, v, hl⟩ := exists_nodes hk
  have hc := h.chained
  rw [Chained, hl] at hc
  obtain ⟨-, ⟨-, hak⟩, hc⟩ := List.isChain_append_cons_cons.1 hc
  obtain ⟨⟨hkb, -⟩, -⟩ := List.isChain_cons_cons.1 hc
  simp only [Bwd, Fwd, hr, Option.map_some, Option.some.injEq] at hak hkb
  exact ⟨u, v, by rw [hak, hkb, hl]⟩

/-- The record before TAIL. -/
theorem WellLinked.last (h : WellLinked p ids) {t : CredRecord} (ht : readRecord p lastKey = some t) :
    ∃ l ra, firstKey :: ids = l ++ [t.prevId] ∧ readRecord p t.prevId = some ra ∧ ra.nextId = lastKey := by
  obtain ⟨l, a, hl, hn⟩ := exists_last ids
  have hc := h.chained
  rw [Chained, hn] at hc
  obtain ⟨-, hfwd, hbwd⟩ := chain_append_pair.1 hc
  simp only [Bwd, ht, Option.map_some, Option.some.injEq] at hbwd
  obtain ⟨ra, hra, hnext⟩ := fwd_iff.1 hfwd
  exact ⟨l, ra, by rw [hbwd, hl], by rw [hbwd, hra], hnext⟩

end Facts

/-! ## Changing a pool -/

section Changes
variable {p q : Nvs} {ids : List UInt32} {k : UInt32} {l : List UInt32} {r : CredRecord}

theorem Keyed.after_store (h : Keyed p l) (hr : r.recordType = .credentialV1) : Keyed ((store r).apply p) l := by
  intro k hk
  rw [readRecord_store hr]
  split
  · exact ⟨r, rfl, Eq.symm ‹_›⟩
  · exact h k hk

theorem Keyed.subset {l' : List UInt32} (h : Keyed p l) (hl : l' ⊆ l) : Keyed p l' := fun k hk => h k (hl hk)

/-- Rewriting a record without touching its links. TAIL's `nextId` is not one. -/
theorem WellLinked.rewrite (h : WellLinked p ids) {r' : CredRecord} (hr : readRecord p r'.credId = some r)
    (hnext : r'.credId ≠ lastKey → r'.nextId = r.nextId) (hprev : r'.prevId = r.prevId)
    (htype : r'.recordType = .credentialV1) : WellLinked ((store r').apply p) ids where
  keyed := h.keyed.after_store htype
  chained := by
    refine h.chained.congr (fun k hk => ?_) (fun k _ => ?_)
    · rw [readRecord_store htype]
      split
      · subst k
        have hne : r'.credId ≠ lastKey := by
          intro he
          rw [he, nodes, ← List.cons_append, List.dropLast_concat] at hk
          have hn := h.nodup
          rw [nodes, ← List.cons_append] at hn
          exact (List.nodup_append.1 hn).2.2 _ hk lastKey (by simp) rfl
        simp [hr, hnext hne]
      · rfl
    · rw [readRecord_store htype]
      split
      · subst k; simp [hr, hprev]
      · rfl
  nodup := h.nodup

theorem WellFormed.rewrite (h : WellFormed p ids) {r' : CredRecord} (hr : readRecord p r'.credId = some r)
    (hnext : r'.credId ≠ lastKey → r'.nextId = r.nextId) (hbelow : r'.credId = lastKey → ∀ k ∈ ids, k < r'.nextId)
    (hprev : r'.prevId = r.prevId) (htype : r'.recordType = .credentialV1)
    (hvalid : isRealCredId r'.credId = true → isStoredCredValid r' = true) : WellFormed ((store r').apply p) ids where
  toWellLinked := h.toWellLinked.rewrite hr hnext hprev htype
  headPrev r₁ h₁ := by
    rw [readRecord_store htype] at h₁
    split at h₁
    · rename_i hk
      obtain rfl := Option.some.inj h₁
      rw [← hk] at hr
      rw [hprev, h.headPrev r hr]
    · exact h.headPrev r₁ h₁
  valid k hk r₁ h₁ := by
    rw [readRecord_store htype] at h₁
    split at h₁
    · obtain rfl := Option.some.inj h₁
      subst k
      exact hvalid (h.real hk)
    · exact h.valid k hk r₁ h₁
  only key hkey := by
    rcases store_isSome hkey with hkey | rfl
    · exact h.only key hkey
    · exact h.only _ (by simp [(readRecord_eq_some.1 hr).1])
  below k hk r₁ h₁ := by
    rw [readRecord_store htype] at h₁
    split at h₁
    · rename_i he
      obtain rfl := Option.some.inj h₁
      exact hbelow he.symm k hk
    · exact h.below k hk r₁ h₁

end Changes

/-! ## Sample pools -/

/-- The flash with just these records. -/
def flashOf (records : List CredRecord) : Nvs := applyAll (records.map store) fun _ => none

/-- The PIN 123456 of a credential named A, for door 1, to be used five times. -/
def sampleCred (credId prevId nextId : UInt32) : CredRecord :=
  { CredRecord.zero with
    credId := credId
    prevId := prevId
    nextId := nextId
    doorNum := 1
    name := ⟨[65], by decide, by decide⟩
    credential := ⟨[49, 50, 51, 52, 53, 54], by decide, by decide⟩
    remaining := 5 }

end OrangeBox.PassStore
