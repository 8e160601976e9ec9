import OrangeBox.PassStore.Pool
/-!
# Inserting and deleting

`writeCred` appends a record and `removeCred` cuts one out, each with three
writes. `inserted` and `deleted` are the flash after any subset of the three:
a prefix of them when power is lost, any subset when calls fail. With all three
the pool is well formed again (`Insertion.wellFormed`, `Deletion.wellFormed`).
-/
open Flash Linked

namespace OrangeBox.PassStore

/-! ## Inserting -/

/-- The writes of `insertCred`, each done or not. -/
def inserted (p : Nvs) (t ra rn : CredRecord) (w₁ w₂ w₃ : Bool) : Nvs :=
  (store ((t.withNext (t.nextId + 1)).withPrev t.nextId)).applyIf w₃
    ((store rn).applyIf w₂ ((store (ra.withNext t.nextId)).applyIf w₁ p))

/-- What `insertCred` starts from: TAIL `t`, the record `ra` before it, and the
record `rn` to be linked in between, under an id that is free. -/
structure Insertion (p : Nvs) (ids l : List UInt32) (t ra rn : CredRecord) : Prop where
  pool : WellFormed p ids
  tail : readRecord p lastKey = some t
  prev : readRecord p t.prevId = some ra
  last : firstKey :: ids = l ++ [t.prevId]
  real : isRealCredId t.nextId = true
  credId : rn.credId = t.nextId
  prevId : rn.prevId = t.prevId
  nextId : rn.nextId = lastKey
  valid : isStoredCredValid rn = true

namespace Insertion
variable {p : Nvs} {ids l : List UInt32} {t ra rn : CredRecord} {w₁ w₂ w₃ : Bool} {k : UInt32}

theorem nodes_eq (h : Insertion p ids l t ra rn) : nodes ids = l ++ [t.prevId, lastKey] := by
  rw [nodes, ← List.cons_append, h.last]; simp

theorem tail_credId (h : Insertion p ids l t ra rn) : t.credId = lastKey := h.pool.read_credId (by simp) h.tail

theorem prev_credId (h : Insertion p ids l t ra rn) : ra.credId = t.prevId :=
  h.pool.read_credId (by simp [h.nodes_eq]) h.prev

theorem prev_nextId (h : Insertion p ids l t ra rn) : ra.nextId = lastKey := by
  obtain ⟨-, ra', -, hra', hnext⟩ := h.pool.last h.tail
  obtain rfl := Option.some.inj (h.prev.symm.trans hra')
  exact hnext

theorem new_ne_lastKey (h : Insertion p ids l t ra rn) : t.nextId ≠ lastKey := (isRealCredId_iff.1 h.real).2

theorem new_fresh (h : Insertion p ids l t ra rn) : t.nextId ∉ nodes ids := h.pool.nextId_fresh h.tail h.real

theorem prev_ne (h : Insertion p ids l t ra rn) (hk : k ∈ l) : k ≠ t.prevId := by
  have hn := h.pool.nodup
  rw [h.nodes_eq] at hn
  rintro rfl
  exact (List.nodup_append.1 hn).2.2 _ hk _ (by simp) rfl

theorem path_ne (h : Insertion p ids l t ra rn) (hk : k ∈ l ++ [t.prevId]) : k ≠ lastKey ∧ k ≠ t.nextId := by
  have hn := h.pool.nodup
  rw [h.nodes_eq, List.append_cons, List.nodup_append] at hn
  refine ⟨fun he => hn.2.2 _ hk _ (by simp) he, ?_⟩
  rintro rfl
  exact h.new_fresh (by rw [h.nodes_eq, List.append_cons]; exact List.mem_append_left _ hk)

/-- What is read back after any subset of the writes. -/
theorem read (h : Insertion p ids l t ra rn) (k : UInt32) :
    readRecord (inserted p t ra rn w₁ w₂ w₃) k =
      if w₃ = true ∧ k = lastKey then some ((t.withNext (t.nextId + 1)).withPrev t.nextId)
      else if w₂ = true ∧ k = t.nextId then some rn
      else if w₁ = true ∧ k = t.prevId then some (ra.withNext t.nextId)
      else readRecord p k := by
  have ht : ((t.withNext (t.nextId + 1)).withPrev t.nextId).recordType = .credentialV1 := by
    simp [recordType_of_read h.tail]
  have ha : (ra.withNext t.nextId).recordType = .credentialV1 := by simp [recordType_of_read h.prev]
  rw [inserted, readRecord_storeIf ht, readRecord_storeIf (recordType_of_valid h.valid), readRecord_storeIf ha]
  simp only [withPrev_credId, withNext_credId, h.tail_credId, h.prev_credId, h.credId]

/-- Off the three keys nothing changes. -/
theorem read_of_mem (h : Insertion p ids l t ra rn) (hk : k ∈ l) :
    readRecord (inserted p t ra rn w₁ w₂ w₃) k = readRecord p k := by
  have hne := h.path_ne (List.mem_append_left _ hk)
  simp [h.read, hne, h.prev_ne hk]

theorem read_prev (h : Insertion p ids l t ra rn) :
    readRecord (inserted p t ra rn w₁ w₂ w₃) t.prevId = if w₁ = true then some (ra.withNext t.nextId) else some ra := by
  have hne := h.path_ne (k := t.prevId) (by simp)
  simp [h.read, hne, h.prev]

theorem read_new (h : Insertion p ids l t ra rn) :
    readRecord (inserted p t ra rn w₁ w₂ w₃) t.nextId = if w₂ = true then some rn else none := by
  have hne := h.path_ne (k := t.prevId) (by simp)
  simp only [h.read, h.new_ne_lastKey, Ne.symm hne.2, h.pool.read_none h.new_fresh, and_false, and_true, if_false]

theorem read_tail (h : Insertion p ids l t ra rn) :
    readRecord (inserted p t ra rn w₁ w₂ w₃) lastKey =
      if w₃ = true then some ((t.withNext (t.nextId + 1)).withPrev t.nextId) else some t := by
  have hne := h.path_ne (k := t.prevId) (by simp)
  simp [h.read, Ne.symm h.new_ne_lastKey, Ne.symm hne.1, h.tail]

theorem keyed (h : Insertion p ids l t ra rn) : Keyed (inserted p t ra rn w₁ w₂ w₃) (nodes ids) := by
  intro k hk
  rw [h.nodes_eq] at hk
  simp only [List.mem_append, List.mem_cons, List.not_mem_nil, or_false] at hk
  rcases hk with hk | rfl | rfl
  · rw [h.read_of_mem hk]
    exact h.pool.keyed k (by rw [h.nodes_eq]; exact List.mem_append_left _ hk)
  · rw [h.read_prev]
    split <;> exact ⟨_, rfl, h.prev_credId⟩
  · rw [h.read_tail]
    split <;> exact ⟨_, rfl, h.tail_credId⟩

/-- The path up to the insertion point keeps its links. -/
theorem chained_prev (h : Insertion p ids l t ra rn) :
    Chained (inserted p t ra rn w₁ w₂ w₃) (l ++ [t.prevId]) := by
  have hc := h.pool.chained
  rw [Chained, h.nodes_eq] at hc
  refine (chain_append_pair.1 hc).1.congr (fun k hk => ?_) (fun k hk => ?_)
  · rw [h.read_of_mem (by simpa using hk)]
  · rcases List.mem_append.1 (List.mem_of_mem_tail hk) with hk | hk
    · rw [h.read_of_mem hk]
    · obtain rfl := List.mem_singleton.1 hk
      rw [h.read_prev, h.prev]
      split <;> rfl

theorem nodes_insert (h : Insertion p ids l t ra rn) : nodes (ids ++ [t.nextId]) = l ++ [t.prevId, t.nextId, lastKey] := by
  rw [nodes, ← List.cons_append, ← List.cons_append, h.last]; simp

/-- With all three writes the path goes over the new record to the tail. -/
theorem wellLinked (h : Insertion p ids l t ra rn) :
    WellLinked (inserted p t ra rn true true true) (ids ++ [t.nextId]) where
  keyed := by
    intro k hk
    by_cases hkn : k = t.nextId
    · subst k
      exact ⟨rn, by simp [h.read_new], h.credId⟩
    · refine h.keyed k ?_
      simp only [mem_nodes, List.mem_append, List.mem_singleton] at hk ⊢
      tauto
  chained := by
    have hlast : Neighbours (inserted p t ra rn true true true) t.prevId t.nextId := by
      simp [Link, Fwd, Bwd, h.read_prev, h.read_new, h.prevId]
    have hnew : Neighbours (inserted p t ra rn true true true) t.nextId lastKey := by
      simp [Link, Fwd, Bwd, h.read_tail, h.read_new, h.nextId]
    rw [Chained, h.nodes_insert, List.append_cons]
    refine chain_append_pair.2 ⟨?_, hnew⟩
    rw [← List.append_cons]
    exact chain_append_pair.2 ⟨h.chained_prev, hlast⟩
  nodup := by
    obtain ⟨hn0, hn1⟩ := isRealCredId_iff.1 h.real
    obtain ⟨hnodup, hno0, hno1⟩ := nodes_nodup.1 h.pool.nodup
    refine nodes_nodup.2 ⟨?_, ?_, ?_⟩
    · refine List.nodup_append.2 ⟨hnodup, by simp, ?_⟩
      rintro k hk k' hk' rfl
      exact h.new_fresh (by rw [← List.mem_singleton.1 hk']; simp [hk])
    · simp [hno0, Ne.symm hn0]
    · simp [hno1, Ne.symm hn1]

/-- The new record and every old one are as valid as before. -/
theorem credentials_valid (h : Insertion p ids l t ra rn) {r : CredRecord} (hk : k ∈ ids ++ [t.nextId])
    (hr : readRecord (inserted p t ra rn true true true) k = some r) : isStoredCredValid r = true := by
  rcases List.mem_append.1 hk with hk | hk
  · have hkl : k ∈ l ++ [t.prevId] := by rw [← h.last]; simp [hk]
    rcases List.mem_append.1 hkl with hkl | hkl
    · rw [h.read_of_mem hkl] at hr
      exact h.pool.valid k hk r hr
    · obtain rfl := List.mem_singleton.1 hkl
      rw [h.read_prev] at hr
      rw [← Option.some.inj hr]
      exact h.pool.valid _ hk ra h.prev
  · obtain rfl := List.mem_singleton.1 hk
    rw [h.read_new] at hr
    exact Option.some.inj hr ▸ h.valid

/-- All three writes leave a well-formed pool with the new id at the end. -/
theorem wellFormed (h : Insertion p ids l t ra rn) :
    WellFormed (inserted p t ra rn true true true) (ids ++ [t.nextId]) := by
  refine ⟨h.wellLinked, ?_, fun k hk r hr => h.credentials_valid hk hr, ?_, ?_⟩
  · -- headPrev
    intro r hr
    by_cases hk : firstKey = t.prevId
    · rw [hk, h.read_prev] at hr
      rw [← Option.some.inj hr]
      exact h.pool.headPrev ra (hk ▸ h.prev)
    · have h0 : firstKey ∈ l := by
        have : firstKey ∈ l ++ [t.prevId] := by rw [← h.last]; simp
        simpa [hk] using this
      rw [h.read_of_mem h0] at hr
      exact h.pool.headPrev r hr
  · -- only
    intro key hkey
    rcases store_isSome hkey with hkey | rfl
    · rcases store_isSome hkey with hkey | rfl
      · rcases store_isSome hkey with hkey | rfl
        · obtain ⟨k, hk, rfl⟩ := h.pool.only key hkey
          exact ⟨k, by simp only [mem_nodes, List.mem_append] at hk ⊢; tauto, rfl⟩
        · exact ⟨t.prevId, by simp [h.nodes_insert], congrArg credKey h.prev_credId⟩
      · exact ⟨t.nextId, by simp, congrArg credKey h.credId⟩
    · exact ⟨lastKey, by simp, congrArg credKey h.tail_credId⟩
  · -- below
    intro k hk r hr
    rw [h.read_tail] at hr
    rw [← Option.some.inj hr]
    -- The new TAIL counts on from the id that it gave away.
    show k < t.nextId + 1
    have hlast := h.new_ne_lastKey
    rcases List.mem_append.1 hk with hk | hk
    · have := h.pool.below k hk t h.tail
      grind
    · obtain rfl := List.mem_singleton.1 hk
      grind

end Insertion

/-! ## Deleting -/

/-- The writes of `unlinkCred`, each done or not. -/
def deleted (p : Nvs) (x : UInt32) (r ra rb : CredRecord) (w₁ w₂ w₃ : Bool) : Nvs :=
  (store (rb.withPrev r.prevId)).applyIf w₃
    ((discard x).applyIf w₂ ((store (ra.withNext r.nextId)).applyIf w₁ p))

/-- What `unlinkCred` starts from: a credential `x` with record `r`, and the
records before and after it. -/
structure Deletion (p : Nvs) (ids u v : List UInt32) (x : UInt32) (r ra rb : CredRecord) : Prop where
  pool : WellFormed p ids
  mem : x ∈ ids
  split : nodes ids = u ++ r.prevId :: x :: r.nextId :: v
  own : readRecord p x = some r
  prev : readRecord p r.prevId = some ra
  next : readRecord p r.nextId = some rb

namespace Deletion
variable {p : Nvs} {ids u v : List UInt32} {x : UInt32} {r ra rb : CredRecord} {w₁ w₂ w₃ : Bool} {k : UInt32}

theorem prev_credId (h : Deletion p ids u v x r ra rb) : ra.credId = r.prevId :=
  h.pool.read_credId (by simp [h.split]) h.prev

theorem next_credId (h : Deletion p ids u v x r ra rb) : rb.credId = r.nextId :=
  h.pool.read_credId (by simp [h.split]) h.next

theorem starts (h : Deletion p ids u v x r ra rb) : ∃ l, u ++ [r.prevId] = firstKey :: l := by
  have := congrArg List.head? h.split
  cases u with
  | nil => exact ⟨[], by simpa [nodes] using this.symm⟩
  | cons c u => exact ⟨u ++ [r.prevId], by simpa [nodes] using this.symm⟩

theorem first_mem (h : Deletion p ids u v x r ra rb) : firstKey ∈ u ++ [r.prevId] := by
  obtain ⟨l, hl⟩ := h.starts
  simp [hl]

theorem last_mem (h : Deletion p ids u v x r ra rb) : lastKey ∈ r.nextId :: v := by
  have := congrArg List.getLast? h.split
  rw [nodes, ← List.cons_append, List.getLast?_concat, List.append_cons, List.append_cons,
    List.getLast?_append_of_ne_nil _ (List.cons_ne_nil _ _)] at this
  exact List.mem_of_getLast? this.symm

theorem own_credId (h : Deletion p ids u v x r ra rb) : r.credId = x := h.pool.read_credId (by simp [h.mem]) h.own

theorem next_prevId (h : Deletion p ids u v x r ra rb) : rb.prevId = x := by
  have hc := h.pool.chained
  rw [Chained, h.split] at hc
  obtain ⟨-, -, hc⟩ := List.isChain_append_cons_cons.1 hc
  simpa [Bwd, h.next] using (List.isChain_cons_cons.1 hc).1.2

/-- The three keys differ from each other and from the rest of the path. -/
theorem ne (h : Deletion p ids u v x r ra rb) :
    r.prevId ≠ x ∧ r.prevId ≠ r.nextId ∧ x ≠ r.nextId ∧ r.prevId ∉ u ∧ x ∉ u ∧ r.nextId ∉ u ∧
      r.prevId ∉ v ∧ x ∉ v ∧ r.nextId ∉ v := by
  have hn := h.pool.nodup
  rw [h.split, List.nodup_append] at hn
  simp only [List.nodup_cons, List.mem_cons, not_or] at hn
  grind

theorem nodes_erase (h : Deletion p ids u v x r ra rb) :
    nodes (ids.erase x) = u ++ r.prevId :: r.nextId :: v := by
  obtain ⟨hax, -, -, -, hxu, -⟩ := h.ne
  have h0 : firstKey ≠ x := fun he => (nodes_nodup.1 h.pool.nodup).2.1 (he ▸ h.mem)
  calc nodes (ids.erase x) = (nodes ids).erase x := by
        rw [nodes, nodes, List.erase_cons_tail (by simpa using h0), List.erase_append_left _ h.mem]
    _ = u ++ r.prevId :: r.nextId :: v := by
        rw [h.split, List.erase_append_right _ hxu, List.erase_cons_tail (by simpa using hax), List.erase_cons_head]

/-- What is read back after any subset of the writes. -/
theorem read (h : Deletion p ids u v x r ra rb) (k : UInt32) :
    readRecord (deleted p x r ra rb w₁ w₂ w₃) k =
      if w₃ = true ∧ k = r.nextId then some (rb.withPrev r.prevId)
      else if w₂ = true ∧ k = x then none
      else if w₁ = true ∧ k = r.prevId then some (ra.withNext r.nextId)
      else readRecord p k := by
  have ha : (ra.withNext r.nextId).recordType = .credentialV1 := by simp [recordType_of_read h.prev]
  have hb : (rb.withPrev r.prevId).recordType = .credentialV1 := by simp [recordType_of_read h.next]
  rw [deleted, readRecord_storeIf hb, readRecord_discardIf, readRecord_storeIf ha]
  simp only [withPrev_credId, withNext_credId, h.prev_credId, h.next_credId]

theorem read_of_mem (h : Deletion p ids u v x r ra rb) (hk : k ∈ u ++ v) :
    readRecord (deleted p x r ra rb w₁ w₂ w₃) k = readRecord p k := by
  obtain ⟨-, -, -, hau, hxu, hbu, hav, hxv, hbv⟩ := h.ne
  have : k ≠ r.prevId ∧ k ≠ x ∧ k ≠ r.nextId := by
    refine ⟨?_, ?_, ?_⟩ <;> rintro rfl <;> simp_all
  simp [h.read, this]

theorem read_prev (h : Deletion p ids u v x r ra rb) :
    readRecord (deleted p x r ra rb w₁ w₂ w₃) r.prevId =
      if w₁ = true then some (ra.withNext r.nextId) else some ra := by
  simp [h.read, h.ne, h.prev]

theorem read_own (h : Deletion p ids u v x r ra rb) :
    readRecord (deleted p x r ra rb w₁ w₂ w₃) x = if w₂ = true then none else some r := by
  simp [h.read, h.ne, h.ne.1.symm, h.own]

theorem read_next (h : Deletion p ids u v x r ra rb) :
    readRecord (deleted p x r ra rb w₁ w₂ w₃) r.nextId =
      if w₃ = true then some (rb.withPrev r.prevId) else some rb := by
  simp [h.read, h.ne.2.1.symm, h.ne.2.2.1.symm, h.next]

theorem keyed (h : Deletion p ids u v x r ra rb) :
    Keyed (deleted p x r ra rb w₁ w₂ w₃) (nodes (ids.erase x)) := by
  intro k hk
  rw [h.nodes_erase] at hk
  by_cases hka : k = r.prevId
  · subst k
    rw [h.read_prev]
    split <;> exact ⟨_, rfl, h.prev_credId⟩
  · by_cases hkb : k = r.nextId
    · subst k
      rw [h.read_next]
      split <;> exact ⟨_, rfl, h.next_credId⟩
    · have hk' : k ∈ u ++ v := by
        simp only [List.mem_append, List.mem_cons, hka, hkb, false_or] at hk ⊢
        exact hk
      rw [h.read_of_mem hk']
      refine h.pool.keyed k ?_
      rw [h.split]
      simp only [List.mem_append, List.mem_cons] at hk' ⊢
      tauto

/-- The path up to the deleted record keeps its links. -/
theorem chained_prev (h : Deletion p ids u v x r ra rb) :
    Chained (deleted p x r ra rb w₁ w₂ w₃) (u ++ [r.prevId]) := by
  have hc := h.pool.chained
  rw [Chained, h.split] at hc
  obtain ⟨hc, -⟩ := List.isChain_append_cons_cons.1 hc
  refine Chain.congr hc (fun k hk => ?_) (fun k hk => ?_)
  · rw [h.read_of_mem (List.mem_append_left _ (by simpa using hk))]
  · rcases List.mem_append.1 (List.mem_of_mem_tail hk) with hk | hk
    · rw [h.read_of_mem (List.mem_append_left _ hk)]
    · obtain rfl := List.mem_singleton.1 hk
      rw [h.read_prev, h.prev]
      split <;> rfl

/-- The path after the deleted record keeps its links. -/
theorem chained_next (h : Deletion p ids u v x r ra rb) :
    Chained (deleted p x r ra rb w₁ w₂ w₃) (r.nextId :: v) := by
  have hc := h.pool.chained
  rw [Chained, h.split] at hc
  obtain ⟨-, -, hc⟩ := List.isChain_append_cons_cons.1 hc
  refine Chain.congr (List.isChain_cons_cons.1 hc).2 (fun k hk => ?_) (fun k hk => ?_)
  · by_cases hkb : k = r.nextId
    · subst k
      rw [h.read_next, h.next]
      split <;> rfl
    · have hkv : k ∈ v := by simpa [hkb] using List.dropLast_subset _ hk
      rw [h.read_of_mem (List.mem_append_right _ hkv)]
  · rw [h.read_of_mem (List.mem_append_right _ hk)]

/-- With both neighbours rewritten the pool is linked without `x`, whether or
not its key is still there. -/
theorem wellLinked (h : Deletion p ids u v x r ra rb) :
    WellLinked (deleted p x r ra rb true w₂ true) (ids.erase x) where
  keyed := h.keyed
  chained := by
    have hab : Neighbours (deleted p x r ra rb true w₂ true) r.prevId r.nextId := by
      simp [Link, Fwd, Bwd, h.read_prev, h.read_next]
    rw [Chained, h.nodes_erase]
    exact List.isChain_append_cons_cons.2 ⟨h.chained_prev, hab, h.chained_next⟩
  nodup := by
    have hn := h.pool.nodup
    rw [h.split] at hn
    rw [h.nodes_erase]
    exact hn.sublist (List.Sublist.append_left (List.Sublist.cons_cons _ (List.sublist_cons_self _ _)) _)

/-- All three writes leave a well-formed pool without `x`. -/
theorem wellFormed (h : Deletion p ids u v x r ra rb) :
    WellFormed (deleted p x r ra rb true true true) (ids.erase x) := by
  have herase : ∀ k ∈ ids.erase x, k ∈ ids ∧ k ≠ x := fun k hk =>
    ⟨List.mem_of_mem_erase hk, fun he => (nodes_nodup.1 h.pool.nodup).1.not_mem_erase (he ▸ hk)⟩
  refine ⟨h.wellLinked, ?_, ?_, ?_, ?_⟩
  · -- headPrev
    intro r' hr'
    rcases List.mem_append.1 h.first_mem with hk | hk
    · rw [h.read_of_mem (List.mem_append_left _ hk)] at hr'
      exact h.pool.headPrev r' hr'
    · have hk := List.mem_singleton.1 hk
      rw [hk, h.read_prev] at hr'
      rw [← Option.some.inj hr']
      exact h.pool.headPrev ra (hk ▸ h.prev)
  · -- valid
    intro k hk r' hr'
    obtain ⟨hk, hkx⟩ := herase k hk
    rw [h.read] at hr'
    split at hr'
    · rename_i hb
      rw [← Option.some.inj hr']
      exact h.pool.valid k hk rb (hb.2 ▸ h.next)
    · rw [if_neg (by simp [hkx])] at hr'
      split at hr'
      · rename_i ha
        rw [← Option.some.inj hr']
        exact h.pool.valid k hk ra (ha.2 ▸ h.prev)
      · exact h.pool.valid k hk r' hr'
  · -- only
    intro key hkey
    rcases store_isSome hkey with hkey | rfl
    · obtain ⟨hkey, hx⟩ := discard_isSome hkey
      rcases store_isSome hkey with hkey | rfl
      · obtain ⟨k, hk, rfl⟩ := h.pool.only key hkey
        refine ⟨k, ?_, rfl⟩
        have hkx : k ≠ x := fun he => hx (congrArg credKey he)
        simpa [List.mem_erase_of_ne hkx] using hk
      · exact ⟨r.prevId, by simp [h.nodes_erase], congrArg credKey h.prev_credId⟩
    · exact ⟨r.nextId, by simp [h.nodes_erase], congrArg credKey h.next_credId⟩
  · -- below
    intro k hk t ht
    obtain ⟨hk, -⟩ := herase k hk
    rcases List.mem_cons.1 h.last_mem with hl | hl
    · rw [hl, h.read_next] at ht
      rw [← Option.some.inj ht]
      exact h.pool.below k hk rb (hl ▸ h.next)
    · rw [h.read_of_mem (List.mem_append_right _ hl)] at ht
      exact h.pool.below k hk t ht

end Deletion

end OrangeBox.PassStore
