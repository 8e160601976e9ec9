import OrangeBox.PassStore.Pool
/-!
# The chain repair

`repairCredChain` scans the chain from HEAD and stops at the first link that
is not right. `Scanned` says how far the scan gets; what happens there is one
of the `repairCredChain_*` lemmas below, and `repairCredChain_cases` says that
there is no other case.
-/
open Flash Linked

namespace OrangeBox.PassStore

variable {p : Nvs} {pre : List UInt32} {c n tail : CredRecord} {r : CredStorage}

/-! ## The scan -/

/-- The link from `c` to `n` passes the checks of the scan, the back link
apart. -/
structure Edge (p : Nvs) (c n : CredRecord) : Prop where
  notFirst : c.nextId ≠ firstKey
  notSelf : c.nextId ≠ c.credId
  stored : readRecord p c.nextId = some n
  credId : n.credId = c.nextId
  valid : isRealCredId n.credId = true → isStoredCredValid n = true

/-- The scan gets to the record `c` through the ids `pre`. -/
inductive Scanned (p : Nvs) : List UInt32 → CredRecord → Prop
  | head {c : CredRecord} : readRecord p firstKey = some c → c.credId = firstKey → Scanned p [] c
  | next {pre : List UInt32} {c n : CredRecord} : Scanned p pre c → Edge p c n → n.prevId = c.credId →
      n.credId ≠ lastKey → Scanned p (pre ++ [c.credId]) n

theorem Scanned.stored (h : Scanned p pre c) : readRecord p c.credId = some c := by
  cases h with
  | head hc hid => rw [hid, hc]
  | next _ he _ _ => rw [he.credId, he.stored]

theorem Scanned.keyed (h : Scanned p pre c) : Keyed p (pre ++ [c.credId]) := by
  induction h with
  | head hc hid => simpa [Keyed, hid] using ⟨_, hc, hid⟩
  | next h he hprev hlast ih =>
    intro k hk
    rcases List.mem_append.1 hk with hk | hk
    · exact ih k hk
    · obtain rfl := List.mem_singleton.1 hk
      exact ⟨_, (h.next he hprev hlast).stored, rfl⟩

theorem Scanned.chained (h : Scanned p pre c) : Chained p (pre ++ [c.credId]) := by
  induction h with
  | head => exact .singleton _
  | next h he hprev hlast ih =>
    rw [Chained, List.append_assoc, List.singleton_append]
    refine chain_append_pair.2 ⟨ih, ?_, ?_⟩
    · simp [Fwd, h.stored, he.credId]
    · simp [Bwd, (h.next he hprev hlast).stored, hprev]

theorem Scanned.ne_lastKey (h : Scanned p pre c) : lastKey ∉ pre ++ [c.credId] := by
  induction h with
  | head _ hid => rw [hid]; decide
  | next h he hprev hlast ih =>
    simp only [List.mem_append, List.mem_singleton] at ih ⊢
    rintro ((hm | hm) | hm)
    · exact ih (.inl hm)
    · exact ih (.inr hm)
    · exact hlast hm.symm

theorem Scanned.starts (h : Scanned p pre c) : ∃ l, pre ++ [c.credId] = firstKey :: l := by
  induction h with
  | head _ hid => exact ⟨[], by simp [hid]⟩
  | next h he hprev hlast ih =>
    obtain ⟨l, hl⟩ := ih
    exact ⟨l ++ [_], by rw [hl]; rfl⟩

theorem Scanned.prev_of_mem (h : Scanned p pre c) {k : UInt32} (hk : k ∈ pre ++ [c.credId]) (h0 : k ≠ firstKey)
    {rk : CredRecord} (hr : readRecord p k = some rk) : ∃ u v, pre ++ [c.credId] = u ++ rk.prevId :: k :: v := by
  obtain ⟨l, hl⟩ := h.starts
  have hkl : k ∈ l := by
    rw [hl] at hk
    exact (List.mem_cons.1 hk).resolve_left h0
  obtain ⟨s, s', hs⟩ := List.append_of_mem hkl
  obtain ⟨u, x, hu⟩ : ∃ u x, firstKey :: s = u ++ [x] :=
    ⟨_, _, (List.dropLast_append_getLast (List.cons_ne_nil _ _)).symm⟩
  have hsplit : pre ++ [c.credId] = u ++ x :: k :: s' := by
    rw [hl, hs, ← List.cons_append, hu]; simp
  have hc := h.chained
  rw [Chained, hsplit] at hc
  obtain ⟨-, ⟨-, hb⟩, -⟩ := List.isChain_append_cons_cons.1 hc
  simp only [Bwd, hr, Option.map_some, Option.some.injEq] at hb
  exact ⟨u, s', by rw [hsplit, hb]⟩

/-- Back links are right so far, so no key has come up twice. -/
theorem Scanned.nodup (h : Scanned p pre c) : (pre ++ [c.credId]).Nodup := by
  induction h with
  | head => simp
  | next h he hprev hlast ih =>
    rename_i pre c n
    have hn := (h.next he hprev hlast).stored
    refine List.nodup_append.2 ⟨ih, by simp, ?_⟩
    rintro k hk k' hk' rfl
    obtain rfl := List.mem_singleton.1 hk'
    -- A second visit to `n` would make `c` its predecessor there as well.
    obtain ⟨u, v, hsplit⟩ := h.prev_of_mem hk (by rw [he.credId]; exact he.notFirst) hn
    rw [hprev] at hsplit
    have hmem : c.credId ∈ n.credId :: v := by
      have := congrArg List.getLast? hsplit
      rw [List.getLast?_concat, List.append_cons, List.getLast?_append_of_ne_nil _ (List.cons_ne_nil _ _)] at this
      exact List.mem_of_getLast? this.symm
    rw [hsplit] at ih
    exact (List.nodup_cons.1 (List.nodup_append.1 ih).2.1).1 hmem

/-- A good path from HEAD is scanned. -/
theorem Scanned.of_chained {l : List UInt32} (hstart : ∃ l', l = firstKey :: l') (hkeyed : Keyed p l)
    (hchain : Chained p l) (hnodup : l.Nodup) (hlast : lastKey ∉ l)
    (hvalid : ∀ k ∈ l, k ≠ firstKey → ∀ r, readRecord p k = some r → isStoredCredValid r = true)
    (hl : l = pre ++ [c.credId]) (hc : readRecord p c.credId = some c) : Scanned p pre c := by
  induction pre using List.reverseRecOn generalizing c l with
  | nil =>
    obtain ⟨l', rfl⟩ := hstart
    have hid : c.credId = firstKey := by simpa using (List.cons.inj hl).1.symm
    exact .head (hid ▸ hc) hid
  | append_singleton pre b ih =>
    subst hl
    obtain ⟨rb, hrb, hbid⟩ := hkeyed b (by simp)
    have hpre : pre ++ [b] ++ [c.credId] = pre ++ [b, c.credId] := by simp
    rw [Chained, hpre] at hchain
    obtain ⟨hchain, hfwd, hbwd⟩ := chain_append_pair.1 hchain
    have hscan : Scanned p pre rb := by
      refine ih ?_ (hkeyed.subset (by simp)) hchain (List.nodup_append.1 hnodup).1
        (fun hm => hlast (List.mem_append_left _ hm)) (fun k hk => hvalid k (List.mem_append_left _ hk))
        (by rw [hbid]) (by rw [hbid]; exact hrb)
      obtain ⟨l', hl'⟩ := hstart
      cases pre with
      | nil => exact ⟨[], by simpa using (List.cons.inj hl').1⟩
      | cons a pre => exact ⟨pre ++ [b], by simpa using (List.cons.inj hl').1⟩
    simp only [Fwd, Bwd, hrb, hc, Option.map_some, Option.some.injEq] at hfwd hbwd
    have hne : ∀ k ∈ pre ++ [b], k ≠ c.credId := fun k hk he =>
      (List.nodup_append.1 hnodup).2.2 k hk _ (by simp) he
    have hfirst : c.credId ≠ firstKey := by
      obtain ⟨l', hl'⟩ := hscan.starts
      rw [hbid] at hl'
      exact (hne firstKey (by rw [hl']; simp)).symm
    rw [← hbid]
    refine hscan.next ⟨?_, ?_, ?_, ?_, ?_⟩ ?_ ?_
    · rw [hfwd]; exact hfirst
    · rw [hfwd, hbid]; exact (hne b (by simp)).symm
    · rw [hfwd, hc]
    · rw [hfwd]
    · intro _
      exact hvalid _ (by simp) hfirst c hc
    · rw [hbwd, hbid]
    · rintro he
      exact hlast (by simp [he])

/-! ## One iteration -/

variable {steps : Nat} {fs : List Fault}

theorem repairLoop_refused (h : c.nextId = firstKey ∨ c.nextId = c.credId) :
    repairLoop tail (steps + 1) c ⟨p, fs, r⟩ = .ret false ⟨p, fs, r⟩ := by
  simp [repairLoop, h]

/-- An unreadable next record. -/
theorem repairLoop_unreadable (h0 : c.nextId ≠ firstKey) (h1 : c.nextId ≠ c.credId)
    (hn : readRecord p c.nextId = none) :
    repairLoop tail (steps + 1) c ⟨p, fs, r⟩ =
      if c.credId = tail.prevId then (do let _ ← writeData (c.withNext lastKey); return true : Op Bool) ⟨p, fs, r⟩
      else .ret false ⟨p, fs, r⟩ := by
  simp [repairLoop, h0, h1, hn]

/-- A next record of another id, or with bad contents. -/
theorem repairLoop_dubious (hn : readRecord p c.nextId = some n)
    (h : n.credId ≠ c.nextId ∨ (isRealCredId n.credId = true ∧ isStoredCredValid n = false)) :
    repairLoop tail (steps + 1) c ⟨p, fs, r⟩ = .ret false ⟨p, fs, r⟩ := by
  by_cases h0 : c.nextId = firstKey ∨ c.nextId = c.credId
  · exact repairLoop_refused h0
  · by_cases hid : n.credId = c.nextId
    · have hbad : isRealCredId n.credId = true ∧ isStoredCredValid n = false := h.resolve_left (fun hne => hne hid)
      simp [repairLoop, h0, hn, hid, hbad.2, hid ▸ hbad.1]
    · simp [repairLoop, h0, hn, hid]

theorem repairLoop_edge (he : Edge p c n) :
    repairLoop tail (steps + 1) c ⟨p, fs, r⟩ =
      if n.prevId ≠ c.credId then repairBackLink tail c n ⟨p, fs, r⟩
      else if n.credId = lastKey then .ret true ⟨p, fs, r⟩
      else repairLoop tail steps n ⟨p, fs, r⟩ := by
  have hvalid : ¬(isRealCredId n.credId = true ∧ isStoredCredValid n = false) := by
    rintro ⟨hr, hv⟩
    simp [he.valid hr] at hv
  have h0 : ¬(c.nextId = firstKey ∨ c.nextId = c.credId) := not_or.2 ⟨he.notFirst, he.notSelf⟩
  simp [repairLoop, h0, he.stored, he.credId, he.credId ▸ hvalid]

/-! ## Where the scan ends -/

/-- Both sentinels are readable and of the right id. -/
structure Sentinels (p : Nvs) (tail : CredRecord) : Prop where
  head : ∃ h, readRecord p firstKey = some h ∧ h.credId = firstKey
  stored : readRecord p lastKey = some tail
  credId : tail.credId = lastKey

/-- The loop has come to `c` with the remaining iterations. -/
theorem repairCredChain_scanned (ht : Sentinels p tail) (h : Scanned p pre c)
    (hlen : pre.length ≤ credGcMaxScanId) :
    repairCredChain ⟨p, fs, r⟩ = repairLoop tail (credGcMaxScanId - pre.length) c ⟨p, fs, r⟩ := by
  induction h with
  | head hc hid => simp [repairCredChain, ht.stored, ht.credId, hc, hid]
  | next h he hprev hlast ih =>
    rename_i pre c n
    rw [List.length_append, List.length_singleton] at hlen
    obtain ⟨steps, hsteps⟩ := Nat.exists_eq_add_of_le hlen
    have h1 : credGcMaxScanId - pre.length = steps + 1 := by omega
    have h2 : credGcMaxScanId - (pre ++ [c.credId]).length = steps := by
      rw [List.length_append, List.length_singleton]; omega
    rw [ih (by omega), h1, repairLoop_edge he, if_neg (not_not.2 hprev), if_neg hlast, h2]

/-- The scan stops at `c`: there is an iteration left and it does not go on. -/
structure Stops (p : Nvs) (tail : CredRecord) (pre : List UInt32) (c : CredRecord) : Prop where
  sentinels : Sentinels p tail
  scanned : Scanned p pre c
  inTime : pre.length < credGcMaxScanId

theorem Stops.eq (h : Stops p tail pre c) :
    ∃ steps, ∀ fs r, repairCredChain ⟨p, fs, r⟩ = repairLoop tail (steps + 1) c ⟨p, fs, r⟩ := by
  obtain ⟨steps, hsteps⟩ := Nat.exists_eq_add_of_lt h.inTime
  refine ⟨steps, fun fs r => ?_⟩
  rw [repairCredChain_scanned h.sentinels h.scanned (Nat.le_of_lt h.inTime)]
  congr 1
  omega

/-- HEAD or the record itself as the next one. -/
theorem Stops.refused (h : Stops p tail pre c) (hself : c.nextId = firstKey ∨ c.nextId = c.credId) :
    Traced repairCredChain p r [] false r := by
  obtain ⟨steps, heq⟩ := h.eq
  refine .of_reads fun fs => ?_
  rw [heq, repairLoop_refused hself]

/-- TAIL reached. -/
theorem Stops.done (h : Stops p tail pre c) (he : Edge p c n) (hprev : n.prevId = c.credId)
    (hlast : n.credId = lastKey) : Traced repairCredChain p r [] true r := by
  obtain ⟨steps, heq⟩ := h.eq
  refine .of_reads fun fs => ?_
  rw [heq, repairLoop_edge he, if_neg (not_not.2 hprev), if_pos hlast]

/-- A write whose result is dropped, and then `b`. -/
theorem traced_writeData_pure {rec : CredRecord} {b : Bool} (h : rec.recordType = .credentialV1) :
    Traced (do let _ ← writeData rec; return b : Op Bool) p r [store rec] b r := by
  rw [writeData_eq h]
  exact Traced.bind (.write _) (.pure b)

/-- Interrupted insert, first step: the last link is taken back. -/
theorem Stops.rolledBack (h : Stops p tail pre c) (h0 : c.nextId ≠ firstKey) (h1 : c.nextId ≠ c.credId)
    (hn : readRecord p c.nextId = none) (hlast : c.credId = tail.prevId) :
    Traced repairCredChain p r [store (c.withNext lastKey)] true r := by
  obtain ⟨steps, heq⟩ := h.eq
  have htype : (c.withNext lastKey).recordType = .credentialV1 := by simp [recordType_of_read h.scanned.stored]
  refine (traced_writeData_pure htype).congr fun fs => ?_
  rw [heq, repairLoop_unreadable h0 h1 hn, if_pos hlast]

/-- A link to a missing record that is not the last one. -/
theorem Stops.interrupted (h : Stops p tail pre c) (h0 : c.nextId ≠ firstKey) (h1 : c.nextId ≠ c.credId)
    (hn : readRecord p c.nextId = none) (hlast : c.credId ≠ tail.prevId) : Traced repairCredChain p r [] false r := by
  obtain ⟨steps, heq⟩ := h.eq
  refine .of_reads fun fs => ?_
  rw [heq, repairLoop_unreadable h0 h1 hn, if_neg hlast]

/-- Interrupted insert, second step: TAIL is written again. -/
theorem Stops.redone (h : Stops p tail pre c) (he : Edge p c n) (hprev : n.prevId ≠ c.credId)
    (hredo : n.prevId = c.prevId ∧ n.credId = lastKey) :
    Traced repairCredChain p r [store ((tail.withPrev c.credId).withNext (c.credId + 1))] true r := by
  obtain ⟨steps, heq⟩ := h.eq
  have htype : ((tail.withPrev c.credId).withNext (c.credId + 1)).recordType = .credentialV1 := by
    simp [recordType_of_read h.sentinels.stored]
  refine (traced_writeData_pure htype).congr fun fs => ?_
  rw [heq, repairLoop_edge he, if_pos hprev]
  simp [repairBackLink, hredo]

/-- Interrupted delete, first step: the record named by the back link is
removed, and the back link corrected. -/
theorem Stops.removed (h : Stops p tail pre c) (he : Edge p c n) (hprev : n.prevId ≠ c.credId)
    (hredo : ¬(n.prevId = c.prevId ∧ n.credId = lastKey)) {d : CredRecord} (hd : readRecord p n.prevId = some d)
    (hid : d.credId = n.prevId) :
    Traced repairCredChain p r [discard n.prevId, store (n.withPrev c.credId)] true r := by
  obtain ⟨steps, heq⟩ := h.eq
  have htype : (n.withPrev c.credId).recordType = .credentialV1 := by simp [recordType_of_read he.stored]
  have hrelink : Traced (relink c n) ((discard n.prevId).apply p) r [store (n.withPrev c.credId)] true r := by
    refine (traced_writeData_pure htype).congr fun fs => ?_
    simp [relink, readRecord_discard]
  have htrace : Traced (write (discard n.prevId) >>= fun _ => relink c n) p r
      ([discard n.prevId] ++ [store (n.withPrev c.credId)]) true r := Traced.bind (.write _) hrelink
  refine htrace.congr fun fs => ?_
  rw [heq, repairLoop_edge he, if_pos hprev]
  simp only [repairBackLink, ite_prog_apply, if_neg hredo, bind_apply, readData_apply, andThen_ret, hd, hid, if_true]
  rfl

/-- Interrupted delete, second step: the back link is corrected. -/
theorem Stops.relinked (h : Stops p tail pre c) (he : Edge p c n) (hprev : n.prevId ≠ c.credId)
    (hredo : ¬(n.prevId = c.prevId ∧ n.credId = lastKey)) (hd : readRecord p n.prevId = none) :
    Traced repairCredChain p r [store (n.withPrev c.credId)] true r := by
  obtain ⟨steps, heq⟩ := h.eq
  have htype : (n.withPrev c.credId).recordType = .credentialV1 := by simp [recordType_of_read he.stored]
  refine (traced_writeData_pure htype).congr fun fs => ?_
  rw [heq, repairLoop_edge he, if_pos hprev]
  simp [repairBackLink, relink, hredo, hd]

/-- The back link names a record stored under another id. -/
theorem Stops.broken (h : Stops p tail pre c) (he : Edge p c n) (hprev : n.prevId ≠ c.credId)
    (hredo : ¬(n.prevId = c.prevId ∧ n.credId = lastKey)) {d : CredRecord} (hd : readRecord p n.prevId = some d)
    (hid : d.credId ≠ n.prevId) : Traced repairCredChain p r [] false r := by
  obtain ⟨steps, heq⟩ := h.eq
  refine .of_reads fun fs => ?_
  rw [heq, repairLoop_edge he, if_pos hprev]
  simp [repairBackLink, relink, hredo, hd, hid.symm]

/-- Every way the scan can end. -/
theorem repairCredChain_cases (ht : Sentinels p tail) :
    (∀ r, Traced repairCredChain p r [] false r) ∨
      (∃ pre c, Stops p tail pre c ∧ c.nextId ≠ firstKey ∧ c.nextId ≠ c.credId ∧
        readRecord p c.nextId = none ∧ c.credId = tail.prevId) ∨
      ∃ pre c n, Stops p tail pre c ∧ Edge p c n ∧ (n.prevId ≠ c.credId ∨ n.credId = lastKey) := by
  -- Follow the loop from HEAD; `steps` iterations are left at `c`.
  suffices hscan : ∀ steps pre c, Scanned p pre c → pre.length + steps = credGcMaxScanId →
      (∀ fs r, repairLoop tail steps c ⟨p, fs, r⟩ = .ret false ⟨p, fs, r⟩) ∨ _ by
    obtain ⟨c, hc, hid⟩ := ht.head
    rcases hscan credGcMaxScanId [] c (.head hc hid) (by simp) with h | h
    · refine .inl fun r => .of_reads fun fs => ?_
      rw [repairCredChain_scanned ht (.head hc hid) (by simp)]
      exact h fs r
    · exact .inr h
  intro steps
  induction steps with
  | zero => intro pre c _ _; exact .inl fun fs r => rfl
  | succ steps ih =>
    intro pre c hs hlen
    have hstop : Stops p tail pre c := ⟨ht, hs, by omega⟩
    by_cases h0 : c.nextId = firstKey ∨ c.nextId = c.credId
    · exact .inl fun fs r => repairLoop_refused h0
    obtain ⟨h0, h1⟩ := not_or.1 h0
    cases hn : readRecord p c.nextId with
    | none =>
      by_cases hlast : c.credId = tail.prevId
      · exact .inr (.inl ⟨pre, c, hstop, h0, h1, hn, hlast⟩)
      · exact .inl fun fs r => by rw [repairLoop_unreadable h0 h1 hn, if_neg hlast]
    | some n =>
      by_cases hbad : n.credId ≠ c.nextId ∨ (isRealCredId n.credId = true ∧ isStoredCredValid n = false)
      · exact .inl fun fs r => repairLoop_dubious hn hbad
      obtain ⟨hid, hvalid⟩ := not_or.1 hbad
      have he : Edge p c n := ⟨h0, h1, hn, not_not.1 hid, fun hr => by simpa [hr] using hvalid⟩
      by_cases hend : n.prevId ≠ c.credId ∨ n.credId = lastKey
      · exact .inr (.inr ⟨pre, c, n, hstop, he, hend⟩)
      obtain ⟨hprev, hlast⟩ := not_or.1 hend
      have hprev := not_not.1 hprev
      rcases ih (pre ++ [c.credId]) n (hs.next he hprev hlast) (by simp; omega) with h | h
      · refine .inl fun fs r => ?_
        rw [repairLoop_edge he, if_neg (not_not.2 hprev), if_neg hlast, h]
      · exact .inr h

end OrangeBox.PassStore
