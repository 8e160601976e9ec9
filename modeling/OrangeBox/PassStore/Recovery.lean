import OrangeBox.PassStore.Boot
/-!
# Booting on arbitrary flash

For which flash contents does `begin` return with a linked pool?
`begin_recovers_iff` answers for every content.

Most damage is either repaired or answered with a reset. The exception is a
stale back link, taken for an interrupted delete: the record it names is
removed without asking whether it is part of the chain, and the scan stops
there, so that the chain after the link is never looked at
(`begin_loses_head`, `begin_never_ends`).
-/
open Flash Linked

namespace OrangeBox.PassStore

variable {p : Nvs} {pre ids : List UInt32} {tail c n : CredRecord} {r : CredStorage}

/-- The scan stops at `n`, whose back link does not name the record `c` before
it, and takes this for an interrupted delete. -/
structure StaleLink (p : Nvs) (tail : CredRecord) (pre : List UInt32) (c n : CredRecord) : Prop where
  stops : Stops p tail pre c
  edge : Edge p c n
  stale : n.prevId ≠ c.credId
  notInsert : ¬(n.prevId = c.prevId ∧ n.credId = lastKey)
  ownKey : ∀ d, readRecord p n.prevId = some d → d.credId = n.prevId

/-- An interrupted delete is all that is wrong: the record named by the back
link is not on the chain, and the chain goes on to TAIL. -/
structure Mendable (p : Nvs) (pre : List UInt32) (c n : CredRecord) : Prop where
  notBefore : n.prevId ∉ pre ++ [c.credId]
  goesOn : ∃ l rest, n.credId :: rest = l ++ [lastKey] ∧ lastKey ∉ l ∧ n.prevId ∉ rest ∧
    Keyed p (n.credId :: rest) ∧ Chained p (n.credId :: rest)

/-! ## Damage that is not a stale link -/

/-- A scanned path whose last record is linked to TAIL is a pool. -/
theorem Scanned.closes {q : Nvs} (h : Scanned p pre c) (hkeyed : Keyed q (pre ++ [c.credId, lastKey]))
    (hchain : Chained q (pre ++ [c.credId])) (hlink : Neighbours q c.credId lastKey) : ∃ ids, WellLinked q ids := by
  have hsplit : pre ++ [c.credId] ++ [lastKey] = pre ++ [c.credId, lastKey] := by simp
  obtain ⟨ids, -, hids⟩ := WellLinked.of_path h.starts h.ne_lastKey (hsplit ▸ hkeyed)
    (hsplit ▸ chain_append_pair.2 ⟨hchain, hlink⟩)
  exact ⟨ids, hids⟩

theorem Stops.keyed (h : Stops p tail pre c) : Keyed p (pre ++ [c.credId, lastKey]) := by
  intro k hk
  rw [List.append_cons] at hk
  rcases List.mem_append.1 hk with hk | hk
  · exact h.scanned.keyed k hk
  · obtain rfl := List.mem_singleton.1 hk
    exact ⟨tail, h.sentinels.stored, h.sentinels.credId⟩

/-- TAIL reached: the chain was sound all along. -/
theorem done_wellLinked (h : Stops p tail pre c) (he : Edge p c n) (hprev : n.prevId = c.credId)
    (hlast : n.credId = lastKey) : ∃ ids, WellLinked p ids := by
  refine h.scanned.closes h.keyed h.scanned.chained ⟨?_, ?_⟩
  · rw [Fwd, h.scanned.stored, Option.map_some, ← he.credId, hlast]
  · rw [Bwd, ← hlast, he.credId, he.stored, Option.map_some, hprev]

/-- Taking back the last link closes the chain at TAIL. -/
theorem rolledBack_wellLinked (h : Stops p tail pre c) (hlast : c.credId = tail.prevId) :
    ∃ ids, WellLinked ((store (c.withNext lastKey)).apply p) ids := by
  have htype : (c.withNext lastKey).recordType = .credentialV1 := by simp [recordType_of_read h.scanned.stored]
  have hne : lastKey ≠ c.credId := fun he => h.scanned.ne_lastKey (by simp [he])
  have hread : ∀ k, readRecord ((store (c.withNext lastKey)).apply p) k =
      if k = c.credId then some (c.withNext lastKey) else readRecord p k := readRecord_store htype
  refine h.scanned.closes (h.keyed.after_store htype) ?_ ⟨?_, ?_⟩
  · refine h.scanned.chained.congr (fun k hk => ?_) (fun k _ => ?_)
    · have hk : k ∈ pre := by simpa using hk
      have hkc : k ≠ c.credId := (List.nodup_append.1 h.scanned.nodup).2.2 k hk c.credId (by simp)
      rw [hread, if_neg hkc]
    · rw [hread]
      split
      · rename_i hk
        rw [hk, h.scanned.stored]; rfl
      · rfl
  · rw [Fwd, hread, if_pos rfl]; rfl
  · rw [Bwd, hread, if_neg hne, h.sentinels.stored, hlast]; rfl

/-- Writing TAIL again closes the chain after the new record. -/
theorem redone_wellLinked (h : Stops p tail pre c) (he : Edge p c n) (hlast : n.credId = lastKey) :
    ∃ ids, WellLinked ((store ((tail.withPrev c.credId).withNext (c.credId + 1))).apply p) ids := by
  have htype : ((tail.withPrev c.credId).withNext (c.credId + 1)).recordType = .credentialV1 := by
    simp [recordType_of_read h.sentinels.stored]
  have hread : ∀ k, readRecord ((store ((tail.withPrev c.credId).withNext (c.credId + 1))).apply p) k =
      if k = lastKey then some ((tail.withPrev c.credId).withNext (c.credId + 1)) else readRecord p k := by
    intro k
    rw [readRecord_store htype]
    simp [h.sentinels.credId]
  have hframe : ∀ k ∈ pre ++ [c.credId], readRecord
      ((store ((tail.withPrev c.credId).withNext (c.credId + 1))).apply p) k = readRecord p k := by
    intro k hk
    have hne : k ≠ lastKey := fun hkl => h.scanned.ne_lastKey (hkl ▸ hk)
    rw [hread, if_neg hne]
  refine h.scanned.closes (h.keyed.after_store htype) (h.scanned.chained.frame hframe) ⟨?_, ?_⟩
  · rw [Fwd, hframe _ (by simp), h.scanned.stored, Option.map_some, ← he.credId, hlast]
  · rw [Bwd, hread, if_pos rfl]; rfl

/-! ## A stale link -/

namespace StaleLink

/-- What the repair of a stale link writes: the named record is gone, and the
back link corrected. -/
theorem repaired (h : StaleLink p tail pre c n) :
    ∃ ws, (∀ r, Traced repairCredChain p r ws true r) ∧ ∀ k, readRecord (applyAll ws p) k =
      if k = n.credId then some (n.withPrev c.credId) else if k = n.prevId then none else readRecord p k := by
  have htype : (n.withPrev c.credId).recordType = .credentialV1 := by simp [recordType_of_read h.edge.stored]
  cases hd : readRecord p n.prevId with
  | none =>
    refine ⟨_, fun r => h.stops.relinked h.edge h.stale h.notInsert hd, fun k => ?_⟩
    simp only [applyAll_cons, applyAll_nil, readRecord_store htype, withPrev_credId]
    grind
  | some d =>
    refine ⟨_, fun r => h.stops.removed h.edge h.stale h.notInsert hd (h.ownKey d hd), fun k => ?_⟩
    simp only [applyAll_cons, applyAll_nil, readRecord_store htype, withPrev_credId, readRecord_discard]

theorem stored (h : StaleLink p tail pre c n) : readRecord p n.credId = some n := by
  rw [h.edge.credId, h.edge.stored]

section Mended
variable {q : Nvs} (hread : ∀ k, readRecord q k =
  if k = n.credId then some (n.withPrev c.credId) else if k = n.prevId then none else readRecord p k)
include hread

theorem fwd_eq (h : StaleLink p tail pre c n) {k : UInt32} (hk : k ≠ n.prevId ∨ k = n.credId) :
    (readRecord q k).map CredRecord.nextId = (readRecord p k).map CredRecord.nextId := by
  rw [hread]
  split
  · rename_i he
    rw [he, h.stored]; rfl
  · rename_i he
    rw [if_neg (hk.resolve_right he)]

theorem read_eq {k : UInt32} (hk : k ≠ n.prevId) (hn : k ≠ n.credId) : readRecord q k = readRecord p k := by
  rw [hread, if_neg hn, if_neg hk]

/-- A record still readable is not the one that was removed. -/
theorem ne_of_keyed {k : UInt32} {rk : CredRecord} (hk : readRecord q k = some rk) : k ≠ n.prevId ∨ k = n.credId := by
  by_contra hno
  obtain ⟨h1, h2⟩ := not_or.1 hno
  rw [hread, if_neg h2, if_pos (not_not.1 h1)] at hk
  contradiction

/-- The removed record was not on the path to the stale link: the pool would
miss it. -/
theorem notBefore (h : StaleLink p tail pre c n) (hq : WellLinked q ids) : n.prevId ∉ pre ++ [c.credId] := by
  have hscan := h.stops.scanned
  intro hm
  obtain ⟨s, s', hs⟩ := List.append_of_mem hm
  have hms : n.prevId ∉ s := fun hms => by
    have := hscan.nodup
    rw [hs] at this
    exact (List.nodup_append.1 this).2.2 _ hms _ (by simp) rfl
  obtain ⟨l, hl⟩ : ∃ l, s ++ [n.prevId] = firstKey :: l := by
    obtain ⟨l₀, hl₀⟩ := hscan.starts
    rw [hs] at hl₀
    cases s with
    | nil => exact ⟨[], by simpa using (List.cons.inj hl₀).1⟩
    | cons a s => exact ⟨s ++ [n.prevId], by simpa using (List.cons.inj hl₀).1⟩
  have hpath : (firstKey :: l).IsChain (Fwd CredRecord.nextId (readRecord q)) := by
    have hfwd : (pre ++ [c.credId]).IsChain (Fwd CredRecord.nextId (readRecord p)) := hscan.chained.fwd
    rw [hs, List.append_cons] at hfwd
    rw [← hl]
    refine path_congr hfwd.left_of_append fun k hk => fwd_eq hread h (.inl ?_)
    rintro rfl
    exact hms (by simpa using hk)
  have hlast : lastKey ∉ l.dropLast := fun hm => hscan.ne_lastKey (by
    have : lastKey ∈ s ++ [n.prevId] := by rw [hl]; exact List.mem_cons_of_mem _ (List.dropLast_subset _ hm)
    rw [hs]
    simp only [List.mem_append, List.mem_cons] at this ⊢
    tauto)
  have hmem : n.prevId ∈ nodes ids := by
    have hsub := (path_begins hpath hq.chained.fwd hlast).subset
    have : n.prevId ∈ firstKey :: l := by rw [← hl]; simp
    rcases List.mem_cons.1 this with hm | hm
    · rw [hm]; simp
    · exact List.mem_cons_of_mem _ (hsub hm)
  -- So it is the record whose link was corrected, and its own predecessor.
  obtain ⟨rk, hrk, -⟩ := hq.keyed _ hmem
  have hself : n.prevId = n.credId := (ne_of_keyed hread hrk).resolve_left (fun hne => hne rfl)
  obtain ⟨u, v, hsplit⟩ := hscan.prev_of_mem (hself ▸ hm) (by rw [h.edge.credId]; exact h.edge.notFirst) h.stored
  have hnodup := hscan.nodup
  rw [hsplit, hself] at hnodup
  exact (List.nodup_cons.1 (List.nodup_append.1 hnodup).2.1).1 (by simp)

/-- A pool that is linked after the repair was only missing a back link. -/
theorem mendable (h : StaleLink p tail pre c n) (hq : WellLinked q ids) : Mendable p pre c n := by
  have hscan := h.stops.scanned
  have hbefore := notBefore hread h hq
  obtain ⟨l₀, hl₀⟩ := hscan.starts
  have hl₀last : lastKey ∉ l₀ := fun hm => hscan.ne_lastKey (by rw [hl₀]; simp [hm])
  -- The scan's path and the link it stopped at lead the same way in `q`.
  have hpath : (firstKey :: (l₀ ++ [n.credId])).IsChain (Fwd CredRecord.nextId (readRecord q)) := by
    have hfwd : (pre ++ [c.credId, n.credId]).IsChain (Fwd CredRecord.nextId (readRecord p)) := by
      refine List.isChain_append_cons_cons.2 ⟨hscan.chained.fwd, ?_, .singleton _⟩
      rw [Fwd, hscan.stored, Option.map_some, h.edge.credId]
    rw [← List.cons_append, ← hl₀, List.append_assoc, List.singleton_append]
    refine path_congr hfwd fun k hk => fwd_eq hread h (.inl ?_)
    rintro rfl
    exact hbefore (by simpa [List.dropLast_append_of_ne_nil] using hk)
  obtain ⟨rest, hrest⟩ := path_begins hpath hq.chained.fwd (by simpa using hl₀last)
  have hnodes : nodes ids = (pre ++ [c.credId]) ++ n.credId :: rest := by
    rw [nodes, ← hrest, hl₀]; simp
  obtain ⟨l, hl, hids⟩ : ∃ l, n.credId :: rest = l ++ [lastKey] ∧ l₀ ++ l = ids := by
    obtain ⟨l, b, hl⟩ : ∃ l b, n.credId :: rest = l ++ [b] :=
      ⟨_, _, (List.dropLast_append_getLast (List.cons_ne_nil _ _)).symm⟩
    have heq : (l₀ ++ l) ++ [b] = ids ++ [lastKey] := by rw [← hrest, List.append_assoc, ← hl]; simp
    obtain ⟨hids, hb⟩ := List.append_inj' heq rfl
    exact ⟨l, by rw [hl, hb], hids⟩
  have hnodup := hq.nodup
  rw [hnodes] at hnodup
  have hnrest : n.credId ∉ rest := (List.nodup_cons.1 (List.nodup_append.1 hnodup).2.1).1
  have hin : ∀ k ∈ n.credId :: rest, k ∈ nodes ids := fun k hk => by rw [hnodes]; exact List.mem_append_right _ hk
  have hkept : ∀ k ∈ n.credId :: rest, k ≠ n.prevId ∨ k = n.credId := fun k hk => by
    obtain ⟨rk, hrk, -⟩ := hq.keyed k (hin k hk)
    exact ne_of_keyed hread hrk
  have hsame : ∀ k ∈ rest, readRecord q k = readRecord p k := fun k hk => by
    have hkn : k ≠ n.credId := fun he => hnrest (he ▸ hk)
    exact read_eq hread ((hkept k (List.mem_cons_of_mem _ hk)).resolve_right hkn) hkn
  refine ⟨hbefore, l, rest, hl, ?_, ?_, ?_, ?_⟩
  · intro hm
    exact (nodes_nodup.1 hq.nodup).2.2 (by rw [← hids]; exact List.mem_append_right _ hm)
  · intro hm
    have := (hkept _ (List.mem_cons_of_mem _ hm)).resolve_left (fun hne => hne rfl)
    exact hnrest (this ▸ hm)
  · intro k hk
    rcases List.mem_cons.1 hk with rfl | hk
    · exact ⟨n, h.stored, rfl⟩
    · rw [← hsame k hk]
      exact hq.keyed k (hin k (List.mem_cons_of_mem _ hk))
  · have hchain := hq.chained
    rw [Chained, hnodes] at hchain
    refine Chain.congr hchain.right_of_append (fun k hk => ?_) (fun k hk => ?_)
    · exact (fwd_eq hread h (hkept k (List.dropLast_subset _ hk))).symm
    · rw [hsame k hk]

/-- Conversely the repair of a mendable link leaves a linked pool. -/
theorem mended (h : StaleLink p tail pre c n) (hm : Mendable p pre c n) : ∃ ids, WellLinked q ids := by
  obtain ⟨hbefore, l, rest, hl, hlast, hmrest, hkeyed, hchain⟩ := hm
  have hscan := h.stops.scanned
  have hnrest : n.credId ∉ rest := by
    cases l with
    | nil => simp only [List.nil_append, List.cons.injEq] at hl; simp [hl.2]
    | cons a l =>
      obtain ⟨rfl, rfl⟩ := List.cons.inj hl
      exact (List.nodup_cons.1 (path_nodup hchain.fwd hlast)).1
  have hnbefore : n.credId ∉ pre ++ [c.credId] := fun hm => by
    obtain ⟨u, v, hsplit⟩ := hscan.prev_of_mem hm (by rw [h.edge.credId]; exact h.edge.notFirst) h.stored
    exact hbefore (by rw [hsplit]; simp)
  have hpre : ∀ k ∈ pre ++ [c.credId], readRecord q k = readRecord p k := fun k hk =>
    read_eq hread (fun he => hbefore (he ▸ hk)) (fun he => hnbefore (he ▸ hk))
  have hrest : ∀ k ∈ rest, readRecord q k = readRecord p k := fun k hk =>
    read_eq hread (fun he => hmrest (he ▸ hk)) (fun he => hnrest (he ▸ hk))
  have hn : readRecord q n.credId = some (n.withPrev c.credId) := by rw [hread, if_pos rfl]
  -- The new chain: the path of the scan, the mended record, and what came behind it.
  have hpath : (pre ++ [c.credId]) ++ l ++ [lastKey] = pre ++ c.credId :: n.credId :: rest := by
    rw [List.append_assoc, ← hl]; simp
  obtain ⟨ids, -, hids⟩ : ∃ ids, (pre ++ [c.credId]) ++ l = firstKey :: ids ∧ WellLinked q ids := by
    refine WellLinked.of_path ?_ ?_ ?_ ?_
    · obtain ⟨l₀, hl₀⟩ := hscan.starts
      exact ⟨l₀ ++ l, by rw [hl₀, List.cons_append]⟩
    · simp only [List.mem_append, not_or]
      exact ⟨by simpa using hscan.ne_lastKey, hlast⟩
    · intro k hk
      rw [hpath, List.append_cons] at hk
      rcases List.mem_append.1 hk with hk | hk
      · rw [hpre k hk]
        exact hscan.keyed k hk
      · rcases List.mem_cons.1 hk with rfl | hk
        · exact ⟨_, hn, rfl⟩
        · rw [hrest k hk]
          exact hkeyed k (List.mem_cons_of_mem _ hk)
    · rw [hpath]
      refine List.isChain_append_cons_cons.2 ⟨hscan.chained.frame hpre, ⟨?_, ?_⟩, ?_⟩
      · rw [Fwd, hpre _ (by simp), hscan.stored, Option.map_some, h.edge.credId]
      · rw [Bwd, hn]; rfl
      · refine hchain.congr (fun k hk => fwd_eq hread h ?_) (fun k hk => by rw [hrest k hk])
        rcases List.mem_cons.1 (List.dropLast_subset _ hk) with rfl | hk
        · exact .inr rfl
        · exact .inl fun he => hmrest (he ▸ hk)
  exact ⟨ids, hids⟩

end Mended

end StaleLink

/-! ## Every flash content -/

/-- Whatever the scan meets, other than a stale link, is answered with a reset
or a repair that closes the chain. -/
theorem refused_or_repaired (p : Nvs) :
    Refused p ∨
      (∃ tail ws ids, Sentinels p tail ∧ (∀ r, Traced repairCredChain p r ws true r) ∧
        WellLinked (applyAll ws p) ids) ∨
      ∃ tail pre c n, StaleLink p tail pre c n := by
  by_cases hs : ∃ tail, Sentinels p tail
  · by_cases hstale : ∃ tail pre c n, StaleLink p tail pre c n
    · exact .inr (.inr hstale)
    obtain ⟨tail, hs⟩ := hs
    rcases repairCredChain_cases hs with hrefused | ⟨pre, c, hstop, h0, h1, hn, hlast⟩ | ⟨pre, c, n, hstop, he, hend⟩
    · exact .inl (.chain hs hrefused)
    · obtain ⟨ids, hids⟩ := rolledBack_wellLinked hstop hlast
      exact .inr (.inl ⟨tail, _, ids, hs, fun r => hstop.rolledBack h0 h1 hn hlast, hids⟩)
    · by_cases hprev : n.prevId = c.credId
      · have hlast := hend.resolve_left (fun hne => hne hprev)
        obtain ⟨ids, hids⟩ := done_wellLinked hstop he hprev hlast
        exact .inr (.inl ⟨tail, _, ids, hs, fun r => hstop.done he hprev hlast, hids⟩)
      · by_cases hredo : n.prevId = c.prevId ∧ n.credId = lastKey
        · obtain ⟨ids, hids⟩ := redone_wellLinked hstop he hredo.2
          exact .inr (.inl ⟨tail, _, ids, hs, fun r => hstop.redone he hprev hredo, hids⟩)
        · by_cases hown : ∀ d, readRecord p n.prevId = some d → d.credId = n.prevId
          · exact absurd ⟨tail, pre, c, n, hstop, he, hprev, hredo, hown⟩ hstale
          · simp only [not_forall] at hown
            obtain ⟨d, hd, hid⟩ := hown
            exact .inl (.chain hs fun r => hstop.broken he hprev hredo hd hid)
  · exact .inl (.sentinels hs)

/-- `begin` returns with a linked pool if and only if every stale link the scan
stops at is all that is wrong with the chain. -/
theorem begin_recovers_iff (p : Nvs) (r : CredStorage) (now : UInt64) :
    (∃ a s, begin now ⟨p, [], r⟩ = .ret a s ∧ ∃ ids, WellLinked s.blobs ids) ↔
      ∀ tail pre c n, StaleLink p tail pre c n → Mendable p pre c n := by
  constructor
  · rintro ⟨a, s, hbegin, ids, hids⟩ tail pre c n h
    obtain ⟨ws, hrepair, hread⟩ := h.repaired
    have hflash : s.blobs = applyAll ws p := by
      have := begin_flash now h.stops.sentinels (hrepair r)
      rwa [hbegin] at this
    exact h.mendable hread (hflash ▸ hids)
  · intro hmend
    rcases refused_or_repaired p with h | ⟨tail, ws, ids, hs, hrepair, hids⟩ | ⟨tail, pre, c, n, h⟩
    · obtain ⟨m, hm⟩ := begin_resets now h
      exact ⟨_, _, hm.whole, [], emptyPool_wellFormed.toWellLinked⟩
    · obtain ⟨m, hm⟩ := begin_repaired now hs (hrepair r) hids
      exact ⟨_, _, hm.whole, ids, hids⟩
    · obtain ⟨ws, hrepair, hread⟩ := h.repaired
      obtain ⟨ids, hids⟩ := h.mended hread (hmend tail pre c n h)
      obtain ⟨m, hm⟩ := begin_repaired now h.stops.sentinels (hrepair r) hids
      exact ⟨_, _, hm.whole, ids, hids⟩

/-- HEAD, 1, 2 and TAIL, with a second record that says it follows HEAD. -/
def staleLinkFlash : Nvs :=
  flashOf [emptyHead.withNext 1, sampleCred 1 firstKey 2, sampleCred 2 firstKey lastKey,
    (emptyTail.withPrev 2).withNext 3]

/-- The repair removes HEAD, which the stale link names. -/
theorem begin_loses_head :
    ¬∃ a s, begin 0 ⟨staleLinkFlash, [], .fresh⟩ = .ret a s ∧ ∃ ids, WellLinked s.blobs ids := by
  rintro ⟨a, s, hbegin, ids, hids⟩
  have hhead : (begin 0 ⟨staleLinkFlash, [], .fresh⟩).flash firstKeyKey = none := by decide
  obtain ⟨head, hread, -⟩ := hids.head
  rw [hbegin] at hhead
  exact absurd (readRecord_eq_some.1 hread).1 (by rw [credKey_firstKey, show s.blobs firstKeyKey = none from hhead]; simp)

/-- HEAD, 1 and 2, which leads back to 1, and a first record that names a
removed one before it. -/
def cycleFlash : Nvs :=
  flashOf [emptyHead.withNext 1, sampleCred 1 5 2, sampleCred 2 1 1, (emptyTail.withPrev 2).withNext 3]

/-- The repair ends with the first back link, and `rebuildCache` goes round
the cycle behind it. -/
theorem begin_never_ends : ∃ q, begin 0 ⟨cycleFlash, [], .fresh⟩ = .hangs q := by
  have hhead : readRecord cycleFlash firstKey = some (emptyHead.withNext 1) := by decide
  have hstop : Stops cycleFlash ((emptyTail.withPrev 2).withNext 3) [] (emptyHead.withNext 1) :=
    ⟨⟨⟨_, hhead, rfl⟩, by decide, rfl⟩, .head hhead rfl, by decide⟩
  have hedge : Edge cycleFlash (emptyHead.withNext 1) (sampleCred 1 5 2) :=
    ⟨by decide, by decide, by decide, rfl, fun _ => by decide⟩
  have hrepair : Traced repairCredChain cycleFlash .fresh [store ((sampleCred 1 5 2).withPrev firstKey)] true .fresh :=
    hstop.relinked hedge (by decide) (by decide) (by decide)
  have hloop : rebuildLoop ((store ((sampleCred 1 5 2).withPrev firstKey)).apply cycleFlash) 0 rebuildFuel firstKey
      ([], 0) = none := by
    refine (rebuildLoop_eq_none _ _ _).2 (Walk.steps_of_closed (S := fun k => k = 0 ∨ k = 1 ∨ k = 2) ?_ _ (.inl rfl))
    rintro k (rfl | rfl | rfl)
    · exact ⟨1, by decide, by decide⟩
    · exact ⟨2, by decide, by decide⟩
    · exact ⟨1, by decide, by decide⟩
  have hkey : (store ((sampleCred 1 5 2).withPrev firstKey)).apply cycleFlash firstKeyKey ≠ none := by decide
  refine ⟨(store ((sampleCred 1 5 2).withPrev firstKey)).apply cycleFlash, ?_⟩
  rw [begin_whole 0 hstop.sentinels hrepair, applyAll_cons, applyAll_nil, rebuildCache_hangs hkey hloop,
    andThen_hangs]

end OrangeBox.PassStore
