import OrangeBox.Lib.Walk
import OrangeBox.PassStore.Pool
/-!
# Rebuilding the cache

`rebuildCache` follows `nextId` from HEAD until TAIL or an unreadable record,
however long that takes. The model's fuel decides whether the loop ends
(`rebuildLoop_exact`). On a linked pool it does, and the cache holds the active
credentials of the pool in order (`rebuildCache_wellLinked`).
-/
open Flash Linked

namespace OrangeBox.PassStore

variable {p : Nvs} {now : UInt64}

/-! ## Termination -/

/-- The key after `cur`, while the loop goes on. -/
def rebuildStep (p : Nvs) (cur : UInt32) : Option UInt32 :=
  if cur = lastKey then none else (readRecord p cur).map CredRecord.nextId

theorem rebuildLoop_eq_none (fuel : Nat) (cur : UInt32) (acc : List CacheRecord × UInt32) :
    rebuildLoop p now fuel cur acc = none ↔ (Walk.steps (rebuildStep p) fuel cur).isSome = true := by
  induction fuel generalizing cur acc with
  | zero => simp [rebuildLoop, Walk.steps]
  | succ fuel ih =>
    rw [rebuildLoop, Walk.steps, rebuildStep]
    split
    · simp
    · cases h : readRecord p cur with
      | none => simp
      | some r =>
        simp only [Option.map_some, Option.bind_some]
        split
        · exact ih _ _
        · exact ih _ _

/-- If the loop does not end within `rebuildFuel` iterations it never ends. -/
theorem rebuildLoop_exact {cur : UInt32} {acc : List CacheRecord × UInt32}
    (h : rebuildLoop p now rebuildFuel cur acc = none) (fuel : Nat) : rebuildLoop p now fuel cur acc = none := by
  rw [rebuildLoop_eq_none] at h ⊢
  have hcard : Fintype.card UInt32 = 2 ^ 32 := by rw [← FinEnum.card_eq_fintypeCard]; rfl
  exact Walk.steps_forever (Walk.steps_isSome_of_le (by rw [hcard]; decide) h) fuel

/-- Whether or not the loop ends, `rebuildCache` leaves the flash alone. -/
theorem rebuildCache_flash (s : Sys Key Blob CredStorage) : (rebuildCache now s).flash = s.blobs := by
  rw [rebuildCache]
  simp only [bind_apply, setRam_apply, andThen_ret, contents_apply, ite_prog_apply]
  split
  · rfl
  · cases rebuildLoop s.blobs now rebuildFuel firstKey ([], 0) with
    | none => rfl
    | some x => rfl

theorem rebuildCache_hangs {fs : List Fault} {r : CredStorage} (hkey : p firstKeyKey ≠ none)
    (h : rebuildLoop p now rebuildFuel firstKey ([], 0) = none) : rebuildCache now ⟨p, fs, r⟩ = .hangs p := by
  simp [rebuildCache, hkey, h]

/-! ## The cache of a pool -/

/-- The cache built from the records of `ids`. -/
def cacheOf (p : Nvs) (now : UInt64) (ids : List UInt32) : List CacheRecord :=
  ((ids.filterMap (readRecord p)).filter (isActive · now)).map toCacheRecord

/-- The loop from `cur` on, where `l` leads from there to TAIL. -/
theorem rebuildLoop_path {l : List UInt32} (hl : (l ++ [lastKey]).IsChain (Fwd CredRecord.nextId (readRecord p)))
    (hfirst : firstKey ∉ l) (hlast : lastKey ∉ l) {fuel : Nat} (hfuel : l.length < fuel) {cur : UInt32}
    (hcur : (l ++ [lastKey]).head? = some cur) (c : List CacheRecord) (m : UInt32) :
    ∃ m', rebuildLoop p now fuel cur (c, m) = some (c ++ cacheOf p now l, m') := by
  induction l generalizing fuel cur c m with
  | nil =>
    obtain ⟨fuel, rfl⟩ := Nat.exists_eq_succ_of_ne_zero (Nat.ne_of_gt hfuel)
    obtain rfl : lastKey = cur := by simpa using hcur
    exact ⟨m, by simp [rebuildLoop, cacheOf]⟩
  | cons k l ih =>
    obtain ⟨fuel, rfl⟩ := Nat.exists_eq_succ_of_ne_zero (Nat.ne_of_gt (Nat.lt_of_le_of_lt (Nat.zero_le _) hfuel))
    obtain rfl : k = cur := by simpa using hcur
    obtain ⟨b, l', hb⟩ : ∃ b l', l ++ [lastKey] = b :: l' := List.exists_cons_of_ne_nil (by simp)
    rw [List.cons_append, hb, List.isChain_cons_cons] at hl
    obtain ⟨r, hr, hnext⟩ := fwd_iff.1 hl.1
    obtain ⟨m', hm⟩ := ih (by rw [hb]; exact hl.2) (fun hm => hfirst (List.mem_cons_of_mem _ hm))
      (fun hm => hlast (List.mem_cons_of_mem _ hm)) (show l.length < fuel by simpa using hfuel)
      (show (l ++ [lastKey]).head? = some b by rw [hb]; rfl) (if isActive r now = true then c ++ [toCacheRecord r] else c)
      (if r.credId > m then r.credId else m)
    refine ⟨m', ?_⟩
    have hk0 : k ≠ firstKey := fun he => hfirst (by simp [he])
    have hk1 : k ≠ lastKey := fun he => hlast (by simp [he])
    simp only [rebuildLoop, if_neg hk1, hr, if_neg hk0, hnext, hm, Option.some.injEq, Prod.mk.injEq, and_true]
    by_cases hact : isActive r now = true
    · simp [cacheOf, hr, hact]
    · simp [cacheOf, hr, hact]

/-- A list of distinct ids is no longer than there are ids. -/
theorem length_le_of_nodup {l : List UInt32} (h : l.Nodup) : l.length ≤ 2 ^ 32 := by
  have := h.length_le_card
  rwa [← FinEnum.card_eq_fintypeCard] at this

theorem rebuildLoop_wellLinked {ids : List UInt32} (h : WellLinked p ids) :
    ∃ m, rebuildLoop p now rebuildFuel firstKey ([], 0) = some (cacheOf p now ids, m) := by
  obtain ⟨hnodup, h0, h1⟩ := nodes_nodup.1 h.nodup
  obtain ⟨b, l, hb⟩ : ∃ b l, ids ++ [lastKey] = b :: l := List.exists_cons_of_ne_nil (by simp)
  have hfwd := h.chained.fwd
  rw [nodes, hb, List.isChain_cons_cons, ← hb] at hfwd
  obtain ⟨r, hr, hnext⟩ := fwd_iff.1 hfwd.1
  have hlen : ids.length < 2 ^ 32 := Nat.lt_of_succ_le (by
    have := length_le_of_nodup (List.nodup_cons.2 ⟨h0, hnodup⟩)
    simpa using this)
  obtain ⟨m, hm⟩ : ∃ m, rebuildLoop p now (2 ^ 32) b ([], 0) = some ([] ++ cacheOf p now ids, m) :=
    rebuildLoop_path hfwd.2 h0 h1 hlen (by rw [hb]; rfl) [] 0
  refine ⟨m, ?_⟩
  have hne : firstKey ≠ lastKey := by decide
  rw [rebuildFuel, rebuildLoop, if_neg hne, hr]
  simpa [hnext] using hm

/-- On a linked pool `rebuildCache` writes nothing and caches the active
credentials. -/
theorem rebuildCache_wellLinked (now : UInt64) {ids : List UInt32} (h : WellLinked p ids) :
    ∃ m, ∀ r, Traced (rebuildCache now) p r [] true { r with credsCache := cacheOf p now ids, maxCredId := m } := by
  obtain ⟨m, hm⟩ : ∃ m, rebuildLoop p now rebuildFuel firstKey ([], 0) = some (cacheOf p now ids, m) :=
    rebuildLoop_wellLinked h
  obtain ⟨r₀, hr₀, -⟩ := h.head
  have hkey : p firstKeyKey ≠ none := by
    rw [← credKey_firstKey, (readRecord_eq_some.1 hr₀).1]; simp
  exact ⟨m, fun r => .of_reads fun fs => by simp [rebuildCache, hkey, hm]⟩

end OrangeBox.PassStore
