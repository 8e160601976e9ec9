import OrangeBox.PassStore.Rebuild
import OrangeBox.PassStore.Repair
import OrangeBox.PassStore.Surgery
/-!
# Boot

`begin` resets what it cannot read or repair (`begin_resets`), and otherwise
keeps what the repair wrote (`begin_repaired`). Each is stated as a `Traced`
program, so that a boot can be cut between any two of its writes. Whatever it did
before, a boot that leaves a linked pool has cached it (`begin_cached`).
-/
open Flash Linked

namespace OrangeBox.PassStore

variable {p : Nvs} {ids : List UInt32} {tail : CredRecord} {r : CredStorage}

/-! ## Reset -/

/-- The writes of `resetPool`. -/
def resetWrites : List (Write Key Blob) := [.clear, store emptyHead, store emptyTail]

/-- The pool `resetPool` leaves. -/
def emptyPool : Nvs := applyAll resetWrites fun _ => none

@[simp] theorem applyAll_resetWrites (p : Nvs) : applyAll resetWrites p = emptyPool := rfl

theorem read_emptyPool (k : UInt32) :
    readRecord emptyPool k =
      if k = lastKey then some emptyTail else if k = firstKey then some emptyHead else none := by
  have hh : emptyHead.recordType = .credentialV1 := rfl
  have ht : emptyTail.recordType = .credentialV1 := rfl
  have hclear : emptyPool = (store emptyTail).apply ((store emptyHead).apply fun _ => none) := rfl
  rw [hclear, readRecord_store ht, readRecord_store hh, readRecord_none]
  rfl

theorem emptyPool_wellFormed : WellFormed emptyPool [] := by
  have hhead : readRecord emptyPool firstKey = some emptyHead := by rw [read_emptyPool]; rfl
  have htail : readRecord emptyPool lastKey = some emptyTail := by rw [read_emptyPool]; rfl
  refine ⟨⟨?_, ?_, by decide⟩, ?_, by simp, ?_, by simp⟩
  · intro k hk
    rcases mem_nodes.1 hk with rfl | hk | rfl
    · exact ⟨_, hhead, rfl⟩
    · simp at hk
    · exact ⟨_, htail, rfl⟩
  · refine List.isChain_pair.2 ⟨?_, ?_⟩
    · rw [Fwd, hhead]; rfl
    · rw [Bwd, htail]; rfl
  · intro r hr
    rw [← Option.some.inj (hhead.symm.trans hr)]
    rfl
  · intro key hkey
    rcases store_isSome hkey with hkey | rfl
    · rcases store_isSome hkey with hkey | rfl
      · simp at hkey
      · exact ⟨firstKey, by simp, rfl⟩
    · exact ⟨lastKey, by simp, rfl⟩

theorem resetPool_traced :
    Traced resetPool p r resetWrites () { r with credsCache := [], maxCredId := 0, nextCredId := 1 } :=
  Traced.bind (.write .clear) (Traced.bind (.write (store emptyHead)) (Traced.bind (.write (store emptyTail))
    (.of_reads fun _ => rfl)))

/-! ## Checking the sentinels -/

theorem ensurePool_of_sentinels (h : Sentinels p tail) (fs : List Fault) :
    ensurePool ⟨p, fs, r⟩ = .ret true ⟨p, fs, r⟩ := by
  obtain ⟨head, hhead, hid⟩ := h.head
  simp [ensurePool, hhead, h.stored, hid, h.credId]

theorem ensurePool_of_not_sentinels (h : ¬∃ tail, Sentinels p tail) :
    Traced ensurePool p r resetWrites false { r with credsCache := [], maxCredId := 0, nextCredId := 1 } := by
  have htrace : Traced (do resetPool; return false : Op Bool) p r (resetWrites ++ []) false
      { r with credsCache := [], maxCredId := 0, nextCredId := 1 } := Traced.bind resetPool_traced (.pure false)
  refine htrace.congr fun fs => ?_
  cases hhead : readRecord p firstKey with
  | none => simp [ensurePool, hhead]
  | some head =>
    cases htail : readRecord p lastKey with
    | none => simp [ensurePool, hhead, htail]
    | some tail =>
      have : head.credId ≠ firstKey ∨ tail.credId ≠ lastKey := by
        by_contra hid
        simp only [not_or, not_not] at hid
        exact h ⟨tail, ⟨head, hhead, hid.1⟩, htail, hid.2⟩
      simp [ensurePool, hhead, htail, this]

/-- The repair gives up: the pool is of the old format, a sentinel is missing,
or the scan refuses the chain. -/
inductive Refused (p : Nvs) : Prop
  | legacy {b : Blob} : p firstKeyKey = some b → b.length < credRecordSize → Refused p
  | sentinels : (¬∃ tail, Sentinels p tail) → Refused p
  | chain {tail : CredRecord} : Sentinels p tail → (∀ r, Traced repairCredChain p r [] false r) → Refused p

/-! ## The whole boot -/

/-- A HEAD of the right size is not of the old format. -/
theorem not_legacy (h : Sentinels p tail) (b : Blob) (hb : p firstKeyKey = some b) : ¬b.length < credRecordSize := by
  obtain ⟨head, hhead, -⟩ := h.head
  rw [← credKey_firstKey, (readRecord_eq_some.1 hhead).1] at hb
  obtain rfl := Option.some.inj hb
  exact Nat.lt_irrefl _

/-- `begin` past the check for the old format. -/
theorem begin_eq (now : UInt64) (hkey : ∀ b, p firstKeyKey = some b → ¬b.length < credRecordSize) (fs : List Fault) :
    begin now ⟨p, fs, r⟩ = (do garbageCollect; let _ ← rebuildCache now; return true : Op Bool) ⟨p, fs, r⟩ := by
  cases hp : p firstKeyKey with
  | none => simp [begin, hp]
  | some b => simp [begin, hp, hkey b hp]

theorem garbageCollect_repaired {ws : List (Write Key Blob)} (hs : Sentinels p tail)
    (hrepair : Traced repairCredChain p r ws true r) : Traced garbageCollect p r ws () r := by
  have hrest : Traced (do let repaired ← repairCredChain; if repaired = true then return () else resetPool : Op Unit)
      p r (ws ++ []) () r := Traced.bind hrepair (.pure ())
  have htrace := Traced.bind (f := fun pool => if pool = true then _ else pure ())
    (.of_reads (ensurePool_of_sentinels (r := r) hs)) hrest
  rw [List.nil_append, List.append_nil] at htrace
  exact htrace

theorem garbageCollect_refused (hs : Sentinels p tail) (hrepair : Traced repairCredChain p r [] false r) :
    Traced garbageCollect p r resetWrites () { r with credsCache := [], maxCredId := 0, nextCredId := 1 } := by
  have hrest : Traced (do let repaired ← repairCredChain; if repaired = true then return () else resetPool : Op Unit)
      p r ([] ++ resetWrites) () { r with credsCache := [], maxCredId := 0, nextCredId := 1 } :=
    Traced.bind hrepair resetPool_traced
  exact Traced.bind (f := fun pool => if pool = true then _ else pure ())
    (.of_reads (ensurePool_of_sentinels (r := r) hs)) hrest

theorem garbageCollect_no_sentinels (h : ¬∃ tail, Sentinels p tail) :
    Traced garbageCollect p r resetWrites () { r with credsCache := [], maxCredId := 0, nextCredId := 1 } :=
  Traced.bind (f := fun pool => if pool = true then _ else pure ())
    (ensurePool_of_not_sentinels (r := r) h) (.pure ())

/-- `begin` once the garbage collector has left a linked pool. -/
theorem begin_traced (now : UInt64) {ws : List (Write Key Blob)} {r' : CredStorage}
    (hkey : ∀ b, p firstKeyKey = some b → ¬b.length < credRecordSize)
    (hgc : Traced garbageCollect p r ws () r') (hlinked : WellLinked (applyAll ws p) ids) :
    ∃ m, Traced (begin now) p r ws true
      { r' with credsCache := cacheOf (applyAll ws p) now ids, maxCredId := m } := by
  obtain ⟨m, hm⟩ := rebuildCache_wellLinked now hlinked
  have htrace : Traced (do garbageCollect; let _ ← rebuildCache now; return true : Op Bool) p r (ws ++ ([] ++ []))
      true _ := Traced.bind hgc (Traced.bind (hm r') (.pure true))
  rw [List.append_nil, List.append_nil] at htrace
  exact ⟨m, htrace.congr (begin_eq now hkey)⟩

/-- A repaired pool is kept and cached. -/
theorem begin_repaired (now : UInt64) {ws : List (Write Key Blob)} (hs : Sentinels p tail)
    (hrepair : Traced repairCredChain p r ws true r) (hlinked : WellLinked (applyAll ws p) ids) :
    ∃ m, Traced (begin now) p r ws true
      { r with credsCache := cacheOf (applyAll ws p) now ids, maxCredId := m } := by
  exact begin_traced now (not_legacy hs) (garbageCollect_repaired hs hrepair) hlinked

/-- After a repair only the cache is left to be built. -/
theorem begin_whole (now : UInt64) {ws : List (Write Key Blob)} (hs : Sentinels p tail)
    (hrepair : Traced repairCredChain p r ws true r) :
    begin now ⟨p, [], r⟩ = (rebuildCache now ⟨applyAll ws p, [], r⟩).andThen fun _ => pure true := by
  rw [begin_eq now (not_legacy hs), bind_apply, (garbageCollect_repaired hs hrepair).whole]
  rfl

/-- The flash is then what the repair wrote, also if `rebuildCache` never ends. -/
theorem begin_flash (now : UInt64) {ws : List (Write Key Blob)} (hs : Sentinels p tail)
    (hrepair : Traced repairCredChain p r ws true r) : (begin now ⟨p, [], r⟩).flash = applyAll ws p := by
  rw [begin_whole now hs hrepair, flash_andThen_pure, rebuildCache_flash]

/-- The empty pool passes the scan. -/
theorem emptyPool_stops : Stops emptyPool emptyTail [] emptyHead := by
  have hhead : readRecord emptyPool firstKey = some emptyHead := by rw [read_emptyPool]; rfl
  have htail : readRecord emptyPool lastKey = some emptyTail := by rw [read_emptyPool]; rfl
  exact ⟨⟨⟨_, hhead, rfl⟩, htail, rfl⟩, .head hhead rfl, by decide⟩

theorem emptyPool_edge : Edge emptyPool emptyHead emptyTail where
  notFirst := by decide
  notSelf := by decide
  stored := by rw [read_emptyPool]; rfl
  credId := rfl
  valid h := absurd h (by decide)

/-- A refused pool is replaced by the empty one. -/
theorem begin_resets (now : UInt64) (h : Refused p) :
    ∃ m, Traced (begin now) p r resetWrites true
      { r with credsCache := [], maxCredId := m, nextCredId := 1 } := by
  by_cases hkey : ∃ b, p firstKeyKey = some b ∧ b.length < credRecordSize
  · -- The reset of the old format; the new pool then passes the scan.
    obtain ⟨b, hb, hlen⟩ := hkey
    have hgc : ∀ r, Traced garbageCollect emptyPool r [] () r := fun r =>
      garbageCollect_repaired emptyPool_stops.sentinels (emptyPool_stops.done emptyPool_edge rfl rfl)
    obtain ⟨m, hm⟩ := rebuildCache_wellLinked now emptyPool_wellFormed.toWellLinked
    have htrace : Traced (do resetPool; garbageCollect; let _ ← rebuildCache now; return true : Op Bool) p r
        (resetWrites ++ ([] ++ ([] ++ []))) true _ :=
      Traced.bind resetPool_traced (Traced.bind (hgc _) (Traced.bind (hm _) (.pure true)))
    exact ⟨m, htrace.congr fun fs => by simp [begin, hb, hlen]⟩
  · have hkey : ∀ b, p firstKeyKey = some b → ¬b.length < credRecordSize := fun b hb hlen => hkey ⟨b, hb, hlen⟩
    have hgc : Traced garbageCollect p r resetWrites () { r with credsCache := [], maxCredId := 0, nextCredId := 1 } := by
      cases h with
      | legacy hb hlen => exact absurd hlen (hkey _ hb)
      | sentinels h => exact garbageCollect_no_sentinels h
      | chain hs hrepair => exact garbageCollect_refused hs (hrepair r)
    exact begin_traced now hkey hgc emptyPool_wellFormed.toWellLinked

/-! ## What a boot caches -/

theorem writeData_keeps (rec : CredRecord) : Keeps CredStorage.verifiedCredId (writeData rec) := by
  unfold writeData
  exact .ite (.pure _) (.write _)

theorem resetPool_keeps : Keeps CredStorage.verifiedCredId resetPool :=
  .bind (.write _) fun _ => .bind (writeData_keeps _) fun _ => .bind (writeData_keeps _) fun _ => .setRam fun _ => rfl

theorem readData_keeps (id : UInt32) : Keeps CredStorage.verifiedCredId (readData id) := .bind .contents fun _ => .pure _

theorem relink_keeps (current next : CredRecord) : Keeps CredStorage.verifiedCredId (relink current next) := by
  refine .bind (readData_keeps _) fun found => ?_
  cases found with
  | none => exact .bind (writeData_keeps _) fun _ => .pure _
  | some _ => exact .pure _

theorem repairBackLink_keeps (tail current next : CredRecord) :
    Keeps CredStorage.verifiedCredId (repairBackLink tail current next) := by
  refine .ite (.bind (writeData_keeps _) fun _ => .pure _) (.bind (readData_keeps _) fun found => ?_)
  cases found with
  | none => exact relink_keeps _ _
  | some deleted => exact .ite (.bind (.write _) fun _ => relink_keeps _ _) (relink_keeps _ _)

theorem repairLoop_keeps (tail : CredRecord) (steps : Nat) (current : CredRecord) :
    Keeps CredStorage.verifiedCredId (repairLoop tail steps current) := by
  induction steps generalizing current with
  | zero => exact .pure _
  | succ steps ih =>
    refine .ite (.pure _) (.bind (readData_keeps _) fun found => ?_)
    cases found with
    | none => exact .ite (.bind (writeData_keeps _) fun _ => .pure _) (.pure _)
    | some next =>
      exact .ite (.pure _) (.ite (.pure _) (.ite (repairBackLink_keeps _ _ _) (.ite (.pure _) (ih next))))

theorem garbageCollect_keeps : Keeps CredStorage.verifiedCredId garbageCollect := by
  have hrepair : Keeps CredStorage.verifiedCredId repairCredChain := by
    refine .bind (readData_keeps _) fun tail => ?_
    cases tail with
    | none => exact .pure _
    | some tail =>
      refine .ite (.pure _) (.bind (readData_keeps _) fun head => ?_)
      cases head with
      | none => exact .pure _
      | some head => exact .ite (.pure _) (repairLoop_keeps _ _ _)
  have hpool : Keeps CredStorage.verifiedCredId ensurePool := by
    refine .bind (readData_keeps _) fun head => .bind (readData_keeps _) fun tail => ?_
    have hreset : Keeps CredStorage.verifiedCredId (do resetPool; return false : Op Bool) := .bind resetPool_keeps fun _ => .pure _
    cases head with
    | none => exact hreset
    | some head =>
      cases tail with
      | none => exact hreset
      | some tail => exact .ite hreset (.pure _)
  exact .bind hpool fun _ => .ite (.bind hrepair fun _ => .ite (.pure _) resetPool_keeps) (.pure _)

/-- What a boot does before it builds the cache. -/
theorem begin_cases {q : Nvs} {r' : CredStorage} {now : UInt64} {x : Bool} (h : begin now ⟨p, [], r⟩ = .ret x ⟨q, [], r'⟩) :
    ∃ (s : Sys Key Blob CredStorage) (y : Bool), s.ram.verifiedCredId = r.verifiedCredId ∧
      rebuildCache now s = .ret y ⟨q, [], r'⟩ := by
  -- The same three steps follow, whether the old format was reset before or not.
  have hfirst : ∀ m : Op Unit, Keeps CredStorage.verifiedCredId m →
      (m >>= fun _ => garbageCollect >>= fun _ => rebuildCache now >>= fun _ => pure true : Op Bool) ⟨p, [], r⟩ =
        .ret x ⟨q, [], r'⟩ → ∃ (s : Sys Key Blob CredStorage) (y : Bool), s.ram.verifiedCredId = r.verifiedCredId ∧
      rebuildCache now s = .ret y ⟨q, [], r'⟩ := by
    intro m hm h
    obtain ⟨_, s₁, h₁, h⟩ := ret_of_bind h
    obtain ⟨_, s₂, h₂, h⟩ := ret_of_bind h
    obtain ⟨y, s₃, h₃, h⟩ := ret_of_bind h
    obtain ⟨-, rfl⟩ := Outcome.ret.inj h
    exact ⟨s₂, y, (garbageCollect_keeps _ _ _ h₂).trans (hm _ _ _ h₁), h₃⟩
  unfold begin at h
  rw [bind_apply, contents_apply, andThen_ret] at h
  cases hp : p firstKeyKey with
  | none =>
    simp only [hp] at h
    exact hfirst (pure ()) (.pure _) h
  | some blob =>
    simp only [hp] at h
    by_cases hlen : blob.length < credRecordSize
    · rw [if_pos hlen] at h
      exact hfirst resetPool resetPool_keeps h
    · rw [if_neg hlen] at h
      exact hfirst (pure ()) (.pure _) h

/-- A boot that leaves a linked pool has cached its active credentials, and
verified none. -/
theorem begin_cached {q : Nvs} {r' : CredStorage} {now : UInt64} {x : Bool} (h : begin now ⟨p, [], r⟩ = .ret x ⟨q, [], r'⟩) (hq : WellLinked q ids) :
    r'.credsCache = cacheOf q now ids ∧ r'.verifiedCredId = r.verifiedCredId := by
  obtain ⟨s, y, hver, hs⟩ := begin_cases h
  -- `rebuildCache` only reads, so the flash it read is the one it left.
  have hflash : (rebuildCache now s).flash = s.blobs := rebuildCache_flash s
  rw [hs] at hflash
  obtain ⟨m, hm⟩ : ∃ m, rebuildLoop q now rebuildFuel firstKey ([], 0) = some (cacheOf q now ids, m) :=
    rebuildLoop_wellLinked hq
  obtain ⟨blobs, faults, ram⟩ := s
  obtain rfl : q = blobs := hflash
  obtain ⟨r₀, hr₀, -⟩ := hq.head
  have hkey : q firstKeyKey ≠ none := by
    rw [← credKey_firstKey, (readRecord_eq_some.1 hr₀).1]
    simp
  simp only [rebuildCache, bind_apply, setRam_apply, andThen_ret, contents_apply, ite_prog_apply, if_neg hkey, hm] at hs
  obtain ⟨-, hs⟩ := Outcome.ret.inj hs
  obtain ⟨-, -, rfl⟩ := Sys.mk.inj hs
  exact ⟨rfl, hver⟩

/-! ## A pool of one -/

/-- The pool after the first `addCred`. -/
def onePool : Nvs := inserted emptyPool emptyTail emptyHead (sampleCred 1 firstKey lastKey) true true true

theorem onePool_insertion : Insertion emptyPool [] [] emptyTail emptyHead (sampleCred 1 firstKey lastKey) where
  pool := emptyPool_wellFormed
  tail := by decide
  prev := by decide
  last := by decide
  real := by decide
  credId := rfl
  prevId := rfl
  nextId := rfl
  valid := by decide

theorem onePool_wellFormed : WellFormed onePool [1] := onePool_insertion.wellFormed

end OrangeBox.PassStore
