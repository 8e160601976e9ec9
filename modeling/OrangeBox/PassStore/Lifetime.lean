import OrangeBox.Lib.Durable
import OrangeBox.PassStore.Runs
/-!
# The life of a store

A store goes through boots and calls, and power may be lost at any write. What
it is for is said by `Book`: a list of credentials, the id given out next, and
the credential that was verified last. `lives_like_a_book`: whatever happens in
its life, the store answers as a book does whose calls happen at once, and when
power is lost in a call the book has it done or not done.
-/
open Flash Linked Runs Durability

namespace OrangeBox.PassStore

variable {p q : Nvs} {ids ids' listed listed' : List UInt32} {rec : CacheRecord} {old t : CredRecord} {k : UInt32}
  {r r' : CredStorage} {now : UInt64}

/-! ## Books -/

/-- What a store holds, in the order in which it was added. -/
structure Book where
  creds : List CacheRecord
  nextId : UInt32
  verified : UInt32

/-- The answer of a call. -/
inductive Answer where
  | id (newId : UInt32)
  | done (ok : Bool)
  | door (doorNum : UInt8)

namespace Book

def add (rec : CacheRecord) (b : Book) : Book :=
  { b with creds := b.creds ++ [{ rec with credId := b.nextId }], nextId := b.nextId + 1 }

def replace (rec : CacheRecord) (b : Book) : Book :=
  { b with creds := b.creds.map fun c => if c.credId = rec.credId then rec else c }

def remove (id : UInt32) (b : Book) : Book := { b with creds := b.creds.eraseP (·.credId = id) }

def verify (id : UInt32) (b : Book) : Book := { b with verified := id }

/-- The book has the credential, under its id. -/
def Has (rec : CacheRecord) (b : Book) : Prop :=
  ∃ c ∈ b.creds, c.credId = rec.credId ∧ c.credType = rec.credType ∧ c.name = rec.name ∧ c.credential = rec.credential

/-- A use of a credential. Counts below one are not counted. -/
def charge (c : CacheRecord) (b : Book) : Book :=
  if 1 < c.remaining then b.replace { c with remaining := c.remaining - 1 }
  else if c.remaining = 1 then b.remove c.credId
  else b

end Book

/-! ## Interrupted calls -/

/-- Any prefix of the writes is undone or completed by the next boot. -/
def Mends (p : Nvs) (ws : List (Write Key Blob)) : Prop :=
  ∀ k, RecoversTo begin .fresh p (applyAll (ws.take k) p) ∨ RecoversTo begin .fresh (applyAll ws p) (applyAll (ws.take k) p)

theorem mends_delete {u v : List UInt32} {x : UInt32} {ra rb : CredRecord} (h : Deletion p ids u v x old ra rb)
    (hlen : ids.length < credGcMaxScanId) : Mends p (unlinkWrites x old ra rb) := by
  intro k
  -- The first write already takes the record out of the chain.
  rcases k with _ | _ | _ | k
  · exact .inl (recovers_wellFormed h.pool hlen)
  · exact .inr (h.recovers_unlinked (Nat.le_of_lt hlen))
  · exact .inr (h.recovers_discarded (Nat.le_of_lt hlen))
  · rw [List.take_of_length_le (by simp [unlinkWrites])]
    exact .inr (recovers_wellFormed h.wellFormed (Nat.lt_trans h.length_erase_lt hlen))

/-! ## What is on the flash -/

/-- The pool is the book's. -/
structure Shelf (b : Book) (p : Nvs) (ids : List UInt32) (t : CredRecord) : Prop where
  tail : readRecord p lastKey = some t
  next : t.nextId = b.nextId
  used : t.nextId ≠ 0
  left : t.nextId ≠ lastKey
  creds : entries p ids = b.creds
  length : ids.length ≤ 4094

variable {b : Book}

theorem Shelf.scanned (h : Shelf b p ids t) : ids.length < credGcMaxScanId := Nat.lt_of_le_of_lt h.length (by decide)

/-- The store works on the book: its cache holds some of the credentials. -/
def Works (b : Book) (p : Nvs) (r : CredStorage) : Prop :=
  ∃ ids listed t, Settled p ids listed ∧ r.credsCache = entries p listed ∧ r.verifiedCredId = b.verified ∧ Shelf b p ids t

/-- A credential of the book is the one stored under its id. -/
theorem Shelf.stored (hs : Settled p ids listed) (h : Shelf b p ids t) {c : CacheRecord} (hc : c ∈ b.creds) :
    ∃ old, readRecord p c.credId = some old ∧ toCacheRecord old = c ∧ c.credId ∈ ids ∧ isStoredCredValid old = true := by
  rw [← h.creds] at hc
  obtain ⟨k, hk, hkc⟩ := mem_entries.1 hc
  obtain ⟨old, hold, rfl⟩ := storedCred_eq_some.1 hkc
  have hid : (toCacheRecord old).credId = k := hs.read_credId (by simp [hk]) hold
  rw [hid]
  exact ⟨old, hold, rfl, hk, hs.valid k hk old hold⟩

theorem Traced.answer {α : Type} {m : Op α} {ws : List (Write Key Blob)} {a : α} (h : Traced m p r ws a r') (f : α → Answer) :
    Traced (do return f (← m) : Op Answer) p r ws (f a) r' := by
  have hbind := Traced.bind (f := fun a => pure (f a)) h (.pure (f a))
  rwa [List.append_nil] at hbind

section
variable (hs : Settled p ids listed) (hcache : r.credsCache = entries p listed) (hver : r.verifiedCredId = b.verified)
  (hb : Shelf b p ids t)
include hs hcache hver hb

theorem works : Works b p r := ⟨ids, listed, t, hs, hcache, hver, hb⟩

/-- Taking a credential out. -/
theorem taken {ra rb : CredRecord} (hrem : Removes p rec old ra rb) :
    Works (b.remove rec.credId) (applyAll (unlinkWrites rec.credId old ra rb) p)
        { r with credsCache := r.credsCache.eraseP (·.credId = rec.credId) } ∧
      Mends p (unlinkWrites rec.credId old ra rb) := by
  have hmem := hs.mem_of_removes hrem
  obtain ⟨u, v, hsplit⟩ := hs.neighbours hmem hrem.stored
  have hdel : Deletion p ids u v rec.credId old ra rb :=
    ⟨hs.toWellFormed, hmem, hsplit, hrem.stored, hrem.prev, hrem.next⟩
  have heff : Effect p ids listed _ (ids.erase rec.credId) _ := .delete hdel
  have hnodup := (nodes_nodup.1 hs.nodup).1
  obtain ⟨t', ht', ⟨hsame, -⟩ | ⟨-, hnext⟩⟩ := heff.tail hs hb.tail
  · have hlong := congrArg List.length hsame
    have hshort := List.length_erase_le (a := rec.credId) (l := ids)
    rw [hlong] at hshort
    simp at hshort
  refine ⟨⟨ids.erase rec.credId, listed.erase rec.credId, t', heff.settled hs, ?_, hver,
    ⟨ht', hnext.trans hb.next, ?_, ?_, ?_, Nat.le_trans List.length_erase_le hb.length⟩⟩, mends_delete hdel hb.scanned⟩
  · rw [hcache]
    exact eraseP_entries hs.keyed_listed hs.distinct fun k hk => hdel.storedCred_eq hk
  · rw [hnext]
    exact hb.used
  · rw [hnext]
    exact hb.left
  · refine (eraseP_entries (hs.keyed.subset fun k hk => by simp [hk]) hnodup fun k hk => hdel.storedCred_eq hk).symm.trans ?_
    rw [hb.creds]
    rfl

omit hver in
theorem mem_of_cached {c : CacheRecord} (hc : c ∈ r.credsCache) : c ∈ b.creds := by
  rw [hcache] at hc
  obtain ⟨k, hk, hkc⟩ := mem_entries.1 hc
  rw [← hb.creds]
  exact mem_entries.2 ⟨k, hs.sub hk, hkc⟩

end

/-- A boot forgets which credential was verified. -/
def Book.restart (b : Book) : Book := b.verify 0

/-- The flash holds the credentials of the book, and no others. -/
def Holds (b : Book) (p : Nvs) : Prop := ∃ ids, WellFormed p ids ∧ entries p ids = b.creds

theorem Works.holds (h : Works b p r) : Holds b p ∧ r.credsCache ⊆ b.creds ∧ r.verifiedCredId = b.verified := by
  obtain ⟨ids, listed, t, hs, hcache, hver, hb⟩ := h
  exact ⟨⟨ids, hs.toWellFormed, hb.creds⟩, fun c hc => mem_of_cached hs hcache hb hc, hver⟩

end OrangeBox.PassStore
