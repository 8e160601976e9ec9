import OrangeBox.PassStore.Interrupted
/-!
# Power loss in the middle of a call

A call changes the flash in one of a few ways (`Change`). Cut after any of its
writes, a change either has not happened yet or is completed by the next boot
(`Change.recovers`); a boot that is itself cut starts over. So the stored
credentials are those before the call or those after it (`power_loss_atomic`).

The exception is `removeCred` on HEAD, which the code allows when HEAD carries
a credential text.
-/
open Flash Linked

namespace OrangeBox.PassStore

variable {p q : Nvs} {ids : List UInt32} {rec : CacheRecord} {r : CredStorage}

/-- The same credentials are stored, with the same fields. -/
def SameCreds (p q : Nvs) : Prop := ∀ id, isRealCredId id = true → readRecord p id = readRecord q id

/-- No credential is stored in a well-formed pool without ids. -/
theorem SameCreds.of_empty (hp : WellFormed p []) (hq : WellFormed q []) : SameCreds p q := by
  intro id hid
  have hno : id ∉ nodes [] := by
    obtain ⟨h0, h1⟩ := isRealCredId_iff.1 hid
    simp [h0, h1]
  rw [hp.read_none hno, hq.read_none hno]

/-! ## What a call writes -/

/-- The writes of one call on a well-formed pool. `empty` is about a pool
without credentials whose ids are used up. -/
inductive Change (p : Nvs) (ids : List UInt32) : List (Write Key Blob) → Prop
  | none : Change p ids []
  | rewrite {old new : CredRecord} : readRecord p new.credId = some old → new.nextId = old.nextId →
      new.prevId = old.prevId → new.recordType = .credentialV1 →
      (isRealCredId new.credId = true → isStoredCredValid new = true) → Change p ids [store new]
  | insert {l : List UInt32} {t ra rn : CredRecord} : Insertion p ids l t ra rn → Change p ids (insertWrites t ra rn)
  | delete {u v : List UInt32} {x : UInt32} {old ra rb : CredRecord} : Deletion p ids u v x old ra rb →
      Change p ids (unlinkWrites x old ra rb)
  | empty {ws : List (Write Key Blob)} : ids = [] →
      (∀ k, WellFormed (applyAll (ws.take k) p) [] ∨ Refused (applyAll (ws.take k) p)) → Change p ids ws

/-- Cut anywhere, a change is undone or completed by the next boot. -/
theorem Change.recovers {ws : List (Write Key Blob)} (h : Change p ids ws) (hp : WellFormed p ids)
    (hlen : ids.length ≤ 4094) (k : Nat) :
    ∃ q ids', RecoversTo begin .fresh q (applyAll (ws.take k) p) ∧ WellFormed q ids' ∧
      (SameCreds q p ∨ SameCreds q (applyAll ws p)) := by
  have hlen' : ids.length < credGcMaxScanId := Nat.lt_of_le_of_lt hlen (by decide)
  have hsame : ∀ q, SameCreds q q := fun q id _ => rfl
  cases h with
  | none => exact ⟨p, ids, by simpa using recovers_wellFormed hp hlen', hp, .inl (hsame p)⟩
  | rewrite hr hnext hprev htype hvalid =>
    rename_i old new
    rcases k with _ | k
    · exact ⟨p, ids, recovers_wellFormed hp hlen', hp, .inl (hsame p)⟩
    · have hq : WellFormed ((store new).apply p) ids :=
        hp.rewrite hr (fun _ => hnext) (fun he k hk => hnext ▸ hp.below k hk old (he ▸ hr)) hprev htype hvalid
      exact ⟨_, ids, by simpa using recovers_wellFormed hq hlen', hq, .inr (hsame _)⟩
  | insert h =>
    rename_i l t ra rn
    rcases k with _ | _ | _ | k
    · exact ⟨p, ids, recovers_wellFormed hp hlen', hp, .inl (hsame p)⟩
    · exact ⟨p, ids, h.recovers_linked hlen', hp, .inl (hsame p)⟩
    · exact ⟨_, _, h.recovers_stored (Nat.lt_of_le_of_lt (Nat.succ_le_succ hlen) (by decide)), h.wellFormed,
        .inr (hsame _)⟩
    · refine ⟨_, _, ?_, h.wellFormed, .inr (hsame _)⟩
      rw [List.take_of_length_le (by simp [insertWrites])]
      exact recovers_wellFormed h.wellFormed (by
        rw [List.length_append]
        exact Nat.lt_of_le_of_lt (Nat.succ_le_succ hlen) (by decide))
  | delete h =>
    rename_i u v x old ra rb
    rcases k with _ | _ | _ | k
    · exact ⟨p, ids, recovers_wellFormed hp hlen', hp, .inl (hsame p)⟩
    · exact ⟨_, _, h.recovers_unlinked (Nat.le_of_lt hlen'), h.wellFormed, .inr (hsame _)⟩
    · exact ⟨_, _, h.recovers_discarded (Nat.le_of_lt hlen'), h.wellFormed, .inr (hsame _)⟩
    · refine ⟨_, _, ?_, h.wellFormed, .inr (hsame _)⟩
      rw [List.take_of_length_le (by simp [unlinkWrites])]
      exact recovers_wellFormed h.wellFormed (Nat.lt_trans h.length_erase_lt hlen')
  | empty hids hcut =>
    subst hids
    rcases hcut k with hq | hq
    · exact ⟨_, [], recovers_wellFormed hq (by decide), hq, .inl (.of_empty hq hp)⟩
    · exact ⟨emptyPool, [], recovers_refused hq, emptyPool_wellFormed, .inl (.of_empty emptyPool_wellFormed hp)⟩

/-! ## Each call is a change -/

/-- A pool whose HEAD leads to itself is refused. -/
theorem refused_of_head {head t : CredRecord} (hhead : readRecord p firstKey = some head) (hid : head.credId = firstKey)
    (hnext : head.nextId = firstKey) (ht : readRecord p lastKey = some t) (htid : t.credId = lastKey) : Refused p := by
  have hs : Sentinels p t := ⟨⟨head, hhead, hid⟩, ht, htid⟩
  have hstop : Stops p t [] head := ⟨hs, .head hhead hid, by decide⟩
  exact .chain hs fun r => hstop.refused (.inl hnext)

/-- A pool without TAIL is refused. -/
theorem refused_of_no_tail (h : readRecord p lastKey = none) : Refused p :=
  .sentinels (by rintro ⟨t, -, ht, -⟩; rw [h] at ht; contradiction)

/-- Without credentials, TAIL follows HEAD. -/
theorem WellFormed.tail_prev_of_empty {t : CredRecord} (hp : WellFormed p []) (ht : readRecord p lastKey = some t) :
    t.prevId = firstKey := by
  obtain ⟨l, -, hl, -⟩ := hp.last ht
  cases l with
  | nil => simpa using hl.symm
  | cons a l => simp at hl

/-- The writes of an insert after the last id, into a pool without credentials:
HEAD is overwritten instead. -/
theorem exhausted_cases {t ra credIn : CredRecord} (hp : WellFormed p []) (ht : readRecord p lastKey = some t)
    (hra : readRecord p t.prevId = some ra) (hc : credIn.recordType = .credentialV1) (h0 : t.nextId = 0)
    (w₁ w₂ w₃ : Bool) :
    WellFormed (inserted p t ra (newRecord credIn t) w₁ w₂ w₃) [] ∨
      Refused (inserted p t ra (newRecord credIn t) w₁ w₂ w₃) := by
  have hprev := hp.tail_prev_of_empty ht
  obtain ⟨-, ra', -, hra', hnext⟩ := hp.last ht
  obtain rfl := Option.some.inj (hra.symm.trans hra')
  rw [hprev] at hra
  have hid : ra.credId = firstKey := hp.read_credId (by simp) hra
  have hnew : (newRecord credIn t).credId = firstKey := h0
  have hnewType : (newRecord credIn t).recordType = .credentialV1 := hc
  have htid : t.credId = lastKey := hp.read_credId (by simp) ht
  -- Writing TAIL keeps a well-formed pool, and a refused one for the same HEAD.
  have htail : ∀ q, WellFormed q [] → readRecord q lastKey = some t →
      WellFormed ((store ((t.withNext (t.nextId + 1)).withPrev t.nextId)).applyIf w₃ q) [] := by
    intro q hq hqt
    cases w₃ with
    | false => exact hq
    | true =>
      refine hq.rewrite (by rw [withPrev_credId, withNext_credId, htid, hqt]) (fun hne => absurd htid hne) (by simp)
        ?_ (by simp [recordType_of_read ht]) ?_
      · rw [withPrev_prevId, h0, hprev]
      · rw [withPrev_credId, withNext_credId, htid]; exact fun hr => absurd hr (by decide)
  cases w₂ with
  | true =>
    have h2 : WellFormed ((store (newRecord credIn t)).apply p) [] := by
      refine hp.rewrite (by rw [hnew, hra]) (fun _ => hnext.symm) (by simp) ?_ hc ?_
      · rw [hp.headPrev ra hra]; exact hprev
      · rw [hnew]; exact fun hr => absurd hr (by decide)
    have hover : (store (newRecord credIn t)).apply ((store (ra.withNext t.nextId)).applyIf w₁ p) =
        (store (newRecord credIn t)).apply p := by
      cases w₁ with
      | false => rfl
      | true => exact store_store (by rw [hnew, withNext_credId, hid])
    left
    rw [inserted, applyIf_true, hover]
    exact htail _ h2 (by rw [readRecord_store hnewType, hnew, if_neg (by decide), ht])
  | false =>
    cases w₁ with
    | false => exact .inl (htail p hp ht)
    | true =>
      have htype : (ra.withNext t.nextId).recordType = .credentialV1 := by simp [recordType_of_read hra]
      have htype' : ((t.withNext (t.nextId + 1)).withPrev t.nextId).recordType = .credentialV1 := by
        simp [recordType_of_read ht]
      have hread : ∀ k, readRecord (inserted p t ra (newRecord credIn t) true false w₃) k =
          if w₃ = true ∧ k = lastKey then some ((t.withNext (t.nextId + 1)).withPrev t.nextId)
          else if k = firstKey then some (ra.withNext t.nextId) else readRecord p k := fun k => by
        rw [inserted, applyIf_false, applyIf_true, readRecord_storeIf htype', readRecord_store htype]
        simp only [withPrev_credId, withNext_credId, htid, hid]
      have hlast : ∃ t', readRecord (inserted p t ra (newRecord credIn t) true false w₃) lastKey = some t' ∧
          t'.credId = lastKey := by
        cases w₃ with
        | true => exact ⟨(t.withNext (t.nextId + 1)).withPrev t.nextId, by rw [hread, if_pos ⟨rfl, rfl⟩], htid⟩
        | false => exact ⟨t, by rw [hread, if_neg (by simp), if_neg (by decide), ht], htid⟩
      obtain ⟨t', ht', htid'⟩ := hlast
      have hfirst : readRecord (inserted p t ra (newRecord credIn t) true false w₃) firstKey =
          some (ra.withNext t.nextId) := by
        rw [hread, if_neg (fun hf => absurd hf.2 (by decide)), if_pos rfl]
      exact .inr (refused_of_head hfirst hid h0 ht' htid')

theorem insert_change_exhausted {t ra credIn : CredRecord} (hp : WellFormed p []) (ht : readRecord p lastKey = some t)
    (hra : readRecord p t.prevId = some ra) (hc : credIn.recordType = .credentialV1) (h0 : t.nextId = 0) :
    Change p [] (insertWrites t ra (newRecord credIn t)) := by
  refine .empty rfl fun k => ?_
  rcases k with _ | _ | _ | k
  · exact .inl hp
  · exact exhausted_cases hp ht hra hc h0 true false false
  · exact exhausted_cases hp ht hra hc h0 true true false
  · rw [List.take_of_length_le (by simp [insertWrites])]
    exact exhausted_cases hp ht hra hc h0 true true true

theorem insert_change {t ra credIn : CredRecord} (hp : WellFormed p ids) (ht : readRecord p lastKey = some t)
    (hra : readRecord p t.prevId = some ra) (hc : credIn.recordType = .credentialV1) (hlast : t.nextId ≠ lastKey)
    (hvalid : isRealCredId t.nextId = true → isStoredCredValid (newRecord credIn t) = true) :
    Change p ids (insertWrites t ra (newRecord credIn t)) := by
  by_cases h0 : t.nextId = 0
  · have hids : ids = [] := List.eq_nil_iff_forall_not_mem.2 fun k hk => by
      have := hp.below k hk t ht
      rw [h0] at this
      exact absurd this (UInt32.not_lt_zero)
    subst hids
    exact insert_change_exhausted hp ht hra hc h0
  · obtain ⟨l, -, hl, -⟩ := hp.last ht
    have hreal : isRealCredId t.nextId = true := isRealCredId_iff.2 ⟨h0, hlast⟩
    exact .insert ⟨hp, ht, hra, hl, hreal, rfl, rfl, rfl, hvalid hreal⟩

theorem newCredRecord_valid {t : CredRecord} (hv : validateCred rec = true) (hreal : isRealCredId t.nextId = true) :
    isStoredCredValid (newRecord (newCredRecord rec) t) = true :=
  isStoredCredValid_of_same hv hreal rfl rfl (truncate_name_of_valid hv) (copyCredential_of_valid (validateCred_iff.1 hv).1)
    rfl rfl

theorem addCred_change (rec : CacheRecord) {t : CredRecord} (hp : WellFormed p ids) (ht : readRecord p lastKey = some t)
    (hlast : t.nextId ≠ lastKey) : ∃ ws a r', Traced (addCred rec) p r ws a r' ∧ Change p ids ws := by
  by_cases hv : validateCred rec = true
  · obtain ⟨l, ra, -, hra, -⟩ := hp.last ht
    have hins : Traced (insertCred (newCredRecord rec) t ra) p r _ t.nextId r :=
      insertCred_traced (recordType_of_read ht) (recordType_of_read hra) rfl
    obtain ⟨a, r', hdone⟩ : ∃ a r', Traced (addDone rec t.nextId)
        (applyAll (insertWrites t ra (newRecord (newCredRecord rec) t)) p) r [] a r' := by
      by_cases h0 : t.nextId = 0
      · exact ⟨0, r, .of_reads fun _ => by rw [h0, addDone_zero]⟩
      · exact ⟨_, _, .of_reads fun _ => addDone_of_ne h0⟩
    have htrace := (hins.bind hdone).congr fun fs => addCred_valid ht hra hv
    rw [List.append_nil] at htrace
    exact ⟨_, a, r', htrace, insert_change hp ht hra rfl hlast (newCredRecord_valid hv)⟩
  · exact ⟨[], 0, r, .of_reads fun _ => addCred_invalid (by simpa using hv) _, .none⟩

theorem updateCred_change (rec : CacheRecord) {t : CredRecord} (hp : WellFormed p ids) (ht : readRecord p lastKey = some t)
    (hlast : t.nextId ≠ lastKey) : ∃ ws a r', Traced (updateCred rec) p r ws a r' ∧ Change p ids ws := by
  by_cases hu : ∃ old, Updates p rec old
  · obtain ⟨old, hu⟩ := hu
    obtain ⟨htype, hname, hcred⟩ := sameCred_iff.1 hu.same
    have hold := hu.credId hp
    have holdType := recordType_of_read hu.stored
    by_cases h0 : rec.credId = firstKey
    · obtain ⟨l, ra, -, hra, -⟩ := hp.last ht
      have hins : Traced (insertCred (old.updated rec) t ra) p r _ t.nextId r :=
        insertCred_traced (recordType_of_read ht) (recordType_of_read hra) holdType
      obtain ⟨a, r', hdone⟩ : ∃ a r', Traced (updateDone rec (t.nextId ≠ 0))
          (applyAll (insertWrites t ra (newRecord (old.updated rec) t)) p) r [] a r' := by
        by_cases hn : t.nextId = 0
        · exact ⟨false, r, .of_reads fun _ => by simp [hn, updateDone_false]⟩
        · exact ⟨true, _, .of_reads fun _ => by simpa [hn] using updateDone_true⟩
      have htrace := (Traced.bind (f := fun newId => updateDone rec (newId ≠ 0)) hins hdone).congr
        fun fs => updateCred_head hp hu h0 ht hra
      rw [List.append_nil] at htrace
      exact ⟨_, a, r', htrace, insert_change hp ht hra holdType hlast fun hreal =>
        isStoredCredValid_of_same hu.valid hreal holdType htype hname hcred rfl rfl⟩
    · have hw : Traced (write (store (old.updated rec)) >>= updateDone rec) p r ([store (old.updated rec)] ++ []) true _ :=
        Traced.bind (.write _) (.of_reads fun _ => updateDone_true)
      have htrace := hw.congr fun fs => updateCred_stored hp hu h0
      refine ⟨_, true, _, htrace, .rewrite ?_ (updated_nextId) (updated_prevId) holdType fun hreal => ?_⟩
      · rw [updated_credId, hold, hu.stored]
      · exact isStoredCredValid_of_same hu.valid hreal holdType htype hname hcred rfl rfl
  · exact ⟨[], false, r, .of_reads fun _ => updateCred_refused (by simpa using hu), .none⟩

/-- HEAD holds no credential text, as `resetPool` leaves it. -/
def HeadBlank (p : Nvs) : Prop :=
  ∀ head, readRecord p firstKey = some head → validateCredential (some head.credential.bytes) head.credType 0 = false

/-- The writes of removing TAIL, which takes a text on it and a used-up id
range: the same pool, or one that is refused. -/
theorem tail_removal_cases {t ra rb : CredRecord} (hp : WellFormed p []) (ht : readRecord p lastKey = some t)
    (hra : readRecord p t.prevId = some ra) (hrb : readRecord p t.nextId = some rb) (h0 : t.nextId = 0)
    (w₁ w₂ w₃ : Bool) : WellFormed (deleted p lastKey t ra rb w₁ w₂ w₃) [] ∨ Refused (deleted p lastKey t ra rb w₁ w₂ w₃) := by
  have hprev := hp.tail_prev_of_empty ht
  rw [hprev] at hra
  rw [h0] at hrb
  obtain rfl := Option.some.inj (hra.symm.trans hrb)
  have hid : ra.credId = firstKey := hp.read_credId (by simp) hra
  have htid : t.credId = lastKey := hp.read_credId (by simp) ht
  have htype : (ra.withNext t.nextId).recordType = .credentialV1 := by simp [recordType_of_read hra]
  have hsame : ra.withPrev t.prevId = ra := withPrev_of_eq ((hp.headPrev ra hra).trans hprev.symm)
  have hread : ∀ k, readRecord (deleted p lastKey t ra ra w₁ w₂ w₃) k =
      if w₃ = true ∧ k = firstKey then some ra else if w₂ = true ∧ k = lastKey then none
      else if w₁ = true ∧ k = firstKey then some (ra.withNext t.nextId) else readRecord p k := fun k => by
    rw [deleted, hsame, readRecord_storeIf (recordType_of_read hra), readRecord_discardIf, readRecord_storeIf htype,
      withNext_credId, hid]
  cases w₂ with
  | true =>
    refine .inr (refused_of_no_tail ?_)
    rw [hread, if_neg (fun hf => absurd hf.2 (by decide)), if_pos ⟨rfl, rfl⟩]
  | false =>
    cases w₃ with
    | true =>
      -- HEAD is written back as it was.
      have hback : deleted p lastKey t ra ra w₁ false true = p := by
        rw [deleted, hsame, applyIf_true, applyIf_false]
        cases w₁ with
        | false =>
          rw [applyIf_false]
          exact store_of_read (by rw [hid, hra])
        | true =>
          rw [applyIf_true, store_store (show ra.credId = (ra.withNext t.nextId).credId from rfl)]
          exact store_of_read (by rw [hid, hra])
      rw [hback]
      exact .inl hp
    | false =>
      cases w₁ with
      | false => exact .inl hp
      | true =>
        have hlast : readRecord (deleted p lastKey t ra ra true false false) lastKey = some t := by
          rw [hread, if_neg (by simp), if_neg (by simp), if_neg (fun hf => absurd hf.2 (by decide)), ht]
        have hfirst : readRecord (deleted p lastKey t ra ra true false false) firstKey = some (ra.withNext t.nextId) := by
          rw [hread, if_neg (by simp), if_neg (by simp), if_pos ⟨rfl, rfl⟩]
        exact .inr (refused_of_head hfirst hid h0 hlast htid)

theorem unlink_change_tail {t ra rb : CredRecord} (hp : WellFormed p []) (ht : readRecord p lastKey = some t)
    (hra : readRecord p t.prevId = some ra) (hrb : readRecord p t.nextId = some rb) (h0 : t.nextId = 0) :
    Change p [] (unlinkWrites lastKey t ra rb) := by
  refine .empty rfl fun k => ?_
  rcases k with _ | _ | _ | k
  · exact .inl hp
  · exact tail_removal_cases hp ht hra hrb h0 true false false
  · exact tail_removal_cases hp ht hra hrb h0 true true false
  · rw [List.take_of_length_le (by simp [unlinkWrites])]
    exact tail_removal_cases hp ht hra hrb h0 true true true

theorem removeCred_change (rec : CacheRecord) {t : CredRecord} (hp : WellFormed p ids) (ht : readRecord p lastKey = some t)
    (hlast : t.nextId ≠ lastKey) (hhead : rec.credId = firstKey → HeadBlank p) :
    ∃ ws a r', Traced (removeCred rec) p r ws a r' ∧ Change p ids ws := by
  by_cases hr : ∃ old ra rb, Removes p rec old ra rb
  · obtain ⟨old, ra, rb, hr⟩ := hr
    have htrace : Traced (unlinkCred rec.credId old ra rb >>= fun _ => removeDone rec) p r
        (unlinkWrites rec.credId old ra rb ++ []) rec.credId _ :=
      Traced.bind (unlinkCred_traced (recordType_of_read hr.prev) (recordType_of_read hr.next))
        (.of_reads fun _ => removeDone_eq)
    rw [List.append_nil] at htrace
    refine ⟨_, _, _, htrace.congr fun fs => removeCred_removes hp hr, ?_⟩
    rcases mem_nodes.1 (hp.mem_of_read hr.stored) with h0 | hmem | h1
    · have hblank := hhead h0 old (h0 ▸ hr.stored)
      obtain ⟨htype, -, hcred⟩ := sameCred_iff.1 hr.same
      rw [htype, hcred, hr.text] at hblank
      contradiction
    · obtain ⟨u, v, hsplit⟩ := hp.neighbours hmem hr.stored
      exact .delete ⟨hp, hmem, hsplit, hr.stored, hr.prev, hr.next⟩
    · have hstored := hr.stored
      rw [h1] at hstored ⊢
      obtain rfl := Option.some.inj (hstored.symm.trans ht)
      have h0 : old.nextId = 0 := by
        by_contra h0
        have hreal : isRealCredId old.nextId = true := isRealCredId_iff.2 ⟨h0, hlast⟩
        exact hp.nextId_fresh ht hreal (hp.mem_of_read hr.next)
      have hids := hp.eq_nil_of_nextId ht h0
      subst hids
      exact unlink_change_tail hp ht hr.prev hr.next h0
  · exact ⟨[], 0, r, .of_reads fun _ => removeCred_refused hp (by simpa using hr), .none⟩

theorem usedCred_change {t : CredRecord} {doorNum : UInt8} {now : UInt64} (hp : WellFormed p ids)
    (ht : readRecord p lastKey = some t) (hlast : t.nextId ≠ lastKey) :
    ∃ ws a r', Traced (usedCred doorNum now) p r ws a r' ∧ Change p ids ws := by
  have hdone : ∀ q r done, ∃ a r', Traced (usedDone done) q r [] a r' := fun q r done => by
    cases done with
    | false => exact ⟨_, _, .of_reads fun _ => usedDone_false⟩
    | true => exact ⟨_, _, .of_reads fun _ => usedDone_true⟩
  by_cases hv : r.verifiedCredId = 0
  · exact ⟨[], _, _, .of_reads fun _ => usedCred_unverified hv, .none⟩
  cases hc : charged r doorNum with
  | none => exact ⟨[], _, _, .of_reads fun _ => usedCred_unknown hv hc, .none⟩
  | some c =>
    by_cases hact : c.isActive now = true
    · rcases lt_trichotomy 1 c.remaining with hrem | hrem | hrem
      · obtain ⟨ws, a, r', htrace, hchange⟩ :=
          updateCred_change { c with remaining := c.remaining - 1 } (r := r) hp ht hlast
        obtain ⟨b, r'', hd⟩ := hdone (applyAll ws p) r' a
        have := (htrace.bind hd).congr fun fs => usedCred_counted hv hc hact hrem
        exact ⟨ws, b, r'', by rwa [List.append_nil] at this, hchange⟩
      · have hne : c.credId ≠ firstKey := by rw [(charged_some hc).2.1]; exact hv
        obtain ⟨ws, a, r', htrace, hchange⟩ :=
          removeCred_change c (r := r) hp ht hlast fun h0 => absurd h0 hne
        obtain ⟨b, r'', hd⟩ := hdone (applyAll ws p) r' (a ≠ 0 ∧ idMoved r doorNum ≠ 0)
        have := (Traced.bind (f := fun removed => usedDone (removed ≠ 0 ∧ idMoved r doorNum ≠ 0)) htrace hd).congr
          fun fs => usedCred_last hv hc hact hrem.symm
        exact ⟨ws, b, r'', by rwa [List.append_nil] at this, hchange⟩
      · exact ⟨[], _, _, .of_reads fun _ => usedCred_unlimited hv hc hact hrem, .none⟩
    · exact ⟨[], _, _, .of_reads fun _ => usedCred_inactive hv hc (by simpa using hact), .none⟩

/-- What any call writes. -/
theorem Call.change {call : Call} {t : CredRecord} (hp : WellFormed p ids) (ht : readRecord p lastKey = some t)
    (hlast : t.nextId ≠ lastKey) (hcall : ∀ rec, call = .removeCred rec → rec.credId = firstKey → HeadBlank p) :
    ∃ ws r', Traced call.run p r ws () r' ∧ Change p ids ws := by
  have hdrop : ∀ {α : Type} {m : Op α}, (∃ ws a r', Traced m p r ws a r' ∧ Change p ids ws) →
      ∃ ws r', Traced (do let _ ← m : Op Unit) p r ws () r' ∧ Change p ids ws := by
    rintro α m ⟨ws, a, r', htrace, hchange⟩
    have := Traced.bind (f := fun _ => pure ()) htrace (.pure ())
    exact ⟨ws, r', by rwa [List.append_nil] at this, hchange⟩
  cases call with
  | addCred rec => exact hdrop (addCred_change rec hp ht hlast)
  | updateCred rec => exact hdrop (updateCred_change rec hp ht hlast)
  | removeCred rec => exact hdrop (removeCred_change rec hp ht hlast (hcall rec rfl))
  | usedCred doorNum now => exact hdrop (usedCred_change hp ht hlast)
  | verifyCred credEntered credType now =>
    refine hdrop ?_
    cases hacc : accepted r credEntered credType now with
    | none => exact ⟨[], _, _, .of_reads fun fs => by rw [verifyCred_eq, hacc], .none⟩
    | some c => exact ⟨[], _, _, .of_reads fun fs => by rw [verifyCred_eq, hacc], .none⟩
  | refreshCache now =>
    obtain ⟨m, hm⟩ := rebuildCache_wellLinked now hp.toWellLinked
    exact hdrop ⟨[], _, _, hm r, .none⟩

/-! ## Atomicity -/

/-- Power is lost after `k` of the call's writes. However often the next boot
is cut as well, in the end it returns with a well-formed pool that holds the
credentials from before the call, or those the completed call leaves. -/
def PowerLossAtomic (p : Nvs) (r : CredStorage) (call : Call) : Prop :=
  ∀ (k : Nat) (cuts : List (Nat × UInt64)) (now : UInt64), ∃ a q r' ids,
    begin now ⟨reboots begin .fresh (call.run ⟨p, lossAfter k, r⟩).flash cuts, [], .fresh⟩ = .ret a ⟨q, [], r'⟩ ∧
      WellFormed q ids ∧ (SameCreds q p ∨ SameCreds q (call.run ⟨p, [], r⟩).flash)

theorem power_loss_atomic {t : CredRecord} (hp : WellFormed p ids) (hlen : ids.length ≤ 4094)
    (ht : readRecord p lastKey = some t) (hlast : t.nextId ≤ 0xfffffffe) (r : CredStorage) (call : Call)
    (hcall : ∀ rec, call = .removeCred rec → rec.credId = firstKey → HeadBlank p) : PowerLossAtomic p r call := by
  intro k cuts now
  have hne : t.nextId ≠ lastKey := by
    rintro he
    rw [he] at hlast
    exact absurd hlast (by decide)
  obtain ⟨ws, r', htrace, hchange⟩ := call.change (r := r) hp ht hne hcall
  obtain ⟨q, ids', hrec, hq, hsame⟩ := hchange.recovers hp hlen k
  rw [← htrace.flash_cut] at hrec
  obtain ⟨a, r'', hboot⟩ := hrec.reboots cuts now
  rw [htrace.flash_whole]
  exact ⟨a, q, r'', ids', hboot, hq, hsame⟩

theorem power_loss_atomic_onePool :
    PowerLossAtomic onePool .fresh (.addCred (toCacheRecord (sampleCred 0 0 0))) :=
  power_loss_atomic onePool_wellFormed (by decide) (show readRecord onePool lastKey = some _ from rfl) (by decide) .fresh
    _ (by simp)

/-- A pool of one whose HEAD carries a credential text. -/
def headTextPool : Nvs := (store (sampleCred firstKey firstKey 1)).apply onePool

theorem headTextPool_wellFormed : WellFormed headTextPool [1] :=
  onePool_wellFormed.rewrite (show readRecord onePool firstKey = some _ from rfl) (fun _ => by decide)
    (fun he => absurd he (by decide)) (by decide) rfl (fun hr => absurd hr (by decide))

/-- Removing HEAD of that pool. -/
def removeHead : Call := .removeCred (toCacheRecord (sampleCred firstKey firstKey 1))

/-- HEAD can be removed under its text; without it the next boot drops the pool. -/
theorem head_removal_not_atomic :
    WellFormed headTextPool [1] ∧ (readRecord headTextPool lastKey).map CredRecord.nextId = some 2 ∧
      ¬PowerLossAtomic headTextPool .fresh removeHead := by
  refine ⟨headTextPool_wellFormed, by decide, fun h => ?_⟩
  obtain ⟨a, q, r', ids, hboot, -, hsame⟩ := h 2 [] 0
  have hlost : (begin 0 ⟨reboots begin .fresh (removeHead.run ⟨headTextPool, lossAfter 2, .fresh⟩).flash [], [],
      .fresh⟩).flash (credKey 1) = none := by decide
  rw [hboot] at hlost
  have hnone : readRecord q 1 = none := by
    have hlost : q (credKey 1) = none := hlost
    simp [readRecord, hlost]
  rcases hsame with hsame | hsame
  · have hstored : (readRecord headTextPool 1).isSome := by decide
    rw [← hsame 1 (by decide), hnone] at hstored
    contradiction
  · have hstored : (readRecord (removeHead.run ⟨headTextPool, [], .fresh⟩).flash 1).isSome := by decide
    rw [← hsame 1 (by decide), hnone] at hstored
    contradiction

end OrangeBox.PassStore
