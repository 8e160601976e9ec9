import Mathlib
/-!
# Handles

A library gives out handles and takes them back. `book` reads a record of what
was done with them: which are live, whether each was new when it was given out,
and whether only live ones were used. A client that accounts for the handles it
holds (`Holds`) uses live ones only.
-/

namespace Ledger

variable {H : Type}

inductive Entry (H : Type) where
  | acquired (h : H)
  | used (h : H)
  /-- Given back; until it is `done` the handle is still live. -/
  | released (h : H) (done : Bool)
  /-- The library is closed with all its handles. -/
  | allGone

structure Book (H : Type) where
  live : List H
  /-- No live handle was given out again. -/
  fresh : Bool
  /-- Only live handles were used and given back. -/
  sound : Bool

variable [DecidableEq H]

def Book.enter (b : Book H) : Entry H → Book H
  | .acquired h => ⟨h :: b.live, b.fresh && h ∉ b.live, b.sound⟩
  | .used h => { b with sound := b.sound && h ∈ b.live }
  | .released h done => ⟨if done then b.live.erase h else b.live, b.fresh, b.sound && h ∈ b.live⟩
  | .allGone => { b with live := [] }

def book (entries : List (Entry H)) : Book H := entries.foldl .enter ⟨[], true, true⟩

theorem book_snoc (entries : List (Entry H)) (e : Entry H) : book (entries ++ [e]) = (book entries).enter e := by
  rw [book, List.foldl_append]
  rfl

/-- So far only live handles were used, and the ones that are held are live and
held once, if the library gave out new ones each time. -/
def Holds (entries : List (Entry H)) (held : List H) : Prop :=
  (book entries).fresh = true → (book entries).sound = true ∧ held.Nodup ∧ ∀ h ∈ held, h ∈ (book entries).live

variable {entries : List (Entry H)} {held held' : List H} {h : H}

theorem Holds.empty : Holds ([] : List (Entry H)) [] := fun _ => ⟨rfl, .nil, by simp⟩

/-- Handles may change places and be forgotten. -/
theorem Holds.forget (hh : Holds entries held) (hs : List.Subperm held' held) : Holds entries held' := by
  intro hf
  obtain ⟨hsound, hn, hl⟩ := hh hf
  obtain ⟨l, hp, hsub⟩ := hs
  exact ⟨hsound, hp.nodup_iff.1 (hsub.nodup hn), fun x hx => hl x (hsub.subset (hp.mem_iff.2 hx))⟩

theorem Holds.acquire (hh : Holds entries held) (h : H) : Holds (entries ++ [.acquired h]) (h :: held) := by
  intro hf
  rw [book_snoc] at hf ⊢
  simp only [Book.enter, Bool.and_eq_true, decide_eq_true_eq] at hf ⊢
  obtain ⟨hsound, hn, hl⟩ := hh hf.1
  refine ⟨hsound, List.nodup_cons.2 ⟨fun hm => hf.2 (hl h hm), hn⟩, fun x hx => ?_⟩
  rcases List.mem_cons.1 hx with rfl | hx
  · exact List.mem_cons_self
  · exact List.mem_cons_of_mem _ (hl x hx)

theorem Holds.use (hh : Holds entries held) (hm : h ∈ held) : Holds (entries ++ [.used h]) held := by
  intro hf
  rw [book_snoc] at hf ⊢
  obtain ⟨hsound, hn, hl⟩ := hh hf
  exact ⟨by simp [Book.enter, hsound, hl h hm], hn, hl⟩

/-- What was not taken back is still held. -/
theorem Holds.retry (hh : Holds entries held) (hm : h ∈ held) : Holds (entries ++ [.released h false]) held := by
  intro hf
  rw [book_snoc] at hf ⊢
  obtain ⟨hsound, hn, hl⟩ := hh hf
  exact ⟨by simp [Book.enter, hsound, hl h hm], hn, hl⟩

theorem Holds.release (hh : Holds entries (h :: held)) (done : Bool) : Holds (entries ++ [.released h done]) held := by
  intro hf
  rw [book_snoc] at hf ⊢
  obtain ⟨hsound, hn, hl⟩ := hh hf
  obtain ⟨hnot, hn⟩ := List.nodup_cons.1 hn
  refine ⟨by simp [Book.enter, hsound, hl h], hn, fun x hx => ?_⟩
  have hlive := hl x (List.mem_cons_of_mem _ hx)
  simp only [Book.enter]
  split
  · exact (List.mem_erase_of_ne (by rintro rfl; exact hnot hx)).2 hlive
  · exact hlive

theorem Holds.close (hh : Holds entries held) : Holds (entries ++ [.allGone]) [] := by
  intro hf
  rw [book_snoc] at hf ⊢
  exact ⟨(hh hf).1, .nil, by simp⟩

/-- Any number of uses. -/
theorem Holds.uses (hh : Holds entries held) {more : List (Entry H)} (hm : ∀ e ∈ more, ∃ h ∈ held, e = .used h) :
    Holds (entries ++ more) held := by
  induction more generalizing entries with
  | nil => rwa [List.append_nil]
  | cons e more ih =>
    obtain ⟨h, hin, rfl⟩ := hm e (by simp)
    rw [List.append_cons]
    exact ih (hh.use hin) fun e' he' => hm e' (by simp [he'])

end Ledger
