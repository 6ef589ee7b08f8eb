/-
# `ArchiveMount.Proofs.Tree.Reader` — reading the record of a file

What is served of a file is read off its record in the cache.  A read ends at a sum that stops
at the greatest word, and where the record ends at the latest; what lies before is read in one
go.  `EntryReader` does this in machine words, where each operation may end in a `Trap`.  None
does, wherever a read begins and however much it asks for, and what is read is `readAt`
(`EntryReader.readChecked_eq`).

Every request opens its file anew.  The first time may fetch it; from then on the same bytes
come from the cache, and nothing changes (`Tree.run_openPath_again`).
-/
import ArchiveMount.Proofs.Archive.Checked
import ArchiveMount.Proofs.Tree.Persistence

namespace ArchiveMount

variable {content : Bytes} {offset count : Nat}

/-- A read reaches the end if it asks for what is left. -/
theorem length_le_addSat_iff (hfits : content.length ≤ maxWord) :
    content.length ≤ addSat offset (readAt content offset count).length ↔
      content.length ≤ offset + count := by
  rw [length_readAt, addSat]
  omega

/-! ## Readers -/

/-- A record that is read. -/
structure EntryReader where
  file : Bytes
  len : Nat
  length_file : file.length = len

namespace EntryReader

/-- Begin to read a record; it has to have the length that is declared. -/
def open? (file : Bytes) (len : Nat) : Except ArchiveError EntryReader :=
  if h : file.length = len then .ok ⟨file, len, h⟩ else .error (.lengthMismatch len file.length)

/-- Up to `count` bytes at `offset`. -/
def readChecked (r : EntryReader) (offset count : Nat) : Except Trap Bytes := do
  let stop := min (addSat offset count) r.len
  if stop ≤ offset then return []
  let n ← Word.sub stop offset
  r.file.between offset (offset + n)

/-- Reading never traps, and gives what lies at the position. -/
theorem readChecked_eq (r : EntryReader) (hfits : r.len ≤ maxWord) (offset count : Nat) :
    r.readChecked offset count = .ok (readAt r.file offset count) := by
  have hlen := r.length_file
  rw [readChecked]
  by_cases hstop : min (addSat offset count) r.len ≤ offset
  · have hnone : readAt r.file offset count = [] := by
      refine List.eq_nil_of_length_eq_zero ?_
      rw [addSat] at hstop
      rw [length_readAt]
      omega
    rw [if_pos hstop, hnone]
    rfl
  · have hn : min (addSat offset count) r.len - offset = min count (r.len - offset) := by
      rw [addSat] at hstop ⊢
      omega
    have hsub : Word.sub (min (addSat offset count) r.len) offset =
        .ok (min count (r.len - offset)) := by
      rw [Word.sub_eq (Nat.le_of_not_le hstop), hn]
    have hslice : Bytes.slice r.file offset (min count (r.len - offset)) =
        readAt r.file offset count := by
      rw [readAt, Bytes.slice, Bytes.slice, ← hlen, ← List.length_drop, ← List.take_take,
        List.take_length]
    rw [if_neg hstop]
    show (Word.sub _ _ >>= fun n => r.file.between offset (offset + n)) = _
    rw [hsub]
    show r.file.between offset (offset + min count (r.len - offset)) = _
    rw [Bytes.between_eq (by omega), hslice]

end EntryReader

/-! ## Opening a file again -/

namespace Tree

variable {σ : Type} {store : Store σ} {t : Tree} {p : TreePath} {w : σ × Cache}

/-- A file that could be opened is opened once more without a change. -/
theorem run_openPath_again (h : ((t.openPath store p).run w).1 = .ok content) :
    (t.openPath store p).run ((t.openPath store p).run w).2 =
      (.ok content, ((t.openPath store p).run w).2) := by
  obtain ⟨e, he, hread, hsize, hfill⟩ := openPath_ok_cases h
  rw [snd_run_openPath he hread]
  exact run_openPath_of_fill he hread (Cache.run_fill_of_some (Cache.get?_of_fill_ok hfill)) hsize

end Tree

end ArchiveMount
