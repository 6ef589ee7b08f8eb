/-
# `ArchiveMount.Proofs.Tree.Opening` — what opening a path comes to

A path is looked up and its entry checked without a change of state; what remains is one
request to the cache, and a look at the length of what it gives.  What the cache does not
have is fetched: the header of the file, and what stands from where it leads (`fetch_eq`).
-/
import ArchiveMount.Proofs.Object.Serving
import ArchiveMount.Tree.Open
import Mathlib.Tactic.SplitIfs

namespace ArchiveMount.Tree

variable {σ : Type} {store : Store σ} {t : Tree} {p : TreePath} {te : TreeEntry}
  {w w' : σ × Cache} {data : Bytes}

theorem find?_of_entryAt (h : t.entryAt p = .ok te) : t.find? p = some te := by
  simp only [entryAt] at h
  split at h
  · next hsome =>
      rw [← Except.ok.inj h]
      exact hsome
  · cases h

theorem run_openPath_of_entryAt_error {x : TreeError} (h : t.entryAt p = .error x) :
    (t.openPath store p).run w = (.error x, w) := by
  simp only [openPath, Attempt.run_bind, Attempt.run_liftM, h]

theorem run_openPath_of_unreadable {x : TreeError} (h : t.entryAt p = .ok te)
    (hread : checkReadable te = .error x) : (t.openPath store p).run w = (.error x, w) := by
  simp only [openPath, Attempt.run_bind, Attempt.run_liftM, h, hread]

/-- Everything else is decided by the cache. -/
theorem run_openPath_of_readable (h : t.entryAt p = .ok te) (hread : checkReadable te = .ok ()) :
    (t.openPath store p).run w = (Cache.fill (t.cacheKey te) (t.fetch store te) >>= fun data =>
      if data.length ≠ te.size then
        Attempt.fail (.archive (.lengthMismatch te.size data.length))
      else pure data).run w := by
  simp only [openPath]
  rw [Attempt.run_bind, Attempt.run_liftM, h]
  show (liftM (checkReadable te) >>= _ : Attempt (σ × Cache) TreeError Bytes).run w = _
  rw [Attempt.run_bind, Attempt.run_liftM, hread]
  show (Cache.fill (t.cacheKey te) (t.fetch store te) >>= _ :
    Attempt (σ × Cache) TreeError Bytes).run w = _
  rw [Attempt.run_bind, Attempt.run_bind]
  split
  · split_ifs <;> rfl
  · rfl

theorem run_openPath_of_fill (h : t.entryAt p = .ok te) (hread : checkReadable te = .ok ())
    (hfill : (Cache.fill (t.cacheKey te) (t.fetch store te)).run w = (.ok data, w'))
    (hsize : data.length = te.size) : (t.openPath store p).run w = (.ok data, w') := by
  rw [run_openPath_of_readable h hread, Attempt.bind_ok hfill, if_neg (not_not_intro hsize),
    Attempt.run_pure]

/-- The state in which opening leaves things is the one the cache leaves. -/
theorem snd_run_openPath (h : t.entryAt p = .ok te) (hread : checkReadable te = .ok ()) :
    ((t.openPath store p).run w).2 =
      ((Cache.fill (t.cacheKey te) (t.fetch store te)).run w).2 := by
  rw [run_openPath_of_readable h hread, Attempt.run_bind]
  split
  · split_ifs <;> rfl
  · rfl

/-- What can be opened is not a directory. -/
theorem isDir_of_checkReadable (hread : checkReadable te = .ok ()) : te.isDir = false := by
  cases hd : te.isDir with
  | false => rfl
  | true =>
      rw [checkReadable, if_pos hd] at hread
      cases hread

/-- What can be opened is a file, and its content is what the cache gives for it. -/
theorem openPath_ok_cases (h : ((t.openPath store p).run w).1 = .ok data) :
    ∃ e, t.entryAt p = .ok e ∧ checkReadable e = .ok () ∧ data.length = e.size ∧
      ((Cache.fill (t.cacheKey e) (t.fetch store e)).run w).1 = .ok data := by
  cases he : t.entryAt p with
  | error x =>
      rw [run_openPath_of_entryAt_error he] at h
      cases h
  | ok e =>
      cases hread : checkReadable e with
      | error x =>
          rw [run_openPath_of_unreadable he hread] at h
          cases h
      | ok _ =>
          rw [run_openPath_of_readable he hread, Attempt.fst_run_bind_eq_ok_iff] at h
          obtain ⟨bytes, hfill, hlen⟩ := h
          split_ifs at hlen with hsize
          · cases hlen
          · obtain rfl := Except.ok.inj hlen
            exact ⟨e, rfl, hread, Decidable.not_not.1 hsize, hfill⟩

/-! ## Fetching -/

/-- Decode what stands from `start` on; nothing is downloaded for an empty file. -/
def decodeFrom (store : Store σ) (t : Tree) (e : TreeEntry) (start : Nat) (d : PayloadDecoder) :
    Attempt σ TreeError Bytes :=
  if 0 < e.compressedSize then do
    let body ← (store.download t.locator (.ofSpan start e.compressedSize)).mapError .object
    let d ← Attempt.ofExcept (decodeBody d body)
    (Attempt.ofExcept d.finish).mapError .archive
  else (Attempt.ofExcept d.finish).mapError .archive

/-- Fetching reads the header of a file and decodes what its header leads to. -/
theorem fetch_eq (store : Store σ) (t : Tree) (e : TreeEntry) :
    t.fetch store e = (do
      let raw ← (store.readRange t.locator
        (.ofSpan e.headerOffset LocalHeader.fixedLen)).mapError .object
      let header ← (Attempt.ofExcept (LocalHeader.parse raw)).mapError .archive
      if t.objectSize < addSat (header.dataOffset e.headerOffset) e.compressedSize then
        Attempt.fail (.archive (.malformed (.payloadPastEnd e.path.render)))
      else do
        let d ← (Attempt.ofExcept
          (PayloadDecoder.new e.compression e.size e.crc32)).mapError .archive
        decodeFrom store t e (header.dataOffset e.headerOffset) d) := by
  refine congrArg (bind _) (funext fun raw => congrArg (bind _) (funext fun header => ?_))
  by_cases hpast : t.objectSize < addSat (header.dataOffset e.headerOffset) e.compressedSize
  · simp only [if_pos hpast]
    rfl
  · simp only [if_neg hpast]
    refine congrArg (bind _) (funext fun d => ?_)
    simp only [decodeFrom]
    split_ifs <;> rfl

/-- Fetching a file, whatever comes of it, keeps a store that serves in order. -/
theorem keeps_fetch {l : Locator} {object : Bytes} {ok : σ → Prop}
    (hserves : store.Serves l object ok) (ht : t.locator = l) (e : TreeEntry) :
    Attempt.Keeps ok (t.fetch store e) := by
  subst ht
  have hpure : ∀ {α : Type} (r : Except ArchiveError α),
      Attempt.Keeps ok ((Attempt.ofExcept r).mapError TreeError.archive) :=
    fun r => (Attempt.Keeps.ofExcept r).mapError _
  rw [fetch_eq]
  refine .bind ((hserves.keeps_readRange _).mapError _) fun raw => ?_
  refine .bind (hpure _) fun header => ?_
  split_ifs
  · exact .fail _
  · refine .bind (hpure _) fun d => ?_
    simp only [decodeFrom]
    split_ifs
    · refine .bind ((hserves.keeps_download _).mapError _) fun body => ?_
      exact .bind (.ofExcept _) fun d => hpure _
    · exact hpure _

/-- The state after some texts have been opened, one after the other. -/
def opened (store : Store σ) (t : Tree) (texts : List String) (w : σ × Cache) : σ × Cache :=
  texts.foldl (fun w text => ((t.open_ store text).run w).2) w

end ArchiveMount.Tree
