/-
# `ArchiveMount.Proofs.Tree.Persistence` — what has been filed stays

Indexing and opening file records that were missing, and nothing else.  So a record that is
there stays as it is, whatever is done with the cache afterwards and whatever the stores
answer (`get?_afterAll`), and a file that could be opened once is served from its record ever
after, without a call to any store (`open_again`).

The key of a file does not say that it is a file.  A directory may have the key of an empty
one, and it cannot be opened (`EmptyFile`).
-/
import ArchiveMount.Proofs.Tree.Verified

namespace ArchiveMount

namespace Cache

variable {σ ε : Type} {c : Cache} {k k' : CacheKey} {data data' : Bytes}

/-- A missing record that is filed is filed beside those that are there. -/
theorem get?_put_of_miss (hk : c.get? k = some data) (hk' : c.get? k' = none) :
    (c.put k'.digest data').get? k = some data := by
  have hne : k.digest ≠ k'.digest := by
    intro heq
    rw [get?, heq] at hk
    rw [get?, hk] at hk'
    cases hk'
  exact (find?_put_of_ne c data' hne).trans hk

/-- What filling gives is the record from then on. -/
theorem get?_of_fill_ok {produce : Attempt σ ε Bytes} {w : σ × Cache}
    (h : ((fill k produce).run w).1 = .ok data) :
    ((fill k produce).run w).2.2.get? k = some data := by
  obtain ⟨s, c⟩ := w
  rw [get?_fill_self]
  cases hc : c.get? k with
  | some found =>
      rw [run_fill_of_some hc] at h
      rw [Except.ok.inj h]
      rfl
  | none =>
      rcases fill_ok_cases h with hfound | hproduced
      · rw [hc] at hfound
        cases hfound
      · rw [hproduced]
        rfl

/-- The cache of a directory that is opened anew has the records that lie there. -/
def reopened (c : Cache) : Cache := ⟨c.records⟩

end Cache

/-! ## What may happen to a cache -/

/-- What happens to a cache directory that trees share. -/
inductive CacheEvent (σ : Type)
  | deed (x : Deed σ)
  | reopening

namespace CacheEvent

variable {σ : Type} {k : CacheKey} {data : Bytes} {w : σ × Cache}

/-- The state and the cache after one event. -/
def after (w : σ × Cache) : CacheEvent σ → σ × Cache
  | deed x => x.after w
  | reopening => (w.1, w.2.reopened)

/-- The state and the cache after events one after the other. -/
def afterAll (w : σ × Cache) (events : List (CacheEvent σ)) : σ × Cache := events.foldl after w

theorem get?_after (h : w.2.get? k = some data) (x : CacheEvent σ) :
    (x.after w).2.get? k = some data := by
  cases x with
  | deed x =>
      obtain ⟨s, c⟩ := w
      show (x.after (s, c)).2.get? k = some data
      rcases x.after_cases s c with heq | ⟨k', bytes, -, -, hmiss, heq⟩ <;> rw [heq]
      · exact h
      · exact Cache.get?_put_of_miss h hmiss
  | reopening => exact h

/-- Whatever happens, a record stays. -/
theorem get?_afterAll (h : w.2.get? k = some data) (events : List (CacheEvent σ)) :
    (afterAll w events).2.get? k = some data := by
  induction events generalizing w with
  | nil => exact h
  | cons x events ih => exact ih (get?_after h x)

end CacheEvent

/-! ## Opening once and again -/

namespace Tree

variable {σ τ : Type} {t : Tree} {e : TreeEntry} {text : String}

theorem checkReadable_eq_ok_iff :
    checkReadable e = .ok () ↔
      e.isDir = false ∧ e.encrypted = false ∧ ∀ id, e.compression ≠ .other id := by
  rw [checkReadable]
  cases e.isDir <;> cases e.encrypted <;> cases e.compression <;> simp

/-- A file whose record is there is served from it, and the store is left alone. -/
theorem run_open_of_get? {store : Store σ} {data : Bytes} {s : σ} {c : Cache}
    (he : t.stat text = .ok e) (hread : checkReadable e = .ok ())
    (hget : c.get? (t.cacheKey e) = some data) (hsize : data.length = e.size) :
    (t.open_ store text).run (s, c) = (.ok data, (s, c)) :=
  run_openPath_of_fill he hread (Cache.run_fill_of_some hget) hsize

/-- Once a file could be opened, its content is the record under its key. -/
theorem get?_of_open_ok {store : Store σ} {w : σ × Cache} {data : Bytes}
    (h : ((t.open_ store text).run w).1 = .ok data) :
    ∃ e, t.stat text = .ok e ∧ data.length = e.size ∧
      ((t.open_ store text).run w).2.2.get? (t.cacheKey e) = some data := by
  obtain ⟨e, he, hread, hsize, hfill⟩ := openPath_ok_cases h
  refine ⟨e, he, hsize, ?_⟩
  rw [open_, snd_run_openPath he hread]
  exact Cache.get?_of_fill_ok hfill

/-- Once a file could be opened, whatever happens to the cache then: every file of the same
locator, place, sizes and checksum that can be read at all is opened to the same bytes, in any
tree, from any state of any store, which is not called. -/
theorem open_again {store : Store σ} {w : σ × Cache} {data : Bytes}
    (h : ((t.open_ store text).run w).1 = .ok data) :
    ∃ e, t.stat text = .ok e ∧
      ∀ (events : List (CacheEvent σ)) (store' : Store τ) (t' : Tree) (text' : String)
        (e' : TreeEntry) (s : τ) (notes : List Store.Request),
        t'.stat text' = .ok e' → t'.locator = t.locator → e'.headerOffset = e.headerOffset →
        e'.compressedSize = e.compressedSize → e'.size = e.size → e'.crc32 = e.crc32 →
        e'.isDir = false → e'.encrypted = false → (∀ id, e'.compression ≠ .other id) →
        let c := (CacheEvent.afterAll ((t.open_ store text).run w).2 events).2
        (t'.open_ store'.noting text').run ((s, notes), c) = (.ok data, ((s, notes), c)) := by
  obtain ⟨e, he, hsize, hget⟩ := get?_of_open_ok h
  refine ⟨e, he, ?_⟩
  intro events store' t' text' e' s notes he' hl hoffset hcompressed hsize' hcrc hdir henc hmethod
  have hkey : t'.cacheKey e' = t.cacheKey e := by
    rw [cacheKey, cacheKey, hl, hoffset, hcompressed, hsize', hcrc]
  have hlater := CacheEvent.get?_afterAll hget events
  rw [← hkey] at hlater
  exact run_open_of_get? he' (checkReadable_eq_ok_iff.2 ⟨hdir, henc, hmethod⟩) hlater
    (hsize.trans hsize'.symm)

namespace Kept

/-- An archive of one file. -/
def archive : StoredArchive where
  files := [{ name := "a", content := [104, 101, 108, 108, 111] }]

def locator : Locator := ⟨"mem", some { host := "bucket" }, ["kept.zip"], none, none⟩

def tree : Tree :=
  ((build (.holding archive.bytes) locator).run ((), {})).1.toOption.getD
    (.ofRecords locator 0 [])

/-- The file. -/
def file : TreeEntry where
  path := ["a"]
  isDir := false
  size := 5
  compressedSize := 5
  modified := Timestamp.ofDos 33 0
  mode := none
  headerOffset := 0
  compression := .stored
  crc32 := 0x3610a686
  encrypted := false

theorem stat_file : tree.stat "a" = .ok file := by decide +kernel

theorem open_file : ((tree.open_ (.holding archive.bytes) "a").run ((), {})).1 =
    .ok [104, 101, 108, 108, 111] := by
  decide +kernel

/-- Another byte stands in the file's place when it is opened again; then the cache is opened
anew, and the tree built once more in vain, as the object is lost. -/
def events : List (CacheEvent Unit) :=
  [.deed (.opening (.holding (archive.bytes.set 31 8)) tree "a"), .reopening,
    .deed (.indexing (.holding []) locator)]

/-- The bytes of the file are served without the object. -/
theorem file_served :
    let w := (tree.open_ (.holding archive.bytes) "a").run ((), {})
    w.1 = .ok [104, 101, 108, 108, 111] ∧ (tree.open_ (Store.holding []).noting "a").run
        (((), []), (CacheEvent.afterAll w.2 events).2) =
      (.ok [104, 101, 108, 108, 111], (((), []), (CacheEvent.afterAll w.2 events).2)) := by
  obtain ⟨e, he, hagain⟩ := open_again (τ := Unit) open_file
  rw [stat_file] at he
  obtain rfl := Except.ok.inj he
  refine ⟨open_file, ?_⟩
  exact hagain events (.holding []) tree "a" file () [] stat_file rfl rfl rfl rfl rfl rfl rfl
    (fun id h => nomatch h)

end Kept

/-! An archive of an empty file.  The root of its tree has the key of the file. -/
namespace EmptyFile

def archive : StoredArchive where
  files := [{ name := "a", content := [] }]

def locator : Locator := ⟨"mem", some { host := "bucket" }, ["a.zip"], none, none⟩

/-- What indexing the archive gives, and leaves. -/
def outcome : Except TreeError Tree × Unit × Cache :=
  (build (.holding archive.bytes) locator).run ((), {})

def tree : Tree := outcome.1.toOption.getD (.ofRecords locator 0 [])

theorem outcome_eq : outcome = (.ok tree, outcome.2) := by
  have hsome : outcome.1.toOption.isSome = true := by decide +kernel
  obtain ⟨t, ht⟩ := Option.isSome_iff_exists.1 hsome
  have hok := Attempt.toOption_eq_some_iff.1 ht
  refine Prod.ext ?_ rfl
  rw [tree, ht, hok]
  rfl

/-- The file. -/
def file : TreeEntry where
  path := ["a"]
  isDir := false
  size := 0
  compressedSize := 0
  modified := Timestamp.ofDos 33 0
  mode := none
  headerOffset := 0
  compression := .stored
  crc32 := 0
  encrypted := false

theorem stat_file : tree.stat "a" = .ok file := by decide +kernel

theorem stat_root : tree.stat "/" = .ok (.synthetic [] (Timestamp.ofDos 33 0)) := by
  decide +kernel

theorem open_file : ((tree.open_ (.holding archive.bytes) "a").run outcome.2).1 = .ok [] := by
  decide +kernel

/-- The root has the place, the sizes and the checksum of the file, and cannot be opened. -/
theorem root_not_opened :
    outcome = (.ok tree, outcome.2) ∧
      ((tree.open_ (.holding archive.bytes) "a").run outcome.2).1 = .ok [] ∧
      ∃ e e', tree.stat "a" = .ok e ∧ tree.stat "/" = .ok e' ∧
        e'.headerOffset = e.headerOffset ∧ e'.compressedSize = e.compressedSize ∧
        e'.size = e.size ∧ e'.crc32 = e.crc32 ∧ e'.encrypted = false ∧
        e'.compression = .stored ∧
        ((tree.open_ (.holding archive.bytes) "/").run
          ((tree.open_ (.holding archive.bytes) "a").run outcome.2).2).1 =
            .error (.isDirectory []) := by
  have hroot : ((tree.open_ (.holding archive.bytes) "/").run
      ((tree.open_ (.holding archive.bytes) "a").run outcome.2).2).1 =
        .error (.isDirectory []) := by
    decide +kernel
  exact ⟨outcome_eq, open_file, file, _, stat_file, stat_root, rfl, rfl, rfl, rfl, rfl, rfl, hroot⟩

end EmptyFile

end Tree

end ArchiveMount
