/-
# `ArchiveMount.Proofs.Tree.InBounds` — no archive leads outside its object

An object may hold any bytes.  Whatever they say of offsets and sizes, in the classic end
record, the 64-bit one or the extra fields of a directory record: over a store that serves
the object indexing and opening do not trap, the directory lies before the end record that
was read, the files that are accepted lie in the object, and so does every range that is
asked for to open one of them (`inBounds`).
-/
import ArchiveMount.Proofs.Archive.Written
import ArchiveMount.Proofs.Tree.Arrangement
import ArchiveMount.Proofs.Tree.Checked
import ArchiveMount.Proofs.Tree.Files

namespace ArchiveMount.Tree

variable {σ : Type} {store : Store σ} {l : Locator} {data : Bytes} {ok : σ → Prop} {t : Tree}
  {e : TreeEntry} {s : σ} {c : Cache}

/-- A directory that lies in the object is read. -/
theorem exists_run_readDirectory (hserves : store.Serves l data ok) {r : EndRecord}
    (hr : r.directoryOffset + r.directorySize ≤ data.length) (hs : ok s) (c : Cache) :
    ∃ bytes, ((readDirectory store l data.length r).run (s, c)).1 = .ok bytes := by
  by_cases h₀ : r.directorySize = 0
  · rw [readDirectory_of_eq_zero h₀]
    exact ⟨[], rfl⟩
  · rw [readDirectory_of_le h₀ hr]
    cases hc : c.get? (directoryKey l data.length r) with
    | some bytes => exact ⟨bytes, congrArg Prod.fst (Cache.run_fill_of_some hc)⟩
    | none =>
        obtain ⟨s', hread, -⟩ := hserves.run_readRange hs
          (.ofSpan r.directoryOffset r.directorySize)
        have hmapped := Attempt.run_mapError TreeError.object
          (store.readRange l (.ofSpan r.directoryOffset r.directorySize)) s
        rw [hread] at hmapped
        exact ⟨_, congrArg Prod.fst (Cache.run_fill_of_ok hc hmapped)⟩

/-! ## The files of a tree -/

/-- The header and the payload of a file, as far as the directory tells, lie in an object of
`size` bytes. -/
def Fits (size : Nat) (e : TreeEntry) : Prop :=
  e.isDir = false → e.headerOffset + LocalHeader.fixedLen + e.compressedSize ≤ size

/-- What was indexed without an error was read from a directory. -/
theorem exists_indexed (h : ((build (Store.holding data) l).run ((), c)).1 = .ok t) :
    ∃ r directory, indexed l data.length r directory = .ok t := by
  cases hloc : located l data with
  | error x =>
      rw [run_build_of_error hloc] at h
      cases h
  | ok r =>
      rw [run_build_of_ok hloc, Attempt.run_bind] at h
      cases hdir : ((readDirectory (Store.holding data) l data.length r).run ((), c)).1 with
      | error x =>
          rw [hdir] at h
          cases h
      | ok directory =>
          rw [hdir] at h
          exact ⟨r, directory, h⟩

/-- A tree is made of records that have been checked. -/
theorem exists_records {size : Nat} {r : EndRecord} {directory : Bytes}
    (h : indexed l size r directory = .ok t) :
    ∃ records, t = .ofRecords l size records ∧ checkEntries size records = .ok () := by
  simp only [indexed] at h
  obtain ⟨records, -, h⟩ := Attempt.exists_of_bind_eq_ok h
  obtain ⟨_, hcheck, h⟩ := Attempt.exists_of_bind_eq_ok h
  exact ⟨records, (Except.ok.inj h).symm, Attempt.mapError_eq_ok_iff.1 hcheck⟩

theorem fits_of_checkEntries {size : Nat} {records : List EntryRecord}
    (h : checkEntries size records = .ok ()) {r : EntryRecord} (hr : r ∈ records)
    (hdir : r.isDir = false) :
    r.headerOffset + LocalHeader.fixedLen + r.compressedSize ≤ size := by
  simp only [checkEntries] at h
  split at h
  · cases h
  · next hnone =>
      have hr := List.find?_eq_none.1 hnone r hr
      simpa [hdir] using hr

/-- The files that the tree of checked records has. -/
theorem fits_of_mem_walk {size : Nat} {records : List EntryRecord}
    (h : checkEntries size records = .ok ()) (he : e ∈ (ofRecords l size records).walk) :
    Fits size e := by
  intro hdir
  obtain ⟨r, hr, rfl⟩ := Flat.exists_of_mem_assemble he hdir
  exact fits_of_checkEntries h hr hdir

theorem fits_of_find? {size : Nat} {records : List EntryRecord}
    (h : checkEntries size records = .ok ()) {p : TreePath}
    (hfind : (ofRecords l size records).find? p = some e) : Fits size e := by
  have harranged := arranged_ofRecords l size records
  rcases List.mem_cons.1 (harranged.find?_eq_some_iff.1 hfind).1 with rfl | he
  · intro hdir
    rw [harranged.root_isDir] at hdir
    cases hdir
  · exact fits_of_mem_walk h he

/-- The tree of a served object is that of checked records. -/
theorem records_of_build (hserves : store.Serves l data ok) (hs : ok s)
    (h : ((build store l).run (s, c)).1 = .ok t) :
    ∃ records, t = .ofRecords l data.length records ∧
      checkEntries data.length records = .ok () := by
  obtain ⟨s', -, hrun⟩ := run_build hserves hs c
  rw [hrun] at h
  obtain ⟨r, directory, hindexed⟩ := exists_indexed h
  exact exists_records hindexed

/-! ## The ranges that are asked for -/

/-- A request for bytes that are all there, and for one at least. -/
def Inside (size : Nat) (request : Store.Request) : Prop :=
  ∃ first last, request = .download (.bounded first last) ∧ first ≤ last ∧ last < size

theorem inside_ofSpan {size offset len : Nat} (hlen : 0 < len) (h : offset + len ≤ size)
    (hmax : size ≤ maxWord) : Inside size (.download (.ofSpan offset len)) := by
  have hlast : addSat offset (max len 1 - 1) = offset + (len - 1) := by
    have hmax' : max len 1 = len := by omega
    rw [hmax', addSat_eq_add (by omega)]
  refine ⟨offset, offset + (len - 1), ?_, by omega, by omega⟩
  rw [ByteRange.ofSpan, hlast]

/-- The store is in order, and all that has been asked for lies in the object. -/
def Logged (size : Nat) (ok : σ → Prop) (w : σ × List Store.Request) : Prop :=
  ok w.1 ∧ ∀ request ∈ w.2, Inside size request

theorem keeps_download_noting (hserves : store.Serves l data ok) {size : Nat} {range : ByteRange}
    (hrange : Inside size (.download range)) :
    Attempt.Keeps (Logged size ok) (store.noting.download l range) := by
  rintro ⟨s, log⟩ ⟨hs, hlog⟩
  exact ⟨hserves.keeps_download range s hs, List.forall_mem_cons.2 ⟨hrange, hlog⟩⟩

/-- To fetch a file whose header and payload fit, nothing outside the object is asked for. -/
theorem keeps_fetch_noting (hserves : store.Serves t.locator data ok) (hsize : t.objectSize < maxWord)
    (he : e.headerOffset + LocalHeader.fixedLen ≤ t.objectSize) :
    Attempt.Keeps (Logged t.objectSize ok) (t.fetch store.noting e) := by
  have hmax := Nat.le_of_lt hsize
  have hpure : ∀ {α : Type} (r : Except ArchiveError α),
      Attempt.Keeps (Logged t.objectSize ok) ((Attempt.ofExcept r).mapError TreeError.archive) :=
    fun r => (Attempt.Keeps.ofExcept r).mapError _
  rw [fetch_eq]
  refine .bind (.mapError (.bind ?_ fun _ => .ofExcept _) _) fun raw => .bind (hpure _) fun h => ?_
  · exact keeps_download_noting hserves (inside_ofSpan (by decide) he hmax)
  split_ifs with hpast
  · exact .fail _
  · have hfits := add_le_of_addSat_le (Nat.le_of_not_lt hpast) hsize
    refine .bind (hpure _) fun d => ?_
    simp only [decodeFrom]
    split_ifs with hpos
    · refine .bind (.mapError ?_ _) fun body => .bind (.ofExcept _) fun d => hpure _
      exact keeps_download_noting hserves (inside_ofSpan hpos hfits hmax)
    · exact hpure _

theorem keeps_openPath_noting (hserves : store.Serves t.locator data ok)
    (hsize : t.objectSize < maxWord)
    (ht : ∀ p e, t.find? p = some e → Fits t.objectSize e) (p : TreePath) :
    Attempt.Keeps (fun w => Logged t.objectSize ok w.1) (t.openPath store.noting p) := by
  intro w hw
  cases hentry : t.entryAt p with
  | error x =>
      rw [run_openPath_of_entryAt_error hentry]
      exact hw
  | ok e =>
      cases hread : checkReadable e with
      | error x =>
          rw [run_openPath_of_unreadable hentry hread]
          exact hw
      | ok _ =>
          have hfits := ht p e (find?_of_entryAt hentry) (isDir_of_checkReadable hread)
          rw [snd_run_openPath hentry hread]
          exact Cache.keeps_fill (keeps_fetch_noting hserves hsize (by omega)) _ w hw

/-! ## All together -/

/-- What holds of an object and of every tree that is made of it, over a store that serves
it and with any cache. -/
structure InBounds (store : Store σ) (l : Locator) (data : Bytes) (ok : σ → Prop) : Prop where
  /-- Indexing does not trap. -/
  indexing : ∀ s c, ok s → (buildChecked store l).run (s, c) = (build store l).reporting.run (s, c)
  /-- A directory that was located ends before the end record that was read. -/
  located : ∀ s r, ok s → ((locateDirectory store l data.length).run s).1 = .ok r →
    ∃ pos, r.ReadAt data pos ∧ r.directoryOffset + r.directorySize ≤ pos ∧ pos < data.length
  /-- So it is never found to lie outside the object when it is fetched. -/
  directory : ∀ s r, ok s → ((locateDirectory store l data.length).run s).1 = .ok r →
    ∀ s' c, ok s' → ∃ bytes, ((readDirectory store l data.length r).run (s', c)).1 = .ok bytes
  /-- The files of a tree lie in the object. -/
  files : ∀ s c t, ok s → ((build store l).run (s, c)).1 = .ok t →
    ∀ e ∈ t.walk, Fits data.length e
  /-- Opening does not trap, whatever was done before. -/
  opening : ∀ s c t, ok s → ((build store l).run (s, c)).1 = .ok t → ∀ text s' c', ok s' →
    (t.openChecked store text).run (s', c') = (t.open_ store text).reporting.run (s', c')
  /-- And all that it asks the store for are bytes of the object. -/
  ranges : ∀ s c t, ok s → ((build store l).run (s, c)).1 = .ok t → ∀ text s' c', ok s' →
    ∀ request ∈ ((t.open_ store.noting text).run ((s', []), c')).2.1.2, Inside data.length request

/-- Hostile archives cannot lead outside their object. -/
theorem inBounds (hserves : store.Serves l data ok) (hroom : Roomy data) :
    InBounds store l data ok := by
  have hmax := hroom.le
  have hlocated : ∀ s r, ok s → ((locateDirectory store l data.length).run s).1 = .ok r →
      ∃ pos, r.ReadAt data pos ∧ r.directoryOffset + r.directorySize ≤ pos ∧
        pos < data.length := by
    intro s r hs hr
    obtain ⟨pos, hread, hbounds⟩ := bounds_of_locateDirectory hserves
      (by simp only [Zip64EndRecord.fixedLen]; omega) hs hr
    exact ⟨pos, hread, hbounds, hread.lt_length⟩
  constructor
  case indexing => exact fun s c hs => same_build hserves hroom (s, c) hs
  case located => exact hlocated
  case directory =>
    intro s r hs hr s' c hs'
    obtain ⟨pos, -, hbounds, hlt⟩ := hlocated s r hs hr
    exact exists_run_readDirectory hserves (by omega) hs' c
  case files =>
    intro s c t hs ht e he
    obtain ⟨records, rfl, hcheck⟩ := records_of_build hserves hs ht
    exact fits_of_mem_walk hcheck he
  case opening =>
    intro s c t hs ht text s' c' hs'
    obtain ⟨records, rfl, hcheck⟩ := records_of_build hserves hs ht
    refine same_openPath hserves hroom (fun p e hfind hdir => ?_) _ (s', c') hs'
    have hfits := fits_of_find? hcheck hfind hdir
    omega
  case ranges =>
    intro s c t hs ht text s' c' hs'
    obtain ⟨records, rfl, hcheck⟩ := records_of_build hserves hs ht
    have hsize : data.length < maxWord := by omega
    exact (keeps_openPath_noting hserves hsize (fun p e => fits_of_find? hcheck) _
      ((s', []), c') ⟨hs', by simp⟩).2

namespace Sample

/-- An archive of one file. -/
def object : Bytes := StoredArchive.bytes { files := [{ name := "a", content := [7] }] }

/-- Where it is served. -/
def locator : Locator := ⟨"mem", some { host := "bucket" }, ["a.zip"], none, none⟩

/-- The archive is indexed and its file opened, all within the object. -/
theorem object_inBounds :
    Roomy object ∧ InBounds (.holding object) locator object (fun _ => True) ∧
      ((build (.holding object) locator).run ((), {})).1.toOption.bind (fun t =>
        ((t.open_ (.holding object) "a").run ((), {})).1.toOption) = some [7] := by
  have hroom : Roomy object := by
    simp only [Roomy]
    decide +kernel
  exact ⟨hroom, inBounds (Store.holding_serves object locator) hroom, by decide +kernel⟩

end Sample

end ArchiveMount.Tree
