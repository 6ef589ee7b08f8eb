/-
# `ArchiveMount.Proofs.Archive.Written` — archives of stored files

How an archive is put together: for each file a local header and its content, then one
directory record for each file, then the end record and a comment.  What the format leaves
open (times, attributes, extra fields, comments) is left open here as well.
-/
import ArchiveMount.Archive.Directory
import ArchiveMount.Archive.LocalHeader
import ArchiveMount.Archive.Trailer
import ArchiveMount.Checksum
import ArchiveMount.Proofs.Archive.EndRecord
import ArchiveMount.Proofs.Tree.PathOrder
import Mathlib.Data.List.Nodup

namespace ArchiveMount

/-- A file that an archive keeps as it is, with what its headers say besides. -/
structure StoredFile where
  name : String
  content : Bytes
  madeBy : UInt16 := 0
  needed : UInt16 := 20
  flags : UInt16 := 0
  time : UInt16 := 0
  date : UInt16 := 33
  disk : UInt16 := 0
  internalAttrs : UInt16 := 0
  externalAttrs : UInt32 := 0
  localExtra : Bytes := []
  extra : Bytes := []
  comment : Bytes := []

namespace StoredFile

/-- Where the file is mounted. -/
def path (f : StoredFile) : TreePath := TreePath.ofText f.name

/-- The numbers at the start of a local header. -/
def localNumbers (f : StoredFile) : List (Nat × Nat) :=
  [(4, LocalHeader.signature), (2, f.needed.toNat), (2, f.flags.toNat), (2, 0),
    (2, f.time.toNat), (2, f.date.toNat), (4, (crc32 f.content).toNat), (4, f.content.length),
    (4, f.content.length), (2, (Text.utf8 f.name).length), (2, f.localExtra.length)]

/-- The header before the content. -/
def localHeader (f : StoredFile) : Bytes :=
  Bytes.numbers f.localNumbers ++ (Text.utf8 f.name ++ f.localExtra)

/-- Header and content. -/
def part (f : StoredFile) : Bytes := f.localHeader ++ f.content

/-- The numbers at the start of a directory record. -/
def centralNumbers (f : StoredFile) (offset : Nat) : List (Nat × Nat) :=
  [(4, CentralDirectory.signature), (2, f.madeBy.toNat), (2, f.needed.toNat),
    (2, f.flags.toNat), (2, 0), (2, f.time.toNat), (2, f.date.toNat),
    (4, (crc32 f.content).toNat), (4, f.content.length), (4, f.content.length),
    (2, (Text.utf8 f.name).length), (2, f.extra.length), (2, f.comment.length),
    (2, f.disk.toNat), (2, f.internalAttrs.toNat), (4, f.externalAttrs.toNat), (4, offset)]

/-- The directory record of a file whose header stands at `offset`. -/
def central (f : StoredFile) (offset : Nat) : Bytes :=
  Bytes.numbers (f.centralNumbers offset) ++ (Text.utf8 f.name ++ (f.extra ++ f.comment))

/-- The mode that the record carries, if it carries one. -/
def mode (f : StoredFile) : Option Nat :=
  CentralDirectory.unixMode? f.madeBy.toNat f.externalAttrs.toNat

/-- What the directory says about the file; only the time may come from an extra field. -/
def record (f : StoredFile) (offset modified : Nat) : EntryRecord where
  name := f.name
  isDir := false
  size := f.content.length
  compressedSize := f.content.length
  crc32 := crc32 f.content
  compression := .stored
  headerOffset := offset
  modified := modified
  unixMode := f.mode
  encrypted := false

/-- The record is that of a file one can mount: no directory, not encrypted, with a name
that leads below the root and parts that fit their lengths. -/
structure WellFormed (f : StoredFile) : Prop where
  not_dir : CentralDirectory.recordIsDir f.name f.mode f.externalAttrs.toNat = false
  plain : f.flags.toNat % 2 = 0
  not_climbs : TreePath.climbs f.name = false
  path_ne_nil : f.path ≠ []
  name_lt : (Text.utf8 f.name).length < 0x10000
  extra_lt : f.extra.length < 0x10000
  localExtra_lt : f.localExtra.length < 0x10000
  comment_lt : f.comment.length < 0x10000

@[simp] theorem length_localHeader (f : StoredFile) :
    f.localHeader.length = 30 + (Text.utf8 f.name).length + f.localExtra.length := by
  simp [localHeader, localNumbers, Bytes.length_numbers, Bytes.totalWidth]
  omega

@[simp] theorem length_part (f : StoredFile) :
    f.part.length = f.localHeader.length + f.content.length := by
  simp [part]

@[simp] theorem length_central (f : StoredFile) (offset : Nat) :
    (f.central offset).length =
      46 + ((Text.utf8 f.name).length + f.extra.length + f.comment.length) := by
  simp [central, centralNumbers, Bytes.length_numbers, Bytes.totalWidth]
  omega

end StoredFile

/-- Files, and a comment for the whole. -/
structure StoredArchive where
  files : List StoredFile
  comment : Bytes := []

namespace StoredArchive

/-- Files with the offsets at which they stand when they follow each other from `start`. -/
def placed : (start : Nat) → List StoredFile → List (Nat × StoredFile)
  | _, [] => []
  | start, f :: fs => (start, f) :: placed (start + f.part.length) fs

/-- The files of an archive, with their offsets. -/
def entries (a : StoredArchive) : List (Nat × StoredFile) := placed 0 a.files

/-- Headers and contents. -/
def locals (a : StoredArchive) : Bytes := a.files.flatMap StoredFile.part

/-- The directory. -/
def directory (a : StoredArchive) : Bytes := a.entries.flatMap fun e => e.2.central e.1

/-- The numbers of the end record. -/
def endNumbers (a : StoredArchive) : List (Nat × Nat) :=
  [(4, EndRecord.signature), (2, 0), (2, 0), (2, a.files.length), (2, a.files.length),
    (4, a.directory.length), (4, a.locals.length), (2, a.comment.length)]

/-- The end record, with the comment. -/
def endRecord (a : StoredArchive) : Bytes := Bytes.numbers a.endNumbers ++ a.comment

/-- The archive. -/
def bytes (a : StoredArchive) : Bytes := a.locals ++ (a.directory ++ a.endRecord)

/-- Where the end record stands. -/
def endPos (a : StoredArchive) : Nat := a.locals.length + a.directory.length

/-- The archive can be written in the classic format, and it reads one way only: no file
stands where another one or an ancestor of it stands, and what looks like an end record or
a 64-bit locator does not stand where a reader would take it for one. -/
structure WellFormed (a : StoredArchive) : Prop where
  files : ∀ f ∈ a.files, f.WellFormed
  apart : (a.files.map StoredFile.path).Pairwise TreePath.Apart
  count_lt : a.files.length < 0xffff
  directory_lt : a.directory.length < 0xffffffff
  locals_lt : a.locals.length < 0xffffffff
  comment_lt : a.comment.length < 0x10000
  last : ∀ pos, a.endPos < pos → ¬ EndRecord.StandsAt a.bytes pos
  no_locator : 20 ≤ a.endPos → Bytes.field a.bytes (a.endPos - 20) 4 ≠ Zip64Locator.signature

/-! ## Where things stand -/

theorem map_snd_placed : ∀ (start : Nat) (fs : List StoredFile), (placed start fs).map (·.2) = fs
  | _, [] => rfl
  | start, f :: fs => by
      rw [placed, List.map_cons, map_snd_placed]

theorem le_of_mem_placed {e : Nat × StoredFile} : ∀ {start : Nat} {fs : List StoredFile},
    e ∈ placed start fs → start ≤ e.1
  | _, [], h => nomatch h
  | start, f :: fs, h => by
      rcases List.mem_cons.1 h with rfl | h
      · exact Nat.le_refl _
      · exact Nat.le_trans (Nat.le_add_right start _) (le_of_mem_placed h)

/-- Later files stand further on. -/
theorem pairwise_placed : ∀ (start : Nat) (fs : List StoredFile),
    (placed start fs).Pairwise fun e e' => e.1 < e'.1
  | _, [] => .nil
  | start, f :: fs => by
      refine .cons (fun e he => ?_) (pairwise_placed _ fs)
      have hle := le_of_mem_placed he
      simp only [StoredFile.length_part, StoredFile.length_localHeader] at hle
      show start < e.1
      omega

/-- Each file has its header and content at its offset. -/
theorem exists_of_mem_placed {e : Nat × StoredFile} : ∀ {start : Nat} {fs : List StoredFile},
    e ∈ placed start fs →
      ∃ before after, fs.flatMap StoredFile.part = before ++ (e.2.part ++ after) ∧
        e.1 = start + before.length
  | _, [], h => nomatch h
  | start, f :: fs, h => by
      rcases List.mem_cons.1 h with rfl | h
      · exact ⟨[], fs.flatMap StoredFile.part, rfl, rfl⟩
      · obtain ⟨before, after, hfs, ho⟩ := exists_of_mem_placed h
        refine ⟨f.part ++ before, after, ?_, ?_⟩
        · rw [List.flatMap_cons, hfs, List.append_assoc]
        · rw [ho, List.length_append, Nat.add_assoc]

variable {a : StoredArchive} {e : Nat × StoredFile}

theorem map_snd_entries (a : StoredArchive) : a.entries.map (·.2) = a.files :=
  map_snd_placed 0 a.files

theorem length_entries (a : StoredArchive) : a.entries.length = a.files.length := by
  rw [← a.map_snd_entries, List.length_map]

theorem mem_files_of_mem_entries (he : e ∈ a.entries) : e.2 ∈ a.files := by
  rw [← a.map_snd_entries]
  exact List.mem_map_of_mem he

theorem exists_of_mem_entries (he : e ∈ a.entries) :
    ∃ before after, a.bytes = before ++ (e.2.part ++ after) ∧ e.1 = before.length ∧
      e.1 + e.2.part.length ≤ a.locals.length := by
  obtain ⟨before, after, hfs, ho⟩ := exists_of_mem_placed he
  refine ⟨before, after ++ (a.directory ++ a.endRecord), ?_, by omega, ?_⟩
  · rw [bytes, locals, hfs]
    simp only [List.append_assoc]
  · rw [locals, hfs]
    simp only [List.length_append]
    omega

/-- Files at one offset are one file. -/
theorem eq_of_mem_entries {e' : Nat × StoredFile} (he : e ∈ a.entries) (he' : e' ∈ a.entries)
    (h : e.1 = e'.1) : e = e' := by
  have hnodup : (a.entries.map (·.1)).Nodup :=
    List.pairwise_map.2 ((pairwise_placed 0 a.files).imp Nat.ne_of_lt)
  exact List.inj_on_of_nodup_map hnodup he he' h

theorem length_endRecord (a : StoredArchive) : a.endRecord.length = 22 + a.comment.length := by
  simp [endRecord, endNumbers, Bytes.length_numbers, Bytes.totalWidth]

theorem length_bytes (a : StoredArchive) :
    a.bytes.length = a.endPos + (22 + a.comment.length) := by
  rw [bytes, endPos, List.length_append, List.length_append, length_endRecord, Nat.add_assoc]

theorem drop_endPos (a : StoredArchive) : a.bytes.drop a.endPos = a.endRecord := by
  rw [bytes, ← List.append_assoc, endPos, ← List.length_append, List.drop_left]

theorem slice_directory (a : StoredArchive) :
    Bytes.slice a.bytes a.locals.length a.directory.length = a.directory :=
  Bytes.slice_append_append _ _ _

theorem slice_content (he : e ∈ a.entries) :
    Bytes.slice a.bytes (e.1 + e.2.localHeader.length) e.2.content.length = e.2.content := by
  obtain ⟨before, after, hb, ho, -⟩ := exists_of_mem_entries he
  have hsplit : a.bytes = (before ++ e.2.localHeader) ++ (e.2.content ++ after) := by
    rw [hb, StoredFile.part]
    simp only [List.append_assoc]
  rw [hsplit, ho, ← List.length_append, Bytes.slice_append_append]

theorem slice_localNumbers (he : e ∈ a.entries) :
    Bytes.slice a.bytes e.1 LocalHeader.fixedLen = Bytes.numbers e.2.localNumbers := by
  obtain ⟨before, after, hb, ho, -⟩ := exists_of_mem_entries he
  have hlen : LocalHeader.fixedLen = (Bytes.numbers e.2.localNumbers).length := by
    simp [Bytes.length_numbers, Bytes.totalWidth, StoredFile.localNumbers, LocalHeader.fixedLen]
  rw [hb, StoredFile.part, StoredFile.localHeader, ho, hlen]
  simp only [List.append_assoc]
  exact Bytes.slice_append_append _ _ _

end StoredArchive

end ArchiveMount
