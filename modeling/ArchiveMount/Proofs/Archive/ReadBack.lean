/-
# `ArchiveMount.Proofs.Archive.ReadBack` — an archive is read as it was written

The readers of the format, applied to what `Written` puts together: a directory record, the
whole directory, a local header, and the end record with its search.
-/
import ArchiveMount.Proofs.Archive.Written
import ArchiveMount.Proofs.Text.Lossy

namespace ArchiveMount

/-! ## Extra fields -/

namespace EntryRecord

/-- No number of the record stands for one in an extra field. -/
structure Narrow (r : EntryRecord) : Prop where
  size : r.size ≠ saturated
  compressedSize : r.compressedSize ≠ saturated
  headerOffset : r.headerOffset ≠ saturated

theorem widen_of_ne {n : Nat} (h : n ≠ saturated) (field : Bytes) :
    widen n field = .ok (n, field) := if_pos h

/-- An extra field changes nothing but the time of such a record. -/
theorem applyExtra_narrow {r : EntryRecord} (h : r.Narrow) (x : Nat × Bytes) :
    ∃ t, r.applyExtra x = .ok { r with modified := t } := by
  simp only [applyExtra]
  split
  · refine ⟨r.modified, ?_⟩
    simp only [applyZip64, widen_of_ne h.size, widen_of_ne h.compressedSize,
      widen_of_ne h.headerOffset]
    rfl
  · simp only [applyTimestamp]
    split
    · exact ⟨_, rfl⟩
    · exact ⟨r.modified, rfl⟩
  · exact ⟨r.modified, rfl⟩

theorem foldlM_applyExtra_narrow {r : EntryRecord} (h : r.Narrow) (xs : List (Nat × Bytes)) :
    ∃ t, xs.foldlM applyExtra r = .ok { r with modified := t } := by
  induction xs generalizing r with
  | nil => exact ⟨r.modified, rfl⟩
  | cons x xs ih =>
      obtain ⟨t, ht⟩ := applyExtra_narrow h x
      obtain ⟨t', ht'⟩ := ih (r := { r with modified := t })
        ⟨h.size, h.compressedSize, h.headerOffset⟩
      refine ⟨t', ?_⟩
      rw [List.foldlM_cons, ht]
      exact ht'

end EntryRecord

/-! ## Directory records -/

namespace CentralDirectory

theorem recordName_utf8 (index flags : Nat) (s : String) :
    recordName index flags (Text.utf8 s) = .ok s := by
  simp only [recordName]
  rw [Text.ofUtf8?_utf8, Text.ofUtf8Lossy_utf8, ite_self]

/-- What the numbers of a directory header say, before any extra field is looked at. -/
def bareRecord (b : Bytes) (name : String) : EntryRecord where
  name := name
  isDir := recordIsDir name (unixMode? (Bytes.field b 4 2) (Bytes.field b 38 4)) (Bytes.field b 38 4)
  size := Bytes.field b 24 4
  compressedSize := Bytes.field b 20 4
  crc32 := UInt32.ofNat (Bytes.field b 16 4)
  compression := Compression.ofId (Bytes.field b 10 2)
  headerOffset := Bytes.field b 42 4
  modified := Timestamp.ofDos (Bytes.field b 14 2) (Bytes.field b 12 2)
  unixMode := unixMode? (Bytes.field b 4 2) (Bytes.field b 38 4)
  encrypted := Bytes.field b 8 2 % 2 = 1

/-- A header is read with the parts it announces, and what follows them is left. -/
theorem parseRecord_eq {b name extra comment rest : Bytes} (index : Nat)
    (hsig : Bytes.field b 0 4 = signature)
    (hb : b.drop headerLen = name ++ (extra ++ (comment ++ rest)))
    (hname : Bytes.field b 28 2 = name.length) (hextra : Bytes.field b 30 2 = extra.length)
    (hcomment : Bytes.field b 32 2 = comment.length) :
    parseRecord index b = do
      let n ← recordName index (Bytes.field b 8 2) name
      let r ← (extraFields extra).foldlM EntryRecord.applyExtra (bareRecord b n)
      return (r, rest) := by
  have hlen : ¬ ((name ++ (extra ++ (comment ++ rest))).take
      (name.length + extra.length + comment.length)).length <
      name.length + extra.length + comment.length := by
    simp only [List.length_take, List.length_append]
    omega
  have hdrop : (name ++ (extra ++ (comment ++ rest))).drop
      (name.length + extra.length + comment.length) = rest := by
    rw [← List.drop_drop, ← List.drop_drop, List.drop_left, List.drop_left, List.drop_left]
  simp only [parseRecord]
  simp only [hsig, hb, hname, hextra, hcomment]
  rw [if_neg (not_not_intro rfl), if_neg hlen, List.take_left, Bytes.slice_append_append, hdrop]
  rfl

variable {f : StoredFile} {offset : Nat}

theorem field_central (f : StoredFile) (offset : Nat) (rest : Bytes) (start width : Nat) {n : Nat}
    (h : Bytes.numberAt? (f.centralNumbers offset) start width = some n)
    (hn : n < Bytes.capacity width) : Bytes.field (f.central offset ++ rest) start width = n := by
  rw [StoredFile.central, List.append_assoc, Bytes.field_numbers _ h, Nat.mod_eq_of_lt hn]

theorem drop_central (f : StoredFile) (offset : Nat) (rest : Bytes) :
    (f.central offset ++ rest).drop headerLen =
      Text.utf8 f.name ++ (f.extra ++ (f.comment ++ rest)) := by
  have hlen : (Bytes.numbers (f.centralNumbers offset)).length = headerLen := by
    simp [Bytes.length_numbers, Bytes.totalWidth, StoredFile.centralNumbers, headerLen]
  rw [StoredFile.central, List.append_assoc, List.drop_left' hlen]
  simp only [List.append_assoc]

theorem bareRecord_central (hf : f.WellFormed) (ho : offset < EntryRecord.saturated)
    (hc : f.content.length < EntryRecord.saturated) (rest : Bytes) :
    bareRecord (f.central offset ++ rest) f.name =
      f.record offset (Timestamp.ofDos f.date.toNat f.time.toNat) := by
  have hfield := @field_central f offset rest
  have ho' : offset < Bytes.capacity 4 := Nat.lt_trans ho (by decide)
  have hc' : f.content.length < Bytes.capacity 4 := Nat.lt_trans hc (by decide)
  have hmade := hfield 4 2 rfl (UInt16.toNat_lt _)
  have hflags := hfield 8 2 rfl (UInt16.toNat_lt _)
  have hmethod := hfield 10 2 rfl (by decide)
  have htime := hfield 12 2 rfl (UInt16.toNat_lt _)
  have hdate := hfield 14 2 rfl (UInt16.toNat_lt _)
  have hcrc := hfield 16 4 rfl (UInt32.toNat_lt _)
  have hcomp := hfield 20 4 rfl hc'
  have hsize := hfield 24 4 rfl hc'
  have hext := hfield 38 4 rfl (UInt32.toNat_lt _)
  have hoff := hfield 42 4 rfl ho'
  have hdir := hf.not_dir
  have hplain : ¬ f.flags.toNat % 2 = 1 := by
    rw [hf.plain]
    decide
  simp only [StoredFile.mode] at hdir
  simp only [bareRecord, StoredFile.record, StoredFile.mode, hmade, hflags, hmethod, htime, hdate,
    hcrc, hcomp, hsize, hext, hoff, hdir, hplain, UInt32.ofNat_toNat, Compression.ofId,
    decide_false]

/-- A record is read as the file it was written for, and what follows it is left. -/
theorem parseRecord_central (hf : f.WellFormed) (ho : offset < EntryRecord.saturated)
    (hc : f.content.length < EntryRecord.saturated) (index : Nat) (rest : Bytes) :
    ∃ t, parseRecord index (f.central offset ++ rest) = .ok (f.record offset t, rest) := by
  have hfield := @field_central f offset rest
  have hsig := hfield 0 4 rfl (by decide)
  have hname := hfield 28 2 rfl hf.name_lt
  have hextra := hfield 30 2 rfl hf.extra_lt
  have hcomment := hfield 32 2 rfl hf.comment_lt
  obtain ⟨t, ht⟩ := EntryRecord.foldlM_applyExtra_narrow
    (r := f.record offset (Timestamp.ofDos f.date.toNat f.time.toNat))
    ⟨Nat.ne_of_lt hc, Nat.ne_of_lt hc, Nat.ne_of_lt ho⟩ (extraFields f.extra)
  refine ⟨t, ?_⟩
  rw [parseRecord_eq index hsig (drop_central f offset rest) hname hextra hcomment,
    recordName_utf8]
  show ((extraFields f.extra).foldlM EntryRecord.applyExtra
    (bareRecord (f.central offset ++ rest) f.name) >>= _) = _
  rw [bareRecord_central hf ho hc, ht]
  rfl

/-! ## The whole directory -/

/-- A record that describes a file at an offset. -/
def Describes (e : Nat × StoredFile) (r : EntryRecord) : Prop := ∃ t, r = e.2.record e.1 t

/-- What depends on neither offset nor time is read off the files. -/
theorem map_of_describes {β : Type} {g : EntryRecord → β} {g' : StoredFile → β}
    (hg : ∀ (f : StoredFile) (o t : Nat), g (f.record o t) = g' f) {es : List (Nat × StoredFile)}
    {rs : List EntryRecord} (h : List.Forall₂ Describes es rs) :
    rs.map g = (es.map (·.2)).map g' := by
  induction h with
  | nil => rfl
  | cons hd _ ih =>
      obtain ⟨t, rfl⟩ := hd
      rw [List.map_cons, List.map_cons, List.map_cons, ih, hg]

theorem exists_of_describes_left {es : List (Nat × StoredFile)} {rs : List EntryRecord}
    (h : List.Forall₂ Describes es rs) {e : Nat × StoredFile} (he : e ∈ es) :
    ∃ r ∈ rs, Describes e r := by
  induction h with
  | nil => cases he
  | cons hd _ ih =>
      rcases List.mem_cons.1 he with rfl | he
      · exact ⟨_, List.mem_cons_self, hd⟩
      · obtain ⟨r, hr, hdr⟩ := ih he
        exact ⟨r, List.mem_cons_of_mem _ hr, hdr⟩

theorem exists_of_describes_right {es : List (Nat × StoredFile)} {rs : List EntryRecord}
    (h : List.Forall₂ Describes es rs) {r : EntryRecord} (hr : r ∈ rs) :
    ∃ e ∈ es, Describes e r := by
  induction h with
  | nil => cases hr
  | cons hd _ ih =>
      rcases List.mem_cons.1 hr with rfl | hr
      · exact ⟨_, List.mem_cons_self, hd⟩
      · obtain ⟨e, he, hde⟩ := ih hr
        exact ⟨e, List.mem_cons_of_mem _ he, hde⟩

/-- The records of all files are read in their order, and what follows them is left. -/
theorem parseRecords_central (expected : Nat) {es : List (Nat × StoredFile)}
    (hes : ∀ e ∈ es, e.2.WellFormed ∧ e.1 < EntryRecord.saturated ∧
      e.2.content.length < EntryRecord.saturated)
    (index : Nat) (rest : Bytes) (done : List EntryRecord) :
    ∃ rs, parseRecords expected es.length index ((es.flatMap fun e => e.2.central e.1) ++ rest) done
        = .ok (done.reverse ++ rs, rest) ∧ List.Forall₂ Describes es rs := by
  induction es generalizing index done with
  | nil => exact ⟨[], by simp [parseRecords], .nil⟩
  | cons e es ih =>
      obtain ⟨hf, ho, hc⟩ := hes e (by simp)
      obtain ⟨t, ht⟩ := parseRecord_central hf ho hc index
        ((es.flatMap fun e => e.2.central e.1) ++ rest)
      obtain ⟨rs, hrs, hall⟩ := ih (fun e he => hes e (by simp [he])) (index + 1)
        (e.2.record e.1 t :: done)
      refine ⟨e.2.record e.1 t :: rs, ?_, .cons ⟨t, rfl⟩ hall⟩
      have hlen : ¬ ((e.2.central e.1 ++ ((es.flatMap fun e => e.2.central e.1) ++ rest)).take
          headerLen).length < headerLen := by
        simp only [List.length_take, List.length_append, StoredFile.length_central, headerLen]
        omega
      rw [List.flatMap_cons, List.append_assoc, List.length_cons, parseRecords, if_neg hlen, ht]
      show parseRecords expected es.length (index + 1) _ (e.2.record e.1 t :: done) = _
      rw [hrs, List.reverse_cons, List.append_assoc]
      rfl

/-- A directory is read as the files it was written for. -/
theorem parse_central {es : List (Nat × StoredFile)}
    (hes : ∀ e ∈ es, e.2.WellFormed ∧ e.1 < EntryRecord.saturated ∧
      e.2.content.length < EntryRecord.saturated) :
    ∃ rs, parse (es.flatMap fun e => e.2.central e.1) es.length = .ok rs ∧
      List.Forall₂ Describes es rs := by
  obtain ⟨rs, hrs, hall⟩ := parseRecords_central es.length hes 0 [] []
  refine ⟨rs, ?_, hall⟩
  rw [List.append_nil] at hrs
  simp only [parse]
  rw [hrs]
  rfl

end CentralDirectory

namespace StoredArchive

variable {a : StoredArchive} {e : Nat × StoredFile}

theorem length_content_lt (ha : a.WellFormed) (he : e ∈ a.entries) :
    e.1 < EntryRecord.saturated ∧ e.2.content.length < EntryRecord.saturated := by
  obtain ⟨-, -, -, -, hle⟩ := exists_of_mem_entries he
  have hlt := ha.locals_lt
  rw [StoredFile.length_part] at hle
  simp only [EntryRecord.saturated]
  omega

/-- The directory of an archive lists its files. -/
theorem parse_directory (ha : a.WellFormed) :
    ∃ rs, CentralDirectory.parse a.directory a.files.length = .ok rs ∧
      List.Forall₂ CentralDirectory.Describes a.entries rs := by
  rw [← a.length_entries]
  exact CentralDirectory.parse_central fun e he =>
    ⟨ha.files _ (mem_files_of_mem_entries he), length_content_lt ha he⟩

/-- The header of each file says where its content begins. -/
theorem parse_localNumbers (ha : a.WellFormed) (he : e ∈ a.entries) :
    ∃ h, LocalHeader.parse (Bytes.slice a.bytes e.1 LocalHeader.fixedLen) = .ok h ∧
      h.dataOffset e.1 = e.1 + e.2.localHeader.length := by
  have hf := ha.files _ (mem_files_of_mem_entries he)
  have hlen : (Bytes.numbers e.2.localNumbers).length = 30 := by
    simp [Bytes.length_numbers, Bytes.totalWidth, StoredFile.localNumbers]
  have hfield : ∀ (start width : Nat) {n : Nat},
      Bytes.numberAt? e.2.localNumbers start width = some n → n < Bytes.capacity width →
        Bytes.field (Bytes.numbers e.2.localNumbers) start width = n := by
    intro start width n hn hlt
    rw [← List.append_nil (Bytes.numbers _), Bytes.field_numbers _ hn, Nat.mod_eq_of_lt hlt]
  have hsig := hfield 0 4 rfl (by decide)
  have hname := hfield 26 2 rfl hf.name_lt
  have hextra := hfield 28 2 rfl hf.localExtra_lt
  refine ⟨⟨(Text.utf8 e.2.name).length, e.2.localExtra.length⟩, ?_, ?_⟩
  · rw [slice_localNumbers he, LocalHeader.parse, hlen, hsig, hname, hextra, if_neg (by decide),
      if_neg (not_not_intro rfl), if_neg (by decide)]
  · show e.1 + 30 + (Text.utf8 e.2.name).length + e.2.localExtra.length = _
    rw [StoredFile.length_localHeader]
    omega

/-! ## The end record -/

/-- What the end record says. -/
def endFields (a : StoredArchive) : EndRecord where
  diskNumber := 0
  directoryDisk := 0
  entries := a.files.length
  directorySize := a.directory.length
  directoryOffset := a.locals.length
  commentLen := a.comment.length

theorem field_endRecord (a : StoredArchive) (start width : Nat) {n : Nat}
    (h : Bytes.numberAt? a.endNumbers start width = some n) (hn : n < Bytes.capacity width) :
    Bytes.field a.endRecord start width = n := by
  rw [endRecord, Bytes.field_numbers _ h, Nat.mod_eq_of_lt hn]

theorem ofFields_endRecord (ha : a.WellFormed) : EndRecord.ofFields a.endRecord = a.endFields := by
  have hcount : a.files.length < Bytes.capacity 2 := Nat.lt_trans ha.count_lt (by decide)
  have hdir : a.directory.length < Bytes.capacity 4 := Nat.lt_trans ha.directory_lt (by decide)
  have hloc : a.locals.length < Bytes.capacity 4 := Nat.lt_trans ha.locals_lt (by decide)
  have hfield := @field_endRecord a
  have hdisk := hfield 4 2 rfl (by decide)
  have hdirDisk := hfield 6 2 rfl (by decide)
  have hentries := hfield 10 2 rfl hcount
  have hsize := hfield 12 4 rfl hdir
  have hoffset := hfield 16 4 rfl hloc
  have hcomment := hfield 20 2 rfl ha.comment_lt
  simp only [EndRecord.ofFields, endFields, hdisk, hdirDisk, hentries, hsize, hoffset, hcomment]

theorem standsAt_endPos (ha : a.WellFormed) : EndRecord.StandsAt a.bytes a.endPos := by
  have hsig := a.field_endRecord 0 4 rfl (by decide)
  have hcomment := a.field_endRecord 20 2 rfl ha.comment_lt
  rw [← a.drop_endPos, Bytes.field_drop] at hsig hcomment
  refine ⟨hsig, ?_⟩
  rw [hcomment, a.length_bytes, EndRecord.fixedLen, Nat.add_assoc]

/-- A window that shows the end record finds it. -/
theorem find_of_le (ha : a.WellFormed) {off : Nat} (hoff : off ≤ a.endPos) :
    EndRecord.find (a.bytes.drop off) = some (a.endPos - off, a.endFields) := by
  have hle : off ≤ a.bytes.length := by
    rw [a.length_bytes]
    omega
  have hadd : off + (a.endPos - off) = a.endPos := by omega
  have hlast : ∀ q, a.endPos - off < q → ¬ EndRecord.StandsAt (a.bytes.drop off) q := by
    intro q hq
    rw [EndRecord.standsAt_drop hle]
    exact ha.last _ (by omega)
  have hstands : EndRecord.StandsAt (a.bytes.drop off) (a.endPos - off) := by
    rw [EndRecord.standsAt_drop hle, hadd]
    exact standsAt_endPos ha
  rw [EndRecord.find_eq_some hstands hlast, List.drop_drop, hadd, a.drop_endPos,
    ofFields_endRecord ha]

/-- A window that begins behind the end record finds nothing. -/
theorem find_of_lt (ha : a.WellFormed) {off : Nat} (hoff : a.endPos < off)
    (hle : off ≤ a.bytes.length) : EndRecord.find (a.bytes.drop off) = none := by
  apply EndRecord.find_eq_none
  intro q
  rw [EndRecord.standsAt_drop hle]
  exact ha.last _ (by omega)

theorem locatorBefore_eq_none (ha : a.WellFormed) {off : Nat} (hoff : off ≤ a.endPos) :
    locatorBefore (a.bytes.drop off) (a.endPos - off) = none := by
  simp only [locatorBefore]
  split_ifs with hpos
  · rfl
  · simp only [Zip64Locator.len] at hpos ⊢
    simp only [Zip64Locator.recordOffset?]
    rw [if_pos]
    right
    have hadd : off + (a.endPos - off - 20) = a.endPos - 20 := by omega
    rw [Bytes.field, Bytes.slice_slice _ (by decide : 0 + 4 ≤ 20), Nat.add_zero, ← Bytes.field,
      Bytes.field_drop, hadd]
    exact ha.no_locator (by omega)

/-- What a window on the end of an archive shows. -/
theorem scanTail_drop (ha : a.WellFormed) {off : Nat} (hle : off ≤ a.bytes.length) :
    scanTail (a.bytes.drop off) off =
      .ok (if off ≤ a.endPos then .directory a.endFields else .notFound) := by
  have hcount : a.files.length ≠ 0xffff := Nat.ne_of_lt ha.count_lt
  have hdir : a.directory.length ≠ 0xffffffff := Nat.ne_of_lt ha.directory_lt
  have hloc : a.locals.length ≠ 0xffffffff := Nat.ne_of_lt ha.locals_lt
  by_cases hoff : off ≤ a.endPos
  · have hnarrow : a.endFields.needsZip64 = false := by
      simp [EndRecord.needsZip64, endFields, hcount, hdir, hloc]
    have hsupported : a.endFields.checkSupported = .ok () := rfl
    have hbounds : a.endFields.checkBounds (off + (a.endPos - off)) = .ok () := by
      have hd := ha.directory_lt
      have hl := ha.locals_lt
      have hadd : off + (a.endPos - off) = a.locals.length + a.directory.length := by
        simp only [endPos] at hoff ⊢
        omega
      simp only [EndRecord.checkBounds, endFields, hadd]
      rw [if_neg (by simp only [maxWord]; omega), if_neg (Nat.lt_irrefl _)]
    rw [if_pos hoff]
    simp only [scanTail, find_of_le ha hoff, locatorBefore_eq_none ha hoff, hnarrow, hsupported,
      hbounds]
    rfl
  · rw [if_neg hoff]
    simp only [scanTail, find_of_lt ha (by omega) hle]

end StoredArchive

end ArchiveMount
