/-
# `ArchiveMount.Proofs.Archive.FullWidth` — directory records with numbers of 64 bits

How a directory record is written whose sizes and offset take 64 bits.  A number that is
not below the greatest one of 32 bits is given as that one, and again in an extra field, which
has all such numbers in their order and which there is only if there are any.  Other fields
may stand on either side of it, a timestamp among them.

What was written is read back, whatever the numbers (`parseRecord_bytes`).  The proof follows
the extra fields: those on the sides leave the numbers alone (`foldlM_applyExtra_sides`), and
the one in the middle puts each number in the place of its short form (`applyZip64_wide`).
-/
import ArchiveMount.Proofs.Archive.ReadBack

namespace ArchiveMount

/-! ## Extra fields as they are written -/

/-- An extra field: its number, the length of its data, and the data. -/
def writeField (x : Nat × Bytes) : Bytes := Bytes.ofNat 2 x.1 ++ (Bytes.ofNat 2 x.2.length ++ x.2)

/-- An extra block. -/
def writeFields (xs : List (Nat × Bytes)) : Bytes := xs.flatMap writeField

theorem extraFields_writeField {x : Nat × Bytes} (hid : x.1 < 0x10000) (hlen : x.2.length < 0x10000)
    (rest : Bytes) : extraFields (writeField x ++ rest) = x :: extraFields rest := by
  obtain ⟨id, data⟩ := x
  have hbytes : writeField (id, data) ++ rest = UInt8.ofNat id :: UInt8.ofNat (id / 256) ::
      UInt8.ofNat data.length :: UInt8.ofNat (data.length / 256) :: (data ++ rest) := by
    simp [writeField, Bytes.ofNat]
  have hnumber : ∀ {n : Nat}, n < 0x10000 →
      Bytes.toNat [UInt8.ofNat n, UInt8.ofNat (n / 256)] = n :=
    fun {n} h => Bytes.toNat_ofNat 2 n h
  have hroom : ¬ ((data ++ rest).take data.length).length < data.length := by simp
  rw [hbytes, extraFields, hnumber hid, hnumber hlen]
  dsimp only
  rw [if_neg hroom, List.take_left, List.drop_left]

/-- A block of fields is read field by field. -/
theorem extraFields_writeFields {xs : List (Nat × Bytes)}
    (h : ∀ x ∈ xs, x.1 < 0x10000 ∧ x.2.length < 0x10000) : extraFields (writeFields xs) = xs := by
  induction xs with
  | nil => simp [writeFields, extraFields]
  | cons x xs ih =>
      obtain ⟨hid, hlen⟩ := h x List.mem_cons_self
      rw [writeFields, List.flatMap_cons, extraFields_writeField hid hlen]
      exact congrArg (x :: ·) (ih fun y hy => h y (List.mem_cons_of_mem _ hy))

/-- The data of a field is not longer than the block it stands in. -/
theorem length_le_writeFields {x : Nat × Bytes} {xs : List (Nat × Bytes)} (h : x ∈ xs) :
    x.2.length ≤ (writeFields xs).length := by
  induction xs with
  | nil => cases h
  | cons y xs ih =>
      rw [writeFields, List.flatMap_cons, List.length_append]
      rcases List.mem_cons.1 h with rfl | h
      · simp only [writeField, List.length_append]
        omega
      · exact Nat.le_trans (ih h) (Nat.le_add_left _ _)

/-- A field that stands beside the one with the long numbers. -/
inductive SideField
  /-- The modification time, in seconds, behind a byte of flags; other times may follow it. -/
  | timestamp (flags : UInt8) (mtime : Int32) (more : Bytes)
  | other (id : UInt16) (data : Bytes)

namespace SideField

/-- A timestamp says by its lowest flag that it has the modification time, and other fields
do not have the numbers of those that are looked at. -/
def WellFormed : SideField → Prop
  | timestamp flags _ _ => flags.toNat.testBit 0 = true
  | other id _ => id.toNat ≠ 0x0001 ∧ id.toNat ≠ 0x5455

/-- The number of a field and its data. -/
def field : SideField → Nat × Bytes
  | timestamp flags mtime more => (0x5455, flags :: (Bytes.ofNat 4 mtime.toUInt32.toNat ++ more))
  | other id data => (id.toNat, data)

/-- The modification time that a field states. -/
def mtime? : SideField → Option Int32
  | timestamp _ mtime _ => some mtime
  | other _ _ => none

theorem id_lt (f : SideField) : f.field.1 < 0x10000 := by
  cases f with
  | timestamp =>
      show 0x5455 < 0x10000
      decide
  | other id data => exact id.toNat_lt

end SideField

/-! ## What the fields do to a record -/

namespace EntryRecord

/-- The time of a record after some fields: that of the last timestamp, if there is one, or
else the one it had.  A time before 1970 counts as its beginning. -/
def modifiedBy (modified : Nat) (fs : List SideField) : Nat :=
  match (fs.filterMap SideField.mtime?).getLast? with
  | some mtime => (max mtime.toInt 0).toNat
  | none => modified

theorem modifiedBy_cons (modified : Nat) (f : SideField) (fs : List SideField) :
    modifiedBy modified (f :: fs) = modifiedBy (modifiedBy modified [f]) fs := by
  simp only [modifiedBy, List.filterMap_cons, List.filterMap_nil]
  cases f.mtime? with
  | none => rfl
  | some mtime =>
      rw [List.getLast?_cons]
      cases (fs.filterMap SideField.mtime?).getLast? <;> rfl

theorem modifiedBy_append (modified : Nat) (fs gs : List SideField) :
    modifiedBy modified (fs ++ gs) = modifiedBy (modifiedBy modified fs) gs := by
  induction fs generalizing modified with
  | nil => rfl
  | cons f fs ih => rw [List.cons_append, modifiedBy_cons, ih, ← modifiedBy_cons]

/-- A number of 32 bits that is read as a signed one. -/
theorem signed_eq (m : Int32) :
    (if m.toUInt32.toNat < 0x80000000 then (m.toUInt32.toNat : Int)
      else m.toUInt32.toNat - 0x100000000) = m.toInt := by
  have hm : m.toInt = m.toUInt32.toBitVec.toInt := rfl
  rw [hm, BitVec.toInt_eq_toNat_cond, UInt32.toNat_toBitVec]
  split_ifs <;> omega

theorem applyTimestamp_field {flags : UInt8} (hflags : flags.toNat.testBit 0 = true) (m : Int32)
    (more : Bytes) (r : EntryRecord) :
    r.applyTimestamp (flags :: (Bytes.ofNat 4 m.toUInt32.toNat ++ more)) =
      { r with modified := (max m.toInt 0).toNat } := by
  have hlen : 5 ≤ (flags :: (Bytes.ofNat 4 m.toUInt32.toNat ++ more)).length := by
    simp only [List.length_cons, List.length_append, Bytes.length_ofNat]
    omega
  have hbit : Bytes.field (flags :: (Bytes.ofNat 4 m.toUInt32.toNat ++ more)) 0 1 % 2 = 1 := by
    have hone : Bytes.field (flags :: (Bytes.ofNat 4 m.toUInt32.toNat ++ more)) 0 1 =
        flags.toNat := by
      simp [Bytes.field, Bytes.slice, Bytes.toNat]
    rw [hone]
    simpa using hflags
  have hmtime : Bytes.field (flags :: (Bytes.ofNat 4 m.toUInt32.toNat ++ more)) 1 4 =
      m.toUInt32.toNat := by
    have hslice : Bytes.slice (flags :: (Bytes.ofNat 4 m.toUInt32.toNat ++ more)) 1 4 =
        Bytes.ofNat 4 m.toUInt32.toNat :=
      Bytes.slice_append_append [flags] (Bytes.ofNat 4 m.toUInt32.toNat) more
    rw [Bytes.field, hslice, Bytes.toNat_ofNat 4 _ m.toUInt32.toNat_lt]
  simp only [applyTimestamp]
  rw [if_pos ⟨hlen, hbit⟩, hmtime, signed_eq]
  simp only [Timestamp.ofUnixSeconds]
  congr 1
  omega

/-- A field on the side changes the time at most. -/
theorem applyExtra_side {f : SideField} (hf : f.WellFormed) (r : EntryRecord) :
    r.applyExtra f.field = .ok { r with modified := modifiedBy r.modified [f] } := by
  cases f with
  | timestamp flags mtime more => exact congrArg Except.ok (applyTimestamp_field hf mtime more r)
  | other id data =>
      obtain ⟨hwide, hstamp⟩ := hf
      simp only [SideField.field, applyExtra]
      split
      case h_1 h => exact absurd (congrArg Prod.fst h) hwide
      case h_2 h => exact absurd (congrArg Prod.fst h) hstamp
      case h_3 => rfl

theorem foldlM_applyExtra_sides {fs : List SideField} (hfs : ∀ f ∈ fs, f.WellFormed)
    (r : EntryRecord) : (fs.map SideField.field).foldlM applyExtra r =
      .ok { r with modified := modifiedBy r.modified fs } := by
  induction fs generalizing r with
  | nil => rfl
  | cons f fs ih =>
      rw [List.map_cons, List.foldlM_cons, applyExtra_side (hfs f List.mem_cons_self)]
      show (fs.map SideField.field).foldlM applyExtra
        { r with modified := modifiedBy r.modified [f] } = _
      rw [ih fun g hg => hfs g (List.mem_cons_of_mem _ hg), modifiedBy_cons r.modified f fs]

/-- The form of a number that 32 bits have room for. -/
def short (n : Nat) : Nat := min n saturated

/-- What of a number goes into the extra field. -/
def long (n : Nat) : Bytes := if n < saturated then [] else Bytes.ofNat 8 n

theorem short_lt (n : Nat) : short n < Bytes.capacity 4 :=
  Nat.lt_of_le_of_lt (Nat.min_le_right _ _) (by decide)

theorem short_of_long_eq_nil {n : Nat} (h : long n = []) : short n = n := by
  by_cases hn : n < saturated
  · exact Nat.min_eq_left hn.le
  · simp only [long, if_neg hn] at h
    cases h

/-- A short form is replaced by what is next in the field, if it stands for a long one. -/
theorem widen_short {n : Nat} (hn : n < Bytes.capacity 8) (rest : Bytes) :
    widen (short n) (long n ++ rest) = .ok (n, rest) := by
  by_cases h : n < saturated
  · rw [short, Nat.min_eq_left h.le, long, if_pos h, List.nil_append,
      widen_of_ne (Nat.ne_of_lt h)]
  · have hlen : (Bytes.ofNat 8 n).length = 8 := Bytes.length_ofNat 8 n
    have hroom : ¬ ((Bytes.ofNat 8 n ++ rest).take 8).length < 8 := by
      rw [List.length_take, List.length_append, hlen]
      omega
    have hslice := Bytes.slice_zero_append (Bytes.ofNat 8 n) rest
    rw [hlen] at hslice
    rw [short, Nat.min_eq_right (Nat.le_of_not_lt h), long, if_neg h, widen,
      if_neg (not_not_intro rfl), if_neg hroom, Bytes.field, hslice, Bytes.toNat_ofNat 8 n hn,
      List.drop_left' hlen]

/-- The field with the long numbers puts each in its place. -/
theorem applyZip64_wide {r : EntryRecord} {size compressedSize headerOffset : Nat}
    (hsize : size < Bytes.capacity 8) (hcompressed : compressedSize < Bytes.capacity 8)
    (hoffset : headerOffset < Bytes.capacity 8) (hr : r.size = short size)
    (hr' : r.compressedSize = short compressedSize) (hr'' : r.headerOffset = short headerOffset) :
    r.applyZip64 (long size ++ (long compressedSize ++ long headerOffset)) =
      .ok { r with size, compressedSize, headerOffset } := by
  have hlast := widen_short hoffset []
  rw [List.append_nil] at hlast
  simp only [applyZip64, hr, hr', hr'', widen_short hsize, widen_short hcompressed, hlast, bind,
    Except.bind]
  rfl

end EntryRecord

/-! ## Records -/

/-- A directory record with what goes into it. -/
structure FullRecord where
  /-- The bytes of the name. -/
  name : Bytes
  size : UInt64
  compressedSize : UInt64
  headerOffset : UInt64
  crc : UInt32
  madeBy : UInt16 := 0
  needed : UInt16 := 45
  flags : UInt16 := 0
  method : UInt16 := 0
  time : UInt16 := 0
  date : UInt16 := 33
  disk : UInt16 := 0
  internalAttrs : UInt16 := 0
  externalAttrs : UInt32 := 0
  /-- The fields before the one with the long numbers. -/
  before : List SideField := []
  /-- The fields behind it. -/
  after : List SideField := []
  comment : Bytes := []

namespace FullRecord

/-- The long numbers in their order. -/
def wide (w : FullRecord) : Bytes :=
  EntryRecord.long w.size.toNat ++
    (EntryRecord.long w.compressedSize.toNat ++ EntryRecord.long w.headerOffset.toNat)

/-- The extra fields.  The one with the long numbers is there only if it has any. -/
def fields (w : FullRecord) : List (Nat × Bytes) :=
  w.before.map SideField.field ++
    ((if w.wide = [] then [] else [(0x0001, w.wide)]) ++ w.after.map SideField.field)

/-- The extra block. -/
def extra (w : FullRecord) : Bytes := writeFields w.fields

/-- The numbers of the header. -/
def numbers (w : FullRecord) : List (Nat × Nat) :=
  [(4, CentralDirectory.signature), (2, w.madeBy.toNat), (2, w.needed.toNat), (2, w.flags.toNat),
    (2, w.method.toNat), (2, w.time.toNat), (2, w.date.toNat), (4, w.crc.toNat),
    (4, EntryRecord.short w.compressedSize.toNat), (4, EntryRecord.short w.size.toNat),
    (2, w.name.length), (2, w.extra.length), (2, w.comment.length), (2, w.disk.toNat),
    (2, w.internalAttrs.toNat), (4, w.externalAttrs.toNat),
    (4, EntryRecord.short w.headerOffset.toNat)]

/-- The record. -/
def bytes (w : FullRecord) : Bytes :=
  Bytes.numbers w.numbers ++ (w.name ++ (w.extra ++ w.comment))

/-- Name, extra block and comment fit the lengths that are given for them. -/
structure WellFormed (w : FullRecord) : Prop where
  name_lt : w.name.length < 0x10000
  extra_lt : w.extra.length < 0x10000
  comment_lt : w.comment.length < 0x10000
  sides : ∀ f ∈ w.before ++ w.after, f.WellFormed

/-- What the record says, its name being this text. -/
def entry (w : FullRecord) (name : String) : EntryRecord where
  name := name
  isDir := name.toList.getLast? = some '/' ||
    (w.madeBy.toNat / 256 = 3 && w.externalAttrs.toNat / 65536 &&& 0o170000 = 0o040000) ||
    w.externalAttrs.toNat.testBit 4
  size := w.size.toNat
  compressedSize := w.compressedSize.toNat
  crc32 := w.crc
  compression := Compression.ofId w.method.toNat
  headerOffset := w.headerOffset.toNat
  modified := EntryRecord.modifiedBy (Timestamp.ofDos w.date.toNat w.time.toNat)
    (w.before ++ w.after)
  unixMode := CentralDirectory.unixMode? w.madeBy.toNat w.externalAttrs.toNat
  encrypted := w.flags.toNat.testBit 0

/-- What the header alone says. -/
def bare (w : FullRecord) (name : String) : EntryRecord :=
  { w.entry name with
    size := EntryRecord.short w.size.toNat
    compressedSize := EntryRecord.short w.compressedSize.toNat
    headerOffset := EntryRecord.short w.headerOffset.toNat
    modified := Timestamp.ofDos w.date.toNat w.time.toNat }

variable {w : FullRecord}

/-! ## The header -/

/-- A mode that is all zero, and so counts as none, is not that of a directory. -/
theorem recordIsDir_eq (name : String) (madeBy externalAttrs : Nat) :
    CentralDirectory.recordIsDir name (CentralDirectory.unixMode? madeBy externalAttrs)
        externalAttrs =
      (name.toList.getLast? = some '/' ||
        (madeBy / 256 = 3 && externalAttrs / 65536 &&& 0o170000 = 0o040000) ||
        externalAttrs.testBit 4) := by
  have hunix : (CentralDirectory.unixMode? madeBy externalAttrs).any CentralDirectory.isUnixDir =
      (madeBy / 256 = 3 && externalAttrs / 65536 &&& 0o170000 = 0o040000) := by
    simp only [CentralDirectory.unixMode?, CentralDirectory.hostUnix]
    by_cases hmode : externalAttrs / 65536 = 0
    · simp [hmode]
    · by_cases hhost : madeBy / 256 = 3 <;> simp [hhost, hmode, CentralDirectory.isUnixDir]
  rw [CentralDirectory.recordIsDir, hunix]

theorem field_bytes (rest : Bytes) (start width : Nat) {n : Nat}
    (h : Bytes.numberAt? w.numbers start width = some n) (hn : n < Bytes.capacity width) :
    Bytes.field (w.bytes ++ rest) start width = n := by
  rw [bytes, List.append_assoc, Bytes.field_numbers _ h, Nat.mod_eq_of_lt hn]

theorem drop_bytes (w : FullRecord) (rest : Bytes) :
    (w.bytes ++ rest).drop CentralDirectory.headerLen =
      w.name ++ (w.extra ++ (w.comment ++ rest)) := by
  have hlen : (Bytes.numbers w.numbers).length = CentralDirectory.headerLen := by
    simp [Bytes.length_numbers, Bytes.totalWidth, numbers, CentralDirectory.headerLen]
  rw [bytes, List.append_assoc, List.drop_left' hlen]
  simp only [List.append_assoc]

theorem bareRecord_bytes (w : FullRecord) (rest : Bytes) (name : String) :
    CentralDirectory.bareRecord (w.bytes ++ rest) name = w.bare name := by
  have hfield := @field_bytes w rest
  have hmade := hfield 4 2 rfl (UInt16.toNat_lt _)
  have hflags := hfield 8 2 rfl (UInt16.toNat_lt _)
  have hmethod := hfield 10 2 rfl (UInt16.toNat_lt _)
  have htime := hfield 12 2 rfl (UInt16.toNat_lt _)
  have hdate := hfield 14 2 rfl (UInt16.toNat_lt _)
  have hcrc := hfield 16 4 rfl (UInt32.toNat_lt _)
  have hcompressed := hfield 20 4 rfl (EntryRecord.short_lt _)
  have hsize := hfield 24 4 rfl (EntryRecord.short_lt _)
  have hattrs := hfield 38 4 rfl (UInt32.toNat_lt _)
  have hoffset := hfield 42 4 rfl (EntryRecord.short_lt _)
  simp only [CentralDirectory.bareRecord, bare, entry, hmade, hflags, hmethod, htime, hdate, hcrc,
    hcompressed, hsize, hattrs, hoffset, recordIsDir_eq, UInt32.ofNat_toNat, Nat.testBit_zero]

/-! ## The extra block -/

theorem extraFields_extra (hw : w.WellFormed) : extraFields w.extra = w.fields := by
  refine extraFields_writeFields fun x hx => ⟨?_, ?_⟩
  · simp only [fields, List.mem_append, List.mem_map] at hx
    rcases hx with ⟨f, -, rfl⟩ | hx | ⟨f, -, rfl⟩
    · exact f.id_lt
    · split_ifs at hx
      · cases hx
      · obtain rfl := List.mem_singleton.1 hx
        show 0x0001 < 0x10000
        decide
    · exact f.id_lt
  · exact Nat.lt_of_le_of_lt (length_le_writeFields hx) hw.extra_lt

/-- With or without the field of the long numbers, each is in its place then. -/
theorem foldlM_applyExtra_wide (w : FullRecord) (name : String) (modified : Nat) :
    (if w.wide = [] then [] else [(0x0001, w.wide)]).foldlM EntryRecord.applyExtra
        { w.bare name with modified := modified } = .ok { w.entry name with modified } := by
  by_cases hnone : w.wide = []
  · obtain ⟨hsize, hrest⟩ := List.append_eq_nil_iff.1 hnone
    obtain ⟨hcompressed, hoffset⟩ := List.append_eq_nil_iff.1 hrest
    rw [if_pos hnone]
    simp only [bare, EntryRecord.short_of_long_eq_nil hsize,
      EntryRecord.short_of_long_eq_nil hcompressed, EntryRecord.short_of_long_eq_nil hoffset]
    rfl
  · have hwide : EntryRecord.applyExtra { w.bare name with modified := modified }
        (0x0001, w.wide) = .ok { w.entry name with modified } :=
      EntryRecord.applyZip64_wide w.size.toNat_lt w.compressedSize.toNat_lt w.headerOffset.toNat_lt
        rfl rfl rfl
    rw [if_neg hnone, List.foldlM_cons, hwide]
    rfl

theorem foldlM_applyExtra_fields (hw : w.WellFormed) (name : String) :
    w.fields.foldlM EntryRecord.applyExtra (w.bare name) = .ok (w.entry name) := by
  have hbefore := EntryRecord.foldlM_applyExtra_sides
    (fun f hf => hw.sides f (List.mem_append_left _ hf)) (w.bare name)
  have hafter := fun r => EntryRecord.foldlM_applyExtra_sides
    (fun f hf => hw.sides f (List.mem_append_right _ hf)) r
  rw [fields, List.foldlM_append, hbefore]
  show ((if w.wide = [] then [] else [(0x0001, w.wide)]) ++
    w.after.map SideField.field).foldlM EntryRecord.applyExtra
      { w.bare name with modified := EntryRecord.modifiedBy (w.bare name).modified w.before } = _
  rw [List.foldlM_append, foldlM_applyExtra_wide]
  show (w.after.map SideField.field).foldlM EntryRecord.applyExtra
    { w.entry name with modified := EntryRecord.modifiedBy (w.bare name).modified w.before } = _
  rw [hafter]
  simp only [entry, bare, EntryRecord.modifiedBy_append]

/-! ## Reading a record -/

theorem parseRecord_eq_recordName (hw : w.WellFormed) (index : Nat) (rest : Bytes) :
    CentralDirectory.parseRecord index (w.bytes ++ rest) =
      (CentralDirectory.recordName index w.flags.toNat w.name).map fun name =>
        (w.entry name, rest) := by
  have hfield := @field_bytes w rest
  have hsig := hfield 0 4 rfl (by decide)
  have hflags := hfield 8 2 rfl (UInt16.toNat_lt _)
  have hname := hfield 28 2 rfl hw.name_lt
  have hextra := hfield 30 2 rfl hw.extra_lt
  have hcomment := hfield 32 2 rfl hw.comment_lt
  rw [CentralDirectory.parseRecord_eq index hsig (w.drop_bytes rest) hname hextra hcomment, hflags,
    extraFields_extra hw]
  cases CentralDirectory.recordName index w.flags.toNat w.name with
  | error e => rfl
  | ok name =>
      show (w.fields.foldlM EntryRecord.applyExtra
        (CentralDirectory.bareRecord (w.bytes ++ rest) name) >>= _) = _
      rw [bareRecord_bytes, foldlM_applyExtra_fields hw]
      rfl

/-- A record alone is a directory of one record. -/
theorem parse_bytes {name : String}
    (h : CentralDirectory.parseRecord 0 (w.bytes ++ []) = .ok (w.entry name, [])) :
    CentralDirectory.parse w.bytes 1 = .ok [w.entry name] := by
  have hlen : ¬ ((w.bytes ++ []).take CentralDirectory.headerLen).length <
      CentralDirectory.headerLen := by
    simp [bytes, Bytes.length_numbers, Bytes.totalWidth, numbers, CentralDirectory.headerLen]
  have hrecords : CentralDirectory.parseRecords 1 1 0 (w.bytes ++ []) [] =
      .ok ([w.entry name], []) := by
    rw [CentralDirectory.parseRecords, if_neg hlen, h]
    rfl
  rw [List.append_nil] at hrecords
  rw [CentralDirectory.parse, hrecords]
  rfl

/-- Reading undoes writing.  A record whose name is UTF-8 is read as what was written, with the
flag that promises it and without, alone and before other bytes.  A name that is not UTF-8 is
read leniently without the flag, and refused with it. -/
theorem parseRecord_bytes (hw : w.WellFormed) (index : Nat) (rest : Bytes) :
    (∀ name, w.name = Text.utf8 name →
      CentralDirectory.parseRecord index (w.bytes ++ rest) = .ok (w.entry name, rest) ∧
        CentralDirectory.parse w.bytes 1 = .ok [w.entry name]) ∧
    (w.flags.toNat.testBit 11 = false →
      CentralDirectory.parseRecord index (w.bytes ++ rest) =
        .ok (w.entry (Text.ofUtf8Lossy w.name), rest)) ∧
    (w.flags.toNat.testBit 11 = true → (∀ name, w.name ≠ Text.utf8 name) →
      CentralDirectory.parseRecord index (w.bytes ++ rest) =
        .error (.malformed (.recordName index))) := by
  refine ⟨?_, ?_, ?_⟩
  · intro name hname
    have hread : ∀ i r, CentralDirectory.parseRecord i (w.bytes ++ r) = .ok (w.entry name, r) := by
      intro i r
      rw [parseRecord_eq_recordName hw, hname, CentralDirectory.recordName_utf8]
      rfl
    exact ⟨hread index rest, parse_bytes (hread 0 [])⟩
  · intro hflag
    rw [parseRecord_eq_recordName hw, CentralDirectory.recordName, hflag]
    rfl
  · intro hflag hname
    have hnone : Text.ofUtf8? w.name = none := by
      rw [Option.eq_none_iff_forall_ne_some]
      intro name h
      exact hname name (Text.eq_utf8_of_ofUtf8? h)
    rw [parseRecord_eq_recordName hw, CentralDirectory.recordName, hflag, if_pos rfl, hnone]
    rfl

namespace Mixed

/-- A file of 4294967295 bytes, the least size that does not fit, packed into 5, far into an
archive.  Its time lies before 1970. -/
def record : FullRecord where
  name := Text.utf8 "a"
  size := 0xffffffff
  compressedSize := 5
  headerOffset := 0x10000000000
  crc := 7
  method := 8
  before := [.other 0xcafe [1, 2, 3]]
  after := [.timestamp 1 (-1) [], .other 0x7075 []]

theorem record_wellFormed : record.WellFormed where
  name_lt := by decide
  extra_lt := by decide
  comment_lt := by decide
  sides := by
    simp only [record, List.cons_append, List.nil_append, List.forall_mem_cons]
    exact ⟨⟨by decide, by decide⟩, rfl, ⟨by decide, by decide⟩, nofun⟩

/-- The extra field has two of the three numbers, and all three are read. -/
theorem record_read_back : record.WellFormed ∧ record.name = Text.utf8 "a" ∧
    record.wide.length = 16 ∧
      CentralDirectory.parse record.bytes 1 = .ok [record.entry "a"] ∧
      (record.entry "a").size = 0xffffffff ∧ (record.entry "a").compressedSize = 5 ∧
      (record.entry "a").headerOffset = 0x10000000000 ∧ (record.entry "a").modified = 0 := by
  obtain ⟨hutf8, -⟩ := parseRecord_bytes record_wellFormed 0 []
  exact ⟨record_wellFormed, rfl, by decide, (hutf8 "a" rfl).2, rfl, rfl, rfl, rfl⟩

end Mixed

end FullRecord

end ArchiveMount
