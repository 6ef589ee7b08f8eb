/-
# `ArchiveMount.Proofs.Archive.Trailer` — windows that begin just before the end record

A window on the end of an object finds the record that the whole object ends with, or none
(`EndRecord.find_drop_eq_some_iff`).  What the window may not show are the 20 bytes before
that record.  If the record is saturated it says so itself, and the window is found too
small; if it is not, a locator that stands there goes unnoticed.  `scanTail_drop_ne_iff`
says that this is the only way in which a window misleads.
-/
import ArchiveMount.Archive.Trailer
import ArchiveMount.Proofs.Archive.EndRecord

namespace ArchiveMount

/-! ## The record in a window -/

section Window

variable {b : Bytes} {off pos : Nat}

/-- The record found in a window is the one found in the whole. -/
theorem EndRecord.find_drop_eq_some_iff (hoff : off ≤ b.length) {r : EndRecord} :
    find (b.drop off) = some (pos, r) ↔ find b = some (off + pos, r) := by
  rw [find_eq_some_iff, find_eq_some_iff, standsAt_drop hoff, List.drop_drop]
  refine and_congr_right fun _ => and_congr_right fun _ => ?_
  constructor
  · intro hlast q hq hs
    obtain ⟨q, rfl⟩ := Nat.exists_eq_add_of_le (show off ≤ q by omega)
    exact hlast q (by omega) ((standsAt_drop hoff).2 hs)
  · intro hlast q hq hs
    exact hlast (off + q) (by omega) ((standsAt_drop hoff).1 hs)

/-- A locator that a window shows is the one that the whole shows. -/
theorem locatorBefore_drop (hpos : Zip64Locator.len ≤ pos) :
    locatorBefore (b.drop off) pos = locatorBefore b (off + pos) := by
  simp only [locatorBefore]
  rw [if_neg (Nat.not_lt.2 hpos), if_neg (by omega), Nat.add_sub_assoc hpos, Bytes.slice,
    List.drop_drop, ← Bytes.slice]

theorem locatorBefore_of_lt (hpos : pos < Zip64Locator.len) : locatorBefore b pos = none :=
  if_pos hpos

end Window

/-! ## What the scan makes of a record -/

section Scan

variable {tail : Bytes} {tailOffset pos : Nat} {r : EndRecord}

/-- What the record says by itself. -/
def EndRecord.scan (r : EndRecord) (limit : Nat) : Except ArchiveError TailScan := do
  r.checkSupported
  r.checkBounds limit
  return .directory r

theorem scanTail_of_locator {offset : Nat} (h : EndRecord.find tail = some (pos, r))
    (hl : locatorBefore tail pos = some offset) :
    scanTail tail tailOffset = .ok (.zip64 r offset) := by
  simp only [scanTail, h, hl]

theorem scanTail_of_narrow (h : EndRecord.find tail = some (pos, r))
    (hl : locatorBefore tail pos = none) (hn : r.needsZip64 = false) :
    scanTail tail tailOffset = r.scan (tailOffset + pos) := by
  simp only [scanTail, h, hl, hn, Bool.false_eq_true, if_false]
  rfl

theorem scanTail_of_saturated (h : EndRecord.find tail = some (pos, r))
    (hl : locatorBefore tail pos = none) (hn : r.needsZip64 = true) :
    scanTail tail tailOffset =
      if pos < Zip64Locator.len ∧ 0 < tailOffset then .ok .notFound
      else .error (.malformed .noZip64Locator) := by
  simp only [scanTail, h, hl, hn, if_true]

/-- By itself a record never asks for a 64-bit one or for a larger window. -/
theorem EndRecord.scan_ne {limit : Nat} {x : TailScan} (hx : x ≠ .directory r) :
    r.scan limit ≠ .ok x := by
  intro h
  simp only [scan] at h
  cases hs : r.checkSupported with
  | error e =>
      rw [hs] at h
      cases h
  | ok _ =>
      cases hb : r.checkBounds limit with
      | error e =>
          rw [hs, hb] at h
          cases h
      | ok _ =>
          rw [hs, hb] at h
          exact hx (Except.ok.inj h).symm

end Scan

/-! ## Windows that mislead -/

/-- A window from `off` on shows the end record, which is not saturated, but not all of the
locator before it. -/
def HidesLocator (data : Bytes) (off : Nat) : Prop :=
  ∃ pos r offset, EndRecord.find data = some (off + pos, r) ∧ r.needsZip64 = false ∧
    pos < Zip64Locator.len ∧ 0 < off ∧ locatorBefore data (off + pos) = some offset

/-- Unless it hides a locator, a window that shows a record answers as the whole does, or
asks for more. -/
theorem scanTail_drop_eq {data : Bytes} {off pos : Nat} {r : EndRecord} (hoff : off ≤ data.length)
    (h : EndRecord.find data = some (off + pos, r)) (hh : ¬ HidesLocator data off) :
    scanTail (data.drop off) off = .ok .notFound ∨
      scanTail (data.drop off) off = scanTail data 0 := by
  have hw : EndRecord.find (data.drop off) = some (pos, r) :=
    (EndRecord.find_drop_eq_some_iff hoff).2 h
  cases hl : locatorBefore data (off + pos) with
  | some offset =>
      by_cases hpos : Zip64Locator.len ≤ pos
      · right
        rw [scanTail_of_locator h hl, scanTail_of_locator hw ((locatorBefore_drop hpos).trans hl)]
      · have hlt : pos < Zip64Locator.len := Nat.lt_of_not_le hpos
        rcases Nat.eq_zero_or_pos off with rfl | hpositive
        · exact .inr rfl
        · cases hn : r.needsZip64 with
          | false => exact absurd ⟨pos, r, offset, h, hn, hlt, hpositive, hl⟩ hh
          | true =>
              left
              rw [scanTail_of_saturated hw (locatorBefore_of_lt hlt) hn, if_pos ⟨hlt, hpositive⟩]
  | none =>
      have hwl : locatorBefore (data.drop off) pos = none := by
        by_cases hpos : Zip64Locator.len ≤ pos
        · rw [locatorBefore_drop hpos, hl]
        · exact locatorBefore_of_lt (Nat.lt_of_not_le hpos)
      cases hn : r.needsZip64 with
      | false =>
          right
          rw [scanTail_of_narrow h hl hn, scanTail_of_narrow hw hwl hn, Nat.zero_add]
      | true =>
          have hwhole : scanTail data 0 = .error (.malformed .noZip64Locator) := by
            rw [scanTail_of_saturated h hl hn, if_neg fun hz => Nat.lt_irrefl 0 hz.2]
          rw [scanTail_of_saturated hw hwl hn, hwhole]
          split_ifs
          · exact .inl rfl
          · exact .inr rfl

/-- A window on the last `w` bytes gives an answer that is not the whole object's exactly
if it hides a locator. -/
theorem scanTail_drop_ne_iff (data : Bytes) (w : Nat) :
    let off := data.length - w
    scanTail (data.drop off) off ≠ .ok .notFound ∧
        scanTail (data.drop off) off ≠ scanTail data 0 ↔
      HidesLocator data off := by
  intro off
  have hoff : off ≤ data.length := Nat.sub_le _ _
  constructor
  · rintro ⟨hfound, hne⟩
    cases hw : EndRecord.find (data.drop off) with
    | none =>
        have hnot : scanTail (data.drop off) off = .ok .notFound := by simp only [scanTail, hw]
        exact absurd hnot hfound
    | some found =>
        obtain ⟨pos, r⟩ := found
        refine Classical.byContradiction fun hh => ?_
        exact (scanTail_drop_eq hoff ((EndRecord.find_drop_eq_some_iff hoff).1 hw) hh).elim
          hfound hne
  · rintro ⟨pos, r, offset, h, hn, hpos, -, hl⟩
    have hw : EndRecord.find (data.drop off) = some (pos, r) :=
      (EndRecord.find_drop_eq_some_iff hoff).2 h
    rw [scanTail_of_narrow hw (locatorBefore_of_lt hpos) hn, scanTail_of_locator h hl]
    exact ⟨EndRecord.scan_ne (by simp), EndRecord.scan_ne (by simp)⟩

/-! ## A locator before a record that does not need it -/

namespace LoneLocator

/-- A locator of the 64-bit record at 0. -/
def locator : Bytes := Bytes.numbers [(4, Zip64Locator.signature), (4, 0), (8, 0), (4, 1)]

/-- The end record of an archive without files, and without a comment. -/
def endRecord : Bytes := Bytes.numbers [(4, EndRecord.signature), (18, 0)]

/-- An object of a locator and an end record. -/
def object : Bytes := locator ++ endRecord

/-- The window that begins with the end record finds the directory, the whole object asks
for the 64-bit record. -/
theorem scanTail_object_ne :
    let off := object.length - EndRecord.fixedLen
    EndRecord.fixedLen ≤ object.length ∧
      scanTail (object.drop off) off = .ok (.directory ⟨0, 0, 0, 0, 0, 0⟩) ∧
      scanTail object 0 = .ok (.zip64 ⟨0, 0, 0, 0, 0, 0⟩ 0) := by
  decide

end LoneLocator

end ArchiveMount
