/-
# `ArchiveMount.Proofs.Archive.Checked` — reading an archive's end in machine words

On a machine a position is a 64-bit word, a sum that does not fit it is an overflow, a
difference below zero an underflow, and a slice has to lie inside what it is a slice of.
Here the search for the end record and the scan of a window are written with such words,
where each operation may end in a `Trap`.  Work that does not end so has the results of
`EndRecord.find` and `scanTail`, whatever the window (`of_findChecked`,
`scanTailChecked_cases`), and on windows of an object that is not within 64 KiB of the
greatest word none does (`findChecked_eq`, `scanTailChecked_eq`).
-/
import ArchiveMount.Archive.LocalHeader
import ArchiveMount.Proofs.Archive.EndRecord
import ArchiveMount.Proofs.Archive.Trailer
import ArchiveMount.Proofs.Attempt

namespace ArchiveMount

/-! ## Words, slices and traps -/

/-- What an operation on machine words is cut off by. -/
inductive Trap
  | overflow
  | underflow
  | slice
  deriving Repr, DecidableEq

/-- What ends checked work: a trap, or an error that is reported. -/
inductive Stop (ε : Type)
  | trap (t : Trap)
  | error (e : ε)
  deriving Repr, DecidableEq

/-- Report errors in other terms; a trap stays one. -/
def Stop.map {ε ε' : Type} (f : ε → ε') : Stop ε → Stop ε'
  | .trap t => .trap t
  | .error e => .error (f e)

namespace Word

/-- The sum of two words. -/
def add (a b : Nat) : Except Trap Nat := if a + b ≤ maxWord then .ok (a + b) else .error .overflow

/-- The difference of two words. -/
def sub (a b : Nat) : Except Trap Nat := if b ≤ a then .ok (a - b) else .error .underflow

/-- The sum of a word and a signed number, if it is a word. -/
def addSigned? (a : Nat) (n : Int) : Option Nat :=
  if 0 ≤ a + n ∧ a + n ≤ maxWord then some (a + n).toNat else none

theorem add_eq {a b : Nat} (h : a + b ≤ maxWord) : add a b = .ok (a + b) := if_pos h

theorem sub_eq {a b : Nat} (h : b ≤ a) : sub a b = .ok (a - b) := if_pos h

theorem add_eq_ok_iff {a b c : Nat} : add a b = .ok c ↔ a + b ≤ maxWord ∧ a + b = c := by
  simp only [add]
  split_ifs with h <;> simp [h]

theorem sub_eq_ok_iff {a b c : Nat} : sub a b = .ok c ↔ b ≤ a ∧ a - b = c := by
  simp only [sub]
  split_ifs with h <;> simp [h]

theorem sub_of_lt {a b : Nat} (h : a < b) : sub a b = .error .underflow := if_neg (Nat.not_le.2 h)

end Word

/-- The bytes from `start` up to, but without, `stop`. -/
def Bytes.between (b : Bytes) (start stop : Nat) : Except Trap Bytes :=
  if start ≤ stop ∧ stop ≤ b.length then .ok (slice b start (stop - start)) else .error .slice

theorem Bytes.between_eq {b : Bytes} {start len : Nat} (h : start + len ≤ b.length) :
    b.between start (start + len) = .ok (slice b start len) := by
  rw [between, if_pos ⟨Nat.le_add_right _ _, h⟩, Nat.add_sub_cancel_left]

theorem Bytes.between_eq_ok_iff {b raw : Bytes} {start stop : Nat} :
    b.between start stop = .ok raw ↔
      (start ≤ stop ∧ stop ≤ b.length) ∧ slice b start (stop - start) = raw := by
  simp only [between]
  split_ifs with h <;> simp [h]

/-! ## The search for the end record -/

namespace EndRecord

/-- The record at a position, if its comment ends where the tail ends. -/
def probe (tail : Bytes) (pos : Nat) : Except Trap (Option EndRecord) := do
  let word ← Word.add pos 4
  if tail.length < word ∨ Bytes.field tail pos 4 ≠ signature then return none
  let stop ← Word.add pos fixedLen
  let raw ← tail.between pos stop
  match parse raw with
  | .error _ => return none
  | .ok r =>
    let stop ← Word.add stop r.commentLen
    return if stop = tail.length then some r else none

/-- Probe `n` positions from `first` on, the last one first. -/
def searchBack (tail : Bytes) (first : Nat) : (n : Nat) → Except Trap (Option (Nat × EndRecord))
  | 0 => .ok none
  | n + 1 => do
    match ← probe tail (first + n) with
    | some r => return some (first + n, r)
    | none => searchBack tail first n

/-- Search a tail backwards, from where a record without a comment stands. -/
def findChecked (tail : Bytes) : Except Trap (Option (Nat × EndRecord)) :=
  if tail.length < fixedLen then .ok none
  else do
    let last ← Word.sub tail.length fixedLen
    let first := last - maxCommentLen
    searchBack tail first (last - first + 1)

variable {tail : Bytes} {pos first n : Nat}

theorem parse_slice (hpos : pos + fixedLen ≤ tail.length)
    (hs : Bytes.field tail pos 4 = signature) :
    parse (Bytes.slice tail pos fixedLen) = .ok (ofFields (tail.drop pos)) := by
  have hlen : (Bytes.slice tail pos fixedLen).length = fixedLen := by
    rw [Bytes.length_slice]
    omega
  have hfield : ∀ {i w : Nat}, i + w ≤ fixedLen →
      Bytes.field (Bytes.slice tail pos fixedLen) i w = Bytes.field (tail.drop pos) i w := by
    intro i w hi
    rw [Bytes.field_slice tail hi, Bytes.field_drop]
  have hsig : Bytes.field (Bytes.slice tail pos fixedLen) 0 4 = signature := by
    rw [hfield (by decide), Bytes.field_drop]
    exact hs
  have hfields : ofFields (Bytes.slice tail pos fixedLen) = ofFields (tail.drop pos) := by
    simp (disch := decide) only [ofFields, hfield]
  rw [parse, hlen, if_neg (by decide), if_neg (not_not_intro hsig), if_neg (by decide), hfields]

/-- Probing tells whether a record stands at a position, unless it traps. -/
theorem of_probe {found : Option EndRecord} (h : probe tail pos = .ok found) :
    found = if StandsAt tail pos then some (ofFields (tail.drop pos)) else none := by
  obtain ⟨word, hword, h⟩ := Attempt.exists_of_bind_eq_ok h
  obtain ⟨-, rfl⟩ := Word.add_eq_ok_iff.1 hword
  by_cases hs : Bytes.field tail pos 4 = signature ∧ pos + 4 ≤ tail.length
  · obtain ⟨hs, hroom⟩ := hs
    have hno : ¬ (tail.length < pos + 4 ∨ Bytes.field tail pos 4 ≠ signature) := by
      rintro (h | h)
      · omega
      · exact h hs
    rw [if_neg hno] at h
    obtain ⟨stop, hstop, h⟩ := Attempt.exists_of_bind_eq_ok h
    obtain ⟨-, rfl⟩ := Word.add_eq_ok_iff.1 hstop
    obtain ⟨raw, hraw, h⟩ := Attempt.exists_of_bind_eq_ok h
    obtain ⟨⟨-, hpos⟩, rfl⟩ := Bytes.between_eq_ok_iff.1 hraw
    rw [Nat.add_sub_cancel_left, parse_slice hpos hs] at h
    obtain ⟨stop, hstop, h⟩ := Attempt.exists_of_bind_eq_ok h
    obtain ⟨-, rfl⟩ := Word.add_eq_ok_iff.1 hstop
    have hcomment : (ofFields (tail.drop pos)).commentLen = Bytes.field tail (pos + 20) 2 :=
      Bytes.field_drop tail pos 20 2
    rw [hcomment] at h
    simp only [StandsAt, hs, true_and]
    exact (Except.ok.inj h).symm
  · have hno : ¬ StandsAt tail pos := by
      intro hstands
      have hle := hstands.add_fixedLen_le
      simp only [fixedLen] at hle
      exact hs ⟨hstands.1, by omega⟩
    have hskip : tail.length < pos + 4 ∨ Bytes.field tail pos 4 ≠ signature := by
      by_cases hsig : Bytes.field tail pos 4 = signature
      · exact .inl (Nat.lt_of_not_le fun hroom => hs ⟨hsig, hroom⟩)
      · exact .inr hsig
    rw [if_pos hskip] at h
    rw [if_neg hno]
    exact (Except.ok.inj h).symm

/-- Where there is room for a record, probing does not trap. -/
theorem exists_probe (hpos : pos + fixedLen ≤ tail.length)
    (hmax : tail.length + maxCommentLen ≤ maxWord) : ∃ found, probe tail pos = .ok found := by
  have hword : Word.add pos 4 = .ok (pos + 4) :=
    Word.add_eq (by simp only [fixedLen] at hpos; omega)
  have hstop : Word.add pos fixedLen = .ok (pos + fixedLen) := Word.add_eq (by omega)
  have hcomment : (ofFields (tail.drop pos)).commentLen = Bytes.field tail (pos + 20) 2 :=
    Bytes.field_drop tail pos 20 2
  have hlt := Bytes.field_lt tail (pos + 20) 2
  rw [Bytes.capacity_two] at hlt
  have hend : Word.add (pos + fixedLen) (Bytes.field tail (pos + 20) 2) =
      .ok (pos + fixedLen + Bytes.field tail (pos + 20) 2) :=
    Word.add_eq (by simp only [maxCommentLen] at hmax; omega)
  simp only [probe, hword, bind, Except.bind]
  split_ifs with hskip
  · exact ⟨none, rfl⟩
  · have hs : Bytes.field tail pos 4 = signature := by
      by_contra hs
      exact hskip (.inr hs)
    simp only [hstop, Bytes.between_eq hpos, parse_slice hpos hs, hcomment, hend]
    exact ⟨_, rfl⟩

/-- Probing finds the last record of all, if none stands behind or before what is probed. -/
theorem of_searchBack {found : Option (Nat × EndRecord)} (h : searchBack tail first n = .ok found)
    (hbehind : ∀ q, first + n ≤ q → ¬ StandsAt tail q)
    (hbefore : ∀ q, q < first → ¬ StandsAt tail q) : found = find tail := by
  induction n with
  | zero =>
      have hnone : find tail = none := by
        refine find_eq_none fun q hq => ?_
        rcases Nat.lt_or_ge q first with hlt | hge
        · exact hbefore q hlt hq
        · exact hbehind q hge hq
      rw [hnone]
      exact (Except.ok.inj h).symm
  | succ n ih =>
      obtain ⟨probed, hprobe, h⟩ := Attempt.exists_of_bind_eq_ok h
      obtain rfl := of_probe hprobe
      by_cases hs : StandsAt tail (first + n)
      · rw [if_pos hs] at h
        rw [find_eq_some hs fun q hq => hbehind q (by omega)]
        exact (Except.ok.inj h).symm
      · rw [if_neg hs] at h
        refine ih h fun q hq => ?_
        rcases Nat.eq_or_lt_of_le hq with rfl | hlt
        · exact hs
        · exact hbehind q (by omega)

theorem exists_searchBack (hn : first + n + fixedLen ≤ tail.length + 1)
    (hmax : tail.length + maxCommentLen ≤ maxWord) :
    ∃ found, searchBack tail first n = .ok found := by
  induction n with
  | zero => exact ⟨none, rfl⟩
  | succ n ih =>
      have hroom : first + n + fixedLen ≤ tail.length := by omega
      obtain ⟨probed, hprobe⟩ := exists_probe hroom hmax
      rw [searchBack, hprobe]
      cases probed with
      | some r => exact ⟨_, rfl⟩
      | none => exact ih (by omega)

/-- The search finds what there is to find, unless it traps. -/
theorem of_findChecked {found : Option (Nat × EndRecord)} (h : findChecked tail = .ok found) :
    found = find tail := by
  simp only [findChecked] at h
  split_ifs at h with hshort
  · obtain rfl := Except.ok.inj h
    refine (find_eq_none fun q hq => ?_).symm
    have hle := hq.add_fixedLen_le
    omega
  · obtain ⟨last, hlast, h⟩ := Attempt.exists_of_bind_eq_ok h
    obtain ⟨-, rfl⟩ := Word.sub_eq_ok_iff.1 hlast
    refine of_searchBack h (fun q hq hs => ?_) fun q hq hs => ?_
    · have hroom := hs.add_fixedLen_le
      omega
    · have hlen := hs.length_le
      omega

theorem findChecked_eq (hmax : tail.length + maxCommentLen ≤ maxWord) :
    findChecked tail = .ok (find tail) := by
  have hdone : ∃ found, findChecked tail = .ok found := by
    simp only [findChecked]
    split_ifs with hshort
    · exact ⟨none, rfl⟩
    · simp only [Word.sub_eq (Nat.le_of_not_lt hshort), bind, Except.bind]
      exact exists_searchBack (by omega) hmax
  obtain ⟨found, hfound⟩ := hdone
  rw [hfound, of_findChecked hfound]

end EndRecord

/-! ## The scan of a window -/

/-- The locator that ends where the end record begins. -/
def locatorBeforeChecked (tail : Bytes) (pos : Nat) : Except Trap (Option Nat) :=
  if pos < Zip64Locator.len then .ok none
  else do
    let raw ← tail.between (pos - Zip64Locator.len) pos
    return Zip64Locator.recordOffset? raw

/-- Look at a window. -/
def scanTailChecked (tail : Bytes) (tailOffset : Nat) : Except (Stop ArchiveError) TailScan := do
  match ← (EndRecord.findChecked tail).mapError .trap with
  | none => return .notFound
  | some (pos, r) =>
    let position ← (Word.add tailOffset pos).mapError .trap
    match ← (locatorBeforeChecked tail pos).mapError .trap with
    | some recordOffset => return .zip64 r recordOffset
    | none =>
      if r.needsZip64 then
        if pos < Zip64Locator.len ∧ 0 < tailOffset then return .notFound
        else .error (.error (.malformed .noZip64Locator))
      else (r.scan position).mapError .error

theorem locatorBeforeChecked_eq {tail : Bytes} {pos : Nat} (hpos : pos ≤ tail.length) :
    locatorBeforeChecked tail pos = .ok (locatorBefore tail pos) := by
  simp only [locatorBeforeChecked, locatorBefore]
  split_ifs with hshort
  · rfl
  · have hinside : pos - Zip64Locator.len + Zip64Locator.len ≤ tail.length := by omega
    have hcut := Bytes.between_eq hinside
    rw [Nat.sub_add_cancel (Nat.le_of_not_lt hshort)] at hcut
    rw [hcut]
    rfl

/-- Once the search is done and the place of what it found is computed, the scan does not trap. -/
theorem scanTailChecked_of_find {tail : Bytes} {tailOffset : Nat}
    (hfind : EndRecord.findChecked tail = .ok (EndRecord.find tail))
    (hadd : ∀ pos r, EndRecord.find tail = some (pos, r) →
      Word.add tailOffset pos = .ok (tailOffset + pos)) :
    scanTailChecked tail tailOffset = (scanTail tail tailOffset).mapError .error := by
  cases hf : EndRecord.find tail with
  | none =>
      simp only [scanTailChecked, scanTail, hfind, hf, Attempt.mapError_ok, bind, Except.bind]
      rfl
  | some found =>
      obtain ⟨pos, r⟩ := found
      have hpos := (EndRecord.find_eq_some_iff.1 hf).1.lt_length
      have hadd := hadd pos r hf
      have hloc := locatorBeforeChecked_eq (Nat.le_of_lt hpos)
      cases hl : locatorBefore tail pos with
      | some offset =>
          rw [scanTail_of_locator hf hl]
          simp only [scanTailChecked, hfind, hf, hadd, hloc, hl, Attempt.mapError_ok, bind,
            Except.bind]
          rfl
      | none =>
          cases hn : r.needsZip64 with
          | false =>
              rw [scanTail_of_narrow hf hl hn]
              simp only [scanTailChecked, hfind, hf, hadd, hloc, hl, hn, Attempt.mapError_ok, bind,
                Except.bind, Bool.false_eq_true, if_false]
          | true =>
              rw [scanTail_of_saturated hf hl hn]
              simp only [scanTailChecked, hfind, hf, hadd, hloc, hl, hn, Attempt.mapError_ok, bind,
                Except.bind, if_true]
              split_ifs <;> rfl

/-- A window that ends where the object ends is scanned without a trap. -/
theorem scanTailChecked_eq {tail : Bytes} {tailOffset : Nat}
    (hmax : tailOffset + tail.length + EndRecord.maxCommentLen ≤ maxWord) :
    scanTailChecked tail tailOffset = (scanTail tail tailOffset).mapError .error := by
  refine scanTailChecked_of_find (EndRecord.findChecked_eq (by omega)) fun pos r hf => ?_
  have hpos := (EndRecord.find_eq_some_iff.1 hf).1.lt_length
  exact Word.add_eq (by omega)

/-- Whatever the window, and wherever it is said to begin, its scan traps or answers. -/
theorem scanTailChecked_cases (tail : Bytes) (tailOffset : Nat) :
    (∃ t, scanTailChecked tail tailOffset = .error (.trap t)) ∨
      scanTailChecked tail tailOffset = (scanTail tail tailOffset).mapError .error := by
  cases hfind : EndRecord.findChecked tail with
  | error t =>
      left
      simp only [scanTailChecked, hfind]
      exact ⟨t, rfl⟩
  | ok found =>
      rw [EndRecord.of_findChecked hfind] at hfind
      by_cases hadd : ∀ pos r, EndRecord.find tail = some (pos, r) →
          Word.add tailOffset pos = .ok (tailOffset + pos)
      · exact .inr (scanTailChecked_of_find hfind hadd)
      · simp only [not_forall] at hadd
        obtain ⟨pos, r, hf, hadd⟩ := hadd
        left
        have htrap : Word.add tailOffset pos = .error .overflow :=
          if_neg fun hle => hadd (Word.add_eq hle)
        simp only [scanTailChecked, hfind, hf, htrap, Attempt.mapError_ok, Attempt.mapError_error,
          bind, Except.bind]
        exact ⟨.overflow, rfl⟩

/-! ## The place of a payload -/

/-- Where the payload of the entry whose header stands at `headerOffset` begins. -/
def LocalHeader.dataOffsetChecked (h : LocalHeader) (headerOffset : Nat) : Except Trap Nat := do
  let fixed ← Word.add headerOffset fixedLen
  let name ← Word.add fixed h.nameLen
  Word.add name h.extraLen

/-- The lengths in a header are 16 bits wide. -/
theorem LocalHeader.parse_bounds {raw : Bytes} {h : LocalHeader} (hp : parse raw = .ok h) :
    h.nameLen < 0x10000 ∧ h.extraLen < 0x10000 := by
  simp only [parse] at hp
  split_ifs at hp
  obtain rfl := Except.ok.inj hp
  exact ⟨Bytes.field_lt raw 26 2, Bytes.field_lt raw 28 2⟩

/-- The place of a payload is computed, unless it traps. -/
theorem LocalHeader.of_dataOffsetChecked {h : LocalHeader} {headerOffset start : Nat}
    (hd : h.dataOffsetChecked headerOffset = .ok start) : h.dataOffset headerOffset = start := by
  obtain ⟨fixed, hfixed, hd⟩ := Attempt.exists_of_bind_eq_ok hd
  obtain ⟨-, rfl⟩ := Word.add_eq_ok_iff.1 hfixed
  obtain ⟨name, hname, hd⟩ := Attempt.exists_of_bind_eq_ok hd
  obtain ⟨-, rfl⟩ := Word.add_eq_ok_iff.1 hname
  exact (Word.add_eq_ok_iff.1 hd).2

theorem LocalHeader.dataOffsetChecked_eq {h : LocalHeader} {headerOffset : Nat}
    (hname : h.nameLen < 0x10000) (hextra : h.extraLen < 0x10000)
    (hmax : headerOffset + fixedLen + 131070 ≤ maxWord) :
    h.dataOffsetChecked headerOffset = .ok (h.dataOffset headerOffset) := by
  simp only [dataOffsetChecked, dataOffset]
  rw [Word.add_eq (by omega)]
  show (do
    let name ← Word.add (headerOffset + fixedLen) h.nameLen
    Word.add name h.extraLen) = _
  rw [Word.add_eq (by omega)]
  exact Word.add_eq (by omega)

end ArchiveMount
