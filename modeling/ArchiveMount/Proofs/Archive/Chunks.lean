/-
# `ArchiveMount.Proofs.Archive.Chunks` — where a payload is cut does not matter

A decoder takes a payload in chunks and checks as it goes.  Whether it succeeds in the end
depends on the payload as a whole: `Unpacks` says what a payload holds, and
`finish_writeAll_iff` that this is given out, in whatever chunks the payload came, exactly
if it is what the directory declares.

Of the decompressor only this is assumed, next to its being a function of the bytes it was
given: that it takes no output back, and that a stream that cannot be continued stays so
(`Decompressor.Steady`).  Then two things decide that the checks on the way do not show at the
end: that no proper beginning of the stream is complete (`Whole`), and that it is not broken,
which no later byte can mend.  The inflater is steady; whatever else decodes deflate streams
may stand in its place.
-/
import ArchiveMount.Proofs.Archive.Payload
import ArchiveMount.Proofs.Deflate.Inflater

namespace ArchiveMount

/-! ## Decompressors -/

namespace Decompressor

variable {σ : Type} [Decompressor σ] {s : σ} {a b : Bytes} {x : UInt8}

/-- What is known of a decompressor. -/
class Steady (σ : Type) [Decompressor σ] : Prop where
  /-- Output is never taken back. -/
  size_out_le_byte : ∀ (s : σ) (x : UInt8), (out s).size ≤ (out (byte s x)).size
  /-- No byte mends a broken stream. -/
  isBroken_byte : ∀ {s : σ}, isBroken s = true → ∀ x, isBroken (byte s x) = true

instance : Steady Deflate.Inflater :=
  ⟨Deflate.Inflater.size_out_le_byte, Deflate.Inflater.isBroken_byte⟩

/-- Bytes are taken in one after the other. -/
def bytes (s : σ) (b : Bytes) : σ := b.foldl byte s

theorem bytes_append (s : σ) (a b : Bytes) : bytes s (a ++ b) = bytes (bytes s a) b :=
  List.foldl_append

theorem size_out_le_bytes [Steady σ] (s : σ) (b : Bytes) :
    (out s).size ≤ (out (bytes s b)).size := by
  simp only [bytes]
  induction b generalizing s with
  | nil => exact Nat.le_refl _
  | cons x b ih => exact Nat.le_trans (Steady.size_out_le_byte s x) (ih _)

theorem isBroken_bytes [Steady σ] (h : isBroken s = true) (b : Bytes) :
    isBroken (bytes s b) = true := by
  simp only [bytes]
  induction b generalizing s with
  | nil => exact h
  | cons x b ih => exact ih (Steady.isBroken_byte h x)

/-- A stream that is not broken in the end was not broken before. -/
theorem isBroken_of_bytes [Steady σ] (h : isBroken (bytes s b) = false) : isBroken s = false := by
  rw [← Bool.not_eq_true]
  intro hs
  rw [isBroken_bytes hs b] at h
  cases h

/-- No proper beginning of these bytes completes the stream. -/
def Whole (s : σ) (b : Bytes) : Prop := ∀ i < b.length, isFinished (bytes s (b.take i)) = false

namespace Whole

theorem nil : Whole s [] := fun _ h => absurd h (Nat.not_lt_zero _)

theorem cons_iff : Whole s (x :: b) ↔ isFinished s = false ∧ Whole (byte s x) b := by
  constructor
  · intro h
    exact ⟨h 0 (Nat.succ_pos _), fun i hi => h (i + 1) (Nat.succ_lt_succ hi)⟩
  · rintro ⟨hs, hb⟩ i hi
    cases i with
    | zero => exact hs
    | succ i => exact hb i (Nat.lt_of_succ_lt_succ hi)

theorem append_iff : Whole s (a ++ b) ↔ Whole s a ∧ Whole (bytes s a) b := by
  induction a generalizing s with
  | nil => exact ⟨fun h => ⟨nil, h⟩, And.right⟩
  | cons x a ih =>
      rw [List.cons_append, cons_iff, cons_iff, ih, and_assoc]
      rfl

end Whole

end Decompressor

namespace PayloadDecoder

open Decompressor

variable {σ : Type} [Decompressor σ] {size : Nat} {crc : UInt32} {s s' : σ} {r : Room}
  {chunk : Bytes} {counted counted' : Nat} {d : PayloadDecoder σ}

theorem checkLimit_eq_ok_iff : checkLimit size counted = .ok () ↔ counted ≤ size := by
  simp only [checkLimit]
  split_ifs with h
  · simp only [false_iff]
    omega
  · simp only [true_iff]
    omega

/-! ## One chunk of a deflate stream -/

/-- Making room for output that fits is never refused. -/
theorem exists_empty (h : r.window ≤ size) : ∃ next, r.empty size = .ok next := by
  simp only [Room.empty]
  split_ifs
  · exact ⟨_, rfl⟩
  · rw [checkLimit_eq_ok_iff.2 h]
    exact ⟨_, rfl⟩

/-- A chunk that is taken in was all decoded, and no more is counted than came out. -/
theorem inflate_eq_ok (h : inflate size r s chunk = .ok (s', counted)) :
    s' = bytes s chunk ∧ Whole s chunk ∧ counted ≤ (out s').size := by
  induction chunk generalizing r s with
  | nil =>
      simp only [inflate] at h
      obtain ⟨rfl, rfl⟩ := Prod.mk.inj (Except.ok.inj h)
      refine ⟨rfl, .nil, ?_⟩
      split_ifs <;> omega
  | cons b rest ih =>
      rw [inflate] at h
      by_cases hf : isFinished s = true
      · rw [if_pos hf] at h
        split at h <;> cases h
      rw [if_neg hf] at h
      rw [Bool.not_eq_true] at hf
      cases hroom : (if (isCopying s && decide ((out s).size = r.window)) = true then r.empty size
          else .ok r) with
      | error e =>
          rw [hroom] at h
          cases h
      | ok room =>
          rw [hroom] at h
          dsimp only at h
          by_cases hfits : (out (byte s b)).size ≤ room.window
          · rw [if_pos hfits] at h
            split_ifs at h
            obtain ⟨rfl, hwhole, hle⟩ := ih h
            exact ⟨rfl, Whole.cons_iff.2 ⟨hf, hwhole⟩, hle⟩
          rw [if_neg hfits] at h
          by_cases hlast : rest.isEmpty = true
          · -- the last byte of the chunk yields more than fits, which waits
            rw [if_pos hlast] at h
            obtain rfl : rest = [] := List.isEmpty_iff.1 hlast
            obtain ⟨rfl, rfl⟩ := Prod.mk.inj (Except.ok.inj h)
            exact ⟨rfl, Whole.cons_iff.2 ⟨hf, .nil⟩, by omega⟩
          rw [if_neg hlast] at h
          cases hnext : room.empty size with
          | error e =>
              rw [hnext] at h
              cases h
          | ok next =>
              rw [hnext] at h
              dsimp only at h
              split_ifs at h
              obtain ⟨rfl, hwhole, hle⟩ := ih h
              exact ⟨rfl, Whole.cons_iff.2 ⟨hf, hwhole⟩, hle⟩

/-- A chunk is taken in if the stream was not complete before, is not broken by it, and the
output fits. -/
theorem exists_inflate [Steady σ] (r : Room) (hwhole : Whole s chunk)
    (hbroken : isBroken (bytes s chunk) = false) (hsize : (out (bytes s chunk)).size ≤ size) :
    ∃ counted, inflate size r s chunk = .ok (bytes s chunk, counted) := by
  induction chunk generalizing r s with
  | nil => exact ⟨_, rfl⟩
  | cons b rest ih =>
      obtain ⟨hf, hrest⟩ := Whole.cons_iff.1 hwhole
      have hgrow : (out (byte s b)).size ≤ size :=
        Nat.le_trans (size_out_le_bytes (byte s b) rest) hsize
      have hbefore : (out s).size ≤ size := Nat.le_trans (Steady.size_out_le_byte s b) hgrow
      have hsound : isBroken (byte s b) = false :=
        isBroken_of_bytes hbroken
      obtain ⟨room, hroom⟩ : ∃ room,
          (if (isCopying s && decide ((out s).size = r.window)) = true then r.empty size
            else .ok r) = .ok room := by
        split_ifs with hfull
        · rw [Bool.and_eq_true, decide_eq_true_iff] at hfull
          exact exists_empty (hfull.2 ▸ hbefore)
        · exact ⟨r, rfl⟩
      simp only [inflate, hf, Bool.false_eq_true, if_false, hroom, hsound]
      by_cases hfits : (out (byte s b)).size ≤ room.window
      · rw [if_pos hfits]
        exact ih room hrest hbroken hsize
      rw [if_neg hfits]
      by_cases hlast : rest.isEmpty = true
      · obtain rfl : rest = [] := List.isEmpty_iff.1 hlast
        exact ⟨_, rfl⟩
      rw [if_neg hlast]
      have hroom' : room.window ≤ size := by omega
      obtain ⟨next, hnext⟩ := exists_empty hroom'
      have hopen : isFinished (byte s b) = false := by
        refine hrest 0 (List.length_pos_iff.2 fun hnil => hlast ?_)
        rw [hnil]
        rfl
      simp only [hnext, hopen, Bool.false_and, Bool.false_eq_true, if_false]
      exact ih next hrest hbroken hsize

/-! ## All chunks of a payload -/

/-- A chunk that is taken in is decoded behind what came before it. -/
theorem write_deflated_eq_ok (h : write ⟨size, crc, .deflated s counted⟩ chunk = .ok d)
    (hcounted : counted ≤ (out s).size) :
    Whole s chunk ∧ ∃ counted' ≤ (out (bytes s chunk)).size,
      d = ⟨size, crc, .deflated (bytes s chunk) counted'⟩ := by
  simp only [write] at h
  by_cases hempty : chunk.isEmpty = true
  · rw [if_pos hempty] at h
    obtain rfl : chunk = [] := List.isEmpty_iff.1 hempty
    exact ⟨.nil, counted, hcounted, (Except.ok.inj h).symm⟩
  · rw [if_neg hempty] at h
    obtain ⟨-, -, h⟩ := Attempt.exists_of_bind_eq_ok h
    split_ifs at h
    obtain ⟨⟨s', counted'⟩, hinflate, h⟩ := Attempt.exists_of_bind_eq_ok h
    obtain ⟨rfl, hwhole, hle⟩ := inflate_eq_ok hinflate
    exact ⟨hwhole, counted', hle, (Except.ok.inj h).symm⟩

/-- A chunk is taken in under the conditions of `exists_inflate`. -/
theorem exists_write_deflated [Steady σ] (crc : UInt32) (hcounted : counted ≤ (out s).size)
    (hwhole : Whole s chunk) (hbroken : isBroken (bytes s chunk) = false)
    (hsize : (out (bytes s chunk)).size ≤ size) :
    ∃ counted' ≤ (out (bytes s chunk)).size, write ⟨size, crc, .deflated s counted⟩ chunk =
      .ok ⟨size, crc, .deflated (bytes s chunk) counted'⟩ := by
  simp only [write]
  by_cases hempty : chunk.isEmpty = true
  · rw [if_pos hempty]
    obtain rfl : chunk = [] := List.isEmpty_iff.1 hempty
    exact ⟨counted, hcounted, rfl⟩
  · rw [if_neg hempty]
    have hgrow := size_out_le_bytes s chunk
    have hsound : isBroken s = false := isBroken_of_bytes hbroken
    have hopen : isFinished s = false :=
      hwhole 0 (List.length_pos_iff.2 fun hnil => hempty (List.isEmpty_iff.2 hnil))
    obtain ⟨counted', hinflate⟩ := exists_inflate (.after counted) hwhole hbroken hsize
    obtain ⟨-, -, hle⟩ := inflate_eq_ok hinflate
    refine ⟨counted', hle, ?_⟩
    rw [checkLimit_eq_ok_iff.2 (by omega), hsound, hopen, hinflate]
    rfl

theorem writeAll_deflated_eq_ok {chunks : List Bytes}
    (h : writeAll ⟨size, crc, .deflated s counted⟩ chunks = .ok d)
    (hcounted : counted ≤ (out s).size) :
    Whole s chunks.flatten ∧ ∃ counted' ≤ (out (bytes s chunks.flatten)).size,
      d = ⟨size, crc, .deflated (bytes s chunks.flatten) counted'⟩ := by
  simp only [writeAll] at h
  induction chunks generalizing s counted with
  | nil => exact ⟨.nil, counted, hcounted, (Except.ok.inj h).symm⟩
  | cons chunk chunks ih =>
      rw [List.foldlM_cons] at h
      obtain ⟨d₁, hchunk, hrest⟩ := Attempt.exists_of_bind_eq_ok h
      obtain ⟨hwhole, counted₁, hle, rfl⟩ := write_deflated_eq_ok hchunk hcounted
      obtain ⟨hwhole', hd⟩ := ih hrest hle
      rw [List.flatten_cons, bytes_append]
      exact ⟨Whole.append_iff.2 ⟨hwhole, hwhole'⟩, hd⟩

theorem exists_writeAll_deflated [Steady σ] (crc : UInt32) {chunks : List Bytes}
    (hcounted : counted ≤ (out s).size) (hwhole : Whole s chunks.flatten)
    (hbroken : isBroken (bytes s chunks.flatten) = false)
    (hsize : (out (bytes s chunks.flatten)).size ≤ size) :
    ∃ counted' ≤ (out (bytes s chunks.flatten)).size,
      writeAll ⟨size, crc, .deflated s counted⟩ chunks =
        .ok ⟨size, crc, .deflated (bytes s chunks.flatten) counted'⟩ := by
  simp only [writeAll]
  induction chunks generalizing s counted with
  | nil => exact ⟨counted, hcounted, rfl⟩
  | cons chunk chunks ih =>
      rw [List.flatten_cons] at hwhole hbroken hsize ⊢
      rw [bytes_append] at hbroken hsize ⊢
      obtain ⟨hchunk, hrest⟩ := Whole.append_iff.1 hwhole
      have hgrow := size_out_le_bytes (bytes s chunk) chunks.flatten
      have hfits : (out (bytes s chunk)).size ≤ size := Nat.le_trans hgrow hsize
      obtain ⟨counted₁, hle, hwrite⟩ := exists_write_deflated crc hcounted hchunk
        (isBroken_of_bytes hbroken) hfits
      rw [List.foldlM_cons, hwrite]
      exact ih hle hrest hbroken hsize

/-- Of a stored payload no more is taken in than there is room for. -/
theorem writeAll_stored_eq_ok {out : Array UInt8} {chunks : List Bytes}
    (h : writeAll (⟨size, crc, .stored out⟩ : PayloadDecoder σ) chunks = .ok d)
    (hout : out.size ≤ size) :
    out.size + chunks.flatten.length ≤ size := by
  simp only [writeAll] at h
  induction chunks generalizing out with
  | nil => simpa using hout
  | cons chunk chunks ih =>
      rw [List.foldlM_cons] at h
      obtain ⟨d₁, hchunk, hrest⟩ := Attempt.exists_of_bind_eq_ok h
      have hfits : out.size + chunk.length ≤ size := by
        by_cases hempty : chunk.isEmpty = true
        · rw [List.isEmpty_iff.1 hempty]
          exact hout
        · simp only [write, if_neg hempty] at hchunk
          split_ifs at hchunk
          omega
      obtain rfl := Except.ok.inj ((write_stored hfits).symm.trans hchunk)
      have hsize : (out ++ chunk).size = out.size + chunk.length := by
        rw [← Array.length_toList, Array.toList_appendList, List.length_append,
          Array.length_toList]
      have hrest' := ih hrest (by omega)
      rw [List.flatten_cons, List.length_append]
      omega

/-! ## What a payload comes to -/

/-- What a payload is decoded to, by its method and by what decodes deflate streams. -/
def Unpacks (compression : Compression) (payload out : Bytes) (σ : Type := Deflate.Inflater)
    [Decompressor σ] : Prop :=
  match compression with
  | .stored => out = payload
  | .deflated => Whole (start : σ) payload ∧ isBroken (bytes (start : σ) payload) = false ∧
      out = (Decompressor.out (bytes (start : σ) payload)).toList
  | .other _ => False

/-- There is a decoder for a payload that holds something. -/
theorem exists_new_of_unpacks {compression : Compression} {payload out : Bytes} (size : Nat)
    (crc : UInt32) (h : Unpacks compression payload out σ) :
    ∃ d : PayloadDecoder σ, new compression size crc = .ok d := by
  cases compression with
  | stored | deflated => exact ⟨_, rfl⟩
  | other id => exact False.elim h

/-- The end of a decoding: nothing is wrong with what waits, and all is as declared. -/
theorem finish_eq_ok_iff {out : Bytes} :
    d.finish = .ok out ↔
      d.checkWaiting = .ok () ∧ out = d.decoded ∧ AsDeclared d.size d.crc out := by
  simp only [finish]
  constructor
  · intro h
    have hdeclared := Expects.finish ⟨rfl, rfl⟩ h
    obtain ⟨_, hwaiting, h⟩ := Attempt.exists_of_bind_eq_ok h
    obtain ⟨_, -, h⟩ := Attempt.exists_of_bind_eq_ok h
    split_ifs at h
    exact ⟨hwaiting, (Except.ok.inj h).symm, hdeclared⟩
  · rintro ⟨hwaiting, rfl, hlen, hcrc⟩
    rw [hwaiting, if_neg (not_not_intro hlen), if_neg (not_not_intro hcrc)]
    show (checkLimit d.size d.decoded.length >>= fun _ => _) = _
    rw [checkLimit_eq_ok_iff.2 (Nat.le_of_eq hlen)]
    rfl

theorem checkWaiting_deflated_eq_ok_iff :
    checkWaiting ⟨size, crc, .deflated s counted⟩ = .ok () ↔
      counted ≤ size ∧ isBroken s = false := by
  rw [← checkLimit_eq_ok_iff]
  constructor
  · intro h
    obtain ⟨_, hlimit, h⟩ := Attempt.exists_of_bind_eq_ok h
    split_ifs at h with hbroken
    exact ⟨hlimit, (Bool.not_eq_true _).mp hbroken⟩
  · rintro ⟨hlimit, hbroken⟩
    show (checkLimit size counted >>= fun _ => if isBroken s then _ else _) = _
    rw [hlimit, hbroken]
    rfl

/-- A payload is decoded to the same in whatever chunks it comes, and to nothing else. -/
theorem finish_writeAll_iff [Steady σ] {compression : Compression}
    (hnew : new compression size crc = .ok d) (chunks : List Bytes) (out : Bytes) :
    (d.writeAll chunks >>= finish) = .ok out ↔
      Unpacks compression chunks.flatten out σ ∧ AsDeclared size crc out := by
  rw [Attempt.bind_eq_ok_iff]
  cases compression with
  | stored =>
      obtain rfl := Except.ok.inj hnew
      constructor
      · rintro ⟨d', hwrite, hfinish⟩
        have hfits := writeAll_stored_eq_ok hwrite (Nat.zero_le _)
        obtain rfl := Except.ok.inj ((writeAll_stored hfits).symm.trans hwrite)
        obtain ⟨-, rfl, hdeclared⟩ := finish_eq_ok_iff.1 hfinish
        refine ⟨?_, hdeclared⟩
        simp [Unpacks, decoded]
      · rintro ⟨rfl, hdeclared⟩
        have hfits : (#[] : Array UInt8).size + chunks.flatten.length ≤ size := by
          simpa using Nat.le_of_eq hdeclared.length_eq
        refine ⟨_, writeAll_stored hfits, finish_eq_ok_iff.2 ⟨rfl, ?_, hdeclared⟩⟩
        simp [decoded]
  | deflated =>
      obtain rfl := Except.ok.inj hnew
      constructor
      · rintro ⟨d', hwrite, hfinish⟩
        obtain ⟨hwhole, counted, hle, rfl⟩ := writeAll_deflated_eq_ok hwrite (Nat.zero_le _)
        obtain ⟨hwaiting, rfl, hdeclared⟩ := finish_eq_ok_iff.1 hfinish
        exact ⟨⟨hwhole, (checkWaiting_deflated_eq_ok_iff.1 hwaiting).2, rfl⟩, hdeclared⟩
      · rintro ⟨⟨hwhole, hbroken, rfl⟩, hdeclared⟩
        have hsize := hdeclared.length_eq
        rw [Array.length_toList] at hsize
        obtain ⟨counted, hle, hwrite⟩ := exists_writeAll_deflated crc (Nat.zero_le _) hwhole
          hbroken (Nat.le_of_eq hsize)
        have hcounted : counted ≤ size := Nat.le_trans hle (Nat.le_of_eq hsize)
        refine ⟨_, hwrite, finish_eq_ok_iff.2 ⟨?_, rfl, hdeclared⟩⟩
        exact checkWaiting_deflated_eq_ok_iff.2 ⟨hcounted, hbroken⟩
  | other id => cases hnew

end PayloadDecoder

end ArchiveMount
