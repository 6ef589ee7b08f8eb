/-
# `ArchiveMount.Proofs.Archive.Payload` — what a payload decoder gives out

A stored payload may come in any chunks: as long as they stay within the declared size they
are put one behind the other, and at the end size and checksum decide.  Of any payload, in
any chunks, only what has the declared size and checksum is given out
(`Expects.finish`).
-/
import ArchiveMount.Archive.Payload
import ArchiveMount.Proofs.Attempt
import Mathlib.Tactic.SplitIfs

namespace ArchiveMount.PayloadDecoder

variable {σ : Type} [Decompressor σ] {size : Nat} {crc : UInt32}

/-- A chunk for which there is room is put behind what is there, an empty one included. -/
theorem write_stored {out : Array UInt8} {chunk : Bytes} (h : out.size + chunk.length ≤ size) :
    write (⟨size, crc, .stored out⟩ : PayloadDecoder σ) chunk =
      .ok ⟨size, crc, .stored (out ++ chunk)⟩ := by
  cases chunk with
  | nil => simp [write]
  | cons b chunk =>
      simp only [write]
      rw [if_neg (by simp)]
      exact if_neg (by simpa using h)

theorem writeAll_stored {out : Array UInt8} {chunks : List Bytes}
    (h : out.size + chunks.flatten.length ≤ size) :
    writeAll (⟨size, crc, .stored out⟩ : PayloadDecoder σ) chunks =
      .ok ⟨size, crc, .stored (out ++ chunks.flatten)⟩ := by
  simp only [writeAll]
  induction chunks generalizing out with
  | nil =>
      simp
      rfl
  | cons chunk chunks ih =>
      rw [List.flatten_cons, List.length_append] at h
      have hchunk : out.size + chunk.length ≤ size := by omega
      have hrest : (out ++ chunk).size + chunks.flatten.length ≤ size := by
        rw [← Array.length_toList, Array.toList_appendList, List.length_append, Array.length_toList]
        omega
      rw [List.foldlM_cons, write_stored hchunk]
      show chunks.foldlM write (⟨size, crc, .stored (out ++ chunk)⟩ : PayloadDecoder σ) = _
      rw [ih hrest, List.flatten_cons]
      have happ : out ++ chunk ++ chunks.flatten = out ++ (chunk ++ chunks.flatten) := by
        apply Array.toList_inj.1
        simp
      rw [happ]

/-- What was stored is given out if it is as long as declared and has the checksum. -/
theorem finish_stored {out : Array UInt8} (hs : out.size = size) (hc : crc32 out.toList = crc) :
    finish (⟨size, crc, .stored out⟩ : PayloadDecoder σ) = .ok out.toList := by
  have hlen : out.toList.length = size := by simpa using hs
  have hlimit : checkLimit size out.toList.length = .ok () := if_neg (by omega)
  show (do
    checkLimit size out.toList.length
    if out.toList.length ≠ size then .error (.lengthMismatch size out.toList.length)
    else if crc32 out.toList ≠ crc then .error (.checksumMismatch crc (crc32 out.toList))
    else .ok out.toList) = _
  rw [hlimit, if_neg (not_not_intro hlen), if_neg (not_not_intro hc)]
  rfl

/-- Chunks that make up a payload are decoded to it. -/
theorem finish_writeAll_stored {chunks : List Bytes} {content : Bytes}
    (h : chunks.flatten = content) :
    ∃ d, writeAll (⟨content.length, crc32 content, .stored #[]⟩ : PayloadDecoder σ) chunks = .ok d ∧
      d.finish = .ok content := by
  refine ⟨_, writeAll_stored (by simp [h]), ?_⟩
  rw [h, finish_stored (by simp) (by simp)]
  simp

/-! ## What any payload comes to -/

/-- Bytes that are what a directory declares of them. -/
structure AsDeclared (size : Nat) (crc : UInt32) (b : Bytes) : Prop where
  length_eq : b.length = size
  crc_eq : crc32 b = crc

variable {d d' : PayloadDecoder σ}

/-- What a decoder was told to expect. -/
structure Expects (d : PayloadDecoder σ) (size : Nat) (crc : UInt32) : Prop where
  size_eq : d.size = size
  crc_eq : d.crc = crc

theorem Expects.new {compression : Compression} (h : new compression size crc = .ok d) :
    d.Expects size crc := by
  cases compression with
  | stored | deflated =>
      obtain rfl := Except.ok.inj h
      exact ⟨rfl, rfl⟩
  | other id => cases h

/-- Taking in a chunk does not change what is expected of the whole. -/
theorem Expects.write {chunk : Bytes} (hd : d.Expects size crc) (h : d.write chunk = .ok d') :
    d'.Expects size crc := by
  simp only [PayloadDecoder.write] at h
  split at h
  · obtain rfl := Except.ok.inj h
    exact hd
  · split at h
    · split_ifs at h
      obtain rfl := Except.ok.inj h
      exact ⟨hd.size_eq, hd.crc_eq⟩
    · obtain ⟨_, -, h⟩ := Attempt.exists_of_bind_eq_ok h
      split_ifs at h
      obtain ⟨_, -, h⟩ := Attempt.exists_of_bind_eq_ok h
      obtain rfl := Except.ok.inj h
      exact ⟨hd.size_eq, hd.crc_eq⟩

theorem Expects.writeAll {chunks : List Bytes} (hd : d.Expects size crc)
    (h : d.writeAll chunks = .ok d') : d'.Expects size crc := by
  simp only [PayloadDecoder.writeAll] at h
  induction chunks generalizing d with
  | nil =>
      obtain rfl := Except.ok.inj h
      exact hd
  | cons chunk chunks ih =>
      rw [List.foldlM_cons] at h
      obtain ⟨d₁, hw, hrest⟩ := Attempt.exists_of_bind_eq_ok h
      exact ih (hd.write hw) hrest

/-- Nothing else than what was expected is given out, whatever went in. -/
theorem Expects.finish {out : Bytes} (hd : d.Expects size crc) (h : d.finish = .ok out) :
    AsDeclared size crc out := by
  simp only [PayloadDecoder.finish] at h
  obtain ⟨_, -, h⟩ := Attempt.exists_of_bind_eq_ok h
  obtain ⟨_, -, h⟩ := Attempt.exists_of_bind_eq_ok h
  split_ifs at h with hsize hcrc
  obtain rfl := Except.ok.inj h
  constructor
  · exact (Decidable.not_not.1 hsize).trans hd.size_eq
  · exact (Decidable.not_not.1 hcrc).trans hd.crc_eq

end ArchiveMount.PayloadDecoder
