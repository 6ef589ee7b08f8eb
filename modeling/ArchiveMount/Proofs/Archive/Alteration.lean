/-
# `ArchiveMount.Proofs.Archive.Alteration` — a stored payload with one byte changed is refused

Of a payload that was accepted as stored, any one byte may be changed, to any other.  Its length
remains the declared one, so that it is taken in to its end in whatever chunks it comes; but its
checksum has become another (`crc32_set_ne`), and by that it is refused
(`altered_byte_refused`).
-/
import ArchiveMount.Proofs.Archive.Tally
import ArchiveMount.Proofs.Checksum

namespace ArchiveMount

variable {size : Nat} {crc : UInt32} {payload out : Bytes}

/-- The verdict is good on what is as declared, and on nothing else. -/
theorem verdict_eq_ok_iff :
    verdict size crc payload = .ok out ↔
      payload.length = size ∧ crc32 payload = crc ∧ out = payload := by
  rw [verdict]
  by_cases hlong : size < payload.length
  · rw [if_pos hlong]
    exact iff_of_false (by simp) fun h => Nat.ne_of_gt hlong h.1
  · by_cases hshort : payload.length < size
    · rw [if_neg hlong, if_pos hshort]
      exact iff_of_false (by simp) fun h => Nat.ne_of_lt hshort h.1
    · have hlen : payload.length = size := by omega
      rw [if_neg hlong, if_neg hshort]
      by_cases hcrc : crc32 payload = crc
      · rw [if_neg (not_not_intro hcrc), Except.ok.injEq]
        exact ⟨fun h => ⟨hlen, hcrc, h.symm⟩, fun h => h.2.2.symm⟩
      · rw [if_pos hcrc]
        exact iff_of_false (by simp) fun h => hcrc h.2.1

/-- What has the declared length and another checksum is refused by the checksum. -/
theorem verdict_of_crc32_ne (hlen : payload.length = size) (hcrc : crc32 payload ≠ crc) :
    verdict size crc payload = .error (.checksumMismatch crc (crc32 payload)) := by
  rw [verdict, if_neg (by omega), if_neg (by omega), if_pos hcrc]

/-- What a stored payload comes to in chunks is the verdict on the whole. -/
theorem decodeChunks_stored_eq (size : Nat) (crc : UInt32) (chunks : List Bytes) :
    decodeChunks .stored size crc chunks = verdict size crc chunks.flatten :=
  PayloadDecoder.finish_writeAll_stored_eq size crc chunks

theorem decodePayload_stored_eq_ok_iff :
    decodePayload .stored size crc payload = .ok out ↔
      payload.length = size ∧ crc32 payload = crc ∧ out = payload := by
  rw [decodePayload_eq_decodeChunks, decodeChunks_stored_eq, List.flatten_singleton,
    verdict_eq_ok_iff]

/-- A stored payload that was accepted is refused with any one byte changed to any other.  In
whatever chunks it comes, all of it is taken in, and at the end its checksum is found to be
another than declared, as it is by a checksum that is kept up while a sink takes the payload in
parts. -/
theorem altered_byte_refused (h : decodePayload .stored size crc payload = .ok out) {pos : Nat}
    (hpos : pos < payload.length) {x : UInt8} (hx : x ≠ payload[pos]) {chunks : List Bytes}
    (hchunks : chunks.flatten = payload.set pos x) :
    crc32 (payload.set pos x) ≠ crc ∧
      (∃ d, (PayloadDecoder.new .stored size crc >>= fun d => d.writeAll chunks) = .ok d ∧
        d.decoded = payload.set pos x ∧
        d.finish = .error (.checksumMismatch crc (crc32 (payload.set pos x)))) ∧
      decodeChunks .stored size crc chunks =
        .error (.checksumMismatch crc (crc32 (payload.set pos x))) ∧
      ∀ appetite, Tally.decode size crc appetite chunks =
        .error (.checksumMismatch crc (crc32 (payload.set pos x))) := by
  obtain ⟨hlen, hcrc, -⟩ := decodePayload_stored_eq_ok_iff.1 h
  have hne : crc32 (payload.set pos x) ≠ crc := hcrc ▸ crc32_set_ne hpos hx
  have hverdict : verdict size crc (payload.set pos x) =
      .error (.checksumMismatch crc (crc32 (payload.set pos x))) :=
    verdict_of_crc32_ne (List.length_set.trans hlen) hne
  have hroom : (#[] : Array UInt8).size + chunks.flatten.length ≤ size := by
    rw [hchunks, List.length_set, hlen]
    exact Nat.le_of_eq (Nat.zero_add size)
  have hdecoded : PayloadDecoder.decoded ⟨size, crc, .stored ((#[] : Array UInt8) ++ chunks.flatten)⟩ =
      payload.set pos x := by
    simp [PayloadDecoder.decoded, hchunks]
  refine ⟨hne, ⟨_, PayloadDecoder.writeAll_stored hroom, hdecoded, ?_⟩, ?_, fun appetite => ?_⟩
  · rw [PayloadDecoder.finish_eq, hdecoded, ← hverdict]
    rfl
  · rw [decodeChunks_stored_eq, hchunks, hverdict]
  · rw [Tally.decode_eq_verdict, hchunks, hverdict]

namespace Nine

/-- The nine digits from 1 on. -/
def digits : Bytes := [49, 50, 51, 52, 53, 54, 55, 56, 57]

/-- The digits are accepted with the checksum that CRC-32 is known by, and refused with a blank in
place of the last one, in two chunks with an empty one between them. -/
theorem last_digit_refused :
    decodePayload .stored 9 0xCBF43926 digits = .ok digits ∧
      digits.set 8 32 = [49, 50, 51, 52, 53, 54, 55, 56, 32] ∧
      decodeChunks .stored 9 0xCBF43926 [[49, 50, 51], [], [52, 53, 54, 55, 56, 32]] =
        .error (.checksumMismatch 0xCBF43926 (crc32 (digits.set 8 32))) := by
  have haccepted : decodePayload .stored 9 0xCBF43926 digits = .ok digits :=
    decodePayload_stored_eq_ok_iff.2 ⟨rfl, by decide +kernel, rfl⟩
  have hlast : 8 < digits.length := by decide
  have hblank : (32 : UInt8) ≠ digits[8] := by
    show (32 : UInt8) ≠ 57
    decide
  have hchunks : [[49, 50, 51], [], [52, 53, 54, 55, 56, 32]].flatten = digits.set 8 32 := rfl
  obtain ⟨-, -, hrefused, -⟩ := altered_byte_refused haccepted hlast hblank hchunks
  exact ⟨haccepted, rfl, hrefused⟩

end Nine

end ArchiveMount
