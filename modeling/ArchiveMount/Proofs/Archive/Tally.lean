/-
# `ArchiveMount.Proofs.Archive.Tally` — what a payload in chunks comes to

Length and checksum of a payload can be kept up while it is written, without looking at the
output again, and the sink may take each piece in as many parts as it likes.  A `Tally` does
so, and refuses a piece that would reach past the limit.  However the output is cut into
pieces, it comes to one `verdict` on the whole (`decode_eq_verdict`), and so does the end of
every decoder (`PayloadDecoder.finish_eq`).

Thus where a payload is cut decides nothing: a stored one is refused at the first chunk that
reaches past the declared size, or else judged by its length and then by its checksum, and of
any payload the same is given out as when it comes in one piece (`decodeChunks_verdict`).
-/
import ArchiveMount.Proofs.Archive.Chunks

namespace ArchiveMount

/-- What a payload comes to that is decoded to these bytes: too long, too short, of another
checksum than declared, or right. -/
def verdict (size : Nat) (crc : UInt32) (out : Bytes) : Except ArchiveError Bytes :=
  if size < out.length then .error (.malformed (.payloadTooLong size))
  else if out.length < size then .error (.lengthMismatch size out.length)
  else if crc32 out ≠ crc then .error (.checksumMismatch crc (crc32 out))
  else .ok out

/-! ## Length and checksum kept up -/

/-- What a sink has taken, with its length and the register of its checksum. -/
structure Tally where
  out : Bytes := []
  len : Nat := 0
  register : UInt32 := Crc32.init

namespace Tally

/-- Offer bytes to a sink that takes the first `n` of them.  They are refused if all of them
together reach past the limit. -/
def offer (limit : Nat) (t : Tally) (b : Bytes) (n : Nat) : Except ArchiveError Tally :=
  if limit < t.len + b.length then .error (.malformed (.payloadTooLong limit))
  else .ok ⟨t.out ++ b.take n, t.len + n, Crc32.update t.register (b.take n)⟩

/-- How many of the bytes it is offered a sink takes besides the first one: it may depend on
what it has, and on how many it is offered. -/
abbrev Appetite := Bytes → Nat → Nat

/-- Offer what is left of some bytes until the sink has taken all of them. -/
def put (limit : Nat) (appetite : Appetite) (t : Tally) (b : Bytes) : Except ArchiveError Tally :=
  if b = [] then .ok t
  else
    let n := min (appetite t.out b.length + 1) b.length
    match t.offer limit b n with
    | .error e => .error e
    | .ok t => put limit appetite t (b.drop n)
  termination_by b.length
  decreasing_by
    rename_i hne
    have hpos := List.length_pos_iff.2 hne
    rw [List.length_drop]
    omega

/-- Judge what the sink has by length and checksum as they were kept up. -/
def finish (size : Nat) (crc : UInt32) (t : Tally) : Except ArchiveError Bytes :=
  if t.len ≠ size then .error (.lengthMismatch size t.len)
  else if Crc32.finish t.register ≠ crc then .error (.checksumMismatch crc (Crc32.finish t.register))
  else .ok t.out

/-- Put pieces one after the other, and judge the whole. -/
def decode (size : Nat) (crc : UInt32) (appetite : Appetite) (pieces : List Bytes) :
    Except ArchiveError Bytes := do
  let t ← pieces.foldlM (put size appetite) {}
  t.finish size crc

/-- The tally that is in step with an output. -/
def of (out : Bytes) : Tally := ⟨out, out.length, Crc32.update Crc32.init out⟩

variable {limit size : Nat} {crc : UInt32} {appetite : Appetite} {out b : Bytes}

/-- A sink that takes a part remains in step. -/
theorem offer_of {n : Nat} (h : out.length + b.length ≤ limit) (hn : n ≤ b.length) :
    (of out).offer limit b n = .ok (of (out ++ b.take n)) := by
  have hlen : (out ++ b.take n).length = out.length + n := by
    rw [List.length_append, List.length_take, Nat.min_eq_left hn]
  have hroom : ¬ limit < (of out).len + b.length := Nat.not_lt.2 h
  rw [offer, if_neg hroom, of, of, hlen, Crc32.update_append]

/-- Bytes that reach past the limit are refused, however many of them the sink would take. -/
theorem offer_of_lt (h : limit < out.length + b.length) (n : Nat) :
    (of out).offer limit b n = .error (.malformed (.payloadTooLong limit)) := if_pos h

/-- In whatever parts a piece is taken, all of it is put behind the output. -/
theorem put_of (h : out.length + b.length ≤ limit) :
    put limit appetite (of out) b = .ok (of (out ++ b)) := by
  -- on what is left of the piece
  induction hb : b.length using Nat.strongRecOn generalizing out b with
  | ind len ih =>
      rw [put]
      by_cases hnil : b = []
      · rw [if_pos hnil, hnil, List.append_nil]
      · have hpos := List.length_pos_iff.2 hnil
        rw [if_neg hnil]
        generalize hn : min (appetite (of out).out b.length + 1) b.length = n
        have hle : n ≤ b.length := by omega
        have hrest : (out ++ b.take n).length + (b.drop n).length ≤ limit := by
          rw [List.length_append, List.length_take, List.length_drop]
          omega
        have hless : (b.drop n).length < len := by
          rw [List.length_drop]
          omega
        dsimp only
        rw [offer_of h hle]
        dsimp only
        rw [ih _ hless hrest rfl, List.append_assoc, List.take_append_drop]

/-- A piece that reaches past the limit is refused before any of it is taken. -/
theorem put_of_lt (hne : b ≠ []) (h : limit < out.length + b.length) :
    put limit appetite (of out) b = .error (.malformed (.payloadTooLong limit)) := by
  rw [put, if_neg hne]
  dsimp only
  rw [offer_of_lt h]

theorem foldlM_put_of {pieces : List Bytes} (h : out.length + pieces.flatten.length ≤ limit) :
    pieces.foldlM (put limit appetite) (of out) = .ok (of (out ++ pieces.flatten)) := by
  induction pieces generalizing out with
  | nil =>
      rw [List.flatten_nil, List.append_nil]
      rfl
  | cons piece pieces ih =>
      rw [List.flatten_cons, List.length_append] at h
      have hrest : (out ++ piece).length + pieces.flatten.length ≤ limit := by
        rw [List.length_append]
        omega
      rw [List.foldlM_cons, put_of (by omega)]
      show pieces.foldlM (put limit appetite) (of (out ++ piece)) = _
      rw [ih hrest, List.flatten_cons, List.append_assoc]

theorem foldlM_put_of_lt {pieces : List Bytes} (hout : out.length ≤ limit)
    (h : limit < out.length + pieces.flatten.length) :
    pieces.foldlM (put limit appetite) (of out) = .error (.malformed (.payloadTooLong limit)) := by
  induction pieces generalizing out with
  | nil =>
      rw [List.flatten_nil, List.length_nil] at h
      omega
  | cons piece pieces ih =>
      rw [List.flatten_cons, List.length_append] at h
      rw [List.foldlM_cons]
      by_cases hfits : out.length + piece.length ≤ limit
      · rw [put_of hfits]
        have hlen : (out ++ piece).length = out.length + piece.length := List.length_append
        exact ih (hlen ▸ hfits) (by omega)
      · have hne : piece ≠ [] := by
          rintro rfl
          exact hfits hout
        rw [put_of_lt hne (Nat.lt_of_not_le hfits)]
        rfl

theorem finish_of (h : out.length ≤ size) : (of out).finish size crc = verdict size crc out := by
  have hcrc : Crc32.finish (Crc32.update Crc32.init out) = crc32 out := rfl
  have hne : out.length ≠ size ↔ out.length < size := by omega
  rw [verdict, if_neg (Nat.not_lt.2 h), finish]
  simp only [of, hcrc, hne]

/-- The verdict is on the whole, whatever the pieces and however the sink takes them. -/
theorem decode_eq_verdict (size : Nat) (crc : UInt32) (appetite : Appetite) (pieces : List Bytes) :
    decode size crc appetite pieces = verdict size crc pieces.flatten := by
  have hstart : ({} : Tally) = of [] := rfl
  rw [decode, hstart]
  by_cases h : pieces.flatten.length ≤ size
  · have hfits : ([] : Bytes).length + pieces.flatten.length ≤ size := by simpa using h
    rw [foldlM_put_of hfits]
    exact finish_of h
  · have hlt := Nat.lt_of_not_le h
    have hpast : size < ([] : Bytes).length + pieces.flatten.length := by simpa using hlt
    rw [foldlM_put_of_lt (Nat.zero_le _) hpast, verdict, if_pos hlt]
    rfl

end Tally

/-! ## Decoders -/

namespace PayloadDecoder

variable {size : Nat} {crc : UInt32}

/-- Every decoder ends with the verdict on its output, unless what waits is broken. -/
theorem finish_eq {σ : Type} [Decompressor σ] (d : PayloadDecoder σ) :
    d.finish = d.checkWaiting >>= fun _ => verdict d.size d.crc d.decoded := by
  rw [finish, verdict]
  congr 1
  funext _
  by_cases h : d.size < d.decoded.length
  · simp only [checkLimit, if_pos h]
    rfl
  · have hne : d.decoded.length ≠ d.size ↔ d.decoded.length < d.size := by omega
    simp only [checkLimit, if_neg h, hne]
    rfl

/-- Some chunk is the first that reaches past the size, if all together do. -/
theorem exists_overrun {n : Nat} {chunks : List Bytes} (hn : n ≤ size)
    (h : size < n + chunks.flatten.length) :
    ∃ before chunk after, chunks = before ++ chunk :: after ∧
      n + before.flatten.length ≤ size ∧ size < n + before.flatten.length + chunk.length := by
  induction chunks generalizing n with
  | nil =>
      rw [List.flatten_nil, List.length_nil] at h
      omega
  | cons chunk chunks ih =>
      rw [List.flatten_cons, List.length_append] at h
      by_cases hfits : n + chunk.length ≤ size
      · obtain ⟨before, last, after, rfl, hle, hlt⟩ := ih hfits (by omega)
        refine ⟨chunk :: before, last, after, rfl, ?_, ?_⟩ <;>
          (rw [List.flatten_cons, List.length_append]; omega)
      · exact ⟨[], chunk, chunks, rfl, hn, Nat.lt_of_not_le hfits⟩

theorem write_stored_of_lt {out : Array UInt8} {chunk : Bytes} (hout : out.size ≤ size)
    (h : size < out.size + chunk.length) :
    write ⟨size, crc, .stored out⟩ chunk = .error (.malformed (.payloadTooLong size)) := by
  have hne : chunk ≠ [] := by
    rintro rfl
    exact Nat.not_lt.2 hout h
  simp only [write, List.isEmpty_iff, if_neg hne, if_pos h]

/-- A stored payload that is too long is refused at the first chunk that reaches past the
size; what came before is there. -/
theorem refused_stored (crc : UInt32) {chunks : List Bytes} (h : size < chunks.flatten.length) :
    ∃ before chunk after d, chunks = before ++ chunk :: after ∧ before.flatten.length ≤ size ∧
      size < before.flatten.length + chunk.length ∧
      writeAll ⟨size, crc, .stored #[]⟩ before = .ok d ∧ d.decoded = before.flatten ∧
      d.write chunk = .error (.malformed (.payloadTooLong size)) := by
  have hstart : size < 0 + chunks.flatten.length := by omega
  obtain ⟨before, chunk, after, hsplit, hle, hlt⟩ := exists_overrun (Nat.zero_le size) hstart
  rw [Nat.zero_add] at hle hlt
  have hfits : (#[] : Array UInt8).size + before.flatten.length ≤ size := by simpa using hle
  have hsize : ((#[] : Array UInt8) ++ before.flatten).size = before.flatten.length := by simp
  refine ⟨before, chunk, after, _, hsplit, hle, hlt, writeAll_stored hfits, ?_, ?_⟩
  · simp [decoded]
  · exact write_stored_of_lt (hsize ▸ hle) (hsize ▸ hlt)

/-- What a stored payload comes to. -/
theorem finish_writeAll_stored_eq (size : Nat) (crc : UInt32) (chunks : List Bytes) :
    (writeAll ⟨size, crc, .stored #[]⟩ chunks >>= finish) = verdict size crc chunks.flatten := by
  by_cases h : chunks.flatten.length ≤ size
  · have hfits : (#[] : Array UInt8).size + chunks.flatten.length ≤ size := by simpa using h
    have hout : decoded ⟨size, crc, .stored ((#[] : Array UInt8) ++ chunks.flatten)⟩ =
        chunks.flatten := by
      simp [decoded]
    rw [writeAll_stored hfits]
    show finish ⟨size, crc, .stored ((#[] : Array UInt8) ++ chunks.flatten)⟩ = _
    rw [finish_eq, hout]
    rfl
  · have hlt := Nat.lt_of_not_le h
    obtain ⟨before, chunk, after, d, rfl, -, -, hbefore, -, hchunk⟩ :=
      refused_stored crc hlt
    simp only [writeAll] at hbefore
    rw [verdict, if_pos hlt, writeAll, List.foldlM_append, hbefore]
    show (List.foldlM write d (chunk :: after) >>= finish) = _
    rw [List.foldlM_cons, hchunk]
    rfl

end PayloadDecoder

/-! ## Payloads in chunks -/

/-- Decode a payload that comes in chunks. -/
def decodeChunks (compression : Compression) (size : Nat) (crc : UInt32) (chunks : List Bytes) :
    Except ArchiveError Bytes := do
  let d ← PayloadDecoder.new compression size crc
  let d ← d.writeAll chunks
  d.finish

/-- A payload in one piece is one chunk. -/
theorem decodePayload_eq_decodeChunks (compression : Compression) (size : Nat) (crc : UInt32)
    (payload : Bytes) :
    decodePayload compression size crc payload = decodeChunks compression size crc [payload] := by
  have hone : ∀ d : PayloadDecoder, d.writeAll [payload] = d.write payload := by
    intro d
    simp [PayloadDecoder.writeAll]
  simp only [decodePayload, decodeChunks, hone]

theorem decodeChunks_eq_ok_iff {compression : Compression} {size : Nat} {crc : UInt32}
    {chunks : List Bytes} {out : Bytes} :
    decodeChunks compression size crc chunks = .ok out ↔
      PayloadDecoder.Unpacks compression chunks.flatten out ∧
        PayloadDecoder.AsDeclared size crc out := by
  rw [decodeChunks, Attempt.bind_eq_ok_iff]
  constructor
  · rintro ⟨d, hnew, h⟩
    exact (PayloadDecoder.finish_writeAll_iff hnew chunks out).1 h
  · intro h
    obtain ⟨d, hnew⟩ := PayloadDecoder.exists_new_of_unpacks size crc h.1
    exact ⟨d, hnew, (PayloadDecoder.finish_writeAll_iff hnew chunks out).2 h⟩

/-- The verdict on a payload does not depend on where it is cut.  The chunks give an output if
and only if all in one piece give it, that is if it is what they hold and as declared.  A
stored payload is refused at the first chunk that reaches past the declared size, and else
judged by its length, then by its checksum, as it is by length and checksum that are kept up
while a sink takes it in parts.  So is the output of any decoder at its end, in whatever
pieces it went to the sink. -/
theorem decodeChunks_verdict (compression : Compression) (size : Nat) (crc : UInt32)
    (chunks : List Bytes) :
    (∀ out, (decodeChunks compression size crc chunks = .ok out ↔
        decodePayload compression size crc chunks.flatten = .ok out) ∧
      (decodeChunks compression size crc chunks = .ok out ↔
        PayloadDecoder.Unpacks compression chunks.flatten out ∧ out.length = size ∧
          crc32 out = crc)) ∧
    (decodeChunks .stored size crc chunks = verdict size crc chunks.flatten ∧
      (size < chunks.flatten.length → ∃ before chunk after d,
        chunks = before ++ chunk :: after ∧ before.flatten.length ≤ size ∧
          size < before.flatten.length + chunk.length ∧
          (PayloadDecoder.new .stored size crc >>= fun d => d.writeAll before) = .ok d ∧
          d.decoded = before.flatten ∧
          d.write chunk = .error (.malformed (.payloadTooLong size))) ∧
      ∀ appetite, decodeChunks .stored size crc chunks = Tally.decode size crc appetite chunks) ∧
    ∀ (d : PayloadDecoder) (pieces : List Bytes) (appetite : Tally.Appetite),
      pieces.flatten = d.decoded →
        d.finish = d.checkWaiting >>= fun _ => Tally.decode d.size d.crc appetite pieces := by
  have hstored : decodeChunks .stored size crc chunks = verdict size crc chunks.flatten :=
    PayloadDecoder.finish_writeAll_stored_eq size crc chunks
  refine ⟨fun out => ⟨?_, ?_⟩, ⟨hstored, PayloadDecoder.refused_stored crc, ?_⟩, ?_⟩
  · rw [decodePayload_eq_decodeChunks, decodeChunks_eq_ok_iff, decodeChunks_eq_ok_iff,
      List.flatten_singleton]
  · rw [decodeChunks_eq_ok_iff]
    exact and_congr_right fun _ => ⟨fun h => ⟨h.length_eq, h.crc_eq⟩, fun h => ⟨h.1, h.2⟩⟩
  · intro appetite
    rw [hstored, Tally.decode_eq_verdict]
  · intro d pieces appetite hpieces
    rw [d.finish_eq, Tally.decode_eq_verdict, hpieces]

namespace Straddled

/-- Five bytes in a deflate stream, cut in the middle of its header and of its data. -/
def packed : List Bytes := [[1, 5, 0], [0xfa, 0xff, 104], [101, 108, 108, 111]]

/-- Four bytes stored in chunks, of which one is empty and one has the third byte and more. -/
def stored : List Bytes := [[1, 2], [], [3, 4]]

/-- The stream gives the same in one piece.  The stored bytes are refused at the last chunk if
three are declared, and the first two of them are there by then. -/
theorem straddled_chunks :
    decodeChunks .deflated 5 907060870 packed = .ok [104, 101, 108, 108, 111] ∧
      decodePayload .deflated 5 907060870 packed.flatten = .ok [104, 101, 108, 108, 111] ∧
      3 < stored.flatten.length ∧
      decodeChunks .stored 3 0 stored = .error (.malformed (.payloadTooLong 3)) ∧
      ∃ before chunk after, ∃ d : PayloadDecoder, stored = before ++ chunk :: after ∧
        before.flatten.length ≤ 3 ∧ d.decoded = before.flatten ∧
          d.write chunk = .error (.malformed (.payloadTooLong 3)) := by
  have hpacked : decodeChunks .deflated 5 907060870 packed = .ok [104, 101, 108, 108, 111] :=
    Attempt.toOption_eq_some_iff.1 (by decide +kernel)
  obtain ⟨hwhole, -⟩ := decodeChunks_verdict .deflated 5 907060870 packed
  obtain ⟨-, ⟨hverdict, hrefused, -⟩, -⟩ := decodeChunks_verdict .stored 3 0 stored
  obtain ⟨before, chunk, after, d, hsplit, hle, -, -, hdecoded, hwrite⟩ := hrefused (by decide)
  exact ⟨hpacked, (hwhole _).1.1 hpacked, by decide, hverdict, before, chunk, after, d, hsplit, hle,
    hdecoded, hwrite⟩

end Straddled

end ArchiveMount
