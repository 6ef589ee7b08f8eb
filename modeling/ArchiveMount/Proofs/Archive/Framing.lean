/-
# `ArchiveMount.Proofs.Archive.Framing` — where one directory record ends and the next begins

A record announces the lengths of its three parts, and nothing else delimits it.  `Records`
is the grammar that follows from this: a run of records, and what is left behind them.
`parse_eq_ok_iff` says that `parse` reads exactly the runs that are as long as expected and
are not followed by the signature of one more record.

The bytes determine such a run (`Records.unique`), so no directory can be read with two
different counts.  Records that are complete by themselves (`Framed`) may stand one behind
the other: each is read as if it stood alone, whatever signatures its parts contain
(`parse_flatten`).
-/
import ArchiveMount.Proofs.Archive.ReadBack
import ArchiveMount.Proofs.Attempt

namespace ArchiveMount.CentralDirectory

variable {b c rest last : Bytes} {r s : EntryRecord} {rs ss : List EntryRecord}

/-! ## One record -/

/-- How many bytes a header announces behind it. -/
def announced (b : Bytes) : Nat := Bytes.field b 28 2 + Bytes.field b 30 2 + Bytes.field b 32 2

/-- What the header at the start and the parts behind it say. -/
def content (index : Nat) (b : Bytes) : Except ArchiveError EntryRecord := do
  let name ← recordName index (Bytes.field b 8 2) (Bytes.slice b headerLen (Bytes.field b 28 2))
  (extraFields (Bytes.slice b (headerLen + Bytes.field b 28 2) (Bytes.field b 30 2))).foldlM
    EntryRecord.applyExtra (bareRecord b name)

/-- A name is accepted or refused wherever its record stands. -/
theorem recordName_eq_ok_iff (i j flags : Nat) (raw : Bytes) (name : String) :
    recordName i flags raw = .ok name ↔ recordName j flags raw = .ok name := by
  simp only [recordName]
  split_ifs
  · cases Text.ofUtf8? raw with
    | none => simp
    | some s => rfl
  · rfl

theorem content_eq_ok_iff (i j : Nat) : content i b = .ok r ↔ content j b = .ok r := by
  simp only [content, Attempt.bind_eq_ok_iff]
  exact exists_congr fun name => and_congr_left' (recordName_eq_ok_iff i j _ _ name)

/-- What stands behind a complete record does not matter to it. -/
theorem content_append (index : Nat) (hlen : headerLen + announced b ≤ b.length) (c : Bytes) :
    content index (b ++ c) = content index b := by
  simp only [announced, headerLen] at hlen
  have hfield : ∀ {start width : Nat}, start + width ≤ headerLen →
      Bytes.field (b ++ c) start width = Bytes.field b start width := by
    intro start width h
    simp only [headerLen] at h
    exact Bytes.field_append_of_le c (by omega)
  have hbare : bareRecord (b ++ c) = bareRecord b := by
    funext name
    simp only [bareRecord]
    rw [hfield (by decide), hfield (by decide), hfield (by decide), hfield (by decide),
      hfield (by decide), hfield (by decide), hfield (by decide), hfield (by decide),
      hfield (by decide), hfield (by decide)]
  simp only [content, hbare]
  rw [hfield (by decide), hfield (by decide), hfield (by decide),
    Bytes.slice_append_of_le c (by simp only [headerLen]; omega),
    Bytes.slice_append_of_le c (by simp only [headerLen]; omega)]

theorem parseRecord_of_signature (index : Nat) (hsig : Bytes.field b 0 4 = signature)
    (hlen : headerLen + announced b ≤ b.length) :
    parseRecord index b =
      (content index b).map fun r => (r, b.drop (headerLen + announced b)) := by
  have hfits : ¬ ((b.drop headerLen).take
      (Bytes.field b 28 2 + Bytes.field b 30 2 + Bytes.field b 32 2)).length <
      Bytes.field b 28 2 + Bytes.field b 30 2 + Bytes.field b 32 2 := by
    rw [List.length_take, List.length_drop]
    simp only [announced] at hlen
    omega
  have hextra : Bytes.slice (b.drop headerLen) (Bytes.field b 28 2) (Bytes.field b 30 2) =
      Bytes.slice b (headerLen + Bytes.field b 28 2) (Bytes.field b 30 2) := by
    simp only [Bytes.slice, List.drop_drop]
  simp only [parseRecord, content]
  rw [if_neg (not_not_intro hsig), if_neg hfits, List.drop_drop, hextra]
  show (recordName index _ (Bytes.slice b headerLen _) >>= _) = _
  cases recordName index (Bytes.field b 8 2) (Bytes.slice b headerLen (Bytes.field b 28 2)) with
  | error e => rfl
  | ok name => rfl

/-- A record that can be read stands at the start, and `rest` is left behind it. -/
structure Reads (b : Bytes) (r : EntryRecord) (rest : Bytes) : Prop where
  signature_eq : Bytes.field b 0 4 = signature
  length_le : headerLen + announced b ≤ b.length
  content_eq : content 0 b = .ok r
  rest_eq : rest = b.drop (headerLen + announced b)

theorem parseRecord_eq_ok_iff (index : Nat) (hb : headerLen ≤ b.length) :
    parseRecord index b = .ok (r, rest) ↔ Reads b r rest := by
  by_cases hsig : Bytes.field b 0 4 = signature
  · by_cases hlen : headerLen + announced b ≤ b.length
    · rw [parseRecord_of_signature index hsig hlen]
      constructor
      · intro h
        cases hc : content index b with
        | error e =>
            rw [hc] at h
            cases h
        | ok r' =>
            rw [hc] at h
            obtain ⟨rfl, rfl⟩ := Prod.mk.inj (Except.ok.inj h)
            exact ⟨hsig, hlen, (content_eq_ok_iff index 0).1 hc, rfl⟩
      · rintro ⟨-, -, hc, rfl⟩
        rw [(content_eq_ok_iff 0 index).1 hc]
        rfl
    · have herr : parseRecord index b = .error (.malformed (.truncated .directory)) := by
        simp only [parseRecord]
        rw [if_neg (not_not_intro hsig), if_pos]
        · rfl
        · rw [List.length_take, List.length_drop]
          simp only [announced] at hlen
          omega
      rw [herr]
      constructor
      · rintro ⟨⟩
      · exact fun h => absurd h.length_le hlen
  · have herr : parseRecord index b =
        .error (.malformed (.recordSignature index (Bytes.field b 0 4))) := by
      simp only [parseRecord]
      rw [if_pos hsig]
      rfl
    rw [herr]
    constructor
    · rintro ⟨⟩
    · exact fun h => absurd h.signature_eq hsig

/-! ## The grammar of a directory -/

/-- The signature of a record stands at the start. -/
def BeginsRecord (b : Bytes) : Prop := 4 ≤ b.length ∧ Bytes.field b 0 4 = signature

instance (b : Bytes) : Decidable (BeginsRecord b) := inferInstanceAs (Decidable (_ ∧ _))

theorem Reads.beginsRecord (h : Reads b r rest) : BeginsRecord b := by
  have hlen := h.length_le
  simp only [headerLen] at hlen
  exact ⟨by omega, h.signature_eq⟩

/-- Records one behind the other, and what is left behind them. -/
inductive Records : Bytes → List EntryRecord → Bytes → Prop
  | nil (b : Bytes) : Records b [] b
  | cons {b rest last : Bytes} {r : EntryRecord} {rs : List EntryRecord} :
      Reads b r rest → Records rest rs last → Records b (r :: rs) last

/-- The bytes determine a run that no further record follows. -/
theorem Records.unique {rest' : Bytes} (h : Records b rs rest) (h' : Records b ss rest')
    (hend : ¬ BeginsRecord rest) (hend' : ¬ BeginsRecord rest') : rs = ss ∧ rest = rest' := by
  induction h generalizing ss with
  | nil b =>
      cases h' with
      | nil => exact ⟨rfl, rfl⟩
      | cons hr _ => exact absurd hr.beginsRecord hend
  | cons hr _ ih =>
      cases h' with
      | nil => exact absurd hr.beginsRecord hend'
      | cons hr' htail =>
          obtain rfl := Except.ok.inj (hr.content_eq.symm.trans hr'.content_eq)
          obtain rfl := hr.rest_eq.trans hr'.rest_eq.symm
          obtain ⟨rfl, rfl⟩ := ih htail hend
          exact ⟨rfl, rfl⟩

/-- The loop of the reader follows the grammar. -/
theorem parseRecords_eq_ok_iff (expected left index : Nat) (done : List EntryRecord) :
    parseRecords expected left index b done = .ok (rs, rest) ↔
      ∃ ss, rs = done.reverse ++ ss ∧ ss.length = left ∧ Records b ss rest := by
  induction left generalizing index b done with
  | zero =>
      simp only [parseRecords]
      constructor
      · intro h
        obtain ⟨rfl, rfl⟩ := Prod.mk.inj (Except.ok.inj h)
        exact ⟨[], (List.append_nil _).symm, rfl, .nil b⟩
      · rintro ⟨ss, rfl, hlen, hss⟩
        obtain rfl := List.length_eq_zero_iff.1 hlen
        cases hss
        rw [List.append_nil]
  | succ left ih =>
      simp only [parseRecords]
      by_cases hb : headerLen ≤ b.length
      · have hheader : ¬ (b.take headerLen).length < headerLen := by
          rw [List.length_take]
          omega
        rw [if_neg hheader, Attempt.bind_eq_ok_iff]
        constructor
        · rintro ⟨⟨r, next⟩, hr, h⟩
          obtain ⟨ss, rfl, hlen, hss⟩ := (ih (index + 1) (r :: done)).1 h
          refine ⟨r :: ss, ?_, by rw [List.length_cons, hlen],
            .cons ((parseRecord_eq_ok_iff index hb).1 hr) hss⟩
          rw [List.reverse_cons, List.append_assoc, List.singleton_append]
        · rintro ⟨ss, rfl, hlen, hss⟩
          cases hss with
          | nil => cases hlen
          | @cons _ next _ r ss hr htail =>
              refine ⟨(r, next), (parseRecord_eq_ok_iff index hb).2 hr, ?_⟩
              refine (ih (index + 1) (r :: done)).2 ⟨ss, ?_, Nat.succ.inj hlen, htail⟩
              rw [List.reverse_cons, List.append_assoc, List.singleton_append]
      · rw [if_pos (by rw [List.length_take]; omega)]
        constructor
        · rintro ⟨⟩
        · rintro ⟨ss, -, hlen, hss⟩
          cases hss with
          | nil => cases hlen
          | cons hr _ =>
              have hle := hr.length_le
              exact absurd (Nat.le_trans (Nat.le_add_right _ _) hle) hb

/-- A directory can be read exactly if it is a run of as many records as expected, with no
further one behind it. -/
theorem parse_eq_ok_iff (b : Bytes) (expected : Nat) :
    parse b expected = .ok rs ↔
      rs.length = expected ∧ ∃ rest, Records b rs rest ∧ ¬ BeginsRecord rest := by
  have hbegins : ∀ rest : Bytes, ((rest.take 4).length = 4 ∧ Bytes.field rest 0 4 = signature) ↔
      BeginsRecord rest := by
    intro rest
    rw [BeginsRecord, List.length_take]
    exact and_congr_left' (by omega)
  simp only [parse, Attempt.bind_eq_ok_iff, hbegins]
  constructor
  · rintro ⟨⟨ss, rest⟩, hss, h⟩
    obtain ⟨ss, rfl, hlen, hrun⟩ := (parseRecords_eq_ok_iff _ _ _ _).1 hss
    by_cases hend : BeginsRecord rest
    · rw [if_pos hend] at h
      cases h
    · rw [if_neg hend] at h
      obtain rfl := Except.ok.inj h
      exact ⟨hlen, rest, hrun, hend⟩
  · rintro ⟨hlen, rest, hrun, hend⟩
    refine ⟨(rs, rest), (parseRecords_eq_ok_iff _ _ _ _).2 ⟨rs, rfl, hlen, hrun⟩, ?_⟩
    rw [if_neg hend]
    rfl

/-! ## Records that are complete by themselves -/

/-- A header with the signature, and behind it exactly the parts that it announces. -/
structure Framed (b : Bytes) : Prop where
  signature_eq : Bytes.field b 0 4 = signature
  length_eq : b.length = headerLen + announced b

theorem Framed.announced_append (h : Framed b) (c : Bytes) : announced (b ++ c) = announced b := by
  have hlen := h.length_eq
  simp only [headerLen] at hlen
  simp only [announced]
  rw [Bytes.field_append_of_le c (by omega), Bytes.field_append_of_le c (by omega),
    Bytes.field_append_of_le c (by omega)]

/-- Such a record can be read alone exactly if it says something. -/
theorem Framed.parse_one_iff (h : Framed b) : parse b 1 = .ok [r] ↔ content 0 b = .ok r := by
  rw [parse_eq_ok_iff]
  constructor
  · rintro ⟨-, rest, hrun, -⟩
    cases hrun with
    | cons hr _ => exact hr.content_eq
  · intro hc
    have hreads : Reads b r (b.drop (headerLen + announced b)) :=
      ⟨h.signature_eq, Nat.le_of_eq h.length_eq.symm, hc, rfl⟩
    refine ⟨rfl, _, .cons hreads (.nil _), ?_⟩
    rw [← h.length_eq, List.drop_length]
    exact fun hb => absurd hb.1 (by decide)

/-- It is read alike with anything behind it. -/
theorem Framed.reads_append (h : Framed b) (hc : content 0 b = .ok r) (c : Bytes) :
    Reads (b ++ c) r c := by
  have hlen := h.length_eq
  refine ⟨?_, ?_, ?_, ?_⟩
  · rw [Bytes.field_append_of_le c, h.signature_eq]
    simp only [headerLen] at hlen
    omega
  · rw [h.announced_append, List.length_append]
    omega
  · rw [content_append 0 (Nat.le_of_eq hlen.symm), hc]
  · rw [h.announced_append, ← hlen, List.drop_left]

/-- Complete records one behind the other are a run, and each is read as it is read alone. -/
theorem exists_records_flatten {blocks : List Bytes}
    (hblocks : ∀ b ∈ blocks, Framed b ∧ ∃ r, parse b 1 = .ok [r]) (rest : Bytes) :
    ∃ rs, Records (blocks.flatten ++ rest) rs rest ∧
      List.Forall₂ (fun b r => parse b 1 = .ok [r]) blocks rs := by
  induction blocks with
  | nil => exact ⟨[], .nil rest, .nil⟩
  | cons b blocks ih =>
      obtain ⟨hb, r, hr⟩ := hblocks b List.mem_cons_self
      obtain ⟨rs, hrun, hrs⟩ := ih fun c hc => hblocks c (List.mem_cons_of_mem _ hc)
      refine ⟨r :: rs, ?_, .cons hr hrs⟩
      rw [List.flatten_cons, List.append_assoc]
      exact .cons (hb.reads_append (hb.parse_one_iff.1 hr) _) hrun

/-- No bytes can be read with two different counts. -/
theorem count_unique {count count' : Nat} (h : parse b count = .ok rs)
    (h' : parse b count' = .ok ss) : count = count' := by
  obtain ⟨hlen, rest, hrun, hend⟩ := (parse_eq_ok_iff b count).1 h
  obtain ⟨hlen', rest', hrun', hend'⟩ := (parse_eq_ok_iff b count').1 h'
  obtain ⟨rfl, -⟩ := hrun.unique hrun' hend hend'
  exact hlen.symm.trans hlen'

/-- Blocks that are complete records, each of which can be read alone, can be read together
exactly with their own number as the expected count, whatever follows them that is not the
signature of one more; and then each gives what it gives alone.  So no bytes whatever can be
read with two counts. -/
theorem parse_flatten {blocks : List Bytes} {rest : Bytes}
    (hblocks : ∀ b ∈ blocks, Framed b ∧ ∃ r, parse b 1 = .ok [r]) (hrest : ¬ BeginsRecord rest) :
    (∀ count, (∃ rs, parse (blocks.flatten ++ rest) count = .ok rs) ↔ count = blocks.length) ∧
      (∃ rs, parse (blocks.flatten ++ rest) blocks.length = .ok rs ∧
        List.Forall₂ (fun b r => parse b 1 = .ok [r]) blocks rs) ∧
      ∀ (b : Bytes) (count count' : Nat) (rs rs' : List EntryRecord),
        parse b count = .ok rs → parse b count' = .ok rs' → count = count' := by
  obtain ⟨rs, hrun, hrs⟩ := exists_records_flatten hblocks rest
  have hread : parse (blocks.flatten ++ rest) blocks.length = .ok rs :=
    (parse_eq_ok_iff _ _).2 ⟨hrs.length_eq.symm, rest, hrun, hrest⟩
  refine ⟨fun count => ?_, ⟨rs, hread, hrs⟩, fun _ _ _ _ _ h h' => count_unique h h'⟩
  constructor
  · rintro ⟨rs', h⟩
    exact count_unique h hread
  · rintro rfl
    exact ⟨rs, hread⟩

namespace Disguised

/-- Files whose names, extra fields and comments look like further records. -/
def files : List StoredFile :=
  [{ name := "PK\x01\x02", content := [7], extra := [0x50, 0x4b, 1, 2] },
    { name := "a/", content := [], comment := [0x50, 0x4b, 1, 2], externalAttrs := 0x10 }]

/-- Their records. -/
def blocks : List Bytes := files.map fun f => f.central 0

/-- What follows them begins like an end record. -/
def trailer : Bytes := Bytes.ofNat 4 EndRecord.signature

/-- They are read as two records, and with no other count. -/
theorem read_two :
    (∀ b ∈ blocks, Framed b ∧ ∃ r, parse b 1 = .ok [r]) ∧ ¬ BeginsRecord trailer ∧
      (∀ count, (∃ rs, parse (blocks.flatten ++ trailer) count = .ok rs) ↔ count = blocks.length) ∧
      (∃ rs, parse (blocks.flatten ++ trailer) blocks.length = .ok rs ∧
        List.Forall₂ (fun b r => parse b 1 = .ok [r]) blocks rs) ∧
      ∀ (b : Bytes) (count count' : Nat) (rs rs' : List EntryRecord),
        parse b count = .ok rs → parse b count' = .ok rs' → count = count' := by
  have hcheck : ∀ b ∈ blocks, (Bytes.field b 0 4 = signature ∧
      b.length = headerLen + announced b) ∧ (content 0 b).toOption.isSome = true := by
    decide +kernel
  have hblocks : ∀ b ∈ blocks, Framed b ∧ ∃ r, parse b 1 = .ok [r] := by
    intro b hb
    obtain ⟨⟨hsig, hlen⟩, hsome⟩ := hcheck b hb
    have hframed : Framed b := ⟨hsig, hlen⟩
    cases hc : content 0 b with
    | error e =>
        rw [hc] at hsome
        cases hsome
    | ok r => exact ⟨hframed, r, hframed.parse_one_iff.2 hc⟩
  have htrailer : ¬ BeginsRecord trailer := by decide
  exact ⟨hblocks, htrailer, parse_flatten hblocks htrailer⟩

end Disguised

end ArchiveMount.CentralDirectory
