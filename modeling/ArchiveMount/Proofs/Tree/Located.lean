/-
# `ArchiveMount.Proofs.Tree.Located` — where a located directory lies

The end record of an object is the last one that stands in it, or the 64-bit record to which
the locator before that one leads (`EndRecord.ReadAt`).  Whatever the fields of the records
say: when the search over a store that serves the object succeeds, the directory ends where
the record that was read begins, or before (`bounds_of_locateDirectory`).
-/
import ArchiveMount.Proofs.Archive.Trailer
import ArchiveMount.Proofs.Tree.Indexing

namespace ArchiveMount

namespace EndRecord

variable {data : Bytes} {r : EndRecord} {pos limit : Nat}

/-- The end record `r` of an object was read at `pos`. -/
def ReadAt (data : Bytes) (r : EndRecord) (pos : Nat) : Prop :=
  find data = some (pos, r) ∨
    ∃ last classic z, find data = some (last, classic) ∧ locatorBefore data last = some pos ∧
      Zip64EndRecord.parse (Bytes.slice data pos Zip64EndRecord.fixedLen) = .ok z ∧
      r = classic.widen z

theorem ReadAt.lt_length (h : ReadAt data r pos) : pos < data.length := by
  rcases h with h | ⟨-, -, z, -, -, hz, -⟩
  · exact (find_eq_some_iff.1 h).1.lt_length
  · simp only [Zip64EndRecord.parse] at hz
    split_ifs at hz with h₁ h₂ h₃
    rw [Bytes.length_slice] at h₁
    omega

theorem le_of_checkBounds (h : r.checkBounds limit = .ok ()) :
    r.directoryOffset + r.directorySize ≤ min limit maxWord := by
  simp only [checkBounds] at h
  split_ifs at h
  omega

end EndRecord

/-! ## What a scan and a 64-bit record come to -/

section Scan

variable {tail record : Bytes} {tailOffset offset : Nat} {r classic : EndRecord}

/-- A scan that is done has looked at the bounds of the directory. -/
theorem EndRecord.scan_eq_ok {limit : Nat} {x : TailScan} (h : classic.scan limit = .ok x) :
    x = .directory classic ∧
      classic.directoryOffset + classic.directorySize ≤ min limit maxWord := by
  simp only [scan] at h
  obtain ⟨_, -, h⟩ := Attempt.exists_of_bind_eq_ok h
  obtain ⟨_, hb, h⟩ := Attempt.exists_of_bind_eq_ok h
  exact ⟨(Except.ok.inj h).symm, le_of_checkBounds hb⟩

/-- What a scan answers, by cases. -/
theorem scanTail_eq_ok {x : TailScan} (h : scanTail tail tailOffset = .ok x) :
    x = .notFound ∨ ∃ pos r, EndRecord.find tail = some (pos, r) ∧
      ((x = .directory r ∧
          r.directoryOffset + r.directorySize ≤ min (tailOffset + pos) maxWord) ∨
        ∃ offset, x = .zip64 r offset ∧ locatorBefore tail pos = some offset) := by
  cases hf : EndRecord.find tail with
  | none =>
      simp only [scanTail, hf] at h
      exact .inl (Except.ok.inj h).symm
  | some found =>
      obtain ⟨pos, r⟩ := found
      cases hl : locatorBefore tail pos with
      | some offset =>
          rw [scanTail_of_locator hf hl] at h
          exact .inr ⟨pos, r, rfl, .inr ⟨offset, (Except.ok.inj h).symm, hl⟩⟩
      | none =>
          cases hn : r.needsZip64 with
          | false =>
              rw [scanTail_of_narrow hf hl hn] at h
              exact .inr ⟨pos, r, rfl, .inl (EndRecord.scan_eq_ok h)⟩
          | true =>
              rw [scanTail_of_saturated hf hl hn] at h
              split_ifs at h
              exact .inl (Except.ok.inj h).symm

theorem resolveZip64_eq_ok (h : resolveZip64 classic record offset = .ok r) :
    ∃ z, Zip64EndRecord.parse record = .ok z ∧ r = classic.widen z ∧
      r.directoryOffset + r.directorySize ≤ min offset maxWord := by
  simp only [resolveZip64] at h
  obtain ⟨z, hz, h⟩ := Attempt.exists_of_bind_eq_ok h
  obtain ⟨_, -, h⟩ := Attempt.exists_of_bind_eq_ok h
  obtain ⟨_, hb, h⟩ := Attempt.exists_of_bind_eq_ok h
  obtain rfl := Except.ok.inj h
  exact ⟨z, hz, rfl, EndRecord.le_of_checkBounds hb⟩

end Scan

/-- A stretch is delivered as far as the object goes. -/
theorem ByteRange.part_ofSpan_eq_slice {offset len : Nat} {data : Bytes} (hlen : 0 < len)
    (hsize : data.length ≤ maxWord) :
    (ofSpan offset len).part data = Bytes.slice data offset len := by
  rcases Nat.lt_or_ge data.length offset with hout | hin
  · have hnil : ∀ {start n : Nat}, data.length ≤ start → Bytes.slice data start n = [] := by
      intro start n hstart
      rw [Bytes.slice, List.drop_eq_nil_of_le hstart, List.take_nil]
    rw [hnil (Nat.le_of_lt hout)]
    simp only [part, ofSpan, resolve]
    exact hnil (by omega)
  · -- a sum that is cut off has passed the end of the object
    have hstop : min (addSat (addSat offset (max len 1 - 1)) 1) data.length =
        min (offset + len) data.length := by
      simp only [addSat]
      omega
    simp only [part, ofSpan, resolve, Span.len, hstop]
    rw [Nat.min_eq_left hin, Bytes.slice, Bytes.slice, List.take_eq_take_iff, List.length_drop]
    omega

namespace Tree

variable {σ : Type} {store : Store σ} {l : Locator} {data : Bytes} {ok : σ → Prop}
  {r : EndRecord} {s : σ}

/-! ## The search -/

/-- A window is what is left of the object behind its offset. -/
theorem run_window (hserves : store.Serves l data ok) (window : Nat) (hs : ok s) :
    ((store.readRange l (.suffix window)).run s).1 =
      .ok (data.drop (data.length - window)) := by
  obtain ⟨s', hrun, -⟩ := hserves.run_readRange hs (.suffix window)
  rw [hrun, ByteRange.part_suffix]

/-- From the window or from the store, what is read are the bytes of the object. -/
theorem run_zip64Record (hserves : store.Serves l data ok) {off offset : Nat}
    (hoff : off ≤ data.length) (hsize : data.length ≤ maxWord) (hs : ok s) :
    ((zip64Record store l data.length (data.drop off) offset).run s).1 =
      .ok (Bytes.slice data offset Zip64EndRecord.fixedLen) := by
  have hback : data.length - (data.drop off).length = off := by
    rw [List.length_drop]
    omega
  simp only [zip64Record, hback]
  split_ifs with hin
  · rw [Attempt.run_pure, Bytes.slice, List.drop_drop, Nat.add_sub_cancel' hin.1, ← Bytes.slice]
  · obtain ⟨s', hrun, -⟩ := hserves.run_readRange hs (.ofSpan offset Zip64EndRecord.fixedLen)
    rw [Attempt.run_mapError, hrun, ByteRange.part_ofSpan_eq_slice (by decide) hsize]
    rfl

/-- A 64-bit record that is applied was read at the place the locator gives. -/
theorem bounds_of_zip64 (hserves : store.Serves l data ok)
    (hmax : data.length + Zip64EndRecord.fixedLen < maxWord) {off pos offset : Nat}
    (hoff : off ≤ data.length) {classic : EndRecord}
    (hf : EndRecord.find (data.drop off) = some (pos, classic))
    (hl : locatorBefore (data.drop off) pos = some offset) (hs : ok s)
    (h : ((zip64Record store l data.length (data.drop off) offset >>= fun record =>
      (Attempt.ofExcept (resolveZip64 classic record offset)).mapError .archive).run s).1 = .ok r) :
    ∃ pos, r.ReadAt data pos ∧ r.directoryOffset + r.directorySize ≤ pos := by
  have hpos : Zip64Locator.len ≤ pos := by
    refine Nat.le_of_not_lt fun hlt => ?_
    rw [locatorBefore_of_lt hlt] at hl
    cases hl
  rw [locatorBefore_drop hpos] at hl
  rw [Attempt.run_bind, run_zip64Record hserves hoff (by omega) hs] at h
  dsimp only at h
  rw [Attempt.run_mapError, Attempt.run_ofExcept] at h
  cases hres : resolveZip64 classic (Bytes.slice data offset Zip64EndRecord.fixedLen) offset with
  | error e =>
      rw [hres] at h
      cases h
  | ok wide =>
      rw [hres] at h
      obtain rfl := Except.ok.inj h
      obtain ⟨z, hz, rfl, hbounds⟩ := resolveZip64_eq_ok hres
      exact ⟨offset, .inr ⟨off + pos, classic, z, (EndRecord.find_drop_eq_some_iff hoff).1 hf, hl,
        hz, rfl⟩, Nat.le_trans hbounds (Nat.min_le_left _ _)⟩

/-- In whatever window the end record was found, the directory ends before it. -/
theorem bounds_of_searchTail (hserves : store.Serves l data ok)
    (hmax : data.length + Zip64EndRecord.fixedLen < maxWord) {ws : List Nat} (hs : ok s)
    (h : ((searchTail store l data.length ws).run s).1 = .ok r) :
    ∃ pos, r.ReadAt data pos ∧ r.directoryOffset + r.directorySize ≤ pos := by
  induction ws generalizing s with
  | nil => cases h
  | cons w ws ih =>
      have hoff : data.length - w ≤ data.length := Nat.sub_le _ _
      have hback : data.length - (data.drop (data.length - w)).length = data.length - w := by
        rw [List.length_drop]
        omega
      obtain ⟨s₁, hread, hs₁⟩ := hserves.run_readRange hs (.suffix w)
      rw [ByteRange.part_suffix] at hread
      have htail := Attempt.run_mapError TreeError.object (store.readRange l (.suffix w)) s
      rw [hread] at htail
      rw [searchTail, Attempt.bind_ok htail, hback, Attempt.run_bind, Attempt.run_mapError,
        Attempt.run_ofExcept] at h
      cases hscan : scanTail (data.drop (data.length - w)) (data.length - w) with
      | error e =>
          rw [hscan] at h
          cases h
      | ok scan =>
          rw [hscan] at h
          rcases scanTail_eq_ok hscan with
            rfl | ⟨pos, classic, hf, ⟨rfl, hbounds⟩ | ⟨offset, rfl, hl⟩⟩
          · exact ih hs₁ h
          · obtain rfl := Except.ok.inj h
            exact ⟨_, .inl ((EndRecord.find_drop_eq_some_iff hoff).1 hf),
              Nat.le_trans hbounds (Nat.min_le_left _ _)⟩
          · exact bounds_of_zip64 hserves hmax hoff hf hl hs₁ h

/-- The directory that is located ends before the record that was read. -/
theorem bounds_of_locateDirectory (hserves : store.Serves l data ok)
    (hmax : data.length + Zip64EndRecord.fixedLen < maxWord) (hs : ok s)
    (h : ((locateDirectory store l data.length).run s).1 = .ok r) :
    ∃ pos, r.ReadAt data pos ∧ r.directoryOffset + r.directorySize ≤ pos := by
  simp only [locateDirectory] at h
  split_ifs at h
  · cases h
  · exact bounds_of_searchTail hserves hmax hs h

end Tree

end ArchiveMount
