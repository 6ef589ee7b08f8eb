/-
# `ArchiveMount.Proofs.Tree.WideRecord` — the 64-bit record, out of the window or asked for

The 64-bit record is a slice of the window if it lies in it, and is asked for if not.  Either way
it is the bytes of the object from its offset on (`wideRecord`): the slice lies inside the window
and is what would have been delivered, and of a record that the object cuts short too little is
delivered for it to be read.  So what it resolves to is settled by the object, the classic record
and the offset, whatever the window (`wideRecord_windowless`).

There is one exception.  The test for the slice is made with a sum that stops at the greatest
word, and on an object of as many bytes as that it passes for a record that the object cuts
short.  The slice traps then, where the request would have shown the record to be truncated, and
so what becomes of the record depends on the window (`Utmost`).
-/
import ArchiveMount.Proofs.Archive.EndSearch
import ArchiveMount.Proofs.Tree.Checked
import ArchiveMount.Proofs.Tree.Search

namespace ArchiveMount

/-! ## Records that are cut short -/

theorem Zip64EndRecord.parse_eq_malformed {record : Bytes} (h : record.length < fixedLen) :
    ∃ fault, parse record = .error (.malformed fault) := by
  simp only [parse]
  split_ifs
  · exact ⟨_, rfl⟩
  · exact ⟨_, rfl⟩
  · exact ⟨_, rfl⟩

theorem resolveZip64_eq_malformed {record : Bytes} (h : record.length < Zip64EndRecord.fixedLen)
    (classic : EndRecord) (offset : Nat) :
    ∃ fault, resolveZip64 classic record offset = .error (.malformed fault) := by
  obtain ⟨fault, hparse⟩ := Zip64EndRecord.parse_eq_malformed h
  exact ⟨fault, by rw [resolveZip64, hparse]; rfl⟩

namespace Tree

variable {σ : Type} {store : Store σ} {l : Locator} {data : Bytes} {ok : σ → Prop}
  {window offset : Nat} {s : σ}

/-! ## The two ways to a record -/

/-- The window of a length on the end of `data`. -/
def windowOn (data : Bytes) (window : Nat) : Bytes := data.drop (data.length - window)

/-- The 64-bit record at an offset, as far as the object goes. -/
def wideRecord (data : Bytes) (offset : Nat) : Bytes :=
  Bytes.slice data offset Zip64EndRecord.fixedLen

/-- The test for a slice: the record begins in the window, and ends before the object does, as far
as a sum of words can tell. -/
def Shows (data : Bytes) (window offset : Nat) : Prop :=
  data.length - window ≤ offset ∧ addSat offset Zip64EndRecord.fixedLen ≤ data.length

/-- The test passes for a record that the object cuts short. -/
def Misjudged (data : Bytes) (window offset : Nat) : Prop :=
  Shows data window offset ∧ data.length < offset + Zip64EndRecord.fixedLen

/-- The record at an offset, with a window at hand. -/
def recordWith (store : Store σ) (l : Locator) (data : Bytes) (window offset : Nat) :
    Attempt σ (Stop TreeError) Bytes :=
  zip64RecordChecked store l data.length (windowOn data window) (data.length - window) offset

theorem recordWith_of_shows (h : Shows data window offset) :
    recordWith store l data window offset = (do
      let stop ← .trapping (Word.add (offset - (data.length - window)) Zip64EndRecord.fixedLen)
      .trapping ((windowOn data window).between (offset - (data.length - window)) stop)) := by
  refine (if_pos h).trans ?_
  rw [Word.sub_eq h.1, Attempt.trapping_ok, pure_bind]

theorem recordWith_of_not_shows (h : ¬ Shows data window offset) :
    recordWith store l data window offset =
      ((store.readRange l (.ofSpan offset Zip64EndRecord.fixedLen)).mapError .object).reporting :=
  if_neg h

theorem length_wideRecord_lt (h : data.length < offset + Zip64EndRecord.fixedLen) :
    (wideRecord data offset).length < Zip64EndRecord.fixedLen := by
  rw [wideRecord, Bytes.length_slice]
  simp only [Zip64EndRecord.fixedLen] at h ⊢
  omega

theorem add_le_length_windowOn (hbegin : data.length - window ≤ offset)
    (hend : offset + Zip64EndRecord.fixedLen ≤ data.length) :
    offset - (data.length - window) + Zip64EndRecord.fixedLen ≤ (windowOn data window).length := by
  rw [windowOn, List.length_drop]
  omega

theorem slice_windowOn (hbegin : data.length - window ≤ offset) :
    Bytes.slice (windowOn data window) (offset - (data.length - window)) Zip64EndRecord.fixedLen =
      wideRecord data offset := by
  rw [windowOn, Bytes.slice, List.drop_drop, Nat.add_sub_cancel' hbegin, ← Bytes.slice, wideRecord]

/-- What is asked for comes as far as the object goes. -/
theorem run_readRange_wideRecord (hserves : store.Serves l data ok) (hsize : data.length ≤ maxWord)
    (hs : ok s) (offset : Nat) :
    ((store.readRange l (.ofSpan offset Zip64EndRecord.fixedLen)).run s).1 =
      .ok (wideRecord data offset) := by
  obtain ⟨s', hrun, -⟩ := hserves.run_readRange hs (.ofSpan offset Zip64EndRecord.fixedLen)
  rw [hrun, ByteRange.part_ofSpan_eq_slice (by decide) hsize, wideRecord]

/-- A record that lies in the window is a slice of it, and the store is not asked. -/
theorem run_recordWith_of_le (hsize : data.length ≤ maxWord)
    (hbegin : data.length - window ≤ offset)
    (hend : offset + Zip64EndRecord.fixedLen ≤ data.length) :
    (recordWith store l data window offset).run s = (.ok (wideRecord data offset), s) := by
  have hroom := add_le_length_windowOn hbegin hend
  have hshows : Shows data window offset := ⟨hbegin, by rw [addSat_eq_add (by omega)]; exact hend⟩
  rw [recordWith_of_shows hshows, Word.add_eq (by omega), Attempt.trapping_ok, pure_bind,
    Bytes.between_eq hroom, slice_windowOn hbegin]
  rfl

/-- One that the object cuts short is no slice, whatever the sum of words says. -/
theorem run_recordWith_of_misjudged (store : Store σ) (l : Locator) (s : σ)
    (h : Misjudged data window offset) :
    ∃ t, (recordWith store l data window offset).run s = (.error (.trap t), s) := by
  obtain ⟨hshows, hend⟩ := h
  rw [recordWith_of_shows hshows]
  have hlong : (windowOn data window).length <
      offset - (data.length - window) + Zip64EndRecord.fixedLen := by
    rw [windowOn, List.length_drop]
    have hbegin := hshows.1
    omega
  by_cases hsum : offset - (data.length - window) + Zip64EndRecord.fixedLen ≤ maxWord
  · have hslice : (windowOn data window).between (offset - (data.length - window))
        (offset - (data.length - window) + Zip64EndRecord.fixedLen) = .error .slice :=
      if_neg fun h => Nat.not_lt.2 h.2 hlong
    rw [Word.add_eq hsum, Attempt.trapping_ok, pure_bind, hslice]
    exact ⟨.slice, rfl⟩
  · have hover : Word.add (offset - (data.length - window)) Zip64EndRecord.fixedLen =
        .error .overflow := if_neg hsum
    rw [hover]
    exact ⟨.overflow, rfl⟩

theorem run_recordWith_of_not_shows (hserves : store.Serves l data ok)
    (hsize : data.length ≤ maxWord) (hs : ok s) (h : ¬ Shows data window offset) :
    ((recordWith store l data window offset).run s).1 = .ok (wideRecord data offset) := by
  rw [recordWith_of_not_shows h, Attempt.run_reporting, Attempt.run_mapError,
    run_readRange_wideRecord hserves hsize hs]
  rfl

/-- The test is wrong only at the end of an object of the greatest size. -/
theorem misjudged_iff (hsize : data.length ≤ maxWord) :
    Misjudged data window offset ↔
      data.length - window ≤ offset ∧ data.length = maxWord ∧
        maxWord < offset + Zip64EndRecord.fixedLen := by
  simp only [Misjudged, Shows, addSat]
  omega

/-- With any window the record is what the object has of it, or there is a trap. -/
theorem run_recordWith (hserves : store.Serves l data ok) (hsize : data.length ≤ maxWord)
    (hs : ok s) (window offset : Nat) :
    (¬ Misjudged data window offset ∧
        ((recordWith store l data window offset).run s).1 = .ok (wideRecord data offset)) ∨
      Misjudged data window offset ∧
        ∃ t, ((recordWith store l data window offset).run s).1 = .error (.trap t) := by
  by_cases hshows : Shows data window offset
  · rcases Nat.lt_or_ge data.length (offset + Zip64EndRecord.fixedLen) with hlt | hle
    · obtain ⟨t, htrap⟩ := run_recordWith_of_misjudged store l s ⟨hshows, hlt⟩
      exact .inr ⟨⟨hshows, hlt⟩, t, congrArg Prod.fst htrap⟩
    · exact .inl ⟨fun h => Nat.not_lt.2 hle h.2,
        congrArg Prod.fst (run_recordWith_of_le hsize hshows.1 hle)⟩
  · exact .inl ⟨fun h => hshows h.1, run_recordWith_of_not_shows hserves hsize hs hshows⟩

/-! ## What becomes of the record -/

/-- What the record at an offset resolves to, with a window at hand. -/
def resolveWith (store : Store σ) (l : Locator) (data : Bytes) (window : Nat) (classic : EndRecord)
    (offset : Nat) : Attempt σ (Stop TreeError) EndRecord := do
  let record ← recordWith store l data window offset
  ((Attempt.ofExcept (resolveZip64 classic record offset)).mapError .archive).reporting

/-- A search that has come to a window which shows the offset goes on with the record. -/
theorem run_searchTailChecked_of_zip64 (hserves : store.Serves l data ok) (hs : ok s)
    {classic : EndRecord} (h : scanTailChecked (windowOn data window) (data.length - window) =
      .ok (.zip64 classic offset)) (rest : List Nat) :
    ∃ s', ok s' ∧ ((searchTailChecked store l data.length (window :: rest)).run s).1 =
      ((resolveWith store l data window classic offset).run s').1 := by
  obtain ⟨s', hread, hs'⟩ := hserves.run_readRange hs (.suffix window)
  rw [ByteRange.part_suffix, ← windowOn] at hread
  have hlength : (windowOn data window).length ≤ data.length := by
    rw [windowOn, List.length_drop]
    exact Nat.sub_le _ _
  have hoffset : data.length - (windowOn data window).length = data.length - window := by
    rw [windowOn, List.length_drop]
    omega
  refine ⟨s', hs', ?_⟩
  rw [searchTailChecked, Attempt.reporting_bind_ok hread, Word.sub_eq hlength, Attempt.trapping_ok,
    pure_bind, hoffset, h]
  rfl

theorem fst_run_resolveWith_of_ok {classic : EndRecord}
    (h : ((recordWith store l data window offset).run s).1 = .ok (wideRecord data offset)) :
    ((resolveWith store l data window classic offset).run s).1 =
      ((resolveZip64 classic (wideRecord data offset) offset).mapError TreeError.archive).mapError
        .error := by
  rw [resolveWith, Attempt.run_bind]
  generalize (recordWith store l data window offset).run s = out at h
  obtain ⟨out, s'⟩ := out
  obtain rfl : out = .ok (wideRecord data offset) := h
  rfl

theorem fst_run_resolveWith_of_trap {classic : EndRecord} {t : Trap}
    (h : ((recordWith store l data window offset).run s).1 = .error (.trap t)) :
    ((resolveWith store l data window classic offset).run s).1 = .error (.trap t) := by
  rw [resolveWith, Attempt.run_bind]
  generalize (recordWith store l data window offset).run s = out at h
  obtain ⟨out, s'⟩ := out
  obtain rfl : out = .error (.trap t) := h
  rfl

/-- What holds of the 64-bit record at an offset, over a store that serves the object. -/
structure Windowless (store : Store σ) (l : Locator) (data : Bytes) (ok : σ → Prop)
    (offset : Nat) : Prop where
  /-- What is asked for comes as far as the object goes. -/
  fetched : ∀ s, ok s → ((store.readRange l (.ofSpan offset 56)).run s).1 =
    .ok (wideRecord data offset)
  /-- What is taken out of a window lies inside it and is what would be fetched; the store is not
  asked. -/
  taken : ∀ window s bytes, Shows data window offset →
    ((recordWith store l data window offset).run s).1 = .ok bytes →
      offset - (data.length - window) + 56 ≤ (windowOn data window).length ∧
        bytes = Bytes.slice (windowOn data window) (offset - (data.length - window)) 56 ∧
        bytes = wideRecord data offset ∧ ((recordWith store l data window offset).run s).2 = s
  /-- Of a record that is cut short too little comes, and it is refused. -/
  short : data.length < offset + 56 → (wideRecord data offset).length < 56 ∧
    ∀ classic, ∃ fault,
      resolveZip64 classic (wideRecord data offset) offset = .error (.malformed fault)
  /-- Unless the end of an object of the greatest size cuts the record short, it is the same with
  any window, … -/
  agreed : (data.length = maxWord → offset + 56 ≤ maxWord) → ∀ window s, ok s →
    ((recordWith store l data window offset).run s).1 = .ok (wideRecord data offset)
  /-- … and so is all that comes of it, in a search that has come to a window which shows the
  offset. -/
  settled : (data.length = maxWord → offset + 56 ≤ maxWord) → ∀ window rest classic s, ok s →
    scanTailChecked (windowOn data window) (data.length - window) = .ok (.zip64 classic offset) →
    ((searchTailChecked store l data.length (window :: rest)).run s).1 =
      ((resolveZip64 classic (wideRecord data offset) offset).mapError TreeError.archive).mapError
        .error
  /-- In that case there is a trap with every window in which the record begins. -/
  trapped : ∀ window s, ok s →
    ((∃ t, ((recordWith store l data window offset).run s).1 = .error (.trap t)) ↔
      data.length - window ≤ offset ∧ data.length = maxWord ∧ maxWord < offset + 56)
  /-- Whatever the size, the search gives a directory if and only if the record does so as the
  object has it, and gives that one. -/
  resolved : ∀ window rest classic s r, ok s →
    scanTailChecked (windowOn data window) (data.length - window) = .ok (.zip64 classic offset) →
    (((searchTailChecked store l data.length (window :: rest)).run s).1 = .ok r ↔
      resolveZip64 classic (wideRecord data offset) offset = .ok r)

/-- Whatever the window on the end of an object, the 64-bit record is the same, and so is what it
resolves to, unless the object is of the greatest size and cuts the record short. -/
theorem wideRecord_windowless (hserves : store.Serves l data ok) (hsize : data.length ≤ maxWord)
    (offset : Nat) : Windowless store l data ok offset := by
  have hagreed : (data.length = maxWord → offset + Zip64EndRecord.fixedLen ≤ maxWord) →
      ∀ window s, ok s →
        ((recordWith store l data window offset).run s).1 = .ok (wideRecord data offset) := by
    intro hfits window s hs
    rcases run_recordWith hserves hsize hs window offset with ⟨-, hok⟩ | ⟨hyes, -⟩
    · exact hok
    · obtain ⟨-, hmost, hcut⟩ := (misjudged_iff hsize).1 hyes
      exact absurd (hfits hmost) (Nat.not_le.2 hcut)
  constructor
  case fetched => exact fun s hs => run_readRange_wideRecord hserves hsize hs offset
  case taken =>
    intro window s bytes hshows hrun
    rcases Nat.lt_or_ge data.length (offset + Zip64EndRecord.fixedLen) with hlt | hle
    · obtain ⟨t, htrap⟩ := run_recordWith_of_misjudged store l s ⟨hshows, hlt⟩
      rw [htrap] at hrun
      cases hrun
    · have hrecord : (recordWith store l data window offset).run s = _ :=
        run_recordWith_of_le hsize hshows.1 hle
      rw [hrecord] at hrun
      obtain rfl := Except.ok.inj hrun
      exact ⟨add_le_length_windowOn hshows.1 hle, (slice_windowOn hshows.1).symm, rfl,
        congrArg Prod.snd hrecord⟩
  case short =>
    intro hlt
    have hshort := length_wideRecord_lt hlt
    exact ⟨hshort, fun classic => resolveZip64_eq_malformed hshort classic offset⟩
  case agreed => exact hagreed
  case settled =>
    intro hfits window rest classic s hs hscan
    obtain ⟨s', hs', hrun⟩ := run_searchTailChecked_of_zip64 hserves hs hscan rest
    rw [hrun, fst_run_resolveWith_of_ok (hagreed hfits window s' hs')]
  case trapped =>
    intro window s hs
    refine Iff.trans ?_ (misjudged_iff hsize)
    rcases run_recordWith hserves hsize hs window offset with ⟨hno, hok⟩ | ⟨hyes, htrap⟩
    · rw [hok]
      exact iff_of_false (by simp) hno
    · exact iff_of_true htrap hyes
  case resolved =>
    intro window rest classic s r hs hscan
    obtain ⟨s', hs', hrun⟩ := run_searchTailChecked_of_zip64 hserves hs hscan rest
    rw [hrun]
    rcases run_recordWith hserves hsize hs' window offset with ⟨-, hok⟩ | ⟨hyes, t, htrap⟩
    · rw [fst_run_resolveWith_of_ok hok, Attempt.mapError_eq_ok_iff, Attempt.mapError_eq_ok_iff]
    · obtain ⟨fault, hfault⟩ := resolveZip64_eq_malformed (length_wideRecord_lt hyes.2) classic
        offset
      rw [fst_run_resolveWith_of_trap htrap, hfault]
      simp

namespace Straddled

/-- The end record, whose fields are those of the 64-bit record. -/
def classic : EndRecord := ⟨0, 0, 0, 0, 0, 0⟩

/-- A byte, a 64-bit record, its locator and the end record. -/
def object : Bytes :=
  [7] ++ Bytes.numbers [(4, Zip64EndRecord.signature), (8, 44), (4, 0), (8, 0), (8, 0), (8, 0),
      (8, 1), (8, 0)] ++
    Bytes.numbers [(4, Zip64Locator.signature), (4, 0), (8, 1), (4, 1)] ++
    Bytes.numbers [(4, EndRecord.signature), (18, 0)]

/-- Where it is served. -/
def locator : Locator := ⟨"mem", some { host := "bucket" }, ["straddled.zip"], none, none⟩

/-- The record lies in a window of 98 bytes, straddles the beginning of one of 97 bytes and lies
before one of 42 bytes.  It is taken out of the first, and resolves to the same with each. -/
theorem record_straddled :
    object.length ≤ maxWord ∧ Shows object 98 1 ∧ ¬ Shows object 97 1 ∧ ¬ Shows object 42 1 ∧
      ((recordWith (.holding object) locator object 98 1).run ()).1 =
        .ok (Bytes.slice (windowOn object 98) 0 56) ∧
      ∀ window ∈ [98, 97, 42],
        scanTailChecked (windowOn object window) (object.length - window) =
            .ok (.zip64 classic 1) ∧
          ((searchTailChecked (.holding object) locator object.length [window]).run ()).1 =
            .ok ⟨0, 0, 0, 1, 0, 0⟩ := by
  have hlength : object.length = 99 := rfl
  have hsize : object.length ≤ maxWord := by decide
  have hfits : object.length = maxWord → 1 + 56 ≤ maxWord := fun _ => by decide
  have hshows : Shows object 98 1 := by
    simp only [Shows]
    decide
  have hbegin : ∀ window, window < 98 → ¬ Shows object window 1 := by
    intro window hwindow hshows
    have hle := hshows.1
    omega
  have hwindowless := wideRecord_windowless (Store.holding_serves object locator) hsize 1
  have hrecord := hwindowless.agreed hfits 98 () trivial
  obtain ⟨-, hslice, -, -⟩ := hwindowless.taken 98 () _ hshows hrecord
  have hresolved : resolveZip64 classic (wideRecord object 1) 1 = .ok ⟨0, 0, 0, 1, 0, 0⟩ := by
    decide
  refine ⟨hsize, hshows, hbegin 97 (by decide), hbegin 42 (by decide), ?_, fun window hmem => ?_⟩
  · exact hrecord.trans (congrArg _ hslice)
  · have hscan : scanTailChecked (windowOn object window) (object.length - window) =
        .ok (.zip64 classic 1) := by
      revert window
      decide
    exact ⟨hscan, (hwindowless.resolved window [] classic () _ trivial hscan).2 hresolved⟩

end Straddled

namespace Utmost

/-- 49 bytes before the end of an object of the greatest size. -/
def place : Nat := maxWord - 49

/-- The end record. -/
def classic : EndRecord := ⟨0, 0, 0, 0, 0, 0⟩

/-- A locator of that place, and the end record. -/
def trailer : Bytes :=
  Bytes.numbers [(4, Zip64Locator.signature), (4, 0), (8, place), (4, 1)] ++
    Bytes.numbers [(4, EndRecord.signature), (18, 0)]

/-- The trailer behind so many zero bytes. -/
def padded (n : Nat) : Bytes := List.replicate n 0 ++ trailer

theorem length_padded (n : Nat) : (padded n).length = n + 42 := by
  rw [padded, List.length_append, List.length_replicate]
  rfl

theorem windowOn_padded {n window : Nat} (hmin : 42 ≤ window) (hmax : window ≤ n + 42) :
    windowOn (padded n) window = padded (window - 42) := by
  have hbegin : n + 42 - window ≤ n := by omega
  have hrest : n - (n + 42 - window) = window - 42 := by omega
  rw [windowOn, length_padded, padded, List.drop_append_of_le_length (by simpa using hbegin),
    List.drop_replicate, hrest, padded]

/-- A window in which the trailer lies shows the place. -/
theorem scanTailChecked_padded (n : Nat) {tailOffset : Nat}
    (hmax : tailOffset + (n + 42) ≤ maxWord)
    (hroom : n + 42 + EndRecord.maxCommentLen ≤ maxWord) :
    scanTailChecked (padded n) tailOffset = .ok (.zip64 classic place) := by
  have htrailer : EndRecord.find trailer = some (20, classic) := by decide
  have hlocator : locatorBefore trailer 20 = some place := by decide
  have hzeros : (List.replicate n (0 : UInt8)).length = n := List.length_replicate
  have hfind : EndRecord.find (padded n) = some (n + 20, classic) := by
    have hat := (EndRecord.find_append_eq_some_iff (List.replicate n 0)).2 htrailer
    rwa [hzeros] at hat
  have hbefore : locatorBefore (padded n) (n + 20) = some place := by
    have hdrop : locatorBefore ((padded n).drop n) 20 = locatorBefore (padded n) (n + 20) :=
      locatorBefore_drop (by decide)
    rw [padded, List.drop_append_of_le_length (by rw [hzeros]), List.drop_replicate, Nat.sub_self]
      at hdrop
    exact hdrop.symm.trans hlocator
  have hposition : Word.add tailOffset (n + 20) = .ok (tailOffset + (n + 20)) :=
    Word.add_eq (by omega)
  rw [← length_padded] at hroom
  have hinside : n + 20 ≤ (padded n).length := by
    rw [length_padded]
    omega
  simp only [scanTailChecked, EndRecord.findChecked_eq hroom, hfind, hposition,
    locatorBeforeChecked_eq hinside, hbefore, Attempt.mapError_ok, bind, Except.bind]
  rfl

/-- An object of as many bytes as a word can count. -/
def object : Bytes := padded (maxWord - 42)

/-- Where it is served. -/
def locator : Locator := ⟨"http", some { host := "host" }, ["utmost.zip"], none, none⟩

theorem length_object : object.length = maxWord := length_padded (maxWord - 42)

theorem scan_object {window : Nat} (hmin : 42 ≤ window) (hmax : window ≤ 65536) :
    scanTailChecked (windowOn object window) (object.length - window) =
      .ok (.zip64 classic place) := by
  have hword : maxWord = 18446744073709551615 := rfl
  have hcomment : EndRecord.maxCommentLen = 65535 := rfl
  rw [length_object, object, windowOn_padded hmin (by omega)]
  exact scanTailChecked_padded (window - 42) (by omega) (by omega)

theorem windows_object : ∃ rest, windows object.length = 65536 :: rest := by
  rcases windows_cases (Nat.le_of_eq length_object) with ⟨-, hle⟩ | ⟨rest, hwindows, -⟩
  · rw [length_object] at hle
    exact absurd hle (by decide)
  · exact ⟨_, hwindows⟩

theorem shows_object : Shows object 65536 place := by
  simp only [Shows, length_object]
  decide

theorem cut_object : object.length < place + Zip64EndRecord.fixedLen := by
  rw [length_object]
  decide

/-- The window of 64 KiB, with which the search begins, is taken to hold the record: the test for
the slice passes, and the slice is cut off.  Over a window of 42 bytes it comes out that the record
is truncated. -/
theorem record_past_end :
    object.length = maxWord ∧ object.length < place + 56 ∧
      (∀ window ∈ [65536, 42], scanTailChecked (windowOn object window) (object.length - window) =
        .ok (.zip64 classic place)) ∧
      Shows object 65536 place ∧
      (windowOn object 65536).length < place - (object.length - 65536) + 56 ∧
      (∃ t, ((locateDirectoryChecked (.holding object) locator object.length).run ()).1 =
        .error (.trap t)) ∧
      ∃ fault, ((searchTailChecked (.holding object) locator object.length [42]).run ()).1 =
        .error (.error (.archive (.malformed fault))) := by
  have hserves := Store.holding_serves object locator
  have hsize : object.length ≤ maxWord := Nat.le_of_eq length_object
  have hscan : ∀ window ∈ [65536, 42], scanTailChecked (windowOn object window)
      (object.length - window) = .ok (.zip64 classic place) := by
    intro window hmem
    have hwindow : 42 ≤ window ∧ window ≤ 65536 := by
      revert window
      decide
    exact scan_object hwindow.1 hwindow.2
  have hshort : (windowOn object 65536).length < place - (object.length - 65536) + 56 := by
    rw [length_object, object, windowOn_padded (by decide) (by decide), length_padded]
    decide
  refine ⟨length_object, cut_object, hscan, shows_object, hshort, ?_, ?_⟩
  · obtain ⟨rest, hwindows⟩ := windows_object
    obtain ⟨s', -, hrun⟩ := run_searchTailChecked_of_zip64 (s := ()) hserves trivial
      (hscan 65536 (by decide)) rest
    obtain ⟨t, htrap⟩ := run_recordWith_of_misjudged (.holding object) locator s'
      ⟨shows_object, cut_object⟩
    have hlarge : ¬ object.length < EndRecord.fixedLen := by
      rw [length_object]
      decide
    rw [locateDirectoryChecked, if_neg hlarge, hwindows, hrun]
    exact ⟨t, fst_run_resolveWith_of_trap (congrArg Prod.fst htrap)⟩
  · have hbefore : ¬ Shows object 42 place := by
      simp only [Shows, length_object]
      decide
    obtain ⟨s', -, hrun⟩ := run_searchTailChecked_of_zip64 (s := ()) hserves trivial
      (hscan 42 (by decide)) []
    obtain ⟨fault, hfault⟩ := resolveZip64_eq_malformed (length_wideRecord_lt cut_object) classic
      place
    have hrecord := run_recordWith_of_not_shows (s := s') hserves hsize trivial hbefore
    rw [hrun, fst_run_resolveWith_of_ok hrecord, hfault]
    exact ⟨fault, rfl⟩

end Utmost

end Tree

end ArchiveMount
