/-
# `ArchiveMount.Proofs.Tree.Search` — the search for the end record comes to an end

The windows on the end of an object are those of a loop that begins with 64 KiB, doubles
the window as often as it has to, and stops when it has looked at the whole object
(`doubling_windows`).  An end record stands within 65557 bytes of the end, and its locator
takes 20 more, so that a window of 128 KiB answers if there is anything to answer
(`scanTail_drop_ne_notFound`).

The store has to be in order only as far as the ends of the object go; what it answers for
the 64-bit record is of no account (`ServesSuffixes`).
-/
import ArchiveMount.Proofs.Archive.Trailer
import ArchiveMount.Proofs.Object.Serving
import ArchiveMount.Tree.Build
import Mathlib.Tactic.Ring
import Mathlib.Tactic.SplitIfs

namespace ArchiveMount

/-! ## Stores that serve the ends of an object -/

namespace Store

variable {σ : Type} {store : Store σ} {l : Locator} {data : Bytes} {ok : σ → Prop}

/-- For `l` the store delivers every suffix of `data` from every state that is `ok`, and
remains in such a state. -/
def ServesSuffixes (store : Store σ) (l : Locator) (data : Bytes) (ok : σ → Prop) : Prop :=
  ∀ len s, ok s →
    (∃ b, ((store.download l (.suffix len)).run s).1 = .ok b ∧ b.Delivers (.suffix len) data) ∧
      ok ((store.download l (.suffix len)).run s).2

theorem Serves.suffixes (h : store.Serves l data ok) : store.ServesSuffixes l data ok :=
  fun len => h.body (.suffix len)

namespace ServesSuffixes

/-- A window is what is left of the object behind its offset. -/
theorem run_readRange (h : store.ServesSuffixes l data ok) {s : σ} (hs : ok s) (len : Nat) :
    ∃ s', (store.readRange l (.suffix len)).run s = (.ok (data.drop (data.length - len)), s') ∧
      ok s' := by
  obtain ⟨⟨b, hb, hd⟩, hs'⟩ := h len s hs
  refine ⟨_, ?_, hs'⟩
  rw [run_readRange_of_delivers (Prod.ext hb rfl) hd, ByteRange.part_suffix]

/-- Taking notes changes nothing. -/
theorem noting (h : store.ServesSuffixes l data ok) :
    store.noting.ServesSuffixes l data fun w => ok w.1 := by
  rintro len ⟨s, notes⟩ hs
  exact h len s hs

end ServesSuffixes

/-- A request that is made is noted, and no other. -/
theorem notes_readRange (store : Store σ) (l : Locator) (range : ByteRange)
    (w : σ × List Request) :
    ((store.noting.readRange l range).run w).2.2 = .download range :: w.2 := by
  obtain ⟨s, notes⟩ := w
  have hnotes : ((store.noting.download l range).run (s, notes)).2.2 =
      .download range :: notes := rfl
  rw [readRange, Attempt.run_bind]
  cases ((store.noting.download l range).run (s, notes)).1 with
  | ok body => exact hnotes
  | error e => exact hnotes

end Store

/-! ## What a window answers -/

section Window

variable {tail : Bytes} {tailOffset pos : Nat} {r : EndRecord}

theorem EndRecord.checkSupported_ne (r : EndRecord) :
    r.checkSupported ≠ .error (.malformed .noEndRecord) := by
  rw [checkSupported]
  split_ifs <;> simp

theorem EndRecord.checkBounds_ne (r : EndRecord) (limit : Nat) :
    r.checkBounds limit ≠ .error (.malformed .noEndRecord) := by
  simp only [checkBounds]
  split_ifs <;> simp

/-- Whatever is wrong with a record that was found, it is not that none was found. -/
theorem EndRecord.scan_ne_noEndRecord (r : EndRecord) (limit : Nat) :
    r.scan limit ≠ .error (.malformed .noEndRecord) := by
  refine Attempt.bind_ne_error r.checkSupported_ne fun _ _ => ?_
  exact Attempt.bind_ne_error (r.checkBounds_ne limit) fun _ _ h => nomatch h

theorem scanTail_ne_noEndRecord (tail : Bytes) (tailOffset : Nat) :
    scanTail tail tailOffset ≠ .error (.malformed .noEndRecord) := by
  intro h
  cases hf : EndRecord.find tail with
  | none =>
      simp only [scanTail, hf] at h
      cases h
  | some found =>
      obtain ⟨pos, r⟩ := found
      cases hl : locatorBefore tail pos with
      | some offset =>
          rw [scanTail_of_locator hf hl] at h
          cases h
      | none =>
          cases hn : r.needsZip64 with
          | true =>
              rw [scanTail_of_saturated hf hl hn] at h
              split_ifs at h
              cases h
          | false =>
              rw [scanTail_of_narrow hf hl hn] at h
              exact r.scan_ne_noEndRecord _ h

theorem Zip64EndRecord.parse_ne (b : Bytes) :
    parse b ≠ .error (.malformed .noEndRecord) := by
  rw [parse]
  split_ifs <;> simp

theorem resolveZip64_ne_noEndRecord (r : EndRecord) (record : Bytes) (offset : Nat) :
    resolveZip64 r record offset ≠ .error (.malformed .noEndRecord) := by
  refine Attempt.bind_ne_error (Zip64EndRecord.parse_ne record) fun z _ => ?_
  refine Attempt.bind_ne_error (r.widen z).checkSupported_ne fun _ _ => ?_
  exact Attempt.bind_ne_error ((r.widen z).checkBounds_ne offset) fun _ _ h => nomatch h

/-- A window that shows a record answers, unless it ends too early for the locator. -/
theorem scanTail_ne_notFound (h : EndRecord.find tail = some (pos, r))
    (hpos : Zip64Locator.len ≤ pos ∨ tailOffset = 0) :
    scanTail tail tailOffset ≠ .ok .notFound := by
  cases hl : locatorBefore tail pos with
  | some offset =>
      rw [scanTail_of_locator h hl]
      simp
  | none =>
      cases hn : r.needsZip64 with
      | false =>
          rw [scanTail_of_narrow h hl hn]
          exact EndRecord.scan_ne (by simp)
      | true =>
          rw [scanTail_of_saturated h hl hn, if_neg (by omega)]
          simp

/-- A window of an object without an end record shows none. -/
theorem scanTail_drop_eq_notFound {data : Bytes} (h : ∀ pos, ¬ EndRecord.StandsAt data pos)
    {off : Nat} (hoff : off ≤ data.length) (tailOffset : Nat) :
    scanTail (data.drop off) tailOffset = .ok .notFound := by
  have hf : EndRecord.find (data.drop off) = none := by
    refine EndRecord.find_eq_none fun pos hpos => ?_
    exact h _ ((EndRecord.standsAt_drop hoff).1 hpos)
  simp only [scanTail, hf]

/-- Length of a window that shows the end record and its locator, whatever the comment. -/
def ampleTailLen : Nat := 2 * initialTailLen

/-- A window of 128 KiB, or of the whole object, answers if there is an end record. -/
theorem scanTail_drop_ne_notFound {data : Bytes} (h : EndRecord.StandsAt data pos) :
    let off := data.length - min ampleTailLen data.length
    scanTail (data.drop off) off ≠ .ok .notFound := by
  intro off
  obtain ⟨last, hlast, hafter⟩ := EndRecord.exists_last h
  have hfind := EndRecord.find_eq_some hlast hafter
  have hlt := hlast.lt_length
  have hnear := hlast.length_le
  simp only [EndRecord.fixedLen, EndRecord.maxCommentLen] at hnear
  have hoff : off = data.length - min ampleTailLen data.length := rfl
  have hlen : ampleTailLen = 131072 := rfl
  have hlocator : Zip64Locator.len = 20 := rfl
  obtain ⟨pos, rfl⟩ := Nat.exists_eq_add_of_le (show off ≤ last by omega)
  exact scanTail_ne_notFound ((EndRecord.find_drop_eq_some_iff (by omega)).2 hfind) (by omega)

end Window

/-! ## The windows of the search -/

namespace Tree

/-- The windows of a loop that begins with `window`: each is twice as long as the one before,
as far as the object goes, and the last one shows the whole object. -/
inductive Doubling (size : Nat) : (window : Nat) → List Nat → Prop
  | last : Doubling size size [size]
  | next {window : Nat} {rest : List Nat} (h : window < size)
      (hrest : Doubling size (min (addSat window window) size) rest) :
      Doubling size window (window :: rest)

namespace Doubling

variable {size window : Nat} {ws : List Nat}

theorem eq_cons (h : Doubling size window ws) : ∃ rest, ws = window :: rest := by
  cases h with
  | last => exact ⟨[], rfl⟩
  | next _ _ => exact ⟨_, rfl⟩

/-- As long as the object goes on, the next window is twice as long. -/
theorem next_eq (hmax : size ≤ maxWord) (window : Nat) :
    min (addSat window window) size = min (2 * window) size := by
  simp only [addSat]
  omega

/-- Every window but the last is shorter than the object, and each is twice the one before. -/
theorem two_pow_lt (h : Doubling size window ws) (hmax : size ≤ maxWord) :
    ws.length ≤ 1 ∨ window * 2 ^ (ws.length - 2) < size := by
  induction h with
  | last => exact .inl (Nat.le_refl _)
  | @next window rest hlt hrest ih =>
      right
      obtain ⟨rest, rfl⟩ := hrest.eq_cons
      rw [next_eq hmax] at ih
      cases rest with
      | nil => simpa using hlt
      | cons w rest =>
          -- the window after this one is not the last, so that it was not cut to the object
          simp only [List.length_cons] at ih ⊢
          have hlater : min (2 * window) size * 2 ^ rest.length < size := by
            rcases ih with hshort | hlong
            · omega
            · simpa using hlong
          have hsmall : min (2 * window) size < size :=
            Nat.lt_of_le_of_lt (Nat.le_mul_of_pos_right _ (Nat.two_pow_pos _)) hlater
          have hdouble : min (2 * window) size = 2 * window := by omega
          rw [hdouble] at hlater
          calc window * 2 ^ (rest.length + 1 + 1 - 1)
              = 2 * window * 2 ^ rest.length := by
                rw [Nat.add_sub_cancel, Nat.pow_succ']
                ring
            _ < size := hlater

/-- No object takes more than 49 windows. -/
theorem length_le (h : Doubling size window ws) (hmax : size ≤ maxWord)
    (hwindow : initialTailLen ≤ window) : ws.length ≤ 49 := by
  refine Nat.le_of_not_lt fun hlong => ?_
  rcases h.two_pow_lt hmax with hshort | hlt
  · omega
  · have hpow : 2 ^ 48 ≤ 2 ^ (ws.length - 2) := Nat.pow_le_pow_right (by decide) (by omega)
    have hall : initialTailLen * 2 ^ 48 ≤ window * 2 ^ (ws.length - 2) :=
      Nat.mul_le_mul hwindow hpow
    simp only [initialTailLen, maxWord] at hall hmax
    omega

end Doubling

/-- The windows are those of the loop that doubles. -/
theorem doubling_windows {size : Nat} (hmax : size ≤ maxWord) :
    Doubling size (min initialTailLen size) (windows size) := by
  -- on what is left of the 64 lengths, counted from the window that is next
  have hleft : ∀ n i, i + n = 64 → Doubling size (min (initialTailLen * 2 ^ i) size)
      (((List.range' i n).map fun i => initialTailLen <<< i).takeWhile (· < size) ++ [size]) := by
    intro n
    induction n with
    | zero =>
        intro i hi
        obtain rfl : i = 64 := hi
        have hwhole : min (initialTailLen * 2 ^ 64) size = size := by
          simp only [initialTailLen, maxWord] at hmax ⊢
          omega
        rw [hwhole]
        exact .last
    | succ n ih =>
        intro i hi
        rw [List.range'_succ, List.map_cons, Nat.shiftLeft_eq]
        by_cases hlt : initialTailLen * 2 ^ i < size
        · rw [List.takeWhile_cons_of_pos (by simpa using hlt), List.cons_append,
            Nat.min_eq_left hlt.le]
          refine .next hlt ?_
          have hnext : 2 * (initialTailLen * 2 ^ i) = initialTailLen * 2 ^ (i + 1) := by
            rw [Nat.pow_succ']
            ring
          rw [Doubling.next_eq hmax, hnext]
          exact ih (i + 1) (by omega)
        · rw [List.takeWhile_cons_of_neg (by simpa using hlt), List.nil_append,
            Nat.min_eq_right (Nat.le_of_not_lt hlt)]
          exact .last
  rw [windows, List.range_eq_range']
  simpa using hleft 64 0 rfl

/-- The search looks at one window, or at one of 64 KiB and then at one of 128 KiB before any
other. -/
theorem windows_cases {size : Nat} (hmax : size ≤ maxWord) :
    windows size = [size] ∧ size ≤ initialTailLen ∨
      ∃ rest, windows size = initialTailLen :: min ampleTailLen size :: rest ∧
        initialTailLen < size := by
  have h := doubling_windows hmax
  generalize hws : windows size = ws at h
  generalize hfirst : min initialTailLen size = first at h
  cases h with
  | last => exact .inl ⟨rfl, by omega⟩
  | next hlt hrest =>
      right
      obtain rfl : first = initialTailLen := by omega
      rw [Doubling.next_eq hmax] at hrest
      obtain ⟨rest, rfl⟩ := hrest.eq_cons
      exact ⟨rest, rfl, hlt⟩

theorem length_windows_le {size : Nat} (hmax : size ≤ maxWord) : (windows size).length ≤ 49 := by
  rcases windows_cases hmax with ⟨hone, -⟩ | ⟨rest, hmore, hlt⟩
  · rw [hone]
    exact Nat.le_add_left 1 48
  · have h := doubling_windows hmax
    rw [Nat.min_eq_left hlt.le] at h
    exact h.length_le hmax (Nat.le_refl _)

/-! ## The search -/

section Search

variable {σ : Type} {store : Store σ} {l : Locator} {data : Bytes} {ok : σ → Prop}

/-- What the window of a length on the end of `data` answers. -/
def answer (data : Bytes) (window : Nat) : Except ArchiveError TailScan :=
  scanTail (data.drop (data.length - window)) (data.length - window)

/-- What the search does after a window that answered so. -/
def goOn (store : Store σ) (l : Locator) (objectSize : Nat) (tail : Bytes) (rest : List Nat) :
    Except ArchiveError TailScan → Attempt σ TreeError EndRecord
  | .error e => Attempt.fail (.archive e)
  | .ok (.directory r) => pure r
  | .ok (.zip64 r offset) => do
    let record ← zip64Record store l objectSize tail offset
    (Attempt.ofExcept (resolveZip64 r record offset)).mapError .archive
  | .ok .notFound => searchTail store l objectSize rest

/-- One window after the other: fetch it, and go on by its answer. -/
theorem run_searchTail_cons (h : store.ServesSuffixes l data ok) {s : σ} (hs : ok s)
    (window : Nat) (rest : List Nat) :
    ∃ s', (store.readRange l (.suffix window)).run s =
        (.ok (data.drop (data.length - window)), s') ∧ ok s' ∧
      (searchTail store l data.length (window :: rest)).run s =
        (goOn store l data.length (data.drop (data.length - window)) rest
          (answer data window)).run s' := by
  obtain ⟨s', hread, hs'⟩ := h.run_readRange hs window
  refine ⟨s', hread, hs', ?_⟩
  have hoffset : data.length - (data.drop (data.length - window)).length =
      data.length - window := by
    rw [List.length_drop]
    omega
  rw [searchTail, Attempt.run_bind, Attempt.run_mapError, hread]
  show (Attempt.mapError _ (Attempt.ofExcept (scanTail _ _)) >>= _).run s' = _
  rw [hoffset, ← answer, Attempt.run_bind]
  cases answer data window with
  | error e => rfl
  | ok scan => cases scan <;> rfl

theorem zip64Record_ne_noEndRecord (store : Store σ) (l : Locator) (objectSize : Nat)
    (tail : Bytes) (offset : Nat) (s : σ) :
    ((zip64Record store l objectSize tail offset).run s).1 ≠
      .error (.archive (.malformed .noEndRecord)) := by
  rw [zip64Record]
  split_ifs
  · simp [Attempt.run_pure]
  · rw [Attempt.run_mapError]
    cases ((store.readRange l (.ofSpan offset Zip64EndRecord.fixedLen)).run s).1 <;> simp

/-- After an answer the search does not say that there is no record. -/
theorem goOn_ne_noEndRecord (store : Store σ) (l : Locator) (objectSize : Nat) (tail : Bytes)
    (rest : List Nat) {a : Except ArchiveError TailScan} (hfound : a ≠ .ok .notFound)
    (hne : a ≠ .error (.malformed .noEndRecord)) (s : σ) :
    ((goOn store l objectSize tail rest a).run s).1 ≠
      .error (.archive (.malformed .noEndRecord)) := by
  cases a with
  | error e =>
      intro he
      obtain rfl := TreeError.archive.inj (Except.error.inj he)
      exact hne rfl
  | ok scan =>
      cases scan with
      | directory r => simp [goOn, Attempt.run_pure]
      | notFound => exact absurd rfl hfound
      | zip64 r offset =>
          refine Attempt.fst_run_bind_ne_error
            (zip64Record_ne_noEndRecord store l _ tail offset s) fun record s' => ?_
          have hresolve := resolveZip64_ne_noEndRecord r record offset
          show (resolveZip64 r record offset).mapError TreeError.archive ≠ _
          cases hr : resolveZip64 r record offset with
          | ok widened => simp
          | error e =>
              rw [hr] at hresolve
              intro he
              obtain rfl := TreeError.archive.inj (Except.error.inj he)
              exact hresolve rfl

/-- The search says that there is no record if no window answers, and only then. -/
theorem searchTail_eq_noEndRecord_iff (h : store.ServesSuffixes l data ok) (ws : List Nat) :
    ∀ s, ok s → (((searchTail store l data.length ws).run s).1 =
        .error (.archive (.malformed .noEndRecord)) ↔
      ∀ w ∈ ws, answer data w = .ok .notFound) := by
  induction ws with
  | nil =>
      intro s _
      exact iff_of_true rfl fun w hw => absurd hw List.not_mem_nil
  | cons window rest ih =>
      intro s hs
      obtain ⟨s', -, hs', hrun⟩ := run_searchTail_cons h hs window rest
      rw [hrun, List.forall_mem_cons]
      by_cases hfound : answer data window = .ok .notFound
      · rw [hfound]
        exact (ih s' hs').trans (and_iff_right rfl).symm
      · have hne := goOn_ne_noEndRecord store l data.length (data.drop (data.length - window)) rest
          hfound (scanTail_ne_noEndRecord _ _) s'
        exact iff_of_false hne fun hall => hfound hall.1

/-- The windows that are looked at: none after the first that answers. -/
def lookedAt (data : Bytes) : List Nat → List Nat
  | [] => []
  | window :: rest =>
    match answer data window with
    | .ok .notFound => window :: lookedAt data rest
    | _ => [window]

theorem lookedAt_of_notFound {window : Nat} (h : answer data window = .ok .notFound)
    (rest : List Nat) : lookedAt data (window :: rest) = window :: lookedAt data rest := by
  simp only [lookedAt, h]

theorem lookedAt_of_found {window : Nat} (h : answer data window ≠ .ok .notFound)
    (rest : List Nat) : lookedAt data (window :: rest) = [window] := by
  rw [lookedAt]
  split
  · next heq => exact absurd heq h
  · rfl

theorem lookedAt_sublist (data : Bytes) (ws : List Nat) : (lookedAt data ws).Sublist ws := by
  induction ws with
  | nil => exact .slnil
  | cons window rest ih =>
      by_cases h : answer data window = .ok .notFound
      · rw [lookedAt_of_notFound h]
        exact ih.cons_cons window
      · rw [lookedAt_of_found h]
        exact (List.nil_sublist rest).cons_cons window

/-- At most one request, for a 64-bit record. -/
def OfRecord (requests : List Store.Request) : Prop :=
  requests = [] ∨ ∃ offset, requests = [.download (.ofSpan offset Zip64EndRecord.fixedLen)]

theorem OfRecord.length_le {requests : List Store.Request} (h : OfRecord requests) :
    requests.length ≤ 1 := by
  rcases h with rfl | ⟨offset, rfl⟩ <;> simp

theorem OfRecord.suffix_not_mem {requests : List Store.Request} (h : OfRecord requests)
    (len : Nat) : Store.Request.download (.suffix len) ∉ requests := by
  rcases h with rfl | ⟨offset, rfl⟩ <;> simp [ByteRange.ofSpan]

/-- What is made of a 64-bit record asks for nothing. -/
theorem snd_run_goOn_zip64 (store : Store σ) (l : Locator) (objectSize : Nat) (tail : Bytes)
    (rest : List Nat) (r : EndRecord) (offset : Nat) (s : σ) :
    ((goOn store l objectSize tail rest (.ok (.zip64 r offset))).run s).2 =
      ((zip64Record store l objectSize tail offset).run s).2 := by
  rw [goOn, Attempt.run_bind]
  cases ((zip64Record store l objectSize tail offset).run s).1 <;> rfl

/-- A 64-bit record is asked for unless the window shows it. -/
theorem notes_zip64Record (store : Store σ) (l : Locator) (objectSize : Nat) (tail : Bytes)
    (offset : Nat) (w : σ × List Store.Request) :
    ((zip64Record store.noting l objectSize tail offset).run w).2.2 =
      if objectSize - tail.length ≤ offset ∧ addSat offset Zip64EndRecord.fixedLen ≤ objectSize
      then w.2 else .download (.ofSpan offset Zip64EndRecord.fixedLen) :: w.2 := by
  rw [zip64Record]
  split_ifs
  · rfl
  · rw [Attempt.run_mapError]
    exact Store.notes_readRange store l _ w

/-- After an answer there is no request but one for a 64-bit record. -/
theorem notes_goOn (store : Store σ) (l : Locator) (objectSize : Nat) (tail : Bytes)
    (rest : List Nat) {a : Except ArchiveError TailScan} (hfound : a ≠ .ok .notFound)
    (w : σ × List Store.Request) :
    ∃ record, OfRecord record ∧
      ((goOn store.noting l objectSize tail rest a).run w).2.2 = record ++ w.2 := by
  cases a with
  | error e => exact ⟨[], .inl rfl, rfl⟩
  | ok scan =>
      cases scan with
      | directory r => exact ⟨[], .inl rfl, rfl⟩
      | notFound => exact absurd rfl hfound
      | zip64 r offset =>
          rw [snd_run_goOn_zip64, notes_zip64Record]
          split_ifs
          · exact ⟨[], .inl rfl, rfl⟩
          · exact ⟨_, .inr ⟨offset, rfl⟩, rfl⟩

/-- What the search asks for: the windows up to the first that answers, and perhaps a 64-bit
record. -/
theorem notes_searchTail (h : store.ServesSuffixes l data ok) (ws : List Nat) :
    ∀ w, ok w.1 → ∃ record, OfRecord record ∧
      ((searchTail store.noting l data.length ws).run w).2.2 =
        record ++ ((lookedAt data ws).map fun len => .download (.suffix len)).reverse ++ w.2 := by
  induction ws with
  | nil =>
      intro w _
      exact ⟨[], .inl rfl, rfl⟩
  | cons window rest ih =>
      intro w hw
      obtain ⟨w', hread, hw', hrun⟩ := run_searchTail_cons h.noting hw window rest
      have hnotes : w'.2 = .download (.suffix window) :: w.2 := by
        rw [← Store.notes_readRange store l (.suffix window) w, hread]
      rw [hrun]
      by_cases hfound : answer data window = .ok .notFound
      · obtain ⟨record, hrecord, hrest⟩ := ih w' hw'
        refine ⟨record, hrecord, ?_⟩
        rw [hfound, goOn, hrest, hnotes, lookedAt_of_notFound hfound]
        simp
      · obtain ⟨record, hrecord, hrest⟩ := notes_goOn store l data.length
          (data.drop (data.length - window)) rest hfound w'
        refine ⟨record, hrecord, ?_⟩
        rw [hrest, hnotes, lookedAt_of_found hfound]
        simp

/-- Where there is an end record, the search looks at one window or at two, and one of them
answers. -/
theorem lookedAt_windows {pos : Nat} (hmax : data.length ≤ maxWord)
    (h : EndRecord.StandsAt data pos) :
    let looked := lookedAt data (windows data.length)
    looked.length ≤ 2 ∧
      (∀ w ∈ looked, w = min initialTailLen data.length ∨ w = min ampleTailLen data.length) ∧
      ∃ w ∈ looked, answer data w ≠ .ok .notFound := by
  intro looked
  have hample : answer data (min ampleTailLen data.length) ≠ .ok .notFound :=
    scanTail_drop_ne_notFound h
  rcases windows_cases hmax with ⟨hone, hle⟩ | ⟨rest, hmore, hlt⟩
  · have hwhole : min initialTailLen data.length = data.length := Nat.min_eq_right hle
    have hsecond : min ampleTailLen data.length = data.length :=
      Nat.min_eq_right (hle.trans (Nat.le_mul_of_pos_left _ (by decide)))
    rw [hsecond] at hample
    have hlooked : looked = [data.length] := by
      rw [← lookedAt_of_found hample [], ← hone]
    rw [hlooked, hwhole]
    exact ⟨by simp, by simp, _, .head _, hample⟩
  · have hfirst : min initialTailLen data.length = initialTailLen := Nat.min_eq_left hlt.le
    rw [hfirst]
    by_cases hfound : answer data initialTailLen = .ok .notFound
    · have hlooked : looked = [initialTailLen, min ampleTailLen data.length] := by
        rw [← lookedAt_of_found hample rest, ← lookedAt_of_notFound hfound, ← hmore]
      rw [hlooked]
      exact ⟨by simp, by simp, _, .tail _ (.head _), hample⟩
    · have hlooked : looked = [initialTailLen] := by
        rw [← lookedAt_of_found hfound (min ampleTailLen data.length :: rest), ← hmore]
      rw [hlooked]
      exact ⟨by simp, by simp, _, .head _, hfound⟩

/-- The search is complete and its cost is bounded.  Its windows are those of a loop that doubles
a first one of 64 KiB until it shows the whole object, at most 49 of them.  It says that there is
no end record if and only if none stands anywhere in the object.  If one does, no window is
longer than 128 KiB, and one of 64 KiB or of 128 KiB answers. -/
theorem locateDirectory_complete (h : store.ServesSuffixes l data ok)
    (hsize : EndRecord.fixedLen ≤ data.length) (hmax : data.length ≤ maxWord) {s : σ} (hs : ok s) :
    let notes := ((locateDirectory store.noting l data.length).run (s, [])).2.2
    (Doubling data.length (min initialTailLen data.length) (windows data.length) ∧
        (windows data.length).length ≤ 49 ∧ notes.length ≤ 50) ∧
      (((locateDirectory store l data.length).run s).1 =
          .error (.archive (.malformed .noEndRecord)) ↔
        ∀ pos, ¬ EndRecord.StandsAt data pos) ∧
      ∀ pos, EndRecord.StandsAt data pos →
        (∀ len, .download (.suffix len) ∈ notes → len ≤ 131072 ∧ len ≤ data.length) ∧
          notes.length ≤ 3 ∧
          ∃ w, (w = min 65536 data.length ∨ w = min 131072 data.length) ∧
            .download (.suffix w) ∈ notes ∧ answer data w ≠ .ok .notFound := by
  have hloop : ∀ {τ : Type} (st : Store τ), locateDirectory st l data.length =
      searchTail st l data.length (windows data.length) :=
    fun st => if_neg (Nat.not_lt.2 hsize)
  intro notes
  have hcount := length_windows_le hmax
  obtain ⟨record, hrecord, hrun⟩ := notes_searchTail h (windows data.length) (s, []) hs
  have hnotes : notes = record ++
      ((lookedAt data (windows data.length)).map fun len => .download (.suffix len)).reverse := by
    rw [← List.append_nil (record ++ _), ← hrun, ← hloop]
  have hone := hrecord.length_le
  have hmem : ∀ len, Store.Request.download (.suffix len) ∈ notes ↔
      len ∈ lookedAt data (windows data.length) := by
    intro len
    rw [hnotes, List.mem_append, List.mem_reverse, List.mem_map]
    simp [hrecord.suffix_not_mem len]
  have hlen : notes.length ≤ (lookedAt data (windows data.length)).length + 1 := by
    rw [hnotes, List.length_append, List.length_reverse, List.length_map]
    omega
  refine ⟨⟨doubling_windows hmax, hcount, ?_⟩, ?_, ?_⟩
  · have hlooked := (lookedAt_sublist data (windows data.length)).length_le
    omega
  · rw [hloop, searchTail_eq_noEndRecord_iff h _ s hs]
    constructor
    · intro hall pos hpos
      obtain ⟨-, -, w, hw, hanswer⟩ := lookedAt_windows hmax hpos
      exact hanswer (hall w ((lookedAt_sublist data _).subset hw))
    · intro hnone w _
      exact scanTail_drop_eq_notFound hnone (Nat.sub_le _ _) _
  · intro pos hpos
    obtain ⟨hshort, hof, w, hw, hanswer⟩ := lookedAt_windows hmax hpos
    refine ⟨?_, by omega, w, hof w hw, (hmem w).2 hw, hanswer⟩
    intro len hlen
    rcases hof len ((hmem len).1 hlen) with rfl | rfl <;>
      simp only [initialTailLen, ampleTailLen] <;> omega

end Search

namespace Commented

/-- The end record of an archive without files, with a comment of 65535 bytes. -/
def object : Bytes :=
  Bytes.numbers [(4, EndRecord.signature), (16, 0), (2, 65535)] ++ List.replicate 65535 33

/-- Where it is served. -/
def locator : Locator := ⟨"mem", some { host := "bucket" }, ["commented.zip"], none, none⟩

theorem length_object : object.length = 65557 := by
  rw [object, List.length_append, List.length_replicate]
  rfl

theorem standsAt_object : EndRecord.StandsAt object 0 := by
  refine ⟨?_, ?_⟩
  · rw [object, Bytes.field_append_of_le _ (by decide)]
    decide
  · rw [length_object, object, Bytes.field_append_of_le _ (by decide)]
    decide

/-- The window of 64 KiB begins within the record, and shows its comment only. -/
theorem answer_object : answer object 65536 = .ok .notFound := by
  have hnone : EndRecord.find (object.drop 21) = none := by
    refine EndRecord.find_eq_none fun q hq => ?_
    have hmem := List.mem_of_getElem? hq.getElem?_eq
    rw [object, List.drop_append_of_le_length (by decide), List.mem_append, List.mem_replicate]
      at hmem
    rcases hmem with hfixed | ⟨-, hcomment⟩
    · exact absurd hfixed (by decide)
    · exact absurd hcomment (by decide)
  have hbegin : object.length - 65536 = 21 := by rw [length_object]
  rw [answer, hbegin, scanTail, hnone]

/-- The end record is found in the window after the first one, which is the whole object. -/
theorem object_located :
    let notes := ((locateDirectory (Store.holding object).noting locator object.length).run
      ((), [])).2.2
    EndRecord.fixedLen ≤ object.length ∧ object.length ≤ maxWord ∧
      EndRecord.StandsAt object 0 ∧ answer object 65536 = .ok .notFound ∧
      ((locateDirectory (.holding object) locator object.length).run ()).1 ≠
        .error (.archive (.malformed .noEndRecord)) ∧
      .download (.suffix 65557) ∈ notes ∧ answer object 65557 ≠ .ok .notFound ∧
      ∀ len, .download (.suffix len) ∈ notes → len ≤ object.length := by
  intro notes
  have hmin : EndRecord.fixedLen ≤ object.length := by
    rw [length_object]
    decide
  have hmax : object.length ≤ maxWord := by
    rw [length_object]
    decide
  obtain ⟨-, hiff, hcost⟩ := locateDirectory_complete
    (Store.holding_serves object locator).suffixes (s := ()) hmin hmax trivial
  obtain ⟨hle, -, w, hw, hasked, hanswer⟩ := hcost 0 standsAt_object
  -- the first window does not answer, so that it is the second one that does
  obtain rfl : w = 65557 := by
    rw [length_object] at hw
    rcases hw with rfl | rfl
    · exact absurd answer_object hanswer
    · rfl
  exact ⟨hmin, hmax, standsAt_object, answer_object, fun hnone => hiff.1 hnone 0 standsAt_object,
    hasked, hanswer, fun len hlen => (hle len hlen).2⟩

end Commented

end Tree

end ArchiveMount
