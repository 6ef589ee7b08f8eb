/-
# `ArchiveMount.Proofs.Tree.Checked` — indexing and opening in machine words

The steps of indexing and opening that compute positions, written with words and slices
that may trap.  Over a store that serves an object of fewer than `2 ^ 64 - 131101` bytes
they never do: the checked steps do what the steps do, from every state of the store and
with every cache (`same_build`, `same_openPath`).  What remains are the readers of single
records, which look for the end of what they read before each part, and the decoder, which
counts its output.
-/
import ArchiveMount.Proofs.Archive.Checked
import ArchiveMount.Proofs.Tree.Located
import ArchiveMount.Proofs.Tree.Opening

namespace ArchiveMount

/-! ## Attempts that may trap -/

namespace Attempt

variable {σ ε α : Type}

/-- Work on words, which may trap. -/
def trapping (r : Except Trap α) : Attempt σ (Stop ε) α := (ofExcept r).mapError .trap

/-- Work that does not trap. -/
def reporting (x : Attempt σ ε α) : Attempt σ (Stop ε) α := x.mapError .error

theorem trapping_ok (a : α) : (trapping (.ok a) : Attempt σ (Stop ε) α) = pure a := rfl

theorem reporting_bind {β : Type} (x : Attempt σ ε α) (f : α → Attempt σ ε β) :
    (x >>= f).reporting = x.reporting >>= fun a => (f a).reporting := mapError_bind _ x f

theorem run_reporting (x : Attempt σ ε α) (s : σ) :
    x.reporting.run s = ((x.run s).1.mapError .error, (x.run s).2) := rfl

theorem reporting_ofExcept_ok (a : α) :
    (ofExcept (.ok a) : Attempt σ ε α).reporting = pure a := rfl

theorem run_reporting_eq_ok {x : Attempt σ ε α} {s : σ} {a : α}
    (h : (x.reporting.run s).1 = .ok a) : (x.run s).1 = .ok a :=
  mapError_eq_ok_iff.1 h

/-- What succeeds hands on, whatever would have become of its errors. -/
theorem reporting_bind_ok {ε' β : Type} {x : Attempt σ ε' α} {s s' : σ} {a : α}
    (h : x.run s = (.ok a, s')) (g : ε' → ε) (f : α → Attempt σ (Stop ε) β) :
    ((x.mapError g).reporting >>= f).run s = (f a).run s' := by
  refine bind_ok ?_ f
  rw [run_reporting, run_mapError, h]
  rfl

end Attempt

namespace Cache

variable {σ ε : Type} {ok : σ → Prop} {x y : Attempt σ ε Bytes}

/-- Only what the state gives to those who produce matters. -/
theorem run_fill_congr {s : σ} (h : x.run s = y.run s) (k : CacheKey) (c : Cache) :
    (fill k x).run (s, c) = (fill k y).run (s, c) := by
  cases hc : c.get? k with
  | some data => rw [run_fill_of_some hc, run_fill_of_some hc]
  | none =>
      cases hy : y.run s with
      | mk r s' =>
          rw [hy] at h
          cases r with
          | ok data => rw [run_fill_of_ok hc h, run_fill_of_ok hc hy]
          | error e => rw [run_fill_of_error hc h, run_fill_of_error hc hy]

theorem same_fill (h : Attempt.Same ok x y) (k : CacheKey) :
    Attempt.Same (fun w : σ × Cache => ok w.1) (fill k x) (fill k y) :=
  fun w hw => run_fill_congr (h w.1 hw) k w.2

theorem fill_reporting (k : CacheKey) (x : Attempt σ ε Bytes) :
    fill k x.reporting = (fill k x).reporting := by
  funext ⟨s, c⟩
  show (fill k x.reporting).run (s, c) = (fill k x).reporting.run (s, c)
  rw [Attempt.run_reporting]
  cases hc : c.get? k with
  | some data =>
      rw [run_fill_of_some hc, run_fill_of_some hc]
      rfl
  | none =>
      cases hx : x.run s with
      | mk r s' =>
          have hx' := Attempt.run_reporting x s
          rw [hx] at hx'
          cases r with
          | ok data =>
              rw [run_fill_of_ok hc hx, run_fill_of_ok hc hx']
              rfl
          | error e =>
              rw [run_fill_of_error hc hx, run_fill_of_error hc hx']
              rfl

end Cache

namespace Tree

variable {σ : Type}

/-! ## Indexing -/

/-- The 64-bit record at `offset`. -/
def zip64RecordChecked (store : Store σ) (l : Locator) (objectSize : Nat) (tail : Bytes)
    (tailOffset offset : Nat) : Attempt σ (Stop TreeError) Bytes :=
  if tailOffset ≤ offset ∧ addSat offset Zip64EndRecord.fixedLen ≤ objectSize then do
    let start ← .trapping (Word.sub offset tailOffset)
    let stop ← .trapping (Word.add start Zip64EndRecord.fixedLen)
    .trapping (tail.between start stop)
  else ((store.readRange l (.ofSpan offset Zip64EndRecord.fixedLen)).mapError .object).reporting

/-- Look for the end record in one window after the other. -/
def searchTailChecked (store : Store σ) (l : Locator) (objectSize : Nat) :
    (windows : List Nat) → Attempt σ (Stop TreeError) EndRecord
  | [] => .fail (.error (.archive (.malformed .noEndRecord)))
  | window :: rest => do
    let tail ← ((store.readRange l (.suffix window)).mapError .object).reporting
    let tailOffset ← .trapping (Word.sub objectSize tail.length)
    match ← (Attempt.ofExcept (scanTailChecked tail tailOffset)).mapError (Stop.map .archive) with
    | .directory r => return r
    | .zip64 r offset =>
      let record ← zip64RecordChecked store l objectSize tail tailOffset offset
      ((Attempt.ofExcept (resolveZip64 r record offset)).mapError .archive).reporting
    | .notFound => searchTailChecked store l objectSize rest

/-- Find the end record of an object. -/
def locateDirectoryChecked (store : Store σ) (l : Locator) (objectSize : Nat) :
    Attempt σ (Stop TreeError) EndRecord :=
  if objectSize < EndRecord.fixedLen then
    .fail (.error (.archive (.malformed (.objectTooSmall objectSize))))
  else searchTailChecked store l objectSize (windows objectSize)

/-- Fetch the directory, through the cache. -/
def readDirectoryChecked (store : Store σ) (l : Locator) (objectSize : Nat) (r : EndRecord) :
    Attempt (σ × Cache) (Stop TreeError) Bytes :=
  let start := r.directoryOffset
  if r.directorySize = 0 then pure []
  else do
    let stop ← .trapping (Word.add start r.directorySize)
    if objectSize < stop then .fail (.error (.archive (.malformed .directoryOutside)))
    else
      Cache.fill (.range l.render objectSize start stop) do
        let len ← .trapping (Word.sub stop start)
        ((store.readRange l (.ofSpan start len)).mapError .object).reporting

/-- Index the archive at a locator. -/
def buildChecked (store : Store σ) (l : Locator) : Attempt (σ × Cache) (Stop TreeError) Tree := do
  let objectSize ← (onStore ((store.sizeOf l).mapError .object)).reporting
  let r ← onStore (locateDirectoryChecked store l objectSize)
  let directory ← readDirectoryChecked store l objectSize r
  (Attempt.ofExcept (indexed l objectSize r directory)).reporting

/-! ## Opening -/

/-- Fetch and decode a file. -/
def fetchChecked (store : Store σ) (t : Tree) (e : TreeEntry) :
    Attempt σ (Stop TreeError) Bytes := do
  let range := ByteRange.ofSpan e.headerOffset LocalHeader.fixedLen
  let raw ← ((store.readRange t.locator range).mapError .object).reporting
  let header ← ((Attempt.ofExcept (LocalHeader.parse raw)).mapError .archive).reporting
  let start ← .trapping (header.dataOffsetChecked e.headerOffset)
  if t.objectSize < addSat start e.compressedSize then
    .fail (.error (.archive (.malformed (.payloadPastEnd e.path.render))))
  else do
    let d ← ((Attempt.ofExcept
      (PayloadDecoder.new e.compression e.size e.crc32)).mapError .archive).reporting
    (decodeFrom store t e start d).reporting

/-- The content of the file at a path. -/
def openPathChecked (store : Store σ) (t : Tree) (path : TreePath) :
    Attempt (σ × Cache) (Stop TreeError) Bytes := do
  let e ← (Attempt.ofExcept (t.entryAt path)).reporting
  (Attempt.ofExcept (checkReadable e)).reporting
  let data ← Cache.fill (t.cacheKey e) (t.fetchChecked store e)
  if data.length ≠ e.size then
    .fail (.error (.archive (.lengthMismatch e.size data.length)))
  else return data

/-- The content of the file a text names. -/
def openChecked (store : Store σ) (t : Tree) (text : String) :
    Attempt (σ × Cache) (Stop TreeError) Bytes :=
  t.openPathChecked store (TreePath.ofText text)

/-! ## The checked steps do what the steps do -/

variable {store : Store σ} {l : Locator} {data : Bytes} {ok : σ → Prop} {t : Tree} {e : TreeEntry}

/-- An object that ends well below the greatest word: two lengths of 16 bits and a header
can be added to any position in it. -/
def Roomy (data : Bytes) : Prop := data.length + 131101 < 0x10000000000000000

theorem Roomy.le (h : Roomy data) : data.length + 131101 ≤ maxWord := by
  simp only [Roomy] at h
  simp only [maxWord]
  omega

/-- Where the sum does not reach past the object it was not cut off. -/
theorem add_le_of_addSat_le {a b n : Nat} (h : addSat a b ≤ n) (hn : n < maxWord) : a + b ≤ n := by
  simp only [addSat] at h
  omega

theorem same_zip64Record {tail : Bytes} {off offset : Nat} (hoff : off ≤ data.length)
    (htail : tail = data.drop off) (hroom : Roomy data) :
    Attempt.Same ok (zip64RecordChecked store l data.length tail off offset)
      (zip64Record store l data.length tail offset).reporting := by
  have hmax := hroom.le
  have hlen : tail.length = data.length - off := by rw [htail, List.length_drop]
  have hback : data.length - tail.length = off := by omega
  simp only [zip64RecordChecked, zip64Record, hback]
  split_ifs with hin
  · obtain ⟨hle, hfits⟩ := hin
    have hstop := add_le_of_addSat_le hfits (by omega)
    have hinside : offset - off + Zip64EndRecord.fixedLen ≤ tail.length := by omega
    rw [Word.sub_eq hle, Attempt.trapping_ok, pure_bind, Word.add_eq (by omega),
      Attempt.trapping_ok, pure_bind, Bytes.between_eq hinside]
    exact .rfl
  · exact .rfl

theorem keeps_zip64Record (hserves : store.Serves l data ok) (size : Nat) (tail : Bytes)
    (offset : Nat) : Attempt.Keeps ok (zip64Record store l size tail offset) :=
  fun s hs => (agree_zip64Record hserves size tail offset s () hs).2

theorem keeps_locateDirectory (hserves : store.Serves l data ok) (size : Nat) :
    Attempt.Keeps ok (locateDirectory store l size) :=
  fun s hs => (agree_locateDirectory hserves size s () hs).2

/-- Checked steps without a state of their own. -/
theorem ofExcept_reporting {α : Type} {r : Except (Stop ArchiveError) α}
    {r' : Except ArchiveError α} (h : r = r'.mapError .error) :
    ((Attempt.ofExcept r).mapError (Stop.map TreeError.archive) : Attempt σ _ α) =
      ((Attempt.ofExcept r').mapError .archive).reporting := by
  subst h
  cases r' <;> rfl

theorem same_searchTail (hserves : store.Serves l data ok) (hroom : Roomy data) (ws : List Nat) :
    Attempt.Same ok (searchTailChecked store l data.length ws)
      (searchTail store l data.length ws).reporting := by
  have hmax := hroom.le
  induction ws with
  | nil => exact .rfl
  | cons w ws ih =>
      rw [searchTail, Attempt.reporting_bind, searchTailChecked]
      refine .bind .rfl (hserves.keeps_readRange _) fun s tail hs htail => ?_
      have hoff : data.length - w ≤ data.length := Nat.sub_le _ _
      obtain rfl : data.drop (data.length - w) = tail := by
        rw [Attempt.reporting, Attempt.run_mapError, Attempt.run_mapError,
          run_window hserves w hs] at htail
        exact Except.ok.inj htail
      have hback : data.length - (data.drop (data.length - w)).length = data.length - w := by
        rw [List.length_drop]
        omega
      have hend : data.length - w + (data.drop (data.length - w)).length +
          EndRecord.maxCommentLen ≤ maxWord := by
        rw [List.length_drop]
        simp only [EndRecord.maxCommentLen]
        omega
      have hscan := scanTailChecked_eq hend
      rw [Word.sub_eq (by rw [List.length_drop]; omega), Attempt.trapping_ok, pure_bind, hback,
        Attempt.reporting_bind, ofExcept_reporting hscan]
      refine .bind .rfl (.ofExcept _) fun s scan hs _ => ?_
      cases scan with
      | directory r => exact .rfl
      | zip64 r offset =>
          rw [Attempt.reporting_bind]
          exact .bind (same_zip64Record hoff rfl hroom) (keeps_zip64Record hserves _ _ _)
            fun s record hs _ => .rfl
      | notFound => exact ih

theorem same_locateDirectory (hserves : store.Serves l data ok) (hroom : Roomy data) :
    Attempt.Same ok (locateDirectoryChecked store l data.length)
      (locateDirectory store l data.length).reporting := by
  simp only [locateDirectoryChecked, locateDirectory]
  split_ifs
  · exact .rfl
  · exact same_searchTail hserves hroom _

theorem same_onStore {ε α : Type} {x y : Attempt σ ε α} (h : Attempt.Same ok x y) :
    Attempt.Same (fun w : σ × Cache => ok w.1) (onStore x) (onStore y) := by
  rintro ⟨s, c⟩ hs
  have hrun := h s hs
  simp only [Attempt.run] at hrun
  simp only [Attempt.run, onStore, Attempt.zoom, hrun]

theorem keeps_onStore {ε α : Type} {x : Attempt σ ε α} (h : Attempt.Keeps ok x) :
    Attempt.Keeps (fun w : σ × Cache => ok w.1) (onStore x) :=
  fun w hw => h w.1 hw

/-- Where a directory that ends within 64 bits is read, nothing traps. -/
theorem readDirectoryChecked_eq {r : EndRecord} (size : Nat)
    (hr : r.directoryOffset + r.directorySize ≤ maxWord) :
    readDirectoryChecked store l size r = (readDirectory store l size r).reporting := by
  by_cases h₀ : r.directorySize = 0
  · rw [readDirectory_of_eq_zero h₀]
    exact if_pos h₀
  · simp only [readDirectoryChecked]
    rw [if_neg h₀, Word.add_eq hr, Attempt.trapping_ok, pure_bind]
    split_ifs with hout
    · rw [readDirectory_of_lt h₀ hout]
      rfl
    · rw [readDirectory_of_le h₀ (Nat.le_of_not_lt hout), ← Cache.fill_reporting,
        Word.sub_eq (Nat.le_add_right _ _), Attempt.trapping_ok, pure_bind,
        Nat.add_sub_cancel_left]
      rfl

theorem same_build (hserves : store.Serves l data ok) (hroom : Roomy data) :
    Attempt.Same (fun w : σ × Cache => ok w.1) (buildChecked store l)
      (build store l).reporting := by
  have hmax := hroom.le
  have hbuild : build store l = (onStore ((store.sizeOf l).mapError TreeError.object) >>=
      fun size => onStore (locateDirectory store l size) >>= fun r =>
        readDirectory store l size r >>= fun directory =>
          Attempt.ofExcept (indexed l size r directory)) := by
    simp only [build, ofExcept_indexed]
  rw [hbuild, Attempt.reporting_bind, buildChecked]
  refine .bind .rfl (keeps_onStore fun s hs => (hserves.size s hs).2) fun w size hw hsize => ?_
  obtain rfl : data.length = size := by
    have hsize : ((store.sizeOf l).run w.1).1 = .ok size :=
      Attempt.mapError_eq_ok_iff.1 (Attempt.run_reporting_eq_ok hsize)
    rw [(hserves.size w.1 hw).1] at hsize
    exact Except.ok.inj hsize
  rw [Attempt.reporting_bind]
  refine .bind (same_onStore (same_locateDirectory hserves hroom))
    (keeps_onStore (keeps_locateDirectory hserves _)) fun w r hw hr => ?_
  have hr : ((locateDirectory store l data.length).run w.1).1 = .ok r :=
    Attempt.run_reporting_eq_ok hr
  obtain ⟨pos, hread, hbounds⟩ := bounds_of_locateDirectory hserves
    (by simp only [Zip64EndRecord.fixedLen]; omega) hw hr
  have hlt := hread.lt_length
  rw [Attempt.reporting_bind, readDirectoryChecked_eq _ (by omega)]
  exact .rfl

/-! ## Opening without a trap -/

theorem same_fetch (hserves : store.Serves t.locator data ok) (hroom : Roomy data)
    (he : e.headerOffset + LocalHeader.fixedLen ≤ data.length) :
    Attempt.Same ok (t.fetchChecked store e) (t.fetch store e).reporting := by
  have hmax := hroom.le
  rw [fetch_eq, Attempt.reporting_bind, fetchChecked]
  refine .bind .rfl (hserves.keeps_readRange _) fun s raw hs _ => ?_
  rw [Attempt.reporting_bind]
  refine .bind .rfl (.ofExcept _) fun s header hs hheader => ?_
  have hparse : LocalHeader.parse raw = .ok header :=
    Attempt.mapError_eq_ok_iff.1 (Attempt.run_reporting_eq_ok hheader)
  obtain ⟨hname, hextra⟩ := LocalHeader.parse_bounds hparse
  rw [LocalHeader.dataOffsetChecked_eq hname hextra (by omega), Attempt.trapping_ok, pure_bind]
  split_ifs
  · exact .rfl
  · rw [Attempt.reporting_bind]
    exact .rfl

/-- If the request for the content does what it does unchecked, so does opening. -/
theorem run_openPathChecked_congr {p : TreePath} {w : σ × Cache}
    (h : ∀ e, t.entryAt p = .ok e → checkReadable e = .ok () →
      (Cache.fill (t.cacheKey e) (t.fetchChecked store e)).run w =
        (Cache.fill (t.cacheKey e) (t.fetch store e)).reporting.run w) :
    (t.openPathChecked store p).run w = (t.openPath store p).reporting.run w := by
  cases hentry : t.entryAt p with
  | error x =>
      rw [Attempt.run_reporting, run_openPath_of_entryAt_error hentry, openPathChecked, hentry]
      rfl
  | ok e =>
      rw [openPathChecked, hentry, Attempt.reporting_ofExcept_ok, pure_bind]
      cases hread : checkReadable e with
      | error x =>
          rw [Attempt.run_reporting, run_openPath_of_unreadable hentry hread]
          rfl
      | ok _ =>
          rw [Attempt.reporting_ofExcept_ok, pure_bind, Attempt.run_reporting,
            run_openPath_of_readable hentry hread, ← Attempt.run_reporting,
            Attempt.reporting_bind, Attempt.run_bind, Attempt.run_bind, h e hentry hread]
          split
          · split_ifs <;> rfl
          · rfl

theorem same_openPath (hserves : store.Serves t.locator data ok) (hroom : Roomy data)
    (ht : ∀ p e, t.find? p = some e → e.isDir = false →
      e.headerOffset + LocalHeader.fixedLen ≤ data.length) (p : TreePath) :
    Attempt.Same (fun w : σ × Cache => ok w.1) (t.openPathChecked store p)
      (t.openPath store p).reporting := by
  intro w hw
  refine run_openPathChecked_congr fun e hentry hread => ?_
  have hheader := ht p e (find?_of_entryAt hentry) (isDir_of_checkReadable hread)
  have hfetch : Attempt.Same ok (t.fetchChecked store e) (t.fetch store e).reporting :=
    same_fetch hserves hroom hheader
  rw [← Cache.fill_reporting]
  exact Cache.same_fill hfetch _ w hw

end Tree

end ArchiveMount
