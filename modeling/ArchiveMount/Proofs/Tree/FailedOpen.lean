/-
# `ArchiveMount.Proofs.Tree.FailedOpen` — an opening that fails changes nothing

Over a cache directory an opening may fail at the header, at the decoder, at any chunk, at
the end of the body, and wherever the disk refuses.  Whatever it is, what was to be written
is what would have been fetched (`writes_fetchInto`), so a call that fetches is an attempt
like any other, and what it gives or leaves depends on the records alone (`agree_openIn`).

A file that could be fetched has the length its entry declares.  So an opening that fails
has filed nothing (`cache_openUsing_of_error`), and from the folders that the program
reaches it leads to one that nothing can tell from the folder before
(`openIn_error_unchanged`).
-/
import ArchiveMount.Proofs.Cache.Folder
import ArchiveMount.Proofs.Tree.Persistence
import ArchiveMount.Tree.OnDisk

namespace ArchiveMount

open CacheFolder

namespace Tree

variable {σ γ δ : Type} {disk : Disk TreeError} {store : Store σ} {t : Tree}

/-! ## What is written into a temporary file -/

/-- The decoder takes in all chunks, unless the disk refuses what comes out. -/
theorem decodeInto_cases (disk : Disk TreeError) (d : PayloadDecoder) (chunks : List Bytes)
    (b : Bytes) :
    ∃ b', (∃ n e, disk.grow n = .error e ∧ (decodeInto disk d chunks).run b = (.error e, b')) ∨
      (decodeInto disk d chunks).run b = ((d.writeAll chunks).mapError .archive, b') := by
  induction chunks generalizing d b with
  | nil => exact ⟨b, .inr rfl⟩
  | cons chunk chunks ih =>
      rw [decodeInto, Attempt.run_bind, Attempt.run_mapError, Attempt.run_ofExcept,
        PayloadDecoder.writeAll, List.foldlM_cons]
      cases d.write chunk with
      | error e => exact ⟨b, .inr rfl⟩
      | ok d =>
          dsimp only [Attempt.mapError_ok]
          cases hgrow : disk.grow d.decoded.length with
          | error e =>
              refine ⟨b, .inl ⟨_, e, hgrow, ?_⟩⟩
              exact Attempt.bind_error (disk.run_write_of_error hgrow b) _
          | ok _ =>
              rw [Attempt.bind_ok (disk.run_write_of_ok hgrow b)]
              exact ih d d.decoded

theorem receive_cases (disk : Disk TreeError) (d : PayloadDecoder) (body : Body) (b : Bytes) :
    ∃ b', (∃ n e, disk.grow n = .error e ∧ (receive disk d body).run b = (.error e, b')) ∨
      (receive disk d body).run b = (decodeBody d body, b') := by
  obtain ⟨b', ⟨n, e, hgrow, hrun⟩ | hrun⟩ := decodeInto_cases disk d body.chunks b
  · exact ⟨b', .inl ⟨n, e, hgrow, Attempt.bind_error hrun _⟩⟩
  · refine ⟨b', .inr ?_⟩
    rw [receive, Attempt.run_bind, hrun, decodeBody]
    cases d.writeAll body.chunks with
    | error e => rfl
    | ok d => cases body.failure <;> rfl

/-- What the decoder gives in the end is written. -/
theorem writes_finish (disk : Disk TreeError) (d : PayloadDecoder) :
    Writes disk ((Attempt.ofExcept d.finish).mapError TreeError.archive >>= fun data =>
        (disk.write data).onSecond : Attempt (σ × Bytes) TreeError Unit)
      ((Attempt.ofExcept d.finish).mapError .archive) := by
  have h : Writes disk _ ((Attempt.ofExcept d.finish).mapError TreeError.archive >>= pure) :=
    .bind_ofExcept (σ := σ) fun data => .write data
  rwa [bind_pure] at h

theorem writes_receive (disk : Disk TreeError) (d : PayloadDecoder) (body : Body) :
    Writes disk ((receive disk d body).onSecond >>= fun d =>
        (Attempt.ofExcept d.finish).mapError TreeError.archive >>= fun data =>
          (disk.write data).onSecond : Attempt (σ × Bytes) TreeError Unit)
      (Attempt.ofExcept (decodeBody d body) >>= fun d =>
        (Attempt.ofExcept d.finish).mapError .archive) := by
  rintro ⟨s, b⟩
  rw [Attempt.run_bind, Attempt.run_bind, Attempt.run_onSecond, Attempt.run_ofExcept]
  obtain ⟨b', ⟨n, e, hgrow, hrun⟩ | hrun⟩ := receive_cases disk d body b <;> rw [hrun]
  · cases decodeBody d body <;> exact .refused hgrow s b' _
  · cases decodeBody d body with
    | ok d => exact writes_finish disk d (s, b')
    | error e => exact .failed e s b'

theorem writes_fetchInto (disk : Disk TreeError) (store : Store σ) (t : Tree) (e : TreeEntry) :
    Writes disk (t.fetchInto disk store e) (t.fetch store e) := by
  rw [fetch_eq]
  refine .bind fun raw => .bind_ofExcept fun header => ?_
  by_cases hpast : t.objectSize < addSat (header.dataOffset e.headerOffset) e.compressedSize
  · simp only [if_pos hpast]
    exact .fail _
  · simp only [if_neg hpast]
    refine .bind_ofExcept fun d => ?_
    simp only [decodeFrom]
    split_ifs
    · exact .bind fun body => writes_receive disk d body
    · exact writes_finish disk d

theorem writes_rangeInto (disk : Disk TreeError) (store : Store σ) (l : Locator)
    (range : ByteRange) :
    Writes disk (rangeInto disk store l range) ((store.readRange l range).mapError .object) := by
  have h : Writes disk (rangeInto disk store l range)
      ((store.readRange l range).mapError .object >>= pure) := .bind fun data => .write data
  rwa [bind_pure] at h

/-! ## Over a folder as over its records -/

section Using

variable {Q : γ → δ → Prop}

/-- Opening is the same wherever the content comes from the same. -/
theorem agree_openUsing {content : TreeEntry → Attempt (σ × γ) TreeError Bytes}
    {content' : TreeEntry → Attempt (σ × δ) TreeError Bytes}
    (h : ∀ e, Attempt.Agree (Attempt.Beside Q) (content e) (content' e)) (p : TreePath) :
    Attempt.Agree (Attempt.Beside Q) (t.openUsing content p) (t.openUsing content' p) := by
  refine .bind (.ofExcept _) fun e => .bind (.ofExcept _) fun _ => .bind (h e) fun data => ?_
  split_ifs
  · exact .fail _
  · exact .pure _

theorem agree_buildUsing {content : CacheKey → ByteRange → Attempt (σ × γ) TreeError Bytes}
    {content' : CacheKey → ByteRange → Attempt (σ × δ) TreeError Bytes}
    (h : ∀ k range, Attempt.Agree (Attempt.Beside Q) (content k range) (content' k range))
    (store : Store σ) (l : Locator) :
    Attempt.Agree (Attempt.Beside Q) (buildUsing content store l)
      (buildUsing content' store l) := by
  refine .bind (.onFirst Q _) fun size => .bind (.onFirst Q _) fun r => .bind ?_ fun directory => ?_
  · simp only [readDirectoryUsing]
    split_ifs
    · exact .pure _
    · exact .fail _
    · exact h _ _
  · refine .bind (.mapError (.ofExcept _) _) fun records => ?_
    exact .bind (.mapError (.ofExcept _) _) fun _ => .pure _

end Using

/-- Opening over a folder is opening over its records, with attempts that may also fail at
the disk. -/
theorem agree_openIn (disk : Disk TreeError) (store : Store σ) (t : Tree) (text : String)
    (f₀ : CacheFolder) :
    Attempt.Agree (Attempt.Beside (LeftWith f₀)) (t.openIn disk store text)
      (t.openUsing (fun e => Cache.fill (t.cacheKey e) (attempted disk (t.fetchInto disk store e)))
        (TreePath.ofText text)) :=
  agree_openUsing (fun e => agree_getOrFill disk (t.cacheKey e) (t.fetchInto disk store e) f₀) _

theorem agree_buildIn (disk : Disk TreeError) (store : Store σ) (l : Locator)
    (f₀ : CacheFolder) :
    Attempt.Agree (Attempt.Beside (LeftWith f₀)) (buildIn disk store l)
      (buildUsing (fun k range => Cache.fill k (attempted disk (rangeInto disk store l range)))
        store l) :=
  agree_buildUsing (fun k range => agree_getOrFill disk k (rangeInto disk store l range) f₀) store l

/-- On a disk that refuses nothing, opening over a folder is opening. -/
theorem agree_openIn_sound (store : Store σ) (t : Tree) (text : String) (f₀ : CacheFolder) :
    Attempt.Agree (Attempt.Beside (LeftWith f₀)) (t.openIn {} store text) (t.open_ store text) := by
  have h := agree_openIn {} store t text f₀
  simp only [(writes_fetchInto {} store t _).attempted_eq] at h
  rwa [← openPath_eq] at h

/-- On a disk that refuses nothing, indexing over a folder is indexing. -/
theorem agree_buildIn_sound (store : Store σ) (l : Locator) (f₀ : CacheFolder) :
    Attempt.Agree (Attempt.Beside (LeftWith f₀)) (buildIn {} store l) (build store l) := by
  have h := agree_buildIn {} store l f₀
  simp only [(writes_rangeInto {} store l _).attempted_eq] at h
  rwa [← build_eq_buildUsing] at h

/-! ## When opening fails -/

/-- The content that is kept for an entry decides, and then only its length. -/
theorem openUsing_cases (t : Tree) (content : TreeEntry → Attempt (σ × γ) TreeError Bytes)
    (p : TreePath) (w : σ × γ) :
    ((t.openUsing content p).run w).2 = w ∨
      ∃ e, ((t.openUsing content p).run w).2 = ((content e).run w).2 ∧
        ∀ data, ((content e).run w).1 = .ok data → data.length = e.size →
          ((t.openUsing content p).run w).1 = .ok data := by
  rw [openUsing, Attempt.run_bind, Attempt.run_liftM]
  cases t.entryAt p with
  | error x => exact .inl rfl
  | ok e =>
      dsimp only
      rw [Attempt.run_bind, Attempt.run_liftM]
      cases checkReadable e with
      | error x => exact .inl rfl
      | ok _ =>
          refine .inr ⟨e, ?_⟩
          dsimp only
          rw [Attempt.run_bind]
          cases hr : (content e).run w with
          | mk r w' =>
              cases r with
              | error x => exact ⟨rfl, fun _ hdata => nomatch hdata⟩
              | ok data =>
                  dsimp only
                  constructor
                  · split_ifs <;> rfl
                  · rintro _ ⟨⟩ hlen
                    rw [if_neg (not_not_intro hlen)]
                    rfl

/-- An opening that fails files nothing, for a file that could be fetched is as long as it
is declared. -/
theorem cache_openUsing_of_error {produce : TreeEntry → Attempt σ TreeError Bytes}
    (hp : ∀ e, Attempt.Gives (·.length = e.size) (produce e)) {p : TreePath} {s : σ} {c : Cache}
    {x : TreeError}
    (h : ((t.openUsing (fun e => Cache.fill (t.cacheKey e) (produce e)) p).run (s, c)).1 =
      .error x) :
    ((t.openUsing (fun e => Cache.fill (t.cacheKey e) (produce e)) p).run (s, c)).2.2 = c := by
  rcases openUsing_cases t (fun e => Cache.fill (t.cacheKey e) (produce e)) p (s, c) with
    heq | ⟨e, heq, hok⟩
  · rw [heq]
  · rw [heq]
    rcases Cache.fill_cases (t.cacheKey e) (produce e) s c with hsame | ⟨data, hget, hdata, -⟩
    · exact hsame
    · -- the file was fetched, so its content would have been given
      have hfill : (Cache.fill (t.cacheKey e) (produce e)).run (s, c) =
          (.ok data, ((produce e).run s).2, c.put (t.cacheKey e).digest data) :=
        Cache.run_fill_of_ok hget (Prod.ext hdata rfl)
      have hgiven := hok data (congrArg Prod.fst hfill) (hp e s data hdata)
      rw [h] at hgiven
      cases hgiven

end Tree

/-! ## Folders that are used -/

namespace CacheEvent

variable {σ : Type}

/-- The state and the folder after one event, on a disk of its own. -/
def afterIn (w : σ × CacheFolder) : Disk TreeError × CacheEvent σ → σ × CacheFolder
  | (disk, deed (.indexing store l)) => ((Tree.buildIn disk store l).run w).2
  | (disk, deed (.opening store t text)) => ((t.openIn disk store text).run w).2
  | (_, reopening) => (w.1, w.2.reopened)

/-- The state and the folder after events one after the other. -/
def afterAllIn (w : σ × CacheFolder) (events : List (Disk TreeError × CacheEvent σ)) :
    σ × CacheFolder :=
  events.foldl afterIn w

/-- Folders that are alike are so after any event. -/
theorem alike_afterIn {w v : σ × CacheFolder} (h : Attempt.Beside Alike w v)
    (x : Disk TreeError × CacheEvent σ) :
    Attempt.Beside Alike (afterIn w x) (afterIn v x) := by
  obtain ⟨disk, x⟩ := x
  cases x with
  | deed x =>
      cases x with
      | indexing store l => exact (agree_alike (Tree.agree_buildIn disk store l) w v h).2
      | opening store t text => exact (agree_alike (Tree.agree_openIn disk store t text) w v h).2
  | reopening =>
      obtain ⟨hs, hcache, hw, hv⟩ := h
      exact ⟨hs, hcache, hw.reopened, hv.reopened⟩

theorem alike_afterAllIn {w v : σ × CacheFolder} (h : Attempt.Beside Alike w v)
    (events : List (Disk TreeError × CacheEvent σ)) :
    Attempt.Beside Alike (afterAllIn w events) (afterAllIn v events) := by
  induction events generalizing w v with
  | nil => exact h
  | cons x events ih => exact ih (alike_afterIn h x)

end CacheEvent

namespace CacheFolder

/-- The folders that indexing and opening lead to, one after the other or side by side, over
any stores and disks, when none of them goes on. -/
inductive Reached : CacheFolder → Prop
  | empty : Reached {}
  | event {f : CacheFolder} (h : Reached f) {σ : Type} (s : σ)
      (x : Disk TreeError × CacheEvent σ) : Reached (CacheEvent.afterIn (s, f) x).2
  | flight {f : CacheFolder} (h : Reached f) {digest : String}
      {schedule : List (Nat × Move TreeError)} {last : Flight TreeError}
      (hrun : (f.flight digest).run? schedule = some last)
      (hover : ∀ i, last.callers i = .arriving ∨ ∃ result, last.callers i = .done result) :
      Reached (f.landed digest last)

theorem Reached.quiet {f : CacheFolder} (h : Reached f) : f.Quiet := by
  induction h with
  | empty => exact quiet_empty
  | @event f _ σ s x hf => exact (CacheEvent.alike_afterIn ⟨rfl, rfl, hf, hf⟩ x).2.2.1
  | flight _ hrun hover hf => exact quiet_landed hf hrun hover

/-- From one folder to another nothing changes that a call could see. -/
structure Unchanged (f g : CacheFolder) : Prop where
  records : g.cache = f.cache
  temporaries : g.temporaries = []
  /-- No lock is in the map that was not there before. -/
  locks : ∀ digest, g.inFlight digest = f.inFlight digest ∨ (g.inFlight digest).entry = none
  /-- Whatever happens then, an opening comes to the same. -/
  later : ∀ {σ : Type} (events : List (Disk TreeError × CacheEvent σ)) (disk : Disk TreeError)
    (store : Store σ) (t : Tree) (text : String) (s : σ),
    ((t.openIn disk store text).run (CacheEvent.afterAllIn (s, g) events)).1 =
      ((t.openIn disk store text).run (CacheEvent.afterAllIn (s, f) events)).1
  /-- On a disk that refuses nothing, it comes to what opening over the records comes to. -/
  sound : ∀ {σ : Type} (store : Store σ) (t : Tree) (text : String) (s : σ),
    ((t.openIn {} store text).run (s, g)).1 = ((t.open_ store text).run (s, f.cache)).1

end CacheFolder

namespace Tree

variable {σ : Type}

/-- An opening that fails changes nothing, whatever made it fail. -/
theorem openIn_error_unchanged {f : CacheFolder} (hf : Reached f) (disk : Disk TreeError)
    (store : Store σ) (t : Tree) (text : String) (s : σ) {e : TreeError}
    (he : ((t.openIn disk store text).run (s, f)).1 = .error e) :
    Unchanged f ((t.openIn disk store text).run (s, f)).2.2 := by
  obtain ⟨hr, -, hcache, hleft⟩ :=
    agree_openIn disk store t text f (s, f) (s, f.cache) ⟨rfl, rfl, hf.quiet.leftFrom⟩
  have hsame : ((t.openIn disk store text).run (s, f)).2.2.cache = f.cache := by
    refine hcache.trans (cache_openUsing_of_error ?_ (hr.symm.trans he))
    intro e
    refine (writes_fetchInto disk store t e).gives ?_
    intro s data hdata
    exact (gives_fetch store t e s data hdata).length_eq
  refine ⟨hsame, hleft.quiet.temporaries, hleft.locks, ?_, ?_⟩
  · intro τ events disk' store' t' text' s'
    have halike : Attempt.Beside Alike (s', ((t.openIn disk store text).run (s, f)).2.2)
        (s', f) := ⟨rfl, hsame, hleft.quiet, hf.quiet⟩
    have hevents := CacheEvent.alike_afterAllIn halike events
    exact (agree_alike (agree_openIn disk' store' t' text') _ _ hevents).1
  · intro τ store' t' text' s'
    have hleft' : LeftWith f ((t.openIn disk store text).run (s, f)).2.2 f.cache := ⟨hsame, hleft⟩
    exact (agree_openIn_sound store' t' text' f _ (s', f.cache) ⟨rfl, hleft'⟩).1

end Tree

/-! The byte of a file is another one while the file is opened. -/
namespace CacheFolder.Replaced

open Deed.Tampered

/-- The archive has been indexed. -/
def folder : CacheFolder :=
  (CacheEvent.afterIn ((), {}) ({}, .deed (.indexing (.holding archive.bytes) locator))).2

/-- The wrong byte is refused after it has been written into a temporary file. -/
theorem refused_unchanged :
    Reached folder ∧
      ((tree.openIn {} (.holding tampered) "a").run ((), folder)).1 =
        .error (.archive (.checksumMismatch (crc32 [7]) (crc32 [8]))) ∧
      Unchanged folder ((tree.openIn {} (.holding tampered) "a").run ((), folder)).2.2 := by
  have hfolder : Reached folder := .event .empty () _
  have hopen : ((tree.openIn {} (.holding tampered) "a").run ((), folder)).1 =
      .error (.archive (.checksumMismatch (crc32 [7]) (crc32 [8]))) := by
    decide +kernel
  refine ⟨hfolder, hopen, ?_⟩
  exact Tree.openIn_error_unchanged hfolder {} (.holding tampered) tree "a" () hopen

end CacheFolder.Replaced

end ArchiveMount
