/-
# `ArchiveMount.Proofs.Cache.Folder` — what a call leaves in a cache directory

A call that finds no record makes one attempt (`attempted`), with a lock in the map and a
temporary file on the disk.  When it has ended the file is gone and the lock is no longer
in the map (`run_getOrFillAt`).  So a folder that was `Quiet` is so again, and for what the
call gives and for the records it is `Cache.fill` over the attempt (`agree_getOrFill`).

The same holds of callers that come side by side, when all of them have gone
(`quiet_landed`).
-/
import ArchiveMount.Cache.Folder
import ArchiveMount.Proofs.Cache.FlightLog
import ArchiveMount.Proofs.Tree.Indexing

namespace ArchiveMount

theorem Disk.run_write_of_ok {ε : Type} (disk : Disk ε) {data : Bytes} {u : Unit}
    (h : disk.grow data.length = .ok u) (written : Bytes) :
    (disk.write data).run written = (.ok (), data) := by
  simp only [Attempt.run, write, h]

theorem Disk.run_write_of_error {ε : Type} (disk : Disk ε) {data : Bytes} {e : ε}
    (h : disk.grow data.length = .error e) (written : Bytes) :
    (disk.write data).run written = (.error e, written) := by
  simp only [Attempt.run, write, h]

namespace CacheFolder

variable {σ ε : Type} {f f' g : CacheFolder} {disk : Disk ε} {k : CacheKey}
  {produce : Attempt (σ × Bytes) ε Unit} {s s' : σ} {digest : String} {data : Bytes} {e : ε}

/-! ## Folders without calls -/

/-- No call goes on: there are no temporary files, and nobody refers to a lock.  A lock may
have been left behind in the map. -/
structure Quiet (f : CacheFolder) : Prop where
  temporaries : f.temporaries = []
  counts : ∀ digest, (f.inFlight digest).Counts fun _ => none

/-- What a call, or several, left of a folder. -/
structure LeftFrom (f g : CacheFolder) : Prop where
  quiet : g.Quiet
  /-- No lock is there that was not there before. -/
  locks : ∀ digest, g.inFlight digest = f.inFlight digest ∨ (g.inFlight digest).entry = none

theorem quiet_empty : Quiet {} where
  temporaries := rfl
  counts := fun _ => InFlight.counts_empty

theorem Quiet.reopened (hf : f.Quiet) : f.reopened.Quiet where
  temporaries := hf.temporaries
  counts := fun _ => InFlight.counts_empty

theorem Quiet.leftFrom (hf : f.Quiet) : LeftFrom f f := ⟨hf, fun _ => .inl rfl⟩

theorem LeftFrom.trans (hf : LeftFrom f f') (hg : LeftFrom f' g) : LeftFrom f g := by
  refine ⟨hg.quiet, ?_⟩
  intro digest
  rcases hg.locks digest with heq | hnone
  · rw [heq]
    exact hf.locks digest
  · exact .inr hnone

theorem LeftFrom.records (hg : LeftFrom f g) (c : Cache) : LeftFrom f { g with cache := c } :=
  ⟨⟨hg.quiet.temporaries, hg.quiet.counts⟩, hg.locks⟩

theorem inFlight_setInFlight_self (f : CacheFolder) (digest : String) (m : InFlight) :
    (f.setInFlight digest m).inFlight digest = m := if_pos rfl

theorem inFlight_setInFlight_of_ne {d : String} (f : CacheFolder) (m : InFlight)
    (hd : d ≠ digest) : (f.setInFlight digest m).inFlight d = f.inFlight d := if_neg hd

/-! ## One attempt -/

/-- What comes of an attempt to make a record. -/
def attempted (disk : Disk ε) (produce : Attempt (σ × Bytes) ε Unit) : Attempt σ ε Bytes :=
  fun s =>
    match disk.create with
    | .error e => (.error e, s)
    | .ok _ =>
      match produce.run (s, []) with
      | (.error e, s, _) => (.error e, s)
      | (.ok _, s, data) => (disk.place.map fun _ => data, s)

theorem run_attempted_of_ok {u : Unit} (h : disk.create = .ok u) (s : σ) :
    (attempted disk produce).run s =
      match produce.run (s, []) with
      | (.error e, s', _) => (.error e, s')
      | (.ok _, s', data) => (disk.place.map fun _ => data, s') := by
  simp only [Attempt.run, attempted, h]

theorem run_attempted_of_error (h : disk.create = .error e) (s : σ) :
    (attempted disk produce).run s = (.error e, s) := by
  simp only [Attempt.run, attempted, h]

/-! The temporary file of an attempt is the only one. -/
section Temporary

/-- A folder with one temporary file in which something is written. -/
def written (f : CacheFolder) (data : Bytes) : CacheFolder :=
  f.addTemporary.setTemporary f.fresh data

theorem temporary_addTemporary (f : CacheFolder) : f.addTemporary.temporary f.fresh = [] := by
  simp [temporary, addTemporary]

theorem temporary_written (f : CacheFolder) (data : Bytes) :
    (f.written data).temporary f.fresh = data := by
  simp [temporary, written, setTemporary, addTemporary]

theorem removeTemporary_written (hf : f.temporaries = []) (data : Bytes) :
    removeTemporary f.fresh (f.written data) = { f with fresh := f.fresh + 1 } := by
  simp [removeTemporary, written, setTemporary, addTemporary, hf]

/-- The file is not there to be removed when it has become a record. -/
theorem removeTemporary_persist (hf : f.temporaries = []) (data : Bytes) (digest : String) :
    removeTemporary f.fresh ((f.written data).persist f.fresh digest) =
      { f with cache := f.cache.put digest data, fresh := f.fresh + 1 } := by
  rw [persist, temporary_written, removeTemporary_written hf]
  simp [removeTemporary, written, setTemporary, addTemporary, hf]

end Temporary

/-- Writing fails, or what was written is put in its place. -/
theorem run_makeRecord (s : σ) (f : CacheFolder) (name : Nat) :
    (makeRecord disk digest produce name).run (s, f) =
      match produce.run (s, f.temporary name) with
      | (.error e, s', data) => (.error e, s', f.setTemporary name data)
      | (.ok _, s', data) =>
        (placeTemporary disk digest name).run (s', f.setTemporary name data) := by
  rw [makeRecord, Attempt.run_bind]
  cases hp : produce.run (s, f.temporary name) with
  | mk r w =>
      simp only [Attempt.run] at hp
      simp only [Attempt.run, Attempt.zoom, hp]
      cases r <;> rfl

theorem run_placeTemporary_of_ok {u : Unit} (h : disk.place = .ok u) (name : Nat) (s : σ)
    (f : CacheFolder) :
    (placeTemporary disk digest name).run (s, f) =
      (.ok (f.temporary name), s, f.persist name digest) := by
  simp only [Attempt.run, placeTemporary, h]

theorem run_placeTemporary_of_error (h : disk.place = .error e) (name : Nat)
    (w : σ × CacheFolder) : (placeTemporary disk digest name).run w = (.error e, w) := by
  simp only [Attempt.run, placeTemporary, h]

theorem run_withTemporary_of_ok {u : Unit} (h : disk.create = .ok u) {α : Type}
    (work : Nat → Attempt (σ × CacheFolder) ε α) (s : σ) (f : CacheFolder) :
    (withTemporary disk work).run (s, f) =
      ((work f.fresh).ensuring (Prod.map id (removeTemporary f.fresh))).run
        (s, f.addTemporary) := by
  simp only [Attempt.run, withTemporary, h]

theorem run_withTemporary_of_error (h : disk.create = .error e) {α : Type}
    (work : Nat → Attempt (σ × CacheFolder) ε α) (w : σ × CacheFolder) :
    (withTemporary disk work).run w = (.error e, w) := by
  simp only [Attempt.run, withTemporary, h]

/-- The temporary file becomes the record, or it is removed. -/
theorem run_withTemporary (hf : f.temporaries = []) (disk : Disk ε) (digest : String)
    (produce : Attempt (σ × Bytes) ε Unit) (s : σ) :
    ∃ n, (withTemporary disk (makeRecord disk digest produce)).run (s, f) =
      match (attempted disk produce).run s with
      | (.ok data, s') => (.ok data, s', { f with cache := f.cache.put digest data, fresh := n })
      | (.error e, s') => (.error e, s', { f with fresh := n }) := by
  cases hcreate : disk.create with
  | error e =>
      refine ⟨f.fresh, ?_⟩
      rw [run_withTemporary_of_error hcreate, run_attempted_of_error hcreate]
  | ok _ =>
      refine ⟨f.fresh + 1, ?_⟩
      have hwritten : ∀ data, f.addTemporary.setTemporary f.fresh data = f.written data :=
        fun _ => rfl
      rw [run_withTemporary_of_ok hcreate, run_attempted_of_ok hcreate, Attempt.run_ensuring,
        run_makeRecord, temporary_addTemporary]
      simp only [hwritten]
      cases produce.run (s, []) with
      | mk r w =>
          obtain ⟨s', data⟩ := w
          cases r with
          | error e =>
              dsimp only [Prod.map, id]
              rw [removeTemporary_written hf]
          | ok _ =>
              dsimp only [Prod.map, id]
              cases hplace : disk.place with
              | error e =>
                  rw [run_placeTemporary_of_error hplace, removeTemporary_written hf]
                  rfl
              | ok _ =>
                  rw [run_placeTemporary_of_ok hplace, removeTemporary_persist hf,
                    temporary_written]
                  rfl

/-! ## Writing -/

/-- What writing a record came to, beside what there was to write. -/
inductive Wrote (disk : Disk ε) : Except ε Unit × σ × Bytes → Except ε Bytes × σ → Prop
  | done (s : σ) (data : Bytes) : Wrote disk (.ok (), s, data) (.ok data, s)
  | failed (e : ε) (s : σ) (written : Bytes) : Wrote disk (.error e, s, written) (.error e, s)
  | refused {n : Nat} {e : ε} (hgrow : disk.grow n = .error e) (s : σ) (written : Bytes)
      (r : Except ε Bytes) : Wrote disk (.error e, s, written) (r, s)

/-- `x` writes what `y` gives, unless the disk refuses. -/
def Writes (disk : Disk ε) (x : Attempt (σ × Bytes) ε Unit) (y : Attempt σ ε Bytes) : Prop :=
  ∀ w, Wrote disk (x.run w) (y.run w.1)

namespace Writes

variable {α ε' : Type} {x : Attempt (σ × Bytes) ε Unit} {y : Attempt σ ε Bytes}

theorem fail (e : ε) : Writes disk (Attempt.fail e : Attempt (σ × Bytes) ε Unit) (Attempt.fail e) :=
  fun w => .failed e w.1 w.2

theorem write (data : Bytes) :
    Writes disk ((disk.write data).onSecond : Attempt (σ × Bytes) ε Unit) (pure data) := by
  rintro ⟨s, written⟩
  rw [Attempt.run_onSecond, Attempt.run_pure]
  cases hgrow : disk.grow data.length with
  | ok _ =>
      rw [disk.run_write_of_ok hgrow]
      exact .done s data
  | error e =>
      rw [disk.run_write_of_error hgrow]
      exact .refused hgrow s written _

theorem bind {z : Attempt σ ε α} {f : α → Attempt (σ × Bytes) ε Unit} {g : α → Attempt σ ε Bytes}
    (h : ∀ a, Writes disk (f a) (g a)) : Writes disk (z.onFirst >>= f) (z >>= g) := by
  intro w
  rw [Attempt.run_bind, Attempt.run_bind, Attempt.run_onFirst]
  cases (z.run w.1).1 with
  | ok a => exact h a _
  | error e => exact .failed e _ _

theorem bind_ofExcept {r : Except ε' α} {report : ε' → ε} {f : α → Attempt (σ × Bytes) ε Unit}
    {g : α → Attempt σ ε Bytes} (h : ∀ a, Writes disk (f a) (g a)) :
    Writes disk ((Attempt.ofExcept r).mapError report >>= f)
      ((Attempt.ofExcept r).mapError report >>= g) :=
  bind (z := (Attempt.ofExcept r).mapError report) h

/-- What an attempt gives is what there was to write. -/
theorem gives {P : Bytes → Prop} (h : Writes disk x y) (hy : Attempt.Gives P y) :
    Attempt.Gives P (attempted disk x) := by
  intro s data hdata
  cases hcreate : disk.create with
  | error e =>
      rw [run_attempted_of_error hcreate] at hdata
      cases hdata
  | ok _ =>
      rw [run_attempted_of_ok hcreate] at hdata
      have hwrote := h (s, [])
      generalize x.run (s, []) = o at hwrote hdata
      generalize hr : y.run s = q at hwrote
      cases hwrote with
      | done s' data' =>
          cases hplace : disk.place with
          | error e =>
              rw [hplace] at hdata
              cases hdata
          | ok _ =>
              rw [hplace] at hdata
              obtain rfl := Except.ok.inj hdata
              exact hy s data' (congrArg Prod.fst hr)
      | failed | refused => cases hdata

/-- On a disk that refuses nothing, all that can be written becomes the record. -/
theorem attempted_eq (h : Writes {} x y) : attempted {} x = y := by
  funext s
  have hwrote := h (s, [])
  show (attempted {} x).run s = y.run s
  rw [run_attempted_of_ok rfl]
  generalize x.run (s, []) = o at hwrote ⊢
  generalize y.run s = q at hwrote ⊢
  cases hwrote with
  | done | failed => rfl
  | refused hgrow => cases hgrow

end Writes

/-! ## One call -/

/-- The folder is left from another one, with these records. -/
def LeftWith (f₀ f : CacheFolder) (c : Cache) : Prop := f.cache = c ∧ LeftFrom f₀ f

/-- Who leaves the lock that it got when nobody else was there leaves none. -/
theorem leftFrom_leave (hf : f.Quiet) (htemporaries : g.temporaries = [])
    (hlocks : g.inFlight = (f.setInFlight digest (f.inFlight digest).register.2).inFlight) :
    LeftFrom f (g.leave digest (f.inFlight digest).register.1) := by
  obtain ⟨hnone, hcounts⟩ := InFlight.pass (hf.counts digest)
  have hself : (g.leave digest (f.inFlight digest).register.1).inFlight digest =
      ((f.inFlight digest).register.2.withdraw (f.inFlight digest).register.1).release
        (f.inFlight digest).register.1 := by
    rw [leave, inFlight_setInFlight_self, hlocks, inFlight_setInFlight_self]
  have hother : ∀ d, d ≠ digest →
      (g.leave digest (f.inFlight digest).register.1).inFlight d = f.inFlight d := by
    intro d hd
    rw [leave, inFlight_setInFlight_of_ne _ _ hd, hlocks, inFlight_setInFlight_of_ne _ _ hd]
  refine ⟨⟨htemporaries, ?_⟩, ?_⟩
  · intro d
    by_cases hd : d = digest
    · rw [hd, hself]
      exact hcounts
    · rw [hother d hd]
      exact hf.counts d
  · intro d
    by_cases hd : d = digest
    · rw [hd, hself]
      exact .inr hnone
    · exact .inl (hother d hd)

theorem run_lookOr_of_some {missing : Attempt (σ × CacheFolder) ε Bytes}
    (hfind : f.cache.find? digest = some data) :
    (lookOr digest missing).run (s, f) = (.ok data, s, f) := by
  simp only [Attempt.run, lookOr, hfind]

theorem run_lookOr_of_none {missing : Attempt (σ × CacheFolder) ε Bytes}
    (hfind : f.cache.find? digest = none) :
    (lookOr digest missing).run (s, f) = missing.run (s, f) := by
  simp only [Attempt.run, lookOr, hfind]

/-- When a record is missing the lock is taken and given back around the attempt. -/
theorem run_getOrFillAt_of_none (hfind : f.cache.find? digest = none) :
    (getOrFillAt disk digest produce).run (s, f) =
      ((withTemporary disk (makeRecord disk digest produce)).ensuring
        (Prod.map id (leave digest (f.inFlight digest).register.1))).run
          (s, f.setInFlight digest (f.inFlight digest).register.2) := by
  have hagain : (f.setInFlight digest (f.inFlight digest).register.2).cache.find? digest = none :=
    hfind
  rw [getOrFillAt, run_lookOr_of_none hfind, Attempt.run_ensuring, ← run_lookOr_of_none hagain]
  rfl

/-- A call makes the attempt if the record is missing, and leaves nothing else behind. -/
theorem run_getOrFillAt (hf : f.Quiet) (disk : Disk ε) (digest : String)
    (produce : Attempt (σ × Bytes) ε Unit) (s : σ) :
    ∃ g, LeftFrom f g ∧ (getOrFillAt disk digest produce).run (s, f) =
      match f.cache.find? digest, (attempted disk produce).run s with
      | some data, _ => (.ok data, s, f)
      | none, (.ok data, s') => (.ok data, s', { g with cache := f.cache.put digest data })
      | none, (.error e, s') => (.error e, s', { g with cache := f.cache }) := by
  cases hfind : f.cache.find? digest with
  | some data => exact ⟨f, hf.leftFrom, run_lookOr_of_some hfind⟩
  | none =>
      have hlocked : (f.setInFlight digest (f.inFlight digest).register.2).temporaries = [] :=
        hf.temporaries
      obtain ⟨n, hrun⟩ := run_withTemporary hlocked disk digest produce s
      refine ⟨leave digest (f.inFlight digest).register.1
        { f.setInFlight digest (f.inFlight digest).register.2 with fresh := n },
        leftFrom_leave hf hf.temporaries rfl, ?_⟩
      rw [run_getOrFillAt_of_none hfind, Attempt.run_ensuring, hrun]
      cases htried : (attempted disk produce).run s with
      | mk r s' => cases r <;> rfl

/-- For the records and for what it gives, a call is an attempt of which nothing but a
record remains. -/
theorem agree_getOrFill (disk : Disk ε) (k : CacheKey) (produce : Attempt (σ × Bytes) ε Unit)
    (f₀ : CacheFolder) :
    Attempt.Agree (Attempt.Beside (LeftWith f₀)) (getOrFill disk k produce)
      (Cache.fill k (attempted disk produce)) := by
  rintro ⟨s, f⟩ ⟨-, -⟩ ⟨rfl, rfl, hleft⟩
  obtain ⟨g, hfg, hrun⟩ := run_getOrFillAt hleft.quiet disk k.digest produce s
  rw [getOrFill, hrun]
  have hleft' := hleft.trans hfg
  cases hfind : f.cache.find? k.digest with
  | some data =>
      rw [Cache.run_fill_of_some hfind]
      exact ⟨rfl, rfl, rfl, hleft⟩
  | none =>
      cases htried : (attempted disk produce).run s with
      | mk r s' =>
          cases r with
          | error e =>
              rw [Cache.run_fill_of_error hfind htried]
              exact ⟨rfl, rfl, rfl, hleft'.records _⟩
          | ok data =>
              rw [Cache.run_fill_of_ok hfind htried]
              exact ⟨rfl, rfl, rfl, hleft'.records _⟩

/-! ## Calls side by side -/

/-- When all callers have gone, nobody refers to a lock. -/
theorem quiet_landed (hf : f.Quiet) {schedule : List (Nat × Move ε)} {last : Flight ε}
    (hrun : (f.flight digest).run? schedule = some last)
    (hover : ∀ i, last.callers i = .arriving ∨ ∃ result, last.callers i = .done result) :
    (f.landed digest last).Quiet := by
  have hmap := Flight.Log.map_flight_run? { flight := f.flight digest } schedule
  rw [hrun] at hmap
  obtain ⟨log, hlog, rfl⟩ := Option.map_eq_some_iff.1 hmap
  have hsound := Flight.Log.sound_run hlog (Flight.sound_of_counts (hf.counts digest) _)
  have hnobody : (fun i => (log.flight.callers i).lock?) = fun _ => none := by
    funext i
    rcases hover i with h | ⟨result, h⟩ <;> rw [h] <;> rfl
  have hcounts := hsound.counts
  rw [hnobody] at hcounts
  refine ⟨hf.temporaries, ?_⟩
  intro d
  show ((f.setInFlight digest log.flight.map).inFlight d).Counts _
  by_cases hd : d = digest
  · rw [hd, inFlight_setInFlight_self]
    exact hcounts
  · rw [inFlight_setInFlight_of_ne _ _ hd]
    exact hf.counts d

/-! ## Work over two folders -/

/-- Two folders with the same records, over which no call goes on. -/
def Alike (f g : CacheFolder) : Prop := f.cache = g.cache ∧ f.Quiet ∧ g.Quiet

/-- What is decided by the records is the same over folders with the same ones. -/
theorem agree_alike {α : Type} {x : Attempt (σ × CacheFolder) ε α}
    {y : Attempt (σ × Cache) ε α} (hxy : ∀ f₀, Attempt.Agree (Attempt.Beside (LeftWith f₀)) x y) :
    Attempt.Agree (Attempt.Beside Alike) x x := by
  rintro ⟨s, f⟩ ⟨-, g⟩ ⟨rfl, hcache, hf, hg⟩
  obtain ⟨hr, hs, hc, hleft⟩ := hxy f (s, f) (s, f.cache) ⟨rfl, rfl, hf.leftFrom⟩
  obtain ⟨hr', hs', hc', hleft'⟩ := hxy g (s, g) (s, f.cache) ⟨rfl, hcache.symm, hg.leftFrom⟩
  exact ⟨hr.trans hr'.symm, hs.trans hs'.symm, hc.trans hc'.symm, hleft.quiet, hleft'.quiet⟩

end CacheFolder

end ArchiveMount
