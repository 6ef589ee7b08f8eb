/-
# `ArchiveMount.Proofs.Tree.Indexing` — indexing depends on the served bytes alone

Whatever serves an object, and from whatever state: the search for the end record, the
fetch of the directory and the whole of `build` give what they give over a store without
state that holds the object's bytes (`agree_build`).  The cache stands by unchanged by the
store, so the two runs also leave the same cache.
-/
import ArchiveMount.Proofs.Object.Serving
import ArchiveMount.Tree.Build

namespace ArchiveMount

/-- States of two runs that share a cache: the first store is in order, and the caches are
the same. -/
def Together {σ : Type} (ok : σ → Prop) (w : σ × Cache) (v : Unit × Cache) : Prop :=
  ok w.1 ∧ w.2 = v.2

/-! ## Filling a cache -/

/-- No two of the keys have one digest. -/
def CacheKey.Distinct (ks : List CacheKey) : Prop :=
  ∀ k ∈ ks, ∀ k' ∈ ks, k.digest = k'.digest → k = k'

namespace Cache

variable {σ ε : Type} {k : CacheKey} {produce : Attempt σ ε Bytes} {c : Cache} {s s' : σ}
  {data : Bytes}

theorem run_fill_of_some (h : c.get? k = some data) :
    (fill k produce).run (s, c) = (.ok data, (s, c)) := by
  simp only [Attempt.run, fill, h]

theorem run_fill_of_ok (h : c.get? k = none) (hp : produce.run s = (.ok data, s')) :
    (fill k produce).run (s, c) = (.ok data, (s', c.put k.digest data)) := by
  simp only [Attempt.run] at hp
  simp only [Attempt.run, fill, h, hp]

theorem run_fill_of_error {e : ε} (h : c.get? k = none) (hp : produce.run s = (.error e, s')) :
    (fill k produce).run (s, c) = (.error e, (s', c)) := by
  simp only [Attempt.run] at hp
  simp only [Attempt.run, fill, h, hp]

/-- What is found once a record has been put is this record, or was found before. -/
theorem find?_put_cases {digest digest' : String} {data' : Bytes}
    (h : (c.put digest' data').find? digest = some data) :
    (digest = digest' ∧ data = data') ∨ c.find? digest = some data := by
  by_cases hd : digest = digest'
  · subst hd
    rw [find?_put_self] at h
    exact .inl ⟨rfl, (Option.some.inj h).symm⟩
  · rw [find?_put_of_ne _ _ hd] at h
    exact .inr h

/-- Filling leaves a cache as it is, or files what has been produced for a missing record. -/
theorem fill_cases (k : CacheKey) (produce : Attempt σ ε Bytes) (s : σ) (c : Cache) :
    ((fill k produce).run (s, c)).2.2 = c ∨
      ∃ data, c.get? k = none ∧ (produce.run s).1 = .ok data ∧
        ((fill k produce).run (s, c)).2.2 = c.put k.digest data := by
  cases hc : c.get? k with
  | some data =>
      rw [run_fill_of_some hc]
      exact .inl rfl
  | none =>
      cases hp : produce.run s with
      | mk r s' =>
          cases r with
          | ok data =>
              rw [run_fill_of_ok hc hp]
              exact .inr ⟨data, rfl, rfl, rfl⟩
          | error e =>
              rw [run_fill_of_error hc hp]
              exact .inl rfl

/-- What filling gives was filed before, or has been produced. -/
theorem fill_ok_cases (h : ((fill k produce).run (s, c)).1 = .ok data) :
    c.get? k = some data ∨ (produce.run s).1 = .ok data := by
  cases hc : c.get? k with
  | some data' =>
      rw [run_fill_of_some hc] at h
      obtain rfl := Except.ok.inj h
      exact .inl rfl
  | none =>
      right
      cases hp : produce.run s with
      | mk r s' =>
          cases r with
          | ok data' =>
              rw [run_fill_of_ok hc hp] at h
              exact h
          | error e =>
              rw [run_fill_of_error hc hp] at h
              cases h

/-- Filling keeps a state in order if producing does. -/
theorem keeps_fill {ok : σ → Prop} (h : Attempt.Keeps ok produce) (k : CacheKey) :
    Attempt.Keeps (fun w : σ × Cache => ok w.1) (fill k produce) := by
  rintro ⟨s, c⟩ hs
  cases hc : c.get? k with
  | some data =>
      rw [run_fill_of_some hc]
      exact hs
  | none =>
      have hx := h s hs
      cases hr : produce.run s with
      | mk r s' =>
          rw [hr] at hx
          cases r with
          | ok data =>
              rw [run_fill_of_ok hc hr]
              exact hx
          | error e =>
              rw [run_fill_of_error hc hr]
              exact hx

/-- Once a key was filled, it has the record it had, or else what could be produced. -/
theorem get?_fill_self (k : CacheKey) (produce : Attempt σ ε Bytes) (s : σ) (c : Cache) :
    ((fill k produce).run (s, c)).2.2.get? k = (c.get? k).or (produce.run s).1.toOption := by
  cases hc : c.get? k with
  | some data =>
      rw [run_fill_of_some hc]
      exact hc
  | none =>
      rw [Option.none_or]
      cases hp : produce.run s with
      | mk r s' =>
          cases r with
          | ok data =>
              rw [run_fill_of_ok hc hp]
              exact find?_put_self _ _ _
          | error e =>
              rw [run_fill_of_error hc hp]
              exact hc

/-- Filling one key leaves the record of another one alone. -/
theorem get?_fill_of_ne {k' : CacheKey} (h : k'.digest ≠ k.digest) (produce : Attempt σ ε Bytes)
    (s : σ) (c : Cache) : ((fill k produce).run (s, c)).2.2.get? k' = c.get? k' := by
  rcases fill_cases k produce s c with heq | ⟨data, -, -, heq⟩ <;> rw [heq]
  exact find?_put_of_ne _ _ h

theorem agree_fill {ok : σ → Prop} {produce' : Attempt Unit ε Bytes}
    (h : Attempt.Agree (fun s _ => ok s) produce produce') (k : CacheKey) :
    Attempt.Agree (Together ok) (fill k produce) (fill k produce') := by
  rintro ⟨s, c⟩ ⟨u, c'⟩ ⟨hs, rfl⟩
  obtain ⟨hr, hs'⟩ := h s u hs
  cases hc : c.get? k with
  | some data =>
      rw [run_fill_of_some hc, run_fill_of_some hc]
      exact ⟨rfl, hs, rfl⟩
  | none =>
      cases hp : produce.run s with
      | mk r s' =>
          cases hp' : produce'.run u with
          | mk r' u' =>
              rw [hp, hp'] at hr
              rw [hp] at hs'
              obtain rfl : r = r' := hr
              cases r with
              | ok data =>
                  rw [run_fill_of_ok hc hp, run_fill_of_ok hc hp']
                  exact ⟨rfl, hs', rfl⟩
              | error e =>
                  rw [run_fill_of_error hc hp, run_fill_of_error hc hp']
                  exact ⟨rfl, hs', rfl⟩

end Cache

namespace Tree

variable {σ : Type} {store : Store σ} {l : Locator} {data : Bytes} {ok : σ → Prop}

theorem agree_onStore {ε α : Type} {x : Attempt σ ε α} {y : Attempt Unit ε α}
    (h : Attempt.Agree (fun s _ => ok s) x y) :
    Attempt.Agree (Together ok) (onStore x) (onStore y) := by
  rintro ⟨s, c⟩ ⟨u, c'⟩ ⟨hs, rfl⟩
  obtain ⟨hr, hs'⟩ := h s u hs
  exact ⟨hr, hs', rfl⟩

/-! ## The search for the end record -/

theorem agree_zip64Record (h : store.Serves l data ok) (size : Nat) (tail : Bytes) (offset : Nat) :
    Attempt.Agree (fun s _ => ok s) (zip64Record store l size tail offset)
      (zip64Record (Store.holding data) l size tail offset) := by
  simp only [zip64Record]
  split_ifs
  · exact .pure _
  · exact (h.agree_readRange _).mapError _

theorem agree_searchTail (h : store.Serves l data ok) (size : Nat) (ws : List Nat) :
    Attempt.Agree (fun s _ => ok s) (searchTail store l size ws)
      (searchTail (Store.holding data) l size ws) := by
  induction ws with
  | nil => exact .fail _
  | cons w ws ih =>
      refine .bind ((h.agree_readRange _).mapError _) fun tail => ?_
      refine .bind ((Attempt.Agree.ofExcept _).mapError _) fun scan => ?_
      cases scan with
      | directory r => exact .pure r
      | zip64 r offset =>
          exact .bind (agree_zip64Record h size tail offset) fun record =>
            (Attempt.Agree.ofExcept _).mapError _
      | notFound => exact ih

theorem agree_locateDirectory (h : store.Serves l data ok) (size : Nat) :
    Attempt.Agree (fun s _ => ok s) (locateDirectory store l size)
      (locateDirectory (Store.holding data) l size) := by
  simp only [locateDirectory]
  split_ifs
  · exact .fail _
  · exact agree_searchTail h size _

/-! ## The directory and the tree -/

/-- The key under which the directory that `r` announces is kept. -/
def directoryKey (l : Locator) (size : Nat) (r : EndRecord) : CacheKey :=
  .range l.render size r.directoryOffset (r.directoryOffset + r.directorySize)

theorem readDirectory_of_eq_zero {size : Nat} {r : EndRecord} (h : r.directorySize = 0) :
    readDirectory store l size r = pure [] := if_pos h

theorem readDirectory_of_lt {size : Nat} {r : EndRecord} (h₀ : r.directorySize ≠ 0)
    (h : size < r.directoryOffset + r.directorySize) :
    readDirectory store l size r = Attempt.fail (.archive (.malformed .directoryOutside)) := by
  simp only [readDirectory]
  rw [if_neg h₀, if_pos h]

theorem readDirectory_of_le {size : Nat} {r : EndRecord} (h₀ : r.directorySize ≠ 0)
    (h : r.directoryOffset + r.directorySize ≤ size) :
    readDirectory store l size r = Cache.fill (directoryKey l size r)
      ((store.readRange l (.ofSpan r.directoryOffset r.directorySize)).mapError .object) := by
  simp only [readDirectory]
  rw [if_neg h₀, if_neg (Nat.not_lt.2 h), Nat.add_sub_cancel_left]
  rfl

theorem agree_readDirectory (h : store.Serves l data ok) (size : Nat) (r : EndRecord) :
    Attempt.Agree (Together ok) (readDirectory store l size r)
      (readDirectory (Store.holding data) l size r) := by
  simp only [readDirectory]
  split_ifs
  · exact .pure _
  · exact .fail _
  · exact Cache.agree_fill ((h.agree_readRange _).mapError _) _

/-- What a directory makes of an object of `size` bytes. -/
def indexed (l : Locator) (size : Nat) (r : EndRecord) (directory : Bytes) :
    Except TreeError Tree := do
  let records ← (CentralDirectory.parse directory r.entries).mapError .archive
  (checkEntries size records).mapError .archive
  return .ofRecords l size records

/-- The end record that is found in an object. -/
def located (l : Locator) (data : Bytes) : Except TreeError EndRecord :=
  ((locateDirectory (Store.holding data) l data.length).run ()).1

/-- The last steps of indexing need neither store nor cache. -/
theorem ofExcept_indexed (size : Nat) (r : EndRecord) (directory : Bytes) :
    (do
      let records ← (Attempt.ofExcept (CentralDirectory.parse directory r.entries)).mapError .archive
      (Attempt.ofExcept (checkEntries size records)).mapError .archive
      return .ofRecords l size records : Attempt σ TreeError Tree) =
    Attempt.ofExcept (indexed l size r directory) := by
  funext s
  show Attempt.run _ s = (indexed l size r directory, s)
  simp only [Attempt.run_bind, Attempt.run_mapError, Attempt.run_ofExcept, indexed]
  cases (CentralDirectory.parse directory r.entries).mapError TreeError.archive with
  | error e => rfl
  | ok records =>
      cases hc : (checkEntries size records).mapError TreeError.archive with
      | error e => simp only [bind, Except.bind, hc]
      | ok _ =>
          simp only [bind, Except.bind, hc]
          rfl

theorem run_build_of_error {e : TreeError} (h : located l data = .error e) (c : Cache) :
    (build (Store.holding data) l).run ((), c) = (.error e, ((), c)) := by
  have hsize : (onStore (((Store.holding data).sizeOf l).mapError TreeError.object)).run
      ((), c) = (.ok data.length, ((), c)) := rfl
  have hlocate : (onStore (locateDirectory (Store.holding data) l data.length)).run ((), c) =
      (.error e, ((), c)) := by
    rw [← h]
    rfl
  simp only [build]
  rw [Attempt.bind_ok hsize, Attempt.bind_error hlocate]

/-- Once the end record is found, the directory is fetched and read. -/
theorem run_build_of_ok {r : EndRecord} (h : located l data = .ok r) (c : Cache) :
    (build (Store.holding data) l).run ((), c) =
      (readDirectory (Store.holding data) l data.length r >>= fun directory =>
        Attempt.ofExcept (indexed l data.length r directory)).run ((), c) := by
  have hsize : (onStore (((Store.holding data).sizeOf l).mapError TreeError.object)).run
      ((), c) = (.ok data.length, ((), c)) := rfl
  have hlocate : (onStore (locateDirectory (Store.holding data) l data.length)).run ((), c) =
      (.ok r, ((), c)) := by
    rw [← h]
    rfl
  simp only [build]
  rw [Attempt.bind_ok hsize, Attempt.bind_ok hlocate]
  simp only [ofExcept_indexed]

/-- The end record of an object whose directory has to be fetched. -/
def request? (l : Locator) (data : Bytes) : Option EndRecord :=
  match located l data with
  | .ok r =>
    if r.directorySize ≠ 0 ∧ r.directoryOffset + r.directorySize ≤ data.length then some r else none
  | .error _ => none

/-- The bytes that are fetched for a directory. -/
def directoryBytes (r : EndRecord) (data : Bytes) : Bytes :=
  (ByteRange.ofSpan r.directoryOffset r.directorySize).part data

theorem request?_eq_some_iff {r : EndRecord} :
    request? l data = some r ↔ located l data = .ok r ∧ r.directorySize ≠ 0 ∧
      r.directoryOffset + r.directorySize ≤ data.length := by
  simp only [request?]
  cases located l data with
  | error e => simp
  | ok r' =>
      simp only [Option.ite_none_right_eq_some, Option.some.injEq, Except.ok.injEq]
      constructor
      · rintro ⟨h, rfl⟩
        exact ⟨rfl, h⟩
      · rintro ⟨rfl, h⟩
        exact ⟨h, rfl⟩

/-- An object whose directory is not fetched is indexed without a look at the cache. -/
theorem run_build_of_request?_eq_none (h : request? l data = none) :
    ∃ out, ∀ c, (build (Store.holding data) l).run ((), c) = (out, ((), c)) := by
  cases hloc : located l data with
  | error e => exact ⟨.error e, run_build_of_error hloc⟩
  | ok r =>
      by_cases h₀ : r.directorySize = 0
      · refine ⟨indexed l data.length r [], fun c => ?_⟩
        rw [run_build_of_ok hloc, readDirectory_of_eq_zero h₀]
        rfl
      · have hlt : data.length < r.directoryOffset + r.directorySize := by
          refine Nat.lt_of_not_le fun hle => ?_
          rw [request?_eq_some_iff.2 ⟨hloc, h₀, hle⟩] at h
          cases h
        refine ⟨.error (.archive (.malformed .directoryOutside)), fun c => ?_⟩
        rw [run_build_of_ok hloc, readDirectory_of_lt h₀ hlt]
        exact Attempt.bind_error (Attempt.run_fail _ _) _

/-- Otherwise the record of its directory is used, if there is one. -/
theorem run_build_of_request?_eq_some {r : EndRecord} (h : request? l data = some r) (c : Cache) :
    (build (Store.holding data) l).run ((), c) =
      match c.get? (directoryKey l data.length r) with
      | some directory => (indexed l data.length r directory, ((), c))
      | none => (indexed l data.length r (directoryBytes r data),
          ((), c.put (directoryKey l data.length r).digest (directoryBytes r data))) := by
  obtain ⟨hloc, h₀, hle⟩ := request?_eq_some_iff.1 h
  have hp : (((Store.holding data).readRange l
      (.ofSpan r.directoryOffset r.directorySize)).mapError TreeError.object).run () =
      (.ok (directoryBytes r data), ()) := by
    rw [Attempt.run_mapError, Store.run_readRange_holding]
    rfl
  rw [run_build_of_ok hloc, readDirectory_of_le h₀ hle]
  cases hc : c.get? (directoryKey l data.length r) with
  | some directory => exact Attempt.bind_ok (Cache.run_fill_of_some hc) _
  | none => exact Attempt.bind_ok (Cache.run_fill_of_ok hc hp) _

/-- Indexing an object depends on its bytes and on the cache, and on nothing else. -/
theorem agree_build (h : store.Serves l data ok) :
    Attempt.Agree (Together ok) (build store l) (build (Store.holding data) l) := by
  refine .bind (agree_onStore (h.agree_sizeOf.mapError _)) fun size => ?_
  refine .bind (agree_onStore (agree_locateDirectory h size)) fun r => ?_
  refine .bind (agree_readDirectory h size r) fun directory => ?_
  refine .bind ((Attempt.Agree.ofExcept _).mapError _) fun records => ?_
  exact .bind ((Attempt.Agree.ofExcept _).mapError _) fun _ => .pure _

theorem run_build (h : store.Serves l data ok) {s : σ} (hs : ok s) (c : Cache) :
    ∃ s', ok s' ∧ (build store l).run (s, c) =
      (((build (Store.holding data) l).run ((), c)).1,
        (s', ((build (Store.holding data) l).run ((), c)).2.2)) := by
  obtain ⟨hr, hs', hc⟩ := agree_build h (s, c) ((), c) ⟨hs, rfl⟩
  exact ⟨_, hs', Prod.ext hr (Prod.ext rfl hc)⟩

theorem gives_locator (store : Store σ) (l : Locator) :
    Attempt.Gives (fun t => t.locator = l) (build store l) :=
  .bind fun _ => .bind fun _ => .bind fun _ => .bind fun _ => .bind fun _ => .pure rfl

end Tree

end ArchiveMount
