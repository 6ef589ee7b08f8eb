/-
# `ArchiveMount.Proofs.Tree.Reuse` — a cache that outlives the object it was filled from

The key of a directory names the locator, the size of the object and the place of the
directory in it, but nothing of what is written there.  So two objects that one locator
serves after each other may share a key.  `rebuild_ne_iff` says exactly when that shows:
after any use of a cache over the first object, indexing the second one with this cache
differs from indexing it with an empty one if and only if the first one has been indexed
and the directories are `Stale`.
-/
import ArchiveMount.Proofs.Archive.Written
import ArchiveMount.Proofs.Tree.Indexing
import ArchiveMount.Proofs.Tree.Opening

namespace ArchiveMount

/-! ## Using a cache -/

/-- What is done with an object while a locator serves it. -/
inductive Use
  | build
  /-- Open what a text names in one of the trees built so far, the last one first. -/
  | opening (n : Nat) (text : String)
  deriving DecidableEq

/-- The store and the cache, the trees that were built, and the keys under which something
was looked for. -/
structure Usage (σ : Type) where
  state : σ × Cache
  trees : List Tree := []
  asked : List CacheKey := []

namespace Tree

/-- The key under which opening a text looks for its content. -/
def askedKey? (t : Tree) (text : String) : Option CacheKey :=
  match t.stat text with
  | .error _ => none
  | .ok e =>
    match checkReadable e with
    | .error _ => none
    | .ok _ => some (t.cacheKey e)

/-- Opening a text fails at once, or it names a file that is asked of the cache. -/
theorem open_cases {σ : Type} (store : Store σ) (t : Tree) (text : String) (w : σ × Cache) :
    (t.askedKey? text = none ∧ ∃ x, (t.open_ store text).run w = (.error x, w)) ∨
      ∃ e, t.stat text = .ok e ∧ checkReadable e = .ok () ∧
        t.askedKey? text = some (t.cacheKey e) := by
  cases hp : t.stat text with
  | error x =>
      refine .inl ⟨?_, x, run_openPath_of_entryAt_error hp⟩
      simp only [askedKey?, hp]
  | ok e =>
      cases hread : checkReadable e with
      | error x =>
          refine .inl ⟨?_, x, run_openPath_of_unreadable hp hread⟩
          simp only [askedKey?, hp, hread]
      | ok _ =>
          refine .inr ⟨e, rfl, hread, ?_⟩
          simp only [askedKey?, hp, hread]

end Tree

open ArchiveMount.Tree

/-- The keys under which indexing an object looks for its directory. -/
def directoryKeys (l : Locator) (data : Bytes) : List CacheKey :=
  (request? l data).toList.map (directoryKey l data.length)

namespace Usage

variable {σ : Type} (store : Store σ) (l : Locator) (data : Bytes)

/-- One use. -/
def step (u : Usage σ) : Use → Usage σ
  | .build =>
    { state := ((build store l).run u.state).2
      trees := match ((build store l).run u.state).1 with
        | .ok t => t :: u.trees
        | .error _ => u.trees
      asked := directoryKeys l data ++ u.asked }
  | .opening n text =>
    match u.trees[n]? with
    | none => u
    | some t =>
      { u with
        state := ((t.open_ store text).run u.state).2
        asked := (t.askedKey? text).toList ++ u.asked }

/-- An empty cache. -/
def start (s : σ) : Usage σ where
  state := (s, {})

/-- Uses one after the other. -/
def run (u : Usage σ) (uses : List Use) : Usage σ := uses.foldl (step store l data) u

end Usage

/-! ## What a cache holds after any use -/

/-- The key of a file's content. -/
def CacheKey.IsEntry : CacheKey → Prop
  | .entry .. => True
  | .range .. => False

namespace Usage

variable {σ : Type} {store : Store σ} {l : Locator} {data : Bytes} {ok : σ → Prop} {u : Usage σ}

/-- Opening leaves everything as it is, or asks the cache for the content of a file. -/
theorem step_opening_cases (u : Usage σ) (n : Nat) (text : String) :
    u.step store l data (.opening n text) = u ∨
      ∃ t ∈ u.trees, ∃ e, u.step store l data (.opening n text) = { u with
        state := ((Cache.fill (t.cacheKey e) (t.fetch store e)).run u.state).2
        asked := t.cacheKey e :: u.asked } := by
  cases hn : u.trees[n]? with
  | none =>
      left
      simp only [step, hn]
  | some t =>
      simp only [step, hn]
      rcases open_cases store t text u.state with ⟨hk, x, hrun⟩ | ⟨e, he, hread, hk⟩
      · left
        rw [hrun, hk]
        rfl
      · refine .inr ⟨t, List.mem_of_getElem? hn, e, ?_⟩
        rw [open_, snd_run_openPath he hread, hk]
        rfl

/-- Indexing keeps a store in order and leaves the cache as it is, or files the directory. -/
theorem state_step_build (hserves : store.Serves l data ok) (hs : ok u.state.1) :
    ok (u.step store l data .build).state.1 ∧
      (((u.step store l data .build).state.2 = u.state.2 ∧
          ∀ r, request? l data = some r →
            u.state.2.get? (directoryKey l data.length r) ≠ none) ∨
        ∃ r, request? l data = some r ∧ (u.step store l data .build).state.2 =
          u.state.2.put (directoryKey l data.length r).digest (directoryBytes r data)) := by
  obtain ⟨⟨s, c⟩, trees, asked⟩ := u
  obtain ⟨s', hs', hrun⟩ := run_build hserves hs c
  simp only [step, hrun]
  refine ⟨hs', ?_⟩
  cases hr : request? l data with
  | none =>
      obtain ⟨out, hout⟩ := run_build_of_request?_eq_none hr
      rw [hout c]
      exact .inl ⟨rfl, fun r hr' => nomatch hr'⟩
  | some r =>
      rw [run_build_of_request?_eq_some hr c]
      cases hc : c.get? (directoryKey l data.length r) with
      | some directory =>
          refine .inl ⟨rfl, fun r' hr' => ?_⟩
          obtain rfl := Option.some.inj hr'
          rw [hc]
          exact Option.some_ne_none _
      | none => exact .inr ⟨r, rfl, rfl⟩

/-- What may be filed under a key: anything for a file, but for a directory what stands in
the object. -/
def Filed (l : Locator) (data : Bytes) (k : CacheKey) (bytes : Bytes) : Prop :=
  k.IsEntry ∨ ∃ r, request? l data = some r ∧ k = directoryKey l data.length r ∧
    bytes = directoryBytes r data

/-- The store is in order, all trees are of this locator, and each record is one that was
asked for. -/
structure Sound (l : Locator) (data : Bytes) (ok : σ → Prop) (u : Usage σ) : Prop where
  state : ok u.state.1
  trees : ∀ t ∈ u.trees, t.locator = l
  filed : ∀ d bytes, u.state.2.find? d = some bytes →
    ∃ k ∈ u.asked, k.digest = d ∧ Filed l data k bytes

/-- A new record keeps the records in order. -/
theorem filed_put {c : Cache} {asked : List CacheKey} {k : CacheKey} {bytes : Bytes}
    (h : ∀ d bytes, c.find? d = some bytes → ∃ k ∈ asked, k.digest = d ∧ Filed l data k bytes)
    (hk : k ∈ asked) (hb : Filed l data k bytes) (d : String) (bytes' : Bytes)
    (hd : (c.put k.digest bytes).find? d = some bytes') :
    ∃ k ∈ asked, k.digest = d ∧ Filed l data k bytes' := by
  rcases Cache.find?_put_cases hd with ⟨rfl, rfl⟩ | hd
  · exact ⟨k, hk, rfl, hb⟩
  · exact h d bytes' hd

theorem find?_put_ne_none {c : Cache} {d d' : String} {bytes : Bytes} (h : c.find? d ≠ none) :
    (c.put d' bytes).find? d ≠ none := by
  by_cases hd : d = d'
  · subst hd
    rw [Cache.find?_put_self]
    exact Option.some_ne_none _
  · rwa [Cache.find?_put_of_ne _ _ hd]

/-- Filling a cache takes no record away. -/
theorem find?_fill_ne_none {ε : Type} {k : CacheKey} {produce : Attempt σ ε Bytes} {w : σ × Cache}
    {d : String} (h : w.2.find? d ≠ none) :
    ((Cache.fill k produce).run w).2.2.find? d ≠ none := by
  obtain ⟨s, c⟩ := w
  rcases Cache.fill_cases k produce s c with heq | ⟨bytes, -, -, heq⟩ <;> rw [heq]
  · exact h
  · exact find?_put_ne_none h

/-- Filling in a file's content keeps store and records in order. -/
theorem sound_fill {produce : Attempt σ TreeError Bytes} {k : CacheKey} (h : Sound l data ok u)
    (hp : Attempt.Keeps ok produce) (hk : k.IsEntry) :
    Sound l data ok { u with
      state := ((Cache.fill k produce).run u.state).2
      asked := k :: u.asked } := by
  obtain ⟨⟨s, c⟩, trees, asked⟩ := u
  have hmono : ∀ d bytes, c.find? d = some bytes →
      ∃ k' ∈ k :: asked, k'.digest = d ∧ Filed l data k' bytes := by
    intro d bytes hd
    obtain ⟨k', hk', h'⟩ := h.filed d bytes hd
    exact ⟨k', List.mem_cons_of_mem _ hk', h'⟩
  cases hc : c.get? k with
  | some bytes =>
      rw [Cache.run_fill_of_some hc]
      exact ⟨h.state, h.trees, hmono⟩
  | none =>
      have hs' := hp s h.state
      cases hr : produce.run s with
      | mk out s' =>
          rw [hr] at hs'
          cases out with
          | error e =>
              rw [Cache.run_fill_of_error hc hr]
              exact ⟨hs', h.trees, hmono⟩
          | ok bytes =>
              rw [Cache.run_fill_of_ok hc hr]
              exact ⟨hs', h.trees, filed_put hmono List.mem_cons_self (.inl hk)⟩

/-- Indexing files at most the bytes of the directory. -/
theorem sound_build (hserves : store.Serves l data ok) (h : Sound l data ok u) :
    Sound l data ok (u.step store l data .build) := by
  obtain ⟨hs', hcache⟩ := state_step_build hserves h.state
  have hmono : ∀ d bytes, u.state.2.find? d = some bytes →
      ∃ k ∈ directoryKeys l data ++ u.asked, k.digest = d ∧ Filed l data k bytes := by
    intro d bytes hd
    obtain ⟨k, hk, h'⟩ := h.filed d bytes hd
    exact ⟨k, List.mem_append_right _ hk, h'⟩
  refine ⟨hs', ?_, ?_⟩
  · intro t ht
    simp only [step] at ht
    cases hout : ((build store l).run u.state).1 with
    | error e =>
        rw [hout] at ht
        exact h.trees t ht
    | ok t' =>
        rw [hout] at ht
        rcases List.mem_cons.1 ht with rfl | ht
        · exact gives_locator _ l _ _ hout
        · exact h.trees t ht
  · rcases hcache with ⟨heq, -⟩ | ⟨r, hr, heq⟩ <;> rw [heq]
    · exact hmono
    · have hmem : directoryKey l data.length r ∈ directoryKeys l data ++ u.asked := by
        simp [directoryKeys, hr]
      exact filed_put hmono hmem (.inr ⟨r, hr, rfl, rfl⟩)

theorem sound_opening (hserves : store.Serves l data ok) (h : Sound l data ok u) (n : Nat)
    (text : String) : Sound l data ok (u.step store l data (.opening n text)) := by
  rcases step_opening_cases u n text with heq | ⟨t, ht, e, heq⟩ <;> rw [heq]
  · exact h
  · exact sound_fill h (keeps_fetch hserves (h.trees t ht) e) trivial

theorem sound_step (hserves : store.Serves l data ok) (h : Sound l data ok u) (x : Use) :
    Sound l data ok (u.step store l data x) := by
  cases x with
  | build => exact sound_build hserves h
  | opening n text => exact sound_opening hserves h n text

theorem sound_run (hserves : store.Serves l data ok) (uses : List Use) (h : Sound l data ok u) :
    Sound l data ok (u.run store l data uses) := by
  induction uses generalizing u with
  | nil => exact h
  | cons x uses ih => exact ih (sound_step hserves h x)

/-- Indexing leaves a record of the directory behind, if there is one to fetch. -/
theorem find?_step_build (hserves : store.Serves l data ok) (h : Sound l data ok u)
    {r : EndRecord} (hr : request? l data = some r) :
    (u.step store l data .build).state.2.find? (directoryKey l data.length r).digest ≠ none := by
  rcases (state_step_build hserves h.state).2 with ⟨heq, hheld⟩ | ⟨r', hr', heq⟩ <;> rw [heq]
  · exact hheld r hr
  · obtain rfl : r = r' := Option.some.inj (hr.symm.trans hr')
    rw [Cache.find?_put_self]
    exact Option.some_ne_none _

/-- No use of a cache takes a record away. -/
theorem find?_step_ne_none (hserves : store.Serves l data ok) (h : Sound l data ok u) {d : String}
    (hd : u.state.2.find? d ≠ none) (x : Use) :
    (u.step store l data x).state.2.find? d ≠ none := by
  cases x with
  | build =>
      rcases (state_step_build hserves h.state).2 with ⟨heq, -⟩ | ⟨r, -, heq⟩ <;> rw [heq]
      · exact hd
      · exact find?_put_ne_none hd
  | opening n text =>
      rcases step_opening_cases u n text with heq | ⟨t, -, e, heq⟩ <;> rw [heq]
      · exact hd
      · exact find?_fill_ne_none hd

/-- Once an object has been indexed, its directory stays in the cache. -/
theorem find?_run_ne_none (hserves : store.Serves l data ok) {r : EndRecord}
    (hr : request? l data = some r) (uses : List Use) (h : Sound l data ok u)
    (hd : u.state.2.find? (directoryKey l data.length r).digest ≠ none ∨ Use.build ∈ uses) :
    (u.run store l data uses).state.2.find? (directoryKey l data.length r).digest ≠ none := by
  induction uses generalizing u with
  | nil => exact hd.resolve_right List.not_mem_nil
  | cons x uses ih =>
      refine ih (sound_step hserves h x) ?_
      rcases hd with hd | hd
      · exact .inl (find?_step_ne_none hserves h hd x)
      · rcases List.mem_cons.1 hd with rfl | hd
        · exact .inl (find?_step_build hserves h hr)
        · exact .inr hd

/-- Only indexing asks for a directory. -/
theorem build_mem_of_asked {uses : List Use} {k : CacheKey}
    (hk : k ∈ (u.run store l data uses).asked) (hrange : ¬ k.IsEntry) :
    k ∈ u.asked ∨ Use.build ∈ uses := by
  induction uses generalizing u with
  | nil => exact .inl hk
  | cons x uses ih =>
      rcases ih hk with hk | hb
      · cases x with
        | build => exact .inr List.mem_cons_self
        | opening n text =>
            left
            rcases step_opening_cases u n text with heq | ⟨t, -, e, heq⟩ <;> rw [heq] at hk
            · exact hk
            · rcases List.mem_cons.1 hk with rfl | hk
              · exact absurd trivial hrange
              · exact hk
      · exact .inr (List.mem_cons_of_mem _ hb)

theorem sound_start {s : σ} (hs : ok s) : Sound l data ok (start s) where
  state := hs
  trees t ht := by cases ht
  filed d bytes hd := by cases hd

end Usage

/-! ## Another object behind the same locator -/

/-- Both objects have their directories filed under one key, and what stands in the first
one does not make of the second object what its own directory makes of it. -/
def Stale (l : Locator) (a b : Bytes) : Prop :=
  ∃ ra rb, request? l a = some ra ∧ request? l b = some rb ∧ a.length = b.length ∧
    ra.directoryOffset = rb.directoryOffset ∧ ra.directorySize = rb.directorySize ∧
    indexed l b.length rb (directoryBytes ra a) ≠ indexed l b.length rb (directoryBytes rb b)

theorem directoryKey_eq_iff {l : Locator} {n n' : Nat} {r r' : EndRecord} :
    directoryKey l n r = directoryKey l n' r' ↔
      n = n' ∧ r.directoryOffset = r'.directoryOffset ∧ r.directorySize = r'.directorySize := by
  simp only [directoryKey, CacheKey.range.injEq, true_and]
  omega

/-- A directory found in the cache after some uses is that of the object used, which has
been indexed. -/
theorem eq_of_get?_run {σ : Type} {store : Store σ} {l : Locator} {a : Bytes} {ok : σ → Prop}
    (hserves : store.Serves l a ok) {s : σ} (hs : ok s) {uses : List Use} {n : Nat} {r : EndRecord}
    (hk : ∀ k ∈ ((Usage.start s).run store l a uses).asked,
      k.digest = (directoryKey l n r).digest → k = directoryKey l n r) {bytes : Bytes}
    (h : ((Usage.start s).run store l a uses).state.2.get? (directoryKey l n r) = some bytes) :
    Use.build ∈ uses ∧ ∃ ra, request? l a = some ra ∧
      directoryKey l a.length ra = directoryKey l n r ∧ bytes = directoryBytes ra a := by
  have hsound : ((Usage.start s).run store l a uses).Sound l a ok :=
    Usage.sound_run hserves uses (Usage.sound_start hs)
  obtain ⟨k, hkmem, hkd, hfiled⟩ := hsound.filed _ _ h
  obtain rfl := hk k hkmem hkd
  constructor
  · exact (Usage.build_mem_of_asked hkmem id).resolve_left List.not_mem_nil
  · rcases hfiled with he | ⟨ra, hra, hkey, hb⟩
    · exact absurd he id
    · exact ⟨ra, hra, hkey.symm, hb⟩

/-- Indexing with a cache that was used for another object differs from indexing with an
empty one exactly if that object was indexed and its directory is stale. -/
theorem rebuild_ne_iff {σ τ : Type} {first : Store σ} {second : Store τ} {l : Locator}
    {a b : Bytes} {okA : σ → Prop} {okB : τ → Prop} (hA : first.Serves l a okA)
    (hB : second.Serves l b okB) {s : σ} (hs : okA s) (uses : List Use) {s₁ s₂ : τ}
    (h₁ : okB s₁) (h₂ : okB s₂)
    (hk : CacheKey.Distinct (((Usage.start s).run first l a uses).asked ++ directoryKeys l b)) :
    ((build second l).run (s₁, ((Usage.start s).run first l a uses).state.2)).1 ≠
        ((build second l).run (s₂, {})).1 ↔
      Use.build ∈ uses ∧ Stale l a b := by
  obtain ⟨s₁', -, hreused⟩ := run_build hB h₁ ((Usage.start s).run first l a uses).state.2
  obtain ⟨s₂', -, hfresh⟩ := run_build hB h₂ {}
  rw [hreused, hfresh]
  cases hr : request? l b with
  | none =>
      obtain ⟨out, hout⟩ := run_build_of_request?_eq_none hr
      rw [hout, hout]
      constructor
      · exact fun hne => absurd rfl hne
      · rintro ⟨-, ra, rb, -, hrb, -⟩
        rw [hr] at hrb
        cases hrb
  | some r =>
      have hmem : directoryKey l b.length r ∈ directoryKeys l b := by simp [directoryKeys, hr]
      have hkr : ∀ k ∈ ((Usage.start s).run first l a uses).asked,
          k.digest = (directoryKey l b.length r).digest → k = directoryKey l b.length r :=
        fun k hka => hk k (List.mem_append_left _ hka) _ (List.mem_append_right _ hmem)
      have hempty : ({} : Cache).get? (directoryKey l b.length r) = none := rfl
      rw [run_build_of_request?_eq_some hr, run_build_of_request?_eq_some hr, hempty]
      cases hc : ((Usage.start s).run first l a uses).state.2.get? (directoryKey l b.length r) with
      | none =>
          constructor
          · exact fun hne => absurd rfl hne
          · rintro ⟨hbuild, ra, rb, hra, hrb, hlen, hoff, hsize, -⟩
            obtain rfl : r = rb := Option.some.inj (hr.symm.trans hrb)
            have hkey : directoryKey l a.length ra = directoryKey l b.length r :=
              directoryKey_eq_iff.2 ⟨hlen, hoff, hsize⟩
            have hheld := Usage.find?_run_ne_none hA hra uses (Usage.sound_start hs) (.inr hbuild)
            rw [hkey] at hheld
            exact absurd hc hheld
      | some bytes =>
          obtain ⟨hbuild, ra, hra, hkey, rfl⟩ := eq_of_get?_run hA hs hkr hc
          obtain ⟨hlen, hoff, hsize⟩ := directoryKey_eq_iff.1 hkey
          constructor
          · exact fun hne => ⟨hbuild, ra, r, hra, hr, hlen, hoff, hsize, hne⟩
          · rintro ⟨-, ra', rb, hra', hrb, -, -, -, hne⟩
            obtain rfl : r = rb := Option.some.inj (hr.symm.trans hrb)
            obtain rfl : ra = ra' := Option.some.inj (hra.symm.trans hra')
            exact hne

/-! ## A file that is renamed -/

namespace Renamed

/-- An archive of one empty file. -/
def archive (name : String) : StoredArchive where
  files := [{ name := name, content := [] }]

/-- Where it is served. -/
def locator : Locator := ⟨"mem", some { host := "bucket" }, ["a.zip"], none, none⟩

/-- A store in memory that holds it. -/
def memory (name : String) : MemoryStore where
  objects := [(locator.render, (archive name).bytes)]

/-- The archive of `a` is indexed and its file opened. -/
def uses : List Use := [.build, .opening 0 "a"]

/-- What the cache holds then. -/
def cache : Cache :=
  ((Usage.start (memory "a")).run MemoryStore.store locator (archive "a").bytes uses).state.2

/-- The paths and sizes that indexing the archive of `b` with a cache lists. -/
def listing (c : Cache) : Option (List (TreePath × Nat)) :=
  ((build MemoryStore.store locator).run (memory "b", c)).1.toOption.map fun t =>
    t.walk.map fun e => (e.path, e.size)

theorem memory_object (name : String) :
    (memory name).failing = false ∧ (memory name).object locator = .ok (archive name).bytes :=
  ⟨rfl, by simp [memory, MemoryStore.object]⟩

/-- With the used cache the old name is listed, with an empty one the new name. -/
theorem listing_cache_ne : listing cache = some [(["a"], 0)] ∧ listing {} = some [(["b"], 0)] := by
  decide +kernel

/-- The two archives are stale, for indexing the second one shows it. -/
theorem stale_archives : Use.build ∈ uses ∧ Stale locator (archive "a").bytes (archive "b").bytes :=
  (rebuild_ne_iff (MemoryStore.serves locator (archive "a").bytes)
    (MemoryStore.serves locator (archive "b").bytes) (memory_object "a") uses (memory_object "b")
    (memory_object "b") (by simp only [CacheKey.Distinct]; decide +kernel)).1 (by
      intro h
      have hlist : listing cache = listing {} := by
        simp only [listing]
        exact congrArg _ (congrArg _ h)
      exact absurd hlist (by decide +kernel))

end Renamed

end ArchiveMount
