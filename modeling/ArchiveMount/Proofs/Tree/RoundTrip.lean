/-
# `ArchiveMount.Proofs.Tree.RoundTrip` — what is stored in an archive is what is mounted

Indexing a written archive through any store that serves it, from an empty cache, succeeds;
the files of the tree are the stored files, and whatever has been opened before, opening a
file gives its content (`StoredArchive.round_trip`).
-/
import ArchiveMount.Proofs.Archive.Payload
import ArchiveMount.Proofs.Archive.ReadBack
import ArchiveMount.Proofs.Tree.Files
import ArchiveMount.Proofs.Tree.Indexing
import ArchiveMount.Proofs.Tree.Opening

namespace ArchiveMount

namespace StoredArchive

open ArchiveMount.Tree

variable {a : StoredArchive} (l : Locator)

/-! ## Indexing -/

theorem length_bytes_le (ha : a.WellFormed) : a.bytes.length ≤ maxWord := by
  have hd := ha.directory_lt
  have hl := ha.locals_lt
  have hc := ha.comment_lt
  rw [a.length_bytes, endPos]
  simp only [maxWord]
  omega

/-- Windows that reach the end record find it, and those before it do no harm. -/
theorem run_searchTail (ha : a.WellFormed) {ws : List Nat}
    (hw : ∃ w ∈ ws, a.bytes.length - w ≤ a.endPos) :
    (searchTail (Store.holding a.bytes) l a.bytes.length ws).run () = (.ok a.endFields, ()) := by
  induction ws with
  | nil =>
      obtain ⟨w, hw, -⟩ := hw
      cases hw
  | cons w ws ih =>
      have htail : (((Store.holding a.bytes).readRange l (.suffix w)).mapError TreeError.object).run
          () = (.ok (a.bytes.drop (a.bytes.length - w)), ()) := by
        rw [Attempt.run_mapError, Store.run_readRange_holding, ByteRange.part_suffix]
        rfl
      have hoff : a.bytes.length - (a.bytes.drop (a.bytes.length - w)).length =
          a.bytes.length - w := by
        rw [List.length_drop]
        omega
      rw [searchTail, Attempt.bind_ok htail, hoff, scanTail_drop ha (Nat.sub_le _ _)]
      by_cases hle : a.bytes.length - w ≤ a.endPos
      · rw [if_pos hle]
        rfl
      · rw [if_neg hle]
        refine ih ?_
        obtain ⟨v, hv, hvle⟩ := hw
        rcases List.mem_cons.1 hv with rfl | hv
        · exact absurd hvle hle
        · exact ⟨v, hv, hvle⟩

theorem run_locateDirectory (ha : a.WellFormed) :
    (locateDirectory (Store.holding a.bytes) l a.bytes.length).run () =
      (.ok a.endFields, ()) := by
  have hlen := a.length_bytes
  simp only [locateDirectory]
  rw [if_neg (by simp only [EndRecord.fixedLen]; omega)]
  refine run_searchTail l ha ⟨a.bytes.length, ?_, by omega⟩
  simp [windows]

/-- A cache that was empty, after the archive has been indexed. -/
def indexedCache (a : StoredArchive) (l : Locator) : Cache :=
  if a.directory = [] then {}
  else ({} : Cache).put (directoryKey l a.bytes.length a.endFields).digest a.directory

theorem run_readDirectory (ha : a.WellFormed) :
    (readDirectory (Store.holding a.bytes) l a.bytes.length a.endFields).run ((), {}) =
      (.ok a.directory, ((), a.indexedCache l)) := by
  have hlen := a.length_bytes
  simp only [endPos] at hlen
  simp only [indexedCache]
  by_cases h₀ : a.directory = []
  · have hz : a.endFields.directorySize = 0 := by
      show a.directory.length = 0
      rw [h₀, List.length_nil]
    rw [readDirectory_of_eq_zero hz, if_pos h₀, h₀, Attempt.run_pure]
  · have hpos : 0 < a.directory.length := List.length_pos_iff.2 h₀
    have hp : (((Store.holding a.bytes).readRange l
        (.ofSpan a.locals.length a.directory.length)).mapError TreeError.object).run () =
        (.ok a.directory, ()) := by
      rw [Attempt.run_mapError, Store.run_readRange_holding,
        ByteRange.part_ofSpan hpos (by omega) (length_bytes_le ha), slice_directory]
      rfl
    have hle : a.endFields.directoryOffset + a.endFields.directorySize ≤ a.bytes.length := by
      show a.locals.length + a.directory.length ≤ a.bytes.length
      omega
    rw [readDirectory_of_le (Nat.ne_of_gt hpos) hle, if_neg h₀]
    exact Cache.run_fill_of_ok rfl hp

theorem checkEntries_eq_ok {rs : List EntryRecord}
    (hrs : List.Forall₂ CentralDirectory.Describes a.entries rs) :
    checkEntries a.bytes.length rs = .ok () := by
  have hnone : rs.find? (fun r => !r.isDir &&
      decide (a.bytes.length < r.headerOffset + LocalHeader.fixedLen + r.compressedSize)) =
      none := by
    refine List.find?_eq_none.2 fun r hr => ?_
    obtain ⟨e, he, t, rfl⟩ := CentralDirectory.exists_of_describes_right hrs hr
    obtain ⟨-, -, -, -, hle⟩ := exists_of_mem_entries he
    have hlen := a.length_bytes
    simp only [endPos] at hlen
    rw [StoredFile.length_part, StoredFile.length_localHeader] at hle
    rw [Bool.and_eq_true, decide_eq_true_iff]
    rintro ⟨-, hlt⟩
    have hlt : a.bytes.length < e.1 + 30 + e.2.content.length := hlt
    omega
  simp only [checkEntries]
  rw [hnone]

/-- The records of a written archive are those of its files, and they are apart. -/
theorem flat_of_describes (ha : a.WellFormed) {rs : List EntryRecord}
    (hrs : List.Forall₂ CentralDirectory.Describes a.entries rs) : Flat rs := by
  have hnames : rs.map (fun r => TreePath.ofText r.name) = a.files.map StoredFile.path := by
    rw [← a.map_snd_entries]
    exact CentralDirectory.map_of_describes (fun _ _ _ => rfl) hrs
  constructor
  · intro r hr
    obtain ⟨e, he, t, rfl⟩ := CentralDirectory.exists_of_describes_right hrs hr
    have hf := ha.files _ (mem_files_of_mem_entries he)
    have hnot : ".." ∉ TreePath.split e.2.name := by
      simpa [TreePath.climbs] using hf.not_climbs
    exact ⟨hnot, hf.path_ne_nil⟩
  · intro r hr
    obtain ⟨e, -, t, rfl⟩ := CentralDirectory.exists_of_describes_right hrs hr
    rfl
  · rw [hnames]
    exact ha.apart

/-- The tree that indexing makes. -/
theorem run_build_written (ha : a.WellFormed) :
    ∃ rs, (build (Store.holding a.bytes) l).run ((), {}) =
        (.ok (.ofRecords l a.bytes.length rs), ((), a.indexedCache l)) ∧
      List.Forall₂ CentralDirectory.Describes a.entries rs := by
  obtain ⟨rs, hparse, hrs⟩ := parse_directory ha
  refine ⟨rs, ?_, hrs⟩
  have hlocated : located l a.bytes = .ok a.endFields := by
    rw [located, run_locateDirectory l ha]
  have hindexed : indexed l a.bytes.length a.endFields a.directory =
      .ok (.ofRecords l a.bytes.length rs) := by
    have hentries : a.endFields.entries = a.files.length := rfl
    simp only [indexed, hentries, hparse, Except.mapError, bind, Except.bind,
      checkEntries_eq_ok hrs]
    rfl
  rw [run_build_of_ok hlocated, Attempt.bind_ok (run_readDirectory l ha), hindexed,
    Attempt.run_ofExcept]

/-! ## Fetching -/

variable {l} {σ : Type} {store : Store σ} {ok : σ → Prop} {e : Nat × StoredFile}

/-- The entry of the tree that a stored file makes. -/
def entryOf (e : Nat × StoredFile) (t : Nat) : TreeEntry := .ofRecord e.2.path (e.2.record e.1 t)

/-- Decoding what a store delivers of a content gives the content. -/
theorem decodeBody_stored {b : Body} {content : Bytes} (hf : b.failure = none)
    (hc : b.chunks.flatten = content) :
    ∃ d, decodeBody ⟨content.length, crc32 content, .stored #[]⟩ b = .ok d ∧
      d.finish = .ok content := by
  obtain ⟨d, hd, hfin⟩ := PayloadDecoder.finish_writeAll_stored hc
  refine ⟨d, ?_, hfin⟩
  simp only [decodeBody]
  rw [hd, hf]

/-- Fetching a file finds its header, and behind it the content. -/
theorem run_fetch (ha : a.WellFormed) (hserves : store.Serves l a.bytes ok)
    (rs : List EntryRecord) (he : e ∈ a.entries) (t : Nat) {s : σ} (hs : ok s) :
    ∃ s', (fetch store (.ofRecords l a.bytes.length rs) (entryOf e t)).run s =
      (.ok e.2.content, s') ∧ ok s' := by
  obtain ⟨-, -, -, -, hle⟩ := exists_of_mem_entries he
  have hlen := a.length_bytes
  have hmax := length_bytes_le ha
  simp only [endPos] at hlen
  rw [StoredFile.length_part, StoredFile.length_localHeader] at hle
  have hend : e.1 + e.2.localHeader.length + e.2.content.length ≤ a.bytes.length := by
    rw [StoredFile.length_localHeader]
    omega
  obtain ⟨h, hparse, hoff⟩ := parse_localNumbers ha he
  obtain ⟨s₁, hraw, hs₁⟩ := hserves.run_readRange hs (.ofSpan e.1 LocalHeader.fixedLen)
  rw [ByteRange.part_ofSpan (by decide) (by simp only [LocalHeader.fixedLen]; omega) hmax] at hraw
  have hfits : ¬ a.bytes.length < addSat (e.1 + e.2.localHeader.length) e.2.content.length := by
    rw [addSat_eq_add (by omega)]
    omega
  have hnew : PayloadDecoder.new .stored e.2.content.length (crc32 e.2.content) =
      .ok ⟨e.2.content.length, crc32 e.2.content, .stored #[]⟩ := rfl
  simp only [fetch, entryOf, TreeEntry.ofRecord, StoredFile.record, Tree.ofRecords,
    Bool.false_eq_true, if_false, Attempt.run_bind, Attempt.run_mapError, hraw, Except.mapError,
    Attempt.run_ofExcept, hparse, hoff, if_neg hfits, hnew]
  split_ifs with hpos
  · obtain ⟨b, s₂, hb, ⟨hf, hc⟩, hs₂⟩ := hserves.run_download hs₁
      (.ofSpan (e.1 + e.2.localHeader.length) e.2.content.length)
    rw [ByteRange.part_ofSpan hpos hend hmax, slice_content he] at hc
    obtain ⟨d, hd, hfin⟩ := decodeBody_stored hf hc
    refine ⟨s₂, ?_, hs₂⟩
    simp only [Attempt.run_bind, Attempt.run_mapError, hb, Except.mapError, Attempt.run_ofExcept,
      hd, hfin]
  · -- nothing is downloaded for an empty file
    have hnil : e.2.content = [] := List.length_eq_zero_iff.1 (by omega)
    have hempty : PayloadDecoder.finish ⟨0, crc32 [], .stored #[]⟩ = .ok [] :=
      PayloadDecoder.finish_stored rfl rfl
    refine ⟨s₁, ?_, hs₁⟩
    simp only [Attempt.run_bind, Attempt.run_pure, Attempt.run_mapError, Attempt.run_ofExcept,
      hnil, List.length_nil, hempty]
    rfl

/-! ## Opening -/

/-- The key of a file's content. -/
def entryKey (l : Locator) (e : Nat × StoredFile) : CacheKey :=
  .entry l.render e.1 e.2.content.length e.2.content.length (crc32 e.2.content)

/-- The keys that are used for an archive. -/
def keys (a : StoredArchive) (l : Locator) : List CacheKey :=
  directoryKey l a.bytes.length a.endFields :: a.entries.map (entryKey l)

/-- The store is in order, and what the cache holds for a file is its content. -/
structure Holds (a : StoredArchive) (l : Locator) (ok : σ → Prop) (w : σ × Cache) : Prop where
  store : ok w.1
  content : ∀ e ∈ a.entries, ∀ data, w.2.get? (entryKey l e) = some data → data = e.2.content

theorem entryKey_mem_keys (he : e ∈ a.entries) : entryKey l e ∈ a.keys l :=
  List.mem_cons_of_mem _ (List.mem_map_of_mem he)

/-- Indexing files nothing under the key of a file. -/
theorem holds_indexedCache (hk : CacheKey.Distinct (a.keys l)) {s : σ} (hs : ok s) :
    a.Holds l ok (s, a.indexedCache l) := by
  refine ⟨hs, fun e he data hdata => ?_⟩
  have hne : (entryKey l e).digest ≠ (directoryKey l a.bytes.length a.endFields).digest := by
    intro h
    have := hk _ (entryKey_mem_keys he) _ List.mem_cons_self h
    cases this
  simp only [indexedCache] at hdata
  split_ifs at hdata
  · cases hdata
  · rw [Cache.get?, Cache.find?_put_of_ne _ _ hne] at hdata
    cases hdata

/-- Filling in the content of a file keeps what the cache holds in order. -/
theorem Holds.put (hk : CacheKey.Distinct (a.keys l)) {w : σ × Cache} (h : a.Holds l ok w)
    (he : e ∈ a.entries) {s : σ} (hs : ok s) :
    a.Holds l ok (s, w.2.put (entryKey l e).digest e.2.content) := by
  refine ⟨hs, fun e' he' data hdata => ?_⟩
  by_cases hd : (entryKey l e').digest = (entryKey l e).digest
  · have heq := hk _ (entryKey_mem_keys he') _ (entryKey_mem_keys he) hd
    have hoff : e'.1 = e.1 := by
      simp only [entryKey] at heq
      injection heq
    rw [eq_of_mem_entries he' he hoff]
    rw [Cache.get?, hd, Cache.find?_put_self] at hdata
    exact (Option.some.inj hdata).symm
  · rw [Cache.get?, Cache.find?_put_of_ne _ _ hd] at hdata
    exact h.content e' he' data hdata

/-- Opening a stored file gives its content, from the cache or from the store. -/
theorem run_fill_entryKey (ha : a.WellFormed) (hk : CacheKey.Distinct (a.keys l))
    (hserves : store.Serves l a.bytes ok) (rs : List EntryRecord) (he : e ∈ a.entries) (t : Nat)
    {w : σ × Cache} (h : a.Holds l ok w) :
    ∃ w', (Cache.fill (entryKey l e)
        (fetch store (.ofRecords l a.bytes.length rs) (entryOf e t))).run w =
      (.ok e.2.content, w') ∧ a.Holds l ok w' := by
  obtain ⟨s, c⟩ := w
  cases hc : c.get? (entryKey l e) with
  | some data =>
      obtain rfl := h.content e he data hc
      exact ⟨(s, c), Cache.run_fill_of_some hc, h⟩
  | none =>
      obtain ⟨s', hfetch, hs'⟩ := run_fetch ha hserves rs he t h.store
      exact ⟨_, Cache.run_fill_of_ok hc hfetch, h.put hk he hs'⟩

theorem run_openPath_of_entryAt (ha : a.WellFormed) (hk : CacheKey.Distinct (a.keys l))
    (hserves : store.Serves l a.bytes ok) {rs : List EntryRecord} (he : e ∈ a.entries) {t : Nat}
    {p : TreePath} (hp : (Tree.ofRecords l a.bytes.length rs).entryAt p = .ok (entryOf e t))
    {w : σ × Cache} (h : a.Holds l ok w) :
    ∃ w', (openPath store (.ofRecords l a.bytes.length rs) p).run w = (.ok e.2.content, w') ∧
      a.Holds l ok w' := by
  obtain ⟨w', hfill, hw'⟩ := run_fill_entryKey ha hk hserves rs he t h
  refine ⟨w', ?_, hw'⟩
  exact run_openPath_of_fill hp rfl hfill rfl

/-- The entry of a stored file is found at its path. -/
theorem exists_entryAt (ha : a.WellFormed) {rs : List EntryRecord}
    (hrs : List.Forall₂ CentralDirectory.Describes a.entries rs) (he : e ∈ a.entries) :
    ∃ t, (Tree.ofRecords l a.bytes.length rs).entryAt e.2.path = .ok (entryOf e t) := by
  obtain ⟨r, hr, t, rfl⟩ := CentralDirectory.exists_of_describes_left hrs he
  have hf := ha.files _ (mem_files_of_mem_entries he)
  have hmem := (flat_of_describes ha hrs).ofRecord_mem_assemble hr
  have hentry : TreeEntry.ofRecord (TreePath.ofText (e.2.record e.1 t).name) (e.2.record e.1 t) =
      entryOf e t := rfl
  rw [hentry] at hmem
  have hpath : (entryOf e t).path = e.2.path := rfl
  have hnodup : ((Tree.ofRecords l a.bytes.length rs).entries.map (·.path)).Nodup :=
    Assembly.nodup_path_assemble rs
  have hfind : (Tree.ofRecords l a.bytes.length rs).find? e.2.path = some (entryOf e t) :=
    (find?_eq_some_iff hnodup hf.path_ne_nil).2 ⟨hmem, hpath⟩
  refine ⟨t, ?_⟩
  simp only [entryAt]
  rw [hfind]

/-- What can be opened is the entry of a stored file. -/
theorem exists_of_checkReadable {rs : List EntryRecord}
    (hrs : List.Forall₂ CentralDirectory.Describes a.entries rs) {p : TreePath} {te : TreeEntry}
    (hp : (Tree.ofRecords l a.bytes.length rs).entryAt p = .ok te)
    (hread : checkReadable te = .ok ()) : ∃ e ∈ a.entries, ∃ t, te = entryOf e t := by
  have hfile := isDir_of_checkReadable hread
  have hmem : te ∈ assemble rs := by
    simp only [entryAt, find?] at hp
    split_ifs at hp with hnil
    · cases hp
      cases hfile
    · cases hf : (Tree.ofRecords l a.bytes.length rs).entries.find? (·.path = p) with
      | none =>
          rw [hf] at hp
          cases hp
      | some te' =>
          rw [hf] at hp
          cases hp
          exact List.mem_of_find?_eq_some hf
  obtain ⟨r, hr, rfl⟩ := Flat.exists_of_mem_assemble hmem hfile
  obtain ⟨e, he, t, rfl⟩ := CentralDirectory.exists_of_describes_right hrs hr
  exact ⟨e, he, t, rfl⟩

/-- Whatever is opened, the store and the cache stay in order. -/
theorem holds_openPath (ha : a.WellFormed) (hk : CacheKey.Distinct (a.keys l))
    (hserves : store.Serves l a.bytes ok) {rs : List EntryRecord}
    (hrs : List.Forall₂ CentralDirectory.Describes a.entries rs) (p : TreePath) {w : σ × Cache}
    (h : a.Holds l ok w) :
    a.Holds l ok ((openPath store (.ofRecords l a.bytes.length rs) p).run w).2 := by
  cases hp : (Tree.ofRecords l a.bytes.length rs).entryAt p with
  | error x =>
      rw [run_openPath_of_entryAt_error hp]
      exact h
  | ok te =>
      cases hread : checkReadable te with
      | error x =>
          rw [run_openPath_of_unreadable hp hread]
          exact h
      | ok _ =>
          obtain ⟨e, he, t, rfl⟩ := exists_of_checkReadable hrs hp hread
          obtain ⟨w', hrun, hw'⟩ := run_openPath_of_entryAt ha hk hserves he hp h
          rw [hrun]
          exact hw'

theorem holds_opened (ha : a.WellFormed) (hk : CacheKey.Distinct (a.keys l))
    (hserves : store.Serves l a.bytes ok) {rs : List EntryRecord}
    (hrs : List.Forall₂ CentralDirectory.Describes a.entries rs) (texts : List String)
    {w : σ × Cache} (h : a.Holds l ok w) :
    a.Holds l ok (opened store (.ofRecords l a.bytes.length rs) texts w) := by
  induction texts generalizing w with
  | nil => exact h
  | cons text texts ih => exact ih (holds_openPath ha hk hserves hrs _ h)

/-- Indexing a written archive and opening its files gives back what was stored, whatever
store serves it and whatever is opened on the way.  Contents are cached under digests, so
that the keys of the archive must not collide. -/
theorem round_trip {a : StoredArchive} {l : Locator} {σ : Type} {store : Store σ}
    {ok : σ → Prop} (ha : a.WellFormed) (hserves : store.Serves l a.bytes ok)
    (hk : CacheKey.Distinct (a.keys l)) {s : σ} (hs : ok s) :
    ∃ t w, (build store l).run (s, {}) = (.ok t, w) ∧
      ((t.walk.filter fun e => !e.isDir).map fun e => (e.path, e.size)).Perm
        (a.files.map fun f => (TreePath.ofText f.name, f.content.length)) ∧
      ∀ (texts : List String), ∀ f ∈ a.files,
        ((t.open_ store f.name).run (t.opened store texts w)).1 = .ok f.content := by
  obtain ⟨rs, hbuild, hrs⟩ := run_build_written l ha
  obtain ⟨s', hs', hrun⟩ := run_build hserves hs {}
  rw [hbuild] at hrun
  refine ⟨.ofRecords l a.bytes.length rs, (s', a.indexedCache l), hrun, ?_, ?_⟩
  · have hperm := (flat_of_describes ha hrs).files_perm.map fun e : TreeEntry => (e.path, e.size)
    have heq : ((rs.map fun r => TreeEntry.ofRecord (TreePath.ofText r.name) r).map
        fun e => (e.path, e.size)) =
        a.files.map fun f => (TreePath.ofText f.name, f.content.length) := by
      rw [← a.map_snd_entries, List.map_map]
      exact CentralDirectory.map_of_describes (fun _ _ _ => rfl) hrs
    exact heq ▸ hperm
  · intro texts f hf
    rw [← a.map_snd_entries] at hf
    obtain ⟨e, he, rfl⟩ := List.mem_map.1 hf
    obtain ⟨t, hat⟩ := exists_entryAt ha hrs he
    obtain ⟨w', hrun, -⟩ := run_openPath_of_entryAt ha hk hserves he hat
      (holds_opened ha hk hserves hrs texts (holds_indexedCache hk hs'))
    exact congrArg Prod.fst hrun

/-! ## An archive of two files -/

/-- Two files, one of them in a directory, and a comment of one byte. -/
def sample : StoredArchive where
  files := [{ name := "a.txt", content := [104, 105] }, { name := "docs/b", content := [1, 2, 3] }]
  comment := [33]

/-- Where it is served. -/
def sampleLocator : Locator := ⟨"mem", some { host := "bucket" }, ["a.zip"], none, none⟩

theorem wellFormed_sample : sample.WellFormed where
  files f hf := by
    rcases List.mem_cons.1 hf with rfl | hf
    · constructor <;> decide +kernel
    · obtain rfl := List.mem_singleton.1 hf
      constructor <;> decide +kernel
  apart := by decide +kernel
  count_lt := by decide +kernel
  directory_lt := by decide +kernel
  locals_lt := by decide +kernel
  comment_lt := by decide +kernel
  last pos hpos hs := by
    have hle := hs.add_fixedLen_le
    rw [length_bytes] at hle
    -- only the one byte of the comment is left to stand on
    have hlast : pos = sample.endPos + 1 := by
      have hc : sample.comment.length = 1 := rfl
      simp only [EndRecord.fixedLen] at hle
      omega
    rw [hlast] at hs
    exact absurd hs (by decide +kernel)
  no_locator _ := by decide +kernel

/-- The two files come back from a store in memory. -/
theorem sample_round_trip :
    ∃ t w, (build MemoryStore.store sampleLocator).run
        ({ objects := [(sampleLocator.render, sample.bytes)] }, {}) = (.ok t, w) ∧
      ((t.walk.filter fun e => !e.isDir).map fun e => (e.path, e.size)).Perm
        (sample.files.map fun f => (TreePath.ofText f.name, f.content.length)) ∧
      ∀ (texts : List String), ∀ f ∈ sample.files,
        ((t.open_ MemoryStore.store f.name).run (t.opened MemoryStore.store texts w)).1 =
          .ok f.content :=
  round_trip wellFormed_sample (MemoryStore.serves sampleLocator sample.bytes)
    (by simp only [CacheKey.Distinct]; decide +kernel) ⟨rfl, by simp [MemoryStore.object]⟩

end StoredArchive

end ArchiveMount
