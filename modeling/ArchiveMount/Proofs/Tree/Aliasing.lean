/-
# `ArchiveMount.Proofs.Tree.Aliasing` — files that share a record of the cache

The key of a file names the locator, the place of its header, both its sizes and its
checksum, but not the method by which it is stored.  So two files of one archive that share a
header may share a key, though one of them is inflated and the other one is not.

Opening files one after the other leaves under each key the content of the first file with
this key that could be decoded (`get?_opened`).  `open_ne_iff_aliased` says exactly when that
shows: what is opened next comes to something else than it does alone if and only if it is
`Aliased` by a file stored by another method.
-/
import ArchiveMount.Proofs.Archive.Chunks
import ArchiveMount.Proofs.Tree.Verified

namespace ArchiveMount.Tree

open PayloadDecoder

variable {σ : Type} {store : Store σ} {t : Tree} {e e' : TreeEntry} {text : String}
  {data : Bytes} {ok : σ → Prop} {s : σ} {c : Cache} {k : CacheKey}

/-! ## The content of a file -/

/-- The stored form of a file, from where its header leads to.  Nothing is asked for if it
has no bytes. -/
def payload (data : Bytes) (start len : Nat) : Bytes :=
  if 0 < len then (ByteRange.ofSpan start len).part data else []

/-- A file holds these bytes: its header leads to a payload in the object, and this payload
is decoded to them. -/
structure Holds (data : Bytes) (t : Tree) (e : TreeEntry) (header : LocalHeader) (out : Bytes) :
    Prop where
  header_eq :
    LocalHeader.parse ((ByteRange.ofSpan e.headerOffset LocalHeader.fixedLen).part data) =
      .ok header
  inside : addSat (header.dataOffset e.headerOffset) e.compressedSize ≤ t.objectSize
  unpacks : Unpacks e.compression
    (payload data (header.dataOffset e.headerOffset) e.compressedSize) out
  declared : AsDeclared e.size e.crc32 out

/-- A body that delivers all of the payload is decoded to what the payload holds. -/
theorem finish_decodeBody_iff {d : PayloadDecoder} {body : Body} {range : ByteRange}
    {out : Bytes} (hnew : PayloadDecoder.new e.compression e.size e.crc32 = .ok d)
    (hbody : body.Delivers range data) :
    (∃ d', decodeBody d body = .ok d' ∧ d'.finish = .ok out) ↔
      Unpacks e.compression (range.part data) out ∧ AsDeclared e.size e.crc32 out := by
  obtain ⟨hwhole, hchunks⟩ := hbody
  rw [← hchunks, ← finish_writeAll_iff hnew, Attempt.bind_eq_ok_iff]
  simp only [decodeBody, hwhole]
  cases d.writeAll body.chunks <;> simp

/-- Over a store that serves the object, what stands from `start` on is decoded to what the
payload holds, in whatever chunks it comes. -/
theorem decodeFrom_eq_ok_iff (hserves : store.Serves t.locator data ok) (hs : ok s)
    {d : PayloadDecoder} (hnew : PayloadDecoder.new e.compression e.size e.crc32 = .ok d)
    (start : Nat) (out : Bytes) :
    ((decodeFrom store t e start d).run s).1 = .ok out ↔
      Unpacks e.compression (payload data start e.compressedSize) out ∧
        AsDeclared e.size e.crc32 out := by
  simp only [decodeFrom, payload]
  by_cases h : 0 < e.compressedSize
  · rw [if_pos h, if_pos h]
    obtain ⟨body, s', hbody, hdelivers, -⟩ :=
      hserves.run_download hs (.ofSpan start e.compressedSize)
    simp only [← finish_decodeBody_iff hnew hdelivers, Attempt.fst_run_bind_eq_ok_iff,
      Attempt.run_mapError, Attempt.run_ofExcept, Attempt.mapError_eq_ok_iff, hbody,
      Except.ok.injEq, exists_eq_left']
  · rw [if_neg h, if_neg h]
    have hempty := finish_writeAll_iff hnew [] out
    simp only [Attempt.run_mapError, Attempt.run_ofExcept, Attempt.mapError_eq_ok_iff]
    exact hempty

/-- Over a store that serves the object, what is fetched for a file is what it holds. -/
theorem fetch_eq_ok_iff (hserves : store.Serves t.locator data ok) (hs : ok s) (out : Bytes) :
    ((t.fetch store e).run s).1 = .ok out ↔ ∃ header, Holds data t e header out := by
  obtain ⟨s', hread, hs'⟩ :=
    hserves.run_readRange hs (.ofSpan e.headerOffset LocalHeader.fixedLen)
  simp only [fetch_eq, Attempt.fst_run_bind_eq_ok_iff, Attempt.run_mapError,
    Attempt.run_ofExcept, Attempt.mapError_eq_ok_iff, hread, Except.ok.injEq, exists_eq_left']
  refine exists_congr fun header => ?_
  constructor
  · rintro ⟨hheader, h⟩
    split_ifs at h with hpast
    · cases h
    · obtain ⟨d, hnew, h⟩ := Attempt.fst_run_bind_eq_ok_iff.1 h
      rw [Attempt.run_mapError, Attempt.run_ofExcept, Attempt.mapError_eq_ok_iff] at hnew
      obtain ⟨hunpacks, hdeclared⟩ := (decodeFrom_eq_ok_iff hserves hs' hnew _ out).1 h
      exact ⟨hheader, Nat.le_of_not_lt hpast, hunpacks, hdeclared⟩
  · rintro ⟨hheader, hinside, hunpacks, hdeclared⟩
    refine ⟨hheader, ?_⟩
    obtain ⟨d, hnew⟩ := exists_new_of_unpacks e.size e.crc32 hunpacks
    rw [if_neg (Nat.not_lt.2 hinside), Attempt.fst_run_bind_eq_ok_iff]
    refine ⟨d, ?_, (decodeFrom_eq_ok_iff hserves hs' hnew _ out).2 ⟨hunpacks, hdeclared⟩⟩
    rw [Attempt.run_mapError, Attempt.run_ofExcept, Attempt.mapError_eq_ok_iff]
    exact hnew

/-- What is fetched for a file from an object, if it can be decoded. -/
def content? (data : Bytes) (t : Tree) (e : TreeEntry) : Option Bytes :=
  ((t.fetch (.holding data) e).run ()).1.toOption

theorem content?_eq_some_iff {out : Bytes} :
    t.content? data e = some out ↔ ∃ header, Holds data t e header out := by
  rw [content?, Attempt.toOption_eq_some_iff]
  exact fetch_eq_ok_iff (Store.holding_serves data t.locator) trivial out

/-- Every store that serves the object gives the same content. -/
theorem toOption_fetch (hserves : store.Serves t.locator data ok) (hs : ok s) :
    ((t.fetch store e).run s).1.toOption = t.content? data e := by
  refine Option.ext fun out => ?_
  rw [content?_eq_some_iff, Attempt.toOption_eq_some_iff]
  exact fetch_eq_ok_iff hserves hs out

/-- What a file holds is decided by its key and its method. -/
theorem Holds.of_cacheKey_eq {header : LocalHeader} {out : Bytes}
    (h : Holds data t e header out) (hkey : t.cacheKey e = t.cacheKey e')
    (hmethod : e.compression = e'.compression) : Holds data t e' header out := by
  obtain ⟨-, hoffset, hcompressed, hsize, hcrc⟩ := CacheKey.entry.inj hkey
  obtain ⟨hheader, hinside, hunpacks, hdeclared⟩ := h
  rw [hoffset] at hheader hinside hunpacks
  rw [hcompressed] at hinside hunpacks
  rw [hmethod] at hunpacks
  rw [hsize, hcrc] at hdeclared
  exact ⟨hheader, hinside, hunpacks, hdeclared⟩

/-- Files of one key that are stored by one method have one content. -/
theorem content?_congr (hkey : t.cacheKey e = t.cacheKey e')
    (hmethod : e.compression = e'.compression) : t.content? data e = t.content? data e' := by
  refine Option.ext fun out => ?_
  rw [content?_eq_some_iff, content?_eq_some_iff]
  refine exists_congr fun header => ⟨?_, ?_⟩
  · intro h
    exact h.of_cacheKey_eq hkey hmethod
  · intro h
    exact h.of_cacheKey_eq hkey.symm hmethod.symm

/-! ## One opening -/

/-- The file that a text names, if it can be read at all. -/
def readable? (t : Tree) (text : String) : Option TreeEntry :=
  match t.stat text with
  | .error _ => none
  | .ok e =>
    match checkReadable e with
    | .error _ => none
    | .ok _ => some e

theorem readable?_eq_some_iff :
    t.readable? text = some e ↔ t.stat text = .ok e ∧ checkReadable e = .ok () := by
  simp only [readable?]
  cases hstat : t.stat text with
  | error x => simp
  | ok d =>
      simp only [Except.ok.injEq]
      constructor
      · intro h
        split at h
        · cases h
        · next hread =>
            obtain rfl := Option.some.inj h
            exact ⟨rfl, hread⟩
      · rintro ⟨rfl, hread⟩
        rw [hread]

theorem askedKey?_eq (t : Tree) (text : String) :
    t.askedKey? text = (t.readable? text).map t.cacheKey := by
  simp only [askedKey?, readable?]
  cases t.stat text with
  | error x => rfl
  | ok e =>
      dsimp only
      cases checkReadable e <;> rfl

/-- What cannot be read fails without a look at the cache. -/
theorem open_of_readable?_eq_none (store : Store σ) (h : t.readable? text = none) :
    ∃ x, ∀ w, (t.open_ store text).run w = (.error x, w) := by
  cases hstat : t.stat text with
  | error x => exact ⟨x, fun w => run_openPath_of_entryAt_error hstat⟩
  | ok e =>
      cases hread : checkReadable e with
      | error x => exact ⟨x, fun w => run_openPath_of_unreadable hstat hread⟩
      | ok _ =>
          rw [readable?_eq_some_iff.2 ⟨hstat, hread⟩] at h
          cases h

/-- A record of the right length is what opening gives. -/
theorem open_of_get?_eq_some {bytes : Bytes} (store : Store σ) (he : t.readable? text = some e)
    (hc : c.get? (t.cacheKey e) = some bytes) (hlen : bytes.length = e.size) (s : σ) :
    ((t.open_ store text).run (s, c)).1 = .ok bytes := by
  obtain ⟨hstat, hread⟩ := readable?_eq_some_iff.1 he
  have hfill : (Cache.fill (t.cacheKey e) (t.fetch store e)).run (s, c) = (.ok bytes, (s, c)) :=
    Cache.run_fill_of_some hc
  exact congrArg Prod.fst (run_openPath_of_fill hstat hread hfill hlen)

/-- Without a record opening comes to what fetching comes to. -/
theorem open_of_get?_eq_none (store : Store σ) (he : t.readable? text = some e)
    (hc : c.get? (t.cacheKey e) = none) (s : σ) :
    ((t.open_ store text).run (s, c)).1 = ((t.fetch store e).run s).1 := by
  obtain ⟨hstat, hread⟩ := readable?_eq_some_iff.1 he
  cases hfetch : (t.fetch store e).run s with
  | mk r s' =>
      cases r with
      | ok bytes =>
          have hdeclared := gives_fetch store t e s bytes (congrArg Prod.fst hfetch)
          have hfill := Cache.run_fill_of_ok hc hfetch
          exact congrArg Prod.fst (run_openPath_of_fill hstat hread hfill hdeclared.length_eq)
      | error x =>
          have hfill := Cache.run_fill_of_error hc hfetch
          rw [open_, run_openPath_of_readable hstat hread, Attempt.bind_error hfill]

/-- What opening a text files under a key, unless there is a record: the content of the
file, if this is its key. -/
def offer? (data : Bytes) (t : Tree) (k : CacheKey) (text : String) :
    Option (TreeEntry × Bytes) :=
  match t.readable? text with
  | none => none
  | some e => if t.cacheKey e = k then (t.content? data e).map fun bytes => (e, bytes) else none

/-- What is offered is the content of a file with this key. -/
theorem of_offer?_eq_some {bytes : Bytes} (h : t.offer? data k text = some (e, bytes)) :
    t.cacheKey e = k ∧ t.content? data e = some bytes := by
  simp only [offer?] at h
  split at h
  · cases h
  · split_ifs at h with hk
    obtain ⟨b, hb, heq⟩ := Option.map_eq_some_iff.1 h
    obtain ⟨rfl, rfl⟩ := Prod.mk.inj heq
    exact ⟨hk, hb⟩

/-- Opening a text over a store that serves the object keeps the store in order, and a key has
the record that it had before, or else the one that is offered. -/
theorem get?_open (hserves : store.Serves t.locator data ok) (hs : ok s) (c : Cache)
    (hk : ∀ k', t.askedKey? text = some k' → k.digest = k'.digest → k = k') :
    ok ((t.open_ store text).run (s, c)).2.1 ∧
      ((t.open_ store text).run (s, c)).2.2.get? k =
        (c.get? k).or ((t.offer? data k text).map Prod.snd) := by
  rw [askedKey?_eq] at hk
  simp only [offer?]
  cases he : t.readable? text with
  | none =>
      obtain ⟨x, hrun⟩ := open_of_readable?_eq_none store he
      rw [hrun]
      exact ⟨hs, Option.or_none.symm⟩
  | some e =>
      obtain ⟨hstat, hread⟩ := readable?_eq_some_iff.1 he
      rw [open_, snd_run_openPath hstat hread]
      refine ⟨Cache.keeps_fill (keeps_fetch hserves rfl e) _ (s, c) hs, ?_⟩
      dsimp only
      by_cases hself : t.cacheKey e = k
      · subst hself
        rw [if_pos rfl, Cache.get?_fill_self, toOption_fetch hserves hs, Option.map_map]
        exact congrArg _ Option.map_id'.symm
      · have hne : k.digest ≠ (t.cacheKey e).digest := by
          intro hd
          refine hself (hk _ ?_ hd).symm
          rw [he, Option.map_some]
        rw [if_neg hself, Cache.get?_fill_of_ne hne, Option.map_none, Option.or_none]

/-! ## Openings one after the other -/

/-- The keys under which opening texts looks for their content. -/
def askedKeys (t : Tree) (texts : List String) : List CacheKey := texts.filterMap t.askedKey?

theorem mem_askedKeys_cons {texts : List String} :
    k ∈ t.askedKeys (text :: texts) ↔ t.askedKey? text = some k ∨ k ∈ t.askedKeys texts := by
  simp only [askedKeys, List.mem_filterMap, List.mem_cons, exists_eq_or_imp]

/-- What opening texts one after the other leaves under a key: the first of the files with
this key that can be decoded, and its content. -/
def filed? (data : Bytes) (t : Tree) (k : CacheKey) (texts : List String) :
    Option (TreeEntry × Bytes) :=
  texts.findSome? (t.offer? data k)

/-- Of all files with a key that were opened, the first one that could be decoded has filed the
record. -/
theorem get?_opened (hserves : store.Serves t.locator data ok) (texts : List String) (hs : ok s)
    (c : Cache) (hk : ∀ k' ∈ t.askedKeys texts, k.digest = k'.digest → k = k') :
    ok (t.opened store texts (s, c)).1 ∧
      (t.opened store texts (s, c)).2.get? k =
        (c.get? k).or ((t.filed? data k texts).map Prod.snd) := by
  -- from text to text: a record that is there stays, and the next offer counts only without one
  induction texts generalizing s c with
  | nil => exact ⟨hs, Option.or_none.symm⟩
  | cons text texts ih =>
      obtain ⟨hs', hget⟩ := get?_open hserves hs c
        fun k' hk' => hk k' (mem_askedKeys_cons.2 (.inl hk'))
      obtain ⟨hs'', hget'⟩ := ih hs' ((t.open_ store text).run (s, c)).2.2
        fun k' hk' => hk k' (mem_askedKeys_cons.2 (.inr hk'))
      refine ⟨hs'', hget'.trans ?_⟩
      rw [hget, Option.or_assoc, filed?, filed?, List.findSome?_cons]
      cases t.offer? data k text <;> rfl

/-- A file of the same key, which is stored by another method, was opened before, and its
content is not what this one holds. -/
def Aliased (data : Bytes) (t : Tree) (texts : List String) (text : String) : Prop :=
  ∃ e first bytes, t.readable? text = some e ∧
    t.filed? data (t.cacheKey e) texts = some (first, bytes) ∧
    first.compression ≠ e.compression ∧ t.content? data e ≠ some bytes

/-- What is filed under the key of a file is as long as this file. -/
theorem length_of_filed?_eq_some {first : TreeEntry} {bytes : Bytes} {texts : List String}
    (h : t.filed? data (t.cacheKey e) texts = some (first, bytes)) : bytes.length = e.size := by
  obtain ⟨text', -, hoffer⟩ := List.exists_of_findSome?_eq_some h
  obtain ⟨hkey, hcontent⟩ := of_offer?_eq_some hoffer
  obtain ⟨-, -, -, hsize, -⟩ := CacheKey.entry.inj hkey
  obtain ⟨header, hholds⟩ := content?_eq_some_iff.1 hcontent
  exact hholds.declared.length_eq.trans hsize

/-- Files of one key that are stored by one method are no aliases of each other, so the method
need not be looked at. -/
theorem aliased_iff {texts : List String} (he : t.readable? text = some e) :
    t.Aliased data texts text ↔
      ∃ found, t.filed? data (t.cacheKey e) texts = some found ∧
        t.content? data e ≠ some found.2 := by
  constructor
  · rintro ⟨e', first, bytes, he', hfiled, -, hne⟩
    obtain rfl := Option.some.inj (he.symm.trans he')
    exact ⟨(first, bytes), hfiled, hne⟩
  · rintro ⟨⟨first, bytes⟩, hfiled, hne⟩
    obtain ⟨text', -, hoffer⟩ := List.exists_of_findSome?_eq_some hfiled
    obtain ⟨hkey, hcontent⟩ := of_offer?_eq_some hoffer
    refine ⟨e, first, bytes, he, hfiled, ?_, hne⟩
    intro hmethod
    rw [← content?_congr hkey hmethod] at hne
    exact hne hcontent

/-- After other texts, opening one gives what they have filed under its key, and without that
what is fetched. -/
theorem open_opened (hserves : store.Serves t.locator data ok) (hs : ok s) {texts : List String}
    (he : t.readable? text = some e) (hnone : c.get? (t.cacheKey e) = none)
    (hk : ∀ k' ∈ t.askedKeys texts, (t.cacheKey e).digest = k'.digest → t.cacheKey e = k') :
    let w := t.opened store texts (s, c)
    ok w.1 ∧ ((t.open_ store text).run w).1 =
      match t.filed? data (t.cacheKey e) texts with
      | some found => .ok found.2
      | none => ((t.fetch store e).run w.1).1 := by
  intro w
  obtain ⟨hw, hget⟩ := get?_opened hserves texts hs c hk
  rw [hnone, Option.none_or] at hget
  refine ⟨hw, ?_⟩
  cases hfiled : t.filed? data (t.cacheKey e) texts with
  | none =>
      rw [hfiled] at hget
      exact open_of_get?_eq_none store he hget w.1
  | some found =>
      rw [hfiled] at hget
      exact open_of_get?_eq_some store he hget (length_of_filed?_eq_some hfiled) w.1

/-- What was opened before, over any store that serves the object and with a cache that had no
record of the files in question, makes a difference to what is opened next exactly if that is
aliased: in the outcome from the state that the store is in, and in the content, if any, from
whatever state. -/
theorem open_ne_iff_aliased (hserves : store.Serves t.locator data ok) (hs : ok s)
    (texts : List String) (text : String)
    (hfresh : ∀ k ∈ t.askedKeys (text :: texts), c.get? k = none)
    (hk : CacheKey.Distinct (t.askedKeys (text :: texts))) :
    let w := t.opened store texts (s, c)
    (((t.open_ store text).run w).1 ≠ ((t.open_ store text).run (w.1, c)).1 ↔
        t.Aliased data texts text) ∧
      ∀ s', ok s' →
        (((t.open_ store text).run w).1.toOption ≠
            ((t.open_ store text).run (s', c)).1.toOption ↔
          t.Aliased data texts text) := by
  intro w
  cases he : t.readable? text with
  | none =>
      obtain ⟨x, hrun⟩ := open_of_readable?_eq_none store he
      have hnot : ¬ t.Aliased data texts text := by
        rintro ⟨e, -, -, he', -⟩
        rw [he] at he'
        cases he'
      simp only [hrun, ne_eq, not_true_eq_false, false_iff]
      exact ⟨hnot, fun _ _ => hnot⟩
  | some e =>
      have hmem : t.cacheKey e ∈ t.askedKeys (text :: texts) := by
        rw [mem_askedKeys_cons, askedKey?_eq, he, Option.map_some]
        exact .inl rfl
      obtain ⟨hw, hopen⟩ := open_opened hserves hs he (hfresh _ hmem)
        fun k' hk' => hk _ hmem k' (mem_askedKeys_cons.2 (.inr hk'))
      have halone := open_of_get?_eq_none store he (hfresh _ hmem)
      rw [aliased_iff he, hopen, halone]
      cases hfiled : t.filed? data (t.cacheKey e) texts with
      | none =>
          have hnot : ¬ ∃ found : TreeEntry × Bytes, none = some found ∧
              t.content? data e ≠ some found.2 := by simp
          refine ⟨iff_of_false (not_not_intro rfl) hnot, fun s' hs' => ?_⟩
          rw [halone, toOption_fetch hserves hw, toOption_fetch hserves hs']
          exact iff_of_false (not_not_intro rfl) hnot
      | some found =>
          simp only [Option.some.injEq, exists_eq_left']
          constructor
          · rw [← toOption_fetch hserves hw, ne_comm, ne_eq, ne_eq, Attempt.toOption_eq_some_iff]
          · intro s' hs'
            rw [halone, toOption_fetch hserves hs']
            exact ne_comm

/-! ## Two names for one header -/

namespace SharedHeader

/-- A stored file of one byte. -/
def file : StoredFile where
  name := "a"
  content := [7]

/-- Its record, and one of the same header under another name, which says that the byte is
deflated. -/
def directory : Bytes := file.central 0 ++ ({ file with name := "b" }.central 0).set 10 8

/-- The archive. -/
def object : Bytes :=
  file.part ++ (directory ++ Bytes.numbers [(4, EndRecord.signature), (4, 0), (2, 2), (2, 2),
    (4, directory.length), (4, file.part.length), (2, 0)])

/-- Where it is served. -/
def locator : Locator := ⟨"mem", some { host := "bucket" }, ["a.zip"], none, none⟩

/-- What the directory says of a name. -/
def record (name : String) (compression : Compression) : EntryRecord :=
  { file.record 0 (Timestamp.ofDos 33 0) with name, compression }

def records : List EntryRecord := [record "a" .stored, record "b" .deflated]

/-- The tree of the archive. -/
def tree : Tree where
  locator := locator
  objectSize := object.length
  root := .synthetic [] (Assembly.newest records)
  entries := [.ofRecord ["a"] (record "a" .stored), .ofRecord ["b"] (record "b" .deflated)]

/-- The end record. -/
def endRecord : EndRecord := ⟨0, 0, 2, directory.length, file.part.length, 0⟩

/-- What indexing leaves in the cache. -/
def cache : Cache :=
  ({} : Cache).put (directoryKey locator object.length endRecord).digest directory

theorem tree_eq : tree = .ofRecords locator object.length records := by
  let mentions : List Assembly.Mention :=
    [(["a"], some (record "a" .stored)), (["b"], some (record "b" .deflated))]
  have hmentions : records.flatMap Assembly.mentions = mentions := by decide +kernel
  have hsorted : mentions.Pairwise fun a b => a.1.le b.1 := by decide +kernel
  have hentries : assemble records = tree.entries := by
    show Assembly.entries _ (((records.flatMap Assembly.mentions).mergeSort _).foldr _ []) = _
    rw [hmentions, List.mergeSort_of_pairwise hsorted]
    decide +kernel
  rw [ofRecords, hentries]
  rfl

/-- Indexing the archive gives the tree. -/
theorem build_object :
    (build (.holding object) locator).run ((), {}) = (.ok tree, ((), cache)) := by
  have hrequest : request? locator object = some endRecord := by decide +kernel
  have hdirectory : directoryBytes endRecord object = directory := by decide +kernel
  have hparse : CentralDirectory.parse directory 2 = .ok records := by decide +kernel
  have hcheck : checkEntries object.length records = .ok () := by decide +kernel
  have hindexed : indexed locator object.length endRecord directory = .ok tree := by
    rw [tree_eq, indexed, Attempt.bind_eq_ok_iff]
    refine ⟨records, Attempt.mapError_eq_ok_iff.2 hparse, ?_⟩
    rw [Attempt.bind_eq_ok_iff]
    exact ⟨(), Attempt.mapError_eq_ok_iff.2 hcheck, rfl⟩
  rw [run_build_of_request?_eq_some hrequest, hdirectory, hindexed]
  rfl

theorem open_alone : ((tree.open_ (.holding object) "b").run ((), cache)).1 =
    .error (.archive (.malformed .corruptDeflate)) := by
  decide +kernel

theorem open_after : ((tree.open_ (.holding object) "b").run
    (tree.opened (.holding object) ["a"] ((), cache))).1 = .ok [7] := by
  decide +kernel

/-- Once the archive is indexed, the second name alone cannot be read.  After the first one it
can. -/
theorem open_after_ne_alone :
    (build (.holding object) locator).run ((), {}) = (.ok tree, ((), cache)) ∧
      ((tree.open_ (.holding object) "b").run ((), cache)).1 =
        .error (.archive (.malformed .corruptDeflate)) ∧
      ((tree.open_ (.holding object) "b").run
        (tree.opened (.holding object) ["a"] ((), cache))).1 = .ok [7] :=
  ⟨build_object, open_alone, open_after⟩

/-- The second name is aliased by the first one, for opening it shows it. -/
theorem aliased_by_first :
    (∀ k ∈ tree.askedKeys ["b", "a"], cache.get? k = none) ∧
      CacheKey.Distinct (tree.askedKeys ["b", "a"]) ∧ tree.Aliased object ["a"] "b" := by
  have hfresh : ∀ k ∈ tree.askedKeys ["b", "a"], cache.get? k = none := by decide +kernel
  have hdistinct : CacheKey.Distinct (tree.askedKeys ["b", "a"]) := by
    simp only [CacheKey.Distinct]
    decide +kernel
  obtain ⟨-, hcontent⟩ := open_ne_iff_aliased (s := ())
    (Store.holding_serves object tree.locator) trivial ["a"] "b" hfresh hdistinct
  refine ⟨hfresh, hdistinct, (hcontent () trivial).1 ?_⟩
  rw [open_after, open_alone]
  exact Option.some_ne_none _

end SharedHeader

end ArchiveMount.Tree
