/-
# `ArchiveMount.Proofs.Tree.Verified` — every byte that is served was verified

Any number of trees share a cache that was empty at first, over stores that may answer
anything: wrong bytes, bodies of any length, errors, another object at every call.  What is
done one after the other is a list of `Deed`s.  The trees that files are opened in may be
any, whether or not indexing one of the objects gives them.

A deed changes the cache only by one new record under the key it asks for, and what is filed
for a file has passed the decoder (`Deed.after_cases`).  So each record is what its key
admits (`Cache.Verified`), whatever has been done.  As long as BLAKE3 has no collision on the
keys, no other record is found under the key of a file, and what is read of a file that could
be opened has the length and the checksum that its entry declares (`Deed.open_verified`).
-/
import ArchiveMount.Proofs.Archive.Payload
import ArchiveMount.Proofs.Cache.Key
import ArchiveMount.Proofs.Tree.Reuse
import Mathlib.Algebra.GroupWithZero.Nat

namespace ArchiveMount

open PayloadDecoder

/-! ## Reading a file through -/

theorem length_readAt (content : Bytes) (offset count : Nat) :
    (readAt content offset count).length = min count (content.length - offset) :=
  Bytes.length_slice content offset count

/-- Nothing lies at the end or past it. -/
theorem readAt_of_length_le {content : Bytes} {offset : Nat} (h : content.length ≤ offset)
    (count : Nat) : readAt content offset count = [] := by
  rw [readAt, Bytes.slice, List.drop_eq_nil_of_le h, List.take_nil]

/-- Two reads, the second one from where the first one ends, are one. -/
theorem readAt_append (content : Bytes) (offset m n : Nat) :
    readAt content offset m ++ readAt content (offset + (readAt content offset m).length) n =
      readAt content offset (m + n) := by
  rw [length_readAt]
  by_cases h : m ≤ content.length - offset
  · rw [Nat.min_eq_left h, readAt, readAt, readAt, Bytes.slice, Bytes.slice, Bytes.slice,
      List.take_add, List.drop_drop]
  · have hleft : (content.drop offset).length ≤ m := by
      rw [List.length_drop]
      omega
    have hnone : readAt content (offset + min m (content.length - offset)) n = [] :=
      readAt_of_length_le (by omega) n
    rw [hnone, List.append_nil, readAt, readAt, Bytes.slice, Bytes.slice,
      List.take_of_length_le hleft, List.take_of_length_le (by omega)]

namespace Cursor

/-- What is read in pieces, each of at most as many bytes as are asked for. -/
def readPieces : Cursor → (counts : List Nat) → Bytes
  | _, [] => []
  | c, n :: counts => (c.read n).1 ++ (c.read n).2.readPieces counts

/-- Pieces read one after the other are one piece. -/
theorem readPieces_eq (c : Cursor) (counts : List Nat) :
    c.readPieces counts = readAt c.content c.position counts.sum := by
  induction counts generalizing c with
  | nil => rfl
  | cons n counts ih =>
      rw [readPieces, ih, List.sum_cons]
      exact readAt_append c.content c.position n counts.sum

/-- Pieces that ask for enough are the whole content. -/
theorem readPieces_of_le {content : Bytes} {counts : List Nat} (h : content.length ≤ counts.sum) :
    (Cursor.mk content 0).readPieces counts = content := by
  rw [readPieces_eq]
  simp only [readAt, Bytes.slice, List.drop_zero]
  exact List.take_of_length_le h

end Cursor

namespace Tree

variable {σ : Type} {store : Store σ} {t : Tree} {text : String} {w : σ × Cache} {data : Bytes}

/-! ## Fetching and opening -/

theorem expects_of_decodeBody {d d' : PayloadDecoder} {body : Body} {size : Nat} {crc : UInt32}
    (hd : d.Expects size crc) (h : decodeBody d body = .ok d') : d'.Expects size crc := by
  simp only [decodeBody] at h
  cases hw : d.writeAll body.chunks with
  | error e =>
      rw [hw] at h
      cases h
  | ok d₁ =>
      rw [hw] at h
      cases hf : body.failure with
      | some e =>
          rw [hf] at h
          cases h
      | none =>
          rw [hf] at h
          obtain rfl := Except.ok.inj h
          exact hd.writeAll hw

/-- Whatever a store answers, what is fetched for a file is what is declared of it. -/
theorem gives_fetch (store : Store σ) (t : Tree) (e : TreeEntry) :
    Attempt.Gives (AsDeclared e.size e.crc32) (t.fetch store e) := by
  have hnew : Attempt.Gives (·.Expects e.size e.crc32)
      ((Attempt.ofExcept (PayloadDecoder.new e.compression e.size e.crc32) :
        Attempt σ _ _).mapError TreeError.archive) := by
    refine (Attempt.Gives.ofExcept ?_).mapError _
    intro d hd
    exact Expects.new hd
  have hfinish : ∀ d : PayloadDecoder, d.Expects e.size e.crc32 →
      Attempt.Gives (AsDeclared e.size e.crc32)
        ((Attempt.ofExcept d.finish : Attempt σ _ _).mapError TreeError.archive) := by
    intro d hd
    refine (Attempt.Gives.ofExcept ?_).mapError _
    intro out hout
    exact hd.finish hout
  rw [fetch_eq]
  refine .bind fun raw => .bind fun header => ?_
  split_ifs
  · exact .fail _ _
  · refine hnew.bind_of ?_
    intro d hd
    simp only [decodeFrom]
    split_ifs
    · refine .bind fun body => .bind_of (.ofExcept ?_) hfinish
      intro d' hd'
      exact expects_of_decodeBody hd hd'
    · exact hfinish d hd

/-- A file that could be opened is an entry, its content came from the cache, and the length
of the content was looked at. -/
theorem open_ok_cases (h : ((t.open_ store text).run w).1 = .ok data) :
    ∃ e, t.stat text = .ok e ∧ t.askedKey? text = some (t.cacheKey e) ∧ data.length = e.size ∧
      ((Cache.fill (t.cacheKey e) (t.fetch store e)).run w).1 = .ok data := by
  obtain ⟨e, he, hread, hsize, hfill⟩ := openPath_ok_cases h
  have hstat : t.stat text = .ok e := he
  refine ⟨e, hstat, ?_, hsize, hfill⟩
  simp only [askedKey?, hstat, hread]

/-- Opening leaves a cache as it is, or files what is declared of a file. -/
theorem cache_open_cases (store : Store σ) (t : Tree) (text : String) (s : σ) (c : Cache) :
    ((t.open_ store text).run (s, c)).2.2 = c ∨
      ∃ e bytes, t.askedKey? text = some (t.cacheKey e) ∧ c.get? (t.cacheKey e) = none ∧
        AsDeclared e.size e.crc32 bytes ∧
        ((t.open_ store text).run (s, c)).2.2 = c.put (t.cacheKey e).digest bytes := by
  rcases open_cases store t text (s, c) with ⟨-, x, hrun⟩ | ⟨e, he, hread, hk⟩
  · rw [hrun]
    exact .inl rfl
  · rw [open_, snd_run_openPath he hread]
    rcases Cache.fill_cases (t.cacheKey e) (t.fetch store e) s c with heq | ⟨bytes, hc, hbytes, heq⟩
    · exact .inl heq
    · exact .inr ⟨e, bytes, hk, hc, gives_fetch store t e s bytes hbytes, heq⟩

/-! ## Indexing over any store -/

/-- The first steps of indexing, which leave the cache alone: the size of the object and its
end record. -/
def survey (store : Store σ) (l : Locator) : Attempt σ TreeError (Nat × EndRecord) := do
  let size ← (store.sizeOf l).mapError .object
  let r ← locateDirectory store l size
  return (size, r)

/-- The key under which indexing looks for the directory, if it gets so far. -/
def fetchedKey? (store : Store σ) (l : Locator) (s : σ) : Option CacheKey :=
  match ((survey store l).run s).1 with
  | .error _ => none
  | .ok (size, r) =>
    if r.directorySize ≠ 0 ∧ r.directoryOffset + r.directorySize ≤ size then
      some (directoryKey l size r)
    else none

theorem onStore_bind {ε α β : Type} (x : Attempt σ ε α) (f : α → Attempt σ ε β) :
    onStore (x >>= f) = onStore x >>= fun a => onStore (f a) := by
  funext ⟨s, c⟩
  show Attempt.run _ (s, c) = Attempt.run _ (s, c)
  rw [Attempt.run_bind]
  simp only [onStore, Attempt.run, Attempt.zoom]
  cases hx : x s with
  | mk r s' =>
      cases r with
      | ok a => exact congrArg (fun y => (y.1, (y.2, c))) (Attempt.bind_ok hx f)
      | error e => exact congrArg (fun y => (y.1, (y.2, c))) (Attempt.bind_error hx f)

/-- Indexing is the survey, a look at the directory, and work on what was read. -/
theorem build_eq (store : Store σ) (l : Locator) :
    build store l = onStore (survey store l) >>= fun found =>
      readDirectory store l found.1 found.2 >>= fun directory =>
        Attempt.ofExcept (indexed l found.1 found.2 directory) := by
  simp only [build, survey, onStore_bind, ofExcept_indexed, bind_assoc]
  rfl

/-- A directory is looked for under the key that the survey leads to. -/
theorem cache_readDirectory_cases (store : Store σ) (l : Locator) (size : Nat) (r : EndRecord)
    (w : σ × Cache) :
    ((readDirectory store l size r).run w).2.2 = w.2 ∨
      ∃ bytes, (r.directorySize ≠ 0 ∧ r.directoryOffset + r.directorySize ≤ size) ∧
        w.2.get? (directoryKey l size r) = none ∧
        ((readDirectory store l size r).run w).2.2 =
          w.2.put (directoryKey l size r).digest bytes := by
  by_cases h₀ : r.directorySize = 0
  · rw [readDirectory_of_eq_zero h₀]
    exact .inl rfl
  · by_cases hle : r.directoryOffset + r.directorySize ≤ size
    · obtain ⟨s, c⟩ := w
      rw [readDirectory_of_le h₀ hle]
      rcases Cache.fill_cases (directoryKey l size r) _ s c with heq | ⟨bytes, hc, -, heq⟩
      · exact .inl heq
      · exact .inr ⟨bytes, ⟨h₀, hle⟩, hc, heq⟩
    · rw [readDirectory_of_lt h₀ (Nat.lt_of_not_le hle)]
      exact .inl rfl

/-- Indexing leaves a cache as it is, or files a directory under the key it looks for. -/
theorem cache_build_cases (store : Store σ) (l : Locator) (s : σ) (c : Cache) :
    ((build store l).run (s, c)).2.2 = c ∨
      ∃ k bytes, fetchedKey? store l s = some k ∧ ¬ k.IsEntry ∧ c.get? k = none ∧
        ((build store l).run (s, c)).2.2 = c.put k.digest bytes := by
  have hrun : (onStore (survey store l)).run (s, c) =
      (((survey store l).run s).1, (((survey store l).run s).2, c)) := rfl
  rw [build_eq, Attempt.run_bind, hrun]
  cases hsurvey : ((survey store l).run s).1 with
  | error e => exact .inl rfl
  | ok found =>
      obtain ⟨size, r⟩ := found
      dsimp only
      -- what was read does not matter for the cache
      have hwork : ∀ w : σ × Cache, ((readDirectory store l size r >>= fun directory =>
          Attempt.ofExcept (indexed l size r directory)).run w).2 =
            ((readDirectory store l size r).run w).2 := by
        intro w
        rw [Attempt.run_bind]
        split <;> rfl
      rw [hwork]
      rcases cache_readDirectory_cases store l size r (((survey store l).run s).2, c) with
        heq | ⟨bytes, hfits, hc, heq⟩
      · exact .inl heq
      · refine .inr ⟨directoryKey l size r, bytes, ?_, id, hc, heq⟩
        simp only [fetchedKey?, hsurvey]
        exact if_pos hfits

end Tree

/-! ## What is done with a shared cache -/

/-- What may be filed under a key: for a file, what is declared of it. -/
def CacheKey.Admits : CacheKey → Bytes → Prop
  | .entry _ _ _ size crc, bytes => AsDeclared size crc bytes
  | .range .., _ => True

/-- One use of a shared cache, by any tree and over a store of its own. -/
inductive Deed (σ : Type)
  | indexing (store : Store σ) (l : Locator)
  | opening (store : Store σ) (t : Tree) (text : String)

namespace Deed

variable {σ : Type}

/-- The state and the cache after one deed. -/
def after (w : σ × Cache) : Deed σ → σ × Cache
  | indexing store l => ((Tree.build store l).run w).2
  | opening store t text => ((t.open_ store text).run w).2

/-- The key under which a deed looks into the cache, if it does. -/
def asked? (s : σ) : Deed σ → Option CacheKey
  | indexing store l => Tree.fetchedKey? store l s
  | opening _ t text => t.askedKey? text

/-- The state and the cache after deeds one after the other. -/
def afterAll (w : σ × Cache) (deeds : List (Deed σ)) : σ × Cache := deeds.foldl after w

/-- The keys used by deeds one after the other. -/
def keys (w : σ × Cache) : List (Deed σ) → List CacheKey
  | [] => []
  | x :: deeds => (x.asked? w.1).toList ++ keys (x.after w) deeds

/-- A deed changes the cache only by a missing record under the key it asks for, and this
record is one that the key admits. -/
theorem after_cases (x : Deed σ) (s : σ) (c : Cache) :
    (x.after (s, c)).2 = c ∨
      ∃ k bytes, x.asked? s = some k ∧ k.Admits bytes ∧ c.get? k = none ∧
        (x.after (s, c)).2 = c.put k.digest bytes := by
  cases x with
  | indexing store l =>
      rcases Tree.cache_build_cases store l s c with heq | ⟨k, bytes, hk, hrange, hc, heq⟩
      · exact .inl heq
      · refine .inr ⟨k, bytes, hk, ?_, hc, heq⟩
        cases k with
        | entry => exact absurd trivial hrange
        | range => trivial
  | opening store t text =>
      rcases Tree.cache_open_cases store t text s c with heq | ⟨e, bytes, hk, hc, hbytes, heq⟩
      · exact .inl heq
      · exact .inr ⟨t.cacheKey e, bytes, hk, hbytes, hc, heq⟩

end Deed

/-! ## The records of the cache -/

/-- Each record was filed under one of the keys, and is what this key admits. -/
def Cache.Verified (ks : List CacheKey) (c : Cache) : Prop :=
  ∀ d bytes, c.find? d = some bytes → ∃ k ∈ ks, k.digest = d ∧ k.Admits bytes

namespace Cache.Verified

variable {ks ks' : List CacheKey} {c : Cache} {k : CacheKey} {bytes : Bytes}

theorem empty : Cache.Verified [] {} := by
  intro d bytes hd
  cases hd

theorem mono (h : c.Verified ks) (hsub : ks ⊆ ks') : c.Verified ks' := by
  intro d bytes hd
  obtain ⟨k, hk, h'⟩ := h d bytes hd
  exact ⟨k, hsub hk, h'⟩

theorem put (h : c.Verified ks) (hk : k ∈ ks) (hb : k.Admits bytes) :
    (c.put k.digest bytes).Verified ks := by
  intro d bytes' hd
  rcases Cache.find?_put_cases hd with ⟨rfl, rfl⟩ | hd
  · exact ⟨k, hk, rfl, hb⟩
  · exact h d bytes' hd

/-- What is found under the key of a file has the checksum in this key. -/
theorem crc_eq {locator : String} {headerOffset compressedSize size : Nat} {crc : UInt32}
    (h : c.Verified ks) (hno : CacheKey.NoCollision ks)
    (hk : .entry locator headerOffset compressedSize size crc ∈ ks)
    (hget : c.get? (.entry locator headerOffset compressedSize size crc) = some bytes) :
    crc32 bytes = crc := by
  -- the record was filed under some key of the same name, perhaps not this one
  obtain ⟨k', hk', hd, hadmits⟩ := h _ _ hget
  have henc := hno.encoding_eq hk' hk hd
  cases k' with
  | entry locator' headerOffset' compressedSize' size' crc' =>
      obtain rfl := CacheKey.crc_eq_of_encoding_eq henc
      exact hadmits.crc_eq
  | range locator' objectSize start stop =>
      exact absurd henc (CacheKey.encoding_range_ne_entry objectSize start stop)

end Cache.Verified

namespace Deed

variable {σ : Type} {w : σ × Cache} {ks : List CacheKey}

theorem keys_append (w : σ × Cache) (deeds deeds' : List (Deed σ)) :
    keys w (deeds ++ deeds') = keys w deeds ++ keys (afterAll w deeds) deeds' := by
  induction deeds generalizing w with
  | nil => rfl
  | cons x deeds ih =>
      rw [List.cons_append, keys, keys, ih, List.append_assoc]
      rfl

theorem verified_after (h : w.2.Verified ks) (x : Deed σ) :
    (x.after w).2.Verified (ks ++ (x.asked? w.1).toList) := by
  obtain ⟨s, c⟩ := w
  have hold : c.Verified (ks ++ (x.asked? s).toList) := h.mono (List.subset_append_left _ _)
  rcases after_cases x s c with heq | ⟨k, bytes, hk, hadmits, -, heq⟩ <;> rw [heq]
  · exact hold
  · refine hold.put ?_ hadmits
    simp [hk]

/-- Whatever is done, each record stays what its key admits. -/
theorem verified_afterAll (h : w.2.Verified ks) (deeds : List (Deed σ)) :
    (afterAll w deeds).2.Verified (ks ++ keys w deeds) := by
  -- the keys used so far grow from deed to deed, and the records filed under them stay
  induction deeds generalizing w ks with
  | nil =>
      simp only [keys, List.append_nil]
      exact h
  | cons x deeds ih =>
      have hx := ih (verified_after h x)
      rw [List.append_assoc] at hx
      exact hx

/-- Whatever trees have done with a cache that was empty at first, and whatever the stores
answered: what is read of a file that can be opened then has the length and the checksum of
its entry, as long as BLAKE3 has no collision on the keys in use. -/
theorem open_verified {σ : Type} (s : σ) (deeds : List (Deed σ)) (store : Store σ) (t : Tree)
    (text : String) {content : Bytes}
    (hno : CacheKey.NoCollision (keys (s, {}) (deeds ++ [opening store t text])))
    (h : ((t.open_ store text).run (afterAll (s, {}) deeds)).1 = .ok content) :
    ∃ e, t.stat text = .ok e ∧
      (∀ count, e.size ≤ count →
        (readAt content 0 count).length = e.size ∧ crc32 (readAt content 0 count) = e.crc32) ∧
      ∀ counts : List Nat, e.size ≤ counts.sum →
        ((Cursor.mk content 0).readPieces counts).length = e.size ∧
          crc32 ((Cursor.mk content 0).readPieces counts) = e.crc32 := by
  obtain ⟨e, he, hasked, hsize, hfill⟩ := Tree.open_ok_cases h
  have hkeys : keys (s, {}) (deeds ++ [opening store t text]) =
      keys (s, {}) deeds ++ [t.cacheKey e] := by
    rw [keys_append]
    simp [keys, asked?, hasked]
  have hcrc : crc32 content = e.crc32 := by
    obtain hget | hfetched := Cache.fill_ok_cases hfill
    · have hverified : (afterAll (s, {}) deeds).2.Verified
          (keys (s, {}) (deeds ++ [opening store t text])) := by
        rw [hkeys]
        refine (verified_afterAll Cache.Verified.empty deeds).mono ?_
        exact List.subset_append_left _ _
      refine hverified.crc_eq hno ?_ hget
      rw [hkeys]
      exact List.mem_append_right _ List.mem_cons_self
    · exact (Tree.gives_fetch store t e _ content hfetched).crc_eq
  refine ⟨e, he, ?_, ?_⟩
  · intro count hcount
    have hread : readAt content 0 count = content := by
      simp only [readAt, Bytes.slice, List.drop_zero]
      exact List.take_of_length_le (by omega)
    rw [hread]
    exact ⟨hsize, hcrc⟩
  · intro counts hcounts
    rw [Cursor.readPieces_of_le (by omega)]
    exact ⟨hsize, hcrc⟩

namespace Tampered

/-- An archive of one file. -/
def archive : StoredArchive where
  files := [{ name := "a", content := [7] }]

/-- Where it is served. -/
def locator : Locator := ⟨"mem", some { host := "bucket" }, ["a.zip"], none, none⟩

/-- The same object with another byte in the file's place. -/
def tampered : Bytes := archive.bytes.set 31 8

/-- What indexing the archive gives. -/
def tree : Tree :=
  ((Tree.build (.holding archive.bytes) locator).run ((), {})).1.toOption.getD
    (.ofRecords locator 0 [])

/-- The file is opened while the object is tampered with, and once more when it is in order
again. -/
def deeds : List (Deed Unit) :=
  [indexing (.holding archive.bytes) locator, opening (.holding tampered) tree "a",
    opening (.holding archive.bytes) tree "a", indexing (.holding tampered) locator]

/-- The wrong byte is refused. -/
example : ((tree.open_ (.holding tampered) "a").run ((), {})).1 =
    .error (.archive (.checksumMismatch (crc32 [7]) (crc32 [8]))) := by
  decide +kernel

/-- The right one is served when the object is gone. -/
theorem served_verified :
    CacheKey.NoCollision (keys ((), {}) (deeds ++ [opening (.holding []) tree "a"])) ∧
      ((tree.open_ (.holding []) "a").run (afterAll ((), {}) deeds)).1 = .ok [7] ∧
      ∃ e, tree.stat "a" = .ok e ∧
        (∀ count, e.size ≤ count →
          (readAt [7] 0 count).length = e.size ∧ crc32 (readAt [7] 0 count) = e.crc32) ∧
        ∀ counts : List Nat, e.size ≤ counts.sum →
          ((Cursor.mk [7] 0).readPieces counts).length = e.size ∧
            crc32 ((Cursor.mk [7] 0).readPieces counts) = e.crc32 := by
  have hno : CacheKey.NoCollision (keys ((), {}) (deeds ++ [opening (.holding []) tree "a"])) := by
    simp only [CacheKey.NoCollision]
    decide +kernel
  have hopen : ((tree.open_ (.holding []) "a").run (afterAll ((), {}) deeds)).1 = .ok [7] := by
    decide +kernel
  exact ⟨hno, hopen, open_verified () deeds (.holding []) tree "a" hno hopen⟩

end Tampered

end Deed

end ArchiveMount
