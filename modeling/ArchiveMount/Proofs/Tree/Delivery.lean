/-
# `ArchiveMount.Proofs.Tree.Delivery` — the directory that a server delivers

Indexing over HTTP files what one request for the directory brings in.  The answer is taken
for its status and its `Content-Range` header, but its body is not held against them: however
long it is, it becomes the record of the directory (`build_over_http`).  Only an answer whose
headers are refused, or whose body fails, leaves nothing behind.  All of this is about the
checked steps: whatever the server says of its sizes, the survey may trap, and what follows a
survey that is done does not.

So a server may state the whole directory and send a part of it.  The part stays in the cache
as the directory, and the archive cannot be indexed from then on (`CutShort`).
-/
import ArchiveMount.Proofs.Object.Contract
import ArchiveMount.Proofs.Tree.Persistence
import ArchiveMount.Proofs.Tree.Trapping

namespace ArchiveMount

/-- What a request to a cache gives depends on nothing but the one record. -/
theorem Cache.fst_run_fill_congr {σ ε : Type} {k : CacheKey} {produce : Attempt σ ε Bytes} {s : σ}
    {c c' : Cache} (h : c.get? k = c'.get? k) :
    ((fill k produce).run (s, c)).1 = ((fill k produce).run (s, c')).1 := by
  cases hc : c'.get? k with
  | some data =>
      rw [run_fill_of_some (h.trans hc), run_fill_of_some hc]
  | none =>
      cases hp : produce.run s with
      | mk r s' =>
          cases r with
          | ok data => rw [run_fill_of_ok (h.trans hc) hp, run_fill_of_ok hc hp]
          | error e => rw [run_fill_of_error (h.trans hc) hp, run_fill_of_error hc hp]

namespace Tree

/-! ## What indexing files, over any store -/

section AnyStore

variable {σ τ : Type} {store : Store σ} {l : Locator} {s s' : σ} {c : Cache} {size : Nat}
  {r : EndRecord} {bytes : Bytes}

/-- The request for a directory brings in some bytes. -/
def Fetched (store : Store σ) (l : Locator) (size : Nat) (r : EndRecord) (s : σ)
    (bytes : Bytes) : Prop :=
  r.directorySize ≠ 0 ∧ r.directoryOffset + r.directorySize ≤ size ∧
    ((store.readRange l (.ofSpan r.directoryOffset r.directorySize)).run s).1 = .ok bytes

theorem Fetched.unique {bytes' : Bytes} (h : Fetched store l size r s bytes)
    (h' : Fetched store l size r s bytes') : bytes = bytes' :=
  Except.ok.inj (h.2.2.symm.trans h'.2.2)

/-- What is made of the bytes that are taken for the directory. -/
def made (l : Locator) (size : Nat) (r : EndRecord) (directory : Bytes) :
    Except (Stop TreeError) Tree := (indexed l size r directory).mapError .error

/-- What is made of a directory does not matter for the cache. -/
theorem cache_build_of_survey (h : (surveyChecked store l).run s = (.ok (size, r), s')) (c : Cache) :
    ((buildChecked store l).run (s, c)).2.2 = ((readDirectory store l size r).run (s', c)).2.2 := by
  rw [run_buildChecked_of_survey h, Attempt.run_reporting, Attempt.run_bind]
  split <;> rfl

/-- A directory that is there already is not fetched. -/
theorem cache_build_of_hit (h : (surveyChecked store l).run s = (.ok (size, r), s'))
    (hheld : c.get? (directoryKey l size r) ≠ none) :
    ((buildChecked store l).run (s, c)).2.2 = c := by
  rw [cache_build_of_survey h]
  rcases cache_readDirectory_cases store l size r (s', c) with heq | ⟨bytes, -, hmiss, -⟩
  · exact heq
  · exact absurd hmiss hheld

/-- What is fetched for a directory that is missing is filed, and worked on. -/
theorem run_build_of_fetched (h : (surveyChecked store l).run s = (.ok (size, r), s'))
    (hmiss : c.get? (directoryKey l size r) = none) (hf : Fetched store l size r s' bytes) :
    ((buildChecked store l).run (s, c)).1 = made l size r bytes ∧
      ((buildChecked store l).run (s, c)).2.2 = c.put (directoryKey l size r).digest bytes := by
  obtain ⟨h₀, hle, hread⟩ := hf
  have hproduce : ((store.readRange l (.ofSpan r.directoryOffset r.directorySize)).mapError
      TreeError.object).run s' = (.ok bytes, ((store.readRange l
        (.ofSpan r.directoryOffset r.directorySize)).run s').2) := by
    rw [Attempt.run_mapError, hread]
    rfl
  rw [run_buildChecked_of_survey h, Attempt.run_reporting, readDirectory_of_le h₀ hle,
    Attempt.bind_ok (Cache.run_fill_of_ok hmiss hproduce)]
  exact ⟨rfl, rfl⟩

/-- If nothing is fetched, nothing is filed, and there is no tree unless the directory is
empty. -/
theorem run_build_of_not_fetched (h : (surveyChecked store l).run s = (.ok (size, r), s'))
    (hmiss : c.get? (directoryKey l size r) = none)
    (hf : ∀ bytes, ¬ Fetched store l size r s' bytes) :
    ((buildChecked store l).run (s, c)).2.2 = c ∧
      (r.directorySize ≠ 0 → ∃ e, ((buildChecked store l).run (s, c)).1 = .error (.error e)) := by
  rw [run_buildChecked_of_survey h, Attempt.run_reporting]
  by_cases h₀ : r.directorySize = 0
  · rw [readDirectory_of_eq_zero h₀]
    exact ⟨rfl, fun hne => absurd h₀ hne⟩
  · by_cases hle : r.directoryOffset + r.directorySize ≤ size
    · cases hread : (store.readRange l (.ofSpan r.directoryOffset r.directorySize)).run s' with
      | mk out s'' =>
          cases out with
          | ok bytes => exact absurd ⟨h₀, hle, congrArg Prod.fst hread⟩ (hf bytes)
          | error e =>
              have hproduce : ((store.readRange l (.ofSpan r.directoryOffset
                  r.directorySize)).mapError TreeError.object).run s' = (.error (.object e), s'') := by
                rw [Attempt.run_mapError, hread]
                rfl
              rw [readDirectory_of_le h₀ hle,
                Attempt.bind_error (Cache.run_fill_of_error hmiss hproduce)]
              exact ⟨rfl, fun _ => ⟨_, rfl⟩⟩
    · rw [readDirectory_of_lt h₀ (Nat.lt_of_not_le hle), Attempt.bind_error (Attempt.run_fail _ _)]
      exact ⟨rfl, fun _ => ⟨_, rfl⟩⟩

/-- A run over a cache whose record of the directory is used comes to what is made of it. -/
theorem fst_build_of_found (h : (surveyChecked store l).run s = (.ok (size, r), s'))
    (h₀ : r.directorySize ≠ 0) (hle : r.directoryOffset + r.directorySize ≤ size)
    (hfound : c.get? (directoryKey l size r) = some bytes) :
    ((buildChecked store l).run (s, c)).1 = made l size r bytes := by
  rw [run_buildChecked_of_survey h, Attempt.run_reporting, readDirectory_of_le h₀ hle,
    Attempt.bind_ok (Cache.run_fill_of_some hfound)]
  rfl

/-- All that counts of a cache is the record of the directory, if that is looked for. -/
theorem fst_build_congr {c' : Cache} (h : (surveyChecked store l).run s = (.ok (size, r), s'))
    (hsame : r.directorySize ≠ 0 → r.directoryOffset + r.directorySize ≤ size →
      c.get? (directoryKey l size r) = c'.get? (directoryKey l size r)) :
    ((buildChecked store l).run (s, c)).1 = ((buildChecked store l).run (s, c')).1 := by
  rw [run_buildChecked_of_survey h, run_buildChecked_of_survey h, Attempt.run_reporting,
    Attempt.run_reporting]
  by_cases h₀ : r.directorySize = 0
  · rw [readDirectory_of_eq_zero h₀]
    rfl
  · by_cases hle : r.directoryOffset + r.directorySize ≤ size
    · rw [readDirectory_of_le h₀ hle, Attempt.run_bind, Attempt.run_bind,
        Cache.fst_run_fill_congr (hsame h₀ hle)]
      split <;> rfl
    · rw [readDirectory_of_lt h₀ (Nat.lt_of_not_le hle)]
      rfl

/-- A new record changes what a run comes to if and only if the run looks for its directory
there, and something else is made of it than without it. -/
theorem build_put_ne_iff {k : CacheKey} :
    ((buildChecked store l).run (s, c.put k.digest bytes)).1 ≠ ((buildChecked store l).run (s, c)).1 ↔
      ∃ size r s', (surveyChecked store l).run s = (.ok (size, r), s') ∧ r.directorySize ≠ 0 ∧
        r.directoryOffset + r.directorySize ≤ size ∧ (directoryKey l size r).digest = k.digest ∧
        made l size r bytes ≠ ((buildChecked store l).run (s, c)).1 := by
  have hplaced : ∀ {size r}, (directoryKey l size r).digest = k.digest →
      (c.put k.digest bytes).get? (directoryKey l size r) = some bytes := by
    intro size r hd
    rw [Cache.get?, hd, Cache.find?_put_self]
  constructor
  · intro hne
    cases hsurvey : (surveyChecked store l).run s with
    | mk out s' =>
        cases out with
        | error e =>
            rw [run_buildChecked_of_survey_error hsurvey, run_buildChecked_of_survey_error hsurvey] at hne
            exact absurd rfl hne
        | ok found =>
            obtain ⟨size, r⟩ := found
            by_cases hd : r.directorySize ≠ 0 ∧ r.directoryOffset + r.directorySize ≤ size ∧
                (directoryKey l size r).digest = k.digest
            · obtain ⟨h₀, hle, hd⟩ := hd
              rw [fst_build_of_found hsurvey h₀ hle (hplaced hd)] at hne
              exact ⟨size, r, s', rfl, h₀, hle, hd, hne⟩
            · refine absurd (fst_build_congr hsurvey ?_) hne
              intro h₀ hle
              exact Cache.find?_put_of_ne c bytes fun hdigest => hd ⟨h₀, hle, hdigest⟩
  · rintro ⟨size, r, s', hsurvey, h₀, hle, hd, hne⟩
    rwa [fst_build_of_found hsurvey h₀ hle (hplaced hd)]

/-- The record of a directory that was missing is what was fetched for it. -/
theorem get?_build_iff (h : (surveyChecked store l).run s = (.ok (size, r), s'))
    (hmiss : c.get? (directoryKey l size r) = none) :
    ((buildChecked store l).run (s, c)).2.2.get? (directoryKey l size r) = some bytes ↔
      Fetched store l size r s' bytes := by
  by_cases hany : ∃ bytes, Fetched store l size r s' bytes
  · obtain ⟨found, hf⟩ := hany
    rw [(run_build_of_fetched h hmiss hf).2, Cache.get?, Cache.find?_put_self]
    constructor
    · intro heq
      obtain rfl := Option.some.inj heq
      exact hf
    · intro hf'
      exact congrArg some (hf.unique hf')
  · rw [(run_build_of_not_fetched h hmiss (not_exists.1 hany)).1, hmiss]
    constructor
    · intro heq
      cases heq
    · intro hf
      exact absurd ⟨bytes, hf⟩ hany

/-- What one run fetched changes what a later one comes to if and only if the later one looks
for its directory there, and something else is made of it than without it. -/
theorem rebuild_ne_iff_fetched (h : (surveyChecked store l).run s = (.ok (size, r), s'))
    (hmiss : c.get? (directoryKey l size r) = none) (later : Store τ) (v : τ) :
    ((buildChecked later l).run (v, ((buildChecked store l).run (s, c)).2.2)).1 ≠
        ((buildChecked later l).run (v, c)).1 ↔
      ∃ bytes, Fetched store l size r s' bytes ∧
        ∃ size' r' v', (surveyChecked later l).run v = (.ok (size', r'), v') ∧ r'.directorySize ≠ 0 ∧
          r'.directoryOffset + r'.directorySize ≤ size' ∧
          (directoryKey l size' r').digest = (directoryKey l size r).digest ∧
          made l size' r' bytes ≠ ((buildChecked later l).run (v, c)).1 := by
  by_cases hany : ∃ bytes, Fetched store l size r s' bytes
  · obtain ⟨found, hf⟩ := hany
    rw [(run_build_of_fetched h hmiss hf).2, build_put_ne_iff]
    constructor
    · intro hne
      exact ⟨found, hf, hne⟩
    · rintro ⟨bytes, hf', hne⟩
      obtain rfl := hf.unique hf'
      exact hne
  · rw [(run_build_of_not_fetched h hmiss (not_exists.1 hany)).1]
    constructor
    · intro hne
      exact absurd rfl hne
    · rintro ⟨bytes, hf, -⟩
      exact absurd ⟨bytes, hf⟩ hany

end AnyStore

/-! ## Over a server -/

section Server

variable {σ τ : Type} {exchange : HttpExchange σ} {l : Locator} {s s' : σ} {c : Cache} {size : Nat}
  {r : EndRecord} {bytes : Bytes}

/-- The answer to the request for a directory states that it has the directory, or what there
is of it, and its body ends in order.  The bytes are those of the body. -/
def Delivered (exchange : HttpExchange σ) (l : Locator) (size : Nat) (r : EndRecord) (s : σ)
    (bytes : Bytes) : Prop :=
  let stop := r.directoryOffset + r.directorySize
  r.directorySize ≠ 0 ∧ stop ≤ size ∧
    ∃ a, ((exchange ⟨.get, (HttpStore.target l).render,
        some s!"bytes={r.directoryOffset}-{stop - 1}"⟩).run s).1 = .ok a ∧
      (a.status = 200 ∨ a.status = 206) ∧
      (∃ served, (a.header? "content-range").bind ContentRange.ofText? = some served ∧
        served.Covers r.directoryOffset stop) ∧
      a.body.failure = none ∧ a.body.chunks.flatten = bytes

/-- A survey that is done has found the locator fit to be sent, and a size of 64 bits. -/
theorem survey_eq_ok (h : (surveyChecked (HttpStore.store exchange) l).run s = (.ok (size, r), s')) :
    l.container.any HttpStore.isUnsendable = false ∧ size ≤ maxWord := by
  obtain ⟨n, hn, h⟩ := Attempt.fst_run_bind_eq_ok_iff.1 (congrArg Prod.fst h)
  obtain ⟨r', -, h⟩ := Attempt.fst_run_bind_eq_ok_iff.1 h
  obtain ⟨rfl, -⟩ := Prod.mk.inj (Except.ok.inj h)
  exact HttpStore.sizeOf_eq_ok (Attempt.mapError_eq_ok_iff.1 (Attempt.run_reporting_eq_ok hn))

theorem fetched_iff_delivered
    (h : (surveyChecked (HttpStore.store exchange) l).run s = (.ok (size, r), s')) :
    Fetched (HttpStore.store exchange) l size r s' bytes ↔ Delivered exchange l size r s' bytes := by
  obtain ⟨hl, hsize⟩ := survey_eq_ok h
  refine and_congr_right fun h₀ => and_congr_right fun hle => ?_
  have hlt : r.directoryOffset < r.directoryOffset + r.directorySize := by omega
  have hstop := Nat.le_trans hle hsize
  have hrange := ByteRange.ofSpan_sub hlt hstop
  rw [Nat.add_sub_cancel_left] at hrange
  have hbounds : ByteRange.bounded r.directoryOffset
      (r.directoryOffset + r.directorySize - 1) ≠ .whole := nofun
  rw [hrange, HttpStore.fst_run_readRange_eq_ok_iff hbounds]
  simp only [hl, true_and, HttpResponse.accepted_bounded_iff hlt hstop, and_assoc]
  rfl

/-- What indexing over HTTP leaves behind, whatever the server answers.  If the survey fails or
traps, nothing is filed.  Otherwise nothing traps any more, and a directory that was missing
has a record then if and only if it has been delivered: the record is the body of that answer,
of any length, and whatever is made of it.  If it has not been delivered there is no record,
and an error unless the directory is empty.  A later run over any store comes to something else
than without this one if and only if it looks for its directory in the place of this record,
and something else is made of it than without it. -/
theorem build_over_http (exchange : HttpExchange σ) (l : Locator) (s : σ) (c : Cache)
    (later : Store τ) (v : τ) :
    let w := (buildChecked (HttpStore.store exchange) l).run (s, c)
    (∀ e s', (surveyChecked (HttpStore.store exchange) l).run s = (.error e, s') →
      w = (.error e, (s', c))) ∧
    ∀ size r s', (surveyChecked (HttpStore.store exchange) l).run s = (.ok (size, r), s') →
      (c.get? (directoryKey l size r) ≠ none → w.2.2 = c) ∧
      (c.get? (directoryKey l size r) = none →
        (∀ bytes, w.2.2.get? (directoryKey l size r) = some bytes ↔
          Delivered exchange l size r s' bytes) ∧
        ((∃ bytes, w.2.2.get? (directoryKey l size r) = some bytes ∧
            bytes.length ≠ r.directorySize) ↔
          ∃ bytes, Delivered exchange l size r s' bytes ∧ bytes.length ≠ r.directorySize) ∧
        (∀ bytes, Delivered exchange l size r s' bytes → w.1 = made l size r bytes ∧
          w.2.2 = c.put (directoryKey l size r).digest bytes) ∧
        ((∀ bytes, ¬ Delivered exchange l size r s' bytes) → w.2.2 = c ∧
          (r.directorySize ≠ 0 → ∃ e, w.1 = .error (.error e))) ∧
        (((buildChecked later l).run (v, w.2.2)).1 ≠ ((buildChecked later l).run (v, c)).1 ↔
          ∃ bytes, Delivered exchange l size r s' bytes ∧
            ∃ size' r' v', (surveyChecked later l).run v = (.ok (size', r'), v') ∧
              r'.directorySize ≠ 0 ∧ r'.directoryOffset + r'.directorySize ≤ size' ∧
              (directoryKey l size' r').digest = (directoryKey l size r).digest ∧
              made l size' r' bytes ≠ ((buildChecked later l).run (v, c)).1)) := by
  intro w
  refine ⟨fun e s' h => run_buildChecked_of_survey_error h c, ?_⟩
  intro size r s' h
  refine ⟨cache_build_of_hit h, ?_⟩
  intro hmiss
  have hrecord : ∀ bytes, w.2.2.get? (directoryKey l size r) = some bytes ↔
      Delivered exchange l size r s' bytes := by
    intro bytes
    rw [get?_build_iff h hmiss, fetched_iff_delivered h]
  have hlater := rebuild_ne_iff_fetched h hmiss later v
  simp only [fetched_iff_delivered h] at hlater
  refine ⟨hrecord, ?_, ?_, ?_, hlater⟩
  · exact exists_congr fun bytes => and_congr_left fun _ => hrecord bytes
  · intro bytes hbytes
    exact run_build_of_fetched h hmiss ((fetched_iff_delivered h).2 hbytes)
  · intro hnone
    refine run_build_of_not_fetched h hmiss ?_
    intro bytes hbytes
    exact hnone bytes ((fetched_iff_delivered h).1 hbytes)

end Server

/-! ## A directory that is cut short -/

/-- If the first window has the whole object, one look at it is the survey. -/
theorem run_surveyChecked_of_tail {σ : Type} {store : Store σ} {l : Locator} {s s₁ s₂ : σ}
    {tail : Bytes} {r : EndRecord} (hsize : (store.sizeOf l).run s = (.ok tail.length, s₁))
    (hmin : EndRecord.fixedLen ≤ tail.length) (hmax : tail.length ≤ initialTailLen)
    (htail : (store.readRange l (.suffix tail.length)).run s₁ = (.ok tail, s₂))
    (hscan : scanTail tail 0 = .ok (.directory r)) :
    (surveyChecked store l).run s = (.ok (tail.length, r), s₂) := by
  have hword : tail.length ≤ maxWord := Nat.le_trans hmax (by decide)
  have hroom : 0 + tail.length + EndRecord.maxCommentLen ≤ maxWord := by
    simp only [initialTailLen] at hmax
    simp only [EndRecord.maxCommentLen, maxWord]
    omega
  have hwindows : windows tail.length = [tail.length] := by
    rcases windows_cases hword with ⟨hone, -⟩ | ⟨_, -, hlt⟩
    · exact hone
    · exact absurd hlt (Nat.not_lt.2 hmax)
  have hlook : (searchTailChecked store l tail.length [tail.length]).run s₁ = (.ok r, s₂) := by
    rw [searchTailChecked, Attempt.reporting_bind_ok htail, Word.sub_eq (Nat.le_refl _),
      Attempt.trapping_ok, pure_bind, Nat.sub_self, scanTailChecked_eq hroom, hscan]
    rfl
  have hlocate : (locateDirectoryChecked store l tail.length).run s₁ = (.ok r, s₂) := by
    rw [locateDirectoryChecked, if_neg (Nat.not_lt.2 hmin), hwindows, hlook]
  rw [surveyChecked, Attempt.reporting_bind_ok hsize, Attempt.bind_ok hlocate, Attempt.run_pure]

namespace CutShort

/-- The answer that states what a range means, and has the first `n` bytes of it. -/
def cutAnswer (data : Bytes) (n : Nat) (r : ByteRange) : HttpResponse :=
  { HttpStore.partAnswer data r with body := ⟨[(r.part data).take n], none⟩ }

/-- A server that has one object, and cuts what is asked for between two ends. -/
def cutting (data : Bytes) (n : Nat) : HttpExchange Unit := fun request =>
  match request.range.bind fun text => ByteRange.rangeSet? text.toList with
  | some [.bounded first last] => pure (cutAnswer data n (.bounded first last))
  | _ => HttpStore.hosting data request

variable {data : Bytes} {n : Nat}

theorem cutting_suffix (url : String) (len : Nat) :
    cutting data n ⟨.get, url, (ByteRange.suffix len).expression?⟩ =
      HttpStore.hosting data ⟨.get, url, (ByteRange.suffix len).expression?⟩ := by
  have hset := ByteRange.rangeSet?_expression (r := .suffix len) trivial rfl
  simp only [cutting, ByteRange.expression?, Option.bind_some, hset]

theorem cutting_bounded (url : String) {first last : Nat} (hle : first ≤ last)
    (hlast : last ≤ maxWord) :
    cutting data n ⟨.get, url, (ByteRange.bounded first last).expression?⟩ =
      pure (cutAnswer data n (.bounded first last)) := by
  have hset := ByteRange.rangeSet?_expression (r := .bounded first last) ⟨hle, hlast⟩ rfl
  simp only [cutting, ByteRange.expression?, Option.bind_some, hset]

/-- An archive of an empty file, of 100 bytes. -/
def object : Bytes := EmptyFile.archive.bytes

def locator : Locator := ⟨"http", some { host := "host" }, ["a.zip"], none, none⟩

/-- Its end record. -/
def record : EndRecord where
  diskNumber := 0
  directoryDisk := 0
  entries := 1
  directorySize := 47
  directoryOffset := 31
  commentLen := 0

theorem length_object : object.length = 100 := by decide +kernel

theorem sendable : locator.container.any HttpStore.isUnsendable = false := by
  rw [HttpStore.any_isUnsendable]
  decide

theorem length_le : object.length ≤ maxWord := by
  rw [length_object]
  decide

/-- The directory lies inside. -/
theorem stop_le : record.directoryOffset + record.directorySize ≤ object.length := by
  rw [length_object]
  decide

theorem hosts : HttpStore.Hosts (HttpStore.hosting object) locator object fun _ => True :=
  HttpStore.hosts_hosting sendable object

/-- Before the directory two requests are sent; how they are answered decides the survey. -/
theorem survey_object {exchange : HttpExchange Unit}
    (hsize : exchange ⟨.head, (HttpStore.target locator).render, none⟩ =
      pure (HttpStore.wholeAnswer object))
    (htail : ∀ url, exchange ⟨.get, url, (ByteRange.suffix object.length).expression?⟩ =
      HttpStore.hosting object ⟨.get, url, (ByteRange.suffix object.length).expression?⟩) :
    (surveyChecked (HttpStore.store exchange) locator).run () = (.ok (object.length, record), ()) := by
  have hrun : ((HttpStore.store exchange).sizeOf locator).run () = (.ok object.length, ()) := by
    refine HttpStore.run_sizeOf sendable ?_ (.inl rfl) length_le
      (HttpStore.find?_wholeAnswer object)
    rw [hsize, Attempt.run_pure]
  have hread : ((HttpStore.store exchange).readRange locator (.suffix object.length)).run () =
      (.ok object, ()) := by
    have hsame : (HttpStore.store exchange).readRange locator (.suffix object.length) =
        (HttpStore.store (HttpStore.hosting object)).readRange locator (.suffix object.length) := by
      simp only [Store.readRange, HttpStore.store, HttpStore.send, htail]
    have hne : ((ByteRange.suffix object.length).resolve object.length).start <
        ((ByteRange.suffix object.length).resolve object.length).stop := by
      rw [length_object]
      decide
    have hwhole : (ByteRange.suffix object.length).part object = object := by
      rw [ByteRange.part_suffix, Nat.sub_self, List.drop_zero]
    obtain ⟨s', hrun, -⟩ := hosts.run_readRange (r := .suffix object.length) trivial length_le hne
      (s := ()) trivial
    rw [hsame, hrun, hwhole]
  have hbounds : EndRecord.fixedLen ≤ object.length ∧ object.length ≤ initialTailLen := by
    rw [length_object]
    decide
  exact run_surveyChecked_of_tail hrun hbounds.1 hbounds.2 hread (by decide +kernel)

theorem survey_cutting (n : Nat) : (surveyChecked (HttpStore.store (cutting object n)) locator).run () =
    (.ok (object.length, record), ()) :=
  survey_object rfl fun url => cutting_suffix url _

theorem survey_hosting : (surveyChecked (HttpStore.store (HttpStore.hosting object)) locator).run () =
    (.ok (object.length, record), ()) :=
  survey_object rfl fun _ => rfl

/-- What is asked for of the directory. -/
theorem ofSpan_record : ByteRange.ofSpan record.directoryOffset record.directorySize =
    .bounded 31 77 := by decide

theorem resolve_record : (ByteRange.bounded 31 77).resolve object.length = ⟨31, 78⟩ := by
  rw [length_object]
  decide

theorem fetched_cutting (n : Nat) : Fetched (HttpStore.store (cutting object n)) locator
    object.length record () (((ByteRange.bounded 31 77).part object).take n) := by
  have haccepted : (cutAnswer object n (.bounded 31 77)).Accepted (.bounded 31 77) := by
    refine HttpStore.accepted_of_find? ⟨by decide, by decide⟩ length_le ?_ (.inr rfl)
      (HttpStore.find?_partAnswer object (.bounded 31 77))
    rw [resolve_record]
    decide
  have hbounds : ByteRange.bounded 31 77 ≠ .whole := nofun
  refine ⟨by decide, stop_le, ?_⟩
  rw [ofSpan_record, HttpStore.fst_run_readRange_eq_ok_iff hbounds]
  refine ⟨sendable, cutAnswer object n (.bounded 31 77), ?_, haccepted, rfl, ?_⟩
  · rw [cutting_bounded _ (by decide) (by decide)]
    rfl
  · simp [cutAnswer]

theorem fetched_hosting : Fetched (HttpStore.store (HttpStore.hosting object)) locator
    object.length record () (directoryBytes record object) := by
  have hne : ((ByteRange.bounded 31 77).resolve object.length).start <
      ((ByteRange.bounded 31 77).resolve object.length).stop := by
    rw [resolve_record]
    decide
  obtain ⟨s', hrun, -⟩ := hosts.run_readRange (r := .bounded 31 77) ⟨by decide, by decide⟩ length_le
    hne (s := ()) trivial
  refine ⟨by decide, stop_le, ?_⟩
  rw [directoryBytes, ofSpan_record, hrun]

/-- What comes of the directory when its answer is cut after ten bytes. -/
def stump : Bytes := ((ByteRange.bounded 31 77).part object).take 10

theorem isSome_made_stump :
    (made locator object.length record stump).toOption.isSome = false := by
  decide +kernel

theorem isSome_made_directory :
    (made locator object.length record (directoryBytes record object)).toOption.isSome =
      true := by
  decide +kernel

/-- A server that sends the object as it is leads to a tree. -/
theorem fresh_build :
    ((buildChecked (HttpStore.store (HttpStore.hosting object)) locator).run ((), {})).1 =
      made locator object.length record (directoryBytes record object) :=
  (run_build_of_fetched survey_hosting rfl fetched_hosting).1

/-- What the general statement says of the server that cuts, and of a run over the one that
does not. -/
theorem directory_cut_short :
    let w := (buildChecked (HttpStore.store (cutting object 10)) locator).run ((), {})
    let healthy := HttpStore.store (HttpStore.hosting object)
    w.2.2.get? (directoryKey locator object.length record) = some stump ∧
      ((buildChecked healthy locator).run ((), w.2.2)).1 ≠ ((buildChecked healthy locator).run ((), {})).1 := by
  intro w healthy
  have hdelivered := (fetched_iff_delivered (survey_cutting 10)).1 (fetched_cutting 10)
  have hgeneral := build_over_http (cutting object 10) locator () {} healthy ()
  obtain ⟨hrecord, -, -, -, hlater⟩ := (hgeneral.2 _ _ _ (survey_cutting 10)).2 rfl
  refine ⟨(hrecord _).2 hdelivered, hlater.2 ⟨stump, hdelivered, _, record, (), survey_hosting, ?_⟩⟩
  refine ⟨by decide, stop_le, rfl, ?_⟩
  intro heq
  have hsome := isSome_made_stump
  rw [heq, fresh_build, isSome_made_directory] at hsome
  cases hsome

/-- Ten bytes of the 47 stay in the place of the directory.  From the same object, served as
it is, a tree is made without them, and none with them. -/
theorem cut_directory_filed :
    let w := (buildChecked (HttpStore.store (cutting object 10)) locator).run ((), {})
    let healthy := HttpStore.store (HttpStore.hosting object)
    (∃ bytes, w.2.2.get? (.range locator.render 100 31 78) = some bytes ∧ bytes.length = 10) ∧
      ((buildChecked healthy locator).run ((), {})).1.toOption.isSome = true ∧
      ((buildChecked healthy locator).run ((), w.2.2)).1.toOption.isSome = false := by
  intro w healthy
  have hfound : w.2.2.get? (directoryKey locator object.length record) = some stump :=
    (get?_build_iff (survey_cutting 10) rfl).2 (fetched_cutting 10)
  have hkey : directoryKey locator object.length record = .range locator.render 100 31 78 := by
    rw [length_object]
    rfl
  have hlater := fst_build_of_found survey_hosting (by decide) stop_le hfound
  refine ⟨⟨stump, ?_, by decide +kernel⟩, ?_, ?_⟩
  · rw [← hkey]
    exact hfound
  · rw [fresh_build]
    exact isSome_made_directory
  · rw [hlater]
    exact isSome_made_stump

end CutShort

end Tree

end ArchiveMount
