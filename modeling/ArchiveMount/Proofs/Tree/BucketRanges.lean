/-
# `ArchiveMount.Proofs.Tree.BucketRanges` — which requests a client of buckets can be sent

The client takes half-open intervals, so that the place behind the last byte of a range has to
be named as well.  In machine words there is no such place behind the last byte that 64 bits can
name, and a range that ends there cannot be sent (`Store.Request.overflows`).

Of all that indexing and opening ask for, one request can be of this kind: that for a 64-bit end
record, whose offset the archive states and nothing checks.  It is one exactly if the offset
leaves no room for the 56 bytes of the record before the end of the 64-bit range
(`bucket_requests`).
-/
import ArchiveMount.Object.Bucket
import ArchiveMount.Proofs.Tree.InBounds
import ArchiveMount.Proofs.Tree.Search

namespace ArchiveMount

/-! ## Ranges for the client, in machine words -/

namespace BucketRange

variable {r : ByteRange} {b : Option BucketRange} {first last : Nat}

/-- The range for the client in machine words: the place behind the last byte has to fit one.
An offset or a length is a word as it is. -/
def ofByteRangeChecked : ByteRange → Except Trap (Option BucketRange)
  | .whole => .ok none
  | .onward start => .ok (some (.offset start))
  | .bounded first last => (Word.add last 1).map fun stop => some (.bounded first stop)
  | .suffix len => .ok (some (.suffix len))

/-- The bytes that the client is asked for; without a range these are all. -/
def selected (size : Nat) : Option BucketRange → Span
  | none => ⟨0, size⟩
  | some r => r.resolve size

theorem ofByteRangeChecked_bounded (h : last < maxWord) :
    ofByteRangeChecked (.bounded first last) = .ok (some (.bounded first (last + 1))) := by
  rw [ofByteRangeChecked, Word.add_eq (Nat.succ_le_of_lt h)]
  rfl

theorem ofByteRangeChecked_bounded_of_le (h : maxWord ≤ last) :
    ofByteRangeChecked (.bounded first last) = .error .overflow := by
  rw [ofByteRangeChecked, Word.add, if_neg (Nat.not_le.2 (Nat.lt_succ_of_le h))]
  rfl

/-- A range that the client can be sent is the one it is sent, and means the same bytes. -/
theorem selected_of_ofByteRangeChecked (h : ofByteRangeChecked r = .ok b) :
    b = ofByteRange? r ∧ ∀ size, selected size b = r.resolve size := by
  cases r with
  | whole =>
      obtain rfl := Except.ok.inj h
      exact ⟨rfl, fun _ => rfl⟩
  | onward start =>
      obtain rfl := Except.ok.inj h
      exact ⟨rfl, fun _ => rfl⟩
  | suffix len =>
      obtain rfl := Except.ok.inj h
      exact ⟨rfl, fun _ => rfl⟩
  | bounded first last =>
      rcases Nat.lt_or_ge last maxWord with hlt | hge
      · rw [ofByteRangeChecked_bounded hlt] at h
        obtain rfl := Except.ok.inj h
        refine ⟨rfl, fun size => ?_⟩
        have hnext : addSat last 1 = last + 1 := addSat_eq_add (Nat.succ_le_of_lt hlt)
        simp only [selected, resolve, ByteRange.resolve, hnext]
      · rw [ofByteRangeChecked_bounded_of_le hge] at h
        cases h

end BucketRange

namespace Store.Request

variable {first last offset len size : Nat} {request : Request}

/-- The client cannot be sent this: the place behind the last byte does not fit a word. -/
def overflows : Request → Bool
  | .size => false
  | .download range =>
    match BucketRange.ofByteRangeChecked range with
    | .ok _ => false
    | .error _ => true

theorem overflows_bounded :
    (download (.bounded first last)).overflows = true ↔ maxWord ≤ last := by
  rcases Nat.lt_or_ge last maxWord with hlt | hge
  · simp only [overflows, BucketRange.ofByteRangeChecked_bounded hlt]
    simp [Nat.not_le.2 hlt]
  · simp only [overflows, BucketRange.ofByteRangeChecked_bounded_of_le hge]
    simp [hge]

/-- A stretch that reaches past the greatest word is cut at its last byte, which has no place
behind it. -/
theorem overflows_ofSpan (hlen : 0 < len) :
    (download (.ofSpan offset len)).overflows = true ↔ maxWord < offset + len := by
  rw [ByteRange.ofSpan, overflows_bounded]
  simp only [addSat]
  omega

/-- What cannot be sent is an interval whose end is no 64-bit quantity. -/
theorem overflows_download_iff {range : ByteRange} :
    (download range).overflows = true ↔
      ∃ start stop, BucketRange.ofByteRange? range = some (.bounded start stop) ∧
        maxWord < stop := by
  cases range with
  | whole => simp [overflows, BucketRange.ofByteRangeChecked, BucketRange.ofByteRange?]
  | onward start => simp [overflows, BucketRange.ofByteRangeChecked, BucketRange.ofByteRange?]
  | suffix len => simp [overflows, BucketRange.ofByteRangeChecked, BucketRange.ofByteRange?]
  | bounded first last =>
      rw [overflows_bounded]
      constructor
      · intro hlast
        exact ⟨first, last + 1, rfl, Nat.lt_succ_of_le hlast⟩
      · rintro ⟨start, stop, hrange, hstop⟩
        obtain ⟨-, rfl⟩ := BucketRange.bounded.inj (Option.some.inj hrange)
        exact Nat.le_of_lt_succ hstop

theorem exists_of_not_overflows {range : ByteRange} (h : (download range).overflows = false) :
    ∃ b, BucketRange.ofByteRangeChecked range = .ok b := by
  cases hb : BucketRange.ofByteRangeChecked range with
  | ok b => exact ⟨b, rfl⟩
  | error e =>
      simp only [overflows, hb] at h
      cases h

/-- What lies in an object can be asked for. -/
theorem not_overflows_of_inside (h : Tree.Inside size request) (hmax : size ≤ maxWord) :
    request.overflows = false := by
  obtain ⟨first, last, rfl, -, hlast⟩ := h
  rw [Bool.eq_false_iff, ne_eq, overflows_bounded]
  omega

end Store.Request

/-- Taking notes changes nothing. -/
theorem Store.Serves.noting {σ : Type} {store : Store σ} {l : Locator} {data : Bytes}
    {ok : σ → Prop} (h : store.Serves l data ok) :
    store.noting.Serves l data fun w => ok w.1 where
  size w hw := h.size w.1 hw
  body range w hw := h.body range w.1 hw

namespace Tree

open Store.Request (overflows)

variable {σ : Type} {store : Store σ} {l : Locator} {data : Bytes} {ok : σ → Prop}

/-! ## The search for the end record -/

/-- The request for the 64-bit record that a window tells of, if it cannot be sent. -/
def farRequest? : Except ArchiveError TailScan → Option Store.Request
  | .ok (.zip64 _ offset) =>
    if maxWord < offset + Zip64EndRecord.fixedLen then
      some (.download (.ofSpan offset Zip64EndRecord.fixedLen))
    else none
  | _ => none

/-- The requests that the windows of the search lead to and that cannot be sent. -/
def farRequests (data : Bytes) : List Store.Request :=
  (lookedAt data (windows data.length)).filterMap fun window => farRequest? (answer data window)

theorem mem_farRequests_iff {request : Store.Request} :
    request ∈ farRequests data ↔ ∃ window ∈ lookedAt data (windows data.length), ∃ r offset,
      answer data window = .ok (.zip64 r offset) ∧ maxWord < offset + Zip64EndRecord.fixedLen ∧
        request = .download (.ofSpan offset Zip64EndRecord.fixedLen) := by
  have hone : ∀ a, farRequest? a = some request ↔ ∃ r offset, a = .ok (.zip64 r offset) ∧
      maxWord < offset + Zip64EndRecord.fixedLen ∧
        request = .download (.ofSpan offset Zip64EndRecord.fixedLen) := by
    intro a
    cases a with
    | error e => simp [farRequest?]
    | ok scan => cases scan <;> simp [farRequest?, eq_comm]
  simp only [farRequests, List.mem_filterMap, hone]

/-- After an answer that leads to a 64-bit record, its request is the one that may not be sent. -/
theorem filter_notes_goOn (store : Store σ) (l : Locator) {objectSize : Nat}
    (hsize : objectSize < maxWord) (tail : Bytes) (rest : List Nat)
    {a : Except ArchiveError TailScan} (hfound : a ≠ .ok .notFound)
    (w : σ × List Store.Request) :
    ((goOn store.noting l objectSize tail rest a).run w).2.2.filter overflows =
      (farRequest? a).toList ++ w.2.filter overflows := by
  cases a with
  | error e => rfl
  | ok scan =>
      cases scan with
      | directory r => rfl
      | notFound => exact absurd rfl hfound
      | zip64 r offset =>
          rw [snd_run_goOn_zip64, notes_zip64Record, farRequest?]
          have hover : overflows (.download (.ofSpan offset Zip64EndRecord.fixedLen)) = true ↔
              maxWord < offset + Zip64EndRecord.fixedLen :=
            Store.Request.overflows_ofSpan (by decide)
          by_cases hfar : maxWord < offset + Zip64EndRecord.fixedLen
          · -- the sum stops at the greatest word, and no object reaches that far
            have hout : ¬ addSat offset Zip64EndRecord.fixedLen ≤ objectSize := by
              simp only [addSat]
              omega
            rw [if_neg fun h => hout h.2, if_pos hfar, List.filter_cons_of_pos (hover.2 hfar)]
            rfl
          · rw [if_neg hfar]
            split_ifs
            · rfl
            · rw [List.filter_cons_of_neg fun h => hfar (hover.1 h)]
              rfl

/-- Of the requests of the search, the far ones cannot be sent. -/
theorem filter_notes_searchTail (h : store.ServesSuffixes l data ok) (hsize : data.length < maxWord)
    (ws : List Nat) : ∀ w, ok w.1 →
      ((searchTail store.noting l data.length ws).run w).2.2.filter overflows =
        (lookedAt data ws).filterMap (fun window => farRequest? (answer data window)) ++
          w.2.filter overflows := by
  induction ws with
  | nil =>
      intro w _
      rfl
  | cons window rest ih =>
      intro w hw
      obtain ⟨w', hread, hw', hrun⟩ := run_searchTail_cons h.noting hw window rest
      have hnotes : w'.2.filter overflows = w.2.filter overflows := by
        have hw'2 : w'.2 = .download (.suffix window) :: w.2 := by
          rw [← Store.notes_readRange store l (.suffix window) w, hread]
        rw [hw'2]
        rfl
      rw [hrun]
      by_cases hfound : answer data window = .ok .notFound
      · have hnone : farRequest? (answer data window) = none := by
          rw [hfound]
          rfl
        rw [lookedAt_of_notFound hfound, List.filterMap_cons, hnone, hfound, goOn, ih w' hw', hnotes]
      · rw [filter_notes_goOn store l hsize _ rest hfound w', hnotes, lookedAt_of_found hfound,
          List.filterMap_cons, List.filterMap_nil]
        cases farRequest? (answer data window) <;> rfl

/-- An object that is too short for an end record leads nowhere. -/
theorem farRequests_of_lt (h : data.length < EndRecord.fixedLen) : farRequests data = [] := by
  refine List.filterMap_eq_nil_iff.2 fun window _ => ?_
  have hnone : ∀ pos, ¬ EndRecord.StandsAt data pos := by
    intro pos hpos
    have hle := hpos.add_fixedLen_le
    omega
  rw [answer, scanTail_drop_eq_notFound hnone (Nat.sub_le _ _)]
  rfl

theorem filter_notes_locateDirectory (h : store.ServesSuffixes l data ok)
    (hsize : data.length < maxWord) {w : σ × List Store.Request} (hw : ok w.1) :
    ((locateDirectory store.noting l data.length).run w).2.2.filter overflows =
      farRequests data ++ w.2.filter overflows := by
  rw [locateDirectory]
  split_ifs with hshort
  · rw [farRequests_of_lt hshort]
    rfl
  · exact filter_notes_searchTail h hsize _ w hw

/-! ## Indexing and opening -/

/-- The store is in order, and of what has been asked for just `far` cannot be sent. -/
def Sent (ok : σ → Prop) (far : List Store.Request) (w : σ × List Store.Request) : Prop :=
  ok w.1 ∧ w.2.filter overflows = far

theorem keeps_readRange_noting (hserves : store.Serves l data ok) {far : List Store.Request}
    {range : ByteRange} (hrange : (Store.Request.download range).overflows = false) :
    Attempt.Keeps (Sent ok far) (store.noting.readRange l range) := by
  rintro w ⟨hw, hfar⟩
  refine ⟨hserves.noting.keeps_readRange range w hw, ?_⟩
  rw [Store.notes_readRange, List.filter_cons_of_neg (by simp [hrange]), hfar]

/-- The directory is asked for if it lies in the object. -/
theorem keeps_readDirectory_noting (hserves : store.Serves l data ok)
    (hsize : data.length < maxWord) (far : List Store.Request) (r : EndRecord) :
    Attempt.Keeps (fun w => Sent ok far w.1) (readDirectory store.noting l data.length r) := by
  by_cases h₀ : r.directorySize = 0
  · rw [readDirectory_of_eq_zero h₀]
    exact .pure _
  · rcases Nat.lt_or_ge data.length (r.directoryOffset + r.directorySize) with hlt | hle
    · rw [readDirectory_of_lt h₀ hlt]
      exact .fail _
    · have hinside := inside_ofSpan (Nat.pos_of_ne_zero h₀) hle hsize.le
      have hsent := Store.Request.not_overflows_of_inside hinside hsize.le
      rw [readDirectory_of_le h₀ hle]
      exact Cache.keeps_fill ((keeps_readRange_noting hserves hsent).mapError _) _

/-- Of what indexing asks for, the far requests of the search cannot be sent, and nothing else. -/
theorem filter_notes_build (hserves : store.Serves l data ok) (hsize : data.length < maxWord)
    {s : σ} (hs : ok s) (c : Cache) :
    ((build store.noting l).run ((s, []), c)).2.1.2.filter overflows = farRequests data := by
  obtain ⟨hlen, hs'⟩ := hserves.size s hs
  have hsizeOf : (onStore ((store.noting.sizeOf l).mapError TreeError.object)).run ((s, []), c) =
      (.ok data.length, ((((store.sizeOf l).run s).2, [.size]), c)) := by
    refine Prod.ext ?_ rfl
    exact congrArg (Except.mapError TreeError.object) hlen
  have hlocate : Sent ok (farRequests data) ((locateDirectory store.noting l data.length).run
      (((store.sizeOf l).run s).2, [.size])).2 :=
    ⟨keeps_locateDirectory hserves.noting data.length _ hs',
      (filter_notes_locateDirectory hserves.suffixes hsize hs').trans (List.append_nil _)⟩
  have hrest : ∀ r, Attempt.Keeps (fun w => Sent ok (farRequests data) w.1)
      (readDirectory store.noting l data.length r >>= fun directory =>
        Attempt.ofExcept (indexed l data.length r directory)) :=
    fun r => .bind (keeps_readDirectory_noting hserves hsize _ r) fun _ => .ofExcept _
  simp only [build, ofExcept_indexed]
  rw [Attempt.bind_ok hsizeOf, Attempt.run_bind]
  cases ((onStore (locateDirectory store.noting l data.length)).run
      ((((store.sizeOf l).run s).2, [.size]), c)).1 with
  | error e => exact hlocate.2
  | ok r => exact (hrest r _ hlocate).2

/-- What an archive can make a client of buckets be asked for.  Of the requests of indexing those
overflow that are for a 64-bit record which a window tells of and which would end behind the
64-bit range, and no others.  Opening a file of the tree asks for nothing that overflows.  A range
overflows if and only if it becomes an interval that ends at no 64-bit quantity.  If it does not,
it means the same bytes to the client, whatever the size of the object. -/
theorem bucket_requests (hserves : store.Serves l data ok) (hroom : Roomy data) :
    (∀ s c, ok s → ∀ request,
      (request ∈ ((build store.noting l).run ((s, []), c)).2.1.2 ∧ request.overflows = true ↔
        ∃ window ∈ lookedAt data (windows data.length), ∃ r offset,
          answer data window = .ok (.zip64 r offset) ∧
            maxWord < offset + Zip64EndRecord.fixedLen ∧
              request = .download (.ofSpan offset Zip64EndRecord.fixedLen))) ∧
    (∀ s c t, ok s → ((build store l).run (s, c)).1 = .ok t → ∀ text s' c', ok s' →
      ∀ request ∈ ((t.open_ store.noting text).run ((s', []), c')).2.1.2,
        request.overflows = false) ∧
    (∀ range, (Store.Request.download range).overflows = true ↔
      ∃ start stop, BucketRange.ofByteRange? range = some (.bounded start stop) ∧
        maxWord < stop) ∧
    (∀ range, (Store.Request.download range).overflows = false →
      ∃ b, BucketRange.ofByteRangeChecked range = .ok b ∧ b = BucketRange.ofByteRange? range ∧
        ∀ size, BucketRange.selected size b = range.resolve size) := by
  have hmax := hroom.le
  have hsize : data.length < maxWord := by omega
  refine ⟨?_, ?_, fun range => Store.Request.overflows_download_iff, ?_⟩
  · intro s c hs request
    rw [← mem_farRequests_iff, ← filter_notes_build hserves hsize hs c, List.mem_filter]
  · intro s c t hs ht text s' c' hs' request hrequest
    have hinside := (inBounds hserves hroom).ranges s c t hs ht text s' c' hs' request hrequest
    exact Store.Request.not_overflows_of_inside hinside hsize.le
  · intro range hrange
    obtain ⟨b, hb⟩ := Store.Request.exists_of_not_overflows hrange
    exact ⟨b, hb, BucketRange.selected_of_ofByteRangeChecked hb⟩

/-! A locator that names the last place there is. -/
namespace FarOut

/-- A locator and an end record, and no 64-bit record. -/
def object : Bytes :=
  Bytes.numbers [(4, Zip64Locator.signature), (4, 0), (8, maxWord), (4, 1)] ++
    Bytes.numbers [(4, EndRecord.signature), (16, 0), (2, 0)]

/-- Where it is served. -/
def locator : Locator := ⟨"mem", some { host := "bucket" }, ["far.zip"], none, none⟩

/-- The search asks for a byte that the client cannot be asked for. -/
theorem last_place_asked : ¬ ∀ (data : Bytes) (l : Locator), Roomy data → ∀ range,
    .download range ∈ ((locateDirectory (Store.holding data).noting l data.length).run
      ((), [])).2.2 →
    ∃ b, BucketRange.ofByteRangeChecked range = .ok b ∧
      ∀ size, BucketRange.selected size b = range.resolve size := by
  intro hall
  have hroom : Roomy object := by
    simp only [Roomy]
    decide
  have hasked : Store.Request.download (.bounded maxWord maxWord) ∈
      ((locateDirectory (Store.holding object).noting locator object.length).run ((), [])).2.2 := by
    decide +kernel
  obtain ⟨b, hb, -⟩ := hall object locator hroom _ hasked
  rw [BucketRange.ofByteRangeChecked_bounded_of_le (Nat.le_refl _)] at hb
  cases hb

/-- To index the object the request is made, and it is the one for the 64-bit record. -/
theorem last_place_indexed : Roomy object ∧
    .download (.bounded maxWord maxWord) ∈
      ((build (Store.holding object).noting locator).run (((), []), {})).2.1.2 := by
  have hroom : Roomy object := by
    simp only [Roomy]
    decide
  have hfar : ∃ window ∈ lookedAt object (windows object.length), ∃ r offset,
      answer object window = .ok (.zip64 r offset) ∧
        maxWord < offset + Zip64EndRecord.fixedLen ∧
          Store.Request.download (.bounded maxWord maxWord) =
            .download (.ofSpan offset Zip64EndRecord.fixedLen) := by
    refine ⟨object.length, by decide +kernel, ⟨0, 0, 0, 0, 0, 0⟩, maxWord, ?_, by decide, rfl⟩
    decide +kernel
  have hrequests := (bucket_requests (Store.holding_serves object locator) hroom).1
  exact ⟨hroom, ((hrequests () {} trivial _).2 hfar).1⟩

end FarOut

end Tree

end ArchiveMount
