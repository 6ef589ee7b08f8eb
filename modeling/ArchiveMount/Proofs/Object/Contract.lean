/-
# `ArchiveMount.Proofs.Object.Contract` — what a range delivers, whoever serves it

A range that callers can make resolves to a stretch of the object.  Objects in memory, local
files and objects behind a server that answers as HTTP has it (`Hosts`) all deliver this
stretch (`range_contract`), and whatever else a server says it sends is refused.
-/
import ArchiveMount.Object.File
import ArchiveMount.Proofs.Object.Answers
import ArchiveMount.Proofs.Object.RangeHeader

namespace ArchiveMount

/-! ## The ranges there are -/

namespace ByteRange

/-- The ranges that callers can make of 64-bit quantities. -/
inductive Obtained : ByteRange → Prop
  | offsets {start stop : Nat} {r : ByteRange} (hstart : start ≤ maxWord) (hstop : stop ≤ maxWord)
      (h : ofOffsets start stop = .ok r) : Obtained r
  | between {first last : Nat} {r : ByteRange} (hfirst : first ≤ maxWord) (hlast : last ≤ maxWord)
      (h : ByteRange.between first last = .ok r) : Obtained r
  | span {offset len : Nat} (hoffset : offset ≤ maxWord) (hlen : len ≤ maxWord) :
      Obtained (ofSpan offset len)
  | whole : Obtained .whole
  | onward {start : Nat} (hstart : start ≤ maxWord) : Obtained (.onward start)
  | suffix {len : Nat} (hlen : len ≤ maxWord) : Obtained (.suffix len)

variable {r : ByteRange}

theorem inOrder_of_between {first last : Nat} (hlast : last ≤ maxWord)
    (h : between first last = .ok r) : r.InOrder := by
  unfold between at h
  split at h
  case isTrue => cases h
  case isFalse hle =>
    obtain rfl := Except.ok.inj h
    exact ⟨Nat.le_of_not_lt hle, hlast⟩

/-- Whoever makes a range, its bounds are in order. -/
theorem Obtained.inOrder (h : r.Obtained) : r.InOrder := by
  cases h with
  | offsets hstart hstop h =>
      unfold ofOffsets at h
      split at h
      case h_1 => cases h; trivial
      case h_2 => cases h; trivial
      case h_3 => cases h; trivial
      case h_4 => exact inOrder_of_between hstop h
  | between hfirst hlast h => exact inOrder_of_between hlast h
  | @span offset len hoffset hlen => exact ⟨Nat.le_min.2 ⟨Nat.le_add_right _ _, hoffset⟩, addSat_le _ _⟩
  | whole => trivial
  | onward => trivial
  | suffix => trivial

/-- A range means a stretch of the object. -/
theorem resolve_le (hr : r.InOrder) (size : Nat) :
    (r.resolve size).start ≤ (r.resolve size).stop ∧ (r.resolve size).stop ≤ size := by
  cases r with
  | whole => exact ⟨Nat.zero_le _, Nat.le_refl _⟩
  | onward start => exact ⟨Nat.min_le_right _ _, Nat.le_refl _⟩
  | bounded first last =>
      obtain ⟨hle, hlast⟩ := hr
      have hnext : first ≤ addSat last 1 :=
        Nat.le_min.2 ⟨Nat.le_succ_of_le hle, Nat.le_trans hle hlast⟩
      refine ⟨?_, Nat.min_le_right _ _⟩
      show min first size ≤ min (addSat last 1) size
      omega
  | suffix len => exact ⟨Nat.sub_le _ _, Nat.le_refl _⟩

end ByteRange

/-! ## Memory and files -/

/-- Bytes are cut into pieces of some bytes each, but not more than were asked for. -/
theorem mem_chunksOf {n : Nat} {b chunk : Bytes} (h : chunk ∈ chunksOf n b) :
    chunk ≠ [] ∧ chunk.length ≤ n + 1 := by
  fun_induction chunksOf n b with
  | case1 => cases h
  | case2 x rest ih =>
      rcases List.mem_cons.1 h with rfl | h
      · exact ⟨List.cons_ne_nil _ _, Nat.succ_le_succ (List.length_take_le _ _)⟩
      · exact ih h

namespace FileStore

theorem run_download {root : FileNode} {l : Locator} {data : Bytes}
    (h : node root l = .ok (.file data)) (range : ByteRange) :
    (store.download l range).run root = (.ok (serve range (.file data)), root) := by
  simp only [store, Attempt.run_bind, Attempt.run_get, Attempt.run_liftM, h, Attempt.run_pure]

theorem delivers_serve (range : ByteRange) (data : Bytes) :
    (serve range (.file data)).Delivers range data :=
  ⟨rfl, flatten_chunksOf _ _⟩

end FileStore

/-! ## Servers -/

namespace HttpStore

variable {σ : Type} {exchange : HttpExchange σ} {l : Locator} {data : Bytes} {ok : σ → Prop}
  {r : ByteRange} {s s' : σ} {a : HttpResponse}

/-- Requests for a locator reach a server that has the object.  Without a `Range` header it
sends all of it.  A header that lists one range is answered with the bytes that the range
means, if there are any, and states which ones these are. -/
structure Hosts (exchange : HttpExchange σ) (l : Locator) (data : Bytes) (ok : σ → Prop) :
    Prop where
  sendable : l.container.any isUnsendable = false
  whole : ∀ s, ok s → ∃ a s', (exchange ⟨.get, (target l).render, none⟩).run s = (.ok a, s') ∧
    ok s' ∧ a.status = 200 ∧ a.body.Delivers .whole data
  part : ∀ s text r, ok s → ByteRange.rangeSet? text.toList = some [r] →
    (r.resolve data.length).start < (r.resolve data.length).stop →
    ∃ a s', (exchange ⟨.get, (target l).render, some text⟩).run s = (.ok a, s') ∧
      ok s' ∧ a.status = 206 ∧ a.body.Delivers r data ∧
      ∃ name, a.headers.find? (fun h => h.1.map Char.toLower = "content-range") =
        some (name, Text.utf8 (ContentRange.rendered (r.resolve data.length).start
          ((r.resolve data.length).stop - 1) data.length))

theorem any_isUnsendable (text : String) :
    text.any isUnsendable = text.toList.any fun c => decide (c ∈ ['"', '`', '\x7b', '\x7d']) := by
  have hone : isUnsendable = fun c => decide (c ∈ ['"', '`', '\x7b', '\x7d']) := by
    funext c
    exact String.contains_char_eq
  rw [hone]
  exact String.contains_bool_eq

theorem run_send (hl : l.container.any isUnsendable = false) {method : HttpMethod}
    {range : Option String}
    (hrun : (exchange ⟨method, (target l).render, range⟩).run s = (.ok a, s')) :
    (send exchange method l range).run s = (.ok a, s') := by
  simp only [send, hl, Bool.false_eq_true, if_false, Attempt.run_mapError, hrun,
    Attempt.mapError_ok]

/-- The size of an object is what the answer to one request states. -/
theorem run_sizeOf (hl : l.container.any isUnsendable = false)
    (hrun : (exchange ⟨.head, (target l).render, none⟩).run s = (.ok a, s'))
    (hstatus : a.status = 200 ∨ a.status = 206) {name : String} {size : Nat}
    (hsize : size ≤ maxWord)
    (h : a.headers.find? (fun h => h.1.map Char.toLower = "content-length") =
      some (name, Text.utf8 (toString size))) :
    ((store exchange).sizeOf l).run s = (.ok size, s') := by
  have hvisible : ∀ c ∈ (toString size).toList, 32 ≤ c.toNat ∧ c.toNat < 127 := by
    intro c hc
    rw [toList_toString] at hc
    exact visible_of_mem hc
  have hlength : (a.header? "content-length").bind decimalWord? = some size := by
    rw [HttpResponse.header?_of_find? h hvisible, Option.bind_some, toList_toString,
      decimalWord?_toDigits hsize]
  simp only [store, Attempt.run_bind, run_send hl hrun, Attempt.run_liftM,
    checkStatus_of_ok l hstatus, hlength]
  rfl

/-- A download is the answer to one request, if its headers bear it out. -/
theorem run_download (hl : l.container.any isUnsendable = false)
    (hrun : (exchange ⟨.get, (target l).render, r.expression?⟩).run s = (.ok a, s'))
    (hstatus : a.status = 200 ∨ a.status = 206) :
    ((store exchange).download l r).run s =
      ((if r ≠ .whole then checkPartial l r a else .ok ()).map fun _ => a.body, s') := by
  have hsend := run_send hl hrun
  have hcheck := checkStatus_of_ok l hstatus
  by_cases hr : r = .whole
  · subst hr
    simp only [store, Attempt.run_bind, hsend, Attempt.run_liftM, hcheck, ne_eq,
      not_true_eq_false, if_false]
    rfl
  · simp only [store, Attempt.run_bind, hsend, Attempt.run_liftM, hcheck, ne_eq, hr,
      not_false_eq_true, if_true]
    cases checkPartial l r a <;> rfl

/-- An answer is accepted that states the bytes that a range means, as servers write them. -/
theorem accepted_of_find? (hr : r.InOrder) (hdata : data.length ≤ maxWord)
    (hne : (r.resolve data.length).start < (r.resolve data.length).stop)
    (hstatus : a.status = 200 ∨ a.status = 206) {name : String}
    (h : a.headers.find? (fun h => h.1.map Char.toLower = "content-range") =
      some (name, Text.utf8 (ContentRange.rendered (r.resolve data.length).start
        ((r.resolve data.length).stop - 1) data.length))) : a.Accepted r := by
  obtain ⟨-, hstop⟩ := ByteRange.resolve_le hr data.length
  refine ⟨hstatus, ⟨(r.resolve data.length).start, (r.resolve data.length).stop - 1,
    some data.length⟩, ?_, ?_⟩
  · rw [HttpResponse.header?_of_find? h (ContentRange.visible_rendered _ _ _), Option.bind_some]
    exact ContentRange.ofText?_rendered (by omega) (by omega) hdata
  · have hnext : addSat ((r.resolve data.length).stop - 1) 1 = (r.resolve data.length).stop := by
      rw [addSat_eq_add (by omega)]
      omega
    simp only [ContentRange.answers, ContentRange.span, hnext, decide_true]

/-- A server that has the object delivers what a range means, if that is not nothing. -/
theorem Hosts.run_download (h : Hosts exchange l data ok) (hr : r.InOrder)
    (hdata : data.length ≤ maxWord)
    (hne : (r.resolve data.length).start < (r.resolve data.length).stop) (hs : ok s) :
    ∃ b s', ((store exchange).download l r).run s = (.ok b, s') ∧ b.Delivers r data ∧ ok s' := by
  cases htext : r.expression? with
  | none =>
      have hwhole : r = .whole := by
        cases r with
        | whole => rfl
        | onward => cases htext
        | bounded => cases htext
        | suffix => cases htext
      subst hwhole
      obtain ⟨a, s', hrun, hs', hstatus, hbody⟩ := h.whole s hs
      have hdownload := HttpStore.run_download h.sendable (r := .whole) hrun (.inl hstatus)
      refine ⟨a.body, s', ?_, hbody, hs'⟩
      rw [hdownload, if_neg (not_not_intro rfl)]
      rfl
  | some text =>
      have hset := ByteRange.rangeSet?_expression hr htext
      obtain ⟨a, s', hrun, hs', hstatus, hbody, name, hheader⟩ := h.part s text r hs hset hne
      rw [← htext] at hrun
      have hdownload := HttpStore.run_download h.sendable hrun (.inr hstatus)
      have hcheck : checkPartial l r a = .ok () :=
        checkPartial_eq_ok_iff.2 (accepted_of_find? hr hdata hne (.inr hstatus) hheader)
      refine ⟨a.body, s', ?_, hbody, hs'⟩
      rw [hdownload, hcheck]
      split <;> rfl

theorem Hosts.run_readRange (h : Hosts exchange l data ok) (hr : r.InOrder)
    (hdata : data.length ≤ maxWord)
    (hne : (r.resolve data.length).start < (r.resolve data.length).stop) (hs : ok s) :
    ∃ s', ((store exchange).readRange l r).run s = (.ok (r.part data), s') ∧ ok s' := by
  obtain ⟨b, s', hrun, hdelivers, hs'⟩ := h.run_download hr hdata hne hs
  exact ⟨s', Store.run_readRange_of_delivers hrun hdelivers, hs'⟩

/-- An answer is refused that states the size of the object, but another span than the one
that is meant. -/
theorem download_refused {served : ContentRange} {size : Nat} (hr : r ≠ .whole)
    (hrun : (exchange ⟨.get, (target l).render, r.expression?⟩).run s = (.ok a, s'))
    (hstatus : a.status = 200 ∨ a.status = 206)
    (hserved : (a.header? "content-range").bind ContentRange.ofText? = some served)
    (htotal : served.total = some size) (hlast : served.last < maxWord)
    (hother : (⟨served.first, served.last + 1⟩ : Span) ≠ r.resolve size) :
    ∃ e, (((store exchange).download l r).run s).1 = .error e := by
  cases hl : l.container.any isUnsendable with
  | true =>
      refine ⟨.http (.unsendable (target l).render), ?_⟩
      simp only [store, Attempt.run_bind, send, hl, if_true, Attempt.run_fail]
  | false =>
      have hspan : served.span = ⟨served.first, served.last + 1⟩ := by
        rw [ContentRange.span, addSat_eq_add (Nat.succ_le_of_lt hlast)]
      have hanswers : served.answers r = false := by
        simp only [ContentRange.answers, htotal, hspan, hother, decide_false]
      have hcheck : checkPartial l r a =
          .error (.store (.wrongSpan l.render served.first served.last r)) := by
        rcases hstatus with h | h <;> simp [checkPartial, h, hserved, hanswers]
      refine ⟨.store (.wrongSpan l.render served.first served.last r), ?_⟩
      rw [run_download hl hrun hstatus, if_pos hr, hcheck]
      rfl

/-- The answer that has all of an object. -/
def wholeAnswer (data : Bytes) : HttpResponse :=
  ⟨200, "OK", [("content-length", Text.utf8 (toString data.length))], ⟨[data], none⟩⟩

/-- The answer that has what a range means. -/
def partAnswer (data : Bytes) (r : ByteRange) : HttpResponse :=
  ⟨206, "Partial Content",
    [("content-range", Text.utf8 (ContentRange.rendered (r.resolve data.length).start
      ((r.resolve data.length).stop - 1) data.length))], ⟨[r.part data], none⟩⟩

theorem find?_wholeAnswer (data : Bytes) :
    (wholeAnswer data).headers.find? (fun h => h.1.map Char.toLower = "content-length") =
      some ("content-length", Text.utf8 (toString data.length)) := by
  have hname : "content-length".map Char.toLower = "content-length" := by
    rw [← String.toList_inj, String.toList_map]
    decide
  simp only [wholeAnswer, List.find?_cons, hname, decide_true]

theorem find?_partAnswer (data : Bytes) (r : ByteRange) :
    (partAnswer data r).headers.find? (fun h => h.1.map Char.toLower = "content-range") =
      some ("content-range", Text.utf8 (ContentRange.rendered (r.resolve data.length).start
        ((r.resolve data.length).stop - 1) data.length)) := by
  have hname : "content-range".map Char.toLower = "content-range" := by
    rw [← String.toList_inj, String.toList_map]
    decide
  simp only [partAnswer, List.find?_cons, hname, decide_true]

/-- A server that has one object and nothing else. -/
def hosting (data : Bytes) : HttpExchange Unit := fun request =>
  match request.method, request.range.bind fun text => ByteRange.rangeSet? text.toList with
  | .get, some [r] =>
    if (r.resolve data.length).start < (r.resolve data.length).stop then pure (partAnswer data r)
    else pure ⟨416, "Range Not Satisfiable", [], ⟨[], none⟩⟩
  | _, _ => pure (wholeAnswer data)

theorem hosts_hosting (hl : l.container.any isUnsendable = false) (data : Bytes) :
    Hosts (hosting data) l data fun _ => True where
  sendable := hl
  whole s _ := by
    refine ⟨wholeAnswer data, s, rfl, trivial, rfl, rfl, ?_⟩
    simp [wholeAnswer, ByteRange.part, ByteRange.resolve, Span.len, Bytes.slice]
  part s text r _ htext hne := by
    refine ⟨partAnswer data r, s, ?_, trivial, rfl, ⟨rfl, by simp [partAnswer]⟩,
      "content-range", find?_partAnswer data r⟩
    simp only [hosting, Option.bind_some, htext, if_pos hne]
    rfl

end HttpStore

/-! ## One contract -/

/-- What a range delivers: the stretch of the object that it resolves to, from memory in pieces
of at most 8192 bytes, from a local file, and from a server if it is not empty.  The request
says which range is meant.  An answer that says otherwise is refused. -/
theorem range_contract {data : Bytes} (hdata : data.length ≤ maxWord) {r : ByteRange}
    (hr : r.Obtained) (l : Locator) :
    (∀ size, (r.resolve size).start ≤ (r.resolve size).stop ∧ (r.resolve size).stop ≤ size) ∧
    (∀ m : MemoryStore, m.failing = false → m.object l = .ok data →
      ∃ b m', (MemoryStore.store.download l r).run m = (.ok b, m') ∧
        b.read = .ok (Bytes.slice data (r.resolve data.length).start (r.resolve data.length).len) ∧
        ∀ chunk ∈ b.chunks, chunk ≠ [] ∧ chunk.length ≤ 8192) ∧
    (∀ root : FileNode, FileStore.node root l = .ok (.file data) →
      ∃ b, (FileStore.store.download l r).run root = (.ok b, root) ∧
        b.read = .ok (Bytes.slice data (r.resolve data.length).start
          (r.resolve data.length).len)) ∧
    (r.expression? = none ↔ r = .whole) ∧
    (∀ text, r.expression? = some text → ByteRange.rangeSet? text.toList = some [r]) ∧
    ((r.resolve data.length).start < (r.resolve data.length).stop →
      ∀ {σ : Type} (exchange : HttpExchange σ) (ok : σ → Prop) (s : σ),
        HttpStore.Hosts exchange l data ok → ok s →
        ∃ b s', ((HttpStore.store exchange).download l r).run s = (.ok b, s') ∧
          b.read = .ok (Bytes.slice data (r.resolve data.length).start
            (r.resolve data.length).len)) ∧
    (r ≠ .whole → ∀ {σ : Type} (exchange : HttpExchange σ) (s s' : σ) (a : HttpResponse)
      (served : ContentRange) (size : Nat),
      (exchange ⟨.get, (HttpStore.target l).render, r.expression?⟩).run s = (.ok a, s') →
      a.status = 200 ∨ a.status = 206 →
      (a.header? "content-range").bind ContentRange.ofText? = some served →
      served.total = some size → served.last < maxWord →
      (⟨served.first, served.last + 1⟩ : Span) ≠ r.resolve size →
      ∃ e, (((HttpStore.store exchange).download l r).run s).1 = .error e) ∧
    (∀ first last size, first ≤ last → last ≤ maxWord → size ≤ maxWord →
      ContentRange.ofText? (ContentRange.rendered first last size).toList =
        some ⟨first, last, some size⟩) := by
  refine ⟨ByteRange.resolve_le hr.inOrder, ?_, ?_, ?_, ?_, ?_, ?_, ?_⟩
  · intro m hm ho
    refine ⟨_, _, MemoryStore.run_download hm ho r, ?_, ?_⟩
    · have hdelivers : (MemoryStore.serve data r).Delivers r data := ⟨rfl, flatten_chunksOf _ _⟩
      exact hdelivers.read_eq
    · intro chunk hchunk
      exact mem_chunksOf hchunk
  · intro root hroot
    exact ⟨_, FileStore.run_download hroot r, (FileStore.delivers_serve r data).read_eq⟩
  · cases r <;> simp [ByteRange.expression?]
  · intro text htext
    exact ByteRange.rangeSet?_expression hr.inOrder htext
  · intro hne σ exchange ok s hosts hs
    obtain ⟨b, s', hrun, hdelivers, -⟩ := hosts.run_download hr.inOrder hdata hne hs
    exact ⟨b, s', hrun, hdelivers.read_eq⟩
  · intro hwhole σ exchange s s' a served size hrun hstatus hserved htotal hlast hother
    exact HttpStore.download_refused hwhole hrun hstatus hserved htotal hlast hother
  · intro first last size hle hlast hsize
    exact ContentRange.ofText?_rendered hle hlast hsize

/-! Three bytes of ten, from a server. -/
namespace TenBytes

def object : Bytes := [0, 1, 2, 3, 4, 5, 6, 7, 8, 9]

def locator : Locator := ⟨"http", some { host := "host" }, ["a.zip"], none, none⟩

theorem served_from_two : ∃ b s, ((HttpStore.store (HttpStore.hosting object)).download locator
    (.ofSpan 2 3)).run () = (.ok b, s) ∧ b.read = .ok [2, 3, 4] := by
  have hsendable : locator.container.any HttpStore.isUnsendable = false := by
    rw [HttpStore.any_isUnsendable]
    decide
  have hhosts := HttpStore.hosts_hosting hsendable object
  have hsize : object.length ≤ maxWord := by decide
  have hobtained : (ByteRange.ofSpan 2 3).Obtained := .span (by decide) (by decide)
  have hcontract := range_contract hsize hobtained locator
  exact hcontract.2.2.2.2.2.1 (by decide) (HttpStore.hosting object) (fun _ => True) () hhosts
    trivial

end TenBytes

end ArchiveMount
