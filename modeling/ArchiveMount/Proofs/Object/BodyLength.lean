/-
# `ArchiveMount.Proofs.Object.BodyLength` — how many bytes a range is read off a server as

An answer says three things about its length: its `Content-Range` header names a first and a
last byte, the range that was asked for has a length, and the body has one.  The first two are
held against each other when an answer is taken, and agree but for one byte at the end of the
64-bit range (`ContentRange.count_le_or_of_answers`).  The body is not held against either, so
that a range is read as too much or too little exactly when the body says so
(`HttpStore.readRange_miscounts_iff`).
-/
import ArchiveMount.Proofs.Object.Contract

namespace ArchiveMount

/-! ## How many bytes are asked for, and how many are announced -/

namespace ByteRange

variable {r : ByteRange} {n size : Nat}

/-- The most bytes that a range asks for, if it says so. -/
def most? : ByteRange → Option Nat
  | .whole => none
  | .onward _ => none
  | .bounded first last => some (last + 1 - first)
  | .suffix len => some len

/-- A range never means more bytes than it asks for. -/
theorem len_resolve_le (h : r.most? = some n) : (r.resolve size).len ≤ n := by
  cases r with
  | whole => cases h
  | onward start => cases h
  | bounded first last =>
      obtain rfl := Option.some.inj h
      have hnext : addSat last 1 ≤ last + 1 := Nat.min_le_left _ _
      show min (addSat last 1) size - min first size ≤ last + 1 - first
      omega
  | suffix len =>
      obtain rfl := Option.some.inj h
      show size - (size - len) ≤ len
      omega

end ByteRange

namespace ContentRange

variable {c : ContentRange} {r : ByteRange} {n : Nat}

/-- The number of bytes that a header announces, both ends included. -/
def count (c : ContentRange) : Nat := c.last - c.first + 1

theorem count_eq_len_span (hc : c.first ≤ c.last) (hlast : c.last < maxWord) :
    c.count = c.span.len := by
  have hnext : addSat c.last 1 = c.last + 1 := addSat_eq_add (Nat.succ_le_of_lt hlast)
  simp only [count, span, Span.len, hnext]
  omega

/-- The span that a header stands for has no place behind the last byte that 64 bits can name,
and so comes short of that byte. -/
theorem count_eq_len_span_succ (hc : c.first ≤ c.last) (hlast : c.last = maxWord) :
    c.count = c.span.len + 1 := by
  have hnext : addSat c.last 1 = maxWord := by
    rw [hlast]
    rfl
  simp only [count, span, Span.len, hnext]
  omega

/-- The span of an accepted header is no longer than what was asked for. -/
theorem len_span_le (hanswers : c.answers r = true) (h : r.most? = some n) : c.span.len ≤ n := by
  cases htotal : c.total with
  | some total =>
      simp only [answers, htotal, decide_eq_true_eq] at hanswers
      rw [hanswers]
      exact ByteRange.len_resolve_le h
  | none =>
      simp only [answers, htotal] at hanswers
      cases r with
      | whole => cases h
      | onward start => cases h
      | bounded first last =>
          obtain rfl := Option.some.inj h
          simp only [Bool.and_eq_true, decide_eq_true_eq] at hanswers
          obtain ⟨hstart, hstop⟩ := hanswers
          have hnext : addSat last 1 ≤ last + 1 := Nat.min_le_left _ _
          simp only [Span.len]
          omega
      | suffix len =>
          obtain rfl := Option.some.inj h
          exact of_decide_eq_true hanswers

/-- An accepted header announces no more bytes than were asked for, or one more if the last of
them is the last that 64 bits can name. -/
theorem count_le_or_of_answers (hc : c.first ≤ c.last) (hlast : c.last ≤ maxWord)
    (hanswers : c.answers r = true) (h : r.most? = some n) :
    c.count ≤ n ∨ c.last = maxWord ∧ c.count = n + 1 := by
  have hspan := len_span_le hanswers h
  rcases Nat.lt_or_eq_of_le hlast with hlt | heq
  · left
    rw [count_eq_len_span hc hlt]
    exact hspan
  · have hcount := count_eq_len_span_succ hc heq
    omega

/-- Nothing was asked for, and one byte is announced. -/
example : (⟨maxWord, maxWord, none⟩ : ContentRange).answers (.suffix 0) = true := by decide

/-- These are the bytes that a header announces, and not more than a range asks for. -/
def Measures (c : ContentRange) (r : ByteRange) (bytes : Bytes) : Prop :=
  bytes.length = c.count ∧ ∀ n, r.most? = some n → bytes.length ≤ n

/-- A body comes to something else than what was announced or asked for through its own length,
or through the one byte that an accepted header may announce beyond what was asked for. -/
theorem not_measures_iff (hc : c.first ≤ c.last) (hlast : c.last ≤ maxWord)
    (hanswers : c.answers r = true) {bytes : Bytes} :
    ¬ c.Measures r bytes ↔
      bytes.length ≠ c.count ∨ c.last = maxWord ∧ r.most? = some (c.count - 1) := by
  constructor
  · intro hnot
    by_cases hlength : bytes.length = c.count
    · right
      have hmore : ∃ n, r.most? = some n ∧ n < c.count := by
        by_contra hnone
        refine hnot ⟨hlength, fun n hn => ?_⟩
        rw [hlength]
        exact Nat.le_of_not_lt fun hlt => hnone ⟨n, hn, hlt⟩
      obtain ⟨n, hn, hlt⟩ := hmore
      obtain hle | ⟨hend, hcount⟩ := count_le_or_of_answers hc hlast hanswers hn
      · omega
      · refine ⟨hend, ?_⟩
        rw [hn, hcount, Nat.add_sub_cancel]
    · exact .inl hlength
  · rintro (hlength | ⟨-, hmost⟩) ⟨hmeasured, hle⟩
    · exact hlength hmeasured
    · have hless := hle _ hmost
      have hpos : 0 < c.count := Nat.succ_pos _
      omega

end ContentRange

/-! ## What is read -/

namespace HttpStore

variable {σ : Type} {exchange : HttpExchange σ} {l : Locator} {r : ByteRange} {s : σ}
  {a : HttpResponse} {served : ContentRange}

/-- The server answers the request for a range with `a`, which ends without a failure and whose
status and header are accepted.  The header says that `served` is sent. -/
structure Taken (exchange : HttpExchange σ) (l : Locator) (r : ByteRange) (s : σ)
    (a : HttpResponse) (served : ContentRange) : Prop where
  sendable : l.container.any isUnsendable = false
  answered : ((exchange ⟨.get, (target l).render, r.expression?⟩).run s).1 = .ok a
  status : a.status = 200 ∨ a.status = 206
  header : (a.header? "content-range").bind ContentRange.ofText? = some served
  answers : served.answers r = true
  complete : a.body.failure = none

/-- The ends that an accepted header names. -/
theorem Taken.ends (h : Taken exchange l r s a served) :
    served.first ≤ served.last ∧ served.last ≤ maxWord := by
  obtain ⟨value, -, hvalue⟩ := Option.bind_eq_some_iff.1 h.header
  exact ContentRange.ends_of_ofText? hvalue

/-- There is one answer, and one header in it. -/
theorem Taken.unique {a' : HttpResponse} {served' : ContentRange}
    (h : Taken exchange l r s a served) (h' : Taken exchange l r s a' served') :
    a = a' ∧ served = served' := by
  have ha : a = a' := Except.ok.inj (h.answered.symm.trans h'.answered)
  subst ha
  exact ⟨rfl, Option.some.inj (h.header.symm.trans h'.header)⟩

theorem readRange_eq_ok_iff_taken (hr : r ≠ .whole) {bytes : Bytes} :
    (((store exchange).readRange l r).run s).1 = .ok bytes ↔
      ∃ a served, Taken exchange l r s a served ∧ a.body.chunks.flatten = bytes := by
  rw [fst_run_readRange_eq_ok_iff hr]
  constructor
  · rintro ⟨hl, a, ha, ⟨hstatus, served, hheader, hanswers⟩, hcomplete, hbytes⟩
    exact ⟨a, served, ⟨hl, ha, hstatus, hheader, hanswers, hcomplete⟩, hbytes⟩
  · rintro ⟨a, served, h, hbytes⟩
    exact ⟨h.sendable, a, h.answered, ⟨h.status, served, h.header, h.answers⟩, h.complete, hbytes⟩

/-- Whatever a server answers, a range is read as the body of an answer that is taken.  Its header
announces no more than was asked for, or one byte more at the end of the 64-bit range.  The
bytes that are read are not as many as announced, or more than asked for, exactly if the body is
of another length than announced, or the header announces that one byte. -/
theorem readRange_miscounts_iff (exchange : HttpExchange σ) (l : Locator) (hr : r ≠ .whole) (s : σ) :
    (∀ bytes, (((store exchange).readRange l r).run s).1 = .ok bytes ↔
      ∃ a served, Taken exchange l r s a served ∧ a.body.chunks.flatten = bytes) ∧
    (∀ a served, Taken exchange l r s a served → ∀ n, r.most? = some n →
      served.count ≤ n ∨ served.last = maxWord ∧ served.count = n + 1) ∧
    ((∃ bytes a served, (((store exchange).readRange l r).run s).1 = .ok bytes ∧
        Taken exchange l r s a served ∧ ¬ served.Measures r bytes) ↔
      ∃ a served, Taken exchange l r s a served ∧
        (a.body.chunks.flatten.length ≠ served.count ∨
          served.last = maxWord ∧ r.most? = some (served.count - 1))) := by
  refine ⟨fun bytes => readRange_eq_ok_iff_taken hr, ?_, ?_⟩
  · intro a served h n hn
    exact ContentRange.count_le_or_of_answers h.ends.1 h.ends.2 h.answers hn
  · constructor
    · rintro ⟨bytes, a, served, hread, htaken, hnot⟩
      obtain ⟨a', served', htaken', rfl⟩ := (readRange_eq_ok_iff_taken hr).1 hread
      obtain ⟨rfl, rfl⟩ := htaken.unique htaken'
      exact ⟨a, served, htaken,
        (ContentRange.not_measures_iff htaken.ends.1 htaken.ends.2 htaken.answers).1 hnot⟩
    · rintro ⟨a, served, htaken, hother⟩
      refine ⟨a.body.chunks.flatten, a, served, ?_, htaken, ?_⟩
      · exact (readRange_eq_ok_iff_taken hr).2 ⟨a, served, htaken, rfl⟩
      · exact (ContentRange.not_measures_iff htaken.ends.1 htaken.ends.2 htaken.answers).2 hother

end HttpStore

/-! The last 22 bytes of an object of a hundred, and a server that sends 30 of them. -/
namespace Overlong

open HttpStore

def locator : Locator := ⟨"http", some { host := "host" }, ["a.zip"], none, none⟩

def object : Bytes := List.replicate 100 0

/-- The header is right, the body is not. -/
def answer : HttpResponse :=
  { partAnswer object (.suffix 22) with body := ⟨[List.replicate 30 0], none⟩ }

def server : HttpExchange Unit := fun _ => pure answer

def served : ContentRange := ⟨78, 99, some 100⟩

theorem taken : Taken server locator (.suffix 22) () answer served where
  sendable := by
    rw [any_isUnsendable]
    decide
  answered := rfl
  status := .inr rfl
  header := by
    have hfind := find?_partAnswer object (.suffix 22)
    have hvisible := ContentRange.visible_rendered 78 99 100
    rw [HttpResponse.header?_of_find? (r := answer) hfind hvisible, Option.bind_some]
    exact ContentRange.ofText?_rendered (by decide) (by decide) (by decide)
  answers := by decide
  complete := rfl

/-- The 30 bytes are read, though 22 are announced and 22 were asked for. -/
theorem thirty_read : ¬ ∀ {σ : Type} (exchange : HttpExchange σ) (l : Locator) (r : ByteRange)
    (s : σ) (bytes : Bytes) (a : HttpResponse) (served : ContentRange), r ≠ .whole →
      (((store exchange).readRange l r).run s).1 = .ok bytes →
      Taken exchange l r s a served → served.Measures r bytes := by
  intro hall
  have hread : (((store server).readRange locator (.suffix 22)).run ()).1 =
      .ok (List.replicate 30 0) :=
    (readRange_eq_ok_iff_taken (by decide)).2 ⟨answer, served, taken, by decide⟩
  have hmeasures := hall server locator (.suffix 22) () _ answer served (by decide) hread taken
  exact absurd hmeasures.1 (by decide)

theorem miscounted : ByteRange.suffix 22 ≠ .whole ∧ ∃ bytes a served,
    (((store server).readRange locator (.suffix 22)).run ()).1 = .ok bytes ∧
      Taken server locator (.suffix 22) () a served ∧ ¬ served.Measures (.suffix 22) bytes := by
  have hr : ByteRange.suffix 22 ≠ .whole := by decide
  refine ⟨hr, (readRange_miscounts_iff server locator hr ()).2.2.2 ?_⟩
  exact ⟨answer, served, taken, .inl (by decide)⟩

end Overlong

end ArchiveMount
