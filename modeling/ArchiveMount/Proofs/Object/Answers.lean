/-
# `ArchiveMount.Proofs.Object.Answers` — which answers of a server are taken

Whatever a server answers: a range is read if the status and the `Content-Range` header say
that it is what has been sent (`HttpResponse.Accepted`), and if the body ends without a
failure.  What is read is the body then, however long it is (`fst_run_readRange_eq_ok_iff`).
-/
import ArchiveMount.Object.Http
import ArchiveMount.Proofs.Object.Serving
import Mathlib.Tactic.SplitIfs

namespace ArchiveMount

theorem le_of_decimalWord? {s : List Char} {n : Nat} (h : decimalWord? s = some n) :
    n ≤ maxWord := by
  simp only [decimalWord?, Option.ite_none_left_eq_some, Option.ite_none_right_eq_some,
    Option.some.injEq] at h
  obtain ⟨-, hle, rfl⟩ := h
  exact hle

theorem Body.read_eq_ok_iff {b : Body} {bytes : Bytes} :
    b.read = .ok bytes ↔ b.failure = none ∧ b.chunks.flatten = bytes := by
  rw [read]
  cases b.failure <;> simp

/-- The bytes from `start` up to `stop`, both ends included. -/
theorem ByteRange.ofSpan_sub {start stop : Nat} (hlt : start < stop) (hstop : stop ≤ maxWord) :
    ofSpan start (stop - start) = .bounded start (stop - 1) := by
  have hlen : max (stop - start) 1 = stop - start := by omega
  have hlast : addSat start (stop - start - 1) = stop - 1 := by
    rw [addSat_eq_add (by omega)]
    omega
  rw [ofSpan, hlen, hlast]

/-! ## What a header has to state -/

namespace ContentRange

variable {c : ContentRange} {value : List Char} {start stop : Nat}

/-- The ends that are read from a header are in order and fit 64 bits. -/
theorem ends_of_ofText? (h : ofText? value = some c) : c.first ≤ c.last ∧ c.last ≤ maxWord := by
  simp only [ofText?, Option.bind_eq_bind] at h
  split_ifs at h
  · cases h
  · simp only [Option.bind_eq_some_iff] at h
    obtain ⟨whole, -, ends, -, h⟩ := h
    have hends : ∀ {total : Option Nat}, ((decimalWord? (Text.trimBlanks ends.1)).bind fun first =>
        (decimalWord? (Text.trimBlanks ends.2)).bind fun last =>
          if first ≤ last then some (⟨first, last, total⟩ : ContentRange) else none) = some c →
        c.first ≤ c.last ∧ c.last ≤ maxWord := by
      intro total h
      simp only [Option.bind_eq_some_iff, Option.ite_none_right_eq_some, Option.some.injEq] at h
      obtain ⟨first, -, last, hlast, hle, rfl⟩ := h
      exact ⟨hle, le_of_decimalWord? hlast⟩
    split_ifs at h
    · exact hends h
    · obtain ⟨total, -, h⟩ := Option.bind_eq_some_iff.1 h
      exact hends h

theorem first_le_last_of_ofText? (h : ofText? value = some c) : c.first ≤ c.last :=
  (ends_of_ofText? h).1

/-- What is sent begins at `start` and ends at `stop`, or where the object does.  If the size
of the object is not stated, it may end anywhere before. -/
def Covers (c : ContentRange) (start stop : Nat) : Prop :=
  c.first = start ∧
    match c.total with
    | some total => c.span.stop = min stop total
    | none => c.span.stop ≤ stop

theorem answers_bounded_iff (hc : c.first ≤ c.last) (hlt : start < stop) (hstop : stop ≤ maxWord) :
    c.answers (.bounded start (stop - 1)) = true ↔ c.Covers start stop := by
  have hnext : addSat (stop - 1) 1 = stop := by
    rw [addSat_eq_add (by omega)]
    omega
  rw [answers, Covers]
  cases c.total with
  | none =>
      simp only [hnext, Bool.and_eq_true, decide_eq_true_eq]
      rfl
  | some total =>
      simp only [span, ByteRange.resolve, hnext, decide_eq_true_eq, Span.mk.injEq]
      -- an object that ends before the bytes begin does not have the last one of them
      have hreach : addSat c.last 1 = min stop total → start ≤ c.first ∨ total ≤ c.first →
          min start total = start := by
        intro hend hfirst
        simp only [addSat] at hend
        omega
      constructor
      · rintro ⟨hfirst, hend⟩
        have hstart := hreach hend (by omega)
        exact ⟨hfirst.trans hstart, hend⟩
      · rintro ⟨hfirst, hend⟩
        have hstart := hreach hend (.inl (Nat.le_of_eq hfirst.symm))
        exact ⟨hfirst.trans hstart.symm, hend⟩

end ContentRange

/-- Status and headers bear out that a range is what has been sent; of the body they are
taken at their word. -/
def HttpResponse.Accepted (a : HttpResponse) (r : ByteRange) : Prop :=
  (a.status = 200 ∨ a.status = 206) ∧
    ∃ served, (a.header? "content-range").bind ContentRange.ofText? = some served ∧
      served.answers r = true

theorem HttpResponse.accepted_bounded_iff {a : HttpResponse} {start stop : Nat} (hlt : start < stop)
    (hstop : stop ≤ maxWord) :
    a.Accepted (.bounded start (stop - 1)) ↔ (a.status = 200 ∨ a.status = 206) ∧
      ∃ served, (a.header? "content-range").bind ContentRange.ofText? = some served ∧
        served.Covers start stop := by
  refine and_congr_right fun _ => exists_congr fun served => and_congr_right fun hserved => ?_
  obtain ⟨value, -, hvalue⟩ := Option.bind_eq_some_iff.1 hserved
  exact ContentRange.answers_bounded_iff (ContentRange.first_le_last_of_ofText? hvalue) hlt hstop

/-! ## What is read -/

namespace HttpStore

variable {σ : Type} {exchange : HttpExchange σ} {l : Locator} {r : ByteRange} {s : σ} {n : Nat}
  {a : HttpResponse} {bytes : Bytes}

theorem checkStatus_of_ok (l : Locator) (h : a.status = 200 ∨ a.status = 206) :
    checkStatus l a = .ok () := by
  rcases h with h | h <;> simp [checkStatus, h]

theorem checkPartial_eq_ok_iff : checkPartial l r a = .ok () ↔ a.Accepted r := by
  rw [checkPartial, HttpResponse.Accepted]
  by_cases hstatus : a.status = 200 ∨ a.status = 206
  · have hchecked : ¬ (a.status ≠ 206 ∧ a.status ≠ 200) := by omega
    rw [if_neg hchecked]
    cases (a.header? "content-range").bind ContentRange.ofText? with
    | none => simp
    | some served =>
        cases hserved : served.answers r <;> simp [hstatus, hserved]
  · have hchecked : a.status ≠ 206 ∧ a.status ≠ 200 := by omega
    rw [if_pos hchecked]
    simp [hstatus]

theorem fst_run_send_eq_ok_iff {method : HttpMethod} {text : Option String} :
    ((send exchange method l text).run s).1 = .ok a ↔ l.container.any isUnsendable = false ∧
      ((exchange ⟨method, (target l).render, text⟩).run s).1 = .ok a := by
  rw [send]
  split_ifs with hl
  · simp [hl]
  · simp [hl, Attempt.mapError_eq_ok_iff]

/-- A size that a server states fits 64 bits. -/
theorem sizeOf_eq_ok (h : (((store exchange).sizeOf l).run s).1 = .ok n) :
    l.container.any isUnsendable = false ∧ n ≤ maxWord := by
  simp only [store] at h
  obtain ⟨a, ha, h⟩ := Attempt.fst_run_bind_eq_ok_iff.1 h
  obtain ⟨_, -, h⟩ := Attempt.fst_run_bind_eq_ok_iff.1 h
  refine ⟨(fst_run_send_eq_ok_iff.1 ha).1, ?_⟩
  split at h
  case h_1 m hlength =>
    obtain rfl := Except.ok.inj h
    obtain ⟨value, -, hvalue⟩ := Option.bind_eq_some_iff.1 hlength
    exact le_of_decimalWord? hvalue
  case h_2 => cases h

/-- A range is read off an answer whose headers are accepted, and it is the body. -/
theorem fst_run_readRange_eq_ok_iff (hr : r ≠ .whole) :
    (((store exchange).readRange l r).run s).1 = .ok bytes ↔
      l.container.any isUnsendable = false ∧
        ∃ a, ((exchange ⟨.get, (target l).render, r.expression?⟩).run s).1 = .ok a ∧
          a.Accepted r ∧ a.body.failure = none ∧ a.body.chunks.flatten = bytes := by
  simp only [Store.readRange, store, if_pos hr, Attempt.fst_run_bind_eq_ok_iff, Attempt.run_liftM,
    Attempt.run_pure, Except.ok.injEq, fst_run_send_eq_ok_iff]
  constructor
  · rintro ⟨b, ⟨a, ⟨hl, ha⟩, _, -, _, haccepted, rfl⟩, hb⟩
    exact ⟨hl, a, ha, checkPartial_eq_ok_iff.1 haccepted, Body.read_eq_ok_iff.1 hb⟩
  · rintro ⟨hl, a, ha, haccepted, hb⟩
    exact ⟨a.body, ⟨a, ⟨hl, ha⟩, (), checkStatus_of_ok l haccepted.1, (),
      checkPartial_eq_ok_iff.2 haccepted, rfl⟩, Body.read_eq_ok_iff.2 hb⟩

end HttpStore

end ArchiveMount
