/-
# `ArchiveMount.Proofs.Archive.EndRecord` — where the end record is

`EndRecord.StandsAt b pos` says of a position that the signature stands there and that the
comment announced there reaches the last byte.  The search answers the last such position
of all, although it looks only at those that a comment of 65535 bytes leaves open
(`find_eq_some_iff`, `find_eq_none_iff`).
-/
import ArchiveMount.Archive.EndRecord
import ArchiveMount.Proofs.Bytes
import Mathlib.Data.Nat.Find

namespace ArchiveMount.EndRecord

/-- A record stands at `pos` whose comment ends where `b` ends. -/
def StandsAt (b : Bytes) (pos : Nat) : Prop :=
  Bytes.field b pos 4 = signature ∧ pos + fixedLen + Bytes.field b (pos + 20) 2 = b.length

instance (b : Bytes) (pos : Nat) : Decidable (StandsAt b pos) := inferInstanceAs (Decidable (_ ∧ _))

variable {b : Bytes} {pos : Nat}

theorem StandsAt.add_fixedLen_le (h : StandsAt b pos) : pos + fixedLen ≤ b.length := by
  obtain ⟨-, hl⟩ := h
  omega

theorem StandsAt.lt_length (h : StandsAt b pos) : pos < b.length := by
  have hl := h.add_fixedLen_le
  simp only [fixedLen] at hl
  omega

/-- A record begins with a byte that other bytes cannot be taken for. -/
theorem StandsAt.getElem?_eq (h : StandsAt b pos) : b[pos]? = some 0x50 := by
  have hs : Bytes.toNat ((b.drop pos).take 4) = signature := h.1
  rw [← List.head?_drop]
  cases hrest : b.drop pos with
  | nil =>
      rw [hrest] at hs
      cases hs
  | cons x rest =>
      rw [hrest, List.take_succ_cons, Bytes.toNat] at hs
      have hx := x.toNat_lt
      have hfirst : x.toNat = 0x50 := by
        simp only [signature] at hs
        omega
      exact congrArg some (UInt8.toNat_inj.1 hfirst)

/-- A comment is at most 65535 bytes long. -/
theorem StandsAt.length_le (h : StandsAt b pos) : b.length ≤ pos + fixedLen + maxCommentLen := by
  obtain ⟨-, hl⟩ := h
  have hc := Bytes.field_lt b (pos + 20) 2
  rw [Bytes.capacity_two] at hc
  simp only [maxCommentLen]
  omega

/-- A position of a window is the position of the object it shows. -/
theorem standsAt_drop {off : Nat} (hoff : off ≤ b.length) :
    StandsAt (b.drop off) pos ↔ StandsAt b (off + pos) := by
  simp only [StandsAt]
  rw [Bytes.field_drop, Bytes.field_drop, List.length_drop, Nat.add_assoc off pos 20]
  constructor
  · rintro ⟨hs, hl⟩
    exact ⟨hs, by omega⟩
  · rintro ⟨hs, hl⟩
    exact ⟨hs, by omega⟩

theorem candidate_drop_eq_some (h : StandsAt b pos) :
    candidate (b.drop pos) (b.length - pos) = some (ofFields (b.drop pos)) := by
  obtain ⟨hs, hl⟩ := h
  simp only [candidate]
  rw [if_pos]
  rw [Bytes.field_drop, Bytes.field_drop]
  exact ⟨hs, by omega, by omega⟩

theorem candidate_drop_eq_none (hpos : pos ≤ b.length) (h : ¬ StandsAt b pos) :
    candidate (b.drop pos) (b.length - pos) = none := by
  simp only [candidate]
  rw [if_neg]
  rw [Bytes.field_drop, Bytes.field_drop]
  rintro ⟨hs, -, hl⟩
  exact h ⟨hs, by omega⟩

/-! ## The search -/

/-- Without a candidate the best one so far remains. -/
theorem lastCandidate_of_none {rest : Bytes} (best : Option (Nat × EndRecord))
    (h : ∀ i < rest.length, candidate (rest.drop i) (rest.length - i) = none) :
    lastCandidate pos rest rest.length best = best := by
  induction rest generalizing pos best with
  | nil => rfl
  | cons x rest ih =>
    have h₀ : candidate (x :: rest) (rest.length + 1) = none := by
      simpa using h 0 (by simp)
    have ht : ∀ i < rest.length, candidate (rest.drop i) (rest.length - i) = none := by
      intro i hi
      simpa using h (i + 1) (by simpa using hi)
    simp only [List.length_cons, lastCandidate, h₀, Nat.add_sub_cancel]
    exact ih best ht

/-- The candidate that none follows is the answer. -/
theorem lastCandidate_of_last {rest : Bytes} {i : Nat} {r : EndRecord}
    (best : Option (Nat × EndRecord)) (hi : i < rest.length)
    (hr : candidate (rest.drop i) (rest.length - i) = some r)
    (hlast : ∀ j < rest.length, i < j → candidate (rest.drop j) (rest.length - j) = none) :
    lastCandidate pos rest rest.length best = some (pos + i, r) := by
  induction rest generalizing pos best i with
  | nil => exact absurd hi (Nat.not_lt_zero i)
  | cons x rest ih =>
    have ht : ∀ j < rest.length, i < j + 1 → candidate (rest.drop j) (rest.length - j) = none := by
      intro j hj hij
      simpa using hlast (j + 1) (by simpa using hj) hij
    simp only [List.length_cons, lastCandidate, Nat.add_sub_cancel]
    cases i with
    | zero =>
      have hr : candidate (x :: rest) (rest.length + 1) = some r := by simpa using hr
      rw [hr]
      exact lastCandidate_of_none (some (pos, r)) fun j hj => ht j hj (Nat.succ_pos j)
    | succ i =>
      have hi : i < rest.length := by simpa using hi
      have hr : candidate (rest.drop i) (rest.length - i) = some r := by simpa using hr
      rw [ih _ hi hr fun j hj hij => ht j hj (Nat.succ_lt_succ hij), Nat.add_right_comm,
        Nat.add_assoc]

/-- Where the search begins. -/
def skipped (b : Bytes) : Nat := b.length - min b.length (fixedLen + maxCommentLen)

theorem StandsAt.skipped_le (h : StandsAt b pos) : skipped b ≤ pos := by
  have hl := h.length_le
  simp only [skipped]
  omega

theorem find_eq_lastCandidate (b : Bytes) :
    find b = lastCandidate (skipped b) (b.drop (skipped b)) (b.drop (skipped b)).length none := by
  have hlen : b.length - skipped b = min b.length (fixedLen + maxCommentLen) := by
    simp only [skipped]
    omega
  rw [List.length_drop, hlen]
  rfl

/-- What is looked at in the searched part is looked at in the whole. -/
theorem candidate_drop_drop (b : Bytes) (n i : Nat) :
    candidate ((b.drop n).drop i) ((b.drop n).length - i) =
      candidate (b.drop (n + i)) (b.length - (n + i)) := by
  rw [List.drop_drop, List.length_drop, Nat.sub_sub]

theorem find_eq_some (h : StandsAt b pos) (hlast : ∀ q, pos < q → ¬ StandsAt b q) :
    find b = some (pos, ofFields (b.drop pos)) := by
  obtain ⟨i, rfl⟩ := Nat.exists_eq_add_of_le h.skipped_le
  rw [find_eq_lastCandidate]
  apply lastCandidate_of_last
  · have hl := h.lt_length
    rw [List.length_drop]
    omega
  · rw [candidate_drop_drop]
    exact candidate_drop_eq_some h
  · intro j hj hij
    rw [List.length_drop] at hj
    rw [candidate_drop_drop]
    exact candidate_drop_eq_none (by omega) (hlast _ (by omega))

theorem find_eq_none (h : ∀ q, ¬ StandsAt b q) : find b = none := by
  rw [find_eq_lastCandidate]
  apply lastCandidate_of_none
  intro i hi
  rw [List.length_drop] at hi
  rw [candidate_drop_drop]
  exact candidate_drop_eq_none (by omega) (h _)

/-- Where a record stands, a last one stands. -/
theorem exists_last (h : StandsAt b pos) : ∃ p, StandsAt b p ∧ ∀ q, p < q → ¬ StandsAt b q := by
  refine ⟨Nat.findGreatest (StandsAt b) b.length, ?_, ?_⟩
  · exact Nat.findGreatest_spec (Nat.le_of_lt h.lt_length) h
  · intro q hq hs
    exact Nat.findGreatest_is_greatest hq (Nat.le_of_lt hs.lt_length) hs

/-- The search finds the last record of all. -/
theorem find_eq_some_iff {r : EndRecord} :
    find b = some (pos, r) ↔
      StandsAt b pos ∧ r = ofFields (b.drop pos) ∧ ∀ q, pos < q → ¬ StandsAt b q := by
  constructor
  · intro h
    by_cases hex : ∃ q, StandsAt b q
    · obtain ⟨q, hq⟩ := hex
      obtain ⟨p, hp, hlast⟩ := exists_last hq
      rw [find_eq_some hp hlast, Option.some.injEq, Prod.mk.injEq] at h
      obtain ⟨rfl, rfl⟩ := h
      exact ⟨hp, rfl, hlast⟩
    · rw [find_eq_none fun q hq => hex ⟨q, hq⟩] at h
      cases h
  · rintro ⟨h, rfl, hlast⟩
    exact find_eq_some h hlast

theorem find_eq_none_iff : find b = none ↔ ∀ q, ¬ StandsAt b q := by
  constructor
  · intro h q hq
    obtain ⟨p, hp, hlast⟩ := exists_last hq
    rw [find_eq_some hp hlast] at h
    cases h
  · exact find_eq_none

end ArchiveMount.EndRecord
