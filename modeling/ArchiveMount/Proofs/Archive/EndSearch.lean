/-
# `ArchiveMount.Proofs.Archive.EndSearch` — the bounded search misses no end record

A comment has at most 65535 bytes, so that an end record stands in the last 65557 bytes of the
archive or nowhere.  The search looks at no others, and answers what a search of all positions
answers: the greatest at which a record stands.  What comes before the part that was searched
does not matter, unless nothing was found and a record could begin before that part
(`find_exhaustive`).
-/
import ArchiveMount.Proofs.Archive.Checked
import ArchiveMount.Proofs.Archive.Trailer
import Mathlib.Order.Bounds.Defs

namespace ArchiveMount.EndRecord

variable {t : Bytes} {pos : Nat} {r : EndRecord}

/-! ## What the search finds -/

/-- The search answers the greatest of all positions at which a record stands, and what is read
there. -/
theorem find_eq_some_iff_isGreatest :
    find t = some (pos, r) ↔
      IsGreatest {q | StandsAt t q} pos ∧ parse (Bytes.slice t pos fixedLen) = .ok r := by
  rw [find_eq_some_iff]
  constructor
  · rintro ⟨hs, rfl, hlast⟩
    refine ⟨⟨hs, fun q hq => ?_⟩, parse_slice hs.add_fixedLen_le hs.1⟩
    exact Nat.le_of_not_lt fun hlt => hlast q hlt hq
  · rintro ⟨⟨hs, hbound⟩, hr⟩
    have hs : StandsAt t pos := hs
    rw [parse_slice hs.add_fixedLen_le hs.1] at hr
    exact ⟨hs, (Except.ok.inj hr).symm, fun q hlt hq => Nat.not_lt.2 (hbound hq) hlt⟩

/-! ## Behind a prefix -/

/-- Where a record stands depends on what follows it, not on what comes before. -/
theorem standsAt_append (p : Bytes) : StandsAt (p ++ t) (p.length + pos) ↔ StandsAt t pos := by
  have hle : p.length ≤ (p ++ t).length := List.length_append ▸ Nat.le_add_right _ _
  rw [← standsAt_drop hle, List.drop_left]

theorem find_append_eq_some_iff (p : Bytes) :
    find (p ++ t) = some (p.length + pos, r) ↔ find t = some (pos, r) := by
  have hle : p.length ≤ (p ++ t).length := List.length_append ▸ Nat.le_add_right _ _
  rw [← find_drop_eq_some_iff hle, List.drop_left]

/-- A record whose comment ends where 65557 bytes end begins in them. -/
theorem find_append_eq_none (p : Bytes) (hlen : fixedLen + maxCommentLen ≤ t.length)
    (h : find t = none) : find (p ++ t) = none := by
  refine find_eq_none fun q hq => ?_
  have hnear := hq.length_le
  rw [List.length_append] at hnear
  obtain ⟨i, rfl⟩ := Nat.exists_eq_add_of_le (show p.length ≤ q by omega)
  exact find_eq_none_iff.1 h i ((standsAt_append p).1 hq)

/-! ## All together -/

/-- The bounded search is the exhaustive one.  It answers the greatest position at which the
signature stands and the comment announced there reaches exactly the end, with the record that is
read there, and nothing if there is no such position.  Probing the positions one by one in machine
words, the last one first and at most 65536 of them, comes to the same.  Behind any prefix what was
found is found again at its place, and if nothing was found in 65557 bytes or more, nothing is. -/
theorem find_exhaustive (t : Bytes) :
    (∀ pos r, find t = some (pos, r) ↔
      IsGreatest {q | StandsAt t q} pos ∧ parse (Bytes.slice t pos fixedLen) = .ok r) ∧
    (find t = none ↔ ∀ q, ¬ StandsAt t q) ∧
    (t.length + maxCommentLen ≤ maxWord → findChecked t = .ok (find t)) ∧
    ∀ p : Bytes,
      (∀ pos r, find t = some (pos, r) → find (p ++ t) = some (p.length + pos, r)) ∧
      (65557 ≤ t.length → find t = none → find (p ++ t) = none) := by
  refine ⟨fun pos r => find_eq_some_iff_isGreatest, find_eq_none_iff, findChecked_eq, ?_⟩
  intro p
  exact ⟨fun pos r => (find_append_eq_some_iff p).2, find_append_eq_none p⟩

namespace Decoy

/-- An end record whose comment holds the signature of another, which is not followed by as many
bytes as it announces. -/
def tail : Bytes :=
  Bytes.numbers [(4, signature), (16, 0), (2, 26)] ++ Bytes.numbers [(4, signature), (22, 0)]

/-- As many bytes as an end record and the longest comment have, all of them zero. -/
def blank : Bytes := List.replicate 65557 0

theorem not_standsAt_blank (q : Nat) : ¬ StandsAt blank q := by
  intro hq
  have hzero := List.eq_of_mem_replicate (List.mem_of_getElem? hq.getElem?_eq)
  exact absurd hzero (by decide)

/-- The record is found, not its decoy, and again three bytes later behind three bytes.  Where
nothing stands in 65557 bytes, nothing stands behind a signature either. -/
theorem decoy_passed_over :
    find tail = some (0, ⟨0, 0, 0, 0, 0, 26⟩) ∧
      find ([1, 2, 3] ++ tail) = some (3, ⟨0, 0, 0, 0, 0, 26⟩) ∧
      65557 ≤ blank.length ∧ find (Bytes.ofNat 4 signature ++ blank) = none := by
  have hfind : find tail = some (0, ⟨0, 0, 0, 0, 0, 26⟩) := by decide
  obtain ⟨-, -, -, hbehind⟩ := find_exhaustive tail
  obtain ⟨-, hnone, -, hblank⟩ := find_exhaustive blank
  have hlen : 65557 ≤ blank.length := by rw [blank, List.length_replicate]
  exact ⟨hfind, (hbehind [1, 2, 3]).1 _ _ hfind, hlen,
    (hblank _).2 hlen (hnone.2 not_standsAt_blank)⟩

end Decoy

end ArchiveMount.EndRecord
