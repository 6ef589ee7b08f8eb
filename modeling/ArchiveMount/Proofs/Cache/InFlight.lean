/-
# `ArchiveMount.Proofs.Cache.InFlight` — counting the references to locks

`Counts m refers` says that the references in the map are those of the callers, of which
caller `i` refers to `refers i`, and of the map itself.  Each operation keeps this while one
caller comes, stays or goes.  What it is good for is `Counts.entry_withdraw`: a lock that a
second caller refers to is not taken off the map.
-/
import ArchiveMount.Cache.InFlight
import Mathlib.Data.Finset.Card

namespace ArchiveMount

/-! ## Changing one of many -/

section Assign

variable {α β : Type} (f : Nat → α) (i : Nat)

/-- A view of all states changes where the states do. -/
theorem comp_assign (g : α → β) (a : α) :
    (fun j => g (assign f i a j)) = assign (fun j => g (f j)) i (g a) := by
  funext j
  by_cases h : j = i
  · rw [h, assign_self, assign_self]
  · rw [assign_of_ne f a h, assign_of_ne _ _ h]

theorem assign_eq_self {a : α} (h : f i = a) : assign f i a = f := by
  funext j
  by_cases hj : j = i
  · rw [hj, assign_self, h]
  · rw [assign_of_ne f a hj]

end Assign

namespace InFlight

/-! ## How many callers refer to a lock -/

/-- Exactly `n` callers refer to a lock. -/
def Referred (refers : Nat → Option Nat) (lock n : Nat) : Prop :=
  ∃ callers : Finset Nat, (∀ i, i ∈ callers ↔ refers i = some lock) ∧ callers.card = n

section Referred

variable {refers : Nat → Option Nat} {i j lock n : Nat}

theorem referred_zero (h : ∀ i, refers i ≠ some lock) : Referred refers lock 0 :=
  ⟨∅, by simp [h], rfl⟩

theorem Referred.come (h : Referred refers lock n) (hi : refers i ≠ some lock) :
    Referred (assign refers i (some lock)) lock (n + 1) := by
  obtain ⟨callers, hmem, rfl⟩ := h
  refine ⟨insert i callers, fun j => ?_, Finset.card_insert_of_notMem fun h => hi ((hmem i).1 h)⟩
  by_cases hj : j = i
  · simp [hj]
  · rw [assign_of_ne _ _ hj, ← hmem]
    simp [hj]

theorem Referred.go (h : Referred refers lock (n + 1)) (hi : refers i = some lock) :
    Referred (assign refers i none) lock n := by
  obtain ⟨callers, hmem, hcard⟩ := h
  refine ⟨callers.erase i, fun j => ?_, ?_⟩
  · by_cases hj : j = i
    · simp [hj]
    · rw [assign_of_ne _ _ hj, ← hmem]
      simp [hj]
  · rw [Finset.card_erase_of_mem ((hmem i).2 hi), hcard, Nat.add_sub_cancel]

/-- What a caller does with other locks is of no account. -/
theorem Referred.other {o : Option Nat} (h : Referred refers lock n) (hi : refers i ≠ some lock)
    (ho : o ≠ some lock) : Referred (assign refers i o) lock n := by
  obtain ⟨callers, hmem, hcard⟩ := h
  refine ⟨callers, fun j => ?_, hcard⟩
  by_cases hj : j = i
  · rw [hj, assign_self, hmem]
    exact ⟨fun h => absurd h hi, fun h => absurd h ho⟩
  · rw [assign_of_ne _ _ hj, hmem]

theorem Referred.pos (h : Referred refers lock n) (hi : refers i = some lock) : 0 < n := by
  obtain ⟨callers, hmem, rfl⟩ := h
  exact Finset.card_pos.2 ⟨i, (hmem i).2 hi⟩

theorem Referred.one_lt (h : Referred refers lock n) (hi : refers i = some lock)
    (hj : refers j = some lock) (hne : i ≠ j) : 1 < n := by
  obtain ⟨callers, hmem, rfl⟩ := h
  exact Finset.one_lt_card.2 ⟨i, (hmem i).2 hi, j, (hmem j).2 hj, hne⟩

end Referred

/-! ## What the operations do -/

section Operations

variable {m : InFlight} {lock : Nat}

theorem register_of_some (h : m.entry = some lock) :
    m.register =
      (lock, { m with references := assign m.references lock (m.references lock + 1) }) := by
  simp only [register, h]

theorem register_of_none (h : m.entry = none) :
    m.register = (m.fresh,
      { entry := some m.fresh
        references := assign m.references m.fresh 2
        fresh := m.fresh + 1 }) := by
  simp only [register, h]

theorem entry_register (m : InFlight) : m.register.2.entry = some m.register.1 := by
  cases h : m.entry with
  | some lock =>
      rw [register_of_some h]
      exact h
  | none => rw [register_of_none h]

/-- Withdrawing takes the lock off the map, with the map's reference, or changes nothing. -/
theorem withdraw_cases (m : InFlight) (lock : Nat) :
    (m.references lock = 2 ∧ m.entry = some lock ∧
        m.withdraw lock = { m with entry := none, references := assign m.references lock 1 }) ∨
      m.withdraw lock = m := by
  unfold withdraw
  split
  · rename_i h
    exact .inl ⟨h.1, h.2, rfl⟩
  · exact .inr rfl

/-- The reference of the map. -/
def held (m : InFlight) (lock : Nat) : Nat := if m.entry = some lock then 1 else 0

theorem held_of_eq (h : m.entry = some lock) : m.held lock = 1 := if_pos h

theorem held_of_ne (h : m.entry ≠ some lock) : m.held lock = 0 := if_neg h

end Operations

/-! ## What keeps the count -/

/-- The references are those of the callers and of the map, and every lock in use has been
made. -/
structure Counts (m : InFlight) (refers : Nat → Option Nat) : Prop where
  counted : ∀ lock, ∃ n, Referred refers lock n ∧ m.references lock = n + m.held lock
  entry_lt : ∀ lock, m.entry = some lock → lock < m.fresh
  refers_lt : ∀ i lock, refers i = some lock → lock < m.fresh

theorem counts_empty : Counts {} fun _ => none where
  counted := fun lock => ⟨0, referred_zero fun _ => Option.some_ne_none lock ∘ Eq.symm, rfl⟩
  entry_lt := fun _ h => nomatch h
  refers_lt := fun _ _ h => nomatch h

namespace Counts

variable {m : InFlight} {refers : Nat → Option Nat} {i j lock : Nat}

/-- Nobody refers to a lock that has yet to be made. -/
theorem refers_ne_fresh (h : m.Counts refers) (i : Nat) : refers i ≠ some m.fresh :=
  fun hi => Nat.lt_irrefl _ (h.refers_lt i _ hi)

theorem refers_lt_assign (h : m.Counts refers) {o : Option Nat} {fresh : Nat}
    (hle : m.fresh ≤ fresh) (ho : ∀ lock, o = some lock → lock < fresh) (j lock : Nat)
    (hj : assign refers i o j = some lock) : lock < fresh := by
  by_cases hji : j = i
  · rw [hji, assign_self] at hj
    exact ho lock hj
  · rw [assign_of_ne _ _ hji] at hj
    exact Nat.lt_of_lt_of_le (h.refers_lt j lock hj) hle

/-- A caller that comes. -/
theorem register (h : m.Counts refers) (hi : refers i = none) :
    m.register.2.Counts (assign refers i (some m.register.1)) := by
  have hne : ∀ l, refers i ≠ some l := fun l hl => nomatch hi.symm.trans hl
  cases he : m.entry with
  | some lock =>
      rw [register_of_some he]
      refine ⟨fun l => ?_, h.entry_lt, h.refers_lt_assign (Nat.le_refl _) ?_⟩
      · obtain ⟨n, hn, hcount⟩ := h.counted l
        by_cases hl : l = lock
        · subst hl
          refine ⟨n + 1, hn.come (hne _), ?_⟩
          show assign m.references l (m.references l + 1) l = n + 1 + m.held l
          rw [assign_self, hcount, Nat.add_right_comm]
        · refine ⟨n, hn.other (hne l) fun h => hl (Option.some.inj h).symm, ?_⟩
          show assign m.references lock _ l = n + m.held l
          rw [assign_of_ne _ _ hl, hcount]
      · rintro l hl
        obtain rfl := Option.some.inj hl
        exact h.entry_lt _ he
  | none =>
      rw [register_of_none he]
      refine ⟨fun l => ?_, fun l hl => ?_, h.refers_lt_assign (Nat.le_succ _) ?_⟩
      · by_cases hl : l = m.fresh
        · subst hl
          refine ⟨1, (referred_zero h.refers_ne_fresh).come (hne _), ?_⟩
          rw [held_of_eq rfl]
          exact assign_self _ _ _
        · obtain ⟨n, hn, hcount⟩ := h.counted l
          have hother : some m.fresh ≠ some l := fun h => hl (Option.some.inj h).symm
          refine ⟨n, hn.other (hne l) hother, ?_⟩
          rw [held_of_ne (he ▸ Option.some_ne_none l ∘ Eq.symm)] at hcount
          rw [held_of_ne hother]
          exact (assign_of_ne _ _ hl).trans hcount
      · obtain rfl := Option.some.inj hl
        exact Nat.lt_succ_self _
      · rintro l hl
        obtain rfl := Option.some.inj hl
        exact Nat.lt_succ_self _

/-- A caller that withdraws keeps its reference for now. -/
theorem withdraw (h : m.Counts refers) (lock : Nat) : (m.withdraw lock).Counts refers := by
  rcases m.withdraw_cases lock with ⟨htwo, he, heq⟩ | heq <;> rw [heq]
  · refine ⟨fun l => ?_, fun l hl => (nomatch hl), h.refers_lt⟩
    obtain ⟨n, hn, hcount⟩ := h.counted l
    refine ⟨n, hn, ?_⟩
    rw [held_of_ne (Option.some_ne_none l ∘ Eq.symm)]
    by_cases hl : l = lock
    · subst hl
      rw [htwo, held_of_eq he] at hcount
      show assign m.references l 1 l = n
      rw [assign_self]
      omega
    · rw [held_of_ne fun h => hl (Option.some.inj (h.symm.trans he))] at hcount
      exact (assign_of_ne _ _ hl).trans hcount
  · exact h

/-- A caller that goes. -/
theorem release (h : m.Counts refers) (hi : refers i = some lock) :
    (m.release lock).Counts (assign refers i none) := by
  refine ⟨fun l => ?_, h.entry_lt, h.refers_lt_assign (Nat.le_refl _) fun l hl => nomatch hl⟩
  obtain ⟨n, hn, hcount⟩ := h.counted l
  by_cases hl : l = lock
  · subst hl
    obtain ⟨n, rfl⟩ := Nat.exists_eq_add_of_lt (hn.pos hi)
    rw [Nat.zero_add] at hn hcount
    refine ⟨n, hn.go hi, ?_⟩
    show assign m.references l (m.references l - 1) l = n + m.held l
    rw [assign_self, hcount]
    omega
  · refine ⟨n, hn.other ?_ (Option.some_ne_none l ∘ Eq.symm), ?_⟩
    · exact fun h => hl (Option.some.inj (h.symm.trans hi))
    · exact (assign_of_ne _ _ hl).trans hcount

/-- A lock that another caller refers to stays in the map. -/
theorem entry_withdraw (h : m.Counts refers) (hne : i ≠ j) (hi : refers i = some lock)
    (hj : refers j = some lock) : (m.withdraw lock).entry = m.entry := by
  rcases m.withdraw_cases lock with ⟨htwo, he, -⟩ | heq
  · -- two callers and the map make three references
    obtain ⟨n, hn, hcount⟩ := h.counted lock
    have hlt := hn.one_lt hi hj hne
    rw [held_of_eq he] at hcount
    omega
  · rw [heq]

/-- And no other lock does. -/
theorem exists_other (h : m.Counts refers) (hi : refers i = some lock)
    (hentry : m.entry = some lock) (hstays : (m.withdraw lock).entry ≠ none) :
    ∃ j, j ≠ i ∧ refers j = some lock := by
  obtain ⟨n, ⟨callers, hmem, rfl⟩, hcount⟩ := h.counted lock
  have hmany : m.references lock ≠ 2 := by
    intro htwo
    rw [InFlight.withdraw, if_pos ⟨htwo, hentry⟩] at hstays
    exact hstays rfl
  have hpos : 0 < callers.card := Finset.card_pos.2 ⟨i, (hmem i).2 hi⟩
  rw [held_of_eq hentry] at hcount
  obtain ⟨j, hj, hne⟩ := Finset.exists_mem_ne (show 1 < callers.card by omega) i
  exact ⟨j, hne, (hmem j).1 hj⟩

end Counts

/-! ## One caller alone -/

section Alone

variable {m : InFlight}

/-- Nobody else refers to the lock that a caller gets. -/
theorem references_register (h : m.Counts fun _ => none) :
    m.register.2.references m.register.1 = 2 := by
  cases he : m.entry with
  | none =>
      rw [register_of_none he]
      exact assign_self _ _ _
  | some lock =>
      rw [register_of_some he]
      obtain ⟨n, ⟨callers, hmem, rfl⟩, hcount⟩ := h.counted lock
      have hnone : callers = ∅ :=
        Finset.eq_empty_of_forall_notMem fun i hi => Option.some_ne_none lock ((hmem i).1 hi).symm
      rw [hnone, Finset.card_empty, held_of_eq he] at hcount
      show assign m.references lock (m.references lock + 1) lock = 2
      rw [assign_self, hcount]

/-- A caller that comes while nobody else is there, and goes, leaves the map without a lock,
even if there was one that somebody had left behind. -/
theorem pass (h : m.Counts fun _ => none) :
    ((m.register.2.withdraw m.register.1).release m.register.1).entry = none ∧
      ((m.register.2.withdraw m.register.1).release m.register.1).Counts fun _ => none := by
  constructor
  · show (m.register.2.withdraw m.register.1).entry = none
    rw [withdraw, if_pos ⟨references_register h, m.entry_register⟩]
  · have hcome := h.register (i := 0) rfl
    have hgo := (hcome.withdraw m.register.1).release (assign_self _ 0 _)
    have hnobody : assign (assign (fun _ => none) 0 (some m.register.1)) 0 none =
        fun _ => (none : Option Nat) := by
      funext j
      by_cases hj : j = 0
      · rw [hj, assign_self]
      · rw [assign_of_ne _ _ hj, assign_of_ne _ _ hj]
    rw [hnobody] at hgo
    exact hgo

end Alone

end InFlight

end ArchiveMount
