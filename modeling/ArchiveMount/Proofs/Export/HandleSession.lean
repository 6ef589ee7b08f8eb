/-
# `ArchiveMount.Proofs.Export.HandleSession` — a handle table over a whole run

A `Session` is a handle table together with what its users know: the pins they hold
and every handle they were ever answered, each with its path.  A run is any sequence of
`Call`s, in any order; a pin can be dropped once, because it is then held no longer.

`Consistent` is the invariant that ties the table to its users.  `consistent_step` says
that every call keeps it, and `run_start_invariants` is what follows for a whole run from
an empty table: look-ups that are inverse to each other, handles that never change
their path, pins that hold, and a bounded size.
-/
import ArchiveMount.Proofs.Export.HandleTable
import Mathlib.Data.List.Perm.Basic

namespace ArchiveMount.HandleTable

variable {α : Type}

/-- What can be asked of a table. -/
inductive Call (α : Type)
  | handleFor (path : α)
  | pinnedHandleFor (path : α)
  | pin (handle : Nat)
  | touch (handle : Nat)
  | pathOf (handle : Nat)
  /-- Drop the pin at a place among those that are held. -/
  | drop (place : Nat)
  deriving DecidableEq

/-- A table in use. -/
structure Session (α : Type) where
  table : HandleTable α
  /-- The pins that are held: their handles, and the paths they were taken for. -/
  live : List (Nat × α) := []
  /-- Every handle that was answered, with the path it was answered for. -/
  issued : List (Nat × α) := []

namespace Session

/-- What one call does. -/
def step [DecidableEq α] (s : Session α) : Call α → Session α
  | .handleFor p =>
    let (h, t) := s.table.handleFor p
    { s with table := t, issued := (h, p) :: s.issued }
  | .pinnedHandleFor p =>
    let (h, t) := s.table.pinnedHandleFor p
    ⟨t, (h, p) :: s.live, (h, p) :: s.issued⟩
  | .pin h =>
    match s.table.pin h with
    | (some p, t) => { s with table := t, live := (h, p) :: s.live }
    | (none, t) => { s with table := t }
  | .touch h => { s with table := s.table.promote h }
  | .pathOf h => { s with table := (s.table.pathOf h).2 }
  | .drop n =>
    match s.live[n]? with
    | some e => { s with table := s.table.unpin e.1, live := s.live.eraseIdx n }
    | none => s

/-- What a sequence of calls does. -/
def run [DecidableEq α] (s : Session α) (calls : List (Call α)) : Session α := calls.foldl step s

/-- A session on an empty table. -/
def start (root : α) (capacity : Nat) : Session α := { table := .new root capacity }

/-- The handles of the pins that are held. -/
def pinned (s : Session α) : List Nat := s.live.map (·.1)

/-- The table and its users agree. -/
structure Consistent (s : Session α) : Prop where
  sound : s.table.Sound
  settled : s.table.Settled
  /-- The table counts the pins, those of the root apart. -/
  counts : ∀ h, h ≠ rootHandle → s.table.pins.count h = s.pinned.count h
  /-- A pin still leads to the path it was taken for. -/
  live : ∀ e ∈ s.live, s.table.find? e.1 = some e.2
  /-- A handle that was answered is forgotten or still has its path. -/
  issued : ∀ e ∈ s.issued, s.table.find? e.1 = some e.2 ∨ s.table.find? e.1 = none
  /-- Handles yet to be given out have not been answered. -/
  past : ∀ e ∈ s.issued, e.1 < s.table.next
  /-- A handle was answered for one path only. -/
  single : ∀ e ∈ s.issued, ∀ f ∈ s.issued, e.1 = f.1 → e.2 = f.2
  /-- Whatever is held was answered. -/
  held : ∀ e ∈ s.table.held, e ∈ s.issued

theorem consistent_start (root : α) (capacity : Nat) : (start root capacity).Consistent where
  sound := sound_new root capacity
  settled := settled_new root capacity
  counts := by simp [start, new, pinned]
  live := by simp [start]
  issued := by simp [start]
  past := by simp [start]
  single := by simp [start]
  held := by simp [start, new]

/-! ## Calls that give out no handle -/

/-- A table that holds no more pairs than another, but all that its users have pinned,
and gives out the same handles next. -/
structure Below (t u : HandleTable α) : Prop where
  root : t.root = u.root
  next : t.next = u.next
  held : t.held ⊆ u.held

/-- What the smaller table answers, the larger one answered. -/
theorem Below.find? {t u : HandleTable α} (hb : Below t u) (ht : t.Sound) (hu : u.Sound)
    {h : Nat} {p : α} (hp : t.find? h = some p) : u.find? h = some p := by
  rcases (find?_eq_some_iff ht).1 hp with ⟨h1, hr⟩ | hm
  · exact (find?_eq_some_iff hu).2 (.inl ⟨h1, hb.root ▸ hr⟩)
  · exact (find?_eq_some_iff hu).2 (.inr (hb.held hm))

/-- What holds of handles answered so far holds when the table shrinks. -/
theorem find?_or_none_of_below {t u : HandleTable α} (hb : Below t u) (ht : t.Sound)
    (hu : u.Sound) {e : Nat × α} (he : u.find? e.1 = some e.2 ∨ u.find? e.1 = none) :
    t.find? e.1 = some e.2 ∨ t.find? e.1 = none := by
  cases hf : t.find? e.1 with
  | none => exact .inr rfl
  | some p =>
      have hp := hb.find? ht hu hf
      rcases he with he | he <;> rw [he] at hp
      · exact .inl hp.symm
      · exact absurd hp (by simp)

/-- A call that shrinks the table at most keeps the session consistent, whatever it
does to the pins. -/
theorem Consistent.shrink {s : Session α} (hs : s.Consistent) {t : HandleTable α}
    {live : List (Nat × α)} (hb : Below t s.table) (ht : t.Sound) (hts : t.Settled)
    (hc : ∀ h, h ≠ rootHandle → t.pins.count h = (live.map (·.1)).count h)
    (hl : ∀ e ∈ live, t.find? e.1 = some e.2) :
    Consistent { s with table := t, live := live } where
  sound := ht
  settled := hts
  counts := hc
  live := hl
  issued := fun e he => find?_or_none_of_below hb ht hs.sound (hs.issued e he)
  past := fun e he => hb.next ▸ hs.past e he
  single := hs.single
  held := fun e he => hs.held e (hb.held he)

theorem below_promote (t : HandleTable α) (h : Nat) : Below (t.promote h) t :=
  ⟨rfl, rfl, fun _ he => mem_held_promote.1 he⟩

/-- Promotion changes no answer. -/
theorem find?_promote {t : HandleTable α} (ht : t.Sound) (h k : Nat) :
    (t.promote h).find? k = t.find? k := by
  apply Option.ext
  intro p
  rw [find?_eq_some_iff (ht.promote h), find?_eq_some_iff ht, mem_held_promote]
  rfl

theorem Consistent.promote {s : Session α} (hs : s.Consistent) (h : Nat) :
    Consistent { s with table := s.table.promote h } := by
  refine hs.shrink (below_promote _ h) (hs.sound.promote h) (hs.settled.promote h) hs.counts ?_
  intro e he
  rw [find?_promote hs.sound]
  exact hs.live e he

theorem find?_addPin (t : HandleTable α) (h k : Nat) : (t.addPin h).find? k = t.find? k := by
  rw [addPin_eq]
  rfl

/-- Taking a pin on a handle that is known. -/
theorem Consistent.addPin {s : Session α} (hs : s.Consistent) {h : Nat} {p : α}
    (hp : s.table.find? h = some p) :
    Consistent { s with table := s.table.addPin h, live := (h, p) :: s.live } := by
  have hb : Below (s.table.addPin h) s.table := by
    rw [addPin_eq]
    exact ⟨rfl, rfl, fun _ he => he⟩
  refine hs.shrink hb (hs.sound.addPin hp) (hs.settled.addPin h) ?_ ?_
  · intro k hk
    rw [count_pins_addPin _ _ hk, hs.counts k hk]
    simp [pinned, List.count_cons]
  · intro e he
    rw [find?_addPin]
    rcases List.mem_cons.1 he with rfl | he
    · exact hp
    · exact hs.live e he

/-- The pins of the users after one is dropped. -/
theorem count_pinned_eraseIdx {live : List (Nat × α)} {n : Nat} {e : Nat × α}
    (he : live[n]? = some e) (h : Nat) :
    ((live.eraseIdx n).map (·.1)).count h = ((live.map (·.1)).erase e.1).count h := by
  have hp : live.Perm (e :: live.eraseIdx n) := by
    obtain ⟨hn, rfl⟩ := List.getElem?_eq_some_iff.1 he
    exact (List.getElem_cons_eraseIdx_perm hn).symm
  have hm := (hp.map (·.1)).erase e.1
  rw [hm.count_eq]
  simp

/-- Dropping a pin. -/
theorem Consistent.drop {s : Session α} (hs : s.Consistent) {n : Nat} {e : Nat × α}
    (he : s.live[n]? = some e) :
    Consistent { s with table := s.table.unpin e.1, live := s.live.eraseIdx n } := by
  have hb : Below (s.table.unpin e.1) s.table := by
    refine ⟨?_, ?_, (unpin_held_sublist _ _).subset⟩ <;> rw [unpin_eq]
  have hc : ∀ h, h ≠ rootHandle →
      (s.table.unpin e.1).pins.count h = ((s.live.eraseIdx n).map (·.1)).count h := by
    intro h hh
    rw [pins_unpin, count_pinned_eraseIdx he, List.count_erase, List.count_erase, hs.counts h hh]
    rfl
  refine hs.shrink hb (hs.sound.unpin _) (hs.settled.unpin _) hc ?_
  intro f hf
  have hold := hs.live f (List.mem_of_mem_eraseIdx hf)
  rw [find?_eq_some_iff (hs.sound.unpin _)]
  rcases (find?_eq_some_iff hs.sound).1 hold with ⟨h1, hr⟩ | hm
  · exact .inl ⟨h1, hb.root.symm ▸ hr⟩
  · -- the pin `f` is still held, so that its handle is still pinned
    have hne : f.1 ≠ rootHandle := by
      have := (hs.sound.given _ hm).1
      omega
    refine .inr (mem_held_unpin hm (List.count_pos_iff.1 ?_))
    rw [hc f.1 hne]
    exact List.count_pos_iff.2 (List.mem_map_of_mem hf)

/-! ## How many pairs are held -/

/-- The handles that the table has pinned are those of the pins held, the root's apart. -/
theorem mem_pins_iff {s : Session α} (hs : s.Consistent) {h : Nat} :
    h ∈ s.table.pins ↔ h ∈ s.pinned.filter (· ≠ rootHandle) := by
  have hne : h ∈ s.table.pins → h ≠ rootHandle := by
    intro hm
    obtain ⟨p, hp⟩ := hs.sound.pinned h hm
    have := (hs.sound.given _ hp).1
    omega
  constructor
  · intro hm
    refine List.mem_filter.2 ⟨?_, by simpa using hne hm⟩
    rw [← List.count_pos_iff, ← hs.counts h (hne hm)]
    exact List.count_pos_iff.2 hm
  · intro hm
    obtain ⟨hm, hr⟩ := List.mem_filter.1 hm
    rw [← List.count_pos_iff, hs.counts h (by simpa using hr)]
    exact List.count_pos_iff.2 hm

/-- The bound on the size in terms of the pins that are held. -/
theorem size_le_of_consistent {s : Session α} (hs : s.Consistent) :
    s.table.size ≤ max s.table.capacity ((s.pinned.filter (· ≠ rootHandle)).dedup.length + 1) := by
  have hp : s.table.pins.dedup.Perm (s.pinned.filter (· ≠ rootHandle)).dedup := by
    refine (List.perm_ext_iff_of_nodup (List.nodup_dedup _) (List.nodup_dedup _)).2 fun h => ?_
    rw [List.mem_dedup, List.mem_dedup, mem_pins_iff hs]
  rw [← hp.length_eq]
  exact size_le hs.sound hs.settled

/-! ## What stays from one moment to a later one -/

/-- How a session stands to one that goes on from it. -/
structure Later (s u : Session α) : Prop where
  root : u.table.root = s.table.root
  capacity : u.table.capacity = s.table.capacity
  next : s.table.next ≤ u.table.next
  issued : s.issued ⊆ u.issued
  /-- Of the handles given out, those that are unknown stay so. -/
  forgotten : ∀ h, h < s.table.next → s.table.find? h = none → u.table.find? h = none

theorem Later.refl (s : Session α) : Later s s :=
  ⟨rfl, rfl, Nat.le_refl _, fun _ he => he, fun _ _ hn => hn⟩

theorem Later.trans {s u v : Session α} (h₁ : Later s u) (h₂ : Later u v) : Later s v where
  root := h₂.root.trans h₁.root
  capacity := h₂.capacity.trans h₁.capacity
  next := Nat.le_trans h₁.next h₂.next
  issued := fun _ he => h₂.issued (h₁.issued he)
  forgotten := fun h hh hn =>
    h₂.forgotten h (Nat.lt_of_lt_of_le hh h₁.next) (h₁.forgotten h hh hn)

/-- A table that only shrinks forgets, and learns nothing. -/
theorem later_of_below {s : Session α} (hs : s.Consistent) {t : HandleTable α}
    (live : List (Nat × α)) (hb : Below t s.table) (hc : t.capacity = s.table.capacity)
    (ht : t.Sound) : Later s { s with table := t, live := live } where
  root := hb.root
  capacity := hc
  next := Nat.le_of_eq hb.next.symm
  issued := fun _ he => he
  forgotten := by
    intro h _ hn
    apply Option.eq_none_iff_forall_ne_some.2
    intro p hp
    have := hb.find? ht hs.sound hp
    simp [hn] at this

theorem later_promote {s : Session α} (hs : s.Consistent) (h : Nat) :
    Later s { s with table := s.table.promote h } :=
  later_of_below hs s.live (below_promote _ h) rfl (hs.sound.promote h)

theorem later_addPin {s : Session α} (hs : s.Consistent) {h : Nat} {p : α}
    (hp : s.table.find? h = some p) :
    Later s { s with table := s.table.addPin h, live := (h, p) :: s.live } := by
  have hb : Below (s.table.addPin h) s.table := by
    rw [addPin_eq]
    exact ⟨rfl, rfl, fun _ he => he⟩
  refine later_of_below hs _ hb ?_ (hs.sound.addPin hp)
  rw [addPin_eq]

/-! ## Giving out a handle -/

variable [DecidableEq α]

/-- A handle that is answered is new, or has its path already. -/
theorem handleFor_fst (t : HandleTable α) (p : α) (ht : t.Sound) :
    t.find? (t.handleFor p).1 = some p ∨ (t.handleFor p).1 = t.next := by
  rcases t.handleFor_cases p with ⟨h, hh, he⟩ | ⟨-, he⟩ <;> rw [he]
  · exact .inl ((find?_eq_some_iff_handle? ht).2 hh)
  · exact .inr rfl

theorem handleFor_fst_lt (t : HandleTable α) (p : α) (ht : t.Sound) :
    (t.handleFor p).1 < (t.handleFor p).2.next := by
  rcases (find?_eq_some_iff (ht.handleFor p)).1 (find?_handleFor p ht) with ⟨h1, -⟩ | hm
  · rw [h1]
    exact (ht.handleFor p).next
  · exact ((ht.handleFor p).given _ hm).2

/-- A handle that was given out before gets no new path. -/
theorem find?_of_find?_handleFor {t : HandleTable α} {p q : α} (ht : t.Sound) {h : Nat}
    (hh : h < t.next) (hq : (t.handleFor p).2.find? h = some q) : t.find? h = some q := by
  rw [find?_eq_some_iff ht]
  rcases (find?_eq_some_iff (ht.handleFor p)).1 hq with ⟨h1, hr⟩ | hm
  · exact .inl ⟨h1, by simpa using hr⟩
  · rcases mem_held_of_mem_held_handleFor p hm with hm | ⟨he, -⟩
    · exact .inr hm
    · have := congrArg Prod.fst he
      simp only [] at this
      omega

/-- Giving out a handle keeps the answers for pinned handles. -/
theorem find?_handleFor_of_live {s : Session α} (hs : s.Consistent) (p : α) {e : Nat × α}
    (he : e ∈ s.live) : (s.table.handleFor p).2.find? e.1 = some e.2 := by
  rw [find?_eq_some_iff (hs.sound.handleFor p)]
  rcases (find?_eq_some_iff hs.sound).1 (hs.live e he) with ⟨h1, hr⟩ | hm
  · exact .inl ⟨h1, by simpa using hr⟩
  · have hne : e.1 ≠ rootHandle := by
      have := (hs.sound.given _ hm).1
      omega
    refine .inr (mem_held_handleFor p hm (List.count_pos_iff.1 ?_))
    rw [hs.counts e.1 hne]
    exact List.count_pos_iff.2 (List.mem_map_of_mem he)

theorem Consistent.handleFor {s : Session α} (hs : s.Consistent) (p : α) :
    Consistent { s with
      table := (s.table.handleFor p).2
      issued := ((s.table.handleFor p).1, p) :: s.issued } where
  sound := hs.sound.handleFor p
  settled := hs.settled.handleFor p
  counts := fun h hh => by
    rw [pins_handleFor]
    exact hs.counts h hh
  live := fun e he => find?_handleFor_of_live hs p he
  issued := by
    intro e he
    rcases List.mem_cons.1 he with rfl | he
    · exact .inl (find?_handleFor p hs.sound)
    · cases hf : (s.table.handleFor p).2.find? e.1 with
      | none => exact .inr rfl
      | some q =>
          have hq := find?_of_find?_handleFor hs.sound (hs.past e he) hf
          rcases hs.issued e he with hi | hi <;> rw [hi] at hq
          · exact .inl hq.symm
          · exact absurd hq (by simp)
  past := by
    intro e he
    rcases List.mem_cons.1 he with rfl | he
    · exact handleFor_fst_lt s.table p hs.sound
    · exact Nat.lt_of_lt_of_le (hs.past e he) (next_le_handleFor p s.table)
  single := by
    -- the new answer agrees with any older one for the same handle
    have hnew : ∀ f ∈ s.issued, (s.table.handleFor p).1 = f.1 → p = f.2 := by
      intro f hf heq
      rcases handleFor_fst s.table p hs.sound with hp | hn
      · rcases hs.issued f hf with hi | hi <;> rw [← heq, hp] at hi
        · exact Option.some.inj hi
        · exact absurd hi (by simp)
      · have := hs.past f hf
        omega
    intro e he f hf heq
    rcases List.mem_cons.1 he with rfl | he <;> rcases List.mem_cons.1 hf with rfl | hf
    · rfl
    · exact hnew f hf heq
    · exact (hnew e he heq.symm).symm
    · exact hs.single e he f hf heq
  held := by
    intro e he
    rcases mem_held_of_mem_held_handleFor p he with hm | ⟨rfl, hn⟩
    · exact List.mem_cons_of_mem _ (hs.held e hm)
    · rw [hn]
      exact List.mem_cons_self

theorem later_handleFor {s : Session α} (hs : s.Consistent) (p : α) :
    Later s { s with
      table := (s.table.handleFor p).2
      issued := ((s.table.handleFor p).1, p) :: s.issued } where
  root := root_handleFor p s.table
  capacity := capacity_handleFor p s.table
  next := next_le_handleFor p s.table
  issued := fun _ he => List.mem_cons_of_mem _ he
  forgotten := by
    intro h hh hn
    apply Option.eq_none_iff_forall_ne_some.2
    intro q hq
    have := find?_of_find?_handleFor hs.sound hh hq
    simp [hn] at this

/-! ## Steps and runs -/

/-- Every call keeps table and users in agreement. -/
theorem consistent_step {s : Session α} (hs : s.Consistent) (c : Call α) :
    (s.step c).Consistent := by
  cases c with
  | handleFor p => exact hs.handleFor p
  | pinnedHandleFor p => exact (hs.handleFor p).addPin (find?_handleFor p hs.sound)
  | pin h =>
      simp only [step, HandleTable.pin, HandleTable.pathOf]
      cases hf : s.table.find? h with
      | none => exact hs.promote h
      | some p =>
          refine (hs.promote h).addPin ?_
          rw [find?_promote hs.sound]
          exact hf
  | touch h => exact hs.promote h
  | pathOf h => exact hs.promote h
  | drop n =>
      simp only [step]
      cases he : s.live[n]? with
      | none => exact hs
      | some e => exact hs.drop he

theorem consistent_run {s : Session α} (hs : s.Consistent) (calls : List (Call α)) :
    (s.run calls).Consistent := by
  induction calls generalizing s with
  | nil => exact hs
  | cons c calls ih => exact ih (consistent_step hs c)

theorem later_step {s : Session α} (hs : s.Consistent) (c : Call α) : Later s (s.step c) := by
  cases c with
  | handleFor p => exact later_handleFor hs p
  | pinnedHandleFor p =>
      exact (later_handleFor hs p).trans
        (later_addPin (hs.handleFor p) (find?_handleFor p hs.sound))
  | pin h =>
      simp only [step, HandleTable.pin, HandleTable.pathOf]
      cases hf : s.table.find? h with
      | none => exact later_promote hs h
      | some p =>
          refine (later_promote hs h).trans (later_addPin (hs.promote h) ?_)
          rw [find?_promote hs.sound]
          exact hf
  | touch h => exact later_promote hs h
  | pathOf h => exact later_promote hs h
  | drop n =>
      simp only [step]
      cases he : s.live[n]? with
      | none => exact Later.refl s
      | some e =>
          refine later_of_below hs _ ?_ ?_ (hs.sound.unpin e.1)
          · refine ⟨?_, ?_, (unpin_held_sublist _ _).subset⟩ <;> rw [unpin_eq]
          · rw [unpin_eq]

theorem later_run {s : Session α} (hs : s.Consistent) (calls : List (Call α)) :
    Later s (s.run calls) := by
  induction calls generalizing s with
  | nil => exact Later.refl s
  | cons c calls ih => exact (later_step hs c).trans (ih (consistent_step hs c))

/-- What holds of a handle table after any run of calls from an empty one, and what a
run that goes on from there cannot change. -/
theorem run_start_invariants (root : α) (capacity : Nat) (calls later : List (Call α)) :
    let s := (start root capacity).run calls
    let t := s.table
    -- the look-ups are inverse to each other, on handles that were given out
    (((t.held.map (·.1)).Nodup ∧ (t.held.map (·.2)).Nodup ∧
        (∀ h p, t.find? h = some p ↔ t.handle? p = some h) ∧
        ∀ e ∈ t.held, 2 ≤ e.1 ∧ e.1 < t.next) ∧
      -- a handle is answered for one path, and means that path until it is forgotten
      ((∀ h p q, (h, p) ∈ s.issued → (h, q) ∈ s.issued → p = q) ∧
        (∀ e ∈ t.held, e ∈ s.issued) ∧
        (∀ h p, (h, p) ∈ s.issued →
          ((s.run later).table.pathOf h).1 = some p ∨ ((s.run later).table.pathOf h).1 = none) ∧
        ∀ h p, (h, p) ∈ s.issued → (t.pathOf h).1 = none →
          ((s.run later).table.pathOf h).1 = none)) ∧
      -- the table counts the pins, and what is pinned is known
      ((∀ h, t.pins.count h = (s.pinned.filter (· ≠ rootHandle)).count h) ∧
        ∀ e ∈ s.live, (t.pathOf e.1).1 = some e.2) ∧
      -- the size is bounded by the capacity and the pins
      t.size ≤ max (max capacity 2) ((s.pinned.filter (· ≠ rootHandle)).dedup.length + 1) ∧
      ((∀ e ∈ s.live, e.1 = rootHandle) → t.size ≤ max capacity 2) := by
  intro s t
  have hs : s.Consistent := consistent_run (consistent_start root capacity) calls
  have hl : Later s (s.run later) := later_run hs later
  have hc : t.capacity = max capacity 2 :=
    (later_run (consistent_start root capacity) calls).capacity
  have hsize : t.size ≤ max (max capacity 2)
      ((s.pinned.filter (· ≠ rootHandle)).dedup.length + 1) := by
    rw [← hc]
    exact size_le_of_consistent hs
  refine ⟨⟨⟨hs.sound.handles, hs.sound.paths, ?_, ?_⟩, ?_, hs.held, ?_, ?_⟩, ⟨?_, hs.live⟩,
    hsize, ?_⟩
  · intro h p
    exact find?_eq_some_iff_handle? hs.sound
  · intro e he
    exact hs.sound.given e he
  · intro h p q hp hq
    exact hs.single _ hp _ hq rfl
  · intro h p hp
    exact (consistent_run hs later).issued _ (hl.issued hp)
  · intro h p hp hn
    exact hl.forgotten h (hs.past _ hp) hn
  · intro h
    by_cases hr : h = rootHandle
    · have hm : h ∉ s.pinned.filter (· ≠ rootHandle) := by simp [hr]
      rw [List.count_eq_zero.2 hm, List.count_eq_zero.2 (mt (mem_pins_iff hs).1 hm)]
    · rw [List.count_filter (by simpa using hr)]
      exact hs.counts h hr
  · intro hroot
    have hnil : s.pinned.filter (· ≠ rootHandle) = [] := by
      simpa [pinned] using hroot
    rw [hnil] at hsize
    simp only [List.dedup_nil, List.length_nil] at hsize
    have : 2 ≤ max capacity 2 := Nat.le_max_right _ _
    omega

end Session
end ArchiveMount.HandleTable
