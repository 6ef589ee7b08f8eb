/-
# `ArchiveMount.Proofs.Export.HandleTable` — what a handle table keeps

`Sound` says that a table is a one-to-one assignment of handles, all of them given out
already, and that whatever is pinned is held.  `Settled` is the invariant behind the
bound on its size: a table over its capacity holds at most one handle that is not
pinned.  Every operation keeps both, and an operation that gives out no handle adds
no pair.

`Settled` does not survive the moment at which a new pair is appended; the operation
that appends one evicts at once, and eviction restores it from nothing
(`settled_evict`).
-/
import ArchiveMount.Export.HandleTable
import Mathlib.Data.List.Dedup

namespace ArchiveMount.HandleTable

/-! ## Removing the first entries that may go -/

section DropFirst

variable {β : Type} (mayGo : β → Bool)

theorem dropFirst_sublist : ∀ (n : Nat) (l : List β), (dropFirst mayGo n l).Sublist l
  | 0, l => by rw [dropFirst]
  | _ + 1, [] => List.Sublist.refl []
  | n + 1, x :: l => by
      rw [dropFirst]
      split
      · exact (dropFirst_sublist n l).cons x
      · exact (dropFirst_sublist (n + 1) l).cons_cons x

/-- What may not go stays. -/
theorem mem_dropFirst_of_mem {x : β} (hx : mayGo x = false) :
    ∀ (n : Nat) {l : List β}, x ∈ l → x ∈ dropFirst mayGo n l
  | 0, l, h => by rw [dropFirst]; exact h
  | _ + 1, [], h => h
  | n + 1, y :: l, h => by
      rw [dropFirst]
      rcases List.mem_cons.1 h with rfl | h
      · rw [if_neg (by simp [hx])]
        exact List.mem_cons_self
      · split
        · exact mem_dropFirst_of_mem hx n h
        · exact List.mem_cons_of_mem y (mem_dropFirst_of_mem hx (n + 1) h)

/-- If fewer than `n` entries were removed, then nothing is left that may go. -/
theorem mayGo_eq_false_of_mem_dropFirst :
    ∀ (n : Nat) (l : List β), l.length < (dropFirst mayGo n l).length + n →
      ∀ x ∈ dropFirst mayGo n l, mayGo x = false
  | 0, l, h => by
      rw [dropFirst] at h
      omega
  | _ + 1, [], _ => by
      intro x hx
      exact absurd hx List.not_mem_nil
  | n + 1, y :: l, h => by
      rw [dropFirst] at h ⊢
      split at h <;> rename_i hy
      · rw [if_pos hy]
        refine mayGo_eq_false_of_mem_dropFirst n l ?_
        simp only [List.length_cons] at h
        omega
      · rw [if_neg hy]
        intro x hx
        rcases List.mem_cons.1 hx with rfl | hx
        · simpa using hy
        · refine mayGo_eq_false_of_mem_dropFirst (n + 1) l ?_ x hx
          simp only [List.length_cons] at h
          omega

end DropFirst

/-! ## What each operation changes -/

variable {α : Type}

section Fields

variable (t : HandleTable α) (keep : Option Nat) (h : Nat)

theorem evict_held_sublist : (t.evict keep).held.Sublist t.held := dropFirst_sublist _ _ _

/-- Eviction spares what is pinned and what it is told to keep. -/
theorem mem_held_evict {t : HandleTable α} {keep : Option Nat} {e : Nat × α} (he : e ∈ t.held)
    (hs : some e.1 = keep ∨ e.1 ∈ t.pins) : e ∈ (t.evict keep).held := by
  refine mem_dropFirst_of_mem _ ?_ _ he
  rcases hs with hs | hs <;> simp [hs]

/-- A table that is still over its capacity holds nothing that could have been evicted. -/
theorem spared_of_capacity_lt {t : HandleTable α} {keep : Option Nat}
    (hc : t.capacity < (t.evict keep).size) {e : Nat × α} (he : e ∈ (t.evict keep).held) :
    some e.1 = keep ∨ e.1 ∈ t.pins := by
  have hlt : t.held.length < (t.evict keep).held.length + (t.size - t.capacity) := by
    have hle := (t.evict_held_sublist keep).length_le
    simp only [size] at hc ⊢
    omega
  have hgo := mayGo_eq_false_of_mem_dropFirst _ _ _ hlt e he
  by_cases hk : some e.1 = keep
  · exact .inl hk
  · exact .inr (by simpa [hk] using hgo)

theorem promote_held_perm : (t.promote h).held.Perm t.held := by
  have hp : t.held.filter (·.1 = h) = t.held.filter (fun e => !decide (e.1 ≠ h)) := by
    simp
  simp only [promote, hp]
  exact List.filter_append_perm _ _

theorem mem_held_promote {t : HandleTable α} {h : Nat} {e : Nat × α} :
    e ∈ (t.promote h).held ↔ e ∈ t.held := (t.promote_held_perm h).mem_iff

@[simp] theorem capacity_promote : (t.promote h).capacity = t.capacity := rfl

@[simp] theorem size_promote : (t.promote h).size = t.size := (t.promote_held_perm h).length_eq

/-- Pins change with `addPin`, and nothing else. -/
theorem addPin_eq : t.addPin h = { t with pins := (t.addPin h).pins } := by
  simp only [addPin]
  split <;> rfl

theorem mem_pins_addPin {t : HandleTable α} {h k : Nat} :
    k ∈ (t.addPin h).pins ↔ k ∈ t.pins ∨ k = h ∧ h ≠ rootHandle := by
  simp only [addPin]
  split
  · simp [*]
  · simp [*, or_comm]

theorem count_pins_addPin {k : Nat} (hk : k ≠ rootHandle) :
    (t.addPin h).pins.count k = t.pins.count k + if h = k then 1 else 0 := by
  simp only [addPin]
  split <;> rename_i hr
  · rw [if_neg (fun he => hk (he.symm.trans hr)), Nat.add_zero]
  · simp [List.count_cons]

end Fields

/-! ## A one-to-one assignment -/

/-- No handle and no path is held twice, every handle held was given out and is not the
root's, and every pinned handle is held. -/
structure Sound (t : HandleTable α) : Prop where
  handles : (t.held.map (·.1)).Nodup
  paths : (t.held.map (·.2)).Nodup
  given : ∀ e ∈ t.held, rootHandle < e.1 ∧ e.1 < t.next
  proper : ∀ e ∈ t.held, e.2 ≠ t.root
  next : rootHandle < t.next
  pinned : ∀ h ∈ t.pins, ∃ p, (h, p) ∈ t.held

/-- Over its capacity a table holds at most one handle that is not pinned. -/
def Settled (t : HandleTable α) : Prop :=
  t.capacity < t.size → ∃ h, ∀ e ∈ t.held, e.1 ∈ t.pins ∨ e.1 = h

section Views

variable {t : HandleTable α} {h : Nat} {p : α}

theorem handle_eq_of_mem (ht : t.Sound) {k : Nat} (hh : (h, p) ∈ t.held)
    (hk : (k, p) ∈ t.held) : h = k := by
  have he := List.inj_on_of_nodup_map ht.paths hh hk rfl
  exact congrArg Prod.fst he

/-- Looking a handle up finds the pair that is held. -/
theorem find?_eq_some_iff (ht : t.Sound) :
    t.find? h = some p ↔ (h = rootHandle ∧ p = t.root) ∨ (h, p) ∈ t.held := by
  simp only [find?]
  split <;> rename_i hr
  · constructor
    · intro hp
      exact .inl ⟨hr, (Option.some.inj hp).symm⟩
    · rintro (⟨-, rfl⟩ | hp)
      · rfl
      · have := (ht.given _ hp).1
        omega
  · rw [List.lookup_eq_some_iff]
    constructor
    · rintro ⟨l₁, l₂, hl, -⟩
      exact .inr (by simp [hl])
    · rintro (⟨h1, -⟩ | hp)
      · exact absurd h1 hr
      · obtain ⟨l₁, l₂, hl⟩ := List.append_of_mem hp
        refine ⟨l₁, l₂, hl, fun e he => ?_⟩
        have hd := ht.handles
        simp only [hl, List.map_append, List.map_cons, List.nodup_append] at hd
        have hne := hd.2.2 e.1 (List.mem_map_of_mem he) h List.mem_cons_self
        simpa using fun heq => hne heq.symm

end Views

/-! ## What keeps a table sound -/

section Keep

variable {t : HandleTable α} {h : Nat} {p : α}

theorem sound_new (root : α) (capacity : Nat) : (new root capacity).Sound where
  handles := List.nodup_nil
  paths := List.nodup_nil
  given := by simp [new]
  proper := by simp [new]
  next := Nat.lt_succ_self _
  pinned := by simp [new]

theorem settled_new (root : α) (capacity : Nat) : (new root capacity).Settled := by
  intro hc
  simp [new, size] at hc

theorem Sound.promote (ht : t.Sound) (h : Nat) : (t.promote h).Sound where
  handles := ((t.promote_held_perm h).map _).nodup_iff.2 ht.handles
  paths := ((t.promote_held_perm h).map _).nodup_iff.2 ht.paths
  given := fun e he => ht.given e (mem_held_promote.1 he)
  proper := fun e he => ht.proper e (mem_held_promote.1 he)
  next := ht.next
  pinned := fun k hk => (ht.pinned k hk).imp fun _ => mem_held_promote.2

theorem Settled.promote (ht : t.Settled) (h : Nat) : (t.promote h).Settled := by
  intro hc
  obtain ⟨k, hk⟩ := ht (by simpa using hc)
  exact ⟨k, fun e he => hk e (mem_held_promote.1 he)⟩

theorem Sound.evict (ht : t.Sound) (keep : Option Nat) : (t.evict keep).Sound where
  handles := ht.handles.sublist ((t.evict_held_sublist keep).map _)
  paths := ht.paths.sublist ((t.evict_held_sublist keep).map _)
  given := fun e he => ht.given e ((t.evict_held_sublist keep).subset he)
  proper := fun e he => ht.proper e ((t.evict_held_sublist keep).subset he)
  next := ht.next
  pinned := fun k hk => (ht.pinned k hk).imp fun _ hp => mem_held_evict hp (.inr hk)

/-- Eviction settles any table. -/
theorem settled_evict (t : HandleTable α) (keep : Option Nat) : (t.evict keep).Settled := by
  intro hc
  refine ⟨keep.getD 0, fun e he => ?_⟩
  rcases spared_of_capacity_lt hc he with rfl | hp
  · exact .inr rfl
  · exact .inl hp

/-- A table with one more pair, which stands under the next handle. -/
def grow (t : HandleTable α) (p : α) : HandleTable α :=
  { t with held := t.held ++ [(t.next, p)], next := t.next + 1 }

theorem mem_held_grow {e : Nat × α} :
    e ∈ (t.grow p).held ↔ e ∈ t.held ∨ e = (t.next, p) := by
  simp [grow]

theorem Sound.grow (ht : t.Sound) (hr : p ≠ t.root) (hp : ∀ h, (h, p) ∉ t.held) :
    (t.grow p).Sound where
  handles := by
    simp only [HandleTable.grow, List.map_append, List.map_cons, List.map_nil]
    refine List.nodup_append.2 ⟨ht.handles, List.nodup_singleton _, ?_⟩
    rintro h hh k hk rfl
    obtain ⟨e, he, rfl⟩ := List.mem_map.1 hh
    have := (ht.given e he).2
    have := List.mem_singleton.1 hk
    omega
  paths := by
    simp only [HandleTable.grow, List.map_append, List.map_cons, List.map_nil]
    refine List.nodup_append.2 ⟨ht.paths, List.nodup_singleton _, ?_⟩
    rintro q hq r hq' rfl
    obtain ⟨e, he, rfl⟩ := List.mem_map.1 hq
    exact hp e.1 (List.mem_singleton.1 hq' ▸ he)
  given := by
    intro e he
    have hn := ht.next
    rcases mem_held_grow.1 he with he | rfl
    · exact ⟨(ht.given e he).1, Nat.lt_succ_of_lt (ht.given e he).2⟩
    · exact ⟨hn, Nat.lt_succ_self _⟩
  proper := by
    intro e he
    rcases mem_held_grow.1 he with he | rfl
    · exact ht.proper e he
    · exact hr
  next := Nat.lt_succ_of_lt ht.next
  pinned := fun k hk => (ht.pinned k hk).imp fun _ hm => mem_held_grow.2 (.inl hm)

theorem Sound.addPin (ht : t.Sound) (hp : t.find? h = some p) : (t.addPin h).Sound := by
  rw [addPin_eq]
  refine ⟨ht.handles, ht.paths, ht.given, ht.proper, ht.next, fun k hk => ?_⟩
  rcases mem_pins_addPin.1 hk with hk | ⟨rfl, hr⟩
  · exact ht.pinned k hk
  · rcases (find?_eq_some_iff ht).1 hp with ⟨h1, -⟩ | hm
    · exact absurd h1 hr
    · exact ⟨p, hm⟩

theorem Settled.addPin (ht : t.Settled) (h : Nat) : (t.addPin h).Settled := by
  rw [addPin_eq]
  intro hc
  obtain ⟨k, hk⟩ := ht hc
  exact ⟨k, fun e he => (hk e he).imp_left fun hm => mem_pins_addPin.2 (.inl hm)⟩

/-- What is left of the pins after one of `h` is given up. -/
theorem Sound.erasePin (ht : t.Sound) (h : Nat) : Sound { t with pins := t.pins.erase h } where
  handles := ht.handles
  paths := ht.paths
  given := ht.given
  proper := ht.proper
  next := ht.next
  pinned := fun k hk => ht.pinned k (List.mem_of_mem_erase hk)

/-- The pins after one is given up; a table without such a pin keeps its own. -/
theorem pins_unpin (t : HandleTable α) (h : Nat) : (t.unpin h).pins = t.pins.erase h := by
  rw [unpin]
  split <;> rename_i hc
  · simp only []
    split <;> rfl
  · rw [List.erase_of_not_mem (by simpa using hc)]

theorem Sound.unpin (ht : t.Sound) (h : Nat) : (t.unpin h).Sound := by
  rw [HandleTable.unpin]
  split
  · simp only []
    split
    · exact ht.erasePin h
    · exact (ht.erasePin h).evict none
  · exact ht

theorem Settled.unpin (ht : t.Settled) (h : Nat) : (t.unpin h).Settled := by
  rw [HandleTable.unpin]
  split
  · simp only []
    split <;> rename_i hl
    · intro hc
      obtain ⟨k, hk⟩ := ht hc
      refine ⟨k, fun e he => (hk e he).imp_left fun hm => ?_⟩
      -- `h` has a pin left, so that giving one up leaves the same handles pinned
      by_cases heq : e.1 = h
      · rw [heq]
        simpa using hl
      · exact (List.mem_erase_of_ne heq).2 hm
    · exact settled_evict _ none
  · exact ht

theorem unpin_held_sublist (t : HandleTable α) (h : Nat) : (t.unpin h).held.Sublist t.held := by
  rw [unpin]
  split
  · simp only []
    split
    · exact List.Sublist.refl _
    · exact evict_held_sublist { t with pins := t.pins.erase h } none
  · exact List.Sublist.refl _

/-- Giving up a pin keeps what is still pinned. -/
theorem mem_held_unpin {e : Nat × α} (he : e ∈ t.held) (hp : e.1 ∈ (t.unpin h).pins) :
    e ∈ (t.unpin h).held := by
  rw [pins_unpin] at hp
  rw [unpin]
  split
  · simp only []
    split
    · exact he
    · exact mem_held_evict he (.inr hp)
  · exact he

/-- Giving up a pin changes the pins and what is held, and nothing else. -/
theorem unpin_eq (t : HandleTable α) (h : Nat) :
    t.unpin h = { t with held := (t.unpin h).held, pins := t.pins.erase h } := by
  rw [← pins_unpin]
  rw [unpin]
  split
  · simp only []
    split <;> rfl
  · rfl

end Keep

/-! ## The size of a settled table -/

/-- Pinned handles and one more are all that a table holds over its capacity. -/
theorem size_le {t : HandleTable α} (hs : t.Sound) (ht : t.Settled) :
    t.size ≤ max t.capacity (t.pins.dedup.length + 1) := by
  by_cases hc : t.size ≤ t.capacity
  · exact Nat.le_trans hc (Nat.le_max_left _ _)
  · obtain ⟨h, hh⟩ := ht (by omega)
    have hsub : t.held.map (·.1) ⊆ h :: t.pins.dedup := by
      intro k hk
      obtain ⟨e, he, rfl⟩ := List.mem_map.1 hk
      rcases hh e he with hp | rfl
      · exact List.mem_cons_of_mem _ (List.mem_dedup.2 hp)
      · exact List.mem_cons_self
    have hle := hs.handles.length_le_of_subset hsub
    simp only [List.length_map, List.length_cons] at hle
    exact Nat.le_trans hle (Nat.le_max_right _ _)

/-! ## Looking a path up -/

variable [DecidableEq α]

/-- Looking a path up finds the pair that is held. -/
theorem handle?_eq_some_iff {t : HandleTable α} {h : Nat} {p : α} (ht : t.Sound) :
    t.handle? p = some h ↔ (h = rootHandle ∧ p = t.root) ∨ (h, p) ∈ t.held := by
  simp only [handle?]
  split <;> rename_i hr
  · constructor
    · intro hh
      exact .inl ⟨(Option.some.inj hh).symm, hr⟩
    · rintro (⟨rfl, -⟩ | hp)
      · rfl
      · exact absurd hr (ht.proper _ hp)
  · constructor
    · intro hh
      obtain ⟨e, he, rfl⟩ := Option.map_eq_some_iff.1 hh
      have hp : e.2 = p := by simpa using List.find?_some he
      exact .inr (hp ▸ List.mem_of_find?_eq_some he)
    · rintro (⟨-, h1⟩ | hp)
      · exact absurd h1 hr
      · cases hf : t.held.find? (·.2 = p) with
        | none =>
            have hne := List.find?_eq_none.1 hf (h, p) hp
            simp at hne
        | some e =>
            have he : e.2 = p := by simpa using List.find?_some hf
            have hm : (e.1, p) ∈ t.held := he ▸ List.mem_of_find?_eq_some hf
            rw [Option.map_some, handle_eq_of_mem ht hm hp]

/-- The two look-ups are inverse to each other. -/
theorem find?_eq_some_iff_handle? {t : HandleTable α} {h : Nat} {p : α} (ht : t.Sound) :
    t.find? h = some p ↔ t.handle? p = some h := by
  rw [find?_eq_some_iff ht, handle?_eq_some_iff ht]

/-! ## Giving out a handle -/

/-- A path that has a handle gets it again, and any other the next one. -/
theorem handleFor_cases (t : HandleTable α) (p : α) :
    (∃ h, t.handle? p = some h ∧ t.handleFor p = (h, t.promote h)) ∨
      (t.handle? p = none ∧ t.handleFor p = (t.next, (t.grow p).evict (some t.next))) := by
  simp only [handleFor]
  cases hh : t.handle? p with
  | some h => exact .inl ⟨h, rfl, rfl⟩
  | none => exact .inr ⟨rfl, rfl⟩

theorem not_mem_held_of_handle?_eq_none {t : HandleTable α} {p : α} (ht : t.Sound)
    (hn : t.handle? p = none) : p ≠ t.root ∧ ∀ h, (h, p) ∉ t.held := by
  constructor
  · intro hr
    simp [handle?, hr] at hn
  · intro h hm
    have := (handle?_eq_some_iff ht).2 (.inr hm)
    simp [hn] at this

section GiveOut

variable {t : HandleTable α} (p : α)

theorem Sound.handleFor (ht : t.Sound) : (t.handleFor p).2.Sound := by
  rcases t.handleFor_cases p with ⟨h, -, he⟩ | ⟨hn, he⟩
  · rw [he]
    exact ht.promote h
  · rw [he]
    obtain ⟨hr, hp⟩ := not_mem_held_of_handle?_eq_none ht hn
    exact (ht.grow hr hp).evict _

theorem Settled.handleFor (ht : t.Settled) : (t.handleFor p).2.Settled := by
  rcases t.handleFor_cases p with ⟨h, -, he⟩ | ⟨-, he⟩
  · rw [he]
    exact ht.promote h
  · rw [he]
    exact settled_evict _ _

/-- The handle given out leads back to the path. -/
theorem find?_handleFor (ht : t.Sound) :
    (t.handleFor p).2.find? (t.handleFor p).1 = some p := by
  rw [find?_eq_some_iff (ht.handleFor p)]
  rcases t.handleFor_cases p with ⟨h, hh, he⟩ | ⟨-, he⟩ <;> rw [he]
  · rcases (handle?_eq_some_iff ht).1 hh with ⟨h1, hr⟩ | hm
    · exact .inl ⟨h1, hr⟩
    · exact .inr (mem_held_promote.2 hm)
  · exact .inr (mem_held_evict (mem_held_grow.2 (.inr rfl)) (.inl rfl))

theorem next_le_handleFor (t : HandleTable α) : t.next ≤ (t.handleFor p).2.next := by
  rcases t.handleFor_cases p with ⟨h, -, he⟩ | ⟨-, he⟩ <;> rw [he]
  · exact Nat.le_refl _
  · exact Nat.le_succ _

/-- A pair that was not there before stands under the next handle. -/
theorem mem_held_of_mem_held_handleFor {e : Nat × α} (he : e ∈ (t.handleFor p).2.held) :
    e ∈ t.held ∨ (e = (t.next, p) ∧ (t.handleFor p).1 = t.next) := by
  rcases t.handleFor_cases p with ⟨h, -, hf⟩ | ⟨-, hf⟩ <;> rw [hf] at he
  · exact .inl (mem_held_promote.1 he)
  · rcases mem_held_grow.1 ((evict_held_sublist _ _).subset he) with hm | rfl
    · exact .inl hm
    · exact .inr ⟨rfl, by rw [hf]⟩

@[simp] theorem pins_handleFor (t : HandleTable α) : (t.handleFor p).2.pins = t.pins := by
  rcases t.handleFor_cases p with ⟨h, -, he⟩ | ⟨-, he⟩ <;> rw [he] <;> rfl

@[simp] theorem root_handleFor (t : HandleTable α) : (t.handleFor p).2.root = t.root := by
  rcases t.handleFor_cases p with ⟨h, -, he⟩ | ⟨-, he⟩ <;> rw [he] <;> rfl

@[simp] theorem capacity_handleFor (t : HandleTable α) :
    (t.handleFor p).2.capacity = t.capacity := by
  rcases t.handleFor_cases p with ⟨h, -, he⟩ | ⟨-, he⟩ <;> rw [he] <;> rfl

/-- Giving out a handle keeps what is pinned. -/
theorem mem_held_handleFor {e : Nat × α} (he : e ∈ t.held) (hp : e.1 ∈ t.pins) :
    e ∈ (t.handleFor p).2.held := by
  rcases t.handleFor_cases p with ⟨h, -, hf⟩ | ⟨-, hf⟩ <;> rw [hf]
  · exact mem_held_promote.2 he
  · exact mem_held_evict (mem_held_grow.2 (.inl he)) (.inr hp)

end GiveOut

end ArchiveMount.HandleTable
