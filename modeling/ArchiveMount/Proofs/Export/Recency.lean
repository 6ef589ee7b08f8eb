/-
# `ArchiveMount.Proofs.Export.Recency` — what was used last is forgotten last

The pairs of a table stand in the order of their use, so what was used last is a suffix
of them.  `suffix_evict` says when such a suffix outlasts an eviction: if all of it is
pinned, or if nothing else is, as long as it fits the capacity.  Pins that are given up
one by one go from the first case to the second with the last of them
(`suffix_unpinAll`).
-/
import ArchiveMount.Proofs.Export.HandleSession

namespace ArchiveMount.HandleTable

/-! ## Removing from the front -/

section DropFirst

variable {β : Type} {mayGo : β → Bool}

theorem dropFirst_of_stay : ∀ (n : Nat) {es : List β}, (∀ e ∈ es, mayGo e = false) →
    dropFirst mayGo n es = es
  | 0, es, _ => by rw [dropFirst]
  | n + 1, [], _ => rfl
  | n + 1, e :: es, hes => by
      rw [dropFirst, if_neg (by simp [hes e List.mem_cons_self]),
        dropFirst_of_stay (n + 1) fun f hf => hes f (List.mem_cons_of_mem _ hf)]

/-- What may not go stands behind what is left of the rest. -/
theorem dropFirst_append_of_stay {es : List β} (hes : ∀ e ∈ es, mayGo e = false) :
    ∀ (n : Nat) (l : List β), dropFirst mayGo n (l ++ es) = dropFirst mayGo n l ++ es
  | 0, l => by rw [dropFirst, dropFirst]
  | n + 1, [] => dropFirst_of_stay (n + 1) hes
  | n + 1, x :: l => by
      rw [List.cons_append, dropFirst, dropFirst]
      split
      · exact dropFirst_append_of_stay hes n l
      · rw [dropFirst_append_of_stay hes (n + 1) l]
        rfl

/-- Enough entries in front that may all go save what stands behind them. -/
theorem dropFirst_append_of_go {es : List β} :
    ∀ {n : Nat} {l : List β}, (∀ x ∈ l, mayGo x = true) → n ≤ l.length →
      dropFirst mayGo n (l ++ es) = l.drop n ++ es
  | 0, l, _, _ => by rw [dropFirst, List.drop_zero]
  | n + 1, [], _, hn => absurd hn (Nat.not_succ_le_zero n)
  | n + 1, x :: l, hgo, hn => by
      rw [List.cons_append, dropFirst, if_pos (hgo x List.mem_cons_self), List.drop_succ_cons]
      exact dropFirst_append_of_go (fun y hy => hgo y (List.mem_cons_of_mem _ hy))
        (Nat.le_of_succ_le_succ hn)

end DropFirst

variable {α : Type} {t : HandleTable α} {es : List (Nat × α)}

/-! ## The last used -/

/-- A pair that is used becomes the last. -/
theorem promote_held (ht : t.Sound) {h : Nat} {p : α} (hp : (h, p) ∈ t.held) :
    (t.promote h).held = t.held.filter (·.1 ≠ h) ++ [(h, p)] := by
  obtain ⟨l, l', hl⟩ := List.append_of_mem hp
  have hnodup := ht.handles
  rw [hl, List.map_append, List.map_cons] at hnodup
  obtain ⟨-, hnodup, hapart⟩ := List.nodup_append.1 hnodup
  have hleft : l.filter (·.1 = h) = [] := List.filter_eq_nil_iff.2 fun e he => by
    simpa using hapart e.1 (List.mem_map_of_mem he) h List.mem_cons_self
  have hright : l'.filter (·.1 = h) = [] := List.filter_eq_nil_iff.2 fun e he => by
    have hmem : e.1 ∈ l'.map (·.1) := List.mem_map_of_mem he
    have hne : e.1 ≠ h := fun heq => (List.nodup_cons.1 hnodup).1 (heq ▸ hmem)
    simpa using hne
  have hone : t.held.filter (·.1 = h) = [(h, p)] := by
    rw [hl, List.filter_append, List.filter_cons_of_pos (by simp), hleft, hright]
    rfl
  rw [promote, hone]

/-- What was used last before stands before it. -/
theorem suffix_promote (ht : t.Sound) (hes : es <:+ t.held) {h : Nat} {p : α}
    (hp : (h, p) ∈ t.held) (hne : ∀ e ∈ es, e.1 ≠ h) : es ++ [(h, p)] <:+ (t.promote h).held := by
  obtain ⟨l, hl⟩ := hes
  have hkeep : es.filter (·.1 ≠ h) = es := List.filter_eq_self.2 fun e he => by simp [hne e he]
  rw [promote_held ht hp, ← hl, List.filter_append, hkeep, List.append_assoc]
  exact List.suffix_append _ _

/-- A suffix stays if all of it is pinned, or if it fits and nothing else is pinned. -/
theorem suffix_evict (ht : t.Sound) (hes : es <:+ t.held) (hcap : es.length ≤ t.capacity)
    (hpins : (∀ e ∈ es, e.1 ∈ t.pins) ∨ ∀ k ∈ t.pins, k ∈ es.map (·.1)) :
    es <:+ (t.evict none).held := by
  obtain ⟨l, hl⟩ := hes
  rw [evict, ← hl]
  rcases hpins with hpins | hpins
  · rw [dropFirst_append_of_stay fun e he => by simp [hpins e he]]
    exact List.suffix_append _ _
  · have hgo : ∀ x ∈ l, x.1 ∉ t.pins := fun x hx hpin => by
      have hnodup := ht.handles
      rw [← hl, List.map_append] at hnodup
      exact (List.nodup_append.1 hnodup).2.2 x.1 (List.mem_map_of_mem hx) x.1 (hpins _ hpin) rfl
    rw [dropFirst_append_of_go (fun x hx => by simp [hgo x hx])]
    · exact List.suffix_append _ _
    · have hlen := congrArg List.length hl
      rw [List.length_append] at hlen
      rw [size]
      omega

theorem suffix_unpin (ht : t.Sound) (h : Nat) (hes : es <:+ t.held)
    (hcap : es.length ≤ t.capacity)
    (hpins : (∀ e ∈ es, e.1 ∈ t.pins.erase h) ∨ ∀ k ∈ t.pins.erase h, k ∈ es.map (·.1)) :
    es <:+ (t.unpin h).held := by
  rw [unpin]
  split
  · simp only []
    split
    · exact hes
    · exact suffix_evict (ht.erasePin h) hes hcap hpins
  · exact hes

@[simp] theorem capacity_unpin (t : HandleTable α) (h : Nat) :
    (t.unpin h).capacity = t.capacity := by
  rw [unpin_eq]

@[simp] theorem root_unpin (t : HandleTable α) (h : Nat) : (t.unpin h).root = t.root := by
  rw [unpin_eq]

/-! ## Giving many pins up -/

/-- Give up the pins of some handles, in this order. -/
def unpinAll (t : HandleTable α) (handles : List Nat) : HandleTable α := handles.foldl unpin t

theorem unpinAll_cons (t : HandleTable α) (h : Nat) (handles : List Nat) :
    t.unpinAll (h :: handles) = (t.unpin h).unpinAll handles := rfl

section UnpinAll

variable {handles kept : List Nat}

theorem Sound.unpinAll (ht : t.Sound) : (t.unpinAll handles).Sound := by
  induction handles generalizing t with
  | nil => exact ht
  | cons h handles ih => exact ih (ht.unpin h)

@[simp] theorem capacity_unpinAll (t : HandleTable α) (handles : List Nat) :
    (t.unpinAll handles).capacity = t.capacity := by
  induction handles generalizing t with
  | nil => rfl
  | cons h handles ih => rw [unpinAll_cons, ih, capacity_unpin]

@[simp] theorem root_unpinAll (t : HandleTable α) (handles : List Nat) :
    (t.unpinAll handles).root = t.root := by
  induction handles generalizing t with
  | nil => rfl
  | cons h handles ih => rw [unpinAll_cons, ih, root_unpin]

/-- What is pinned when the first of some pins is given up. -/
theorem perm_pins_unpin {h : Nat} (hp : t.pins.Perm (h :: handles ++ kept)) :
    (t.unpin h).pins.Perm (handles ++ kept) := by
  rw [pins_unpin]
  refine (hp.erase h).trans ?_
  rw [List.cons_append, List.erase_cons_head]

theorem pins_unpinAll (hp : t.pins.Perm (handles ++ kept)) :
    (t.unpinAll handles).pins.Perm kept := by
  induction handles generalizing t with
  | nil => exact hp
  | cons h handles ih => exact ih (perm_pins_unpin hp)

/-- What is pinned besides is still held. -/
theorem mem_held_unpinAll (hp : t.pins.Perm (handles ++ kept)) {e : Nat × α} (he : e ∈ t.held)
    (hk : e.1 ∈ kept) : e ∈ (t.unpinAll handles).held := by
  induction handles generalizing t with
  | nil => exact he
  | cons h handles ih =>
      have hp' := perm_pins_unpin hp
      exact ih hp' (mem_held_unpin he (hp'.mem_iff.2 (List.mem_append_right _ hk)))

/-- What was used last outlasts the pins, if it is what else is pinned and the handle whose
pin is given up last. -/
theorem suffix_unpinAll (ht : t.Sound) (hp : t.pins.Perm (handles ++ kept)) (hes : es <:+ t.held)
    (hcap : es.length ≤ t.capacity) (hkept : ∀ k ∈ kept, k ∈ es.map (·.1))
    (hlast : ∀ e ∈ es, e.1 ∈ kept ∨ handles.getLast? = some e.1) :
    es <:+ (t.unpinAll handles).held := by
  induction handles generalizing t with
  | nil => exact hes
  | cons h handles ih =>
      have hnext := perm_pins_unpin hp
      have hp' := hnext
      rw [pins_unpin] at hp'
      cases handles with
      | nil =>
          -- the last pin: all that is pinned now belongs to the suffix
          exact suffix_unpin ht h hes hcap (.inr fun k hk => hkept k (hp'.mem_iff.1 hk))
      | cons h' handles =>
          have hlast' : ∀ e ∈ es, e.1 ∈ kept ∨ (h' :: handles).getLast? = some e.1 :=
            fun e he => by simpa using hlast e he
          have hpinned : ∀ e ∈ es, e.1 ∈ t.pins.erase h := fun e he => by
            refine hp'.mem_iff.2 (List.mem_append.2 ?_)
            rcases hlast' e he with hk | hk
            · exact .inr hk
            · exact .inl (List.mem_of_getLast? hk)
          rw [unpinAll_cons]
          refine ih (ht.unpin h) hnext (suffix_unpin ht h hes hcap (.inl hpinned)) ?_ hlast'
          rw [capacity_unpin]
          exact hcap

end UnpinAll

/-! ## The pair of a handle -/

/-- What a table has to hold for a handle to stand for a path. -/
def own (h : Nat) (p : α) : List (Nat × α) := if h = rootHandle then [] else [(h, p)]

section Own

variable {h : Nat} {p : α}

theorem own_of_ne (hne : h ≠ rootHandle) : own h p = [(h, p)] := if_neg hne

theorem eq_of_mem_own {e : Nat × α} (he : e ∈ own h p) : e = (h, p) := by
  unfold own at he
  split at he
  · cases he
  · exact List.mem_singleton.1 he

theorem length_own_le (h : Nat) (p : α) : (own h p).length ≤ 1 := by
  unfold own
  split
  · exact Nat.zero_le _
  · exact Nat.le_refl _

theorem erase_own (h : Nat) (p : α) : ((own h p).map (·.1)).erase h = [] := by
  unfold own
  split
  · rfl
  · exact List.erase_cons_head _ _

/-- A handle that is known is held, unless it is the root's. -/
theorem own_subset_held (ht : t.Sound) (hp : t.find? h = some p) : own h p ⊆ t.held := by
  intro e he
  unfold own at he
  split at he
  · cases he
  · rename_i hne
    rw [List.mem_singleton.1 he]
    exact ((find?_eq_some_iff ht).1 hp).resolve_left fun hroot => hne hroot.1

/-- As long as its pair is held, a handle that was known is known. -/
theorem find?_of_own_subset {u : HandleTable α} (hu : u.Sound) (ht : t.Sound)
    (hroot : u.root = t.root) (hp : t.find? h = some p) (hown : own h p ⊆ u.held) :
    u.find? h = some p := by
  rw [find?_eq_some_iff hu]
  rcases (find?_eq_some_iff ht).1 hp with ⟨hh, hpr⟩ | hm
  · exact .inl ⟨hh, hroot ▸ hpr⟩
  · have hlt := (ht.given _ hm).1
    rw [own_of_ne (show h ≠ rootHandle by omega)] at hown
    exact .inr (hown List.mem_cons_self)

/-- Pinning a handle pins its pair. -/
theorem pins_addPin (t : HandleTable α) (h : Nat) (p : α) :
    (t.addPin h).pins = (own h p).map (·.1) ++ t.pins := by
  unfold addPin own
  split <;> rfl

theorem held_addPin (t : HandleTable α) (h : Nat) : (t.addPin h).held = t.held := by
  rw [addPin_eq]

/-- A handle that is used becomes the last, unless it is the root's. -/
theorem own_suffix_promote (ht : t.Sound) (hp : t.find? h = some p) :
    own h p <:+ (t.promote h).held := by
  have hsub := own_subset_held ht hp
  by_cases hne : h = rootHandle
  · rw [own, if_pos hne]
    exact List.nil_suffix
  · rw [own_of_ne hne] at hsub ⊢
    exact suffix_promote ht List.nil_suffix (hsub List.mem_cons_self) fun _ h => nomatch h

end Own

/-! ## Giving out pinned handles -/

section PinnedHandleFor

variable [DecidableEq α] {p : α}

theorem Sound.pinnedHandleFor (ht : t.Sound) (p : α) : (t.pinnedHandleFor p).2.Sound :=
  (ht.handleFor p).addPin (find?_handleFor p ht)

@[simp] theorem root_pinnedHandleFor (t : HandleTable α) (p : α) :
    (t.pinnedHandleFor p).2.root = t.root := by
  show ((t.handleFor p).2.addPin (t.handleFor p).1).root = t.root
  rw [addPin_eq]
  exact root_handleFor p t

@[simp] theorem capacity_pinnedHandleFor (t : HandleTable α) (p : α) :
    (t.pinnedHandleFor p).2.capacity = t.capacity := by
  show ((t.handleFor p).2.addPin (t.handleFor p).1).capacity = t.capacity
  rw [addPin_eq]
  exact capacity_handleFor p t

/-- What is pinned stays. -/
theorem mem_held_pinnedHandleFor {e : Nat × α} (he : e ∈ t.held) (hp : e.1 ∈ t.pins) :
    e ∈ (t.pinnedHandleFor p).2.held := by
  show e ∈ ((t.handleFor p).2.addPin (t.handleFor p).1).held
  rw [held_addPin]
  exact mem_held_handleFor p he hp

/-- A path that is not the root's stands under its handle. -/
theorem mem_held_handleFor_self (ht : t.Sound) (hp : p ≠ t.root) :
    ((t.handleFor p).1, p) ∈ (t.handleFor p).2.held := by
  refine ((find?_eq_some_iff (ht.handleFor p)).1 (find?_handleFor p ht)).resolve_left ?_
  rintro ⟨-, hroot⟩
  exact hp (hroot.trans (root_handleFor p t))

theorem mem_held_pinnedHandleFor_self (ht : t.Sound) (hp : p ≠ t.root) :
    ((t.pinnedHandleFor p).1, p) ∈ (t.pinnedHandleFor p).2.held := by
  show (_, p) ∈ ((t.handleFor p).2.addPin (t.handleFor p).1).held
  rw [held_addPin]
  exact mem_held_handleFor_self ht hp

theorem pins_pinnedHandleFor (ht : t.Sound) (hp : p ≠ t.root) :
    (t.pinnedHandleFor p).2.pins = (t.pinnedHandleFor p).1 :: t.pins := by
  have hgiven := ((ht.handleFor p).given _ (mem_held_handleFor_self ht hp)).1
  show ((t.handleFor p).2.addPin (t.handleFor p).1).pins = _
  rw [pins_addPin _ _ p, own_of_ne (Nat.ne_of_gt hgiven), pins_handleFor]
  rfl

end PinnedHandleFor

end ArchiveMount.HandleTable
