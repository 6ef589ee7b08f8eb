/-
# `ArchiveMount.Proofs.Tree.Content` — what the tree of an archive holds

The passes of `assemble` come to one rule.  A path is in the tree when it is the root,
or the path of an accepted record, or an ancestor of one; and its entry is made from
the last accepted record that stands there, unless that is a file with something
below it.

`places_sorted` and `mem_places` describe the sorted list of places that the passes
make, `entries_eq_map` turns the look at the next place into a look at all of them, and
`ofRecords_content` is the rule.
-/
import ArchiveMount.Proofs.Tree.PathOrder
import ArchiveMount.Tree.Basic
import Mathlib.Data.List.Nodup

namespace ArchiveMount

namespace Assembly

/-! ## Mentions of one path -/

/-- The record that a mention gives for a path, if it is about that path. -/
def recordAt (p : TreePath) (m : Mention) : Option EntryRecord :=
  if m.1 = p then m.2 else none

/-- The last record that mentions give for a path. -/
def lastRecord (p : TreePath) (ms : List Mention) : Option EntryRecord :=
  (ms.filterMap (recordAt p)).getLast?

theorem lastRecord_cons (p : TreePath) (m : Mention) (ms : List Mention) :
    lastRecord p (m :: ms) = (lastRecord p ms <|> recordAt p m) := by
  simp only [lastRecord]
  cases hm : recordAt p m with
  | none => simp [hm]
  | some r =>
      rw [List.filterMap_cons_some hm, List.getLast?_cons]
      cases (ms.filterMap (recordAt p)).getLast? <;> rfl

theorem lastRecord_eq_none {p : TreePath} {ms : List Mention} (h : ∀ m ∈ ms, m.1 ≠ p) :
    lastRecord p ms = none := by
  have hnil : ms.filterMap (recordAt p) = [] := by
    refine List.filterMap_eq_nil_iff.2 fun m hm => ?_
    rw [recordAt, if_neg (h m hm)]
  rw [lastRecord, hnil, List.getLast?_nil]

/-- Only the mentions of the path count. -/
theorem lastRecord_filter (p : TreePath) (ms : List Mention) :
    lastRecord p (ms.filter (·.1 = p)) = lastRecord p ms := by
  have hat : (fun m : Mention => if decide (m.1 = p) = true then recordAt p m else none)
      = recordAt p := by
    funext m
    by_cases h : m.1 = p <;> simp [recordAt, h]
  rw [lastRecord, lastRecord, List.filterMap_filter, hat]

/-! ## Sorting -/

/-- Mentions in the order of a walk. -/
def inOrder (ms : List Mention) : List Mention := ms.mergeSort fun a b => a.1.le b.1

theorem fst_le_trans (a b c : Mention) (h₁ : a.1.le b.1 = true) (h₂ : b.1.le c.1 = true) :
    a.1.le c.1 = true := TreePath.le_trans h₁ h₂

theorem fst_le_total (a b : Mention) : (a.1.le b.1 || b.1.le a.1) = true :=
  TreePath.le_total a.1 b.1

theorem pairwise_inOrder (ms : List Mention) :
    (inOrder ms).Pairwise fun a b => a.1.le b.1 = true :=
  List.pairwise_mergeSort fst_le_trans fst_le_total ms

theorem mem_inOrder {ms : List Mention} {m : Mention} : m ∈ inOrder ms ↔ m ∈ ms :=
  List.mem_mergeSort

/-- Sorting leaves the mentions of one path in their order. -/
theorem filter_inOrder (p : TreePath) (ms : List Mention) :
    (inOrder ms).filter (·.1 = p) = ms.filter (·.1 = p) := by
  have hpair : (ms.filter (·.1 = p)).Pairwise fun a b => a.1.le b.1 = true := by
    refine List.pairwise_of_forall_mem_list fun a ha b hb => ?_
    have h₁ : a.1 = p := by simpa using (List.mem_filter.1 ha).2
    have h₂ : b.1 = p := by simpa using (List.mem_filter.1 hb).2
    rw [h₁, h₂]
    exact TreePath.le_refl p
  have hsub : (ms.filter (·.1 = p)).Sublist (inOrder ms) :=
    List.sublist_mergeSort fst_le_trans fst_le_total hpair List.filter_sublist
  have hsub' : (ms.filter (·.1 = p)).Sublist ((inOrder ms).filter (·.1 = p)) := by
    simpa using hsub.filter (·.1 = p)
  have hlen : ((inOrder ms).filter (·.1 = p)).length = (ms.filter (·.1 = p)).length :=
    ((List.mergeSort_perm ms _).filter _).length_eq
  exact (hsub'.eq_of_length hlen.symm).symm

theorem lastRecord_inOrder (p : TreePath) (ms : List Mention) :
    lastRecord p (inOrder ms) = lastRecord p ms := by
  rw [← lastRecord_filter, filter_inOrder, lastRecord_filter]

/-! ## Merging -/

/-- Strictly before in the order of a walk. -/
def Before (a b : Mention) : Prop := a.1.le b.1 = true ∧ a.1 ≠ b.1

theorem fst_mem_merge {m n : Mention} {ms : List Mention} (h : n ∈ merge m ms) :
    n.1 = m.1 ∨ n ∈ ms := by
  cases ms with
  | nil => exact .inl (congrArg Prod.fst (List.mem_singleton.1 h))
  | cons k ms =>
      simp only [merge] at h
      split at h
      · rcases List.mem_cons.1 h with rfl | h
        · exact .inl rfl
        · exact .inr (List.mem_cons_of_mem _ h)
      · rcases List.mem_cons.1 h with rfl | h
        · exact .inl rfl
        · exact .inr h

/-- Merging keeps the places in strict order. -/
theorem pairwise_merge {m : Mention} {ms : List Mention} (hs : ms.Pairwise Before)
    (hm : ∀ n ∈ ms, m.1.le n.1 = true) : (merge m ms).Pairwise Before := by
  cases ms with
  | nil => exact List.pairwise_singleton _ _
  | cons k ms =>
      obtain ⟨hk, hs'⟩ := List.pairwise_cons.1 hs
      simp only [merge]
      split <;> rename_i he
      · refine List.pairwise_cons.2 ⟨fun n hn => ?_, hs'⟩
        exact ⟨he ▸ (hk n hn).1, he ▸ (hk n hn).2⟩
      · refine List.pairwise_cons.2 ⟨fun n hn => ?_, hs⟩
        have hmk : m.1.le k.1 = true := hm k List.mem_cons_self
        rcases List.mem_cons.1 hn with rfl | hn
        · exact ⟨hmk, fun h => he h.symm⟩
        · refine ⟨hm n (List.mem_cons_of_mem _ hn), fun h => ?_⟩
          exact he (TreePath.le_antisymm (h ▸ (hk n hn).1) hmk)

theorem fst_mem_foldr_merge {ms : List Mention} {n : Mention} (h : n ∈ ms.foldr merge []) :
    ∃ m ∈ ms, m.1 = n.1 := by
  induction ms with
  | nil => exact absurd h List.not_mem_nil
  | cons m ms ih =>
      rcases fst_mem_merge h with h | h
      · exact ⟨m, List.mem_cons_self, h.symm⟩
      · obtain ⟨k, hk, he⟩ := ih h
        exact ⟨k, List.mem_cons_of_mem _ hk, he⟩

theorem pairwise_foldr_merge {ms : List Mention}
    (hs : ms.Pairwise fun a b => a.1.le b.1 = true) : (ms.foldr merge []).Pairwise Before := by
  induction ms with
  | nil => exact List.Pairwise.nil
  | cons m ms ih =>
      obtain ⟨hm, hs⟩ := List.pairwise_cons.1 hs
      refine pairwise_merge (ih hs) fun n hn => ?_
      obtain ⟨k, hk, he⟩ := fst_mem_foldr_merge hn
      exact he ▸ hm k hk

/-- A merged mention has the path's later record, if there is one. -/
theorem mem_merge_iff {m : Mention} {ms : List Mention} (hs : ms.Pairwise Before)
    (hm : ∀ n ∈ ms, m.1.le n.1 = true) {n : Mention} :
    n ∈ merge m ms ↔
      (n.1 ≠ m.1 ∧ n ∈ ms) ∨
        (n.1 = m.1 ∧ n.2 = (((ms.find? (·.1 = m.1)).bind (·.2)) <|> m.2)) := by
  cases ms with
  | nil =>
      rw [merge, List.mem_singleton]
      constructor
      · rintro rfl
        exact .inr ⟨rfl, rfl⟩
      · rintro (⟨-, h⟩ | ⟨h₁, h₂⟩)
        · exact absurd h List.not_mem_nil
        · exact Prod.ext h₁ h₂
  | cons k ms =>
      obtain ⟨hk, hs'⟩ := List.pairwise_cons.1 hs
      simp only [merge]
      split <;> rename_i he
      · rw [List.find?_cons_of_pos (by simpa using he)]
        constructor
        · intro hn
          rcases List.mem_cons.1 hn with rfl | hn
          · exact .inr ⟨rfl, rfl⟩
          · exact .inl ⟨fun h => (hk n hn).2 (he.trans h.symm), List.mem_cons_of_mem _ hn⟩
        · rintro (⟨h, hn⟩ | ⟨h₁, h₂⟩)
          · rcases List.mem_cons.1 hn with rfl | hn
            · exact absurd he h
            · exact List.mem_cons_of_mem _ hn
          · exact List.mem_cons.2 (.inl (Prod.ext h₁ h₂))
      · -- the first place lies after `m`, and so do all others
        have hne : ∀ n ∈ k :: ms, n.1 ≠ m.1 := by
          intro n hn h
          rcases List.mem_cons.1 hn with rfl | hn
          · exact he h
          · exact he (TreePath.le_antisymm (h ▸ (hk n hn).1) (hm k List.mem_cons_self))
        have hnone : (k :: ms).find? (·.1 = m.1) = none := by
          refine List.find?_eq_none.2 fun n hn => ?_
          simpa using hne n hn
        rw [hnone]
        constructor
        · intro hn
          rcases List.mem_cons.1 hn with rfl | hn
          · exact .inr ⟨rfl, rfl⟩
          · exact .inl ⟨hne n hn, hn⟩
        · rintro (⟨-, hn⟩ | ⟨h₁, h₂⟩)
          · exact List.mem_cons_of_mem _ hn
          · exact List.mem_cons.2 (.inl (Prod.ext h₁ h₂))

/-- The places that mentions in order come to: each path that is mentioned, with the
last record for it. -/
theorem mem_foldr_merge_iff {ms : List Mention}
    (hs : ms.Pairwise fun a b => a.1.le b.1 = true) {n : Mention} :
    n ∈ ms.foldr merge [] ↔ (∃ m ∈ ms, m.1 = n.1) ∧ n.2 = lastRecord n.1 ms := by
  induction ms generalizing n with
  | nil => simp
  | cons m ms ih =>
      obtain ⟨hm, hs⟩ := List.pairwise_cons.1 hs
      have hsorted := pairwise_foldr_merge hs
      have hle : ∀ n ∈ ms.foldr merge [], m.1.le n.1 = true := by
        intro n hn
        obtain ⟨k, hk, he⟩ := fst_mem_foldr_merge hn
        exact he ▸ hm k hk
      have hfind : ((ms.foldr merge []).find? (·.1 = m.1)).bind (·.2) = lastRecord m.1 ms := by
        cases hf : (ms.foldr merge []).find? (·.1 = m.1) with
        | none =>
            refine (lastRecord_eq_none fun k hk he => ?_).symm
            have hk' := (ih hs (n := (m.1, lastRecord m.1 ms))).2 ⟨⟨k, hk, he⟩, rfl⟩
            have hne := List.find?_eq_none.1 hf _ hk'
            simp at hne
        | some k =>
            have he : k.1 = m.1 := by simpa using List.find?_some hf
            have hk := ((ih hs).1 (List.mem_of_find?_eq_some hf)).2
            rw [Option.bind_some, hk, he]
      rw [List.foldr_cons, mem_merge_iff hsorted hle, hfind, ih hs, lastRecord_cons]
      by_cases he : n.1 = m.1
      · simp [he, recordAt]
      · have he' : m.1 ≠ n.1 := fun h => he h.symm
        simp [he, he', recordAt]

/-! ## The places of an archive -/

theorem places_eq (records : List EntryRecord) :
    places records = (inOrder (records.flatMap mentions)).foldr merge [] := rfl

theorem places_sorted (records : List EntryRecord) : (places records).Pairwise Before :=
  pairwise_foldr_merge (pairwise_inOrder _)

theorem nodup_places (records : List EntryRecord) : ((places records).map (·.1)).Nodup :=
  List.pairwise_map.2 ((places_sorted records).imp And.right)

theorem acceptedPath?_ne_nil {r : EntryRecord} {q : TreePath} (h : acceptedPath? r = some q) :
    q ≠ [] := by
  simp only [acceptedPath?] at h
  split at h
  · cases h
  · split at h <;> simp_all

/-- The ancestors of a path below the root. -/
theorem mem_ancestors_iff {p q : TreePath} :
    p ∈ ((List.range q.length).drop 1).map (q.take ·) ↔ p ≠ [] ∧ p <+: q ∧ p ≠ q := by
  have hrange : (List.range q.length).drop 1 = List.range' 1 (q.length - 1) := by
    rw [List.range_eq_range', List.drop_range']
  rw [hrange, List.mem_map]
  constructor
  · rintro ⟨i, hi, rfl⟩
    obtain ⟨h₁, h₂⟩ := List.mem_range'_1.1 hi
    have hlen : (q.take i).length = i := by
      rw [List.length_take]
      omega
    refine ⟨?_, List.take_prefix i q, ?_⟩
    · intro h
      rw [h] at hlen
      simp at hlen
      omega
    · intro h
      rw [h] at hlen
      omega
  · rintro ⟨hp, hpq, hne⟩
    have hpos : 0 < p.length := List.length_pos_iff.2 hp
    have hlt : p.length < q.length := by
      rcases Nat.lt_or_eq_of_le hpq.length_le with h | h
      · exact h
      · exact absurd (hpq.eq_of_length h) hne
    exact ⟨p.length, List.mem_range'_1.2 ⟨hpos, by omega⟩, (List.prefix_iff_eq_take.1 hpq).symm⟩

theorem mem_mentions_iff {r : EntryRecord} {q : TreePath} (hq : acceptedPath? r = some q)
    {m : Mention} :
    m ∈ mentions r ↔ (m.2 = none ∧ m.1 ≠ [] ∧ m.1 <+: q ∧ m.1 ≠ q) ∨ m = (q, some r) := by
  have hmap : ((List.range q.length).drop 1).map (fun n => ((q.take n, none) : Mention))
      = (((List.range q.length).drop 1).map (q.take ·)).map fun p => (p, none) := by
    rw [List.map_map]
    rfl
  simp only [mentions, hq, hmap, List.mem_append, List.mem_singleton]
  refine or_congr_left ?_
  rw [← mem_ancestors_iff, List.mem_map]
  constructor
  · rintro ⟨p, hp, rfl⟩
    exact ⟨rfl, hp⟩
  · rintro ⟨h₁, h₂⟩
    exact ⟨m.1, h₂, Prod.ext rfl h₁.symm⟩

/-- A record mentions its path and every ancestor of it below the root. -/
theorem exists_mem_mentions_iff {r : EntryRecord} {p : TreePath} :
    (∃ m ∈ mentions r, m.1 = p) ↔ ∃ q, acceptedPath? r = some q ∧ p ≠ [] ∧ p <+: q := by
  cases hq : acceptedPath? r with
  | none => simp [mentions, hq]
  | some q =>
      constructor
      · rintro ⟨m, hm, rfl⟩
        refine ⟨q, rfl, ?_⟩
        rcases (mem_mentions_iff hq).1 hm with ⟨-, hne, hpre, -⟩ | rfl
        · exact ⟨hne, hpre⟩
        · exact ⟨acceptedPath?_ne_nil hq, List.prefix_refl q⟩
      · rintro ⟨q', hq', hp, hpre⟩
        obtain rfl := Option.some.inj hq'
        by_cases hfull : p = q
        · exact ⟨(q, some r), (mem_mentions_iff hq).2 (.inr rfl), hfull.symm⟩
        · exact ⟨(p, none), (mem_mentions_iff hq).2 (.inl ⟨rfl, hp, hpre, hfull⟩), rfl⟩

/-- A record is given for its own path only. -/
theorem filterMap_recordAt_mentions (p : TreePath) (r : EntryRecord) :
    (mentions r).filterMap (recordAt p) = if acceptedPath? r = some p then [r] else [] := by
  cases hq : acceptedPath? r with
  | none => simp [mentions, hq]
  | some q =>
      have hnone : (((List.range q.length).drop 1).map
          fun n => ((q.take n, none) : Mention)).filterMap (recordAt p) = [] := by
        refine List.filterMap_eq_nil_iff.2 fun m hm => ?_
        obtain ⟨n, -, rfl⟩ := List.mem_map.1 hm
        simp [recordAt]
      simp only [mentions, hq, List.filterMap_append, hnone, List.nil_append]
      by_cases h : q = p <;> simp [recordAt, h]

/-- The last record that stands at a path. -/
theorem lastRecord_flatMap_mentions (p : TreePath) (records : List EntryRecord) :
    lastRecord p (records.flatMap mentions)
      = (records.filter (acceptedPath? · = some p)).getLast? := by
  have h : (records.flatMap mentions).filterMap (recordAt p)
      = records.filter (acceptedPath? · = some p) := by
    induction records with
    | nil => rfl
    | cons r records ih =>
        rw [List.flatMap_cons, List.filterMap_append, ih, filterMap_recordAt_mentions,
          List.filter_cons]
        by_cases hr : acceptedPath? r = some p <;> simp [hr]
  rw [lastRecord, h]

/-- The places of an archive: every accepted path and its ancestors, each with the last
record that stands there. -/
theorem mem_places_iff {records : List EntryRecord} {m : Mention} :
    m ∈ places records ↔
      (m.1 ≠ [] ∧ ∃ r ∈ records, ∃ q, acceptedPath? r = some q ∧ m.1 <+: q) ∧
        m.2 = (records.filter (acceptedPath? · = some m.1)).getLast? := by
  rw [places_eq, mem_foldr_merge_iff (pairwise_inOrder _), lastRecord_inOrder,
    lastRecord_flatMap_mentions]
  refine and_congr_left' ?_
  constructor
  · rintro ⟨n, hn, he⟩
    obtain ⟨r, hr, hm⟩ := List.mem_flatMap.1 (mem_inOrder.1 hn)
    obtain ⟨q, hq, hne, hpre⟩ := exists_mem_mentions_iff.1 ⟨n, hm, he⟩
    exact ⟨hne, r, hr, q, hq, hpre⟩
  · rintro ⟨hne, r, hr, q, hq, hpre⟩
    obtain ⟨n, hn, he⟩ := exists_mem_mentions_iff.2 ⟨q, hq, hne, hpre⟩
    exact ⟨n, mem_inOrder.2 (List.mem_flatMap.2 ⟨r, hr, hn⟩), he⟩

/-! ## From places to entries -/

/-- Whether some place lies below a path. -/
def anyBelow (ms : List Mention) (p : TreePath) : Bool :=
  ms.any fun n => p.isPrefixOf n.1 && decide (n.1 ≠ p)

theorem anyBelow_eq_true_iff {ms : List Mention} {p : TreePath} :
    anyBelow ms p = true ↔ ∃ n ∈ ms, p <+: n.1 ∧ n.1 ≠ p := by
  simp [anyBelow]

/-- A look at the next place tells whether any place lies below. -/
theorem isPrefixOf_next_eq {m n : Mention} {ms : List Mention}
    (hs : (m :: n :: ms).Pairwise Before) :
    m.1.isPrefixOf n.1 = anyBelow (m :: n :: ms) m.1 := by
  obtain ⟨hm, hs⟩ := List.pairwise_cons.1 hs
  obtain ⟨hn, -⟩ := List.pairwise_cons.1 hs
  rw [Bool.eq_iff_iff, anyBelow_eq_true_iff, List.isPrefixOf_iff_prefix]
  constructor
  · intro h
    exact ⟨n, by simp, h, fun he => (hm n List.mem_cons_self).2 he.symm⟩
  · rintro ⟨k, hk, hpre, hne⟩
    rcases List.mem_cons.1 hk with rfl | hk
    · exact absurd rfl hne
    · rcases List.mem_cons.1 hk with rfl | hk
      · exact hpre
      · exact TreePath.isPrefix_of_le_of_le hpre (hm n List.mem_cons_self).1 (hn k hk).1

/-- What lies below a place comes after it. -/
theorem anyBelow_cons {m n : Mention} {ms : List Mention} (hs : (m :: ms).Pairwise Before)
    (hn : n ∈ ms) : anyBelow (m :: ms) n.1 = anyBelow ms n.1 := by
  have hmn := (List.pairwise_cons.1 hs).1 n hn
  have hnot : ¬ n.1 <+: m.1 := by
    intro hpre
    exact hmn.2 (TreePath.le_antisymm hmn.1 (TreePath.le_of_isPrefix hpre))
  rw [Bool.eq_iff_iff, anyBelow_eq_true_iff, anyBelow_eq_true_iff]
  constructor
  · rintro ⟨k, hk, hpre, hne⟩
    rcases List.mem_cons.1 hk with rfl | hk
    · exact absurd hpre hnot
    · exact ⟨k, hk, hpre, hne⟩
  · rintro ⟨k, hk, h⟩
    exact ⟨k, List.mem_cons_of_mem _ hk, h⟩

theorem entries_eq_map (t : Nat) {ms : List Mention} (hs : ms.Pairwise Before) :
    entries t ms = ms.map fun m => entryAt t (anyBelow ms m.1) m := by
  induction ms with
  | nil => rfl
  | cons m ms ih =>
      have hs' := (List.pairwise_cons.1 hs).2
      have htail : ms.map (fun n => entryAt t (anyBelow (m :: ms) n.1) n)
          = ms.map fun n => entryAt t (anyBelow ms n.1) n := by
        refine List.map_congr_left fun n hn => ?_
        rw [anyBelow_cons hs hn]
      rw [List.map_cons, htail, ← ih hs']
      cases ms with
      | nil =>
          have hb : anyBelow [m] m.1 = false := by simp [anyBelow]
          rw [hb]
          rfl
      | cons n ms => rw [entries, isPrefixOf_next_eq hs]

@[simp] theorem path_entryAt (t : Nat) (b : Bool) (m : Mention) : (entryAt t b m).path = m.1 := by
  simp only [entryAt]
  cases m.2 with
  | none => rfl
  | some r =>
      simp only []
      split <;> rfl

theorem assemble_eq_map (records : List EntryRecord) :
    assemble records = (places records).map fun m =>
      entryAt (newest records) (anyBelow (places records) m.1) m :=
  entries_eq_map _ (places_sorted records)

end Assembly

/-! ## The rule -/

/-- A record counts when its name does not climb and names more than the root. -/
def EntryRecord.Accepted (r : EntryRecord) : Prop :=
  ".." ∉ TreePath.split r.name ∧ TreePath.ofText r.name ≠ []

instance (r : EntryRecord) : Decidable r.Accepted := inferInstanceAs (Decidable (_ ∧ _))

/-- The last record that counts and stands at a path. -/
def lastAt (records : List EntryRecord) (p : TreePath) : Option EntryRecord :=
  (records.filter fun r => r.Accepted ∧ TreePath.ofText r.name = p).getLast?

/-- Some record that counts stands strictly below a path. -/
def HasBelow (records : List EntryRecord) (p : TreePath) : Prop :=
  ∃ r ∈ records, r.Accepted ∧ p <+: TreePath.ofText r.name ∧ TreePath.ofText r.name ≠ p

/-- The latest modification time of all records, and the epoch if there are none. -/
def latest (records : List EntryRecord) : Nat := (records.map (·.modified)).max?.getD 0

namespace Assembly

theorem acceptedPath?_eq_some_iff {r : EntryRecord} {p : TreePath} :
    acceptedPath? r = some p ↔ r.Accepted ∧ TreePath.ofText r.name = p := by
  simp only [acceptedPath?, EntryRecord.Accepted, TreePath.climbs]
  by_cases hc : ".." ∈ TreePath.split r.name
  · simp [hc]
  · simp only [List.contains_eq_mem, hc, decide_false, Bool.false_eq_true, if_false,
      not_false_eq_true, true_and]
    cases TreePath.ofText r.name with
    | nil => simp
    | cons c q => simp

theorem lastAt_eq (records : List EntryRecord) (p : TreePath) :
    lastAt records p = (records.filter (acceptedPath? · = some p)).getLast? := by
  simp only [lastAt]
  congr 1
  refine List.filter_congr fun r _ => ?_
  rw [decide_eq_decide, acceptedPath?_eq_some_iff]

theorem newest_eq_latest (records : List EntryRecord) : newest records = latest records := by
  simp only [newest, latest]
  cases records with
  | nil => rfl
  | cons r records =>
      rw [List.map_cons, List.max?_cons', Option.getD_some, List.foldl_map, List.foldl_cons,
        Nat.zero_max]

/-- Something lies below a place exactly if a record that counts does. -/
theorem anyBelow_places_iff {records : List EntryRecord} {p : TreePath} :
    anyBelow (places records) p = true ↔ HasBelow records p := by
  rw [anyBelow_eq_true_iff]
  constructor
  · rintro ⟨n, hn, hpre, hne⟩
    obtain ⟨⟨-, r, hr, q, hq, hnq⟩, -⟩ := mem_places_iff.1 hn
    obtain ⟨ha, rfl⟩ := acceptedPath?_eq_some_iff.1 hq
    refine ⟨r, hr, ha, hpre.trans hnq, fun he => hne ?_⟩
    -- `n` stands between `p` and a path that equals `p`
    exact (hpre.eq_of_length (Nat.le_antisymm hpre.length_le (he ▸ hnq.length_le))).symm
  · rintro ⟨r, hr, ha, hpre, hne⟩
    refine ⟨(TreePath.ofText r.name, lastAt records (TreePath.ofText r.name)), ?_, hpre, hne⟩
    refine mem_places_iff.2 ⟨⟨ha.2, r, hr, _, ?_, List.prefix_refl _⟩, lastAt_eq _ _⟩
    exact acceptedPath?_eq_some_iff.2 ⟨ha, rfl⟩

/-- The entry that stands at a path of the tree. -/
theorem mem_assemble_iff {records : List EntryRecord} {e : TreeEntry} :
    e ∈ assemble records ↔
      (e.path ≠ [] ∧ ∃ r ∈ records, r.Accepted ∧ e.path <+: TreePath.ofText r.name) ∧
        e = entryAt (latest records) (anyBelow (places records) e.path)
          (e.path, lastAt records e.path) := by
  rw [assemble_eq_map, List.mem_map, newest_eq_latest]
  have hex : ∀ p : TreePath, (∃ r ∈ records, ∃ q, acceptedPath? r = some q ∧ p <+: q) ↔
      ∃ r ∈ records, r.Accepted ∧ p <+: TreePath.ofText r.name := by
    intro p
    refine exists_congr fun r => and_congr_right fun _ => ?_
    constructor
    · rintro ⟨q, hq, hpre⟩
      obtain ⟨ha, rfl⟩ := acceptedPath?_eq_some_iff.1 hq
      exact ⟨ha, hpre⟩
    · rintro ⟨ha, hpre⟩
      exact ⟨_, acceptedPath?_eq_some_iff.2 ⟨ha, rfl⟩, hpre⟩
  constructor
  · rintro ⟨m, hm, rfl⟩
    obtain ⟨⟨hne, hr⟩, h₂⟩ := mem_places_iff.1 hm
    rw [path_entryAt]
    refine ⟨⟨hne, (hex m.1).1 hr⟩, ?_⟩
    rw [lastAt_eq, ← h₂]
  · rintro ⟨⟨hne, hr⟩, he⟩
    refine ⟨(e.path, lastAt records e.path), ?_, he.symm⟩
    exact mem_places_iff.2 ⟨⟨hne, (hex e.path).2 hr⟩, lastAt_eq _ _⟩

theorem nodup_path_assemble (records : List EntryRecord) :
    ((assemble records).map (·.path)).Nodup := by
  rw [assemble_eq_map, List.map_map]
  have hcomp : ((·.path) ∘ fun m : Mention =>
      entryAt (newest records) (anyBelow (places records) m.1) m) = (·.1) := by
    funext m
    simp
  rw [hcomp]
  exact nodup_places records

/-- A record that is a directory, or has nothing below it, makes the entry of its path. -/
theorem entryAt_ofRecord {t : Nat} {b : Bool} {p : TreePath} {r : EntryRecord}
    (h : r.isDir = true ∨ b = false) : entryAt t b (p, some r) = .ofRecord p r := by
  rcases h with h | h <;> simp [entryAt, h]

/-- Any other path of the tree has a directory of its own making. -/
theorem entryAt_synthetic {t : Nat} {b : Bool} {p : TreePath} {o : Option EntryRecord}
    (h : ∀ r, o = some r → r.isDir = false ∧ b = true) :
    entryAt t b (p, o) = .synthetic p t := by
  cases o with
  | none => rfl
  | some r =>
      obtain ⟨h₁, h₂⟩ := h r rfl
      simp [entryAt, h₁, h₂]

end Assembly

namespace Tree

variable (l : Locator) (size : Nat) {records : List EntryRecord}

/-- Looking a path up finds the entry that the walk meets there. -/
theorem find?_eq_some_iff {t : Tree} (ht : (t.entries.map (·.path)).Nodup) {p : TreePath}
    (hp : p ≠ []) {e : TreeEntry} : t.find? p = some e ↔ e ∈ t.walk ∧ e.path = p := by
  simp only [find?, walk]
  rw [if_neg hp]
  constructor
  · intro h
    exact ⟨List.mem_of_find?_eq_some h, by simpa using List.find?_some h⟩
  · rintro ⟨he, rfl⟩
    cases hf : t.entries.find? (·.path = e.path) with
    | none =>
        have hne := List.find?_eq_none.1 hf e he
        simp at hne
    | some f =>
        have hpath : f.path = e.path := by simpa using List.find?_some hf
        rw [List.inj_on_of_nodup_map ht (List.mem_of_find?_eq_some hf) he hpath]

/-- The content of a tree: its paths, and the entry at each of them. -/
theorem ofRecords_content (records : List EntryRecord) :
    let t := Tree.ofRecords l size records
    -- the paths are the root, the paths of records that count, and their ancestors
    (∀ p, (t.find? p).isSome = true ↔
        p = [] ∨ ∃ r ∈ records, r.Accepted ∧ p <+: TreePath.ofText r.name) ∧
      -- a walk meets each of them once, but for the root
      ((t.walk.map (·.path)).Nodup ∧
        ∀ p e, p ≠ [] → (t.find? p = some e ↔ e ∈ t.walk ∧ e.path = p)) ∧
      t.find? [] = some (.synthetic [] (latest records)) ∧
      ∀ p e, p ≠ [] → t.find? p = some e →
        -- the last record makes the entry, if it is a directory or has nothing below it
        (∀ r, lastAt records p = some r → r.isDir = true ∨ ¬ HasBelow records p →
          e = .ofRecord p r ∧ e.size = if r.isDir then 0 else r.size) ∧
        -- any other path is a directory without a record of its own
        ((¬ ∃ r, lastAt records p = some r ∧ (r.isDir = true ∨ ¬ HasBelow records p)) →
          e = .synthetic p (latest records) ∧ e.isDir = true ∧ e.size = 0 ∧
            e.headerOffset = 0 ∧ e.mode = none ∧ e.modified = latest records) := by
  intro t
  have hnodup : (t.entries.map (·.path)).Nodup := Assembly.nodup_path_assemble records
  have hfind : ∀ p e, p ≠ [] → (t.find? p = some e ↔ e ∈ t.walk ∧ e.path = p) :=
    fun p e hp => find?_eq_some_iff hnodup hp
  have hroot : t.find? [] = some (.synthetic [] (latest records)) := by
    rw [← Assembly.newest_eq_latest]
    rfl
  refine ⟨fun p => ?_, ⟨hnodup, hfind⟩, hroot, fun p e hp he => ?_⟩
  · by_cases hp : p = []
    · simp [hp, hroot]
    · rw [Option.isSome_iff_exists]
      constructor
      · rintro ⟨e, he⟩
        obtain ⟨hm, rfl⟩ := (hfind p e hp).1 he
        exact .inr (Assembly.mem_assemble_iff.1 hm).1.2
      · rintro (h | hr)
        · exact absurd h hp
        · refine ⟨Assembly.entryAt (latest records) (Assembly.anyBelow (Assembly.places records) p)
            (p, lastAt records p), (hfind p _ hp).2 ⟨?_, Assembly.path_entryAt _ _ _⟩⟩
          refine Assembly.mem_assemble_iff.2 ?_
          rw [Assembly.path_entryAt]
          exact ⟨⟨hp, hr⟩, rfl⟩
  · obtain ⟨hm, rfl⟩ := (hfind p e hp).1 he
    have heq := (Assembly.mem_assemble_iff.1 hm).2
    constructor
    · intro r hr hd
      have hrec : e = .ofRecord e.path r := by
        rw [heq, Assembly.path_entryAt, hr]
        refine Assembly.entryAt_ofRecord (hd.imp_right fun hb => ?_)
        rwa [← Assembly.anyBelow_places_iff, Bool.not_eq_true] at hb
      refine ⟨hrec, ?_⟩
      rw [hrec]
      rfl
    · intro hno
      have hsyn : e = .synthetic e.path (latest records) := by
        rw [heq, Assembly.path_entryAt]
        refine Assembly.entryAt_synthetic fun r hr => ?_
        have h₁ : r.isDir = false := by
          cases hd : r.isDir with
          | false => rfl
          | true => exact absurd ⟨r, hr, .inl hd⟩ hno
        refine ⟨h₁, Assembly.anyBelow_places_iff.2 ?_⟩
        exact Classical.byContradiction fun hb => hno ⟨r, hr, .inr hb⟩
      refine ⟨hsyn, ?_⟩
      rw [hsyn]
      exact ⟨rfl, rfl, rfl, rfl, rfl⟩

end Tree

end ArchiveMount
