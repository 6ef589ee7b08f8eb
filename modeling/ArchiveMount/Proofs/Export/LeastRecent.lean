/-
# `ArchiveMount.Proofs.Export.LeastRecent` — the paths used last are those held

Without pins a table is a list of the paths in the order of their last use, cut off at the
capacity.  `used?` says which path a call uses, if any: it becomes the last, and the first may
have to go (`Session.paths_step`).  Over a whole run nothing matters but the order of all uses:
the table holds what `List.dedup`, which keeps the last of equal entries, leaves at the end of
it (`Session.paths_run`).

A use may bring a path back that was forgotten.  It then gets a handle that was never given
out, and the handle under which a path is held is the one of its last allocation
(`Session.logged_run`).
-/
import ArchiveMount.Proofs.Export.Recency
import Mathlib.Data.List.DropRight

namespace ArchiveMount.HandleTable

/-! ## The last of a list -/

section Lists

variable {β : Type}

theorem rtake_append_of_le {l l' : List β} {n : Nat} (h : n ≤ l'.length) :
    (l ++ l').rtake n = l'.rtake n := by
  have hplace : (l ++ l').length - n = l.length + (l'.length - n) := by
    rw [List.length_append]
    omega
  rw [List.rtake, hplace, List.drop_append, List.rtake]
  simp

theorem rtake_of_length_le {l : List β} {n : Nat} (h : l.length ≤ n) : l.rtake n = l := by
  rw [List.rtake, Nat.sub_eq_zero_of_le h, List.drop_zero]

variable [DecidableEq β]

/-- Of the entries of a list without repetition all but one at most differ from `a`. -/
theorem length_le_filter_ne {l : List β} (hl : l.Nodup) (a : β) :
    l.length ≤ (l.filter (· ≠ a)).length + 1 := by
  have hlen := List.le_length_erase (a := a) (l := l)
  have hfilter : l.filter (· ≠ a) = l.erase a := by
    rw [hl.erase_eq_filter]
    exact List.filter_congr fun b _ => by by_cases h : b = a <;> simp [h]
  rw [hfilter]
  omega

/-- What is used once more becomes the last. -/
theorem dedup_concat (l : List β) (a : β) : (l ++ [a]).dedup = l.dedup.filter (· ≠ a) ++ [a] := by
  induction l with
  | nil => rfl
  | cons b l ih =>
      by_cases hmem : b ∈ l
      · rw [List.dedup_cons_of_mem hmem, List.cons_append,
          List.dedup_cons_of_mem (List.mem_append_left _ hmem), ih]
      · rw [List.dedup_cons_of_notMem hmem, List.cons_append]
        by_cases hb : b = a
        · rw [List.dedup_cons_of_mem (by simp [hb]), ih, List.filter_cons_of_neg (by simp [hb])]
        · rw [List.dedup_cons_of_notMem (by simp [hmem, hb]), ih,
            List.filter_cons_of_pos (by simp [hb]), List.cons_append]

/-- Of what was used before only the last `n` matter to the last `n` after one more use. -/
theorem rtake_filter_concat {l : List β} (hl : l.Nodup) (n : Nat) (a : β) :
    ((l.rtake n).filter (· ≠ a) ++ [a]).rtake n = (l.filter (· ≠ a) ++ [a]).rtake n := by
  by_cases hn : l.length ≤ n
  · rw [rtake_of_length_le hn]
  · have hlen : (l.rtake n).length = n := by
      rw [List.rtake, List.length_drop]
      omega
    have hmany : n ≤ ((l.rtake n).filter (· ≠ a) ++ [a]).length := by
      have hle := length_le_filter_ne (hl.sublist (List.drop_sublist (l.length - n) l)) a
      rw [← List.rtake, hlen] at hle
      rwa [List.length_append, List.length_singleton]
    have hsplit : l.filter (· ≠ a) =
        (l.take (l.length - n)).filter (· ≠ a) ++ (l.rtake n).filter (· ≠ a) := by
      rw [← List.filter_append, List.rtake, List.take_append_drop]
    rw [hsplit, List.append_assoc, rtake_append_of_le hmany]

end Lists

variable {α : Type} {t : HandleTable α} {h : Nat} {p : α}

/-! ## A table without pins -/

/-- The paths held, those used longest ago first. -/
def paths (t : HandleTable α) : List α := t.held.map (·.2)

/-- Nothing is pinned, and what is held fits. -/
structure Calm (t : HandleTable α) : Prop where
  sound : t.Sound
  pins : t.pins = []
  fits : t.size ≤ t.capacity
  capacity : 0 < t.capacity

theorem calm_new (root : α) (capacity : Nat) : (new root capacity).Calm where
  sound := sound_new root capacity
  pins := rfl
  fits := Nat.zero_le _
  capacity := Nat.lt_of_lt_of_le Nat.zero_lt_two (Nat.le_max_right _ _)

/-- A handle that is not held is not used. -/
theorem promote_of_not_mem (hh : ∀ p, (h, p) ∉ t.held) : t.promote h = t := by
  have hne : ∀ e ∈ t.held, e.1 ≠ h := by
    rintro ⟨k, p⟩ he rfl
    exact hh p he
  have hkeep : t.held.filter (·.1 ≠ h) = t.held :=
    List.filter_eq_self.2 fun e he => decide_eq_true (hne e he)
  have hnone : t.held.filter (·.1 = h) = [] :=
    List.filter_eq_nil_iff.2 fun e he => by simpa using hne e he
  rw [promote, hkeep, hnone, List.append_nil]

/-- Using a handle puts its path last. -/
theorem paths_promote [DecidableEq α] (ht : t.Sound) (hp : (h, p) ∈ t.held) :
    (t.promote h).paths = t.paths.filter (· ≠ p) ++ [p] := by
  have hsame : ∀ e ∈ t.held, decide (e.1 ≠ h) = decide (e.2 ≠ p) := by
    intro e he
    rw [decide_eq_decide]
    refine not_congr ⟨?_, ?_⟩
    · intro heq
      exact congrArg Prod.snd (List.inj_on_of_nodup_map ht.handles he hp heq)
    · intro heq
      exact congrArg Prod.fst (List.inj_on_of_nodup_map ht.paths he hp heq)
  rw [paths, promote_held ht hp, List.map_append, List.filter_congr hsame, paths, List.filter_map]
  rfl

/-- A new pair drives out what was used longest ago, if there is no room for it. -/
theorem paths_evict_grow (ht : t.Calm) (p : α) :
    ((t.grow p).evict (some t.next)).paths = (t.paths ++ [p]).rtake t.capacity := by
  have hgo : ∀ e ∈ t.held, (some e.1 ≠ some t.next && !t.pins.contains e.1) = true := by
    intro e he
    have hlt := (ht.sound.given e he).2
    have hne : e.1 ≠ t.next := by omega
    simp [ht.pins, hne]
  have hcap := ht.capacity
  have hroom : t.held.length + 1 - t.capacity ≤ t.held.length := by omega
  have hlen : (t.grow p).size = t.held.length + 1 := by simp [size, grow]
  have hheld : ((t.grow p).evict (some t.next)).held =
      t.held.drop (t.held.length + 1 - t.capacity) ++ [(t.next, p)] := by
    rw [evict, hlen]
    exact dropFirst_append_of_go hgo hroom
  rw [paths, hheld, List.rtake, paths, List.length_append, List.length_map, List.length_singleton,
    List.drop_append_of_le_length (by rwa [List.length_map]), List.map_append, List.map_drop]
  rfl

namespace Calm

theorem promote (ht : t.Calm) (h : Nat) : (t.promote h).Calm where
  sound := ht.sound.promote h
  pins := ht.pins
  fits := by
    rw [size_promote]
    exact ht.fits
  capacity := ht.capacity

/-- What fits is not cut off. -/
theorem rtake_paths_promote (ht : t.Calm) (h : Nat) :
    (t.promote h).paths.rtake t.capacity = (t.promote h).paths := by
  refine rtake_of_length_le ?_
  rw [paths, List.length_map]
  exact (ht.promote h).fits

theorem settled (ht : t.Calm) : t.Settled := fun hlt => absurd ht.fits (Nat.not_le_of_lt hlt)

variable [DecidableEq α]

theorem handleFor (ht : t.Calm) (p : α) : (t.handleFor p).2.Calm where
  sound := ht.sound.handleFor p
  pins := by rw [pins_handleFor, ht.pins]
  fits := by
    have hle := size_le (ht.sound.handleFor p) (ht.settled.handleFor p)
    have hcap := ht.capacity
    rw [pins_handleFor, ht.pins, capacity_handleFor] at hle
    rw [capacity_handleFor]
    simpa [Nat.max_eq_left hcap] using hle
  capacity := by
    rw [capacity_handleFor]
    exact ht.capacity

/-- Giving out the handle of a path puts the path last, whether or not it was held. -/
theorem paths_handleFor (ht : t.Calm) (hp : p ≠ t.root) :
    (t.handleFor p).2.paths = (t.paths.filter (· ≠ p) ++ [p]).rtake t.capacity := by
  rcases t.handleFor_cases p with ⟨h, hh, heq⟩ | ⟨hnone, heq⟩ <;> rw [heq]
  · have hheld : (h, p) ∈ t.held :=
      ((handle?_eq_some_iff ht.sound).1 hh).resolve_left fun hroot => hp hroot.2
    rw [← paths_promote ht.sound hheld, ht.rtake_paths_promote]
  · have hnew : ∀ q ∈ t.paths, decide (q ≠ p) = true := by
      intro q hq
      obtain ⟨⟨k, q⟩, he, rfl⟩ := List.mem_map.1 hq
      refine decide_eq_true ?_
      rintro rfl
      exact (not_mem_held_of_handle?_eq_none ht.sound hnone).2 k he
    rw [List.filter_eq_self.2 hnew]
    exact paths_evict_grow ht p

/-- The handle of the root is no pair of the table. -/
theorem handleFor_root (ht : t.Calm) : (t.handleFor t.root).2 = t := by
  have hroot : t.handle? t.root = some rootHandle := by rw [handle?, if_pos rfl]
  simp only [HandleTable.handleFor, hroot]
  refine promote_of_not_mem ?_
  intro p hp
  exact absurd (ht.sound.given _ hp).1 (Nat.lt_irrefl _)

end Calm

/-! ## What a call uses -/

variable [DecidableEq α]

/-- A call that neither takes a pin nor drops one. -/
def Call.PinFree : Call α → Prop
  | .handleFor _ | .touch _ | .pathOf _ => True
  | _ => False

/-- The path below the root that a call uses: the one it names, or the one that is held under
the handle it names. -/
def used? (t : HandleTable α) : Call α → Option α
  | .handleFor p | .pinnedHandleFor p => if p = t.root then none else some p
  | .pin h | .touch h | .pathOf h => if h = rootHandle then none else t.find? h
  | .drop _ => none

/-- The pair that a call adds to a table. -/
def allocated? (t : HandleTable α) : Call α → Option (Nat × α)
  | .handleFor p | .pinnedHandleFor p =>
    if t.handle? p = none then some ((t.handleFor p).1, p) else none
  | _ => none

/-- What a list of paths becomes when one of them, or a new one, is used. -/
def usedLast (capacity : Nat) (paths : List α) : Option α → List α
  | none => paths
  | some p => (paths.filter (· ≠ p) ++ [p]).rtake capacity

theorem Calm.paths_promote_eq (ht : t.Calm) (h : Nat) :
    (t.promote h).paths =
      usedLast t.capacity t.paths (if h = rootHandle then none else t.find? h) := by
  by_cases hroot : h = rootHandle
  · have hnone : ∀ p, (h, p) ∉ t.held := by
      intro p hp
      have hlt := (ht.sound.given _ hp).1
      omega
    rw [if_pos hroot, promote_of_not_mem hnone]
    rfl
  · rw [if_neg hroot]
    cases hf : t.find? h with
    | none =>
        have hnone : ∀ p, (h, p) ∉ t.held := by
          intro p hp
          rw [(find?_eq_some_iff ht.sound).2 (.inr hp)] at hf
          cases hf
        rw [promote_of_not_mem hnone]
        rfl
    | some p =>
        have hheld : (h, p) ∈ t.held :=
          ((find?_eq_some_iff ht.sound).1 hf).resolve_left fun hr => hroot hr.1
        rw [← ht.rtake_paths_promote, paths_promote ht.sound hheld]
        rfl

namespace Session

variable {s : Session α} {c : Call α} {calls : List (Call α)}

/-- What is noted of each call of a run, at the table that it meets. -/
def noted {γ : Type} (note : HandleTable α → Call α → Option γ) (s : Session α) :
    List (Call α) → List γ
  | [] => []
  | c :: calls => (note s.table c).toList ++ noted note (s.step c) calls

/-- A call without pins gives out the handle of a path, or uses a handle and adds nothing. -/
theorem step_cases (s : Session α) (hc : c.PinFree) :
    (∃ p, c = .handleFor p ∧ (s.step c).table = (s.table.handleFor p).2) ∨
      ∃ h, s.table.used? c = (if h = rootHandle then none else s.table.find? h) ∧
        s.table.allocated? c = none ∧ (s.step c).table = s.table.promote h := by
  cases c with
  | handleFor p => exact .inl ⟨p, rfl, rfl⟩
  | touch h => exact .inr ⟨h, rfl, rfl, rfl⟩
  | pathOf h => exact .inr ⟨h, rfl, rfl, rfl⟩
  | pinnedHandleFor p => exact hc.elim
  | pin h => exact hc.elim
  | drop n => exact hc.elim

theorem calm_step (hs : s.table.Calm) (hc : c.PinFree) :
    (s.step c).table.Calm ∧ (s.step c).table.capacity = s.table.capacity := by
  rcases s.step_cases hc with ⟨p, -, htable⟩ | ⟨h, -, -, htable⟩ <;> rw [htable]
  · exact ⟨hs.handleFor p, capacity_handleFor p s.table⟩
  · exact ⟨hs.promote h, rfl⟩

/-- One call puts the path that it uses last. -/
theorem paths_step (hs : s.table.Calm) (hc : c.PinFree) :
    (s.step c).table.paths = usedLast s.table.capacity s.table.paths (s.table.used? c) := by
  rcases s.step_cases hc with ⟨p, rfl, htable⟩ | ⟨h, hused, -, htable⟩ <;> rw [htable]
  · by_cases hp : p = s.table.root
    · subst hp
      rw [hs.handleFor_root, used?, if_pos rfl]
      rfl
    · rw [hs.paths_handleFor hp, used?, if_neg hp]
      rfl
  · rw [hused]
    exact hs.paths_promote_eq h

/-- The paths held stay the last of those used. -/
theorem paths_run (hs : s.table.Calm) (hcalls : ∀ c ∈ calls, c.PinFree) {us : List α}
    (hpaths : s.table.paths = us.dedup.rtake s.table.capacity) :
    (s.run calls).table.paths =
      (us ++ s.noted used? calls).dedup.rtake s.table.capacity := by
  induction calls generalizing s us with
  | nil =>
      rw [noted, List.append_nil]
      exact hpaths
  | cons c calls ih =>
      obtain ⟨hc, hcalls⟩ := List.forall_mem_cons.1 hcalls
      obtain ⟨hcalm, hcapacity⟩ := calm_step hs hc
      have hstep := paths_step hs hc
      have hnext : (s.step c).table.paths =
          (us ++ (s.table.used? c).toList).dedup.rtake (s.step c).table.capacity := by
        rw [hstep, hpaths, hcapacity]
        cases s.table.used? c with
        | none => rw [Option.toList_none, List.append_nil, usedLast]
        | some p =>
            rw [Option.toList_some, dedup_concat, usedLast,
              rtake_filter_concat (List.nodup_dedup us)]
      have hrest := ih hcalm hcalls hnext
      rw [hcapacity, List.append_assoc] at hrest
      exact hrest

/-! ## The last allocation of a path -/

/-- Each pair held is the last one that was noted of its path. -/
def Logged (log : List (Nat × α)) (t : HandleTable α) : Prop :=
  ∀ e ∈ t.held, (log.filter (·.2 = e.2)).getLast? = some e

theorem Logged.promote {log : List (Nat × α)} {t : HandleTable α} (hlog : Logged log t) (h : Nat) :
    Logged log (t.promote h) := fun e he => hlog e (mem_held_promote.1 he)

theorem Logged.handleFor {log : List (Nat × α)} {t : HandleTable α} (ht : t.Sound)
    (hlog : Logged log t) (p : α) :
    Logged (log ++ (t.allocated? (.handleFor p)).toList) (t.handleFor p).2 := by
  rcases t.handleFor_cases p with ⟨h, hh, heq⟩ | ⟨hnone, heq⟩
  · have hold : t.allocated? (.handleFor p) = none := if_neg (by simp [hh])
    rw [hold, heq, Option.toList_none, List.append_nil]
    exact hlog.promote h
  · have hnew : t.allocated? (.handleFor p) = some (t.next, p) := by
      rw [allocated?, if_pos hnone, heq]
    rw [hnew, Option.toList_some]
    intro e he
    rw [List.filter_append]
    rcases mem_held_of_mem_held_handleFor p he with hmem | ⟨rfl, -⟩
    · have hne : p ≠ e.2 := by
        rintro rfl
        exact (not_mem_held_of_handle?_eq_none ht hnone).2 e.1 hmem
      rw [List.filter_cons_of_neg (by simpa using hne), List.filter_nil, List.append_nil]
      exact hlog e hmem
    · rw [List.filter_cons_of_pos (by simp), List.filter_nil, List.getLast?_concat]

theorem logged_step {log : List (Nat × α)} (hs : s.table.Calm) (hlog : Logged log s.table)
    (hc : c.PinFree) : Logged (log ++ (s.table.allocated? c).toList) (s.step c).table := by
  rcases s.step_cases hc with ⟨p, rfl, htable⟩ | ⟨h, -, hnone, htable⟩ <;> rw [htable]
  · exact hlog.handleFor hs.sound p
  · rw [hnone, Option.toList_none, List.append_nil]
    exact hlog.promote h

theorem logged_run {log : List (Nat × α)} (hs : s.table.Calm) (hlog : Logged log s.table)
    (hcalls : ∀ c ∈ calls, c.PinFree) :
    Logged (log ++ s.noted allocated? calls) (s.run calls).table := by
  induction calls generalizing s log with
  | nil =>
      rw [noted, List.append_nil]
      exact hlog
  | cons c calls ih =>
      obtain ⟨hc, hcalls⟩ := List.forall_mem_cons.1 hcalls
      have hrest := ih (calm_step hs hc).1 (logged_step hs hlog hc) hcalls
      rw [List.append_assoc] at hrest
      exact hrest

/-! ## Whole runs -/

/-- After any calls that know no pins, a table holds the distinct paths used last, as many as
fit the capacity, those used longest ago first.  A path that is held is answered the handle of
its last allocation; any other one below the root gets a handle never answered before. -/
theorem run_start_least_recent (root : α) (capacity : Nat) (calls : List (Call α))
    (hcalls : ∀ c ∈ calls, c.PinFree) :
    let s := (start root capacity).run calls
    let uses := (start root capacity).noted used? calls
    let allocations := (start root capacity).noted allocated? calls
    s.table.held.map (·.2) = uses.dedup.rtake (min (max capacity 2) uses.dedup.length) ∧
      (∀ p ∈ s.table.held.map (·.2),
        (allocations.filter (·.2 = p)).getLast? = some ((s.table.handleFor p).1, p)) ∧
      ∀ p, p ≠ root → p ∉ s.table.held.map (·.2) →
        rootHandle < (s.table.handleFor p).1 ∧
          ∀ e ∈ s.issued, e.1 ≠ (s.table.handleFor p).1 := by
  intro s uses allocations
  have hcalm : (start root capacity).table.Calm := calm_new root capacity
  have hs : s.Consistent := consistent_run (consistent_start root capacity) calls
  have hroot : s.table.root = root := (later_run (consistent_start root capacity) calls).root
  refine ⟨?_, ?_, ?_⟩
  · have hempty : (start root capacity).table.paths =
        ([] : List α).dedup.rtake (start root capacity).table.capacity := by
      simp [paths, start, new, List.rtake]
    have hpaths : s.table.paths = uses.dedup.rtake (max capacity 2) :=
      paths_run hcalm hcalls hempty
    rw [← paths, hpaths, List.rtake, List.rtake]
    congr 1
    omega
  · intro p hp
    obtain ⟨e, he, rfl⟩ := List.mem_map.1 hp
    have hnone : Logged [] (start root capacity).table := by
      intro e he
      cases he
    have hlogged : Logged allocations s.table := logged_run hcalm hnone hcalls
    have hhandle : s.table.handle? e.2 = some e.1 := (handle?_eq_some_iff hs.sound).2 (.inr he)
    rw [hlogged e he]
    simp only [HandleTable.handleFor, hhandle]
  · intro p hp hmem
    have hnone : s.table.handle? p = none := by
      refine Option.eq_none_iff_forall_ne_some.2 ?_
      intro h hh
      rcases (handle?_eq_some_iff hs.sound).1 hh with ⟨-, rfl⟩ | hheld
      · exact hp hroot
      · exact hmem (List.mem_map_of_mem hheld)
    have hnext : (s.table.handleFor p).1 = s.table.next := by
      simp only [HandleTable.handleFor, hnone]
    rw [hnext]
    refine ⟨hs.sound.next, ?_⟩
    intro e he
    have hlt := hs.past e he
    omega

end Session

/-! A file that was looked at stays, and the one opened after it goes and comes back. -/
namespace Session.Touched

def history : List (Call String) :=
  [.handleFor "/a", .handleFor "/b", .pathOf 2, .touch 9, .handleFor "/", .handleFor "/c"]

theorem looked_at_stays :
    (∀ c ∈ history, c.PinFree) ∧
      ((start "/" 0).run history).table.held.map (·.2) = ["/a", "/c"] ∧
      ((start "/" 0).noted allocated? history).filter (·.2 = "/a") = [(2, "/a")] ∧
      (((start "/" 0).run history).table.handleFor "/a").1 = 2 ∧
      ∀ e ∈ ((start "/" 0).run history).issued,
        e.1 ≠ (((start "/" 0).run history).table.handleFor "/b").1 := by
  have hhist : ∀ c ∈ history, c.PinFree := by simp [history, Call.PinFree]
  obtain ⟨hheld, hlast, hfresh⟩ := run_start_least_recent "/" 0 history hhist
  have huses : (start "/" 0).noted used? history = ["/a", "/b", "/a", "/c"] := by decide
  have hallocated : ((start "/" 0).noted allocated? history).filter (·.2 = "/a") = [(2, "/a")] := by
    decide
  have hpaths : ((start "/" 0).run history).table.held.map (·.2) = ["/a", "/c"] := by
    rw [hheld, huses]
    decide
  rw [hpaths] at hlast hfresh
  have ha := hlast "/a" (by decide)
  rw [hallocated] at ha
  obtain ⟨ha, -⟩ := Prod.mk.inj (Option.some.inj ha)
  exact ⟨hhist, hpaths, hallocated, ha.symm, (hfresh "/b" (by decide) (by decide)).2⟩

end Session.Touched

end ArchiveMount.HandleTable
