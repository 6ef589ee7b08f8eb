/-
# `ArchiveMount.Proofs.Export.Requests` — what requests do to the handles

Every request works on the table of handles by calls, one after the other: it pins the
handle it is about, uses and gives out others, and drops what it has pinned (`Calling`).
Whatever paths it gives handles to are paths of the tree.  So a table that requests have
left behind, in whatever order their calls came, is one that a run of such calls leads to
(`Leads`), and what holds of all of them is `Kept`.
-/
import ArchiveMount.Proofs.Export.Paging
import ArchiveMount.Proofs.Tree.Arrangement

namespace ArchiveMount

namespace HandleTable.Session

variable {α : Type}

/-! ## Going on from a table -/

/-- A session that goes on with a table of which no pin is held. -/
def resume (t : HandleTable α) : Session α where
  table := t
  issued := t.held

theorem consistent_resume {t : HandleTable α} (ht : t.Sound) (hts : t.Settled)
    (hpins : t.pins = []) : (resume t).Consistent where
  sound := ht
  settled := hts
  counts := by
    intro h _
    rw [show (resume t).table.pins = [] from hpins]
    rfl
  live := by
    intro e he
    cases he
  issued := by
    intro e he
    exact .inl ((find?_eq_some_iff ht).2 (.inr he))
  past := by
    intro e he
    exact (ht.given e he).2
  single := by
    intro e he f hf heq
    exact congrArg Prod.snd (List.inj_on_of_nodup_map ht.handles he hf heq)
  held := by
    intro e he
    exact he

variable [DecidableEq α]

theorem run_append (s : Session α) (calls calls' : List (Call α)) :
    s.run (calls ++ calls') = (s.run calls).run calls' := List.foldl_append

/-- What calls do depends on the table and the pins, not on what was answered before. -/
theorem step_congr {s u : Session α} (ht : s.table = u.table) (hl : s.live = u.live)
    (c : Call α) : (s.step c).table = (u.step c).table ∧ (s.step c).live = (u.step c).live := by
  obtain ⟨t, live, issued⟩ := s
  obtain ⟨t', live', issued'⟩ := u
  obtain rfl : t = t' := ht
  obtain rfl : live = live' := hl
  cases c with
  | handleFor p => exact ⟨rfl, rfl⟩
  | pinnedHandleFor p => exact ⟨rfl, rfl⟩
  | pin h =>
      simp only [step]
      rcases t.pin h with ⟨_ | p, t⟩ <;> exact ⟨rfl, rfl⟩
  | touch h => exact ⟨rfl, rfl⟩
  | pathOf h => exact ⟨rfl, rfl⟩
  | drop n =>
      simp only [step]
      cases live[n]? <;> exact ⟨rfl, rfl⟩

theorem run_congr {s u : Session α} (ht : s.table = u.table) (hl : s.live = u.live)
    (calls : List (Call α)) :
    (s.run calls).table = (u.run calls).table ∧ (s.run calls).live = (u.run calls).live := by
  induction calls generalizing s u with
  | nil => exact ⟨ht, hl⟩
  | cons c calls ih =>
      obtain ⟨ht', hl'⟩ := step_congr ht hl c
      exact ih ht' hl'

/-- Taking a pin on a handle that is known. -/
theorem step_pin {s : Session α} {h : Nat} {p : α} (hp : s.table.find? h = some p) :
    s.step (.pin h) = { s with
      table := (s.table.promote h).addPin h
      live := (h, p) :: s.live } := by
  simp only [step, HandleTable.pin, HandleTable.pathOf, hp]

/-- Dropping a pin that stands behind others. -/
theorem step_drop {s : Session α} {before rest : List (Nat × α)} {e : Nat × α}
    (hs : s.live = before ++ e :: rest) :
    s.step (.drop before.length) = { s with
      table := s.table.unpin e.1
      live := before ++ rest } := by
  have hget : s.live[before.length]? = some e := by
    rw [hs, List.getElem?_append_right (Nat.le_refl _), Nat.sub_self]
    rfl
  simp only [step, hget]
  rw [hs, List.eraseIdx_append_of_length_le (Nat.le_refl _), Nat.sub_self]
  rfl

/-- A pair that a call adds is one of the path it names. -/
theorem mem_held_step {s : Session α} {c : Call α} {e : Nat × α}
    (he : e ∈ (s.step c).table.held) :
    e ∈ s.table.held ∨ c = .handleFor e.2 ∨ c = .pinnedHandleFor e.2 := by
  have hnew : ∀ p, e ∈ (s.table.handleFor p).2.held → e ∈ s.table.held ∨ e.2 = p := by
    intro p hp
    exact (mem_held_of_mem_held_handleFor p hp).imp_right fun h => congrArg Prod.snd h.1
  cases c with
  | handleFor p =>
      rcases hnew p he with he | rfl
      · exact .inl he
      · exact .inr (.inl rfl)
  | pinnedHandleFor p =>
      have he' : e ∈ ((s.table.handleFor p).2.addPin (s.table.handleFor p).1).held := he
      rw [held_addPin] at he'
      rcases hnew p he' with he' | rfl
      · exact .inl he'
      · exact .inr (.inr rfl)
  | pin h =>
      left
      simp only [step, HandleTable.pin, HandleTable.pathOf] at he
      cases hf : s.table.find? h with
      | none =>
          rw [hf] at he
          exact mem_held_promote.1 he
      | some p =>
          rw [hf] at he
          simp only [held_addPin] at he
          exact mem_held_promote.1 he
  | touch h => exact .inl (mem_held_promote.1 he)
  | pathOf h => exact .inl (mem_held_promote.1 he)
  | drop n =>
      left
      simp only [step] at he
      cases hn : s.live[n]? with
      | none =>
          rw [hn] at he
          exact he
      | some f =>
          rw [hn] at he
          exact (unpin_held_sublist _ _).subset he

end HandleTable.Session

namespace Nfs

open HandleTable

variable {ω σ α β : Type} {t : Tree}

/-! ## Requests as calls -/

/-- A call that gives a handle gives it to a path of the tree. -/
def Within (t : Tree) : Call TreePath → Prop
  | .handleFor p => ∃ e, t.find? p = some e
  | .pinnedHandleFor p => ∃ e, t.find? p = some e
  | _ => True

/-- What a request does to the handles is what some calls do, and the pins held before are
those held afterwards. -/
def Calling (t : Tree) (x : Request ω α) : Prop :=
  ∀ (w : ω) (s : Session TreePath), ∃ calls : List (Call TreePath),
    (∀ c ∈ calls, Within t c) ∧ (s.run calls).table = (x.run (w, s.table)).2.2 ∧
      (s.run calls).live = s.live

namespace Calling

/-- A request that leaves the handles alone makes no call. -/
theorem of_handles_eq {x : Request ω α} (h : ∀ s, (x.run s).2.2 = s.2) : Calling t x := by
  intro w s
  refine ⟨[], fun _ hc => (nomatch hc), ?_, rfl⟩
  rw [h]
  rfl

theorem pure (a : α) : Calling t (Pure.pure a : Request ω α) := of_handles_eq fun _ => rfl

theorem fail (e : NfsError) : Calling t (Attempt.fail e : Request ω α) :=
  of_handles_eq fun _ => rfl

theorem ofTree (r : Except TreeError α) : Calling t (ofTree r : Request ω α) :=
  of_handles_eq fun _ => rfl

theorem bind {x : Request ω α} {f : α → Request ω β} (hx : Calling t x)
    (hf : ∀ a s, (x.run s).1 = .ok a → Calling t (f a)) : Calling t (x >>= f) := by
  intro w s
  obtain ⟨calls, hwithin, htable, hlive⟩ := hx w s
  cases hrun : x.run (w, s.table) with
  | mk r s' =>
      obtain ⟨w', h'⟩ := s'
      rw [hrun] at htable
      cases r with
      | error e =>
          refine ⟨calls, hwithin, ?_, hlive⟩
          rw [htable, Attempt.bind_error hrun]
      | ok a =>
          have ha : (x.run (w, s.table)).1 = .ok a := by rw [hrun]
          obtain ⟨calls', hwithin', htable', hlive'⟩ := hf a _ ha w' (s.run calls)
          refine ⟨calls ++ calls', ?_, ?_, ?_⟩
          · intro c hc
            exact (List.mem_append.1 hc).elim (hwithin c) (hwithin' c)
          · rw [Session.run_append, htable', htable, Attempt.bind_ok hrun]
          · rw [Session.run_append, hlive', hlive]

/-- One call that takes no pin and drops none. -/
theorem onHandles {f : Handles → α × Handles} (c : Call TreePath) (hc : Within t c)
    (hstep : ∀ s : Session TreePath, (s.step c).table = (f s.table).2 ∧ (s.step c).live = s.live) :
    Calling t (onHandles f : Request ω α) := by
  intro w s
  obtain ⟨htable, hlive⟩ := hstep s
  refine ⟨[c], ?_, htable, hlive⟩
  intro d hd
  rw [List.mem_singleton.1 hd]
  exact hc

theorem pathOf (handle : Nat) :
    Calling t (Nfs.onHandles (·.pathOf handle) : Request ω (Option TreePath)) :=
  onHandles (.pathOf handle) trivial fun _ => ⟨rfl, rfl⟩

theorem handleFor {p : TreePath} (hp : ∃ e, t.find? p = some e) :
    Calling t (Nfs.onHandles (·.handleFor p) : Request ω Nat) :=
  onHandles (.handleFor p) hp fun _ => ⟨rfl, rfl⟩

/-- The handle that a request is about is pinned first, and its pin is the last to go. -/
theorem withPin {handle : Nat} {request : TreePath → Request ω α}
    (h : ∀ path, Calling t (request path)) : Calling t (Nfs.withPin handle request) := by
  intro w s
  have hpin : Within t (.pin handle) := trivial
  cases hf : s.table.find? handle with
  | none =>
      have hnone : s.table.pin handle = (none, s.table.promote handle) := by
        simp only [HandleTable.pin, HandleTable.pathOf, hf]
      refine ⟨[.pin handle], by simpa using hpin, ?_, ?_⟩
      · show (s.step (.pin handle)).table = (Nfs.withPin handle request (w, s.table)).2.2
        simp only [Session.step, Nfs.withPin, hnone]
      · show (s.step (.pin handle)).live = s.live
        simp only [Session.step, hnone]
  | some p =>
      obtain ⟨calls, hwithin, htable, hlive⟩ := h p w (s.step (.pin handle))
      rw [Session.step_pin hf] at htable hlive
      -- what is left of the pins is what was held before, behind that of the request
      have hdrop := Session.step_drop (hlive.trans (List.nil_append _).symm)
      refine ⟨.pin handle :: (calls ++ [.drop 0]), ?_, ?_, ?_⟩
      · intro c hc
        rcases List.mem_cons.1 hc with rfl | hc
        · exact hpin
        · rcases List.mem_append.1 hc with hc | hc
          · exact hwithin c hc
          · rw [List.mem_singleton.1 hc]
            trivial
      · show ((s.step (.pin handle)).run (calls ++ [.drop 0])).table = _
        rw [Session.step_pin hf, Session.run_append, run_withPin hf, ← htable]
        exact congrArg Session.table hdrop
      · show ((s.step (.pin handle)).run (calls ++ [.drop 0])).live = s.live
        rw [Session.step_pin hf, Session.run_append]
        exact (congrArg Session.live hdrop).trans (List.nil_append _)

end Calling

/-! ## The calls of a listing -/

/-- Giving every entry a pinned handle is one call for each, the last pin standing first. -/
theorem run_pinnedHandleFor (s : Session TreePath) (es : List TreeEntry) :
    ∃ pinned : List (Nat × TreePath),
      pinned.map (·.1) = (pinAll es s.table).1.map (·.handle) ∧
      (s.run (es.map fun e => .pinnedHandleFor e.path)).table = (pinAll es s.table).2 ∧
      (s.run (es.map fun e => .pinnedHandleFor e.path)).live = pinned.reverse ++ s.live := by
  induction es generalizing s with
  | nil => exact ⟨[], rfl, rfl, rfl⟩
  | cons e es ih =>
      obtain ⟨pinned, hhandles, htable, hlive⟩ := ih (s.step (.pinnedHandleFor e.path))
      refine ⟨((s.table.pinnedHandleFor e.path).1, e.path) :: pinned, ?_, htable, ?_⟩
      · rw [List.map_cons, hhandles]
        rfl
      · refine hlive.trans ?_
        rw [List.reverse_cons, List.append_assoc]
        rfl

/-- Pins are dropped in the order they were taken, each from behind those taken later. -/
theorem exists_run_drop {rest : List (Nat × TreePath)} (pinned : List (Nat × TreePath))
    {s : Session TreePath} (hs : s.live = pinned.reverse ++ rest) :
    ∃ calls : List (Call TreePath), (∀ c ∈ calls, Within t c) ∧
      (s.run calls).table = s.table.unpinAll (pinned.map (·.1)) ∧ (s.run calls).live = rest := by
  induction pinned generalizing s with
  | nil => exact ⟨[], fun _ hc => (nomatch hc), rfl, hs⟩
  | cons e pinned ih =>
      have hlive : s.live = pinned.reverse ++ e :: rest := by
        rw [hs, List.reverse_cons, List.append_assoc]
        rfl
      have hstep := Session.step_drop hlive
      obtain ⟨calls, hwithin, htable, hrest⟩ := ih (s := s.step (.drop pinned.reverse.length))
        (by rw [hstep])
      refine ⟨.drop pinned.reverse.length :: calls, ?_, ?_, hrest⟩
      · intro c hc
        rcases List.mem_cons.1 hc with rfl | hc
        · trivial
        · exact hwithin c hc
      · refine htable.trans ?_
        rw [hstep, List.map_cons, unpinAll_cons]

theorem calling_pageStart (children : List TreeEntry) (cookie : Nat) :
    Calling t (pageStart children cookie : Request ω Nat) := by
  unfold pageStart
  split
  · exact .pure 0
  · refine .bind (.pathOf cookie) ?_
    intro path s _
    cases path with
    | none => exact .fail _
    | some path =>
        dsimp only
        cases children.findIdx? (·.path = path) with
        | none => exact .fail _
        | some i => exact .pure _

/-- What follows once it is clear which entries a page has. -/
theorem calling_page {es : List TreeEntry} (hes : ∀ e ∈ es, ∃ f, t.find? e.path = some f)
    (dir : Nat) (page : List NfsDirEntry → NfsPage) :
    Calling t (do
      let entries ← onHandles (pinAll es)
      onHandles fun h => ((), h.promote dir)
      if let some last := entries.getLast? then
        onHandles fun h => ((), h.promote last.handle)
      onHandles fun h => ((), entries.foldl (fun h e => h.unpin e.handle) h)
      return page entries : Request ω NfsPage) := by
  intro w s
  obtain ⟨pinned, hhandles, htable, hlive⟩ := run_pinnedHandleFor s es
  obtain ⟨touches, htouches, htouched, hkept⟩ : ∃ touches : List (Call TreePath),
      (∀ c ∈ touches, Within t c) ∧
        ((s.run (es.map fun e => .pinnedHandleFor e.path)).run touches).table =
          touch (pinAll es s.table).2 dir (pinAll es s.table).1 ∧
        ((s.run (es.map fun e => .pinnedHandleFor e.path)).run touches).live =
          pinned.reverse ++ s.live := by
    rw [← htable, ← hlive]
    unfold touch
    cases (pinAll es s.table).1.getLast? with
    | none => exact ⟨[.touch dir], by simp [Within], rfl, rfl⟩
    | some last => exact ⟨[.touch dir, .touch last.handle], by simp [Within], rfl, rfl⟩
  obtain ⟨drops, hdrops, hdropped, hrest⟩ := exists_run_drop (t := t) pinned hkept
  refine ⟨(es.map fun e => .pinnedHandleFor e.path) ++ touches ++ drops, ?_, ?_, ?_⟩
  · intro c hc
    rcases List.mem_append.1 hc with hc | hc
    · rcases List.mem_append.1 hc with hc | hc
      · obtain ⟨e, he, rfl⟩ := List.mem_map.1 hc
        exact hes e he
      · exact htouches c hc
    · exact hdrops c hc
  · rw [Session.run_append, Session.run_append, hdropped, htouched, hhandles, unpinAll,
      List.foldl_map]
    unfold touch
    simp only [Attempt.run, Bind.bind, onHandles]
    cases (pinAll es s.table).1.getLast? with
    | none => rfl
    | some last => rfl
  · rw [Session.run_append, Session.run_append, hrest]

/-! ## The requests -/

theorem exists_find?_of_entryAt {p : TreePath} {r : TreeEntry}
    (h : t.entryAt p = .ok r) : ∃ e, t.find? p = some e := by
  unfold Tree.entryAt at h
  cases he : t.find? p with
  | none =>
      rw [he] at h
      cases h
  | some e => exact ⟨e, rfl⟩

theorem eq_of_run_ofTree {r : Except TreeError α} {s : ω × Handles} {a : α}
    (h : ((ofTree r : Request ω α).run s).1 = .ok a) : r = .ok a :=
  Attempt.mapError_eq_ok_iff.1 h

/-- Looking a name up, case by case. -/
theorem lookup_eq (t : Tree) (dir : Nat) (name : Bytes) :
    (lookup t dir name : Request ω Nat) = withPin dir (fun path => do
      let e ← ofTree (t.entryAt path)
      if e.isDir = false then Attempt.fail .notDirectory
      else if (Text.ofUtf8Lossy name).toList.any TreePath.isSeparator then Attempt.fail .noEntry
      else do
        let _ ← ofTree (t.entryAt (path.enter (Text.ofUtf8Lossy name)))
        onHandles (·.handleFor (path.enter (Text.ofUtf8Lossy name)))) := by
  refine congrArg (withPin dir) (funext fun path => congrArg (bind _) (funext fun e => ?_))
  cases e.isDir with
  | false => rfl
  | true =>
      by_cases hsep : (Text.ofUtf8Lossy name).toList.any TreePath.isSeparator = true
      · simp only [if_pos hsep]
        rfl
      · simp only [if_neg hsep]
        rfl

theorem calling_lookup (t : Tree) (dir : Nat) (name : Bytes) :
    Calling t (lookup t dir name : Request ω Nat) := by
  rw [lookup_eq]
  refine .withPin fun path => .bind (.ofTree _) ?_
  intro d _ _
  split
  · exact .fail _
  · split
    · exact .fail _
    · refine .bind (.ofTree _) ?_
      intro e s he
      exact .handleFor (exists_find?_of_entryAt (eq_of_run_ofTree he))

theorem calling_getAttributes (t : Tree) (handle : Nat) :
    Calling t (getAttributes t handle : Request ω NfsAttributes) := by
  refine .withPin fun path => .bind (.ofTree _) ?_
  intro e _ _
  exact .pure _

theorem calling_read (store : Store σ) (t : Tree) (handle offset count : Nat) :
    Calling t (read store t handle offset count) := by
  refine .withPin fun path => .bind (.of_handles_eq fun _ => rfl) ?_
  intro content _ _
  exact .pure _

theorem calling_readDirectory (ht : t.Arranged) (dir cookie count : Nat) :
    Calling t (readDirectory t dir cookie count : Request ω NfsPage) := by
  refine .withPin fun path => .bind (.ofTree _) ?_
  intro children s hchildren
  refine .bind (calling_pageStart children cookie) ?_
  intro start _ _
  refine calling_page ?_ dir _
  intro e he
  obtain rfl := eq_children_of_childrenOf ht.root_path (eq_of_run_ofTree hchildren)
  have hmem := (Tree.mem_children_iff.1 (List.drop_subset _ _ (List.take_subset _ _ he))).1
  exact ⟨e, ht.find?_eq_some_iff.2 ⟨List.mem_cons_of_mem _ hmem, rfl⟩⟩

/-! ## What requests lead to -/

/-- Requests on a tree, in whatever order their calls come, lead from one table to another;
no pin is held when they begin or when they are done. -/
def Leads (t : Tree) (h h' : Handles) : Prop :=
  ∃ calls : List (Call TreePath), (∀ c ∈ calls, Within t c) ∧
    ((Session.resume h).run calls).live = [] ∧ ((Session.resume h).run calls).table = h'

theorem Leads.refl (t : Tree) (h : Handles) : Leads t h h :=
  ⟨[], fun _ hc => (nomatch hc), rfl, rfl⟩

theorem Leads.trans {h h' h'' : Handles} (h₁ : Leads t h h') (h₂ : Leads t h' h'') :
    Leads t h h'' := by
  obtain ⟨calls, hwithin, hlive, htable⟩ := h₁
  obtain ⟨calls', hwithin', hlive', htable'⟩ := h₂
  obtain ⟨hsame, hsame'⟩ := Session.run_congr (s := (Session.resume h).run calls)
    (u := Session.resume h') htable hlive calls'
  refine ⟨calls ++ calls', ?_, ?_, ?_⟩
  · intro c hc
    exact (List.mem_append.1 hc).elim (hwithin c) (hwithin' c)
  · rw [Session.run_append, hsame', hlive']
  · rw [Session.run_append, hsame, htable']

/-- Every request leads on. -/
theorem Calling.leads {x : Request ω α} (hx : Calling t x) (w : ω) (h : Handles) :
    Leads t h (x.run (w, h)).2.2 := by
  obtain ⟨calls, hwithin, htable, hlive⟩ := hx w (Session.resume h)
  exact ⟨calls, hwithin, hlive, htable⟩

/-- What holds of a table between requests on a tree. -/
structure Kept (t : Tree) (h : Handles) : Prop where
  sound : h.Sound
  settled : h.Settled
  root : h.root = []
  capacity : minCapacity ≤ h.capacity
  pins : h.pins = []
  inTree : ∀ e ∈ h.held, ∃ f, t.find? e.2 = some f

theorem kept_new (t : Tree) (capacity : Nat) : Kept t (.new [] capacity) where
  sound := sound_new [] capacity
  settled := settled_new [] capacity
  root := rfl
  capacity := Nat.le_max_right _ _
  pins := rfl
  inTree := by
    intro e he
    cases he

/-- Calls within a tree give handles to its paths only. -/
theorem inTree_run {s : Session TreePath} (hs : ∀ e ∈ s.table.held, ∃ f, t.find? e.2 = some f)
    {calls : List (Call TreePath)} (hcalls : ∀ c ∈ calls, Within t c) :
    ∀ e ∈ (s.run calls).table.held, ∃ f, t.find? e.2 = some f := by
  induction calls generalizing s with
  | nil => exact hs
  | cons c calls ih =>
      refine ih ?_ fun d hd => hcalls d (List.mem_cons_of_mem _ hd)
      intro e he
      have hc := hcalls c List.mem_cons_self
      rcases Session.mem_held_step he with he | rfl | rfl
      · exact hs e he
      · exact hc
      · exact hc

/-- Requests keep what holds of a table. -/
theorem Kept.leads {h h' : Handles} (hh : Kept t h) (hl : Leads t h h') : Kept t h' := by
  obtain ⟨calls, hwithin, hlive, rfl⟩ := hl
  have hstart := Session.consistent_resume hh.sound hh.settled hh.pins
  have hs := Session.consistent_run hstart calls
  have hlater := Session.later_run hstart calls
  refine ⟨hs.sound, hs.settled, hlater.root.trans hh.root, ?_, ?_, ?_⟩
  · rw [hlater.capacity]
    exact hh.capacity
  · refine List.eq_nil_iff_forall_not_mem.2 ?_
    intro k hk
    have hmem := (Session.mem_pins_iff hs).1 hk
    rw [Session.pinned, hlive] at hmem
    cases hmem
  · exact inTree_run hh.inTree hwithin

/-- What a handle means may be forgotten, but does not change. -/
theorem Leads.find?_eq {h h' : Handles} (hl : Leads t h h') (hh : Kept t h) {k : Nat}
    (hk : k < h.next) {p : TreePath} (hp : h'.find? k = some p) : h.find? k = some p := by
  obtain ⟨calls, -, -, rfl⟩ := hl
  have hstart := Session.consistent_resume hh.sound hh.settled hh.pins
  have hs := Session.consistent_run hstart calls
  have hlater := Session.later_run hstart calls
  cases hf : h.find? k with
  | none =>
      rw [hlater.forgotten k hk hf] at hp
      cases hp
  | some q =>
      rcases (find?_eq_some_iff hh.sound).1 hf with ⟨rfl, rfl⟩ | hq
      · have hroot : ((Session.resume h).run calls).table.root = h.root := hlater.root
        rw [← hroot]
        exact hp
      · rcases hs.issued _ (hlater.issued hq) with hi | hi
        · rw [hi] at hp
          exact hp
        · rw [hi] at hp
          cases hp

end Nfs

end ArchiveMount
