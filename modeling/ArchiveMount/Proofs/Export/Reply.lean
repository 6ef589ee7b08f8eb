/-
# `ArchiveMount.Proofs.Export.Reply` — one page of a listing

A page may hold far more handles than the table keeps, so the table shrinks while the
pins of the reply are dropped.  `Reply` stops the listing at the moment its reply is
built.  What matters is that the directory and the last entry are the last ones used by
then (`suffix_touch`): they outlast the pins, and the next page can be asked for
(`turned`).
-/
import ArchiveMount.Export.Nfs
import ArchiveMount.Proofs.Attempt
import ArchiveMount.Proofs.Export.Recency

namespace ArchiveMount

namespace Nfs

open HandleTable

variable {ω : Type}

/-! ## Replies -/

/-- A page, and the handles at the moment the reply is built. -/
structure Reply where
  page : NfsPage
  handles : Handles

namespace Reply

/-- The handles once the first `n` pins of a reply are dropped. -/
def after (r : Reply) (n : Nat) : Handles :=
  r.handles.unpinAll ((r.page.entries.take n).map (·.handle))

end Reply

/-- What a listing does until its reply is built. -/
def listed (t : Tree) (dir cookie count : Nat) (path : TreePath) : Request ω NfsPage := do
  let children ← ofTree (t.childrenOf path)
  let start ← pageStart children cookie
  let entries ← onHandles (pinAll ((children.drop start).take count))
  onHandles fun t => ((), t.promote dir)
  if let some last := entries.getLast? then
    onHandles fun t => ((), t.promote last.handle)
  return ⟨entries, decide (children.length ≤ start + entries.length)⟩

/-- A listing, and the handles when its reply is built. -/
def reply (t : Tree) (dir cookie count : Nat) : Request ω Reply :=
  withPin dir fun path => do
    let page ← listed t dir cookie count path
    let handles ← onHandles fun t => (t, t)
    onHandles fun t => ((), page.entries.foldl (fun t e => t.unpin e.handle) t)
    return ⟨page, handles⟩

/-- What is made of the answer is made while the pin is held. -/
theorem withPin_bind_pure {α β : Type} (handle : Nat) (request : TreePath → Request ω α)
    (f : α → β) :
    (do let a ← withPin handle request; return f a) =
      withPin handle fun path => do let a ← request path; return f a := by
  funext ⟨w, h⟩
  simp only [withPin, bind]
  rcases h.pin handle with ⟨_ | path, h⟩
  · rfl
  · dsimp only
    rcases request path (w, h) with ⟨_ | a, s⟩ <;> rfl

/-- Watching the handles changes nothing. -/
theorem readDirectory_eq (t : Tree) (dir cookie count : Nat) :
    (readDirectory t dir cookie count : Request ω NfsPage) = do
      let r ← reply t dir cookie count
      return r.page := by
  rw [reply, withPin_bind_pure]
  refine congrArg (withPin dir) (funext fun path => ?_)
  simp only [listed, bind_assoc, pure_bind]
  refine congrArg _ (funext fun children => congrArg _ (funext fun start =>
    congrArg _ (funext fun entries => congrArg _ (funext fun _ => ?_))))
  cases entries.getLast? with
  | none => rfl
  | some last => rfl

/-! ## The entries of a page -/

/-- An entry of a page shows an entry of the tree. -/
def Shows (e : TreeEntry) (x : NfsDirEntry) : Prop :=
  x.name = e.name ∧ x.attributes = attributes x.handle e

/-- What lies directly below a path. -/
def Below (path : TreePath) (e : TreeEntry) : Prop := e.path = path ++ [e.name]

/-- Every entry has a handle, which is held, and pinned besides what was pinned. -/
structure AllPinned (path : TreePath) (t : Handles) (es : List TreeEntry)
    (r : List NfsDirEntry × Handles) : Prop where
  sound : r.2.Sound
  root : r.2.root = t.root
  capacity : r.2.capacity = t.capacity
  shown : List.Forall₂ Shows es r.1
  held : ∀ x ∈ r.1, (x.handle, path ++ [x.name]) ∈ r.2.held
  pins : r.2.pins.Perm (r.1.map (·.handle) ++ t.pins)
  kept : ∀ e ∈ t.held, e.1 ∈ t.pins → e ∈ r.2.held

theorem allPinned {t : Handles} {path : TreePath} {es : List TreeEntry} (ht : t.Sound)
    (hroot : t.root = []) (hes : ∀ e ∈ es, Below path e) :
    AllPinned path t es (pinAll es t) := by
  induction es generalizing t with
  | nil =>
      exact ⟨ht, rfl, rfl, .nil, fun _ h => (nomatch h), List.Perm.refl _, fun _ he _ => he⟩
  | cons e es ih =>
      have hbelow : e.path = path ++ [e.name] := hes e List.mem_cons_self
      have hne : e.path ≠ t.root := by
        rw [hroot, hbelow]
        exact List.append_ne_nil_of_right_ne_nil _ (List.cons_ne_nil _ _)
      have hpins := pins_pinnedHandleFor ht hne
      have hrest := ih (ht.pinnedHandleFor e.path) ((root_pinnedHandleFor t e.path).trans hroot)
        fun f hf => hes f (List.mem_cons_of_mem _ hf)
      refine ⟨hrest.sound, hrest.root.trans (root_pinnedHandleFor t e.path),
        hrest.capacity.trans (capacity_pinnedHandleFor t e.path), .cons ⟨rfl, rfl⟩ hrest.shown,
        fun x hx => ?_, ?_, fun f hf hpin => ?_⟩
      · rcases List.mem_cons.1 hx with rfl | hx
        · refine hrest.kept _ ?_ (hpins ▸ List.mem_cons_self)
          rw [← hbelow]
          exact mem_held_pinnedHandleFor_self ht hne
        · exact hrest.held x hx
      · have hperm := hrest.pins
        rw [hpins] at hperm
        exact hperm.trans List.perm_middle
      · exact hrest.kept f (mem_held_pinnedHandleFor hf hpin) (hpins ▸ List.mem_cons_of_mem _ hpin)

theorem map_name_of_shows {es : List TreeEntry} {xs : List NfsDirEntry}
    (h : List.Forall₂ Shows es xs) : xs.map (·.name) = es.map (·.name) := by
  induction h with
  | nil => rfl
  | cons hd _ ih => rw [List.map_cons, List.map_cons, ih, hd.1]

/-- Entries of different names have different handles. -/
theorem AllPinned.nodup {t : Handles} {path : TreePath} {es : List TreeEntry}
    {r : List NfsDirEntry × Handles} (h : AllPinned path t es r) (hes : (es.map (·.name)).Nodup) :
    (r.1.map (·.handle)).Nodup := by
  rw [← map_name_of_shows h.shown] at hes
  refine List.pairwise_map.2 ((List.pairwise_map.1 hes).imp_of_mem fun {x y} hx hy hne heq => ?_)
  have hpair := List.inj_on_of_nodup_map h.sound.handles (h.held x hx) (h.held y hy) heq
  have hpath := List.append_cancel_left (congrArg Prod.snd hpair)
  exact hne (List.cons.inj hpath).1

/-! ## Where a page begins -/

theorem pageStart_zero (children : List TreeEntry) (s : ω × Handles) :
    (pageStart children 0 : Request ω Nat).run s = (.ok 0, s) := rfl

/-- A page goes on after the entry of its cookie. -/
theorem pageStart_of_find? {children : List TreeEntry} {cookie i : Nat} {w : ω} {h : Handles}
    (hne : cookie ≠ 0) (hnodup : (children.map (·.path)).Nodup) (hi : i < children.length)
    (hfind : h.find? cookie = some children[i].path) :
    (pageStart children cookie : Request ω Nat).run (w, h) =
      (.ok (i + 1), (w, h.promote cookie)) := by
  have hidx : children.findIdx? (·.path = children[i].path) = some i := by
    refine List.findIdx?_eq_some_iff_getElem.2 ⟨hi, by simp, fun j hj => ?_⟩
    have hne : children[j].path ≠ children[i].path := fun heq => by
      have hsame := List.inj_on_of_nodup_map hnodup (List.getElem_mem _) (List.getElem_mem hi) heq
      exact Nat.ne_of_lt hj ((List.Nodup.of_map _ hnodup).getElem_inj_iff.1 hsame)
    simpa using hne
  rw [pageStart, if_neg hne]
  refine (Attempt.bind_ok (show (onHandles (·.pathOf cookie) : Request ω _).run (w, h) =
    (.ok (h.find? cookie), (w, h.promote cookie)) from rfl) _).trans ?_
  rw [hfind]
  simp only [hidx]
  rfl

/-! ## The handles while a page is built -/

/-- A directory's handle is known, and nothing is pinned but this. -/
structure Ready (dir : Nat) (path : TreePath) (pins : List Nat) (h : Handles) : Prop where
  sound : h.Sound
  root : h.root = []
  capacity : minCapacity ≤ h.capacity
  pins : h.pins = pins
  known : h.find? dir = some path

section Ready

variable {dir : Nat} {path : TreePath} {pins : List Nat} {h : Handles}

theorem Ready.promote (hh : Ready dir path pins h) (k : Nat) :
    Ready dir path pins (h.promote k) where
  sound := hh.sound.promote k
  root := hh.root
  capacity := hh.capacity
  pins := hh.pins
  known := (Session.find?_promote hh.sound k dir).trans hh.known

/-- The directory is pinned while its listing runs. -/
theorem Ready.addPin (hh : Ready dir path [] h) :
    Ready dir path ((own dir path).map (·.1)) (h.addPin dir) where
  sound := hh.sound.addPin hh.known
  root := by
    rw [addPin_eq]
    exact hh.root
  capacity := by
    rw [addPin_eq]
    exact hh.capacity
  pins := by rw [pins_addPin _ _ path, hh.pins, List.append_nil]
  known := (Session.find?_addPin h dir dir).trans hh.known

end Ready

/-- The handles once a directory and the last entry of a page have been used. -/
def touch (h : Handles) (dir : Nat) (xs : List NfsDirEntry) : Handles :=
  match xs.getLast? with
  | some last => (h.promote dir).promote last.handle
  | none => h.promote dir

/-- The directory, and the last entry of a page. -/
def recent (dir : Nat) (path : TreePath) (xs : List NfsDirEntry) : List (Nat × TreePath) :=
  own dir path ++ xs.getLast?.toList.map fun last => (last.handle, path ++ [last.name])

theorem length_recent_le (dir : Nat) (path : TreePath) (xs : List NfsDirEntry) :
    (recent dir path xs).length ≤ minCapacity := by
  have hown := length_own_le dir path
  have hlast : xs.getLast?.toList.length ≤ 1 := by
    cases xs.getLast? <;> simp
  rw [recent, List.length_append, List.length_map]
  exact Nat.add_le_add hown hlast

section Built

variable {dir : Nat} {path : TreePath} {h : Handles} {es : List TreeEntry}
  {r : List NfsDirEntry × Handles}

theorem sound_touch {h : Handles} (hh : h.Sound) (dir : Nat) (xs : List NfsDirEntry) :
    (touch h dir xs).Sound := by
  unfold touch
  split
  · exact (hh.promote _).promote _
  · exact hh.promote _

@[simp] theorem pins_touch (h : Handles) (dir : Nat) (xs : List NfsDirEntry) :
    (touch h dir xs).pins = h.pins := by
  unfold touch
  split <;> rfl

@[simp] theorem root_touch (h : Handles) (dir : Nat) (xs : List NfsDirEntry) :
    (touch h dir xs).root = h.root := by
  unfold touch
  split <;> rfl

@[simp] theorem capacity_touch (h : Handles) (dir : Nat) (xs : List NfsDirEntry) :
    (touch h dir xs).capacity = h.capacity := by
  unfold touch
  split <;> rfl

theorem mem_held_touch {h : Handles} {dir : Nat} {xs : List NfsDirEntry} {e : Nat × TreePath} :
    e ∈ (touch h dir xs).held ↔ e ∈ h.held := by
  unfold touch
  split
  · rw [mem_held_promote, mem_held_promote]
  · rw [mem_held_promote]

/-- The directory is still known when the entries have their handles. -/
theorem AllPinned.known (hr : AllPinned path h es r)
    (hh : Ready dir path ((own dir path).map (·.1)) h) : r.2.find? dir = some path := by
  refine find?_of_own_subset hr.sound hh.sound hr.root hh.known fun e he => ?_
  refine hr.kept e (own_subset_held hh.sound hh.known he) ?_
  rw [hh.pins]
  exact List.mem_map_of_mem he

/-- The directory and the last entry are what was used last. -/
theorem suffix_touch (hr : AllPinned path h es r)
    (hh : Ready dir path ((own dir path).map (·.1)) h) :
    recent dir path r.1 <:+ (touch r.2 dir r.1).held := by
  have hown := own_suffix_promote hr.sound (hr.known hh)
  unfold recent touch
  cases hlast : r.1.getLast? with
  | none =>
      rw [Option.toList_none, List.map_nil, List.append_nil]
      exact hown
  | some last =>
      have hheld := hr.held last (List.mem_of_getLast? hlast)
      refine suffix_promote (hr.sound.promote dir) hown (mem_held_promote.2 hheld) fun e he => ?_
      -- the directory is none of its entries
      rintro heq
      have hdir := own_subset_held hr.sound (hr.known hh) he
      have hpair := List.inj_on_of_nodup_map hr.sound.handles hdir hheld heq
      rw [eq_of_mem_own he] at hpair
      exact absurd (congrArg Prod.snd hpair) (by simp)

/-- The pins of a reply are those of its entries and of the directory. -/
theorem pins_built (hr : AllPinned path h es r)
    (hh : Ready dir path ((own dir path).map (·.1)) h) :
    (touch r.2 dir r.1).pins.Perm (r.1.map (·.handle) ++ (own dir path).map (·.1)) := by
  rw [pins_touch, ← hh.pins]
  exact hr.pins

/-- What is not dropped yet is held. -/
theorem held_unpinAll (hr : AllPinned path h es r)
    (hh : Ready dir path ((own dir path).map (·.1)) h) (n : Nat) {x : NfsDirEntry}
    (hx : x ∈ r.1.drop n) :
    (x.handle, path ++ [x.name]) ∈
      ((touch r.2 dir r.1).unpinAll ((r.1.take n).map (·.handle))).held := by
  have hpins := pins_built hr hh
  rw [← List.take_append_drop n r.1, List.map_append, List.append_assoc] at hpins
  rw [List.take_append_drop] at hpins
  refine mem_held_unpinAll hpins (mem_held_touch.2 (hr.held x (List.mem_of_mem_drop hx))) ?_
  exact List.mem_append_left _ (List.mem_map_of_mem hx)

/-- The directory and the last entry of a page are what is pinned besides the other
entries, or pinned last. -/
theorem mem_recent {xs : List NfsDirEntry} {e : Nat × TreePath} (he : e ∈ recent dir path xs) :
    e.1 ∈ (own dir path).map (·.1) ∨ (xs.map (·.handle)).getLast? = some e.1 := by
  rcases List.mem_append.1 he with he | he
  · exact .inl (List.mem_map_of_mem he)
  · obtain ⟨last, hlast, rfl⟩ := List.mem_map.1 he
    right
    rw [List.getLast?_map, Option.mem_toList.1 hlast]
    rfl

/-- The directory and the last entry outlast the pins. -/
theorem suffix_turned (hr : AllPinned path h es r)
    (hh : Ready dir path ((own dir path).map (·.1)) h) :
    recent dir path r.1 <:+
      (((touch r.2 dir r.1).unpinAll (r.1.map (·.handle))).unpin dir).held := by
  have hbuilt : (touch r.2 dir r.1).Sound := sound_touch hr.sound _ _
  have hpins := pins_built hr hh
  have hcap : (recent dir path r.1).length ≤ (touch r.2 dir r.1).capacity := by
    rw [capacity_touch, hr.capacity]
    exact Nat.le_trans (length_recent_le _ _ _) hh.capacity
  refine suffix_unpin hbuilt.unpinAll dir ?_ (by rwa [capacity_unpinAll]) (.inr fun k hk => ?_)
  · refine suffix_unpinAll hbuilt hpins (suffix_touch hr hh) hcap (fun k hk => ?_)
      fun e he => mem_recent he
    rw [recent, List.map_append]
    exact List.mem_append_left _ hk
  · have hnone := ((pins_unpinAll hpins).erase dir).mem_iff.1 hk
    rw [erase_own] at hnone
    cases hnone

/-- When all pins are dropped, nothing is pinned, and the directory and the last entry are
still held. -/
theorem turned (hr : AllPinned path h es r)
    (hh : Ready dir path ((own dir path).map (·.1)) h) :
    Ready dir path [] (((touch r.2 dir r.1).unpinAll (r.1.map (·.handle))).unpin dir) where
  sound := (sound_touch hr.sound _ _).unpinAll.unpin dir
  root := by rw [root_unpin, root_unpinAll, root_touch, hr.root, hh.root]
  capacity := by
    rw [capacity_unpin, capacity_unpinAll, capacity_touch, hr.capacity]
    exact hh.capacity
  pins := by
    rw [pins_unpin]
    have hperm := (pins_unpinAll (pins_built hr hh)).erase dir
    rw [erase_own] at hperm
    exact hperm.eq_nil
  known := by
    have hbuilt := sound_touch hr.sound dir r.1
    refine find?_of_own_subset (hbuilt.unpinAll.unpin dir) hh.sound ?_ hh.known fun e he =>
      (suffix_turned hr hh).subset (List.mem_append_left _ he)
    rw [root_unpin, root_unpinAll, root_touch, hr.root]

end Built

/-! ## One page -/

theorem pin_of_find? {h : Handles} {k : Nat} {p : TreePath} (hp : h.find? k = some p) :
    h.pin k = (some p, (h.promote k).addPin k) := by
  simp only [pin, pathOf, hp]

theorem run_withPin {α : Type} {h : Handles} {k : Nat} {p : TreePath} (hp : h.find? k = some p)
    (request : TreePath → Request ω α) (w : ω) :
    (withPin k request).run (w, h) =
      (((request p).run (w, (h.promote k).addPin k)).1,
        (((request p).run (w, (h.promote k).addPin k)).2.1,
          ((request p).run (w, (h.promote k).addPin k)).2.2.unpin k)) := by
  show withPin k request (w, h) = _
  rw [withPin, pin_of_find? hp]
  rfl

/-- What a listing comes to, once it is clear where its page begins. -/
theorem run_reply {t : Tree} {dir cookie count start : Nat} {path : TreePath}
    {children : List TreeEntry} {w : ω} {h h' : Handles} (hknown : h.find? dir = some path)
    (hchildren : t.childrenOf path = .ok children)
    (hstart : (pageStart children cookie : Request ω Nat).run (w, (h.promote dir).addPin dir) =
      (.ok start, (w, h'))) :
    let r := pinAll ((children.drop start).take count) h'
    (reply t dir cookie count : Request ω Reply).run (w, h) =
      (.ok ⟨⟨r.1, decide (children.length ≤ start + r.1.length)⟩, touch r.2 dir r.1⟩,
        (w, ((touch r.2 dir r.1).unpinAll (r.1.map (·.handle))).unpin dir)) := by
  intro r
  have hlisted : (listed t dir cookie count path : Request ω NfsPage).run
      (w, (h.promote dir).addPin dir) =
        (.ok ⟨r.1, decide (children.length ≤ start + r.1.length)⟩, (w, touch r.2 dir r.1)) := by
    have hlook : (ofTree (t.childrenOf path) : Request ω (List TreeEntry)).run
        (w, (h.promote dir).addPin dir) = (.ok children, (w, (h.promote dir).addPin dir)) := by
      rw [ofTree, hchildren]
      rfl
    refine (Attempt.bind_ok hlook _).trans ((Attempt.bind_ok hstart _).trans ?_)
    unfold touch
    simp only [Attempt.run, bind, onHandles]
    cases r.1.getLast? with
    | none => rfl
    | some last => rfl
  have hbody := Attempt.bind_ok hlisted fun page => do
    let handles ← onHandles fun t => (t, t)
    onHandles fun t => ((), page.entries.foldl (fun t e => t.unpin e.handle) t)
    return (⟨page, handles⟩ : Reply)
  rw [reply, run_withPin hknown, unpinAll, List.foldl_map]
  exact congrArg (fun o => (o.1, (o.2.1, o.2.2.unpin dir))) hbody

end Nfs

end ArchiveMount
