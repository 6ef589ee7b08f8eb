/-
# `ArchiveMount.Proofs.Export.Lookup` — names looked up by handle

`entered?` says what the tree makes of a name in a directory: dots are followed, and any
other name has to be that of something in the directory.  `run_lookup` answers a look-up by
it, whatever bytes the name was sent as.  The directory is pinned while the handle is given
out, and the table is never over its capacity when the pin goes, so both handles are known
afterwards even in the smallest table (`Kept.known_unpin`).

Names looked up one after the other lead where the path leads that they make up
(`Kept.run_descend`), for on the way to anything in a tree there are directories.
-/
import ArchiveMount.Proofs.Export.Requests
import ArchiveMount.Proofs.Text.Lossy
import ArchiveMount.Proofs.Tree.Normalization
import Mathlib.Data.List.Find

namespace ArchiveMount

/-! ## Names in a tree -/

namespace Tree

variable {t : Tree} {path : TreePath} {d e : TreeEntry} {name : String}

/-- The path that a name leads to from a directory.  Dots are followed without a look at
what is in the directory. -/
def entered? (t : Tree) (path : TreePath) (name : String) : Option TreePath :=
  if name.toList.any TreePath.isSeparator then none
  else if name = "" ∨ name = "." then some path
  else if name = ".." then some path.parent
  else ((t.children path).find? (·.name = name)).map (·.path)

namespace Arranged

/-- Above whatever is in a tree there are directories. -/
theorem isDir_of_isPrefix (h : t.Arranged) {q : TreePath} (he : t.find? q = some e)
    (hpre : path <+: q) (hne : q ≠ path) : ∃ d, t.find? path = some d ∧ d.isDir = true := by
  obtain ⟨hmem, rfl⟩ := h.find?_eq_some_iff.1 he
  by_cases hp : path = []
  · exact ⟨t.root, h.find?_eq_some_iff.2 ⟨List.mem_cons_self, h.root_path.trans hp.symm⟩,
      h.root_isDir⟩
  · rcases List.mem_cons.1 hmem with rfl | hmem
    · rw [h.root_path] at hpre
      exact absurd (List.prefix_nil.1 hpre) hp
    · obtain ⟨d, hd, hpath, hdir⟩ := h.ancestor e hmem path hp hpre hne
      exact ⟨d, h.find?_eq_some_iff.2 ⟨List.mem_cons_of_mem _ hd, hpath⟩, hdir⟩

/-- With an entry its parent is in the tree. -/
theorem exists_find?_parent (h : t.Arranged) (he : t.find? path = some e) :
    ∃ d, t.find? path.parent = some d := by
  by_cases hne : path = path.parent
  · rw [← hne]
    exact ⟨e, he⟩
  · obtain ⟨d, hd, -⟩ := h.isDir_of_isPrefix he (TreePath.parent_isPrefix path) hne
    exact ⟨d, hd⟩

/-- What stands under a name in a directory is the child of this name. -/
theorem find?_concat (h : t.Arranged) (path : TreePath) (name : String) :
    t.find? (path ++ [name]) = (t.children path).find? (·.name = name) := by
  rw [find?, if_neg (List.concat_ne_nil name path), children, List.find?_filter]
  refine List.find?_congr ?_
  intro e he
  have hpath := TreePath.parent_append_name (h.ne_nil e he)
  rw [decide_eq_decide, decide_eq_true_iff, decide_eq_true_iff]
  constructor
  · intro heq
    refine ⟨?_, ?_⟩
    · rw [heq, TreePath.parent_concat]
    · rw [TreeEntry.name, heq]
      simp [TreePath.name]
  · rintro ⟨hparent, hname⟩
    rw [← hpath, hparent]
    exact congrArg (fun c => path ++ [c]) hname

/-- A proper name leads to what is below the directory by this name. -/
theorem entered?_of_isComponent (h : t.Arranged) (path : TreePath)
    (hname : TreePath.IsComponent name) :
    t.entered? path name = (t.find? (path ++ [name])).map (·.path) := by
  obtain ⟨h₁, h₂, h₃, hsep⟩ := hname
  have hany : name.toList.any TreePath.isSeparator = false := by
    rw [List.any_eq_false]
    intro x hx
    simp [hsep x hx]
  rw [h.find?_concat, entered?, if_neg (by simp [hany]), if_neg (by simp [h₁, h₂]), if_neg h₃]

/-- A name that may be looked up leads to what stands where the path it makes leads. -/
theorem map_path_find?_enter (h : t.Arranged) (hd : t.find? path = some d)
    (hsep : name.toList.any TreePath.isSeparator = false) :
    (t.find? (path.enter name)).map (·.path) = t.entered? path name := by
  have hpath : ∀ {q : TreePath} {e : TreeEntry}, t.find? q = some e → e.path = q := by
    intro q e he
    exact (h.find?_eq_some_iff.1 he).2
  by_cases hdot : name = "" ∨ name = "."
  · rw [entered?, if_neg (by simp [hsep]), if_pos hdot, TreePath.enter_self hdot, hd,
      Option.map_some, hpath hd]
  · by_cases hup : name = ".."
    · subst hup
      obtain ⟨e, he⟩ := h.exists_find?_parent hd
      rw [TreePath.enter_parent, he, Option.map_some, hpath he]
      rfl
    · have hname : TreePath.IsComponent name := by
        rw [not_or] at hdot
        refine ⟨hdot.1, hdot.2, hup, ?_⟩
        intro x hx
        simpa using List.any_eq_false.1 hsep x hx
      rw [TreePath.enter_concat hname, h.entered?_of_isComponent path hname]

end Arranged

end Tree

/-! ## Handles that outlast a look-up -/

namespace HandleTable

variable {α : Type} {t : HandleTable α}

/-- A path that has a handle gets no other one. -/
theorem handleFor_of_find? [DecidableEq α] (ht : t.Sound) {k : Nat} {p : α}
    (hp : t.find? k = some p) : (t.handleFor p).1 = k := by
  rw [find?_eq_some_iff_handle? ht] at hp
  simp only [handleFor, hp]

/-- A table that is not over its capacity forgets nothing when a pin goes. -/
theorem held_unpin_of_size_le (ht : t.size ≤ t.capacity) (h : Nat) :
    (t.unpin h).held = t.held := by
  have hnone : t.size - t.capacity = 0 := Nat.sub_eq_zero_of_le ht
  rw [unpin]
  split
  · simp only []
    split
    · rfl
    · show dropFirst _ (t.size - t.capacity) t.held = t.held
      rw [hnone, dropFirst]
  · rfl

namespace Session

theorem Below.trans {t u v : HandleTable α} (h₁ : Below t u) (h₂ : Below u v) : Below t v where
  root := h₁.root.trans h₂.root
  next := h₁.next.trans h₂.next
  held := fun _ he => h₂.held (h₁.held he)

theorem below_unpin (t : HandleTable α) (h : Nat) : Below (t.unpin h) t := by
  refine ⟨?_, ?_, (unpin_held_sublist _ _).subset⟩ <;> rw [unpin_eq]

theorem below_unpinAll (t : HandleTable α) (handles : List Nat) :
    Below (t.unpinAll handles) t := by
  induction handles generalizing t with
  | nil => exact ⟨rfl, rfl, fun _ he => he⟩
  | cons h handles ih => exact (ih (t.unpin h)).trans (below_unpin t h)

end Session

end HandleTable

namespace Nfs

open HandleTable

variable {ω : Type} {t : Tree} {h : Handles} {dir : Nat} {path target : TreePath} {d : TreeEntry}

/-- The handles while a request about one of them runs. -/
def pinning (h : Handles) (dir : Nat) : Handles := (h.promote dir).addPin dir

theorem Kept.ready (hh : Kept t h) (hknown : h.find? dir = some path) : Ready dir path [] h :=
  ⟨hh.sound, hh.root, hh.capacity, hh.pins, hknown⟩

theorem Kept.ready_pinning (hh : Kept t h) (hknown : h.find? dir = some path) :
    Ready dir path ((own dir path).map (·.1)) (pinning h dir) :=
  ((hh.ready hknown).promote dir).addPin

/-- With the pin of one directory a table has room for it and for what is in it. -/
theorem Kept.size_handleFor_le (hh : Kept t h) (hknown : h.find? dir = some path)
    (target : TreePath) :
    ((pinning h dir).handleFor target).2.size ≤
      ((pinning h dir).handleFor target).2.capacity := by
  have hready := hh.ready_pinning hknown
  have hsettled : (pinning h dir).Settled := (hh.settled.promote dir).addPin dir
  have hsize := size_le (hready.sound.handleFor target) (hsettled.handleFor target)
  have hone : ((own dir path).map (·.1)).dedup.length ≤ 1 := by
    refine (List.dedup_sublist _).length_le.trans ?_
    rw [List.length_map]
    exact length_own_le dir path
  have hroom : ((own dir path).map (·.1)).dedup.length + 1 ≤ (pinning h dir).capacity :=
    Nat.le_trans (Nat.succ_le_succ hone) hready.capacity
  rw [pins_handleFor, capacity_handleFor, hready.pins, Nat.max_eq_left hroom] at hsize
  rw [capacity_handleFor]
  exact hsize

/-- The directory and what was looked up in it are known when the pin is gone. -/
theorem Kept.known_unpin (hh : Kept t h) (hknown : h.find? dir = some path) (target : TreePath) :
    (((pinning h dir).handleFor target).2.unpin dir).find?
        ((pinning h dir).handleFor target).1 = some target ∧
      (((pinning h dir).handleFor target).2.unpin dir).find? dir = some path := by
  have hready := hh.ready_pinning hknown
  have hheld := held_unpin_of_size_le (hh.size_handleFor_le hknown target) dir
  have hsame : ∀ k, (((pinning h dir).handleFor target).2.unpin dir).find? k =
      ((pinning h dir).handleFor target).2.find? k := by
    intro k
    simp only [find?, hheld, root_unpin]
  rw [hsame, hsame]
  refine ⟨find?_handleFor target hready.sound, ?_⟩
  refine find?_of_own_subset (hready.sound.handleFor target) hready.sound
    (root_handleFor target _) hready.known ?_
  intro e he
  refine mem_held_handleFor target (own_subset_held hready.sound hready.known he) ?_
  rw [hready.pins]
  exact List.mem_map_of_mem he

/-! ## One look-up -/

/-- Names are not looked up in files. -/
theorem run_lookup_of_file (hknown : h.find? dir = some path) (hd : t.find? path = some d)
    (hfile : d.isDir = false) (name : Bytes) (w : ω) :
    (lookup t dir name : Request ω Nat).run (w, h) =
      (.error .notDirectory, (w, (pinning h dir).unpin dir)) := by
  have hentry : t.entryAt path = .ok d := by simp only [Tree.entryAt, hd]
  rw [lookup_eq, run_withPin hknown]
  simp only [hentry, ofTree, Attempt.run_bind, Attempt.run_ofExcept, Attempt.mapError_ok,
    if_pos hfile, Attempt.run_fail]
  rfl

/-- In a directory a name is answered as the tree has it. -/
theorem run_lookup (ht : t.Arranged) (hknown : h.find? dir = some path)
    (hd : t.find? path = some d) (hdir : d.isDir = true) (name : Bytes) (w : ω) :
    (lookup t dir name : Request ω Nat).run (w, h) =
      match t.entered? path (Text.ofUtf8Lossy name) with
      | none => (.error .noEntry, (w, (pinning h dir).unpin dir))
      | some target => (.ok ((pinning h dir).handleFor target).1,
          (w, ((pinning h dir).handleFor target).2.unpin dir)) := by
  have hentry : t.entryAt path = .ok d := by simp only [Tree.entryAt, hd]
  rw [lookup_eq, run_withPin hknown]
  simp only [hentry, ofTree, Attempt.run_bind, Attempt.run_ofExcept, Attempt.mapError_ok, hdir,
    Bool.true_eq_false, if_false]
  cases hsep : (Text.ofUtf8Lossy name).toList.any TreePath.isSeparator with
  | true =>
      have hnone : t.entered? path (Text.ofUtf8Lossy name) = none := by
        rw [Tree.entered?, if_pos hsep]
      rw [hnone]
      rfl
  | false =>
      have hentered := ht.map_path_find?_enter hd hsep
      cases hf : t.find? (path.enter (Text.ofUtf8Lossy name)) with
      | none =>
          have hentry' : t.entryAt (path.enter (Text.ofUtf8Lossy name)) =
              .error (.notFound (path.enter (Text.ofUtf8Lossy name)).render) := by
            simp only [Tree.entryAt, hf]
          rw [hf] at hentered
          rw [← hentered, hentry']
          rfl
      | some e =>
          have hentry' : t.entryAt (path.enter (Text.ofUtf8Lossy name)) = .ok e := by
            simp only [Tree.entryAt, hf]
          rw [hf, Option.map_some, (ht.find?_eq_some_iff.1 hf).2] at hentered
          rw [← hentered, hentry']
          rfl

/-! ## What a listing tells a look-up -/

/-- What has a handle is in the tree. -/
theorem Kept.exists_find? (hh : Kept t h) (hknown : h.find? dir = some path) :
    ∃ d, t.find? path = some d := by
  rcases (find?_eq_some_iff hh.sound).1 hknown with ⟨-, rfl⟩ | hheld
  · rw [hh.root]
    exact ⟨t.root, rfl⟩
  · exact hh.inTree _ hheld

/-- Where a page begins is found out with no change but to what was used last. -/
theorem exists_run_pageStart {pins : List Nat} (hh : Ready dir path pins h)
    (children : List TreeEntry) (cookie : Nat) (w : ω) :
    ∃ r h', (pageStart children cookie : Request ω Nat).run (w, h) = (r, (w, h')) ∧
      Ready dir path pins h' := by
  by_cases hc : cookie = 0
  · subst hc
    exact ⟨_, h, pageStart_zero children _, hh⟩
  · have hlook : (onHandles (·.pathOf cookie) : Request ω _).run (w, h) =
        (.ok (h.find? cookie), (w, h.promote cookie)) := rfl
    rw [pageStart, if_neg hc, Attempt.bind_ok hlook]
    cases h.find? cookie with
    | none => exact ⟨_, _, rfl, hh.promote cookie⟩
    | some p =>
        dsimp only
        cases children.findIdx? (·.path = p) with
        | none => exact ⟨_, _, rfl, hh.promote cookie⟩
        | some i => exact ⟨_, _, rfl, hh.promote cookie⟩

/-- When the pins of a page are dropped, the handle of an entry leads to the entry or is
forgotten. -/
theorem AllPinned.find?_turned {es : List TreeEntry} {r : List NfsDirEntry × Handles}
    (hr : AllPinned path h es r) {x : NfsDirEntry} (hx : x ∈ r.1) {h' : Handles}
    (hh' : h' = ((touch r.2 dir r.1).unpinAll (r.1.map (·.handle))).unpin dir) :
    x.handle < h'.next ∧ ∀ q, h'.find? x.handle = some q → q = path ++ [x.name] := by
  have hbuilt : (touch r.2 dir r.1).Sound := sound_touch hr.sound dir r.1
  have hheld : (x.handle, path ++ [x.name]) ∈ (touch r.2 dir r.1).held :=
    mem_held_touch.2 (hr.held x hx)
  have hless : Session.Below h' (touch r.2 dir r.1) := by
    rw [hh']
    exact (Session.below_unpin _ _).trans (Session.below_unpinAll _ _)
  have hsound : h'.Sound := by
    rw [hh']
    exact hbuilt.unpinAll.unpin dir
  constructor
  · rw [hless.next]
    exact (hbuilt.given _ hheld).2
  · intro q hq
    have hfind := hless.find? hsound hbuilt hq
    rw [(find?_eq_some_iff hbuilt).2 (.inr hheld)] at hfind
    exact (Option.some.inj hfind).symm

/-- The entry that a page shows under a name. -/
theorem exists_of_shows {es : List TreeEntry} {xs : List NfsDirEntry}
    (hshown : List.Forall₂ Shows es xs) {x : NfsDirEntry} (hx : x ∈ xs) :
    ∃ e ∈ es, e.name = x.name := by
  have hmem : x.name ∈ xs.map (·.name) := List.mem_map_of_mem hx
  rw [map_name_of_shows hshown] at hmem
  exact List.mem_map.1 hmem

/-- What a listing reports is in the directory, and its handle leads there as long as it is
known. -/
theorem Kept.page (hh : Kept t h) (ht : t.Arranged) (hknown : h.find? dir = some path)
    {cookie count : Nat} {w w' : ω} {page : NfsPage} {h' : Handles}
    (hrun : (readDirectory t dir cookie count : Request ω NfsPage).run (w, h) =
      (.ok page, (w', h'))) {x : NfsDirEntry} (hx : x ∈ page.entries) :
    (∃ e, t.find? (path ++ [x.name]) = some e) ∧ x.handle < h'.next ∧
      ∀ q, h'.find? x.handle = some q → q = path ++ [x.name] := by
  cases hc : t.childrenOf path with
  | error e =>
      simp only [readDirectory, run_withPin hknown, Attempt.run_bind, ofTree, hc,
        Attempt.run_ofExcept, Attempt.mapError_error, Prod.mk.injEq, reduceCtorEq,
        false_and] at hrun
  | ok children =>
      obtain rfl := eq_children_of_childrenOf ht.root_path hc
      obtain ⟨r, h'', hstart, hready⟩ :=
        exists_run_pageStart (hh.ready_pinning hknown) (t.children path) cookie w
      cases r with
      | error e =>
          unfold pinning at hstart
          simp only [readDirectory, run_withPin hknown, Attempt.run_bind, ofTree, hc,
            Attempt.run_ofExcept, Attempt.mapError_ok, hstart, Prod.mk.injEq, reduceCtorEq,
            false_and] at hrun
      | ok start =>
          rw [readDirectory_eq, Attempt.bind_ok (run_reply hknown hc hstart)] at hrun
          obtain ⟨hpage, hstate⟩ := Prod.mk.inj hrun
          obtain rfl := Except.ok.inj hpage
          have hlisted : ∀ e ∈ ((t.children path).drop start).take count, e ∈ t.children path := by
            intro e he
            exact List.drop_subset _ _ (List.take_subset _ _ he)
          have hr := allPinned hready.sound hready.root fun e he =>
            (ht.path_of_mem_children (hlisted e he)).symm
          refine ⟨?_, hr.find?_turned hx (Prod.mk.inj hstate).2.symm⟩
          obtain ⟨e, he, hname⟩ := exists_of_shows hr.shown hx
          refine ⟨e, ht.find?_eq_some_iff.2 ⟨List.mem_cons_of_mem _ ?_, ?_⟩⟩
          · exact (Tree.mem_children_iff.1 (hlisted e he)).1
          · rw [← hname]
            exact (ht.path_of_mem_children (hlisted e he)).symm

/-- A name that a listing reports is looked up to the handle that it reports, if this is
still known. -/
theorem Kept.run_lookup_of_find? (hh : Kept t h) (ht : t.Arranged)
    (hknown : h.find? dir = some path) {name : String} {e : TreeEntry}
    (he : t.find? (path ++ [name]) = some e) {k : Nat}
    (hk : h.find? k = some (path ++ [name])) (w : ω) :
    ((lookup t dir (Text.utf8 name) : Request ω Nat).run (w, h)).1 = .ok k := by
  obtain ⟨hmem, hpath⟩ := ht.find?_eq_some_iff.1 he
  have hwalk : e ∈ t.walk := by
    refine (List.mem_cons.1 hmem).resolve_left ?_
    rintro rfl
    rw [ht.root_path] at hpath
    exact absurd hpath (List.concat_ne_nil name path).symm
  have hname : TreePath.IsComponent name := by
    refine ht.canonical e hwalk name ?_
    rw [hpath]
    exact List.mem_append_right _ List.mem_cons_self
  obtain ⟨d, hd, hdir⟩ := ht.isDir_of_isPrefix he (List.prefix_append path [name]) (by simp)
  have hfind : (pinning h dir).find? k = some (path ++ [name]) := by
    rw [pinning, Session.find?_addPin, Session.find?_promote hh.sound, hk]
  rw [run_lookup ht hknown hd hdir, Text.ofUtf8Lossy_utf8, ht.entered?_of_isComponent path hname,
    he, Option.map_some, hpath]
  exact congrArg Except.ok (handleFor_of_find? (hh.ready_pinning hknown).sound hfind)

/-! ## Names one after the other -/

/-- Names looked up one after the other lead where the path leads that they make up. -/
theorem Kept.run_descend (hh : Kept t h) (ht : t.Arranged) (hknown : h.find? dir = some path)
    {names : List Bytes} (hnames : ∀ name ∈ names, TreePath.IsComponent (Text.ofUtf8Lossy name))
    (w : ω) :
    match t.find? (path ++ names.map Text.ofUtf8Lossy) with
    | some e => ∃ k h', (names.foldlM (lookup t) dir : Request ω Nat).run (w, h) =
        (.ok k, (w, h')) ∧ h'.find? k = some e.path
    | none => ∃ e, ((names.foldlM (lookup t) dir : Request ω Nat).run (w, h)).1 = .error e := by
  induction names generalizing h dir path with
  | nil =>
      obtain ⟨d, hd⟩ := hh.exists_find? hknown
      rw [List.map_nil, List.append_nil, hd]
      refine ⟨dir, h, rfl, ?_⟩
      rw [hknown, (ht.find?_eq_some_iff.1 hd).2]
  | cons name names ih =>
      obtain ⟨hname, hrest⟩ := List.forall_mem_cons.1 hnames
      obtain ⟨d, hd⟩ := hh.exists_find? hknown
      have hsplit : path ++ (name :: names).map Text.ofUtf8Lossy =
          (path ++ [Text.ofUtf8Lossy name]) ++ names.map Text.ofUtf8Lossy := by
        rw [List.map_cons, List.append_assoc]
        rfl
      rw [hsplit, List.foldlM_cons]
      cases hdir : d.isDir with
      | false =>
          -- below a file there is nothing
          have hnone : t.find? ((path ++ [Text.ofUtf8Lossy name]) ++
              names.map Text.ofUtf8Lossy) = none := by
            refine Option.eq_none_iff_forall_ne_some.2 ?_
            intro e he
            have hpre : path <+: (path ++ [Text.ofUtf8Lossy name]) ++ names.map Text.ofUtf8Lossy :=
              (List.prefix_append _ _).trans (List.prefix_append _ _)
            obtain ⟨d', hd', hdir'⟩ := ht.isDir_of_isPrefix he hpre (by simp)
            rw [hd] at hd'
            obtain rfl := Option.some.inj hd'
            rw [hdir] at hdir'
            cases hdir'
          rw [hnone, Attempt.bind_error (run_lookup_of_file hknown hd hdir name w)]
          exact ⟨_, rfl⟩
      | true =>
          have hrun := run_lookup ht hknown hd hdir name w
          rw [ht.entered?_of_isComponent path hname] at hrun
          cases hf : t.find? (path ++ [Text.ofUtf8Lossy name]) with
          | none =>
              -- what is not there has nothing below it
              have hnone : t.find? ((path ++ [Text.ofUtf8Lossy name]) ++
                  names.map Text.ofUtf8Lossy) = none := by
                refine Option.eq_none_iff_forall_ne_some.2 ?_
                intro e he
                by_cases hlast : names = []
                · subst hlast
                  rw [List.map_nil, List.append_nil, hf] at he
                  cases he
                · obtain ⟨d', hd', -⟩ := ht.isDir_of_isPrefix he (List.prefix_append _ _)
                    (by simpa using hlast)
                  rw [hf] at hd'
                  cases hd'
              rw [hf] at hrun
              rw [hnone, Attempt.bind_error hrun]
              exact ⟨_, rfl⟩
          | some e =>
              rw [hf, Option.map_some, (ht.find?_eq_some_iff.1 hf).2] at hrun
              have hleads := (calling_lookup t dir name).leads w h
              rw [hrun] at hleads
              rw [Attempt.bind_ok hrun]
              exact ih (hh.leads hleads) (hh.known_unpin hknown _).1 hrest

/-! ## The tree by names -/

/-- From every table that requests lead to, a name is looked up as the tree has it: what is
found and the directory are known afterwards, what a listing has reported is found under
the handle that it reported, and names looked up one after the other from the root lead
where the tree finds what they make up. -/
theorem lookup_agrees (locator : Locator) (objectSize : Nat) (records : List EntryRecord)
    (capacity : Nat) {h : Handles}
    (hreached : Leads (Tree.ofRecords locator objectSize records) (.new [] capacity) h)
    {dir : Nat} {path : TreePath} (hknown : h.find? dir = some path) (w : ω) :
    let t := Tree.ofRecords locator objectSize records
    (∃ d, t.find? path = some d ∧ ∀ name : Bytes,
      match d.isDir, t.entered? path (Text.ofUtf8Lossy name) with
      | false, _ => ((lookup t dir name : Request ω Nat).run (w, h)).1 = .error .notDirectory
      | true, none => ((lookup t dir name : Request ω Nat).run (w, h)).1 = .error .noEntry
      | true, some target => ∃ k h', (lookup t dir name : Request ω Nat).run (w, h) =
          (.ok k, (w, h')) ∧ h'.find? k = some target ∧ h'.find? dir = some path) ∧
    (∀ (h₀ h₁ : Handles) (dir₀ cookie count : Nat) (w₀ w₁ : ω) (page : NfsPage),
      Leads t (.new [] capacity) h₀ → h₀.find? dir₀ = some path →
      (readDirectory t dir₀ cookie count : Request ω NfsPage).run (w₀, h₀) =
        (.ok page, (w₁, h₁)) →
      Leads t h₁ h → ∀ x ∈ page.entries, (h.find? x.handle).isSome →
        ((lookup t dir (Text.utf8 x.name) : Request ω Nat).run (w, h)).1 = .ok x.handle) ∧
    (∀ names : List Bytes, (∀ name ∈ names, TreePath.IsComponent (Text.ofUtf8Lossy name)) →
      match t.stat ("/".intercalate (names.map Text.ofUtf8Lossy)) with
      | .ok e => ∃ k h', (names.foldlM (lookup t) rootHandle : Request ω Nat).run (w, h) =
          (.ok k, (w, h')) ∧ h'.find? k = some e.path
      | .error _ => ∃ e,
          ((names.foldlM (lookup t) rootHandle : Request ω Nat).run (w, h)).1 = .error e) := by
  intro t
  have ht : t.Arranged := Tree.arranged_ofRecords locator objectSize records
  have hh : Kept t h := (kept_new t capacity).leads hreached
  refine ⟨?_, ?_, ?_⟩
  · obtain ⟨d, hd⟩ := hh.exists_find? hknown
    refine ⟨d, hd, ?_⟩
    intro name
    cases hdir : d.isDir with
    | false => simp only [run_lookup_of_file hknown hd hdir]
    | true =>
        rw [run_lookup ht hknown hd hdir]
        cases t.entered? path (Text.ofUtf8Lossy name) with
        | none => rfl
        | some target => exact ⟨_, _, rfl, hh.known_unpin hknown target⟩
  · intro h₀ h₁ dir₀ cookie count w₀ w₁ page hreached₀ hknown₀ hrun hleads x hx hsome
    have hh₀ : Kept t h₀ := (kept_new t capacity).leads hreached₀
    have hpage := hh₀.page ht hknown₀ hrun hx
    have hstep := (calling_readDirectory ht dir₀ cookie count).leads w₀ h₀
    rw [hrun] at hstep
    obtain ⟨e, he⟩ := hpage.1
    obtain ⟨q, hq⟩ := Option.isSome_iff_exists.1 hsome
    obtain rfl := hpage.2.2 q (hleads.find?_eq (hh₀.leads hstep) hpage.2.1 hq)
    exact hh.run_lookup_of_find? ht hknown he hq w
  · intro names hnames
    have hroot : h.find? rootHandle = some [] := by
      rw [find?, if_pos rfl, hh.root]
    have hdescend := hh.run_descend ht hroot hnames w
    rw [List.nil_append] at hdescend
    have hstat : t.stat ("/".intercalate (names.map Text.ofUtf8Lossy)) =
        t.entryAt (names.map Text.ofUtf8Lossy) := by
      rw [Tree.stat, TreePath.ofText_intercalate]
      intro c hc
      obtain ⟨name, hname, rfl⟩ := List.mem_map.1 hc
      exact hnames name hname
    rw [hstat, Tree.entryAt]
    cases hf : t.find? (names.map Text.ofUtf8Lossy) with
    | none =>
        rw [hf] at hdescend
        exact hdescend
    | some e =>
        rw [hf] at hdescend
        exact hdescend

/-! A file is looked up with the smallest table, which its directory and a sibling fill. -/
namespace ThreeFiles

def calls : List (Call TreePath) := [.handleFor ["d"], .handleFor ["d", "a"]]

/-- The directory has the handle 2, and one of its files has the handle 3. -/
def handles : Handles := ((Session.resume (.new [] 0)).run calls).table

theorem leads_handles : Leads tree (.new [] 0) handles := by
  refine ⟨calls, ?_, rfl, rfl⟩
  have hd : ∃ e, tree.find? ["d"] = some e := by
    simp [Tree.find?, entries_tree, entries, TreeEntry.synthetic]
  have ha : ∃ e, tree.find? ["d", "a"] = some e := by
    simp [Tree.find?, entries_tree, entries, TreeEntry.synthetic, TreeEntry.ofRecord]
  simpa [calls, Within] using ⟨hd, ha⟩

theorem entered?_tree : tree.entered? ["d"] "b" = some ["d", "b"] := by
  simp only [Tree.entered?, Tree.children, entries_tree]
  decide +kernel

theorem second_file_looked_up : ∃ k h,
    (lookup tree 2 (Text.utf8 "b") : Request Unit Nat).run ((), handles) = (.ok k, ((), h)) ∧
      h.find? k = some ["d", "b"] ∧ h.find? 2 = some ["d"] := by
  have hknown : handles.find? 2 = some ["d"] := by decide
  obtain ⟨⟨d, hd, hlookup⟩, -⟩ := lookup_agrees locator 0 records 0 leads_handles hknown ()
  have hdir : d.isDir = true := by
    have hfind : tree.find? ["d"] = some (.synthetic ["d"] 0) := by
      simp only [Tree.find?, entries_tree]
      rfl
    obtain rfl := Option.some.inj (hfind.symm.trans hd)
    rfl
  have hb := hlookup (Text.utf8 "b")
  rw [hdir, Text.ofUtf8Lossy_utf8] at hb
  have hentered : (Tree.ofRecords locator 0 records).entered? ["d"] "b" = some ["d", "b"] :=
    entered?_tree
  rw [hentered] at hb
  exact hb

end ThreeFiles

end Nfs

end ArchiveMount
