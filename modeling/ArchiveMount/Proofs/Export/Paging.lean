/-
# `ArchiveMount.Proofs.Export.Paging` — a listing page by page

A client reads a directory page by page, each page from the last entry of the one before.
`At` is what holds between two requests: no pin is left, and the directory and the last
entry are still known.  Each page keeps it (`At.page`), so the pages put together list
what the directory holds (`At.run_browse`), and `browse_lists_children` says so of every
tree and every table.
-/
import ArchiveMount.Proofs.Export.Reply
import ArchiveMount.Proofs.Tree.Content
import Mathlib.Algebra.GroupWithZero.Nat
import Mathlib.Data.List.Permutation

namespace ArchiveMount

namespace Nfs

open HandleTable

variable {ω : Type}

/-! ## From page to page -/

/-- The pages a client gets that asks for the next one until it has the last. -/
def browse (t : Tree) (dir : Nat) : List Nat → Nat → Request ω (List Reply)
  | [], _ => pure []
  | count :: counts, cookie => do
    let r ← reply t dir cookie count
    if r.page.done then return [r]
    let rest ← browse t dir counts ((r.page.entries.getLast?.map (·.handle)).getD cookie)
    return r :: rest

/-- Each entry has a handle of its own, which leads to it until its pin is dropped. -/
structure Reply.Resolves (r : Reply) (path : TreePath) : Prop where
  distinct : (r.page.entries.map (·.handle)).Nodup
  resolved : ∀ n, ∀ x ∈ r.page.entries.drop n, (r.after n).find? x.handle = some (path ++ [x.name])

/-- Between two requests: the next page begins after the first entries, the last of which
has the cookie for its handle. -/
structure At (dir : Nat) (path : TreePath) (children : List TreeEntry) (start cookie : Nat)
    (h : Handles) : Prop where
  ready : Ready dir path [] h
  place : (start = 0 ∧ cookie = 0) ∨ ∃ i e, start = i + 1 ∧ cookie ≠ 0 ∧ children[i]? = some e ∧
    h.find? cookie = some e.path

section Browse

variable {t : Tree} {dir cookie start : Nat} {path : TreePath} {children : List TreeEntry}
  {h : Handles}

/-- The last entry of a page shows the last of what it lists. -/
theorem getElem?_of_shows {es : List TreeEntry} {xs : List NfsDirEntry}
    (hshown : List.Forall₂ Shows es xs) {last : NfsDirEntry} (hlast : xs.getLast? = some last) :
    ∃ e, es[xs.length - 1]? = some e ∧ last.name = e.name := by
  induction hshown with
  | nil => cases hlast
  | @cons e x es xs hd htail ih =>
      cases xs with
      | nil =>
          obtain rfl := Option.some.inj hlast
          exact ⟨e, rfl, hd.1⟩
      | cons y ys => exact ih (by rwa [List.getLast?_cons_cons] at hlast)

/-- A request can begin where the one before ended. -/
theorem At.run_pageStart (hat : At dir path children start cookie h)
    (hnodup : (children.map (·.path)).Nodup) (w : ω) :
    ∃ h', (pageStart children cookie : Request ω Nat).run (w, (h.promote dir).addPin dir) =
        (.ok start, (w, h')) ∧ Ready dir path ((own dir path).map (·.1)) h' := by
  have hready := (hat.ready.promote dir).addPin
  rcases hat.place with ⟨rfl, rfl⟩ | ⟨i, e, rfl, hne, he, hfind⟩
  · exact ⟨_, pageStart_zero children _, hready⟩
  · obtain ⟨hi, rfl⟩ := List.getElem?_eq_some_iff.1 he
    refine ⟨_, pageStart_of_find? hne hnodup hi ?_, hready.promote cookie⟩
    rw [Session.find?_addPin, Session.find?_promote hat.ready.sound]
    exact hfind

/-- One page, and where the next one begins. -/
theorem At.page (hat : At dir path children start cookie h)
    (hchildren : t.childrenOf path = .ok children) (hbelow : ∀ e ∈ children, Below path e)
    (hnodup : (children.map (·.path)).Nodup) (count : Nat) (w : ω) :
    ∃ r h', (reply t dir cookie count : Request ω Reply).run (w, h) = (.ok r, (w, h')) ∧
      List.Forall₂ Shows ((children.drop start).take count) r.page.entries ∧
      r.page.done = decide (children.length ≤ start + r.page.entries.length) ∧
      r.Resolves path ∧
      ∀ last, r.page.entries.getLast? = some last →
        At dir path children (start + r.page.entries.length) last.handle h' := by
  obtain ⟨h', hstart, hready⟩ := hat.run_pageStart hnodup w
  have hchunk : ((children.drop start).take count).Sublist children :=
    (List.take_sublist _ _).trans (List.drop_sublist _ _)
  have hr := allPinned hready.sound hready.root fun e he => hbelow e (hchunk.subset he)
  have hnames : (((children.drop start).take count).map (·.name)).Nodup := by
    have hpaths : children.map (·.path) =
        (children.map (·.name)).map fun name => path ++ [name] := by
      rw [List.map_map]
      exact List.map_congr_left hbelow
    rw [hpaths] at hnodup
    exact (List.Nodup.of_map _ hnodup).sublist (hchunk.map _)
  have hturned := turned hr hready
  refine ⟨_, _, run_reply hat.ready.known hchildren hstart, hr.shown, rfl,
    ⟨hr.nodup hnames, fun n x hx => ?_⟩, fun last hlast => ⟨hturned, .inr ?_⟩⟩
  · exact (find?_eq_some_iff (sound_touch hr.sound _ _).unpinAll).2
      (.inr (held_unpinAll hr hready n hx))
  · obtain ⟨e, he, hname⟩ := getElem?_of_shows hr.shown hlast
    have hlen : 0 < (pinAll ((children.drop start).take count) h').1.length :=
      List.length_pos_of_mem (List.mem_of_getLast? hlast)
    rw [List.getElem?_take, List.getElem?_drop] at he
    split at he
    case isFalse => cases he
    have hheld := (suffix_turned hr hready).subset (List.mem_append_right _ (by
      rw [hlast]
      exact List.mem_cons_self))
    refine ⟨_, e, ?_, ?_, he, ?_⟩
    · show start + (pinAll ((children.drop start).take count) h').1.length = _
      omega
    · have hgiven := (hturned.sound.given _ hheld).1
      exact Nat.ne_of_gt (Nat.lt_trans Nat.zero_lt_one hgiven)
    · rw [find?_eq_some_iff hturned.sound, hbelow e (List.mem_of_getElem? he), ← hname]
      exact .inr hheld

/-- Replies that list what follows the first entries, as far as the counts go. -/
structure Lists (path : TreePath) (children : List TreeEntry) (start : Nat) (counts : List Nat)
    (rs : List Reply) : Prop where
  shown : List.Forall₂ Shows ((children.drop start).take counts.sum) (rs.flatMap (·.page.entries))
  done : ∀ i r, rs[i]? = some r → (r.page.done = true ↔
    children.length ≤ start + ((rs.take (i + 1)).flatMap (·.page.entries)).length)
  resolves : ∀ r ∈ rs, r.Resolves path
  ends : counts ≠ [] → children.length ≤ start + counts.sum →
    ∃ r, rs.getLast? = some r ∧ r.page.done = true

theorem lists_nil : Lists path children start [] [] where
  shown := .nil
  done := fun _ _ h => nomatch h
  resolves := fun _ h => nomatch h
  ends := fun h => absurd rfl h

section OnePage

variable {count : Nat} {counts : List Nat} {r : Reply} {rs : List Reply}

/-- Done are the pages that reach the last entry. -/
theorem done_iff (hdone : r.page.done = decide (children.length ≤ start + r.page.entries.length)) :
    r.page.done = true ↔
      children.length ≤ start + (((r :: rs).take 1).flatMap (·.page.entries)).length := by
  rw [hdone, decide_eq_true_iff, List.take_succ_cons, List.take_zero, List.flatMap_singleton]

theorem length_entries (hshown : List.Forall₂ Shows ((children.drop start).take count)
    r.page.entries) : r.page.entries.length = min count (children.length - start) := by
  rw [← hshown.length_eq, List.length_take, List.length_drop]

/-- The last page. -/
theorem lists_last (hshown : List.Forall₂ Shows ((children.drop start).take count) r.page.entries)
    (hdone : r.page.done = decide (children.length ≤ start + r.page.entries.length))
    (hresolves : r.Resolves path) (hd : r.page.done = true) :
    Lists path children start (count :: counts) [r] where
  shown := by
    have hlen := length_entries hshown
    rw [hd] at hdone
    have hle := of_decide_eq_true hdone.symm
    have hall : ∀ n, count ≤ n → (children.drop start).take n = children.drop start := fun n hn =>
      List.take_of_length_le (by rw [List.length_drop]; omega)
    rw [List.sum_cons, hall _ (Nat.le_add_right _ _), List.flatMap_singleton]
    rwa [hall count (Nat.le_refl _)] at hshown
  done := fun i r' hr => by
    cases i with
    | zero =>
        obtain rfl := Option.some.inj hr
        exact done_iff hdone
    | succ i => cases hr
  resolves := fun r' hr => by
    rw [List.mem_singleton.1 hr]
    exact hresolves
  ends := fun _ _ => ⟨r, rfl, hd⟩

/-- A page before others. -/
theorem lists_cons (hshown : List.Forall₂ Shows ((children.drop start).take count) r.page.entries)
    (hdone : r.page.done = decide (children.length ≤ start + r.page.entries.length))
    (hresolves : r.Resolves path) (hd : r.page.done = false)
    (hrest : Lists path children (start + r.page.entries.length) counts rs) :
    Lists path children start (count :: counts) (r :: rs) where
  shown := by
    have hlen := length_entries hshown
    rw [hd] at hdone
    have hlt := of_decide_eq_false hdone.symm
    have hcount : r.page.entries.length = count := by omega
    rw [List.sum_cons, List.take_add, List.drop_drop, List.flatMap_cons]
    exact List.rel_append hshown (hcount ▸ hrest.shown)
  done := fun i r' hr => by
    cases i with
    | zero =>
        obtain rfl := Option.some.inj hr
        exact done_iff hdone
    | succ i =>
        rw [List.take_succ_cons, List.flatMap_cons, List.length_append, ← Nat.add_assoc]
        exact hrest.done i r' hr
  resolves := fun r' hr => by
    rcases List.mem_cons.1 hr with rfl | hr
    · exact hresolves
    · exact hrest.resolves r' hr
  ends := fun _ hle => by
    have hlen := length_entries hshown
    rw [hd] at hdone
    have hlt := of_decide_eq_false hdone.symm
    rw [List.sum_cons] at hle
    have hne : counts ≠ [] := by
      rintro rfl
      rw [List.sum_nil] at hle
      omega
    obtain ⟨r', hlast, hdone'⟩ := hrest.ends hne (by omega)
    refine ⟨r', ?_, hdone'⟩
    cases rs with
    | nil => cases hlast
    | cons r'' rs => rwa [List.getLast?_cons_cons]

end OnePage

/-- What a client gets that begins after the first entries. -/
theorem At.run_browse (hchildren : t.childrenOf path = .ok children)
    (hbelow : ∀ e ∈ children, Below path e) (hnodup : (children.map (·.path)).Nodup) (w : ω)
    {counts : List Nat} (hcounts : ∀ c ∈ counts, 1 ≤ c)
    (hat : At dir path children start cookie h) :
    ∃ rs h', (browse t dir counts cookie : Request ω (List Reply)).run (w, h) = (.ok rs, (w, h')) ∧
      Lists path children start counts rs := by
  induction counts generalizing start cookie h with
  | nil => exact ⟨[], h, rfl, lists_nil⟩
  | cons count counts ih =>
      obtain ⟨r, h', hrun, hshown, hdone, hresolves, hnext⟩ :=
        hat.page hchildren hbelow hnodup count w
      have hbrowse := Attempt.bind_ok hrun fun r => do
        if r.page.done then return [r]
        let rest ← browse t dir counts ((r.page.entries.getLast?.map (·.handle)).getD cookie)
        return r :: rest
      cases hd : r.page.done with
      | true =>
          refine ⟨[r], h', hbrowse.trans ?_, lists_last hshown hdone hresolves hd⟩
          rw [hd]
          rfl
      | false =>
          have hlen := length_entries hshown
          have hlt : ¬ children.length ≤ start + r.page.entries.length := by
            rw [hd] at hdone
            exact of_decide_eq_false hdone.symm
          have hpos := hcounts count List.mem_cons_self
          obtain ⟨last, hlast⟩ := Option.isSome_iff_exists.1 (List.getLast?_isSome.2
            (List.ne_nil_of_length_pos (show 0 < r.page.entries.length by omega)))
          obtain ⟨rs, h'', hrest, hlists⟩ := ih (fun c hc => hcounts c (List.mem_cons_of_mem _ hc))
            (hnext last hlast)
          refine ⟨r :: rs, h'', hbrowse.trans ?_, lists_cons hshown hdone hresolves hd hlists⟩
          rw [hd, hlast]
          exact Attempt.bind_ok hrest _

end Browse

/-! ## The directories of a tree -/

section Children

variable {t : Tree} {path : TreePath} {children : List TreeEntry}

/-- What a tree finds at a path has this path. -/
theorem path_of_find? (hroot : t.root.path = []) {e : TreeEntry} (he : t.find? path = some e) :
    e.path = path := by
  unfold Tree.find? at he
  split at he
  · rename_i hp
    rw [← Option.some.inj he, hp, hroot]
  · simpa using List.find?_some he

theorem eq_children_of_childrenOf (hroot : t.root.path = [])
    (hchildren : t.childrenOf path = .ok children) : children = t.children path := by
  unfold Tree.childrenOf Tree.entryAt at hchildren
  cases he : t.find? path with
  | none =>
      rw [he] at hchildren
      cases hchildren
  | some e =>
      rw [he] at hchildren
      have hpath := path_of_find? hroot he
      have hif : (if e.isDir = true then .ok (t.children e.path)
          else .error (.notDirectory e.path)) =
        (.ok children : Except TreeError (List TreeEntry)) := hchildren
      split at hif
      · rw [← Except.ok.inj hif, hpath]
      · cases hif

theorem below_of_mem_children {locator : Locator} {objectSize : Nat} {records : List EntryRecord}
    {e : TreeEntry} (he : e ∈ (Tree.ofRecords locator objectSize records).children path) :
    Below path e := by
  obtain ⟨hmem, hparent⟩ := List.mem_filter.1 he
  have hne : e.path ≠ [] := (Assembly.mem_assemble_iff.1 hmem).1.1
  have hparent : e.path.parent = path := by simpa using hparent
  show e.path = path ++ [e.path.getLastD ""]
  rw [← hparent, List.getLastD_eq_getLast?, List.getLast?_eq_some_getLast hne]
  exact (List.dropLast_append_getLast hne).symm

end Children

/-! ## Paging -/

/-- A client that reads a directory page by page, from any table that a run of calls leaves
without pins: it gets all children in order, the last page is the one that says so, and
the handles of every reply lead to their entries as long as their pins are held. -/
theorem browse_lists_children (locator : Locator) (objectSize : Nat) (records : List EntryRecord)
    (capacity : Nat) (calls : List (Call TreePath))
    (hlive : ((Session.start [] capacity).run calls).live = []) {dir : Nat} {path : TreePath}
    (hknown : ((Session.start [] capacity).run calls).table.find? dir = some path)
    {children : List TreeEntry}
    (hchildren : (Tree.ofRecords locator objectSize records).childrenOf path = .ok children)
    {counts : List Nat} (hcounts : ∀ c ∈ counts, 1 ≤ c) (w : ω) :
    let t := Tree.ofRecords locator objectSize records
    (∀ cookie count, (readDirectory t dir cookie count : Request ω NfsPage) = do
      let r ← reply t dir cookie count
      return r.page) ∧
    (children.map (·.path)).Nodup ∧ (∀ e ∈ children, Below path e) ∧
    ∃ rs h, (browse t dir counts 0 : Request ω (List Reply)).run
        (w, ((Session.start [] capacity).run calls).table) = (.ok rs, (w, h)) ∧
      Lists path children 0 counts rs := by
  intro t
  have hs := Session.consistent_run (Session.consistent_start [] capacity) calls
  have hl := Session.later_run (Session.consistent_start [] capacity) calls
  obtain rfl := eq_children_of_childrenOf rfl hchildren
  have hbelow : ∀ e ∈ t.children path, Below path e := fun e he => below_of_mem_children he
  have hnodup : ((t.children path).map (·.path)).Nodup :=
    (Assembly.nodup_path_assemble records).sublist (List.filter_sublist.map _)
  have hready : Ready dir path [] ((Session.start [] capacity).run calls).table := by
    refine ⟨hs.sound, hl.root, ?_, ?_, hknown⟩
    · rw [hl.capacity]
      exact Nat.le_max_right _ _
    · refine List.eq_nil_iff_forall_not_mem.2 fun k hk => ?_
      have hmem := (Session.mem_pins_iff hs).1 hk
      rw [Session.pinned, hlive] at hmem
      cases hmem
  exact ⟨readDirectory_eq t dir, hnodup, hbelow,
    At.run_browse hchildren hbelow hnodup w hcounts ⟨hready, .inl ⟨rfl, rfl⟩⟩⟩

/-! Three files in a directory, read by pages of two with the smallest table. -/
namespace ThreeFiles

def record (name : String) : EntryRecord where
  name := name
  isDir := false
  size := 0
  compressedSize := 0
  crc32 := 0
  compression := .stored
  headerOffset := 0
  modified := 0
  unixMode := none
  encrypted := false

def locator : Locator := ⟨"mem", some { host := "bucket" }, ["a.zip"], none, none⟩

def records : List EntryRecord := [record "d/a", record "d/b", record "d/c"]

def tree : Tree := Tree.ofRecords locator 0 records

/-- The files, each after its directory. -/
def mentions : List Assembly.Mention :=
  [(["d"], none), (["d", "a"], some (record "d/a")), (["d"], none),
    (["d", "b"], some (record "d/b")), (["d"], none), (["d", "c"], some (record "d/c"))]

/-- The directory and its files. -/
def entries : List TreeEntry :=
  [.synthetic ["d"] 0, .ofRecord ["d", "a"] (record "d/a"), .ofRecord ["d", "b"] (record "d/b"),
    .ofRecord ["d", "c"] (record "d/c")]

theorem sorted_mentions : mentions.mergeSort (fun a b => a.1.le b.1) =
    [(["d"], none), (["d"], none), (["d"], none), (["d", "a"], some (record "d/a")),
      (["d", "b"], some (record "d/b")), (["d", "c"], some (record "d/c"))] := by
  cbv

theorem entries_tree : tree.entries = entries := by
  have hmentions : records.flatMap Assembly.mentions = mentions := by decide +kernel
  show Assembly.entries _ (((records.flatMap Assembly.mentions).mergeSort _).foldr _ []) = entries
  rw [hmentions, sorted_mentions]
  decide +kernel

theorem childrenOf_tree : tree.childrenOf ["d"] = .ok (entries.drop 1) := by
  simp only [Tree.childrenOf, Tree.entryAt, Tree.find?, Tree.children, entries_tree]
  rfl

theorem three_files_listed : ∃ rs h, (browse tree 2 [2, 2] 0 : Request Unit (List Reply)).run
    ((), ((Session.start [] 0).run [.handleFor ["d"]]).table) = (.ok rs, ((), h)) ∧
      Lists ["d"] (entries.drop 1) 0 [2, 2] rs :=
  (browse_lists_children locator 0 records 0 [.handleFor ["d"]] rfl (by decide +kernel)
    childrenOf_tree (by decide) ()).2.2.2

end ThreeFiles

end Nfs

end ArchiveMount
