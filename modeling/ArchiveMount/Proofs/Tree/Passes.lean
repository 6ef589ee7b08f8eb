/-
# `ArchiveMount.Proofs.Tree.Passes` — the tree in three passes

The entries of a tree can be put together in three passes over maps that are kept in the order
of the bytes of the paths.  The first takes one record after the other, of which the last one
for a path stays.  The second goes up from each entry and notes the ancestors, until it meets
one that is noted already; it may stop there, as with a path all its ancestors have been noted
(`mem_ascend_iff`).  The third puts a directory at every noted path where there is none.

What is found at a path after each pass is `find?_gather`, `mem_directories_iff` and
`find?_settle`.  Together the passes give the entries that `assemble` gives in the order of a
walk (`arrange_eq_byBytes`), and the arena of a tree is filled from them
(`arena_ofRecords`).
-/
import ArchiveMount.Proofs.Tree.Arena
import ArchiveMount.Proofs.Tree.Normalization
import Mathlib.Data.List.Induction

namespace ArchiveMount

/-- Before by the bytes of the whole paths. -/
def TreeEntry.BytesBefore (a b : TreeEntry) : Prop :=
  Text.utf8 a.path.render < Text.utf8 b.path.render

instance : Std.Irrefl TreeEntry.BytesBefore := ⟨fun _ => List.lt_irrefl _⟩

instance : Std.Antisymm TreeEntry.BytesBefore :=
  ⟨fun _ _ hab hba => absurd hba (List.lt_asymm hab)⟩

namespace Passes

/-! ## The passes -/

/-- Put something where it belongs by the bytes of its path, in the place of what has this
path. -/
def put {α : Type} (path : α → TreePath) (x : α) : List α → List α
  | [] => [x]
  | y :: ys =>
    if path x = path y then x :: ys
    else if Text.utf8 (path x).render < Text.utf8 (path y).render then x :: y :: ys
    else y :: put path x ys

/-- The first pass: the entry of each accepted record, in the place of an earlier one. -/
def gather (records : List EntryRecord) : List TreeEntry :=
  records.foldl (fun found r =>
    match Assembly.acceptedPath? r with
    | none => found
    | some p => put TreeEntry.path (.ofRecord p r) found) []

/-- Note a path and its ancestors below the root, up to the first that is noted already. -/
def ascend (noted : List TreePath) (p : TreePath) : List TreePath :=
  if p = [] ∨ p ∈ noted then noted else ascend (put id p noted) p.parent
termination_by p.length
decreasing_by
  rename_i h
  have hpos : 0 < p.length := List.length_pos_iff.2 fun hp => h (.inl hp)
  rw [TreePath.parent, List.length_dropLast]
  omega

/-- Note what an entry says of directories. -/
def note (noted : List TreePath) (e : TreeEntry) : List TreePath :=
  ascend (if e.isDir then put id e.path noted else noted) e.path.parent

/-- The second pass: the paths at which directories have to stand. -/
def directories (found : List TreeEntry) : List TreePath := found.foldl note []

/-- Put a directory at a path, unless there is one. -/
def settleAt (time : Nat) (found : List TreeEntry) (p : TreePath) : List TreeEntry :=
  match found.find? (·.path = p) with
  | some e => if e.isDir then found else put TreeEntry.path (.synthetic p time) found
  | none => put TreeEntry.path (.synthetic p time) found

/-- The third pass. -/
def settle (time : Nat) (found : List TreeEntry) (noted : List TreePath) : List TreeEntry :=
  noted.foldl (settleAt time) found

/-- All three. -/
def arrange (records : List EntryRecord) : List TreeEntry :=
  let found := gather records
  settle (latest records) found (directories found)

/-! ## Maps -/

section Maps

variable {α : Type} {path : α → TreePath} {x y : α} {ys : List α} {p q : TreePath}

theorem find?_cons_at (path : α → TreePath) (y : α) (ys : List α) (p : TreePath) :
    (y :: ys).find? (path · = p) = if path y = p then some y else ys.find? (path · = p) := by
  rw [List.find?_cons]
  by_cases hy : path y = p <;> simp [hy]

/-- What was put in is found at its path, and at all other paths what was found before. -/
theorem find?_put (path : α → TreePath) (x : α) (ys : List α) (p : TreePath) :
    (put path x ys).find? (path · = p) = if path x = p then some x else ys.find? (path · = p) := by
  induction ys with
  | nil => exact find?_cons_at path x [] p
  | cons y ys ih =>
      rw [put, find?_cons_at path y]
      by_cases hsame : path x = path y
      · rw [if_pos hsame, find?_cons_at, hsame]
        split_ifs <;> rfl
      · rw [if_neg hsame]
        split_ifs with hbefore hx hy hx hy
        · rw [find?_cons_at, if_pos hx]
        · rw [find?_cons_at, if_neg hx, find?_cons_at, if_pos hy]
        · rw [find?_cons_at, if_neg hx, find?_cons_at, if_neg hy]
        · have hne : path y ≠ p := fun hy => hsame (hx.trans hy.symm)
          rw [find?_cons_at, if_neg hne, ih, if_pos hx]
        · rw [find?_cons_at, if_pos hy]
        · rw [find?_cons_at, if_neg hy, ih, if_neg hx]

theorem mem_of_mem_put (h : y ∈ put path x ys) : y = x ∨ y ∈ ys := by
  induction ys with
  | nil => exact .inl (List.mem_singleton.1 h)
  | cons z ys ih =>
      rw [put] at h
      split_ifs at h
      · rcases List.mem_cons.1 h with rfl | h
        · exact .inl rfl
        · exact .inr (List.mem_cons_of_mem _ h)
      · exact List.mem_cons.1 h
      · rcases List.mem_cons.1 h with rfl | h
        · exact .inr List.mem_cons_self
        · exact (ih h).imp_right (List.mem_cons_of_mem _)

/-- A set of paths has one more. -/
theorem mem_put_id_iff {noted : List TreePath} : q ∈ put id p noted ↔ q = p ∨ q ∈ noted := by
  have hfound : ∀ ps : List TreePath, (ps.find? (id · = q)).isSome = true ↔ q ∈ ps := by
    intro ps
    simp [List.find?_isSome]
  rw [← hfound, find?_put, ← hfound noted, id_eq]
  by_cases hp : p = q
  · simp [hp]
  · have hq : q ≠ p := Ne.symm hp
    simp [hp, hq]

end Maps

/-! ## Maps of entries in order -/

/-- Entries at paths that are fit to stand in a tree, in strict order of their bytes. -/
structure Orderly (found : List TreeEntry) : Prop where
  sorted : found.Pairwise TreeEntry.BytesBefore
  canonical : ∀ e ∈ found, TreePath.Canonical e.path
  ne_nil : ∀ e ∈ found, e.path ≠ []

theorem orderly_nil : Orderly [] := ⟨.nil, by simp, by simp⟩

/-- Paths that are not equal are not equal in their bytes. -/
theorem utf8_render_ne {p q : TreePath} (hp : p.Canonical) (hq : q.Canonical) (h : p ≠ q) :
    Text.utf8 p.render ≠ Text.utf8 q.render :=
  fun hbytes => h (TreePath.render_inj hp hq (Text.utf8_injective hbytes))

namespace Orderly

variable {found : List TreeEntry} {d e : TreeEntry} {time : Nat} {p q : TreePath}

theorem put (h : Orderly found) (he : e.path.Canonical) (hne : e.path ≠ []) :
    Orderly (put TreeEntry.path e found) := by
  have hmem : ∀ {P : TreeEntry → Prop} {ds : List TreeEntry}, P e → (∀ d ∈ ds, P d) →
      ∀ d ∈ Passes.put TreeEntry.path e ds, P d := by
    intro P ds hP hds d hd
    rcases mem_of_mem_put hd with rfl | hd
    · exact hP
    · exact hds d hd
  refine ⟨?_, hmem he h.canonical, hmem hne h.ne_nil⟩
  obtain ⟨hsorted, hcanonical, -⟩ := h
  induction found with
  | nil => exact List.pairwise_singleton _ _
  | cons d found ih =>
      obtain ⟨hd, hrest⟩ := List.pairwise_cons.1 hsorted
      rw [Passes.put]
      split_ifs with hsame hbefore
      · simp only [TreeEntry.BytesBefore, ← hsame] at hd
        exact List.pairwise_cons.2 ⟨hd, hrest⟩
      · refine List.pairwise_cons.2 ⟨fun f hf => ?_, hsorted⟩
        rcases List.mem_cons.1 hf with rfl | hf
        · exact hbefore
        · exact List.lt_trans hbefore (hd f hf)
      · have hcd := hcanonical d List.mem_cons_self
        have hlt : Text.utf8 d.path.render < Text.utf8 e.path.render :=
          Std.lt_of_le_of_ne hbefore (utf8_render_ne hcd he (Ne.symm hsame))
        refine List.pairwise_cons.2 ⟨hmem hlt hd, ih hrest ?_⟩
        intro f hf
        exact hcanonical f (List.mem_cons_of_mem _ hf)

/-- An entry is what is found at its path. -/
theorem mem_iff (h : Orderly found) : e ∈ found ↔ found.find? (·.path = e.path) = some e := by
  constructor
  · intro he
    cases hf : found.find? (·.path = e.path) with
    | none =>
        have hne := List.find?_eq_none.1 hf e he
        simp at hne
    | some d =>
        have hpath : d.path = e.path := by simpa using List.find?_some hf
        have hnodup : (found.map (·.path)).Nodup := by
          refine List.pairwise_map.2 (h.sorted.imp fun hlt heq => ?_)
          rw [TreeEntry.BytesBefore, heq] at hlt
          exact List.lt_irrefl _ hlt
        rw [List.inj_on_of_nodup_map hnodup (List.mem_of_find?_eq_some hf) he hpath]
  · exact List.mem_of_find?_eq_some

end Orderly

/-! ## The first pass -/

variable {records : List EntryRecord} {found : List TreeEntry} {e : TreeEntry} {time : Nat}
  {p q : TreePath}

theorem gather_concat (records : List EntryRecord) (r : EntryRecord) :
    gather (records ++ [r]) = match Assembly.acceptedPath? r with
      | none => gather records
      | some p => put TreeEntry.path (.ofRecord p r) (gather records) := by
  rw [gather, List.foldl_append]
  rfl

theorem lastAt_concat (records : List EntryRecord) (r : EntryRecord) (p : TreePath) :
    lastAt (records ++ [r]) p =
      if Assembly.acceptedPath? r = some p then some r else lastAt records p := by
  rw [Assembly.lastAt_eq, Assembly.lastAt_eq, List.filter_append]
  split_ifs with hr <;> simp [hr]

/-- At a path stands the entry of its last record. -/
theorem find?_gather (records : List EntryRecord) (p : TreePath) :
    (gather records).find? (·.path = p) = (lastAt records p).map (.ofRecord p) := by
  induction records using List.reverseRecOn with
  | nil => rfl
  | append_singleton records r ih =>
      rw [gather_concat, lastAt_concat]
      cases hr : Assembly.acceptedPath? r with
      | none => exact ih
      | some q =>
          have hpath : (TreeEntry.ofRecord q r).path = q := rfl
          dsimp only
          rw [find?_put, ih, hpath]
          by_cases hq : q = p <;> simp [hq]

theorem orderly_gather (records : List EntryRecord) : Orderly (gather records) := by
  induction records using List.reverseRecOn with
  | nil => exact orderly_nil
  | append_singleton records r ih =>
      rw [gather_concat]
      cases hr : Assembly.acceptedPath? r with
      | none => exact ih
      | some q =>
          obtain ⟨-, rfl⟩ := Assembly.acceptedPath?_eq_some_iff.1 hr
          exact ih.put (TreePath.canonical_ofText r.name) (Assembly.acceptedPath?_ne_nil hr)

/-! ## The second pass -/

/-- With a path all its ancestors below the root are noted. -/
def Closed (noted : List TreePath) : Prop := ∀ p ∈ noted, ∀ q, q ≠ [] → q <+: p → q ∈ noted

/-- Going up may stop at a path that is noted, if the ancestors of the paths noted on the way are
noted. -/
theorem mem_ascend_iff {noted : List TreePath}
    (h : ∀ a ∈ noted, a <+: p → ∀ q, q ≠ [] → q <+: a → q ∈ noted) :
    q ∈ ascend noted p ↔ q ∈ noted ∨ q ≠ [] ∧ q <+: p := by
  induction p using List.reverseRecOn generalizing noted with
  | nil =>
      rw [ascend, if_pos (.inl rfl), List.prefix_nil]
      simp
  | append_singleton p c ih =>
      rw [ascend]
      split_ifs with hstop
      · have hnoted : p ++ [c] ∈ noted := hstop.resolve_left (List.concat_ne_nil c p)
        refine ⟨.inl, ?_⟩
        rintro (hq | ⟨hq, hpre⟩)
        · exact hq
        · exact h _ hnoted (List.prefix_refl _) q hq hpre
      · rw [TreePath.parent_concat, ih, mem_put_id_iff, List.prefix_concat_iff]
        · have hne : q = p ++ [c] → q ≠ [] := by
            rintro rfl
            exact List.concat_ne_nil c p
          tauto
        · intro a ha hpre r hr hra
          refine mem_put_id_iff.2 (.inr ?_)
          rcases mem_put_id_iff.1 ha with rfl | ha
          · have hlen := hpre.length_le
            rw [List.length_append, List.length_singleton] at hlen
            omega
          · exact h a ha (hpre.trans (List.prefix_append p [c])) r hr hra

/-- What an entry says of directories: its own path if it is one, and its ancestors. -/
def Notes (e : TreeEntry) (q : TreePath) : Prop :=
  (e.isDir = true ∧ q = e.path) ∨ (q ≠ [] ∧ q <+: e.path.parent)

theorem mem_note_iff {noted : List TreePath} (h : Closed noted) (he : e.path ≠ []) :
    q ∈ note noted e ↔ q ∈ noted ∨ Notes e q := by
  have hown : ∀ {p}, p ∈ (if e.isDir then put id e.path noted else noted) ↔
      p ∈ noted ∨ e.isDir = true ∧ p = e.path := by
    intro p
    split_ifs with hdir
    · rw [mem_put_id_iff]
      simp [hdir, or_comm]
    · simp [hdir]
  rw [note, mem_ascend_iff, hown, Notes, or_assoc]
  -- the path of the entry itself is no ancestor of it
  intro a ha hpre r hr hra
  refine hown.2 (.inl ?_)
  rcases hown.1 ha with ha | ⟨-, rfl⟩
  · exact h a ha r hr hra
  · have hlen := hpre.length_le
    rw [TreePath.parent, List.length_dropLast] at hlen
    have hpos := List.length_pos_iff.2 he
    omega

theorem isPrefix_parent (hpre : q <+: p) (hne : q ≠ p) : q <+: p.parent := by
  have hp : p ≠ [] := by
    rintro rfl
    exact hne (List.prefix_nil.1 hpre)
  rw [← TreePath.parent_append_name hp, List.prefix_concat_iff,
    TreePath.parent_append_name hp] at hpre
  exact hpre.resolve_left hne

theorem closed_note {noted : List TreePath} (h : Closed noted) (he : e.path ≠ []) :
    Closed (note noted e) := by
  intro p hp q hq hpre
  rw [mem_note_iff h he] at hp ⊢
  rcases hp with hp | ⟨hdir, rfl⟩ | ⟨-, hparent⟩
  · exact .inl (h p hp q hq hpre)
  · by_cases hself : q = e.path
    · exact .inr (.inl ⟨hdir, hself⟩)
    · exact .inr (.inr ⟨hq, isPrefix_parent hpre hself⟩)
  · exact .inr (.inr ⟨hq, hpre.trans hparent⟩)

/-- The paths noted are those that some entry notes. -/
theorem mem_directories_iff (h : ∀ e ∈ found, e.path ≠ []) :
    q ∈ directories found ↔ ∃ e ∈ found, Notes e q := by
  -- what has been noted before is closed, and stays
  have hrun : ∀ (es : List TreeEntry) (noted : List TreePath), (∀ e ∈ es, e.path ≠ []) →
      Closed noted → (q ∈ es.foldl note noted ↔ q ∈ noted ∨ ∃ e ∈ es, Notes e q) := by
    intro es
    induction es with
    | nil => simp
    | cons e es ih =>
        intro noted hes hnoted
        obtain ⟨he, hes⟩ := List.forall_mem_cons.1 hes
        rw [List.foldl_cons, ih _ hes (closed_note hnoted he), mem_note_iff hnoted he, or_assoc,
          List.exists_mem_cons_iff]
  have hall := hrun found [] h (by simp [Closed])
  simpa [directories] using hall

theorem of_lastAt {r : EntryRecord} (h : lastAt records p = some r) :
    r ∈ records ∧ r.Accepted ∧ TreePath.ofText r.name = p := by
  have hmem := List.mem_of_getLast? h
  rw [List.mem_filter, decide_eq_true_iff] at hmem
  exact hmem

theorem exists_lastAt {r : EntryRecord} (hr : r ∈ records) (ha : r.Accepted) :
    ∃ last, lastAt records (TreePath.ofText r.name) = some last := by
  rw [← Option.isSome_iff_exists, lastAt, List.getLast?_isSome]
  refine List.ne_nil_of_mem (a := r) ?_
  rw [List.mem_filter, decide_eq_true_iff]
  exact ⟨hr, ha, rfl⟩

/-- Directories have to stand at the paths of the records that are directories, and above those of
all records. -/
theorem mem_directories_gather_iff (records : List EntryRecord) (p : TreePath) :
    p ∈ directories (gather records) ↔
      (∃ r, lastAt records p = some r ∧ r.isDir = true) ∨ p ≠ [] ∧ HasBelow records p := by
  have hfound := orderly_gather records
  have hmem : ∀ e : TreeEntry, e ∈ gather records ↔
      ∃ r, lastAt records e.path = some r ∧ .ofRecord e.path r = e := by
    intro e
    rw [hfound.mem_iff, find?_gather, Option.map_eq_some_iff]
  rw [mem_directories_iff hfound.ne_nil]
  constructor
  · rintro ⟨e, he, ⟨hdir, rfl⟩ | ⟨hp, hpre⟩⟩
    · obtain ⟨r, hr, hre⟩ := (hmem e).1 he
      refine .inl ⟨r, hr, ?_⟩
      rwa [← hre] at hdir
    · obtain ⟨r, hr, -⟩ := (hmem e).1 he
      obtain ⟨hr, ha, hpath⟩ := of_lastAt hr
      refine .inr ⟨hp, r, hr, ha, ?_, ?_⟩
      · rw [hpath]
        exact hpre.trans (TreePath.parent_isPrefix _)
      · rintro rfl
        have hlen := hpre.length_le
        have hpos := List.length_pos_iff.2 ha.2
        rw [← hpath, TreePath.parent, List.length_dropLast] at hlen
        omega
  · rintro (⟨r, hr, hdir⟩ | ⟨hp, r, hr, ha, hpre, hne⟩)
    · exact ⟨.ofRecord p r, (hmem _).2 ⟨r, hr, rfl⟩, .inl ⟨hdir, rfl⟩⟩
    · obtain ⟨last, hlast⟩ := exists_lastAt hr ha
      exact ⟨.ofRecord _ last, (hmem _).2 ⟨last, hlast, rfl⟩,
        .inr ⟨hp, isPrefix_parent hpre (Ne.symm hne)⟩⟩

/-- Where no record stands, a path of the tree is there for what lies below it. -/
theorem mem_directories_iff_of_none (h : lastAt records p = none) :
    p ∈ directories (gather records) ↔
      p ≠ [] ∧ ∃ r ∈ records, r.Accepted ∧ p <+: TreePath.ofText r.name := by
  rw [mem_directories_gather_iff, h]
  constructor
  · rintro (⟨r, hr, -⟩ | ⟨hne, r, hr, ha, hpre, -⟩)
    · cases hr
    · exact ⟨hne, r, hr, ha, hpre⟩
  · rintro ⟨hne, r, hr, ha, hpre⟩
    refine .inr ⟨hne, r, hr, ha, hpre, fun heq => ?_⟩
    obtain ⟨last, hlast⟩ := exists_lastAt hr ha
    rw [heq, h] at hlast
    cases hlast

/-! ## The third pass -/

/-- What stands at a path that is noted. -/
def directoryAt (time : Nat) (p : TreePath) : Option TreeEntry → TreeEntry
  | some e => if e.isDir then e else .synthetic p time
  | none => .synthetic p time

theorem find?_settleAt (time : Nat) (found : List TreeEntry) (p q : TreePath) :
    (settleAt time found p).find? (·.path = q) =
      if p = q then some (directoryAt time q (found.find? (·.path = q)))
      else found.find? (·.path = q) := by
  have hput : (put TreeEntry.path (.synthetic p time) found).find? (·.path = q) =
      if p = q then some (.synthetic p time) else found.find? (·.path = q) :=
    find?_put TreeEntry.path (.synthetic p time) found q
  rw [settleAt]
  by_cases hp : p = q
  · subst hp
    cases hf : found.find? (·.path = p) with
    | none => simpa [directoryAt] using hput
    | some e =>
        cases hdir : e.isDir with
        | true => simpa [directoryAt, hdir] using hf
        | false => simpa [directoryAt, hdir] using hput
  · rw [if_neg hp] at hput ⊢
    split
    · split_ifs
      · rfl
      · exact hput
    · exact hput

/-- At a noted path stands a directory, and at any other what stood there. -/
theorem find?_settle (time : Nat) (found : List TreeEntry) (noted : List TreePath) (q : TreePath) :
    (settle time found noted).find? (·.path = q) =
      if q ∈ noted then some (directoryAt time q (found.find? (·.path = q)))
      else found.find? (·.path = q) := by
  have htwice : ∀ o, directoryAt time q (some (directoryAt time q o)) = directoryAt time q o := by
    intro o
    cases o with
    | none => rfl
    | some e => cases hdir : e.isDir <;> simp [directoryAt, hdir, TreeEntry.synthetic]
  induction noted generalizing found with
  | nil => simp [settle]
  | cons p noted ih =>
      have hstep : settle time found (p :: noted) = settle time (settleAt time found p) noted := rfl
      rw [hstep, ih, find?_settleAt]
      by_cases hp : p = q
      · by_cases hq : q ∈ noted <;> simp [hp, hq, htwice]
      · have hq : q ≠ p := Ne.symm hp
        simp [hp, hq]

theorem orderly_settleAt (h : Orderly found) (hp : p.Canonical) (hne : p ≠ []) :
    Orderly (settleAt time found p) := by
  have hput : Orderly (put TreeEntry.path (.synthetic p time) found) := h.put hp hne
  rw [settleAt]
  split
  · split_ifs
    · exact h
    · exact hput
  · exact hput

theorem orderly_settle {noted : List TreePath} (h : Orderly found)
    (hnoted : ∀ p ∈ noted, p.Canonical ∧ p ≠ []) : Orderly (settle time found noted) := by
  induction noted generalizing found with
  | nil => exact h
  | cons p noted ih =>
      obtain ⟨⟨hp, hne⟩, hnoted⟩ := List.forall_mem_cons.1 hnoted
      exact ih (orderly_settleAt h hp hne) hnoted

/-! ## All together -/

theorem orderly_arrange (records : List EntryRecord) : Orderly (arrange records) := by
  refine orderly_settle (orderly_gather records) fun p hp => ?_
  rcases (mem_directories_gather_iff records p).1 hp with ⟨r, hr, -⟩ | ⟨hne, r, -, -, hpre, -⟩
  · obtain ⟨-, ha, rfl⟩ := of_lastAt hr
    exact ⟨TreePath.canonical_ofText r.name, ha.2⟩
  · exact ⟨fun c hc => TreePath.canonical_ofText r.name c (hpre.subset hc), hne⟩

/-- What the passes put at a path is the entry of the tree there. -/
theorem mem_arrange_iff : e ∈ arrange records ↔ e ∈ assemble records := by
  rw [(orderly_arrange records).mem_iff, Assembly.mem_assemble_iff, arrange, find?_settle,
    find?_gather]
  have hbelow : Assembly.anyBelow (Assembly.places records) e.path = true ↔
      HasBelow records e.path := Assembly.anyBelow_places_iff
  have hnoted := mem_directories_gather_iff records e.path
  cases hlast : lastAt records e.path with
  | none =>
      rw [← mem_directories_iff_of_none hlast]
      split_ifs with hin
      · simp [directoryAt, Assembly.entryAt, hin, eq_comm]
      · simp [hin]
  | some r =>
      obtain ⟨hr, ha, hpath⟩ := of_lastAt hlast
      have hne : e.path ≠ [] := fun h => ha.2 (hpath.trans h)
      have hthere : ∃ r ∈ records, r.Accepted ∧ e.path <+: TreePath.ofText r.name :=
        ⟨r, hr, ha, hpath ▸ List.prefix_refl _⟩
      simp only [hlast, Option.some_inj, exists_eq_left', hne, not_false_eq_true, ne_eq, true_and,
        ← hbelow] at hnoted
      simp only [hne, not_false_eq_true, ne_eq, hthere, and_self, true_and, hnoted]
      cases hdir : r.isDir <;> cases hb : Assembly.anyBelow (Assembly.places records) e.path <;>
        simp [directoryAt, Assembly.entryAt, TreeEntry.ofRecord, hdir, eq_comm]

/-- The entries of a tree in the order of the bytes of their paths are what the passes give. -/
theorem arrange_eq_byBytes (l : Locator) (size : Nat) (records : List EntryRecord) :
    arrange records = (Tree.ofRecords l size records).byBytes := by
  have h := Tree.arranged_ofRecords l size records
  have hperm := (Tree.ofRecords l size records).byBytes_perm
  refine (orderly_arrange records).sorted.eq_of_mem_iff ?_ fun e => ?_
  · have hnodup : ((Tree.ofRecords l size records).byBytes.map (·.path)).Nodup :=
      (hperm.map _).nodup_iff.2 (List.pairwise_map.2 (h.sorted.imp And.right))
    refine ((Tree.pairwise_byBytes _).and (List.pairwise_map.1 hnodup)).imp_of_mem ?_
    rintro a b ha hb ⟨hle, hne⟩
    have ha := h.canonical a (hperm.mem_iff.1 ha)
    have hb := h.canonical b (hperm.mem_iff.1 hb)
    exact Std.lt_of_le_of_ne hle (utf8_render_ne ha hb hne)
  · exact mem_arrange_iff.trans hperm.mem_iff.symm

/-- The arena of a tree is filled from what the passes give. -/
theorem arena_ofRecords (l : Locator) (size : Nat) (records : List EntryRecord) :
    (Tree.ofRecords l size records).arena =
      Arena.fill (.synthetic [] (latest records)) (arrange records) := by
  rw [Tree.arena, ← arrange_eq_byBytes, ← Assembly.newest_eq_latest]
  rfl

end Passes

end ArchiveMount
