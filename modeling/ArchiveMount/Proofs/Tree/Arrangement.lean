/-
# `ArchiveMount.Proofs.Tree.Arrangement` — how the entries of a tree stand to each other

In the tree of any records the entries are in strict order, their paths are canonical, and
with an entry there is a directory at each path on the way to it (`Arranged`).  So the walk
falls into the parts that lie below the children of the root, and the part that lies below
any entry is the entry and the parts below its children (`below_eq_cons`).
-/
import ArchiveMount.Proofs.Tree.Content
import ArchiveMount.Proofs.Tree.Rendering
import Mathlib.Data.List.Sort

namespace ArchiveMount

/-- Strictly before in the order of a walk. -/
def TreeEntry.Before (a b : TreeEntry) : Prop := a.path.le b.path = true ∧ a.path ≠ b.path

instance : Std.Irrefl TreeEntry.Before := ⟨fun _ h => h.2 rfl⟩

instance : Std.Antisymm TreeEntry.Before :=
  ⟨fun _ _ h₁ h₂ => absurd (TreePath.le_antisymm h₁.1 h₂.1) h₁.2⟩

/-- In strict order what lies below an entry comes right after it. -/
theorem TreeEntry.exists_interval {d : TreeEntry} {es : List TreeEntry}
    (h : (d :: es).Pairwise Before) :
    ∃ below rest, es = below ++ rest ∧ (∀ e ∈ below, d.path <+: e.path) ∧
      ∀ e ∈ rest, ¬ d.path <+: e.path := by
  induction es with
  | nil => exact ⟨[], [], rfl, by simp, by simp⟩
  | cons f es ih =>
      obtain ⟨hd, hes⟩ := List.pairwise_cons.1 h
      obtain ⟨hf, hes'⟩ := List.pairwise_cons.1 hes
      by_cases hpre : d.path <+: f.path
      · have hd' : ∀ e ∈ es, Before d e := fun e he => hd e (List.mem_cons_of_mem _ he)
        obtain ⟨below, rest, rfl, hbelow, hrest⟩ := ih (List.pairwise_cons.2 ⟨hd', hes'⟩)
        exact ⟨f :: below, rest, rfl, List.forall_mem_cons.2 ⟨hpre, hbelow⟩, hrest⟩
      · refine ⟨[], f :: es, rfl, by simp, List.forall_mem_cons.2 ⟨hpre, fun e he hde => ?_⟩⟩
        -- `f` stands between `d` and something below `d`
        exact hpre (TreePath.isPrefix_of_le_of_le hde (hd f List.mem_cons_self).1 (hf e he).1)

namespace TreePath

/-- What lies below siblings stands as they do. -/
theorem le_of_siblings {p q r : TreePath} {c d : String} (h : c < d) (hq : p ++ [c] <+: q)
    (hr : p ++ [d] <+: r) : le q r = true ∧ q ≠ r := by
  have hne : c ≠ d := fun he => String.lt_irrefl d (he ▸ h)
  obtain ⟨q, rfl⟩ := hq
  obtain ⟨r, rfl⟩ := hr
  simp only [List.append_assoc, List.singleton_append]
  constructor
  · rw [le_append]
    simp [le, hne, h]
  · intro he
    exact hne (List.cons.inj (List.append_cancel_left he)).1

/-- Below a path means below something that is in it. -/
theorem exists_concat_isPrefix {p q : TreePath} (h : p <+: q) (hne : q ≠ p) :
    ∃ c, p ++ [c] <+: q := by
  obtain ⟨rest, rfl⟩ := h
  cases rest with
  | nil => exact absurd (List.append_nil p) hne
  | cons c rest => exact ⟨c, rest, by simp⟩

end TreePath

namespace Tree

/-- How the entries of a tree stand to each other. -/
structure Arranged (t : Tree) : Prop where
  root_path : t.root.path = []
  root_isDir : t.root.isDir = true
  sorted : t.walk.Pairwise TreeEntry.Before
  ne_nil : ∀ e ∈ t.walk, e.path ≠ []
  canonical : ∀ e ∈ t.walk, TreePath.Canonical e.path
  /-- On the way to an entry there are directories. -/
  ancestor : ∀ e ∈ t.walk, ∀ p, p ≠ [] → p <+: e.path → e.path ≠ p →
    ∃ d ∈ t.walk, d.path = p ∧ d.isDir = true

/-- An entry that something lies below is a directory. -/
theorem isDir_entryAt (n : Nat) (m : Assembly.Mention) :
    (Assembly.entryAt n true m).isDir = true := by
  simp only [Assembly.entryAt]
  cases m.2 with
  | none => rfl
  | some r => cases hr : r.isDir <;> simp [TreeEntry.ofRecord, TreeEntry.synthetic, hr]

/-- Whatever the records, the tree is arranged. -/
theorem arranged_ofRecords (l : Locator) (size : Nat) (records : List EntryRecord) :
    (ofRecords l size records).Arranged where
  root_path := rfl
  root_isDir := rfl
  sorted := by
    show (assemble records).Pairwise TreeEntry.Before
    rw [Assembly.assemble_eq_map, List.pairwise_map]
    refine (Assembly.places_sorted records).imp fun h => ?_
    simpa only [TreeEntry.Before, Assembly.path_entryAt, Assembly.Before] using h
  ne_nil := fun e he => (Assembly.mem_assemble_iff.1 he).1.1
  canonical := by
    intro e he c hc
    obtain ⟨r, -, -, hpre⟩ := (Assembly.mem_assemble_iff.1 he).1.2
    exact TreePath.canonical_ofText r.name c (hpre.subset hc)
  ancestor := by
    intro e he p hp hpre hne
    obtain ⟨r, hr, ha, her⟩ := (Assembly.mem_assemble_iff.1 he).1.2
    have hbelow : HasBelow records p := by
      refine ⟨r, hr, ha, hpre.trans her, fun heq => hne ?_⟩
      -- `e.path` stands between `p` and a path that equals `p`
      exact (hpre.eq_of_length (Nat.le_antisymm hpre.length_le (heq ▸ her.length_le))).symm
    refine ⟨Assembly.entryAt (latest records) true (p, lastAt records p),
      Assembly.mem_assemble_iff.2 ?_, Assembly.path_entryAt _ _ _, isDir_entryAt _ _⟩
    rw [Assembly.path_entryAt, Assembly.anyBelow_places_iff.2 hbelow]
    exact ⟨⟨hp, r, hr, ha, hpre.trans her⟩, rfl⟩

/-- The part of the walk that lies below a path, the entry at the path among it. -/
def below (t : Tree) (p : TreePath) : List TreeEntry := t.walk.filter (p.isPrefixOf ·.path)

variable {t : Tree} {p : TreePath} {d e : TreeEntry}

theorem mem_below_iff : e ∈ t.below p ↔ e ∈ t.walk ∧ p <+: e.path := by
  rw [below, List.mem_filter, List.isPrefixOf_iff_prefix]

theorem mem_children_iff : e ∈ t.children p ↔ e ∈ t.walk ∧ e.path.parent = p := by
  rw [children, List.mem_filter, decide_eq_true_iff]
  rfl

namespace Arranged

theorem eq_of_path_eq (h : t.Arranged) (hd : d ∈ t.walk) (he : e ∈ t.walk)
    (hpath : d.path = e.path) : d = e := by
  have hnodup : (t.walk.map (·.path)).Nodup := List.pairwise_map.2 (h.sorted.imp And.right)
  exact List.inj_on_of_nodup_map hnodup hd he hpath

theorem find?_eq_some_iff (h : t.Arranged) :
    t.find? p = some e ↔ e ∈ t.root :: t.walk ∧ e.path = p := by
  have hnodup : (t.entries.map (·.path)).Nodup := List.pairwise_map.2 (h.sorted.imp And.right)
  rw [List.mem_cons]
  by_cases hp : p = []
  · subst hp
    have hroot : t.find? [] = some t.root := rfl
    rw [hroot]
    constructor
    · intro he
      obtain rfl := Option.some.inj he
      exact ⟨.inl rfl, h.root_path⟩
    · rintro ⟨rfl | he, hpath⟩
      · rfl
      · exact absurd hpath (h.ne_nil e he)
  · rw [Tree.find?_eq_some_iff hnodup hp]
    constructor
    · rintro ⟨he, hpath⟩
      exact ⟨.inr he, hpath⟩
    · rintro ⟨rfl | he, hpath⟩
      · exact absurd (hpath.symm.trans h.root_path) hp
      · exact ⟨he, hpath⟩

/-! ## Parents and children -/

/-- The parent of an entry is the root or a directory that the walk meets. -/
theorem exists_parent (h : t.Arranged) (he : e ∈ t.walk) :
    ∃ d ∈ t.root :: t.walk, d.path = e.path.parent ∧ d.isDir = true := by
  by_cases hp : e.path.parent = []
  · exact ⟨t.root, List.mem_cons_self, h.root_path.trans hp.symm, h.root_isDir⟩
  · have hconcat := TreePath.parent_append_name (h.ne_nil e he)
    have hne : e.path ≠ e.path.parent := by
      intro heq
      rw [← heq] at hconcat
      simp at hconcat
    obtain ⟨d, hd, hpath, hdir⟩ := h.ancestor e he _ hp (TreePath.parent_isPrefix _) hne
    exact ⟨d, List.mem_cons_of_mem _ hd, hpath, hdir⟩

/-- An entry in a directory has the path of the directory and a name. -/
theorem path_of_mem_children (h : t.Arranged) (he : e ∈ t.children p) :
    p ++ [e.path.name] = e.path := by
  obtain ⟨hmem, rfl⟩ := mem_children_iff.1 he
  exact TreePath.parent_append_name (h.ne_nil e hmem)

/-- Nothing is in a file. -/
theorem children_eq_nil (h : t.Arranged) (hd : d ∈ t.root :: t.walk) (hf : d.isDir = false) :
    t.children d.path = [] := by
  refine List.eq_nil_iff_forall_not_mem.2 fun e he => ?_
  obtain ⟨he, hpath⟩ := mem_children_iff.1 he
  obtain ⟨d', hd', hpath', hdir⟩ := h.exists_parent he
  have hfind : t.find? d.path = some d' :=
    h.find?_eq_some_iff.2 ⟨hd', hpath'.trans hpath⟩
  rw [h.find?_eq_some_iff.2 ⟨hd, rfl⟩] at hfind
  rw [← Option.some.inj hfind, hf] at hdir
  cases hdir

/-- What is in one directory is listed by name. -/
theorem pairwise_children (h : t.Arranged) (p : TreePath) :
    (t.children p).Pairwise fun a b => a.path.name < b.path.name := by
  have hsub : (t.children p).Pairwise TreeEntry.Before := h.sorted.filter _
  refine hsub.imp_of_mem fun {a b} ha hb hab => ?_
  obtain ⟨hle, hne⟩ := hab
  rw [← h.path_of_mem_children ha, ← h.path_of_mem_children hb] at hle hne
  refine (TreePath.le_concat_iff fun he => hne ?_).1 hle
  rw [he]

/-! ## The parts of a walk -/

/-- What lies strictly below a path is what lies below the children. -/
theorem strictlyBelow_eq_flatMap (h : t.Arranged) (p : TreePath) :
    (t.walk.filter fun e => p.isPrefixOf e.path && decide (e.path ≠ p)) =
      (t.children p).flatMap fun c => t.below c.path := by
  refine List.Pairwise.eq_of_mem_iff (h.sorted.filter _) ?_ fun e => ?_
  · refine List.pairwise_flatMap.2 ⟨fun c _ => h.sorted.filter _, ?_⟩
    refine (h.pairwise_children p).imp_of_mem fun {a b} ha hb hab => ?_
    intro x hx y hy
    have hax := (mem_below_iff.1 hx).2
    have hby := (mem_below_iff.1 hy).2
    rw [← h.path_of_mem_children ha] at hax
    rw [← h.path_of_mem_children hb] at hby
    exact TreePath.le_of_siblings hab hax hby
  · rw [List.mem_filter, List.mem_flatMap, Bool.and_eq_true, List.isPrefixOf_iff_prefix,
      decide_eq_true_iff]
    constructor
    · rintro ⟨he, hpre, hne⟩
      obtain ⟨c, hc⟩ := TreePath.exists_concat_isPrefix hpre hne
      -- the entry on the way, which is `e` itself if nothing lies between
      have hon : ∃ d ∈ t.walk, d.path = p ++ [c] := by
        by_cases heq : e.path = p ++ [c]
        · exact ⟨e, he, heq⟩
        · obtain ⟨d, hd, hpath, -⟩ := h.ancestor e he _ (List.concat_ne_nil c p) hc heq
          exact ⟨d, hd, hpath⟩
      obtain ⟨d, hd, hpath⟩ := hon
      refine ⟨d, mem_children_iff.2 ⟨hd, ?_⟩, mem_below_iff.2 ⟨he, ?_⟩⟩
      · rw [hpath, TreePath.parent_concat]
      · rwa [hpath]
    · rintro ⟨c, hc, he⟩
      obtain ⟨he, hpre⟩ := mem_below_iff.1 he
      rw [← h.path_of_mem_children hc] at hpre
      refine ⟨he, (List.prefix_append p _).trans hpre, fun heq => ?_⟩
      have hlen := hpre.length_le
      rw [heq, List.length_append, List.length_singleton] at hlen
      omega

/-- The walk is what lies below the children of the root. -/
theorem walk_eq_flatMap (h : t.Arranged) :
    t.walk = (t.children []).flatMap fun c => t.below c.path := by
  rw [← h.strictlyBelow_eq_flatMap, eq_comm, List.filter_eq_self]
  intro e he
  simpa [TreePath] using h.ne_nil e he

/-- The part below an entry is the entry and the parts below its children. -/
theorem below_eq_cons (h : t.Arranged) (hd : d ∈ t.walk) :
    t.below d.path = d :: (t.children d.path).flatMap fun c => t.below c.path := by
  rw [← h.strictlyBelow_eq_flatMap]
  refine List.Pairwise.eq_of_mem_iff (h.sorted.filter _) ?_ fun e => ?_
  · refine List.pairwise_cons.2 ⟨fun e he => ?_, h.sorted.filter _⟩
    obtain ⟨-, he⟩ := List.mem_filter.1 he
    rw [Bool.and_eq_true, List.isPrefixOf_iff_prefix, decide_eq_true_iff] at he
    exact ⟨TreePath.le_of_isPrefix he.1, he.2.symm⟩
  · rw [mem_below_iff, List.mem_cons, List.mem_filter, Bool.and_eq_true,
      List.isPrefixOf_iff_prefix, decide_eq_true_iff]
    constructor
    · rintro ⟨he, hpre⟩
      by_cases hpath : e.path = d.path
      · exact .inl (h.eq_of_path_eq he hd hpath)
      · exact .inr ⟨he, hpre, hpath⟩
    · rintro (rfl | ⟨he, hpre, -⟩)
      · exact ⟨hd, List.prefix_refl _⟩
      · exact ⟨he, hpre⟩

/-- An entry is followed at once by everything below it. -/
theorem exists_interval (h : t.Arranged) {before after : List TreeEntry}
    (hw : t.walk = before ++ d :: after) :
    ∃ below rest, after = below ++ rest ∧ (∀ e ∈ below, d.path <+: e.path) ∧
      ∀ e ∈ before ++ rest, ¬ d.path <+: e.path := by
  have hsorted := h.sorted
  rw [hw] at hsorted
  obtain ⟨-, hafter, hbefore⟩ := List.pairwise_append.1 hsorted
  obtain ⟨below, rest, rfl, hbelow, hrest⟩ := TreeEntry.exists_interval hafter
  refine ⟨below, rest, rfl, hbelow, fun e he hpre => ?_⟩
  rcases List.mem_append.1 he with he | he
  · obtain ⟨hle, hne⟩ := hbefore e he d List.mem_cons_self
    exact hne (TreePath.le_antisymm hle (TreePath.le_of_isPrefix hpre))
  · exact hrest e he hpre

end Arranged

end Tree

end ArchiveMount
