/-
# `ArchiveMount.Proofs.Tree.Arena` — the tree as an arena of nodes

A tree can be kept as a list of nodes: entries are put in one after the other, in the order
of the bytes of their whole paths, each is listed in the node of its parent, and an index
gives the position of a path.  This order is not that of a walk, in which `/a/x` stands
before `/a-c`.

`Filled` is what each insertion keeps (`Filled.insert`), `filled_arena` is the run, and
`ofRecords_arena` the result: looking up, listing and walking a tree are what the index, the
child lists and a stack of positions give.  Where the entries come from, and that they come in
this order, is told in `Proofs.Tree.Passes`.
-/
import ArchiveMount.Proofs.Tree.Arrangement

namespace ArchiveMount

/-- An entry, and the positions of what is in it. -/
structure Arena.Node where
  entry : TreeEntry
  children : List Nat

/-- Nodes by position, and the position of each path. -/
structure Arena where
  nodes : List Arena.Node
  index : List (TreePath × Nat)

namespace Arena

/-- The position of a path. -/
def position? (a : Arena) (p : TreePath) : Option Nat := a.index.lookup p

/-- The entry at a position. -/
def entryOf? (a : Arena) (i : Nat) : Option TreeEntry := a.nodes[i]?.map (·.entry)

/-- List a position in a node. -/
def Node.adopt (i : Nat) (n : Node) : Node := { n with children := n.children ++ [i] }

/-- Put an entry behind all others, and list it in its parent. -/
def insert (a : Arena) (e : TreeEntry) : Arena where
  nodes := a.nodes.modify ((a.position? e.path.parent).getD 0) (Node.adopt a.nodes.length) ++
    [⟨e, []⟩]
  index := (e.path, a.nodes.length) :: a.index

/-- An arena of a root and entries. -/
def fill (root : TreeEntry) (entries : List TreeEntry) : Arena :=
  entries.foldl insert ⟨[⟨root, []⟩], [(root.path, 0)]⟩

/-- Take the first position off the stack, put what is in it on the stack, and so on until
the stack is empty. -/
def visit (a : Arena) : (fuel : Nat) → (stack : List Nat) → Option (List TreeEntry)
  | _, [] => some []
  | 0, _ :: _ => none
  | fuel + 1, i :: stack => do
    let n ← a.nodes[i]?
    let rest ← a.visit fuel (n.children ++ stack)
    return n.entry :: rest

/-- Every entry below the root, depth first. -/
def walk (a : Arena) : Option (List TreeEntry) := do
  let root ← a.nodes[0]?
  a.visit a.nodes.length root.children

end Arena

/-- The entries of a tree in the order of the bytes of their whole paths. -/
def Tree.byBytes (t : Tree) : List TreeEntry :=
  t.walk.mergeSort fun a b => decide (Text.utf8 a.path.render ≤ Text.utf8 b.path.render)

/-- The arena of a tree. -/
def Tree.arena (t : Tree) : Arena := Arena.fill t.root t.byBytes

namespace Arena

variable {a : Arena} {es : List TreeEntry} {d e : TreeEntry} {i j k l : Nat} {m n : Node}

/-! ## What an insertion does -/

theorem getElem?_concat_eq_some {α : Type} {xs : List α} {x y : α} {i : Nat} :
    (xs ++ [x])[i]? = some y ↔ xs[i]? = some y ∨ i = xs.length ∧ y = x := by
  rcases Nat.lt_trichotomy i xs.length with hi | rfl | hi
  · rw [List.getElem?_append_left hi]
    have hne : i ≠ xs.length := by omega
    simp [hne]
  · simp [eq_comm]
  · have hne : i ≠ xs.length := by omega
    have hlen : (xs ++ [x]).length ≤ i := by
      rw [List.length_append, List.length_singleton]
      omega
    rw [List.getElem?_eq_none hlen, List.getElem?_eq_none (Nat.le_of_lt hi)]
    simp [hne]

/-- The nodes after an insertion: one lists the new position, and the new node comes last. -/
theorem nodes_insert_eq_some (hk : a.position? e.path.parent = some k) :
    (a.insert e).nodes[i]? = some n ↔
      (∃ m, a.nodes[i]? = some m ∧ n = if k = i then m.adopt a.nodes.length else m) ∨
        i = a.nodes.length ∧ n = ⟨e, []⟩ := by
  simp only [insert]
  rw [hk, Option.getD_some, getElem?_concat_eq_some, List.getElem?_modify, List.length_modify]
  simp [eq_comm]

theorem map_entry_insert (a : Arena) (e : TreeEntry) :
    (a.insert e).nodes.map (·.entry) = a.nodes.map (·.entry) ++ [e] := by
  have hadopt : ∀ (ns : List Node) (k i : Nat),
      (ns.modify k (Node.adopt i)).map (·.entry) = ns.map (·.entry) := by
    intro ns k i
    refine List.ext_getElem? fun j => ?_
    rw [List.getElem?_map, List.getElem?_map, List.getElem?_modify]
    cases ns[j]? with
    | none => rfl
    | some m =>
        simp only [Option.map_eq_map, Option.map_some]
        split_ifs <;> rfl
  simp only [insert, List.map_append, hadopt, List.map_cons, List.map_nil]

theorem position?_insert (a : Arena) (e : TreeEntry) (p : TreePath) :
    (a.insert e).position? p = if p = e.path then some a.nodes.length else a.position? p := by
  simp only [position?, insert, List.lookup_cons]
  by_cases hp : p = e.path
  · rw [if_pos hp, hp, beq_self_eq_true]
  · rw [if_neg hp, beq_false_of_ne hp]

/-- The node of the parent lists one position more, any other as many as before. -/
theorem mem_children_adopt :
    j ∈ (if k = i then m.adopt l else m).children ↔ j ∈ m.children ∨ k = i ∧ j = l := by
  split_ifs with hki
  · simp [Node.adopt, hki]
  · simp [hki]

theorem entry_adopt : (if k = i then m.adopt l else m).entry = m.entry := by
  split_ifs <;> rfl

/-! ## What every insertion keeps -/

/-- An arena that holds entries, at the positions where they stand in a list. -/
structure Filled (a : Arena) (es : List TreeEntry) : Prop where
  entries : a.nodes.map (·.entry) = es
  distinct : es.Pairwise fun d e => d.path ≠ e.path
  /-- The parent of each entry is among them. -/
  closed : ∀ e ∈ es, ∃ d ∈ es, d.path = e.path.parent
  position : ∀ p (i : Nat), a.position? p = some i ↔ ∃ e, es[i]? = some e ∧ e.path = p
  children : ∀ (i : Nat) (n : Node), a.nodes[i]? = some n → ∀ j, j ∈ n.children ↔
    0 < j ∧ ∃ e, es[j]? = some e ∧ e.path.parent = n.entry.path
  ascending : ∀ n ∈ a.nodes, n.children.Pairwise (· < ·)

namespace Filled

theorem length_nodes (h : Filled a es) : a.nodes.length = es.length := by
  rw [← h.entries, List.length_map]

theorem entryOf?_eq (h : Filled a es) (i : Nat) : a.entryOf? i = es[i]? := by
  rw [entryOf?, ← h.entries, List.getElem?_map]

theorem exists_node (h : Filled a es) (he : es[i]? = some e) :
    ∃ n, a.nodes[i]? = some n ∧ n.entry = e := by
  rw [← h.entries, List.getElem?_map] at he
  simpa using he

theorem getElem?_of_node (h : Filled a es) (hn : a.nodes[i]? = some n) :
    es[i]? = some n.entry := by
  rw [← h.entries, List.getElem?_map, hn]
  rfl

/-- One path stands at one position. -/
theorem position_unique (h : Filled a es) (hd : es[i]? = some d) (he : es[j]? = some e)
    (hpath : d.path = e.path) : i = j := by
  have hi := (h.position d.path i).2 ⟨d, hd, rfl⟩
  have hj := (h.position d.path j).2 ⟨e, he, hpath.symm⟩
  rw [hi] at hj
  exact Option.some.inj hj

/-- A new entry is the parent of none, and its own is there. -/
theorem not_parent (h : Filled a es) (hparent : ∃ d ∈ es, d.path = e.path.parent)
    (hnew : ∀ d ∈ es, d.path ≠ e.path) : ∀ f ∈ es ++ [e], f.path.parent ≠ e.path := by
  intro f hf hfe
  have hex : ∃ d ∈ es, d.path = f.path.parent := by
    rcases List.mem_append.1 hf with hf | hf
    · exact h.closed f hf
    · rwa [List.mem_singleton.1 hf]
  obtain ⟨d, hd, hpath⟩ := hex
  exact hnew d hd (hpath.trans hfe)

theorem position_insert (h : Filled a es) (hnew : ∀ d ∈ es, d.path ≠ e.path) (p : TreePath)
    (i : Nat) : (a.insert e).position? p = some i ↔
      ∃ f, (es ++ [e])[i]? = some f ∧ f.path = p := by
  simp only [position?_insert, getElem?_concat_eq_some]
  by_cases hp : p = e.path
  · rw [if_pos hp, Option.some_inj]
    constructor
    · intro hi
      exact ⟨e, .inr ⟨hi.symm.trans h.length_nodes, rfl⟩, hp.symm⟩
    · rintro ⟨f, hf | ⟨rfl, rfl⟩, hfe⟩
      · exact absurd (hfe.trans hp) (hnew f (List.mem_of_getElem? hf))
      · exact h.length_nodes
  · rw [if_neg hp, h.position p i]
    refine exists_congr fun f => and_congr_left fun hf => ?_
    constructor
    · exact .inl
    · rintro (hf' | ⟨-, rfl⟩)
      · exact hf'
      · exact absurd hf.symm hp

theorem children_insert (h : Filled a es) (hk : a.position? e.path.parent = some k)
    (hno : ∀ f ∈ es ++ [e], f.path.parent ≠ e.path) (hn : (a.insert e).nodes[i]? = some n)
    (j : Nat) : j ∈ n.children ↔
      0 < j ∧ ∃ f, (es ++ [e])[j]? = some f ∧ f.path.parent = n.entry.path := by
  obtain ⟨d, hd, hpath⟩ := (h.position _ _).1 hk
  rcases (nodes_insert_eq_some hk).1 hn with ⟨m, hm, rfl⟩ | ⟨rfl, rfl⟩
  · have hki : e.path.parent = m.entry.path ↔ k = i := by
      constructor
      · intro he
        exact h.position_unique hd (h.getElem?_of_node hm) (hpath.trans he)
      · rintro rfl
        have hdm := hd.symm.trans (h.getElem?_of_node hm)
        rw [← Option.some.inj hdm, hpath]
    rw [mem_children_adopt, entry_adopt, h.children i m hm j, h.length_nodes]
    simp only [getElem?_concat_eq_some]
    constructor
    · rintro (⟨hj, f, hf, hfm⟩ | ⟨hi, rfl⟩)
      · exact ⟨hj, f, .inl hf, hfm⟩
      · exact ⟨List.length_pos_of_mem (List.mem_of_getElem? hd), e, .inr ⟨rfl, rfl⟩, hki.2 hi⟩
    · rintro ⟨hj, f, hf | ⟨rfl, rfl⟩, hfm⟩
      · exact .inl ⟨hj, f, hf, hfm⟩
      · exact .inr ⟨hki.1 hfm, rfl⟩
  · constructor
    · intro hj
      cases hj
    · rintro ⟨-, f, hf, hfe⟩
      exact absurd hfe (hno f (List.mem_of_getElem? hf))

theorem ascending_insert (h : Filled a es) (hk : a.position? e.path.parent = some k)
    (hn : n ∈ (a.insert e).nodes) : n.children.Pairwise (· < ·) := by
  obtain ⟨i, hn⟩ := List.mem_iff_getElem?.1 hn
  rcases (nodes_insert_eq_some hk).1 hn with ⟨m, hm, rfl⟩ | ⟨-, rfl⟩
  · have hm' := h.ascending m (List.mem_of_getElem? hm)
    split_ifs
    · refine List.pairwise_append.2 ⟨hm', List.pairwise_singleton _ _, fun j hj l hl => ?_⟩
      obtain rfl := List.mem_singleton.1 hl
      obtain ⟨-, f, hf, -⟩ := (h.children i m hm j).1 hj
      rw [h.length_nodes]
      exact (List.getElem?_eq_some_iff.1 hf).1
    · exact hm'
  · exact List.Pairwise.nil

/-- An entry whose parent is there, at a path of its own, can be put in. -/
theorem insert (h : Filled a es) (hparent : ∃ d ∈ es, d.path = e.path.parent)
    (hnew : ∀ d ∈ es, d.path ≠ e.path) : Filled (a.insert e) (es ++ [e]) := by
  obtain ⟨k, hk⟩ : ∃ k, a.position? e.path.parent = some k := by
    obtain ⟨d, hd, hpath⟩ := hparent
    obtain ⟨k, hd⟩ := List.mem_iff_getElem?.1 hd
    exact ⟨k, (h.position _ _).2 ⟨d, hd, hpath⟩⟩
  have hno := h.not_parent hparent hnew
  constructor
  · rw [map_entry_insert, h.entries]
  · refine List.pairwise_append.2 ⟨h.distinct, List.pairwise_singleton _ _, fun d hd f hf => ?_⟩
    rw [List.mem_singleton.1 hf]
    exact hnew d hd
  · intro f hf
    have hex : ∃ d ∈ es, d.path = f.path.parent := by
      rcases List.mem_append.1 hf with hf | hf
      · exact h.closed f hf
      · rwa [List.mem_singleton.1 hf]
    obtain ⟨d, hd, hpath⟩ := hex
    exact ⟨d, List.mem_append_left _ hd, hpath⟩
  · exact h.position_insert hnew
  · exact fun i n hn j => h.children_insert hk hno hn j
  · exact fun n hn => h.ascending_insert hk hn

/-- Entries can be put in one after the other if each one's parent stands before it. -/
theorem foldl_insert {rest : List TreeEntry} (h : Filled a es)
    (hrest : ∀ before e after, rest = before ++ e :: after →
      (∃ d ∈ es ++ before, d.path = e.path.parent) ∧ ∀ d ∈ es ++ before, d.path ≠ e.path) :
    Filled (rest.foldl Arena.insert a) (es ++ rest) := by
  induction rest generalizing a es with
  | nil => simpa using h
  | cons e rest ih =>
      obtain ⟨hparent, hnew⟩ := hrest [] e rest rfl
      rw [List.append_nil] at hparent hnew
      rw [List.foldl_cons, List.append_cons]
      refine ih (h.insert hparent hnew) fun before f after hsplit => ?_
      rw [← List.append_cons]
      exact hrest (e :: before) f after (by rw [hsplit, List.cons_append])

end Filled

/-- An arena of a root alone. -/
theorem filled_root {root : TreeEntry} (hroot : root.path = []) :
    Filled ⟨[⟨root, []⟩], [(root.path, 0)]⟩ [root] := by
  have hone : ∀ {i : Nat} {e : TreeEntry}, [root][i]? = some e ↔ i = 0 ∧ e = root := by
    intro i e
    have h : ([] ++ [root])[i]? = some e ↔ [][i]? = some e ∨ i = 0 ∧ e = root :=
      getElem?_concat_eq_some
    simpa using h
  constructor
  · rfl
  · exact List.pairwise_singleton _ _
  · intro e he
    obtain rfl := List.mem_singleton.1 he
    exact ⟨e, List.mem_singleton_self e, by rw [hroot]; rfl⟩
  · intro p i
    simp only [position?, List.lookup_cons, List.lookup_nil, hone]
    by_cases hp : p = root.path
    · subst hp
      simp [eq_comm]
    · have hp' : root.path ≠ p := fun he => hp he.symm
      simp [beq_false_of_ne hp, hp']
  · intro i n hn j
    obtain ⟨-, rfl⟩ : i = 0 ∧ n = ⟨root, []⟩ := by
      cases i with
      | zero => exact ⟨rfl, (Option.some.inj hn).symm⟩
      | succ i => cases hn
    simp only [hone, List.not_mem_nil, false_iff]
    rintro ⟨hj, e, ⟨rfl, -⟩, -⟩
    exact Nat.lt_irrefl 0 hj
  · intro n hn
    obtain rfl := List.mem_singleton.1 hn
    exact List.Pairwise.nil

end Arena

/-- Before by name. -/
def TreeEntry.NameBefore (a b : TreeEntry) : Prop := a.path.name < b.path.name

instance : Std.Irrefl TreeEntry.NameBefore := ⟨fun _ => String.lt_irrefl _⟩

instance : Std.Antisymm TreeEntry.NameBefore :=
  ⟨fun _ _ hab hba => absurd hba (String.lt_asymm hab)⟩

namespace Tree

variable {t : Tree} {d e : TreeEntry}

theorem byBytes_perm (t : Tree) : t.byBytes.Perm t.walk := List.mergeSort_perm _ _

theorem pairwise_byBytes (t : Tree) :
    t.byBytes.Pairwise fun a b => Text.utf8 a.path.render ≤ Text.utf8 b.path.render := by
  refine List.Pairwise.imp of_decide_eq_true (List.pairwise_mergeSort ?_ ?_ t.walk)
  · intro a b c hab hbc
    exact decide_eq_true (List.le_trans (of_decide_eq_true hab) (of_decide_eq_true hbc))
  · intro a b
    rw [Bool.or_eq_true, decide_eq_true_iff, decide_eq_true_iff]
    exact List.le_total _ _

namespace Arranged

/-- Parents stand before what is in them, in the order of bytes as well. -/
theorem parent_mem_before (h : t.Arranged) {before after : List TreeEntry}
    (hsplit : t.byBytes = before ++ e :: after) :
    ∃ d ∈ t.root :: before, d.path = e.path.parent := by
  have he : e ∈ t.walk := t.byBytes_perm.mem_iff.1 (hsplit ▸ by simp)
  obtain ⟨d, hd, hpath, -⟩ := h.exists_parent he
  rcases List.mem_cons.1 hd with rfl | hd
  · exact ⟨_, List.mem_cons_self, hpath⟩
  · have hlt : Text.utf8 d.path.render < Text.utf8 e.path.render := by
      rw [← TreePath.parent_append_name (h.ne_nil e he), ← hpath]
      exact TreePath.utf8_render_lt_concat (h.ne_nil d hd) _
    have hmem := t.byBytes_perm.mem_iff.2 hd
    have hsorted := t.pairwise_byBytes
    rw [hsplit] at hmem hsorted
    rcases List.mem_append.1 hmem with hbefore | hafter
    · exact ⟨d, List.mem_cons_of_mem _ hbefore, hpath⟩
    · refine absurd hlt ?_
      rcases List.mem_cons.1 hafter with rfl | hafter
      · exact List.lt_irrefl _
      · exact (List.pairwise_cons.1 (List.pairwise_append.1 hsorted).2.1).1 d hafter

/-- Filling the arena of a tree. -/
theorem filled_arena (h : t.Arranged) : t.arena.Filled (t.root :: t.byBytes) := by
  refine (Arena.filled_root h.root_path).foldl_insert fun before e after hsplit => ?_
  refine ⟨h.parent_mem_before hsplit, fun d hd => ?_⟩
  have he : e ∈ t.walk := t.byBytes_perm.mem_iff.1 (hsplit ▸ by simp)
  have hnodup : (t.byBytes.map (·.path)).Nodup :=
    (t.byBytes_perm.map _).nodup_iff.2 (List.pairwise_map.2 (h.sorted.imp And.right))
  rcases List.mem_cons.1 hd with rfl | hd
  · rw [h.root_path]
    exact (h.ne_nil e he).symm
  · rw [hsplit] at hnodup
    exact (List.pairwise_append.1 (List.pairwise_map.1 hnodup)).2.2 d hd e List.mem_cons_self

theorem entry_mem (h : t.Arranged) {n : Arena.Node} (hn : n ∈ t.arena.nodes) :
    n.entry ∈ t.root :: t.walk := by
  have hmem : n.entry ∈ t.arena.nodes.map (·.entry) := List.mem_map_of_mem hn
  rw [h.filled_arena.entries] at hmem
  exact (t.byBytes_perm.cons t.root).mem_iff.1 hmem

theorem entryOf?_zero (h : t.Arranged) : t.arena.entryOf? 0 = some t.root := by
  rw [h.filled_arena.entryOf?_eq]
  rfl

theorem mem_walk_of_entry? (h : t.Arranged) {i : Nat} (hi : t.arena.entryOf? i = some e)
    (hpos : 0 < i) : e ∈ t.walk := by
  rw [h.filled_arena.entryOf?_eq] at hi
  obtain ⟨i, rfl⟩ := Nat.exists_eq_succ_of_ne_zero (Nat.ne_of_gt hpos)
  rw [List.getElem?_cons_succ] at hi
  exact t.byBytes_perm.mem_iff.1 (List.mem_of_getElem? hi)

/-- What is in one directory has its positions in the order of the names. -/
theorem name_lt_of_lt (h : t.Arranged) {i j : Nat} (hij : i < j) (hd : t.arena.entryOf? i = some d)
    (he : t.arena.entryOf? j = some e) (hparent : d.path.parent = e.path.parent) (hpos : 0 < i) :
    d.path.name < e.path.name := by
  have hdpath := TreePath.parent_append_name (h.ne_nil d (h.mem_walk_of_entry? hd hpos))
  have hepath := TreePath.parent_append_name
    (h.ne_nil e (h.mem_walk_of_entry? he (Nat.lt_trans hpos hij)))
  rw [h.filled_arena.entryOf?_eq] at hd he
  have hne : d.path.name ≠ e.path.name := by
    intro hname
    refine Nat.ne_of_lt hij (h.filled_arena.position_unique hd he ?_)
    rw [← hdpath, ← hepath, hparent, hname]
  obtain ⟨i, rfl⟩ := Nat.exists_eq_succ_of_ne_zero (Nat.ne_of_gt hpos)
  obtain ⟨j, rfl⟩ := Nat.exists_eq_succ_of_ne_zero (Nat.ne_of_gt (Nat.lt_trans hpos hij))
  rw [List.getElem?_cons_succ, List.getElem?_eq_some_iff] at hd he
  obtain ⟨hi, rfl⟩ := hd
  obtain ⟨hj, rfl⟩ := he
  have hle := List.pairwise_iff_getElem.1 t.pairwise_byBytes i j hi hj (Nat.lt_of_succ_lt_succ hij)
  by_contra hnot
  refine hle ?_
  rw [← hdpath, ← hepath, hparent]
  exact TreePath.utf8_render_concat_lt _ (Std.lt_of_le_of_ne hnot hne.symm)

/-- The child list of a node is what is in the directory, in the order of a walk. -/
theorem children_arena (h : t.Arranged) {i : Nat} {n : Arena.Node}
    (hn : t.arena.nodes[i]? = some n) :
    n.children.filterMap t.arena.entryOf? = t.children n.entry.path := by
  have hfilled := h.filled_arena
  have hmem : ∀ j, j ∈ n.children ↔
      0 < j ∧ ∃ e, t.arena.entryOf? j = some e ∧ e.path.parent = n.entry.path := by
    intro j
    rw [hfilled.entryOf?_eq]
    exact hfilled.children i n hn j
  refine List.Pairwise.eq_of_mem_iff (r := TreeEntry.NameBefore) ?_ (h.pairwise_children _)
    fun e => ?_
  · refine List.pairwise_filterMap.2 ?_
    refine (hfilled.ascending n (List.mem_of_getElem? hn)).imp_of_mem fun {j k} hj hk hjk => ?_
    intro d hd e he
    obtain ⟨hpos, d', hd', hdn⟩ := (hmem j).1 hj
    obtain ⟨-, e', he', hen⟩ := (hmem k).1 hk
    obtain rfl := Option.some.inj (hd'.symm.trans hd)
    obtain rfl := Option.some.inj (he'.symm.trans he)
    exact h.name_lt_of_lt hjk hd he (hdn.trans hen.symm) hpos
  · rw [List.mem_filterMap, mem_children_iff]
    constructor
    · rintro ⟨j, hj, he⟩
      obtain ⟨hpos, e', he', hen⟩ := (hmem j).1 hj
      obtain rfl := Option.some.inj (he'.symm.trans he)
      exact ⟨h.mem_walk_of_entry? he hpos, hen⟩
    · rintro ⟨he, hen⟩
      obtain ⟨j, hj⟩ := List.mem_iff_getElem?.1 (t.byBytes_perm.mem_iff.2 he)
      have hj' : t.arena.entryOf? (j + 1) = some e := by
        rw [hfilled.entryOf?_eq, List.getElem?_cons_succ, hj]
      exact ⟨j + 1, (hmem _).2 ⟨Nat.succ_pos j, e, hj', hen⟩, hj'⟩

/-! ## Walking -/

theorem exists_node_of_lt (h : t.Arranged) {i : Nat} (hpos : 0 < i)
    (hi : i < t.arena.nodes.length) :
    ∃ n, t.arena.nodes[i]? = some n ∧ t.arena.entryOf? i = some n.entry ∧ n.entry ∈ t.walk := by
  have hn := List.getElem?_eq_getElem hi
  have he : t.arena.entryOf? i = some t.arena.nodes[i].entry := by
    rw [Arena.entryOf?, hn, Option.map_some]
  exact ⟨_, hn, he, h.mem_walk_of_entry? he hpos⟩

theorem bounds_of_mem_children (h : t.Arranged) {n : Arena.Node} (hn : n ∈ t.arena.nodes)
    {j : Nat} (hj : j ∈ n.children) : 0 < j ∧ j < t.arena.nodes.length := by
  obtain ⟨i, hn⟩ := List.mem_iff_getElem?.1 hn
  obtain ⟨hpos, e, he, -⟩ := (h.filled_arena.children i n hn j).1 hj
  rw [h.filled_arena.length_nodes]
  exact ⟨hpos, (List.getElem?_eq_some_iff.1 he).1⟩

/-- With enough fuel a visit meets everything below what is on the stack. -/
theorem visit_arena (h : t.Arranged) {fuel : Nat} {stack : List Nat}
    (hstack : ∀ i ∈ stack, 0 < i ∧ i < t.arena.nodes.length)
    (hfuel : ((stack.filterMap t.arena.entryOf?).flatMap fun e => t.below e.path).length ≤ fuel) :
    t.arena.visit fuel stack =
      some ((stack.filterMap t.arena.entryOf?).flatMap fun e => t.below e.path) := by
  induction fuel generalizing stack with
  | zero =>
      cases stack with
      | nil => rfl
      | cons i stack =>
          obtain ⟨hi, -⟩ := List.forall_mem_cons.1 hstack
          obtain ⟨n, -, he, hmem⟩ := h.exists_node_of_lt hi.1 hi.2
          rw [List.filterMap_cons_some he, List.flatMap_cons, h.below_eq_cons hmem,
            List.cons_append] at hfuel
          exact absurd hfuel (Nat.not_succ_le_zero _)
  | succ fuel ih =>
      cases stack with
      | nil => rfl
      | cons i stack =>
          obtain ⟨hi, hstack⟩ := List.forall_mem_cons.1 hstack
          obtain ⟨n, hn, he, hmem⟩ := h.exists_node_of_lt hi.1 hi.2
          -- the stack of the next round holds the rest of what is below this one
          have hrest : ((n.children ++ stack).filterMap t.arena.entryOf?).flatMap
                (fun e => t.below e.path) =
              ((t.children n.entry.path).flatMap fun c => t.below c.path) ++
                (stack.filterMap t.arena.entryOf?).flatMap fun e => t.below e.path := by
            rw [List.filterMap_append, h.children_arena hn, List.flatMap_append]
          rw [List.filterMap_cons_some he, List.flatMap_cons, h.below_eq_cons hmem,
            List.cons_append, ← hrest] at hfuel ⊢
          have hnext : ∀ j ∈ n.children ++ stack, 0 < j ∧ j < t.arena.nodes.length := by
            intro j hj
            rcases List.mem_append.1 hj with hj | hj
            · exact h.bounds_of_mem_children (List.mem_of_getElem? hn) hj
            · exact hstack j hj
          simp only [Arena.visit, hn, ih hnext (Nat.le_of_succ_le_succ hfuel), Option.bind_eq_bind,
            Option.bind_some, Option.pure_def]

theorem walk_arena (h : t.Arranged) : t.arena.walk = some t.walk := by
  obtain ⟨n, hn, hroot⟩ := h.filled_arena.exists_node (i := 0) rfl
  have hchildren := h.children_arena hn
  rw [hroot, h.root_path] at hchildren
  have hwalk : ((n.children.filterMap t.arena.entryOf?).flatMap fun e => t.below e.path) =
      t.walk := by
    rw [hchildren, ← h.walk_eq_flatMap]
  have hlen : t.arena.nodes.length = t.walk.length + 1 := by
    rw [h.filled_arena.length_nodes, List.length_cons, t.byBytes_perm.length_eq]
  have hfuel : ((n.children.filterMap t.arena.entryOf?).flatMap fun e => t.below e.path).length ≤
      t.arena.nodes.length := by
    rw [hwalk, hlen]
    exact Nat.le_succ _
  have hvisit := h.visit_arena
    (fun j hj => h.bounds_of_mem_children (List.mem_of_getElem? hn) hj) hfuel
  simp only [Arena.walk, hn, hvisit, hwalk, Option.bind_eq_bind, Option.bind_some]

/-! ## Each entry in one child list -/

/-- An entry below the root is listed in its parent, which is a directory before it. -/
theorem exists_parent_arena (h : t.Arranged) {j : Nat} (he : t.arena.entryOf? j = some e)
    (hj : 0 < j) : ∃ (i : Nat) (n : Arena.Node), i < j ∧ t.arena.nodes[i]? = some n ∧
      j ∈ n.children ∧ n.entry.path = e.path.parent ∧ n.entry.isDir = true := by
  have hfilled := h.filled_arena
  have hmem := h.mem_walk_of_entry? he hj
  rw [hfilled.entryOf?_eq] at he
  obtain ⟨hlt, hget⟩ := List.getElem?_eq_some_iff.1 he
  -- the parent is among the entries before `e`, so at a smaller position
  obtain ⟨k, rfl⟩ := Nat.exists_eq_succ_of_ne_zero (Nat.ne_of_gt hj)
  have hk : k < t.byBytes.length := Nat.lt_of_succ_lt_succ hlt
  have hsplit : t.byBytes = t.byBytes.take k ++ e :: t.byBytes.drop (k + 1) := by
    rw [List.getElem_cons_succ] at hget
    rw [← hget, List.getElem_cons_drop hk, List.take_append_drop]
  obtain ⟨d, hd, hpath⟩ := h.parent_mem_before hsplit
  obtain ⟨i, hi, hdi⟩ := List.mem_iff_getElem.1 hd
  have hi' : i < k + 1 := by
    rw [List.length_cons, List.length_take] at hi
    omega
  have hdes : (t.root :: t.byBytes)[i]? = some d := by
    rw [← List.take_append_drop k t.byBytes, ← List.cons_append, List.getElem?_append_left hi,
      List.getElem?_eq_getElem hi, hdi]
  obtain ⟨n, hn, rfl⟩ := hfilled.exists_node hdes
  refine ⟨i, n, hi', hn, (hfilled.children i n hn _).2 ⟨hj, e, he, hpath.symm⟩, hpath, ?_⟩
  obtain ⟨p, hp, hppath, hdir⟩ := h.exists_parent hmem
  have hfind := h.find?_eq_some_iff.2 ⟨hp, hppath.trans hpath.symm⟩
  rw [h.find?_eq_some_iff.2 ⟨h.entry_mem (List.mem_of_getElem? hn), rfl⟩] at hfind
  rw [Option.some.inj hfind]
  exact hdir

theorem length_nodes_arena (h : t.Arranged) : t.arena.nodes.length = t.size + 1 := by
  rw [h.filled_arena.length_nodes, List.length_cons, t.byBytes_perm.length_eq]
  rfl

/-- The child lists hold each position but that of the root once. -/
theorem children_perm (h : t.Arranged) :
    (t.arena.nodes.flatMap (·.children)).Perm (List.range' 1 t.size) := by
  have hfilled := h.filled_arena
  have hnodup : (t.arena.nodes.flatMap (·.children)).Nodup := by
    refine List.nodup_flatMap.2 ⟨fun n hn => (hfilled.ascending n hn).imp Nat.ne_of_lt, ?_⟩
    have hdistinct := hfilled.distinct
    rw [← hfilled.entries, List.pairwise_map] at hdistinct
    refine hdistinct.imp_of_mem fun {m n} hm hn hmn j hjm hjn => ?_
    obtain ⟨i, hm⟩ := List.mem_iff_getElem?.1 hm
    obtain ⟨k, hn⟩ := List.mem_iff_getElem?.1 hn
    obtain ⟨-, d, hd, hdm⟩ := (hfilled.children i m hm j).1 hjm
    obtain ⟨-, e, he, hen⟩ := (hfilled.children k n hn j).1 hjn
    obtain rfl := Option.some.inj (hd.symm.trans he)
    exact hmn (hdm.symm.trans hen)
  refine (List.perm_ext_iff_of_nodup hnodup List.nodup_range').2 fun j => ?_
  rw [List.mem_flatMap, List.mem_range'_1]
  constructor
  · rintro ⟨n, hn, hj⟩
    have hbounds := h.bounds_of_mem_children hn hj
    rw [h.length_nodes_arena] at hbounds
    omega
  · intro hj
    have hlt : j < t.arena.nodes.length := by
      rw [h.length_nodes_arena]
      omega
    obtain ⟨m, -, he, -⟩ := h.exists_node_of_lt hj.1 hlt
    obtain ⟨i, n, -, hn, hmem, -⟩ := h.exists_parent_arena he hj.1
    exact ⟨n, List.mem_of_getElem? hn, hmem⟩

theorem canonical_arena (h : t.Arranged) {i : Nat} (he : t.arena.entryOf? i = some e) :
    TreePath.Canonical e.path := by
  rcases Nat.eq_zero_or_pos i with rfl | hi
  · rw [h.entryOf?_zero] at he
    rw [← Option.some.inj he, h.root_path]
    exact fun c hc => absurd hc List.not_mem_nil
  · exact h.canonical e (h.mem_walk_of_entry? he hi)

theorem find?_arena (h : t.Arranged) (p : TreePath) :
    t.find? p = (t.arena.position? p).bind t.arena.entryOf? := by
  have hfilled := h.filled_arena
  refine Option.ext fun e => ?_
  rw [h.find?_eq_some_iff, Option.bind_eq_some_iff]
  simp only [hfilled.position, hfilled.entryOf?_eq]
  constructor
  · rintro ⟨he, hpath⟩
    have hmem : e ∈ t.root :: t.byBytes := (t.byBytes_perm.cons t.root).mem_iff.2 he
    obtain ⟨i, hi⟩ := List.mem_iff_getElem?.1 hmem
    exact ⟨i, ⟨e, hi, hpath⟩, hi⟩
  · rintro ⟨i, ⟨d, hd, hpath⟩, he⟩
    obtain rfl := Option.some.inj (hd.symm.trans he)
    exact ⟨(t.byBytes_perm.cons t.root).mem_iff.1 (List.mem_of_getElem? hd), hpath⟩

end Arranged

end Tree

/-- What an arena of a tree is. -/
structure Arena.Represents (a : Arena) (t : Tree) : Prop where
  /-- The root stands first. -/
  root : a.entryOf? 0 = some t.root ∧ t.root.path = []
  length : a.nodes.length = t.size + 1
  /-- The index gives the position of each path, and of nothing else. -/
  index : ∀ p (i : Nat), a.position? p = some i ↔ ∃ e, a.entryOf? i = some e ∧ e.path = p
  /-- Paths are canonical, and told apart by their texts. -/
  canonical : ∀ i e, a.entryOf? i = some e →
    TreePath.Canonical e.path ∧ TreePath.ofText e.path.render = e.path
  /-- Each position but that of the root stands once in all child lists together. -/
  once : (a.nodes.flatMap (·.children)).Perm (List.range' 1 t.size)
  /-- It stands in the list of the parent, a directory at a smaller position. -/
  parent : ∀ j e, a.entryOf? j = some e → 0 < j → ∃ (i : Nat) (n : Node), i < j ∧
    a.nodes[i]? = some n ∧ j ∈ n.children ∧ n.entry.path = e.path.parent ∧ n.entry.isDir = true
  files : ∀ n ∈ a.nodes, n.entry.isDir = false → n.children = []
  /-- Child lists are strictly ascending by the bytes of the names. -/
  ascending : ∀ n ∈ a.nodes, (n.children.filterMap a.entryOf?).Pairwise fun d e =>
    Text.utf8 d.name < Text.utf8 e.name
  /-- A walk meets every entry but the root once. -/
  walk : a.walk = some t.walk ∧ t.walk.Perm (a.nodes.tail.map (·.entry))
  /-- It is strictly ascending by the lists of components. -/
  ordered : t.walk.Pairwise fun d e => d.path.map Text.utf8 < e.path.map Text.utf8
  /-- Right after an entry it meets all that lies below it. -/
  depthFirst : ∀ before d after, t.walk = before ++ d :: after →
    ∃ below rest, after = below ++ rest ∧ (∀ e ∈ below, d.path <+: e.path) ∧
      ∀ e ∈ before ++ rest, ¬ d.path <+: e.path
  /-- Looking up and listing are what index and child lists give. -/
  find : ∀ p, t.find? p = (a.position? p).bind a.entryOf?
  list : ∀ n ∈ a.nodes, t.children n.entry.path = n.children.filterMap a.entryOf?

/-- The tree of any records is represented by its arena. -/
theorem Tree.ofRecords_arena (l : Locator) (size : Nat) (records : List EntryRecord) :
    (Tree.ofRecords l size records).arena.Represents (Tree.ofRecords l size records) := by
  have h := arranged_ofRecords l size records
  generalize Tree.ofRecords l size records = t at h
  have hfilled := h.filled_arena
  have hlist : ∀ n ∈ t.arena.nodes,
      t.children n.entry.path = n.children.filterMap t.arena.entryOf? := by
    intro n hn
    obtain ⟨i, hn⟩ := List.mem_iff_getElem?.1 hn
    exact (h.children_arena hn).symm
  constructor
  case root => exact ⟨h.entryOf?_zero, h.root_path⟩
  case length => exact h.length_nodes_arena
  case index =>
    intro p i
    rw [hfilled.position, hfilled.entryOf?_eq]
  case canonical =>
    intro i e he
    exact ⟨h.canonical_arena he, TreePath.ofText_render (h.canonical_arena he)⟩
  case once => exact h.children_perm
  case parent => exact fun j e => h.exists_parent_arena
  case files =>
    intro n hn hf
    have hnil : n.children.filterMap t.arena.entryOf? = [] := by
      rw [← hlist n hn, h.children_eq_nil (h.entry_mem hn) hf]
    refine List.eq_nil_iff_forall_not_mem.2 fun j hj => ?_
    obtain ⟨hpos, hlt⟩ := h.bounds_of_mem_children hn hj
    obtain ⟨m, -, he, -⟩ := h.exists_node_of_lt hpos hlt
    rw [List.filterMap_eq_nil_iff.1 hnil j hj] at he
    cases he
  case ascending =>
    intro n hn
    rw [← hlist n hn]
    exact (h.pairwise_children _).imp Text.utf8_lt_iff.2
  case walk =>
    refine ⟨h.walk_arena, ?_⟩
    rw [List.map_tail, hfilled.entries]
    exact t.byBytes_perm.symm
  case ordered => exact h.sorted.imp fun hde => TreePath.map_utf8_lt hde.1 hde.2
  case depthFirst => exact fun before d after => h.exists_interval
  case find => exact h.find?_arena
  case list => exact hlist

end ArchiveMount
