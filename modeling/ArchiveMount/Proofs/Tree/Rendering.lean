/-
# `ArchiveMount.Proofs.Tree.Rendering` — paths and their texts

A canonical path is what is read from its text (`ofText_render`), so canonical paths with
one text are one path.  The bytes of a text are those of the components, a slash before
each: a path has smaller bytes than what lies below it, and two paths that differ in the
last component only stand in the order of these components.
-/
import ArchiveMount.Proofs.Text.ByteOrder
import ArchiveMount.Proofs.Tree.PathOrder

namespace ArchiveMount.TreePath

variable {p q : TreePath} {c d : String}

/-! ## Reading a path from its text -/

theorem toList_render (hp : p ≠ []) : p.render.toList = p.flatMap fun c => '/' :: c.toList := by
  simp [render, hp]

/-- A rendered path is cut into its components, with nothing before the first slash. -/
theorem pieces_flatMap (h : Canonical p) :
    Text.pieces isSeparator (p.flatMap fun c => '/' :: c.toList) = [] :: p.map String.toList := by
  induction p with
  | nil => rfl
  | cons c p ih =>
      obtain ⟨hc, hp⟩ := List.forall_mem_cons.1 h
      rw [List.flatMap_cons, List.cons_append, Text.pieces_cons_sep (by decide),
        Text.pieces_append_of_no_sep hc.2.2.2]
      simp [ih hp]

/-- Components are followed one after the other. -/
theorem foldl_step (h : Canonical p) (stack : List String) :
    p.foldl step stack = p.reverse ++ stack := by
  induction p generalizing stack with
  | nil => rfl
  | cons c p ih =>
      obtain ⟨⟨h₁, h₂, h₃, -⟩, hp⟩ := List.forall_mem_cons.1 h
      have hstep : step stack c = c :: stack := by
        rw [step, if_neg (by simp [h₁, h₂]), if_neg h₃]
      rw [List.foldl_cons, hstep, ih hp]
      simp

/-- A canonical path is read from its text. -/
theorem ofText_render (h : Canonical p) : ofText p.render = p := by
  by_cases hp : p = []
  · subst hp
    rfl
  · have hsplit : split p.render = "" :: p := by
      rw [split, toList_render hp, pieces_flatMap h]
      simp
    rw [ofText, hsplit, List.foldl_cons]
    have hempty : step [] "" = [] := rfl
    rw [hempty, foldl_step h]
    simp

/-! ## The bytes of the text -/

theorem utf8_render (hp : p ≠ []) :
    Text.utf8 p.render = p.flatMap fun c => 0x2f :: Text.utf8 c := by
  have hslash : String.utf8EncodeChar '/' = [0x2f] := by decide
  rw [Text.utf8_eq_flatMap, toList_render hp, List.flatMap_assoc]
  simp only [List.flatMap_cons, hslash, List.cons_append, List.nil_append, Text.utf8_eq_flatMap]

theorem utf8_render_concat (p : TreePath) (c : String) :
    Text.utf8 (render (p ++ [c])) =
      (p.flatMap fun c => 0x2f :: Text.utf8 c) ++ 0x2f :: Text.utf8 c := by
  rw [utf8_render (List.concat_ne_nil c p), List.flatMap_append, List.flatMap_singleton]

/-- A directory has smaller bytes than what is in it. -/
theorem utf8_render_lt_concat (hp : p ≠ []) (c : String) :
    Text.utf8 p.render < Text.utf8 (render (p ++ [c])) := by
  rw [utf8_render_concat, utf8_render hp]
  conv_lhs => rw [← List.append_nil (p.flatMap _)]
  exact List.append_left_lt (List.nil_lt_cons _ _)

/-- What is in one directory stands in the order of the names. -/
theorem utf8_render_concat_lt (p : TreePath) (h : c < d) :
    Text.utf8 (render (p ++ [c])) < Text.utf8 (render (p ++ [d])) := by
  rw [utf8_render_concat, utf8_render_concat]
  exact List.append_left_lt (List.cons_lt_cons_iff.2 (.inr ⟨rfl, Text.utf8_lt_iff.2 h⟩))

/-! ## Parents and names -/

theorem parent_concat (p : TreePath) (c : String) : parent (p ++ [c]) = p :=
  List.dropLast_concat

/-- A path below the root is its parent and its name. -/
theorem parent_append_name (hp : p ≠ []) : p.parent ++ [p.name] = p := by
  have hname : p.name = p.getLast hp := by
    rw [name, List.getLastD_eq_getLast?, List.getLast?_eq_some_getLast hp]
    rfl
  rw [hname]
  exact List.dropLast_concat_getLast hp

theorem parent_isPrefix (p : TreePath) : p.parent <+: p := List.dropLast_prefix p

/-! ## The order of a walk -/

theorem le_append (p q r : TreePath) : le (p ++ q) (p ++ r) = le q r := by
  induction p with
  | nil => rfl
  | cons c p ih => simpa [le] using ih

/-- In one directory the order of a walk is that of the names. -/
theorem le_concat_iff (h : c ≠ d) : le (p ++ [c]) (p ++ [d]) = true ↔ c < d := by
  rw [le_append]
  simp [le, h]

/-- The order of a walk is that of the lists of components, compared by bytes. -/
theorem map_utf8_lt : ∀ {p q : TreePath}, le p q = true → p ≠ q →
    p.map Text.utf8 < q.map Text.utf8
  | [], [], _, hne => absurd rfl hne
  | [], _ :: _, _, _ => List.nil_lt_cons _ _
  | _ :: _, [], h, _ => by simp [le] at h
  | c :: p, d :: q, h, hne => by
      rw [List.map_cons, List.map_cons, List.cons_lt_cons_iff]
      by_cases hcd : c = d
      · subst hcd
        refine .inr ⟨rfl, map_utf8_lt (by simpa [le] using h) fun hpq => hne ?_⟩
        rw [hpq]
      · refine .inl (Text.utf8_lt_iff.2 ?_)
        simpa [le, hcd] using h

end ArchiveMount.TreePath
