/-
# `ArchiveMount.Proofs.Tree.Normalization` — the rooted form of a text

A text is followed component by component (`follow`), so what stands behind a slash is
followed from where the text before the slash leads (`ofText_append_slash`).  That is all
there is to the law of composition: nothing before the slash matters but the path it stands
for.

`IsNormal` says how the rooted form of a text looks.  Its texts are those of the canonical
paths (`isNormal_iff`), and on them the text before the last slash is the parent, and what
stands behind it the name.
-/
import ArchiveMount.Proofs.Tree.Rendering

namespace ArchiveMount

/-! ## Texts cut at a separator -/

namespace Text

variable {sep : Char → Bool}

/-- What has been cut behind a text stays as it is. -/
theorem foldr_cut (u : List Char) (ps : List (List Char)) :
    u.foldr (cut sep) ([], ps) =
      ((u.foldr (cut sep) ([], [])).1, (u.foldr (cut sep) ([], [])).2 ++ ps) := by
  induction u with
  | nil => rfl
  | cons c u ih =>
      rw [List.foldr_cons, List.foldr_cons, ih, cut, cut]
      split <;> rfl

/-- The pieces before a separator, and those behind it. -/
theorem pieces_append_cons {c : Char} (hc : sep c = true) (u s : List Char) :
    pieces sep (u ++ c :: s) = pieces sep u ++ pieces sep s := by
  have hcut : ∀ r, cut sep c r = ([], r.1 :: r.2) := fun r => if_pos hc
  simp only [pieces, List.foldr_append, List.foldr_cons, hcut]
  rw [foldr_cut]
  rfl

end Text

namespace TreePath

variable {p q : TreePath} {c s t : String}

theorem split_append_slash (s t : String) : split (s ++ "/" ++ t) = split s ++ split t := by
  have hlist : (s ++ "/" ++ t).toList = s.toList ++ '/' :: t.toList := by simp
  rw [split, hlist, Text.pieces_append_cons (by decide), List.map_append]
  rfl

/-- A text without separators is one component. -/
theorem split_of_no_separator (h : ∀ x ∈ c.toList, isSeparator x = false) : split c = [c] := by
  have hpieces := Text.pieces_append_of_no_sep h []
  rw [List.append_nil] at hpieces
  rw [split, hpieces]
  simp

/-- A text is cut where its components were joined. -/
theorem split_intercalate {cs : List String} (hne : cs ≠ [])
    (h : ∀ c ∈ cs, ∀ x ∈ c.toList, isSeparator x = false) :
    split ("/".intercalate cs) = cs := by
  induction cs with
  | nil => exact absurd rfl hne
  | cons c cs ih =>
      obtain ⟨hc, hcs⟩ := List.forall_mem_cons.1 h
      cases cs with
      | nil =>
          rw [String.intercalate_singleton]
          exact split_of_no_separator hc
      | cons d cs =>
          rw [String.intercalate_cons_cons, split_append_slash, split_of_no_separator hc,
            ih (List.cons_ne_nil _ _) hcs]
          rfl

/-! ## Following a text -/

/-- Where the components of a text lead from a path. -/
def follow (p : TreePath) (s : String) : TreePath := ((split s).foldl step p.reverse).reverse

/-- What stands behind a slash is followed from where the text before it leads. -/
theorem ofText_append_slash (s t : String) : ofText (s ++ "/" ++ t) = (ofText s).follow t := by
  rw [ofText, split_append_slash, List.foldl_append, ofText, follow, List.reverse_reverse]

theorem follow_of_no_separator (p : TreePath) (h : ∀ x ∈ c.toList, isSeparator x = false) :
    p.follow c = p.enter c := by
  rw [follow, split_of_no_separator h]
  rfl

theorem enter_concat (h : IsComponent c) : p.enter c = p ++ [c] := by
  obtain ⟨h₁, h₂, h₃, -⟩ := h
  rw [enter, step, if_neg (by simp [h₁, h₂]), if_neg h₃, List.reverse_cons, List.reverse_reverse]

theorem enter_self (h : c = "" ∨ c = ".") : p.enter c = p := by
  rw [enter, step, if_pos h, List.reverse_reverse]

theorem enter_parent (p : TreePath) : p.enter ".." = p.parent := by
  rw [enter, step, if_neg (by decide), if_pos rfl, List.tail_reverse, List.reverse_reverse]
  rfl

/-- Components joined by slashes are read as the path that they make up. -/
theorem ofText_intercalate {cs : List String} (h : ∀ c ∈ cs, IsComponent c) :
    ofText ("/".intercalate cs) = cs := by
  by_cases hne : cs = []
  · subst hne
    rfl
  · rw [ofText, split_intercalate hne fun c hc => (h c hc).2.2.2, foldl_step h]
    simp

/-! ## The rooted form -/

/-- A lone slash, or a slash and proper components with a slash between each two. -/
def IsNormal (s : String) : Prop :=
  s = "/" ∨ ∃ cs : List String, cs ≠ [] ∧ (∀ c ∈ cs, IsComponent c) ∧
    s = "/" ++ "/".intercalate cs

theorem render_eq_intercalate (hp : p ≠ []) : p.render = "/" ++ "/".intercalate p := by
  apply String.toList_injective
  rw [toList_render hp, String.toList_append, String.toList_intercalate]
  induction p with
  | nil => exact absurd rfl hp
  | cons c p ih =>
      cases p with
      | nil => simp
      | cons d p =>
          have hrest := ih (List.cons_ne_nil _ _)
          rw [List.flatMap_cons, hrest]
          simp [List.intercalate_cons_cons]

theorem isNormal_render (h : Canonical p) : IsNormal p.render := by
  by_cases hp : p = []
  · subst hp
    exact .inl rfl
  · exact .inr ⟨p, hp, h, render_eq_intercalate hp⟩

/-- The texts in the rooted form are those of canonical paths. -/
theorem isNormal_iff : IsNormal s ↔ ∃ p, Canonical p ∧ p.render = s := by
  constructor
  · rintro (rfl | ⟨cs, hne, hcs, rfl⟩)
    · exact ⟨[], fun c hc => (nomatch hc), rfl⟩
    · exact ⟨cs, hcs, render_eq_intercalate hne⟩
  · rintro ⟨p, hp, rfl⟩
    exact isNormal_render hp

theorem normalize_render (h : Canonical p) : normalize p.render = p.render := by
  rw [normalize, ofText_render h]

/-- The last component of a rooted text stands behind its last slash. -/
theorem render_concat (p : TreePath) (c : String) :
    render (p ++ [c]) = (if p = [] then "" else p.render) ++ "/" ++ c := by
  apply String.toList_injective
  rw [toList_render (List.concat_ne_nil c p)]
  by_cases hp : p = []
  · subst hp
    simp
  · simp [hp, toList_render hp]

/-! ## The last slash -/

/-- What stands before the last slash of a text. -/
def beforeSlash (s : String) : String :=
  String.ofList (s.toList.reverse.dropWhile (· ≠ '/')).tail.reverse

/-- What stands behind the last slash of a text, or the whole text if it has none. -/
def behindSlash (s : String) : String :=
  String.ofList (s.toList.reverse.takeWhile (· ≠ '/')).reverse

/-- The text of the path above: what stands before the last slash, or the root if that is
nothing. -/
def parentText (s : String) : String := if beforeSlash s = "" then "/" else beforeSlash s

theorem reverse_toList_append (s c : String) :
    (s ++ "/" ++ c).toList.reverse = c.toList.reverse ++ '/' :: s.toList.reverse := by
  simp

theorem ne_slash_of_no_separator (hc : ∀ x ∈ c.toList, isSeparator x = false) :
    ∀ x ∈ c.toList.reverse, decide (x ≠ '/') = true := by
  intro x hx
  have hsep := hc x (List.mem_reverse.1 hx)
  simp only [isSeparator, Bool.or_eq_false_iff, decide_eq_false_iff_not] at hsep
  exact decide_eq_true hsep.1

theorem beforeSlash_append (s : String) (hc : ∀ x ∈ c.toList, isSeparator x = false) :
    beforeSlash (s ++ "/" ++ c) = s := by
  rw [beforeSlash, reverse_toList_append,
    List.dropWhile_append_of_pos (ne_slash_of_no_separator hc)]
  simp

theorem behindSlash_append (s : String) (hc : ∀ x ∈ c.toList, isSeparator x = false) :
    behindSlash (s ++ "/" ++ c) = c := by
  rw [behindSlash, reverse_toList_append,
    List.takeWhile_append_of_pos (ne_slash_of_no_separator hc)]
  simp

theorem name_mem (hp : p ≠ []) : p.name ∈ p := by
  have hmem : p.name ∈ p.parent ++ [p.name] := List.mem_append_right _ List.mem_cons_self
  rwa [parent_append_name hp] at hmem

theorem parentText_render_concat (p : TreePath) (h : IsComponent c) :
    parentText (render (p ++ [c])) = p.render := by
  rw [parentText, render_concat, beforeSlash_append _ h.2.2.2]
  by_cases hp : p = []
  · subst hp
    rfl
  · have hne : p.render ≠ "" := by
      intro hempty
      have hlist := congrArg String.toList hempty
      rw [toList_render hp] at hlist
      obtain ⟨c, p, rfl⟩ := List.exists_cons_of_ne_nil hp
      cases hlist
    rw [if_neg hp, if_neg hne]

theorem behindSlash_render_concat (p : TreePath) (h : IsComponent c) :
    behindSlash (render (p ++ [c])) = c := by
  rw [render_concat, behindSlash_append _ h.2.2.2]

/-- On texts in the rooted form the last slash parts the parent and the name. -/
theorem parentText_render (h : Canonical p) :
    parentText p.render = p.parent.render ∧ behindSlash p.render = p.name := by
  by_cases hp : p = []
  · subst hp
    exact ⟨by decide, by decide⟩
  · have hlast : IsComponent p.name := h _ (name_mem hp)
    have hparent := parentText_render_concat p.parent hlast
    have hname := behindSlash_render_concat p.parent hlast
    rw [parent_append_name hp] at hparent hname
    exact ⟨hparent, hname⟩

/-! ## What lies directly below a path -/

theorem canonical_parent (h : Canonical p) : Canonical p.parent :=
  fun c hc => h c ((parent_isPrefix p).subset hc)

theorem canonical_concat (h : Canonical p) (hc : IsComponent c) : Canonical (p ++ [c]) := by
  intro d hd
  rcases List.mem_append.1 hd with hd | hd
  · exact h d hd
  · rw [List.mem_singleton.1 hd]
    exact hc

theorem render_inj (hp : Canonical p) (hq : Canonical q) (h : p.render = q.render) : p = q := by
  rw [← ofText_render hp, h, ofText_render hq]

/-- A name behind a slash leads where it leads from the path before the slash, dots included. -/
theorem normalize_render_append_slash (h : Canonical p)
    (hc : ∀ x ∈ c.toList, isSeparator x = false) :
    normalize (p.render ++ "/" ++ c) = (p.enter c).render := by
  rw [normalize, ofText_append_slash, ofText_render h, follow_of_no_separator p hc]

/-- The one path with a parent and a name. -/
theorem eq_render_concat_iff (hp : Canonical p) (hc : IsComponent c) :
    s = render (p ++ [c]) ↔ IsNormal s ∧ parentText s = p.render ∧ behindSlash s = c := by
  constructor
  · rintro rfl
    exact ⟨isNormal_render (canonical_concat hp hc), parentText_render_concat p hc,
      behindSlash_render_concat p hc⟩
  · rintro ⟨hs, hparent, hname⟩
    obtain ⟨q, hq, rfl⟩ := isNormal_iff.1 hs
    rw [(parentText_render hq).1] at hparent
    rw [(parentText_render hq).2] at hname
    -- the root has no name, and a component is not empty
    have hne : q ≠ [] := by
      rintro rfl
      exact hc.1 hname.symm
    rw [← parent_append_name hne, hname, render_inj (canonical_parent hq) hp hparent]

/-- Normalising gives the rooted form, changes nothing that has it, and can be done to what
stands before a slash first; and what a proper name leads to from a text in rooted form is the
one text of this parent and this name. -/
theorem normalize_laws :
    (∀ s, IsNormal (normalize s)) ∧
    (∀ s, normalize (normalize s) = normalize s) ∧
    (∀ p, IsNormal p → normalize p = p) ∧
    (∀ s t, normalize (s ++ "/" ++ t) = normalize (normalize s ++ "/" ++ t)) ∧
    (∀ p c, IsNormal p → IsComponent c → ∀ s,
      s = normalize (p ++ "/" ++ c) ↔ IsNormal s ∧ parentText s = p ∧ behindSlash s = c) ∧
    -- on such texts this is the parent and the name of the path that is read from them
    ∀ p, IsNormal p →
      parentText p = (ofText p).parent.render ∧ behindSlash p = (ofText p).name := by
  refine ⟨?_, ?_, ?_, ?_, ?_, ?_⟩
  · intro s
    exact isNormal_render (canonical_ofText s)
  · intro s
    exact normalize_render (canonical_ofText s)
  · intro p hp
    obtain ⟨q, hq, rfl⟩ := isNormal_iff.1 hp
    exact normalize_render hq
  · intro s t
    have hfirst : ofText (normalize s) = ofText s := ofText_render (canonical_ofText s)
    rw [normalize, ofText_append_slash, normalize, ofText_append_slash, hfirst]
  · intro p c hp hc s
    obtain ⟨q, hq, rfl⟩ := isNormal_iff.1 hp
    rw [normalize_render_append_slash hq hc.2.2.2, enter_concat hc]
    exact eq_render_concat_iff hq hc
  · intro p hp
    obtain ⟨q, hq, rfl⟩ := isNormal_iff.1 hp
    rw [ofText_render hq]
    exact parentText_render hq

/-- Three dots are a name like any other. -/
theorem normalize_three_dots :
    IsNormal "/a b" ∧ IsComponent "..." ∧ normalize ("/a b" ++ "/" ++ "...") = "/a b/..." := by
  have hp : IsNormal "/a b" := .inr ⟨["a b"], by decide, by simp [IsComponent, isSeparator], rfl⟩
  have hc : IsComponent "..." := by simp [IsComponent, isSeparator]
  obtain ⟨-, -, -, -, hname, -⟩ := normalize_laws
  refine ⟨hp, hc, ((hname "/a b" "..." hp hc "/a b/...").2 ?_).symm⟩
  refine ⟨.inr ⟨["a b", "..."], by decide, ?_, by decide⟩, by decide, by decide⟩
  simp [IsComponent, isSeparator]

end TreePath

end ArchiveMount
