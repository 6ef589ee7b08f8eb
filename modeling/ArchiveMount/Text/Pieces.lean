/-
# `ArchiveMount.Text.Pieces` — text cut at separators

`pieces sep s` is what stands between the separators of `s`, in order; `n`
separators make `n + 1` pieces, some of them perhaps empty.  No piece holds a
separator (`not_sep_of_mem_pieces`), and cutting a joined list gives the list back
(`pieces_append_sep`).
-/

namespace ArchiveMount.Text

/-- Put a character before what has been cut, which is a first piece and the rest. -/
def cut (sep : Char → Bool) (c : Char) (r : List Char × List (List Char)) :
    List Char × List (List Char) :=
  if sep c then ([], r.1 :: r.2) else (c :: r.1, r.2)

/-- The pieces of a text between separators. -/
def pieces (sep : Char → Bool) (s : List Char) : List (List Char) :=
  let r := s.foldr (cut sep) ([], [])
  r.1 :: r.2

@[simp] theorem pieces_nil (sep : Char → Bool) : pieces sep [] = [[]] := rfl

theorem pieces_cons_sep {sep : Char → Bool} {c : Char} (h : sep c = true) (s : List Char) :
    pieces sep (c :: s) = [] :: pieces sep s := by
  simp [pieces, cut, h]

theorem pieces_ne_nil (sep : Char → Bool) (s : List Char) : pieces sep s ≠ [] := by
  simp [pieces]

/-- A text without separators is one piece, and extends the first of what follows. -/
theorem pieces_append_of_no_sep {sep : Char → Bool} {u : List Char}
    (h : ∀ c ∈ u, sep c = false) (s : List Char) :
    pieces sep (u ++ s) =
      (u ++ (pieces sep s).head (pieces_ne_nil sep s)) :: (pieces sep s).tail := by
  induction u with
  | nil => simp [pieces]
  | cons c u ih =>
    have hc := h c (by simp)
    have hu := ih fun x hx => h x (by simp [hx])
    simp only [pieces, List.cons_append, List.foldr_cons, List.head_cons, List.tail_cons,
      List.cons.injEq] at hu ⊢
    simp [cut, hc, hu.1, hu.2, -List.foldr_append]

/-- The piece before a separator stands alone. -/
theorem pieces_append_sep {sep : Char → Bool} {u : List Char} {c : Char}
    (h : ∀ x ∈ u, sep x = false) (hc : sep c = true) (s : List Char) :
    pieces sep (u ++ c :: s) = u :: pieces sep s := by
  rw [pieces_append_of_no_sep h]
  simp [pieces_cons_sep hc]

theorem not_sep_of_mem_pieces {sep : Char → Bool} {s p : List Char} (hp : p ∈ pieces sep s) :
    ∀ c ∈ p, sep c = false := by
  induction s generalizing p with
  | nil => simp_all
  | cons c s ih =>
    by_cases hc : sep c = true
    · rw [pieces_cons_sep hc] at hp
      rcases List.mem_cons.1 hp with rfl | hp
      · simp
      · exact ih hp
    · have hc : sep c = false := by simpa using hc
      rw [← List.singleton_append, pieces_append_of_no_sep (by simpa using hc)] at hp
      rcases List.mem_cons.1 hp with rfl | hp
      · intro x hx
        rcases List.mem_append.1 hx with hx | hx
        · simp_all
        · exact ih (List.head_mem (pieces_ne_nil sep s)) x hx
      · exact ih (List.mem_of_mem_tail hp)

/-! ## Cutting once -/

/-- Cut at the first `c`. -/
def cutAt? (c : Char) (s : List Char) : Option (List Char × List Char) :=
  match s.dropWhile (· ≠ c) with
  | [] => none
  | _ :: rest => some (s.takeWhile (· ≠ c), rest)

/-- Drop blanks at both ends. -/
def trimBlanks (s : List Char) : List Char :=
  ((s.dropWhile Char.isWhitespace).reverse.dropWhile Char.isWhitespace).reverse

end ArchiveMount.Text
