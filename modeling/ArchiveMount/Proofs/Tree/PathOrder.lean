/-
# `ArchiveMount.Proofs.Tree.PathOrder` — the order of a walk

`TreePath.le` is a total order in which a path stands before everything below it, and
what lies below a path is an interval: whatever stands between a path and something
below it lies below it as well (`isPrefix_of_le_of_le`).  Two paths are `Apart` when
neither lies below the other.
-/
import ArchiveMount.Tree.Path
import Mathlib.Data.List.Pairwise

namespace ArchiveMount.TreePath

theorem le_refl : ∀ p : TreePath, le p p = true
  | [] => rfl
  | c :: p => by
      rw [le, if_pos rfl]
      exact le_refl p

theorem le_total : ∀ p q : TreePath, (le p q || le q p) = true
  | [], _ => by simp [le]
  | _ :: _, [] => by simp [le]
  | c :: p, d :: q => by
      by_cases h : c = d
      · subst h
        simpa [le] using le_total p q
      · have hd : d ≠ c := fun he => h he.symm
        rcases String.le_total c d with hc | hc
        · have hlt : c < d := Std.lt_of_le_of_ne hc h
          simp [le, h, hlt]
        · have hlt : d < c := Std.lt_of_le_of_ne hc hd
          simp [le, hd, hlt]

theorem le_antisymm : ∀ {p q : TreePath}, le p q = true → le q p = true → p = q
  | [], [], _, _ => rfl
  | [], _ :: _, _, h => by simp [le] at h
  | _ :: _, [], h, _ => by simp [le] at h
  | c :: p, d :: q, h₁, h₂ => by
      by_cases h : c = d
      · subst h
        simp only [le, if_true] at h₁ h₂
        rw [le_antisymm h₁ h₂]
      · have hd : d ≠ c := fun he => h he.symm
        simp only [le, if_neg h, if_neg hd, decide_eq_true_eq] at h₁ h₂
        exact absurd h₂ (String.lt_asymm h₁)

theorem le_trans : ∀ {p q r : TreePath}, le p q = true → le q r = true → le p r = true
  | [], _, _, _, _ => by simp [le]
  | _ :: _, [], _, h, _ => by simp [le] at h
  | _ :: _, _ :: _, [], _, h => by simp [le] at h
  | c :: p, d :: q, e :: r, h₁, h₂ => by
      by_cases hcd : c = d <;> by_cases hde : d = e
      · subst hcd hde
        simp only [le, if_true] at h₁ h₂ ⊢
        exact le_trans h₁ h₂
      · subst hcd
        simpa [le, hde] using h₂
      · subst hde
        simpa [le, hcd] using h₁
      · simp only [le, if_neg hcd, if_neg hde, decide_eq_true_eq] at h₁ h₂
        have hce := String.lt_trans h₁ h₂
        have hne : c ≠ e := fun he => String.lt_irrefl e (he ▸ hce)
        simp [le, hne, hce]

theorem le_of_isPrefix : ∀ {p q : TreePath}, p <+: q → le p q = true
  | [], _, _ => by simp [le]
  | _ :: _, [], h => by simp at h
  | c :: p, d :: q, h => by
      obtain ⟨rfl, hpq⟩ := List.cons_prefix_cons.1 h
      simpa [le] using le_of_isPrefix hpq

/-- What lies below a path is an interval of the order. -/
theorem isPrefix_of_le_of_le : ∀ {p q n : TreePath}, p <+: q → le p n = true → le n q = true →
    p <+: n
  | [], _, n, _, _, _ => List.nil_prefix
  | _ :: _, [], _, h, _, _ => by simp at h
  | _ :: _, _ :: _, [], _, h, _ => by simp [le] at h
  | c :: p, d :: q, e :: n, h, hn, hq => by
      obtain ⟨rfl, hpq⟩ := List.cons_prefix_cons.1 h
      by_cases hce : c = e
      · subst hce
        simp only [le, if_true] at hn hq
        exact List.cons_prefix_cons.2 ⟨rfl, isPrefix_of_le_of_le hpq hn hq⟩
      · have hec : e ≠ c := fun he => hce he.symm
        simp only [le, if_neg hce, if_neg hec, decide_eq_true_eq] at hn hq
        exact absurd hq (String.lt_asymm hn)

/-! ## Paths that are apart -/

/-- Neither path is the other one or an ancestor of it. -/
def Apart (p q : TreePath) : Prop := ¬ p <+: q ∧ ¬ q <+: p

instance (p q : TreePath) : Decidable (Apart p q) := inferInstanceAs (Decidable (_ ∧ _))

theorem Apart.symm {p q : TreePath} (h : Apart p q) : Apart q p := ⟨h.2, h.1⟩

instance : Std.Symm Apart := ⟨fun _ _ => Apart.symm⟩

/-- Among paths that are apart no two are equal. -/
theorem nodup_of_apart {ps : List TreePath} (h : ps.Pairwise Apart) : ps.Nodup := by
  refine h.imp fun hpq he => ?_
  subst he
  exact hpq.1 (List.prefix_refl _)

/-- Among paths that are apart only a path itself is on the way to it. -/
theorem eq_of_apart {ps : List TreePath} (h : ps.Pairwise Apart) {p q : TreePath} (hp : p ∈ ps)
    (hq : q ∈ ps) (hpq : p <+: q) : p = q := by
  by_contra hne
  exact (h.forall hp hq hne).1 hpq

end ArchiveMount.TreePath
