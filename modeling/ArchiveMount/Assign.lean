/-
# `ArchiveMount.Assign` — states of many, changed one at a time

The state of any number of callers, locks or the like is a function of their numbers;
`assign f i a` gives the one with number `i` a new state.
-/

namespace ArchiveMount

/-- The same states but for one. -/
def assign {α : Type} (f : Nat → α) (i : Nat) (a : α) : Nat → α :=
  fun j => if j = i then a else f j

@[simp] theorem assign_self {α : Type} (f : Nat → α) (i : Nat) (a : α) : assign f i a i = a := by
  simp [assign]

theorem assign_of_ne {α : Type} (f : Nat → α) {i j : Nat} (a : α) (h : j ≠ i) :
    assign f i a j = f j := by
  simp [assign, h]

end ArchiveMount
