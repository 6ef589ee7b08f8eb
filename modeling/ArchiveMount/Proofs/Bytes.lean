/-
# `ArchiveMount.Proofs.Bytes` — reading what has been put together

Slices and number fields of a byte string made by `++`, from its left and from its right
part.  `numbers` writes a record as numbers of given widths; `field_numbers` reads them back
one by one, and `numbers_inj` says that the widths and the bytes tell them.  Hexadecimal text
stands for one byte string only (`hex_inj`).
-/
import ArchiveMount.Bytes
import Mathlib.Tactic.SplitIfs

namespace ArchiveMount.Bytes

@[simp] theorem capacity_two : capacity 2 = 0x10000 := rfl

/-! ## Numbers and digits -/

/-- A number that fits can be read off the bytes that write it. -/
theorem ofNat_inj {w m n : Nat} (hm : m < capacity w) (hn : n < capacity w)
    (h : ofNat w m = ofNat w n) : m = n := by
  rw [← toNat_ofNat w m hm, ← toNat_ofNat w n hn, h]

theorem hexDigit_inj : ∀ m n : Fin 16, hexDigit m = hexDigit n → m = n := by decide

/-- Two digits tell which byte they stand for. -/
theorem eq_of_hexDigit_eq {x y : UInt8} (hhigh : hexDigit (x.toNat / 16) = hexDigit (y.toNat / 16))
    (hlow : hexDigit (x.toNat % 16) = hexDigit (y.toNat % 16)) : x = y := by
  have hx := x.toNat_lt
  have hy := y.toNat_lt
  have hq := hexDigit_inj ⟨x.toNat / 16, by omega⟩ ⟨y.toNat / 16, by omega⟩ hhigh
  have hr := hexDigit_inj ⟨x.toNat % 16, by omega⟩ ⟨y.toNat % 16, by omega⟩ hlow
  simp only [Fin.mk.injEq] at hq hr
  apply UInt8.toNat_inj.1
  omega

/-- Hexadecimal text tells which bytes it stands for. -/
theorem hex_inj {a b : Bytes} (h : hex a = hex b) : a = b := by
  have hdigits := String.ofList_injective h
  clear h
  induction a generalizing b with
  | nil =>
      cases b with
      | nil => rfl
      | cons y b => cases hdigits
  | cons x a ih =>
      cases b with
      | nil => cases hdigits
      | cons y b =>
          simp only [List.flatMap_cons, List.cons_append, List.nil_append,
            List.cons.injEq] at hdigits
          obtain ⟨hhigh, hlow, hrest⟩ := hdigits
          rw [eq_of_hexDigit_eq hhigh hlow, ih hrest]

/-! ## Slices -/

theorem length_slice (b : Bytes) (start len : Nat) :
    (slice b start len).length = min len (b.length - start) := by
  simp [slice]

theorem slice_append_of_ge {a b : Bytes} {start len : Nat} (h : a.length ≤ start) :
    slice (a ++ b) start len = slice b (start - a.length) len := by
  simp only [slice]
  rw [List.drop_append, List.drop_eq_nil_of_le h, List.nil_append]

theorem slice_append_of_le {a : Bytes} {start len : Nat} (b : Bytes) (h : start + len ≤ a.length) :
    slice (a ++ b) start len = slice a start len := by
  simp only [slice]
  rw [List.drop_append_of_le_length (by omega), List.take_append_of_le_length]
  rw [List.length_drop]
  omega

theorem slice_zero_append (a b : Bytes) : slice (a ++ b) 0 a.length = a := by
  simp [slice]

/-- A part in the middle. -/
theorem slice_append_append (a b c : Bytes) : slice (a ++ (b ++ c)) a.length b.length = b := by
  rw [slice_append_of_ge (Nat.le_refl _), Nat.sub_self, slice_zero_append]

theorem slice_slice (b : Bytes) {start len start' len' : Nat} (h : start' + len' ≤ len) :
    slice (slice b start len) start' len' = slice b (start + start') len' := by
  simp only [slice]
  rw [List.drop_take, List.drop_drop, List.take_take, Nat.min_eq_left (by omega)]

/-! ## Fields -/

theorem field_drop (b : Bytes) (n start width : Nat) :
    field (b.drop n) start width = field b (n + start) width := by
  simp [field, slice]

theorem field_slice (b : Bytes) {start len start' width : Nat} (h : start' + width ≤ len) :
    field (slice b start len) start' width = field b (start + start') width := by
  rw [field, slice_slice b h, field]

theorem field_append_of_ge {a b : Bytes} {start width : Nat} (h : a.length ≤ start) :
    field (a ++ b) start width = field b (start - a.length) width := by
  rw [field, slice_append_of_ge h, field]

theorem field_append_of_le {a : Bytes} {start width : Nat} (b : Bytes)
    (h : start + width ≤ a.length) : field (a ++ b) start width = field a start width := by
  rw [field, slice_append_of_le b h, field]

theorem toNat_ofNat_mod (w n : Nat) : toNat (ofNat w n) = n % capacity w := by
  induction w generalizing n with
  | zero => simp [ofNat, toNat, capacity, Nat.mod_one]
  | succ w ih =>
    simp only [ofNat, toNat, capacity, ih, UInt8.toNat_ofNat']
    rw [Nat.mul_comm (capacity w) 256, Nat.mod_mul]

theorem field_lt (b : Bytes) (start width : Nat) : field b start width < capacity width := by
  have hmono : ∀ {m n : Nat}, m ≤ n → capacity m ≤ capacity n := by
    intro m n h
    induction h with
    | refl => exact Nat.le_refl _
    | step _ ih =>
      simp only [capacity]
      omega
  refine Nat.lt_of_lt_of_le (toNat_lt _) (hmono ?_)
  rw [length_slice]
  omega

/-! ## Records made of numbers -/

/-- Numbers one after the other, each with its width. -/
def numbers (ns : List (Nat × Nat)) : Bytes := ns.flatMap fun n => ofNat n.1 n.2

theorem numbers_cons (w n : Nat) (ns : List (Nat × Nat)) :
    numbers ((w, n) :: ns) = ofNat w n ++ numbers ns := rfl

/-- The widths of a record's numbers together. -/
def totalWidth : List (Nat × Nat) → Nat
  | [] => 0
  | (w, _) :: ns => w + totalWidth ns

theorem length_numbers (ns : List (Nat × Nat)) : (numbers ns).length = totalWidth ns := by
  induction ns with
  | nil => rfl
  | cons n ns ih =>
    obtain ⟨w, k⟩ := n
    rw [numbers_cons, List.length_append, length_ofNat, ih, totalWidth]

/-- Records of the same widths are of the same length. -/
theorem totalWidth_congr {ns ms : List (Nat × Nat)} (h : ns.map (·.1) = ms.map (·.1)) :
    totalWidth ns = totalWidth ms := by
  induction ns generalizing ms with
  | nil => rw [List.map_eq_nil_iff.1 h.symm]
  | cons n ns ih =>
      cases ms with
      | nil => cases h
      | cons m ms =>
          obtain ⟨hfirst, hrest⟩ := List.cons.inj h
          have hw : n.1 = m.1 := hfirst
          show n.1 + totalWidth ns = m.1 + totalWidth ms
          rw [ih hrest, hw]

/-- Records of the same widths that are the same bytes have the same numbers, if these fit. -/
theorem numbers_inj {ns ms : List (Nat × Nat)} (hwidths : ns.map (·.1) = ms.map (·.1))
    (hns : ∀ n ∈ ns, n.2 < capacity n.1) (hms : ∀ m ∈ ms, m.2 < capacity m.1)
    (h : numbers ns = numbers ms) : ns = ms := by
  induction ns generalizing ms with
  | nil => exact (List.map_eq_nil_iff.1 hwidths.symm).symm
  | cons n ns ih =>
      cases ms with
      | nil => cases hwidths
      | cons m ms =>
          obtain ⟨w, k⟩ := n
          obtain ⟨w', k'⟩ := m
          obtain ⟨hw, htails⟩ := List.cons.inj hwidths
          obtain rfl : w = w' := hw
          obtain ⟨hn, hns'⟩ := List.forall_mem_cons.1 hns
          obtain ⟨hm, hms'⟩ := List.forall_mem_cons.1 hms
          rw [numbers_cons, numbers_cons] at h
          obtain ⟨hfirst, hrest⟩ := List.append_inj h (by rw [length_ofNat, length_ofNat])
          obtain rfl : k = k' := ofNat_inj hn hm hfirst
          rw [ih htails hns' hms' hrest]

/-- The number of a width that stands at an offset, if one does. -/
def numberAt? : (ns : List (Nat × Nat)) → (start width : Nat) → Option Nat
  | [], _, _ => none
  | (w, n) :: ns, start, width =>
    if start = 0 then if w = width then some n else none
    else if w ≤ start then numberAt? ns (start - w) width
    else none

/-- A record of numbers is read number by number. -/
theorem field_numbers {ns : List (Nat × Nat)} {start width n : Nat} (rest : Bytes)
    (h : numberAt? ns start width = some n) :
    field (numbers ns ++ rest) start width = n % capacity width := by
  induction ns generalizing start with
  | nil => cases h
  | cons m ns ih =>
    obtain ⟨w, k⟩ := m
    rw [numbers_cons, List.append_assoc]
    simp only [numberAt?] at h
    split_ifs at h with h₁ h₂ h₃
    · obtain rfl := Option.some.inj h
      have hs : slice (ofNat w k ++ (numbers ns ++ rest)) 0 w = ofNat w k := by
        simpa using slice_zero_append (ofNat w k) (numbers ns ++ rest)
      rw [h₁, ← h₂, field, hs, toNat_ofNat_mod]
    · rw [field_append_of_ge (by simpa using h₃), length_ofNat]
      exact ih h

end ArchiveMount.Bytes
