/-
# `ArchiveMount.Proofs.Object.RangeHeader` — ranges and spans as header text

`rangeSet?` reads a `Range` header by the grammar of HTTP, in which a number has any count
of digits and a header may list several ranges.  The expression of a range is read as this
range alone (`rangeSet?_expression`), and a `Content-Range` text is read as the span and the
size that are written in it (`ofText?_rendered`).
-/
import ArchiveMount.Object.Http
import ArchiveMount.Proofs.Text.Lossy

namespace ArchiveMount

/-! ## Decimal numbers -/

theorem isDigit_of_mem {n : Nat} {c : Char} (h : c ∈ Nat.toDigits 10 n) : c.isDigit = true :=
  Nat.isDigit_of_mem_toDigits (by decide) (by decide) h

theorem visible_of_mem {n : Nat} {c : Char} (h : c ∈ Nat.toDigits 10 n) :
    32 ≤ c.toNat ∧ c.toNat < 127 := by
  have hd := isDigit_of_mem h
  simp only [Char.isDigit, Bool.and_eq_true, decide_eq_true_eq] at hd
  obtain ⟨hlow, hhigh⟩ := hd
  rw [ge_iff_le, UInt32.le_iff_toNat_le] at hlow
  rw [UInt32.le_iff_toNat_le] at hhigh
  exact ⟨Nat.le_trans (by decide) hlow, Nat.lt_of_le_of_lt hhigh (by decide)⟩

/-- A number is written without any sign. -/
theorem ne_of_mem {n : Nat} {c d : Char} (hd : d.isDigit = false) (h : c ∈ Nat.toDigits 10 n) :
    c ≠ d := by
  rintro rfl
  rw [isDigit_of_mem h] at hd
  cases hd

theorem toList_toString (n : Nat) : (toString n).toList = Nat.toDigits 10 n := Nat.toList_repr

/-- A 64-bit quantity is read from its digits. -/
theorem decimalWord?_toDigits {n : Nat} (h : n ≤ maxWord) :
    decimalWord? (Nat.toDigits 10 n) = some n := by
  have hsign : (Nat.toDigits 10 n).head? ≠ some '+' := by
    intro hplus
    exact ne_of_mem (by decide) (List.mem_of_mem_head? hplus) rfl
  have hdigits : ((Nat.toDigits 10 n).isEmpty || !(Nat.toDigits 10 n).all Char.isDigit) = false := by
    have hall : (Nat.toDigits 10 n).all Char.isDigit = true :=
      List.all_eq_true.2 fun c hc => isDigit_of_mem hc
    simp [hall, Nat.toDigits_ne_nil]
  have hvalue : (Nat.toDigits 10 n).foldl (fun n c => n * 10 + (c.toNat - 48)) 0 = n := by
    refine Eq.trans ?_ (Nat.ofDigitChars_toDigits (n := n) (by decide) (Nat.le_refl 10))
    simp only [Nat.ofDigitChars, Nat.mul_comm 10]
    rfl
  simp only [decimalWord?, if_neg hsign, hdigits, Bool.false_eq_true, if_false, hvalue, if_pos h]

/-! ## Cutting -/

namespace Text

theorem cutAt?_append {c : Char} {u : List Char} (h : ∀ x ∈ u, x ≠ c) (s : List Char) :
    cutAt? c (u ++ c :: s) = some (u, s) := by
  have hu : ∀ x ∈ u, decide (x ≠ c) = true := by
    intro x hx
    simpa using h x hx
  simp only [cutAt?, List.dropWhile_append_of_pos hu, List.takeWhile_append_of_pos hu]
  simp

/-- Nothing is trimmed from a text that begins and ends with something else than a blank. -/
theorem trimBlanks_eq_self {s : List Char} (hhead : ∀ c ∈ s.head?, c.isWhitespace = false)
    (hlast : ∀ c ∈ s.getLast?, c.isWhitespace = false) : trimBlanks s = s := by
  have hdrop : ∀ {u : List Char}, (∀ c ∈ u.head?, c.isWhitespace = false) →
      u.dropWhile Char.isWhitespace = u := by
    intro u hu
    cases u with
    | nil => rfl
    | cons c u => simp [hu c rfl]
  rw [trimBlanks, hdrop hhead, hdrop, List.reverse_reverse]
  rwa [List.head?_reverse]

theorem isWhitespace_of_isDigit {c : Char} (h : c.isDigit = true) : c.isWhitespace = false := by
  simp only [Char.isDigit, Bool.and_eq_true, decide_eq_true_eq] at h
  have hne : ∀ d : Char, d.val < 48 → c ≠ d := by
    rintro d hd rfl
    exact absurd h.1 (UInt32.not_le.2 hd)
  simp [Char.isWhitespace, hne]

/-- There are no blanks in what is made of digits and hyphens. -/
theorem trimBlanks_of_digits {s : List Char} (h : ∀ c ∈ s, c.isDigit = true ∨ c = '-') :
    trimBlanks s = s := by
  have hblank : ∀ c ∈ s, c.isWhitespace = false := by
    intro c hc
    rcases h c hc with hd | rfl
    · exact isWhitespace_of_isDigit hd
    · rfl
  refine trimBlanks_eq_self ?_ ?_
  · intro c hc
    exact hblank c (List.mem_of_mem_head? hc)
  · intro c hc
    exact hblank c (List.mem_of_mem_getLast? hc)

theorem trimBlanks_toDigits (n : Nat) : trimBlanks (Nat.toDigits 10 n) = Nat.toDigits 10 n :=
  trimBlanks_of_digits fun _ hc => .inl (isDigit_of_mem hc)

/-- A visible ASCII character is one byte, its own number. -/
theorem utf8_of_visible {s : String} (h : ∀ c ∈ s.toList, 32 ≤ c.toNat ∧ c.toNat < 127) :
    utf8 s = s.toList.map fun c => UInt8.ofNat c.toNat := by
  have hbytes : ∀ {cs : List Char}, (∀ c ∈ cs, 32 ≤ c.toNat ∧ c.toNat < 127) →
      cs.flatMap String.utf8EncodeChar = cs.map fun c => UInt8.ofNat c.toNat := by
    intro cs hcs
    induction cs with
    | nil => rfl
    | cons c cs ih =>
        obtain ⟨hc, hrest⟩ := List.forall_mem_cons.1 hcs
        have hsmall : c.val.toNat ≤ 127 := Nat.le_of_lt hc.2
        rw [List.flatMap_cons, List.map_cons, ih hrest]
        simp only [String.utf8EncodeChar, hsmall, if_true]
        rfl
  rw [utf8_eq_flatMap]
  exact hbytes h

end Text

/-! ## The header of a request -/

namespace ByteRange

/-- A number of any size, in digits. -/
def digits? (s : List Char) : Option Nat :=
  if !s.isEmpty && s.all Char.isDigit then some (Nat.ofDigitChars 10 s 0) else none

/-- One range of a list: a first and a last position, a first position alone, or the length
of a suffix.  Bounds that are the wrong way round are not a range. -/
def rangeSpec? (s : List Char) : Option ByteRange :=
  match Text.cutAt? '-' s with
  | none => none
  | some ([], len) => (digits? len).map .suffix
  | some (first, []) => (digits? first).map .onward
  | some (first, last) =>
    match digits? first, digits? last with
    | some first, some last => if first ≤ last then some (.bounded first last) else none
    | _, _ => none

/-- The ranges that a `Range` header lists; there has to be one at least. -/
def rangeSet? (s : List Char) : Option (List ByteRange) :=
  let specs := ((Text.pieces (· = ',') (s.drop 6)).map Text.trimBlanks).filter (!·.isEmpty)
  if s.take 6 = "bytes=".toList ∧ specs ≠ [] then specs.mapM rangeSpec? else none

theorem digits?_toDigits (n : Nat) : digits? (Nat.toDigits 10 n) = some n := by
  have hall : (Nat.toDigits 10 n).all Char.isDigit = true :=
    List.all_eq_true.2 fun c hc => isDigit_of_mem hc
  simp [digits?, hall, Nat.toDigits_ne_nil, Nat.ofDigitChars_toDigits]

/-- A range as it stands in a list of ranges. -/
def spec : ByteRange → List Char
  | .whole => []
  | .onward start => Nat.toDigits 10 start ++ ['-']
  | .bounded first last => Nat.toDigits 10 first ++ '-' :: Nat.toDigits 10 last
  | .suffix len => '-' :: Nat.toDigits 10 len

theorem digit_or_hyphen_of_mem_spec {r : ByteRange} {c : Char} (h : c ∈ r.spec) :
    c.isDigit = true ∨ c = '-' := by
  have hdigit : ∀ {n : Nat}, c ∈ Nat.toDigits 10 n → c.isDigit = true := isDigit_of_mem
  cases r with
  | whole => cases h
  | onward start =>
      rcases List.mem_append.1 h with h | h
      · exact .inl (hdigit h)
      · exact .inr (List.mem_singleton.1 h)
  | bounded first last =>
      rcases List.mem_append.1 h with h | h
      · exact .inl (hdigit h)
      · exact (List.mem_cons.1 h).symm.imp_left hdigit
  | suffix len => exact (List.mem_cons.1 h).symm.imp_left hdigit

theorem toList_expression {r : ByteRange} {text : String} (h : r.expression? = some text) :
    text.toList = "bytes=".toList ++ r.spec := by
  cases r with
  | whole => cases h
  | onward start =>
      obtain rfl := Option.some.inj h
      rw [String.toList_append, String.toList_append, toList_toString, List.append_assoc]
      rfl
  | bounded first last =>
      obtain rfl := Option.some.inj h
      rw [String.toList_append, String.toList_append, String.toList_append, toList_toString,
        toList_toString, List.append_assoc, List.append_assoc]
      rfl
  | suffix len =>
      obtain rfl := Option.some.inj h
      rw [String.toList_append, toList_toString]
      rfl

/-- Bounds, if there are two, are in order and fit 64 bits. -/
def InOrder : ByteRange → Prop
  | .bounded first last => first ≤ last ∧ last ≤ maxWord
  | _ => True

theorem cutAt?_toDigits (n : Nat) (s : List Char) :
    Text.cutAt? '-' (Nat.toDigits 10 n ++ '-' :: s) = some (Nat.toDigits 10 n, s) :=
  Text.cutAt?_append (fun _ hc => ne_of_mem (by decide) hc) s

theorem rangeSpec?_spec {r : ByteRange} (hr : r.InOrder) (hne : r ≠ .whole) :
    rangeSpec? r.spec = some r := by
  cases r with
  | whole => exact absurd rfl hne
  | onward start =>
      rw [spec, rangeSpec?, cutAt?_toDigits]
      split
      case h_1 h => cases h
      case h_2 h => exact absurd (congrArg Prod.fst (Option.some.inj h)) Nat.toDigits_ne_nil
      case h_3 h =>
        obtain ⟨rfl, -⟩ := Prod.mk.inj (Option.some.inj h)
        rw [digits?_toDigits, Option.map_some]
      case h_4 hlast h => exact absurd (Prod.mk.inj (Option.some.inj h)).2.symm (hlast ·)
  | bounded first last =>
      rw [spec, rangeSpec?, cutAt?_toDigits]
      split
      case h_1 h => cases h
      case h_2 h => exact absurd (congrArg Prod.fst (Option.some.inj h)) Nat.toDigits_ne_nil
      case h_3 h => exact absurd (congrArg Prod.snd (Option.some.inj h)) Nat.toDigits_ne_nil
      case h_4 h =>
        obtain ⟨rfl, rfl⟩ := Prod.mk.inj (Option.some.inj h)
        simp only [digits?_toDigits, if_pos hr.1]
  | suffix len =>
      have hcut := Text.cutAt?_append (c := '-') (u := []) (by simp) (Nat.toDigits 10 len)
      rw [List.nil_append] at hcut
      simp only [spec, rangeSpec?, hcut, digits?_toDigits, Option.map_some]

/-- A header of one range lists this range. -/
theorem rangeSet?_of_spec {spec : List Char} (hne : spec ≠ [])
    (hspec : ∀ c ∈ spec, c.isDigit = true ∨ c = '-') :
    rangeSet? ("bytes=".toList ++ spec) = (rangeSpec? spec).map fun r => [r] := by
  have hcomma : ∀ c ∈ spec, decide (c = ',') = false := by
    intro c hc
    rw [decide_eq_false_iff_not]
    rintro rfl
    exact absurd (hspec ',' hc) (by decide)
  have hpieces : Text.pieces (· = ',') spec = [spec] := by
    have hone := Text.pieces_append_of_no_sep hcomma []
    rw [List.append_nil] at hone
    exact hone.trans (by simp)
  have htrim := Text.trimBlanks_of_digits hspec
  have hkept : ((Text.pieces (· = ',') spec).map Text.trimBlanks).filter (!·.isEmpty) = [spec] := by
    rw [hpieces, List.map_singleton, htrim]
    simp [hne]
  have hdrop : ("bytes=".toList ++ spec).drop 6 = spec := rfl
  simp only [rangeSet?, hdrop, hkept]
  rw [if_pos ⟨rfl, List.cons_ne_nil _ _⟩]
  cases hs : rangeSpec? spec <;> simp [hs]

/-- The expression of a range is read as this range, and as no other. -/
theorem rangeSet?_expression {r : ByteRange} {text : String} (hr : r.InOrder)
    (h : r.expression? = some text) : rangeSet? text.toList = some [r] := by
  have hne : r ≠ .whole := by
    rintro rfl
    cases h
  have hspec := rangeSpec?_spec hr hne
  have hnil : r.spec ≠ [] := by
    intro hnil
    rw [hnil] at hspec
    cases hspec
  rw [toList_expression h, rangeSet?_of_spec hnil fun _ hc => digit_or_hyphen_of_mem_spec hc, hspec,
    Option.map_some]

end ByteRange

/-! ## The header of an answer -/

/-- The first header of a name is read as the text that was written there. -/
theorem HttpResponse.header?_of_find? {r : HttpResponse} {name given text : String}
    (h : r.headers.find? (fun h => h.1.map Char.toLower = name) = some (given, Text.utf8 text))
    (hvisible : ∀ c ∈ text.toList, 32 ≤ c.toNat ∧ c.toNat < 127) :
    r.header? name = some text.toList := by
  have hbyte : ∀ c ∈ text.toList, (UInt8.ofNat c.toNat).toNat = c.toNat := by
    intro c hc
    have hlt := (hvisible c hc).2
    rw [UInt8.toNat_ofNat']
    omega
  have hall : (Text.utf8 text).all (fun b => (32 ≤ b && b < 127) || b = 9) = true := by
    rw [Text.utf8_of_visible hvisible, List.all_map, List.all_eq_true]
    intro c hc
    obtain ⟨hle, hlt⟩ := hvisible c hc
    have hlow : (32 : UInt8) ≤ UInt8.ofNat c.toNat := by
      rw [UInt8.le_iff_toNat_le, hbyte c hc]
      exact hle
    have hhigh : UInt8.ofNat c.toNat < (127 : UInt8) := by
      rw [UInt8.lt_iff_toNat_lt, hbyte c hc]
      exact hlt
    simp [hlow, hhigh]
  have hchars : (Text.utf8 text).map (fun b => Char.ofNat b.toNat) = text.toList := by
    rw [Text.utf8_of_visible hvisible, List.map_map]
    refine (List.map_congr_left ?_).trans (List.map_id _)
    intro c hc
    exact Text.char_eq_ofNat (hbyte c hc)
  simp only [HttpResponse.header?, h, Option.bind_eq_bind, Option.bind_some, hall, if_true, hchars]

namespace ContentRange

/-- A span, both ends included, and the size of the object, as servers write them. -/
def rendered (first last size : Nat) : String := s!"bytes {first}-{last}/{size}"

theorem toList_rendered (first last size : Nat) :
    (rendered first last size).toList = "bytes ".toList ++ ((Nat.toDigits 10 first ++
      '-' :: Nat.toDigits 10 last) ++ '/' :: Nat.toDigits 10 size) := by
  simp only [rendered, String.toList_append, toList_toString, List.append_assoc]
  rfl

theorem visible_rendered (first last size : Nat) :
    ∀ c ∈ (rendered first last size).toList, 32 ≤ c.toNat ∧ c.toNat < 127 := by
  intro c hc
  have hunit : "bytes ".toList.all (fun c => decide (32 ≤ c.toNat ∧ c.toNat < 127)) = true := by
    decide
  rw [toList_rendered] at hc
  simp only [List.mem_append, List.mem_cons] at hc
  rcases hc with hc | ((hc | rfl | hc) | rfl | hc)
  · exact of_decide_eq_true (List.all_eq_true.1 hunit c hc)
  · exact visible_of_mem hc
  · decide
  · exact visible_of_mem hc
  · decide
  · exact visible_of_mem hc

/-- A text is read as the span and the size that are written in it. -/
theorem ofText?_rendered {first last size : Nat} (h : first ≤ last) (hlast : last ≤ maxWord)
    (hsize : size ≤ maxWord) :
    ofText? (rendered first last size).toList = some ⟨first, last, some size⟩ := by
  have htrim : Text.trimBlanks (rendered first last size).toList = "bytes ".toList ++
      ((Nat.toDigits 10 first ++ '-' :: Nat.toDigits 10 last) ++ '/' :: Nat.toDigits 10 size) := by
    rw [← toList_rendered]
    refine Text.trimBlanks_eq_self ?_ ?_
    · intro c hc
      rw [toList_rendered] at hc
      obtain rfl := Option.some.inj hc
      rfl
    · intro c hc
      rw [toList_rendered] at hc
      obtain ⟨x, hx⟩ : ∃ x, (Nat.toDigits 10 size).getLast? = some x :=
        Option.isSome_iff_exists.1 (List.getLast?_isSome.2 Nat.toDigits_ne_nil)
      rw [List.getLast?_append, List.getLast?_append, List.getLast?_cons, hx] at hc
      obtain rfl := Option.some.inj hc
      exact Text.isWhitespace_of_isDigit (isDigit_of_mem (List.mem_of_getLast? hx))
  have hslash : Text.cutAt? '/' ((Nat.toDigits 10 first ++ '-' :: Nat.toDigits 10 last) ++
      '/' :: Nat.toDigits 10 size) =
        some (Nat.toDigits 10 first ++ '-' :: Nat.toDigits 10 last, Nat.toDigits 10 size) := by
    refine Text.cutAt?_append ?_ _
    intro c hc
    rcases List.mem_append.1 hc with hc | hc
    · exact ne_of_mem (by decide) hc
    · rcases List.mem_cons.1 hc with rfl | hc
      · decide
      · exact ne_of_mem (by decide) hc
  have hstar : Nat.toDigits 10 size ≠ ['*'] := by
    intro heq
    exact ne_of_mem (n := size) (c := '*') (by decide) (by simp [heq]) rfl
  have hunit : ("bytes ".toList ++ ((Nat.toDigits 10 first ++ '-' :: Nat.toDigits 10 last) ++
      '/' :: Nat.toDigits 10 size)).take "bytes ".toList.length = "bytes ".toList := rfl
  have hrest : ("bytes ".toList ++ ((Nat.toDigits 10 first ++ '-' :: Nat.toDigits 10 last) ++
      '/' :: Nat.toDigits 10 size)).drop "bytes ".toList.length =
        (Nat.toDigits 10 first ++ '-' :: Nat.toDigits 10 last) ++ '/' :: Nat.toDigits 10 size := rfl
  have hfirst := decimalWord?_toDigits (Nat.le_trans h hlast)
  simp only [ofText?, htrim, hunit, hrest, hslash, ByteRange.cutAt?_toDigits,
    Text.trimBlanks_toDigits, if_neg hstar, decimalWord?_toDigits hlast,
    decimalWord?_toDigits hsize, hfirst, ne_eq, not_true_eq_false, if_false, if_pos h,
    Option.bind_eq_bind, Option.bind_some, Option.map_some]

end ContentRange

end ArchiveMount
