import Mathlib.Data.Nat.Digits.Defs
import TerminalMarkup.Color.Basic
import TerminalMarkup.Proofs.Color.Hex

/-!
# The grammar of color segments

The color that a style code names is spelled in one of three ways: hexadecimal digits behind a number sign
(`Color.HexShape`), decimal digits of a place in the palette (`Color.IndexShape`), and a name. As every name starts with
a letter (`NamedColor.head?_normalize`), no text is spelled in two ways, and what is read is told by the shape alone
(`Color.parse?_grammar`).

The same is read by a reader that computes with bytes (`Color.parseBytewise?`): it gives up a number as soon as that is
no byte, which leaves leading zeros alone.
-/

namespace TerminalMarkup

namespace Color

/-! ## Numerals -/

/-- The decimal digits. -/
def decimalDigits : Text := "0123456789".toList

theorem isDigit_iff (c : Char) : c.isDigit = true ↔ c ∈ decimalDigits := by
  have hall : c.toNat < 0x80 → (c.isDigit = true ↔ c ∈ decimalDigits) :=
    Lowercase.forall_ascii (P := fun c => c.isDigit = true ↔ c ∈ decimalDigits) (by decide +kernel)
  constructor
  · intro h
    have hle : c ≤ '9' := by
      simp only [Char.isDigit, Bool.and_eq_true, decide_eq_true_eq] at h
      exact h.2
    exact (hall (Nat.lt_of_le_of_lt hle (by decide))).1 h
  · intro h
    exact (hall ((by decide : ∀ x ∈ decimalDigits, x.toNat < 0x80) c h)).2 h

/-- One or more decimal digits. -/
def IsNumeral (s : Text) : Prop := s ≠ [] ∧ ∀ c ∈ s, c ∈ decimalDigits

instance (s : Text) : Decidable (IsNumeral s) := inferInstanceAs (Decidable (_ ∧ _))

/-- The number that decimal digits stand for. -/
def decimal (s : Text) : Nat := Nat.ofDigits 10 (s.reverse.map fun c => c.toNat - '0'.toNat)

/-- Puts a digit behind a number. -/
def pushDigit (n : Nat) (c : Char) : Nat := 10 * n + (c.toNat - '0'.toNat)

theorem foldl_pushDigit (s : Text) : s.foldl pushDigit 0 = decimal s := by
  rw [decimal, Nat.ofDigits_eq_foldr, List.foldr_map, List.foldr_reverse]
  refine List.foldl_ext _ _ _ fun n c _ => ?_
  rw [pushDigit, Nat.add_comm]
  rfl

theorem index?_eq (s : Text) : index? s = if h : decimal s < 256 then some ⟨decimal s, h⟩ else none := by
  have hfold : index? s = if h : s.foldl pushDigit 0 < 256 then some ⟨s.foldl pushDigit 0, h⟩ else none := rfl
  simp only [hfold, foldl_pushDigit]

/-! ## Numbers in bytes -/

/-- Puts a digit behind a number, unless it gets larger than a byte. -/
def pushDigit? (n : Palette.Index) (c : Char) : Option Palette.Index :=
  if h : pushDigit n c < 256 then some ⟨pushDigit n c, h⟩ else none

/-- The byte that decimal digits stand for, unless the number gets larger than a byte on the way. -/
def byteOfDecimal? (s : Text) : Option Palette.Index := s.foldlM pushDigit? ⟨0, by decide⟩

theorem le_foldl_pushDigit (s : Text) (n : Nat) : n ≤ s.foldl pushDigit n := by
  induction s generalizing n with
  | nil => exact Nat.le_refl n
  | cons c s ih =>
    have hstep : n ≤ pushDigit n c := by
      rw [pushDigit]
      omega
    exact hstep.trans (ih (pushDigit n c))

/-- A number that has got too large stays so. -/
theorem byteOfDecimal?_eq (s : Text) : byteOfDecimal? s = index? s := by
  suffices h : ∀ n : Palette.Index,
      s.foldlM pushDigit? n = if h : s.foldl pushDigit n < 256 then some ⟨s.foldl pushDigit n, h⟩ else none from h _
  induction s with
  | nil =>
    intro n
    rw [List.foldl_nil, dif_pos n.isLt]
    rfl
  | cons c s ih =>
    intro n
    rw [List.foldlM_cons, List.foldl_cons, pushDigit?]
    by_cases hc : pushDigit n c < 256
    · rw [dif_pos hc, Option.bind_eq_bind, Option.bind_some, ih]
    · have hlater : ¬ s.foldl pushDigit (pushDigit n c) < 256 := fun h =>
        hc (Nat.lt_of_le_of_lt (le_foldl_pushDigit s _) h)
      rw [dif_neg hc, dif_neg hlater]
      rfl

end Color

/-! ## Names -/

namespace NamedColor

theorem head?_of_alias : ∀ e ∈ aliases, e.1.toList.head?.any Char.isLower = true := by decide +kernel

theorem head?_of_mem_all : ∀ c ∈ all, c.name.head?.any Char.isLower = true := by decide +kernel

/-- **Names start with a letter.** -/
theorem head?_normalize {s : Text} {c : NamedColor} (h : ofName? s = some c) :
    (normalize s).head?.any Char.isLower = true := by
  unfold ofName? at h
  dsimp only at h
  split at h
  next ha =>
    obtain ⟨e, he, -⟩ := Option.map_eq_some_iff.1 ha
    have hname : e.1.toList = normalize s := by simpa using List.find?_some he
    exact hname ▸ head?_of_alias e (List.mem_of_find?_eq_some he)
  next ha =>
    have hname : c.name = normalize s := by simpa using List.find?_some h
    exact hname ▸ head?_of_mem_all c (List.mem_of_find?_eq_some h)

/-- A text with a number sign or a digit in front is no name. -/
theorem ofName?_eq_none {s : Text} {x : Char} (hs : s.trim.head? = some x) (hx : x = '#' ∨ x ∈ Color.decimalDigits) :
    ofName? s = none := by
  have hchar : ∀ x ∈ '#' :: Color.decimalDigits, (if x = '_' ∨ x = ' ' then '-' else x.toLower).isLower = false := by
    decide
  rw [Option.eq_none_iff_forall_ne_some]
  intro c hc
  have hletter := head?_normalize hc
  rw [normalize, List.head?_map, hs, Option.map_some, Option.any_some, hchar x (List.mem_cons.2 hx)] at hletter
  cases hletter

theorem ofName?_nil : ofName? [] = none := by decide +kernel

end NamedColor

namespace Color

/-! ## Shapes -/

/-- A number sign with three or six hexadecimal digits behind it. -/
def HexShape (s : Text) : Prop := s.head? = some '#' ∧ Hex.IsColor s.tail

instance (s : Text) : Decidable (HexShape s) := inferInstanceAs (Decidable (_ ∧ _))

/-- Decimal digits that stand for a place in the palette. -/
def IndexShape (s : Text) : Prop := IsNumeral s ∧ decimal s ≤ 255

instance (s : Text) : Decidable (IndexShape s) := inferInstanceAs (Decidable (_ ∧ _))

/-- Reads a color as `parse?` does, where digits are cut out by their places in UTF-8 and numbers are bytes. -/
def parseBytewise? (s : Text) : Except Fault (Option Color) := do
  let s := s.trim
  if s = [] then return none
  else if Text.startsWith ['#'] s then return (← Rgb.ofHexBytewise? s).map .hex
  else if s.all Char.isDigit then return (byteOfDecimal? s).map .index
  else return (NamedColor.ofName? s).map .named

theorem parseBytewise?_eq (s : Text) : parseBytewise? s = .ok (parse? s) := by
  unfold parseBytewise? parse?
  dsimp only
  split
  · rfl
  · split
    · rw [Rgb.ofHexBytewise?_eq]
      rfl
    · split
      · rw [byteOfDecimal?_eq]
        rfl
      · rfl

/-- Behind a number sign stands a color just when its digits are three or six. -/
theorem exists_ofHex?_iff {s : Text} (hs : s.trim.head? = some '#') :
    (∃ c, Rgb.ofHex? s.trim = some c) ↔ HexShape s.trim := by
  obtain ⟨ds, hds⟩ := List.head?_eq_some_iff.1 hs
  have hpart : Hex.part s.trim = ds := by
    rw [Hex.part, Text.trim_trim, hds]
    rfl
  rw [← Option.isSome_iff_exists, ← Option.isSome_map (f := Rgb.toHex), Rgb.map_toHex_ofHex?, Hex.written?, hpart,
    HexShape, hds]
  split
  next h => exact iff_of_true rfl ⟨rfl, h⟩
  next h => exact iff_of_false Bool.false_ne_true fun hc => h hc.2

/-- **The shape of a text tells how its color is read.** -/
theorem parse?_cases (s : Text) :
    (parse? s = (Rgb.ofHex? s.trim).map .hex ∧ s.trim.head? = some '#' ∧ ¬ IsNumeral s.trim ∧
        NamedColor.ofName? s.trim = none) ∨
      (parse? s = (index? s.trim).map .index ∧ ¬ HexShape s.trim ∧ IsNumeral s.trim ∧
        NamedColor.ofName? s.trim = none) ∨
      parse? s = (NamedColor.ofName? s.trim).map .named ∧ ¬ HexShape s.trim ∧ ¬ IsNumeral s.trim := by
  have hnone {x : Char} (hs : s.trim.head? = some x) (hx : x = '#' ∨ x ∈ decimalDigits) :
      NamedColor.ofName? s.trim = none := NamedColor.ofName?_eq_none (by rw [Text.trim_trim, hs]) hx
  have hnumeral : s.trim.all Char.isDigit = true ↔ ∀ c ∈ s.trim, c ∈ decimalDigits := by
    simp only [List.all_eq_true, isDigit_iff]
  unfold parse?
  dsimp only
  generalize s.trim = t at *
  cases t with
  | nil =>
    rw [if_pos rfl, NamedColor.ofName?_nil]
    exact .inr (.inr ⟨rfl, fun h => Option.some_ne_none _ h.1.symm, fun h => h.1 rfl⟩)
  | cons x t =>
    rw [if_neg (List.cons_ne_nil x t)]
    by_cases hx : x = '#'
    · subst hx
      refine .inl ⟨rfl, rfl, fun h => ?_, hnone rfl (.inl rfl)⟩
      exact absurd (h.2 '#' List.mem_cons_self) (by decide)
    · have hsign : Text.startsWith ['#'] (x :: t) = false := by
        simp [Text.startsWith, Text.after?, Ne.symm hx]
      have hshape : ¬ HexShape (x :: t) := fun h => hx (Option.some.inj h.1)
      rw [hsign, if_neg Bool.false_ne_true]
      by_cases ht : ∀ c ∈ x :: t, c ∈ decimalDigits
      · rw [if_pos (hnumeral.2 ht)]
        exact .inr (.inl ⟨rfl, hshape, ⟨List.cons_ne_nil x t, ht⟩, hnone rfl (.inr (ht x List.mem_cons_self))⟩)
      · rw [if_neg fun h => ht (hnumeral.1 h)]
        exact .inr (.inr ⟨rfl, hshape, fun h => ht h.2⟩)

theorem parse?_eq_hex_iff {s : Text} {c : Rgb} :
    parse? s = some (.hex c) ↔ HexShape s.trim ∧ Rgb.ofHex? s.trim = some c := by
  rcases parse?_cases s with ⟨hp, hsign, -, -⟩ | ⟨hp, hhex, -, -⟩ | ⟨hp, hhex, -⟩
  · have hread : Rgb.ofHex? s.trim = some c → HexShape s.trim := fun hc => (exists_ofHex?_iff hsign).1 ⟨c, hc⟩
    rw [hp, and_iff_right_of_imp hread]
    simp
  · simp [hp, hhex]
  · simp [hp, hhex]

theorem exists_parse?_eq_hex_iff {s : Text} : (∃ c, parse? s = some (.hex c)) ↔ HexShape s.trim := by
  simp only [parse?_eq_hex_iff, exists_and_left, and_iff_left_iff_imp]
  exact fun h => (exists_ofHex?_iff h.1).2 h

theorem index?_eq_some_iff {s : Text} {i : Palette.Index} : index? s = some i ↔ decimal s = i := by
  rw [index?_eq]
  split
  · rw [Option.some_inj, Fin.ext_iff]
  next h => exact iff_of_false (Option.some_ne_none i).symm fun he => h (he ▸ i.isLt)

theorem index?_eq_none_iff {s : Text} : index? s = none ↔ ¬ decimal s ≤ 255 := by
  rw [index?_eq, Nat.le_iff_lt_add_one]
  split
  next h => exact iff_of_false (Option.some_ne_none _) (not_not_intro h)
  next h => exact iff_of_true rfl h

theorem parse?_eq_index_iff {s : Text} {i : Palette.Index} :
    parse? s = some (.index i) ↔ IsNumeral s.trim ∧ decimal s.trim = i := by
  rcases parse?_cases s with ⟨hp, -, hnum, -⟩ | ⟨hp, -, hnum, -⟩ | ⟨hp, -, hnum⟩
  · simp [hp, hnum]
  · simp [hp, hnum, index?_eq_some_iff]
  · simp [hp, hnum]

theorem parse?_eq_named_iff {s : Text} {c : NamedColor} :
    parse? s = some (.named c) ↔
      ¬ HexShape s.trim ∧ ¬ IndexShape s.trim ∧ NamedColor.ofName? s.trim = some c := by
  rcases parse?_cases s with ⟨hp, -, -, hname⟩ | ⟨hp, -, -, hname⟩ | ⟨hp, hhex, hnum⟩
  · simp [hp, hname]
  · simp [hp, hname]
  · simp [hp, hhex, IndexShape, hnum]

theorem parse?_eq_none_iff {s : Text} :
    parse? s = none ↔ ¬ HexShape s.trim ∧ ¬ IndexShape s.trim ∧ NamedColor.ofName? s.trim = none := by
  rcases parse?_cases s with ⟨hp, hsign, hnum, hname⟩ | ⟨hp, hhex, hnum, hname⟩ | ⟨hp, hhex, hnum⟩
  · rw [hp, Option.map_eq_none_iff, ← exists_ofHex?_iff hsign, Option.eq_none_iff_forall_ne_some]
    simp [IndexShape, hnum, hname]
  · simp [hp, hhex, IndexShape, hnum, hname, index?_eq_none_iff]
  · simp [hp, hhex, IndexShape, hnum]

/-- **A color segment is read as its grammar says.** It is a color of hexadecimal digits, a place in the palette or the
color of a name as its shape is, and nothing otherwise; the reader of bytes meets no fault and reads the same. What is
written as hexadecimal digits is read back, and what has been read is written with six digits in lower case. -/
theorem parse?_grammar (s : Text) :
    ((∃ c, parse? s = some (.hex c)) ↔ HexShape s.trim) ∧
      (∀ c, parse? s = some (.hex c) ↔ HexShape s.trim ∧ Rgb.ofHex? s.trim = some c) ∧
      (∀ i, parse? s = some (.index i) ↔ IsNumeral s.trim ∧ decimal s.trim = i) ∧
      (∀ c, parse? s = some (.named c) ↔
        ¬ HexShape s.trim ∧ ¬ IndexShape s.trim ∧ NamedColor.ofName? s.trim = some c) ∧
      (parse? s = none ↔ ¬ HexShape s.trim ∧ ¬ IndexShape s.trim ∧ NamedColor.ofName? s.trim = none) ∧
      parseBytewise? s = .ok (parse? s) ∧
      (∀ c : Rgb, Rgb.ofHex? c.toHex = some c) ∧ (Rgb.ofHex? s).map Rgb.toHex = Hex.written? s :=
  ⟨exists_parse?_eq_hex_iff, fun _ => parse?_eq_hex_iff, fun _ => parse?_eq_index_iff, fun _ => parse?_eq_named_iff,
    parse?_eq_none_iff, parseBytewise?_eq s, Rgb.ofHex?_toHex, Rgb.map_toHex_ofHex? s⟩

example : parse? " 000208 ".toList = some (.index 208) ∧ parse? "256".toList = none ∧
    parse? "#F63".toList = some (.hex ⟨255, 102, 51⟩) ∧ parse? "#f6３".toList = none := by decide +kernel

end Color
end TerminalMarkup
