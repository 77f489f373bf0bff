import TerminalMarkup.Color.Rgb
import TerminalMarkup.Proofs.Text.Ends
import TerminalMarkup.Proofs.Text.Lowercase

/-!
# Hexadecimal colors

A color is given by three or six hexadecimal digits (`Hex.IsColor`). What is read from them is written with six digits
in lower case, each of three digits twice (`Rgb.map_toHex_ofHex?`), and what is written for a color is read as that
color (`Rgb.ofHex?_toHex`).

A reader that cuts the digits out by their places in UTF-8 and computes in bytes runs into two kinds of faults
(`Fault`): a cut inside of a character, and a number that is no byte. It is `Rgb.ofHexBytewise?`, and it has none,
whatever the text (`Rgb.ofHexBytewise?_eq`).
-/

namespace TerminalMarkup

namespace Hex

/-! ## Digits -/

/-- The hexadecimal digits of both letter cases. -/
def alphabet : Text := "0123456789abcdefABCDEF".toList

theorem ascii_of_mem_alphabet {c : Char} (h : c ∈ alphabet) : c.toNat < 0x80 :=
  (by decide : ∀ c ∈ alphabet, c.toNat < 0x80) c h

theorem ascii_of_digit? {c : Char} {d : Fin 16} (h : digit? c = some d) : c.toNat < 0x80 := by
  have hle {x : Char} (hx : c ≤ x) (hascii : x.toNat < 0x80) : c.toNat < 0x80 := Nat.lt_of_le_of_lt hx hascii
  unfold digit? at h
  split at h
  next hc =>
    simp only [Char.isDigit, Bool.and_eq_true, decide_eq_true_eq] at hc
    exact hle hc.2 (by decide)
  · split at h
    next hc => exact hle hc.2 (by decide)
    · split at h
      next hc => exact hle hc.2 (by decide)
      · cases h

/-- The characters with a value are the digits. -/
theorem isSome_digit?_iff (c : Char) : (digit? c).isSome = true ↔ c ∈ alphabet := by
  have hall : c.toNat < 0x80 → ((digit? c).isSome = true ↔ c ∈ alphabet) :=
    Lowercase.forall_ascii (P := fun c => (digit? c).isSome = true ↔ c ∈ alphabet) (by decide +kernel)
  constructor
  · intro h
    obtain ⟨d, hd⟩ := Option.isSome_iff_exists.1 h
    exact (hall (ascii_of_digit? hd)).1 h
  · exact fun h => (hall (ascii_of_mem_alphabet h)).2 h

/-- The value of a digit is written as the digit in lower case. -/
theorem digit_of_digit? {c : Char} {d : Fin 16} (h : digit? c = some d) : digit d = c.toLower :=
  Lowercase.forall_ascii (P := fun c => ∀ d, digit? c = some d → digit d = c.toLower) (by decide +kernel)
    (ascii_of_digit? h) d h

/-- Digits have values, which are written as the digits in lower case. -/
theorem exists_mapM_digit? {s : Text} (h : ∀ c ∈ s, c ∈ alphabet) :
    ∃ ds, s.mapM digit? = some ds ∧ ds.map digit = s.toAsciiLower := by
  induction s with
  | nil => exact ⟨[], rfl, rfl⟩
  | cons c s ih =>
    obtain ⟨d, hd⟩ := Option.isSome_iff_exists.1 ((isSome_digit?_iff c).2 (h c List.mem_cons_self))
    obtain ⟨ds, hds, hlower⟩ := ih fun x hx => h x (List.mem_cons_of_mem c hx)
    refine ⟨d :: ds, by simp [List.mapM_cons, hd, hds], ?_⟩
    rw [List.map_cons, digit_of_digit? hd, hlower]
    rfl

theorem length_eq_of_map_digit {ds : List (Fin 16)} {s : Text} (h : ds.map digit = s.toAsciiLower) :
    ds.length = s.length := by
  rw [← List.length_map digit, h, Text.toAsciiLower, List.length_map]

theorem mapM_digit?_eq_none {s : Text} (h : ¬ ∀ c ∈ s, c ∈ alphabet) : s.mapM digit? = none := by
  induction s with
  | nil => exact absurd (fun _ hc => absurd hc List.not_mem_nil) h
  | cons c s ih =>
    rw [List.mapM_cons]
    cases hd : digit? c with
    | none => rfl
    | some d =>
      have hc : c ∈ alphabet := (isSome_digit?_iff c).1 (by rw [hd]; rfl)
      have hs : ¬ ∀ x ∈ s, x ∈ alphabet := fun hs => h (List.forall_mem_cons.2 ⟨hc, hs⟩)
      rw [ih hs]
      rfl

/-! ## Three and six digits -/

/-- Three or six hexadecimal digits. -/
def IsColor (s : Text) : Prop := (s.length = 3 ∨ s.length = 6) ∧ ∀ c ∈ s, c ∈ alphabet

instance (s : Text) : Decidable (IsColor s) := inferInstanceAs (Decidable (_ ∧ _))

/-- Three characters each written twice; every other text stays as it is. -/
def sixDigits : Text → Text
  | [r, g, b] => [r, r, g, g, b, b]
  | s => s

theorem toAsciiLower_sixDigits (s : Text) : (sixDigits s).toAsciiLower = sixDigits s.toAsciiLower := by
  unfold sixDigits
  split
  · rfl
  next h =>
    split
    next r g b he =>
      obtain ⟨r', s', rfl, -, he⟩ := List.map_eq_cons_iff.1 he
      obtain ⟨g', s', rfl, -, he⟩ := List.map_eq_cons_iff.1 he
      obtain ⟨b', s', rfl, -, he⟩ := List.map_eq_cons_iff.1 he
      exact absurd (congrArg (fun t => r' :: g' :: b' :: t) (List.map_eq_nil_iff.1 he)) (h r' g' b')
    · rfl

/-- The digits in a text, without a number sign in front. -/
def part (s : Text) : Text := (Text.after? ['#'] s.trim).getD s.trim

/-- The text that stands for the same color, with a number sign and six digits in lower case. -/
def written? (s : Text) : Option Text :=
  if IsColor (part s) then some ('#' :: (sixDigits (part s)).toAsciiLower) else none

theorem eq_six_of_length {α : Type} {s : List α} (h : s.length = 6) : ∃ a b c d e f, s = [a, b, c, d, e, f] := by
  match s, h with
  | [a, b, c, d, e, f], _ => exact ⟨a, b, c, d, e, f, rfl⟩

theorem digits_channel : ∀ high low, digits (channel high low) = [digit high, digit low] := by decide +kernel

end Hex

namespace Rgb

theorem map_toHex_ofDigits? (ds : List (Fin 16)) :
    (ofDigits? ds).map toHex
      = if ds.length = 3 ∨ ds.length = 6 then some ('#' :: Hex.sixDigits (ds.map Hex.digit)) else none := by
  unfold ofDigits?
  split
  · simp [toHex, Hex.digits_channel, Hex.sixDigits]
  · simp [toHex, Hex.digits_channel, Hex.sixDigits]
  next hthree hsix =>
    rw [if_neg, Option.map_none]
    rintro (h | h)
    · obtain ⟨r, g, b, rfl⟩ := List.length_eq_three.1 h
      exact hthree r g b rfl
    · obtain ⟨r, r', g, g', b, b', rfl⟩ := Hex.eq_six_of_length h
      exact hsix r r' g g' b b' rfl

theorem ofDigits?_eq_none {ds : List (Fin 16)} (h : ¬ (ds.length = 3 ∨ ds.length = 6)) : ofDigits? ds = none := by
  have hwritten := map_toHex_ofDigits? ds
  rw [if_neg h] at hwritten
  exact Option.map_eq_none_iff.1 hwritten

/-- **A color is written as it has been given, with six digits in lower case.** -/
theorem map_toHex_ofHex? (s : Text) : (ofHex? s).map toHex = Hex.written? s := by
  have hread : ofHex? s = ((Hex.part s).mapM Hex.digit?).bind ofDigits? := rfl
  rw [hread, Hex.written?]
  by_cases hs : ∀ c ∈ Hex.part s, c ∈ Hex.alphabet
  · obtain ⟨ds, hds, hlower⟩ := Hex.exists_mapM_digit? hs
    have hcolor : Hex.IsColor (Hex.part s) ↔ (Hex.part s).length = 3 ∨ (Hex.part s).length = 6 := and_iff_left hs
    rw [hds, Option.bind_some, map_toHex_ofDigits?, hlower, Hex.length_eq_of_map_digit hlower,
      Hex.toAsciiLower_sixDigits]
    simp only [hcolor]
  · rw [Hex.mapM_digit?_eq_none hs, if_neg fun h => hs h.2]
    rfl

end Rgb

/-! ## Cutting by bytes -/

/-- What a reader of bytes can run into. -/
inductive Fault
  /-- A cut inside of a character, or behind the end of the text. -/
  | cut
  /-- A number that is no byte. -/
  | overflow
  deriving DecidableEq, Repr

namespace Text

/-- The text without its first `n` bytes. -/
def dropBytes : Nat → Text → Except Fault Text
  | 0, s => .ok s
  | _ + 1, [] => .error .cut
  | n + 1, c :: s => if c.utf8Size ≤ n + 1 then dropBytes (n + 1 - c.utf8Size) s else .error .cut

/-- The first `n` bytes of a text. -/
def takeBytes : Nat → Text → Except Fault Text
  | 0, _ => .ok []
  | _ + 1, [] => .error .cut
  | n + 1, c :: s => do
    if c.utf8Size ≤ n + 1 then return c :: (← takeBytes (n + 1 - c.utf8Size) s)
    throw .cut

/-- The `n` bytes from place `i` on. -/
def slice (s : Text) (i n : Nat) : Except Fault Text := do takeBytes n (← dropBytes i s)

theorem utf8Size_of_ascii {c : Char} (h : c.toNat < 0x80) : c.utf8Size = 1 :=
  Char.utf8Size_eq_one_iff.2 (UInt32.le_iff_toNat_le.2 (Nat.le_of_lt_succ h))

/-- ASCII characters are bytes. -/
theorem utf8Length_of_ascii {s : Text} (h : ∀ c ∈ s, c.toNat < 0x80) : s.utf8Length = s.length := by
  induction s with
  | nil => rfl
  | cons c s ih =>
    rw [utf8Length, List.foldr_cons, utf8Size_of_ascii (h c List.mem_cons_self), ← utf8Length,
      ih fun x hx => h x (List.mem_cons_of_mem c hx), List.length_cons, Nat.add_comm]

theorem dropBytes_of_ascii {s : Text} (h : ∀ c ∈ s, c.toNat < 0x80) {i : Nat} (hi : i ≤ s.length) :
    dropBytes i s = .ok (s.drop i) := by
  induction s generalizing i with
  | nil =>
    obtain rfl := Nat.le_zero.1 hi
    rfl
  | cons c s ih =>
    cases i with
    | zero => rfl
    | succ i =>
      rw [dropBytes, utf8Size_of_ascii (h c List.mem_cons_self), if_pos (Nat.le_add_left 1 i), Nat.add_sub_cancel]
      exact ih (fun x hx => h x (List.mem_cons_of_mem c hx)) (Nat.le_of_succ_le_succ hi)

theorem takeBytes_of_ascii {s : Text} (h : ∀ c ∈ s, c.toNat < 0x80) {n : Nat} (hn : n ≤ s.length) :
    takeBytes n s = .ok (s.take n) := by
  induction s generalizing n with
  | nil =>
    obtain rfl := Nat.le_zero.1 hn
    rfl
  | cons c s ih =>
    cases n with
    | zero => rfl
    | succ n =>
      rw [takeBytes, utf8Size_of_ascii (h c List.mem_cons_self), if_pos (Nat.le_add_left 1 n), Nat.add_sub_cancel,
        ih (fun x hx => h x (List.mem_cons_of_mem c hx)) (Nat.le_of_succ_le_succ hn)]
      rfl

/-- **Texts of ASCII characters can be cut at every place.** -/
theorem slice_of_ascii {s : Text} (h : ∀ c ∈ s, c.toNat < 0x80) {i n : Nat} (hin : i + n ≤ s.length) :
    s.slice i n = .ok ((s.drop i).take n) := by
  rw [slice, dropBytes_of_ascii h (by omega)]
  exact takeBytes_of_ascii (fun c hc => h c (List.mem_of_mem_drop hc)) (by rw [List.length_drop]; omega)

end Text

namespace Hex

/-- The byte that hexadecimal digits stand for, if it is one; a plus sign may stand before them. -/
def byte? (s : Text) : Option Channel :=
  let s := (Text.after? ['+'] s).getD s
  if s = [] then none
  else (s.mapM digit?).bind fun ds =>
    let n := ds.foldl (fun n d => 16 * n + d.val) 0
    if h : n < 256 then some ⟨n, h⟩ else none

/-- The byte of a digit that is written twice. -/
def twice (c : Channel) : Except Fault Channel :=
  if h : c.val * 17 < 256 then .ok ⟨c * 17, h⟩ else .error .overflow

/-- The channel of the digit at place `i`. -/
def channelAt (s : Text) (i : Nat) : Except Fault (Option Channel) := do
  let some c := byte? (← s.slice i 1) | return none
  return some (← twice c)

/-- The channel of the two digits at place `i`. -/
def pairAt (s : Text) (i : Nat) : Except Fault (Option Channel) := do return byte? (← s.slice i 2)

theorem ne_plus_of_digit? {c : Char} {d : Fin 16} (h : digit? c = some d) : '+' ≠ c := by
  rintro rfl
  cases h

theorem byte?_digit {c : Char} {d : Fin 16} (h : digit? c = some d) : byte? [c] = some ⟨d, by omega⟩ := by
  have hlt : d.val < 256 := by omega
  simp [byte?, Text.after?, ne_plus_of_digit? h, h, hlt]

theorem byte?_pair {c c' : Char} {d d' : Fin 16} (h : digit? c = some d) (h' : digit? c' = some d') :
    byte? [c, c'] = some (channel d d') := by
  have hlt : 16 * d.val + d'.val < 256 := by omega
  simp [byte?, Text.after?, ne_plus_of_digit? h, h, h', hlt, channel]

/-- A digit that is written twice is seventeen times the digit, which is a byte. -/
theorem twice_digit (d : Fin 16) : twice ⟨d, by omega⟩ = .ok (channel d d) := by
  have hlt : d.val * 17 < 256 := by omega
  have heq : d.val * 17 = 16 * d.val + d.val := by omega
  rw [twice, dif_pos hlt]
  exact congrArg Except.ok (Fin.ext heq)

theorem channelAt_of_slice {s : Text} {i : Nat} {c : Char} {d : Fin 16} (hs : s.slice i 1 = .ok [c])
    (h : digit? c = some d) : channelAt s i = .ok (some (channel d d)) := by
  simp only [channelAt, hs, bind, Except.bind, byte?_digit h, twice_digit]
  rfl

theorem pairAt_of_slice {s : Text} {i : Nat} {c c' : Char} {d d' : Fin 16} (hs : s.slice i 2 = .ok [c, c'])
    (h : digit? c = some d) (h' : digit? c' = some d') : pairAt s i = .ok (some (channel d d')) := by
  rw [pairAt, hs]
  exact congrArg Except.ok (byte?_pair h h')

end Hex

namespace Rgb

/-- The color of three channels that are read one after the other. -/
def ofChannels (r g b : Except Fault (Option Channel)) : Except Fault (Option Rgb) := do
  let some r ← r | return none
  let some g ← g | return none
  let some b ← b | return none
  return some ⟨r, g, b⟩

/-- Reads a color by the places of its digits in UTF-8. -/
def ofHexBytewise? (s : Text) : Except Fault (Option Rgb) :=
  let s := Hex.part s
  if ∀ c ∈ s, c ∈ Hex.alphabet then
    match s.utf8Length with
    | 3 => ofChannels (Hex.channelAt s 0) (Hex.channelAt s 1) (Hex.channelAt s 2)
    | 6 => ofChannels (Hex.pairAt s 0) (Hex.pairAt s 2) (Hex.pairAt s 4)
    | _ => .ok none
  else .ok none

theorem ofChannels_ok (r g b : Channel) :
    ofChannels (.ok (some r)) (.ok (some g)) (.ok (some b)) = .ok (some ⟨r, g, b⟩) := rfl

/-- Three digits are cut out one by one. -/
theorem ofChannels_three {s : Text} (hs : ∀ c ∈ s, c ∈ Hex.alphabet) (hlen : s.length = 3) :
    ofChannels (Hex.channelAt s 0) (Hex.channelAt s 1) (Hex.channelAt s 2)
      = .ok ((s.mapM Hex.digit?).bind ofDigits?) := by
  have hcut {i n : Nat} (h : i + n ≤ s.length) : s.slice i n = .ok ((s.drop i).take n) :=
    Text.slice_of_ascii (fun c hc => Hex.ascii_of_mem_alphabet (hs c hc)) h
  obtain ⟨r, g, b, rfl⟩ := List.length_eq_three.1 hlen
  simp only [List.forall_mem_cons, ← Hex.isSome_digit?_iff, Option.isSome_iff_exists] at hs
  obtain ⟨⟨x, hx⟩, ⟨y, hy⟩, ⟨z, hz⟩, -⟩ := hs
  rw [Hex.channelAt_of_slice (hcut (i := 0) (by simp)) hx, Hex.channelAt_of_slice (hcut (i := 1) (by simp)) hy,
    Hex.channelAt_of_slice (hcut (i := 2) (by simp)) hz, ofChannels_ok]
  simp [hx, hy, hz, ofDigits?]

/-- Six digits are cut out in pairs. -/
theorem ofChannels_six {s : Text} (hs : ∀ c ∈ s, c ∈ Hex.alphabet) (hlen : s.length = 6) :
    ofChannels (Hex.pairAt s 0) (Hex.pairAt s 2) (Hex.pairAt s 4) = .ok ((s.mapM Hex.digit?).bind ofDigits?) := by
  have hcut {i n : Nat} (h : i + n ≤ s.length) : s.slice i n = .ok ((s.drop i).take n) :=
    Text.slice_of_ascii (fun c hc => Hex.ascii_of_mem_alphabet (hs c hc)) h
  obtain ⟨r, r', g, g', b, b', rfl⟩ := Hex.eq_six_of_length hlen
  simp only [List.forall_mem_cons, ← Hex.isSome_digit?_iff, Option.isSome_iff_exists] at hs
  obtain ⟨⟨x, hx⟩, ⟨x', hx'⟩, ⟨y, hy⟩, ⟨y', hy'⟩, ⟨z, hz⟩, ⟨z', hz'⟩, -⟩ := hs
  rw [Hex.pairAt_of_slice (hcut (i := 0) (by simp)) hx hx', Hex.pairAt_of_slice (hcut (i := 2) (by simp)) hy hy',
    Hex.pairAt_of_slice (hcut (i := 4) (by simp)) hz hz', ofChannels_ok]
  simp [hx, hx', hy, hy', hz, hz', ofDigits?]

/-- **Whatever the text, the digits are cut out between characters, and all numbers are bytes.** -/
theorem ofHexBytewise?_eq (s : Text) : ofHexBytewise? s = .ok (ofHex? s) := by
  have hread : ofHex? s = ((Hex.part s).mapM Hex.digit?).bind ofDigits? := rfl
  rw [hread, ofHexBytewise?]
  generalize Hex.part s = t
  by_cases hs : ∀ c ∈ t, c ∈ Hex.alphabet
  · rw [if_pos hs, Text.utf8Length_of_ascii fun c hc => Hex.ascii_of_mem_alphabet (hs c hc)]
    split
    next hlen => exact ofChannels_three hs hlen
    next hlen => exact ofChannels_six hs hlen
    next hthree hsix =>
      obtain ⟨ds, hds, hlower⟩ := Hex.exists_mapM_digit? hs
      have hlen := Hex.length_eq_of_map_digit hlower
      rw [hds, Option.bind_some, ofDigits?_eq_none (by rw [hlen]; exact not_or.2 ⟨hthree, hsix⟩)]
  · rw [if_neg hs, Hex.mapM_digit?_eq_none hs]
    rfl

end Rgb
end TerminalMarkup
