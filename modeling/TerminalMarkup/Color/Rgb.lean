import TerminalMarkup.Text.Blank

/-!
# RGB colors

A color has three channels from 0 to 255. `Rgb.ofHex?` reads three or six hexadecimal digits, with or without a leading
number sign, and `Rgb.toHex` writes six (`ofHex?_toHex`).
-/

namespace TerminalMarkup

/-! Numerals in `Fin n` rest on `n ≠ 0`, for the zero of the natural numbers that needs no algebra. -/

instance neZero_sixteen : @NeZero Nat Zero.ofOfNat0 16 := ⟨by decide⟩

instance neZero_byte : @NeZero Nat Zero.ofOfNat0 256 := ⟨by decide⟩

/-- The strength of one color channel. -/
abbrev Channel := Fin 256

/-- A color by its channels. -/
structure Rgb where
  red : Channel
  green : Channel
  blue : Channel
  deriving DecidableEq, Repr, Inhabited

namespace Hex

/-- The value of a hexadecimal digit. -/
def digit? (c : Char) : Option (Fin 16) :=
  if c.isDigit then some (.ofNat 16 (c.toNat - 48))
  else if 'a' ≤ c ∧ c ≤ 'f' then some (.ofNat 16 (c.toNat - 87))
  else if 'A' ≤ c ∧ c ≤ 'F' then some (.ofNat 16 (c.toNat - 55))
  else none

/-- The lower-case digit of a value. -/
def digit (n : Fin 16) : Char := Nat.digitChar n

@[simp] theorem digit?_digit : ∀ n, digit? (digit n) = some n := by decide

theorem isBlank_digit : ∀ n, isBlank (digit n) = false := by decide

/-- The channel with the given digits. -/
def channel (high low : Fin 16) : Channel := ⟨16 * high + low, by omega⟩

/-- The two digits of a channel. -/
def digits (c : Channel) : Text := [digit ⟨c / 16, by omega⟩, digit ⟨c % 16, by omega⟩]

theorem channel_div_mod (c : Channel) : channel ⟨c / 16, by omega⟩ ⟨c % 16, by omega⟩ = c := by
  ext
  simp only [channel]
  omega

end Hex

namespace Rgb

/-- The color that hexadecimal digits stand for; three digits are each written twice. -/
def ofDigits? : List (Fin 16) → Option Rgb
  | [r, g, b] => some ⟨Hex.channel r r, Hex.channel g g, Hex.channel b b⟩
  | [r, r', g, g', b, b'] => some ⟨Hex.channel r r', Hex.channel g g', Hex.channel b b'⟩
  | _ => none

/-- Reads a color from its digits; a number sign may stand before them. -/
def ofHex? (s : Text) : Option Rgb :=
  (((Text.after? ['#'] s.trim).getD s.trim).mapM Hex.digit?).bind ofDigits?

/-- The color as a number sign and six lower-case digits. -/
def toHex (c : Rgb) : Text := '#' :: (Hex.digits c.red ++ Hex.digits c.green ++ Hex.digits c.blue)

theorem trim_toHex (c : Rgb) : c.toHex.trim = c.toHex := by
  have h : isBlank '#' = false := by decide
  simp [toHex, Text.trim, Text.strip, Text.dropEndWhile, Hex.digits, h, Hex.isBlank_digit]

/-- A color is read back from its digits. -/
theorem ofHex?_toHex (c : Rgb) : ofHex? c.toHex = some c := by
  rw [ofHex?, trim_toHex]
  simp [toHex, Text.after?, Hex.digits, ofDigits?, Hex.channel_div_mod]

end Rgb
end TerminalMarkup
