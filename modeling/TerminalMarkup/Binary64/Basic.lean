import TerminalMarkup.Text.Basic

/-!
# Binary floating-point numbers

A finite number of the IEEE format with 64 bits is a significand of 53 bits times a power of two. `Binary64.ofDecimal?`
rounds a decimal number to the nearest one, of two equally near ones to the one with an even significand.
-/

namespace TerminalMarkup

/-- The number `digits · 10 ^ exponent`. -/
structure Decimal where
  digits : Nat
  exponent : Int
  deriving DecidableEq, Repr

/-- The number `± significand · 2 ^ exponent`; the exponent is the least that the format admits, or the significand has
53 bits. -/
structure Binary64 where
  isNegative : Bool
  significand : Nat
  exponent : Int
  deriving DecidableEq, Repr

namespace Binary64

/-- The number of bits of a significand. -/
def precision : Nat := 53

/-- The least exponent. -/
def minExponent : Int := -1074

/-- The greatest exponent. -/
def maxExponent : Int := 971

/-- The nearest integer to `n / d`; of two the even one. -/
def roundDiv (n d : Nat) : Nat :=
  let q := n / d
  let r := n % d
  if d < 2 * r ∨ (d = 2 * r ∧ q % 2 = 1) then q + 1 else q

/-- The greatest power of two that is at most `n / d`. -/
def log2Div (n d : Nat) : Int :=
  let k : Int := (Nat.log2 n : Int) - Nat.log2 d
  if d * Nat.pow 2 k.toNat ≤ n * Nat.pow 2 (-k).toNat then k else k - 1

/-- The number nearest to `n / d`, unless that is too great. -/
def ofRatio? (isNegative : Bool) (n d : Nat) : Option Binary64 :=
  if n = 0 then some ⟨isNegative, 0, minExponent⟩
  else
    let e := max (log2Div n d - 52) minExponent
    let m := roundDiv (n * Nat.pow 2 (-e).toNat) (d * Nat.pow 2 e.toNat)
    let x : Binary64 := if m = Nat.pow 2 precision then ⟨isNegative, m / 2, e + 1⟩ else ⟨isNegative, m, e⟩
    if maxExponent < x.exponent then none else some x

/-- The number nearest to a decimal one, unless that is too great. -/
def ofDecimal? (isNegative : Bool) (x : Decimal) : Option Binary64 :=
  let places := (Nat.toDigits 10 x.digits).length + x.exponent
  if x.digits = 0 ∨ places < -330 then some ⟨isNegative, 0, minExponent⟩
  else if 310 < places then none
  else ofRatio? isNegative (x.digits * Nat.pow 10 x.exponent.toNat) (Nat.pow 10 (-x.exponent).toNat)

/-- Equal numbers; the two zeros are equal. -/
def eqv (x y : Binary64) : Bool := x == y || (x.significand == 0 && y.significand == 0)

end Binary64
end TerminalMarkup
