import TerminalMarkup.Binary64.Shortest
import TerminalMarkup.Sgr

/-!
# Numbers in documents

A plain scalar may be an integer, in decimal digits or with another radix announced by `0x`, `0o` or `0b`, or a
floating-point number. Decimal digits with a zero in front are no number.

* `integer?` and `float?` read the two kinds of numbers,
* `Number.text` writes a number; a floating-point number has the fewest digits that read back, with a point up to
  sixteen digits before it and four zeros behind it, and otherwise an exponent.
-/

namespace TerminalMarkup

namespace Yaml

/-- A number in a document. -/
inductive Number
  | integer (n : Int)
  | float (x : Binary64)
  | infinity (isNegative : Bool)
  | nan
  deriving DecidableEq, Repr

namespace Number

/-- Equal numbers. An integer is not equal to a floating-point number. -/
def eqv : Number → Number → Bool
  | float x, float y => x.eqv y
  | a, b => a = b

end Number

/-! ## Integers -/

/-- The value of a digit in radices up to 16. -/
def digitValue (c : Char) : Nat :=
  if c.isDigit then c.toNat - 48
  else if 'a' ≤ c ∧ c ≤ 'f' then c.toNat - 87
  else if 'A' ≤ c ∧ c ≤ 'F' then c.toNat - 55
  else 16

/-- The number that digits stand for. -/
def natural? (radix : Nat) (digits : Text) : Option Nat :=
  if digits ≠ [] ∧ digits.all (digitValue · < radix) then
    some (digits.foldl (fun n c => radix * n + digitValue c) 0)
  else none

/-- The radices other than ten, with their announcements. -/
def radices : List (Text × Nat) := [(['0', 'x'], 16), (['0', 'o'], 8), (['0', 'b'], 2)]

/-- The number after the announcement of a radix. -/
def announced? (s : Text) : Option Nat :=
  radices.findSome? fun (announcement, radix) => (Text.after? announcement s).bind (natural? radix)

/-- A text without the sign in front of it. -/
def withoutSign : Text → Text
  | '+' :: s | '-' :: s => s
  | s => s

/-- Decimal digits with a zero in front. -/
def hasLeadingZero (s : Text) : Bool :=
  match withoutSign s with
  | '0' :: c :: s => (c :: s).all Char.isDigit
  | _ => false

/-- The magnitude of an integer without a sign. -/
def magnitude? (s : Text) : Option Nat := (announced? s).or (if hasLeadingZero s then none else natural? 10 s)

/-- Reads an integer of any size. -/
def integer? : Text → Option Int
  | '-' :: s => (magnitude? s).map fun n => -(n : Int)
  | '+' :: s => (magnitude? s).map Int.ofNat
  | s => (magnitude? s).map Int.ofNat

/-- An integer that a document may hold. -/
def isInRange (n : Int) : Bool := -Nat.pow 2 63 ≤ n && n < Nat.pow 2 64

/-- An integer that is too great for a document, and yet too small to be taken for anything but an integer. -/
def isOutOfRange (n : Int) : Bool := !isInRange n && -Nat.pow 2 127 ≤ n && n < Nat.pow 2 128

/-! ## Floating-point numbers -/

/-- Reads the exponent of a decimal number, which may be missing. -/
def exponent? : Text → Option Int
  | [] => some 0
  | c :: s =>
    if c = 'e' ∨ c = 'E' then
      match s with
      | '-' :: s => (natural? 10 s).map fun n => -(n : Int)
      | '+' :: s => (natural? 10 s).map Int.ofNat
      | s => (natural? 10 s).map Int.ofNat
    else none

/-- Reads a decimal number without a sign: digits with a point among or around them, and an exponent. -/
def decimal? (s : Text) : Option Decimal :=
  let whole := s.takeWhile Char.isDigit
  let rest := s.dropWhile Char.isDigit
  let afterPoint := (Text.after? ['.'] rest).getD []
  let fraction := afterPoint.takeWhile Char.isDigit
  let rest := if Text.startsWith ['.'] rest then afterPoint.dropWhile Char.isDigit else rest
  match natural? 10 (whole ++ fraction), exponent? rest with
  | some n, some e => some ⟨n, e - fraction.length⟩
  | _, _ => none

/-- Reads a finite floating-point number. -/
def finite? : Text → Option Binary64
  | '-' :: s => (decimal? s).bind (Binary64.ofDecimal? true)
  | '+' :: s => (decimal? s).bind (Binary64.ofDecimal? false)
  | s => (decimal? s).bind (Binary64.ofDecimal? false)

/-- Reads a floating-point number. -/
def float? (s : Text) : Option Number :=
  if s.isOneOf [".nan", ".NaN", ".NAN"] then some .nan
  else if s.isOneOf [".inf", ".Inf", ".INF", "+.inf", "+.Inf", "+.INF"] then some (.infinity false)
  else if s.isOneOf ["-.inf", "-.Inf", "-.INF"] then some (.infinity true)
  else (finite? s).map .float

/-! ## Writing -/

namespace Number

/-- Writes a decimal number. -/
def decimalText (x : Decimal) : Text :=
  let digits := Text.ofNat x.digits
  let point : Int := digits.length + x.exponent
  if 0 ≤ x.exponent ∧ point ≤ 16 then digits ++ List.replicate x.exponent.toNat '0' ++ ['.', '0']
  else if 0 < point ∧ point ≤ 16 then digits.take point.toNat ++ '.' :: digits.drop point.toNat
  else if -5 < point ∧ point ≤ 0 then '0' :: '.' :: (List.replicate (-point).toNat '0' ++ digits)
  else
    let mantissa := if digits.length = 1 then digits else digits.take 1 ++ '.' :: digits.drop 1
    mantissa ++ 'e' :: ((if point ≤ 0 then ['-'] else []) ++ Text.ofNat (point - 1).natAbs)

/-- Writes a number. -/
def text : Number → Text
  | integer n => (if n < 0 then ['-'] else []) ++ Text.ofNat n.natAbs
  | float x => (if x.isNegative then ['-'] else []) ++ decimalText x.shortest
  | infinity false => ".inf".toList
  | infinity true => "-.inf".toList
  | nan => ".nan".toList

end Number
end Yaml
end TerminalMarkup
