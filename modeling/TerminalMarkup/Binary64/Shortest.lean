import TerminalMarkup.Binary64.Basic

/-!
# Shortest decimal digits

Every number of a binary format is the nearest one to all decimal numbers of an interval around it. `Binary64.shortest`
is the decimal number in that interval with the fewest digits, of those the nearest, and of two equally near ones that
with the even last digit.
-/

namespace TerminalMarkup

namespace Binary64

/-! ## The interval of a number

All distances are counted in quarters of the last place of the significand. -/

/-- The lower end of the interval. Below a power of two the numbers lie closer together. -/
def lower (x : Binary64) : Nat :=
  if x.significand = Nat.pow 2 52 ∧ minExponent < x.exponent then 4 * x.significand - 1 else 4 * x.significand - 2

/-- The upper end of the interval. -/
def upper (x : Binary64) : Nat := 4 * x.significand + 2

/-- The ends belong to the interval. -/
def isClosed (x : Binary64) : Bool := x.significand % 2 == 0

/-! ## Grids

The grid of exponent `k` holds the multiples of `10 ^ k`. A point of it is compared with a number of quarters by
bringing both to whole numbers. -/

/-- The step of a grid as a whole number. -/
def gridStep (x : Binary64) (k : Int) : Nat := Nat.pow 10 k.toNat * Nat.pow 2 (2 - x.exponent).toNat

/-- A number of quarters on the same scale. -/
def scaled (x : Binary64) (k : Int) (quarters : Nat) : Nat :=
  quarters * Nat.pow 2 (x.exponent - 2).toNat * Nat.pow 10 (-k).toNat

/-- A point of a grid lies in the interval. -/
def inInterval (x : Binary64) (k : Int) (d : Nat) : Bool :=
  let p := d * gridStep x k
  let low := scaled x k x.lower
  let high := scaled x k x.upper
  if x.isClosed then low ≤ p && p ≤ high else low < p && p < high

/-- The point of a grid in the interval that is nearest to the number. It is one of the two neighbors of the number. -/
def nearestIn? (x : Binary64) (k : Int) : Option Nat :=
  let step := gridStep x k
  let value := scaled x k (4 * x.significand)
  let d := value / step
  let isUp := step < 2 * (value % step) || (step == 2 * (value % step) && d % 2 == 1)
  match x.inInterval k d, x.inInterval k (d + 1) with
  | true, true => some (if isUp then d + 1 else d)
  | true, false => some d
  | false, true => some (d + 1)
  | false, false => none

/-- An exponent of ten beyond the greatest number. -/
def maxGrid : Int := 309

/-- The first point that one of `n` grids has in the interval; the grids get finer, beginning with exponent `k`. -/
def searchGrids (x : Binary64) (k : Int) : Nat → Decimal
  | 0 => ⟨0, 0⟩
  | n + 1 =>
    match x.nearestIn? k with
    | some d => ⟨d, k⟩
    | none => searchGrids x (k - 1) n

/-- The number of grids up to one that is finer than every interval. -/
def gridCount : Nat := 640

/-- The shortest decimal number that reads back as a given number, without its sign. -/
def shortest (x : Binary64) : Decimal := if x.significand = 0 then ⟨0, 0⟩ else searchGrids x maxGrid gridCount

end Binary64
end TerminalMarkup
