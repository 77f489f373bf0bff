import TerminalMarkup.Text.Basic

/-!
# SGR sequences

The terminal sequence `ESC [ p₁ ; … ; pₙ m` selects colors and attributes by its numbers.
-/

namespace TerminalMarkup

/-- The escape character. -/
def escape : Char := '\x1b'

/-- A number in decimal digits. -/
def Text.ofNat (n : Nat) : Text := Nat.toDigits 10 n

namespace Sgr

/-- The numbers of a sequence, separated by semicolons. -/
def params : List Nat → Text
  | [] => []
  | [n] => Text.ofNat n
  | n :: ns => Text.ofNat n ++ ';' :: params ns

/-- The sequence with the given numbers. -/
def sequence (ns : List Nat) : Text := escape :: '[' :: (params ns ++ ['m'])

/-- The sequence with the given numbers, or nothing when there are none. -/
def sequenceUnlessEmpty (ns : List Nat) : Text := if ns = [] then [] else sequence ns

/-- The sequence that returns to the state the terminal starts in. -/
def reset : Text := sequence [0]

end Sgr
end TerminalMarkup
