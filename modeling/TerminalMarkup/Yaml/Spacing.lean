import TerminalMarkup.Yaml.Character

/-!
# Spacing in scalars

Inside a scalar, a run of blanks and line breaks stands for less than it holds: blanks around line breaks are dropped, a
single line break is a space, and of several line breaks the first is dropped (`foldSpacing`). The line and paragraph
separators of Unicode are kept as they are; all other line breaks are the same.
-/

namespace TerminalMarkup

namespace Yaml

/-- What a character that ends a line stands for. -/
def breakValue (c : Char) : Char := if c.toNat = 0x2028 ∨ c.toNat = 0x2029 then c else '\n'

/-- The line breaks of a run of spacing. -/
def lineBreaks : Text → Text
  | [] => []
  | '\r' :: '\n' :: s => '\n' :: lineBreaks s
  | c :: s => if isBreak c then breakValue c :: lineBreaks s else lineBreaks s

/-- What a run of spacing stands for. -/
def foldSpacing (run : Text) : Text :=
  match lineBreaks run with
  | [] => run
  | ['\n'] => [' ']
  | '\n' :: breaks => breaks
  | breaks => breaks

/-- The number of characters after the last line break of a run, if it has one. -/
def columnAfter? (run : Text) : Option Nat :=
  if run.any isBreak then some (run.reverse.takeWhile fun c => !isBreak c).length else none

/-- A run ends at the start of a line. -/
def endsLine (run : Text) : Bool := columnAfter? run = some 0

/-- The line break at the start of a text, and the rest. -/
def takeBreak : Text → Text × Text
  | '\r' :: '\n' :: s => (['\n'], s)
  | c :: s => if isBreak c then ([breakValue c], s) else ([], c :: s)
  | [] => ([], [])

theorem length_takeBreak_le (s : Text) : (takeBreak s).2.length ≤ s.length := by
  unfold takeBreak
  split
  · simp; omega
  · split <;> simp
  · simp

/-! ## Splitting off a run -/

theorem length_dropWhile_le {α : Type} (f : α → Bool) (s : List α) : (s.dropWhile f).length ≤ s.length :=
  (List.dropWhile_suffix f).length_le

theorem length_dropWhile_lt {α : Type} {f : α → Bool} {s : List α} (h : s.takeWhile f ≠ []) :
    (s.dropWhile f).length < s.length := by
  have := congrArg List.length (List.takeWhile_append_dropWhile (p := f) (l := s))
  have := List.length_pos_iff.2 h
  simp only [List.length_append] at *
  omega

end Yaml
end TerminalMarkup
