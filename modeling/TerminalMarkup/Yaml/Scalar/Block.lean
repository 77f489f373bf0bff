import TerminalMarkup.Yaml.Spacing

/-!
# Block scalars

A block scalar has a header, which says how it is folded and chomped, and consists of the lines behind the header that
are indented far enough. Its indentation is given in the header, or is that of its first line that is not empty. A
literal scalar keeps its line breaks; a folded one joins lines that do not start with a blank.
-/

namespace TerminalMarkup

namespace Yaml

/-- What happens to the line breaks at the end of a block scalar. -/
inductive Chomping
  /-- They are dropped. -/
  | strip
  /-- One is kept. -/
  | clip
  /-- They are kept. -/
  | keep
  deriving DecidableEq, Repr

/-! ## The header -/

/-- The chomping indicator at the start of a text. -/
def chompingIndicator? : Text → Option (Chomping × Text)
  | '+' :: s => some (.keep, s)
  | '-' :: s => some (.strip, s)
  | _ => none

/-- The indentation indicator at the start of a text: a digit from 1 to 9; none if it is zero. -/
def indentationIndicator? : Text → Option (Option Nat × Text)
  | [] => some (none, [])
  | c :: s => if c = '0' then none else if c.isDigit then some (some (c.toNat - 48), s) else some (none, c :: s)

/-- The two indicators of a header, in either order. -/
def indicators? (s : Text) : Option (Chomping × Option Nat × Text) :=
  match chompingIndicator? s with
  | some (chomping, s) => (indentationIndicator? s).map fun (n, s) => (chomping, n, s)
  | none =>
    (indentationIndicator? s).map fun (n, s) =>
      match n, chompingIndicator? s with
      | some n, some (chomping, s) => (chomping, some n, s)
      | n, _ => (.clip, n, s)

/-- The rest of a line that holds nothing but blanks and a comment; what follows is its line break or nothing. -/
def emptyRest? (s : Text) : Option Text :=
  let s := s.dropWhile isBlank
  let s := if startsWhere (· == '#') s then s.dropWhile fun c => !isBreak c else s
  if s = [] || startsWhere isBreak s then some s else none

/-! ## Empty lines -/

/-- The empty lines before a line of a scalar, and the indentation of that line. -/
structure EmptyLines where
  breaks : Text
  /-- The widest indentation, up to that of the line behind the empty ones. -/
  widest : Nat
  /-- The indentation of the line behind the empty ones. -/
  column : Nat
  rest : Text
  deriving DecidableEq, Repr

/-- Reads empty lines and indentation, of which there is no more than `limit` if that is known. In place of a space of
the indentation there must be no tab. -/
def emptyLines? (limit : Option Nat) (column widest : Nat) : Text → Option EmptyLines
  | [] => some ⟨[], max widest column, column, []⟩
  | '\r' :: '\n' :: s =>
    (emptyLines? limit 0 (max widest column) s).map fun e => { e with breaks := '\n' :: e.breaks }
  | c :: s =>
    if isBreak c then
      (emptyLines? limit 0 (max widest column) s).map fun e => { e with breaks := breakValue c :: e.breaks }
    else if c = ' ' ∧ limit.all (column < ·) then emptyLines? limit (column + 1) widest s
    else if c = '\t' ∧ limit.all (column < ·) then none
    else some ⟨[], max widest column, column, c :: s⟩

theorem length_of_emptyLines? {limit : Option Nat} {column widest : Nat} {s : Text} {e : EmptyLines}
    (h : emptyLines? limit column widest s = some e) : e.rest.length ≤ s.length := by
  fun_induction emptyLines? limit column widest s generalizing e with
  | case1 => cases h; simp
  | case2 column widest s ih =>
    obtain ⟨e', he, rfl⟩ := Option.map_eq_some_iff.1 h
    have := ih he
    simp; omega
  | case3 column widest c s _ _ ih =>
    obtain ⟨e', he, rfl⟩ := Option.map_eq_some_iff.1 h
    have := ih he
    simp; omega
  | case4 column widest c s _ _ _ ih =>
    have := ih h
    simp; omega
  | case5 => cases h
  | case6 => cases h; simp

/-! ## The lines -/

/-- What is left of the line break of the last line and of the breaks of the empty lines behind it. -/
def Chomping.apply : Chomping → Text → Text → Text
  | strip, _, _ => []
  | clip, last, _ => last
  | keep, last, breaks => last ++ breaks

/-- How a scalar treats its lines. -/
structure BlockFormat where
  isFolded : Bool
  chomping : Chomping
  indent : Nat
  deriving DecidableEq, Repr

/-- What stands for the line break between two lines. A folded scalar drops it when empty lines follow, and otherwise
writes a space for it, unless one of the lines starts with a blank. -/
def BlockFormat.joint (f : BlockFormat) (last breaks : Text) (afterBlank beforeBlank : Bool) : Text :=
  if f.isFolded && last == ['\n'] && !afterBlank && !beforeBlank then if breaks = [] then [' '] else [] else last

/-- Reads the lines of a scalar: its value and what follows it. `last` is the line break of the line before, and
`afterBlank` says that this line starts with a blank. -/
def blockLines? (f : BlockFormat) (last : Text) (afterBlank : Bool) (e : EmptyLines) : Option (Text × Text) :=
  match _hr : e.rest with
  | [] => some (f.chomping.apply last e.breaks, [])
  | c :: s =>
    if e.column = f.indent then
      let line := c :: s.takeWhile fun c => !isBreak c
      let following := takeBreak (s.dropWhile fun c => !isBreak c)
      match _he : emptyLines? (some f.indent) 0 0 (takeBreak (s.dropWhile fun c => !isBreak c)).2 with
      | none => none
      | some e' =>
        (blockLines? f following.1 (isBlank c) e').map fun (t, r) =>
          (f.joint last e.breaks afterBlank (isBlank c) ++ e.breaks ++ line ++ t, r)
    else some (f.chomping.apply last e.breaks, c :: s)
termination_by e.rest.length
decreasing_by
  have h₁ := length_of_emptyLines? _he
  have h₂ := length_takeBreak_le (s.dropWhile fun c => !isBreak c)
  have h₃ := length_dropWhile_le (fun c => !isBreak c) s
  simp only [_hr, List.length_cons]
  omega

/-- Reads a block scalar after its first indicator: its value and what follows it. `parent` is the indentation of the
collection it stands in, if there is one; the scalar is indented further. -/
def block? (isFolded : Bool) (parent : Option Nat) (s : Text) : Option (Text × Text) := do
  let (chomping, explicit, s) ← indicators? s
  let s ← emptyRest? s
  let limit := explicit.map fun n => parent.getD 0 + n
  let e ← emptyLines? limit 0 0 (takeBreak s).2
  let floor := (parent.map (· + 1)).getD 1
  blockLines? ⟨isFolded, chomping, limit.getD (max e.widest floor)⟩ [] false e

end Yaml
end TerminalMarkup
