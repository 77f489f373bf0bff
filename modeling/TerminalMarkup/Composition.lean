import TerminalMarkup.Style.Basic

/-!
# Compositions

A composition accumulates style codes as text: the last color given for each layer, and the letters given for the
attributes. A lone dash resets all three fields to a dash. Flags that start with a dash replace the letters so far, all
others are appended; of the letters for one attribute the last is kept, so that the letters stay few.

* `Composition.overlay` lays a style code over a composition, `Composition.merge` another composition,
* `Composition.code` writes a composition as a style code again.
-/

namespace TerminalMarkup

/-- Accumulated style codes. -/
structure Composition where
  foreground : Text
  background : Text
  flags : Text
  deriving DecidableEq, Repr

namespace Composition

/-- Nothing accumulated. -/
def empty : Composition := ⟨[], [], []⟩

instance : Inhabited Composition := ⟨empty⟩

/-- Characters that name the same attribute: equal up to the case of ASCII letters. -/
def sameLetter (a b : Char) : Bool := a.toLower == b.toLower

/-- Appends a letter after dropping those that name the same attribute. -/
def keepLast (kept : Text) (c : Char) : Text := kept.filter (fun k => !sameLetter k c) ++ [c]

/-- Keeps the last of the letters for each attribute. -/
def compactLetters (s : Text) : Text := s.foldl keepLast []

/-- Keeps the last of the letters for each attribute, and a dash in front. -/
def compactFlags : Text → Text
  | '-' :: s => '-' :: compactLetters s
  | s => compactLetters s

/-- The flags after a flags segment without blanks around it. -/
def appendFlags (flags : Text) : Text → Text
  | [] => flags
  | '-' :: s => compactFlags ('-' :: s)
  | s => compactFlags (flags ++ s)

/-- Lays the fields of a style code over a composition. -/
def overlayFields (c : Composition) (fields : List Text) : Composition :=
  let field (i : Nat) := (fields[i]?.getD []).trim
  ⟨if field 0 = [] then c.foreground else field 0, if field 1 = [] then c.background else field 1,
    appendFlags c.flags (field 2)⟩

/-- Lays a style code over a composition. -/
def overlay (c : Composition) (code : Text) : Composition :=
  let code := code.trim
  if code = ['-'] then ⟨['-'], ['-'], ['-']⟩ else c.overlayFields (Text.fields ':' code)

/-- The composition of style codes from left to right. -/
def ofCodes (codes : List Text) : Composition := codes.foldl overlay empty

/-- The composition as a style code. -/
def code (c : Composition) : Text := c.foreground ++ ':' :: c.background ++ ':' :: c.flags

/-- Lays a composition over another. -/
def merge (c other : Composition) : Composition := c.overlay other.code

/-- Nothing has been accumulated. -/
def isEmpty (c : Composition) : Bool := c = empty

/-- The style of a composition. -/
def style (c : Composition) : Style := .parse c.code

/-- Laying nothing over a composition changes nothing. -/
@[simp] theorem merge_empty (c : Composition) : c.merge empty = c := by
  have ht : Text.trim [':', ':'] = [':', ':'] := by decide
  have hf : Text.fields ':' [':', ':'] = [[], [], []] := by decide
  have he : Text.trim [] = [] := by decide
  simp [merge, show empty.code = [':', ':'] from rfl, overlay, ht, hf, overlayFields, he, appendFlags]

end Composition
end TerminalMarkup
