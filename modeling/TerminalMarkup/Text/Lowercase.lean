import TerminalMarkup.Text.Lowercase.Table

/-!
# Lowercasing

Every character has its lowercase form of the standard, with the two mappings that are not one to one:

* the capital I with a dot becomes an `i` and a combining dot,
* a capital sigma is final (`ς`) when a cased letter stands before it and none after it, case-ignorable characters
  apart; otherwise it is `σ`.

`Text.lowercase_ascii` says that on ASCII letters this is the usual mapping.
-/

namespace TerminalMarkup

namespace Lowercase

/-- The lowercase form of a character that the run covers. -/
def Run.image? (run : Run) (n : Nat) : Option Nat :=
  if run.first ≤ n ∧ n ≤ run.last ∧ (n - run.first) % run.step = 0 then some ((n : Int) + run.shift).toNat else none

/-- The lowercase form of a single character, its surroundings apart. -/
def char (c : Char) : Text :=
  if c.toNat < 0x80 then [c.toLower]
  else if c = '\u0130' then ['i', '\u0307']
  else
    match runs.findSome? (·.image? c.toNat) with
    | some n => [Char.ofNat n]
    | none => [c]

/-- The first character that is not case-ignorable exists and is cased. -/
def facesCased (s : Text) : Bool :=
  match s.dropWhile caseIgnorableRanges.contains with
  | [] => false
  | c :: _ => casedRanges.contains c

/-- Lowercases `s`, which stands after the text whose reverse is `before`. -/
def within (before : Text) : Text → Text
  | [] => []
  | c :: s =>
    let here := if c = 'Σ' then [if facesCased before && !facesCased s then 'ς' else 'σ'] else char c
    here ++ Lowercase.within (c :: before) s

end Lowercase

namespace Text

/-- The lowercase form of a text. -/
def lowercase (s : Text) : Text := Lowercase.within [] s

end Text

namespace Lowercase

theorem within_ascii {s : Text} (h : ∀ c ∈ s, c.toNat < 0x80) (before : Text) :
    Lowercase.within before s = s.map Char.toLower := by
  induction s generalizing before with
  | nil => rfl
  | cons c s ih =>
    have hc := h c List.mem_cons_self
    have hs : c ≠ 'Σ' := by rintro rfl; revert hc; decide
    simp [Lowercase.within, hs, char, hc, ih fun d hd => h d (List.mem_cons_of_mem _ hd)]

end Lowercase

/-- A text of ASCII characters is lowercased letter by letter. -/
theorem Text.lowercase_ascii {s : Text} (h : ∀ c ∈ s, c.toNat < 0x80) : s.lowercase = s.map Char.toLower :=
  Lowercase.within_ascii h []

end TerminalMarkup
