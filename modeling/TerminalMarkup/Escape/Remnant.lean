import TerminalMarkup.Text.DecimalDigit

/-!
# Remnants of escape sequences

A control sequence that has lost its escape character on the way leaves a remnant such as `[31m` or `[2K`.
`Escape.removeRemnants` deletes the remnants of the usual sequences: colors and attributes, cursor positions and moves,
erasures and modes. A remnant right before a closing bracket is a bracketed word, such as `[2B]`, and stays.

`removeRemnants_sublist` says that this only deletes.
-/

namespace TerminalMarkup

namespace Escape

/-- A character of the parameters of a sequence. -/
def isParamChar (c : Char) : Bool := isDecimalDigit c || c == ';'

/-- A remnant may have parameters of these lengths before its final character; `mode` tells whether a question mark
stands in front of them. -/
def isRemnant (mode : Bool) (lengths : List Nat) (final : Char) : Bool :=
  if mode then (final == 'h' || final == 'l') && lengths.length == 1 && lengths.all fun n => 1 ≤ n ∧ n ≤ 4
  else if final = 'm' then lengths.all fun n => 1 ≤ n ∧ n ≤ 3
  else if final = 'H' ∨ final = 'f' then lengths.length == 2 && lengths.all fun n => 1 ≤ n ∧ n ≤ 4
  else if final ∈ ['A', 'B', 'C', 'D', 'G', 'J', 'K'] then
    lengths.length == 1 && lengths.all fun n => 1 ≤ n ∧ n ≤ 4
  else false

/-- The question mark in front of the parameters, if it is there, and what follows. -/
def splitMode : Text → Text × Text
  | '?' :: s => (['?'], s)
  | s => ([], s)

theorem append_splitMode (s : Text) : (splitMode s).1 ++ (splitMode s).2 = s := by
  unfold splitMode
  split <;> rfl

/-- The remnant in a text after an opening bracket, and what follows it. -/
def remnant? (s : Text) : Option (Text × Text) :=
  let params := (splitMode s).2.takeWhile isParamChar
  match (splitMode s).2.dropWhile isParamChar with
  | [] => none
  | final :: rest =>
    if isRemnant ((splitMode s).1 ≠ []) ((Text.fields ';' params).map List.length) final then
      some ((splitMode s).1 ++ params ++ [final], rest)
    else none

theorem append_of_remnant? {s body rest : Text} (h : remnant? s = some (body, rest)) : body ++ rest = s := by
  unfold remnant? at h
  dsimp only at h
  split at h
  · cases h
  next final rest' hd =>
    split at h
    · cases h
      have := List.takeWhile_append_dropWhile (p := isParamChar) (l := (splitMode s).2)
      rw [hd] at this
      simp only [List.append_assoc, List.cons_append, List.nil_append, this, append_splitMode]
    · cases h

/-- Looks at a character: the text that is kept, and what is left to look at. -/
def scanRemnant (c : Char) (s : Text) : Text × Text :=
  if c = '[' then
    match remnant? s with
    | some (body, ']' :: rest) => ('[' :: body ++ [']'], rest)
    | some (_, rest) => ([], rest)
    | none => ([c], s)
  else ([c], s)

theorem scanRemnant_sublist (c : Char) (s : Text) : ((scanRemnant c s).1 ++ (scanRemnant c s).2).Sublist (c :: s) := by
  unfold scanRemnant
  split
  next hc =>
    subst hc
    split
    next h => simp [← append_of_remnant? h]
    next h =>
      rw [← append_of_remnant? h]
      exact (List.sublist_append_right _ _).trans (List.sublist_cons_self _ _)
    · exact List.Sublist.refl _
  · exact List.Sublist.refl _

theorem scanRemnant_snd_length_le (c : Char) (s : Text) : (scanRemnant c s).2.length ≤ s.length := by
  unfold scanRemnant
  split
  · split
    next h => have := congrArg List.length (append_of_remnant? h); simp at this ⊢; omega
    next h => have := congrArg List.length (append_of_remnant? h); simp at this ⊢; omega
    · exact Nat.le_refl _
  · exact Nat.le_refl _

/-- Deletes the remnants of escape sequences. -/
def removeRemnants : Text → Text
  | [] => []
  | c :: s => (scanRemnant c s).1 ++ removeRemnants (scanRemnant c s).2
termination_by s => s.length
decreasing_by exact Nat.lt_succ_of_le (scanRemnant_snd_length_le c s)

/-- Deleting remnants only deletes characters. -/
theorem removeRemnants_sublist (s : Text) : (removeRemnants s).Sublist s := by
  fun_induction removeRemnants s with
  | case1 => exact List.Sublist.refl _
  | case2 c s ih => exact ((List.Sublist.refl _).append ih).trans (scanRemnant_sublist c s)

end Escape
end TerminalMarkup
