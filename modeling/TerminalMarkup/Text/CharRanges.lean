import TerminalMarkup.Text.Basic

/-!
# Sets of characters

A character class of the standard is a list of ranges of code points. Membership is a search, and a class is read off
its ranges by `CharRanges.contains_iff`.
-/

namespace TerminalMarkup

/-- A set of characters: closed ranges of code points. -/
abbrev CharRanges := List (Nat × Nat)

namespace CharRanges

/-- Some range holds the character. -/
def contains (ranges : CharRanges) (c : Char) : Bool :=
  ranges.any fun (lo, hi) => decide (lo ≤ c.toNat) && decide (c.toNat ≤ hi)

theorem contains_iff {ranges : CharRanges} {c : Char} :
    ranges.contains c = true ↔ ∃ r ∈ ranges, r.1 ≤ c.toNat ∧ c.toNat ≤ r.2 := by
  simp [contains]

end CharRanges
end TerminalMarkup
