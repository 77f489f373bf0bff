import TerminalMarkup.Text.CharRanges

/-!
# White space

A character is blank when the standard gives it the property `White_Space`. `Text.trim` removes blanks at both ends.
-/

namespace TerminalMarkup

/-- The characters with the property `White_Space`. -/
def blankRanges : CharRanges :=
  [(0x09, 0x0D), (0x20, 0x20), (0x85, 0x85), (0xA0, 0xA0), (0x1680, 0x1680), (0x2000, 0x200A), (0x2028, 0x2029),
    (0x202F, 0x202F), (0x205F, 0x205F), (0x3000, 0x3000)]

/-- A blank character. -/
def isBlank (c : Char) : Bool := blankRanges.contains c

namespace Text

/-- Removes the blanks at both ends. -/
def trim (s : Text) : Text := s.strip isBlank

end Text
end TerminalMarkup
