import TerminalMarkup.Dictionary
import TerminalMarkup.Text.Blank

/-!
# Color profiles

A profile says which colors the terminal can show. It has a name for the command line, and is otherwise detected:

1. an explicit value of `COLORTERM`,
2. a part of `TERM`, or the terminal `dumb`,
3. the family of terminals that `TERM` names.

A non-empty `NO_COLOR` goes before all of these (`Environment.profile`).
-/

namespace TerminalMarkup

/-- What colors a terminal can show. -/
inductive Profile
  /-- No colors and no attributes: no escape sequences at all. -/
  | ascii
  /-- The 16 system colors. -/
  | ansi16
  /-- The palette of 256 colors. -/
  | ansi256
  /-- Every RGB color. -/
  | trueColor
  deriving DecidableEq, Repr, Inhabited

namespace Profile

/-- The profile has escape sequences. -/
def supportsColor (p : Profile) : Bool := p ≠ .ascii

/-- The name of a profile. -/
def name : Profile → String
  | ascii => "ascii"
  | ansi16 => "ansi16"
  | ansi256 => "ansi256"
  | trueColor => "truecolor"

/-- The profile with a given name; every profile has several. -/
def ofName? (s : Text) : Option Profile :=
  let s := s.trim.toAsciiLower
  if s.isOneOf ["truecolor", "24bit", "rgb"] then some .trueColor
  else if s.isOneOf ["256", "256color", "ansi256", "8bit"] then some .ansi256
  else if s.isOneOf ["16", "16color", "ansi", "ansi16", "4bit"] then some .ansi16
  else if s.isOneOf ["ascii", "mono", "none", "plain"] then some .ascii
  else none

/-- The name of a profile is read as the profile. -/
theorem ofName?_name (p : Profile) : ofName? p.name.toList = some p := by
  cases p <;> decide

/-- The profile that a value of `COLORTERM` names. -/
def ofColorTerm? (s : Text) : Option Profile :=
  let s := s.trim.toAsciiLower
  if s.isOneOf ["truecolor", "24bit"] then some .trueColor
  else if s.isOneOf ["8bit", "256color"] then some .ansi256
  else if s.isOneOf ["4bit", "16color", "8color", "3bit"] then some .ansi16
  else if s.isOneOf ["1bit", "2color", "mono", "false", "0"] then some .ascii
  else none

/-- The profile of a terminal whose name tells its colors. -/
def ofTerm? (term : Text) : Option Profile :=
  if Text.contains "direct".toList term then some .trueColor
  else if Text.contains "256color".toList term then some .ansi256
  else if Text.contains "16color".toList term then some .ansi16
  else if term = "dumb".toList then some .ascii
  else none

/-- Terminals with RGB colors. -/
def trueColorTerminals : List String := ["kitty", "wezterm", "alacritty", "ghostty", "foot"]

/-- Starts of the names of terminals that have the 16 system colors. -/
def ansiTerminals : List String := ["xterm", "screen", "tmux", "rxvt", "vt100", "cygwin"]

/-- The profile of the family of a terminal. -/
def ofFamily (term : Text) : Profile :=
  if term = [] then .ascii
  else if trueColorTerminals.any fun t => Text.contains t.toList term then .trueColor
  else if term = "linux".toList || Text.contains "color".toList term || Text.contains "ansi".toList term
      || ansiTerminals.any fun t => Text.startsWith t.toList term then .ansi16
  else .ascii

/-- The profile for the values of `COLORTERM` and `TERM`. -/
def detect (colorTerm term : Option Text) : Profile :=
  match colorTerm.bind ofColorTerm? with
  | some p => p
  | none =>
    let term := (term.map fun t => t.trim.toAsciiLower).getD []
    (ofTerm? term).getD (ofFamily term)

end Profile

/-! ## The environment -/

/-- What a process finds around it. -/
structure Environment where
  values : Dictionary Text
  stdoutIsTerminal : Bool

namespace Environment

/-- The value of a variable. -/
def get? (env : Environment) (name : String) : Option Text := env.values.get? name.toList

/-- The detected profile. -/
def profile (env : Environment) : Profile :=
  if (env.get? "NO_COLOR").getD [] ≠ [] then .ascii else .detect (env.get? "COLORTERM") (env.get? "TERM")

/-- Escape sequences are wanted: `CLICOLOR_FORCE` is set, neither empty nor `0`, or the output is a terminal. -/
def wantsColor (env : Environment) : Bool :=
  !((env.get? "CLICOLOR_FORCE").getD []).isOneOf ["", "0"] || env.stdoutIsTerminal

end Environment
end TerminalMarkup
