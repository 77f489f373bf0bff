import TerminalMarkup.Escape.Strip
import TerminalMarkup.Registry.Builtin
import TerminalMarkup.Rendering
import TerminalMarkup.Text.Width
import TerminalMarkup.Theme.Table
import TerminalMarkup.Widget

/-!
# Renderers

A renderer knows the registry, the delimiters of its markup, and the terminal it writes for. Where the output is no
terminal, or the terminal has no colors, it strips the text instead of rendering it.
-/

namespace TerminalMarkup

/-- A destination for markup. -/
structure Renderer where
  registry : Registry
  delimiters : Delimiters
  profile : Profile
  isTerminal : Bool
  deriving DecidableEq

namespace Renderer

/-- A renderer for a terminal with RGB colors. -/
def new (r : Registry) : Renderer := ⟨r, .canonical, .trueColor, true⟩

/-- A renderer for the terminal that the environment describes. -/
def ofEnvironment (r : Registry) (env : Environment) : Renderer := ⟨r, .canonical, env.profile, env.wantsColor⟩

/-- The output has escape sequences. -/
def rendersColor (re : Renderer) : Bool := re.isTerminal && re.profile.supportsColor

/-! ## Output -/

/-- The text without tags and escapes. -/
def strip (re : Renderer) (s : Text) : Text := TerminalMarkup.strip re.delimiters s

/-- The text for a terminal of the given profile. -/
def ansiFor (re : Renderer) (profile : Profile) (s : Text) : Text :=
  if profile.supportsColor then render re.delimiters re.registry profile none s else re.strip s

/-- The text for this destination. -/
def ansi (re : Renderer) (s : Text) : Text := if re.rendersColor then re.ansiFor re.profile s else re.strip s

/-- The style of a base code, which may be written as a direct tag. -/
def baseStyle (re : Renderer) (code : Text) : Style := .parse (re.delimiters.unwrapDirect code)

/-- The text inside a base style, followed by a full reset. -/
def ansiWithin (re : Renderer) (s base : Text) : Text :=
  if re.rendersColor then
    (re.baseStyle base).ansi re.profile
      ++ render re.delimiters re.registry re.profile (some (re.baseStyle base)) s ++ Sgr.reset
  else re.strip s

/-- The text in widget markup. -/
def widgetMarkup (re : Renderer) (s : Text) : Text := TerminalMarkup.widgetMarkup re.delimiters re.registry s

/-- The columns that the text takes once it is rendered. -/
def width (re : Renderer) (s : Text) : Nat := (re.strip s).width

/-! ## Registered styles -/

/-- A value in the renderer's delimiters, with its tags in the canonical ones. -/
def canonicalize (d : Delimiters) (raw : Text) : Text :=
  if d.hasOpening raw then writeTokens .canonical ((tokenize d raw).filter Token.isTag) else raw.trim

/-- Registers a value that is written in the renderer's delimiters. -/
def registerTag (re : Renderer) (name raw : Text) : Renderer :=
  { re with registry := re.registry.register name (canonicalize re.delimiters raw) }

/-- The value of a name in the renderer's delimiters. -/
def lookupTagged (re : Renderer) (name : Text) : Option Text :=
  TerminalMarkup.lookupTagged re.delimiters re.registry name

/-- Loads a theme table that is written in the renderer's delimiters. -/
def loadTheme (re : Renderer) (table : List (Text × Text)) (ns : Option Text) : LoadedTheme × Renderer :=
  let (theme, registry) := re.registry.loadTheme table re.delimiters ns
  (theme, { re with registry })

end Renderer
end TerminalMarkup
