import TerminalMarkup.Segment
import TerminalMarkup.Style.Basic

/-!
# Rendering

Rendering writes the style codes of an expanded text as escape sequences. Inside a base style, everything that returns
to the default returns to the base instead: the code that is a lone dash, a dash for a layer that the base paints, and
resets that stand in the literal text.

* `renderSegments` writes segments, `render` a markup text,
* `renderDirect` writes a markup text of which only the direct tags count.
-/

namespace TerminalMarkup

/-- Puts `restore` in place of the sequences that reset everything, with or without a zero. -/
def replaceResets (restore : Text) : Text → Text
  | [] => []
  | c :: s =>
    if c = escape then
      match s with
      | '[' :: 'm' :: s => restore ++ replaceResets restore s
      | '[' :: '0' :: 'm' :: s => restore ++ replaceResets restore s
      | s => escape :: replaceResets restore s
    else c :: replaceResets restore s

/-- Where a paint returns to the default and the base has one, the base's paint; otherwise the paint itself. -/
def Paint.withBase (base : Option Paint) : Option Paint → Option Paint
  | some .default => base.or (some .default)
  | paint => paint

/-- The style with the base's paints in place of the defaults. -/
def Style.withBase (s base : Style) : Style :=
  match s with
  | reset => reset
  | overlay fg bg flags => overlay (Paint.withBase base.foreground fg) (Paint.withBase base.background bg) flags

/-- The escape sequences of the base style. -/
def baseAnsi (profile : Profile) (base : Option Style) : Text := (base.map (·.ansi profile)).getD []

/-- Literal text inside a base style, whose resets return to the base. -/
def renderText (profile : Profile) (base : Option Style) (s : Text) : Text :=
  let ansi := baseAnsi profile base
  if ansi = [] then s else replaceResets (Sgr.reset ++ ansi) s

/-- A style code inside a base style. -/
def renderCode (profile : Profile) (base : Option Style) (code : Text) : Text :=
  let style := Style.parse code
  match base with
  | none => style.ansi profile
  | some base => if style.isReset then Sgr.reset ++ base.ansi profile else (style.withBase base).ansi profile

/-- A segment inside a base style. -/
def Segment.render (profile : Profile) (base : Option Style) : Segment → Text
  | text s => renderText profile base s
  | direct code => renderCode profile base code

/-- Segments inside a base style. -/
def renderSegments (profile : Profile) (base : Option Style) (ss : List Segment) : Text :=
  ss.flatMap (Segment.render profile base)

/-- Expands and writes a markup text. -/
def render (d : Delimiters) (r : Registry) (profile : Profile) (base : Option Style) (s : Text) : Text :=
  renderSegments profile base (segments d r s)

/-- The segment of a token when references mean nothing. -/
def Token.directSegment? : Token → Option Segment
  | text s => some (.text s)
  | direct code => some (.direct code)
  | semantic _ => none

/-- Writes a markup text without a registry: references are dropped. -/
def renderDirect (d : Delimiters) (profile : Profile) (base : Option Style) (s : Text) : Text :=
  renderSegments profile base ((tokenize d s).filterMap Token.directSegment?)

end TerminalMarkup
