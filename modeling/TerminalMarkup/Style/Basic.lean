import TerminalMarkup.Color.Basic
import TerminalMarkup.Style.Flags

/-!
# Styles

A style code `foreground:background:flags` says what to do with the two layers and the attributes; each part may be left
out. A layer is given a color or, by a dash, returned to the terminal's default. The code that is a lone dash returns
everything to the default.

* `Style.parse` reads a code; it never fails, and drops what it does not know,
* `Style.params` are the SGR numbers of a style, `Style.ansi` its escape sequence.
-/

namespace TerminalMarkup

/-- What a style does to a layer. -/
inductive Paint
  /-- Return to the terminal's default. -/
  | default
  | color (c : Color)
  deriving DecidableEq, Repr

/-- What a style code says. -/
inductive Style
  /-- Return everything to the default. -/
  | reset
  /-- Paint the layers that are mentioned, and set the attributes that are mentioned. -/
  | overlay (foreground background : Option Paint) (flags : Flags)
  deriving DecidableEq, Inhabited

namespace Style

/-- The style that says nothing. -/
def empty : Style := overlay none none .none

/-- The code is a lone dash. -/
def isReset : Style → Bool
  | reset => true
  | overlay .. => false

/-- The style says nothing. -/
def isEmpty (s : Style) : Bool := s = empty

/-- What is done to the foreground. -/
def foreground : Style → Option Paint
  | reset => none
  | overlay fg _ _ => fg

/-- What is done to the background. -/
def background : Style → Option Paint
  | reset => none
  | overlay _ bg _ => bg

/-- What is said of the attributes. -/
def flags : Style → Flags
  | reset => .none
  | overlay _ _ flags => flags

/-! ## Reading -/

/-- The bright form of the color that `segment` gave. -/
def brighten (segment : Text) : Color → Color
  | .named c => (Color.parse? (NamedColor.brightName segment)).getD (.named c)
  | .index i => if h : i.val < 8 then .index ⟨i + 8, by omega⟩ else .index i
  | .hex c => .hex c

/-- Reads the part of a style code for one layer. -/
def parsePaint? (bright : Bool) (segment : Text) : Option Paint :=
  let segment := segment.trim
  if segment = [] then none
  else if segment = ['-'] then some .default
  else (Color.parse? segment).map fun c => .color (if bright then brighten segment c else c)

/-- Reads a style code from its parts. -/
def ofFields (fields : List Text) : Style :=
  let flags := Flags.parse (fields[2]?.getD [])
  let bright := flags.get .highIntensity = some true
  overlay (parsePaint? bright (fields[0]?.getD [])) (parsePaint? bright (fields[1]?.getD [])) flags

/-- Reads a style code. -/
def parse (code : Text) : Style :=
  let code := code.trim
  if code = ['-'] then reset else ofFields (Text.fields ':' code)

/-! ## Writing -/

/-- The SGR number that returns a layer to the default. -/
def defaultParam : Layer → Nat
  | .foreground => 39
  | .background => 49

/-- The SGR numbers that paint a layer. -/
def paintParams (profile : Profile) (layer : Layer) : Option Paint → List Nat
  | none => []
  | some .default => [defaultParam layer]
  | some (.color c) => c.params profile layer

/-- The SGR numbers of a style: what goes off, the colors, what goes on. Switching off comes first, since bold and dim
go off together. -/
def params (profile : Profile) : Style → List Nat
  | reset => [0]
  | overlay fg bg flags =>
    flags.offCodes ++ paintParams profile .foreground fg ++ paintParams profile .background bg ++ flags.onCodes

/-- The escape sequence of a style; there is none without colors, and none for a style that changes nothing. -/
def ansi (profile : Profile) (s : Style) : Text :=
  if profile.supportsColor then Sgr.sequenceUnlessEmpty (s.params profile) else []

end Style
end TerminalMarkup
