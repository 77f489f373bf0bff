import TerminalMarkup.Color.Palette
import TerminalMarkup.Profile
import TerminalMarkup.Sgr

/-!
# Colors

A color is given by name, by its hexadecimal digits, or by its place in the palette. `Color.parse?` reads one, and
`Color.params` gives the numbers of the SGR sequence that selects it on a terminal of some profile.
-/

namespace TerminalMarkup

/-- What a color is selected for. -/
inductive Layer
  | foreground
  | background
  deriving DecidableEq, Repr

/-- The number that announces a color of the layer. -/
def Layer.extended : Layer → Nat
  | .foreground => 38
  | .background => 48

/-- A color as a style code gives it. -/
inductive Color
  | named (c : NamedColor)
  | hex (c : Rgb)
  | index (i : Palette.Index)
  deriving DecidableEq, Repr

namespace Color

/-- The number that decimal digits stand for, if it is the number of a place in the palette. -/
def index? (digits : Text) : Option Palette.Index :=
  let n := digits.foldl (fun n c => 10 * n + (c.toNat - '0'.toNat)) 0
  if h : n < 256 then some ⟨n, h⟩ else none

/-- Reads a color: hexadecimal after a number sign, a place in the palette in decimal digits, or else a name. -/
def parse? (s : Text) : Option Color :=
  let s := s.trim
  if s = [] then none
  else if Text.startsWith ['#'] s then (Rgb.ofHex? s).map .hex
  else if s.all Char.isDigit then (index? s).map .index
  else (NamedColor.ofName? s).map .named

/-- The color shown. -/
def rgb : Color → Rgb
  | named c => c.rgb
  | hex c => c
  | index i => Palette.rgb i

/-- The color as text. -/
def text : Color → Text
  | named c => c.name
  | hex c => c.toHex
  | index i => Text.ofNat i

/-- The number that selects a system color. -/
def slotParam (layer : Layer) (s : Slot) : Nat :=
  match layer with
  | .foreground => if s.val < 8 then 30 + s else 82 + s
  | .background => if s.val < 8 then 40 + s else 92 + s

/-- The place of a color in the palette. -/
def paletteIndex : Color → Palette.Index
  | named ⟨_, _, some s⟩ => ⟨s, by omega⟩
  | named ⟨_, rgb, none⟩ => Palette.index rgb
  | hex c => Palette.index c
  | index i => i

/-- The system color for a color. -/
def slot : Color → Slot
  | named ⟨_, _, some s⟩ => s
  | named ⟨_, rgb, none⟩ => Palette.slot rgb
  | hex c => Palette.slot c
  | index i => if h : i.val < 16 then ⟨i, h⟩ else Palette.slot (Palette.rgb i)

/-- The SGR numbers that select the color. Palette places stay what they are on a terminal with RGB colors, so that they
follow its palette. -/
def params (profile : Profile) (layer : Layer) (c : Color) : List Nat :=
  match profile with
  | .ascii => []
  | .ansi16 => [slotParam layer c.slot]
  | .ansi256 => [layer.extended, 5, c.paletteIndex]
  | .trueColor =>
    match c with
    | index i => [layer.extended, 5, i]
    | named ⟨_, rgb, _⟩ | hex rgb => [layer.extended, 2, rgb.red, rgb.green, rgb.blue]

end Color
end TerminalMarkup
