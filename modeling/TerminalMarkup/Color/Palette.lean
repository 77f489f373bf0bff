import TerminalMarkup.Color.Named

/-!
# The palette of 256 colors

The palette holds the 16 system colors, a cube of six levels to a channel, and a ramp of 24 grays. `Palette.rgb` gives
the color of an index, `Palette.index` the index that stands for a color, and `Palette.slot` the system color that looks
nearest to it.
-/

namespace TerminalMarkup

namespace Palette

instance neZero_six : @NeZero Nat Zero.ofOfNat0 6 := ⟨by decide⟩

/-- A place in the palette. -/
abbrev Index := Fin 256

/-- The channel strengths in the color cube. -/
def level : Fin 6 → Channel
  | 0 => 0
  | 1 => 95
  | 2 => 135
  | 3 => 175
  | 4 => 215
  | 5 => 255

/-- The color of a place in the palette. -/
def rgb (i : Index) : Rgb :=
  if h : i.val < 16 then (NamedColor.ofSlot ⟨i, h⟩).rgb
  else if i.val < 232 then
    let n := i.val - 16
    ⟨level (.ofNat 6 (n / 36)), level (.ofNat 6 (n / 6)), level (.ofNat 6 n)⟩
  else
    let gray : Channel := .ofNat 256 (8 + 10 * (i.val - 232))
    ⟨gray, gray, gray⟩

/-- The place of a gray: black and white are in the cube, the rest on the ramp. -/
def grayIndex (c : Channel) : Nat :=
  if c.val < 8 then 16 else if 248 < c.val then 231 else 232 + (c.val - 8) * 24 / 247

/-- The level of a channel in the cube. -/
def cubeLevel (c : Channel) : Nat := c.val * 5 / 255

/-- The place of a color in the cube. -/
def cubeIndex (c : Rgb) : Nat := 16 + 36 * cubeLevel c.red + 6 * cubeLevel c.green + cubeLevel c.blue

/-- The number of the place that stands for a color: on the ramp for grays, in the cube for all else. -/
def indexNumber (c : Rgb) : Nat := if c.red = c.green ∧ c.green = c.blue then grayIndex c.red else cubeIndex c

theorem cubeLevel_le (c : Channel) : cubeLevel c ≤ 5 := by
  have := c.isLt
  simp only [cubeLevel]
  omega

theorem indexNumber_bounds (c : Rgb) : 16 ≤ indexNumber c ∧ indexNumber c ≤ 255 := by
  have hr := cubeLevel_le c.red
  have hg := cubeLevel_le c.green
  have hb := cubeLevel_le c.blue
  have := c.red.isLt
  simp only [indexNumber, grayIndex, cubeIndex]
  split
  · split
    · omega
    · split <;> omega
  · omega

/-- The place that stands for a color. -/
def index (c : Rgb) : Index := ⟨indexNumber c, by have := indexNumber_bounds c; omega⟩

/-! ## Perceived distance -/

/-- A color in the CIE L*a*b* space, in which distance is perceived difference. -/
structure Lab where
  lightness : Float
  greenRed : Float
  blueYellow : Float

namespace Lab

/-- The linear light of an sRGB channel. -/
def linear (c : Channel) : Float :=
  let c := c.val.toFloat / 255.0
  if c ≤ 0.04045 then c / 12.92 else ((c + 0.055) / 1.055).pow 2.4

/-- The response of the eye to a relative luminance. -/
def response (t : Float) : Float := if t > 0.008856 then t.cbrt else 7.787 * t + 16.0 / 116.0

/-- The L*a*b* coordinates of a color under daylight. -/
def ofRgb (c : Rgb) : Lab :=
  let r := linear c.red
  let g := linear c.green
  let b := linear c.blue
  let x := response ((0.4124564 * r + 0.3575761 * g + 0.1804375 * b) / 0.95047)
  let y := response ((0.2126729 * r + 0.7151522 * g + 0.0721750 * b) / 1.00000)
  let z := response ((0.0193339 * r + 0.1191920 * g + 0.9503041 * b) / 1.08883)
  ⟨116.0 * y - 16.0, 500.0 * (x - y), 200.0 * (y - z)⟩

/-- The square of the distance. -/
def distanceSq (p q : Lab) : Float :=
  let l := p.lightness - q.lightness
  let a := p.greenRed - q.greenRed
  let b := p.blueYellow - q.blueYellow
  l * l + a * a + b * b

end Lab

/-- The element with the smallest distance; of equal ones the first. -/
def nearest {α : Type} (distance : α → Float) : α → List α → α
  | best, [] => best
  | best, x :: xs => if distance x < distance best then nearest distance x xs else nearest distance best xs

/-- The system color that looks nearest. -/
def slot (c : Rgb) : Slot :=
  let target := Lab.ofRgb c
  nearest (fun s => target.distanceSq (Lab.ofRgb (NamedColor.ofSlot s).rgb)) 0 (List.finRange 16)

end Palette
end TerminalMarkup
