import TerminalMarkup.Color.Rgb

/-!
# Color names

A color name has an RGB value, and a slot of the palette when it is one of the 16 system colors. Some names are aliases:
the names that terminals use for the system colors mean other slots than the same words do for RGB colors, so `red` is
slot 1 on a terminal with a palette and `#ff0000` elsewhere.
-/

namespace TerminalMarkup

/-- A place among the 16 system colors. -/
abbrev Slot := Fin 16

/-- A color with a name. -/
structure NamedColor where
  name : Text
  rgb : Rgb
  slot : Option Slot
  deriving DecidableEq, Repr

namespace NamedColor

/-- The 16 system colors in order of their slots. -/
def systemColors : List (String × Rgb) :=
  [("black", ⟨0x00, 0x00, 0x00⟩), ("maroon", ⟨0x80, 0x00, 0x00⟩), ("green", ⟨0x00, 0x80, 0x00⟩),
    ("olive", ⟨0x80, 0x80, 0x00⟩), ("navy", ⟨0x00, 0x00, 0x80⟩), ("purple", ⟨0x80, 0x00, 0x80⟩),
    ("teal", ⟨0x00, 0x80, 0x80⟩), ("silver", ⟨0xC0, 0xC0, 0xC0⟩), ("gray", ⟨0x80, 0x80, 0x80⟩),
    ("red", ⟨0xFF, 0x00, 0x00⟩), ("lime", ⟨0x00, 0xFF, 0x00⟩), ("yellow", ⟨0xFF, 0xFF, 0x00⟩),
    ("blue", ⟨0x00, 0x00, 0xFF⟩), ("fuchsia", ⟨0xFF, 0x00, 0xFF⟩), ("aqua", ⟨0x00, 0xFF, 0xFF⟩),
    ("white", ⟨0xFF, 0xFF, 0xFF⟩)]

/-- Further colors, which have no slot. -/
def extendedColors : List (String × Rgb) :=
  [("orange", ⟨0xFF, 0xA5, 0x00⟩), ("pink", ⟨0xFF, 0xC0, 0xCB⟩), ("brown", ⟨0xA5, 0x2A, 0x2A⟩),
    ("gold", ⟨0xFF, 0xD7, 0x00⟩), ("indigo", ⟨0x4B, 0x00, 0x82⟩), ("violet", ⟨0xEE, 0x82, 0xEE⟩),
    ("coral", ⟨0xFF, 0x7F, 0x50⟩), ("salmon", ⟨0xFA, 0x80, 0x72⟩), ("crimson", ⟨0xDC, 0x14, 0x3C⟩),
    ("tomato", ⟨0xFF, 0x63, 0x47⟩), ("khaki", ⟨0xF0, 0xE6, 0x8C⟩), ("lavender", ⟨0xE6, 0xE6, 0xFA⟩),
    ("turquoise", ⟨0x40, 0xE0, 0xD0⟩), ("skyblue", ⟨0x87, 0xCE, 0xEB⟩), ("steelblue", ⟨0x46, 0x82, 0xB4⟩),
    ("slategray", ⟨0x70, 0x80, 0x90⟩), ("chocolate", ⟨0xD2, 0x69, 0x1E⟩), ("tan", ⟨0xD2, 0xB4, 0x8C⟩),
    ("orchid", ⟨0xDA, 0x70, 0xD6⟩), ("plum", ⟨0xDD, 0xA0, 0xDD⟩), ("darkred", ⟨0x8B, 0x00, 0x00⟩),
    ("darkgreen", ⟨0x00, 0x64, 0x00⟩), ("darkblue", ⟨0x00, 0x00, 0x8B⟩), ("darkgray", ⟨0xA9, 0xA9, 0xA9⟩),
    ("lightgray", ⟨0xD3, 0xD3, 0xD3⟩)]

/-- The color of a slot, as most terminals show it. -/
def ofSlot (slot : Slot) : NamedColor :=
  let (name, rgb) := systemColors.get ⟨slot, slot.isLt⟩
  ⟨name.toList, rgb, some slot⟩

/-- Every color under its own name. -/
def all : List NamedColor :=
  (List.finRange 16).map ofSlot ++ extendedColors.map fun (name, rgb) => ⟨name.toList, rgb, none⟩

/-- The names terminals use: alias, the color meant, and its slot. -/
def aliases : List (String × String × Slot) :=
  [("black", "black", 0), ("red", "red", 1), ("green", "green", 2), ("yellow", "yellow", 3), ("blue", "blue", 4),
    ("magenta", "fuchsia", 5), ("cyan", "aqua", 6), ("white", "white", 7), ("bright-black", "gray", 8),
    ("bright-red", "red", 9), ("bright-green", "lime", 10), ("bright-yellow", "yellow", 11),
    ("bright-blue", "blue", 12), ("bright-magenta", "fuchsia", 13), ("bright-cyan", "aqua", 14),
    ("bright-white", "white", 15), ("grey", "gray", 8)]

/-- The form in which names are compared: trimmed, in lower case, with dashes between words. -/
def normalize (s : Text) : Text := s.trim.map fun c => if c = '_' ∨ c = ' ' then '-' else c.toLower

/-- The alias entry of a normalized name. -/
def alias? (s : Text) : Option (Text × Slot) :=
  (aliases.find? fun e => e.1.toList = s).map fun e => (e.2.1.toList, e.2.2)

/-- The color with a given name. An alias keeps the color's own name and has its own slot. -/
def ofName? (s : Text) : Option NamedColor :=
  let s := normalize s
  match alias? s with
  | some (canonical, slot) => (all.find? (·.name = canonical)).map fun c => { c with slot := some slot }
  | none => all.find? (·.name = s)

/-- The name of the bright form of a color; a name without one stays itself. -/
def brightName (s : Text) : Text :=
  let s := normalize s
  if Text.startsWith "bright-".toList s then s
  else if (alias? ("bright-".toList ++ s)).isSome then "bright-".toList ++ s
  else s

end NamedColor

/-- The hexadecimal form of a color name; a text that starts with a number sign is taken as it is. -/
def colorHex? (s : Text) : Option Text :=
  if Text.startsWith ['#'] s.trim then some s.trim else (NamedColor.ofName? s.trim).map fun c => c.rgb.toHex

end TerminalMarkup
