import TerminalMarkup.Text.Basic

/-!
# The characters of YAML

A document is made of printable characters, blanks and line breaks. Several readers stop where *spacing* follows: a
blank, a line break or the end of the document.
-/

namespace TerminalMarkup

namespace Yaml

/-- A character that a document may hold. -/
def isAllowed (c : Char) : Bool :=
  let n := c.toNat
  n == 0x09 || n == 0x0A || n == 0x0D || (0x20 ≤ n && n ≤ 0x7E) || n == 0x85 || (0xA0 ≤ n && n ≤ 0xD7FF)
    || (0xE000 ≤ n && n ≤ 0xFFFD) || 0x10000 ≤ n

/-- A character that ends a line, on its own or as a part of a pair. -/
def isBreak (c : Char) : Bool :=
  c == '\n' || c == '\r' || c.toNat == 0x85 || c.toNat == 0x2028 || c.toNat == 0x2029

/-- A space or a tab. -/
def isBlank (c : Char) : Bool := c == ' ' || c == '\t'

/-- A blank or a line break. -/
def isSpacing (c : Char) : Bool := isBlank c || isBreak c

/-- A character of the names of anchors, tag handles and directives. -/
def isWordChar (c : Char) : Bool := c.isAlphanum || c == '_' || c == '-'

/-- A character that ends a scalar in a flow collection. -/
def isFlowIndicator (c : Char) : Bool := c == ',' || c == '[' || c == ']' || c == '\x7b' || c == '\x7d'

/-- The text starts with spacing, or there is none left. -/
def atSpacing : Text → Bool
  | [] => true
  | c :: _ => isSpacing c

/-- The text starts with a character that satisfies `f`. -/
def startsWhere (f : Char → Bool) : Text → Bool
  | [] => false
  | c :: _ => f c

/-- A line that starts with this text begins or ends a document. -/
def atDocumentMarker : Text → Bool
  | '-' :: '-' :: '-' :: s => atSpacing s
  | '.' :: '.' :: '.' :: s => atSpacing s
  | _ => false

/-! ## Positions -/

/-- A place in a document. -/
structure Position where
  /-- The number of characters before the place. -/
  offset : Nat
  line : Nat
  column : Nat
  deriving DecidableEq, Repr

namespace Position

/-- The start of a document. -/
def start : Position := ⟨0, 0, 0⟩

/-- The place one character further on the same line. -/
def next (p : Position) : Position := ⟨p.offset + 1, p.line, p.column + 1⟩

/-- The place after a text. -/
def after (p : Position) : Text → Position
  | [] => p
  | '\r' :: '\n' :: s => after ⟨p.offset + 2, p.line + 1, 0⟩ s
  | c :: s => if isBreak c then after ⟨p.offset + 1, p.line + 1, 0⟩ s else after p.next s

end Position
end Yaml
end TerminalMarkup
