import TerminalMarkup.Text.Blank

/-!
# Delimiters

A tag stands between an opening and a closing delimiter. There are two families of tags: semantic references, which hold
a name, and direct tags, which hold a style code. An empty delimiter switches its family off.
-/

namespace TerminalMarkup

/-- The delimiters of the two families of tags. -/
structure Delimiters where
  semanticOpen : Text
  semanticClose : Text
  directOpen : Text
  directClose : Text
  deriving DecidableEq, Repr

namespace Delimiters

/-- The delimiters that stored values are written with, and the default for markup. -/
def canonical : Delimiters := ⟨['{', '{', '_'], ['_', '}', '}'], ['{', '{', '|'], ['|', '}', '}']⟩

instance : Inhabited Delimiters := ⟨canonical⟩

/-- Writes a semantic reference. -/
def wrapSemantic (d : Delimiters) (name : Text) : Text := d.semanticOpen ++ name ++ d.semanticClose

/-- Writes a direct tag. -/
def wrapDirect (d : Delimiters) (code : Text) : Text := d.directOpen ++ code ++ d.directClose

/-- The trimmed text without the direct delimiters around it, if it has both. -/
def unwrapDirect (d : Delimiters) (s : Text) : Text :=
  if d.directOpen = [] ∨ d.directClose = [] then s.trim
  else ((Text.after? d.directOpen s.trim).bind (Text.before? d.directClose)).getD s.trim

/-- The opening delimiters that are switched on. -/
def openings (d : Delimiters) : List Text := [d.semanticOpen, d.directOpen].filter (· ≠ [])

/-- Some opening delimiter lies in the text. -/
def hasOpening (d : Delimiters) (s : Text) : Bool := d.openings.any (·.contains s)

/-- The number of characters before the earliest opening delimiter. -/
def openingOffset? (d : Delimiters) (s : Text) : Option Nat := (d.openings.filterMap (Text.indexOf? · s)).min?

/-- At one position the direct family is tried first when its opening is the longer one, in bytes of UTF-8. -/
def directFirst (d : Delimiters) : Bool := d.semanticOpen.utf8Length < d.directOpen.utf8Length

end Delimiters
end TerminalMarkup
