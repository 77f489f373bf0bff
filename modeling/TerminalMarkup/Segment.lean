import TerminalMarkup.Registry.Basic

/-!
# Segments

Expansion replaces every semantic reference in a markup text by the style codes that the registry has for it, and leaves
a sequence of literal texts and style codes. A stored value may itself hold references; they are followed to a depth of
`maxDepth`. Unknown names and deeper references vanish. Literal text is never read a second time.

* `Registry.codes` are the style codes of a name,
* `segments` expands a text, and `expand` writes the result with direct tags only.
-/

namespace TerminalMarkup

/-- The number of levels to which references in stored values are followed. -/
def maxDepth : Nat := 5

/-- The style codes of a name, following references through at most `depth` stored values. -/
def Registry.codes (r : Registry) : Nat → Text → List Text
  | 0, _ => []
  | depth + 1, name =>
    match r.lookup name with
    | none => []
    | some value =>
      (tagsOf .canonical value).flatMap fun
        | .direct code => [code]
        | .semantic name => r.codes depth name
        | .text _ => []

/-- A part of an expanded text. -/
inductive Segment
  | text (s : Text)
  | direct (code : Text)
  deriving DecidableEq, Repr

/-- The literal text of a segment. -/
def Segment.literal : Segment → Text
  | text s => s
  | direct _ => []

/-- The segments that a token expands to. -/
def Token.segments (r : Registry) : Token → List Segment
  | text s => [.text s]
  | direct code => [.direct code]
  | semantic name => (r.codes maxDepth name).map .direct

/-- Expands a markup text. -/
def segments (d : Delimiters) (r : Registry) (s : Text) : List Segment := (tokenize d s).flatMap (Token.segments r)

/-- Writes a segment as markup. -/
def Segment.source (d : Delimiters) : Segment → Text
  | text s => s
  | direct code => d.wrapDirect code

/-- The text with every reference replaced by direct tags. -/
def expand (d : Delimiters) (r : Registry) (s : Text) : Text := (segments d r s).flatMap (Segment.source d)

/-- The value of a name written as tags in the given delimiters. -/
def lookupTagged (d : Delimiters) (r : Registry) (name : Text) : Option Text :=
  (r.lookup name).map fun value => writeTokens d (tagsOf .canonical value)

end TerminalMarkup
