import TerminalMarkup.Segment
import TerminalMarkup.Style.Basic

/-!
# Widget markup

Widget toolkits mark styles with bracket groups: `[red:blue:b]`. A text is converted by writing its style codes as such
groups, and by escaping the groups that stand in its literal text: `[abc]` becomes `[abc[]`.

In a group the letter of an attribute is in lower case when it is on and in upper case when it is off.
-/

namespace TerminalMarkup

namespace Widget

/-! ## Escaping -/

/-- A character of a bracket group. -/
def isGroupChar (c : Char) : Bool :=
  c.isAlphanum || c == '_' || c == ',' || c == ';' || c == ':' || c == ' ' || c == '-' || c == '.' || c == '"'
    || c == '#'

/-- The content of a bracket group, and what follows the group, in the text after an opening bracket. -/
def groupBody? (s : Text) : Option (Text × Text) :=
  match s.dropWhile isGroupChar with
  | ']' :: rest => if s.takeWhile isGroupChar = [] then none else some (s.takeWhile isGroupChar, rest)
  | _ => none

theorem append_of_groupBody? {s body rest : Text} (h : groupBody? s = some (body, rest)) : body ++ ']' :: rest = s := by
  unfold groupBody? at h
  split at h
  next hd =>
    split at h
    · cases h
    · cases h
      rw [← hd]
      exact List.takeWhile_append_dropWhile
  · cases h

/-- Escapes the bracket groups of a literal text. -/
def escapeBrackets : Text → Text
  | [] => []
  | c :: s =>
    if c = '[' then
      match _h : groupBody? s with
      | some (body, rest) => '[' :: (body ++ '[' :: ']' :: escapeBrackets rest)
      | none => '[' :: escapeBrackets s
    else c :: escapeBrackets s
termination_by s => s.length
decreasing_by
  · have := congrArg List.length (append_of_groupBody? _h)
    simp only [List.length_append, List.length_cons] at *
    omega
  all_goals simp

/-! ## Styles -/

/-- What a group says of a layer. -/
def paintText : Option Paint → Text
  | none => []
  | some .default => ['-']
  | some (.color (.named c)) => ((c.slot.map NamedColor.ofSlot).getD c).name
  | some (.color c) => c.rgb.toHex

/-- What a group says of the attributes. Widgets have no high intensity. -/
def attributeLetters (f : Flags) : Text :=
  (Attribute.all.filter (· ≠ .highIntensity)).filterMap fun a =>
    (f.get a).map fun on => if on then a.letter.toLower else a.letter

/-- The group of a style, unless it says nothing. -/
def group? : Style → Option Text
  | .reset => some "[-:-:-]".toList
  | .overlay fg bg flags =>
    let fields := (paintText fg ++ ':' :: paintText bg ++ ':' :: attributeLetters flags).dropEndWhile (· == ':')
    if fields = [] then none else some ('[' :: fields ++ [']'])

/-- A segment in widget markup. -/
def ofSegment : Segment → Text
  | .text s => escapeBrackets s
  | .direct code => (group? (Style.parse code)).getD []

end Widget

/-- A markup text in widget markup. -/
def widgetMarkup (d : Delimiters) (r : Registry) (s : Text) : Text := (segments d r s).flatMap Widget.ofSegment

end TerminalMarkup
