import TerminalMarkup.Text.Octets
import TerminalMarkup.Yaml.Scalar.Quoted

/-!
# Tags and directives

A tag names the kind of a node. It is written in full between angle brackets, or as a handle and a suffix; a handle
stands for a start that a directive of the document gives it. In a suffix, octets may be written as a percent sign and
two hexadecimal digits, so that a tag is a sequence of octets, which need not be text.
-/

namespace TerminalMarkup

namespace Yaml

/-- A tag as a sequence of octets. -/
abbrev Tag := List UInt8

/-- A tag as it is written: the handle is empty for a tag in full. -/
structure TagSpelling where
  handle : Text
  suffix : Tag
  deriving DecidableEq, Repr

/-- A directive. -/
inductive Directive
  /-- The version of the language that the document is written in. -/
  | version (major minor : Nat)
  /-- The start of the tags that are written with a handle. -/
  | tagStart (handle : Text) (start : Tag)
  deriving DecidableEq, Repr

/-! ## Octets -/

/-- A character of a suffix; `full` admits the characters that only tags in full may hold. -/
def isTagChar (full : Bool) (c : Char) : Bool :=
  isWordChar c || ";/?:@&=+$.%!~*'()".toList.contains c || (full && (c == ',' || c == '[' || c == ']'))

/-- The octet written at the start of a text as a percent sign and two digits, and the rest. -/
def escapedOctet? : Text → Option (Nat × Text)
  | '%' :: a :: b :: s => (hexValue? [a, b]).map fun n => (n, s)
  | _ => none

/-- The number of octets of a character, told by the first of them. -/
def octetCount? (first : Nat) : Option Nat :=
  if first < 0x80 then some 1
  else if first < 0xC0 then none
  else if first < 0xE0 then some 2
  else if first < 0xF0 then some 3
  else if first < 0xF8 then some 4
  else none

/-- Reads `count` further octets of a character, each of them escaped. -/
def escapedOctets? : Nat → Text → Option (Tag × Text)
  | 0, s => some ([], s)
  | count + 1, s =>
    match escapedOctet? s with
    | none => none
    | some (n, s) =>
      if 0x80 ≤ n ∧ n < 0xC0 then (escapedOctets? count s).map fun (ns, s) => (.ofNat n :: ns, s) else none

/-- The octets of one escaped character. -/
def escapedChar? (s : Text) : Option (Tag × Text) := do
  let (n, s) ← escapedOctet? s
  let count ← octetCount? n
  let (ns, s) ← escapedOctets? (count - 1) s
  some (.ofNat n :: ns, s)

theorem length_of_escapedOctet? {s r : Text} {n : Nat} (h : escapedOctet? s = some (n, r)) : r.length < s.length := by
  unfold escapedOctet? at h
  split at h
  · obtain ⟨_, _, he⟩ := Option.map_eq_some_iff.1 h
    cases he
    simp; omega
  · cases h

theorem length_of_escapedOctets? {count : Nat} {s r : Text} {ns : Tag} (h : escapedOctets? count s = some (ns, r)) :
    r.length ≤ s.length := by
  fun_induction escapedOctets? count s generalizing ns with
  | case1 => cases h; simp
  | case2 => cases h
  | case3 count s n t ho _ ih =>
    obtain ⟨⟨_, _⟩, hr, he⟩ := Option.map_eq_some_iff.1 h
    cases he
    have := ih hr
    have := length_of_escapedOctet? ho
    omega
  | case4 => cases h

theorem length_of_escapedChar? {s r : Text} {ns : Tag} (h : escapedChar? s = some (ns, r)) : r.length < s.length := by
  simp only [escapedChar?, Option.bind_eq_bind, Option.bind_eq_some_iff, Option.some.injEq, Prod.mk.injEq] at h
  obtain ⟨⟨_, _⟩, ho, _, _, ⟨_, _⟩, hs, _, rfl⟩ := h
  have := length_of_escapedOctet? ho
  have := length_of_escapedOctets? hs
  dsimp only at *
  omega

/-- Reads the octets of a suffix. -/
def suffix? (full : Bool) (s : Text) : Option (Tag × Text) :=
  match s with
  | [] => some ([], [])
  | c :: t =>
    if c = '%' then
      match _h : escapedChar? (c :: t) with
      | none => none
      | some (ns, rest) => (suffix? full rest).map fun (more, r) => (ns ++ more, r)
    else if isTagChar full c then (suffix? full t).map fun (more, r) => (Text.octets [c] ++ more, r)
    else some ([], c :: t)
termination_by s.length
decreasing_by
  · exact length_of_escapedChar? _h
  · simp

/-! ## Tags -/

/-- The handle at the start of a text that starts with an exclamation mark: word characters, and a second mark if there
is one. -/
def handle (s : Text) : Text × Text :=
  let word := (s.drop 1).takeWhile isWordChar
  match (s.drop 1).dropWhile isWordChar with
  | '!' :: rest => ('!' :: word ++ ['!'], rest)
  | rest => ('!' :: word, rest)

/-- A text is a handle with two exclamation marks. -/
def isNamedHandle (h : Text) : Bool := 1 < h.length && h.getLast? == some '!'

/-- Reads a tag in full, after its opening bracket. -/
def fullTag? (s : Text) : Option (TagSpelling × Text) :=
  match suffix? true s with
  | some (suffix, '>' :: rest) => if suffix = [] then none else some (⟨[], suffix⟩, rest)
  | _ => none

/-- Reads a tag with a handle. Word characters behind a single mark are the beginning of the suffix; the mark alone is a
tag of its own. -/
def handledTag? (s : Text) : Option (TagSpelling × Text) := do
  let (h, rest) := handle s
  let (suffix, rest) ← suffix? false rest
  if isNamedHandle h then if suffix = [] then none else some (⟨h, suffix⟩, rest)
  else if h = ['!'] ∧ suffix = [] then some (⟨[], Text.octets ['!']⟩, rest)
  else some (⟨['!'], Text.octets (h.drop 1) ++ suffix⟩, rest)

/-- Reads a tag, which is followed by spacing, or in a flow collection by a comma. -/
def tag? (flow : Bool) (s : Text) : Option (TagSpelling × Text) := do
  let (t, rest) ← match s with
    | '!' :: '<' :: s => fullTag? s
    | s => handledTag? s
  if atSpacing rest || (flow && startsWhere (· == ',') rest) then some (t, rest) else none

/-! ## Anchors -/

/-- Reads the name of an anchor or an alias, after its indicator. -/
def anchorName? (s : Text) : Option (Text × Text) :=
  let name := s.takeWhile isWordChar
  let rest := s.dropWhile isWordChar
  if name ≠ [] ∧ (atSpacing rest || startsWhere (fun c => "?:,]\x7d%@`".toList.contains c) rest) then some (name, rest)
  else none

/-! ## Directives -/

/-- Reads a number of at most nine digits. -/
def versionNumber? (s : Text) : Option (Nat × Text) :=
  let digits := s.takeWhile Char.isDigit
  if digits = [] ∨ 9 < digits.length then none
  else some (digits.foldl (fun n c => 10 * n + (c.toNat - 48)) 0, s.dropWhile Char.isDigit)

/-- Reads the two numbers of a version. -/
def version? (s : Text) : Option (Directive × Text) := do
  let (major, s) ← versionNumber? (s.dropWhile isBlank)
  let s ← Text.after? ['.'] s
  let (minor, s) ← versionNumber? s
  some (.version major minor, s)

/-- Reads a handle and the start of the tags written with it. -/
def tagStart? (s : Text) : Option (Directive × Text) := do
  let s := s.dropWhile isBlank
  if !startsWhere (· == '!') s then none
  let (h, s) := handle s
  if !(h = ['!'] || isNamedHandle h) || !startsWhere isBlank s then none
  let (start, s) ← suffix? true (s.dropWhile isBlank)
  if start = [] || !atSpacing s then none
  some (.tagStart h start, s)

/-- Reads a directive after its percent sign. -/
def directive? (s : Text) : Option (Directive × Text) :=
  let name := s.takeWhile isWordChar
  let s := s.dropWhile isWordChar
  if !atSpacing s then none
  else if name = "YAML".toList then version? s
  else if name = "TAG".toList then tagStart? s
  else none

end Yaml
end TerminalMarkup
