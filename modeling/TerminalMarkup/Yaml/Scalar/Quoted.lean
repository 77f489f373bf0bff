import TerminalMarkup.Yaml.Spacing

/-!
# Quoted scalars

A quoted scalar runs to its closing quote. Between single quotes a quote is written twice; between double quotes a
backslash begins an escape, and a line break after a backslash stands for nothing. `quoted?` reads what follows the
opening quote.
-/

namespace TerminalMarkup

namespace Yaml

/-! ## Escapes -/

/-- The value of hexadecimal digits. -/
def hexValue? (digits : Text) : Option Nat :=
  digits.foldl (fun n c => n.bind fun n =>
    if c.isDigit then some (16 * n + (c.toNat - 48))
    else if 'a' ≤ c ∧ c ≤ 'f' then some (16 * n + (c.toNat - 87))
    else if 'A' ≤ c ∧ c ≤ 'F' then some (16 * n + (c.toNat - 55))
    else none) (some 0)

/-- The character with a given number. -/
def charOfNat? (n : Nat) : Option Char := if h : n.isValidChar then some (Char.ofNatAux n h) else none

/-- The character that `count` hexadecimal digits give, and the rest. -/
def hexChar? (count : Nat) (s : Text) : Option (Char × Text) :=
  if s.length < count then none
  else ((hexValue? (s.take count)).bind charOfNat?).map fun c => (c, s.drop count)

/-- The character of an escape that consists of one character. -/
def namedEscape? (c : Char) : Option Char :=
  match c with
  | '0' => some '\x00'
  | 'a' => some '\x07'
  | 'b' => some '\x08'
  | 't' | '\t' => some '\t'
  | 'n' => some '\n'
  | 'v' => some '\x0b'
  | 'f' => some '\x0c'
  | 'r' => some '\r'
  | 'e' => some '\x1b'
  | ' ' => some ' '
  | '"' => some '"'
  | '/' => some '/'
  | '\\' => some '\\'
  | 'N' => some '\u0085'
  | '_' => some '\u00a0'
  | 'L' => some '\u2028'
  | 'P' => some '\u2029'
  | _ => none

/-- The character of an escape, given what follows the backslash, and the rest. -/
def escape? : Text → Option (Char × Text)
  | 'x' :: s => hexChar? 2 s
  | 'u' :: s => hexChar? 4 s
  | 'U' :: s => hexChar? 8 s
  | c :: s => (namedEscape? c).map fun e => (e, s)
  | [] => none

theorem length_of_hexChar? {n : Nat} {s r : Text} {c : Char} (h : hexChar? n s = some (c, r)) :
    r.length ≤ s.length := by
  unfold hexChar? at h
  split at h
  · cases h
  · obtain ⟨_, _, he⟩ := Option.map_eq_some_iff.1 h
    cases he
    simp

theorem length_of_escape? {s r : Text} {c : Char} (h : escape? s = some (c, r)) : r.length < s.length := by
  unfold escape? at h
  split at h
  · have := length_of_hexChar? h
    simp; omega
  · have := length_of_hexChar? h
    simp; omega
  · have := length_of_hexChar? h
    simp; omega
  · obtain ⟨_, _, he⟩ := Option.map_eq_some_iff.1 h
    cases he
    simp
  · cases h

/-! ## The scalar -/

/-- The quote around a scalar. -/
inductive Quote
  | single
  | double
  deriving DecidableEq, Repr

/-- A part of a quoted scalar. -/
inductive QuotedPart
  /-- A character of the value. -/
  | char (c : Char)
  /-- An escaped line break. -/
  | join
  /-- The closing quote. -/
  | close
  deriving DecidableEq, Repr

/-- The part at the start of a text that does not start with spacing, and the rest. -/
def quotedPart? : Quote → Text → Option (QuotedPart × Text)
  | _, [] => none
  | .single, '\'' :: '\'' :: s => some (.char '\'', s)
  | .single, '\'' :: s => some (.close, s)
  | .single, c :: s => some (.char c, s)
  | .double, '"' :: s => some (.close, s)
  | .double, '\\' :: s =>
    if startsWhere isBreak s then some (.join, (takeBreak s).2) else (escape? s).map fun (c, r) => (.char c, r)
  | .double, c :: s => some (.char c, s)

theorem length_of_quotedPart? {q : Quote} {s r : Text} {p : QuotedPart} (h : quotedPart? q s = some (p, r)) :
    r.length < s.length := by
  unfold quotedPart? at h
  split at h
  · cases h
  · cases h; simp only [List.length_cons]; omega
  · cases h; simp
  · cases h; simp
  · cases h; simp
  · split at h
    · cases h
      rename_i s _
      have := length_takeBreak_le s
      simp; omega
    · obtain ⟨⟨_, _⟩, he, hr⟩ := Option.map_eq_some_iff.1 h
      cases hr
      have := length_of_escape? he
      simp; omega
  · cases h; simp

/-- Reads a quoted scalar after its opening quote: its value, and what follows the closing quote. No line of it may look
like the beginning or the end of a document. -/
def quotedFrom? (q : Quote) (lineStart : Bool) (s : Text) : Option (Text × Text) :=
  if lineStart && atDocumentMarker s then none
  else if _hs : s.takeWhile isSpacing ≠ [] then
    (quotedFrom? q (endsLine (s.takeWhile isSpacing)) (s.dropWhile isSpacing)).map fun (t, r) =>
      (foldSpacing (s.takeWhile isSpacing) ++ t, r)
  else
    match _h : quotedPart? q s with
    | none => none
    | some (.close, rest) => some ([], rest)
    | some (.char c, rest) => (quotedFrom? q false rest).map fun (t, r) => (c :: t, r)
    | some (.join, rest) =>
      let run := rest.takeWhile isSpacing
      (quotedFrom? q (run.isEmpty || endsLine run) (rest.dropWhile isSpacing)).map fun (t, r) =>
        (lineBreaks run ++ t, r)
termination_by s.length
decreasing_by
  · exact length_dropWhile_lt _hs
  · exact length_of_quotedPart? _h
  · exact Nat.lt_of_le_of_lt (length_dropWhile_le _ _) (length_of_quotedPart? _h)

/-- Reads a quoted scalar after its opening quote. -/
def quoted? (q : Quote) (s : Text) : Option (Text × Text) := quotedFrom? q false s

end Yaml
end TerminalMarkup
