import TerminalMarkup.Yaml.Spacing

/-!
# Plain scalars

A plain scalar has no quotes. It is made of words with spacing between them, and ends before a comment, before a colon
that is followed by spacing, before a line that is indented too little or that begins or ends a document, and in a flow
collection before the indicators of the collection.
-/

namespace TerminalMarkup

namespace Yaml

/-- The word at the start of a text, and the rest. In a flow collection a word must not hold a colon with an indicator
behind it. -/
def plainWord? (flow : Bool) : Text → Option (Text × Text)
  | [] => some ([], [])
  | c :: s =>
    if isSpacing c then some ([], c :: s)
    else if flow && c == ':' && startsWhere (fun d => isFlowIndicator d || d == '?') s then none
    else if (c == ':' && atSpacing s) || (flow && isFlowIndicator c) then some ([], c :: s)
    else (plainWord? flow s).map fun (w, r) => (c :: w, r)

theorem length_of_plainWord? {flow : Bool} : ∀ {s w r : Text}, plainWord? flow s = some (w, r) → r.length ≤ s.length
  | [], w, r, h => by cases h; simp
  | c :: s, w, r, h => by
    simp only [plainWord?] at h
    split at h
    · cases h; simp
    · split at h
      · cases h
      · split at h
        · cases h; simp
        · obtain ⟨⟨_, _⟩, hp, he⟩ := Option.map_eq_some_iff.1 h
          cases he
          have := length_of_plainWord? hp
          simp; omega

/-- A run of spacing has a tab in place of a space of the indentation; `column` is the column, once a line has begun. -/
def hasTabIn (indent : Nat) (column : Option Nat) : Text → Bool
  | [] => false
  | c :: s =>
    if isBreak c then hasTabIn indent (some 0) s
    else (c == '\t' && column.any (· < indent)) || hasTabIn indent (column.map (· + 1)) s

/-- The scalar does not go on behind a run of spacing. -/
def endsPlain (flow : Bool) (indent : Nat) (run next : Text) : Bool :=
  (!flow && (columnAfter? run).any (· < indent)) || (endsLine run && atDocumentMarker next)
    || startsWhere (· == '#') next

/-- A plain scalar with what was read behind it. -/
structure PlainScalar where
  value : Text
  /-- The spacing behind the scalar holds a line break. -/
  atLineEnd : Bool
  rest : Text
  deriving DecidableEq, Repr

/-- Reads a plain scalar; its lines after the first have at least the given indentation. The value is empty if the text
does not start with a word. -/
def plain? (flow : Bool) (indent : Nat) (s : Text) : Option PlainScalar :=
  match _h : plainWord? flow s with
  | none => none
  | some (w, rest) =>
    let run := rest.takeWhile isSpacing
    let next := rest.dropWhile isSpacing
    if hasTabIn indent none run then none
    else if _hr : rest.takeWhile isSpacing = [] then some ⟨w, false, next⟩
    else if endsPlain flow indent run next then some ⟨w, run.any isBreak, next⟩
    else
      (plain? flow indent (rest.dropWhile isSpacing)).map fun p =>
        if p.value = [] then ⟨w, run.any isBreak, p.rest⟩ else { p with value := w ++ foldSpacing run ++ p.value }
termination_by s.length
decreasing_by exact Nat.lt_of_lt_of_le (length_dropWhile_lt _hr) (length_of_plainWord? _h)

end Yaml
end TerminalMarkup
