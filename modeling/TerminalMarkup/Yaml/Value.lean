import TerminalMarkup.Yaml.Document
import TerminalMarkup.Yaml.Number

/-!
# Values

The value of a node is what it means: a plain scalar may be null, a truth value or a number, and aliases are replaced by
what they stand for. A tag of the document's own is kept with the value.

* `Value.ofPlain?` and `Value.ofScalar?` read scalars,
* `Document.value` reads a node. To keep documents that refer to themselves in bounds, collections nest at most
  `maxNesting` deep, and a document follows a limited number of aliases.
-/

namespace TerminalMarkup

namespace Yaml

/-- The value of a node. -/
inductive Value
  | null
  | bool (b : Bool)
  | number (n : Number)
  | string (s : Text)
  | sequence (items : List Value)
  | mapping (entries : List (Value × Value))
  /-- A value with a tag, which begins with an exclamation mark. -/
  | tagged (tag : Text) (v : Value)

namespace Value

instance : Inhabited Value := ⟨null⟩

theorem sizeOf_lt_sequence {items : List Value} {v : Value} (h : v ∈ items) : sizeOf v < sizeOf (sequence items) := by
  have := List.sizeOf_lt_of_mem h
  simp only [sequence.sizeOf_spec]
  omega

theorem sizeOf_lt_mapping {entries : List (Value × Value)} {k v : Value} (h : (k, v) ∈ entries) :
    sizeOf k < sizeOf (mapping entries) ∧ sizeOf v < sizeOf (mapping entries) := by
  have := List.sizeOf_lt_of_mem h
  simp only [mapping.sizeOf_spec, Prod.mk.sizeOf_spec] at *
  omega

/-- Equal values; the order of the entries of a mapping does not matter. -/
def eqv : Value → Value → Bool
  | null, null => true
  | bool a, bool b => a = b
  | number a, number b => a.eqv b
  | string a, string b => a = b
  | sequence as, sequence bs =>
    as.length = bs.length && (as.attach.zip bs).all fun (⟨a, _⟩, b) => a.eqv b
  | mapping as, mapping bs =>
    as.length = bs.length && as.attach.all fun ⟨(k, v), _⟩ => bs.any fun (k', v') => k.eqv k' && v.eqv v'
  | tagged s a, tagged t b => s = t && a.eqv b
  | _, _ => false
termination_by a => sizeOf a
decreasing_by
  · exact sizeOf_lt_sequence ‹_›
  · exact (sizeOf_lt_mapping ‹_›).1
  · exact (sizeOf_lt_mapping ‹_›).2
  · simp only [tagged.sizeOf_spec]; omega

/-! ## Scalars -/

/-- A word for the null value. -/
def isNull (s : Text) : Bool := s.isOneOf ["null", "Null", "NULL", "~"]

/-- The truth value that a word stands for. -/
def bool? (s : Text) : Option Bool :=
  if s.isOneOf ["true", "True", "TRUE"] then some true
  else if s.isOneOf ["false", "False", "FALSE"] then some false
  else none

/-- The value of a plain scalar that is neither null, a truth value nor an integer. -/
def ofOther (s : Text) : Value := if hasLeadingZero s then string s else ((float? s).map number).getD (string s)

/-- The value of a plain scalar; none if it is an integer that is out of range. -/
def ofPlain? (s : Text) : Option Value :=
  if s = [] || isNull s then some null
  else
    match bool? s, integer? s with
    | some b, _ => some (bool b)
    | none, some n =>
      if isInRange n then some (number (.integer n)) else if isOutOfRange n then none else some (ofOther s)
    | none, none => some (ofOther s)

/-- The tag of the standard with the given name. -/
def standardTag (name : String) : Tag := Text.octets "tag:yaml.org,2002:".toList ++ Text.octets name.toList

/-- The value of a scalar. A tag of the standard says which kind of value the scalar must be. -/
def ofScalar? (tag : Option Tag) (isPlain : Bool) (s : Text) : Option Value :=
  match tag with
  | none => if isPlain then ofPlain? s else some (string s)
  | some tag =>
    if tag = standardTag "bool" then (bool? s).map bool
    else if tag = standardTag "int" then ((integer? s).filter isInRange).map fun n => number (.integer n)
    else if tag = standardTag "float" then (float? s).map number
    else if tag = standardTag "null" then if isNull s then some null else none
    else if isPlain && tag.head? == some '!'.toUInt8 then ofPlain? s
    else some (string s)

/-- The tag that a value keeps: one that begins with an exclamation mark. Of two marks in front one is dropped, and the
mark alone is written twice. -/
def keptTag? (tag : Option Tag) : Option Text :=
  match tag with
  | none => none
  | some tag =>
    if tag.head? ≠ some '!'.toUInt8 then none
    else
      (Text.ofOctets? (if tag.length = 1 then tag else tag.drop 1)).map fun name =>
        match name with
        | '!' :: c :: cs => '!' :: c :: cs
        | name => '!' :: name

end Value

/-! ## Nodes -/

/-- How deep collections nest at most. -/
def maxNesting : Nat := 128

/-- Reading a document; the state counts the aliases that have been followed. -/
abbrev Reading := StateT Nat Option

namespace Document

/-- The number of aliases that may be followed. -/
def maxAliases (d : Document) : Nat := 100 * d.markCount

/-- The node itself, or the one that it is an alias of. -/
def follow (d : Document) : Node → Reading Node
  | .reference anchor => do
    let count := (← get) + 1
    if d.maxAliases < count then failure
    set count
    d.target? anchor
  | n => pure n

/-- The node is an alias. -/
def isReference : Node → Bool
  | .reference _ => true
  | _ => false

/-- Reads the entries of a mapping; none of its keys stands there twice. -/
def uniqueEntries? (entries : List (Value × Value)) : Option (List (Value × Value)) :=
  if entries.Pairwise fun a b => !a.1.eqv b.1 then some entries else none

/-- Reads a node, where `inner?` reads the nodes in a collection, if there may be any. `tagUsed` says that a tag of the
node means nothing, since it stands in the key of a mapping whose own tag counts. -/
def valueWith (d : Document) (inner? : Option (Bool → Node → Reading Value)) (tagUsed : Bool) (n : Node) :
    Reading Value := do
  let tagUsed := tagUsed && !isReference n
  let n ← d.follow n
  let kept := if tagUsed then none else Value.keptTag? n.properties.tag
  let v ← match n with
    | .reference _ => failure
    | .scalar props isPlain s =>
      liftM (Value.ofScalar? (if tagUsed || kept.isSome then none else props.tag) isPlain s)
    | .sequence _ items => do
      let inner ← inner?
      .sequence <$> items.mapM (inner false)
    | .mapping _ entries => do
      let inner ← inner?
      let entries ← entries.mapM fun (k, v) => do
        let k ← inner (tagUsed || kept.isSome) k
        let v ← inner false v
        pure (k, v)
      .mapping <$> uniqueEntries? entries
  pure (kept.elim v fun tag => .tagged tag v)

/-- Reads a node in which collections nest at most as deep as given. -/
def value (d : Document) : Nat → Bool → Node → Reading Value
  | 0 => d.valueWith none
  | depth + 1 => d.valueWith (some (d.value depth))

/-- Reads a scalar as text, whatever it means. -/
def text (d : Document) (n : Node) : Reading Text := do
  match ← d.follow n with
  | .scalar _ _ s => pure s
  | _ => failure

/-- A node is not null. A tag of the standard for null admits nothing else. -/
def isPresent? : Node → Option Bool
  | .scalar props true s =>
    match props.tag with
    | some tag =>
      if tag = Value.standardTag "null" then if Value.isNull s then some false else none else some true
    | none => some (s ≠ [] && !Value.isNull s)
  | _ => some true

/-- Reads a node with `read` unless it is null. -/
def optional {α : Type} (d : Document) (read : Node → Reading α) (n : Node) : Reading (Option α) := do
  let n ← d.follow n
  if ← isPresent? n then some <$> read n else pure none

/-- Reads the fields of a record: a mapping with texts as keys, or nothing. -/
def fields (d : Document) (n : Node) : Reading (List (Text × Node)) := do
  match ← d.follow n with
  | .mapping _ entries => entries.mapM fun (k, v) => do pure (← d.text k, v)
  | .scalar _ true [] => pure []
  | _ => failure

end Document
end Yaml
end TerminalMarkup
