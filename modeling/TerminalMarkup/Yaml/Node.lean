import TerminalMarkup.Dictionary
import TerminalMarkup.Yaml.Lexeme

/-!
# Nodes

A document is a tree of nodes: scalars, sequences and mappings, which may have a tag and an anchor, and aliases, which
stand for an anchored node. `node?` reads a node from lexemes. Anchors are numbered; an alias has the number of its
anchor, so that a node may lie inside the node that its alias stands for.
-/

namespace TerminalMarkup

namespace Yaml

/-- What may be said of a node besides its content. -/
structure Properties where
  /-- The number of the anchor. -/
  anchor : Option Nat
  tag : Option Tag
  deriving DecidableEq, Repr

/-- A node of a document. -/
inductive Node
  | reference (anchor : Nat)
  | scalar (props : Properties) (isPlain : Bool) (value : Text)
  | sequence (props : Properties) (items : List Node)
  | mapping (props : Properties) (entries : List (Node × Node))

namespace Node

/-- The node that stands where there is none. -/
def empty : Node := scalar ⟨none, none⟩ true []

instance : Inhabited Node := ⟨empty⟩

theorem sizeOf_lt_sequence {p : Properties} {items : List Node} {n : Node} (h : n ∈ items) :
    sizeOf n < sizeOf (sequence p items) := by
  have := List.sizeOf_lt_of_mem h
  simp only [sequence.sizeOf_spec]
  omega

theorem sizeOf_lt_mapping {p : Properties} {entries : List (Node × Node)} {k v : Node} (h : (k, v) ∈ entries) :
    sizeOf k < sizeOf (mapping p entries) ∧ sizeOf v < sizeOf (mapping p entries) := by
  have := List.sizeOf_lt_of_mem h
  simp only [mapping.sizeOf_spec, Prod.mk.sizeOf_spec] at *
  omega

/-- The number of marks that it takes to write the node as a sequence: one for a scalar or an alias, and one for each
end of a collection. -/
def markCount : Node → Nat
  | reference _ | scalar .. => 1
  | sequence _ items => items.attach.foldr (fun ⟨n, _⟩ count => n.markCount + count) 2
  | mapping _ entries => entries.attach.foldr (fun ⟨(k, v), _⟩ count => k.markCount + v.markCount + count) 2
termination_by n => sizeOf n
decreasing_by
  · exact sizeOf_lt_sequence ‹_›
  · exact (sizeOf_lt_mapping ‹_›).1
  · exact (sizeOf_lt_mapping ‹_›).2

/-- The properties of a node; an alias has none. -/
def properties : Node → Properties
  | reference _ => ⟨none, none⟩
  | scalar props _ _ | sequence props _ | mapping props _ => props

/-- The anchored nodes in the order in which they begin, with the numbers of their anchors. -/
def anchored (n : Node) : List (Nat × Node) :=
  (n.properties.anchor.map fun a => (a, n)).toList ++
    match n with
    | reference _ | scalar .. => []
    | sequence _ items => items.attach.flatMap fun ⟨n, _⟩ => n.anchored
    | mapping _ entries => entries.attach.flatMap fun ⟨(k, v), _⟩ => k.anchored ++ v.anchored
termination_by sizeOf n
decreasing_by
  · exact sizeOf_lt_sequence ‹_›
  · exact (sizeOf_lt_mapping ‹_›).1
  · exact (sizeOf_lt_mapping ‹_›).2

end Node

/-! ## Reading nodes -/

/-- The numbers of the anchor names so far. -/
abbrev AnchorNames := Dictionary Nat

/-- The starts of tags by their handles. -/
abbrev TagStarts := List (Text × Tag)

/-- The tag that a spelling stands for; its handle must be known. -/
def TagSpelling.resolve? (starts : TagStarts) (t : TagSpelling) : Option Tag :=
  if t.handle = [] then some t.suffix else (starts.lookup t.handle).map (· ++ t.suffix)

/-- An anchor and a tag as they are written before a node. -/
structure SpelledProperties where
  anchor : Option Text
  tag : Option TagSpelling
  deriving DecidableEq, Repr

/-- The anchor and the tag at the start of the lexemes, in either order, and the rest. -/
def spelledProperties : List Lexeme → SpelledProperties × List Lexeme
  | .anchor a :: .tag t :: xs => (⟨some a, some t⟩, xs)
  | .anchor a :: xs => (⟨some a, none⟩, xs)
  | .tag t :: .anchor a :: xs => (⟨some a, some t⟩, xs)
  | .tag t :: xs => (⟨none, some t⟩, xs)
  | xs => (⟨none, none⟩, xs)

theorem length_spelledProperties (xs : List Lexeme) : (spelledProperties xs).2.length ≤ xs.length := by
  unfold spelledProperties
  split <;> simp <;> omega

/-- The number of an anchor, and the names with it: an anchor is numbered by the count of names before it. -/
def numberAnchor (names : AnchorNames) : Option Text → Option Nat × AnchorNames
  | none => (none, names)
  | some name => (some names.size, names.insert name names.size)

/-- The properties of a scalar: a tag that is a lone exclamation mark means nothing there. -/
def Properties.forScalar (p : Properties) : Properties :=
  if p.tag = some (Text.octets ['!']) then { p with tag := none } else p

/-- Lexemes that are fewer than `xs`. -/
abbrev Fewer (xs : List Lexeme) := { ys : List Lexeme // ys.length < xs.length }

/-- Lexemes that are no more than `xs`. -/
abbrev NoMore (xs : List Lexeme) := { ys : List Lexeme // ys.length ≤ xs.length }

/-- No item stands in front of these lexemes of a block sequence. -/
def lacksItem (isIndentless : Bool) : List Lexeme → Bool
  | .item :: _ | .blockEnd :: _ => true
  | .key :: _ | .value :: _ => isIndentless
  | _ => false

/-- No key or value stands in front of these lexemes of a block mapping. -/
def lacksBlockPart : List Lexeme → Bool
  | .key :: _ | .value :: _ | .blockEnd :: _ => true
  | _ => false

/-- No value stands in front of these lexemes of a flow collection. -/
def lacksFlowValue (close : Lexeme) (xs : List Lexeme) : Bool :=
  xs.head? = some .separator || xs.head? = some close

/-- No key stands in front of these lexemes of a flow collection. -/
def lacksFlowKey (close : Lexeme) (xs : List Lexeme) : Bool := xs.head? = some .value || lacksFlowValue close xs

/-- Goes on behind the separator between the nodes of a flow collection; there is none before the first one, and there
may be none before the end. -/
def separated? (close : Lexeme) (isFirst : Bool) (xs : List Lexeme) : Option (NoMore xs) :=
  if isFirst then some ⟨xs, Nat.le_refl _⟩
  else
    match xs with
    | .separator :: ys => some ⟨ys, by simp⟩
    | xs => if xs.head? = some close then some ⟨xs, Nat.le_refl _⟩ else none

mutual

/-- Reads a node; `block` admits block collections, and `indentless` a block sequence without a mark at its start. -/
def node? (starts : TagStarts) (block indentless : Bool) (names : AnchorNames) (xs : List Lexeme) :
    Option (Node × AnchorNames × Fewer xs) :=
  match xs with
  | .reference name :: ys => (names.get? name).map fun n => (.reference n, names, ⟨ys, by simp⟩)
  | xs =>
    match spelledProperties xs, length_spelledProperties xs with
    | (spelled, ys), _ =>
      match spelled.tag.map (TagSpelling.resolve? starts) with
      | some none => none
      | tag => do
        let (anchor, names) := numberAnchor names spelled.anchor
        let (n, names, ⟨zs, _⟩) ← content? starts block indentless ⟨anchor, tag.join⟩ names ys
        if h : zs.length < xs.length then some (n, names, ⟨zs, h⟩) else none
termination_by (xs.length, 3)
decreasing_by
  dsimp only at *
  omega

/-- Reads the content of a node; where there is none, the content is empty. -/
def content? (starts : TagStarts) (block indentless : Bool) (props : Properties) (names : AnchorNames)
    (xs : List Lexeme) : Option (Node × AnchorNames × NoMore xs) :=
  match xs with
  | .scalar isPlain value :: ys => some (.scalar props.forScalar isPlain value, names, ⟨ys, by simp⟩)
  | .flowSequenceStart :: ys => do
    let (items, names, ⟨zs, _⟩) ← flowItems? starts true names ys
    some (.sequence props items, names, ⟨zs, by simp; omega⟩)
  | .flowMappingStart :: ys => do
    let (entries, names, ⟨zs, _⟩) ← flowEntries? starts true names ys
    some (.mapping props entries, names, ⟨zs, by simp; omega⟩)
  | .blockSequenceStart :: ys =>
    if block then do
      let (items, names, ⟨zs, _⟩) ← blockItems? starts false names ys
      some (.sequence props items, names, ⟨zs, by simp; omega⟩)
    else some (.scalar props true [], names, ⟨.blockSequenceStart :: ys, Nat.le_refl _⟩)
  | .blockMappingStart :: ys =>
    if block then do
      let (entries, names, ⟨zs, _⟩) ← blockEntries? starts names ys
      some (.mapping props entries, names, ⟨zs, by simp; omega⟩)
    else some (.scalar props true [], names, ⟨.blockMappingStart :: ys, Nat.le_refl _⟩)
  | xs =>
    if indentless && xs.head? == some .item then do
      let (items, names, zs) ← blockItems? starts true names xs
      some (.sequence props items, names, zs)
    else some (.scalar props true [], names, ⟨xs, Nat.le_refl _⟩)
termination_by (xs.length, 2)
decreasing_by all_goals (simp_wf; omega)

/-- Reads the items of a block sequence. -/
def blockItems? (starts : TagStarts) (isIndentless : Bool) (names : AnchorNames) (xs : List Lexeme) :
    Option (List Node × AnchorNames × NoMore xs) :=
  match xs with
  | .item :: ys =>
    if lacksItem isIndentless ys then do
      let (items, names, ⟨zs, _⟩) ← blockItems? starts isIndentless names ys
      some (.empty :: items, names, ⟨zs, by simp; omega⟩)
    else do
      let (n, names, ⟨zs, _⟩) ← node? starts true false names ys
      let (items, names, ⟨us, _⟩) ← blockItems? starts isIndentless names zs
      some (n :: items, names, ⟨us, by simp; omega⟩)
  | .blockEnd :: ys => some ([], names, if isIndentless then ⟨.blockEnd :: ys, Nat.le_refl _⟩ else ⟨ys, by simp⟩)
  | xs => if isIndentless then some ([], names, ⟨xs, Nat.le_refl _⟩) else none
termination_by (xs.length, 1)
decreasing_by all_goals (simp_wf; omega)

/-- Reads the entries of a block mapping. -/
def blockEntries? (starts : TagStarts) (names : AnchorNames) (xs : List Lexeme) :
    Option (List (Node × Node) × AnchorNames × NoMore xs) :=
  match xs with
  | .key :: ys => do
    let (k, names, ⟨zs, _⟩) ← blockPart? starts names ys
    let (v, names, ⟨us, _⟩) ← blockValue? starts names zs
    let (entries, names, ⟨vs, _⟩) ← blockEntries? starts names us
    some ((k, v) :: entries, names, ⟨vs, by simp; omega⟩)
  | .blockEnd :: ys => some ([], names, ⟨ys, by simp⟩)
  | _ => none
termination_by (xs.length, 1)
decreasing_by all_goals (simp_wf; omega)

/-- Reads a key or a value of a block mapping, which may be left out. -/
def blockPart? (starts : TagStarts) (names : AnchorNames) (xs : List Lexeme) :
    Option (Node × AnchorNames × NoMore xs) :=
  if lacksBlockPart xs then some (.empty, names, ⟨xs, Nat.le_refl _⟩)
  else do
    let (n, names, ⟨ys, _⟩) ← node? starts true true names xs
    some (n, names, ⟨ys, by omega⟩)
termination_by (xs.length, 4)
decreasing_by exact .right _ (by decide)

/-- Reads the value of an entry of a block mapping with its indicator, which may be left out. -/
def blockValue? (starts : TagStarts) (names : AnchorNames) (xs : List Lexeme) :
    Option (Node × AnchorNames × NoMore xs) :=
  match xs with
  | .value :: ys => do
    let (n, names, ⟨zs, _⟩) ← blockPart? starts names ys
    some (n, names, ⟨zs, by simp; omega⟩)
  | xs => some (.empty, names, ⟨xs, Nat.le_refl _⟩)
termination_by (xs.length, 1)
decreasing_by simp_wf; omega

/-- Reads the items of a flow sequence. -/
def flowItems? (starts : TagStarts) (isFirst : Bool) (names : AnchorNames) (xs : List Lexeme) :
    Option (List Node × AnchorNames × NoMore xs) := do
  let ⟨ys, _⟩ ← separated? .flowSequenceEnd isFirst xs
  if ys.head? = some .flowSequenceEnd then some ([], names, ⟨ys.drop 1, by simp; omega⟩)
  else
    let (n, names, ⟨zs, _⟩) ← flowItem? starts names ys
    let (items, names, ⟨us, _⟩) ← flowItems? starts false names zs
    some (n :: items, names, ⟨us, by omega⟩)
termination_by (xs.length, 5)
decreasing_by all_goals omega

/-- Reads an item of a flow sequence; one entry of a mapping can stand there without braces. -/
def flowItem? (starts : TagStarts) (names : AnchorNames) (xs : List Lexeme) :
    Option (Node × AnchorNames × Fewer xs) :=
  match xs with
  | .key :: ys => do
    let (k, names, ⟨zs, _⟩) ← flowPairKey? starts names ys
    let (v, names, ⟨us, _⟩) ← flowValue? starts .flowSequenceEnd names zs
    some (.mapping ⟨none, none⟩ [(k, v)], names, ⟨us, by simp; omega⟩)
  | xs => node? starts false false names xs
termination_by (xs.length, 4)
decreasing_by all_goals (simp_wf; omega)

/-- Reads the key of an entry in a flow sequence. Where it is left out, the lexeme in its place is dropped. -/
def flowPairKey? (starts : TagStarts) (names : AnchorNames) (xs : List Lexeme) :
    Option (Node × AnchorNames × NoMore xs) :=
  if lacksFlowKey .flowSequenceEnd xs then some (.empty, names, ⟨xs.drop 1, by simp⟩)
  else do
    let (n, names, ⟨ys, _⟩) ← node? starts false false names xs
    some (n, names, ⟨ys, by omega⟩)
termination_by (xs.length, 4)
decreasing_by exact .right _ (by decide)

/-- Reads the entries of a flow mapping. -/
def flowEntries? (starts : TagStarts) (isFirst : Bool) (names : AnchorNames) (xs : List Lexeme) :
    Option (List (Node × Node) × AnchorNames × NoMore xs) := do
  let ⟨ys, _⟩ ← separated? .flowMappingEnd isFirst xs
  if ys.head? = some .flowMappingEnd then some ([], names, ⟨ys.drop 1, by simp; omega⟩)
  else
    let (e, names, ⟨zs, _⟩) ← flowEntry? starts names ys
    let (entries, names, ⟨us, _⟩) ← flowEntries? starts false names zs
    some (e :: entries, names, ⟨us, by omega⟩)
termination_by (xs.length, 5)
decreasing_by all_goals omega

/-- Reads an entry of a flow mapping. A key without an indicator before it has no value. -/
def flowEntry? (starts : TagStarts) (names : AnchorNames) (xs : List Lexeme) :
    Option ((Node × Node) × AnchorNames × Fewer xs) :=
  match xs with
  | .key :: ys => do
    let (k, names, ⟨zs, _⟩) ← flowKey? starts names ys
    let (v, names, ⟨us, _⟩) ← flowValue? starts .flowMappingEnd names zs
    some ((k, v), names, ⟨us, by simp; omega⟩)
  | xs => do
    let (n, names, ys) ← node? starts false false names xs
    some ((n, .empty), names, ys)
termination_by (xs.length, 4)
decreasing_by all_goals (simp_wf; omega)

/-- Reads the key of an entry of a flow mapping, which may be left out. -/
def flowKey? (starts : TagStarts) (names : AnchorNames) (xs : List Lexeme) :
    Option (Node × AnchorNames × NoMore xs) :=
  if lacksFlowKey .flowMappingEnd xs then some (.empty, names, ⟨xs, Nat.le_refl _⟩)
  else do
    let (n, names, ⟨ys, _⟩) ← node? starts false false names xs
    some (n, names, ⟨ys, by omega⟩)
termination_by (xs.length, 4)
decreasing_by exact .right _ (by decide)

/-- Reads the value of an entry in a flow collection with its indicator, which may both be left out. -/
def flowValue? (starts : TagStarts) (close : Lexeme) (names : AnchorNames) (xs : List Lexeme) :
    Option (Node × AnchorNames × NoMore xs) :=
  match xs with
  | .value :: ys =>
    if lacksFlowValue close ys then some (.empty, names, ⟨ys, by simp⟩)
    else do
      let (n, names, ⟨zs, _⟩) ← node? starts false false names ys
      some (n, names, ⟨zs, by simp; omega⟩)
  | xs => some (.empty, names, ⟨xs, Nat.le_refl _⟩)
termination_by (xs.length, 1)
decreasing_by simp_wf; omega

end

end Yaml
end TerminalMarkup
