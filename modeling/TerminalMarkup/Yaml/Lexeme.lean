import TerminalMarkup.Yaml.Scalar.Block
import TerminalMarkup.Yaml.Scalar.Plain
import TerminalMarkup.Yaml.Tag

/-!
# Lexemes

The lexemes of a document are its scalars, indicators, anchors and tags, together with marks for what the layout says:
where a block collection begins and ends, and that a node is the key of a mapping. A node on one line may turn out to be
a key only when the colon behind it is read; the mark is then put in front of it.

* `Layout` is what has been read so far, `Layout.next?` reads one lexeme further,
* `lexemes?` reads a whole document.
-/

namespace TerminalMarkup

namespace Yaml

/-- A lexeme of a document. -/
inductive Lexeme
  | directive (d : Directive)
  | documentStart
  | documentEnd
  | blockSequenceStart
  | blockMappingStart
  | blockEnd
  | flowSequenceStart
  | flowSequenceEnd
  | flowMappingStart
  | flowMappingEnd
  /-- The indicator of an item of a block sequence. -/
  | item
  /-- The indicator between the nodes of a flow collection. -/
  | separator
  /-- The mark or indicator of a key. -/
  | key
  /-- The indicator of a value. -/
  | value
  | anchor (name : Text)
  | reference (name : Text)
  | tag (t : TagSpelling)
  | scalar (isPlain : Bool) (value : Text)
  deriving DecidableEq, Repr

/-- A place where a key may begin. -/
structure PossibleKey where
  position : Position
  /-- The number of lexemes before the place. -/
  count : Nat
  /-- Nothing but a key can stand in this place. -/
  isRequired : Bool
  deriving DecidableEq, Repr

/-- The most characters from the start of a key to the colon. -/
def maxKeyLength : Nat := 1024

/-- A key that began at `k` can still end at `p`: it is on one line and not too long. -/
def PossibleKey.isOpenAt (k : PossibleKey) (p : Position) : Bool :=
  k.position.line = p.line && p.offset ≤ k.position.offset + maxKeyLength

/-- What has been read of a document. -/
structure Layout where
  rest : Text
  position : Position
  /-- The lexemes so far, the last one first. -/
  lexemes : List Lexeme
  /-- The columns of the open block collections, the innermost first. -/
  indents : List Nat
  /-- The last place where a key may begin in the innermost flow collection, or outside all of them. -/
  key : Option PossibleKey
  /-- The same for the collections around it. -/
  outer : List (Option PossibleKey)
  /-- A key may begin here. -/
  keyAllowed : Bool
  deriving Repr

namespace Layout

/-- The beginning of a document, where a byte order mark may stand. -/
def ofText (s : Text) : Layout :=
  match s with
  | c :: r => if c.toNat = 0xFEFF then ⟨r, Position.start.next, [], [], none, [], true⟩
    else ⟨s, .start, [], [], none, [], true⟩
  | [] => ⟨[], .start, [], [], none, [], true⟩

/-- The place is inside a flow collection. -/
def inFlow (l : Layout) : Bool := !l.outer.isEmpty

/-- The least indentation of the lines of a scalar. -/
def scalarIndent (l : Layout) : Nat := (l.indents.head?.map (· + 1)).getD 0

/-- Adds a lexeme. -/
def add (l : Layout) (x : Lexeme) : Layout := { l with lexemes := x :: l.lexemes }

/-- Puts a lexeme behind the first `count` lexemes. -/
def insert (l : Layout) (count : Nat) (x : Lexeme) : Layout :=
  let later := l.lexemes.length - count
  { l with lexemes := l.lexemes.take later ++ x :: l.lexemes.drop later }

/-- Goes on to `rest`, which is an end of the text to be read. -/
def moveTo (l : Layout) (rest : Text) : Layout :=
  { l with rest := rest, position := l.position.after (l.rest.take (l.rest.length - rest.length)) }

/-- Adds a lexeme and goes on to the rest behind it. -/
def take (l : Layout) (x : Lexeme) (rest : Text) : Layout := (l.add x).moveTo rest

/-! ## Spacing -/

/-- What follows spacing and comments, and whether a key may begin there. A tab is no spacing where a key may begin. -/
def skipSpacing (flow : Bool) : Bool → Bool → Text → Bool × Text
  | _, allowed, [] => (allowed, [])
  | inComment, allowed, c :: s =>
    if isBreak c then skipSpacing flow false (allowed || !flow) s
    else if inComment || c == '#' then skipSpacing flow true allowed s
    else if c == ' ' || (c == '\t' && (flow || !allowed)) then skipSpacing flow false allowed s
    else (allowed, c :: s)

/-- Goes on to the next lexeme. -/
def skip (l : Layout) : Layout :=
  let (allowed, rest) := skipSpacing l.inFlow false l.keyAllowed l.rest
  { l.moveTo rest with keyAllowed := allowed }

/-! ## Keys -/

/-- Gives up a place for a key, which must not be a place where a key is required. -/
def giveUp? : Option PossibleKey → Option (Option PossibleKey)
  | some k => if k.isRequired then none else some none
  | none => some none

/-- Keeps a place for a key if a key can still end at `p`. -/
def keepOpen? (p : Position) (k : Option PossibleKey) : Option (Option PossibleKey) :=
  if k.all (PossibleKey.isOpenAt · p) then some k else giveUp? k

/-- Gives up the places whose keys can no longer end. -/
def dropStaleKeys? (l : Layout) : Option Layout := do
  let key ← keepOpen? l.position l.key
  let outer ← l.outer.mapM (keepOpen? l.position)
  some { l with key := key, outer := outer }

/-- Gives up the last place for a key. -/
def dropKey? (l : Layout) : Option Layout := (giveUp? l.key).map fun key => { l with key := key }

/-- Notes that a key may begin here, if it may. -/
def noteKey? (l : Layout) : Option Layout :=
  if l.keyAllowed then
    l.dropKey?.map fun l =>
      { l with key := some ⟨l.position, l.lexemes.length, !l.inFlow && l.indents.head? == some l.position.column⟩ }
  else some l

/-! ## Block collections -/

/-- Closes the block collections that are indented further than `column`, or all of them. -/
def closeBlocks (l : Layout) (column : Option Nat) : Layout :=
  if l.inFlow then l
  else
    let closed := l.indents.takeWhile fun n => column.all (· < n)
    { l with
      lexemes := closed.map (fun _ => Lexeme.blockEnd) ++ l.lexemes
      indents := l.indents.drop closed.length }

/-- Opens a block collection at a column that is further in than the open ones; its mark goes behind the first `count`
lexemes. -/
def openBlock (l : Layout) (column count : Nat) (start : Lexeme) : Layout :=
  if l.inFlow || l.indents.head?.any (column ≤ ·) then l
  else { l.insert count start with indents := column :: l.indents }

/-- Opens a block collection here, outside flow collections only where a key may begin. -/
def openHere? (l : Layout) (start : Lexeme) : Option Layout :=
  if l.inFlow then some l
  else if l.keyAllowed then some (l.openBlock l.position.column l.lexemes.length start)
  else none

/-! ## Lexemes -/

/-- Ends the block collections before a directive or a document marker. -/
def endBlocks? (l : Layout) : Option Layout :=
  (l.closeBlocks none).dropKey?.map fun l => { l with keyAllowed := false }

/-- Reads a directive after its percent sign, with its line. -/
def takeDirective? (l : Layout) (s : Text) : Option Layout := do
  let l ← l.endBlocks?
  let (d, s) ← directive? s
  let s ← emptyRest? s
  some (l.take (.directive d) (takeBreak s).2)

/-- Reads a document marker. -/
def takeMarker? (l : Layout) (x : Lexeme) : Option Layout := l.endBlocks?.map fun l => l.take x (l.rest.drop 3)

/-- Reads the start of a flow collection. -/
def openFlow? (l : Layout) (x : Lexeme) (s : Text) : Option Layout :=
  l.noteKey?.map fun l => { l.take x s with outer := l.key :: l.outer, key := none, keyAllowed := true }

/-- Reads the end of a flow collection. -/
def closeFlow? (l : Layout) (x : Lexeme) (s : Text) : Option Layout :=
  l.dropKey?.map fun l =>
    { l.take x s with key := l.outer.head?.getD none, outer := l.outer.drop 1, keyAllowed := false }

/-- Reads the indicator between the nodes of a flow collection. -/
def takeSeparator? (l : Layout) (s : Text) : Option Layout :=
  l.dropKey?.map fun l => { l.take .separator s with keyAllowed := true }

/-- Reads the indicator of an item. -/
def takeItem? (l : Layout) (s : Text) : Option Layout := do
  let l ← l.openHere? .blockSequenceStart
  let l ← l.dropKey?
  some { l.take .item s with keyAllowed := true }

/-- Reads the indicator of a key. -/
def takeKey? (l : Layout) (s : Text) : Option Layout := do
  let l ← l.openHere? .blockMappingStart
  let l ← l.dropKey?
  some { l.take .key s with keyAllowed := !l.inFlow }

/-- Reads the indicator of a value. What began at the last place for a key is a key. -/
def takeValue? (l : Layout) (s : Text) : Option Layout :=
  match l.key with
  | some k =>
    let l := (l.insert k.count .key).openBlock k.position.column k.count .blockMappingStart
    some { l.take .value s with key := none, keyAllowed := false }
  | none => (l.openHere? .blockMappingStart).map fun l => { l.take .value s with keyAllowed := !l.inFlow }

/-- Adds a lexeme that belongs to a node on one line. -/
def takeNode? (l : Layout) (read : Option (Lexeme × Text)) : Option Layout := do
  let l ← l.noteKey?
  let (x, s) ← read
  some { l.take x s with keyAllowed := false }

/-- Reads a block scalar after its indicator. -/
def takeBlock? (l : Layout) (isFolded : Bool) (s : Text) : Option Layout := do
  let l ← l.dropKey?
  let (value, s) ← block? isFolded l.indents.head? s
  some { l.take (.scalar false value) s with keyAllowed := true }

/-- Reads a plain scalar. -/
def takePlain? (l : Layout) : Option Layout := do
  let l ← l.noteKey?
  let p ← plain? l.inFlow l.scalarIndent l.rest
  some { l.take (.scalar true p.value) p.rest with keyAllowed := p.atLineEnd }

/-- A plain scalar may begin with `c`, where `s` follows. -/
def startsPlain (flow : Bool) (c : Char) (s : Text) : Bool :=
  !(isSpacing c || "-?:,[]\x7b\x7d#&*!|>'\"%@`".toList.contains c) || (c == '-' && !startsWhere isBlank s)
    || (!flow && (c == '?' || c == ':') && !atSpacing s)

/-- Reads the lexeme that begins with `c`, where `s` follows. -/
def takeLexeme? (l : Layout) (c : Char) (s : Text) : Option Layout :=
  let lineStart := l.position.column == 0
  if lineStart && c == '%' then l.takeDirective? s
  else if lineStart && c == '-' && atDocumentMarker (c :: s) then l.takeMarker? .documentStart
  else if lineStart && c == '.' && atDocumentMarker (c :: s) then l.takeMarker? .documentEnd
  else
    match c with
    | '[' => l.openFlow? .flowSequenceStart s
    | '\x7b' => l.openFlow? .flowMappingStart s
    | ']' => l.closeFlow? .flowSequenceEnd s
    | '\x7d' => l.closeFlow? .flowMappingEnd s
    | ',' => l.takeSeparator? s
    | '*' => l.takeNode? ((anchorName? s).map fun (name, s) => (.reference name, s))
    | '&' => l.takeNode? ((anchorName? s).map fun (name, s) => (.anchor name, s))
    | '!' => l.takeNode? ((tag? l.inFlow (c :: s)).map fun (t, s) => (.tag t, s))
    | '\'' => l.takeNode? ((quoted? .single s).map fun (v, s) => (.scalar false v, s))
    | '"' => l.takeNode? ((quoted? .double s).map fun (v, s) => (.scalar false v, s))
    | c =>
      if c == '-' && atSpacing s then l.takeItem? s
      else if c == '?' && (l.inFlow || atSpacing s) then l.takeKey? s
      else if c == ':' && (l.inFlow || atSpacing s) then l.takeValue? s
      else if c == '|' && !l.inFlow then l.takeBlock? false s
      else if c == '>' && !l.inFlow then l.takeBlock? true s
      else if startsPlain l.inFlow c s then l.takePlain?
      else none

/-- Goes on to the next lexeme and closes the block collections that end before it. -/
def advance? (l : Layout) : Option Layout := l.skip.dropStaleKeys?.map fun l => l.closeBlocks (some l.position.column)

/-- Ends the document. -/
def finish? (l : Layout) : Option (List Lexeme) := l.endBlocks?.map fun l => l.lexemes.reverse

/-- Reads the rest of the lexemes; each one takes at least one character. -/
def readAll? (l : Layout) : Option (List Lexeme) :=
  match l.advance? with
  | none => none
  | some m =>
    match m.rest with
    | [] => m.finish?
    | c :: s =>
      match m.takeLexeme? c s with
      | none => none
      | some n => if n.rest.length < l.rest.length then readAll? n else none
termination_by l.rest.length

end Layout

/-- The lexemes of a document; none if it has characters that a document must not hold, or is not well formed. -/
def lexemes? (s : Text) : Option (List Lexeme) := if s.all isAllowed then (Layout.ofText s).readAll? else none

end Yaml
end TerminalMarkup
