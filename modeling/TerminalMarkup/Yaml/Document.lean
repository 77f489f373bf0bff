import TerminalMarkup.Yaml.Node

/-!
# Documents

A stream holds one document: a node, with directives and markers around it, or nothing. `Document.ofText?` reads one.
-/

namespace TerminalMarkup

namespace Yaml

/-- A document; it may have no node at all. -/
structure Document where
  root : Option Node

namespace Document

/-- The node that aliases with a given number stand for: of the nodes whose anchors have the number, the one that begins
last. -/
def target? (d : Document) (anchor : Nat) : Option Node :=
  (((d.root.map Node.anchored).getD []).reverse.lookup anchor)

/-- The number of marks that it takes to write the document as a sequence. -/
def markCount (d : Document) : Nat := (d.root.map Node.markCount).getD 1

/-! ## Directives -/

/-- The starts of tags that need no directive. -/
def standardStarts : TagStarts := [(['!'], Text.octets ['!']), ("!!".toList, Text.octets "tag:yaml.org,2002:".toList)]

/-- Reads the directives in front of a document: no handle and no version is given twice, and the version is known. -/
def directives? (hasVersion : Bool) (starts : TagStarts) : List Lexeme → Option (TagStarts × List Lexeme)
  | .directive (.version major minor) :: xs =>
    if hasVersion || !(major == 1 && (minor == 1 || minor == 2)) then none else directives? true starts xs
  | .directive (.tagStart handle start) :: xs =>
    if (starts.lookup handle).isSome then none else directives? hasVersion ((handle, start) :: starts) xs
  | xs => some (starts ++ standardStarts, xs)

/-! ## The document -/

/-- There is nothing in front of these lexemes after the start of a document. -/
def isEmptyBefore : List Lexeme → Bool
  | [] | .directive _ :: _ | .documentStart :: _ | .documentEnd :: _ => true
  | _ => false

/-- Reads the node of a document that has a marker at its start. -/
def markedRoot? (starts : TagStarts) : List Lexeme → Option (Node × List Lexeme)
  | .documentStart :: xs =>
    if isEmptyBefore xs then some (.empty, xs)
    else (node? starts true false .empty xs).map fun (n, _, ys) => (n, ys)
  | _ => none

/-- Reads the node of a document. -/
def root? (xs : List Lexeme) : Option (Node × List Lexeme) :=
  match xs with
  | .directive _ :: _ | .documentStart :: _ => (directives? false [] xs).bind fun (starts, xs) => markedRoot? starts xs
  | xs => (node? standardStarts true false .empty xs).map fun (n, _, ys) => (n, ys)

/-- Reads a stream; behind its document there are at most markers of its end. -/
def ofLexemes? : List Lexeme → Option Document
  | [] => some ⟨none⟩
  | xs => (root? xs).bind fun (n, rest) => if rest.all (· = .documentEnd) then some ⟨some n⟩ else none

/-- Reads a document. -/
def ofText? (s : Text) : Option Document := (lexemes? s).bind ofLexemes?

end Document
end Yaml
end TerminalMarkup
