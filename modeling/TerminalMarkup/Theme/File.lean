import TerminalMarkup.Files
import TerminalMarkup.Theme.Table
import TerminalMarkup.Yaml.Value

/-!
# Theme files

A theme file is a YAML document with up to four sections: what the theme is called, the delimiters of its values,
settings that are only kept, and the colors. The colors are a mapping from keys to style values; entries whose key or
value is not a scalar, or is null, are left out.

* `ThemeFile.ofText?` reads a text, `ThemeFile.load` a file, and `ThemeFile.colorTable` the entries of the colors,
* `ThemeFile.resolve` gives the style codes of its keys, `Registry.loadFile` registers them.
-/

namespace TerminalMarkup

open Yaml (Document Node Reading Value)

/-- What a theme is called. -/
structure ThemeMetadata where
  name : Option Text
  description : Option Text
  author : Option Text
  deriving DecidableEq, Repr

namespace ThemeMetadata

/-- Nothing is said of the theme. -/
def empty : ThemeMetadata := ⟨none, none, none⟩

instance : Inhabited ThemeMetadata := ⟨empty⟩

end ThemeMetadata

/-- The contents of a theme file. -/
structure ThemeFile where
  metadata : ThemeMetadata
  /-- The delimiters that the colors are written with. -/
  delimiters : Delimiters
  /-- Settings for applications. -/
  defaults : Option Value
  /-- The style values by their keys. -/
  colors : Dictionary Text

namespace ThemeFile

/-- A file that says nothing. -/
def empty : ThemeFile := ⟨.empty, .canonical, none, .empty⟩

instance : Inhabited ThemeFile := ⟨empty⟩

/-! ## Sections -/

/-- The field with a given name, which stands there at most once. -/
def field? (fields : List (Text × Node)) (name : String) : Option (Option Node) :=
  match fields.filter fun f => f.1 = name.toList with
  | [] => some none
  | [f] => some (some f.2)
  | _ => none

/-- Reads a field that may be missing. -/
def fieldWith {α : Type} (fields : List (Text × Node)) (name : String) (missing : α) (read : Node → Reading α) :
    Reading α := do
  match ← field? fields name with
  | none => pure missing
  | some n => read n

/-- Reads a field that is a text, or missing, or null. -/
def textField (d : Document) (fields : List (Text × Node)) (name : String) : Reading (Option Text) :=
  fieldWith fields name none (d.optional d.text)

/-- Reads what the theme is called. -/
def readMetadata (d : Document) (n : Node) : Reading ThemeMetadata := do
  let fields ← d.fields n
  let name ← textField d fields "name"
  let description ← textField d fields "description"
  let author ← textField d fields "author"
  pure ⟨name, description, author⟩

/-- A delimiter of the file, unless it is missing or empty. -/
def delimiter (given : Option Text) (standard : Text) : Text :=
  match given with
  | some (c :: cs) => c :: cs
  | _ => standard

/-- Reads the delimiters. -/
def readDelimiters (d : Document) (n : Node) : Reading Delimiters := do
  let fields ← d.fields n
  let semanticOpen ← textField d fields "semantic_prefix"
  let semanticClose ← textField d fields "semantic_suffix"
  let directOpen ← textField d fields "direct_prefix"
  let directClose ← textField d fields "direct_suffix"
  let standard := Delimiters.canonical
  pure ⟨delimiter semanticOpen standard.semanticOpen, delimiter semanticClose standard.semanticClose,
    delimiter directOpen standard.directOpen, delimiter directClose standard.directClose⟩

/-! ## Colors -/

/-- The text of a scalar value. -/
def scalarText? : Value → Option Text
  | .string s => some s
  | .number n => some n.text
  | .bool b => some (if b then "true".toList else "false".toList)
  | _ => none

/-- The colors of a mapping. Of several entries with one key, the last that has a text counts. -/
def colorTable (entries : List (Value × Value)) : Dictionary Text :=
  .ofList (entries.filterMap fun (k, v) => (scalarText? k).bind fun k => (scalarText? v).map fun v => (k, v))

/-- How deep collections nest at most in the colors, which are a collection in a collection. -/
def colorNesting : Nat := Yaml.maxNesting - 2

/-- Reads the colors: a mapping without a tag of its own, or null. -/
def readColors (d : Document) (n : Node) : Reading (Dictionary Text) := do
  let n ← d.follow n
  if (Value.keptTag? n.properties.tag).isSome then failure
  match n with
  | .mapping _ entries =>
    let entries ← entries.mapM fun (k, v) => do
      let k ← d.value colorNesting false k
      let v ← d.value colorNesting false v
      pure (k, v)
    pure (colorTable entries)
  | .scalar props isPlain s =>
    match ← Value.ofScalar? props.tag isPlain s with
    | .null => pure .empty
    | _ => failure
  | _ => failure

/-! ## The file -/

/-- Reads the sections of a document. -/
def readRoot (d : Document) (n : Node) : Reading ThemeFile := do
  let fields ← d.fields n
  let metadata ← fieldWith fields "metadata" .empty (readMetadata d)
  let delimiters ← fieldWith fields "syntax" none (d.optional (readDelimiters d))
  let defaults ← fieldWith fields "defaults" none (d.optional (d.value (Yaml.maxNesting - 1) false))
  let colors ← fieldWith fields "colors" .empty (readColors d)
  pure ⟨metadata, delimiters.getD .canonical, defaults, colors⟩

/-- Reads a document. -/
def ofDocument? (d : Document) : Option ThemeFile :=
  match d.root with
  | none => some empty
  | some n => (readRoot d n).run' 0

/-- Reads the text of a theme file. -/
def ofText? (s : Text) : Option ThemeFile := if s.trim = [] then some empty else (Document.ofText? s).bind ofDocument?

end ThemeFile

/-! ## Loading -/

/-- Why a theme cannot be read. -/
inductive ThemeError
  | file (path : Text) (e : FileError)
  /-- The text is no document, or its sections are not what they should be. -/
  | format
  deriving DecidableEq, Repr

/-- What is said of an error. -/
def ThemeError.message : ThemeError → Text
  | file path e => "Failed to read theme file ".toList ++ path ++ ": ".toList ++ e.message.toList
  | format => "Failed to parse theme".toList

namespace ThemeFile

/-- Reads the text of a theme file. -/
def parse (s : Text) : Except ThemeError ThemeFile :=
  match ofText? s with
  | some f => pure f
  | none => throw .format

/-- Reads a theme file. -/
def load (read : FileReader) (path : Text) : Except ThemeError ThemeFile :=
  match read.text path with
  | .ok s => parse s
  | .error e => throw (.file path e)

/-- The style codes of the keys of a theme, without registering them. -/
def resolve (f : ThemeFile) (r : Registry) (ns : Option Text) : Dictionary Text :=
  resolveTable f.colors.toList f.delimiters r ns

end ThemeFile

/-- Registers the style codes of a theme. -/
def Registry.loadFile (r : Registry) (f : ThemeFile) (ns : Option Text) : LoadedTheme × Registry :=
  r.loadTheme f.colors.toList f.delimiters ns

end TerminalMarkup
