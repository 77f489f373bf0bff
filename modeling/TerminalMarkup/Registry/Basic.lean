import TerminalMarkup.Dictionary
import TerminalMarkup.Registry.Name
import TerminalMarkup.Token

/-!
# The registry of styles

The registry gives names their styles. A style is stored as a text: a bare style code, or a sequence of tags in the
canonical delimiters. The registry does not look into it.

Every write normalizes the name and the value, and ignores a name whose normal form is empty; only the entries that a
registry is built from, and returns to on `reset`, may include one.
-/

namespace TerminalMarkup

/-- Named styles, and the entries to return to. -/
structure Registry where
  entries : Dictionary Text
  defaults : List (Text × Text)
  deriving DecidableEq

namespace Registry

/-- The form in which a value is stored: a single direct tag is stored as its bare code. -/
def normalizeValue (raw : Text) : Text :=
  let code := Delimiters.canonical.unwrapDirect raw
  if Token.isCode code then code else raw.trim

/-- An entry in the form in which it is stored. -/
def normalizeEntry (e : Text × Text) : Text × Text := (Name.normalize e.1, normalizeValue e.2)

/-- The registry without entries. -/
def empty : Registry := ⟨.empty, []⟩

instance : Inhabited Registry := ⟨empty⟩

/-- The registry of the given entries, which are also its defaults. -/
def ofEntries (es : List (Text × Text)) : Registry :=
  let defaults := es.map normalizeEntry
  ⟨.ofList defaults, defaults⟩

/-! ## Reading -/

/-- The value of a name. -/
def lookup (r : Registry) (name : Text) : Option Text := r.entries.get? (Name.normalize name)

/-- The name has a value. -/
def contains (r : Registry) (name : Text) : Bool := r.entries.contains (Name.normalize name)

/-- The number of entries. -/
def size (r : Registry) : Nat := r.entries.size

/-- The entries in order of their names. -/
def snapshot (r : Registry) : List (Text × Text) := r.entries.toList

/-! ## Writing -/

/-- Gives a name a value. -/
def register (r : Registry) (name raw : Text) : Registry :=
  let e := normalizeEntry (name, raw)
  if e.1 = [] then r else { r with entries := r.entries.insert e.1 e.2 }

/-- Gives names values, from left to right. -/
def registerAll (r : Registry) (es : List (Text × Text)) : Registry := es.foldl (fun r e => r.register e.1 e.2) r

/-- The number of entries that `registerAll` writes. -/
def registeredCount (es : List (Text × Text)) : Nat := es.countP fun e => Name.normalize e.1 ≠ []

/-- Removes a name. -/
def unregister (r : Registry) (name : Text) : Registry := { r with entries := r.entries.erase (Name.normalize name) }

/-- A normalized name belongs to the namespace. No name belongs to a namespace whose normal form is empty. -/
def inNamespace (ns key : Text) : Bool := Name.normalize ns ≠ [] && Text.startsWith (Name.namespaceKey ns) key

/-- Removes the names of a namespace. -/
def unregisterNamespace (r : Registry) (ns : Text) : Registry :=
  { r with entries := r.entries.filter fun k => !inNamespace ns k }

/-- The number of names in a namespace. -/
def namespaceSize (r : Registry) (ns : Text) : Nat := (r.entries.filter (inNamespace ns)).size

/-- Writes an entry in the form in which it is stored, or leaves it out if its name has an empty normal form. -/
def writeEntry (entries : Dictionary Text) (e : Text × Text) : Dictionary Text :=
  let e := normalizeEntry e
  if e.1 = [] then entries else entries.insert e.1 e.2

/-- Gives names values in place of those of a namespace. A namespace whose key is a lone underscore has no names. -/
def replaceNamespace (r : Registry) (ns : Text) (es : List (Text × Text)) : Registry :=
  let key := Name.namespaceKey ns
  let kept := if key = ['_'] then r.entries else r.entries.filter fun k => !Text.startsWith key k
  { r with entries := es.foldl writeEntry kept }

/-- Returns to the defaults. -/
def reset (r : Registry) : Registry := { r with entries := .ofList r.defaults }

end Registry
end TerminalMarkup
