import TerminalMarkup.Theme.Resolver

/-!
# Loading theme tables

A theme table is resolved to one style code for each key, and the codes are registered under `Theme_Key`. Under a
namespace they replace what the namespace held, so that a theme can be previewed and dropped again.
-/

namespace TerminalMarkup

/-- The start of the registered names of theme keys. -/
def themeNameStart : Text := "Theme_".toList

/-- A theme key as it is spelled in the table, without the start of a reference. -/
def spelledKey (key : Text) : Text :=
  let key := key.trim
  if Text.eqIgnoreCase (key.take themeNameStart.length) themeNameStart && themeNameStart.length < key.length then
    key.drop themeNameStart.length
  else key

/-- The name under which a theme key is registered. -/
def themeName (ns : Option Text) (key : Text) : Text := Name.qualify ns (themeNameStart ++ key)

/-- Resolves the keys of a table from left to right, and collects their codes by spelled key. -/
def resolveKeys : List Text → Resolver → Dictionary Text → Dictionary Text
  | [], _, codes => codes
  | key :: keys, r, codes =>
    match r.resolveKey key with
    | (none, r) => resolveKeys keys r codes
    | (some c, r) => resolveKeys keys r (codes.insert (spelledKey key) c.code)

/-- The style codes of a theme table by spelled key. -/
def resolveTable (table : List (Text × Text)) (d : Delimiters) (r : Registry) (ns : Option Text) : Dictionary Text :=
  resolveKeys (table.map Prod.fst) (.new (.ofTable table d r ns)) .empty

/-- What loading a theme has registered. -/
structure LoadedTheme where
  ns : Option Text
  /-- The registered names with their codes. -/
  entries : List (Text × Text)
  deriving DecidableEq, Repr

namespace LoadedTheme

/-- No theme. -/
def empty : LoadedTheme := ⟨none, []⟩

instance : Inhabited LoadedTheme := ⟨empty⟩

/-- The code registered for a key of the table. -/
def code (t : LoadedTheme) (key : Text) : Option Text :=
  let wanted := Name.normalize (themeName t.ns (spelledKey key))
  (t.entries.find? fun e => Name.normalize e.1 = wanted).map Prod.snd

end LoadedTheme

namespace Registry

/-- Registers entries in place of those of a namespace, if there is one. -/
def writeTheme (r : Registry) (ns : Option Text) (es : List (Text × Text)) : Registry :=
  match ns with
  | some ns => r.replaceNamespace ns es
  | none => r.registerAll es

/-- Resolves a theme table and registers its codes. -/
def loadTheme (r : Registry) (table : List (Text × Text)) (d : Delimiters) (ns : Option Text) :
    LoadedTheme × Registry :=
  let entries := (resolveTable table d r ns).toList.map fun (key, code) => (themeName ns key, code)
  (⟨ns, entries⟩, r.writeTheme ns entries)

end Registry
end TerminalMarkup
