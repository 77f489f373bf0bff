import TerminalMarkup.Composition
import TerminalMarkup.Segment

/-!
# Theme tables

A theme table gives keys style values, which may refer to each other: `Theme_Key` is the value of `Key` in the same
table, and every other name, or a key that the table lacks, is looked up in the registry, first in the namespace of the
theme. A value is resolved by laying its codes and references over each other from left to right.

A reference to a key whose value is being resolved contributes nothing: it is *cut*. A result that no cut has touched is
*settled*: it does not depend on where resolution has started, and is kept. A result that a cut has touched is kept only
until the resolution that it belongs to ends.

* `Scope.entry` resolves a key of the table, `Scope.compose` a value,
* `Resolver.resolveKey` and `Resolver.resolveValue` are complete resolutions, which keep the settled results.
-/

namespace TerminalMarkup

/-! ## Keys -/

/-- The normalized start of a reference into the theme table. -/
def themeKeyStart : Text := "theme_".toList

/-- The form in which theme keys are compared: normalized, without the start of a reference. -/
def themeKey (name : Text) : Text :=
  match Text.after? themeKeyStart (Name.normalize name) with
  | some (c :: cs) => c :: cs
  | _ => Name.normalize name

/-- A name refers into the theme table. -/
def isThemeReference (name : Text) : Bool := Text.startsWith themeKeyStart (Name.normalize name)

/-! ## Values of the registry -/

/-- The composition of a stored value, whose references are followed through `levels` further values. -/
def Registry.composition (r : Registry) : Nat → Text → Composition
  | 0, value => (tagsOf .canonical value).foldl (fun c t =>
      match t with
      | .direct code => c.overlay code
      | _ => c) .empty
  | levels + 1, value => (tagsOf .canonical value).foldl (fun c t =>
      match t with
      | .direct code => c.overlay code
      | .semantic name => ((r.lookup name).map fun inner => c.merge (r.composition levels inner)).getD c
      | .text _ => c) .empty

/-! ## Resolution -/

/-- What a resolution reads. -/
structure Scope where
  /-- The values of the theme by the compared form of their keys. -/
  table : Dictionary Text
  delimiters : Delimiters
  registry : Registry
  ns : Option Text

namespace Scope

/-- The scope of a theme table; of two entries for one key the last counts. -/
def ofTable (table : List (Text × Text)) (d : Delimiters) (r : Registry) (ns : Option Text) : Scope :=
  ⟨.ofList (table.map fun (k, v) => (themeKey k, v)), d, r, ns⟩

/-- The names under which a reference is looked up in the registry. -/
def candidates (sc : Scope) (name : Text) : List Text :=
  let qualified := Name.qualify sc.ns name
  if qualified = name then [name] else [qualified, name]

/-- What the registry has for a reference. -/
def fromRegistry (sc : Scope) (name : Text) : Composition :=
  match (sc.candidates name).findSome? sc.registry.lookup with
  | some value => sc.registry.composition maxDepth value
  | none => .empty

end Scope

/-- What a value or a reference contributes, and whether a cycle has been cut on the way. -/
structure Resolution where
  composition : Composition
  cut : Bool
  deriving DecidableEq, Repr

/-- The results so far. -/
structure Progress where
  /-- Results that hold wherever a resolution starts. -/
  settled : Dictionary Composition
  /-- Results of this resolution that a cycle has cut short. -/
  finished : Dictionary Composition
  /-- Keys whose values are being resolved. -/
  visiting : List Text
  deriving DecidableEq

namespace Scope

/-- Resolves a reference, where `entry` resolves a key of the table with its value. -/
def reference (sc : Scope) (entry : Text → Text → Progress → Resolution × Progress) (name : Text) (p : Progress) :
    Resolution × Progress :=
  let key := themeKey name
  if isThemeReference name then
    if key ∈ p.visiting then (⟨.empty, true⟩, p)
    else
      match sc.table.get? key with
      | some raw => entry key raw p
      | none => (⟨sc.fromRegistry name, false⟩, p)
  else (⟨sc.fromRegistry name, false⟩, p)

/-- Lays a tag over what has been composed so far. -/
def composeTag (sc : Scope) (entry : Text → Text → Progress → Resolution × Progress) :
    Resolution × Progress → Token → Resolution × Progress
  | (res, p), .direct code => (⟨res.composition.overlay code, res.cut⟩, p)
  | (res, p), .semantic name =>
    let (found, p) := sc.reference entry name p
    (⟨res.composition.merge found.composition, res.cut || found.cut⟩, p)
  | (res, p), .text _ => (res, p)

/-- Resolves a value. -/
def compose (sc : Scope) (entry : Text → Text → Progress → Resolution × Progress) (raw : Text) (p : Progress) :
    Resolution × Progress :=
  (tagsOf sc.delimiters raw).foldl (sc.composeTag entry) (⟨.empty, false⟩, p)

/-- Resolves a key of the table with its value; values nest at most `depth` deep. -/
def entry (sc : Scope) : Nat → Text → Text → Progress → Resolution × Progress
  | 0, _, _, p => (⟨.empty, true⟩, p)
  | depth + 1, key, raw, p =>
    match p.settled.get? key, p.finished.get? key with
    | some c, _ => (⟨c, false⟩, p)
    | none, some c => (⟨c, true⟩, p)
    | none, none =>
      let (res, p) := sc.compose (sc.entry depth) raw { p with visiting := key :: p.visiting }
      let p := { p with visiting := p.visiting.erase key }
      if res.cut then (res, { p with finished := p.finished.insert key res.composition })
      else (res, { p with settled := p.settled.insert key res.composition })

/-- The depth to which values nest: at most as deep as there are keys. -/
def depth (sc : Scope) : Nat := sc.table.size

end Scope

/-- A scope with the settled results of earlier resolutions. -/
structure Resolver where
  scope : Scope
  settled : Dictionary Composition

namespace Resolver

/-- A resolver without results. -/
def new (sc : Scope) : Resolver := ⟨sc, .empty⟩

/-- The start of a resolution. -/
def start (r : Resolver) : Progress := ⟨r.settled, .empty, []⟩

/-- The composition of a key, if the table has the key. -/
def resolveKey (r : Resolver) (key : Text) : Option Composition × Resolver :=
  match r.scope.table.get? (themeKey key) with
  | none => (none, r)
  | some raw =>
    let (res, p) := r.scope.entry r.scope.depth (themeKey key) raw r.start
    (some res.composition, { r with settled := p.settled })

/-- The composition of a value that is not in the table. -/
def resolveValue (r : Resolver) (raw : Text) : Composition × Resolver :=
  let (res, p) := r.scope.compose (r.scope.entry r.scope.depth) raw r.start
  (res.composition, { r with settled := p.settled })

end Resolver
end TerminalMarkup
