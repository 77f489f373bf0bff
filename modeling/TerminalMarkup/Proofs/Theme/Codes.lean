import TerminalMarkup.Proofs.Theme.Loading

/-!
# The codes of a theme

A theme table is resolved by laying codes over each other that come from the table and from the registry. What comes out
is a composition of style codes, whatever the registry holds, and therefore

* its code is a style code of three fields (`Composition.Canonical.count_code`), which says all there is to the
  composition (`Composition.Canonical.overlay_code`);
* it passes through the registry: it is stored as it is, and a reference to it is replaced by this code alone
  (`Registry.lookup_register_of_isCode`, `Registry.segments_register`).
-/

namespace TerminalMarkup

namespace Composition

/-- The fields of a canonical composition stand between two colons. -/
theorem Canonical.count_code {c : Composition} (h : c.Canonical) : c.code.count ':' = 2 := by
  have hforeground : c.foreground.count ':' = 0 := List.count_eq_zero.2 h.foreground.isField.not_mem
  have hbackground : c.background.count ':' = 0 := List.count_eq_zero.2 h.background.isField.not_mem
  have hflags : c.flags.count ':' = 0 := List.count_eq_zero.2 h.flags.isField.not_mem
  rw [code_eq, List.count_append, List.count_cons_self, List.count_append, List.count_cons_self, hforeground,
    hbackground, hflags]

/-- The code of a canonical composition gives it back. -/
theorem Canonical.overlay_code {c : Composition} (h : c.Canonical) : Composition.empty.overlay c.code = c :=
  h.empty_merge

end Composition

namespace Registry

variable {name code : Text}

/-- A style code is found under the name that it has been registered for. -/
theorem lookup_register_of_isCode (r : Registry) (hname : Name.normalize name ≠ []) (hcode : Token.isCode code = true) :
    (r.register name code).lookup name = some code := by
  rw [r.lookup_register hname, normalizeValue_of_isCode hcode]

/-- A name that stands for a style code is replaced by this code. -/
theorem codes_of_lookup {r : Registry} (h : r.lookup name = some code) (hcode : Token.isCode code = true)
    (depth : Nat) : r.codes (depth + 1) name = [code] := by
  rw [codes_succ, h, Option.map_some, Option.getD_some, valueCodes, tagsOf_of_isCode hcode, List.flatMap_singleton,
    tagCodes]

/-- A reference to a registered style code is replaced by this code. -/
theorem segments_register (r : Registry) (hname : Name.normalize name ≠ []) (hcode : Token.isCode code = true) :
    Token.segments (r.register name code) (.semantic name) = [.direct code] := by
  rw [Token.segments, maxDepth, codes_of_lookup (r.lookup_register_of_isCode hname hcode) hcode, List.map_singleton]

end Registry

/-- **The codes of a theme stand for themselves.** Whatever the registry and the table hold, a code that the table
resolves to is a style code of three fields, composes to itself, is stored as it is under any name, and is what a
reference to the name is replaced by. -/
theorem code_resolveTable {table : List (Text × Text)} {d : Delimiters} {r : Registry} {ns : Option Text}
    {key code : Text} (h : (key, code) ∈ (resolveTable table d r ns).toList) :
    Token.isCode code = true ∧ code.count ':' = 2 ∧ (Composition.empty.overlay code).code = code ∧
      ∀ (s : Registry) (name : Text), Name.normalize name ≠ [] →
        (s.register name code).lookup name = some code ∧
        Token.segments (s.register name code) (.semantic name) = [.direct code] := by
  obtain ⟨_, -, c, hc, -, rfl⟩ := of_mem_resolveTable h
  have hcanonical := (Resolver.made_resolveKey hc).canonical
  have hcode := hcanonical.isCode_code
  refine ⟨hcode, hcanonical.count_code, congrArg Composition.code hcanonical.overlay_code, fun s name hname => ?_⟩
  exact ⟨s.lookup_register_of_isCode hname hcode, s.segments_register hname hcode⟩

/-- A cycle, flags with an inner dash and values of the registry, under a name that no reference can hold. -/
theorem code_resolveTable_cycle :
    let r := Registry.ofEntries [("notice".toList, "{{|:green:U-|}}{{|::u|}}".toList),
      ("loop".toList, "{{_loop_}}{{|::I|}}junk".toList)]
    let table := [("Title".toList, "{{_Theme_Base_}}{{|::-b|}}{{_gone_}}".toList),
      (" base ".toList, "{{|red::B-b|}}{{_notice_}}{{_Theme_Title_}}{{_loop_}}".toList)]
    let name := " _Röt Ä_ ".toList
    let code := "red:green:-bI".toList
    ("base".toList, code) ∈ (resolveTable table .canonical r none).toList ∧ Name.normalize name ≠ [] ∧
      (Composition.empty.overlay code).code = code ∧ (r.register name code).lookup "RÖT ä".toList = some code ∧
      Token.segments (r.register name code) (.semantic "RÖT ä".toList) = [.direct code] := by
  intro r table name code
  have hmem : ("base".toList, code) ∈ (resolveTable table .canonical r none).toList := by decide +kernel
  have hname : Name.normalize name ≠ [] := by decide +kernel
  have hsame : Name.normalize "RÖT ä".toList = Name.normalize name := by decide +kernel
  obtain ⟨-, -, hself, hregister⟩ := code_resolveTable hmem
  obtain ⟨hlookup, -⟩ := hregister r name hname
  refine ⟨hmem, hname, hself, ?_, by decide +kernel⟩
  rwa [Registry.lookup, hsame]

end TerminalMarkup
