import TerminalMarkup.Proofs.Theme.Preview

/-!
# Previews and live themes

A theme that is loaded under a namespace looks for the names that it refers to in the namespace first. There a name
gets the normal form of the namespace, if it is made of underscores, or one that starts with the key of the namespace
(`Name.normalize_qualify_cases`). So where the registry has no such key all of these lookups miss
(`Registry.Vacant.lookup_qualify`), and the theme gets the codes that it gets without a namespace
(`resolveTable_of_vacant`).
-/

namespace TerminalMarkup

/-! ## Names that references hold -/

/-- The name of a reference has no blanks. -/
theorem Token.trim_of_isName {name : Text} (h : isName name = true) : name.trim = name :=
  Text.trim_of_not_blank fun c hc =>
    isBlank_of_isCodeChar (isCodeChar_of_isNameChar ((isName_iff.1 h).2 c hc))

/-- A name in a namespace: of underscores, so that only the namespace is left of it, or with a part that stays. -/
theorem Name.normalize_qualify_cases {ns name : Text} (hns : normalize ns ≠ []) (h : Token.isName name = true) :
    normalize (qualify (some ns) name) = normalize ns ∨ namespaceKey ns <+: normalize (qualify (some ns) name) := by
  have hend : Text.dropEndWhile isBlank name = name := by
    have htrim : Text.dropEndWhile isBlank name.trim = name.trim := Text.dropEndWhile_strip name
    rwa [Token.trim_of_isName h] at htrim
  by_cases hname : Text.dropEndWhile isUnderscore name = []
  · exact .inl (normalize_qualify_of_underscores hns ((Token.isName_iff.1 h).1) hname hend)
  · refine .inr ?_
    rw [normalize_qualify_of_ne hns hname hend]
    exact List.prefix_append _ _

/-! ## Vacant namespaces -/

namespace Registry

/-- No name of the registry is the namespace, or in the namespace. -/
def Vacant (r : Registry) (ns : Text) : Prop :=
  ∀ k ∈ r.entries.keys, k ≠ Name.normalize ns ∧ ¬ Name.namespaceKey ns <+: k

instance (r : Registry) (ns : Text) : Decidable (r.Vacant ns) :=
  inferInstanceAs (Decidable (∀ k ∈ r.entries.keys, k ≠ Name.normalize ns ∧ ¬ Name.namespaceKey ns <+: k))

variable {r : Registry} {ns name : Text}

/-- **Lookups in a vacant namespace miss.** -/
theorem Vacant.lookup_qualify (h : r.Vacant ns) (hns : Name.normalize ns ≠ []) (hn : Token.isName name = true) :
    r.lookup (Name.qualify (some ns) name) = none := by
  cases hlookup : r.lookup (Name.qualify (some ns) name) with
  | none => rfl
  | some value =>
    obtain ⟨hne, hstart⟩ := h _ (Dictionary.mem_keys_of_get? hlookup)
    rcases Name.normalize_qualify_cases hns hn with hkey | hkey
    · exact absurd hkey hne
    · exact absurd hkey hstart

/-- A reference means the same in a vacant namespace as in none. -/
theorem Vacant.outside (h : r.Vacant ns) (hn : Token.isName name = true) :
    r.outside (some ns) name = r.outside none name := by
  have hor : (r.lookup (Name.qualify (some ns) name)).or (r.lookup name) = (r.lookup name).or (r.lookup name) := by
    rw [Option.or_self]
    by_cases hns : Name.normalize ns = []
    · rw [Name.qualify_of_eq hns, Option.or_self]
    · rw [h.lookup_qualify hns hn, Option.none_or]
  rw [Registry.outside, Registry.outside, Scope.fromRegistry_eq_registered?, Scope.fromRegistry_eq_registered?]
  exact congrArg (fun value => (value.map (r.composition maxDepth)).getD .empty) hor

end Registry

/-- **A preview shows what the live theme would be.** -/
theorem resolveTable_of_vacant {r : Registry} {ns : Text} (h : r.Vacant ns) (table : List (Text × Text))
    (d : Delimiters) : resolveTable table d r (some ns) = resolveTable table d r none := by
  refine resolveTable_congr fun name hm => h.outside ?_
  obtain ⟨k, raw, -, ht, -⟩ := Scope.mem_outsideNames.1 hm
  exact Token.isValid_of_mem_tagsOf ht

/-- A registry with a notice, and a table with references to it and to a name of underscores. -/
theorem resolveTable_of_vacant_notice :
    let r := Registry.ofEntries [("notice".toList, "green".toList), ("theme_title".toList, "red".toList)]
    let table := [("Title".toList, "{{_notice_}}{{|::B|}}{{____}}".toList), ("Base".toList, "{{_Theme_Title_}}".toList)]
    r.Vacant "Preview".toList ∧
      resolveTable table .canonical r (some "Preview".toList) = resolveTable table .canonical r none ∧
      (resolveTable table .canonical r none).toList
        = [("Base".toList, "green::B".toList), ("Title".toList, "green::B".toList)] := by
  intro r table
  have h : r.Vacant "Preview".toList := by decide +kernel
  exact ⟨h, resolveTable_of_vacant h table .canonical, by decide +kernel⟩

end TerminalMarkup
