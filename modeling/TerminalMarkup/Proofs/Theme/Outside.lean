import Mathlib.Data.List.Find
import TerminalMarkup.Proofs.Theme.Loading
import TerminalMarkup.Registry.Builtin

/-!
# What a live theme leaves alone

The keys of a live theme are registered under names that start with `theme_`, with one exception: where nothing is left
of a key but underscores (`Nameless`), these are taken for the end of the name, and go with the underscore behind
`theme`. So a live theme may write the name `theme` itself, which is also that of a built-in style. It writes no other
name outside `theme_`, and this one just when it has a nameless key (`loadTheme_live_iff`).
-/

namespace TerminalMarkup

/-- What is left of the name of a theme key without the key. -/
def bareThemeName : Text := "theme".toList

/-- The spelled key is made of underscores, if there is anything to it. -/
def Nameless (spelled : Text) : Prop := ∀ c ∈ spelled, c = '_'

instance (spelled : Text) : Decidable (Nameless spelled) := inferInstanceAs (Decidable (∀ c ∈ spelled, _))

/-- The code of the nameless keys of a live theme; of several the last one in order counts. -/
def namelessCode? (table : List (Text × Text)) (d : Delimiters) (r : Registry) : Option Text :=
  ((resolveTable table d r none).toList.reverse.find? fun e => Nameless e.1).map Prod.snd

/-- Loading the table as a live theme changes no entry outside `theme_`, and adds none. -/
def LeavesOthers (table : List (Text × Text)) (d : Delimiters) (r : Registry) : Prop :=
  ∀ k, ¬ themeKeyStart <+: k → (r.loadTheme table d none).2.entries.get? k = r.entries.get? k

/-! ## Names of nameless keys -/

theorem not_themeKeyStart_prefix_bareThemeName : ¬ themeKeyStart <+: bareThemeName := by decide

theorem nameless_iff {spelled : Text} : Nameless spelled ↔ Text.dropEndWhile Name.isUnderscore spelled = [] := by
  rw [Text.dropEndWhile_eq_nil_iff, Nameless]
  simp [Name.isUnderscore]

/-- **A key is registered under the bare name just when it is nameless**, and under a name in `theme_` otherwise. -/
theorem registeredKey_eq_bareThemeName_iff (key : Text) :
    registeredKey key = bareThemeName ↔ Nameless (spelledKey key) := by
  rw [registeredKey_eq, nameless_iff]
  split
  next hnil => exact iff_of_true rfl hnil
  next hne =>
    refine iff_of_false (fun h => not_themeKeyStart_prefix_bareThemeName ?_) hne
    rw [← h]
    exact List.prefix_append _ _

namespace Registry

variable {table : List (Text × Text)} {d : Delimiters} {r : Registry} {k : Text}

/-! ## What a live theme writes -/

theorem loadTheme_none_snd (r : Registry) (table : List (Text × Text)) (d : Delimiters) :
    (r.loadTheme table d none).2 = r.registerAll (r.loadTheme table d none).1.entries := rfl

/-- Outside `theme_` a live theme writes the bare name at most. -/
theorem get?_loadTheme_of_ne_bareThemeName (hk : ¬ themeKeyStart <+: k) (hne : k ≠ bareThemeName) :
    (r.loadTheme table d none).2.entries.get? k = r.entries.get? k := by
  rw [loadTheme_none_snd]
  refine get?_registerAll_of_forall_ne r fun e he hek => ?_
  obtain ⟨key, -, hname⟩ := normalize_of_mem_entries he
  rw [Name.keyStart_none, List.nil_append, hek] at hname
  rcases registeredKey_cases key with hbare | hstart
  · exact hne (hname.trans hbare)
  · exact hk (hname ▸ hstart)

/-- **A live theme gives the bare name the code of its nameless keys.** -/
theorem get?_loadTheme_bareThemeName (r : Registry) (table : List (Text × Text)) (d : Delimiters) :
    (r.loadTheme table d none).2.entries.get? bareThemeName
      = (namelessCode? table d r).or (r.entries.get? bareThemeName) := by
  have hentries : (r.loadTheme table d none).1.entries
      = (resolveTable table d r none).toList.map fun e => (themeName none e.1, e.2) := rfl
  have hfind : ((resolveTable table d r none).toList.reverse.find? fun e =>
      Name.normalize (themeName none e.1) = bareThemeName)
        = (resolveTable table d r none).toList.reverse.find? fun e => Nameless e.1 := by
    refine List.find?_congr fun e he => ?_
    obtain ⟨key, -, c, -, hspelled, -⟩ := of_mem_resolveTable (List.mem_reverse.1 he)
    rw [hspelled, decide_eq_decide, normalize_themeName, Name.keyStart_none, List.nil_append]
    exact registeredKey_eq_bareThemeName_iff key
  rw [loadTheme_none_snd, get?_registerAll r _ (by decide), hentries, ← List.map_reverse, List.find?_map,
    Option.map_map]
  simp only [Function.comp_def]
  rw [hfind, namelessCode?]
  cases hf : (resolveTable table d r none).toList.reverse.find? fun e => Nameless e.1 with
  | none => rfl
  | some e =>
    obtain ⟨key, -, c, hc, -, hcode⟩ := of_mem_resolveTable (List.mem_reverse.1 (List.mem_of_find?_eq_some hf))
    rw [Option.map_some, Option.map_some, hcode,
      normalizeValue_of_isCode (Resolver.made_resolveKey hc).canonical.isCode_code]

end Registry

/-! ## Nameless keys -/

variable {table : List (Text × Text)} {d : Delimiters} {r : Registry}

/-- The code of a nameless key is a style code. -/
theorem isCode_of_namelessCode? {code : Text} (h : namelessCode? table d r = some code) : Token.isCode code = true := by
  obtain ⟨e, he, rfl⟩ := Option.map_eq_some_iff.1 h
  obtain ⟨key, -, c, hc, -, hcode⟩ := of_mem_resolveTable (List.mem_reverse.1 (List.mem_of_find?_eq_some he))
  rw [hcode]
  exact (Resolver.made_resolveKey hc).canonical.isCode_code

theorem namelessCode?_eq_none_iff (table : List (Text × Text)) (d : Delimiters) (r : Registry) :
    namelessCode? table d r = none ↔ ∀ key ∈ table.map Prod.fst, ¬ Nameless (spelledKey key) := by
  rw [namelessCode?, Option.map_eq_none_iff, List.find?_eq_none]
  constructor
  · intro h key hkey hnameless
    obtain ⟨code, hmem⟩ := r.exists_mem_entries_loadTheme d none hkey
    obtain ⟨e, he, hpair⟩ := List.mem_map.1 hmem
    have hspelled : e.1 = spelledKey key := List.append_cancel_left (Prod.mk.inj hpair).1
    exact h e (List.mem_reverse.2 he) (by simpa [hspelled] using hnameless)
  · intro h e he
    obtain ⟨key, hkey, -, -, hspelled, -⟩ := of_mem_resolveTable (List.mem_reverse.1 he)
    simpa [hspelled] using h key hkey

/-- **A live theme leaves the other entries alone** just when the bare name already has the code of its nameless
keys. -/
theorem leavesOthers_iff (table : List (Text × Text)) (d : Delimiters) (r : Registry) :
    LeavesOthers table d r ↔
      ∀ code, namelessCode? table d r = some code → r.entries.get? bareThemeName = some code := by
  constructor
  · intro h code hcode
    have hbare := h bareThemeName not_themeKeyStart_prefix_bareThemeName
    rw [r.get?_loadTheme_bareThemeName, hcode, Option.some_or] at hbare
    exact hbare.symm
  · intro h k hk
    by_cases hbare : k = bareThemeName
    · rw [hbare, r.get?_loadTheme_bareThemeName]
      cases hcode : namelessCode? table d r with
      | none => exact Option.none_or
      | some code => rw [h code hcode, Option.or_self]
    · exact Registry.get?_loadTheme_of_ne_bareThemeName hk hbare

/-! ## Built-in styles -/

theorem not_themeKeyStart_prefix_of_mem_builtinEntries :
    ∀ e ∈ Registry.builtinEntries, ¬ themeKeyStart <+: Name.normalize e.1 := by decide +kernel

theorem normalize_bareThemeName : Name.normalize bareThemeName = bareThemeName := by decide

/-- The bare name has a built-in style. -/
theorem exists_builtin_bareThemeName : ∃ e ∈ Registry.builtinEntries, e.1 = bareThemeName := by decide +kernel

/-- The built-in style of the bare name is no style code. It is found from the end of the entries. -/
theorem lookup_builtin_bareThemeName : Registry.builtin.lookup bareThemeName = some "{{|-|}}{{|cyan|}}".toList := by
  rw [Registry.lookup, normalize_bareThemeName, Registry.builtin, Registry.ofEntries, Dictionary.ofList,
    Dictionary.get?_insertAll]
  decide +kernel

/-- The bare name after a live theme, as it is looked up. -/
theorem lookup_loadTheme_bareThemeName (r : Registry) (table : List (Text × Text)) (d : Delimiters) :
    (r.loadTheme table d none).2.lookup bareThemeName = (namelessCode? table d r).or (r.lookup bareThemeName) := by
  rw [Registry.lookup, Registry.lookup, normalize_bareThemeName]
  exact r.get?_loadTheme_bareThemeName table d

/-- **When a live theme touches theme entries only.** Whatever it holds, it changes nothing outside `theme_` but the
bare name, which gets the code of its nameless keys. So it leaves all entries outside `theme_` alone just when the bare
name has this code already or when there are no nameless keys; and it leaves the built-in styles alone just when there
are none. -/
theorem loadTheme_live_iff (table : List (Text × Text)) (d : Delimiters) :
    (∀ (r : Registry) k, ¬ themeKeyStart <+: k → k ≠ bareThemeName →
      (r.loadTheme table d none).2.entries.get? k = r.entries.get? k) ∧
    (∀ r, LeavesOthers table d r ↔
      ∀ code, namelessCode? table d r = some code → r.entries.get? bareThemeName = some code) ∧
    (∀ r, namelessCode? table d r = none ↔ ∀ key ∈ table.map Prod.fst, ¬ Nameless (spelledKey key)) ∧
    ((∀ e ∈ Registry.builtinEntries,
        (Registry.builtin.loadTheme table d none).2.lookup e.1 = Registry.builtin.lookup e.1) ↔
      ∀ key ∈ table.map Prod.fst, ¬ Nameless (spelledKey key)) := by
  refine ⟨fun r k hk hne => Registry.get?_loadTheme_of_ne_bareThemeName hk hne, leavesOthers_iff table d,
    namelessCode?_eq_none_iff table d, ?_⟩
  rw [← namelessCode?_eq_none_iff table d Registry.builtin]
  constructor
  · intro h
    obtain ⟨e, he, hbare⟩ := exists_builtin_bareThemeName
    have hkept := h e he
    rw [hbare, lookup_loadTheme_bareThemeName, lookup_builtin_bareThemeName] at hkept
    cases hcode : namelessCode? table d Registry.builtin with
    | none => rfl
    | some code =>
      have hisCode := isCode_of_namelessCode? hcode
      rw [hcode, Option.some_or, Option.some.injEq] at hkept
      rw [hkept] at hisCode
      exact absurd hisCode (by decide)
  · intro hnone e he
    have hleaves : LeavesOthers table d Registry.builtin :=
      (leavesOthers_iff table d _).2 fun code hcode => by rw [hnone] at hcode; cases hcode
    exact hleaves _ (not_themeKeyStart_prefix_of_mem_builtinEntries e he)

/-- **A key of an underscore replaces a built-in style**, and one without any characters adds an entry. -/
theorem not_leavesOthers_underscore :
    let theme := [("_".toList, Delimiters.canonical.wrapDirect "red".toList)]
    let blank := [([], Delimiters.canonical.wrapDirect "red".toList)]
    Registry.builtin.lookup "theme".toList = some "{{|-|}}{{|cyan|}}".toList ∧
      (Registry.builtin.loadTheme theme .canonical none).2.lookup "theme".toList = some "red::".toList ∧
      Registry.empty.contains "theme".toList = false ∧
      (Registry.empty.loadTheme blank .canonical none).2.contains "theme".toList = true := by
  intro theme blank
  have hcode : namelessCode? theme .canonical Registry.builtin = some "red::".toList := by decide +kernel
  refine ⟨lookup_builtin_bareThemeName, ?_, by decide, by decide +kernel⟩
  have hloaded := lookup_loadTheme_bareThemeName Registry.builtin theme .canonical
  rwa [hcode] at hloaded

end TerminalMarkup
