import TerminalMarkup.Proofs.Theme.Loading

/-!
# The identity of theme keys

A key of a theme table is named in three ways: references inside the table mean its `themeKey`, it is registered under
the name of its spelling, and a reference looks up a name of its own. Loading is *faithful* to a key when all three
lead to the code that the key resolves to (`FaithfulTo`).

The table is loaded faithfully to all its keys, whatever their values, just when its keys have one identity
(`faithfulTo_iff_oneIdentity`): two keys that are registered under one name are one key of the table, and every key that
a reference can mean is registered, in one of its spellings, under the name that the reference looks up. Keys
without an underscore in front, and of more than underscores, have one identity (`oneIdentity_of_head?_ne`).
-/

namespace TerminalMarkup

/-- The code that a key resolves to is registered as its code, and under every name of a reference that means it. -/
def FaithfulTo (table : List (Text × Text)) (d : Delimiters) (r : Registry) (key : Text) : Prop :=
  ∃ c, ((Resolver.new (.ofTable table d r none)).resolveKey key).1 = some c ∧
    (r.loadTheme table d none).1.code key = some c.code ∧
    ∀ name raw, Token.isName name = true → (Scope.ofTable table d r none).target? name = some (themeKey key, raw) →
      (r.loadTheme table d none).2.lookup name = some c.code

/-- The keys have one identity, inside a table and in the registry. -/
structure OneIdentity (keys : List Text) : Prop where
  /-- Keys that are registered under one name are one key of the table. -/
  apart : ∀ k ∈ keys, ∀ l ∈ keys, registeredKey k = registeredKey l → themeKey k = themeKey l
  /-- A key that references can mean is also registered under the name that they look up. -/
  plain : ∀ k ∈ keys, ∀ name, Token.isName name = true → isThemeReference name = true → themeKey name = themeKey k →
    ∃ l ∈ keys, Plain l ∧ themeKey l = themeKey k

/-- Keys that are spelled without an underscore in front, and of more than underscores, have one identity. -/
theorem oneIdentity_of_head?_ne {keys : List Text}
    (h : ∀ k ∈ keys, k.trim.head? ≠ some '_' ∧ Text.dropEndWhile Name.isUnderscore (spelledKey k) ≠ []) :
    OneIdentity keys := by
  have hplain (k : Text) (hk : k ∈ keys) : Plain k := (plain_iff k).2 (h k hk)
  refine ⟨fun k hk l hl he => ?_, fun k hk _ _ _ _ => ⟨k, hk, hplain k hk, rfl⟩⟩
  rw [hplain k hk, hplain l hl] at he
  exact List.append_cancel_left he

example : OneIdentity ["Title".toList, " theme_Border ".toList, "Theme_Theme_Title".toList, "Panel_".toList] :=
  oneIdentity_of_head?_ne (by decide +kernel)

section Loading

variable {table : List (Text × Text)} {d : Delimiters} {r : Registry}

/-- The codes of keys that are registered under one name are one code. -/
theorem LoadedTheme.code_congr {t : LoadedTheme} {k l : Text} (ht : t.ns = none)
    (h : registeredKey k = registeredKey l) : t.code k = t.code l := by
  rw [registeredKey, registeredKey] at h
  rw [code, code, ht, h]

/-! ## One identity suffices -/

/-- An entry that is registered under the name of a key has the code of the key. -/
theorem OneIdentity.code_eq (h : OneIdentity (table.map Prod.fst)) {key : Text} (hk : key ∈ table.map Prod.fst)
    {c : Composition} (hc : ((Resolver.new (.ofTable table d r none)).resolveKey key).1 = some c) {e : Text × Text}
    (he : e ∈ (r.loadTheme table d none).1.entries) (hname : Name.normalize e.1 = registeredKey key) :
    e.2 = c.code := by
  obtain ⟨l, hl, c', hc', rfl⟩ := Registry.of_mem_entries_loadTheme he
  rw [Resolver.resolveKey_congr _ (h.apart l hl key hk hname), hc] at hc'
  cases hc'
  rfl

/-- What the registry has after loading is the code of a key with that registered name, or has been there before. -/
theorem Registry.of_get?_loadTheme {k v : Text} (hk : k ≠ [])
    (h : (r.loadTheme table d none).2.entries.get? k = some v) :
    (∃ key ∈ table.map Prod.fst, ∃ c, ((Resolver.new (.ofTable table d r none)).resolveKey key).1 = some c ∧
      registeredKey key = k ∧ v = c.code) ∨ r.entries.get? k = some v := by
  have hget := (r.get?_registerAll (r.loadTheme table d none).1.entries hk).symm.trans h
  rcases Option.or_eq_some_iff.1 hget with hwritten | ⟨-, hbefore⟩
  · obtain ⟨e, hf, rfl⟩ := Option.map_eq_some_iff.1 hwritten
    obtain ⟨key, hkey, c, hc, rfl⟩ := of_mem_entries_loadTheme (List.mem_reverse.1 (List.mem_of_find?_eq_some hf))
    have hstored := normalizeValue_of_isCode (Resolver.made_resolveKey hc).canonical.isCode_code
    exact .inl ⟨key, hkey, c, hc, by simpa [registeredKey] using List.find?_some hf, hstored⟩
  · exact .inr hbefore

/-- The registry has the code of a key under its registered name. -/
theorem OneIdentity.get?_eq (h : OneIdentity (table.map Prod.fst)) {key : Text} (hk : key ∈ table.map Prod.fst)
    {c : Composition} (hc : ((Resolver.new (.ofTable table d r none)).resolveKey key).1 = some c) :
    (r.loadTheme table d none).2.entries.get? (registeredKey key) = some c.code := by
  obtain ⟨l, hl, c', hc', hname, hget⟩ := r.exists_get?_loadTheme d none hk
  rw [Resolver.resolveKey_congr _ (h.apart l hl key hk hname), hc] at hc'
  cases hc'
  rwa [Name.keyStart_none, List.nil_append] at hget

/-- The loaded theme has the code of a key. -/
theorem OneIdentity.code_loadTheme (h : OneIdentity (table.map Prod.fst)) {key : Text} (hk : key ∈ table.map Prod.fst)
    {c : Composition} (hc : ((Resolver.new (.ofTable table d r none)).resolveKey key).1 = some c) :
    (r.loadTheme table d none).1.code key = some c.code := by
  obtain ⟨code, he⟩ := r.exists_mem_entries_loadTheme d none hk
  show ((r.loadTheme table d none).1.entries.find? fun e => Name.normalize e.1 = registeredKey key).map Prod.snd = _
  cases hf : (r.loadTheme table d none).1.entries.find? fun e => Name.normalize e.1 = registeredKey key with
  | none => exact absurd (List.find?_eq_none.1 hf _ he) (by simp [registeredKey])
  | some e =>
    exact congrArg some (h.code_eq hk hc (List.mem_of_find?_eq_some hf) (by simpa using List.find?_some hf))

/-- **A table whose keys have one identity is loaded faithfully.** -/
theorem OneIdentity.faithfulTo (h : OneIdentity (table.map Prod.fst)) {key : Text} (hk : key ∈ table.map Prod.fst) :
    FaithfulTo table d r key := by
  obtain ⟨c, hc⟩ := Scope.exists_resolveKey_ofTable d r none hk
  refine ⟨c, hc, h.code_loadTheme hk hc, fun name raw hn ht => ?_⟩
  obtain ⟨href, hname, -⟩ := Scope.of_target? ht
  obtain ⟨l, hl, hplain, hlk⟩ := h.plain key hk name hn href hname
  -- the reference looks up the registered name of a plain key that the table does not tell apart from this one
  have hc' : ((Resolver.new (.ofTable table d r none)).resolveKey l).1 = some c := by
    rw [Resolver.resolveKey_congr _ hlk, hc]
  have hlookup : Name.normalize name = registeredKey l := by
    rw [normalize_of_isThemeReference href, hname, ← hlk, hplain]
  rw [Registry.lookup, hlookup]
  exact h.get?_eq hl hc'

end Loading

/-! ## One identity is necessary -/

/-- The color of a key where one key of the table is red and all others are blue. -/
def paintOf (one key : Text) : Text := if themeKey key = one then "red".toList else "blue".toList

/-- The table that gives its keys their colors. -/
def paint (keys : List Text) (one : Text) : List (Text × Text) := keys.map fun key => (key, paintOf one key)

theorem map_fst_paint (keys : List Text) (one : Text) : (paint keys one).map Prod.fst = keys := by
  rw [paint, List.map_map]
  exact List.map_id keys

theorem tagsOf_paintOf (one key : Text) : tagsOf .canonical (paintOf one key) = [.direct (paintOf one key)] := by
  unfold paintOf
  split
  · decide
  · decide

theorem resolveKey_paint {keys : List Text} {key : Text} (hk : key ∈ keys) (one : Text) (r : Registry)
    (ns : Option Text) :
    ((Resolver.new (.ofTable (paint keys one) .canonical r ns)).resolveKey key).1
      = some (Composition.empty.overlay (paintOf one key)) := by
  obtain ⟨raw, hg⟩ := Scope.exists_get?_ofTable .canonical r ns ((map_fst_paint keys one).symm ▸ hk)
  obtain ⟨key', hname, hm⟩ := Scope.mem_of_get?_ofTable hg
  obtain ⟨key'', -, he⟩ := List.mem_map.1 hm
  cases he
  have hpaint : paintOf one key' = paintOf one key := by rw [paintOf, paintOf, hname]
  rw [hpaint] at hg
  exact Resolver.resolveKey_of_direct hg (tagsOf_paintOf one key)

/-- A key whose color is that of the red key is the red key. -/
theorem themeKey_eq_of_code_paintOf {one key : Text}
    (h : (Composition.empty.overlay (paintOf one key)).code = (Composition.empty.overlay "red".toList).code) :
    themeKey key = one := by
  by_contra hne
  rw [paintOf, if_neg hne] at h
  exact absurd h (by decide)

/-- The colored table is loaded with the color of the key. -/
theorem FaithfulTo.of_paint {keys : List Text} {one key : Text} (hk : key ∈ keys)
    (h : FaithfulTo (paint keys one) .canonical .empty key) :
    (Registry.empty.loadTheme (paint keys one) .canonical none).1.code key
        = some (Composition.empty.overlay (paintOf one key)).code ∧
      ∀ name, Token.isName name = true → isThemeReference name = true → themeKey name = themeKey key →
        (Registry.empty.loadTheme (paint keys one) .canonical none).2.lookup name
          = some (Composition.empty.overlay (paintOf one key)).code := by
  obtain ⟨c, hc, hcode, hlookup⟩ := h
  rw [resolveKey_paint hk] at hc
  obtain rfl := Option.some.inj hc
  refine ⟨hcode, fun name hn href hname => ?_⟩
  obtain ⟨raw, hg⟩ := Scope.exists_get?_ofTable .canonical .empty none ((map_fst_paint keys one).symm ▸ hk)
  refine hlookup name raw hn ?_
  rw [Scope.target?, if_pos href, hname, hg]
  rfl

/-- A reference that finds the red of a key has found a plain key that the table does not tell apart from it. -/
theorem exists_plain_of_lookup {keys : List Text} {key name : Text} (href : isThemeReference name = true)
    (hname : themeKey name = themeKey key)
    (h : (Registry.empty.loadTheme (paint keys (themeKey key)) .canonical none).2.lookup name
      = some (Composition.empty.overlay "red".toList).code) : ∃ l ∈ keys, Plain l ∧ themeKey l = themeKey key := by
  have hnormal := normalize_of_isThemeReference href
  have hne : Name.normalize name ≠ [] := by
    rw [hnormal]
    exact List.append_ne_nil_of_left_ne_nil (by decide) _
  -- the registry was empty, so what it has now is the code of a key that is registered under this name
  rcases Registry.of_get?_loadTheme hne h with ⟨l, hl, c, hc, hregistered, hcode⟩ | hbefore
  · rw [map_fst_paint] at hl
    rw [resolveKey_paint hl, Option.some.injEq] at hc
    rw [← hc] at hcode
    have hlk := themeKey_eq_of_code_paintOf hcode.symm
    refine ⟨l, hl, ?_, hlk⟩
    rw [Plain, hregistered, hnormal, hname, hlk]
  · cases hbefore

/-- **The tables with these keys are loaded faithfully just when the keys have one identity.** They have it if none of
them has an underscore in front, or nothing but underscores behind the start that theme names share. -/
theorem faithfulTo_iff_oneIdentity (keys : List Text) :
    ((∀ table d r, table.map Prod.fst = keys → ∀ key ∈ keys, FaithfulTo table d r key) ↔ OneIdentity keys) ∧
    ((∀ k ∈ keys, k.trim.head? ≠ some '_' ∧ Text.dropEndWhile Name.isUnderscore (spelledKey k) ≠ []) →
      OneIdentity keys) := by
  refine ⟨⟨?_, ?_⟩, oneIdentity_of_head?_ne⟩
  · intro h
    have hpaint (one : Text) {key : Text} (hk : key ∈ keys) :=
      (h (paint keys one) .canonical .empty (map_fst_paint keys one) key hk).of_paint hk
    have hred (key : Text) : paintOf (themeKey key) key = "red".toList := if_pos rfl
    refine ⟨fun k hk l hl he => ?_, fun k hk name hn href hname => ?_⟩
    · -- the theme has one code for both keys, and so both are red
      have hsame := LoadedTheme.code_congr (t := (Registry.empty.loadTheme (paint keys (themeKey k)) .canonical none).1)
        rfl he
      rw [(hpaint (themeKey k) hk).1, (hpaint (themeKey k) hl).1, hred, Option.some.injEq] at hsame
      exact (themeKey_eq_of_code_paintOf hsame.symm).symm
    · have hlookup := (hpaint (themeKey k) hk).2 name hn href hname
      rw [hred] at hlookup
      exact exists_plain_of_lookup href hname hlookup
  · rintro h table d r rfl key hk
    exact h.faithfulTo hk

/-- A key with an underscore in front. -/
def underscored : List (Text × Text) := [("_Title".toList, "red".toList)]

/-- Two keys that are registered under one name. -/
def clashing : List (Text × Text) := [("_Title".toList, "red".toList), ("Theme__Title".toList, "blue".toList)]

/-- **Keys with an underscore in front** are not found under the names of references, and make way for others. -/
theorem not_faithfulTo_underscored :
    (¬ FaithfulTo underscored .canonical .empty "_Title".toList ∧
      (Registry.empty.loadTheme underscored .canonical none).2.lookup "Theme_Title".toList = none) ∧
    ¬ FaithfulTo clashing .canonical .empty "_Title".toList ∧
      (Registry.empty.loadTheme clashing .canonical none).1.code "_Title".toList = some "blue::".toList := by
  have hmissing : (Registry.empty.loadTheme underscored .canonical none).2.lookup "Theme_Title".toList = none := by
    decide +kernel
  have hblue : (Registry.empty.loadTheme clashing .canonical none).1.code "_Title".toList = some "blue::".toList := by
    decide +kernel
  refine ⟨⟨?_, hmissing⟩, ?_, hblue⟩
  · rintro ⟨c, -, -, hlookup⟩
    have htarget : (Scope.ofTable underscored .canonical .empty none).target? "Theme_Title".toList
        = some (themeKey "_Title".toList, "red".toList) := by decide +kernel
    cases hmissing.symm.trans (hlookup _ _ (by decide) htarget)
  · rintro ⟨c, hc, hcode, -⟩
    have hred : ((Resolver.new (.ofTable clashing .canonical .empty none)).resolveKey "_Title".toList).1
        = some ⟨"red".toList, [], []⟩ := by decide +kernel
    cases hred.symm.trans hc
    exact absurd (hblue.symm.trans hcode) (by decide)

end TerminalMarkup
