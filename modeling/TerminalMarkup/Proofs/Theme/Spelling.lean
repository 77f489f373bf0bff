import TerminalMarkup.Proofs.Theme.Identity
import TerminalMarkup.Theme.File

/-!
# Several spellings of one key in a theme file

The colors of a theme file are kept by the spelling of their keys, in order of the spellings. Of several spellings of
one key the greatest therefore counts, with its last value (`ThemeFile.get?_scope_iff`), wherever it stands in the file.

The last entry of every key counts, whatever the values, just when the last spelling of a key is also its greatest and
no two keys are left with one spelling (`ThemeFile.lastWins_iff`).
-/

namespace TerminalMarkup

namespace ThemeFile

variable {f : ThemeFile} {entries : List (Text × Text)} {r : Registry} {ns : Option Text}

/-! ## The entries of a file -/

/-- The file with these texts as its colors, in the order in which they stand there. -/
def withColors (f : ThemeFile) (entries : List (Text × Text)) : ThemeFile :=
  { f with colors := colorTable (entries.map fun e => (.string e.1, .string e.2)) }

/-- The scope in which the colors of a file are resolved. -/
def scope (f : ThemeFile) (r : Registry) (ns : Option Text) : Scope := .ofTable f.colors.toList f.delimiters r ns

theorem colors_withColors (f : ThemeFile) (entries : List (Text × Text)) :
    (f.withColors entries).colors = .ofList entries := by
  show Dictionary.ofList (List.filterMap _ (entries.map _)) = _
  rw [List.filterMap_map]
  exact congrArg _ (List.filterMap_some)

theorem mem_keys_colors {key : Text} :
    key ∈ (f.withColors entries).colors.toList.map Prod.fst ↔ key ∈ entries.map Prod.fst := by
  rw [colors_withColors]
  constructor
  · intro h
    obtain ⟨e, he, rfl⟩ := List.mem_map.1 h
    exact List.mem_map_of_mem (Dictionary.mem_of_get?_ofList (Dictionary.mem_toList_iff.1 he))
  · intro h
    obtain ⟨e, he, rfl⟩ := List.mem_map.1 h
    obtain ⟨v, hv⟩ := Dictionary.exists_get?_ofList he
    exact List.mem_map.2 ⟨(e.1, v), Dictionary.mem_toList_iff.2 hv, rfl⟩

/-! ## What counts -/

/-- The entry that counts for a key of the theme: of its greatest spelling, the last. -/
structure Counts (entries : List (Text × Text)) (k : Text) (e : Text × Text) : Prop where
  key : themeKey e.1 = k
  greatest : ∀ e' ∈ entries, themeKey e'.1 = k → ¬ e.1 < e'.1
  last : ∃ pre post, entries = pre ++ e :: post ∧ ∀ e' ∈ post, e'.1 ≠ e.1

theorem Counts.mem {k : Text} {e : Text × Text} (h : Counts entries k e) : e ∈ entries := by
  obtain ⟨pre, post, rfl, -⟩ := h.last
  exact List.mem_append_right _ List.mem_cons_self

/-- **Of the spellings of a key the greatest counts**, with its last value. -/
theorem get?_scope_iff {k v : Text} :
    ((f.withColors entries).scope r ns).table.get? k = some v ↔ ∃ g, Counts entries k (g, v) := by
  have htable : ((f.withColors entries).scope r ns).table
      = .ofList ((Dictionary.ofList entries).toList.map fun e => (themeKey e.1, e.2)) := by
    rw [← colors_withColors f entries]
    rfl
  have hcontains (g : Text) : (Dictionary.ofList entries).contains g = true ↔ g ∈ entries.map Prod.fst := by
    rw [← Dictionary.mem_keys_iff, Dictionary.keys, ← colors_withColors f entries, mem_keys_colors]
  rw [htable, Dictionary.get?_ofList_map_toList]
  refine exists_congr fun g => ?_
  simp only [hcontains, List.mem_map, forall_exists_index, and_imp]
  constructor
  · rintro ⟨hg, hk, hgreatest⟩
    refine ⟨hk, fun e he hke => hgreatest e.1 e he rfl hke, Dictionary.get?_ofList_eq_some_iff.1 hg⟩
  · rintro ⟨hk, hgreatest, hlast⟩
    refine ⟨Dictionary.get?_ofList_eq_some_iff.2 hlast, hk, ?_⟩
    rintro _ e he rfl hke
    exact hgreatest e he hke

/-- What the file gives for a key is the code of a key that is left with the same spelling. -/
theorem exists_get?_resolve (f : ThemeFile) (r : Registry) (ns : Option Text) {key : Text}
    (h : key ∈ entries.map Prod.fst) :
    ∃ l ∈ entries.map Prod.fst, spelledKey l = spelledKey key ∧
      ∃ c, ((Resolver.new ((f.withColors entries).scope r ns)).resolveKey l).1 = some c ∧
        ((f.withColors entries).resolve r ns).get? (spelledKey key) = some c.code := by
  have hkey := (mem_keys_colors (f := f)).2 h
  obtain ⟨c, hc⟩ := Scope.exists_resolveKey_ofTable f.delimiters r ns hkey
  have hanswer := List.mem_filterMap.2 ⟨key, hkey, Scope.answer?_eq_some.2 ⟨c, hc, rfl⟩⟩
  obtain ⟨code, hcode⟩ := Dictionary.exists_get?_ofList hanswer
  rw [← resolveTable_eq] at hcode
  obtain ⟨l, hl, c', hc', hspelled, rfl⟩ := of_mem_resolveTable (Dictionary.mem_toList_iff.2 hcode)
  exact ⟨l, mem_keys_colors.1 hl, hspelled.symm, c', hc', hcode⟩

/-! ## The last entry -/

/-- For every key of the file the code is that of its last entry, where the last entry of every key counts. -/
def LastWins (f : ThemeFile) (entries : List (Text × Text)) (r : Registry) (ns : Option Text) : Prop :=
  ∀ key ∈ entries.map Prod.fst,
    ((f.withColors entries).resolve r ns).get? (spelledKey key)
      = ((Resolver.new (.ofTable entries f.delimiters r ns)).resolveKey key).1.map Composition.code

/-- A theme file with these keys keeps the last entry of every key. -/
structure KeepsLast (keys : List Text) : Prop where
  /-- The last spelling of a key is also its greatest. -/
  greatest : ∀ pre l post, keys = pre ++ l :: post → (∀ m ∈ post, themeKey m ≠ themeKey l) →
    ∀ m ∈ pre, themeKey m = themeKey l → ¬ l < m
  /-- Keys that are left with one spelling are one key. -/
  apart : ∀ k ∈ keys, ∀ l ∈ keys, spelledKey k = spelledKey l → themeKey k = themeKey l

theorem get?_ofTable_eq_some_iff {d : Delimiters} {k v : Text} :
    (Scope.ofTable entries d r ns).table.get? k = some v ↔
      ∃ pre g post, entries = pre ++ (g, v) :: post ∧ themeKey g = k ∧ ∀ e ∈ post, themeKey e.1 ≠ k :=
  Dictionary.get?_ofList_map_eq_some_iff themeKey

/-- An entry that is the last of its key counts if its spelling is the greatest. -/
theorem KeepsLast.counts {pre post : List (Text × Text)} {g v : Text}
    (h : KeepsLast ((pre ++ (g, v) :: post).map Prod.fst)) (hpost : ∀ e ∈ post, themeKey e.1 ≠ themeKey g) :
    Counts (pre ++ (g, v) :: post) (themeKey g) (g, v) := by
  refine ⟨rfl, fun e he hk => ?_, pre, post, rfl, fun e he hg => hpost e he (congrArg themeKey hg)⟩
  rcases List.mem_append.1 he with hpre | he
  · refine h.greatest (pre.map Prod.fst) g (post.map Prod.fst) (by simp) (fun m hm => ?_) e.1
      (List.mem_map_of_mem hpre) hk
    obtain ⟨e', he', rfl⟩ := List.mem_map.1 hm
    exact hpost e' he'
  · rcases List.mem_cons.1 he with rfl | he
    · exact List.lt_irrefl g
    · exact absurd hk (hpost e he)

/-- **If the last spellings are the greatest, the file is resolved like the list of its entries.** -/
theorem KeepsLast.scope_eq (h : KeepsLast (entries.map Prod.fst)) (f : ThemeFile) (r : Registry) (ns : Option Text) :
    (f.withColors entries).scope r ns = .ofTable entries f.delimiters r ns := by
  have htable : ((f.withColors entries).scope r ns).table = (Scope.ofTable entries f.delimiters r ns).table := by
    refine Dictionary.ext_get? fun k => ?_
    cases hk : (Scope.ofTable entries f.delimiters r ns).table.get? k with
    | some v =>
      obtain ⟨pre, g, post, rfl, rfl, hpost⟩ := get?_ofTable_eq_some_iff.1 hk
      exact get?_scope_iff.2 ⟨g, h.counts hpost⟩
    | none =>
      rw [Option.eq_none_iff_forall_ne_some]
      intro v hv
      obtain ⟨g, hg⟩ := get?_scope_iff.1 hv
      obtain ⟨v', hv'⟩ := Scope.exists_get?_ofTable f.delimiters r ns (List.mem_map_of_mem hg.mem)
      rw [hg.key, hk] at hv'
      cases hv'
  rw [Scope.mk.injEq]
  exact ⟨htable, rfl, rfl, rfl⟩

theorem KeepsLast.lastWins (h : KeepsLast (entries.map Prod.fst)) (f : ThemeFile) (r : Registry) (ns : Option Text) :
    LastWins f entries r ns := by
  intro key hkey
  obtain ⟨l, hl, hspelled, c, hc, hget⟩ := exists_get?_resolve f r ns hkey
  rw [h.scope_eq, Resolver.resolveKey_congr _ (h.apart l hl key hkey hspelled)] at hc
  rw [hget, hc, Option.map_some]

/-! ## Only then -/

/-- The color of a key where one spelling is red and all others are blue. -/
def shadeOf (one key : Text) : Text := if key = one then "red".toList else "blue".toList

/-- The entries that give the spellings their colors. -/
def shades (keys : List Text) (one : Text) : List (Text × Text) := keys.map fun key => (key, shadeOf one key)

theorem map_fst_shades (keys : List Text) (one : Text) : (shades keys one).map Prod.fst = keys := by
  rw [shades, List.map_map]
  exact List.map_id keys

/-- Keys that are left with one spelling get one color, and so are one key. -/
theorem apart_of_lastWins {keys : List Text}
    (h : ∀ f entries r ns, entries.map Prod.fst = keys → LastWins f entries r ns) {k l : Text} (hk : k ∈ keys)
    (hl : l ∈ keys) (hspelled : spelledKey k = spelledKey l) : themeKey k = themeKey l := by
  have hlast := h .empty (paint keys (themeKey k)) .empty none (map_fst_paint keys _)
  have hcode {key : Text} (hkey : key ∈ keys) :
      ((ThemeFile.empty.withColors (paint keys (themeKey k))).resolve .empty none).get? (spelledKey key)
        = some (Composition.empty.overlay (paintOf (themeKey k) key)).code := by
    rw [hlast key ((map_fst_paint keys _).symm ▸ hkey)]
    exact congrArg _ (resolveKey_paint hkey (themeKey k) .empty none)
  have hsame := (hcode hk).symm.trans (hspelled ▸ hcode hl)
  have hred : paintOf (themeKey k) k = "red".toList := if_pos rfl
  rw [hred, Option.some_inj] at hsame
  exact (themeKey_eq_of_code_paintOf hsame.symm).symm

/-- The last entry of the key is red. -/
theorem get?_ofTable_shades {keys pre post : List Text} {l : Text} (hkeys : keys = pre ++ l :: post)
    (hpost : ∀ k ∈ post, themeKey k ≠ themeKey l) (d : Delimiters) (r : Registry) (ns : Option Text) :
    (Scope.ofTable (shades keys l) d r ns).table.get? (themeKey l) = some "red".toList := by
  have hred : shadeOf l l = "red".toList := if_pos rfl
  refine get?_ofTable_eq_some_iff.2 ⟨shades pre l, l, shades post l, ?_, rfl, fun e he => ?_⟩
  · rw [hkeys, ← hred, shades, List.map_append, List.map_cons]
    rfl
  · obtain ⟨k, hk, rfl⟩ := List.mem_map.1 he
    exact hpost k hk

/-- If the key has a spelling that is greater than the red one, what counts is blue. -/
theorem get?_scope_shades {keys : List Text} {l m : Text} (hl : l ∈ keys) (hm : m ∈ keys)
    (hml : themeKey m = themeKey l) (hlt : l < m) (f : ThemeFile) (r : Registry) (ns : Option Text) :
    ((f.withColors (shades keys l)).scope r ns).table.get? (themeKey l) = some "blue".toList := by
  obtain ⟨v, hv⟩ : ∃ v, ((f.withColors (shades keys l)).scope r ns).table.get? (themeKey l) = some v :=
    Scope.exists_get?_ofTable _ r ns (mem_keys_colors.2 ((map_fst_shades keys l).symm ▸ hl))
  obtain ⟨g, hg⟩ := get?_scope_iff.1 hv
  have hgl : g ≠ l := by
    rintro rfl
    exact hg.greatest (m, shadeOf g m) (List.mem_map_of_mem hm) hml hlt
  obtain ⟨k, -, hk⟩ := List.mem_map.1 hg.mem
  obtain ⟨rfl, rfl⟩ := Prod.mk.inj hk
  rw [hv, shadeOf, if_neg hgl]

/-- If the greatest spelling of a key is not its last one, the last entry does not count. -/
theorem not_lt_of_lastWins {keys : List Text}
    (h : ∀ f entries r ns, entries.map Prod.fst = keys → LastWins f entries r ns) {pre post : List Text} {l m : Text}
    (hkeys : keys = pre ++ l :: post) (hpost : ∀ k ∈ post, themeKey k ≠ themeKey l) (hm : m ∈ pre)
    (hml : themeKey m = themeKey l) : ¬ l < m := by
  intro hlt
  have hl : l ∈ keys := hkeys ▸ List.mem_append_right _ List.mem_cons_self
  have hmem : m ∈ keys := hkeys ▸ List.mem_append_left _ hm
  have hl' : l ∈ (shades keys l).map Prod.fst := (map_fst_shades keys l).symm ▸ hl
  have htags : tagsOf .canonical "red".toList = [.direct "red".toList] ∧
      tagsOf .canonical "blue".toList = [.direct "blue".toList] := by decide
  -- the code of the last entry is red
  have hlist := Resolver.resolveKey_of_direct (get?_ofTable_shades hkeys hpost .canonical .empty none) htags.1
  -- the file gives the code of a key that is left with the same spelling, and so of the key itself, which is blue
  obtain ⟨k, hk, hspelled, c, hc, hcode⟩ := exists_get?_resolve .empty .empty none hl'
  rw [map_fst_shades] at hk
  have hblue := Resolver.resolveKey_of_direct (get?_scope_shades hl hmem hml hlt .empty .empty none) htags.2
  rw [Resolver.resolveKey_congr _ (apart_of_lastWins h hk hl hspelled), hblue, Option.some_inj] at hc
  have hlast := h .empty (shades keys l) .empty none (map_fst_shades keys l) l hl'
  rw [hcode, ← hc, show ThemeFile.empty.delimiters = .canonical from rfl, hlist] at hlast
  exact absurd hlast (by decide)

/-- **In a theme file the greatest spelling of a key counts**, with its last value, and the code of every key is that of
a key which is left with the same spelling. The last entry of every key counts, whatever the values, just when its
spelling is the greatest and no two keys are left with one spelling. -/
theorem lastWins_iff (keys : List Text) :
    (∀ f entries r ns, entries.map Prod.fst = keys →
      (∀ k v, ((withColors f entries).scope r ns).table.get? k = some v ↔ ∃ g, Counts entries k (g, v)) ∧
      ∀ key ∈ keys, ∃ l ∈ keys, spelledKey l = spelledKey key ∧
        ∃ c, ((Resolver.new ((withColors f entries).scope r ns)).resolveKey l).1 = some c ∧
          ((withColors f entries).resolve r ns).get? (spelledKey key) = some c.code) ∧
    ((∀ f entries r ns, entries.map Prod.fst = keys → LastWins f entries r ns) ↔ KeepsLast keys) := by
  refine ⟨?_, fun h => ⟨?_, ?_⟩, ?_⟩
  · rintro f entries r ns rfl
    exact ⟨fun k v => get?_scope_iff, fun key hkey => exists_get?_resolve f r ns hkey⟩
  · intro pre l post hkeys hpost m hm hml
    exact not_lt_of_lastWins h hkeys hpost hm hml
  · intro k hk l hl hspelled
    exact apart_of_lastWins h hk hl hspelled
  · rintro h f entries r ns rfl
    exact h.lastWins f r ns

/-- Two spellings of one key, the greater one first. -/
def titles : List (Text × Text) := [("title".toList, "{{|red|}}".toList), ("Title".toList, "{{|blue|}}".toList)]

/-- **The last entry need not count**: here the first one does, for its spelling is the greater one. -/
theorem not_lastWins_titles :
    themeKey "title".toList = themeKey "Title".toList ∧
      ((empty.withColors titles).resolve .empty none).get? (spelledKey "Title".toList) = some "red::".toList ∧
      ((Resolver.new (.ofTable titles .canonical .empty none)).resolveKey "Title".toList).1.map Composition.code
        = some "blue::".toList ∧
      ¬ LastWins .empty titles .empty none := by
  have hfile : ((empty.withColors titles).resolve .empty none).get? (spelledKey "Title".toList)
      = some "red::".toList := by
    decide +kernel
  have hlist : ((Resolver.new (.ofTable titles .canonical .empty none)).resolveKey "Title".toList).1.map
        Composition.code
      = some "blue::".toList := by
    decide +kernel
  refine ⟨by decide, hfile, hlist, fun h => ?_⟩
  have hsame := h "Title".toList (by decide)
  rw [hfile, show ThemeFile.empty.delimiters = .canonical from rfl, hlist] at hsame
  exact absurd hsame (by decide)

end ThemeFile
end TerminalMarkup
