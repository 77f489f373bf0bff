import TerminalMarkup.Proofs.Theme.Loading
import TerminalMarkup.Proofs.Theme.Redirect

/-!
# Previews

A theme that is loaded under a namespace takes the place of the one before (`loadTheme_loadTheme`). No name of the old
one outlives it, and nothing else changes. But the new one is resolved while the old one is still there, and its
references to names that it lacks are looked up in the namespace first. So the two leave what the new one alone would
leave if the names that it refers to outside its table read the same with the old one as without it, and for every name
that does not there is a table that tells the difference.
-/

namespace TerminalMarkup

/-! ## Names outside a table -/

/-- What a reference that means no key of the table contributes, in a namespace. -/
def Registry.outside (r : Registry) (ns : Option Text) (name : Text) : Composition :=
  (Scope.ofTable [] .canonical r ns).fromRegistry name

namespace Scope

/-- The names in the values of the table that mean no key of it. -/
def outsideNames (sc : Scope) : List Text :=
  (sc.table.toList.flatMap fun e => tagsOf sc.delimiters e.2).filterMap fun
    | .semantic name => if sc.target? name = none then some name else none
    | _ => none

variable {sc : Scope} {r : Registry} {ns : Option Text}

theorem mem_outsideNames {name : Text} :
    name ∈ sc.outsideNames ↔
      ∃ k raw, sc.table.get? k = some raw ∧ .semantic name ∈ tagsOf sc.delimiters raw ∧ sc.target? name = none := by
  simp only [outsideNames, List.mem_filterMap, List.mem_flatMap]
  constructor
  · rintro ⟨t, ⟨⟨k, raw⟩, hm, ht⟩, he⟩
    cases t with
    | text s => cases he
    | direct code => cases he
    | semantic name' =>
      dsimp only at he
      split at he
      next hn =>
        cases he
        exact ⟨k, raw, Dictionary.mem_toList_iff.1 hm, ht, hn⟩
      · cases he
  · rintro ⟨k, raw, hg, ht, hn⟩
    exact ⟨.semantic name, ⟨(k, raw), Dictionary.mem_toList_iff.2 hg, ht⟩, if_pos hn⟩

/-! ## Resolving in another scope -/

theorem reference_congr (sc : Scope) {entry entry' : Text → Text → Progress → Resolution × Progress} {name : Text}
    {p : Progress}
    (he : ∀ raw, sc.table.get? (themeKey name) = some raw → entry (themeKey name) raw p = entry' (themeKey name) raw p)
    (hr : sc.target? name = none → sc.fromRegistry name = { sc with registry := r, ns := ns }.fromRegistry name) :
    sc.reference entry name p = { sc with registry := r, ns := ns }.reference entry' name p := by
  unfold reference
  unfold target? at hr
  dsimp only
  split
  next hn =>
    split
    · rfl
    · split
      next raw hg => exact he raw hg
      next hg => rw [hr (by rw [if_pos hn, hg]; rfl)]
  next hn => rw [hr (if_neg hn)]

/-- **Only names outside the table matter of a registry and a namespace.** The induction is on the depth. -/
theorem entry_congr
    (h : ∀ name ∈ sc.outsideNames, sc.fromRegistry name = { sc with registry := r, ns := ns }.fromRegistry name) :
    ∀ (depth : Nat) (k raw : Text) (p : Progress), sc.table.get? k = some raw →
      sc.entry depth k raw p = { sc with registry := r, ns := ns }.entry depth k raw p := by
  intro depth
  induction depth with
  | zero => exact fun k raw p _ => rfl
  | succ depth ih =>
    intro k raw p hg
    have hcompose (p : Progress) :
        sc.compose (sc.entry depth) raw p
          = { sc with registry := r, ns := ns }.compose ({ sc with registry := r, ns := ns }.entry depth) raw p := by
      rw [compose, compose]
      refine List.foldl_ext _ _ _ fun out t ht => ?_
      obtain ⟨res, p⟩ := out
      cases t with
      | text s => rw [composeTag_text, composeTag_text]
      | direct code => rw [composeTag_direct, composeTag_direct]
      | semantic name =>
        have href := reference_congr sc (r := r) (p := p) (fun raw hraw => ih (themeKey name) raw p hraw)
          fun hn => h name (mem_outsideNames.2 ⟨k, raw, hg, ht, hn⟩)
        rw [composeTag_semantic, composeTag_semantic, href]
    cases hs : p.settled.get? k with
    | some c => rw [entry_settled depth hs, entry_settled depth hs]
    | none =>
      cases hf : p.finished.get? k with
      | some c => rw [entry_finished depth hs hf, entry_finished depth hs hf]
      | none => rw [entry_fresh depth hs hf, entry_fresh depth hs hf, hcompose]

theorem answer?_congr
    (h : ∀ name ∈ sc.outsideNames, sc.fromRegistry name = { sc with registry := r, ns := ns }.fromRegistry name)
    (key : Text) : sc.answer? key = { sc with registry := r, ns := ns }.answer? key := by
  have hkey : ((Resolver.new sc).resolveKey key).1
      = ((Resolver.new { sc with registry := r, ns := ns }).resolveKey key).1 := by
    unfold Resolver.resolveKey
    cases hg : sc.table.get? (themeKey key) with
    | none => simp only [Resolver.new, hg]
    | some raw =>
      simp only [Resolver.new, hg]
      exact congrArg (fun out => some out.1.composition) (entry_congr h sc.depth (themeKey key) raw _ hg)
  rw [answer?, answer?, hkey]

end Scope

variable {table : List (Text × Text)} {d : Delimiters} {r r' : Registry} {ns ns' : Option Text}

/-- A table resolves to the same codes where all names outside the table read the same. -/
theorem resolveTable_congr
    (h : ∀ name ∈ (Scope.ofTable table d r ns).outsideNames, r.outside ns name = r'.outside ns' name) :
    resolveTable table d r ns = resolveTable table d r' ns' := by
  rw [resolveTable_eq, resolveTable_eq]
  congr 1
  exact List.filterMap_congr fun key _ => Scope.answer?_congr h key

/-! ## The names of a theme -/

theorem Dictionary.keys_map {α β : Type} (f : α → β) (d : Dictionary α) : (d.map f).keys = d.keys := by
  rw [keys, keys, map, List.map_map]
  rfl

/-- The spelled keys of a table do not depend on what its values resolve to. -/
theorem keys_resolveTable (table : List (Text × Text)) (d : Delimiters) (r : Registry) (ns : Option Text) :
    (resolveTable table d r ns).keys = (Dictionary.ofList (table.map fun e => (spelledKey e.1, ()))).keys := by
  have hentries : ((table.map Prod.fst).filterMap (Scope.ofTable table d r ns).answer?).map (fun e => (e.1, ()))
      = table.map fun e => (spelledKey e.1, ()) := by
    rw [List.map_filterMap, List.filterMap_map]
    refine List.filterMap_eq_map_iff_forall_eq_some.2 fun e he => ?_
    obtain ⟨c, hc⟩ := Scope.exists_resolveKey_ofTable d r ns (List.mem_map_of_mem he)
    rw [Function.comp_apply, Scope.answer?_eq_some.2 ⟨c, hc, rfl⟩]
    rfl
  rw [resolveTable_eq, ← Dictionary.keys_map (fun _ => ()), Dictionary.map_ofList, hentries]

theorem map_fst_entries_loadTheme :
    (r.loadTheme table d ns).1.entries.map Prod.fst = (resolveTable table d r ns).keys.map (themeName ns) := by
  rw [Registry.loadTheme, Dictionary.keys, List.map_map, List.map_map]
  rfl

namespace Registry

/-- The keys after a theme has been loaded do not depend on what its values resolve to. -/
theorem contains_loadTheme (r : Registry) (table : List (Text × Text)) (d : Delimiters) (ns name : Text) :
    (r.loadTheme table d (some ns)).2.contains name
      = (((Dictionary.ofList (table.map fun e => (spelledKey e.1, ()))).keys.map (themeName (some ns))).any
            (fun n => Name.normalize n = Name.normalize name) && decide (Name.normalize name ≠ []) ||
          (r.unregisterNamespace ns).contains name) := by
  rw [← keys_resolveTable table d r (some ns), ← map_fst_entries_loadTheme, loadTheme_snd]
  exact contains_registerAll _ _ _

/-! ## One preview after another -/

/-- A theme of one key that refers to a name of the registry tells apart what registries have for that name. -/
theorem exists_loadTheme_ne {name : Text} (hn : Token.isName name = true)
    (hne : r.outside ns name ≠ r'.outside ns name) :
    ∃ table, (∀ n ∈ (Scope.ofTable table .canonical r ns).outsideNames, n = name) ∧
      (r.loadTheme table .canonical ns).1 ≠ (r'.loadTheme table .canonical ns).1 := by
  obtain ⟨key, hkey⟩ : ∃ key : Text, themeKey key ≠ themeKey name := by
    by_cases ha : themeKey "a".toList = themeKey name
    · refine ⟨"b".toList, ?_⟩
      rw [← ha]
      decide
    · exact ⟨"a".toList, ha⟩
  let table := [(key, Delimiters.canonical.wrapSemantic name)]
  have hget (r : Registry) := Scope.get?_ofTable_singleton key (Delimiters.canonical.wrapSemantic name) .canonical r ns
  have htarget (r : Registry) : (Scope.ofTable table .canonical r ns).target? name = none := by
    unfold Scope.target?
    split
    · rw [hget, if_neg hkey]
      rfl
    · rfl
  have hcode {r : Registry} {e : Text × Text} (he : e ∈ (r.loadTheme table .canonical ns).1.entries) :
      e.2 = (r.outside ns name).code := by
    obtain ⟨key', hkey', c, hc, rfl⟩ := of_mem_entries_loadTheme he
    obtain rfl := List.mem_singleton.1 hkey'
    rw [Resolver.resolveKey_of_outside ((hget r _).trans (if_pos rfl)) (tagsOf_wrapSemantic hn) (htarget r)] at hc
    cases hc
    rfl
  refine ⟨table, fun n hm => ?_, fun he => hne ?_⟩
  · obtain ⟨k, raw, hg, ht, -⟩ := Scope.mem_outsideNames.1 hm
    rw [hget] at hg
    split at hg
    · cases hg
      rw [show (Scope.ofTable table .canonical r ns).delimiters = .canonical from rfl, tagsOf_wrapSemantic hn,
        List.mem_singleton] at ht
      cases ht
      rfl
    · cases hg
  · have hkeys : key ∈ table.map Prod.fst := List.mem_cons_self
    obtain ⟨code, hm⟩ := r.exists_mem_entries_loadTheme .canonical ns hkeys
    have hsame : (r.outside ns name).code = (r'.outside ns name).code := (hcode hm).symm.trans (hcode (he ▸ hm))
    exact Composition.Canonical.code_inj (Scope.made_fromRegistry _ name).canonical
      (Scope.made_fromRegistry _ name).canonical hsame

/-- **The old theme is gone but for what the new one has read of it.** Loading a theme over another leaves the same
names as loading it alone, and changes nothing outside the namespace. The codes are the same too if all names that the
new theme refers to outside its table read the same with the old theme as without the namespace; and for every name that
does not, some theme that refers to no other name gets other codes. -/
theorem loadTheme_loadTheme (r : Registry) {ns : Text} (hns : Name.normalize ns ≠ []) (old : List (Text × Text))
    (d : Delimiters) :
    let stale := (r.loadTheme old d (some ns)).2
    let fresh := r.unregisterNamespace ns
    (∀ table d', (stale.loadTheme table d' (some ns)).1.entries.map Prod.fst
          = (fresh.loadTheme table d' (some ns)).1.entries.map Prod.fst ∧
        (∀ name, (stale.loadTheme table d' (some ns)).2.contains name
          = (fresh.loadTheme table d' (some ns)).2.contains name) ∧
        ∀ name, inNamespace ns (Name.normalize name) = false →
          (stale.loadTheme table d' (some ns)).2.lookup name = (fresh.loadTheme table d' (some ns)).2.lookup name) ∧
    (∀ table d', (∀ name ∈ (Scope.ofTable table d' stale (some ns)).outsideNames,
          stale.outside (some ns) name = fresh.outside (some ns) name) →
        stale.loadTheme table d' (some ns) = fresh.loadTheme table d' (some ns)) ∧
    ∀ name, Token.isName name = true → stale.outside (some ns) name ≠ fresh.outside (some ns) name →
      ∃ table, (∀ n ∈ (Scope.ofTable table .canonical stale (some ns)).outsideNames, n = name) ∧
        stale.loadTheme table .canonical (some ns) ≠ fresh.loadTheme table .canonical (some ns) := by
  intro stale fresh
  have hstale : stale.unregisterNamespace ns = fresh := unregisterNamespace_loadTheme hns
  have hfresh : fresh.unregisterNamespace ns = fresh := r.unregisterNamespace_unregisterNamespace ns
  refine ⟨fun table d' => ⟨?_, fun name => ?_, fun name hname => ?_⟩, fun table d' h => ?_, fun name hn hne => ?_⟩
  · rw [map_fst_entries_loadTheme, map_fst_entries_loadTheme, keys_resolveTable, keys_resolveTable]
  · rw [contains_loadTheme, contains_loadTheme, hstale, hfresh]
  · have hbefore : stale.entries.get? (Name.normalize name) = fresh.entries.get? (Name.normalize name) := by
      rw [← hstale, get?_unregisterNamespace, hname]
      rfl
    exact (get?_loadTheme_of_not_inNamespace hns hname).trans
      (hbefore.trans (get?_loadTheme_of_not_inNamespace hns hname).symm)
  · rw [loadTheme, loadTheme, resolveTable_congr h, writeTheme_eq, writeTheme_eq, cleared, cleared, hstale, hfresh]
  · obtain ⟨table, hnames, hloads⟩ := exists_loadTheme_ne hn hne
    exact ⟨table, hnames, fun he => hloads (congrArg Prod.fst he)⟩

/-- A new theme that refers to a name of the registry outside the namespace. -/
theorem loadTheme_loadTheme_notice :
    let r := ofEntries [("notice".toList, "green".toList)]
    let old := [("Base".toList, "red".toList)]
    let new := [("Title".toList, Delimiters.canonical.wrapSemantic "notice".toList)]
    Name.normalize "Preview".toList ≠ [] ∧
      (r.loadTheme old .canonical (some "Preview".toList)).2.loadTheme new .canonical (some "Preview".toList)
        = (r.unregisterNamespace "Preview".toList).loadTheme new .canonical (some "Preview".toList) := by
  intro r old new
  have hns : Name.normalize "Preview".toList ≠ [] := by decide
  exact ⟨hns, (loadTheme_loadTheme r hns old .canonical).2.1 new .canonical (by decide +kernel)⟩

/-- **A new theme that refers to a key of the old one**: what it reads there stays. -/
theorem loadTheme_loadTheme_ne :
    let old := [("Base".toList, "red".toList)]
    let new := [("Title".toList, Delimiters.canonical.wrapSemantic "Theme_Base".toList)]
    ((empty.loadTheme old .canonical (some "Preview".toList)).2.loadTheme new .canonical
          (some "Preview".toList)).1.entries
        = [("Preview_Theme_Title".toList, "red::".toList)] ∧
      ((empty.unregisterNamespace "Preview".toList).loadTheme new .canonical (some "Preview".toList)).1.entries
        = [("Preview_Theme_Title".toList, "::".toList)] := by
  decide +kernel

end Registry
end TerminalMarkup
