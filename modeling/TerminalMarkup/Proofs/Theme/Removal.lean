import TerminalMarkup.Proofs.Theme.Loading

/-!
# Removing a preview

The names under a namespace are those that start with its key. After a theme has been loaded under a namespace they are
the names of the keys of its table and no others (`Registry.contains_loadTheme_iff`), so there are as many of them as
there are keys with different names. Removing the namespace leaves the registry as it was, without the names that were
under the namespace before (`Registry.loadTheme_removed`).
-/

namespace TerminalMarkup

namespace Registry

variable {r : Registry} {table : List (Text × Text)} {d : Delimiters} {ns : Text}

theorem inNamespace_eq (hns : Name.normalize ns ≠ []) (k : Text) :
    inNamespace ns k = decide (Name.namespaceKey ns <+: k) := by
  rw [Bool.eq_iff_iff, inNamespace_iff, decide_eq_true_eq]
  exact and_iff_right hns

/-! ## The number of names -/

/-- The number of names under a namespace is that of the entries whose names start with its key. -/
theorem namespaceSize_eq (r : Registry) (hns : Name.normalize ns ≠ []) :
    r.namespaceSize ns = r.snapshot.countP fun e => Name.namespaceKey ns <+: e.1 := by
  rw [namespaceSize_eq_countP]
  exact List.countP_congr fun e _ => by rw [inNamespace_eq hns]

/-- Removing a namespace removes as many names as there are under it. -/
theorem size_unregisterNamespace (r : Registry) (ns : Text) :
    r.namespaceSize ns + (r.unregisterNamespace ns).size = r.size :=
  r.entries.size_filter_add (inNamespace ns)

theorem snapshot_unregisterNamespace (r : Registry) (hns : Name.normalize ns ≠ []) :
    (r.unregisterNamespace ns).snapshot = r.snapshot.filter fun e => ¬ Name.namespaceKey ns <+: e.1 := by
  rw [snapshot, unregisterNamespace, Dictionary.filter, snapshot]
  refine List.filter_congr fun e _ => ?_
  rw [inNamespace_eq hns, decide_not]

/-! ## The names of a loaded theme -/

/-- **The names under the namespace of a theme** are those of the keys of its table. -/
theorem contains_loadTheme_iff (r : Registry) (table : List (Text × Text)) (d : Delimiters)
    (hns : Name.normalize ns ≠ []) {k : Text} :
    inNamespace ns k = true ∧ (r.loadTheme table d (some ns)).2.entries.contains k = true ↔
      ∃ key ∈ table.map Prod.fst, k = Name.namespaceKey ns ++ registeredKey key := by
  constructor
  · rintro ⟨hin, hk⟩
    have hold : (r.unregisterNamespace ns).entries.contains k = false := by
      rw [Dictionary.contains, get?_unregisterNamespace, hin]
      rfl
    rw [loadTheme_snd, cleared, contains_registerAll, hold, Bool.or_false, Bool.and_eq_true, List.any_map,
      List.any_eq_true] at hk
    obtain ⟨⟨e, he, hek⟩, -⟩ := hk
    obtain ⟨key, hkey, hname⟩ := normalize_of_mem_entries he
    rw [Name.keyStart_of_ne hns] at hname
    exact ⟨key, hkey, (of_decide_eq_true hek).symm.trans hname⟩
  · rintro ⟨key, hkey, rfl⟩
    obtain ⟨_, -, c, -, -, hget⟩ := r.exists_get?_loadTheme d (some ns) hkey
    rw [Name.keyStart_of_ne hns] at hget
    refine ⟨inNamespace_iff.2 ⟨hns, List.prefix_append _ _⟩, ?_⟩
    rw [Dictionary.contains, hget]
    rfl

/-- A theme has as many names as its table has keys with different names. -/
theorem namespaceSize_loadTheme (r : Registry) (table : List (Text × Text)) (d : Delimiters)
    (hns : Name.normalize ns ≠ []) :
    (r.loadTheme table d (some ns)).2.namespaceSize ns = (table.map fun e => registeredKey e.1).dedup.length := by
  let names := (table.map fun e => registeredKey e.1).dedup.map (Name.namespaceKey ns ++ ·)
  have hnames : names.Nodup := (List.nodup_dedup _).map (List.append_right_injective _)
  have hperm : ((r.loadTheme table d (some ns)).2.entries.filter (inNamespace ns)).keys.Perm names := by
    refine (List.perm_ext_iff_of_nodup (Dictionary.nodup_keys _) hnames).2 fun k => ?_
    rw [Dictionary.mem_keys_filter, contains_loadTheme_iff r table d hns]
    simp only [names, List.mem_map, List.mem_dedup]
    constructor
    · rintro ⟨key, ⟨e, he, rfl⟩, rfl⟩
      exact ⟨_, ⟨e, he, rfl⟩, rfl⟩
    · rintro ⟨_, ⟨e, he, rfl⟩, rfl⟩
      exact ⟨e.1, ⟨e, he, rfl⟩, rfl⟩
  have hlength := hperm.length_eq
  rwa [Dictionary.keys, List.length_map, List.length_map] at hlength

/-! ## Loading and removing -/

/-- **A preview comes and goes.** Loading a theme under a namespace changes only names under the namespace, and all that
it writes is there. Removing the namespace removes the names that are there then, as many as the table has keys with
different names, and leaves the registry as it was before without the names under the namespace. -/
theorem loadTheme_removed (r : Registry) (table : List (Text × Text)) (d : Delimiters) (hns : Name.normalize ns ≠ []) :
    let theme := (r.loadTheme table d (some ns)).1
    let loaded := (r.loadTheme table d (some ns)).2
    (∀ k, ¬ Name.namespaceKey ns <+: k → loaded.entries.get? k = r.entries.get? k) ∧
    (∀ e ∈ theme.entries, Name.namespaceKey ns <+: Name.normalize e.1 ∧ loaded.contains e.1 = true) ∧
    (loaded.namespaceSize ns = loaded.snapshot.countP (fun e => Name.namespaceKey ns <+: e.1) ∧
      loaded.namespaceSize ns + (loaded.unregisterNamespace ns).size = loaded.size ∧
      loaded.namespaceSize ns = (table.map fun e => registeredKey e.1).dedup.length) ∧
    (loaded.unregisterNamespace ns).snapshot = r.snapshot.filter (fun e => ¬ Name.namespaceKey ns <+: e.1) ∧
      (loaded.unregisterNamespace ns).defaults = r.defaults := by
  intro theme loaded
  have hremoved : loaded.unregisterNamespace ns = r.unregisterNamespace ns := unregisterNamespace_loadTheme hns
  refine ⟨fun k hk => ?_, fun e he => ?_, ⟨loaded.namespaceSize_eq hns, loaded.size_unregisterNamespace ns,
    r.namespaceSize_loadTheme table d hns⟩, ?_, ?_⟩
  · refine get?_loadTheme_of_not_inNamespace hns ?_
    rw [inNamespace_eq hns]
    exact decide_eq_false hk
  · obtain ⟨key, hkey, hname⟩ := normalize_of_mem_entries he
    rw [Name.keyStart_of_ne hns] at hname
    obtain ⟨hin, hcontains⟩ := (contains_loadTheme_iff r table d hns).2 ⟨key, hkey, hname⟩
    exact ⟨(inNamespace_iff.1 hin).2, hcontains⟩
  · rw [hremoved, r.snapshot_unregisterNamespace hns]
  · rw [hremoved, unregisterNamespace]

/-- A namespace with blanks, underscores and a final sigma, whose stale name is replaced. -/
theorem loadTheme_removed_sigma :
    let ns := " __ΑΣ_ ".toList
    let r := ofEntries [("ας_old".toList, "red".toList), ("notice".toList, "green".toList)]
    let table := [("Title".toList, "{{|blue|}}".toList), (" TITLE ".toList, "cyan".toList)]
    Name.normalize ns ≠ [] ∧ (r.loadTheme table .canonical (some ns)).2.namespaceSize ns = 1 ∧
      ((r.loadTheme table .canonical (some ns)).2.unregisterNamespace ns).snapshot
        = [("notice".toList, "green".toList)] := by
  intro ns r table
  have hns : Name.normalize ns ≠ [] := by decide +kernel
  obtain ⟨-, -, ⟨-, -, hsize⟩, hsnapshot, -⟩ := loadTheme_removed r table .canonical hns
  refine ⟨hns, hsize.trans (by decide +kernel), hsnapshot.trans (by decide +kernel)⟩

end Registry
end TerminalMarkup
