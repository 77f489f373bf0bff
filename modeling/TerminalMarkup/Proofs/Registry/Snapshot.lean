import Mathlib.Data.Finset.Max
import TerminalMarkup.Proofs.Composition.Made
import TerminalMarkup.Proofs.Registry.Runs

/-!
# Snapshots

A snapshot should be a faithful dump of the registry: each of its entries can be looked up under its own key, and a
registry that is made of them has the same ones (`Registry.Faithful`).

A stored value is its own normal form (`normalizeValue_normalizeValue`). A stored key need not be, and the snapshot is
faithful just when all are (`Registry.faithful_iff`), that is, when all names that have a value are `Name.Tidy`.
-/

namespace TerminalMarkup

namespace Registry

variable {r : Registry}

/-! ## Stored values -/

theorem normalizeValue_trim (raw : Text) : normalizeValue raw.trim = normalizeValue raw := by
  rw [normalizeValue, Delimiters.unwrapDirect, Text.trim_trim, normalizeValue, Delimiters.unwrapDirect]

/-- **A stored value is stored as it is.** -/
theorem normalizeValue_normalizeValue (raw : Text) : normalizeValue (normalizeValue raw) = normalizeValue raw := by
  have hcases : Token.isCode (normalizeValue raw) = true ∨ normalizeValue raw = raw.trim := by
    dsimp only [normalizeValue]
    split
    next hcode => exact .inl hcode
    · exact .inr rfl
  rcases hcases with hcode | htrim
  · exact normalizeValue_of_isCode hcode
  · calc normalizeValue (normalizeValue raw) = normalizeValue raw.trim := congrArg _ htrim
      _ = normalizeValue raw := normalizeValue_trim raw

theorem Normal.normalizeValue_eq (h : r.Normal) {e : Text × Text} (he : e ∈ r.snapshot) : normalizeValue e.2 = e.2 := by
  obtain ⟨given, rfl⟩ := h.entries e he
  exact normalizeValue_normalizeValue given.2

/-! ## Stored keys -/

/-- Where every one of some texts is one of them shortened, none has been shortened: the longest that has would have to
come from a longer one. -/
theorem eq_self_of_forall_exists {keys : List Text} {f : Text → Text} (hf : ∀ k ∈ keys, (f k).Sublist k)
    (h : ∀ k ∈ keys, ∃ k' ∈ keys, f k' = k) : ∀ k ∈ keys, f k = k := by
  by_contra hnot
  push Not at hnot
  obtain ⟨short, hshort, hne⟩ := hnot
  obtain ⟨k, hk, hmax⟩ := (keys.toFinset.filter fun k => f k ≠ k).exists_max_image List.length
    ⟨short, Finset.mem_filter.2 ⟨List.mem_toFinset.2 hshort, hne⟩⟩
  obtain ⟨hmem, hchanged⟩ := Finset.mem_filter.1 hk
  obtain ⟨k', hk', rfl⟩ := h k (List.mem_toFinset.1 hmem)
  have hchanged' : f k' ≠ k' := fun he => hchanged (congrArg f he)
  have hle := hmax k' (Finset.mem_filter.2 ⟨List.mem_toFinset.2 hk', hchanged'⟩)
  exact hchanged' ((hf k' hk').eq_of_length_le hle)

/-- The names of a stored key are all tidy, or none is. -/
theorem Normal.normalize_eq_iff (h : r.Normal) :
    (∀ e ∈ r.snapshot, Name.normalize e.1 = e.1) ↔ ∀ name, r.contains name = true → Name.Tidy name := by
  constructor
  · intro hfixed name hname
    obtain ⟨value, hvalue⟩ := Option.isSome_iff_exists.1 hname
    exact Name.normalize_normalize_iff.1 (hfixed (_, value) (Dictionary.mem_toList_iff.2 hvalue))
  · intro htidy e he
    obtain ⟨given, rfl⟩ := h.entries e he
    refine Name.normalize_normalize_iff.2 (htidy given.1 ?_)
    exact Option.isSome_iff_exists.2 ⟨_, Dictionary.mem_toList_iff.1 he⟩

/-! ## Faithful dumps -/

/-- The snapshot is a dump of the registry: every entry is found under its key, and the entries make the registry
again. -/
structure Faithful (r : Registry) : Prop where
  lookup : ∀ e ∈ r.snapshot, r.lookup e.1 = some e.2
  rebuilt : (ofEntries r.snapshot).snapshot = r.snapshot

theorem faithful_of_normalizeEntry_eq (h : ∀ e ∈ r.snapshot, normalizeEntry e = e) : r.Faithful where
  lookup := by
    rintro ⟨k, v⟩ he
    have hk : Name.normalize k = k := congrArg Prod.fst (h _ he)
    rw [Registry.lookup, hk]
    exact Dictionary.mem_toList_iff.1 he
  rebuilt := by
    have hmap : r.snapshot.map normalizeEntry = r.snapshot := (List.map_congr_left h).trans (List.map_id' _)
    rw [snapshot, ofEntries, hmap, snapshot, Dictionary.ofList_toList]

/-- A registry that has the entries of the snapshot has their keys, shortened. -/
theorem Normal.normalize_eq_of_rebuilt (h : r.Normal) (hr : (ofEntries r.snapshot).snapshot = r.snapshot) :
    ∀ e ∈ r.snapshot, Name.normalize e.1 = e.1 := by
  have hshort : ∀ k ∈ r.entries.keys, (Name.normalize k).Sublist k := by
    intro k hk
    obtain ⟨e, he, rfl⟩ := List.mem_map.1 hk
    obtain ⟨given, rfl⟩ := h.entries e he
    exact Name.normalize_normalize_sublist given.1
  have hsame : ∀ k ∈ r.entries.keys, ∃ k' ∈ r.entries.keys, Name.normalize k' = k := by
    intro k hk
    obtain ⟨e, he, rfl⟩ := List.mem_map.1 hk
    have he' : e ∈ (ofEntries r.snapshot).snapshot := by
      rw [hr]
      exact he
    obtain ⟨e', hmem, hnormal⟩ := List.mem_map.1 (Dictionary.mem_of_get?_ofList (Dictionary.mem_toList_iff.1 he'))
    exact ⟨e'.1, List.mem_map_of_mem hmem, congrArg Prod.fst hnormal⟩
  exact fun e he => eq_self_of_forall_exists hshort hsame e.1 (List.mem_map_of_mem he)

theorem Normal.faithful_iff (h : r.Normal) : r.Faithful ↔ ∀ e ∈ r.snapshot, normalizeEntry e = e := by
  constructor
  · exact fun hr e he => Prod.ext (h.normalize_eq_of_rebuilt hr.rebuilt e he) (h.normalizeValue_eq he)
  · exact faithful_of_normalizeEntry_eq

/-! ## Runs -/

/-- The entries that an operation is given. -/
def Operation.given : Operation → List (Text × Text)
  | register name raw => [(name, raw)]
  | registerAll es => es
  | replaceNamespace _ es => es
  | unregister _ => []
  | unregisterNamespace _ => []
  | reset => []

/-- What writing entries writes is one of them. -/
theorem exists_of_mem_map_written {es : List (Text × Text)} {k v : Text} (h : .write k v ∈ es.map written) :
    ∃ e ∈ es, normalizeEntry e = (k, v) := by
  obtain ⟨e, he, hwritten⟩ := List.mem_map.1 h
  obtain ⟨rfl, rfl⟩ := Change.write.inj hwritten
  exact ⟨e, he, rfl⟩

/-- An operation writes what it or the registry has been given. -/
theorem Operation.exists_given_of_mem_changes {op : Operation} {o : Origin} {k v : Text}
    (h : .write k v ∈ op.changes o) : ∃ e ∈ o.given ++ op.given, normalizeEntry e = (k, v) := by
  have hwrites {es : List (Text × Text)} (hes : .write k v ∈ writes es) :
      ∃ e ∈ o.given ++ es, normalizeEntry e = (k, v) := by
    obtain ⟨e, he, hnormal⟩ := exists_of_mem_map_written hes
    exact ⟨e, List.mem_append_right _ (List.mem_of_mem_filter he), hnormal⟩
  cases op with
  | register name raw => exact hwrites h
  | registerAll es => exact hwrites h
  | replaceNamespace ns es =>
    rcases List.mem_cons.1 h with hremove | hwrite
    · cases hremove
    · exact hwrites hwrite
  | unregister name => cases List.mem_singleton.1 h
  | unregisterNamespace ns => cases List.mem_singleton.1 h
  | reset =>
    rcases List.mem_cons.1 h with hremove | hwrite
    · cases hremove
    · obtain ⟨e, he, hnormal⟩ := exists_of_mem_map_written hwrite
      exact ⟨e, List.mem_append_left _ he, hnormal⟩

theorem exists_given_of_mem_history {o : Origin} {ops : List Operation} {k v : Text}
    (h : .write k v ∈ history o ops) :
    ∃ e ∈ o.given ++ ops.flatMap Operation.given, normalizeEntry e = (k, v) := by
  rcases List.mem_append.1 h with hmade | hchanged
  · obtain ⟨e, he, hnormal⟩ := exists_of_mem_map_written hmade
    exact ⟨e, List.mem_append_left _ he, hnormal⟩
  · obtain ⟨op, hop, hchange⟩ := List.mem_flatMap.1 hchanged
    obtain ⟨e, he, hnormal⟩ := op.exists_given_of_mem_changes hchange
    refine ⟨e, ?_, hnormal⟩
    rcases List.mem_append.1 he with he | he
    · exact List.mem_append_left _ he
    · exact List.mem_append_right _ (List.mem_flatMap.2 ⟨op, hop, he⟩)

/-- Every entry that a run stores has been given. -/
theorem exists_given_of_mem_snapshot {o : Origin} {ops : List Operation} {e : Text × Text}
    (h : e ∈ (run o ops).snapshot) : ∃ given ∈ o.given ++ ops.flatMap Operation.given, normalizeEntry given = e := by
  have hvalue := Dictionary.mem_toList_iff.1 h
  rw [get?_run, Change.foldl_apply_eq_some_iff] at hvalue
  obtain ⟨before, after, he, -⟩ := hvalue
  refine exists_given_of_mem_history ?_
  rw [he]
  exact List.mem_append_right _ List.mem_cons_self

/-- **When a snapshot is a faithful dump.** Whatever has been done to a registry, its stored values are in normal form.
Its snapshot is faithful just when its stored keys are, too, that is, when all names that have a value are tidy; and
this is so where all names are tidy that entries have been given under. -/
theorem faithful_run_iff (o : Origin) (ops : List Operation) :
    let r := run o ops
    (∀ e ∈ r.snapshot, normalizeValue e.2 = e.2) ∧
    (r.Faithful ↔ ∀ e ∈ r.snapshot, normalizeEntry e = e) ∧
    (r.Faithful ↔ ∀ name, r.contains name = true → Name.Tidy name) ∧
    ((∀ e ∈ o.given ++ ops.flatMap Operation.given, Name.Tidy e.1) → r.Faithful) := by
  intro r
  have hnormal : r.Normal := normal_run o ops
  have hkeys : r.Faithful ↔ ∀ e ∈ r.snapshot, Name.normalize e.1 = e.1 := by
    rw [hnormal.faithful_iff]
    constructor
    · exact fun h e he => congrArg Prod.fst (h e he)
    · exact fun h e he => Prod.ext (h e he) (hnormal.normalizeValue_eq he)
  refine ⟨fun e he => hnormal.normalizeValue_eq he, hnormal.faithful_iff, ?_, fun htidy => hkeys.2 fun e he => ?_⟩
  · rw [hkeys, hnormal.normalize_eq_iff]
  · obtain ⟨given, hgiven, rfl⟩ := exists_given_of_mem_snapshot he
    exact Name.normalize_normalize_iff.2 (htidy given hgiven)

/-- A name with a blank behind its underscores is stored under a key that does not find it, and changes when the
registry is built again. -/
theorem not_faithful_run :
    let r := run .empty [.register "_ x _".toList "red".toList]
    r.snapshot = [(" x ".toList, "red".toList)] ∧ r.lookup " x ".toList = none ∧
      (ofEntries r.snapshot).snapshot = [("x".toList, "red".toList)] ∧ ¬ r.Faithful := by
  intro r
  have hlookup : r.lookup " x ".toList = none := by decide +kernel
  have hsnapshot : r.snapshot = [(" x ".toList, "red".toList)] := by decide +kernel
  refine ⟨hsnapshot, hlookup, by decide +kernel, fun h => ?_⟩
  have hfound := h.lookup (" x ".toList, "red".toList) (by rw [hsnapshot]; exact List.mem_singleton_self _)
  rw [hlookup] at hfound
  cases hfound

end Registry
end TerminalMarkup
