import TerminalMarkup.Proofs.Registry.Runs

/-!
# The empty name

A name of blanks and underscores has an empty normal form. It should have no entry (`Registry.Named`), and every
operation that writes entries leaves it out (`get?_nil_registerAll`). The entries that a registry is made of are not
looked at, though, and may give the empty name a value. It is there until a name of blanks and underscores is
unregistered, and comes back when the registry is reset (`get?_nil_apply`, `get?_nil_run`).

So nothing is ever stored under the empty name just when none of the entries that the registry is made of is
(`named_run_iff`).
-/

namespace TerminalMarkup

namespace Registry

variable {r : Registry} {o : Origin} {ops : List Operation} {op : Operation}

/-! ## Registries without the empty name -/

/-- No entry is stored under the empty name. -/
def Named (r : Registry) : Prop := ∀ e ∈ r.snapshot, e.1 ≠ []

instance (r : Registry) : Decidable r.Named := List.decidableBAll _ r.snapshot

theorem named_iff : r.Named ↔ r.entries.get? [] = none := by
  rw [Option.eq_none_iff_forall_ne_some]
  constructor
  · exact fun h v hv => h ([], v) (Dictionary.mem_toList_iff.2 hv) rfl
  · rintro h ⟨k, v⟩ he rfl
    exact h v (Dictionary.mem_toList_iff.1 he)

theorem lookup_of_normalize_eq_nil {name : Text} (h : Name.normalize name = []) :
    r.lookup name = r.entries.get? [] := by
  rw [lookup, h]

theorem named_iff_lookup : r.Named ↔ ∀ name, Name.normalize name = [] → r.lookup name = none := by
  rw [named_iff]
  constructor
  · exact fun h name hname => (lookup_of_normalize_eq_nil hname).trans h
  · exact fun h => h [] rfl

/-! ## One operation -/

/-- The operation returns to what the registry is made of. -/
def Operation.isReset : Operation → Bool
  | reset => true
  | _ => false

/-- The operation unregisters a name of blanks and underscores. -/
def Operation.removesNil : Operation → Bool
  | unregister name => Name.normalize name = []
  | _ => false

/-- The empty name is not written. -/
theorem get?_nil_registerAll (r : Registry) (es : List (Text × Text)) :
    (r.registerAll es).entries.get? [] = r.entries.get? [] := by
  induction es generalizing r with
  | nil => rfl
  | cons e es ih =>
    refine (ih (r.register e.1 e.2)).trans ?_
    by_cases he : Name.normalize e.1 = []
    · rw [register, normalizeEntry, if_pos he]
    · exact r.get?_register_of_ne he

/-- The empty name belongs to no namespace. -/
theorem get?_nil_unregisterNamespace (r : Registry) (ns : Text) :
    (r.unregisterNamespace ns).entries.get? [] = r.entries.get? [] := by
  rw [get?_unregisterNamespace, if_neg]
  exact fun h => Name.namespaceKey_ne_nil ns (List.prefix_nil.1 (inNamespace_iff.1 h).2)

/-- **What an operation does to the empty name.** A reset brings back what the registry is made of; otherwise the empty
name is removed, or left as it is. -/
theorem get?_nil_apply (r : Registry) (op : Operation) :
    (r.apply op).entries.get? [] =
      if op.isReset then (Dictionary.ofList r.defaults).get? []
      else if op.removesNil then none else r.entries.get? [] := by
  cases op with
  | register name raw => exact r.get?_nil_registerAll [(name, raw)]
  | registerAll es => exact r.get?_nil_registerAll es
  | replaceNamespace ns es =>
    rw [apply_replaceNamespace]
    exact ((r.unregisterNamespace ns).get?_nil_registerAll es).trans (r.get?_nil_unregisterNamespace ns)
  | unregister name =>
    refine (Dictionary.get?_erase r.entries _ []).trans ?_
    by_cases hname : Name.normalize name = []
    · simp [Operation.isReset, Operation.removesNil, hname]
    · simp [Operation.isReset, Operation.removesNil, hname, Ne.symm hname]
  | unregisterNamespace ns => exact r.get?_nil_unregisterNamespace ns
  | reset => rfl

/-! ## Runs -/

/-- The operations since the last reset. -/
def sinceReset (ops : List Operation) : List Operation := ops.rtakeWhile fun op => !op.isReset

/-- A name of blanks and underscores has been unregistered, and the registry has not been reset since. -/
def Cleared (ops : List Operation) : Prop := ∃ op ∈ sinceReset ops, op.removesNil = true

instance (ops : List Operation) : Decidable (Cleared ops) := List.decidableBEx _ (sinceReset ops)

theorem cleared_append_singleton :
    Cleared (ops ++ [op]) ↔ op.isReset = false ∧ (op.removesNil = true ∨ Cleared ops) := by
  rw [Cleared, sinceReset, List.rtakeWhile_concat]
  cases op.isReset with
  | true => simp
  | false => simp [Cleared, sinceReset, or_and_right, exists_or, or_comm]

/-- **After a run the empty name has the value it has been made with**, or none if it has been removed since the last
reset. -/
theorem get?_nil_run (o : Origin) (ops : List Operation) :
    (run o ops).entries.get? [] = if Cleared ops then none else o.registry.entries.get? [] := by
  induction ops using List.reverseRecOn with
  | nil => rfl
  | append_singleton ops op ih =>
    have hdefaults : (Dictionary.ofList (run o ops).defaults).get? [] = o.registry.entries.get? [] := by
      rw [defaults_run, o.registry_eq]
      rfl
    rw [run_append_singleton, get?_nil_apply, hdefaults, ih]
    simp only [cleared_append_singleton]
    cases op.isReset with
    | true => rfl
    | false =>
      cases op.removesNil with
      | true => simp
      | false => simp

/-! ## What a registry is made of -/

/-- The empty name is made with the value of the last entry that is given for it. -/
theorem Origin.get?_nil_eq_some_iff {v : Text} :
    o.registry.entries.get? [] = some v ↔ Change.LastWrite o.changes [] v := by
  rw [← Change.foldl_apply_eq_some_iff, ← o.get?_ofList_defaults, o.registry_eq]
  rfl

theorem Origin.get?_nil_eq_none_iff :
    o.registry.entries.get? [] = none ↔ ∀ e ∈ o.given, Name.normalize e.1 ≠ [] := by
  rw [o.registry_eq, ofEntries]
  constructor
  · intro hnone e he hname
    obtain ⟨v, hv⟩ := Dictionary.exists_get?_ofList (List.mem_map_of_mem (f := normalizeEntry) he)
    rw [normalizeEntry, hname, hnone] at hv
    cases hv
  · intro hgiven
    rw [Option.eq_none_iff_forall_ne_some]
    intro v hv
    obtain ⟨e, he, hnormal⟩ := List.mem_map.1 (Dictionary.mem_of_get?_ofList hv)
    exact hgiven e he (congrArg Prod.fst hnormal)

theorem normalize_ne_nil_of_mem_builtinEntries : ∀ e ∈ builtinEntries, Name.normalize e.1 ≠ [] := by decide +kernel

theorem named_run : (run o ops).Named ↔ (∀ e ∈ o.given, Name.normalize e.1 ≠ []) ∨ Cleared ops := by
  rw [named_iff, get?_nil_run, ← Origin.get?_nil_eq_none_iff]
  split
  next hcleared => exact iff_of_true rfl (.inr hcleared)
  next hcleared => exact (or_iff_left hcleared).symm

/-- **When nothing is stored under the empty name.** Whatever is done to a registry, no key of it is ever empty just
when none of the entries that it is made of has a name of blanks and underscores; so it is for one that is made empty or
of the built-in styles. After a run no key is empty just when this is so, or when such a name has been unregistered
since the last reset; otherwise all such names have the value of the last entry that has been given for one of them. -/
theorem named_run_iff (o : Origin) :
    ((∀ ops, (run o ops).Named) ↔ ∀ e ∈ o.given, Name.normalize e.1 ≠ []) ∧
    (o = .empty ∨ o = .builtin → ∀ ops, (run o ops).Named) ∧
    ∀ ops, let r := run o ops
      (r.Named ↔ (∀ e ∈ o.given, Name.normalize e.1 ≠ []) ∨ Cleared ops) ∧
      (r.Named ↔ ∀ name, Name.normalize name = [] → r.lookup name = none) ∧
      ∀ name value, Name.normalize name = [] →
        (r.lookup name = some value ↔ Change.LastWrite o.changes [] value ∧ ¬ Cleared ops) := by
  refine ⟨⟨fun hnamed => ?_, fun hgiven ops => named_run.2 (.inl hgiven)⟩, fun ho ops => ?_, fun ops =>
    ⟨named_run, named_iff_lookup, fun name value hname => ?_⟩⟩
  · -- before the first operation nothing has been removed
    have hnot : ¬ Cleared [] := by decide
    exact (named_run.1 (hnamed [])).resolve_right hnot
  · rcases ho with rfl | rfl
    · exact named_run.2 (.inl fun _ he => absurd he List.not_mem_nil)
    · exact named_run.2 (.inl normalize_ne_nil_of_mem_builtinEntries)
  · rw [lookup_of_normalize_eq_nil hname, get?_nil_run, ← Origin.get?_nil_eq_some_iff]
    split
    next hcleared => exact iff_of_false nofun fun h => h.2 hcleared
    next hcleared => exact (and_iff_left hcleared).symm

/-- A registry that is made of an entry for two underscores has it under the empty name, also after a reset. The same
entry is ignored when it is registered. -/
theorem not_named_run :
    let o : Origin := .entries [("__".toList, "red".toList)]
    (run o []).snapshot = [([], "red".toList)] ∧ (run o []).lookup "_".toList = some "red".toList ∧
      ¬ (run o []).Named ∧
      (run o [.unregister "_".toList]).Named ∧ ¬ (run o [.unregister "_".toList, .reset]).Named ∧
      (run .empty [.register "__".toList "red".toList]).snapshot = [] := by
  decide +kernel

end Registry
end TerminalMarkup
