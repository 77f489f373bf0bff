import Mathlib.Data.Set.Operations
import TerminalMarkup.Proofs.Dictionary
import TerminalMarkup.Proofs.Registry.Namespace
import TerminalMarkup.Proofs.Registry.Normal
import TerminalMarkup.Registry.Builtin

/-!
# Runs of a registry

A registry is made empty, of the built-in styles or of given entries (`Registry.Origin`), and then changed by operations
(`Registry.Operation`). What it holds for a name afterwards is what a map would hold in which nothing is done but
writing one key and removing keys:

* `Registry.history` gives the writes and removals of a run, in terms of normal forms only,
* the last of them that concerns a key decides (`Change.foldl_apply_eq_some_iff`),
* every operation makes its changes and no others (`Registry.Normal.get?_apply`), and therefore a run makes those of its
  history (`Registry.get?_run`).

All that a run stores is in normal form (`Registry.normal_run`). No normal form begins with an underscore, and so the
removal of a namespace without a name of its own, which the registry ignores, has nothing to remove.
-/

namespace TerminalMarkup

/-! ## Changes of a map -/

/-- A change of a map from texts to values. -/
inductive Change where
  | write (key value : Text)
  | remove (keys : Text → Bool)

namespace Change

variable {m : Text → Option Text} {c : Change} {cs : List Change} {k v : Text}

/-- The change writes or removes the key. -/
def Concerns (k : Text) : Change → Prop
  | write key _ => key = k
  | remove keys => keys k = true

/-- The map after the change. -/
def apply (m : Text → Option Text) : Change → Text → Option Text
  | write key value => fun k => if key = k then some value else m k
  | remove keys => fun k => if keys k then none else m k

/-- The last change that concerns the key writes the value. -/
def LastWrite (cs : List Change) (k v : Text) : Prop :=
  ∃ before after, cs = before ++ write k v :: after ∧ ∀ c ∈ after, ¬ c.Concerns k

theorem apply_of_not_concerns (h : ¬ c.Concerns k) : apply m c k = m k := by
  cases c with
  | write key value => exact if_neg h
  | remove keys => exact if_neg h

theorem apply_eq_some_iff_of_concerns (h : c.Concerns k) : apply m c k = some v ↔ c = write k v := by
  cases c with
  | write key value =>
    obtain rfl : key = k := h
    simp [apply]
  | remove keys =>
    have hk : keys k = true := h
    simp [apply, hk]

theorem lastWrite_append_singleton :
    LastWrite (cs ++ [c]) k v ↔ c = write k v ∨ ¬ c.Concerns k ∧ LastWrite cs k v := by
  constructor
  · rintro ⟨before, after, he, hafter⟩
    induction after using List.reverseRecOn with
    | nil => exact .inl (List.singleton_inj.1 (List.append_inj' he rfl).2)
    | append_singleton after d _ =>
      rw [← List.cons_append, ← List.append_assoc] at he
      obtain ⟨rfl, hlast⟩ := List.append_inj' he rfl
      obtain rfl : c = d := List.singleton_inj.1 hlast
      exact .inr ⟨hafter c (by simp), before, after, rfl, fun d hd => hafter d (List.mem_append_left _ hd)⟩
  · rintro (rfl | ⟨hc, before, after, rfl, hafter⟩)
    · exact ⟨cs, [], rfl, fun _ hd => absurd hd List.not_mem_nil⟩
    · refine ⟨before, after ++ [c], by simp, fun d hd => ?_⟩
      rcases List.mem_append.1 hd with hd | hd
      · exact hafter d hd
      · rwa [List.mem_singleton.1 hd]

/-- **The last change of a key decides.** After changes of an empty map a key has the value that was written last,
unless it has been removed since. -/
theorem foldl_apply_eq_some_iff : cs.foldl apply (fun _ => none) k = some v ↔ LastWrite cs k v := by
  induction cs using List.reverseRecOn with
  | nil => simp [LastWrite]
  | append_singleton cs c ih =>
    rw [List.foldl_append, List.foldl_cons, List.foldl_nil, lastWrite_append_singleton]
    by_cases hc : c.Concerns k
    · rw [apply_eq_some_iff_of_concerns hc]
      exact (or_iff_left fun h => h.1 hc).symm
    · rw [apply_of_not_concerns hc, ih]
      refine (and_iff_right hc).symm.trans (or_iff_right ?_).symm
      rintro rfl
      exact hc rfl

end Change

namespace Registry

/-! ## Operations -/

/-- What a registry is made of. -/
inductive Origin where
  | empty
  | builtin
  | entries (es : List (Text × Text))

/-- The registry as it is made. -/
def Origin.registry : Origin → Registry
  | empty => Registry.empty
  | builtin => Registry.builtin
  | entries es => ofEntries es

/-- The entries that a registry is made of, as they are given. -/
def Origin.given : Origin → List (Text × Text)
  | empty => []
  | builtin => builtinEntries
  | entries es => es

theorem Origin.registry_eq (o : Origin) : o.registry = ofEntries o.given := by
  cases o with
  | empty => rfl
  | builtin => rfl
  | entries es => rfl

/-- An operation that changes a registry. -/
inductive Operation where
  | register (name raw : Text)
  | registerAll (es : List (Text × Text))
  | replaceNamespace (ns : Text) (es : List (Text × Text))
  | unregister (name : Text)
  | unregisterNamespace (ns : Text)
  | reset

/-- The registry after an operation. -/
def apply (r : Registry) : Operation → Registry
  | .register name raw => r.register name raw
  | .registerAll es => r.registerAll es
  | .replaceNamespace ns es => r.replaceNamespace ns es
  | .unregister name => r.unregister name
  | .unregisterNamespace ns => r.unregisterNamespace ns
  | .reset => r.reset

/-- The registry after operations. -/
def run (o : Origin) (ops : List Operation) : Registry := ops.foldl apply o.registry

theorem run_append_singleton (o : Origin) (ops : List Operation) (op : Operation) :
    run o (ops ++ [op]) = (run o ops).apply op := List.foldl_append

/-! ## Histories -/

/-- An entry is written in the form in which it is stored. -/
def written (e : Text × Text) : Change := .write (Name.normalize e.1) (normalizeValue e.2)

/-- The writes of entries. There is none for a name whose normal form is empty. -/
def writes (es : List (Text × Text)) : List Change := (es.filter fun e => Name.normalize e.1 ≠ []).map written

/-- The writes of the entries that a registry is made of, whatever their names. -/
def Origin.changes (o : Origin) : List Change := o.given.map written

/-- The changes that an operation stands for. -/
def Operation.changes (o : Origin) : Operation → List Change
  | register name raw => writes [(name, raw)]
  | registerAll es => writes es
  | replaceNamespace ns es => .remove (fun k => Name.namespaceKey ns <+: k) :: writes es
  | unregister name => [.remove fun k => k = Name.normalize name]
  | unregisterNamespace ns => [.remove fun k => Name.namespaceKey ns <+: k]
  | reset => .remove (fun _ => true) :: o.changes

/-- The changes that a registry has seen. -/
def history (o : Origin) (ops : List Operation) : List Change := o.changes ++ ops.flatMap (Operation.changes o)

theorem history_append_singleton (o : Origin) (ops : List Operation) (op : Operation) :
    history o (ops ++ [op]) = history o ops ++ op.changes o := by
  rw [history, List.flatMap_append, List.flatMap_singleton, ← List.append_assoc, history]

/-! ## What is stored is normal -/

/-- All entries and defaults are in the form in which entries are stored. -/
structure Normal (r : Registry) : Prop where
  entries : ∀ e ∈ r.snapshot, e ∈ Set.range normalizeEntry
  defaults : ∀ e ∈ r.defaults, e ∈ Set.range normalizeEntry

theorem apply_replaceNamespace (r : Registry) (ns : Text) (es : List (Text × Text)) :
    r.apply (.replaceNamespace ns es) = (r.unregisterNamespace ns).registerAll es := r.replaceNamespace_eq ns es

theorem defaults_apply (r : Registry) (op : Operation) : (r.apply op).defaults = r.defaults := by
  cases op with
  | register name raw => exact r.defaults_registerAll [(name, raw)]
  | registerAll es => exact r.defaults_registerAll es
  | replaceNamespace ns es =>
    rw [apply_replaceNamespace]
    exact (r.unregisterNamespace ns).defaults_registerAll es
  | unregister name => rfl
  | unregisterNamespace ns => rfl
  | reset => rfl

theorem defaults_run (o : Origin) (ops : List Operation) : (run o ops).defaults = o.registry.defaults := by
  induction ops using List.reverseRecOn with
  | nil => rfl
  | append_singleton ops op ih => rw [run_append_singleton, defaults_apply, ih]

theorem normal_ofEntries (es : List (Text × Text)) : (ofEntries es).Normal where
  entries := by
    rintro ⟨k, v⟩ he
    obtain ⟨e, -, hnormal⟩ := List.mem_map.1 (Dictionary.mem_of_get?_ofList (Dictionary.mem_toList_iff.1 he))
    exact ⟨e, hnormal⟩
  defaults := by
    intro e he
    obtain ⟨e', -, hnormal⟩ := List.mem_map.1 he
    exact ⟨e', hnormal⟩

namespace Normal

variable {r : Registry}

theorem register (h : r.Normal) (name raw : Text) : (r.register name raw).Normal := by
  rw [Registry.register]
  split
  · exact h
  · refine ⟨fun e he => ?_, h.defaults⟩
    rcases Dictionary.mem_insertEntry he with rfl | he
    · exact ⟨(name, raw), rfl⟩
    · exact h.entries e he

theorem registerAll (h : r.Normal) (es : List (Text × Text)) : (r.registerAll es).Normal :=
  List.foldlRecOn es _ h fun _ hr e _ => hr.register e.1 e.2

/-- Fewer entries are normal, too. -/
theorem filter (h : r.Normal) (p : Text → Bool) : Normal { r with entries := r.entries.filter p } :=
  ⟨fun e he => h.entries e (List.mem_of_mem_filter he), h.defaults⟩

/-- Every operation keeps what is stored normal. -/
theorem apply (h : r.Normal) (op : Operation) : (r.apply op).Normal := by
  cases op with
  | register name raw => exact h.register name raw
  | registerAll es => exact h.registerAll es
  | replaceNamespace ns es =>
    rw [apply_replaceNamespace]
    exact (h.filter _).registerAll es
  | unregister name => exact h.filter _
  | unregisterNamespace ns => exact h.filter _
  | reset =>
    exact ⟨fun e he => h.defaults e (Dictionary.mem_of_get?_ofList (Dictionary.mem_toList_iff.1 he)), h.defaults⟩

end Normal

/-- **A run stores normal forms only.** -/
theorem normal_run (o : Origin) (ops : List Operation) : (run o ops).Normal := by
  induction ops using List.reverseRecOn with
  | nil =>
    rw [run, List.foldl_nil, o.registry_eq]
    exact normal_ofEntries _
  | append_singleton ops op ih =>
    rw [run_append_singleton]
    exact ih.apply op

/-! ## Namespaces -/

/-- A normal form belongs to a namespace just when it starts with its key, also where the namespace has no name. -/
theorem inNamespace_normalize (ns name : Text) :
    inNamespace ns (Name.normalize name) = decide (Name.namespaceKey ns <+: Name.normalize name) := by
  rw [Bool.eq_iff_iff, inNamespace_iff, decide_eq_true_eq]
  refine and_iff_right_of_imp fun hkey hns => Name.head?_normalize_ne name ?_
  rw [Name.namespaceKey, hns] at hkey
  obtain ⟨rest, hrest⟩ := hkey
  rw [← hrest]
  rfl

theorem Normal.inNamespace_eq {r : Registry} (h : r.Normal) (ns : Text) {e : Text × Text} (he : e ∈ r.snapshot) :
    inNamespace ns e.1 = decide (Name.namespaceKey ns <+: e.1) := by
  obtain ⟨given, rfl⟩ := h.entries e he
  exact inNamespace_normalize ns given.1

/-! ## Every operation makes its changes -/

theorem writes_cons (e : Text × Text) (es : List (Text × Text)) : writes (e :: es) = writes [e] ++ writes es := by
  rw [writes, ← List.singleton_append, List.filter_append, List.map_append]
  rfl

theorem get?_register (r : Registry) (e : Text × Text) :
    (r.register e.1 e.2).entries.get? = (writes [e]).foldl Change.apply r.entries.get? := by
  rw [register, writes, List.filter_singleton, normalizeEntry]
  by_cases he : Name.normalize e.1 = []
  · simp [he]
  · funext k
    simp [he, written, Change.apply]

theorem get?_registerAll_eq_foldl (r : Registry) (es : List (Text × Text)) :
    (r.registerAll es).entries.get? = (writes es).foldl Change.apply r.entries.get? := by
  induction es generalizing r with
  | nil => rfl
  | cons e es ih =>
    rw [writes_cons, List.foldl_append, ← get?_register]
    exact ih (r.register e.1 e.2)

theorem get?_insertAll_map (d : Dictionary Text) (es : List (Text × Text)) :
    (d.insertAll (es.map normalizeEntry)).get? = (es.map written).foldl Change.apply d.get? := by
  induction es generalizing d with
  | nil => rfl
  | cons e es ih =>
    have hinsert : (d.insert (Name.normalize e.1) (normalizeValue e.2)).get? = Change.apply d.get? (written e) := by
      funext k
      exact Dictionary.get?_insert d _ k _
    rw [List.map_cons, List.map_cons, List.foldl_cons, ← hinsert]
    exact ih _

theorem Origin.get?_ofList_defaults (o : Origin) :
    (Dictionary.ofList o.registry.defaults).get? = o.changes.foldl Change.apply fun _ => none := by
  rw [o.registry_eq]
  exact get?_insertAll_map _ _

theorem Normal.get?_unregisterNamespace {r : Registry} (h : r.Normal) (ns : Text) :
    (r.unregisterNamespace ns).entries.get? =
      Change.apply r.entries.get? (.remove fun k => Name.namespaceKey ns <+: k) := by
  funext k
  rw [Registry.get?_unregisterNamespace]
  simp only [Change.apply]
  cases hk : r.entries.get? k with
  | none => rw [ite_self, ite_self]
  | some v => rw [h.inNamespace_eq ns (Dictionary.mem_toList_iff.2 hk)]

/-- **An operation makes the changes it stands for.** -/
theorem Normal.get?_apply {r : Registry} {o : Origin} (h : r.Normal) (hd : r.defaults = o.registry.defaults)
    (op : Operation) : (r.apply op).entries.get? = (op.changes o).foldl Change.apply r.entries.get? := by
  cases op with
  | register name raw => exact r.get?_register (name, raw)
  | registerAll es => exact r.get?_registerAll_eq_foldl es
  | replaceNamespace ns es =>
    rw [Operation.changes, List.foldl_cons, ← h.get?_unregisterNamespace, apply_replaceNamespace]
    exact (r.unregisterNamespace ns).get?_registerAll_eq_foldl es
  | unregister name =>
    funext k
    exact (Dictionary.get?_erase r.entries _ k).trans (by simp [Operation.changes, Change.apply])
  | unregisterNamespace ns => exact h.get?_unregisterNamespace ns
  | reset =>
    have hclear : Change.apply r.entries.get? (.remove fun _ => true) = fun _ => none := rfl
    rw [Operation.changes, List.foldl_cons, hclear, ← o.get?_ofList_defaults, ← hd]
    rfl

/-- **A run makes the changes of its history.** -/
theorem get?_run (o : Origin) (ops : List Operation) :
    (run o ops).entries.get? = (history o ops).foldl Change.apply fun _ => none := by
  induction ops using List.reverseRecOn with
  | nil =>
    rw [history, List.flatMap_nil, List.append_nil, ← o.get?_ofList_defaults, run, List.foldl_nil, o.registry_eq]
    rfl
  | append_singleton ops op ih =>
    rw [run_append_singleton, history_append_singleton, List.foldl_append, ← ih]
    exact (normal_run o ops).get?_apply (defaults_run o ops) op

/-- **A registry is a map of normal forms.** After any operations a name has the value that was written last for its
normal form, unless that has been removed since. Replacing a namespace is removing it and then writing; removing a
namespace removes the names that start with its key, and counts them, also where there is no name to it; a reset returns
to the registry as it was made; and the entries are strictly ordered by their names. -/
theorem run_refines_history (o : Origin) (ops : List Operation) :
    let r := run o ops
    (∀ name value, r.lookup name = some value ↔ Change.LastWrite (history o ops) (Name.normalize name) value) ∧
    (∀ name, r.contains name = true ↔ ∃ value, Change.LastWrite (history o ops) (Name.normalize name) value) ∧
    (∀ ns es, r.replaceNamespace ns es = (r.unregisterNamespace ns).registerAll es) ∧
    (∀ ns, (r.unregisterNamespace ns).snapshot = r.snapshot.filter (fun e => ¬ Name.namespaceKey ns <+: e.1) ∧
      r.namespaceSize ns = r.snapshot.countP fun e => Name.namespaceKey ns <+: e.1) ∧
    r.reset.snapshot = o.registry.snapshot ∧
    r.snapshot.Pairwise (fun a b => a.1 < b.1) ∧ r.size = r.snapshot.length := by
  intro r
  have hvalue (k v : Text) : r.entries.get? k = some v ↔ Change.LastWrite (history o ops) k v := by
    rw [get?_run, Change.foldl_apply_eq_some_iff]
  have hnormal : r.Normal := normal_run o ops
  refine ⟨fun name value => hvalue _ value, fun name => ?_, r.replaceNamespace_eq, fun ns => ⟨?_, ?_⟩, ?_, ?_, rfl⟩
  · rw [contains, Dictionary.contains, Option.isSome_iff_exists]
    exact exists_congr fun value => hvalue _ value
  · refine List.filter_congr fun e he => ?_
    simp only [hnormal.inNamespace_eq ns he, decide_not]
  · rw [namespaceSize_eq_countP]
    exact List.countP_congr fun e he => by rw [hnormal.inNamespace_eq ns he]
  · rw [reset, snapshot, defaults_run, o.registry_eq]
    rfl
  · exact r.entries.sorted

end Registry
end TerminalMarkup
