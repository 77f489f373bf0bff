import TerminalMarkup.Proofs.Text.Ends
import TerminalMarkup.Proofs.Text.Lowercase
import TerminalMarkup.Registry.Basic

/-!
# Namespaces

A name in a namespace has a normal form that is made of two parts, that of the namespace and that of the name
(`Name.normalize_qualify`): `Name.keyStart` is the first.

What the registry has for a key after writing entries is the value of the last of them with that key
(`Registry.get?_registerAll`), and entries of a namespace do not outlive it (`unregisterNamespace_registerAll`).
Replacing a namespace is removing it and then writing the entries (`replaceNamespace_eq`).
-/

namespace TerminalMarkup

theorem Text.startsWith_iff {p s : Text} : Text.startsWith p s = true ↔ p <+: s := by
  rw [startsWith, Option.isSome_iff_exists]
  constructor
  · rintro ⟨r, hr⟩
    exact ⟨r, append_of_after? hr⟩
  · rintro ⟨r, rfl⟩
    exact ⟨r, after?_append p r⟩

namespace Name

/-! ## Normal forms -/

/-- What the normal forms of names in a namespace start with; there is nothing where the namespace is none. -/
def keyStart : Option Text → Text
  | some ns => if normalize ns = [] then [] else namespaceKey ns
  | none => []

@[simp] theorem keyStart_none : keyStart none = [] := rfl

theorem namespaceKey_ne_nil (ns : Text) : namespaceKey ns ≠ [] :=
  List.append_ne_nil_of_right_ne_nil _ (List.cons_ne_nil _ _)

theorem keyStart_of_ne {ns : Text} (h : normalize ns ≠ []) : keyStart (some ns) = namespaceKey ns := if_neg h

theorem keyStart_of_eq {ns : Text} (h : normalize ns = []) : keyStart (some ns) = [] := if_pos h

/-- A name that begins with a letter of its own and does not end in a blank. -/
structure Solid (name : Text) : Prop where
  ne_nil : name ≠ []
  blank_start : name.dropWhile isBlank = name
  blank_end : Text.dropEndWhile isBlank name = name
  underscore_start : name.dropWhile isUnderscore = name

/-- Some character of a solid name is no underscore. -/
theorem Solid.dropEndWhile_ne_nil {name : Text} (h : Solid name) : Text.dropEndWhile isUnderscore name ≠ [] := by
  rw [Ne, Text.dropEndWhile_eq_nil_iff, ← List.dropWhile_eq_nil_iff, h.underscore_start]
  exact h.ne_nil

theorem Solid.normalize {name : Text} (h : Solid name) :
    normalize name = (Text.dropEndWhile isUnderscore name).lowercase := by
  rw [Name.normalize, Text.trim, Text.strip_of_ends h.blank_start h.blank_end, Text.strip, h.underscore_start]

/-- A namespace without the blanks around it and the underscores behind it has the same normal form. -/
theorem normalize_eq_lowercase_dropWhile (ns : Text) :
    normalize ns = Text.lowercase ((ns.trim.dropEndWhile isUnderscore).dropWhile isUnderscore) := by
  rw [normalize, Text.strip_eq_dropWhile]

theorem underscores_of_normalize {ns : Text} (h : normalize ns = []) : ns.trim.dropEndWhile isUnderscore = [] := by
  rw [normalize_eq_lowercase_dropWhile, Text.lowercase_eq_nil_iff, List.dropWhile_eq_nil_iff] at h
  rw [← Text.dropEndWhile_dropEndWhile, Text.dropEndWhile_eq_nil_iff]
  exact h

theorem qualify_of_eq {ns : Text} (h : normalize ns = []) (name : Text) : qualify (some ns) name = name := by
  rw [qualify, Option.map_some, underscores_of_normalize h]

/-- A name in a namespace loses the underscores in front of the namespace, and those at its end, in its normal form. -/
theorem normalize_qualify_eq {ns name : Text} (hns : normalize ns ≠ []) (hname : name ≠ [])
    (hend : Text.dropEndWhile isBlank name = name) :
    normalize (qualify (some ns) name)
      = Text.lowercase (Text.dropEndWhile isUnderscore
          ((ns.trim.dropEndWhile isUnderscore).dropWhile isUnderscore ++ '_' :: name)) := by
  have hfront : (ns.trim.dropEndWhile isUnderscore).dropWhile isUnderscore ≠ [] := by
    rwa [normalize_eq_lowercase_dropWhile, Ne, Text.lowercase_eq_nil_iff] at hns
  have hblank : (ns.trim.dropEndWhile isUnderscore).dropWhile isBlank = ns.trim.dropEndWhile isUnderscore :=
    Text.dropWhile_eq_self_of_prefix (Text.dropWhile_strip ns) (List.rdropWhile_prefix _ _)
  have hqualify : qualify (some ns) name = ns.trim.dropEndWhile isUnderscore ++ '_' :: name := by
    rw [qualify, Option.map_some]
    cases hd : ns.trim.dropEndWhile isUnderscore with
    | nil => exact absurd (by rw [hd]; rfl) hfront
    | cons c cs => rfl
  generalize ns.trim.dropEndWhile isUnderscore = front at hfront hblank hqualify
  have hcons : Text.dropEndWhile isBlank ('_' :: name) = '_' :: name := by
    have happend := Text.dropEndWhile_append_of_ne_nil (hend.symm ▸ hname) ['_']
    rwa [hend] at happend
  have htrim : Text.trim (front ++ '_' :: name) = front ++ '_' :: name := by
    refine (Text.strip_append ?_ ?_).trans ?_
    · rw [hblank]
      rintro rfl
      exact hfront rfl
    · rw [hcons]
      exact List.cons_ne_nil _ _
    · rw [hblank, hcons]
  rw [hqualify, normalize, htrim, Text.strip, Text.dropWhile_append_of_ne_nil hfront]

/-- A name that is not made of underscores follows the key of its namespace. -/
theorem normalize_qualify_of_ne {ns name : Text} (hns : normalize ns ≠ [])
    (hname : Text.dropEndWhile isUnderscore name ≠ []) (hend : Text.dropEndWhile isBlank name = name) :
    normalize (qualify (some ns) name)
      = namespaceKey ns ++ (Text.dropEndWhile isUnderscore name).lowercase := by
  have hback : Text.dropEndWhile isUnderscore ('_' :: name) = '_' :: Text.dropEndWhile isUnderscore name :=
    Text.dropEndWhile_append_of_ne_nil hname ['_']
  have hne : name ≠ [] := by
    rintro rfl
    exact hname rfl
  rw [normalize_qualify_eq hns hne hend,
    Text.dropEndWhile_append_of_ne_nil (by rw [hback]; exact List.cons_ne_nil _ _), hback,
    Text.lowercase_append_underscore, namespaceKey, normalize_eq_lowercase_dropWhile, List.append_assoc]
  rfl

/-- A name of underscores has the normal form of its namespace. -/
theorem normalize_qualify_of_underscores {ns name : Text} (hns : normalize ns ≠ []) (hne : name ≠ [])
    (hname : Text.dropEndWhile isUnderscore name = []) (hend : Text.dropEndWhile isBlank name = name) :
    normalize (qualify (some ns) name) = normalize ns := by
  have hback : Text.dropEndWhile isUnderscore ('_' :: name) = [] := by
    rw [Text.dropEndWhile_eq_nil_iff] at hname ⊢
    exact List.forall_mem_cons.2 ⟨rfl, hname⟩
  rw [normalize_qualify_eq hns hne hend, Text.dropEndWhile_append, if_pos hback, ← Text.dropWhile_dropEndWhile,
    Text.dropEndWhile_dropEndWhile, normalize_eq_lowercase_dropWhile]

/-- **The normal form of a name in a namespace** is that of the namespace and that of the name. -/
theorem normalize_qualify (ns : Option Text) {name : Text} (h : Solid name) :
    normalize (qualify ns name) = keyStart ns ++ normalize name := by
  cases ns with
  | none => rfl
  | some ns =>
    by_cases hns : normalize ns = []
    · rw [keyStart_of_eq hns, qualify_of_eq hns]
      rfl
    · rw [keyStart_of_ne hns, normalize_qualify_of_ne hns h.dropEndWhile_ne_nil h.blank_end, h.normalize]

end Name

namespace Registry

/-! ## Writing entries -/

/-- **The last write of a key stays**, and a key that is not written keeps its value. -/
theorem get?_registerAll (r : Registry) (es : List (Text × Text)) {k : Text} (hk : k ≠ []) :
    (r.registerAll es).entries.get? k
      = ((es.reverse.find? fun e => Name.normalize e.1 = k).map fun e => normalizeValue e.2).or (r.entries.get? k) := by
  induction es using List.reverseRecOn with
  | nil => rfl
  | append_singleton es e ih =>
    have hstep : r.registerAll (es ++ [e]) = (r.registerAll es).register e.1 e.2 := List.foldl_append
    rw [hstep, List.reverse_append, List.reverse_singleton, List.singleton_append, List.find?_cons, register,
      normalizeEntry]
    by_cases he : Name.normalize e.1 = k
    · simp [he, hk]
    · simp only [he, decide_false]
      rw [← ih]
      split
      · rfl
      · rw [Dictionary.get?_insert, if_neg he]

theorem lookup_register (r : Registry) {name : Text} (h : Name.normalize name ≠ []) (raw : Text) :
    (r.register name raw).lookup name = some (normalizeValue raw) := by
  rw [register, normalizeEntry, if_neg h, lookup, Dictionary.get?_insert, if_pos rfl]

theorem get?_register_of_ne (r : Registry) {name raw k : Text} (h : Name.normalize name ≠ k) :
    (r.register name raw).entries.get? k = r.entries.get? k := by
  rw [register, normalizeEntry]
  split
  · rfl
  · rw [Dictionary.get?_insert, if_neg h]

theorem get?_registerAll_of_forall_ne (r : Registry) {es : List (Text × Text)} {k : Text}
    (h : ∀ e ∈ es, Name.normalize e.1 ≠ k) : (r.registerAll es).entries.get? k = r.entries.get? k := by
  induction es generalizing r with
  | nil => rfl
  | cons e es ih =>
    rw [List.forall_mem_cons] at h
    exact (ih (r.register e.1 e.2) h.2).trans (r.get?_register_of_ne h.1)

/-- A key that has been written has the value of one of its entries. -/
theorem exists_mem_of_get?_registerAll (r : Registry) {es : List (Text × Text)} {e : Text × Text} (he : e ∈ es)
    (hk : Name.normalize e.1 ≠ []) :
    ∃ e' ∈ es, Name.normalize e'.1 = Name.normalize e.1 ∧
      (r.registerAll es).entries.get? (Name.normalize e.1) = some (normalizeValue e'.2) := by
  rw [get?_registerAll r es hk]
  cases hf : es.reverse.find? fun e' => Name.normalize e'.1 = Name.normalize e.1 with
  | none => exact absurd (List.find?_eq_none.1 hf e (List.mem_reverse.2 he)) (by simp)
  | some e' =>
    exact ⟨e', List.mem_reverse.1 (List.mem_of_find?_eq_some hf), by simpa using List.find?_some hf, rfl⟩

/-- The keys after writing entries are those of the entries and those before. -/
theorem contains_registerAll (r : Registry) (es : List (Text × Text)) (k : Text) :
    (r.registerAll es).entries.contains k
      = ((es.map Prod.fst).any (fun name => Name.normalize name = k) && decide (k ≠ []) || r.entries.contains k) := by
  induction es generalizing r with
  | nil => rfl
  | cons e es ih =>
    have hstep : r.registerAll (e :: es) = (r.register e.1 e.2).registerAll es := rfl
    have hhead : (r.register e.1 e.2).entries.contains k
        = (decide (Name.normalize e.1 = k) && decide (k ≠ []) || r.entries.contains k) := by
      rw [register, normalizeEntry]
      by_cases hnil : Name.normalize e.1 = []
      · rw [if_pos hnil, hnil]
        cases k with
        | nil => rfl
        | cons c cs => rfl
      · rw [if_neg hnil, Dictionary.contains, Dictionary.get?_insert]
        by_cases hk : Name.normalize e.1 = k
        · simp [hk, hk ▸ hnil]
        · simp [hk, Dictionary.contains]
    rw [hstep, ih, hhead, List.map_cons, List.any_cons, Bool.and_or_distrib_right, ← Bool.or_assoc,
      Bool.or_comm (_ && _) (_ && _)]

/-! ## Removing a namespace -/

theorem inNamespace_iff {ns k : Text} :
    inNamespace ns k = true ↔ Name.normalize ns ≠ [] ∧ Name.namespaceKey ns <+: k := by
  rw [inNamespace, Bool.and_eq_true, decide_eq_true_eq, Text.startsWith_iff]

theorem get?_unregisterNamespace (r : Registry) (ns k : Text) :
    (r.unregisterNamespace ns).entries.get? k = if inNamespace ns k then none else r.entries.get? k := by
  rw [unregisterNamespace, Dictionary.get?_filter]
  cases inNamespace ns k <;> rfl

theorem defaults_registerAll (r : Registry) (es : List (Text × Text)) : (r.registerAll es).defaults = r.defaults := by
  induction es generalizing r with
  | nil => rfl
  | cons e es ih =>
    refine (ih (r.register e.1 e.2)).trans ?_
    rw [register]
    split
    · rfl
    · rfl

@[ext] theorem ext_get? {r s : Registry} (he : ∀ k, r.entries.get? k = s.entries.get? k)
    (hd : r.defaults = s.defaults) : r = s := by
  obtain ⟨es, ds⟩ := r
  obtain ⟨es', ds'⟩ := s
  obtain rfl : es = es' := Dictionary.ext_get? he
  obtain rfl : ds = ds' := hd
  rfl

/-- **Entries of a namespace do not outlive it.** -/
theorem unregisterNamespace_registerAll (r : Registry) {ns : Text} {es : List (Text × Text)}
    (h : ∀ e ∈ es, inNamespace ns (Name.normalize e.1) = true) :
    (r.registerAll es).unregisterNamespace ns = r.unregisterNamespace ns := by
  refine ext_get? (fun k => ?_) (r.defaults_registerAll es)
  rw [get?_unregisterNamespace, get?_unregisterNamespace]
  split
  · rfl
  next hk =>
    refine r.get?_registerAll_of_forall_ne fun e he hek => hk ?_
    rw [← hek]
    exact h e he

/-- The number of names in a namespace is that of the entries whose key belongs to it. -/
theorem namespaceSize_eq_countP (r : Registry) (ns : Text) :
    r.namespaceSize ns = r.snapshot.countP fun e => inNamespace ns e.1 := by
  rw [namespaceSize, Dictionary.size, Dictionary.filter, ← List.countP_eq_length_filter, snapshot]

/-! ## Replacing a namespace -/

theorem entries_register (r : Registry) (name raw : Text) :
    (r.register name raw).entries = writeEntry r.entries (name, raw) := by
  rw [register, writeEntry]
  split
  · rfl
  · rfl

theorem entries_registerAll (r : Registry) (es : List (Text × Text)) :
    (r.registerAll es).entries = es.foldl writeEntry r.entries := by
  induction es generalizing r with
  | nil => rfl
  | cons e es ih =>
    rw [List.foldl_cons, ← entries_register]
    exact ih (r.register e.1 e.2)

/-- The entries outside a namespace, by its key. -/
theorem entries_unregisterNamespace (r : Registry) (ns : Text) :
    (r.unregisterNamespace ns).entries =
      if Name.namespaceKey ns = ['_'] then r.entries
      else r.entries.filter fun k => !Text.startsWith (Name.namespaceKey ns) k := by
  have hkey : Name.namespaceKey ns = ['_'] ↔ Name.normalize ns = [] := List.append_left_eq_self
  refine Dictionary.ext_get? fun k => ?_
  rw [get?_unregisterNamespace, inNamespace]
  by_cases hns : Name.normalize ns = []
  · rw [if_pos (hkey.2 hns)]
    simp [hns]
  · rw [if_neg fun h => hns (hkey.1 h), Dictionary.get?_filter]
    cases Text.startsWith (Name.namespaceKey ns) k with
    | true => simp [hns]
    | false => simp

/-- **Replacing a namespace** is removing it and then writing the entries. -/
theorem replaceNamespace_eq (r : Registry) (ns : Text) (es : List (Text × Text)) :
    r.replaceNamespace ns es = (r.unregisterNamespace ns).registerAll es := by
  refine ext_get? (fun k => ?_) ((r.unregisterNamespace ns).defaults_registerAll es).symm
  rw [entries_registerAll, entries_unregisterNamespace]
  rfl

theorem unregisterNamespace_unregisterNamespace (r : Registry) (ns : Text) :
    (r.unregisterNamespace ns).unregisterNamespace ns = r.unregisterNamespace ns := by
  refine ext_get? (fun k => ?_) rfl
  rw [get?_unregisterNamespace, get?_unregisterNamespace]
  split
  · rfl
  · rfl

end Registry
end TerminalMarkup
