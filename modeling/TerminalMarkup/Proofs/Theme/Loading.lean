import TerminalMarkup.Proofs.Composition.Made
import TerminalMarkup.Proofs.Dictionary
import TerminalMarkup.Proofs.Theme.Acyclic
import TerminalMarkup.Proofs.Theme.Naming
import TerminalMarkup.Proofs.Theme.Registry

/-!
# What loading a theme registers

Every resolution is made of style codes, those that a cycle cuts short included (`Resolver.made_resolveKey`), and so the
registry stores the code of a key as it is.

A table resolves to the answers of a new resolver for each of its keys, of which the last one for each spelling stays
(`resolveTable_eq`). Hence every entry of a loaded theme is the code of some key of the table
(`Registry.of_mem_entries_loadTheme`), and every key of the table has an entry of its name
(`Registry.exists_mem_entries_loadTheme`).
-/

namespace TerminalMarkup

/-! ## Resolutions are made of style codes -/

/-- The composition of a stored value is made of style codes. -/
theorem Registry.made_composition (r : Registry) (levels : Nat) (value : Text) : (r.composition levels value).Made := by
  induction levels generalizing value with
  | zero =>
    refine List.foldlRecOn _ _ .empty fun c hc t ht => ?_
    cases t with
    | text s => exact hc
    | direct code => exact hc.overlay (isCode_of_mem_tagsOf ht)
    | semantic name => exact hc
  | succ levels ih =>
    refine List.foldlRecOn _ _ .empty fun c hc t ht => ?_
    cases t with
    | text s => exact hc
    | direct code => exact hc.overlay (isCode_of_mem_tagsOf ht)
    | semantic name =>
      dsimp only
      cases r.lookup name with
      | none => exact hc
      | some inner => exact hc.merge (ih inner)

/-- All results so far are made of style codes. -/
structure Progress.Made (p : Progress) : Prop where
  settled : ∀ ⦃k : Text⦄ ⦃c : Composition⦄, p.settled.get? k = some c → c.Made
  finished : ∀ ⦃k : Text⦄ ⦃c : Composition⦄, p.finished.get? k = some c → c.Made

namespace Scope

variable {sc : Scope} {entry : Text → Text → Progress → Resolution × Progress}

theorem made_fromRegistry (sc : Scope) (name : Text) : (sc.fromRegistry name).Made := by
  unfold fromRegistry
  split
  · exact sc.registry.made_composition _ _
  · exact .empty

/-- A resolution is made of style codes, and so are all results after it. -/
structure MadeBy (out : Resolution × Progress) : Prop where
  composition : out.1.composition.Made
  progress : out.2.Made

theorem made_reference (sc : Scope) (he : ∀ k raw p, p.Made → MadeBy (entry k raw p)) (name : Text) {p : Progress}
    (hp : p.Made) : MadeBy (sc.reference entry name p) := by
  unfold reference
  dsimp only
  split
  · split
    · exact ⟨.empty, hp⟩
    · split
      · exact he _ _ _ hp
      · exact ⟨sc.made_fromRegistry name, hp⟩
  · exact ⟨sc.made_fromRegistry name, hp⟩

theorem made_compose (he : ∀ k raw p, p.Made → MadeBy (entry k raw p)) (raw : Text) {p : Progress} (hp : p.Made) :
    MadeBy (sc.compose entry raw p) := by
  have hstart : MadeBy (⟨.empty, false⟩, p) := ⟨.empty, hp⟩
  rw [compose]
  refine List.foldlRecOn _ _ hstart fun out hout t ht => ?_
  obtain ⟨res, p⟩ := out
  have hres : res.composition.Made := hout.composition
  have hp : p.Made := hout.progress
  cases t with
  | text s => exact hout
  | direct code =>
    rw [composeTag_direct]
    exact ⟨hres.overlay (isCode_of_mem_tagsOf ht), hp⟩
  | semantic name =>
    have href := made_reference sc he name hp
    rw [composeTag_semantic]
    refine ⟨?_, href.progress⟩
    dsimp only
    exact hres.merge href.composition

theorem MadeBy.leave {out : Resolution × Progress} (h : MadeBy out) (k : Text) : MadeBy (Scope.leave k out) := by
  have hinsert {d : Dictionary Composition} (hd : ∀ ⦃l c⦄, d.get? l = some c → c.Made) {l : Text} {c : Composition}
      (hl : (d.insert k out.1.composition).get? l = some c) : c.Made := by
    rw [Dictionary.get?_insert] at hl
    split at hl
    · cases hl
      exact h.composition
    · exact hd hl
  refine ⟨h.composition, ?_⟩
  rw [Scope.leave]
  dsimp only
  split
  · exact ⟨h.progress.settled, fun _ _ => hinsert h.progress.finished⟩
  · exact ⟨fun _ _ => hinsert h.progress.settled, h.progress.finished⟩

/-- **A visit gives what is made of style codes.** The induction is on the depth. -/
theorem made_entry (sc : Scope) : ∀ (depth : Nat) (k raw : Text) (p : Progress), p.Made →
    MadeBy (sc.entry depth k raw p) := by
  intro depth
  induction depth with
  | zero => exact fun k raw p hp => ⟨.empty, hp⟩
  | succ depth ih =>
    intro k raw p hp
    cases hs : p.settled.get? k with
    | some c =>
      rw [entry_settled depth hs]
      exact ⟨hp.settled hs, hp⟩
    | none =>
      cases hf : p.finished.get? k with
      | some c =>
        rw [entry_finished depth hs hf]
        exact ⟨hp.finished hf, hp⟩
      | none =>
        rw [entry_fresh depth hs hf]
        exact (made_compose ih raw (p := { p with visiting := k :: p.visiting }) ⟨hp.settled, hp.finished⟩).leave k

end Scope

/-! ## The keys of a table -/

namespace Resolver

variable {sc : Scope} {key : Text}

/-- **Keys resolve to what is made of style codes**, cyclic keys included. -/
theorem made_resolveKey {c : Composition} (h : ((new sc).resolveKey key).1 = some c) : c.Made := by
  have hstart : (new sc).start.Made := ⟨(fun _ _ hk => by cases hk), (fun _ _ hk => by cases hk)⟩
  unfold resolveKey at h
  split at h
  · cases h
  next raw _ =>
    cases h
    exact (sc.made_entry _ _ _ _ hstart).composition

/-- Keys are told apart by their names only. -/
theorem resolveKey_congr (r : Resolver) {k l : Text} (h : themeKey k = themeKey l) :
    r.resolveKey k = r.resolveKey l := by
  rw [resolveKey, resolveKey, h]

theorem exists_resolveKey {raw : Text} (h : sc.table.get? (themeKey key) = some raw) :
    ∃ c, ((new sc).resolveKey key).1 = some c := by
  simp only [resolveKey, show (new sc).scope = sc from rfl, h]
  exact ⟨_, rfl⟩

/-- A key whose value is a style code. -/
theorem resolveKey_of_direct {raw code : Text} (h : sc.table.get? (themeKey key) = some raw)
    (ht : tagsOf sc.delimiters raw = [.direct code]) :
    ((new sc).resolveKey key).1 = some (Composition.empty.overlay code) :=
  (settled_new sc).resolveKey_eq ⟨raw, h, ht ▸ .direct code (.nil _)⟩

/-- A key whose value is a reference to the registry. -/
theorem resolveKey_of_outside {raw name : Text} (h : sc.table.get? (themeKey key) = some raw)
    (ht : tagsOf sc.delimiters raw = [.semantic name]) (hn : sc.target? name = none) :
    ((new sc).resolveKey key).1 = some (sc.fromRegistry name) := by
  have hread : sc.Reads (tagsOf sc.delimiters raw) .empty (Composition.empty.merge (sc.fromRegistry name)) :=
    ht ▸ .outside hn (.nil _)
  rw [(sc.made_fromRegistry name).canonical.empty_merge] at hread
  exact (settled_new sc).resolveKey_eq ⟨raw, h, hread⟩

end Resolver

namespace Scope

variable {table : List (Text × Text)} {d : Delimiters} {r : Registry} {ns : Option Text}

/-- Every key of the table has a value. -/
theorem exists_get?_ofTable (d : Delimiters) (r : Registry) (ns : Option Text) {key : Text}
    (h : key ∈ table.map Prod.fst) :
    ∃ raw, (ofTable table d r ns).table.get? (themeKey key) = some raw := by
  obtain ⟨e, he, rfl⟩ := List.mem_map.1 h
  exact Dictionary.exists_get?_ofList (List.mem_map_of_mem he)

theorem mem_of_get?_ofTable {k raw : Text} (h : (ofTable table d r ns).table.get? k = some raw) :
    ∃ key, themeKey key = k ∧ (key, raw) ∈ table := by
  obtain ⟨e, he, heq⟩ := List.mem_map.1 (Dictionary.mem_of_get?_ofList h)
  obtain ⟨hk, hraw⟩ := Prod.mk.inj heq
  exact ⟨e.1, hk, hraw ▸ he⟩

theorem get?_ofTable_singleton (key value : Text) (d : Delimiters) (r : Registry) (ns : Option Text) (k : Text) :
    (ofTable [(key, value)] d r ns).table.get? k = if themeKey key = k then some value else none :=
  Dictionary.get?_insert _ _ _ _

theorem exists_resolveKey_ofTable (d : Delimiters) (r : Registry) (ns : Option Text) {key : Text}
    (h : key ∈ table.map Prod.fst) : ∃ c, ((Resolver.new (ofTable table d r ns)).resolveKey key).1 = some c :=
  (exists_get?_ofTable d r ns h).elim fun _ => Resolver.exists_resolveKey

/-- What a table has for a key: its spelling, and its code. -/
def answer? (sc : Scope) (key : Text) : Option (Text × Text) :=
  ((Resolver.new sc).resolveKey key).1.map fun c => (spelledKey key, c.code)

theorem answer?_eq_some {sc : Scope} {key : Text} {e : Text × Text} :
    sc.answer? key = some e ↔ ∃ c, ((Resolver.new sc).resolveKey key).1 = some c ∧ e = (spelledKey key, c.code) := by
  rw [answer?, Option.map_eq_some_iff]
  exact exists_congr fun c => and_congr_right fun _ => eq_comm

end Scope

/-! ## Resolving a table -/

/-- Keys that are resolved one after the other are resolved as each on its own. The induction keeps the resolver
general, which has settled readings only. -/
theorem resolveKeys_eq {r : Resolver} (h : r.Settled) (keys : List Text) (codes : Dictionary Text) :
    resolveKeys keys r codes = codes.insertAll (keys.filterMap r.scope.answer?) := by
  induction keys generalizing r codes with
  | nil => rfl
  | cons key keys ih =>
    have hanswer := Resolver.ask_eq_of_settled h (.key key)
    have hscope := Resolver.scope_ask r (.key key)
    have hsettled := h.ask (.key key)
    simp only [Resolver.ask] at hanswer hscope hsettled
    have hentry : r.scope.answer? key = (r.resolveKey key).1.map fun c => (spelledKey key, c.code) :=
      hanswer ▸ rfl
    rw [resolveKeys]
    cases hk : r.resolveKey key with
    | mk answer r' =>
      rw [hk] at hscope hsettled hentry
      cases answer with
      | none =>
        rw [List.filterMap_cons_none hentry, ← hscope]
        exact ih hsettled codes
      | some c =>
        rw [List.filterMap_cons_some hentry, ← hscope]
        exact ih hsettled _

/-- **A table resolves to the answers for its keys.** -/
theorem resolveTable_eq (table : List (Text × Text)) (d : Delimiters) (r : Registry) (ns : Option Text) :
    resolveTable table d r ns
      = .ofList ((table.map Prod.fst).filterMap (Scope.ofTable table d r ns).answer?) :=
  resolveKeys_eq (Resolver.settled_new _) _ _

/-- Every code of a table is that of one of its keys. -/
theorem of_mem_resolveTable {table : List (Text × Text)} {d : Delimiters} {r : Registry} {ns : Option Text}
    {spelled code : Text} (h : (spelled, code) ∈ (resolveTable table d r ns).toList) :
    ∃ key ∈ table.map Prod.fst, ∃ c, ((Resolver.new (.ofTable table d r ns)).resolveKey key).1 = some c ∧
      spelled = spelledKey key ∧ code = c.code := by
  rw [Dictionary.mem_toList_iff, resolveTable_eq] at h
  obtain ⟨key, hkey, hentry⟩ := List.mem_filterMap.1 (Dictionary.mem_of_get?_ofList h)
  obtain ⟨c, hc, he⟩ := Scope.answer?_eq_some.1 hentry
  cases he
  exact ⟨key, hkey, c, hc, rfl, rfl⟩

/-! ## Loading a theme -/

namespace Registry

variable {r : Registry} {table : List (Text × Text)} {d : Delimiters} {ns : Option Text}

/-- Every entry of a loaded theme is the code of a key of the table, under the name of the key. -/
theorem of_mem_entries_loadTheme {e : Text × Text} (h : e ∈ (r.loadTheme table d ns).1.entries) :
    ∃ key ∈ table.map Prod.fst, ∃ c, ((Resolver.new (.ofTable table d r ns)).resolveKey key).1 = some c ∧
      e = (themeName ns (spelledKey key), c.code) := by
  obtain ⟨⟨spelled, code⟩, hm, rfl⟩ := List.mem_map.1 h
  obtain ⟨key, hkey, c, hc, rfl, rfl⟩ := of_mem_resolveTable hm
  exact ⟨key, hkey, c, hc, rfl⟩

/-- Every key of the table has an entry of its name. -/
theorem exists_mem_entries_loadTheme (r : Registry) (d : Delimiters) (ns : Option Text) {key : Text}
    (h : key ∈ table.map Prod.fst) :
    ∃ code, (themeName ns (spelledKey key), code) ∈ (r.loadTheme table d ns).1.entries := by
  obtain ⟨c, hc⟩ := Scope.exists_resolveKey_ofTable d r ns h
  have hentry := List.mem_filterMap.2 ⟨key, h, Scope.answer?_eq_some.2 ⟨c, hc, rfl⟩⟩
  obtain ⟨code, hcode⟩ := Dictionary.exists_get?_ofList hentry
  rw [← resolveTable_eq, ← Dictionary.mem_toList_iff] at hcode
  exact ⟨code, List.mem_map.2 ⟨_, hcode, rfl⟩⟩

/-- The registry without the names of a namespace, if there is one. -/
def cleared (r : Registry) : Option Text → Registry
  | some ns => r.unregisterNamespace ns
  | none => r

theorem writeTheme_eq (r : Registry) (ns : Option Text) (es : List (Text × Text)) :
    r.writeTheme ns es = (r.cleared ns).registerAll es := by
  cases ns with
  | none => rfl
  | some ns => exact r.replaceNamespace_eq ns es

/-- What a load leaves: the entries of the theme, written in place of its namespace. -/
theorem loadTheme_snd (r : Registry) (table : List (Text × Text)) (d : Delimiters) (ns : Option Text) :
    (r.loadTheme table d ns).2 = (r.cleared ns).registerAll (r.loadTheme table d ns).1.entries := r.writeTheme_eq ns _

/-- The names of a theme have the normal forms of its keys behind that of the namespace. -/
theorem normalize_of_mem_entries {e : Text × Text} (h : e ∈ (r.loadTheme table d ns).1.entries) :
    ∃ key ∈ table.map Prod.fst, Name.normalize e.1 = Name.keyStart ns ++ registeredKey key := by
  obtain ⟨key, hkey, c, -, rfl⟩ := of_mem_entries_loadTheme h
  exact ⟨key, hkey, normalize_themeName ns key⟩

/-- **What is registered for a key** is the code of a key that is registered under the same name. -/
theorem exists_get?_loadTheme (r : Registry) (d : Delimiters) (ns : Option Text) {key : Text}
    (h : key ∈ table.map Prod.fst) :
    ∃ l ∈ table.map Prod.fst, ∃ c, ((Resolver.new (.ofTable table d r ns)).resolveKey l).1 = some c ∧
      registeredKey l = registeredKey key ∧
      (r.loadTheme table d ns).2.entries.get? (Name.keyStart ns ++ registeredKey key) = some c.code := by
  obtain ⟨code, he⟩ := exists_mem_entries_loadTheme r d ns h
  have hname := normalize_themeName ns key
  obtain ⟨e, hm, hsame, hget⟩ := (r.cleared ns).exists_mem_of_get?_registerAll he
    (hname ▸ List.append_ne_nil_of_right_ne_nil _ (registeredKey_ne_nil key))
  obtain ⟨l, hl, c, hc, rfl⟩ := of_mem_entries_loadTheme hm
  dsimp only at hsame hget
  rw [hname, normalize_themeName, List.append_cancel_left_eq] at hsame
  rw [hname, normalizeValue_of_isCode (Resolver.made_resolveKey hc).canonical.isCode_code, ← loadTheme_snd] at hget
  exact ⟨l, hl, c, hc, hsame, hget⟩

/-- What is registered for a theme of one key whose value is a style code. -/
theorem get?_loadTheme_singleton (r : Registry) (ns : Option Text) (key code : Text)
    (h : tagsOf .canonical code = [.direct code]) :
    (r.loadTheme [(key, code)] .canonical ns).2.entries.get? (Name.keyStart ns ++ registeredKey key)
      = some (Composition.empty.overlay code).code := by
  have hkey : key ∈ [(key, code)].map Prod.fst := List.mem_cons_self
  obtain ⟨l, hl, c, hc, -, hget⟩ := r.exists_get?_loadTheme .canonical ns hkey
  obtain rfl := List.mem_singleton.1 hl
  have hvalue := (Scope.get?_ofTable_singleton l code .canonical r ns (themeKey l)).trans (if_pos rfl)
  rw [Resolver.resolveKey_of_direct hvalue h] at hc
  obtain rfl := Option.some.inj hc
  exact hget

/-! ## Loading under a namespace -/

/-- The names of a theme belong to its namespace. -/
theorem inNamespace_of_mem_entries {ns : Text} (hns : Name.normalize ns ≠ []) {e : Text × Text}
    (he : e ∈ (r.loadTheme table d (some ns)).1.entries) : inNamespace ns (Name.normalize e.1) = true := by
  obtain ⟨key, -, hname⟩ := normalize_of_mem_entries he
  rw [inNamespace_iff, hname, Name.keyStart_of_ne hns]
  exact ⟨hns, List.prefix_append _ _⟩

/-- A theme that is removed again leaves what would be left without it. -/
theorem unregisterNamespace_loadTheme {ns : Text} (hns : Name.normalize ns ≠ []) :
    (r.loadTheme table d (some ns)).2.unregisterNamespace ns = r.unregisterNamespace ns := by
  have hin : ∀ e ∈ (r.loadTheme table d (some ns)).1.entries, inNamespace ns (Name.normalize e.1) = true :=
    fun e he => inNamespace_of_mem_entries hns he
  have hremove := (r.unregisterNamespace ns).unregisterNamespace_registerAll hin
  rw [unregisterNamespace_unregisterNamespace] at hremove
  rw [loadTheme_snd]
  exact hremove

/-- Outside its namespace a theme changes nothing. -/
theorem get?_loadTheme_of_not_inNamespace {ns : Text} (hns : Name.normalize ns ≠ []) {k : Text}
    (hk : inNamespace ns k = false) : (r.loadTheme table d (some ns)).2.entries.get? k = r.entries.get? k := by
  have hkeep : (r.unregisterNamespace ns).entries.get? k = r.entries.get? k := by
    rw [get?_unregisterNamespace, hk]
    rfl
  rw [loadTheme_snd]
  refine ((r.unregisterNamespace ns).get?_registerAll_of_forall_ne fun e he hek => ?_).trans hkeep
  rw [← hek, inNamespace_of_mem_entries hns he] at hk
  cases hk

end Registry
end TerminalMarkup
