import TerminalMarkup.Proofs.Theme.Loading

/-!
# Themes beside each other

Themes that are loaded under several namespaces, and live without one, share a registry. Their entries are told apart by
the starts of their names only, and namespaces are arbitrary names. So what loading or removing a theme may reach are
all names with one start (`Name.reach`), and the names of another theme are safe from it when neither of the two starts
extends the other (`Overlaps`).

`actAll_isolated` says that no actions change such entries, and that others do so wherever there is an overlap.
-/

namespace TerminalMarkup

/-- What is done with a theme. -/
inductive ThemeAction
  | load (ns : Option Text) (table : List (Text × Text)) (d : Delimiters)
  | unload (ns : Text)

/-- The namespace that an action is for. -/
def ThemeAction.target : ThemeAction → Option Text
  | load ns _ _ => ns
  | unload ns => some ns

namespace Registry

/-- Loads a theme, or removes one. -/
def act (r : Registry) : ThemeAction → Registry
  | .load ns table d => (r.loadTheme table d ns).2
  | .unload ns => r.unregisterNamespace ns

/-- Acts from left to right. -/
def actAll (r : Registry) (actions : List ThemeAction) : Registry := actions.foldl act r

end Registry

/-! ## Reach -/

/-- What all names start with that a theme may change, but for the name of a key of underscores. -/
def Name.reach (ns : Option Text) : Text := if keyStart ns = [] then themeKeyStart else keyStart ns

/-- A theme under `actor` may change names of a theme under `owner`. -/
def Overlaps (owner actor : Option Text) : Prop :=
  Name.reach actor <+: Name.keyStart owner ++ themeKeyStart ∨ Name.keyStart owner ++ themeKeyStart <+: Name.reach actor

instance (owner actor : Option Text) : Decidable (Overlaps owner actor) := inferInstanceAs (Decidable (_ ∨ _))

/-- A theme under `ns` may change the key: it removes the whole namespace, and writes names of theme keys. -/
def Touches (ns : Option Text) (k : Text) : Prop :=
  if Name.keyStart ns = [] then ∃ key, k = registeredKey key else Name.keyStart ns <+: k

/-- A theme in a namespace touches just the names under the namespace. -/
theorem touches_iff {ns k : Text} (hns : Name.normalize ns ≠ []) :
    Touches (some ns) k ↔ Name.namespaceKey ns <+: k := by
  rw [Touches, Name.keyStart_of_ne hns, if_neg (Name.namespaceKey_ne_nil ns)]

variable {owner actor : Option Text}

theorem Name.keyStart_cases (ns : Option Text) :
    keyStart ns = [] ∨ ∃ n, ns = some n ∧ normalize n ≠ [] ∧ keyStart ns = normalize n ++ ['_'] := by
  cases ns with
  | none => exact .inl rfl
  | some n =>
    by_cases hn : normalize n = []
    · exact .inl (keyStart_of_eq hn)
    · exact .inr ⟨n, rfl, hn, keyStart_of_ne hn⟩

/-- The names of theme keys begin as names of references do. -/
theorem overlaps_of_reach_prefix {key : Text} (h : Name.reach actor <+: Name.keyStart owner ++ registeredKey key) :
    Overlaps owner actor := by
  rcases registeredKey_cases key with htheme | hstart
  · have hshort : "theme".toList <+: themeKeyStart := by decide
    rw [htheme] at h
    exact .inl (h.trans ((List.prefix_append_right_inj _).2 hshort))
  · exact List.prefix_or_prefix_of_prefix h ((List.prefix_append_right_inj _).2 hstart)

/-- **What is not in reach is not touched.** -/
theorem overlaps_of_touches {key : Text} (h : Touches actor (Name.keyStart owner ++ registeredKey key)) :
    Overlaps owner actor := by
  unfold Touches at h
  split at h
  next hactor =>
    have hreach : Name.reach actor = themeKeyStart := if_pos hactor
    obtain ⟨l, hl⟩ := h
    rcases registeredKey_cases l with htheme | hstart
    · rcases Name.keyStart_cases owner with howner | ⟨n, -, -, howner⟩
      · exact .inl (by rw [hreach, howner, List.nil_append])
      · -- the name of a namespace ends with an underscore, and there is none in this one
        have hmem : '_' ∈ "theme".toList := by
          rw [← htheme, ← hl, howner]
          simp
        exact absurd hmem (by decide)
    · have hprefix : Name.reach actor <+: Name.keyStart owner ++ registeredKey key := by
        rw [hreach, hl]
        exact hstart
      exact overlaps_of_reach_prefix hprefix
  next hactor =>
    have hreach : Name.reach actor = Name.keyStart actor := if_neg hactor
    exact overlaps_of_reach_prefix (hreach ▸ h)

namespace Registry

variable (r : Registry) {k : Text}

/-- Removing a namespace keeps what it does not touch. -/
theorem get?_cleared_of_not_touches (h : ¬ Touches actor k) : (r.cleared actor).entries.get? k = r.entries.get? k := by
  cases actor with
  | none => rfl
  | some n =>
    have hin : inNamespace n k = false := by
      rw [← Bool.not_eq_true, inNamespace_iff]
      rintro ⟨hn, hp⟩
      exact h ((touches_iff hn).2 hp)
    exact (r.get?_unregisterNamespace n k).trans (by rw [hin]; rfl)

/-- **One action** keeps what it does not touch. -/
theorem get?_act_of_not_touches {a : ThemeAction} (h : ¬ Touches a.target k) :
    (r.act a).entries.get? k = r.entries.get? k := by
  cases a with
  | unload n => exact get?_cleared_of_not_touches r h
  | load ns table d =>
    have hns : ¬ Touches ns k := h
    rw [act, loadTheme, writeTheme_eq]
    refine (get?_registerAll_of_forall_ne _ fun e he hek => hns ?_).trans (r.get?_cleared_of_not_touches hns)
    obtain ⟨key, -, hname⟩ : ∃ key ∈ table.map Prod.fst, Name.normalize e.1 = Name.keyStart ns ++ registeredKey key :=
      normalize_of_mem_entries (r := r) (d := d) he
    rw [← hek, hname, Touches]
    split
    next hstart => exact ⟨key, by rw [hstart, List.nil_append]⟩
    · exact List.prefix_append _ _

/-- **All actions** keep what none of them touches. The induction is on the actions. -/
theorem get?_actAll_of_not_touches {actions : List ThemeAction} (h : ∀ a ∈ actions, ¬ Touches a.target k) :
    (r.actAll actions).entries.get? k = r.entries.get? k := by
  induction actions generalizing r with
  | nil => rfl
  | cons a actions ih =>
    rw [List.forall_mem_cons] at h
    exact (ih (r.act a) h.2).trans (r.get?_act_of_not_touches h.1)

/-- The names of a theme that is out of reach are kept. -/
theorem get?_actAll {actions : List ThemeAction} (h : ∀ a ∈ actions, ¬ Overlaps owner a.target) (key : Text) :
    (r.actAll actions).entries.get? (Name.keyStart owner ++ registeredKey key)
      = r.entries.get? (Name.keyStart owner ++ registeredKey key) :=
  r.get?_actAll_of_not_touches fun a ha ht => h a ha (overlaps_of_touches ht)

end Registry

/-! ## Overlaps -/

theorem isFixed_of_mem_themeKeyStart : ∀ c ∈ themeKeyStart, Lowercase.IsFixed c := by
  unfold Lowercase.IsFixed
  decide

theorem Name.isFixed_of_mem_keyStart {ns : Option Text} {c : Char} (h : c ∈ keyStart ns) : Lowercase.IsFixed c := by
  rcases keyStart_cases ns with hs | ⟨n, -, -, hs⟩
  · rw [hs] at h
    cases h
  · rw [hs] at h
    rcases List.mem_append.1 h with h | h
    · exact Text.isFixed_of_mem_lowercase h
    · rw [List.mem_singleton.1 h]
      exact ⟨by decide, by decide⟩

theorem Name.isFixed_of_mem_reach {ns : Option Text} {c : Char} (h : c ∈ reach ns) : Lowercase.IsFixed c := by
  unfold reach at h
  split at h
  · exact isFixed_of_mem_themeKeyStart c h
  · exact isFixed_of_mem_keyStart h

/-- Where there is an overlap, some name of a theme key under `owner` is in the reach of `actor`. -/
theorem Overlaps.exists_name (h : Overlaps owner actor) :
    ∃ s t, (∀ c ∈ s, Lowercase.IsFixed c) ∧ (∀ c ∈ t, Lowercase.IsFixed c) ∧
      Name.keyStart owner ++ (themeKeyStart ++ s) = Name.reach actor ++ t := by
  rcases h with ⟨t, ht⟩ | ⟨s, hs⟩
  · refine ⟨[], t, fun c hc => (List.not_mem_nil hc).elim, fun c hc => ?_, by rw [List.append_nil, ht]⟩
    rcases List.mem_append.1 (ht ▸ List.mem_append_right _ hc) with hc | hc
    · exact Name.isFixed_of_mem_keyStart hc
    · exact isFixed_of_mem_themeKeyStart c hc
  · refine ⟨s, [], fun c hc => ?_, fun c hc => (List.not_mem_nil hc).elim, by
      rw [List.append_nil, ← hs, List.append_assoc]⟩
    exact Name.isFixed_of_mem_reach (hs ▸ List.mem_append_right _ hc)

/-- **An overlap is felt**: some entry of a theme is lost, or replaced. -/
theorem Overlaps.exists_act_ne (h : Overlaps owner actor) :
    ∃ table d a, a.target = actor ∧ ∀ r : Registry, ∃ e ∈ (r.loadTheme table d owner).1.entries,
      ((r.loadTheme table d owner).2.act a).lookup e.1 ≠ (r.loadTheme table d owner).2.lookup e.1 := by
  obtain ⟨s, t, hs, ht, hname⟩ := h.exists_name
  let key := themeNameStart ++ (s ++ ['x'])
  let table := [(key, "red".toList)]
  have hregistered : Name.keyStart owner ++ registeredKey key = Name.reach actor ++ (t ++ ['x']) := by
    rw [registeredKey_of_isFixed hs, ← List.append_assoc themeKeyStart, ← List.append_assoc, hname, List.append_assoc]
  have hkey : key ∈ table.map Prod.fst := List.mem_cons_self
  -- what the theme has for the key before the action, and that any other answer afterwards will do
  have hfelt (a : ThemeAction)
      (ha : ∀ r : Registry, (r.act a).entries.get? (Name.reach actor ++ (t ++ ['x']))
        ≠ some (Composition.empty.overlay "red".toList).code) (r : Registry) :
      ∃ e ∈ (r.loadTheme table .canonical owner).1.entries, ((r.loadTheme table .canonical owner).2.act a).lookup e.1
        ≠ (r.loadTheme table .canonical owner).2.lookup e.1 := by
    obtain ⟨code, he⟩ := r.exists_mem_entries_loadTheme .canonical owner hkey
    refine ⟨_, he, ?_⟩
    have hbefore := r.get?_loadTheme_singleton owner key "red".toList (by decide)
    rw [Registry.lookup, Registry.lookup, normalize_themeName, hbefore, hregistered]
    exact ha _
  rcases Name.keyStart_cases actor with hactor | ⟨n, rfl, hn, hactor⟩
  · have hreach : Name.reach actor = themeKeyStart := if_pos hactor
    refine ⟨table, .canonical, .load actor [(themeNameStart ++ (t ++ ['x']), "blue".toList)] .canonical, rfl,
      hfelt _ fun r => ?_⟩
    have hafter := r.get?_loadTheme_singleton actor (themeNameStart ++ (t ++ ['x'])) "blue".toList (by decide)
    rw [hactor, List.nil_append, registeredKey_of_isFixed ht, ← hreach] at hafter
    rw [Registry.act, hafter]
    decide
  · have hreach : Name.reach (some n) = Name.namespaceKey n := by
      rw [Name.reach, Name.keyStart_of_ne hn, if_neg (Name.namespaceKey_ne_nil n)]
    refine ⟨table, .canonical, .unload n, rfl, hfelt _ fun r => ?_⟩
    have hin : Registry.inNamespace n (Name.reach (some n) ++ (t ++ ['x'])) = true :=
      Registry.inNamespace_iff.2 ⟨hn, hreach ▸ List.prefix_append _ _⟩
    rw [Registry.act, Registry.get?_unregisterNamespace, if_pos hin]
    exact (Option.some_ne_none _).symm

/-! ## Isolation -/

/-- **Themes are isolated just where they do not overlap.** However many themes are loaded and removed under other
namespaces, every entry of a theme stays what it is, as long as none of them overlaps with that of the theme. Under
any namespace that does, some theme is lost in part. -/
theorem actAll_isolated (owner : Option Text) :
    (∀ (r : Registry) table d actions, (∀ a ∈ actions, ¬ Overlaps owner a.target) →
      ∀ e ∈ (r.loadTheme table d owner).1.entries, ∃ code, (r.loadTheme table d owner).2.lookup e.1 = some code ∧
        ((r.loadTheme table d owner).2.actAll actions).lookup e.1 = some code) ∧
    ∀ actor, Overlaps owner actor → ∃ table d a, a.target = actor ∧
      ∀ r : Registry, ∃ e ∈ (r.loadTheme table d owner).1.entries,
        ((r.loadTheme table d owner).2.act a).lookup e.1 ≠ (r.loadTheme table d owner).2.lookup e.1 := by
  refine ⟨fun r table d actions h e he => ?_, fun actor h => h.exists_act_ne⟩
  obtain ⟨key, hkey, hname⟩ := Registry.normalize_of_mem_entries he
  obtain ⟨l, -, c, -, -, hget⟩ := r.exists_get?_loadTheme d owner hkey
  refine ⟨c.code, ?_, ?_⟩
  · rw [Registry.lookup, hname, hget]
  · rw [Registry.lookup, hname, Registry.get?_actAll _ h, hget]

/-- A live theme beside a preview that comes and goes. -/
theorem actAll_isolated_preview :
    let live := (Registry.empty.loadTheme [("Title".toList, "red".toList)] .canonical none).2
    let actions := [ThemeAction.load (some "Preview".toList) [("Title".toList, "green".toList)] .canonical,
      .unload "Preview".toList]
    (∀ a ∈ actions, ¬ Overlaps none a.target) ∧
      ∃ code, live.lookup "Theme_Title".toList = some code ∧
        (live.actAll actions).lookup "Theme_Title".toList = some code := by
  intro live actions
  have hapart : ∀ a ∈ actions, ¬ Overlaps none a.target := by
    have hpreview : ¬ Overlaps none (some "Preview".toList) := by decide +kernel
    simp only [actions, List.forall_mem_cons, ThemeAction.target]
    exact ⟨hpreview, hpreview, fun _ h => (List.not_mem_nil h).elim⟩
  have hentry : ("Theme_Title".toList, "red::".toList)
      ∈ (Registry.empty.loadTheme [("Title".toList, "red".toList)] .canonical none).1.entries := by decide +kernel
  exact ⟨hapart, (actAll_isolated none).1 _ _ _ actions hapart _ hentry⟩

/-- **Different namespaces that overlap**: one extends the other, and one reads as the names of live theme keys. -/
theorem actAll_not_isolated :
    (Name.normalize "Preview".toList ≠ Name.normalize "Preview_Dark".toList ∧
      let loaded := (Registry.empty.loadTheme [("Title".toList, "red".toList)] .canonical
        (some "Preview_Dark".toList)).2
      loaded.lookup "Preview_Dark_Theme_Title".toList = some "red::".toList ∧
        (loaded.act (.unload "Preview".toList)).lookup "Preview_Dark_Theme_Title".toList = none) ∧
    let live := (Registry.empty.loadTheme [("Title".toList, "red".toList)] .canonical none).2
    live.lookup "Theme_Title".toList = some "red::".toList ∧
      (live.act (.unload "Theme".toList)).lookup "Theme_Title".toList = none := by
  decide +kernel

end TerminalMarkup
