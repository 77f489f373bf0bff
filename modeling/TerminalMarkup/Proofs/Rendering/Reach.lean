import TerminalMarkup.Proofs.Theme.Isolation
import TerminalMarkup.Renderer

/-!
# The names that a text reaches

A text refers to names, and the values of names refer to others, possibly in circles. `Registry.Reaches` is the closure:
all names, in their normal form, that such references lead to. Names that the registry does not know are among them.

What is written for a text depends on these names only: registries that agree on them give the same codes
(`Registry.codes_congr`), and so the same output in every form (`Renderer.rendersAlike_of_reaches`). Themes that are
loaded and removed elsewhere are one way for registries to agree.
-/

namespace TerminalMarkup

namespace Registry

variable {r r' : Registry} {d : Delimiters} {s : Text}

/-- The names that a text refers to, in their normal form. -/
def referredNames (d : Delimiters) (s : Text) : List Text :=
  (tokenize d s).filterMap fun
    | .semantic name => some (Name.normalize name)
    | _ => none

/-- The references of the text lead to the name `k`, directly or through the values of other names. -/
inductive Reaches (r : Registry) (d : Delimiters) (s : Text) : Text → Prop
  | reference {k : Text} : k ∈ referredNames d s → Reaches r d s k
  | stored {k l value : Text} : Reaches r d s k → r.entries.get? k = some value →
      l ∈ referredNames .canonical value → Reaches r d s l

/-- The registries have the same values for all names that the text reaches. -/
def AgreeOn (r r' : Registry) (d : Delimiters) (s : Text) : Prop :=
  ∀ k, r.Reaches d s k → r'.entries.get? k = r.entries.get? k

theorem mem_referredNames {name : Text} (h : .semantic name ∈ tokenize d s) :
    Name.normalize name ∈ referredNames d s := List.mem_filterMap.2 ⟨_, h, rfl⟩

theorem mem_referredNames_of_tagsOf {value name : Text} (h : .semantic name ∈ tagsOf d value) :
    Name.normalize name ∈ referredNames d value := by
  unfold tagsOf at h
  split at h
  · exact mem_referredNames (List.mem_filter.1 h).1
  · split at h
    · exact absurd (List.mem_singleton.1 h) Token.noConfusion
    · cases h

/-- What a text reaches lies among any names that are closed under references. -/
theorem Reaches.mem_of_closed {names : List Text} (hs : ∀ k ∈ referredNames d s, k ∈ names)
    (hclosed : ∀ k ∈ names, ∀ value ∈ r.entries.get? k, ∀ l ∈ referredNames .canonical value, l ∈ names) {k : Text}
    (h : r.Reaches d s k) : k ∈ names := by
  induction h with
  | reference hk => exact hs _ hk
  | stored _ hvalue hl ih => exact hclosed _ ih _ hvalue _ hl

/-- **The codes of a reached name** depend on reached names only. The induction is on the levels of references that are
left; every level stays within the names that are reached. -/
theorem codes_congr (h : r.AgreeOn r' d s) (depth : Nat) {name : Text} (hname : r.Reaches d s (Name.normalize name)) :
    r'.codes depth name = r.codes depth name := by
  induction depth generalizing name with
  | zero => rfl
  | succ depth ih =>
    have hlookup : r'.lookup name = r.lookup name := h _ hname
    rw [codes, codes, hlookup]
    cases hvalue : r.lookup name with
    | none => rfl
    | some value =>
      refine List.flatMap_congr fun t ht => ?_
      cases t with
      | text s => rfl
      | direct code => rfl
      | semantic inner => exact ih (.stored hname hvalue (mem_referredNames_of_tagsOf ht))

/-- **A text expands alike** where the registries agree on what it reaches. -/
theorem segments_congr (h : r.AgreeOn r' d s) : segments d r' s = segments d r s := by
  refine List.flatMap_congr fun t ht => ?_
  cases t with
  | text s => rfl
  | direct code => rfl
  | semantic name => exact congrArg _ (codes_congr h maxDepth (.reference (mem_referredNames ht)))

end Registry

namespace Renderer

variable {re re' : Renderer} {s : Text}

/-- Two renderers write the same for a text, in every form that does not strip it. -/
structure RendersAlike (re re' : Renderer) (s : Text) : Prop where
  segments : segments re'.delimiters re'.registry s = segments re.delimiters re.registry s
  expand : expand re'.delimiters re'.registry s = expand re.delimiters re.registry s
  ansi : re'.ansi s = re.ansi s
  ansiFor : ∀ profile, re'.ansiFor profile s = re.ansiFor profile s
  ansiWithin : ∀ base, re'.ansiWithin s base = re.ansiWithin s base
  widgetMarkup : re'.widgetMarkup s = re.widgetMarkup s

/-- Everything that is written for a text comes from its segments. -/
theorem rendersAlike_of_segments {r : Registry}
    (h : TerminalMarkup.segments re.delimiters r s = TerminalMarkup.segments re.delimiters re.registry s) :
    RendersAlike re { re with registry := r } s := by
  have hrender (profile : Profile) (base : Option Style) :
      render re.delimiters r profile base s = render re.delimiters re.registry profile base s := by
    rw [render, render, h]
  have hfor (profile : Profile) : ({ re with registry := r } : Renderer).ansiFor profile s = re.ansiFor profile s := by
    rw [Renderer.ansiFor, Renderer.ansiFor, hrender]
    rfl
  refine ⟨h, ?_, ?_, hfor, fun base => ?_, ?_⟩
  · rw [TerminalMarkup.expand, TerminalMarkup.expand, h]
  · rw [Renderer.ansi, Renderer.ansi, hfor]
    rfl
  · rw [Renderer.ansiWithin, Renderer.ansiWithin, hrender]
    rfl
  · rw [Renderer.widgetMarkup, Renderer.widgetMarkup, TerminalMarkup.widgetMarkup, TerminalMarkup.widgetMarkup, h]

/-- **A text is rendered from the names that it reaches.** Registries that agree on them give the same output. In
particular, themes that are loaded and removed change nothing for a text that reaches no name under their namespaces;
for a theme without a namespace, no name of a theme key. -/
theorem rendersAlike_of_reaches (re : Renderer) (s : Text) :
    (∀ r, re.registry.AgreeOn r re.delimiters s → RendersAlike re { re with registry := r } s) ∧
      ∀ actions : List ThemeAction,
        (∀ a ∈ actions, ∀ k, re.registry.Reaches re.delimiters s k → ¬ Touches a.target k) →
          RendersAlike re { re with registry := re.registry.actAll actions } s := by
  have hagree (r : Registry) (h : re.registry.AgreeOn r re.delimiters s) :
      RendersAlike re { re with registry := r } s := rendersAlike_of_segments (Registry.segments_congr h)
  exact ⟨hagree, fun actions h => hagree _ fun k hk => re.registry.get?_actAll_of_not_touches fun a ha => h a ha k hk⟩

/-- A reference to a circle of names, beside a preview that comes and goes. -/
theorem rendersAlike_of_reaches_circle :
    let re := new (.ofEntries [("theme_title".toList, "{{|red|}}{{_base_}}".toList),
      ("base".toList, "{{|::B|}}{{_Theme_Title_}}".toList), ("other".toList, "blue".toList)])
    let s := "{{_Theme_Title_}}x{{_Gone_}}".toList
    let r := re.registry.register "other".toList "green".toList
    let actions := [ThemeAction.load (some "Preview".toList) [("Title".toList, "green".toList)] .canonical,
      .unload "Preview".toList]
    re.registry.AgreeOn r re.delimiters s ∧ RendersAlike re { re with registry := r } s ∧
      (∀ a ∈ actions, ∀ k, re.registry.Reaches re.delimiters s k → ¬ Touches a.target k) ∧
      RendersAlike re { re with registry := re.registry.actAll actions } s := by
  intro re s r actions
  let names := ["theme_title".toList, "base".toList, "gone".toList]
  have hnames (k : Text) (h : re.registry.Reaches re.delimiters s k) : k ∈ names :=
    h.mem_of_closed (by decide +kernel) (by decide +kernel)
  have hsame : ∀ k ∈ names, r.entries.get? k = re.registry.entries.get? k := by decide +kernel
  have hagree : re.registry.AgreeOn r re.delimiters s := fun k hk => hsame k (hnames k hk)
  have hns : Name.normalize "Preview".toList ≠ [] := by decide
  have hunder : ∀ k ∈ names, ¬ Name.namespaceKey "Preview".toList <+: k := by decide +kernel
  have hapart (k : Text) (hk : k ∈ names) : ¬ Touches (some "Preview".toList) k :=
    fun h => hunder k hk ((touches_iff hns).1 h)
  have hactions : ∀ a ∈ actions, ∀ k, re.registry.Reaches re.delimiters s k → ¬ Touches a.target k := by
    simp only [actions, List.forall_mem_cons, ThemeAction.target]
    exact ⟨fun k hk => hapart k (hnames k hk), fun k hk => hapart k (hnames k hk), fun _ h => (List.not_mem_nil h).elim⟩
  obtain ⟨hregistries, hthemes⟩ := rendersAlike_of_reaches re s
  exact ⟨hagree, hregistries r hagree, hactions, hthemes actions hactions⟩

end Renderer
end TerminalMarkup
