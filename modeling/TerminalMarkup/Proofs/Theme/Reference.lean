import Mathlib.Logic.Relation
import TerminalMarkup.Theme.Resolver

/-!
# References between theme keys

The references in the values of a theme table make a graph of its keys (`Scope.Refers`), on which a resolution walks.

* `Scope.Reads ts c c'` is the reading of tags without any memory: laying `ts` over `c`, with every reference replaced
  by what its own value reads as, gives `c'`. It is a relation, for a cycle has no reading;
* a reading is unique (`Reads.det`), and readings follow one another (`Reads.append`);
* a key is cyclic (`Scope.Cyclic`) when its references lead to a key that they lead back to; a value that has a reading
  refers to no cyclic key (`Reads.not_cyclic`).
-/

namespace TerminalMarkup

namespace Scope

variable {sc : Scope}

/-! ## The graph of keys -/

/-- The key of the table that a reference means, with its value. -/
def target? (sc : Scope) (name : Text) : Option (Text × Text) :=
  if isThemeReference name then (sc.table.get? (themeKey name)).map fun raw => (themeKey name, raw) else none

/-- The value of the key `k` holds a reference to the key `l`. -/
def Refers (sc : Scope) (k l : Text) : Prop :=
  ∃ raw name raw', sc.table.get? k = some raw ∧ .semantic name ∈ tagsOf sc.delimiters raw ∧
    sc.target? name = some (l, raw')

/-- The references of `k` lead to a key whose references lead back to it. -/
def Cyclic (sc : Scope) (k : Text) : Prop :=
  ∃ l, Relation.ReflTransGen sc.Refers k l ∧ Relation.TransGen sc.Refers l l

theorem of_target? {name k raw : Text} (h : sc.target? name = some (k, raw)) :
    isThemeReference name = true ∧ themeKey name = k ∧ sc.table.get? k = some raw := by
  unfold target? at h
  split at h
  next hn =>
    obtain ⟨raw', hg, he⟩ := Option.map_eq_some_iff.1 h
    cases he
    exact ⟨hn, rfl, hg⟩
  · cases h

/-- A key that refers to a cyclic key is cyclic. -/
theorem Cyclic.of_refers {k l : Text} (hl : sc.Cyclic l) (h : sc.Refers k l) : sc.Cyclic k := by
  obtain ⟨m, hlm, hm⟩ := hl
  exact ⟨m, .head h hlm, hm⟩

/-- A key on a cycle is cyclic. -/
theorem Cyclic.of_transGen {k : Text} (h : Relation.TransGen sc.Refers k k) : sc.Cyclic k := ⟨k, .refl, h⟩

/-- Some reference of a cyclic key means a cyclic key. -/
theorem Cyclic.exists_refers {k : Text} (h : sc.Cyclic k) : ∃ l, sc.Refers k l ∧ sc.Cyclic l := by
  obtain ⟨m, hkm, hm⟩ := h
  rcases hkm.cases_head with rfl | ⟨l, hkl, hlm⟩
  · obtain ⟨l, hkl, hlk⟩ := Relation.TransGen.head'_iff.1 hm
    exact ⟨l, hkl, k, hlk, hm⟩
  · exact ⟨l, hkl, m, hlm, hm⟩

/-! ## References outside the table -/

/-- What the registry has for a name, in the namespace or else without it. -/
def registered? (sc : Scope) (name : Text) : Option Composition :=
  ((sc.registry.lookup (Name.qualify sc.ns name)).or (sc.registry.lookup name)).map (sc.registry.composition maxDepth)

/-- What a reference outside the table contributes is what the registry has for it. -/
theorem fromRegistry_eq_registered? (sc : Scope) (name : Text) :
    sc.fromRegistry name = (sc.registered? name).getD .empty := by
  have hfind : (sc.candidates name).findSome? sc.registry.lookup
      = (sc.registry.lookup (Name.qualify sc.ns name)).or (sc.registry.lookup name) := by
    unfold candidates
    dsimp only
    split
    next he => rw [he, List.findSome?_singleton, Option.or_self]
    · rw [List.findSome?_cons, List.findSome?_singleton]
      cases sc.registry.lookup (Name.qualify sc.ns name) <;> rfl
  rw [fromRegistry, hfind, registered?]
  cases (sc.registry.lookup (Name.qualify sc.ns name)).or (sc.registry.lookup name) <;> rfl

/-! ## Readings -/

/-- Laying the tags over `c`, with every reference replaced by what its value reads as, gives `c'`. -/
inductive Reads (sc : Scope) : List Token → Composition → Composition → Prop
  | nil (c : Composition) : Reads sc [] c c
  | text (s : Text) {ts : List Token} {c c' : Composition} : Reads sc ts c c' → Reads sc (.text s :: ts) c c'
  | direct (code : Text) {ts : List Token} {c c' : Composition} :
      Reads sc ts (c.overlay code) c' → Reads sc (.direct code :: ts) c c'
  /-- A reference that means no key of the table. -/
  | outside {name : Text} {ts : List Token} {c c' : Composition} : sc.target? name = none →
      Reads sc ts (c.merge (sc.fromRegistry name)) c' → Reads sc (.semantic name :: ts) c c'
  /-- A reference to a key of the table. -/
  | inside {name k raw : Text} {ts : List Token} {c v c' : Composition} : sc.target? name = some (k, raw) →
      Reads sc (tagsOf sc.delimiters raw) .empty v → Reads sc ts (c.merge v) c' → Reads sc (.semantic name :: ts) c c'

/-- The composition of a key: what its value reads as. -/
def ReadsAs (sc : Scope) (k : Text) (v : Composition) : Prop :=
  ∃ raw, sc.table.get? k = some raw ∧ sc.Reads (tagsOf sc.delimiters raw) .empty v

/-- **A reading is unique.** -/
theorem Reads.det {ts : List Token} {c c₁ c₂ : Composition} (h₁ : sc.Reads ts c c₁) (h₂ : sc.Reads ts c c₂) :
    c₁ = c₂ := by
  induction h₁ generalizing c₂ with
  | nil => cases h₂; rfl
  | text s _ ih => cases h₂ with | text _ h => exact ih h
  | direct code _ ih => cases h₂ with | direct _ h => exact ih h
  | outside hn _ ih =>
    cases h₂ with
    | outside _ h => exact ih h
    | inside hs _ _ => rw [hn] at hs; cases hs
  | inside hs _ _ ihv ih =>
    cases h₂ with
    | outside hn _ => rw [hs] at hn; cases hn
    | inside hs' hv h =>
      rw [hs] at hs'
      cases hs'
      obtain rfl := ihv hv
      exact ih h

/-- Readings follow one another. -/
theorem Reads.append {ts ts' : List Token} {c c' c'' : Composition} (h : sc.Reads ts c c') (h' : sc.Reads ts' c' c'') :
    sc.Reads (ts ++ ts') c c'' := by
  induction h with
  | nil => exact h'
  | text s _ ih => exact .text s (ih h')
  | direct code _ ih => exact .direct code (ih h')
  | outside hn _ ih => exact .outside hn (ih h')
  | inside hs hv _ _ ih => exact .inside hs hv (ih h')

theorem ReadsAs.det {k : Text} {v₁ v₂ : Composition} (h₁ : sc.ReadsAs k v₁) (h₂ : sc.ReadsAs k v₂) : v₁ = v₂ := by
  obtain ⟨raw, hg, h₁⟩ := h₁
  obtain ⟨raw', hg', h₂⟩ := h₂
  rw [hg] at hg'
  cases hg'
  exact h₁.det h₂

/-- A value that has a reading refers to no cyclic key. The induction goes along the reading: a cycle would go on
through the value of every reference that is read. -/
theorem Reads.not_cyclic {ts : List Token} {c c' : Composition} (h : sc.Reads ts c c') :
    ∀ {name k raw : Text}, .semantic name ∈ ts → sc.target? name = some (k, raw) → ¬ sc.Cyclic k := by
  induction h with
  | nil => intro _ _ _ hm; cases hm
  | text s _ ih =>
    intro name k raw hm
    exact ih ((List.mem_cons.1 hm).resolve_left (by simp))
  | direct code _ ih =>
    intro name k raw hm
    exact ih ((List.mem_cons.1 hm).resolve_left (by simp))
  | outside hn _ ih =>
    intro name' k raw hm hk
    rcases List.mem_cons.1 hm with he | hm
    · cases he
      rw [hn] at hk
      cases hk
    · exact ih hm hk
  | inside hs _ _ ihv ih =>
    intro name' k' raw' hm hk
    rcases List.mem_cons.1 hm with he | hm
    · cases he
      rw [hs] at hk
      cases hk
      intro hc
      obtain ⟨l, ⟨raw', name', raw'', hg, hin, hl⟩, hcl⟩ := hc.exists_refers
      rw [(of_target? hs).2.2] at hg
      cases hg
      exact ihv hin hl hcl
    · exact ih hm hk

/-- A key that reads as something is not cyclic. -/
theorem ReadsAs.not_cyclic {k : Text} {v : Composition} (h : sc.ReadsAs k v) : ¬ sc.Cyclic k := by
  obtain ⟨raw, hg, h⟩ := h
  intro hc
  obtain ⟨l, ⟨raw', name, raw'', hg', hin, hl⟩, hcl⟩ := hc.exists_refers
  rw [hg] at hg'
  cases hg'
  exact h.not_cyclic hin hl hcl

end Scope
end TerminalMarkup
