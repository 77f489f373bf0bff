import Mathlib.Data.Fintype.Card
import Mathlib.Data.Set.Finite.Basic
import TerminalMarkup.Proofs.Theme.History

/-!
# Resolution without memory

Where the references of a key lead to no cycle, its composition can be said by plain recursion along the references
(`Scope.AcyclicKey.value`): the tokens of its value are laid over each other from left to right, each reference to a key
of the table as the composition of that key.

* The recursion ends because the table is finite (`Scope.wellFounded_refers`);
* a resolver gives the same composition (`Resolver.resolveKey_eq_value`), whatever it has settled before, and however
  many references lead to one key.

A ranking that references lower shows which keys lead to no cycle (`Scope.not_cyclic_of_ranked`).
-/

namespace TerminalMarkup

/-- The tokens of a value. A value without opening delimiters is a bare style code, or nothing. -/
def valueTokens (d : Delimiters) (value : Text) : List Token :=
  if d.hasOpening value then tokenize d value
  else if Token.isCode value.trim then [.direct value.trim]
  else []

/-- The tags of a value are its tokens apart from the literal text. -/
theorem tagsOf_eq_filter (d : Delimiters) (value : Text) :
    tagsOf d value = (valueTokens d value).filter Token.isTag := by
  unfold tagsOf valueTokens
  split
  · rfl
  · split
    · rfl
    · rfl

theorem semantic_mem_tagsOf {d : Delimiters} {value name : Text} :
    .semantic name ∈ tagsOf d value ↔ .semantic name ∈ valueTokens d value := by
  rw [tagsOf_eq_filter, List.mem_filter]
  exact and_iff_left rfl

namespace Scope

variable {sc : Scope}

/-! ## Keys without cycles -/

/-- A key of the table whose references lead to no cycle, with its value. -/
structure AcyclicKey (sc : Scope) where
  key : Text
  raw : Text
  get?_key : sc.table.get? key = some raw
  acyclic : ¬ sc.Cyclic key

/-- The key of the table that a name means, if the table has it. -/
def acyclicKey? (sc : Scope) (name : Text) (h : ¬ sc.Cyclic (themeKey name)) : Option sc.AcyclicKey :=
  match hg : sc.table.get? (themeKey name) with
  | some raw => some ⟨themeKey name, raw, hg, h⟩
  | none => none

instance : Finite sc.AcyclicKey := by
  have hfinite : Finite { k | k ∈ sc.table.keys } := (List.finite_toSet sc.table.keys).to_subtype
  let place (k : sc.AcyclicKey) : { k | k ∈ sc.table.keys } := ⟨k.key, Dictionary.mem_keys_of_get? k.get?_key⟩
  refine Finite.of_injective place ?_
  rintro ⟨k, raw, hk, _⟩ ⟨l, raw', hl, _⟩ he
  obtain rfl : k = l := congrArg Subtype.val he
  obtain rfl : raw = raw' := Option.some.inj (hk.symm.trans hl)
  rfl

/-- No way along the references between keys without cycles is infinite. -/
theorem wellFounded_refers : WellFounded fun l k : sc.AcyclicKey => sc.Refers k.key l.key := by
  let leads (l k : sc.AcyclicKey) : Prop := Relation.TransGen sc.Refers k.key l.key
  have htrans : IsTrans sc.AcyclicKey leads := ⟨fun _ _ _ h₁ h₂ => h₂.trans h₁⟩
  have hirrefl : Std.Irrefl leads := ⟨fun k h => k.acyclic (.of_transGen h)⟩
  have hleads : WellFounded leads := Finite.wellFounded_of_trans_of_irrefl leads
  exact Subrelation.wf (fun h => .single h) hleads

instance : WellFoundedRelation sc.AcyclicKey := ⟨_, wellFounded_refers⟩

/-! ## The recursion -/

namespace AcyclicKey

/-- The tokens of the value. -/
def tokens (k : sc.AcyclicKey) : List Token := valueTokens sc.delimiters k.raw

theorem refers {k : sc.AcyclicKey} {name l raw : Text} (hm : .semantic name ∈ k.tokens)
    (ht : sc.target? name = some (l, raw)) : sc.Refers k.key l :=
  ⟨k.raw, name, raw, k.get?_key, semantic_mem_tagsOf.2 hm, ht⟩

/-- The key that a reference means. -/
def follow (k : sc.AcyclicKey) {name l raw : Text} (hm : .semantic name ∈ k.tokens)
    (ht : sc.target? name = some (l, raw)) : sc.AcyclicKey :=
  ⟨l, raw, (of_target? ht).2.2, fun hl => k.acyclic (hl.of_refers (refers hm ht))⟩

/-- Lays a token over what has been composed so far, where `value` is the composition of a key that is referred to. -/
def lay (k : sc.AcyclicKey) (value : (l : sc.AcyclicKey) → sc.Refers k.key l.key → Composition) (c : Composition) :
    { t // t ∈ k.tokens } → Composition
  | ⟨.text _, _⟩ => c
  | ⟨.direct code, _⟩ => c.overlay code
  | ⟨.semantic name, hm⟩ =>
    match ht : sc.target? name with
    | some (_, _) => c.merge (value (k.follow hm ht) (refers hm ht))
    | none =>
      match sc.registered? name with
      | some v => c.merge v
      | none => c

/-- The composition of a key, by recursion along the references. -/
def value (k : sc.AcyclicKey) : Composition := k.tokens.attach.foldl (k.lay fun l _ => l.value) .empty
termination_by k
decreasing_by assumption

end AcyclicKey

/-! ## The recursion is a reading -/

namespace AcyclicKey

theorem lay_outside {k : sc.AcyclicKey} {value : (l : sc.AcyclicKey) → sc.Refers k.key l.key → Composition}
    {name : Text} {hm : .semantic name ∈ k.tokens} (ht : sc.target? name = none) (c : Composition) :
    k.lay value c ⟨.semantic name, hm⟩ = c.merge (sc.fromRegistry name) := by
  rw [fromRegistry_eq_registered?]
  simp only [lay]
  split
  next h =>
    rw [ht] at h
    cases h
  · cases sc.registered? name with
    | some v => rfl
    | none => exact (Composition.merge_empty c).symm

theorem lay_inside {k : sc.AcyclicKey} {value : (l : sc.AcyclicKey) → sc.Refers k.key l.key → Composition}
    {name l raw : Text} {hm : .semantic name ∈ k.tokens} (ht : sc.target? name = some (l, raw)) (c : Composition) :
    k.lay value c ⟨.semantic name, hm⟩ = c.merge (value (k.follow hm ht) (refers hm ht)) := by
  simp only [lay]
  split
  next h =>
    rw [ht] at h
    cases h
    rfl
  next h =>
    rw [ht] at h
    cases h

/-- Laying tokens reads their tags, if the keys that are referred to read as their compositions. -/
theorem reads_foldl_lay {k : sc.AcyclicKey} {value : (l : sc.AcyclicKey) → sc.Refers k.key l.key → Composition}
    (hv : ∀ l (h : sc.Refers k.key l.key), sc.Reads (tagsOf sc.delimiters l.raw) .empty (value l h))
    (ts : List { t // t ∈ k.tokens }) (c : Composition) :
    sc.Reads ((ts.map Subtype.val).filter Token.isTag) c (ts.foldl (k.lay value) c) := by
  induction ts generalizing c with
  | nil => exact .nil c
  | cons t ts ih =>
    obtain ⟨t, hm⟩ := t
    rw [List.map_cons, List.foldl_cons]
    cases t with
    | text s => exact ih c
    | direct code => exact .direct code (ih _)
    | semantic name =>
      cases ht : sc.target? name with
      | none =>
        rw [lay_outside ht]
        exact .outside ht (ih _)
      | some target =>
        obtain ⟨l, raw⟩ := target
        rw [lay_inside ht]
        exact .inside ht (hv (k.follow hm ht) (refers hm ht)) (ih _)

/-- **The recursion is a reading.** The induction is along the references. -/
theorem reads_value (k : sc.AcyclicKey) : sc.Reads (tagsOf sc.delimiters k.raw) .empty k.value := by
  induction k using wellFounded_refers.induction with
  | _ k ih =>
    have hread := reads_foldl_lay ih k.tokens.attach .empty
    rw [List.attach_map_subtype_val] at hread
    rw [value, tagsOf_eq_filter]
    exact hread

end AcyclicKey

/-! ## Rankings -/

/-- Every reference in the value of a key with a positive rank leads to a key whose rank is lower, and positive too. -/
def ranked (sc : Scope) (rank : Text → Nat) : Bool :=
  sc.table.toList.all fun (k, raw) => rank k = 0 || (tagsOf sc.delimiters raw).all fun
    | .semantic name => (sc.target? name).all fun (l, _) => 0 < rank l && rank l < rank k
    | _ => true

theorem rank_lt_of_refers {rank : Text → Nat} (h : sc.ranked rank = true) {k l : Text} (hk : 0 < rank k)
    (hr : sc.Refers k l) : 0 < rank l ∧ rank l < rank k := by
  obtain ⟨raw, name, raw', hg, hm, ht⟩ := hr
  have hentry := List.all_eq_true.1 h (k, raw) (Dictionary.mem_toList_iff.2 hg)
  have htags := (Bool.or_eq_true_iff.1 hentry).resolve_left (by simp; omega)
  have htag := List.all_eq_true.1 htags (.semantic name) hm
  simp only [ht, Option.all_some, Bool.and_eq_true, decide_eq_true_eq] at htag
  exact htag

/-- A key with a positive rank is not cyclic. -/
theorem not_cyclic_of_ranked {rank : Text → Nat} (h : sc.ranked rank = true) {k : Text} (hk : 0 < rank k) :
    ¬ sc.Cyclic k := by
  have hlower {k l : Text} (hk : 0 < rank k) (ht : Relation.TransGen sc.Refers k l) :
      0 < rank l ∧ rank l < rank k := by
    induction ht with
    | single hr => exact rank_lt_of_refers h hk hr
    | tail _ hr ih =>
      have := rank_lt_of_refers h ih.1 hr
      omega
  rintro ⟨l, hkl, hl⟩
  have hpos : 0 < rank l := by
    rcases Relation.reflTransGen_iff_eq_or_transGen.1 hkl with rfl | hkl
    · exact hk
    · exact (hlower hk hkl).1
  exact Nat.lt_irrefl _ (hlower hpos hl).2

end Scope

/-! ## Resolvers -/

namespace Resolver

/-- The resolver after questions. -/
def afterAll (r : Resolver) (qs : List Query) : Resolver := qs.foldl (fun r q => (r.ask q).2) r

theorem scope_afterAll (r : Resolver) (qs : List Query) : (r.afterAll qs).scope = r.scope := by
  induction qs generalizing r with
  | nil => rfl
  | cons q qs ih => exact (ih (r.ask q).2).trans (scope_ask r q)

theorem Settled.afterAll {r : Resolver} (h : r.Settled) (qs : List Query) : (r.afterAll qs).Settled := by
  induction qs generalizing r with
  | nil => exact h
  | cons q qs ih => exact ih (h.ask q)

/-- A resolver that has settled readings only gives the reading of a key. -/
theorem Settled.resolveKey_eq {r : Resolver} (h : r.Settled) {key : Text} {v : Composition}
    (hr : r.scope.ReadsAs (themeKey key) v) : (r.resolveKey key).1 = some v := by
  obtain ⟨raw, hg, -⟩ := id hr
  have hentry := Scope.entry_eq_of_readsAs (size_le_depth r.scope) (h.enters_start hg) hr
  simp only [resolveKey, hg]
  exact congrArg (fun res : Resolution => some res.composition) hentry.1

/-- **Resolution with memory is plain recursion.** A key whose references lead to no cycle resolves to what the
recursion along the references gives, whatever has been asked before. -/
theorem resolveKey_eq_value (sc : Scope) (qs : List Query) (key : Text) (h : ¬ sc.Cyclic (themeKey key)) :
    (((new sc).afterAll qs).resolveKey key).1 = (sc.acyclicKey? key h).map Scope.AcyclicKey.value := by
  have hscope : ((new sc).afterAll qs).scope = sc := scope_afterAll (new sc) qs
  unfold Scope.acyclicKey?
  split
  next raw hg =>
    have hread := Scope.AcyclicKey.reads_value ⟨themeKey key, raw, hg, h⟩
    refine ((settled_new sc).afterAll qs).resolveKey_eq ?_
    rw [hscope]
    exact ⟨raw, hg, hread⟩
  next hg =>
    rw [← hscope] at hg
    simp only [resolveKey, hg]
    rfl

/-- Two ways to one key, spelled in two ways, beside a key that refers to itself. -/
def diamond : Scope :=
  let reference (name : String) := Delimiters.canonical.wrapSemantic name.toList
  let code (code : String) := Delimiters.canonical.wrapDirect code.toList
  .ofTable [("Base".toList, "white:black:B".toList), ("Left".toList, reference "Theme_Base" ++ code "red"),
    ("right".toList, reference "THEME_base" ++ code ":blue:u"),
    ("Top".toList, reference "theme_LEFT" ++ reference "Theme_Right" ++ reference "nobody"),
    ("Loop".toList, code "green" ++ reference "Theme_Loop")] .canonical .empty none

/-- The ways meet again in a key that has been settled by then. -/
theorem resolveKey_eq_value_diamond :
    ∃ h : ¬ diamond.Cyclic (themeKey "Theme_Top".toList),
      (((new diamond).afterAll [.key "loop".toList, .key "LEFT".toList]).resolveKey "Theme_Top".toList).1
          = (diamond.acyclicKey? "Theme_Top".toList h).map Scope.AcyclicKey.value ∧
        (((new diamond).afterAll [.key "loop".toList, .key "LEFT".toList]).resolveKey "Theme_Top".toList).1
          = some ⟨"white".toList, "blue".toList, "Bu".toList⟩ := by
  let rank (k : Text) : Nat :=
    if k = "base".toList then 1 else if k = "top".toList then 3 else if k = "loop".toList then 0 else 2
  have hranked : diamond.ranked rank = true := by decide +kernel
  have h : ¬ diamond.Cyclic (themeKey "Theme_Top".toList) :=
    Scope.not_cyclic_of_ranked hranked (by decide +kernel)
  exact ⟨h, resolveKey_eq_value diamond _ _ h, by decide +kernel⟩

end Resolver
end TerminalMarkup
