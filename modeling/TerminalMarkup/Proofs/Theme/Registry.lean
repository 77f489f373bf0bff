import TerminalMarkup.Proofs.Composition.Merge
import TerminalMarkup.Proofs.Theme.History
import TerminalMarkup.Proofs.Token.Replace

/-!
# Two readings of the registry

Expansion replaces a reference by the style codes that the registry has for it (`Registry.codes`). A theme that takes a
style from the registry composes nested values first and merges their compositions (`Registry.composition`).

* Where the flags of all codes are tidy the order makes no difference: a stored value composes to its codes
  (`Registry.composition_eq_ofCodes`).
* A theme follows references one level further than expansion does. So the two readings of a name agree just when the
  codes of the last level make no difference (`Resolver.resolveValue_reference_iff`).
-/

namespace TerminalMarkup

/-! ## The codes of a name -/

/-- The direct tags of a style value hold style codes. -/
theorem isCode_of_mem_tagsOf {d : Delimiters} {value code : Text} (h : .direct code ∈ tagsOf d value) :
    Token.isCode code = true := Token.isValid_of_mem_tagsOf h

namespace Registry

variable (r : Registry)

/-- The style codes of a tag, following references through at most `depth` stored values. -/
def tagCodes (depth : Nat) : Token → List Text
  | .direct code => [code]
  | .semantic name => r.codes depth name
  | .text _ => []

/-- The style codes of a stored value, following references through at most `depth` further values. -/
def valueCodes (depth : Nat) (value : Text) : List Text := (tagsOf .canonical value).flatMap (r.tagCodes depth)

theorem codes_succ (depth : Nat) (name : Text) :
    r.codes (depth + 1) name = ((r.lookup name).map (r.valueCodes depth)).getD [] := by
  rw [codes]
  cases r.lookup name with
  | none => rfl
  | some value =>
    refine List.flatMap_congr fun t _ => ?_
    cases t <;> rfl

theorem of_mem_codes {depth : Nat} {name code : Text} (h : code ∈ r.codes depth name) :
    ∃ n value, depth = n + 1 ∧ code ∈ r.valueCodes n value := by
  cases depth with
  | zero => cases h
  | succ n =>
    rw [codes_succ] at h
    cases hl : r.lookup name with
    | none =>
      rw [hl] at h
      cases h
    | some value =>
      rw [hl] at h
      exact ⟨n, value, rfl, h⟩

theorem isCode_of_mem_valueCodes {depth : Nat} {value code : Text} (h : code ∈ r.valueCodes depth value) :
    Token.isCode code = true := by
  induction depth using Nat.strongRecOn generalizing value with
  | _ depth ih =>
    obtain ⟨t, ht, hc⟩ := List.mem_flatMap.1 h
    cases t with
    | text s => cases hc
    | direct code' =>
      cases List.mem_singleton.1 hc
      exact isCode_of_mem_tagsOf ht
    | semantic name =>
      obtain ⟨n, inner, rfl, hi⟩ := r.of_mem_codes hc
      exact ih n (Nat.lt_succ_self n) hi

/-- The codes of a name are style codes. -/
theorem isCode_of_mem_codes {depth : Nat} {name code : Text} (h : code ∈ r.codes depth name) :
    Token.isCode code = true := by
  obtain ⟨n, value, -, hc⟩ := r.of_mem_codes h
  exact r.isCode_of_mem_valueCodes hc

/-! ## Composing before merging -/

/-- Tags that each lay their codes over what has been composed lay all their codes over it. The induction keeps the
composition so far general, and tidy. -/
theorem foldl_tagCodes {depth : Nat} {f : Composition → Token → Composition} {ts : List Token}
    (hf : ∀ t ∈ ts, ∀ c : Composition, c.Tidy → f c t = (r.tagCodes depth t).foldl Composition.overlay c)
    (ht : ∀ code ∈ ts.flatMap (r.tagCodes depth), (Composition.read code).Tidy) {c : Composition} (hc : c.Tidy) :
    ts.foldl f c = (ts.flatMap (r.tagCodes depth)).foldl Composition.overlay c := by
  induction ts generalizing c with
  | nil => rfl
  | cons t ts ih =>
    rw [List.flatMap_cons] at ht
    have hhead : ∀ code ∈ r.tagCodes depth t, (Composition.read code).Tidy :=
      fun code hm => ht code (List.mem_append_left _ hm)
    rw [List.foldl_cons, List.flatMap_cons, List.foldl_append, hf t List.mem_cons_self c hc]
    exact ih (fun t hm => hf t (List.mem_cons_of_mem _ hm)) (fun code hm => ht code (List.mem_append_right _ hm))
      (Composition.tidy_foldl_overlay hc hhead)

/-- **A stored value composes to its codes.** -/
theorem composition_eq_ofCodes (depth : Nat) {value : Text}
    (ht : ∀ code ∈ r.valueCodes depth value, (Composition.read code).Tidy) :
    r.composition depth value = .ofCodes (r.valueCodes depth value) := by
  induction depth generalizing value with
  | zero =>
    refine r.foldl_tagCodes (fun t _ c _ => ?_) ht Composition.tidy_empty
    cases t <;> rfl
  | succ depth ih =>
    refine r.foldl_tagCodes (fun t hm c hc => ?_) ht Composition.tidy_empty
    cases t with
    | text s => rfl
    | direct code => rfl
    | semantic name =>
      have htidy : ∀ code ∈ r.codes (depth + 1) name, (Composition.read code).Tidy :=
        fun code hcode => ht code (List.mem_flatMap.2 ⟨.semantic name, hm, hcode⟩)
      have hstep : ((r.lookup name).map fun inner => c.merge (r.composition depth inner)).getD c
          = (r.codes (depth + 1) name).foldl Composition.overlay c := by
        rw [codes_succ] at htidy ⊢
        cases hl : r.lookup name with
        | none => rfl
        | some inner =>
          rw [hl] at htidy
          simp only [Option.map_some, Option.getD_some] at htidy ⊢
          rw [ih htidy]
          exact Composition.merge_ofCodes hc (fun code hcode => r.isCode_of_mem_valueCodes hcode) htidy
      exact hstep

end Registry

/-! ## References to the registry -/

theorem tagsOf_wrapSemantic {name : Text} (h : Token.isName name = true) :
    tagsOf .canonical (Delimiters.canonical.wrapSemantic name) = [.semantic name] := by
  have hread := Token.read?_wrapSemantic h []
  rw [List.append_nil] at hread
  have ho : Delimiters.canonical.hasOpening (Delimiters.canonical.wrapSemantic name) = true :=
    hasOpening_of_firstTag? (Token.firstTag?_of_read? hread)
  rw [tagsOf, if_pos ho, tokenize_wrapSemantic h]
  rfl

/-- The style codes among segments. -/
def Segment.code? : Segment → Option Text
  | text _ => none
  | direct code => some code

/-- Expansion replaces a reference by the codes of its name. -/
theorem codes_of_segments (r : Registry) {name : Text} (h : Token.isName name = true) :
    (segments .canonical r (Delimiters.canonical.wrapSemantic name)).filterMap Segment.code?
      = r.codes maxDepth name := by
  rw [segments, tokenize_wrapSemantic h, List.flatMap_singleton, Token.segments, List.filterMap_map]
  exact List.filterMap_some

namespace Scope

/-- The style that the registry has for a name, where no namespace is given: that of its codes on all levels. -/
theorem fromRegistry_eq_ofCodes {sc : Scope} (hns : sc.ns = none) {name : Text}
    (ht : ∀ code ∈ sc.registry.codes (maxDepth + 1) name, (Composition.read code).Tidy) :
    sc.fromRegistry name = .ofCodes (sc.registry.codes (maxDepth + 1) name) := by
  have hcand : sc.candidates name = [name] := by
    rw [candidates, hns]
    exact if_pos rfl
  rw [Registry.codes_succ] at ht ⊢
  rw [fromRegistry, hcand, List.findSome?_singleton]
  cases hl : sc.registry.lookup name with
  | none => rfl
  | some value =>
    rw [hl] at ht
    exact sc.registry.composition_eq_ofCodes maxDepth ht

/-- A table without keys. -/
theorem target?_ofTable_nil (d : Delimiters) (r : Registry) (ns : Option Text) (name : Text) :
    (ofTable [] d r ns).target? name = none := by
  unfold target?
  split
  · rfl
  · rfl

end Scope

namespace Resolver

/-- A reference that means no key of the table is looked up in the registry. -/
theorem resolveValue_reference {sc : Scope} (hd : sc.delimiters = .canonical) {name : Text}
    (hn : Token.isName name = true) (ht : sc.target? name = none) :
    ((new sc).resolveValue (Delimiters.canonical.wrapSemantic name)).1
      = Composition.empty.merge (sc.fromRegistry name) := by
  have href : sc.reference (sc.entry sc.depth) name (new sc).start
      = (⟨sc.fromRegistry name, false⟩, (new sc).start) := by
    rcases Scope.reference_cases (settled_new sc).valid_start (sc.entry sc.depth) name with ⟨-, h⟩ | ⟨k, raw, h, -⟩
    · exact h
    · cases ht.symm.trans h
  have hcomp : sc.compose (sc.entry sc.depth) (Delimiters.canonical.wrapSemantic name) (new sc).start
      = (⟨Composition.empty.merge (sc.fromRegistry name), false⟩, (new sc).start) := by
    rw [Scope.compose, hd, tagsOf_wrapSemantic hn, List.foldl_cons, List.foldl_nil, Scope.composeTag_semantic, href]
    rfl
  exact congrArg (fun out => out.1.composition) hcomp

/-- **The two readings of a name.** A theme lays the codes of one level more over each other than expansion finds, and
so the readings agree just when the codes of that level make no difference. -/
theorem resolveValue_reference_iff (r : Registry) {name : Text} (hn : Token.isName name = true)
    (ht : ∀ code ∈ r.codes (maxDepth + 1) name, (Composition.read code).Tidy) :
    ((new (.ofTable [] .canonical r none)).resolveValue (Delimiters.canonical.wrapSemantic name)).1
        = .ofCodes (r.codes (maxDepth + 1) name) ∧
      (((new (.ofTable [] .canonical r none)).resolveValue (Delimiters.canonical.wrapSemantic name)).1
          = .ofCodes ((segments .canonical r (Delimiters.canonical.wrapSemantic name)).filterMap Segment.code?) ↔
        Composition.ofCodes (r.codes (maxDepth + 1) name) = .ofCodes (r.codes maxDepth name)) := by
  have hmerge : Composition.empty.merge (.ofCodes (r.codes (maxDepth + 1) name))
      = .ofCodes (r.codes (maxDepth + 1) name) :=
    Composition.merge_ofCodes Composition.tidy_empty (fun code hc => r.isCode_of_mem_codes hc) ht
  have htheme : ((new (.ofTable [] .canonical r none)).resolveValue (Delimiters.canonical.wrapSemantic name)).1
      = .ofCodes (r.codes (maxDepth + 1) name) := by
    calc ((new (.ofTable [] .canonical r none)).resolveValue (Delimiters.canonical.wrapSemantic name)).1
      _ = Composition.empty.merge ((Scope.ofTable [] .canonical r none).fromRegistry name) :=
        resolveValue_reference rfl hn (Scope.target?_ofTable_nil _ _ _ _)
      _ = Composition.empty.merge (.ofCodes (r.codes (maxDepth + 1) name)) :=
        congrArg _ (Scope.fromRegistry_eq_ofCodes rfl ht)
      _ = .ofCodes (r.codes (maxDepth + 1) name) := hmerge
  refine ⟨htheme, ?_⟩
  rw [htheme, codes_of_segments r hn]

/-- A reference to a value that refers to another one. -/
theorem resolveValue_reference_nested :
    let r := Registry.ofEntries [("title".toList, "red::B".toList),
      ("heading".toList,
        Delimiters.canonical.wrapSemantic "title".toList ++ Delimiters.canonical.wrapDirect ":blue".toList)]
    ((new (.ofTable [] .canonical r none)).resolveValue (Delimiters.canonical.wrapSemantic "heading".toList)).1
      = .ofCodes ((segments .canonical r (Delimiters.canonical.wrapSemantic "heading".toList)).filterMap
        Segment.code?) := by
  intro r
  exact (resolveValue_reference_iff r (by decide) (by decide +kernel)).2.2 (by decide +kernel)

/-- A chain of references through six stored values. -/
def chain : Registry :=
  .ofEntries [("d0".toList, Delimiters.canonical.wrapSemantic "d1".toList),
    ("d1".toList, Delimiters.canonical.wrapSemantic "d2".toList),
    ("d2".toList, Delimiters.canonical.wrapSemantic "d3".toList),
    ("d3".toList, Delimiters.canonical.wrapSemantic "d4".toList),
    ("d4".toList, Delimiters.canonical.wrapSemantic "d5".toList), ("d5".toList, "red".toList)]

/-- Flags with a dash behind a letter that a later code drops. -/
def strayDash : Registry :=
  .ofEntries [("outer".toList,
      Delimiters.canonical.wrapDirect "::B".toList ++ Delimiters.canonical.wrapSemantic "inner".toList),
    ("inner".toList, Delimiters.canonical.wrapDirect "::U-".toList ++ Delimiters.canonical.wrapDirect "::u".toList)]

/-- **Names that are read in two ways.** -/
theorem resolveValue_reference_ne :
    (((new (.ofTable [] .canonical chain none)).resolveValue (Delimiters.canonical.wrapSemantic "d0".toList)).1
        = ⟨"red".toList, [], []⟩ ∧
      Composition.ofCodes ((segments .canonical chain (Delimiters.canonical.wrapSemantic "d0".toList)).filterMap
        Segment.code?) = .empty) ∧
    ((new (.ofTable [] .canonical strayDash none)).resolveValue (Delimiters.canonical.wrapSemantic "outer".toList)).1
        = ⟨[], [], "-u".toList⟩ ∧
      Composition.ofCodes ((segments .canonical strayDash (Delimiters.canonical.wrapSemantic "outer".toList)).filterMap
        Segment.code?) = ⟨[], [], "B-u".toList⟩ := by
  decide +kernel

end Resolver
end TerminalMarkup
