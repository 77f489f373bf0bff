import Mathlib.Data.List.DropRight
import TerminalMarkup.Proofs.Terminal.Style

/-!
# Attributes on a terminal

Styles that are written one after the other say of every attribute what the last one says that mentions it
(`Style.attributesOf`). A terminal follows them, with one exception: bold and dim have one number for switching off, and
so go off together.

* `Style.switchesOff` says which attributes a style takes from a pen, those included that go off with another one
  (`Pen.has_wear`).
* After a run of styles an attribute is on just when the last style that mentions it switches it on, and no style behind
  that one takes it away (`Pen.has_foldl_wear_iff`). This happens to bold and dim only (`Style.switchesOff_eq_false`).
-/

namespace TerminalMarkup

namespace Attribute

theorem mem_offWith_self {a : Attribute} (h : a ≠ .highIntensity) : a ∈ a.offWith := by
  revert h
  cases a <;> decide

/-- Only bold and dim go off with another attribute. -/
theorem eq_of_mem_offWith {a b : Attribute} (ha : a ∉ [bold, dim]) (h : a ∈ b.offWith) : b = a := by
  revert ha h
  cases a <;> cases b <;> decide

/-- What holds of all attributes but bold and dim is left to show of these two. -/
theorem forall_iff_of_not_mem {P : Attribute → Prop} (h : ∀ a, a ∉ [bold, dim] → P a) :
    (∀ a, a ≠ .highIntensity → P a) ↔ ∀ a ∈ [bold, dim], P a := by
  have hshared : ∀ a ∈ [bold, dim], a ≠ .highIntensity := by decide
  refine ⟨fun hall a hm => hall a (hshared a hm), fun hboth a _ => ?_⟩
  by_cases hm : a ∈ [bold, dim]
  · exact hboth a hm
  · exact h a hm

end Attribute

namespace Style

/-- What a style says of the attributes; the one that resets everything says that all are off. -/
def attributes : Style → Flags
  | reset => .allOff
  | overlay _ _ flags => flags

/-- The style switches the attribute off, or another one that it goes off with. -/
def switchesOff (s : Style) (a : Attribute) : Bool :=
  Attribute.all.any fun b => s.attributes.get b = some false && a ∈ b.offWith

/-- What styles say of the attributes from left to right. -/
def attributesOf (ss : List Style) : Flags := ss.foldl (fun f s => f.merge s.attributes) .none

/-- The styles behind the last one that mentions the attribute. -/
def behindMention (a : Attribute) (ss : List Style) : List Style := ss.rtakeWhile fun s => s.attributes.get a = none

variable {s : Style} {a : Attribute}

theorem switchesOff_iff : s.switchesOff a = true ↔ ∃ b, s.attributes.get b = some false ∧ a ∈ b.offWith := by
  simp only [switchesOff, List.any_eq_true, Bool.and_eq_true, decide_eq_true_eq, Attribute.mem_all, true_and]

/-- A style that does not mention an attribute leaves it alone, bold and dim apart. -/
theorem switchesOff_eq_false (ha : a ∉ [Attribute.bold, .dim]) (hs : s.attributes.get a = none) :
    s.switchesOff a = false := by
  refine Bool.eq_false_iff.2 fun h => ?_
  obtain ⟨b, hb, hm⟩ := switchesOff_iff.1 h
  rw [Attribute.eq_of_mem_offWith ha hm, hs] at hb
  cases hb

theorem attributesOf_concat (ss : List Style) (s : Style) :
    attributesOf (ss ++ [s]) = (attributesOf ss).merge s.attributes := List.foldl_append

theorem behindMention_concat (a : Attribute) (ss : List Style) (s : Style) :
    behindMention a (ss ++ [s]) = if s.attributes.get a = none then behindMention a ss ++ [s] else [] := by
  rw [behindMention, List.rtakeWhile_concat]
  simp only [decide_eq_true_eq]
  rfl

theorem attributes_of_mem_behindMention {ss : List Style} (h : s ∈ behindMention a ss) : s.attributes.get a = none := by
  rw [behindMention] at h
  have hunmentioned := List.mem_rtakeWhile_imp h
  exact of_decide_eq_true hunmentioned

end Style

namespace Pen

variable {profile : Profile} {a : Attribute}

/-- **An attribute is on after a style** if the style switches it on, or it was on and the style does not take it. -/
theorem has_wear (profile : Profile) (p : Pen) (s : Style) (ha : a ≠ .highIntensity) :
    (p.wear profile s).has a = (decide (s.attributes.get a = some true) || p.has a && !s.switchesOff a) := by
  cases s with
  | reset =>
    have hoff : Style.reset.switchesOff a = true := Style.switchesOff_iff.2 ⟨a, rfl, Attribute.mem_offWith_self ha⟩
    rw [hoff, Bool.not_true, Bool.and_false]
    rfl
  | overlay fg bg flags =>
    have hon : (flags.get a = some true && a ≠ .highIntensity : Bool) = decide (flags.get a = some true) := by
      rw [decide_eq_true ha, Bool.and_true]
    exact congrArg (· || _) hon

/-- A style leaves an attribute alone that it does not mention, unless it takes it from a pen that has it. -/
theorem has_wear_eq_iff (profile : Profile) (p : Pen) {s : Style} (ha : a ≠ .highIntensity)
    (hs : s.attributes.get a = none) :
    (p.wear profile s).has a = p.has a ↔ (p.has a = true → s.switchesOff a = false) := by
  rw [has_wear _ _ _ ha, hs]
  cases p.has a <;> cases s.switchesOff a <;> decide

/-- **An attribute is on after styles** just when the last one that mentions it switches it on, and none behind takes
it. -/
theorem has_foldl_wear_iff (profile : Profile) (ss : List Style) (ha : a ≠ .highIntensity) :
    (ss.foldl (wear profile) blank).has a = true ↔
      (Style.attributesOf ss).get a = some true ∧ ∀ s ∈ Style.behindMention a ss, s.switchesOff a = false := by
  induction ss using List.reverseRecOn with
  | nil => exact iff_of_false Bool.false_ne_true fun h => by cases h.1
  | append_singleton ss s ih =>
    rw [List.foldl_append, List.foldl_cons, List.foldl_nil, has_wear _ _ _ ha, Style.attributesOf_concat,
      Flags.get_merge, Style.behindMention_concat, Bool.or_eq_true, Bool.and_eq_true, ih]
    cases hs : s.attributes.get a with
    | none =>
      rw [if_pos rfl, List.forall_mem_append, List.forall_mem_singleton, Option.none_or, ← and_assoc]
      simp
    | some on =>
      rw [if_neg (Option.some_ne_none on), Option.some_or]
      cases on with
      | true => simp
      | false =>
        have hoff : s.switchesOff a = true := Style.switchesOff_iff.2 ⟨a, hs, Attribute.mem_offWith_self ha⟩
        simp [hoff]

/-- A terminal puts styles on one after the other. -/
theorem read_flatMap_ansi (h : profile.supportsColor = true) (p : Pen) (ss : List Style) :
    p.read (ss.flatMap (Style.ansi profile)) = ss.foldl (wear profile) p := by
  induction ss generalizing p with
  | nil => rfl
  | cons s ss ih => rw [List.flatMap_cons, read_ansi h, ih, List.foldl_cons]

/-- The sequence of a style on its own puts the style on. -/
theorem read_ansi_self (h : profile.supportsColor = true) (p : Pen) (s : Style) :
    p.read (s.ansi profile) = p.wear profile s := by
  have happend := read_ansi h p s []
  rw [List.append_nil] at happend
  exact happend

/-- **The terminal follows the style codes but for bold and dim.** Behind style codes an attribute is on just when the
last code that mentions it switches it on, and no code behind that one switches it off with another. So the attributes
are as the codes say just when no code switches bold off, or dim, behind the last one that mentions the other and has
switched it on; and a code leaves alone what it does not mention just when it does not do so to a pen that has both. -/
theorem has_read_codes_iff (h : profile.supportsColor = true) (codes : List Text) :
    let styles := codes.map Style.parse
    let behind := blank.read (styles.flatMap (Style.ansi profile))
    let said := Style.attributesOf styles
    (∀ a, a ≠ .highIntensity → (behind.has a = true ↔
        said.get a = some true ∧ ∀ s ∈ Style.behindMention a styles, s.switchesOff a = false)) ∧
      ((∀ a, a ≠ .highIntensity → (behind.has a = true ↔ said.get a = some true)) ↔
        ∀ a ∈ [Attribute.bold, .dim], said.get a = some true →
          ∀ s ∈ Style.behindMention a styles, s.switchesOff a = false) ∧
      ∀ (p : Pen) (code : Text), let s := Style.parse code
        (∀ a, a ≠ .highIntensity → s.attributes.get a = none → (p.read (s.ansi profile)).has a = p.has a) ↔
          ∀ a ∈ [Attribute.bold, .dim], s.attributes.get a = none → p.has a = true → s.switchesOff a = false := by
  intro styles behind said
  have hbehind : behind = styles.foldl (wear profile) blank := read_flatMap_ansi h blank styles
  have hstate : ∀ a, a ≠ .highIntensity → (behind.has a = true ↔
      said.get a = some true ∧ ∀ s ∈ Style.behindMention a styles, s.switchesOff a = false) := fun a ha =>
    hbehind ▸ has_foldl_wear_iff profile styles ha
  refine ⟨hstate, ?_, fun p code => ?_⟩
  · rw [← Attribute.forall_iff_of_not_mem fun a hm _ s hs =>
      Style.switchesOff_eq_false hm (Style.attributes_of_mem_behindMention hs)]
    refine forall₂_congr fun a ha => ?_
    rw [hstate a ha, and_iff_left_iff_imp]
  · intro s
    rw [← Attribute.forall_iff_of_not_mem fun a hm hs _ => Style.switchesOff_eq_false hm hs, read_ansi_self h]
    exact forall₃_congr fun a ha hs => has_wear_eq_iff profile p ha hs

/-- Dim goes off and on again together with bold, and stays when bold goes off in the code that switches it on. -/
theorem has_read_codes_dim :
    let styles := ["red::BDU".toList, "-".toList, "::DI".toList, "::bD".toList, "::u".toList].map Style.parse
    Profile.ansi16.supportsColor = true ∧
      (blank.read (styles.flatMap (Style.ansi .ansi16))).has .dim = true ∧
      ((blank.read (styles.flatMap (Style.ansi .ansi16))).has .underline = true ↔
        (Style.attributesOf styles).get .underline = some true) := by
  intro styles
  have hcolor : Profile.ansi16.supportsColor = true := by decide
  obtain ⟨hstate, hsaid, -⟩ := has_read_codes_iff hcolor
    ["red::BDU".toList, "-".toList, "::DI".toList, "::bD".toList, "::u".toList]
  refine ⟨hcolor, (hstate .dim (by decide)).2 (by decide), hsaid.2 (by decide) .underline (by decide)⟩

/-- **Dim off takes bold away**: the codes leave bold on, and the terminal has it off. -/
theorem has_read_codes_ne :
    let styles := ["::B".toList, "::d".toList].map Style.parse
    styles.flatMap (Style.ansi .ansi16) = "\x1b[1m\x1b[22m".toList ∧
      (Style.attributesOf styles).get .bold = some true ∧
      (blank.read (styles.flatMap (Style.ansi .ansi16))).has .bold = false := by
  decide

end Pen

end TerminalMarkup
