import Mathlib.Data.List.Infix
import TerminalMarkup.Widget

/-!
# Bracket groups

A bracket group is what a widget toolkit reads as a style: brackets around one or more characters of a certain kind
(`Widget.IsGroup`).

* Escaping changes a text behind its opening brackets only (`Widget.ActsBehindBrackets`), and leaves no group in it
  (`Widget.not_hasGroup_escapeBrackets`). But it may leave the beginning of a group at the end, and the end of one at
  the beginning; it does so just where the text itself has them (`Widget.suffix_escapeBrackets_iff`,
  `Widget.prefix_escapeBrackets_iff`).
* What stands for a style is a group (`Widget.isGroup_of_group?`).
-/

namespace TerminalMarkup

namespace Widget

/-- All characters may stand in a group. -/
def GroupText (s : Text) : Prop := ∀ c ∈ s, isGroupChar c = true

instance (s : Text) : Decidable (GroupText s) := inferInstanceAs (Decidable (∀ c ∈ s, _))

/-- A text that makes a group when brackets are put around it. -/
def IsBody (body : Text) : Prop := body ≠ [] ∧ GroupText body

instance (body : Text) : Decidable (IsBody body) := inferInstanceAs (Decidable (_ ∧ _))

/-- A bracket group. -/
def IsGroup (g : Text) : Prop := ∃ body, IsBody body ∧ g = '[' :: (body ++ [']'])

/-- Some group lies in the text. -/
def HasGroup (s : Text) : Prop := ∃ g, IsGroup g ∧ g <:+: s

theorem groupText_nil : GroupText [] := fun _ h => absurd h List.not_mem_nil

theorem groupText_cons {c : Char} {s : Text} : GroupText (c :: s) ↔ isGroupChar c = true ∧ GroupText s :=
  List.forall_mem_cons

theorem groupText_append {s t : Text} : GroupText (s ++ t) ↔ GroupText s ∧ GroupText t := List.forall_mem_append

theorem GroupText.not_mem {s : Text} (h : GroupText s) {c : Char} (hc : isGroupChar c = false) : c ∉ s := fun hm => by
  rw [h c hm] at hc
  cases hc

theorem GroupText.opening_not_mem {s : Text} (h : GroupText s) : '[' ∉ s := h.not_mem (by decide)

theorem GroupText.closing_not_mem {s : Text} (h : GroupText s) : ']' ∉ s := h.not_mem (by decide)

theorem GroupText.takeWhile_append {s : Text} (h : GroupText s) {b : Char} (hb : isGroupChar b = false) (u : Text) :
    (s ++ b :: u).takeWhile isGroupChar = s := by
  rw [List.takeWhile_append_of_pos h, List.takeWhile_cons_of_neg (by simp [hb]), List.append_nil]

/-- In front of a bracket a group text ends at one place only. -/
theorem GroupText.append_inj {s t : Text} (hs : GroupText s) (ht : GroupText t) {b c : Char} {u v : Text}
    (hb : isGroupChar b = false) (hc : isGroupChar c = false) (h : s ++ b :: u = t ++ c :: v) :
    s = t ∧ b = c ∧ u = v := by
  have hst : s = t := by rw [← hs.takeWhile_append hb u, h, ht.takeWhile_append hc v]
  rw [hst, List.append_right_inj, List.cons.injEq] at h
  exact ⟨hst, h⟩

theorem groupBody?_eq_some_iff {s body rest : Text} :
    groupBody? s = some (body, rest) ↔ IsBody body ∧ s = body ++ ']' :: rest := by
  constructor
  · intro h
    refine ⟨?_, (append_of_groupBody? h).symm⟩
    unfold groupBody? at h
    split at h
    · split at h
      · cases h
      next hne =>
        cases h
        exact ⟨hne, List.all_eq_true.1 List.all_takeWhile⟩
    · cases h
  · rintro ⟨⟨hne, hbody⟩, rfl⟩
    have htake : (body ++ ']' :: rest).takeWhile isGroupChar = body := GroupText.takeWhile_append hbody (by decide) rest
    have hdrop : (body ++ ']' :: rest).dropWhile isGroupChar = ']' :: rest := by
      rw [List.dropWhile_append_of_pos hbody, List.dropWhile_cons_of_neg (by decide)]
    simp only [groupBody?, htake, hdrop, if_neg hne]

theorem groupBody?_escaped {body : Text} (h : IsBody body) (rest : Text) :
    groupBody? (body ++ '[' :: ']' :: rest) = none := by
  rw [Option.eq_none_iff_forall_ne_some]
  rintro ⟨b, r⟩ hb
  obtain ⟨⟨-, hb⟩, he⟩ := groupBody?_eq_some_iff.1 hb
  exact absurd (h.2.append_inj hb (by decide) (by decide) he).2.1 (by decide)

theorem groupBody?_closing (s : Text) : groupBody? (']' :: s) = none := by
  rw [Option.eq_none_iff_forall_ne_some]
  rintro ⟨b, r⟩ hb
  obtain ⟨⟨hne, hb⟩, he⟩ := groupBody?_eq_some_iff.1 hb
  exact hne (groupText_nil.append_inj hb (by decide) (by decide) he).1.symm

/-- After an opening bracket the text completes a group. -/
theorem groupBody?_isSome_iff {s : Text} : (groupBody? s).isSome ↔ ∃ body, IsBody body ∧ body ++ [']'] <+: s := by
  constructor
  · intro h
    obtain ⟨⟨body, rest⟩, hg⟩ := Option.isSome_iff_exists.1 h
    obtain ⟨hbody, rfl⟩ := groupBody?_eq_some_iff.1 hg
    exact ⟨body, hbody, rest, by rw [List.append_assoc, List.singleton_append]⟩
  · rintro ⟨body, hbody, rest, rfl⟩
    have hg : groupBody? (body ++ [']'] ++ rest) = some (body, rest) :=
      groupBody?_eq_some_iff.2 ⟨hbody, by rw [List.append_assoc, List.singleton_append]⟩
    rw [hg, Option.isSome_some]

theorem not_hasGroup_nil : ¬ HasGroup [] := by
  rintro ⟨_, ⟨body, -, rfl⟩, h⟩
  exact absurd (List.infix_nil.1 h) (List.cons_ne_nil _ _)

/-- A group begins at an opening bracket, which the text behind it completes to a group. -/
theorem hasGroup_cons {c : Char} {s : Text} :
    HasGroup (c :: s) ↔ c = '[' ∧ (groupBody? s).isSome ∨ HasGroup s := by
  rw [groupBody?_isSome_iff]
  constructor
  · rintro ⟨_, ⟨body, hbody, rfl⟩, h⟩
    rcases List.infix_cons_iff.1 h with h | h
    · obtain ⟨hc, hpre⟩ := List.cons_prefix_cons.1 h
      exact .inl ⟨hc.symm, body, hbody, hpre⟩
    · exact .inr ⟨_, ⟨body, hbody, rfl⟩, h⟩
  · rintro (⟨rfl, body, hbody, hpre⟩ | ⟨g, hg, h⟩)
    · exact ⟨_, ⟨body, hbody, rfl⟩, (List.cons_prefix_cons.2 ⟨rfl, hpre⟩).isInfix⟩
    · exact ⟨g, hg, h.trans (List.suffix_cons c s).isInfix⟩

theorem hasGroup_append {s t : Text} (h : '[' ∉ s) : HasGroup (s ++ t) ↔ HasGroup t := by
  induction s with
  | nil => rfl
  | cons c s ih =>
    have hc : c ≠ '[' := fun e => h (e ▸ List.mem_cons_self)
    rw [List.cons_append, hasGroup_cons, ih fun hm => h (List.mem_cons_of_mem c hm)]
    exact or_iff_right fun hg => hc hg.1

/-! ## What happens at opening brackets only -/

/-- A function changes texts behind opening brackets only. -/
structure ActsBehindBrackets (f : Text → Text) : Prop where
  nil : f [] = []
  cons : ∀ {c : Char}, c ≠ '[' → ∀ s, f (c :: s) = c :: f s
  bracket : ∀ s, ∃ t, f ('[' :: s) = '[' :: t

namespace ActsBehindBrackets

variable {f : Text → Text} {p s t : Text}

theorem append (hf : ActsBehindBrackets f) (hp : '[' ∉ p) (s : Text) : f (p ++ s) = p ++ f s := by
  induction p with
  | nil => rfl
  | cons c p ih =>
    rw [List.mem_cons, not_or] at hp
    rw [List.cons_append, hf.cons (Ne.symm hp.1), ih hp.2, List.cons_append]

/-- What is there before the first opening bracket was there before. -/
theorem of_eq_append (hf : ActsBehindBrackets f) (hp : '[' ∉ p) (h : f s = p ++ t) :
    ∃ s', s = p ++ s' ∧ f s' = t := by
  induction p generalizing s with
  | nil => exact ⟨s, rfl, h⟩
  | cons a p ih =>
    rw [List.mem_cons, not_or] at hp
    cases s with
    | nil =>
      rw [hf.nil] at h
      cases h
    | cons c s =>
      by_cases hc : c = '['
      · subst hc
        obtain ⟨u, hu⟩ := hf.bracket s
        rw [hu, List.cons_append, List.cons.injEq] at h
        exact absurd h.1 hp.1
      · rw [hf.cons hc, List.cons_append, List.cons.injEq] at h
        obtain ⟨rfl, h⟩ := h
        obtain ⟨s', rfl, hs'⟩ := ih hp.2 h
        exact ⟨s', rfl, hs'⟩

/-- Up to the first opening bracket nothing changes. -/
theorem prefix_iff (hf : ActsBehindBrackets f) (hp : '[' ∉ p) : p <+: f s ↔ p <+: s := by
  constructor
  · rintro ⟨t, ht⟩
    obtain ⟨s', rfl, -⟩ := hf.of_eq_append hp ht.symm
    exact List.prefix_append p s'
  · rintro ⟨t, rfl⟩
    rw [hf.append hp]
    exact List.prefix_append p (f t)

/-- No group arises or goes at the start of a text. -/
theorem isSome_groupBody? (hf : ActsBehindBrackets f) : (groupBody? (f s)).isSome = (groupBody? s).isSome := by
  rw [Bool.eq_iff_iff, groupBody?_isSome_iff, groupBody?_isSome_iff]
  refine exists_congr fun body => and_congr_right fun hbody => hf.prefix_iff ?_
  exact List.not_mem_append hbody.2.opening_not_mem (by decide)

theorem groupBody?_eq_none_iff (hf : ActsBehindBrackets f) : groupBody? (f s) = none ↔ groupBody? s = none := by
  rw [← Option.not_isSome_iff_eq_none, ← Option.not_isSome_iff_eq_none, hf.isSome_groupBody?]

end ActsBehindBrackets

/-! ## Escaped text -/

theorem escapeBrackets_cons {c : Char} (h : c ≠ '[') (s : Text) : escapeBrackets (c :: s) = c :: escapeBrackets s := by
  rw [escapeBrackets, if_neg h]

theorem escapeBrackets_group {s body rest : Text} (h : groupBody? s = some (body, rest)) :
    escapeBrackets ('[' :: s) = '[' :: (body ++ '[' :: ']' :: escapeBrackets rest) := by
  rw [escapeBrackets, if_pos rfl]
  split
  next h' =>
    rw [h] at h'
    cases h'
    rfl
  next h' =>
    rw [h] at h'
    cases h'

theorem escapeBrackets_bracket {s : Text} (h : groupBody? s = none) :
    escapeBrackets ('[' :: s) = '[' :: escapeBrackets s := by
  rw [escapeBrackets, if_pos rfl]
  split
  next h' =>
    rw [h] at h'
    cases h'
  · rfl

theorem actsBehindBrackets_escapeBrackets : ActsBehindBrackets escapeBrackets where
  nil := by rw [escapeBrackets]
  cons := escapeBrackets_cons
  bracket s := by
    cases hg : groupBody? s with
    | none => exact ⟨_, escapeBrackets_bracket hg⟩
    | some found => exact ⟨_, escapeBrackets_group hg⟩

/-- Escaping only adds characters. -/
theorem sublist_escapeBrackets (s : Text) : s.Sublist (escapeBrackets s) := by
  fun_induction escapeBrackets s with
  | case1 => exact List.Sublist.refl []
  | case2 s body rest hg ih =>
    obtain ⟨-, rfl⟩ := groupBody?_eq_some_iff.1 hg
    exact ((List.Sublist.refl body).append ((ih.cons_cons ']').cons '[')).cons_cons '['
  | case3 s hg ih => exact ih.cons_cons '['
  | case4 c s hc ih => exact ih.cons_cons c

theorem escapeBrackets_of_not_mem {s : Text} (h : '[' ∉ s) : escapeBrackets s = s := by
  have happend := actsBehindBrackets_escapeBrackets.append h []
  rwa [actsBehindBrackets_escapeBrackets.nil, List.append_nil] at happend

/-- A text without opening brackets is what a text escapes to just when it is that text. -/
theorem eq_escapeBrackets_iff {s t : Text} (h : '[' ∉ s) : s = escapeBrackets t ↔ s = t := by
  constructor
  · rintro rfl
    exact escapeBrackets_of_not_mem fun hm => h ((sublist_escapeBrackets t).subset hm)
  · rintro rfl
    exact (escapeBrackets_of_not_mem h).symm

/-- Up to the first opening bracket escaping changes nothing. -/
theorem prefix_escapeBrackets_iff {p s : Text} (h : '[' ∉ p) : p <+: escapeBrackets s ↔ p <+: s :=
  actsBehindBrackets_escapeBrackets.prefix_iff h

/-- A suffix without some character ends before it. -/
theorem suffix_append_cons_iff {t u v : Text} {b : Char} (h : b ∉ t) : t <:+ u ++ b :: v ↔ t <:+ v := by
  induction u with
  | nil =>
    rw [List.nil_append, List.suffix_cons_iff]
    exact or_iff_right fun e => h (e ▸ List.mem_cons_self)
  | cons a u ih =>
    rw [List.cons_append, List.suffix_cons_iff, ih]
    exact or_iff_right fun e => h (e ▸ List.mem_cons_of_mem a (List.mem_append_right u List.mem_cons_self))

/-- From an opening bracket on, as long as no group is complete, escaping changes nothing. -/
theorem suffix_escapeBrackets_iff {x s : Text} (hx : GroupText x) :
    '[' :: x <:+ escapeBrackets s ↔ '[' :: x <:+ s := by
  fun_induction escapeBrackets s with
  | case1 => rfl
  | case2 s body rest hg ih =>
    obtain ⟨-, rfl⟩ := groupBody?_eq_some_iff.1 hg
    have hclose : ']' ∉ '[' :: x := by
      rw [List.mem_cons]
      exact not_or.2 ⟨by decide, hx.closing_not_mem⟩
    have hescaped : '[' :: (body ++ '[' :: ']' :: escapeBrackets rest)
        = ('[' :: (body ++ ['['])) ++ ']' :: escapeBrackets rest := by simp
    have hgroup : '[' :: (body ++ ']' :: rest) = ('[' :: body) ++ ']' :: rest := rfl
    rw [hescaped, hgroup, suffix_append_cons_iff hclose, suffix_append_cons_iff hclose, ih]
  | case3 s hg ih =>
    rw [List.suffix_cons_iff, List.suffix_cons_iff, ih, List.cons.injEq, List.cons.injEq,
      eq_escapeBrackets_iff hx.opening_not_mem]
  | case4 c s hc ih =>
    have hne (t : Text) : '[' :: x ≠ c :: t := fun e => hc (List.cons.inj e).1.symm
    rw [List.suffix_cons_iff, List.suffix_cons_iff, ih, or_iff_right (hne _), or_iff_right (hne _)]

/-- **Escaping leaves no group.** -/
theorem not_hasGroup_escapeBrackets (s : Text) : ¬ HasGroup (escapeBrackets s) := by
  fun_induction escapeBrackets s with
  | case1 => exact not_hasGroup_nil
  | case2 s body rest hg ih =>
    obtain ⟨hbody, -⟩ := groupBody?_eq_some_iff.1 hg
    rw [hasGroup_cons, groupBody?_escaped hbody, hasGroup_append hbody.2.opening_not_mem, hasGroup_cons,
      groupBody?_closing, hasGroup_cons]
    simpa using ih
  | case3 s hg ih =>
    rw [hasGroup_cons, actsBehindBrackets_escapeBrackets.isSome_groupBody?, hg]
    simpa using ih
  | case4 c s hc ih =>
    rw [hasGroup_cons]
    rintro (⟨h, -⟩ | h)
    · exact hc h
    · exact ih h

/-! ## Groups of styles -/

theorem groupText_name : ∀ c ∈ NamedColor.all, GroupText c.name := by decide +kernel

/-- A color that is given by name has one of the known names, whatever slot an alias gives it. -/
theorem groupText_name_of_ofName? {s : Text} {c : NamedColor} (h : NamedColor.ofName? s = some c) :
    GroupText c.name := by
  simp only [NamedColor.ofName?] at h
  split at h
  · obtain ⟨c', hc', rfl⟩ := Option.map_eq_some_iff.1 h
    exact groupText_name c' (List.mem_of_find?_eq_some hc')
  · exact groupText_name c (List.mem_of_find?_eq_some h)

theorem groupText_ofSlot (slot : Slot) : GroupText (NamedColor.ofSlot slot).name :=
  groupText_name _ (List.mem_append_left _ (List.mem_map_of_mem (List.mem_finRange slot)))

theorem groupText_toHex (c : Rgb) : GroupText c.toHex := by
  have hdigit : ∀ n, isGroupChar (Hex.digit n) = true := by decide
  have hdigits (c : Channel) : GroupText (Hex.digits c) := by
    simp only [Hex.digits, groupText_cons, hdigit, groupText_nil, and_self]
  rw [Rgb.toHex, groupText_cons, groupText_append, groupText_append]
  exact ⟨by decide, ⟨hdigits c.red, hdigits c.green⟩, hdigits c.blue⟩

/-- The name of a color that was read may stand in a group. -/
def ColorText : Color → Prop
  | .named c => GroupText c.name
  | _ => True

theorem colorText_of_parse? {s : Text} {c : Color} (h : Color.parse? s = some c) : ColorText c := by
  unfold Color.parse? at h
  dsimp only at h
  split at h
  · cases h
  split at h
  · obtain ⟨_, -, rfl⟩ := Option.map_eq_some_iff.1 h
    trivial
  split at h
  · obtain ⟨_, -, rfl⟩ := Option.map_eq_some_iff.1 h
    trivial
  · obtain ⟨c, hc, rfl⟩ := Option.map_eq_some_iff.1 h
    exact groupText_name_of_ofName? hc

theorem colorText_brighten {c : Color} (h : ColorText c) (s : Text) : ColorText (Style.brighten s c) := by
  cases c with
  | named c =>
    rw [Style.brighten]
    cases hp : Color.parse? (NamedColor.brightName s) with
    | none => exact h
    | some c' => exact colorText_of_parse? hp
  | index i =>
    rw [Style.brighten]
    split
    · trivial
    · trivial
  | hex c => trivial

theorem groupText_paintText {bright : Bool} {s : Text} : GroupText (paintText (Style.parsePaint? bright s)) := by
  unfold Style.parsePaint?
  dsimp only
  split
  · exact groupText_nil
  split
  · exact groupText_cons.2 ⟨by decide, groupText_nil⟩
  cases hp : Color.parse? s.trim with
  | none => exact groupText_nil
  | some c =>
    have hc : ColorText (if bright then Style.brighten s.trim c else c) := by
      split
      · exact colorText_brighten (colorText_of_parse? hp) s.trim
      · exact colorText_of_parse? hp
    rw [Option.map_some]
    generalize (if bright then Style.brighten s.trim c else c) = c at hc
    cases c with
    | named c =>
      rw [paintText]
      cases hs : c.slot with
      | none => exact hc
      | some slot => exact groupText_ofSlot slot
    | hex c => exact groupText_toHex c
    | index i => exact groupText_toHex _

theorem groupText_attributeLetters (f : Flags) : GroupText (attributeLetters f) := by
  intro c hc
  obtain ⟨a, -, ha⟩ := List.mem_filterMap.1 hc
  obtain ⟨on, -, rfl⟩ := Option.map_eq_some_iff.1 ha
  have hletter : isGroupChar a.letter = true ∧ isGroupChar a.letter.toLower = true := by
    cases a <;> decide
  split
  · exact hletter.2
  · exact hletter.1

theorem GroupText.dropEndWhile {s : Text} (h : GroupText s) (f : Char → Bool) : GroupText (s.dropEndWhile f) := by
  intro c hc
  have hc : c ∈ s.reverse := (List.dropWhile_sublist f).subset (List.mem_reverse.1 hc)
  exact h c (List.mem_reverse.1 hc)

/-- **What stands for a style is a group.** -/
theorem isGroup_of_group? {code g : Text} (h : group? (Style.parse code) = some g) : IsGroup g := by
  unfold Style.parse at h
  dsimp only at h
  split at h
  · cases h
    exact ⟨"-:-:-".toList, by decide, rfl⟩
  · unfold Style.ofFields group? at h
    dsimp only at h
    split at h
    · cases h
    next hne =>
      cases h
      refine ⟨_, ⟨hne, GroupText.dropEndWhile ?_ _⟩, rfl⟩
      rw [groupText_append, groupText_cons, groupText_append, groupText_cons]
      exact ⟨⟨groupText_paintText, by decide, groupText_paintText⟩, by decide, groupText_attributeLetters _⟩

end Widget
end TerminalMarkup
