import Mathlib.Data.List.Perm.Subperm
import TerminalMarkup.Proofs.Composition.Made
import TerminalMarkup.Proofs.Text.Lowercase

/-!
# Merging a composition with itself

Compacted flags are those whose letters are distinct (`Composition.compactFlags_eq_self_iff`), and as style codes have
few characters there are never many of them (`Composition.Canonical.length_flags_le`).

Appending flags to themselves repeats every letter, and so only drops what has stood there before
(`Composition.appendFlags_self`). Therefore a composition that is made of style codes is left as it is by merging it
with itself, and by merging nothing into it or it into nothing (`Composition.Made.merge_self`).
-/

namespace TerminalMarkup

namespace Composition

/-! ## Distinct letters -/

/-- No two characters are the same up to the case of ASCII letters. -/
def Distinct (s : Text) : Prop := s.Pairwise fun a b => sameLetter a b = false

instance (s : Text) : Decidable (Distinct s) := inferInstanceAs (Decidable (List.Pairwise _ s))

/-- The letters of flags, behind the dash in front if there is one. -/
def letters : Text → Text
  | '-' :: s => s
  | s => s

theorem letters_of_head?_ne {s : Text} (h : s.head? ≠ some '-') : letters s = s := by
  unfold letters
  split
  · exact absurd rfl h
  · rfl

theorem letters_sublist (f : Text) : (letters f).Sublist f := by
  unfold letters
  split
  · exact List.sublist_cons_self _ _
  · exact List.Sublist.refl _

theorem length_le_letters (f : Text) : f.length ≤ (letters f).length + 1 := by
  unfold letters
  split
  · exact Nat.le_refl _
  · exact Nat.le_succ _

/-- Compaction leaves the letters distinct. -/
theorem distinct_compactLetters (s : Text) : Distinct (compactLetters s) := by
  induction s with
  | nil => exact .nil
  | cons c s ih =>
    rw [compactLetters_cons]
    split
    · exact ih
    next h =>
      rw [← any_compactLetters, List.any_eq_true] at h
      exact List.pairwise_cons.2 ⟨fun d hd => Bool.eq_false_iff.2 fun hcd => h ⟨d, hd, hcd⟩, ih⟩

/-- Distinct letters are kept. -/
theorem Distinct.compactLetters_eq {s : Text} (h : Distinct s) : compactLetters s = s := by
  induction s with
  | nil => rfl
  | cons c s ih =>
    obtain ⟨hc, hs⟩ := List.pairwise_cons.1 h
    have hlater : ¬ s.any (sameLetter c) = true := by
      rw [List.any_eq_true]
      rintro ⟨d, hd, hcd⟩
      rw [hc d hd] at hcd
      cases hcd
    rw [compactLetters_cons, if_neg hlater, ih hs]

theorem compactLetters_eq_self_iff {s : Text} : compactLetters s = s ↔ Distinct s :=
  ⟨fun h => h ▸ distinct_compactLetters s, Distinct.compactLetters_eq⟩

/-- **Compacted flags are those with distinct letters.** -/
theorem compactFlags_eq_self_iff {f : Text} : compactFlags f = f ↔ Distinct (letters f) := by
  by_cases hf : f.head? = some '-'
  · obtain ⟨s, rfl⟩ := List.head?_eq_some_iff.1 hf
    have hflags : compactFlags ('-' :: s) = '-' :: compactLetters s := rfl
    rw [hflags, List.cons_eq_cons, and_iff_right rfl, compactLetters_eq_self_iff]
    rfl
  · rw [compactFlags_of_head?_ne hf, letters_of_head?_ne hf, compactLetters_eq_self_iff]

/-! ## Few letters -/

/-- The characters of style codes other than the colon, with ASCII letters in lower case. -/
def fieldLetters : Text := "abcdefghijklmnopqrstuvwxyz0123456789_-#;".toList

theorem toLower_mem_fieldLetters {c : Char} (h : Token.isCodeChar c = true) (hc : c ≠ ':') :
    c.toLower ∈ fieldLetters :=
  Lowercase.forall_ascii (P := fun c => Token.isCodeChar c = true → c ≠ ':' → c.toLower ∈ fieldLetters)
    (by decide +kernel) (Token.bounds_of_isCodeChar h).2 h hc

/-- There are no more distinct letters than there are characters for fields of style codes. -/
theorem Distinct.length_le {s : Text} (h : Distinct s) (hs : IsCodeField s) : s.length ≤ fieldLetters.length := by
  have hnodup : (s.map Char.toLower).Nodup := by
    refine List.pairwise_map.2 (h.imp fun {a b} hab he => ?_)
    rw [sameLetter_iff.2 he] at hab
    cases hab
  have hsubset : s.map Char.toLower ⊆ fieldLetters := by
    intro x hx
    obtain ⟨c, hc, rfl⟩ := List.mem_map.1 hx
    exact toLower_mem_fieldLetters (hs c hc).1 (hs c hc).2
  rw [← List.length_map Char.toLower]
  exact (List.subperm_of_subset hnodup hsubset).length_le

/-- Flags are a dash and forty letters at most. -/
theorem Canonical.length_flags_le {c : Composition} (h : c.Canonical) : c.flags.length ≤ 41 := by
  have hletters : IsCodeField (letters c.flags) := fun x hx => h.flags x ((letters_sublist _).subset hx)
  have hle := (compactFlags_eq_self_iff.1 h.compact).length_le hletters
  have hforty : fieldLetters.length = 40 := by decide
  have := length_le_letters c.flags
  omega

/-! ## Twice the same -/

theorem layField_self (s : Text) : layField s s = s := by
  unfold layField
  split
  · rfl
  · rfl

/-- A text behind itself: the letters of the first are all given again. -/
theorem compactLetters_append_self (s : Text) : compactLetters (s ++ s) = compactLetters s := by
  have hdropped : (compactLetters s).filter (fun k => !s.any (sameLetter k)) = [] := by
    refine List.filter_eq_nil_iff.2 fun k hk => ?_
    have hany : s.any (sameLetter k) = true :=
      List.any_eq_true.2 ⟨k, mem_of_mem_compactLetters hk, sameLetter_iff.2 rfl⟩
    simp [hany]
  rw [compactLetters_append, foldl_keepLast, hdropped, List.nil_append]

/-- **Compacted flags absorb themselves.** -/
theorem appendFlags_self {f : Text} (h : compactFlags f = f) : appendFlags f f = f := by
  by_cases hf : f.head? = some '-'
  · obtain ⟨s, rfl⟩ := List.head?_eq_some_iff.1 hf
    exact h
  · have hhead : (f ++ f).head? ≠ some '-' := by
      rw [List.head?_append, Option.or_self]
      exact hf
    have hletters : compactFlags (f ++ f) = f := by
      rw [compactFlags_of_head?_ne hhead, compactLetters_append_self, ← compactFlags_of_head?_ne hf, h]
    unfold appendFlags
    split
    · rfl
    · exact absurd rfl hf
    · exact hletters

theorem Canonical.merge_self_eq {c : Composition} (h : c.Canonical) : c.merge c = c := by
  rw [Composition.merge, overlay_eq_lay, read_code h.clean, Composition.lay, layField_self, layField_self,
    appendFlags_self h.compact]

/-- A list of style codes makes a composition. -/
theorem made_ofCodes {codes : List Text} (h : ∀ code ∈ codes, Token.isCode code = true) : (ofCodes codes).Made :=
  List.foldlRecOn codes overlay .empty fun _ hc code hcode => hc.overlay (h code hcode)

/-- **What is made of style codes has distinct letters, and is left as it is by merging it with itself or with
nothing.** -/
theorem Made.merge_self {c : Composition} (h : c.Made) :
    Distinct (letters c.flags) ∧ c.flags.length ≤ 41 ∧ c.merge c = c ∧ c.merge Composition.empty = c ∧
      Composition.empty.merge c = c :=
  ⟨compactFlags_eq_self_iff.1 h.canonical.compact, h.canonical.length_flags_le, h.canonical.merge_self_eq,
    merge_empty c, h.canonical.empty_merge⟩

/-- A dash comes to the front when the composition is merged into another one; letters are repeated in both cases. -/
theorem Made.merge_self_dash :
    let c := ((ofCodes ["red::B-U".toList]).merge (ofCodes ["::b".toList, ":#FFF:u".toList])).overlay "::iI;b".toList
    c = ⟨"red".toList, "#FFF".toList, "-uI;b".toList⟩ ∧ Distinct "uI;b".toList ∧ c.merge c = c := by
  intro c
  have hmade : c.Made := .overlay (.merge (made_ofCodes (by decide)) (made_ofCodes (by decide))) (by decide)
  have hc : c = ⟨"red".toList, "#FFF".toList, "-uI;b".toList⟩ := by decide
  obtain ⟨hdistinct, -, hself, -⟩ := Made.merge_self hmade
  rw [hc] at hdistinct
  exact ⟨hc, hdistinct, hself⟩

end Composition
end TerminalMarkup
