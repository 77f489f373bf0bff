import Mathlib.Data.List.Induction
import TerminalMarkup.Composition

/-!
# Compaction of flag letters

Of the letters for one attribute the last is kept. Seen from the front, a letter is dropped if a later one names its
attribute (`compactLetters_cons`). So compacting a part of a text before the whole makes no difference
(`compactLetters_append_left`, `compactLetters_append_right`).

A dash counts in front only. Flags are tidy when they have no dash elsewhere, unless there is one in front too
(`Composition.TidyFlags`). Appending keeps flags tidy, and is associative on tidy flags (`appendFlags_assoc`).
-/

namespace TerminalMarkup

namespace Composition

/-! ## Letters -/

theorem sameLetter_iff {a b : Char} : sameLetter a b = true ↔ a.toLower = b.toLower := by
  rw [sameLetter, beq_iff_eq]

@[simp] theorem compactLetters_nil : compactLetters [] = [] := rfl

/-- Letters that are read after `kept` drop those of `kept` that name the same attributes. -/
theorem foldl_keepLast (kept s : Text) :
    s.foldl keepLast kept = kept.filter (fun k => !s.any (sameLetter k)) ++ compactLetters s := by
  induction s using List.reverseRecOn with
  | nil =>
    rw [List.foldl_nil, compactLetters_nil, List.append_nil, List.filter_eq_self.2]
    exact fun _ _ => rfl
  | append_singleton s c ih =>
    have hs : compactLetters (s ++ [c]) = keepLast (compactLetters s) c := by
      rw [compactLetters, List.foldl_append, List.foldl_cons, List.foldl_nil, compactLetters]
    rw [List.foldl_append, List.foldl_cons, List.foldl_nil, ih, hs, keepLast, keepLast, List.filter_append,
      List.filter_filter, List.append_assoc]
    congr 2
    funext k
    simp [Bool.and_comm]

/-- A letter is dropped if a later one names its attribute. -/
theorem compactLetters_cons (c : Char) (s : Text) :
    compactLetters (c :: s) = if s.any (sameLetter c) then compactLetters s else c :: compactLetters s := by
  have h : compactLetters (c :: s) = s.foldl keepLast [c] := rfl
  rw [h, foldl_keepLast]
  by_cases hc : s.any (sameLetter c) = true
  · rw [if_pos hc, List.filter_cons_of_neg (by simp [hc])]
    rfl
  · rw [if_neg hc, List.filter_cons_of_pos (by simpa using hc)]
    rfl

/-- Compaction keeps a letter for every attribute. -/
theorem any_compactLetters (k : Char) (s : Text) : (compactLetters s).any (sameLetter k) = s.any (sameLetter k) := by
  induction s with
  | nil => rfl
  | cons c s ih =>
    rw [compactLetters_cons, List.any_cons]
    split
    · next h =>
      rw [ih]
      -- the later letter stands for `c`
      by_cases hk : sameLetter k c = true
      · obtain ⟨d, hd, hcd⟩ := List.any_eq_true.1 h
        have hkd : sameLetter k d = true := sameLetter_iff.2 ((sameLetter_iff.1 hk).trans (sameLetter_iff.1 hcd))
        rw [List.any_eq_true.2 ⟨d, hd, hkd⟩, Bool.or_true]
      · rw [Bool.eq_false_iff.2 hk, Bool.false_or]
    · rw [List.any_cons, ih]

@[simp] theorem compactLetters_compactLetters (s : Text) : compactLetters (compactLetters s) = compactLetters s := by
  induction s with
  | nil => rfl
  | cons c s ih =>
    rw [compactLetters_cons]
    split
    · exact ih
    · next h => rw [compactLetters_cons, any_compactLetters, if_neg h, ih]

theorem compactLetters_append (s t : Text) : compactLetters (s ++ t) = t.foldl keepLast (compactLetters s) := by
  rw [compactLetters, List.foldl_append, compactLetters]

theorem compactLetters_append_left (s t : Text) : compactLetters (compactLetters s ++ t) = compactLetters (s ++ t) := by
  rw [compactLetters_append, compactLetters_compactLetters, compactLetters_append]

theorem compactLetters_append_right (s t : Text) :
    compactLetters (s ++ compactLetters t) = compactLetters (s ++ t) := by
  induction s with
  | nil => exact compactLetters_compactLetters t
  | cons c s ih =>
    rw [List.cons_append, List.cons_append, compactLetters_cons, compactLetters_cons, List.any_append, List.any_append,
      any_compactLetters, ih]

theorem mem_of_mem_compactLetters {s : Text} {c : Char} (h : c ∈ compactLetters s) : c ∈ s := by
  induction s with
  | nil => exact h
  | cons d s ih =>
    rw [compactLetters_cons] at h
    split at h
    · exact List.mem_cons_of_mem _ (ih h)
    · rcases List.mem_cons.1 h with rfl | h
      · exact List.mem_cons_self
      · exact List.mem_cons_of_mem _ (ih h)

theorem compactLetters_ne_nil {s : Text} (h : s ≠ []) : compactLetters s ≠ [] := by
  induction s with
  | nil => exact absurd rfl h
  | cons c s ih =>
    rw [compactLetters_cons]
    split
    · next hc =>
      refine ih ?_
      rintro rfl
      cases hc
    · exact List.cons_ne_nil _ _

/-! ## Flags -/

/-- A dash in the flags stands in front, at least one of them. -/
def TidyFlags (f : Text) : Prop := '-' ∉ f ∨ f.head? = some '-'

instance (f : Text) : Decidable (TidyFlags f) := inferInstanceAs (Decidable (_ ∨ _))

theorem compactFlags_of_head?_ne {s : Text} (h : s.head? ≠ some '-') : compactFlags s = compactLetters s := by
  unfold compactFlags
  split
  · exact absurd rfl h
  · rfl

theorem compactFlags_of_not_mem {s : Text} (h : '-' ∉ s) : compactFlags s = compactLetters s :=
  compactFlags_of_head?_ne fun hd => h (List.mem_of_mem_head? hd)

@[simp] theorem appendFlags_nil (f : Text) : appendFlags f [] = f := rfl

@[simp] theorem appendFlags_dash (f s : Text) : appendFlags f ('-' :: s) = '-' :: compactLetters s := rfl

/-- Letters after flags with a dash in front. -/
theorem appendFlags_behind_dash {s : Text} (hne : s ≠ []) (h : '-' ∉ s) (f : Text) :
    appendFlags ('-' :: f) s = '-' :: compactLetters (f ++ s) := by
  unfold appendFlags
  split
  · exact absurd rfl hne
  · exact absurd List.mem_cons_self h
  · rfl

/-- Letters after letters. -/
theorem appendFlags_of_not_mem {f s : Text} (hf : '-' ∉ f) (h : '-' ∉ s) (hne : s ≠ []) :
    appendFlags f s = compactLetters (f ++ s) := by
  unfold appendFlags
  split
  · exact absurd rfl hne
  · exact absurd List.mem_cons_self h
  · exact compactFlags_of_not_mem (List.not_mem_append hf h)

theorem mem_of_mem_compactFlags {s : Text} {c : Char} (h : c ∈ compactFlags s) : c ∈ s := by
  unfold compactFlags at h
  split at h
  · rcases List.mem_cons.1 h with rfl | h
    · exact List.mem_cons_self
    · exact List.mem_cons_of_mem _ (mem_of_mem_compactLetters h)
  · exact mem_of_mem_compactLetters h

theorem mem_of_mem_appendFlags {f s : Text} {c : Char} (h : c ∈ appendFlags f s) : c ∈ f ∨ c ∈ s := by
  unfold appendFlags at h
  split at h
  · exact .inl h
  · exact .inr (mem_of_mem_compactFlags h)
  · exact List.mem_append.1 (mem_of_mem_compactFlags h)

/-- Tidy flags are empty, start with a dash, or have no dash. -/
theorem TidyFlags.cases {f : Text} (h : TidyFlags f) : f = [] ∨ (∃ s, f = '-' :: s) ∨ f ≠ [] ∧ '-' ∉ f := by
  rcases h with h | h
  · by_cases hf : f = []
    · exact .inl hf
    · exact .inr (.inr ⟨hf, h⟩)
  · obtain ⟨s, rfl⟩ := List.head?_eq_some_iff.1 h
    exact .inr (.inl ⟨s, rfl⟩)

theorem tidyFlags_dash (s : Text) : TidyFlags ('-' :: s) := .inr rfl

/-- Flags stay tidy. -/
theorem TidyFlags.appendFlags {f s : Text} (hf : TidyFlags f) (hs : TidyFlags s) : TidyFlags (appendFlags f s) := by
  rcases hs.cases with rfl | ⟨s, rfl⟩ | ⟨hne, hs⟩
  · exact hf
  · exact tidyFlags_dash _
  · rcases hf.cases with rfl | ⟨f, rfl⟩ | ⟨-, hf⟩
    · rw [appendFlags_of_not_mem List.not_mem_nil hs hne]
      exact .inl fun h => hs (mem_of_mem_compactLetters h)
    · rw [appendFlags_behind_dash hne hs]
      exact tidyFlags_dash _
    · rw [appendFlags_of_not_mem hf hs hne]
      exact .inl fun h => List.not_mem_append hf hs (mem_of_mem_compactLetters h)

/-- Letters that have been compacted are appended like the letters themselves. -/
theorem appendFlags_compactLetters {f s : Text} (hf : TidyFlags f) (hne : s ≠ []) (h : '-' ∉ s) :
    appendFlags f (compactLetters s) = appendFlags f s := by
  have hne' : compactLetters s ≠ [] := compactLetters_ne_nil hne
  have h' : '-' ∉ compactLetters s := fun hm => h (mem_of_mem_compactLetters hm)
  rcases hf with hf | hf
  · rw [appendFlags_of_not_mem hf h' hne', appendFlags_of_not_mem hf h hne, compactLetters_append_right]
  · obtain ⟨f, rfl⟩ := List.head?_eq_some_iff.1 hf
    rw [appendFlags_behind_dash hne' h', appendFlags_behind_dash hne h, compactLetters_append_right]

/-- **Appending tidy flags is associative.** The cases follow the last of the three: it is empty, it starts with a dash
and replaces all before it, or it has letters only. -/
theorem appendFlags_assoc {f g s : Text} (hf : TidyFlags f) (hg : TidyFlags g) (hs : TidyFlags s) :
    appendFlags f (appendFlags g s) = appendFlags (appendFlags f g) s := by
  rcases hs.cases with rfl | ⟨s, rfl⟩ | ⟨hne, hs⟩
  · rfl
  · simp
  · rcases hg.cases with rfl | ⟨g, rfl⟩ | ⟨hgne, hg⟩
    · rw [appendFlags_of_not_mem List.not_mem_nil hs hne, List.nil_append, appendFlags_compactLetters hf hne hs,
        appendFlags_nil]
    · rw [appendFlags_behind_dash hne hs, appendFlags_dash, appendFlags_dash, appendFlags_behind_dash hne hs,
        compactLetters_compactLetters, compactLetters_append_left]
    · have hgs : '-' ∉ g ++ s := List.not_mem_append hg hs
      have hgsne : g ++ s ≠ [] := List.append_ne_nil_of_left_ne_nil hgne s
      rw [appendFlags_of_not_mem hg hs hne, appendFlags_compactLetters hf hgsne hgs]
      rcases hf with hf | hf
      · have hfg : '-' ∉ compactLetters (f ++ g) :=
          fun h => List.not_mem_append hf hg (mem_of_mem_compactLetters h)
        rw [appendFlags_of_not_mem hf hgs hgsne, appendFlags_of_not_mem hf hg hgne, appendFlags_of_not_mem hfg hs hne,
          compactLetters_append_left, List.append_assoc]
      · obtain ⟨f, rfl⟩ := List.head?_eq_some_iff.1 hf
        rw [appendFlags_behind_dash hgsne hgs, appendFlags_behind_dash hgne hg, appendFlags_behind_dash hne hs,
          compactLetters_append_left, List.append_assoc]

end Composition
end TerminalMarkup
