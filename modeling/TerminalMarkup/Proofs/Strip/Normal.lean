import TerminalMarkup.Proofs.Token.Scan
import TerminalMarkup.Renderer

/-!
# The normal form of stripped text

Stripping is a loop inside a loop: escape sequences and remnants are removed until nothing changes, then the tags, and
all of it again until nothing changes. `Text.Settles` is such a loop as a relation, in which a loop that goes on forever
has no result.

* Both loops end, for every deletion makes the text shorter (`Text.settles_shrink`), and have one result only
  (`Text.Settles.det`);
* the texts that stripping leaves alone are exactly those without tags that stripping of escapes leaves alone
  (`strip_eq_self_iff`); such a text has no escape character and nothing that one pass would delete
  (`escape_not_mem_of_stable`, `removeSequences_of_stable`, `removeRemnants_of_stable`);
* every stripped text is one of them (`Renderer.strip_normal`).
-/

namespace TerminalMarkup

/-! ## Loops -/

namespace Text

/-- Repeating `f` on a text until nothing changes ends with the second text. -/
inductive Settles (f : Text → Text) : Text → Text → Prop
  | rest {s : Text} : f s = s → Settles f s s
  | step {s r : Text} : f s ≠ s → Settles f (f s) r → Settles f s r

variable {f : Text → Text} {s r r' : Text}

/-- A loop has one result. -/
theorem Settles.det (h : Settles f s r) (h' : Settles f s r') : r = r' := by
  induction h with
  | rest he =>
    cases h' with
    | rest _ => rfl
    | step hne _ => exact absurd he hne
  | step hne _ ih =>
    cases h' with
    | rest he => exact absurd he hne
    | step _ h' => exact ih h'

/-- **The loop of a deletion ends.** -/
theorem settles_shrink (hf : ∀ s, (f s).Sublist s) (s : Text) : Settles f s (shrink f s) := by
  fun_induction shrink f s with
  | case1 s h ih =>
    refine .step ?_ ih
    intro he
    rw [he] at h
    exact absurd h (Nat.lt_irrefl _)
  | case2 s h => exact .rest ((hf s).eq_of_length_le (Nat.not_lt.1 h))

theorem settles_iff (hf : ∀ s, (f s).Sublist s) : Settles f s r ↔ r = shrink f s := by
  constructor
  · intro h
    exact h.det (settles_shrink hf s)
  · rintro rfl
    exact settles_shrink hf s

/-- One round more or less makes no difference. -/
theorem shrink_apply (hf : ∀ s, (f s).Sublist s) (s : Text) : shrink f (f s) = shrink f s := by
  by_cases h : (f s).length < s.length
  · rw [shrink.eq_def f s, if_pos h]
  · rw [(hf s).eq_of_length_le (Nat.not_lt.1 h)]

theorem shrink_of_stable (h : f s = s) : shrink f s = s := by
  rw [shrink, if_neg]
  rw [h]
  exact Nat.lt_irrefl _

end Text

/-! ## Escapes -/

variable {s : Text}

theorem stripEscapes_eq_self_iff : stripEscapes s = s ↔ Escape.removeOnce s = s := by
  constructor
  · intro h
    have := stripEscapes_stable s
    rwa [h] at this
  · intro h
    exact Text.shrink_of_stable h

theorem stripEscapes_removeOnce (s : Text) : stripEscapes (Escape.removeOnce s) = stripEscapes s :=
  Text.shrink_apply Escape.removeOnce_sublist s

theorem escape_not_mem_of_stable (h : stripEscapes s = s) : escape ∉ s := by
  rw [← stripEscapes_eq_self_iff.1 h, Escape.removeOnce]
  intro hm
  exact absurd rfl (of_decide_eq_true (List.mem_filter.1 hm).2)

/-- The stages of a round delete in turn, so all of them leave alone what the round leaves alone. -/
theorem removeSequences_of_stable (h : stripEscapes s = s) : Escape.removeSequences s = s := by
  have hle : s.length ≤ (Escape.removeSequences s).length := by
    calc s.length = (Escape.removeOnce s).length := by rw [stripEscapes_eq_self_iff.1 h]
      _ ≤ (Escape.removeRemnants (Escape.removeSequences s)).length := List.length_filter_le _ _
      _ ≤ (Escape.removeSequences s).length := (Escape.removeRemnants_sublist _).length_le
  exact (Escape.removeSequences_sublist s).eq_of_length_le hle

theorem removeRemnants_of_stable (h : stripEscapes s = s) : Escape.removeRemnants s = s := by
  have hle : s.length ≤ (Escape.removeRemnants s).length := by
    calc s.length = (Escape.removeOnce s).length := by rw [stripEscapes_eq_self_iff.1 h]
      _ ≤ (Escape.removeRemnants (Escape.removeSequences s)).length := List.length_filter_le _ _
      _ = (Escape.removeRemnants s).length := by rw [removeSequences_of_stable h]
  exact (Escape.removeRemnants_sublist s).eq_of_length_le hle

/-! ## Tags and escapes -/

/-- **What stripping leaves alone**: texts without tags, from which no escapes can be stripped. -/
theorem strip_eq_self_iff {d : Delimiters} : strip d s = s ↔ Untagged d s ∧ stripEscapes s = s := by
  constructor
  · intro h
    have hst := strip_stable d s
    rw [h] at hst
    have hle : s.length ≤ (stripTags d s).length := by
      have := (stripEscapes_sublist (stripTags d s)).length_le
      rwa [hst] at this
    have htags := (stripTags_sublist d s).eq_of_length_le hle
    rw [htags] at hst
    exact ⟨stripTags_eq_self_iff.1 htags, hst⟩
  · rintro ⟨htags, hesc⟩
    refine Text.shrink_of_stable ?_
    rw [stripTags_eq_self_iff.2 htags, hesc]

theorem strip_stripOnce (d : Delimiters) (s : Text) : strip d (stripEscapes (stripTags d s)) = strip d s :=
  Text.shrink_apply (stripOnce_sublist d) s

theorem strip_strip (d : Delimiters) (s : Text) : strip d (strip d s) = strip d s :=
  Text.shrink_of_stable (strip_stable d s)

/-- Nothing is left to strip. -/
theorem strip_untagged (d : Delimiters) (s : Text) : Untagged d (strip d s) :=
  (strip_eq_self_iff.1 (strip_strip d s)).1

theorem stripEscapes_strip (d : Delimiters) (s : Text) : stripEscapes (strip d s) = strip d s :=
  (strip_eq_self_iff.1 (strip_strip d s)).2

namespace Renderer

/-- Without a terminal, or without colors, nothing is rendered. -/
theorem ansi_of_plain {re : Renderer} (h : re.isTerminal = false ∨ re.profile = .ascii) (s base : Text) :
    re.ansi s = re.strip s ∧ re.ansiWithin s base = re.strip s := by
  have hc : re.rendersColor = false := by
    rcases h with h | h
    · simp [rendersColor, h]
    · simp [rendersColor, Profile.supportsColor, h]
  simp [ansi, ansiWithin, hc]

/-- **The normal form.** Both loops of stripping end. Their result is part of the text; it has no tags and no escape
character, and neither a pass for sequences nor a pass for remnants deletes anything from it. A text that has no tags
and no escapes to strip is its own result. Where nothing is rendered, no escape character is written. -/
theorem strip_normal (re : Renderer) (s base : Text) :
    (∀ t r, Text.Settles Escape.removeOnce t r ↔ r = stripEscapes t) ∧
      (∀ r, Text.Settles (fun t => stripEscapes (stripTags re.delimiters t)) s r ↔ r = re.strip s) ∧
      (re.strip s).Sublist s ∧
      Untagged re.delimiters (re.strip s) ∧
      escape ∉ re.strip s ∧
      stripEscapes (re.strip s) = re.strip s ∧
      Escape.removeSequences (re.strip s) = re.strip s ∧
      Escape.removeRemnants (re.strip s) = re.strip s ∧
      (Untagged re.delimiters s → stripEscapes s = s → re.strip s = s) ∧
      (re.isTerminal = false ∨ re.profile = .ascii → escape ∉ re.ansi s ∧ escape ∉ re.ansiWithin s base) := by
  have hst : stripEscapes (re.strip s) = re.strip s := stripEscapes_strip re.delimiters s
  refine ⟨fun _ _ => Text.settles_iff Escape.removeOnce_sublist,
    fun _ => Text.settles_iff (stripOnce_sublist re.delimiters), strip_sublist re.delimiters s,
    strip_untagged re.delimiters s, escape_not_mem_of_stable hst, hst, removeSequences_of_stable hst,
    removeRemnants_of_stable hst, ?_, ?_⟩
  · intro htags hesc
    exact strip_eq_self_iff.2 ⟨htags, hesc⟩
  · intro hplain
    obtain ⟨ha, hw⟩ := ansi_of_plain hplain s base
    rw [ha, hw]
    exact ⟨escape_not_mem_of_stable hst, escape_not_mem_of_stable hst⟩

/-- A bracketed word is no remnant, and stays where nothing is rendered. -/
theorem strip_normal_bracketed :
    strip ⟨.empty, .canonical, .ascii, true⟩ "[2B] ok".toList = "[2B] ok".toList ∧
      escape ∉ ansi ⟨.empty, .canonical, .ascii, true⟩ "[2B] ok".toList := by
  obtain ⟨-, -, -, -, -, -, -, -, hself, hplain⟩ := strip_normal ⟨.empty, .canonical, .ascii, true⟩ "[2B] ok".toList []
  exact ⟨hself (by decide +kernel) (by decide +kernel), (hplain (.inr rfl)).1⟩

end Renderer
end TerminalMarkup
