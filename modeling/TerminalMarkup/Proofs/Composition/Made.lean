import TerminalMarkup.Proofs.Composition.Merge
import TerminalMarkup.Proofs.Token.Replace
import TerminalMarkup.Registry.Basic

/-!
# Compositions that are made of style codes

Whatever is laid over each other and merged, the fields hold characters of style codes only, and no flag is repeated
(`Composition.Canonical`, `Composition.Made.canonical`). Therefore

* the code of such a composition is a style code itself, and the registry stores it as it is (`Canonical.isCode_code`,
  `Registry.normalizeValue_of_isCode`);
* no two such compositions have the same code (`Canonical.code_inj`), and nothing changes when one of them is merged
  with the empty composition (`Canonical.empty_merge`).
-/

namespace TerminalMarkup

namespace Composition

/-! ## Flags are compact -/

theorem length_compactLetters_le (s : Text) : (compactLetters s).length ≤ s.length := by
  induction s with
  | nil => exact Nat.le_refl _
  | cons c s ih =>
    rw [compactLetters_cons]
    split
    · exact Nat.le_succ_of_le ih
    · exact Nat.succ_le_succ ih

/-- A dash that compaction brings to the front stays there, and the letters behind it are compact. -/
theorem compactFlags_compactFlags (s : Text) : compactFlags (compactFlags s) = compactFlags s := by
  by_cases hs : s.head? = some '-'
  · obtain ⟨t, rfl⟩ := List.head?_eq_some_iff.1 hs
    exact congrArg ('-' :: ·) (compactLetters_compactLetters t)
  rw [compactFlags_of_head?_ne hs]
  by_cases hk : (compactLetters s).head? = some '-'
  · obtain ⟨u, hu⟩ := List.head?_eq_some_iff.1 hk
    have hfix := compactLetters_compactLetters s
    rw [hu, compactLetters_cons] at hfix
    rw [hu]
    split at hfix
    · have hlen := length_compactLetters_le u
      rw [hfix, List.length_cons] at hlen
      omega
    · exact hfix
  · rw [compactFlags_of_head?_ne hk, compactLetters_compactLetters]

theorem compactFlags_appendFlags {f : Text} (hf : compactFlags f = f) (s : Text) :
    compactFlags (appendFlags f s) = appendFlags f s := by
  unfold appendFlags
  split
  · exact hf
  · exact compactFlags_compactFlags _
  · exact compactFlags_compactFlags _

/-! ## Fields of style codes -/

/-- A text of characters that may stand between the colons of a valid style code. -/
def IsCodeField (s : Text) : Prop := ∀ x ∈ s, Token.isCodeChar x = true ∧ x ≠ ':'

/-- A composition whose fields hold characters of style codes, and no flag twice. -/
structure Canonical (c : Composition) : Prop where
  foreground : IsCodeField c.foreground
  background : IsCodeField c.background
  flags : IsCodeField c.flags
  compact : compactFlags c.flags = c.flags

theorem IsCodeField.isField {s : Text} (h : IsCodeField s) : IsField s :=
  fun x hx => ⟨(h x hx).2, Token.isBlank_of_isCodeChar (h x hx).1⟩

theorem IsCodeField.layField {s t : Text} (hs : IsCodeField s) (ht : IsCodeField t) : IsCodeField (layField s t) := by
  unfold Composition.layField
  split
  · exact hs
  · exact ht

theorem IsCodeField.appendFlags {s t : Text} (hs : IsCodeField s) (ht : IsCodeField t) :
    IsCodeField (appendFlags s t) := by
  intro x hx
  rcases mem_of_mem_appendFlags hx with hx | hx
  · exact hs x hx
  · exact ht x hx

namespace Canonical

theorem clean {c : Composition} (h : c.Canonical) : c.Clean :=
  ⟨h.foreground.isField, h.background.isField, h.flags.isField⟩

theorem empty : Canonical Composition.empty :=
  ⟨fun _ h => absurd h List.not_mem_nil, fun _ h => absurd h List.not_mem_nil, fun _ h => absurd h List.not_mem_nil,
    rfl⟩

/-- Laying fields of style codes over a canonical composition keeps it canonical. -/
theorem lay {c o : Composition} (hc : c.Canonical) (hf : IsCodeField o.foreground) (hb : IsCodeField o.background)
    (hl : IsCodeField o.flags) : (c.lay o).Canonical :=
  ⟨hc.foreground.layField hf, hc.background.layField hb, hc.flags.appendFlags hl,
    compactFlags_appendFlags hc.compact o.flags⟩

theorem overlay {c : Composition} (hc : c.Canonical) {code : Text} (h : Token.isCode code = true) :
    (c.overlay code).Canonical := by
  have hchar : ∀ x ∈ code, Token.isCodeChar x = true := (Token.isCode_iff.1 h).2
  have hfield (i : Nat) : IsCodeField ((Text.fields ':' code.trim)[i]?.getD []).trim := by
    intro x hx
    have hx := Text.mem_of_mem_trim hx
    cases hf : (Text.fields ':' code.trim)[i]? with
    | none =>
      rw [hf] at hx
      cases hx
    | some f =>
      rw [hf] at hx
      have hx := Text.mem_of_mem_fields (List.mem_of_getElem? hf) hx
      exact ⟨hchar x (Text.mem_of_mem_trim hx.1), hx.2⟩
  have hdash : IsCodeField ['-'] := by
    intro x hx
    rw [List.mem_singleton.1 hx]
    decide
  rw [overlay_eq_lay, read]
  split
  · exact hc.lay hdash hdash hdash
  · exact hc.lay (hfield 0) (hfield 1) (hfield 2)

theorem merge {c o : Composition} (hc : c.Canonical) (ho : o.Canonical) : (c.merge o).Canonical := by
  rw [Composition.merge, overlay_eq_lay, read_code ho.clean]
  exact hc.lay ho.foreground ho.background ho.flags

/-- The code of a canonical composition is a style code. -/
theorem isCode_code {c : Composition} (h : c.Canonical) : Token.isCode c.code = true := by
  have hall : ∀ x ∈ c.code, Token.isCodeChar x = true := by
    intro x hx
    rw [code_eq] at hx
    rcases List.mem_append.1 hx with hx | hx
    · exact (h.foreground x hx).1
    rcases List.mem_cons.1 hx with rfl | hx
    · decide
    rcases List.mem_append.1 hx with hx | hx
    · exact (h.background x hx).1
    rcases List.mem_cons.1 hx with rfl | hx
    · decide
    · exact (h.flags x hx).1
  have hne : c.code ≠ [] := by
    rw [code_eq]
    exact List.append_ne_nil_of_right_ne_nil _ (List.cons_ne_nil _ _)
  exact Token.isCode_iff.2 ⟨hne, hall⟩

/-- A canonical composition is known by its code. -/
theorem code_inj {c o : Composition} (hc : c.Canonical) (ho : o.Canonical) (h : c.code = o.code) : c = o := by
  rw [← read_code hc.clean, h, read_code ho.clean]

/-- Laying a canonical composition over nothing gives it back. -/
theorem empty_merge {c : Composition} (h : c.Canonical) : Composition.empty.merge c = c := by
  have hfield (s : Text) : Composition.layField [] s = s := by
    unfold Composition.layField
    split
    next hs => exact hs.symm
    · rfl
  have hflags : Composition.appendFlags [] c.flags = c.flags := by
    unfold Composition.appendFlags
    split
    next hs => exact hs.symm
    next hs => exact hs ▸ h.compact
    · exact h.compact
  rw [Composition.merge, overlay_eq_lay, read_code h.clean, Composition.lay]
  show (⟨Composition.layField [] c.foreground, Composition.layField [] c.background,
    Composition.appendFlags [] c.flags⟩ : Composition) = c
  rw [hfield, hfield, hflags]

end Canonical

/-! ## What is made of style codes -/

/-- A composition that style codes are laid over and other such compositions are merged into. -/
inductive Made : Composition → Prop
  | empty : Made Composition.empty
  | overlay {c : Composition} {code : Text} : Made c → Token.isCode code = true → Made (c.overlay code)
  | merge {c o : Composition} : Made c → Made o → Made (c.merge o)

/-- **What is made of style codes is canonical.** -/
theorem Made.canonical {c : Composition} (h : c.Made) : c.Canonical := by
  induction h with
  | empty => exact .empty
  | overlay _ hcode ih => exact ih.overlay hcode
  | merge _ _ ihc iho => exact ihc.merge iho

end Composition

/-! ## Stored style codes -/

/-- **A style code is stored as it is.** -/
theorem Registry.normalizeValue_of_isCode {code : Text} (h : Token.isCode code = true) :
    normalizeValue code = code := by
  have hafter : Text.after? Delimiters.canonical.directOpen code = none := by
    rw [Option.eq_none_iff_forall_ne_some]
    intro rest hrest
    have hbrace : '{' ∈ code := by
      rw [← Text.append_of_after? hrest]
      exact List.mem_append_left _ (by decide)
    rw [Token.isCode_of_brace hbrace] at h
    cases h
  have hunwrap : Delimiters.canonical.unwrapDirect code = code := by
    rw [Delimiters.unwrapDirect, if_neg (by decide), Token.trim_of_isCode h, hafter]
    rfl
  rw [normalizeValue, hunwrap, if_pos h]

/-- **A stored style code is read as one direct tag.** -/
theorem tagsOf_of_isCode {code : Text} (h : Token.isCode code = true) : tagsOf .canonical code = [.direct code] := by
  have hopen : Delimiters.canonical.hasOpening code = false := Delimiters.hasOpening_of_not_mem fun hbrace => by
    rw [Token.isCode_of_brace hbrace] at h
    cases h
  rw [tagsOf, hopen, if_neg Bool.false_ne_true, Token.trim_of_isCode h, if_pos h]

end TerminalMarkup
