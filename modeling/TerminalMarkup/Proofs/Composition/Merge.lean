import TerminalMarkup.Proofs.Composition.Letters
import TerminalMarkup.Proofs.Text.Ends
import TerminalMarkup.Token

/-!
# Laying compositions over each other

A style code says as much as a composition does (`Composition.read`), and laying the code over another composition is
laying that one over it (`Composition.lay`, `overlay_eq_lay`). On tidy compositions this is associative (`lay_assoc`).

A composition that is made of style codes is read back from its own code (`read_code`). Therefore merging it is laying
over, one after the other, the codes it is made of (`merge_ofCodes`).
-/

namespace TerminalMarkup

namespace Text

/-! ## Fields -/

theorem fields_of_not_mem {sep : Char} {s : Text} (h : sep ∉ s) : fields sep s = [s] := by
  induction s with
  | nil => rfl
  | cons c s ih =>
    have hc : c ≠ sep := fun e => h (e ▸ List.mem_cons_self)
    rw [fields, if_neg hc, ih fun hm => h (List.mem_cons_of_mem _ hm)]

theorem fields_append {sep : Char} {s : Text} (h : sep ∉ s) (t : Text) :
    fields sep (s ++ sep :: t) = s :: fields sep t := by
  induction s with
  | nil => rw [List.nil_append, fields, if_pos rfl]
  | cons c s ih =>
    have hc : c ≠ sep := fun e => h (e ▸ List.mem_cons_self)
    rw [List.cons_append, fields, if_neg hc, ih fun hm => h (List.mem_cons_of_mem _ hm)]

/-- The fields are made of the characters of the text, without the separator. -/
theorem mem_of_mem_fields {sep x : Char} {s f : Text} (hf : f ∈ fields sep s) (hx : x ∈ f) : x ∈ s ∧ x ≠ sep := by
  induction s generalizing f with
  | nil =>
    rw [fields, List.mem_singleton] at hf
    rw [hf] at hx
    cases hx
  | cons c s ih =>
    rw [fields] at hf
    split at hf
    · rcases List.mem_cons.1 hf with rfl | hf
      · cases hx
      · exact (ih hf hx).imp_left (List.mem_cons_of_mem _)
    · next hc =>
      split at hf
      · rw [List.mem_singleton.1 hf, List.mem_singleton] at hx
        rw [hx]
        exact ⟨List.mem_cons_self, hc⟩
      · next g fs hfs =>
        rcases List.mem_cons.1 hf with rfl | hf
        · rcases List.mem_cons.1 hx with rfl | hx
          · exact ⟨List.mem_cons_self, hc⟩
          · exact (ih (by rw [hfs]; exact List.mem_cons_self) hx).imp_left (List.mem_cons_of_mem _)
        · exact (ih (by rw [hfs]; exact List.mem_cons_of_mem _ hf) hx).imp_left (List.mem_cons_of_mem _)

end Text

/-- The characters of style codes are visible characters of ASCII. -/
theorem Token.bounds_of_isCodeChar {c : Char} (h : isCodeChar c = true) : 32 < c.toNat ∧ c.toNat < 128 := by
  simp only [isCodeChar, Bool.or_eq_true, beq_iff_eq] at h
  rcases h with ((((h | rfl) | rfl) | rfl) | rfl) | rfl
  · unfold Char.isAlphanum Char.isAlpha Char.isUpper Char.isLower Char.isDigit at h
    simp only [Bool.or_eq_true, Bool.and_eq_true, decide_eq_true_eq, ge_iff_le] at h
    change ((65 ≤ c.toNat ∧ c.toNat ≤ 90) ∨ (97 ≤ c.toNat ∧ c.toNat ≤ 122)) ∨ (48 ≤ c.toNat ∧ c.toNat ≤ 57) at h
    omega
  all_goals decide

theorem Token.isBlank_of_isCodeChar {c : Char} (h : isCodeChar c = true) : isBlank c = false := by
  obtain ⟨hlo, hhi⟩ := bounds_of_isCodeChar h
  rw [Bool.eq_false_iff]
  intro hb
  obtain ⟨r, hr, h₁, h₂⟩ := CharRanges.contains_iff.1 hb
  simp only [blankRanges, List.mem_cons, List.not_mem_nil, or_false] at hr
  rcases hr with rfl | rfl | rfl | rfl | rfl | rfl | rfl | rfl | rfl | rfl <;> simp only at h₁ h₂ <;> omega

theorem Token.isCodeChar_of_isNameChar {c : Char} (h : isNameChar c = true) : isCodeChar c = true := by
  simp only [isNameChar, isCodeChar, Bool.or_eq_true] at h ⊢
  tauto

/-- A style code has no blanks around it. -/
theorem Token.trim_of_isCode {code : Text} (h : isCode code = true) : code.trim = code :=
  Text.trim_of_not_blank fun c hc => isBlank_of_isCodeChar ((isCode_iff.1 h).2 c hc)

namespace Composition

/-! ## What a code says -/

/-- What a style code says, as a composition. -/
def read (code : Text) : Composition :=
  if code.trim = ['-'] then ⟨['-'], ['-'], ['-']⟩
  else
    let field (i : Nat) := ((Text.fields ':' code.trim)[i]?.getD []).trim
    ⟨field 0, field 1, field 2⟩

/-- A field takes the place of an earlier one unless it is empty. -/
def layField (earlier later : Text) : Text := if later = [] then earlier else later

theorem layField_assoc (x y z : Text) : layField x (layField y z) = layField (layField x y) z := by
  unfold layField
  by_cases hz : z = []
  · rw [if_pos hz, if_pos hz]
  · rw [if_neg hz, if_neg hz, if_neg hz]

/-- Lays a composition over another, field by field. -/
def lay (c o : Composition) : Composition :=
  ⟨layField c.foreground o.foreground, layField c.background o.background, appendFlags c.flags o.flags⟩

/-- Laying a code over a composition is laying over it what the code says. -/
theorem overlay_eq_lay (c : Composition) (code : Text) : c.overlay code = c.lay (read code) := by
  unfold overlay read
  dsimp only
  split
  · rfl
  · rfl

/-- The flags of a composition are tidy. -/
def Tidy (c : Composition) : Prop := TidyFlags c.flags

instance (c : Composition) : Decidable c.Tidy := inferInstanceAs (Decidable (TidyFlags c.flags))

theorem tidy_empty : empty.Tidy := .inl List.not_mem_nil

theorem Tidy.lay {c o : Composition} (hc : c.Tidy) (ho : o.Tidy) : (c.lay o).Tidy := TidyFlags.appendFlags hc ho

/-- **Laying over is associative.** -/
theorem lay_assoc {a b c : Composition} (ha : a.Tidy) (hb : b.Tidy) (hc : c.Tidy) :
    a.lay (b.lay c) = (a.lay b).lay c := by
  simp only [Composition.lay, layField_assoc, appendFlags_assoc ha hb hc]

theorem lay_empty (c : Composition) : c.lay empty = c := rfl

/-- Codes are laid over a composition one after the other or all at once. -/
theorem lay_foldl_overlay {c a : Composition} (hc : c.Tidy) (ha : a.Tidy) {codes : List Text}
    (h : ∀ code ∈ codes, (read code).Tidy) : c.lay (codes.foldl overlay a) = codes.foldl overlay (c.lay a) := by
  induction codes generalizing a with
  | nil => rfl
  | cons code codes ih =>
    have hcode := h code List.mem_cons_self
    rw [List.foldl_cons, List.foldl_cons, overlay_eq_lay, overlay_eq_lay, ← lay_assoc hc ha hcode]
    exact ih (ha.lay hcode) fun code hm => h code (List.mem_cons_of_mem _ hm)

theorem tidy_foldl_overlay {c : Composition} (hc : c.Tidy) {codes : List Text}
    (h : ∀ code ∈ codes, (read code).Tidy) : (codes.foldl overlay c).Tidy := by
  induction codes generalizing c with
  | nil => exact hc
  | cons code codes ih =>
    rw [List.foldl_cons, overlay_eq_lay]
    exact ih (hc.lay (h code List.mem_cons_self)) fun code hm => h code (List.mem_cons_of_mem _ hm)

/-! ## Reading back -/

/-- A text that may stand between the colons of a style code. -/
def IsField (s : Text) : Prop := ∀ x ∈ s, x ≠ ':' ∧ isBlank x = false

/-- A composition whose fields may stand between the colons of a style code. -/
structure Clean (c : Composition) : Prop where
  foreground : IsField c.foreground
  background : IsField c.background
  flags : IsField c.flags

theorem isField_nil : IsField [] := fun _ h => absurd h List.not_mem_nil

theorem clean_empty : empty.Clean := ⟨isField_nil, isField_nil, isField_nil⟩

theorem IsField.not_mem {s : Text} (h : IsField s) : ':' ∉ s := fun hm => (h _ hm).1 rfl

theorem IsField.trim {s : Text} (h : IsField s) : s.trim = s := Text.trim_of_not_blank fun c hc => (h c hc).2

theorem IsField.layField {s t : Text} (hs : IsField s) (ht : IsField t) : IsField (layField s t) := by
  unfold Composition.layField
  split
  · exact hs
  · exact ht

theorem IsField.appendFlags {s t : Text} (hs : IsField s) (ht : IsField t) : IsField (appendFlags s t) := by
  intro x hx
  rcases mem_of_mem_appendFlags hx with hx | hx
  · exact hs x hx
  · exact ht x hx

theorem Clean.lay {c o : Composition} (hc : c.Clean) (ho : o.Clean) : (c.lay o).Clean :=
  ⟨hc.foreground.layField ho.foreground, hc.background.layField ho.background, hc.flags.appendFlags ho.flags⟩

theorem code_eq (c : Composition) : c.code = c.foreground ++ ':' :: (c.background ++ ':' :: c.flags) := by
  simp [code]

theorem Clean.trim_code {c : Composition} (h : c.Clean) : c.code.trim = c.code := by
  refine Text.trim_of_not_blank fun x hx => ?_
  rw [code_eq] at hx
  rcases List.mem_append.1 hx with hx | hx
  · exact (h.foreground x hx).2
  rcases List.mem_cons.1 hx with rfl | hx
  · decide
  rcases List.mem_append.1 hx with hx | hx
  · exact (h.background x hx).2
  rcases List.mem_cons.1 hx with rfl | hx
  · decide
  · exact (h.flags x hx).2

/-- The code of a composition is never the one that resets everything. -/
theorem code_ne_dash (c : Composition) : c.code ≠ ['-'] := by
  intro he
  have hm : ':' ∈ c.code := by
    rw [code_eq]
    exact List.mem_append_right _ List.mem_cons_self
  rw [he] at hm
  exact absurd hm (by decide)

theorem Clean.fields_code {c : Composition} (h : c.Clean) :
    Text.fields ':' c.code = [c.foreground, c.background, c.flags] := by
  rw [code_eq, Text.fields_append h.foreground.not_mem, Text.fields_append h.background.not_mem,
    Text.fields_of_not_mem h.flags.not_mem]

/-- **A composition is read back from its code.** -/
theorem read_code {c : Composition} (h : c.Clean) : read c.code = c := by
  rw [read, h.trim_code, if_neg c.code_ne_dash, h.fields_code]
  simp only [List.getElem?_cons_zero, List.getElem?_cons_succ, Option.getD_some, h.foreground.trim, h.background.trim,
    h.flags.trim]

/-- A style code says what stands between its colons. -/
theorem clean_read {code : Text} (h : Token.isCode code = true) : (read code).Clean := by
  have hchar : ∀ x ∈ code, isBlank x = false := fun x hx =>
    Token.isBlank_of_isCodeChar ((Token.isCode_iff.1 h).2 x hx)
  have hfield (i : Nat) : IsField ((Text.fields ':' code.trim)[i]?.getD []).trim := by
    intro x hx
    cases hf : (Text.fields ':' code.trim)[i]? with
    | none =>
      rw [hf] at hx
      exact absurd (Text.mem_of_mem_trim hx) List.not_mem_nil
    | some f =>
      rw [hf] at hx
      have hx := Text.mem_of_mem_fields (List.mem_of_getElem? hf) (Text.mem_of_mem_trim hx)
      exact ⟨hx.2, hchar x (Text.mem_of_mem_trim hx.1)⟩
  have hdash : IsField ['-'] := by
    intro x hx
    rw [List.mem_singleton.1 hx]
    decide
  unfold read
  split
  · exact ⟨hdash, hdash, hdash⟩
  · exact ⟨hfield 0, hfield 1, hfield 2⟩

theorem clean_foldl_overlay {c : Composition} (hc : c.Clean) {codes : List Text}
    (h : ∀ code ∈ codes, Token.isCode code = true) : (codes.foldl overlay c).Clean := by
  induction codes generalizing c with
  | nil => exact hc
  | cons code codes ih =>
    rw [List.foldl_cons, overlay_eq_lay]
    exact ih (hc.lay (clean_read (h code List.mem_cons_self))) fun code hm => h code (List.mem_cons_of_mem _ hm)

/-- **Merging a composition of codes is laying over the codes.** -/
theorem merge_ofCodes {c : Composition} (hc : c.Tidy) {codes : List Text}
    (hcode : ∀ code ∈ codes, Token.isCode code = true) (htidy : ∀ code ∈ codes, (read code).Tidy) :
    c.merge (ofCodes codes) = codes.foldl overlay c := by
  have hclean : (ofCodes codes).Clean := clean_foldl_overlay clean_empty hcode
  calc c.merge (ofCodes codes) = c.lay (read (ofCodes codes).code) := overlay_eq_lay c _
    _ = c.lay (codes.foldl overlay empty) := by rw [read_code hclean, ofCodes]
    _ = codes.foldl overlay (c.lay empty) := lay_foldl_overlay hc tidy_empty htidy
    _ = codes.foldl overlay c := by rw [lay_empty]

end Composition
end TerminalMarkup
