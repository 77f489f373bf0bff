import TerminalMarkup.Proofs.Token.Scan

/-!
# Markup in the canonical delimiters

A name or a style code holds no brace, so a tag that is written in the canonical delimiters is read back, whatever
follows it (`Token.read?_wrapSemantic`, `Token.read?_wrapDirect`). A text without an opening brace has no tags
(`untagged_of_not_mem`), and splits off in front of a tag (`tokenize_append_of_read?`).
-/

namespace TerminalMarkup

/-! ## Closing delimiters -/

/-- A closing delimiter that ends in two braces is found behind a text without braces. -/
theorem Text.cut?_closing {a b : Char} (hab : a ≠ b) (r : Text) :
    ∀ {s : Text}, b ∉ s → cut? [a, b, b] (s ++ a :: b :: b :: r) = some (s, r)
  | [], _ => by simp [cut?, after?]
  | c :: s, hs => by
    have hs' : b ∉ s := fun h => hs (List.mem_cons_of_mem _ h)
    have hno : after? [a, b, b] (c :: (s ++ a :: b :: b :: r)) = none := by
      -- the character behind `c` is no brace
      cases s with
      | nil => simp [after?, hab.symm]
      | cons x s =>
        have hx : b ≠ x := fun h => hs' (h ▸ List.mem_cons_self)
        simp [after?, hx]
    rw [List.cons_append, cut?, hno]
    simp only [cut?_closing hab r hs', Option.map_some]

namespace Token

theorem not_mem_of_isName {name : Text} {c : Char} (h : isName name = true) (hc : isNameChar c = false) : c ∉ name :=
  fun hm => Bool.eq_false_iff.1 hc ((isName_iff.1 h).2 c hm)

theorem not_mem_of_isCode {code : Text} {c : Char} (h : isCode code = true) (hc : isCodeChar c = false) : c ∉ code :=
  fun hm => Bool.eq_false_iff.1 hc ((isCode_iff.1 h).2 c hm)

/-! ## One tag -/

theorem read?_wrapSemantic {name : Text} (h : isName name = true) (rest : Text) :
    read? .canonical (Delimiters.canonical.wrapSemantic name ++ rest) = some (.semantic name, rest) := by
  have hcut := Text.cut?_closing (a := '_') (b := '}') (by decide) rest (not_mem_of_isName h (by decide))
  have hp : readPayload? ['{', '{', '_'] ['_', '}', '}'] isName
      ('{' :: '{' :: '_' :: (name ++ '_' :: '}' :: '}' :: rest)) = some (name, rest) := by
    simp [readPayload?, Text.after?, hcut, h]
  have hd : Delimiters.canonical.directFirst = false := by decide
  rw [read?, hd]
  simp [readSemantic?, Delimiters.wrapSemantic, Delimiters.canonical, hp]

theorem read?_wrapDirect {code : Text} (h : isCode code = true) (rest : Text) :
    read? .canonical (Delimiters.canonical.wrapDirect code ++ rest) = some (.direct code, rest) := by
  have hcut := Text.cut?_closing (a := '|') (b := '}') (by decide) rest (not_mem_of_isCode h (by decide))
  have hp : readPayload? ['{', '{', '|'] ['|', '}', '}'] isCode
      ('{' :: '{' :: '|' :: (code ++ '|' :: '}' :: '}' :: rest)) = some (code, rest) := by
    simp [readPayload?, Text.after?, hcut, h]
  have hn : readPayload? ['{', '{', '_'] ['_', '}', '}'] isName
      ('{' :: '{' :: '|' :: (code ++ '|' :: '}' :: '}' :: rest)) = none := by
    simp [readPayload?, Text.after?]
  have hd : Delimiters.canonical.directFirst = false := by decide
  rw [read?, hd]
  simp [readSemantic?, readDirect?, Delimiters.wrapDirect, Delimiters.canonical, hp, hn]

/-- A tag starts with a brace. -/
theorem read?_eq_none_of_ne {c : Char} (hc : c ≠ '{') (s : Text) : read? .canonical (c :: s) = none := by
  rw [Option.eq_none_iff_forall_ne_some]
  rintro ⟨t, rest⟩ h
  obtain ⟨o, ho, r, hr⟩ := exists_opening_of_read? h
  have hb : o = ['{', '{', '_'] ∨ o = ['{', '{', '|'] := by
    simpa [Delimiters.openings, Delimiters.canonical] using ho
  rcases hb with rfl | rfl
  · simp [Text.after?, hc.symm] at hr
  · simp [Text.after?, hc.symm] at hr

/-- Literal text without an opening brace stands before the first tag. -/
theorem firstTag?_append_of_not_mem {pre : Text} (h : '{' ∉ pre) (s : Text) :
    firstTag? .canonical (pre ++ s)
      = (firstTag? .canonical s).map fun (before, t, rest) => (pre ++ before, t, rest) := by
  induction pre with
  | nil => simp
  | cons c pre ih =>
    have hc : c ≠ '{' := fun e => h (e ▸ List.mem_cons_self)
    rw [List.cons_append, firstTag?_cons (read?_eq_none_of_ne hc _), ih fun hm => h (List.mem_cons_of_mem _ hm),
      Option.map_map]
    rfl

end Token

/-! ## All tags -/

/-- An opening delimiter has a brace. -/
theorem Delimiters.hasOpening_of_not_mem {s : Text} (h : '{' ∉ s) : canonical.hasOpening s = false := by
  have hbrace : ∀ o ∈ canonical.openings, '{' ∈ o := by decide
  rw [Bool.eq_false_iff]
  intro hopen
  obtain ⟨o, ho, hin⟩ := List.any_eq_true.1 hopen
  obtain ⟨⟨before, rest⟩, hcut⟩ := Option.isSome_iff_exists.1 hin
  refine h ?_
  rw [← Text.append_of_cut? hcut]
  exact List.mem_append_left rest (List.mem_append_right before (hbrace o ho))

theorem untagged_of_not_mem {s : Text} (h : '{' ∉ s) : Untagged .canonical s :=
  untagged_of_hasOpening (Delimiters.hasOpening_of_not_mem h)

theorem tokenize_append_of_read? {p s rest : Text} {t : Token} (hp : '{' ∉ p)
    (h : Token.read? .canonical s = some (t, rest)) :
    tokenize .canonical (p ++ s) = Token.textUnlessEmpty p ++ t :: tokenize .canonical rest := by
  refine tokenize_of_firstTag? ?_
  rw [Token.firstTag?_append_of_not_mem hp, Token.firstTag?_of_read? h]
  simp only [Option.map_some, List.append_nil]

theorem tokenize_wrapSemantic {name : Text} (h : Token.isName name = true) :
    tokenize .canonical (Delimiters.canonical.wrapSemantic name) = [.semantic name] := by
  have hr := Token.read?_wrapSemantic h []
  rw [List.append_nil] at hr
  have ht := tokenize_append_of_read? (p := []) List.not_mem_nil hr
  rwa [tokenize_nil] at ht

end TerminalMarkup
