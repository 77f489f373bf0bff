import TerminalMarkup.Proofs.Token.Canonical

/-!
# Replacing tags

Where a tag of the canonical delimiters stands in a text, other tags can be put in its place, and the rest of the text
is read as before (`tokenize_map`).

A tag starts with two braces, and neither a closing delimiter nor a payload holds an opening brace. So what is read in
front of two braces does not depend on what they begin (`Token.firstTag?_append`).
-/

namespace TerminalMarkup

namespace Text

/-! ## Searches in front of a character -/

/-- A start without `b` lies in front of a `b`. -/
theorem after?_append_cons {b : Char} : ∀ {p : Text}, b ∉ p → ∀ s u : Text,
    after? p (s ++ b :: u) = (after? p s).map (· ++ b :: u)
  | [], _, _, _ => rfl
  | a :: p, hb, [], u => by
    have hab : a ≠ b := fun e => hb (e ▸ List.mem_cons_self)
    simp [after?, hab]
  | a :: p, hb, c :: s, u => by
    have hp : b ∉ p := fun h => hb (List.mem_cons_of_mem _ h)
    simp only [List.cons_append, after?]
    split
    · exact after?_append_cons hp s u
    · rfl

/-- A pattern without `b` occurs in front of a `b` or from there on. -/
theorem cut?_append_cons {b : Char} {p : Text} (hb : b ∉ p) (s u : Text) :
    cut? p (s ++ b :: u) = ((cut? p s).map fun (x, r) => (x, r ++ b :: u)).or
      ((cut? p (b :: u)).map fun (x, r) => (s ++ x, r)) := by
  induction s with
  | nil =>
    cases p with
    | nil => rfl
    | cons a p => simp [cut?, after?]
  | cons c s ih =>
    rw [List.cons_append, cut?, ← List.cons_append, after?_append_cons hb, cut?]
    cases after? p (c :: s) with
    | some r => rfl
    | none =>
      simp only [Option.map_none, ih, Option.map_or, Option.map_map]
      rfl

/-- A pattern without `b` is found behind a `b` at the start, if at all. -/
theorem mem_of_cut?_cons {b : Char} {p u x r : Text} (hp : p ≠ []) (hb : b ∉ p) (h : cut? p (b :: u) = some (x, r)) :
    b ∈ x := by
  have happend := append_of_cut? h
  cases x with
  | cons c x =>
    rw [List.cons_append, List.cons_append, List.cons.injEq] at happend
    exact happend.1 ▸ List.mem_cons_self
  | nil =>
    cases p with
    | nil => exact absurd rfl hp
    | cons a p =>
      rw [List.nil_append, List.cons_append, List.cons.injEq] at happend
      exact absurd (happend.1 ▸ List.mem_cons_self) hb

end Text

namespace Token

/-! ## One tag in front of two braces -/

/-- An opening delimiter does not reach into the braces of another one. -/
theorem after?_opening {x : Char} (hx : x ≠ '{') {p : Text} (hp : p ≠ []) (u : Text) :
    Text.after? ['{', '{', x] (p ++ '{' :: '{' :: u)
      = (Text.after? ['{', '{', x] p).map (· ++ '{' :: '{' :: u) := by
  match p with
  | [] => exact absurd rfl hp
  | [a] => simp [Text.after?, hx]
  | [a, b] => simp [Text.after?, hx]
  | a :: b :: c :: p =>
    simp only [List.cons_append, Text.after?]
    split
    · split
      · split
        · rfl
        · rfl
      · rfl
    · rfl

theorem readPayload?_append (x : Char) (closing : Text) (hx : x ≠ '{') (hc : '{' ∉ closing) {valid : Text → Bool}
    (hv : ∀ s, '{' ∈ s → valid s = false) {p : Text} (hp : p ≠ []) (u : Text) :
    readPayload? ['{', '{', x] closing valid (p ++ '{' :: '{' :: u)
      = (readPayload? ['{', '{', x] closing valid p).map fun (s, r) => (s, r ++ '{' :: '{' :: u) := by
  unfold readPayload?
  by_cases hne : ['{', '{', x] = [] ∨ closing = []
  · rw [if_pos hne, if_pos hne]
    rfl
  rw [if_neg hne, if_neg hne, after?_opening hx hp]
  cases Text.after? ['{', '{', x] p with
  | none => rfl
  | some q =>
    simp only [Option.map_some, Option.bind_some]
    rw [Text.cut?_append_cons hc]
    cases Text.cut? closing q with
    | some found =>
      obtain ⟨s, r⟩ := found
      simp only [Option.map_some, Option.some_or]
      split
      · rfl
      · rfl
    | none =>
      -- a payload that reaches the braces holds one
      simp only [Option.map_none, Option.none_or]
      cases hcut : Text.cut? closing ('{' :: '{' :: u) with
      | none => rfl
      | some found =>
        obtain ⟨s, r⟩ := found
        have hs : '{' ∈ s := Text.mem_of_cut?_cons (not_or.1 hne).2 hc hcut
        simp [hv (q ++ s) (List.mem_append_right q hs)]

theorem isName_of_brace {s : Text} (h : '{' ∈ s) : isName s = false :=
  Bool.eq_false_iff.2 fun hn => not_mem_of_isName hn (by decide) h

theorem isCode_of_brace {s : Text} (h : '{' ∈ s) : isCode s = false :=
  Bool.eq_false_iff.2 fun hc => not_mem_of_isCode hc (by decide) h

/-- A tag in front of two braces is read as it is without them. -/
theorem read?_append {p : Text} (hp : p ≠ []) (u : Text) :
    read? .canonical (p ++ '{' :: '{' :: u) = (read? .canonical p).map fun (t, r) => (t, r ++ '{' :: '{' :: u) := by
  have hs : readSemantic? .canonical (p ++ '{' :: '{' :: u)
      = (readSemantic? .canonical p).map fun (t, r) => (t, r ++ '{' :: '{' :: u) := by
    have hread := readPayload?_append '_' ['_', '}', '}'] (by decide) (by decide)
      (fun s => isName_of_brace) hp u
    simp only [readSemantic?, Delimiters.canonical, hread, Option.map_map]
    rfl
  have hd : readDirect? .canonical (p ++ '{' :: '{' :: u)
      = (readDirect? .canonical p).map fun (t, r) => (t, r ++ '{' :: '{' :: u) := by
    have hread := readPayload?_append '|' ['|', '}', '}'] (by decide) (by decide)
      (fun s => isCode_of_brace) hp u
    simp only [readDirect?, Delimiters.canonical, hread, Option.map_map]
    rfl
  have hfirst : Delimiters.canonical.directFirst = false := by decide
  simp only [read?, hfirst, Bool.false_eq_true, if_false, hs, hd, Option.map_or]

/-! ## The first tag -/

/-- The first tag of a text with two braces in it stands in front of them, or begins there or later. -/
theorem firstTag?_append (p u : Text) :
    firstTag? .canonical (p ++ '{' :: '{' :: u)
      = ((firstTag? .canonical p).map fun (before, t, rest) => (before, t, rest ++ '{' :: '{' :: u)).or
        ((firstTag? .canonical ('{' :: '{' :: u)).map fun (before, t, rest) => (p ++ before, t, rest)) := by
  induction p with
  | nil => simp
  | cons c p ih =>
    have hread := read?_append (p := c :: p) (List.cons_ne_nil _ _) u
    cases hr : read? .canonical (c :: p) with
    | some found =>
      obtain ⟨t, rest⟩ := found
      rw [hr] at hread
      rw [firstTag?_of_read? hread, firstTag?_of_read? hr]
      rfl
    | none =>
      rw [hr, List.cons_append] at hread
      rw [firstTag?_cons hr, List.cons_append, firstTag?_cons hread, ih]
      simp only [Option.map_or, Option.map_map]
      rfl

/-- The payload of a tag is one that the tag may hold. -/
def isValid : Token → Bool
  | text _ => true
  | semantic name => isName name
  | direct code => isCode code

theorem isValid_of_firstTag? {d : Delimiters} {s before rest : Text} {t : Token}
    (h : firstTag? d s = some (before, t, rest)) : t.isValid = true := by
  obtain ⟨s', hr⟩ := exists_read?_of_firstTag? h
  rcases of_read? hr with ⟨name, rfl, hp⟩ | ⟨code, rfl, hp⟩
  · exact (of_readPayload? hp).2.2.1
  · exact (of_readPayload? hp).2.2.1

theorem isValid_of_mem_tokenize {d : Delimiters} {s : Text} {t : Token} (h : t ∈ tokenize d s) : t.isValid = true := by
  have valid_text {u : Text} (h : t ∈ textUnlessEmpty u) : t.isValid = true := by
    have htag := isTag_of_mem_textUnlessEmpty h
    cases t with
    | text s => rfl
    | semantic name => cases htag
    | direct code => cases htag
  fun_induction tokenize d s with
  | case1 s hf => exact valid_text h
  | case2 s before t' rest hf ih =>
    rcases List.mem_append.1 h with h | h
    · exact valid_text h
    rcases List.mem_cons.1 h with rfl | h
    · exact isValid_of_firstTag? hf
    · exact ih h

/-- The tags of a style value have payloads that they may hold. -/
theorem isValid_of_mem_tagsOf {d : Delimiters} {value : Text} {t : Token} (h : t ∈ tagsOf d value) :
    t.isValid = true := by
  unfold tagsOf at h
  split at h
  · exact isValid_of_mem_tokenize (List.mem_filter.1 h).1
  · split at h
    · next hc =>
      cases List.mem_singleton.1 h
      exact hc
    · cases h

/-- A tag is read back, whatever follows it. -/
theorem read?_source {t : Token} (ht : t.isTag = true) (hv : t.isValid = true) (rest : Text) :
    read? .canonical (t.source .canonical ++ rest) = some (t, rest) := by
  cases t with
  | text s => cases ht
  | semantic name => exact read?_wrapSemantic hv rest
  | direct code => exact read?_wrapDirect hv rest

theorem exists_braces_of_isTag {t : Token} (h : t.isTag = true) (rest : Text) :
    ∃ u, t.source .canonical ++ rest = '{' :: '{' :: u := by
  cases t with
  | text s => cases h
  | semantic name => exact ⟨_, rfl⟩
  | direct code => exact ⟨_, rfl⟩

/-- There is no tag before the first tag. -/
theorem firstTag?_before {s before rest : Text} {t : Token} (h : firstTag? .canonical s = some (before, t, rest)) :
    firstTag? .canonical before = none := by
  have hs := (append_of_firstTag? h).1
  obtain ⟨u, hu⟩ := exists_braces_of_isTag (isTag_of_firstTag? h).1 rest
  rw [List.append_assoc, hu] at hs
  rw [← hs, firstTag?_append] at h
  cases hf : firstTag? .canonical before with
  | none => rfl
  | some found =>
    obtain ⟨before', t', rest'⟩ := found
    rw [hf] at h
    obtain rfl : before' = before := congrArg Prod.fst (Option.some.inj h)
    have hlen := congrArg List.length (append_of_firstTag? hf).1
    have hpos := List.length_pos_iff.2 (isTag_of_firstTag? hf).2
    simp only [List.length_append] at hlen
    omega

/-- Another tag in the place of the first one is the first tag too, whatever follows it. -/
theorem firstTag?_replace {s before rest : Text} {t : Token} (h : firstTag? .canonical s = some (before, t, rest))
    {t' : Token} (ht : t'.isTag = true) (hv : t'.isValid = true) (rest' : Text) :
    firstTag? .canonical (before ++ t'.source .canonical ++ rest') = some (before, t', rest') := by
  obtain ⟨u, hu⟩ := exists_braces_of_isTag ht rest'
  have hread := read?_source ht hv rest'
  rw [hu] at hread
  rw [List.append_assoc, hu, firstTag?_append, firstTag?_before h, firstTag?_of_read? hread]
  simp

end Token

/-! ## All tokens -/

/-- **Tags that are put in the place of tags are read in their place.** -/
theorem tokenize_map {f : Token → Token} (htext : ∀ s, f (.text s) = .text s)
    (htag : ∀ t : Token, t.isTag = true → t.isValid = true → (f t).isTag = true ∧ (f t).isValid = true) (s : Text) :
    tokenize .canonical (writeTokens .canonical ((tokenize .canonical s).map f)) = (tokenize .canonical s).map f := by
  have hplain (s : Text) : (Token.textUnlessEmpty s).map f = Token.textUnlessEmpty s := by
    unfold Token.textUnlessEmpty
    split
    · rfl
    · rw [List.map_singleton, htext]
  fun_induction tokenize .canonical s with
  | case1 s h => rw [hplain, writeTokens_textUnlessEmpty, tokenize_of_firstTag?_none h]
  | case2 s before t rest h ih =>
    obtain ⟨ht, hv⟩ := htag t (Token.isTag_of_firstTag? h).1 (Token.isValid_of_firstTag? h)
    have hwrite : writeTokens .canonical (Token.textUnlessEmpty before ++ f t :: (tokenize .canonical rest).map f)
        = before ++ (f t).source .canonical ++ writeTokens .canonical ((tokenize .canonical rest).map f) := by
      have hb := writeTokens_textUnlessEmpty .canonical before
      simp only [writeTokens] at hb ⊢
      rw [List.flatMap_append, List.flatMap_cons, hb, List.append_assoc]
    rw [List.map_append, List.map_cons, hplain, hwrite, tokenize_of_firstTag? (Token.firstTag?_replace h ht hv _), ih]

end TerminalMarkup
