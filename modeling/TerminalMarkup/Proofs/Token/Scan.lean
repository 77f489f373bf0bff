import Mathlib.Data.List.Basic
import TerminalMarkup.Token

/-!
# Reading a text character by character

The tokenizer jumps from one opening delimiter to the next. That is the same as looking at every position in turn:

* where a tag can be read it is the first one (`Token.firstTag?_of_read?`), and elsewhere the first character is literal
  (`Token.firstTag?_cons`);
* the tokens before and behind the first tag are those of the parts (`tokenize_of_firstTag?`).

A tag is never empty (`Token.isTag_of_firstTag?`). Therefore removing the tags of a text changes it unless it has none
(`stripTags_eq_self_iff`).
-/

namespace TerminalMarkup

namespace Text

/-! ## Searches -/

theorem indexOf?_of_after? {p s r : Text} (h : after? p s = some r) : indexOf? p s = some 0 := by
  cases s with
  | nil => simp [indexOf?, cut?, h]
  | cons c s => simp [indexOf?, cut?, h]

theorem indexOf?_cons {p : Text} {c : Char} {s : Text} (h : after? p (c :: s) = none) :
    indexOf? p (c :: s) = (indexOf? p s).map (· + 1) := by
  simp only [indexOf?, cut?, h, Option.map_map]
  rfl

theorem after?_nil_of_ne_nil {p : Text} (h : p ≠ []) : after? p [] = none := by
  cases p with
  | nil => exact absurd rfl h
  | cons a p => rfl

end Text

/-- The least of the numbers, each one greater. -/
theorem min?_map_succ (ns : List Nat) : (ns.map (· + 1)).min? = ns.min?.map (· + 1) := by
  cases ns with
  | nil => rfl
  | cons n ns =>
    simp only [List.map_cons, List.min?_cons', Option.map_some]
    congr 1
    induction ns generalizing n with
    | nil => rfl
    | cons m ns ih => rw [List.map_cons, List.foldl_cons, List.foldl_cons, Nat.add_min_add_right, ih]

/-! ## One position -/

namespace Delimiters

theorem openingOffset?_of_after? {d : Delimiters} {o s r : Text} (ho : o ∈ d.openings)
    (h : Text.after? o s = some r) : d.openingOffset? s = some 0 := by
  have hm : 0 ∈ d.openings.filterMap (Text.indexOf? · s) :=
    List.mem_filterMap.2 ⟨o, ho, Text.indexOf?_of_after? h⟩
  rw [openingOffset?, List.min?_eq_some_iff]
  exact ⟨hm, fun n _ => Nat.zero_le n⟩

theorem openingOffset?_cons {d : Delimiters} {c : Char} {s : Text}
    (h : ∀ o ∈ d.openings, Text.after? o (c :: s) = none) :
    d.openingOffset? (c :: s) = (d.openingOffset? s).map (· + 1) := by
  have he : d.openings.filterMap (Text.indexOf? · (c :: s))
      = (d.openings.filterMap (Text.indexOf? · s)).map (· + 1) := by
    rw [List.map_filterMap]
    exact List.filterMap_congr fun o ho => Text.indexOf?_cons (h o ho)
  rw [openingOffset?, he, min?_map_succ, openingOffset?]

theorem openingOffset?_nil (d : Delimiters) : d.openingOffset? [] = none := by
  have he : d.openings.filterMap (Text.indexOf? · []) = [] := by
    rw [List.filterMap_eq_nil_iff]
    intro o ho
    have hne : o ≠ [] := by simpa using (List.mem_filter.1 ho).2
    simp [Text.indexOf?, Text.cut?, Text.after?_nil_of_ne_nil hne]
  rw [openingOffset?, he]
  rfl

end Delimiters

namespace Token

variable {d : Delimiters}

/-- What is read at the start of a text is a tag of one of the two families. -/
theorem of_read? {s rest : Text} {t : Token} (h : read? d s = some (t, rest)) :
    (∃ name, t = .semantic name ∧ readPayload? d.semanticOpen d.semanticClose isName s = some (name, rest)) ∨
      ∃ code, t = .direct code ∧ readPayload? d.directOpen d.directClose isCode s = some (code, rest) := by
  have h' : readSemantic? d s = some (t, rest) ∨ readDirect? d s = some (t, rest) := by
    rw [read?] at h
    split at h
    · rcases Option.or_eq_some_iff.1 h with h | ⟨-, h⟩
      · exact .inr h
      · exact .inl h
    · rcases Option.or_eq_some_iff.1 h with h | ⟨-, h⟩
      · exact .inl h
      · exact .inr h
  rcases h' with h | h
  · obtain ⟨⟨name, r⟩, hp, he⟩ := Option.map_eq_some_iff.1 h
    cases he
    exact .inl ⟨name, rfl, hp⟩
  · obtain ⟨⟨code, r⟩, hp, he⟩ := Option.map_eq_some_iff.1 h
    cases he
    exact .inr ⟨code, rfl, hp⟩

/-- A tag starts with an opening delimiter. -/
theorem exists_opening_of_read? {s rest : Text} {t : Token} (h : read? d s = some (t, rest)) :
    ∃ o ∈ d.openings, ∃ r, Text.after? o s = some r := by
  rcases of_read? h with ⟨name, -, hp⟩ | ⟨code, -, hp⟩
  · obtain ⟨ho, -, -, -, rfl⟩ := of_readPayload? hp
    exact ⟨d.semanticOpen, by simp [Delimiters.openings, ho], _, Text.after?_append _ _⟩
  · obtain ⟨ho, -, -, -, rfl⟩ := of_readPayload? hp
    exact ⟨d.directOpen, by simp [Delimiters.openings, ho], _, Text.after?_append _ _⟩

theorem isTag_of_read? {s rest : Text} {t : Token} (h : read? d s = some (t, rest)) : t.isTag = true := by
  rcases of_read? h with ⟨name, rfl, -⟩ | ⟨code, rfl, -⟩
  · rfl
  · rfl

/-- A tag at the start of a text is its first tag. -/
theorem firstTag?_of_read? {s rest : Text} {t : Token} (h : read? d s = some (t, rest)) :
    firstTag? d s = some ([], t, rest) := by
  obtain ⟨o, ho, r, hr⟩ := exists_opening_of_read? h
  rw [firstTag?, Delimiters.openingOffset?_of_after? ho hr]
  simp only [List.drop_zero, h, List.take_zero]

@[simp] theorem firstTag?_nil (d : Delimiters) : firstTag? d [] = none := by
  rw [firstTag?, Delimiters.openingOffset?_nil]

/-- Where no tag can be read the first character is literal. -/
theorem firstTag?_cons {c : Char} {s : Text} (h : read? d (c :: s) = none) :
    firstTag? d (c :: s) = (firstTag? d s).map fun (before, t, rest) => (c :: before, t, rest) := by
  by_cases ho : ∃ o ∈ d.openings, ∃ r, Text.after? o (c :: s) = some r
  · obtain ⟨o, ho, r, hr⟩ := ho
    rw [firstTag?, Delimiters.openingOffset?_of_after? ho hr]
    simp [h]
  · have hno : ∀ o ∈ d.openings, Text.after? o (c :: s) = none := by
      intro o hm
      rw [Option.eq_none_iff_forall_ne_some]
      intro r hr
      exact ho ⟨o, hm, r, hr⟩
    -- both searches go on at the same offset, counted from one character further
    rw [firstTag?, firstTag?, Delimiters.openingOffset?_cons hno]
    cases d.openingOffset? s with
    | none => rfl
    | some n =>
      simp only [Option.map_some, List.drop_succ_cons, List.take_succ_cons, List.length_cons, Nat.add_lt_add_iff_right]
      cases read? d (s.drop n) with
      | some out => rfl
      | none =>
        dsimp only
        split
        · simp only [Option.map_map]
          rfl
        · rfl

/-! ## Tags are not empty -/

/-- The first tag has been read somewhere. -/
theorem exists_read?_of_firstTag? {s before rest : Text} {t : Token} (h : firstTag? d s = some (before, t, rest)) :
    ∃ s', read? d s' = some (t, rest) := by
  fun_induction firstTag? d s generalizing before with
  | case1 => cases h
  | case2 s n hn t' rest' hr =>
    cases h
    exact ⟨_, hr⟩
  | case3 s n hn hr hlt ih =>
    obtain ⟨⟨b, t', r⟩, hf, he⟩ := Option.map_eq_some_iff.1 h
    cases he
    exact ih hf
  | case4 => cases h

/-- The first tag is a tag, and it is not empty. -/
theorem isTag_of_firstTag? {s before rest : Text} {t : Token} (h : firstTag? d s = some (before, t, rest)) :
    t.isTag = true ∧ t.source d ≠ [] := by
  obtain ⟨s', hr⟩ := exists_read?_of_firstTag? h
  refine ⟨isTag_of_read? hr, ?_⟩
  intro he
  obtain ⟨hs, hlt⟩ := append_of_read? hr
  rw [he, List.nil_append] at hs
  rw [hs] at hlt
  exact absurd hlt (Nat.lt_irrefl _)

theorem literal_of_isTag {t : Token} (h : t.isTag = true) : t.literal = [] := by
  cases t with
  | text s => cases h
  | semantic name => rfl
  | direct code => rfl

theorem source_of_not_isTag {t : Token} (h : t.isTag = false) : t.source d = t.literal := by
  cases t with
  | text s => rfl
  | semantic name => cases h
  | direct code => cases h

theorem flatMap_literal_textUnlessEmpty (s : Text) : (textUnlessEmpty s).flatMap literal = s := by
  unfold textUnlessEmpty
  split
  · next h => rw [h, List.flatMap_nil]
  · rw [List.flatMap_singleton, literal]

theorem isTag_of_mem_textUnlessEmpty {s : Text} {t : Token} (h : t ∈ textUnlessEmpty s) : t.isTag = false := by
  unfold textUnlessEmpty at h
  split at h
  · cases h
  · rw [List.mem_singleton.1 h, isTag]

end Token

/-! ## All positions -/

/-- The text has no tags. -/
def Untagged (d : Delimiters) (s : Text) : Prop := ∀ t ∈ tokenize d s, t.isTag = false

variable {d : Delimiters} {s : Text}

theorem tokenize_of_firstTag?_none (h : Token.firstTag? d s = none) : tokenize d s = Token.textUnlessEmpty s := by
  rw [tokenize]
  split
  · rfl
  next h' => rw [h] at h'; cases h'

theorem tokenize_nil (d : Delimiters) : tokenize d [] = [] := tokenize_of_firstTag?_none (Token.firstTag?_nil d)

theorem tokenize_of_firstTag? {before rest : Text} {t : Token} (h : Token.firstTag? d s = some (before, t, rest)) :
    tokenize d s = Token.textUnlessEmpty before ++ t :: tokenize d rest := by
  rw [tokenize]
  split
  next h' => rw [h] at h'; cases h'
  next h' => rw [h] at h'; cases h'; rfl

/-- A text that has tags has an opening delimiter. -/
theorem hasOpening_of_firstTag? {found : Text × Token × Text}
    (h : Token.firstTag? d s = some found) : d.hasOpening s = true := by
  rw [Token.firstTag?] at h
  split at h
  · cases h
  next n hn =>
    obtain ⟨o, ho, hi⟩ := List.mem_filterMap.1 (List.min?_eq_some_iff.1 hn).1
    refine List.any_eq_true.2 ⟨o, ho, ?_⟩
    obtain ⟨found', hcut, -⟩ := Option.map_eq_some_iff.1 hi
    rw [Text.contains, hcut]
    rfl

theorem stripTags_of_firstTag? {before rest : Text} {t : Token} (h : Token.firstTag? d s = some (before, t, rest)) :
    stripTags d s = before ++ stripTags d rest := by
  rw [stripTags, tokenize_of_firstTag? h, List.flatMap_append, Token.flatMap_literal_textUnlessEmpty,
    List.flatMap_cons, Token.literal_of_isTag (Token.isTag_of_firstTag? h).1, List.nil_append, stripTags]

theorem untagged_iff : Untagged d s ↔ Token.firstTag? d s = none := by
  constructor
  · intro h
    rw [Option.eq_none_iff_forall_ne_some]
    rintro ⟨before, t, rest⟩ hf
    have hm : t ∈ tokenize d s := by
      rw [tokenize_of_firstTag? hf]
      exact List.mem_append_right _ List.mem_cons_self
    have := h t hm
    rw [(Token.isTag_of_firstTag? hf).1] at this
    cases this
  · intro h t ht
    rw [tokenize_of_firstTag?_none h] at ht
    exact Token.isTag_of_mem_textUnlessEmpty ht

theorem tokenize_of_untagged (h : Untagged d s) : tokenize d s = Token.textUnlessEmpty s :=
  tokenize_of_firstTag?_none (untagged_iff.1 h)

/-- A text without opening delimiters has no tags. -/
theorem untagged_of_hasOpening (h : d.hasOpening s = false) : Untagged d s := by
  rw [untagged_iff, Option.eq_none_iff_forall_ne_some]
  intro found hf
  rw [hasOpening_of_firstTag? hf] at h
  cases h

instance : Decidable (Untagged d s) := decidable_of_iff _ untagged_iff.symm

/-- **Removing the tags leaves exactly the texts without tags as they are.** -/
theorem stripTags_eq_self_iff : stripTags d s = s ↔ Untagged d s := by
  constructor
  · intro h
    rw [untagged_iff, Option.eq_none_iff_forall_ne_some]
    rintro ⟨before, t, rest⟩ hf
    -- a tag that is there makes the literal text shorter
    have hlit := congrArg List.length (stripTags_of_firstTag? hf)
    have hsrc := congrArg List.length (Token.append_of_firstTag? hf).1
    have hrest := (stripTags_sublist d rest).length_le
    have htag := List.length_pos_iff.2 (Token.isTag_of_firstTag? hf).2
    rw [h] at hlit
    simp only [List.length_append] at hlit hsrc
    omega
  · intro h
    calc stripTags d s = (tokenize d s).flatMap Token.literal := rfl
      _ = (tokenize d s).flatMap (Token.source d) := by
        exact List.flatMap_congr fun t ht => (Token.source_of_not_isTag (h t ht)).symm
      _ = s := source_tokenize d s

end TerminalMarkup
