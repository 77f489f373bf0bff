import TerminalMarkup.Delimiters

/-!
# Tokens

Markup is a sequence of literal text, semantic references and direct tags.

* `Token.read?` reads one tag at the start of a text,
* `Token.firstTag?` finds the first tag, going from one opening delimiter to the next; `append_of_firstTag?` says what
  the text is made of,
* `tokenize` splits a text into tokens, and `Token.source` writes a token back; `source_tokenize` says that nothing is
  lost,
* `stripTags` keeps the literal text (`stripTags_sublist`),
* `tagsOf` reads the tags of a style value, in which a bare style code counts as a direct tag.
-/

namespace TerminalMarkup

/-- A part of a markup text. -/
inductive Token
  | text (s : Text)
  /-- A reference to the name `name`. -/
  | semantic (name : Text)
  /-- A tag that holds the style code `code`. -/
  | direct (code : Text)
  deriving DecidableEq, Repr

namespace Token

/-! ## Payloads -/

/-- A character of a name. -/
def isNameChar (c : Char) : Bool := c.isAlphanum || c == '_'

/-- A character of a style code. -/
def isCodeChar (c : Char) : Bool := c.isAlphanum || c == '_' || c == ':' || c == '-' || c == '#' || c == ';'

/-- A name that a reference may hold. -/
def isName (s : Text) : Bool := !s.isEmpty && s.all isNameChar

/-- A style code that a direct tag may hold. -/
def isCode (s : Text) : Bool := !s.isEmpty && s.all isCodeChar

theorem isName_iff {s : Text} : isName s = true ↔ s ≠ [] ∧ ∀ c ∈ s, isNameChar c = true := by simp [isName]

theorem isCode_iff {s : Text} : isCode s = true ↔ s ≠ [] ∧ ∀ c ∈ s, isCodeChar c = true := by simp [isCode]

/-! ## One tag -/

/-- Reads a payload between the two delimiters at the start of a text; the rest follows the first closing one. -/
def readPayload? (opening closing : Text) (valid : Text → Bool) (s : Text) : Option (Text × Text) :=
  if opening = [] ∨ closing = [] then none
  else
    match (Text.after? opening s).bind (Text.cut? closing) with
    | some (payload, rest) => if valid payload then some (payload, rest) else none
    | none => none

/-- Reads a semantic reference at the start of a text. -/
def readSemantic? (d : Delimiters) (s : Text) : Option (Token × Text) :=
  (readPayload? d.semanticOpen d.semanticClose isName s).map fun (name, rest) => (.semantic name, rest)

/-- Reads a direct tag at the start of a text. -/
def readDirect? (d : Delimiters) (s : Text) : Option (Token × Text) :=
  (readPayload? d.directOpen d.directClose isCode s).map fun (code, rest) => (.direct code, rest)

/-- Reads a tag at the start of a text. -/
def read? (d : Delimiters) (s : Text) : Option (Token × Text) :=
  if d.directFirst then (readDirect? d s).or (readSemantic? d s) else (readSemantic? d s).or (readDirect? d s)

/-- Writes a token back. -/
def source (d : Delimiters) : Token → Text
  | text s => s
  | semantic name => d.wrapSemantic name
  | direct code => d.wrapDirect code

/-- The literal text of a token. -/
def literal : Token → Text
  | text s => s
  | _ => []

theorem of_readPayload? {o c : Text} {valid : Text → Bool} {s payload rest : Text}
    (h : readPayload? o c valid s = some (payload, rest)) :
    o ≠ [] ∧ c ≠ [] ∧ valid payload = true ∧ Text.cut? c (payload ++ c ++ rest) = some (payload, rest) ∧
      o ++ (payload ++ c ++ rest) = s := by
  simp only [readPayload?] at h
  split at h
  · cases h
  next hne =>
    rw [not_or] at hne
    split at h
    next p r hb =>
      split at h
      next hv =>
        cases h
        obtain ⟨body, hbody, hcut⟩ := Option.bind_eq_some_iff.1 hb
        have := Text.append_of_cut? hcut
        exact ⟨hne.1, hne.2, hv, this ▸ hcut, this ▸ Text.append_of_after? hbody⟩
      · cases h
    · cases h

/-- A tag that was read stands at the start of the text. -/
theorem append_of_read? {d : Delimiters} {s rest : Text} {t : Token} (h : read? d s = some (t, rest)) :
    t.source d ++ rest = s ∧ rest.length < s.length := by
  have semantic (h : readSemantic? d s = some (t, rest)) : t.source d ++ rest = s ∧ rest.length < s.length := by
    obtain ⟨⟨p, r⟩, hp, he⟩ := Option.map_eq_some_iff.1 h
    cases he
    obtain ⟨ho, -, -, -, rfl⟩ := of_readPayload? hp
    have := List.length_pos_iff.2 ho
    exact ⟨by simp [source, Delimiters.wrapSemantic], by simp; omega⟩
  have direct (h : readDirect? d s = some (t, rest)) : t.source d ++ rest = s ∧ rest.length < s.length := by
    obtain ⟨⟨p, r⟩, hp, he⟩ := Option.map_eq_some_iff.1 h
    cases he
    obtain ⟨ho, -, -, -, rfl⟩ := of_readPayload? hp
    have := List.length_pos_iff.2 ho
    exact ⟨by simp [source, Delimiters.wrapDirect], by simp; omega⟩
  simp only [read?] at h
  split at h
  all_goals
    rcases Option.or_eq_some_iff.1 h with h | ⟨-, h⟩
  · exact direct h
  · exact semantic h
  · exact semantic h
  · exact direct h

/-! ## The first tag -/

/-- The first tag of a text, with the text before it and the text after it. An opening delimiter that begins no tag is
literal, and the search goes on one character further. -/
def firstTag? (d : Delimiters) (s : Text) : Option (Text × Token × Text) :=
  match d.openingOffset? s with
  | none => none
  | some n =>
    match read? d (s.drop n) with
    | some (t, rest) => some (s.take n, t, rest)
    | none =>
      if n < s.length then
        (firstTag? d (s.drop (n + 1))).map fun (before, t, rest) => (s.take (n + 1) ++ before, t, rest)
      else none
termination_by s.length
decreasing_by simp; omega

/-- The text before the first tag, the tag and the rest make up the text. -/
theorem append_of_firstTag? {d : Delimiters} {s before rest : Text} {t : Token}
    (h : firstTag? d s = some (before, t, rest)) :
    before ++ t.source d ++ rest = s ∧ rest.length < s.length := by
  fun_induction firstTag? d s generalizing before with
  | case1 => cases h
  | case2 s n hn t' rest' hr =>
    cases h
    have := append_of_read? hr
    refine ⟨?_, ?_⟩
    · rw [List.append_assoc, this.1, List.take_append_drop]
    · have := this.2
      simp at this
      omega
  | case3 s n hn hr hlt ih =>
    obtain ⟨⟨b, t', r⟩, hf, he⟩ := Option.map_eq_some_iff.1 h
    cases he
    have := ih hf
    refine ⟨?_, ?_⟩
    · rw [List.append_assoc, List.append_assoc, ← List.append_assoc b, this.1, List.take_append_drop]
    · have := this.2
      simp at this
      omega
  | case4 => cases h

end Token

/-! ## All tokens -/

/-- The literal text `s`, unless it is empty. -/
def Token.textUnlessEmpty (s : Text) : List Token := if s = [] then [] else [.text s]

/-- Splits a text into tokens. -/
def tokenize (d : Delimiters) (s : Text) : List Token :=
  match _h : Token.firstTag? d s with
  | none => Token.textUnlessEmpty s
  | some (before, t, rest) => Token.textUnlessEmpty before ++ t :: tokenize d rest
termination_by s.length
decreasing_by exact (Token.append_of_firstTag? _h).2

/-- The tokens of a text, written back one after the other. -/
def writeTokens (d : Delimiters) (ts : List Token) : Text := ts.flatMap (Token.source d)

/-- The literal text between the tags. -/
def stripTags (d : Delimiters) (s : Text) : Text := (tokenize d s).flatMap Token.literal

theorem writeTokens_textUnlessEmpty (d : Delimiters) (s : Text) :
    writeTokens d (Token.textUnlessEmpty s) = s := by
  unfold Token.textUnlessEmpty
  split
  · simp_all [writeTokens]
  · simp [writeTokens, Token.source]

/-- Writing the tokens back gives the text. -/
theorem source_tokenize (d : Delimiters) (s : Text) : writeTokens d (tokenize d s) = s := by
  fun_induction tokenize d s with
  | case1 s h => exact writeTokens_textUnlessEmpty d s
  | case2 s before t rest h ih =>
    have := writeTokens_textUnlessEmpty d before
    simp only [writeTokens] at *
    simp only [List.flatMap_append, List.flatMap_cons, this, ih]
    rw [← List.append_assoc]
    exact (Token.append_of_firstTag? h).1

theorem Token.literal_sublist (d : Delimiters) (t : Token) : t.literal.Sublist (t.source d) := by
  cases t <;> simp [literal, source]

/-- Removing the tags only deletes characters. -/
theorem stripTags_sublist (d : Delimiters) (s : Text) : (stripTags d s).Sublist s := by
  have (ts : List Token) : (ts.flatMap Token.literal).Sublist (writeTokens d ts) := by
    induction ts with
    | nil => simp [writeTokens]
    | cons t ts ih => simpa [writeTokens] using (t.literal_sublist d).append ih
  have h := this (tokenize d s)
  rwa [source_tokenize] at h

/-! ## Style values -/

/-- The token is a tag. -/
def Token.isTag : Token → Bool
  | text _ => false
  | _ => true

/-- The tags of a style value. A value without opening delimiters is a bare style code; literal text means nothing. -/
def tagsOf (d : Delimiters) (value : Text) : List Token :=
  if d.hasOpening value then (tokenize d value).filter Token.isTag
  else if Token.isCode value.trim then [.direct value.trim]
  else []

end TerminalMarkup
