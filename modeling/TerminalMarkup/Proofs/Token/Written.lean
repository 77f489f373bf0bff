import TerminalMarkup.Proofs.Token.Positions

/-!
# Reading what has been written

Tokens are written one after the other without anything between them. In the canonical delimiters they can be told
apart again:

* a tag splits the text around it, whatever stands in front of it (`tokenize_append_tag`). A literal text that ends as
  an opening delimiter begins does not reach into the tag, and a name that ends in underscores does not close it early;
* so the tokens that are read back are just those that some text has (`tokenize_writeTokens_iff`, `Legible`). Literal
  texts without opening delimiters, each between tags, are among them (`tokenize_writeTokens`).
-/

namespace TerminalMarkup

/-! ## Tags between literal texts -/

/-- **A tag splits the text around it**, whatever stands in front of it. -/
theorem tokenize_append_tag {t : Token} (ht : t.isTag = true) (hv : t.isValid = true) (s rest : Text) :
    tokenize .canonical (s ++ (t.source .canonical ++ rest))
      = tokenize .canonical s ++ t :: tokenize .canonical rest := by
  obtain ⟨u, hu⟩ := Token.exists_braces_of_isTag ht rest
  have hread := Token.read?_source ht hv rest
  rw [hu] at hread ⊢
  fun_induction tokenize .canonical s with
  | case1 s h =>
    refine tokenize_of_firstTag? ?_
    rw [Token.firstTag?_append, h, Token.firstTag?_of_read? hread]
    simp
  | case2 s before t' rest' h ih =>
    have hfirst : Token.firstTag? .canonical (s ++ '{' :: '{' :: u) = some (before, t', rest' ++ '{' :: '{' :: u) := by
      rw [Token.firstTag?_append, h]
      rfl
    rw [tokenize_of_firstTag? hfirst, ih, List.append_assoc, List.cons_append]

/-- The literal texts between tags have no tags of their own. -/
theorem untagged_of_mem_tokenize {s u : Text} (h : .text u ∈ tokenize .canonical s) : Untagged .canonical u := by
  have of_textUnlessEmpty {v : Text} (hv : Token.firstTag? .canonical v = none)
      (h : .text u ∈ Token.textUnlessEmpty v) : Untagged .canonical u := by
    unfold Token.textUnlessEmpty at h
    split at h
    · cases h
    · cases List.mem_singleton.1 h
      exact untagged_iff.2 hv
  fun_induction tokenize .canonical s with
  | case1 s hf => exact of_textUnlessEmpty hf h
  | case2 s before t rest hf ih =>
    rcases List.mem_append.1 h with h | h
    · exact of_textUnlessEmpty (Token.firstTag?_before hf) h
    rcases List.mem_cons.1 h with rfl | h
    · cases (Token.isTag_of_firstTag? hf).1
    · exact ih h

/-! ## Tokens of some text -/

/-- Tokens that a text may have: no literal text is empty, holds a tag or follows another one, and payloads are
valid. -/
structure Legible (ts : List Token) : Prop where
  proper : ∀ t ∈ ts, t ≠ .text [] ∧ t.isValid = true
  untagged : ∀ s, .text s ∈ ts → Untagged .canonical s
  apart : ts.IsChain fun t u => t.isTag = true ∨ u.isTag = true

theorem Legible.tail {t : Token} {ts : List Token} (h : Legible (t :: ts)) : Legible ts :=
  ⟨fun u hu => h.proper u (List.mem_cons_of_mem t hu), fun s hs => h.untagged s (List.mem_cons_of_mem t hs),
    h.apart.tail⟩

/-- The tokens of a text are legible. -/
theorem legible_tokenize (s : Text) : Legible (tokenize .canonical s) :=
  ⟨fun _ ht => proper_of_mem_tokenize ht, fun _ hu => untagged_of_mem_tokenize hu, isChain_tokenize .canonical s⟩

/-- A tag that is written behind literal text is read behind it. -/
theorem tokenize_append_writeTokens {t : Token} (ht : t.isTag = true) (hv : t.isValid = true) (s : Text)
    (ts : List Token) :
    tokenize .canonical (s ++ writeTokens .canonical (t :: ts))
      = tokenize .canonical s ++ t :: tokenize .canonical (writeTokens .canonical ts) := by
  rw [writeTokens_cons]
  exact tokenize_append_tag ht hv s _

/-- A literal text of legible tokens is read as it is. -/
theorem Legible.tokenize_text {s : Text} {ts : List Token} (h : Legible (.text s :: ts)) :
    tokenize .canonical s = [.text s] := by
  have hs : s ≠ [] := fun hs => (h.proper _ List.mem_cons_self).1 (congrArg _ hs)
  rw [tokenize_of_untagged (h.untagged s List.mem_cons_self), Token.textUnlessEmpty, if_neg hs]

/-- Legible tokens are read back. A tag is taken off by itself, and a literal text together with the tag behind it. -/
theorem Legible.tokenize_eq : ∀ {ts : List Token}, Legible ts → tokenize .canonical (writeTokens .canonical ts) = ts
  | [], _ => tokenize_nil _
  | [.text s], h => by
    have hwrite : writeTokens .canonical [.text s] = s := by simp [writeTokens, Token.source]
    rw [hwrite, h.tokenize_text]
  | .text s :: t :: ts, h => by
    have ht : t.isTag = true := (List.isChain_cons_cons.1 h.apart).1.resolve_left Bool.false_ne_true
    have hv : t.isValid = true := (h.tail.proper t List.mem_cons_self).2
    rw [writeTokens_cons, Token.source, tokenize_append_writeTokens ht hv, h.tokenize_text, h.tail.tail.tokenize_eq,
      List.singleton_append]
  | .semantic name :: ts, h => by
    have hsplit := tokenize_append_writeTokens (t := .semantic name) rfl (h.proper _ List.mem_cons_self).2 [] ts
    rwa [tokenize_nil, h.tail.tokenize_eq] at hsplit
  | .direct code :: ts, h => by
    have hsplit := tokenize_append_writeTokens (t := .direct code) rfl (h.proper _ List.mem_cons_self).2 [] ts
    rwa [tokenize_nil, h.tail.tokenize_eq] at hsplit

/-- **The tokens that are read back** are those that some text has. -/
theorem tokenize_writeTokens_iff {ts : List Token} :
    tokenize .canonical (writeTokens .canonical ts) = ts ↔ Legible ts :=
  ⟨fun h => h ▸ legible_tokenize _, Legible.tokenize_eq⟩

/-! ## Texts without opening delimiters -/

/-- Literal text that is not empty and has no opening delimiter, or a tag with a payload that it may hold. -/
def Token.isSpelled : Token → Bool
  | text s => !s.isEmpty && !Delimiters.canonical.hasOpening s
  | semantic name => isName name
  | direct code => isCode code

theorem Token.isSpelled_text {s : Text} :
    isSpelled (.text s) = true ↔ s ≠ [] ∧ Delimiters.canonical.hasOpening s = false := by
  simp [isSpelled]

theorem legible_of_isSpelled {ts : List Token} (h : ∀ t ∈ ts, t.isSpelled = true)
    (hapart : ts.IsChain fun t u => t.isTag = true ∨ u.isTag = true) : Legible ts := by
  refine ⟨fun t ht => ?_, fun s hs => untagged_of_hasOpening (Token.isSpelled_text.1 (h _ hs)).2, hapart⟩
  cases t with
  | text s => exact ⟨fun he => (Token.isSpelled_text.1 (h _ ht)).1 (Token.text.inj he), rfl⟩
  | semantic name => exact ⟨Token.noConfusion, h _ ht⟩
  | direct code => exact ⟨Token.noConfusion, h _ ht⟩

/-- **Reading undoes writing.** Names, style codes and literal texts without opening delimiters, no two of the texts
next to each other, are the tokens of what they are written as. -/
theorem tokenize_writeTokens {ts : List Token} (h : ∀ t ∈ ts, t.isSpelled = true)
    (hapart : ts.IsChain fun t u => t.isTag = true ∨ u.isTag = true) :
    tokenize .canonical (writeTokens .canonical ts) = ts :=
  tokenize_writeTokens_iff.2 (legible_of_isSpelled h hapart)

/-- Texts that end or begin with parts of delimiters, around payloads that do. -/
theorem tokenize_writeTokens_braces :
    let ts : List Token := [.text ['{', '{'], .semantic "_a_".toList, .text ['_', '}', '}', '{'], .direct "-".toList,
      .direct ":red_;#".toList, .text ['}', '}', '{', ' ', '{', '_', '|']]
    (∀ t ∈ ts, t.isSpelled = true) ∧ tokenize .canonical (writeTokens .canonical ts) = ts := by
  intro ts
  have hspelled : ∀ t ∈ ts, t.isSpelled = true := by decide
  exact ⟨hspelled, tokenize_writeTokens hspelled (by decide)⟩

end TerminalMarkup
