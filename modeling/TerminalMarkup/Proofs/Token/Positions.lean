import Mathlib.Data.List.Chain
import TerminalMarkup.Proofs.Token.Replace

/-!
# Every position is tried

Three ways to split a text into tokens agree, whatever the delimiters are:

* `tokenize` goes from tag to tag, and from one opening delimiter to the next;
* `Token.next?` gives one token at a time. It stops in front of a tag to give the text before it, and reads the tag
  again when it is asked for the next token. `Token.Yields` is what it gives until it ends (`Token.yields_iff`);
* `Token.scan` knows nothing of opening delimiters. It tries to read a tag at every position (`tokenize_eq_scan`).

So no literal text holds a position at which a tag could be read (`read?_inside_text`).
-/

namespace TerminalMarkup

namespace Token

variable {d : Delimiters}

/-! ## One token at a time -/

/-- The next token of a text, with the text that is left. The text before a tag is a token of its own, and the tag is
left. -/
def next? (d : Delimiters) (s : Text) : Option (Token × Text) :=
  if s = [] then none
  else
    match firstTag? d s with
    | none => some (.text s, [])
    | some ([], t, rest) => some (t, rest)
    | some (before, _, _) => some (.text before, s.drop before.length)

/-- Asking for the next token until there is none gives `ts`. -/
inductive Yields (d : Delimiters) : Text → List Token → Prop
  | done {s : Text} : next? d s = none → Yields d s []
  | next {s rest : Text} {t : Token} {ts : List Token} : next? d s = some (t, rest) → Yields d rest ts →
      Yields d s (t :: ts)

theorem Yields.det {s : Text} {ts us : List Token} (h : Yields d s ts) (h' : Yields d s us) : ts = us := by
  induction h generalizing us with
  | done hn =>
    cases h' with
    | done _ => rfl
    | next hn' _ => rw [hn] at hn'; cases hn'
  | next hn _ ih =>
    cases h' with
    | done hn' => rw [hn] at hn'; cases hn'
    | next hn' hy =>
      rw [hn] at hn'
      cases hn'
      rw [ih hy]

theorem next?_nil (d : Delimiters) : next? d [] = none := rfl

theorem next?_of_none {s : Text} (hs : s ≠ []) (h : firstTag? d s = none) : next? d s = some (.text s, []) := by
  rw [next?, if_neg hs, h]

/-- A tag at the start of a text is its next token. -/
theorem next?_of_tag {s rest : Text} {t : Token} (h : firstTag? d s = some ([], t, rest)) :
    next? d s = some (t, rest) := by
  have hs : s ≠ [] := by
    rintro rfl
    rw [firstTag?_nil] at h
    cases h
  rw [next?, if_neg hs, h]

/-- The text before a tag is the next token, and the tag is read again. -/
theorem next?_of_text {s before rest : Text} {t : Token} (hb : before ≠ [])
    (h : firstTag? d s = some (before, t, rest)) : next? d s = some (.text before, t.source d ++ rest) := by
  have hsrc := (append_of_firstTag? h).1
  have hs : s ≠ [] := by
    rintro rfl
    rw [firstTag?_nil] at h
    cases h
  have hdrop : s.drop before.length = t.source d ++ rest := by
    rw [← hsrc, List.append_assoc, List.drop_left]
  rw [next?, if_neg hs, h]
  cases before with
  | nil => exact absurd rfl hb
  | cons c before => exact congrArg (fun r => some (Token.text (c :: before), r)) hdrop

/-! ## The text before the first tag -/

/-- A text whose first tag comes later begins with a literal character. -/
theorem firstTag?_tail {c : Char} {before s rest : Text} {t : Token}
    (h : firstTag? d (c :: s) = some (c :: before, t, rest)) :
    read? d (c :: s) = none ∧ firstTag? d s = some (before, t, rest) := by
  cases hr : read? d (c :: s) with
  | some found =>
    obtain ⟨t', rest'⟩ := found
    rw [firstTag?_of_read? hr] at h
    cases h
  | none =>
    rw [firstTag?_cons hr] at h
    obtain ⟨⟨b, t', r⟩, hf, he⟩ := Option.map_eq_some_iff.1 h
    cases he
    exact ⟨rfl, hf⟩

/-- What is left behind a part of the text before the first tag has the same first tag. -/
theorem firstTag?_behind {v w rest : Text} {t : Token} :
    firstTag? d (v ++ w ++ t.source d ++ rest) = some (v ++ w, t, rest) →
      firstTag? d (w ++ t.source d ++ rest) = some (w, t, rest) := by
  induction v with
  | nil => exact id
  | cons c v ih =>
    intro h
    exact ih (firstTag?_tail h).2

/-- There is no tag at any position of a text without a first tag. -/
theorem firstTag?_none_behind {v w : Text} : firstTag? d (v ++ w) = none → firstTag? d w = none := by
  induction v with
  | nil => exact id
  | cons c v ih =>
    intro h
    refine ih ?_
    cases hr : read? d (c :: (v ++ w)) with
    | some found =>
      rw [List.cons_append, firstTag?_of_read? hr] at h
      cases h
    | none =>
      rw [List.cons_append, firstTag?_cons hr] at h
      exact Option.map_eq_none_iff.1 h

theorem read?_eq_none_of_firstTag?_none {s : Text} (h : firstTag? d s = none) : read? d s = none := by
  cases hr : read? d s with
  | none => rfl
  | some found =>
    rw [firstTag?_of_read? hr] at h
    cases h

/-- The tag that was found is read again. -/
theorem firstTag?_again {s before rest : Text} {t : Token} (h : firstTag? d s = some (before, t, rest)) :
    firstTag? d (t.source d ++ rest) = some ([], t, rest) := by
  have hs := (append_of_firstTag? h).1
  rw [← hs, ← List.append_nil before] at h
  exact firstTag?_behind h

/-! ## Every position -/

/-- Puts a literal character in front of tokens. Literal text stays together. -/
def consChar (c : Char) : List Token → List Token
  | .text u :: ts => .text (c :: u) :: ts
  | ts => .text [c] :: ts

/-- Splits a text into tokens by trying to read a tag at every position, from left to right. -/
def scan (d : Delimiters) : Text → List Token
  | [] => []
  | c :: s =>
    match _h : read? d (c :: s) with
    | some (t, rest) => t :: scan d rest
    | none => consChar c (scan d s)
termination_by s => s.length
decreasing_by
  · exact (append_of_read? _h).2
  · exact Nat.lt_succ_self _

theorem consChar_of_isTag {c : Char} {t : Token} (h : t.isTag = true) (ts : List Token) :
    consChar c (t :: ts) = .text [c] :: t :: ts := by
  cases t with
  | text u => cases h
  | semantic name => rfl
  | direct code => rfl

theorem consChar_textUnlessEmpty (c : Char) (s : Text) : consChar c (textUnlessEmpty s) = textUnlessEmpty (c :: s) := by
  cases s with
  | nil => rfl
  | cons x s => rfl

/-- A character in front of literal text and a tag. -/
theorem consChar_append {c : Char} {before : Text} {t : Token} (h : t.isTag = true) (ts : List Token) :
    consChar c (textUnlessEmpty before ++ t :: ts) = textUnlessEmpty (c :: before) ++ t :: ts := by
  cases before with
  | nil => exact consChar_of_isTag h ts
  | cons x before => rfl

end Token

open Token

variable {d : Delimiters}

/-- Where no tag can be read the first character is part of the literal text in front. -/
theorem tokenize_cons {c : Char} {s : Text} (h : read? d (c :: s) = none) :
    tokenize d (c :: s) = consChar c (tokenize d s) := by
  cases hf : firstTag? d s with
  | none =>
    have hf' : firstTag? d (c :: s) = none := by rw [firstTag?_cons h, hf]; rfl
    rw [tokenize_of_firstTag?_none hf, tokenize_of_firstTag?_none hf', consChar_textUnlessEmpty]
  | some found =>
    obtain ⟨before, t, rest⟩ := found
    have hf' : firstTag? d (c :: s) = some (c :: before, t, rest) := by rw [firstTag?_cons h, hf]; rfl
    rw [tokenize_of_firstTag? hf, tokenize_of_firstTag? hf', consChar_append (isTag_of_firstTag? hf).1]

/-- Going from tag to tag finds what trying every position finds. -/
theorem tokenize_eq_scan (d : Delimiters) (s : Text) : tokenize d s = scan d s := by
  fun_induction scan d s with
  | case1 => exact tokenize_nil d
  | case2 c s t rest h ih => rw [tokenize_of_firstTag? (firstTag?_of_read? h), ih]; rfl
  | case3 c s h ih => rw [tokenize_cons h, ih]

/-- Asking for one token after the other ends, and gives all tokens. The induction goes from tag to tag. -/
theorem Token.yields_tokenize (d : Delimiters) (s : Text) : Yields d s (tokenize d s) := by
  fun_induction tokenize d s with
  | case1 s h =>
    unfold textUnlessEmpty
    split
    next hs => exact .done (hs ▸ next?_nil d)
    next hs => exact .next (next?_of_none hs h) (.done (next?_nil d))
  | case2 s before t rest h ih =>
    unfold textUnlessEmpty
    split
    next hb =>
      rw [hb] at h
      exact .next (next?_of_tag h) ih
    next hb => exact .next (next?_of_text hb h) (.next (next?_of_tag (firstTag?_again h)) ih)

theorem Token.yields_iff {s : Text} {ts : List Token} : Yields d s ts ↔ ts = tokenize d s :=
  ⟨fun h => h.det (yields_tokenize d s), fun h => h ▸ yields_tokenize d s⟩

/-! ## The tokens of a text -/

theorem writeTokens_cons (d : Delimiters) (t : Token) (ts : List Token) :
    writeTokens d (t :: ts) = t.source d ++ writeTokens d ts := by
  rw [writeTokens, writeTokens, List.flatMap_cons]

/-- Literal text is not empty, and a payload is one that its tag may hold. -/
theorem proper_of_mem_tokenize {s : Text} {t : Token} (h : t ∈ tokenize d s) : t ≠ .text [] ∧ t.isValid = true := by
  have ne_of_text {u : Text} (h : t ∈ textUnlessEmpty u) : t ≠ .text [] := by
    unfold textUnlessEmpty at h
    split at h
    · cases h
    next hu =>
      rw [List.mem_singleton.1 h]
      exact fun he => hu (Token.text.inj he)
  refine ⟨?_, isValid_of_mem_tokenize h⟩
  fun_induction tokenize d s with
  | case1 s hf => exact ne_of_text h
  | case2 s before t' rest hf ih =>
    rcases List.mem_append.1 h with h | h
    · exact ne_of_text h
    rcases List.mem_cons.1 h with rfl | h
    · rintro rfl
      cases (isTag_of_firstTag? hf).1
    · exact ih h

/-- Of two tokens that follow each other one is a tag. -/
theorem isChain_tokenize (d : Delimiters) (s : Text) :
    (tokenize d s).IsChain fun t u => t.isTag = true ∨ u.isTag = true := by
  fun_induction tokenize d s with
  | case1 s h =>
    unfold textUnlessEmpty
    split
    · exact .nil
    · exact .singleton _
  | case2 s before t rest h ih =>
    have ht := (isTag_of_firstTag? h).1
    have htail : (t :: tokenize d rest).IsChain fun t u => t.isTag = true ∨ u.isTag = true :=
      List.isChain_cons.2 ⟨fun _ _ => .inl ht, ih⟩
    unfold textUnlessEmpty
    split
    · exact htail
    · exact .cons_cons (.inr ht) htail

/-- At no position of a literal text a tag can be read. The text behind it is that of the tokens which follow. -/
theorem read?_inside_text {s v w : Text} {ts us : List Token} (h : tokenize d s = ts ++ .text (v ++ w) :: us)
    (hw : w ≠ []) : read? d (w ++ writeTokens d us) = none := by
  fun_induction tokenize d s generalizing ts with
  | case1 s hf =>
    unfold textUnlessEmpty at h
    split at h
    · simp at h
    · obtain ⟨rfl, he, rfl⟩ : ts = [] ∧ s = v ++ w ∧ us = [] := by
        cases ts with
        | nil =>
          rw [List.nil_append, List.cons.injEq] at h
          exact ⟨rfl, Token.text.inj h.1, h.2.symm⟩
        | cons t ts => simp at h
      rw [he] at hf
      rw [writeTokens, List.flatMap_nil, List.append_nil]
      exact read?_eq_none_of_firstTag?_none (firstTag?_none_behind hf)
  | case2 s before t rest hf ih =>
    have htag := (isTag_of_firstTag? hf).1
    -- the tag in front of the rest is no literal text
    have hrest {ts' : List Token} (h : t :: tokenize d rest = ts' ++ .text (v ++ w) :: us) :
        read? d (w ++ writeTokens d us) = none := by
      cases ts' with
      | nil =>
        rw [List.nil_append, List.cons.injEq] at h
        rw [h.1] at htag
        cases htag
      | cons t' ts' =>
        rw [List.cons_append, List.cons.injEq] at h
        exact ih h.2
    unfold textUnlessEmpty at h
    split at h
    · exact hrest h
    · cases ts with
      | cons t' ts =>
        rw [List.cons_append, List.nil_append, List.cons_append, List.cons.injEq] at h
        exact hrest h.2
      | nil =>
        rw [List.cons_append, List.nil_append, List.nil_append, List.cons.injEq] at h
        obtain ⟨he, rfl⟩ := h
        obtain rfl := Token.text.inj he
        have hs := (append_of_firstTag? hf).1
        rw [← hs] at hf
        have hwrite : writeTokens d (t :: tokenize d rest) = t.source d ++ rest := by
          rw [writeTokens_cons, source_tokenize]
        have hbehind := firstTag?_behind hf
        rw [hwrite, ← List.append_assoc]
        cases w with
        | nil => exact absurd rfl hw
        | cons c w => exact (firstTag?_tail hbehind).1

/-- **Tokenizing is lossless and complete**, whatever the delimiters are. Asking for one token after the other ends with
exactly these tokens, which write back to the text; no literal text is empty or next to another one, and payloads are
valid; trying to read a tag at every position gives the same tokens, so that no position inside a literal text begins a
tag. -/
theorem tokenize_lossless_complete (d : Delimiters) (s : Text) :
    (∀ ts, Yields d s ts ↔ ts = tokenize d s) ∧
      writeTokens d (tokenize d s) = s ∧
      (∀ t ∈ tokenize d s, t ≠ .text [] ∧ t.isValid = true) ∧
      ((tokenize d s).IsChain fun t u => t.isTag = true ∨ u.isTag = true) ∧
      tokenize d s = scan d s ∧
      ∀ ts v w us, tokenize d s = ts ++ .text (v ++ w) :: us → w ≠ [] → read? d (w ++ writeTokens d us) = none :=
  ⟨fun _ => yields_iff, source_tokenize d s, fun _ => proper_of_mem_tokenize, isChain_tokenize d s,
    tokenize_eq_scan d s, fun _ _ _ _ h hw => read?_inside_text h hw⟩

end TerminalMarkup
