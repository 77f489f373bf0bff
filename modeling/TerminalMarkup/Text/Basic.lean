/-!
# Text

Text is a list of characters. This module holds the searches the readers of the library are made of:

* `Text.after?` gives what follows a given start, `Text.before?` what comes before a given end,
* `Text.cut?` splits at the first occurrence of a pattern (`append_of_cut?`),
* `Text.fields` splits at every occurrence of a character,
* `Text.shrink` applies a deletion until the text gets no shorter (`not_lt_of_shrink`).
-/

namespace TerminalMarkup

/-- A text is a list of characters. -/
abbrev Text := List Char

namespace Text

/-- What is said of the characters of a text is decided by looking at these. Without this instance it may be decided by
looking at all characters that there are. -/
instance (s : Text) (p : Char → Prop) [DecidablePred p] : Decidable (∀ c ∈ s, p c) := List.decidableBAll p s

/-! ## Starts and ends -/

/-- What follows `p` in a text that starts with `p`. -/
def after? : Text → Text → Option Text
  | [], s => some s
  | _ :: _, [] => none
  | a :: p, c :: s => if a = c then after? p s else none

theorem append_of_after? : ∀ {p s r : Text}, after? p s = some r → p ++ r = s
  | [], _, _, h => by simpa [after?] using h.symm
  | _ :: _, [], _, h => by simp [after?] at h
  | a :: p, c :: s, r, h => by
    simp only [after?] at h
    split at h
    · next hac => rw [List.cons_append, append_of_after? h, hac]
    · cases h

@[simp] theorem after?_append (p r : Text) : after? p (p ++ r) = some r := by
  induction p with
  | nil => rfl
  | cons a p ih => simp [after?, ih]

/-- A text starts with `p`. -/
def startsWith (p s : Text) : Bool := (after? p s).isSome

/-- What comes before `p` in a text that ends with `p`. -/
def before? (p s : Text) : Option Text := (after? p.reverse s.reverse).map List.reverse

/-- Drops the characters at the end that satisfy `f`. -/
def dropEndWhile (f : Char → Bool) (s : Text) : Text := (s.reverse.dropWhile f).reverse

/-- Drops the characters at both ends that satisfy `f`. -/
def strip (f : Char → Bool) (s : Text) : Text := dropEndWhile f (s.dropWhile f)

/-! ## Search -/

/-- The part before the first occurrence of `p`, and the part after it. -/
def cut? (p : Text) : Text → Option (Text × Text)
  | [] => (after? p []).map fun r => ([], r)
  | c :: s =>
    match after? p (c :: s) with
    | some r => some ([], r)
    | none => (cut? p s).map fun (b, r) => (c :: b, r)

theorem append_of_cut? {p : Text} : ∀ {s b r : Text}, cut? p s = some (b, r) → b ++ p ++ r = s
  | [], b, r, h => by
    simp only [cut?, Option.map_eq_some_iff, Prod.mk.injEq] at h
    obtain ⟨r', hr, rfl, rfl⟩ := h
    simpa using append_of_after? hr
  | c :: s, b, r, h => by
    simp only [cut?] at h
    split at h
    · next r' hr =>
      simp only [Option.some.injEq, Prod.mk.injEq] at h
      obtain ⟨rfl, rfl⟩ := h
      simpa using append_of_after? hr
    · simp only [Option.map_eq_some_iff, Prod.mk.injEq] at h
      obtain ⟨⟨b', r'⟩, hb, rfl, rfl⟩ := h
      simpa using append_of_cut? hb

/-- The number of characters before the first occurrence of `p`. -/
def indexOf? (p s : Text) : Option Nat := (cut? p s).map fun (b, _) => b.length

/-- Some occurrence of `p` lies in the text. -/
def contains (p s : Text) : Bool := (cut? p s).isSome

/-- The parts between the occurrences of `sep`; there is one more of them than there are occurrences. -/
def fields (sep : Char) : Text → List Text
  | [] => [[]]
  | c :: s =>
    if c = sep then [] :: fields sep s
    else
      match fields sep s with
      | [] => [[c]]
      | f :: fs => (c :: f) :: fs

/-! ## Order and letter case -/

/-- The text with ASCII letters in lower case. -/
def toAsciiLower (s : Text) : Text := s.map Char.toLower

/-- Equality up to the case of ASCII letters. -/
def eqIgnoreCase (s t : Text) : Bool := s.toAsciiLower == t.toAsciiLower

/-- The text is one of the given words. -/
def isOneOf (words : List String) (s : Text) : Bool := words.any fun w => w.toList == s

/-- The number of bytes of a text in UTF-8. -/
def utf8Length (s : Text) : Nat := s.foldr (fun c n => c.utf8Size + n) 0

/-! ## Repeated deletion -/

/-- Applies the deletion `f` until the text gets no shorter. -/
def shrink (f : Text → Text) (s : Text) : Text :=
  if (f s).length < s.length then shrink f (f s) else s
termination_by s.length

theorem not_lt_of_shrink (f : Text → Text) (s : Text) : ¬ (f (shrink f s)).length < (shrink f s).length := by
  fun_induction shrink f s with
  | case1 s h ih => exact ih
  | case2 s h => exact h

/-- A deletion that has been repeated until nothing gets shorter changes nothing more. -/
theorem shrink_stable {f : Text → Text} (hf : ∀ s, (f s).Sublist s) (s : Text) : f (shrink f s) = shrink f s :=
  (hf _).eq_of_length_le (Nat.not_lt.mp (not_lt_of_shrink f s))

end Text
end TerminalMarkup
