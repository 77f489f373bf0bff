import TerminalMarkup.Proofs.Text.Ends
import TerminalMarkup.Style.Flags

/-!
# Flags and their letters

A flags segment may be read in parts: what the later part says is merged into what the earlier one says
(`Flags.parse_append`). A dash in front of the later part would say nothing any more, and so there must be none.

The letters of flags say what the flags say (`Flags.parse_letters`). They are a normal form of the segments: to read a
segment and to write its letters changes nothing in what it says, and there is a segment for all flags
(`Flags.parse_append_letters`).
-/

namespace TerminalMarkup

namespace Flags

/-! ## Reading -/

theorem get_set (f : Flags) (a b : Attribute) (on : Bool) :
    (f.set a on).get b = if b = a then some on else f.get b := rfl

theorem applyAll_append (f : Flags) (s t : Text) : f.applyAll (s ++ t) = (f.applyAll s).merge (none.applyAll t) := by
  rw [← applyAll_eq_merge, applyAll, applyAll, applyAll, List.foldl_append]

/-- A dash among the letters says nothing. -/
theorem applyAll_dash (f : Flags) (s : Text) : f.applyAll ('-' :: s) = f.applyAll s := by
  have hdash : Attribute.ofLetter? '-' = .none := by decide
  rw [applyAll, List.foldl_cons, apply, hdash, applyAll]

/-- Flags say what their letters say, after a dash in front has switched everything off. -/
theorem parseTrimmed_eq (s : Text) :
    parseTrimmed s = if s.head? = some '-' then allOff.merge (none.applyAll s) else none.applyAll s := by
  cases s with
  | nil => rfl
  | cons c s =>
    by_cases hc : c = '-'
    · subst hc
      rw [if_pos (List.head?_cons), parseTrimmed, applyAll_eq_merge, applyAll_dash]
    · have hhead : (c :: s).head? ≠ some '-' := fun h => hc (Option.some.inj h)
      rw [if_neg hhead, parseTrimmed]
      exact fun t h => hc (List.cons.inj h).1

/-! ## Parts of a segment -/

theorem parseTrimmed_append (s : Text) {t : Text} (ht : t.head? ≠ some '-') :
    parseTrimmed (s ++ t) = (parseTrimmed s).merge (parseTrimmed t) := by
  have hhead : (s ++ t).head? = some '-' ↔ s.head? = some '-' := by
    cases s with
    | nil => exact iff_of_false ht nofun
    | cons c s => rfl
  rw [parseTrimmed_eq, parseTrimmed_eq s, parseTrimmed_eq t, if_neg ht, applyAll_append]
  by_cases hs : s.head? = some '-'
  · rw [if_pos (hhead.2 hs), if_pos hs, merge_assoc]
  · rw [if_neg fun h => hs (hhead.1 h), if_neg hs]

/-- **A segment says what its parts say, the later merged into the earlier.** -/
theorem parse_append {s t : Text} (hs : ∀ c ∈ s, isBlank c = false) (ht : ∀ c ∈ t, isBlank c = false)
    (hdash : t.head? ≠ some '-') : parse (s ++ t) = (parse s).merge (parse t) := by
  have hst : ∀ c ∈ s ++ t, isBlank c = false := fun c hc => (List.mem_append.1 hc).elim (hs c) (ht c)
  rw [parse, parse, parse, Text.trim_of_not_blank hst, Text.trim_of_not_blank hs, Text.trim_of_not_blank ht]
  exact parseTrimmed_append s hdash

/-! ## One letter -/

/-- The letter that says of an attribute that it is on or off. -/
def mark (a : Attribute) (on : Bool) : Char := if on then a.letter else a.letter.toLower

theorem ofLetter?_mark (a : Attribute) (on : Bool) : Attribute.ofLetter? (mark a on) = some a := by
  cases a <;> cases on <;> rfl

theorem isUpper_mark (a : Attribute) (on : Bool) : (mark a on).isUpper = on := by
  cases a <;> cases on <;> rfl

theorem apply_mark (f : Flags) (a : Attribute) (on : Bool) : f.apply (mark a on) = f.set a on := by
  rw [apply, ofLetter?_mark]
  exact congrArg (f.set a) (isUpper_mark a on)

theorem isBlank_mark (a : Attribute) (on : Bool) : isBlank (mark a on) = false := by
  cases a <;> cases on <;> rfl

theorem mark_ne_dash (a : Attribute) (on : Bool) : mark a on ≠ '-' := by
  cases a <;> cases on <;> decide

/-! ## Written letters -/

/-- The letters that are written for some attributes. -/
def lettersOf (f : Flags) (as : List Attribute) : Text := as.filterMap fun a => (f.get a).map (mark a)

theorem letters_eq_lettersOf (f : Flags) : f.letters = f.lettersOf Attribute.all := rfl

theorem exists_mark_of_mem_letters {f : Flags} {c : Char} (h : c ∈ f.letters) : ∃ a on, c = mark a on := by
  obtain ⟨a, -, hmark⟩ := List.mem_filterMap.1 h
  obtain ⟨on, -, rfl⟩ := Option.map_eq_some_iff.1 hmark
  exact ⟨a, on, rfl⟩

theorem lettersOf_cons (f : Flags) (a : Attribute) (as : List Attribute) :
    f.lettersOf (a :: as) = ((f.get a).map (mark a)).toList ++ f.lettersOf as := by
  rw [lettersOf]
  cases hmark : (f.get a).map (mark a) with
  | none => exact List.filterMap_cons_none hmark
  | some c => exact List.filterMap_cons_some hmark

/-- The letter for an attribute, where there is one, says of it what the flags say, and nothing of the others. -/
theorem get_applyAll_mark (f : Flags) (a b : Attribute) :
    (none.applyAll ((f.get a).map (mark a)).toList).get b = if b = a then f.get b else .none := by
  cases ha : f.get a with
  | none =>
    split
    next hb => rw [hb, ha]; rfl
    next => rfl
  | some on =>
    have hread : none.applyAll [mark a on] = none.set a on := none.apply_mark a on
    rw [Option.map_some, Option.toList_some, hread, get_set]
    split
    next hb => rw [hb, ha]
    next => rfl

/-- The letters for some attributes say of these what the flags say, and nothing of the others. -/
theorem get_applyAll_lettersOf (f : Flags) (as : List Attribute) (b : Attribute) :
    (none.applyAll (f.lettersOf as)).get b = if b ∈ as then f.get b else .none := by
  induction as with
  | nil => rfl
  | cons a as ih =>
    rw [lettersOf_cons, applyAll_append, get_merge, ih, get_applyAll_mark]
    by_cases hb : b = a
    · rw [if_pos hb, if_pos (List.mem_cons.2 (.inl hb))]
      -- the attribute may be listed again, and then its letter is written again
      split
      next => exact Option.or_self
      next => exact Option.none_or
    · simp only [hb, if_false, Option.or_none, List.mem_cons, false_or]

theorem applyAll_letters (f : Flags) : none.applyAll f.letters = f := by
  ext1
  funext a
  rw [letters_eq_lettersOf, get_applyAll_lettersOf, if_pos a.mem_all]

/-- **The letters of flags say what the flags say.** -/
theorem parse_letters (f : Flags) : parse f.letters = f := by
  have hblank : ∀ c ∈ f.letters, isBlank c = false := by
    intro c hc
    obtain ⟨a, on, rfl⟩ := exists_mark_of_mem_letters hc
    exact isBlank_mark a on
  have hdash : f.letters.head? ≠ some '-' := by
    intro h
    obtain ⟨a, on, hmark⟩ := exists_mark_of_mem_letters (List.mem_of_mem_head? h)
    exact mark_ne_dash a on hmark.symm
  rw [parse, Text.trim_of_not_blank hblank, parseTrimmed_eq, if_neg hdash, applyAll_letters]

/-! ## Segments -/

/-- **Reading flags turns appending into merging, and has a normal form.** Of two segments without blanks one may be
read after the other, unless the second has a dash in front. What a segment says is read again from the letters that are
written for it, and there is a segment for all flags. -/
theorem parse_append_letters :
    (∀ s t : Text, (∀ c ∈ s, isBlank c = false) → (∀ c ∈ t, isBlank c = false) → t.head? ≠ some '-' →
        parse (s ++ t) = (parse s).merge (parse t)) ∧
      (∀ s : Text, parse (parse s).letters = parse s) ∧
      Function.Surjective parse :=
  ⟨fun _ _ hs ht hdash => parse_append hs ht hdash, fun s => parse_letters (parse s),
    fun f => ⟨f.letters, parse_letters f⟩⟩

/-- The dash in front of the first part switches everything off, the one inside the second part says nothing. -/
theorem parse_append_letters_dash :
    let s := "-Bx".toList
    let t := "b-Uu?D".toList
    (∀ c ∈ s, isBlank c = false) ∧ (∀ c ∈ t, isBlank c = false) ∧ t.head? ≠ some '-' ∧
      parse (s ++ t) = (parse s).merge (parse t) ∧
      (parse (s ++ t)).letters = "bDulrsih".toList ∧
      parse (parse (s ++ t)).letters = parse (s ++ t) := by
  intro s t
  have hs : ∀ c ∈ s, isBlank c = false := by decide
  have ht : ∀ c ∈ t, isBlank c = false := by decide
  have hdash : t.head? ≠ some '-' := by decide
  obtain ⟨happend, hletters, -⟩ := parse_append_letters
  exact ⟨hs, ht, hdash, happend s t hs ht hdash, by decide, hletters (s ++ t)⟩

end Flags
end TerminalMarkup
