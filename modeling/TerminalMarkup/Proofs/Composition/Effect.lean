import Mathlib.Data.List.Infix
import TerminalMarkup.Proofs.Composition.Merge
import TerminalMarkup.Proofs.Style.Flags

/-!
# What compacted flags say

The letters of style codes are appended to each other, and of the letters for one attribute only the last is kept. What
the letters say stays the same (`Flags.applyAll_compactLetters`). What a dash says does not: when all letters in front
of a dash are dropped the dash comes to stand in front, and from then on it clears every attribute.

* `Composition.Uncovers` are the texts in which compaction brings a dash to the front (`head?_compactLetters_iff`), and
  `Composition.Exposed` the lists of flags segments among which appending does (`head?_appendAll_iff`).
* A composition of style codes says of the attributes what the codes say one after the other, and in addition that all
  others are off if a dash has been exposed (`Composition.parse_appendAll`). So the composition keeps the effect of its
  codes if none is, or if no attribute is left open, and only then (`Composition.flags_style_ofCodes_iff`).
-/

namespace TerminalMarkup

namespace Flags

/-! ## Letters -/

/-- Letters that are kept apart by nothing but their case name the same attribute. -/
theorem ofLetter?_eq_of_sameLetter {a b : Char} (h : Composition.sameLetter a b = true) :
    Attribute.ofLetter? a = Attribute.ofLetter? b := by
  have htoUpper (c : Char) : c.toLower.toUpper = c.toUpper := by
    refine Char.ext ?_
    unfold Char.toLower
    split
    next hc =>
      have hlower : ¬ ('a'.val ≤ c.val ∧ c.val ≤ 'z'.val) := by grind
      unfold Char.toUpper
      simp only [hlower, dif_neg, not_false_eq_true]
      split
      · grind
      · grind
    · rfl
  have hupper : a.toUpper = b.toUpper := by rw [← htoUpper a, Composition.sameLetter_iff.1 h, htoUpper b]
  rw [Attribute.ofLetter?, Attribute.ofLetter?, hupper]

/-- Letters say something of the attributes that they name. -/
theorem get_applyAll_ne_none {s : Text} {c : Char} {a : Attribute} (hc : c ∈ s)
    (ha : Attribute.ofLetter? c = some a) (f : Flags) : (f.applyAll s).get a ≠ .none := by
  obtain ⟨l, r, rfl⟩ := List.append_of_mem hc
  have hset : (f.applyAll l).apply c = (f.applyAll l).set a c.isUpper := by rw [apply, ha]
  have hsplit : f.applyAll (l ++ c :: r) = ((f.applyAll l).set a c.isUpper).merge (none.applyAll r) := by
    rw [← applyAll_eq_merge, ← hset, applyAll, List.foldl_append, List.foldl_cons, applyAll, applyAll]
  rw [hsplit, get_merge, get_set, if_pos rfl]
  cases (none.applyAll r).get a with
  | none => simp
  | some on => simp

/-- A letter says nothing that a later letter for its attribute does not say again. -/
theorem applyAll_cons_of_any {c : Char} {s : Text} (h : s.any (Composition.sameLetter c) = true) (f : Flags) :
    f.applyAll (c :: s) = f.applyAll s := by
  obtain ⟨d, hd, hcd⟩ := List.any_eq_true.1 h
  have hletter := ofLetter?_eq_of_sameLetter hcd
  have hcons : f.applyAll (c :: s) = (f.apply c).applyAll s := rfl
  rw [hcons]
  cases hc : Attribute.ofLetter? c with
  | none => rw [apply, hc]
  | some a =>
    have hlater := get_applyAll_ne_none hd (hletter ▸ hc) none
    rw [apply, hc, applyAll_eq_merge (f.set a c.isUpper), applyAll_eq_merge f]
    ext1
    funext b
    rw [get_merge, get_merge]
    by_cases hb : b = a
    · obtain ⟨on, hon⟩ := Option.ne_none_iff_exists'.1 hlater
      rw [hb, hon, Option.some_or, Option.some_or]
    · rw [get_set, if_neg hb]

/-- **Compaction keeps what the letters say.** -/
theorem applyAll_compactLetters (f : Flags) (s : Text) : f.applyAll (Composition.compactLetters s) = f.applyAll s := by
  induction s generalizing f with
  | nil => rfl
  | cons c s ih =>
    rw [Composition.compactLetters_cons]
    split
    next h => rw [ih, applyAll_cons_of_any h]
    · exact ih (f.apply c)

/-! ## A dash in front -/

theorem merge_allOff_merge (f g : Flags) : f.merge (allOff.merge g) = allOff.merge g := by
  rw [← merge_assoc]
  rfl

theorem allOff_merge_eq_iff {f : Flags} : allOff.merge f = f ↔ ∀ a, f.get a ≠ .none := by
  constructor
  · intro h a ha
    have hoff := congrArg (fun g => g.get a) h
    simp [allOff, ha] at hoff
  · intro h
    ext1
    funext a
    obtain ⟨on, hon⟩ := Option.ne_none_iff_exists'.1 (h a)
    rw [get_merge, hon, Option.some_or]

/-- What flags segments say one after the other. -/
def parseAll (segs : List Text) : Flags := segs.foldl (fun f s => f.merge (parseTrimmed s)) none

theorem parseAll_concat (segs : List Text) (s : Text) :
    parseAll (segs ++ [s]) = (parseAll segs).merge (parseTrimmed s) := by
  rw [parseAll, List.foldl_append, List.foldl_cons, List.foldl_nil, parseAll]

end Flags

namespace Composition

/-! ## Exposed dashes -/

theorem eq_dash_of_sameLetter {c : Char} (h : sameLetter c '-' = true) : c = '-' := by
  have hlower : c.toLower = '-' := sameLetter_iff.1 h
  unfold Char.toLower at hlower
  split at hlower
  · have := congrArg Char.val hlower
    grind
  · exact hlower

/-- The text has a dash such that every letter in front of the last dash is given again from there on. -/
def Uncovers (s : Text) : Prop :=
  ∃ x y, s = x ++ '-' :: y ∧ '-' ∉ y ∧ ∀ c ∈ x, ('-' :: y).any (sameLetter c) = true

theorem not_uncovers_nil : ¬ Uncovers [] := by
  rintro ⟨x, y, h, -⟩
  exact absurd h.symm (List.append_ne_nil_of_right_ne_nil x (List.cons_ne_nil _ _))

/-- A letter that is given again makes no difference. -/
theorem uncovers_cons_of_any {c : Char} {s : Text} (h : s.any (sameLetter c) = true) :
    Uncovers (c :: s) ↔ Uncovers s := by
  constructor
  · rintro ⟨x, y, hs, hy, hx⟩
    cases x with
    | cons d x =>
      rw [List.cons_append, List.cons.injEq] at hs
      exact ⟨x, y, hs.2, hy, fun e he => hx e (List.mem_cons_of_mem d he)⟩
    | nil =>
      -- the last dash is not given again
      rw [List.nil_append, List.cons.injEq] at hs
      obtain ⟨rfl, rfl⟩ := hs
      obtain ⟨e, he, hde⟩ := List.any_eq_true.1 h
      have hdash : e = '-' := eq_dash_of_sameLetter (sameLetter_iff.2 (sameLetter_iff.1 hde).symm)
      exact absurd (hdash ▸ he) hy
  · rintro ⟨x, y, rfl, hy, hx⟩
    refine ⟨c :: x, y, rfl, hy, fun d hd => ?_⟩
    rcases List.mem_cons.1 hd with rfl | hd
    · obtain ⟨e, he, hde⟩ := List.any_eq_true.1 h
      rcases List.mem_append.1 he with he | he
      · -- the later letter is given once more
        obtain ⟨e', he', hee'⟩ := List.any_eq_true.1 (hx e he)
        exact List.any_eq_true.2 ⟨e', he', sameLetter_iff.2 ((sameLetter_iff.1 hde).trans (sameLetter_iff.1 hee'))⟩
      · exact List.any_eq_true.2 ⟨e, he, hde⟩
    · exact hx d hd

/-- In front of a letter that is kept a dash is not uncovered. -/
theorem uncovers_cons_of_not_any {c : Char} {s : Text} (h : ¬ s.any (sameLetter c) = true) :
    Uncovers (c :: s) ↔ c = '-' := by
  constructor
  · rintro ⟨x, y, hs, -, hx⟩
    cases x with
    | nil => exact (List.cons.inj hs).1
    | cons d x =>
      rw [List.cons_append, List.cons.injEq] at hs
      obtain ⟨rfl, rfl⟩ := hs
      obtain ⟨e, he, hde⟩ := List.any_eq_true.1 (hx c List.mem_cons_self)
      exact absurd (List.any_eq_true.2 ⟨e, List.mem_append_right x he, hde⟩) h
  · rintro rfl
    refine ⟨[], s, rfl, fun hm => h ?_, fun c hc => absurd hc List.not_mem_nil⟩
    exact List.any_eq_true.2 ⟨'-', hm, sameLetter_iff.2 rfl⟩

/-- Compaction brings a dash to the front just where all letters before it are dropped. -/
theorem head?_compactLetters_iff (s : Text) : (compactLetters s).head? = some '-' ↔ Uncovers s := by
  induction s with
  | nil => exact iff_of_false (by simp) not_uncovers_nil
  | cons c s ih =>
    rw [compactLetters_cons]
    split
    next h => rw [ih, uncovers_cons_of_any h]
    next h => rw [List.head?_cons, Option.some_inj, uncovers_cons_of_not_any h]

instance (s : Text) : Decidable (Uncovers s) := decidable_of_iff _ (head?_compactLetters_iff s)

/-- Flags segments without a dash in front that, up to one of them, uncover a dash. -/
def Exposed (segs : List Text) : Prop :=
  ∃ pre, pre <+: segs ∧ (∀ s ∈ pre, s.head? ≠ some '-') ∧ Uncovers pre.flatten

instance (segs : List Text) : Decidable (Exposed segs) :=
  decidable_of_iff (∃ pre ∈ segs.inits, (∀ s ∈ pre, s.head? ≠ some '-') ∧ Uncovers pre.flatten) (by
    simp only [List.mem_inits, Exposed])

theorem exposed_concat {segs : List Text} {s : Text} :
    Exposed (segs ++ [s]) ↔
      Exposed segs ∨ (∀ t ∈ segs ++ [s], t.head? ≠ some '-') ∧ Uncovers (segs ++ [s]).flatten := by
  constructor
  · rintro ⟨pre, hpre, hhead, hun⟩
    rcases List.prefix_concat_iff.1 hpre with rfl | hpre
    · exact .inr ⟨hhead, hun⟩
    · exact .inl ⟨pre, hpre, hhead, hun⟩
  · rintro (⟨pre, hpre, hhead, hun⟩ | ⟨hhead, hun⟩)
    · exact ⟨pre, hpre.trans (List.prefix_append segs [s]), hhead, hun⟩
    · exact ⟨segs ++ [s], List.prefix_refl _, hhead, hun⟩

/-! ## Segments one after the other -/

/-- Some segment has a dash in front. -/
def Clears (segs : List Text) : Prop := ∃ s ∈ segs, s.head? = some '-'

instance (segs : List Text) : Decidable (Clears segs) := inferInstanceAs (Decidable (∃ s ∈ segs, _))

theorem clears_concat {segs : List Text} {s : Text} :
    Clears (segs ++ [s]) ↔ Clears segs ∨ s.head? = some '-' := by
  simp only [Clears, List.mem_append, List.mem_singleton]
  constructor
  · rintro ⟨t, ht | rfl, hd⟩
    · exact .inl ⟨t, ht, hd⟩
    · exact .inr hd
  · rintro (⟨t, ht, hd⟩ | hd)
    · exact ⟨t, .inl ht, hd⟩
    · exact ⟨s, .inr rfl, hd⟩

/-- The flags after segments that are appended one after the other. -/
def appendAll (segs : List Text) : Text := segs.foldl appendFlags []

theorem appendAll_concat (segs : List Text) (s : Text) :
    appendAll (segs ++ [s]) = appendFlags (appendAll segs) s := by
  rw [appendAll, List.foldl_append, List.foldl_cons, List.foldl_nil, appendAll]

/-- Letters behind flags: a dash in front of the flags stays there. -/
theorem appendFlags_letters {f s : Text} (hne : s ≠ []) (hs : s.head? ≠ some '-') :
    appendFlags f s
      = if f.head? = some '-' then '-' :: compactLetters (f.tail ++ s) else compactLetters (f ++ s) := by
  unfold appendFlags
  split
  · exact absurd rfl hne
  · exact absurd rfl hs
  · cases f with
    | nil =>
      rw [if_neg (by simp)]
      exact compactFlags_of_head?_ne hs
    | cons c f =>
      by_cases hc : c = '-'
      · subst hc
        rw [if_pos List.head?_cons]
        rfl
      · have hhead : (c :: f).head? ≠ some '-' := fun h => hc (Option.some.inj h)
        rw [if_neg hhead]
        exact compactFlags_of_head?_ne hhead

theorem head?_appendFlags {f s : Text} (hf : f.head? = some '-') : (appendFlags f s).head? = some '-' := by
  by_cases hne : s = []
  · subst hne
    exact hf
  · by_cases hs : s.head? = some '-'
    · obtain ⟨t, rfl⟩ := List.head?_eq_some_iff.1 hs
      rfl
    · rw [appendFlags_letters hne hs, if_pos hf]
      rfl

theorem appendAll_concat_of_letters {segs : List Text} {s : Text}
    (h : appendAll segs = compactLetters segs.flatten) (hun : ¬ Uncovers segs.flatten) (hs : s.head? ≠ some '-') :
    appendAll (segs ++ [s]) = compactLetters (segs ++ [s]).flatten := by
  rw [appendAll_concat, List.flatten_concat]
  by_cases hne : s = []
  · rw [hne, appendFlags_nil, List.append_nil, h]
  · have hhead : (appendAll segs).head? ≠ some '-' := by
      rw [h]
      exact fun hd => hun ((head?_compactLetters_iff _).1 hd)
    rw [appendFlags_letters hne hs, if_neg hhead, h, compactLetters_append_left]

/-- As long as no dash stands in front, the letters are compacted as if they were one segment. -/
theorem appendAll_of_not_exposed {segs : List Text} (hc : ¬ Clears segs) (he : ¬ Exposed segs) :
    appendAll segs = compactLetters segs.flatten ∧ ¬ Uncovers segs.flatten := by
  have hun : ¬ Uncovers segs.flatten := fun hun =>
    he ⟨segs, List.prefix_refl segs, fun s hs hd => hc ⟨s, hs, hd⟩, hun⟩
  refine ⟨?_, hun⟩
  induction segs using List.reverseRecOn with
  | nil => rfl
  | append_singleton segs s ih =>
    obtain ⟨hc', hs⟩ := not_or.1 (mt clears_concat.2 hc)
    obtain ⟨he', -⟩ := not_or.1 (mt exposed_concat.2 he)
    have hun' : ¬ Uncovers segs.flatten := fun hun =>
      he' ⟨segs, List.prefix_refl segs, fun s hs hd => hc' ⟨s, hs, hd⟩, hun⟩
    exact appendAll_concat_of_letters (ih hc' he' hun') hun' hs

/-- Flags have a dash in front if a segment has one or if one has been exposed. The induction is on the segments from
the last one on. -/
theorem head?_appendAll_iff (segs : List Text) :
    (appendAll segs).head? = some '-' ↔ Clears segs ∨ Exposed segs := by
  induction segs using List.reverseRecOn with
  | nil => decide
  | append_singleton segs s ih =>
    by_cases h : Clears segs ∨ Exposed segs
    · have hright : Clears (segs ++ [s]) ∨ Exposed (segs ++ [s]) :=
        h.imp (fun hc => clears_concat.2 (.inl hc)) fun he => exposed_concat.2 (.inl he)
      rw [appendAll_concat]
      exact iff_of_true (head?_appendFlags (ih.2 h)) hright
    · obtain ⟨hc, he⟩ := not_or.1 h
      by_cases hs : s.head? = some '-'
      · obtain ⟨t, rfl⟩ := List.head?_eq_some_iff.1 hs
        rw [appendAll_concat]
        exact iff_of_true rfl (.inl (clears_concat.2 (.inr hs)))
      · obtain ⟨hall, hun⟩ := appendAll_of_not_exposed hc he
        have hclears : ¬ Clears (segs ++ [s]) := fun hc' => (clears_concat.1 hc').elim hc hs
        have hheads : ∀ t ∈ segs ++ [s], t.head? ≠ some '-' := fun t ht hd => hclears ⟨t, ht, hd⟩
        rw [appendAll_concat_of_letters hall hun hs, head?_compactLetters_iff, exposed_concat]
        exact ⟨fun hun' => .inr (.inr ⟨hheads, hun'⟩), fun h' => ((h'.resolve_left hclears).resolve_left he).2⟩

/-! ## What the flags say -/

theorem applyAll_appendFlags {f s : Text} (hs : s.head? ≠ some '-') :
    Flags.none.applyAll (appendFlags f s) = (Flags.none.applyAll f).merge (Flags.none.applyAll s) := by
  by_cases hne : s = []
  · subst hne
    exact (Flags.merge_none _).symm
  · rw [appendFlags_letters hne hs]
    split
    next hf =>
      obtain ⟨g, rfl⟩ := List.head?_eq_some_iff.1 hf
      rw [Flags.applyAll_dash, Flags.applyAll_compactLetters, Flags.applyAll_append, Flags.applyAll_dash,
        List.tail_cons]
    · rw [Flags.applyAll_compactLetters, Flags.applyAll_append]

/-- What the segments say is what the letters of the flags say, after everything has been switched off if a segment has
a dash in front. -/
theorem parseAll_eq (segs : List Text) :
    Flags.parseAll segs = if Clears segs then Flags.allOff.merge (Flags.none.applyAll (appendAll segs))
      else Flags.none.applyAll (appendAll segs) := by
  induction segs using List.reverseRecOn with
  | nil => rfl
  | append_singleton segs s ih =>
    rw [Flags.parseAll_concat, appendAll_concat, Flags.parseTrimmed_eq]
    by_cases hs : s.head? = some '-'
    · obtain ⟨t, rfl⟩ := List.head?_eq_some_iff.1 hs
      rw [if_pos hs, if_pos (clears_concat.2 (.inr hs)), Flags.merge_allOff_merge, appendFlags_dash,
        Flags.applyAll_dash, Flags.applyAll_dash, Flags.applyAll_compactLetters]
    · have hiff : Clears (segs ++ [s]) ↔ Clears segs := clears_concat.trans (or_iff_left hs)
      rw [if_neg hs, ih, applyAll_appendFlags hs]
      simp only [hiff]
      split
      · rw [Flags.merge_assoc]
      · rfl

/-- **The flags say what the segments say, and that all else is off if a dash has been exposed.** -/
theorem parse_appendAll (segs : List Text) :
    Flags.parseTrimmed (appendAll segs)
      = if Exposed segs then Flags.allOff.merge (Flags.parseAll segs) else Flags.parseAll segs := by
  rw [Flags.parseTrimmed_eq, parseAll_eq]
  simp only [head?_appendAll_iff]
  by_cases hc : Clears segs
  · rw [if_pos (.inl hc), if_pos hc, Flags.merge_allOff_merge, ite_self]
  · simp only [hc, false_or, if_false]

/-! ## Style codes -/

/-- The fields of a style code have no blanks around them. -/
theorem trim_field_of_isCode {code : Text} (h : Token.isCode code = true) (i : Nat) :
    ((Text.fields ':' code)[i]?.getD []).trim = (Text.fields ':' code)[i]?.getD [] := by
  cases hf : (Text.fields ':' code)[i]? with
  | none => rfl
  | some f =>
    refine Text.trim_of_not_blank fun c hc => Token.isBlank_of_isCodeChar ?_
    have hc : c ∈ code := (Text.mem_of_mem_fields (List.mem_of_getElem? hf) hc).1
    exact (Token.isCode_iff.1 h).2 c hc

/-- The flags segment of a style code; the one that resets everything counts as a dash. -/
def flagsSegment (code : Text) : Text := if code = ['-'] then ['-'] else (Text.fields ':' code)[2]?.getD []

theorem flags_read {code : Text} (h : Token.isCode code = true) : (read code).flags = flagsSegment code := by
  rw [read, Token.trim_of_isCode h, flagsSegment]
  split
  · rfl
  · exact trim_field_of_isCode h 2

/-- The flags of a composition are the flags segments of its codes, appended one after the other. -/
theorem flags_ofCodes {codes : List Text} (h : ∀ code ∈ codes, Token.isCode code = true) :
    (ofCodes codes).flags = appendAll (codes.map flagsSegment) := by
  induction codes using List.reverseRecOn with
  | nil => rfl
  | append_singleton codes code ih =>
    have hcode : Token.isCode code = true := h code (List.mem_append_right codes List.mem_cons_self)
    have hcodes : ∀ code ∈ codes, Token.isCode code = true := fun code hm => h code (List.mem_append_left _ hm)
    have hlast : ofCodes (codes ++ [code]) = (ofCodes codes).lay (read code) := by
      rw [ofCodes, List.foldl_append, List.foldl_cons, List.foldl_nil, overlay_eq_lay, ofCodes]
    rw [List.map_append, List.map_singleton, appendAll_concat, ← ih hcodes, ← flags_read hcode, hlast]
    rfl

/-- The style of a composition has the flags that its letters say. -/
theorem flags_style {c : Composition} (h : c.Clean) : c.style.flags = Flags.parseTrimmed c.flags := by
  have hflags : c.style.flags = Flags.parse c.flags := by
    rw [style, Style.parse, h.trim_code, if_neg c.code_ne_dash, h.fields_code]
    rfl
  rw [hflags, Flags.parse, h.flags.trim]

end Composition

/-- What a style code says of the attributes; the one that resets everything says that all are off. -/
def Flags.ofCode (code : Text) : Flags :=
  if code = ['-'] then .allOff else .parse ((Text.fields ':' code)[2]?.getD [])

/-- What style codes say of the attributes, from left to right. -/
def Flags.ofCodes (codes : List Text) : Flags := codes.foldl (fun f code => f.merge (.ofCode code)) .none

namespace Composition

theorem parseTrimmed_flagsSegment {code : Text} (h : Token.isCode code = true) :
    Flags.parseTrimmed (flagsSegment code) = Flags.ofCode code := by
  unfold flagsSegment Flags.ofCode
  split
  · rfl
  · rw [Flags.parse, trim_field_of_isCode h]

theorem parseAll_flagsSegment {codes : List Text} (h : ∀ code ∈ codes, Token.isCode code = true) :
    Flags.parseAll (codes.map flagsSegment) = Flags.ofCodes codes := by
  rw [Flags.parseAll, List.foldl_map, Flags.ofCodes]
  refine List.foldl_ext _ _ _ fun f code hm => ?_
  rw [parseTrimmed_flagsSegment (h code hm)]

/-- Compaction keeps what flags say, and says in addition that all else is off if it brings a dash to the front. -/
theorem parseTrimmed_compactFlags (s : Text) :
    Flags.parseTrimmed (compactFlags s)
      = if s.head? ≠ some '-' ∧ Uncovers s then Flags.allOff.merge (Flags.parseTrimmed s)
        else Flags.parseTrimmed s := by
  by_cases hs : s.head? = some '-'
  · obtain ⟨t, rfl⟩ := List.head?_eq_some_iff.1 hs
    rw [if_neg fun h => h.1 hs]
    exact Flags.applyAll_compactLetters Flags.allOff t
  · have hcompact : compactFlags s = compactLetters s := compactFlags_of_head?_ne hs
    rw [hcompact, Flags.parseTrimmed_eq, Flags.applyAll_compactLetters, Flags.parseTrimmed_eq s, if_neg hs]
    simp only [head?_compactLetters_iff, hs, ne_eq, not_false_eq_true, true_and]

/-- **A composition of style codes has the flags that the codes say one after the other just where no dash has been
exposed or no attribute is left open.** The same holds of compacting a flags segment. -/
theorem flags_style_ofCodes_iff {codes : List Text} (hcodes : ∀ code ∈ codes, Token.isCode code = true) {s : Text}
    (hs : ∀ c ∈ s, isBlank c = false) :
    ((ofCodes codes).style.flags = Flags.ofCodes codes ↔
        (Exposed (codes.map flagsSegment) → ∀ a, (Flags.ofCodes codes).get a ≠ none)) ∧
      (Flags.parse (compactFlags s) = Flags.parse s ↔
        (s.head? ≠ some '-' ∧ Uncovers s → ∀ a, (Flags.parse s).get a ≠ none)) := by
  have hcut {p : Prop} [Decidable p] (f : Flags) :
      (if p then Flags.allOff.merge f else f) = f ↔ (p → ∀ a, f.get a ≠ none) := by
    split
    next hp => exact Flags.allOff_merge_eq_iff.trans ⟨fun h _ => h, fun h => h hp⟩
    next hp => exact iff_of_true rfl fun h => absurd h hp
  constructor
  · have hclean : (ofCodes codes).Clean := clean_foldl_overlay clean_empty hcodes
    rw [flags_style hclean, flags_ofCodes hcodes, parse_appendAll, parseAll_flagsSegment hcodes]
    exact hcut _
  · have hcompact : ∀ c ∈ compactFlags s, isBlank c = false := fun c hc => hs c (mem_of_mem_compactFlags hc)
    rw [Flags.parse, Flags.parse, Text.trim_of_not_blank hcompact, Text.trim_of_not_blank hs,
      parseTrimmed_compactFlags]
    exact hcut _

/-- A dash inside the flags says nothing as long as a letter in front of it is kept. -/
theorem flags_style_ofCodes_red_blue :
    ¬ Exposed (["red::BU-".toList, ":blue:u".toList].map flagsSegment) ∧
      (ofCodes ["red::BU-".toList, ":blue:u".toList]).style.flags
        = Flags.ofCodes ["red::BU-".toList, ":blue:u".toList] ∧
      Flags.parse (compactFlags "BU-u".toList) = Flags.parse "BU-u".toList := by
  have hexposed : ¬ Exposed (["red::BU-".toList, ":blue:u".toList].map flagsSegment) := by decide
  have huncovers : ¬ Uncovers "BU-u".toList := by decide
  have hblank : ∀ c ∈ "BU-u".toList, isBlank c = false := by decide
  obtain ⟨hstyle, hcompact⟩ := flags_style_ofCodes_iff
    (by decide : ∀ code ∈ ["red::BU-".toList, ":blue:u".toList], Token.isCode code = true) hblank
  refine ⟨hexposed, ?_, ?_⟩
  · exact hstyle.2 fun h => absurd h hexposed
  · exact hcompact.2 fun h => absurd h.2 huncovers

/-- The code switches bold off. As its first letter is dropped, the composition switches everything off. -/
theorem flags_style_ofCodes_ne :
    Token.isCode "::B-b".toList = true ∧
      Flags.ofCodes ["::B-b".toList] = Flags.none.set .bold false ∧
      (ofCodes ["::B-b".toList]).style.flags = .allOff ∧
      (ofCodes ["::B-b".toList]).style.flags ≠ Flags.ofCodes ["::B-b".toList] ∧
      Flags.parse (compactFlags "B-b".toList) ≠ Flags.parse "B-b".toList := by
  decide

end Composition
end TerminalMarkup
