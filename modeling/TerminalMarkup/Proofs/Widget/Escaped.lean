import TerminalMarkup.Proofs.Widget.Group

/-!
# Reading escaped text back

Escaping writes the group `[abc]` as `[abc[]`, and leaves `[abc[]` as it is, for this is no group. So the escaped text
tells what the text was, except for which of its groups had been escaped before.

* A text is made of groups, escaped groups, other opening brackets and other characters (`Widget.groups_induction`).
* `Widget.unescapeBrackets` writes escaped groups as groups. It undoes escaping
  (`Widget.unescapeBrackets_escapeBrackets`), and escaping undoes it (`Widget.escapeBrackets_unescapeBrackets`).
* Therefore texts have the same escaped form just when they are the same once their escaped groups are read back
  (`Widget.escapeBrackets_eq_iff`).
-/

namespace TerminalMarkup

namespace Widget

/-! ## Escaped groups -/

/-- The content of an escaped group, and what follows the group, in the text after an opening bracket. -/
def escapedBody? (s : Text) : Option (Text × Text) :=
  match s.dropWhile isGroupChar with
  | '[' :: ']' :: rest => if s.takeWhile isGroupChar = [] then none else some (s.takeWhile isGroupChar, rest)
  | _ => none

/-- Some escaped group lies in the text. -/
def HasEscaped (s : Text) : Prop := ∃ pre body rest, IsBody body ∧ s = pre ++ '[' :: (body ++ '[' :: ']' :: rest)

theorem escapedBody?_eq_some_iff {s body rest : Text} :
    escapedBody? s = some (body, rest) ↔ IsBody body ∧ s = body ++ '[' :: ']' :: rest := by
  constructor
  · intro h
    unfold escapedBody? at h
    split at h
    next hd =>
      split at h
      · cases h
      next hne =>
        cases h
        refine ⟨⟨hne, List.all_eq_true.1 List.all_takeWhile⟩, ?_⟩
        rw [← hd, List.takeWhile_append_dropWhile]
    · cases h
  · rintro ⟨⟨hne, hbody⟩, rfl⟩
    have htake : (body ++ '[' :: ']' :: rest).takeWhile isGroupChar = body := hbody.takeWhile_append (by decide) _
    have hdrop : (body ++ '[' :: ']' :: rest).dropWhile isGroupChar = '[' :: ']' :: rest := by
      rw [List.dropWhile_append_of_pos hbody, List.dropWhile_cons_of_neg (by decide)]
    simp only [escapedBody?, htake, hdrop, if_neg hne]

/-- The content of a group is followed by one bracket only. -/
theorem escapedBody?_group {body : Text} (h : IsBody body) (rest : Text) :
    escapedBody? (body ++ ']' :: rest) = none := by
  rw [Option.eq_none_iff_forall_ne_some]
  rintro ⟨b, r⟩ hb
  obtain ⟨⟨-, hb⟩, he⟩ := escapedBody?_eq_some_iff.1 hb
  exact absurd (h.2.append_inj hb (by decide) (by decide) he).2.1 (by decide)

/-- **What a text is made of**: a text begins with a character that is no opening bracket, with a group, with an escaped
group or with an opening bracket of neither, and the rest is made of the same. -/
theorem groups_induction {P : Text → Prop} (nil : P []) (char : ∀ {c : Char} {s : Text}, c ≠ '[' → P s → P (c :: s))
    (group : ∀ {body rest : Text}, IsBody body → P rest → P ('[' :: (body ++ ']' :: rest)))
    (escaped : ∀ {body rest : Text}, IsBody body → P rest → P ('[' :: (body ++ '[' :: ']' :: rest)))
    (bracket : ∀ {s : Text}, groupBody? s = none → escapedBody? s = none → P s → P ('[' :: s)) (s : Text) : P s := by
  induction hn : s.length using Nat.strong_induction_on generalizing s with
  | _ n ih =>
    subst hn
    cases s with
    | nil => exact nil
    | cons c s =>
      by_cases hc : c = '['
      · subst hc
        cases hg : groupBody? s with
        | some found =>
          obtain ⟨hbody, rfl⟩ := groupBody?_eq_some_iff.1 hg
          exact group hbody (ih _ (by simp; omega) _ rfl)
        | none =>
          cases he : escapedBody? s with
          | some found =>
            obtain ⟨hbody, rfl⟩ := escapedBody?_eq_some_iff.1 he
            exact escaped hbody (ih _ (by simp; omega) _ rfl)
          | none => exact bracket hg he (ih _ (by simp) _ rfl)
      · exact char hc (ih _ (by simp) _ rfl)

/-! ## Reading escaped groups -/

/-- Writes the escaped groups of a text as groups. -/
def unescapeBrackets : Text → Text
  | [] => []
  | c :: s =>
    if c = '[' then
      match _h : escapedBody? s with
      | some (body, rest) => '[' :: (body ++ ']' :: unescapeBrackets rest)
      | none => '[' :: unescapeBrackets s
    else c :: unescapeBrackets s
termination_by s => s.length
decreasing_by
  · rw [(escapedBody?_eq_some_iff.1 _h).2]
    simp
    omega
  all_goals simp

theorem unescapeBrackets_cons {c : Char} (h : c ≠ '[') (s : Text) :
    unescapeBrackets (c :: s) = c :: unescapeBrackets s := by
  rw [unescapeBrackets, if_neg h]

theorem unescapeBrackets_escaped {body : Text} (h : IsBody body) (rest : Text) :
    unescapeBrackets ('[' :: (body ++ '[' :: ']' :: rest)) = '[' :: (body ++ ']' :: unescapeBrackets rest) := by
  have hbody : escapedBody? (body ++ '[' :: ']' :: rest) = some (body, rest) := escapedBody?_eq_some_iff.2 ⟨h, rfl⟩
  rw [unescapeBrackets, if_pos rfl]
  split
  next h' =>
    rw [hbody] at h'
    cases h'
    rfl
  next h' =>
    rw [hbody] at h'
    cases h'

theorem unescapeBrackets_bracket {s : Text} (h : escapedBody? s = none) :
    unescapeBrackets ('[' :: s) = '[' :: unescapeBrackets s := by
  rw [unescapeBrackets, if_pos rfl]
  split
  next h' =>
    rw [h] at h'
    cases h'
  · rfl

/-! ## Starts of texts -/

theorem actsBehindBrackets_unescapeBrackets : ActsBehindBrackets unescapeBrackets where
  nil := by rw [unescapeBrackets]
  cons := unescapeBrackets_cons
  bracket s := by
    cases he : escapedBody? s with
    | none => exact ⟨_, unescapeBrackets_bracket he⟩
    | some found =>
      obtain ⟨hbody, rfl⟩ := escapedBody?_eq_some_iff.1 he
      exact ⟨_, unescapeBrackets_escaped hbody found.2⟩

/-- No escaped group arises at the start of a text. -/
theorem escapedBody?_escapeBrackets {s : Text} (h : escapedBody? s = none) :
    escapedBody? (escapeBrackets s) = none := by
  rw [Option.eq_none_iff_forall_ne_some]
  rintro ⟨body, rest⟩ hb
  obtain ⟨hbody, he⟩ := escapedBody?_eq_some_iff.1 hb
  have hacts := actsBehindBrackets_escapeBrackets
  obtain ⟨s', rfl, hs'⟩ := hacts.of_eq_append hbody.2.opening_not_mem he
  obtain ⟨s', rfl⟩ : ∃ u, s' = '[' :: ']' :: u := by
    cases s' with
    | nil =>
      rw [hacts.nil] at hs'
      cases hs'
    | cons c u =>
      obtain rfl : c = '[' := by
        by_contra hc
        rw [hacts.cons hc] at hs'
        exact hc (List.cons.inj hs').1
      cases hg : groupBody? u with
      | some found =>
        -- the content of a group is not empty
        obtain ⟨⟨hne, hfound⟩, -⟩ := groupBody?_eq_some_iff.1 hg
        rw [escapeBrackets_group hg, List.cons.injEq] at hs'
        exact absurd (hfound.append_inj groupText_nil (by decide) (by decide) hs'.2).1 hne
      | none =>
        rw [escapeBrackets_bracket hg, List.cons.injEq] at hs'
        obtain ⟨v, rfl, -⟩ := hacts.of_eq_append (p := [']']) (by decide) hs'.2
        exact ⟨v, rfl⟩
  rw [escapedBody?_eq_some_iff.2 ⟨hbody, rfl⟩] at h
  cases h

/-! ## Escaping and reading back -/

/-- Escaping a group. -/
theorem escapeBrackets_isBody {body : Text} (h : IsBody body) (rest : Text) :
    escapeBrackets ('[' :: (body ++ ']' :: rest)) = '[' :: (body ++ '[' :: ']' :: escapeBrackets rest) :=
  escapeBrackets_group (groupBody?_eq_some_iff.2 ⟨h, rfl⟩)

/-- An escaped group is left as it is. -/
theorem escapeBrackets_escaped {body : Text} (h : IsBody body) (rest : Text) :
    escapeBrackets ('[' :: (body ++ '[' :: ']' :: rest)) = '[' :: (body ++ '[' :: ']' :: escapeBrackets rest) := by
  rw [escapeBrackets_bracket (groupBody?_escaped h rest),
    actsBehindBrackets_escapeBrackets.append h.2.opening_not_mem, escapeBrackets_bracket (groupBody?_closing rest),
    escapeBrackets_cons (by decide)]

/-- A group is left as it is. -/
theorem unescapeBrackets_isBody {body : Text} (h : IsBody body) (rest : Text) :
    unescapeBrackets ('[' :: (body ++ ']' :: rest)) = '[' :: (body ++ ']' :: unescapeBrackets rest) := by
  rw [unescapeBrackets_bracket (escapedBody?_group h rest),
    actsBehindBrackets_unescapeBrackets.append h.2.opening_not_mem, unescapeBrackets_cons (by decide)]

/-- **Reading back undoes escaping.** -/
theorem unescapeBrackets_escapeBrackets (s : Text) : unescapeBrackets (escapeBrackets s) = unescapeBrackets s := by
  induction s using groups_induction with
  | nil => rw [escapeBrackets]
  | char hc ih => rw [escapeBrackets_cons hc, unescapeBrackets_cons hc, unescapeBrackets_cons hc, ih]
  | group hbody ih =>
    rw [escapeBrackets_isBody hbody, unescapeBrackets_escaped hbody, unescapeBrackets_isBody hbody, ih]
  | escaped hbody ih =>
    rw [escapeBrackets_escaped hbody, unescapeBrackets_escaped hbody, unescapeBrackets_escaped hbody, ih]
  | bracket hg he ih =>
    rw [escapeBrackets_bracket hg, unescapeBrackets_bracket (escapedBody?_escapeBrackets he),
      unescapeBrackets_bracket he, ih]

/-- **Escaping undoes reading back.** -/
theorem escapeBrackets_unescapeBrackets (s : Text) : escapeBrackets (unescapeBrackets s) = escapeBrackets s := by
  induction s using groups_induction with
  | nil => rw [unescapeBrackets]
  | char hc ih => rw [unescapeBrackets_cons hc, escapeBrackets_cons hc, escapeBrackets_cons hc, ih]
  | group hbody ih => rw [unescapeBrackets_isBody hbody, escapeBrackets_isBody hbody, escapeBrackets_isBody hbody, ih]
  | escaped hbody ih =>
    rw [unescapeBrackets_escaped hbody, escapeBrackets_isBody hbody, escapeBrackets_escaped hbody, ih]
  | bracket hg he ih =>
    rw [unescapeBrackets_bracket he,
      escapeBrackets_bracket (actsBehindBrackets_unescapeBrackets.groupBody?_eq_none_iff.2 hg),
      escapeBrackets_bracket hg, ih]

/-! ## Texts that stay as they are -/

theorem not_hasEscaped_nil : ¬ HasEscaped [] := by
  rintro ⟨pre, body, rest, -, h⟩
  exact absurd h.symm (List.append_ne_nil_of_right_ne_nil pre (List.cons_ne_nil _ _))

/-- An escaped group begins at an opening bracket. -/
theorem hasEscaped_cons {c : Char} {s : Text} :
    HasEscaped (c :: s) ↔ c = '[' ∧ escapedBody? s ≠ none ∨ HasEscaped s := by
  constructor
  · rintro ⟨pre, body, rest, hbody, h⟩
    cases pre with
    | nil =>
      obtain ⟨rfl, rfl⟩ := List.cons.inj h
      exact .inl ⟨rfl, by rw [escapedBody?_eq_some_iff.2 ⟨hbody, rfl⟩]; exact Option.some_ne_none _⟩
    | cons a pre => exact .inr ⟨pre, body, rest, hbody, (List.cons.inj h).2⟩
  · rintro (⟨rfl, he⟩ | ⟨pre, body, rest, hbody, rfl⟩)
    · obtain ⟨⟨body, rest⟩, he⟩ := Option.ne_none_iff_exists'.1 he
      obtain ⟨hbody, rfl⟩ := escapedBody?_eq_some_iff.1 he
      exact ⟨[], body, rest, hbody, rfl⟩
    · exact ⟨c :: pre, body, rest, hbody, rfl⟩

theorem hasEscaped_append {s t : Text} (h : '[' ∉ s) : HasEscaped (s ++ t) ↔ HasEscaped t := by
  induction s with
  | nil => rfl
  | cons c s ih =>
    rw [List.mem_cons, not_or] at h
    rw [List.cons_append, hasEscaped_cons, ih h.2]
    exact or_iff_right fun he => h.1 he.1.symm

/-- **Escaping leaves exactly the texts without groups as they are.** -/
theorem escapeBrackets_eq_self_iff {s : Text} : escapeBrackets s = s ↔ ¬ HasGroup s := by
  induction s using groups_induction with
  | nil => exact iff_of_true (by rw [escapeBrackets]) not_hasGroup_nil
  | char hc ih =>
    rw [escapeBrackets_cons hc, List.cons.injEq, hasGroup_cons, ih]
    simp [hc]
  | @group body rest hbody ih =>
    have hgroup : HasGroup ('[' :: (body ++ ']' :: rest)) :=
      hasGroup_cons.2 (.inl ⟨rfl, by rw [groupBody?_eq_some_iff.2 ⟨hbody, rfl⟩]; rfl⟩)
    refine iff_of_false ?_ (not_not_intro hgroup)
    rw [escapeBrackets_isBody hbody]
    simp
  | @escaped body rest hbody ih =>
    rw [escapeBrackets_escaped hbody, hasGroup_cons, groupBody?_escaped hbody,
      hasGroup_append hbody.2.opening_not_mem, hasGroup_cons, groupBody?_closing, hasGroup_cons]
    simpa using ih
  | bracket hg he ih =>
    rw [escapeBrackets_bracket hg, List.cons.injEq, hasGroup_cons, hg, ih]
    simp

/-- **Reading back leaves exactly the texts without escaped groups as they are.** -/
theorem unescapeBrackets_eq_self_iff {s : Text} : unescapeBrackets s = s ↔ ¬ HasEscaped s := by
  induction s using groups_induction with
  | nil => exact iff_of_true (by rw [unescapeBrackets]) not_hasEscaped_nil
  | char hc ih =>
    rw [unescapeBrackets_cons hc, List.cons.injEq, hasEscaped_cons, ih]
    simp [hc]
  | @group body rest hbody ih =>
    rw [unescapeBrackets_isBody hbody, hasEscaped_cons, escapedBody?_group hbody,
      hasEscaped_append hbody.2.opening_not_mem, hasEscaped_cons]
    simpa using ih
  | @escaped body rest hbody ih =>
    refine iff_of_false ?_ (not_not_intro ⟨[], body, rest, hbody, rfl⟩)
    rw [unescapeBrackets_escaped hbody]
    simp
  | bracket hg he ih =>
    rw [unescapeBrackets_bracket he, List.cons.injEq, hasEscaped_cons, he, ih]
    simp

/-- Reading back only deletes characters. -/
theorem unescapeBrackets_sublist (s : Text) : (unescapeBrackets s).Sublist s := by
  induction s using groups_induction with
  | nil => rw [unescapeBrackets]
  | char hc ih =>
    rw [unescapeBrackets_cons hc]
    exact ih.cons_cons _
  | @group body rest hbody ih =>
    rw [unescapeBrackets_isBody hbody]
    exact ((List.Sublist.refl body).append (ih.cons_cons ']')).cons_cons '['
  | @escaped body rest hbody ih =>
    rw [unescapeBrackets_escaped hbody]
    exact ((List.Sublist.refl body).append ((ih.cons_cons ']').cons '[')).cons_cons '['
  | bracket hg he ih =>
    rw [unescapeBrackets_bracket he]
    exact ih.cons_cons '['

/-! ## Texts with the same escaped form -/

/-- A text is the only one with its escaped form just when it has no group, escaped or not. -/
theorem exists_ne_escapeBrackets_iff {s : Text} :
    (∃ t, t ≠ s ∧ escapeBrackets t = escapeBrackets s) ↔ HasGroup s ∨ HasEscaped s := by
  constructor
  · rintro ⟨t, hne, he⟩
    by_contra hno
    rw [not_or, ← escapeBrackets_eq_self_iff, ← unescapeBrackets_eq_self_iff] at hno
    -- reading `t` back only deletes characters, escaping it only adds some, and both give `s`
    have hback : unescapeBrackets t = s := by
      rw [← unescapeBrackets_escapeBrackets, he, unescapeBrackets_escapeBrackets, hno.2]
    have hsub : t.Sublist s := by
      rw [← hno.1, ← he]
      exact sublist_escapeBrackets t
    exact hne (hsub.antisymm (hback ▸ unescapeBrackets_sublist t))
  · rintro (hg | he)
    · refine ⟨escapeBrackets s, fun h => escapeBrackets_eq_self_iff.1 h hg, ?_⟩
      exact escapeBrackets_eq_self_iff.2 (not_hasGroup_escapeBrackets s)
    · exact ⟨unescapeBrackets s, fun h => unescapeBrackets_eq_self_iff.1 h he, escapeBrackets_unescapeBrackets s⟩

/-- **What escaping loses** is which groups of a text had been escaped before. Texts have the same escaped form just
when they are the same with all of their escaped groups read back, and reading back leaves the texts as they are that
have none; so different texts without escaped groups are told apart, and each of them is found again. -/
theorem escapeBrackets_eq_iff :
    (∀ s t, escapeBrackets s = escapeBrackets t ↔ unescapeBrackets s = unescapeBrackets t) ∧
      (∀ s, unescapeBrackets s = s ↔ ¬ HasEscaped s) ∧
      (∀ s, ¬ HasEscaped s → unescapeBrackets (escapeBrackets s) = s) ∧
      (∀ s t, ¬ HasEscaped s → ¬ HasEscaped t → s ≠ t → escapeBrackets s ≠ escapeBrackets t) ∧
      ∀ s, (∃ t, t ≠ s ∧ escapeBrackets t = escapeBrackets s) ↔ HasGroup s ∨ HasEscaped s := by
  have hback (s t : Text) (h : escapeBrackets s = escapeBrackets t) : unescapeBrackets s = unescapeBrackets t := by
    rw [← unescapeBrackets_escapeBrackets s, h, unescapeBrackets_escapeBrackets t]
  refine ⟨fun s t => ⟨hback s t, fun h => ?_⟩, fun s => unescapeBrackets_eq_self_iff, fun s hs => ?_,
    fun s t hs ht hne h => hne ?_, fun s => exists_ne_escapeBrackets_iff⟩
  · rw [← escapeBrackets_unescapeBrackets s, h, escapeBrackets_unescapeBrackets t]
  · rw [unescapeBrackets_escapeBrackets, unescapeBrackets_eq_self_iff.2 hs]
  · rw [← unescapeBrackets_eq_self_iff.2 hs, hback s t h, unescapeBrackets_eq_self_iff.2 ht]

/-- **A group and the same group escaped** have one escaped form. -/
theorem escapeBrackets_not_injective :
    escapeBrackets "[abc]".toList = "[abc[]".toList ∧ escapeBrackets "[abc[]".toList = "[abc[]".toList ∧
      ¬ Function.Injective escapeBrackets := by
  have hgroup : escapeBrackets "[abc]".toList = "[abc[]".toList := by decide +kernel
  have hescaped : escapeBrackets "[abc[]".toList = "[abc[]".toList := by decide +kernel
  refine ⟨hgroup, hescaped, fun hinj => ?_⟩
  exact absurd (hinj (hgroup.trans hescaped.symm)) (by decide)

end Widget
end TerminalMarkup
