import TerminalMarkup.Proofs.Registry.Namespace
import TerminalMarkup.Proofs.Registry.Normal
import TerminalMarkup.Theme.Table

/-!
# Registered names of theme keys

A theme key is registered under a name of its own (`registeredKey`), and under a namespace with that of the namespace in
front (`normalize_themeName`). Every such name starts with `theme`, and with `theme_` when there is more to it
(`registeredKey_eq`).

A reference looks up another name for the key that it means (`normalize_of_isThemeReference`). The two agree just when
the key is `Plain`, that is, when it has no underscore in front (`plain_iff`).
-/

namespace TerminalMarkup

/-! ## The registered name -/

/-- The normal form of the name under which a theme key is registered where no namespace is given. -/
def registeredKey (key : Text) : Text := Name.normalize (themeName none (spelledKey key))

/-- The key is registered under the name that references to it look up. -/
def Plain (key : Text) : Prop := registeredKey key = themeKeyStart ++ themeKey key

instance (key : Text) : Decidable (Plain key) := inferInstanceAs (Decidable (_ = _))

/-- A key is spelled as it is, or without the start of a reference, in upper or lower case, unless that is all. -/
theorem spelledKey_cases (key : Text) :
    (∃ q, q.map Char.toLower = themeKeyStart ∧ key.trim = q ++ spelledKey key ∧ spelledKey key ≠ []) ∨
      (spelledKey key = key.trim ∧ ∀ q t, key.trim = q ++ t → q.map Char.toLower = themeKeyStart → t = []) := by
  have hspelled : spelledKey key
      = if Text.eqIgnoreCase (key.trim.take themeNameStart.length) themeNameStart
          && decide (themeNameStart.length < key.trim.length) then key.trim.drop themeNameStart.length
        else key.trim := rfl
  have hlen : themeNameStart.length = 6 := by decide
  have hlower : themeNameStart.map Char.toLower = themeKeyStart := by decide
  rw [hspelled]
  by_cases hc : (Text.eqIgnoreCase (key.trim.take themeNameStart.length) themeNameStart
      && decide (themeNameStart.length < key.trim.length)) = true
  · rw [if_pos hc]
    simp only [Text.eqIgnoreCase, Text.toAsciiLower, Bool.and_eq_true, beq_iff_eq, decide_eq_true_eq] at hc
    refine .inl ⟨_, hc.1.trans hlower, (List.take_append_drop _ _).symm, ?_⟩
    rw [Ne, List.drop_eq_nil_iff]
    omega
  · rw [if_neg hc]
    refine .inr ⟨rfl, fun q t he hq => ?_⟩
    by_contra ht
    have hqlen : q.length = themeNameStart.length := by
      rw [← List.length_map Char.toLower, hq]
      decide
    refine hc ?_
    have htpos := List.length_pos_iff.2 ht
    simp only [Text.eqIgnoreCase, Text.toAsciiLower, Bool.and_eq_true, beq_iff_eq, decide_eq_true_eq]
    rw [he, ← hqlen, List.take_left, List.length_append]
    exact ⟨hq.trans hlower.symm, by omega⟩

/-- A spelled key ends in no blank. -/
theorem blank_end_spelledKey (key : Text) : Text.dropEndWhile isBlank (spelledKey key) = spelledKey key := by
  have htrim : Text.dropEndWhile isBlank key.trim = key.trim := Text.dropEndWhile_strip key
  rcases spelledKey_cases key with ⟨q, -, he, -⟩ | ⟨he, -⟩
  · exact Text.dropEndWhile_eq_self_of_suffix htrim ⟨q, he.symm⟩
  · rw [he, htrim]

theorem solid_themeName {key : Text} (h : Text.dropEndWhile isBlank key = key) :
    Name.Solid (themeNameStart ++ key) where
  ne_nil := List.append_ne_nil_of_left_ne_nil (by decide) key
  blank_start := List.dropWhile_cons_of_neg (by decide)
  blank_end := by
    rw [Text.dropEndWhile_append, h]
    split
    next hk =>
      rw [hk]
      decide
    · rfl
  underscore_start := List.dropWhile_cons_of_neg (by decide)

/-- **The name of a theme key in a namespace.** -/
theorem normalize_themeName (ns : Option Text) (key : Text) :
    Name.normalize (themeName ns (spelledKey key)) = Name.keyStart ns ++ registeredKey key :=
  Name.normalize_qualify ns (solid_themeName (blank_end_spelledKey key))

/-- The registered name of a spelled key. -/
theorem normalize_themeNameStart_append {key : Text} (h : Text.dropEndWhile isBlank key = key) :
    Name.normalize (themeNameStart ++ key)
      = if Text.dropEndWhile Name.isUnderscore key = [] then "theme".toList
        else themeKeyStart ++ (Text.dropEndWhile Name.isUnderscore key).lowercase := by
  rw [(solid_themeName h).normalize, Text.dropEndWhile_append]
  split
  · decide
  · have hstart : Text.lowercase "Theme".toList = "theme".toList := Text.lowercase_ascii (by decide)
    have hsplit := Text.lowercase_append_underscore "Theme".toList (Text.dropEndWhile Name.isUnderscore key)
    rw [hstart] at hsplit
    exact hsplit

/-- A key is registered as `theme`, or as `theme_` and its lowercase spelling without the underscores at its end. -/
theorem registeredKey_eq (key : Text) :
    registeredKey key
      = if Text.dropEndWhile Name.isUnderscore (spelledKey key) = [] then "theme".toList
        else themeKeyStart ++ (Text.dropEndWhile Name.isUnderscore (spelledKey key)).lowercase :=
  normalize_themeNameStart_append (blank_end_spelledKey key)

/-- A key that starts as references do, in lowercase letters with one behind them that is no underscore, is registered
as it is spelled. -/
theorem registeredKey_of_isFixed {s : Text} (h : ∀ c ∈ s, Lowercase.IsFixed c) :
    registeredKey (themeNameStart ++ (s ++ ['x'])) = themeKeyStart ++ (s ++ ['x']) := by
  have hend (f : Char → Bool) (hf : Text.dropEndWhile f ['x'] = ['x']) :
      Text.dropEndWhile f (s ++ ['x']) = s ++ ['x'] := by
    rw [Text.dropEndWhile_append_of_ne_nil (by rw [hf]; exact List.cons_ne_nil _ _), hf]
  have hsolid := solid_themeName (hend isBlank (by decide))
  have htrim : Text.trim (themeNameStart ++ (s ++ ['x'])) = themeNameStart ++ (s ++ ['x']) :=
    Text.strip_of_ends hsolid.blank_start hsolid.blank_end
  have hlower : themeNameStart.map Char.toLower = themeKeyStart := by decide
  have hspelled : spelledKey (themeNameStart ++ (s ++ ['x'])) = s ++ ['x'] := by
    rcases spelledKey_cases (themeNameStart ++ (s ++ ['x'])) with ⟨q, hq, he, -⟩ | ⟨-, hno⟩
    · have hlen : themeNameStart.length = q.length := by
        have hq' := congrArg List.length (hq.trans hlower.symm)
        rw [List.length_map, List.length_map] at hq'
        exact hq'.symm
      exact (List.append_inj (htrim.symm.trans he) hlen).2.symm
    · exact absurd (hno _ _ htrim hlower) (by simp)
  have hfixed : ∀ c ∈ s ++ ['x'], Lowercase.IsFixed c := by
    intro c hc
    rcases List.mem_append.1 hc with hc | hc
    · exact h c hc
    · rw [List.mem_singleton.1 hc]
      exact ⟨by decide, by decide⟩
  rw [registeredKey_eq, hspelled, hend Name.isUnderscore (by decide), if_neg (by simp),
    Text.lowercase_of_isFixed hfixed]

theorem registeredKey_cases (key : Text) :
    registeredKey key = "theme".toList ∨ themeKeyStart <+: registeredKey key := by
  rw [registeredKey_eq]
  split
  · exact .inl rfl
  · exact .inr (List.prefix_append _ _)

theorem registeredKey_ne_nil (key : Text) : registeredKey key ≠ [] := by
  rcases registeredKey_cases key with h | h
  · rw [h]
    decide
  · intro he
    rw [he, List.prefix_nil] at h
    exact absurd h (by decide)

/-! ## The name in a reference -/

/-- **A reference looks up the key that it means**, with the start of a reference in front. -/
theorem normalize_of_isThemeReference {name : Text} (h : isThemeReference name = true) :
    Name.normalize name = themeKeyStart ++ themeKey name := by
  obtain ⟨rest, hrest⟩ := Text.startsWith_iff.1 h
  have hafter : Text.after? themeKeyStart (Name.normalize name) = some rest := by
    rw [← hrest, Text.after?_append]
  cases rest with
  | nil =>
    refine absurd ?_ (Name.getLast?_normalize_ne name)
    rw [← hrest]
    decide
  | cons c cs =>
    rw [← hrest]
    exact congrArg _ (by rw [themeKey, hafter])

theorem themeKey_of_normalize {key rest : Text} (h : Name.normalize key = themeKeyStart ++ rest) (hr : rest ≠ []) :
    themeKey key = rest := by
  have hafter : Text.after? themeKeyStart (Name.normalize key) = some rest := by rw [h, Text.after?_append]
  cases rest with
  | nil => exact absurd rfl hr
  | cons c cs => rw [themeKey, hafter]

/-! ## Plain keys -/

theorem normalize_of_head?_ne {key : Text} (h : key.trim.head? ≠ some '_') :
    Name.normalize key = (Text.dropEndWhile Name.isUnderscore key.trim).lowercase := by
  have hfront : key.trim.dropWhile Name.isUnderscore = key.trim := by
    cases hk : key.trim with
    | nil => rfl
    | cons c cs =>
      have hc : c ≠ '_' := by
        rintro rfl
        exact h (by rw [hk]; rfl)
      exact List.dropWhile_cons_of_neg (by simpa [Name.isUnderscore] using hc)
  rw [Name.normalize, Text.strip, hfront]

/-- The start of a reference is lowercased on its own. -/
theorem lowercase_reference {q : Text} (hq : q.map Char.toLower = themeKeyStart) (t : Text) :
    Text.lowercase (q ++ t) = themeKeyStart ++ t.lowercase := by
  have hstart : themeKeyStart = "theme".toList ++ ['_'] := by decide
  obtain ⟨word, mark, rfl, hword, hmark⟩ := List.map_eq_append_iff.1 (hq.trans hstart)
  obtain ⟨c, rest, rfl, hc, hrest⟩ := List.map_eq_cons_iff.1 hmark
  obtain rfl := List.map_eq_nil_iff.1 hrest
  have hascii : ∀ x ∈ word, x.toNat < 0x80 := by
    have hlower : ∀ y ∈ "theme".toList, y.toNat < 0x80 := by decide
    intro x hx
    exact Lowercase.ascii_of_toLower (hlower _ (hword ▸ List.mem_map_of_mem hx))
  obtain rfl : c = '_' := by
    have hc' : c.toNat < 0x80 := Lowercase.ascii_of_toLower (by rw [hc]; decide)
    exact Lowercase.forall_ascii (P := fun c => c.toLower = '_' → c = '_') (by decide) hc' hc
  have hsplit := Text.lowercase_append_underscore word t
  rw [Text.lowercase_ascii hascii, hword] at hsplit
  rw [List.append_assoc, List.singleton_append, hsplit]
  rfl

/-- Where no start of a reference can be taken off, none is left in the normal form either. -/
theorem themeKey_eq_normalize {key : Text} (h : key.trim.head? ≠ some '_')
    (hq : ∀ q t, key.trim = q ++ t → q.map Char.toLower = themeKeyStart → t = []) :
    themeKey key = Name.normalize key := by
  cases ha : Text.after? themeKeyStart (Name.normalize key) with
  | none => rw [themeKey, ha]
  | some rest =>
    cases rest with
    | nil => rw [themeKey, ha]
    | cons c cs =>
      have hnormal := Text.append_of_after? ha
      rw [normalize_of_head?_ne h] at hnormal
      have hascii : ∀ x ∈ themeKeyStart, x.toNat < 0x80 ∧ x ≠ 'i' ∧ x ≠ 'k' := by decide
      obtain ⟨q, t, before, hsplit, hlower, hrest⟩ := Lowercase.exists_of_within_eq_append hascii hnormal.symm
      obtain ⟨behind, hbehind⟩ : Text.dropEndWhile Name.isUnderscore key.trim <+: key.trim := List.rdropWhile_prefix _ _
      have hnil := (List.append_eq_nil_iff.1
        (hq q (t ++ behind) (by rw [← hbehind, hsplit, List.append_assoc]) hlower)).1
      rw [hnil] at hrest
      cases hrest

/-- The name of a key is not longer than its normal form. -/
theorem length_themeKey_le (key : Text) : (themeKey key).length ≤ (Name.normalize key).length := by
  cases ha : Text.after? themeKeyStart (Name.normalize key) with
  | none => rw [themeKey, ha]
  | some rest =>
    cases rest with
    | nil => rw [themeKey, ha]
    | cons c cs =>
      rw [← Text.append_of_after? ha, List.length_append, themeKey, ha]
      exact Nat.le_add_left _ _

/-- Underscores in front count in the lowercase form. -/
theorem length_lowercase_dropWhile_le (s : Text) :
    (Text.lowercase (s.dropWhile Name.isUnderscore)).length ≤ s.lowercase.length := by
  induction s with
  | nil => exact Nat.le_refl _
  | cons c s ih =>
    by_cases hc : Name.isUnderscore c = true
    · obtain rfl : c = '_' := by simpa [Name.isUnderscore] using hc
      rw [List.dropWhile_cons_of_pos hc, Text.lowercase_cons_underscore, List.length_cons]
      exact Nat.le_succ_of_le ih
    · rw [List.dropWhile_cons_of_neg hc]

/-- Underscores in front are part of the registered name, and not of the normal form. -/
theorem length_normalize_lt {key : Text} (h : key.trim.head? = some '_')
    (hne : Text.dropEndWhile Name.isUnderscore key.trim ≠ []) :
    (Name.normalize key).length < (Text.dropEndWhile Name.isUnderscore key.trim).lowercase.length := by
  obtain ⟨rest, hrest⟩ : ∃ rest, Text.dropEndWhile Name.isUnderscore key.trim = '_' :: rest := by
    obtain ⟨c, rest, hc⟩ := List.exists_cons_of_ne_nil hne
    obtain ⟨behind, hbehind⟩ : Text.dropEndWhile Name.isUnderscore key.trim <+: key.trim := List.rdropWhile_prefix _ _
    rw [← hbehind, hc] at h
    exact ⟨rest, by rw [hc, Option.some.inj h]⟩
  rw [Name.normalize, Text.strip_eq_dropWhile, hrest, List.dropWhile_cons_of_pos (by decide),
    Text.lowercase_cons_underscore, List.length_cons]
  exact Nat.lt_succ_of_le (length_lowercase_dropWhile_le rest)

/-- **The plain keys** are those that are spelled without an underscore in front, and of more than underscores. -/
theorem plain_iff (key : Text) :
    Plain key ↔ key.trim.head? ≠ some '_' ∧ Text.dropEndWhile Name.isUnderscore (spelledKey key) ≠ [] := by
  rw [Plain, registeredKey_eq]
  constructor
  · intro h
    have hne : Text.dropEndWhile Name.isUnderscore (spelledKey key) ≠ [] := by
      intro hnil
      rw [if_pos hnil] at h
      have hlen := congrArg List.length h
      rw [List.length_append, show "theme".toList.length = 5 by decide, show themeKeyStart.length = 6 by decide] at hlen
      omega
    refine ⟨fun hhead => ?_, hne⟩
    rw [if_neg hne, List.append_cancel_left_eq] at h
    have hspelled : spelledKey key = key.trim := by
      rcases spelledKey_cases key with ⟨q, hq, he, -⟩ | ⟨he, -⟩
      · cases q with
        | nil => cases hq
        | cons c q =>
          rw [he, List.cons_append, List.head?_cons, Option.some.injEq] at hhead
          rw [hhead] at hq
          exact absurd (List.cons.inj hq).1 (by decide)
      · exact he
    rw [hspelled] at h hne
    have hshort := length_normalize_lt hhead hne
    rw [h] at hshort
    exact absurd (length_themeKey_le key) (Nat.not_le.2 hshort)
  · rintro ⟨hhead, hne⟩
    rw [if_neg hne, List.append_cancel_left_eq]
    have hnormal := normalize_of_head?_ne hhead
    rcases spelledKey_cases key with ⟨q, hq, he, -⟩ | ⟨he, hno⟩
    · rw [he, Text.dropEndWhile_append_of_ne_nil hne, lowercase_reference hq] at hnormal
      exact (themeKey_of_normalize hnormal fun hnil => hne (Text.lowercase_eq_nil_iff.1 hnil)).symm
    · rw [themeKey_eq_normalize hhead hno, hnormal, he]

end TerminalMarkup
