import TerminalMarkup.Proofs.Text.Ends
import TerminalMarkup.Text.Lowercase

/-!
# Lowercase forms

* An underscore has no case and does not hide the case of other letters. So the parts of a text on both sides of an
  underscore are lowercased on their own (`Text.lowercase_append_underscore`).
* A character that has been lowercased has no other lowercase form (`Text.isFixed_of_mem_lowercase`), and a text of
  such characters stays as it is (`Text.lowercase_of_isFixed`).
* Apart from `i` and `k`, a character of ASCII is the lowercase form of characters of ASCII only
  (`Lowercase.eq_toLower_of_mem_char`).
* What is blank stays blank, and an underscore stays one, and nothing else becomes either (`Lowercase.Keeps`). So there
  is something to strip from a text in lower case just where there was before (`Text.strip_lowercase_iff`).
-/

namespace TerminalMarkup

namespace Lowercase

/-! ## Around an underscore -/

theorem facesCased_append (s t : Text) : facesCased (s ++ '_' :: t) = facesCased s := by
  have hu : List.dropWhile caseIgnorableRanges.contains ('_' :: t) = '_' :: t :=
    List.dropWhile_cons_of_neg (by decide +kernel)
  have hc : casedRanges.contains '_' = false := by decide +kernel
  unfold facesCased
  rw [List.dropWhile_append, hu]
  cases List.dropWhile caseIgnorableRanges.contains s with
  | nil => exact hc
  | cons c s => rfl

/-- What stands before an underscore has no influence on what stands behind it. -/
theorem within_behind (p q s : Text) : Lowercase.within (p ++ '_' :: q) s = Lowercase.within p s := by
  induction s generalizing p with
  | nil => rfl
  | cons c s ih =>
    simp only [Lowercase.within, facesCased_append]
    exact congrArg _ (ih (c :: p))

theorem within_append (before s t : Text) :
    Lowercase.within before (s ++ '_' :: t) = Lowercase.within before s ++ '_' :: Lowercase.within [] t := by
  induction s generalizing before with
  | nil =>
    have hu : char '_' = ['_'] := by decide
    have hbehind := within_behind [] before t
    rw [List.nil_append] at hbehind
    simp only [List.nil_append, Lowercase.within, hu, hbehind]
    rfl
  | cons c s ih => simp only [List.cons_append, Lowercase.within, facesCased_append, ih, List.append_assoc]

/-! ## Lowercase letters -/

/-- The lowercase forms that a run gives. -/
def Run.images (run : Run) : List Nat :=
  (List.range ((run.last - run.first) / run.step + 1)).map fun i => ((run.first + i * run.step : Nat) + run.shift).toNat

/-- The run `b` changes no lowercase form that `a` gives. -/
def Run.isApart (a b : Run) : Bool :=
  Nat.blt ((a.last : Int) + a.shift).toNat b.first || Nat.blt b.last ((a.first : Int) + a.shift).toNat ||
    a.images.all fun n => (b.image? n).isNone

/-- The code point of a lowercase form: one beyond ASCII, or that of the letter that the sign of degrees Kelvin has. -/
def isImage (n : Nat) : Bool :=
  n == 0x6B || 0x80 ≤ n && n != 0x130 && n != 0x3A3 && (n < 0xD800 || 0xDFFF < n && n < 0x110000)

theorem isApart_runs : (runs.all fun a => runs.all a.isApart) = true := by decide +kernel

theorem isImage_runs : (runs.all fun run => run.images.all isImage) = true := by decide +kernel

/-- What a run gives lies among its lowercase forms, and between those of its ends. -/
theorem Run.of_image? {run : Run} {m n : Nat} (h : run.image? m = some n) :
    n ∈ run.images ∧ ((run.first : Int) + run.shift).toNat ≤ n ∧ n ≤ ((run.last : Int) + run.shift).toNat := by
  unfold Run.image? at h
  split at h
  next hm =>
    obtain ⟨hlo, hhi, hstep⟩ := hm
    cases h
    refine ⟨List.mem_map.2 ⟨(m - run.first) / run.step, ?_, ?_⟩, by omega, by omega⟩
    · have := Nat.div_le_div_right (c := run.step) (show m - run.first ≤ run.last - run.first by omega)
      exact List.mem_range.2 (by omega)
    · have hdiv : (m - run.first) / run.step * run.step = m - run.first :=
        Nat.div_mul_cancel (Nat.dvd_of_mod_eq_zero hstep)
      rw [hdiv]
      congr 2
      omega
  · cases h

/-- A lowercase form beyond ASCII is in no run. -/
theorem image?_eq_none {a b : Run} (ha : a ∈ runs) (hb : b ∈ runs) {m n : Nat} (h : a.image? m = some n) :
    b.image? n = none := by
  obtain ⟨hmem, hlo, hhi⟩ := Run.of_image? h
  have hapart := List.all_eq_true.1 (List.all_eq_true.1 isApart_runs a ha) b hb
  simp only [Run.isApart, Bool.or_eq_true, Nat.blt_eq] at hapart
  rcases hapart with (hbelow | habove) | hnone
  · rw [Run.image?, if_neg (by omega)]
  · rw [Run.image?, if_neg (by omega)]
  · exact Option.isNone_iff_eq_none.1 (List.all_eq_true.1 hnone n hmem)

/-- The character has no other lowercase form. -/
def IsFixed (c : Char) : Prop := c ≠ 'Σ' ∧ char c = [c]

theorem char_of_ascii {c : Char} (h : c.toNat < 0x80) : char c = [c.toLower] := if_pos h

/-- The kinds of characters by what their lowercase form is. -/
theorem char_cases (c : Char) :
    (c.toNat < 0x80 ∧ char c = [c.toLower]) ∨ (c = '\u0130' ∧ char c = ['i', '\u0307']) ∨
      (∃ run ∈ runs, ∃ n, run.image? c.toNat = some n ∧ char c = [Char.ofNat n]) ∨
      (0x80 ≤ c.toNat ∧ char c = [c]) := by
  unfold char
  split
  next h => exact .inl ⟨h, rfl⟩
  next h =>
    split
    next he => exact .inr (.inl ⟨he, rfl⟩)
    · split
      next n hn =>
        obtain ⟨run, hm, hr⟩ := List.exists_of_findSome?_eq_some hn
        exact .inr (.inr (.inl ⟨run, hm, n, hr, rfl⟩))
      · exact .inr (.inr (.inr ⟨Nat.not_lt.1 h, rfl⟩))

theorem char_ne_nil (c : Char) : char c ≠ [] := by
  rcases char_cases c with ⟨-, he⟩ | ⟨-, he⟩ | ⟨_, _, _, _, he⟩ | ⟨-, he⟩
  all_goals
    rw [he]
    exact List.cons_ne_nil _ _

theorem within_eq_nil_iff {before s : Text} : Lowercase.within before s = [] ↔ s = [] := by
  cases s with
  | nil => exact iff_of_true rfl rfl
  | cons c s =>
    refine iff_of_false (fun h => ?_) (List.cons_ne_nil c s)
    have hhead := (List.append_eq_nil_iff.1 h).1
    split at hhead
    · cases hhead
    · exact char_ne_nil c hhead

/-- What holds of the 128 characters of ASCII holds of every one of them. -/
theorem forall_ascii {P : Char → Prop} (h : ∀ n < 0x80, P (Char.ofNat n)) {c : Char} (hc : c.toNat < 0x80) : P c := by
  have := h c.toNat hc
  rwa [Char.ofNat_toNat] at this

theorem toNat_of_isImage {n : Nat} (h : isImage n = true) : (Char.ofNat n).toNat = n := by
  have hv : n.isValidChar := by
    simp only [isImage, Bool.or_eq_true, Bool.and_eq_true, beq_iff_eq, decide_eq_true_eq] at h
    rcases h with rfl | ⟨-, h | h⟩
    · decide
    · exact .inl h
    · exact .inr h
  rw [Char.ofNat, dif_pos hv]
  rfl

/-- A character of ASCII that has been lowercased is fixed. -/
theorem isFixed_toLower {c : Char} (h : c.toNat < 0x80) : IsFixed c.toLower :=
  forall_ascii (P := fun c => IsFixed c.toLower) (by unfold IsFixed; decide +kernel) h

/-- What a run gives is fixed. -/
theorem isFixed_of_image? {run : Run} (hm : run ∈ runs) {m n : Nat} (h : run.image? m = some n) :
    IsFixed (Char.ofNat n) := by
  have himage : isImage n = true :=
    List.all_eq_true.1 (List.all_eq_true.1 isImage_runs run hm) n (Run.of_image? h).1
  have htoNat := toNat_of_isImage himage
  simp only [isImage, Bool.or_eq_true, Bool.and_eq_true, beq_iff_eq, bne_iff_ne, decide_eq_true_eq] at himage
  rcases himage with rfl | ⟨⟨⟨hascii, hdot⟩, hsigma⟩, -⟩
  · exact ⟨by decide, by decide⟩
  · refine ⟨fun he => hsigma (htoNat.symm.trans (congrArg Char.toNat he)), ?_⟩
    rcases char_cases (Char.ofNat n) with ⟨h', -⟩ | ⟨he, -⟩ | ⟨run', hm', n', h', -⟩ | ⟨-, he⟩
    · omega
    · exact absurd (htoNat.symm.trans (congrArg Char.toNat he)) hdot
    · rw [htoNat, image?_eq_none hm hm' h] at h'
      cases h'
    · exact he

/-- **A lowercase form is fixed.** -/
theorem isFixed_of_mem_char {c x : Char} (hc : c ≠ 'Σ') (h : x ∈ char c) : IsFixed x := by
  rcases char_cases c with ⟨hascii, he⟩ | ⟨-, he⟩ | ⟨run, hm, n, hn, he⟩ | ⟨-, he⟩
  · rw [he, List.mem_singleton] at h
    exact h ▸ isFixed_toLower hascii
  · rw [he] at h
    simp only [List.mem_cons, List.not_mem_nil, or_false] at h
    rcases h with rfl | rfl
    · exact ⟨by decide, by decide⟩
    · exact ⟨by decide, by decide +kernel⟩
  · rw [he, List.mem_singleton] at h
    exact h ▸ isFixed_of_image? hm hn
  · rw [he, List.mem_singleton] at h
    exact h ▸ ⟨hc, he⟩

theorem isFixed_of_mem_within {before s : Text} {x : Char} (h : x ∈ Lowercase.within before s) : IsFixed x := by
  induction s generalizing before with
  | nil => cases h
  | cons c s ih =>
    rcases List.mem_append.1 h with h | h
    · split at h
      · rw [List.mem_singleton.1 h]
        split
        · exact ⟨by decide, by decide +kernel⟩
        · exact ⟨by decide, by decide +kernel⟩
      next hc => exact isFixed_of_mem_char hc h
    · exact ih h

theorem within_of_isFixed {s : Text} (h : ∀ c ∈ s, IsFixed c) (before : Text) : Lowercase.within before s = s := by
  induction s generalizing before with
  | nil => rfl
  | cons c s ih =>
    obtain ⟨hc, hchar⟩ := h c List.mem_cons_self
    simp only [Lowercase.within, if_neg hc, hchar, ih fun x hx => h x (List.mem_cons_of_mem _ hx)]
    rfl

/-! ## Letters of ASCII -/

theorem ascii_of_toLower {c : Char} (h : c.toLower.toNat < 0x80) : c.toNat < 0x80 := by
  refine Nat.lt_of_not_le fun hc => ?_
  have hnot : ¬ (c.val ≥ 'A'.val ∧ c.val ≤ 'Z'.val) := by
    rintro ⟨-, hz⟩
    have : c.toNat ≤ 90 := hz
    omega
  unfold Char.toLower at h
  rw [dif_neg hnot] at h
  omega

/-- Apart from `i` and `k`, a character of ASCII is the lowercase form of characters of ASCII only. -/
theorem eq_toLower_of_mem_char {c x : Char} (h : x ∈ char c) (hx : x.toNat < 0x80) (hi : x ≠ 'i') (hk : x ≠ 'k') :
    c.toNat < 0x80 ∧ x = c.toLower := by
  rcases char_cases c with ⟨hascii, he⟩ | ⟨-, he⟩ | ⟨run, hm, n, hn, he⟩ | ⟨hascii, he⟩
  · rw [he, List.mem_singleton] at h
    exact ⟨hascii, h⟩
  · rw [he] at h
    simp only [List.mem_cons, List.not_mem_nil, or_false] at h
    rcases h with rfl | rfl
    · exact absurd rfl hi
    · exact absurd hx (by decide)
  · rw [he, List.mem_singleton] at h
    have himage := List.all_eq_true.1 (List.all_eq_true.1 isImage_runs run hm) n (Run.of_image? hn).1
    have htoNat := toNat_of_isImage himage
    simp only [isImage, Bool.or_eq_true, Bool.and_eq_true, beq_iff_eq, bne_iff_ne, decide_eq_true_eq] at himage
    rcases himage with rfl | ⟨⟨⟨hge, -⟩, -⟩, -⟩
    · exact absurd h hk
    · rw [h, htoNat] at hx
      omega
  · rw [he, List.mem_singleton] at h
    rw [h] at hx
    omega

theorem eq_underscore_of_mem_char {c : Char} (h : '_' ∈ char c) : c = '_' := by
  obtain ⟨hascii, he⟩ := eq_toLower_of_mem_char h (by decide) (by decide) (by decide)
  exact forall_ascii (P := fun c => '_' = c.toLower → c = '_') (by decide) hascii he

/-- A lowercased text that starts with letters of ASCII comes from one that does, `i` and `k` apart. -/
theorem exists_of_within_eq_append {p : Text} (hp : ∀ x ∈ p, x.toNat < 0x80 ∧ x ≠ 'i' ∧ x ≠ 'k') {before s r : Text}
    (h : Lowercase.within before s = p ++ r) :
    ∃ q t before', s = q ++ t ∧ q.map Char.toLower = p ∧ Lowercase.within before' t = r := by
  induction p generalizing before s with
  | nil => exact ⟨[], s, before, rfl, rfl, h⟩
  | cons x p ih =>
    obtain ⟨⟨hx, hi, hk⟩, hp⟩ := List.forall_mem_cons.1 hp
    cases s with
    | nil => cases h
    | cons c s =>
      simp only [Lowercase.within] at h
      split at h
      · -- a sigma stays beyond ASCII
        rw [List.singleton_append, List.cons_append, List.cons.injEq] at h
        rw [← h.1] at hx
        split at hx
        · exact absurd hx (by decide)
        · exact absurd hx (by decide)
      · have hmem : x ∈ char c := by
          cases hc : char c with
          | nil => exact absurd hc (char_ne_nil c)
          | cons y ys =>
            rw [hc, List.cons_append, List.cons_append, List.cons.injEq] at h
            rw [h.1]
            exact List.mem_cons_self
        obtain ⟨hascii, hlow⟩ := eq_toLower_of_mem_char hmem hx hi hk
        rw [char_of_ascii hascii, List.singleton_append, List.cons_append, List.cons.injEq] at h
        obtain ⟨q, t, before', rfl, rfl, hr⟩ := ih hp h.2
        exact ⟨c :: q, t, before', rfl, by rw [List.map_cons, hlow], hr⟩

/-! ## Properties that characters keep -/

/-- A property of characters that is the same for a character and its lowercase forms. -/
structure Keeps (f : Char → Bool) : Prop where
  char : ∀ {c x : Char}, x ∈ Lowercase.char c → f x = f c
  sigma : f 'ς' = f 'Σ' ∧ f 'σ' = f 'Σ'

theorem keeps_underscore : Keeps (· == '_') where
  char := by
    intro c x h
    rw [Bool.eq_iff_iff, beq_iff_eq, beq_iff_eq]
    constructor
    · rintro rfl
      exact eq_underscore_of_mem_char h
    · rintro rfl
      exact List.mem_singleton.1 h
  sigma := by decide

/-- The run neither changes a blank nor gives one. -/
def Run.isInked (run : Run) : Bool :=
  blankRanges.all fun (lo, hi) =>
    (Nat.blt hi run.first || Nat.blt run.last lo) &&
      (Nat.blt hi ((run.first : Int) + run.shift).toNat || Nat.blt ((run.last : Int) + run.shift).toNat lo)

theorem isInked_runs : runs.all Run.isInked = true := by decide +kernel

theorem isBlank_of_image? {run : Run} (hm : run ∈ runs) {c : Char} {n : Nat} (h : run.image? c.toNat = some n) :
    isBlank (Char.ofNat n) = false ∧ isBlank c = false := by
  obtain ⟨hmem, hlo, hhi⟩ := Run.of_image? h
  have hsource : run.first ≤ c.toNat ∧ c.toNat ≤ run.last := by
    unfold Run.image? at h
    split at h
    next hin => exact ⟨hin.1, hin.2.1⟩
    · cases h
  have htoNat := toNat_of_isImage (List.all_eq_true.1 (List.all_eq_true.1 isImage_runs run hm) n hmem)
  have hinked := List.all_eq_true.1 (List.all_eq_true.1 isInked_runs run hm)
  simp only [Bool.and_eq_true, Bool.or_eq_true, Nat.blt_eq] at hinked
  simp only [isBlank, ← Bool.not_eq_true, CharRanges.contains_iff, htoNat]
  constructor
  · rintro ⟨range, hrange, hin⟩
    have := hinked range hrange
    omega
  · rintro ⟨range, hrange, hin⟩
    have := hinked range hrange
    omega

theorem keeps_isBlank : Keeps isBlank where
  char := by
    intro c x h
    rcases char_cases c with ⟨hascii, he⟩ | ⟨rfl, he⟩ | ⟨run, hm, n, hn, he⟩ | ⟨-, he⟩
    · rw [he, List.mem_singleton] at h
      exact h ▸ forall_ascii (P := fun c => isBlank c.toLower = isBlank c) (by decide) hascii
    · rw [he] at h
      simp only [List.mem_cons, List.not_mem_nil, or_false] at h
      rcases h with rfl | rfl
      · decide
      · decide +kernel
    · rw [he, List.mem_singleton] at h
      obtain ⟨himage, hsource⟩ := isBlank_of_image? hm hn
      rw [h, himage, hsource]
    · rw [he, List.mem_singleton] at h
      rw [h]
  sigma := by decide

/-- A character of a text becomes characters with its property. -/
theorem Keeps.within_cons {f : Char → Bool} (h : Keeps f) (before : Text) (c : Char) (s : Text) :
    ∃ here, here ≠ [] ∧ (∀ x ∈ here, f x = f c) ∧
      Lowercase.within before (c :: s) = here ++ Lowercase.within (c :: before) s := by
  refine ⟨_, ?_, ?_, rfl⟩
  · split
    · exact List.cons_ne_nil _ _
    · exact char_ne_nil c
  · intro x hx
    split at hx
    next hc =>
      rw [List.mem_singleton.1 hx, hc]
      split
      · exact h.sigma.1
      · exact h.sigma.2
    · exact h.char hx

theorem Keeps.head?_within {f : Char → Bool} (h : Keeps f) (before s : Text) :
    (Lowercase.within before s).head?.map f = s.head?.map f := by
  cases s with
  | nil => rfl
  | cons c s =>
    obtain ⟨here, hne, hkept, he⟩ := h.within_cons before c s
    obtain ⟨x, xs, rfl⟩ := List.exists_cons_of_ne_nil hne
    rw [he]
    exact congrArg some (hkept x List.mem_cons_self)

theorem Keeps.getLast?_within {f : Char → Bool} (h : Keeps f) (before s : Text) :
    (Lowercase.within before s).getLast?.map f = s.getLast?.map f := by
  induction s generalizing before with
  | nil => rfl
  | cons c s ih =>
    obtain ⟨here, hne, hkept, he⟩ := h.within_cons before c s
    rw [he]
    cases s with
    | nil =>
      have hlast : here.getLast? = some (here.getLast hne) := List.getLast?_eq_some_getLast hne
      rw [Lowercase.within, List.append_nil, hlast]
      exact congrArg some (hkept _ (List.getLast_mem hne))
    | cons d t =>
      have hrest : Lowercase.within (c :: before) (d :: t) ≠ [] :=
        fun hnil => List.cons_ne_nil d t (within_eq_nil_iff.1 hnil)
      rw [List.getLast?_append_of_ne_nil here hrest, List.getLast?_cons_cons]
      exact ih (c :: before)

end Lowercase

namespace Text

/-- A text is lowercased apart on both sides of an underscore. -/
theorem lowercase_append_underscore (s t : Text) : (s ++ '_' :: t).lowercase = s.lowercase ++ '_' :: t.lowercase :=
  Lowercase.within_append [] s t

theorem lowercase_cons_underscore (s : Text) : lowercase ('_' :: s) = '_' :: s.lowercase :=
  lowercase_append_underscore [] s

theorem lowercase_eq_nil_iff {s : Text} : s.lowercase = [] ↔ s = [] := Lowercase.within_eq_nil_iff

theorem isFixed_of_mem_lowercase {s : Text} {x : Char} (h : x ∈ s.lowercase) : Lowercase.IsFixed x :=
  Lowercase.isFixed_of_mem_within h

/-- Lowercasing leaves something to strip at the ends just where there was something before. -/
theorem strip_lowercase_iff {f : Char → Bool} (h : Lowercase.Keeps f) {s : Text} :
    strip f s.lowercase = s.lowercase ↔ strip f s = s := by
  rw [strip_eq_self_iff, strip_eq_self_iff, lowercase, h.head?_within, h.getLast?_within]

theorem lowercase_of_isFixed {s : Text} (h : ∀ c ∈ s, Lowercase.IsFixed c) : s.lowercase = s :=
  Lowercase.within_of_isFixed h []

end Text
end TerminalMarkup
