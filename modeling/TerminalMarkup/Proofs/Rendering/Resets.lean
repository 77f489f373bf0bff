import Mathlib.Algebra.GroupWithZero.Nat
import Mathlib.Data.List.Basic
import Mathlib.Data.List.Infix
import TerminalMarkup.Rendering

/-!
# Resets in literal text

Inside a base style, the sequences of the literal text that reset everything are replaced. There are two spellings of
them (`resetSpellings`); other characters stay (`replaceResets_cons`).

Texts may be joined before or after the replacement, unless a reset lies across the seam: `countResets` counts the
resets, and `flatMap_replaceResets_iff` compares the counts.
-/

namespace TerminalMarkup

/-- The sequences that count as a reset of everything. -/
def resetSpellings : List Text := [[escape, '[', 'm'], Sgr.reset]

/-- The text starts with a reset. -/
def StartsReset (s : Text) : Prop := ∃ r ∈ resetSpellings, r <+: s

instance (s : Text) : Decidable (StartsReset s) := inferInstanceAs (Decidable (∃ r ∈ resetSpellings, r <+: s))

/-- The number of resets in a text. -/
def countResets (s : Text) : Nat := s.tails.countP fun t => StartsReset t

/-! ## Where a reset starts -/

theorem sgr_reset_eq : Sgr.reset = [escape, '[', '0', 'm'] := by decide

theorem mem_resetSpellings {r : Text} : r ∈ resetSpellings ↔ r = [escape, '[', 'm'] ∨ r = [escape, '[', '0', 'm'] := by
  simp [resetSpellings, sgr_reset_eq]

theorem StartsReset.append {s : Text} (h : StartsReset s) (t : Text) : StartsReset (s ++ t) := by
  obtain ⟨r, hr, hp⟩ := h
  exact ⟨r, hr, hp.trans (List.prefix_append s t)⟩

theorem startsReset_of_mem {r : Text} (hr : r ∈ resetSpellings) (s : Text) : StartsReset (r ++ s) :=
  ⟨r, hr, List.prefix_append r s⟩

theorem not_startsReset_of_ne {c : Char} (hc : c ≠ escape) (s : Text) : ¬ StartsReset (c :: s) := by
  rintro ⟨r, hr, hp⟩
  rcases mem_resetSpellings.1 hr with rfl | rfl
  · exact hc (List.cons_prefix_cons.1 hp).1.symm
  · exact hc (List.cons_prefix_cons.1 hp).1.symm

variable {restore : Text}

theorem replaceResets_append_of_mem {r : Text} (hr : r ∈ resetSpellings) (s : Text) :
    replaceResets restore (r ++ s) = restore ++ replaceResets restore s := by
  rcases mem_resetSpellings.1 hr with rfl | rfl
  · rfl
  · rfl

/-- Where no reset starts, the character stays. -/
theorem replaceResets_cons {c : Char} {s : Text} (h : ¬ StartsReset (c :: s)) :
    replaceResets restore (c :: s) = c :: replaceResets restore s := by
  rw [replaceResets.eq_def]
  dsimp only
  split
  next hc =>
    subst hc
    split
    next s => exact absurd (startsReset_of_mem (mem_resetSpellings.2 (.inl rfl)) s) h
    next s => exact absurd (startsReset_of_mem (mem_resetSpellings.2 (.inr rfl)) s) h
    · rfl
  · rfl

/-- **Induction along the resets of a text.** -/
theorem resets_induction {P : Text → Prop} (nil : P []) (reset : ∀ r ∈ resetSpellings, ∀ s, P s → P (r ++ s))
    (cons : ∀ c s, ¬ StartsReset (c :: s) → P s → P (c :: s)) (s : Text) : P s := by
  induction hn : s.length using Nat.strongRecOn generalizing s with
  | _ n ih =>
    subst hn
    by_cases hs : StartsReset s
    · obtain ⟨r, hr, t, rfl⟩ := hs
      refine reset r hr t (ih _ ?_ t rfl)
      have hpos : 0 < r.length := by rcases mem_resetSpellings.1 hr with rfl | rfl <;> exact Nat.zero_lt_succ _
      rw [List.length_append]
      omega
    · cases s with
      | nil => exact nil
      | cons c s => exact cons c s hs (ih _ (by simp) s rfl)

/-! ## The number of resets -/

theorem countResets_cons (c : Char) (s : Text) :
    countResets (c :: s) = countResets s + if StartsReset (c :: s) then 1 else 0 := by
  rw [countResets, List.tails_cons, List.countP_cons, countResets]
  simp only [decide_eq_true_eq]

theorem countResets_of_not {c : Char} {s : Text} (h : ¬ StartsReset (c :: s)) :
    countResets (c :: s) = countResets s := by
  rw [countResets_cons, if_neg h]
  rfl

theorem countResets_append_of_mem {r : Text} (hr : r ∈ resetSpellings) (s : Text) :
    countResets (r ++ s) = countResets s + 1 := by
  have hstart := startsReset_of_mem hr s
  rcases mem_resetSpellings.1 hr with rfl | rfl
  · simp only [List.cons_append, List.nil_append] at hstart ⊢
    rw [countResets_cons, if_pos hstart, countResets_of_not (not_startsReset_of_ne (by decide) _),
      countResets_of_not (not_startsReset_of_ne (by decide) _)]
  · simp only [List.cons_append, List.nil_append] at hstart ⊢
    rw [countResets_cons, if_pos hstart, countResets_of_not (not_startsReset_of_ne (by decide) _),
      countResets_of_not (not_startsReset_of_ne (by decide) _),
      countResets_of_not (not_startsReset_of_ne (by decide) _)]

/-- Joining texts loses no reset. -/
theorem countResets_append_le (s t : Text) : countResets s + countResets t ≤ countResets (s ++ t) := by
  induction s with
  | nil => exact (Nat.zero_add _).le
  | cons c s ih =>
    rw [List.cons_append, countResets_cons, countResets_cons]
    by_cases hs : StartsReset (c :: s)
    · have hst : StartsReset (c :: (s ++ t)) := hs.append t
      rw [if_pos hs, if_pos hst]
      omega
    · rw [if_neg hs]
      omega

theorem sum_countResets_le (ts : List Text) : (ts.map countResets).sum ≤ countResets ts.flatten := by
  induction ts with
  | nil => exact Nat.zero_le _
  | cons t ts ih =>
    rw [List.map_cons, List.sum_cons, List.flatten_cons]
    have := countResets_append_le t ts.flatten
    omega

/-! ## Replacing -/

/-- Every reset that is replaced gives the escapes of the replacement for its own. -/
theorem count_escape_replaceResets (restore s : Text) :
    (replaceResets restore s).count escape + countResets s = s.count escape + countResets s * restore.count escape := by
  induction s using resets_induction with
  | nil => simp [replaceResets, countResets, StartsReset, mem_resetSpellings]
  | reset r hr s ih =>
    have hone : r.count escape = 1 := by
      rcases mem_resetSpellings.1 hr with rfl | rfl
      · decide
      · decide
    rw [replaceResets_append_of_mem hr, countResets_append_of_mem hr, List.count_append, List.count_append, hone,
      Nat.add_mul]
    omega
  | cons c s hs ih =>
    rw [replaceResets_cons hs, countResets_of_not hs, List.count_cons, List.count_cons]
    omega

theorem count_escape_flatMap_replaceResets (restore : Text) (ts : List Text) :
    (ts.flatMap (replaceResets restore)).count escape + (ts.map countResets).sum
      = ts.flatten.count escape + (ts.map countResets).sum * restore.count escape := by
  induction ts with
  | nil => simp
  | cons t ts ih =>
    have ht := count_escape_replaceResets restore t
    rw [List.flatMap_cons, List.count_append, List.map_cons, List.sum_cons, List.flatten_cons, List.count_append,
      Nat.add_mul]
    omega

/-- A character that neither the resets nor the replacement have is counted as before. -/
theorem count_replaceResets {c : Char} (hc : c ∉ restore) (hr : ∀ r ∈ resetSpellings, c ∉ r) (s : Text) :
    (replaceResets restore s).count c = s.count c := by
  induction s using resets_induction with
  | nil => rfl
  | reset r hm s ih =>
    rw [replaceResets_append_of_mem hm, List.count_append, List.count_append, List.count_eq_zero_of_not_mem hc,
      List.count_eq_zero_of_not_mem (hr r hm), ih]
  | cons b s hs ih => rw [replaceResets_cons hs, List.count_cons, List.count_cons, ih]

/-- Texts without a reset across the seam may be joined before or after the replacement. -/
theorem replaceResets_append {s t : Text} (h : countResets (s ++ t) = countResets s + countResets t) :
    replaceResets restore (s ++ t) = replaceResets restore s ++ replaceResets restore t := by
  induction s using resets_induction with
  | nil => rfl
  | reset r hr s ih =>
    rw [List.append_assoc, countResets_append_of_mem hr, countResets_append_of_mem hr] at h
    rw [List.append_assoc, replaceResets_append_of_mem hr, replaceResets_append_of_mem hr, ih (by omega),
      List.append_assoc]
  | cons c s hs ih =>
    rw [List.cons_append, countResets_cons, countResets_of_not hs] at h
    have hle := countResets_append_le s t
    by_cases hst : StartsReset (c :: (s ++ t))
    · -- the reset would be one more
      rw [if_pos hst] at h
      omega
    · rw [if_neg hst] at h
      rw [List.cons_append, replaceResets_cons hst, replaceResets_cons hs, ih h, List.cons_append]

/-- A reset across a seam is one more replacement, and one more reset that is gone. -/
theorem count_escape_flatMap_replaceResets_le (h : 0 < restore.count escape) (ts : List Text) :
    (ts.flatMap (replaceResets restore)).count escape ≤ (replaceResets restore ts.flatten).count escape := by
  have hwhole := count_escape_replaceResets restore ts.flatten
  have hparts := count_escape_flatMap_replaceResets restore ts
  obtain ⟨n, hn⟩ := Nat.exists_eq_add_of_le (sum_countResets_le ts)
  have hgain : n ≤ n * restore.count escape := Nat.le_mul_of_pos_right n h
  rw [hn, Nat.add_mul] at hwhole
  omega

/-- A replacement with several escapes tells by their number whether there is a reset across a seam. -/
theorem countResets_flatten_of_count (h : 1 < restore.count escape) {ts : List Text}
    (he : (ts.flatMap (replaceResets restore)).count escape = (replaceResets restore ts.flatten).count escape) :
    countResets ts.flatten = (ts.map countResets).sum := by
  have hwhole := count_escape_replaceResets restore ts.flatten
  have hparts := count_escape_flatMap_replaceResets restore ts
  obtain ⟨n, hn⟩ := Nat.exists_eq_add_of_le (sum_countResets_le ts)
  rw [hn, Nat.add_mul] at hwhole
  have hsame : n * restore.count escape = n * 1 := by omega
  obtain rfl | hpos := Nat.eq_zero_or_pos n
  · exact hn
  · exact absurd (Nat.eq_of_mul_eq_mul_left hpos hsame) h.ne'

/-- **Texts may be joined before or after the replacement just when no reset lies across a seam.** -/
theorem flatMap_replaceResets_iff (h : 1 < restore.count escape) (ts : List Text) :
    ts.flatMap (replaceResets restore) = replaceResets restore ts.flatten ↔
      countResets ts.flatten = (ts.map countResets).sum := by
  constructor
  · intro he
    exact countResets_flatten_of_count h (congrArg (List.count escape) he)
  · intro he
    induction ts with
    | nil => rfl
    | cons t ts ih =>
      rw [List.flatten_cons, List.map_cons, List.sum_cons] at he
      have hle := sum_countResets_le ts
      have hseam := countResets_append_le t ts.flatten
      rw [List.flatMap_cons, List.flatten_cons, replaceResets_append (by omega), ih (by omega)]

/-! ## Rendered text -/

variable {profile : Profile} {base : Option Style}

theorem renderText_nil (profile : Profile) (base : Option Style) : renderText profile base [] = [] := ite_self _

theorem renderText_of_nil (h : baseAnsi profile base = []) : renderText profile base = id := funext fun _ => if_pos h

theorem renderText_of_ne_nil (h : baseAnsi profile base ≠ []) :
    renderText profile base = replaceResets (Sgr.reset ++ baseAnsi profile base) :=
  funext fun _ => if_neg h

end TerminalMarkup
