import Mathlib.Data.List.DropRight
import TerminalMarkup.Text.Blank

/-!
# Ends of texts

Dropping characters at one end of a text leaves the other end alone. It commutes with dropping at the other end
(`dropWhile_dropEndWhile`), and of two parts it concerns the nearer one only, unless that one goes altogether
(`dropEndWhile_append`, `strip_append`). What is left depends on the characters at the ends alone (`strip_eq_self_iff`).
-/

namespace TerminalMarkup

namespace Text

variable {f : Char → Bool}

/-! ## Dropping at the end -/

theorem dropEndWhile_eq_rdropWhile (f : Char → Bool) (s : Text) : dropEndWhile f s = s.rdropWhile f := rfl

theorem dropEndWhile_dropEndWhile (s : Text) : dropEndWhile f (dropEndWhile f s) = dropEndWhile f s :=
  List.rdropWhile_idempotent f s

theorem dropEndWhile_eq_nil_iff {s : Text} : dropEndWhile f s = [] ↔ ∀ c ∈ s, f c = true :=
  List.rdropWhile_eq_nil_iff

/-- Of two parts the second loses characters, and the first only if nothing of the second is left. -/
theorem dropEndWhile_append (s t : Text) :
    dropEndWhile f (s ++ t) = if dropEndWhile f t = [] then dropEndWhile f s else s ++ dropEndWhile f t := by
  simp only [dropEndWhile, List.reverse_append, List.dropWhile_append, List.isEmpty_iff, List.reverse_eq_nil_iff]
  split
  · rfl
  · rw [List.reverse_append, List.reverse_reverse]

theorem dropEndWhile_append_of_ne_nil {t : Text} (ht : dropEndWhile f t ≠ []) (s : Text) :
    dropEndWhile f (s ++ t) = s ++ dropEndWhile f t := by
  rw [dropEndWhile_append, if_neg ht]

theorem dropWhile_append_of_ne_nil {s : Text} (hs : s.dropWhile f ≠ []) (t : Text) :
    (s ++ t).dropWhile f = s.dropWhile f ++ t := by
  rw [List.dropWhile_append, if_neg (by simpa using hs)]

/-- Dropping at one end commutes with dropping at the other. -/
theorem dropWhile_dropEndWhile (s : Text) : (dropEndWhile f s).dropWhile f = dropEndWhile f (s.dropWhile f) := by
  induction s with
  | nil => rfl
  | cons c s ih =>
    have hsplit := dropEndWhile_append (f := f) [c] s
    rw [List.singleton_append] at hsplit
    by_cases hc : f c = true
    · rw [List.dropWhile_cons_of_pos hc, hsplit]
      split
      next hs =>
        have hall : ∀ x ∈ s, f x = true := dropEndWhile_eq_nil_iff.1 hs
        have hone : dropEndWhile f [c] = [] := dropEndWhile_eq_nil_iff.2 (by simpa using hc)
        rw [hone, List.dropWhile_eq_nil_iff.2 hall]
        rfl
      · rw [List.singleton_append, List.dropWhile_cons_of_pos hc, ih]
    · rw [List.dropWhile_cons_of_neg hc, hsplit]
      split
      · have hone : dropEndWhile f [c] = [c] := by
          rw [dropEndWhile_eq_rdropWhile, List.rdropWhile_singleton, if_neg hc]
        rw [hone, List.dropWhile_cons_of_neg hc]
      · rw [List.singleton_append, List.dropWhile_cons_of_neg hc]

/-- A part of a text in front begins as the text does. -/
theorem dropWhile_eq_self_of_prefix {s t : Text} (h : t.dropWhile f = t) (hp : s <+: t) : s.dropWhile f = s := by
  obtain ⟨u, rfl⟩ := hp
  rw [List.dropWhile_eq_self_iff] at h ⊢
  intro hl
  have := h (by rw [List.length_append]; omega)
  rwa [List.getElem_append_left hl] at this

/-- A part of a text at its end ends as the text does. -/
theorem dropEndWhile_eq_self_of_suffix {s t : Text} (h : dropEndWhile f t = t) (hs : s <:+ t) :
    dropEndWhile f s = s := by
  have hr : t.reverse.dropWhile f = t.reverse := by
    rw [← List.reverse_eq_iff]
    exact h
  have hp := dropWhile_eq_self_of_prefix hr (List.reverse_prefix.2 hs)
  rw [dropEndWhile, hp, List.reverse_reverse]

/-! ## Stripping both ends -/

theorem strip_append {s t : Text} (hs : s.dropWhile f ≠ []) (ht : dropEndWhile f t ≠ []) :
    strip f (s ++ t) = s.dropWhile f ++ dropEndWhile f t := by
  rw [strip, dropWhile_append_of_ne_nil hs, dropEndWhile_append_of_ne_nil ht]

theorem strip_eq_dropWhile (s : Text) : strip f s = (dropEndWhile f s).dropWhile f := (dropWhile_dropEndWhile s).symm

theorem dropWhile_strip (s : Text) : (strip f s).dropWhile f = strip f s := by
  rw [strip_eq_dropWhile, List.dropWhile_idempotent]

theorem dropEndWhile_strip (s : Text) : dropEndWhile f (strip f s) = strip f s := dropEndWhile_dropEndWhile _

theorem strip_of_ends {s : Text} (h : s.dropWhile f = s) (h' : dropEndWhile f s = s) : strip f s = s := by
  rw [strip, h, h']

theorem strip_strip (s : Text) : strip f (strip f s) = strip f s :=
  strip_of_ends (dropWhile_strip s) (dropEndWhile_strip s)

theorem strip_sublist (s : Text) : (strip f s).Sublist s :=
  (List.rdropWhile_prefix f _).sublist.trans (List.dropWhile_sublist f)

/-- A text is stripped of nothing just when the characters at both ends stay. -/
theorem strip_eq_self_iff {s : Text} :
    strip f s = s ↔ s.head?.map f ≠ some true ∧ s.getLast?.map f ≠ some true := by
  have hfront : s.dropWhile f = s ↔ s.head?.map f ≠ some true := by
    cases s with
    | nil => simp
    | cons c s => simp [List.dropWhile_eq_self_iff]
  have hback : dropEndWhile f s = s ↔ s.getLast?.map f ≠ some true := by
    rw [dropEndWhile_eq_rdropWhile, List.rdropWhile_eq_self_iff]
    by_cases hs : s = []
    · simp [hs]
    · simp [List.getLast?_eq_some_getLast, hs]
  rw [← hfront, ← hback]
  constructor
  · intro h
    have hstart := dropWhile_strip (f := f) s
    have hend := dropEndWhile_strip (f := f) s
    rw [h] at hstart hend
    exact ⟨hstart, hend⟩
  · rintro ⟨hstart, hend⟩
    exact strip_of_ends hstart hend

/-- A text without the characters that are stripped stays as it is. -/
theorem strip_of_forall_not {s : Text} (h : ∀ c ∈ s, f c = false) : strip f s = s := by
  refine strip_eq_self_iff.2 ⟨fun hfirst => ?_, fun hlast => ?_⟩
  · obtain ⟨c, hc, hf⟩ := Option.map_eq_some_iff.1 hfirst
    rw [h c (List.mem_of_head? hc)] at hf
    cases hf
  · obtain ⟨c, hc, hf⟩ := Option.map_eq_some_iff.1 hlast
    rw [h c (List.mem_of_getLast? hc)] at hf
    cases hf

theorem trim_trim (s : Text) : s.trim.trim = s.trim := strip_strip s

theorem trim_of_not_blank {s : Text} (h : ∀ c ∈ s, isBlank c = false) : s.trim = s := strip_of_forall_not h

theorem mem_of_mem_trim {s : Text} {c : Char} (h : c ∈ s.trim) : c ∈ s := (strip_sublist s).subset h

end Text
end TerminalMarkup
