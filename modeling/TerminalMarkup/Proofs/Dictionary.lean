import Mathlib.Data.List.Induction
import TerminalMarkup.Dictionary

/-!
# Dictionaries of lists

The dictionary of a list of entries has the last value of each key (`Dictionary.get?_insertAll`), and its entries are
among those of the list (`Dictionary.mem_of_get?_ofList`). Where the keys of a dictionary are given other names, the
greatest of the keys with one name counts (`Dictionary.get?_ofList_map_toList`).
-/

namespace TerminalMarkup

namespace Dictionary

variable {α : Type}

/-! ## Writing a list -/

/-- The last entry of a key stays. -/
theorem get?_insertAll (d : Dictionary α) (es : List (Text × α)) (k : Text) :
    (d.insertAll es).get? k = ((es.reverse.find? fun e => e.1 = k).map Prod.snd).or (d.get? k) := by
  induction es using List.reverseRecOn with
  | nil => rfl
  | append_singleton es e ih =>
    have hstep : d.insertAll (es ++ [e]) = (d.insertAll es).insert e.1 e.2 := List.foldl_append
    rw [hstep, get?_insert, List.reverse_append, List.reverse_singleton, List.singleton_append, List.find?_cons]
    by_cases he : e.1 = k
    · simp [he]
    · simp [he, ih]

theorem get?_ofList (es : List (Text × α)) (k : Text) :
    (ofList es).get? k = (es.reverse.find? fun e => e.1 = k).map Prod.snd := by
  rw [ofList, get?_insertAll, get?_empty, Option.or_none]

theorem mem_of_get?_ofList {es : List (Text × α)} {k : Text} {v : α} (h : (ofList es).get? k = some v) :
    (k, v) ∈ es := by
  rw [get?_ofList, Option.map_eq_some_iff] at h
  obtain ⟨e, he, rfl⟩ := h
  have hk : e.1 = k := by simpa using List.find?_some he
  exact hk ▸ List.mem_reverse.1 (List.mem_of_find?_eq_some he)

theorem exists_get?_ofList {es : List (Text × α)} {e : Text × α} (h : e ∈ es) : ∃ v, (ofList es).get? e.1 = some v := by
  rw [get?_ofList]
  cases hf : es.reverse.find? fun e' => e'.1 = e.1 with
  | some e' => exact ⟨e'.2, rfl⟩
  | none => exact absurd (List.find?_eq_none.1 hf e (List.mem_reverse.2 h)) (by simp)

/-- The value of a key is that of its last entry. -/
theorem get?_ofList_eq_some_iff {es : List (Text × α)} {k : Text} {v : α} :
    (ofList es).get? k = some v ↔ ∃ pre post, es = pre ++ (k, v) :: post ∧ ∀ e ∈ post, e.1 ≠ k := by
  have hsplit (pre post : List (Text × α)) (e : Text × α) :
      es.reverse = post.reverse ++ e :: pre.reverse ↔ es = pre ++ e :: post := by
    rw [← List.reverse_inj, List.reverse_reverse]
    simp
  simp only [get?_ofList, Option.map_eq_some_iff, List.find?_eq_some_iff_append]
  constructor
  · rintro ⟨e, ⟨hk, post, pre, hes, hpost⟩, rfl⟩
    obtain rfl : e.1 = k := by simpa using hk
    refine ⟨pre.reverse, post.reverse, ?_, fun x hx => by simpa using hpost x (List.mem_reverse.1 hx)⟩
    rw [← hsplit, List.reverse_reverse, List.reverse_reverse]
    exact hes
  · rintro ⟨pre, post, hes, hpost⟩
    refine ⟨(k, v), ⟨by simp, post.reverse, pre.reverse, (hsplit pre post _).2 hes, fun x hx => ?_⟩, rfl⟩
    simpa using hpost x (List.mem_reverse.1 hx)

/-- Where the keys of a list are given names, the last entry of each name counts. -/
theorem get?_ofList_map_eq_some_iff {es : List (Text × α)} (f : Text → Text) {k : Text} {v : α} :
    (ofList (es.map fun e => (f e.1, e.2))).get? k = some v ↔
      ∃ pre g post, es = pre ++ (g, v) :: post ∧ f g = k ∧ ∀ e ∈ post, f e.1 ≠ k := by
  rw [get?_ofList_eq_some_iff]
  constructor
  · rintro ⟨pre, post, hes, hpost⟩
    obtain ⟨pre', tail, rfl, -, htail⟩ := List.map_eq_append_iff.1 hes
    obtain ⟨e, post', rfl, he, rfl⟩ := List.map_eq_cons_iff.1 htail
    cases he
    exact ⟨pre', e.1, post', rfl, rfl, fun x hx => hpost _ (List.mem_map_of_mem hx)⟩
  · rintro ⟨pre, g, post, rfl, rfl, hpost⟩
    refine ⟨pre.map fun e => (f e.1, e.2), post.map fun e => (f e.1, e.2), List.map_append, fun x hx => ?_⟩
    obtain ⟨e, he, rfl⟩ := List.mem_map.1 hx
    exact hpost e he

/-- **Where the keys of a dictionary are given names, the greatest key of each name counts.** -/
theorem get?_ofList_map_toList (d : Dictionary α) (f : Text → Text) {k : Text} {v : α} :
    (ofList (d.toList.map fun e => (f e.1, e.2))).get? k = some v ↔
      ∃ g, d.get? g = some v ∧ f g = k ∧ ∀ g', d.contains g' = true → f g' = k → ¬ g < g' := by
  have hsorted := d.sorted
  rw [get?_ofList_map_eq_some_iff]
  constructor
  · rintro ⟨pre, g, post, hd, hk, hpost⟩
    rw [hd] at hsorted
    refine ⟨g, mem_toList_iff.1 (hd ▸ List.mem_append_right pre List.mem_cons_self), hk, fun g' hg' hk' hlt => ?_⟩
    obtain ⟨v', hv'⟩ := Option.isSome_iff_exists.1 hg'
    have hmem : (g', v') ∈ pre ++ (g, v) :: post := hd ▸ mem_toList_iff.2 hv'
    rcases List.mem_append.1 hmem with hpre | hmem
    · have hbefore := (List.pairwise_append.1 hsorted).2.2 (g', v') hpre (g, v) List.mem_cons_self
      exact List.lt_irrefl g (List.lt_trans hlt hbefore)
    · rcases List.mem_cons.1 hmem with he | hmem
      · cases he
        exact List.lt_irrefl g hlt
      · exact hpost (g', v') hmem hk'
  · rintro ⟨g, hg, hk, hgreatest⟩
    obtain ⟨pre, post, hd⟩ := List.append_of_mem (mem_toList_iff.2 hg)
    refine ⟨pre, g, post, hd, hk, fun e he hk' => ?_⟩
    have hmem : e ∈ d.toList := hd ▸ List.mem_append_right pre (List.mem_cons_of_mem _ he)
    have hcontains : d.contains e.1 = true := by
      rw [contains, mem_toList_iff.1 hmem]
      rfl
    rw [hd] at hsorted
    exact hgreatest e.1 hcontains hk' ((List.pairwise_cons.1 (List.pairwise_append.1 hsorted).2.1).1 e he)

/-- The entries of a dictionary make it again. -/
theorem ofList_toList (d : Dictionary α) : ofList d.toList = d := by
  refine ext_get? fun k => ?_
  cases hk : d.get? k with
  | some v =>
    obtain ⟨v', hv'⟩ := exists_get?_ofList (mem_toList_iff.2 hk)
    rw [hv', ← mem_toList_iff.1 (mem_of_get?_ofList hv'), hk]
  | none =>
    rw [Option.eq_none_iff_forall_ne_some]
    intro v hv
    rw [mem_toList_iff.1 (mem_of_get?_ofList hv)] at hk
    cases hk

/-! ## Keys -/

theorem nodup_keys (d : Dictionary α) : d.keys.Nodup :=
  List.pairwise_map.2 (d.sorted.imp Text.ne_of_lt)

theorem mem_keys_filter {d : Dictionary α} {p : Text → Bool} {k : Text} :
    k ∈ (d.filter p).keys ↔ p k = true ∧ d.contains k = true := by
  rw [mem_keys_iff, contains, get?_filter, contains]
  cases p k <;> simp

/-- Keeping some keys and keeping the others keeps all. -/
theorem size_filter_add (d : Dictionary α) (p : Text → Bool) :
    (d.filter p).size + (d.filter fun k => !p k).size = d.size := by
  rw [size, size, size, filter, filter, ← List.countP_eq_length_filter, ← List.countP_eq_length_filter,
    List.length_eq_countP_add_countP fun e => p e.1]
  simp only [Bool.not_eq_true, Bool.decide_eq_false]

end Dictionary
end TerminalMarkup
