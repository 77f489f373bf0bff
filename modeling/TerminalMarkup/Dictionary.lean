import TerminalMarkup.Text.Basic

/-!
# Dictionaries

A dictionary assigns values to finitely many texts. It is kept as its list of entries in strictly increasing order of
keys, so that equal dictionaries are equal lists (`Dictionary.ext_get?`). The order of texts is by code point, which is
the order of their bytes in UTF-8.

* `get?_insert`, `get?_erase`, `get?_filter` say what each operation does to the look-up,
* `mem_toList_iff` ties the entries to the look-up.
-/

namespace TerminalMarkup

namespace Text

/-- Of two different texts one comes before the other. -/
theorem lt_of_not_lt_of_ne {a b : Text} (h : ¬ a < b) (hne : a ≠ b) : b < a :=
  Classical.byContradiction fun h' => hne (List.le_antisymm (List.not_lt.1 h') (List.not_lt.1 h))

theorem ne_of_lt {a b : Text} (h : a < b) : a ≠ b := fun e => List.lt_irrefl b (e ▸ h)

end Text

/-- Values of type `α` for finitely many texts. -/
structure Dictionary (α : Type) where
  /-- The entries in order of their keys. -/
  toList : List (Text × α)
  sorted : toList.Pairwise fun a b => a.1 < b.1

namespace Dictionary

variable {α : Type}

/-! ## Sorted lists of entries -/

/-- Puts an entry into a sorted list, in place of the one with its key. -/
def insertEntry (k : Text) (v : α) : List (Text × α) → List (Text × α)
  | [] => [(k, v)]
  | e :: es => if k < e.1 then (k, v) :: e :: es else if k = e.1 then (k, v) :: es else e :: insertEntry k v es

theorem mem_insertEntry {k : Text} {v : α} {es : List (Text × α)} {x : Text × α} (h : x ∈ insertEntry k v es) :
    x = (k, v) ∨ x ∈ es := by
  induction es with
  | nil => simpa [insertEntry] using h
  | cons e es ih =>
    simp only [insertEntry] at h
    split at h
    · simpa using h
    · split at h
      · exact (List.mem_cons.1 h).imp_right (List.mem_cons_of_mem _)
      · rcases List.mem_cons.1 h with rfl | h
        · exact .inr List.mem_cons_self
        · exact (ih h).imp_right (List.mem_cons_of_mem _)

theorem sorted_insertEntry {k : Text} {v : α} {es : List (Text × α)} (hs : es.Pairwise fun a b => a.1 < b.1) :
    (insertEntry k v es).Pairwise fun a b => a.1 < b.1 := by
  induction es with
  | nil => simp [insertEntry]
  | cons e es ih =>
    obtain ⟨he, hes⟩ := List.pairwise_cons.1 hs
    simp only [insertEntry]
    split
    next hk =>
      refine List.pairwise_cons.2 ⟨fun x hx => ?_, hs⟩
      rcases List.mem_cons.1 hx with rfl | hx
      · exact hk
      · exact List.lt_trans hk (he x hx)
    next hk =>
      split
      next heq => exact List.pairwise_cons.2 ⟨fun x hx => heq ▸ he x hx, hes⟩
      next hne =>
        refine List.pairwise_cons.2 ⟨fun x hx => ?_, ih hes⟩
        rcases mem_insertEntry hx with rfl | hx
        · exact Text.lt_of_not_lt_of_ne hk hne
        · exact he x hx

/-- The value of a key in a list of entries. -/
def find? (k : Text) : List (Text × α) → Option α
  | [] => none
  | e :: es => if e.1 = k then some e.2 else find? k es

theorem find?_eq_none {k : Text} {es : List (Text × α)} : find? k es = none ↔ ∀ e ∈ es, e.1 ≠ k := by
  induction es with
  | nil => simp [find?]
  | cons e es ih =>
    simp only [find?]
    split
    · simp_all
    · simp_all

theorem find?_insertEntry {k k' : Text} {v : α} {es : List (Text × α)} (hs : es.Pairwise fun a b => a.1 < b.1) :
    find? k' (insertEntry k v es) = if k = k' then some v else find? k' es := by
  induction es with
  | nil => simp [insertEntry, find?]
  | cons e es ih =>
    obtain ⟨he, hes⟩ := List.pairwise_cons.1 hs
    simp only [insertEntry]
    split
    · simp [find?]
    · split
      next heq =>
        simp only [find?, heq]
        split <;> rfl
      next hne =>
        simp only [find?, ih hes]
        split
        · next h => simp [h ▸ hne]
        · rfl

theorem mem_iff_find? {k : Text} {v : α} {es : List (Text × α)} (hs : es.Pairwise fun a b => a.1 < b.1) :
    (k, v) ∈ es ↔ find? k es = some v := by
  induction es with
  | nil => simp [find?]
  | cons e es ih =>
    obtain ⟨he, hes⟩ := List.pairwise_cons.1 hs
    simp only [find?, List.mem_cons, ih hes]
    split
    next hek =>
      constructor
      · rintro (rfl | h)
        · rfl
        · exact absurd hek (Text.ne_of_lt (he _ ((ih hes).2 h)))
      · rintro h
        exact .inl (Prod.ext hek.symm (Option.some.inj h).symm)
    next hek => exact or_iff_right fun h => hek (h ▸ rfl)

/-- Sorted lists with the same look-up are equal. -/
theorem eq_of_find? {es fs : List (Text × α)} (hs : es.Pairwise fun a b => a.1 < b.1)
    (ht : fs.Pairwise fun a b => a.1 < b.1) (h : ∀ k, find? k es = find? k fs) : es = fs := by
  induction es generalizing fs with
  | nil =>
    cases fs with
    | nil => rfl
    | cons f fs => simpa [find?] using h f.1
  | cons e es ih =>
    cases fs with
    | nil => simpa [find?] using h e.1
    | cons f fs =>
      obtain ⟨he, hes⟩ := List.pairwise_cons.1 hs
      obtain ⟨hf, hfs⟩ := List.pairwise_cons.1 ht
      have hef : e ∈ f :: fs := by
        have := (mem_iff_find? ht (k := e.1) (v := e.2)).2 (by rw [← h]; simp [find?])
        exact this
      have hfe : f ∈ e :: es := by
        have := (mem_iff_find? hs (k := f.1) (v := f.2)).2 (by rw [h]; simp [find?])
        exact this
      have heq : e = f := by
        rcases List.mem_cons.1 hef with h1 | h1
        · exact h1
        rcases List.mem_cons.1 hfe with h2 | h2
        · exact h2.symm
        exact absurd (List.lt_trans (he _ h2) (hf _ h1)) (List.lt_irrefl _)
      subst heq
      congr 1
      refine ih hes hfs fun k => ?_
      by_cases hk : e.1 = k
      · subst hk
        rw [find?_eq_none.2 fun x hx => (Text.ne_of_lt (he x hx)).symm,
          find?_eq_none.2 fun x hx => (Text.ne_of_lt (hf x hx)).symm]
      · simpa [find?, hk] using h k

theorem find?_filter {k : Text} {es : List (Text × α)} (p : Text → Bool) :
    find? k (es.filter fun e => p e.1) = if p k then find? k es else none := by
  induction es with
  | nil => simp [find?]
  | cons e es ih =>
    simp only [List.filter_cons]
    by_cases hek : e.1 = k
    · subst hek
      split
      · simp_all [find?]
      · simp_all
    · split
      · simp [find?, hek, ih]
      · simp [find?, hek, ih]

/-! ## Operations -/

/-- The dictionary without entries. -/
def empty : Dictionary α := ⟨[], .nil⟩

instance : EmptyCollection (Dictionary α) := ⟨empty⟩

instance : Inhabited (Dictionary α) := ⟨empty⟩

instance [DecidableEq α] : DecidableEq (Dictionary α) := fun d e =>
  if h : d.toList = e.toList then isTrue (by cases d; cases e; simp_all) else isFalse fun he => h (he ▸ rfl)

/-- The value of a key. -/
def get? (d : Dictionary α) (k : Text) : Option α := find? k d.toList

/-- The key has a value. -/
def contains (d : Dictionary α) (k : Text) : Bool := (d.get? k).isSome

/-- Gives the key a value. -/
def insert (d : Dictionary α) (k : Text) (v : α) : Dictionary α :=
  ⟨insertEntry k v d.toList, sorted_insertEntry d.sorted⟩

/-- Keeps the entries whose key satisfies `p`. -/
def filter (d : Dictionary α) (p : Text → Bool) : Dictionary α :=
  ⟨d.toList.filter fun e => p e.1, d.sorted.sublist List.filter_sublist⟩

/-- Removes a key. -/
def erase (d : Dictionary α) (k : Text) : Dictionary α := d.filter fun x => x ≠ k

/-- Inserts entries from left to right, so that the last one of a key stays. -/
def insertAll (d : Dictionary α) (es : List (Text × α)) : Dictionary α := es.foldl (fun d e => d.insert e.1 e.2) d

/-- The dictionary of a list of entries, the last one of each key. -/
def ofList (es : List (Text × α)) : Dictionary α := empty.insertAll es

/-- The number of entries. -/
def size (d : Dictionary α) : Nat := d.toList.length

/-- The keys in order. -/
def keys (d : Dictionary α) : List Text := d.toList.map Prod.fst

/-! ## The look-up -/

@[ext] theorem ext_get? {d e : Dictionary α} (h : ∀ k, d.get? k = e.get? k) : d = e := by
  cases d with | mk es hs => cases e with | mk fs ht =>
  congr 1
  exact eq_of_find? hs ht h

theorem mem_toList_iff {d : Dictionary α} {k : Text} {v : α} : (k, v) ∈ d.toList ↔ d.get? k = some v :=
  mem_iff_find? d.sorted

@[simp] theorem get?_empty (k : Text) : (empty : Dictionary α).get? k = none := rfl

@[simp] theorem get?_insert (d : Dictionary α) (k k' : Text) (v : α) :
    (d.insert k v).get? k' = if k = k' then some v else d.get? k' :=
  find?_insertEntry d.sorted

@[simp] theorem get?_filter (d : Dictionary α) (p : Text → Bool) (k : Text) :
    (d.filter p).get? k = if p k then d.get? k else none :=
  find?_filter p

@[simp] theorem get?_erase (d : Dictionary α) (k k' : Text) :
    (d.erase k).get? k' = if k' = k then none else d.get? k' := by
  by_cases h : k' = k <;> simp [erase, h]

theorem mem_keys_iff {d : Dictionary α} {k : Text} : k ∈ d.keys ↔ d.contains k = true := by
  simp only [keys, contains, List.mem_map, Option.isSome_iff_exists]
  constructor
  · rintro ⟨⟨k, v⟩, hm, rfl⟩
    exact ⟨v, mem_toList_iff.1 hm⟩
  · rintro ⟨v, hv⟩
    exact ⟨(k, v), mem_toList_iff.2 hv, rfl⟩

end Dictionary
end TerminalMarkup
