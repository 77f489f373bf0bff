import Mathlib.Data.List.Perm.Subperm
import TerminalMarkup.Proofs.Theme.Reference

/-!
# Walks over a theme table

A resolution walks from key to key and remembers what it has seen. `Scope.Valid` is what holds of its memory at every
moment: a settled result is the reading of its key, and a key with a finished result is cyclic.

* One visit (`resolves_entry`): a result that no cut has touched is the reading of the key, a result that a cut has
  touched is that of a cyclic key; the memory stays valid, the keys on the way are the same as before, and the depth
  is never used up, since there are no more keys on the way than in the table (`Enters.length_lt`).
* Two visits (`agree_entry`): the settled results do not matter. Two walks with the same keys on the way and the same
  finished results give the same result, whatever either of them has settled before.
-/

namespace TerminalMarkup

namespace Dictionary

variable {α : Type}

theorem mem_keys_of_get? {d : Dictionary α} {k : Text} {v : α} (h : d.get? k = some v) : k ∈ d.keys :=
  mem_keys_iff.2 (by rw [contains, h]; rfl)

/-- There are no more different keys than entries. -/
theorem length_le_size {d : Dictionary α} {l : List Text} (hn : l.Nodup) (hs : ∀ k ∈ l, k ∈ d.keys) :
    l.length ≤ d.size := by
  have h := (List.subperm_of_subset hn hs).length_le
  rwa [keys, List.length_map] at h

end Dictionary

namespace Scope

variable {sc : Scope}

/-! ## The memory of a walk -/

/-- What holds of a walk at every moment. -/
structure Valid (sc : Scope) (p : Progress) : Prop where
  settled : ∀ ⦃k : Text⦄ ⦃v : Composition⦄, p.settled.get? k = some v → sc.ReadsAs k v
  finished : ∀ ⦃k : Text⦄ ⦃v : Composition⦄, p.finished.get? k = some v → sc.Cyclic k
  visiting : ∀ k ∈ p.visiting, k ∈ sc.table.keys
  nodup : p.visiting.Nodup

/-- The references of every key on the way lead to `k`. -/
def Leads (sc : Scope) (p : Progress) (k : Text) : Prop := ∀ l ∈ p.visiting, Relation.TransGen sc.Refers l k

/-- The walk may visit the key `k`, whose value is `raw`. -/
structure Enters (sc : Scope) (p : Progress) (k raw : Text) : Prop where
  valid : sc.Valid p
  value : sc.table.get? k = some raw
  fresh : k ∉ p.visiting
  leads : sc.Leads p k

/-- What a part of a walk from `p` has done: the composition is one that `Read` allows if nothing has been cut, and
there is a cycle otherwise. -/
structure Outcome (sc : Scope) (p : Progress) (Read : Composition → Prop) (Cycle : Prop) (out : Resolution × Progress) :
    Prop where
  visiting : out.2.visiting = p.visiting
  valid : sc.Valid out.2
  uncut : out.1.cut = false → Read out.1.composition ∧ out.2.finished = p.finished
  cut : out.1.cut = true → Cycle

/-- A visit to a key that the walk may enter is as it should be. -/
def Resolves (sc : Scope) (entry : Text → Text → Progress → Resolution × Progress) (vs : List Text) : Prop :=
  ∀ ⦃p : Progress⦄ ⦃k raw : Text⦄, p.visiting = vs → sc.Enters p k raw →
    sc.Outcome p (sc.ReadsAs k) (sc.Cyclic k) (entry k raw p)

/-- Some reference among the tags means a cyclic key. -/
def MeetsCycle (sc : Scope) (ts : List Token) : Prop :=
  ∃ name k raw, .semantic name ∈ ts ∧ sc.target? name = some (k, raw) ∧ sc.Cyclic k

/-- Every key that the tags refer to may be visited, or is on the way already. -/
def Follows (sc : Scope) (p : Progress) (ts : List Token) : Prop :=
  ∀ name k raw, .semantic name ∈ ts → sc.target? name = some (k, raw) → sc.Leads p k

theorem MeetsCycle.cons {t : Token} {ts : List Token} (h : sc.MeetsCycle ts) : sc.MeetsCycle (t :: ts) := by
  obtain ⟨name, k, raw, hm, ht, hc⟩ := h
  exact ⟨name, k, raw, List.mem_cons_of_mem _ hm, ht, hc⟩

theorem MeetsCycle.head {t : Token} {ts : List Token} (h : sc.MeetsCycle [t]) : sc.MeetsCycle (t :: ts) := by
  obtain ⟨name, k, raw, hm, ht, hc⟩ := h
  exact ⟨name, k, raw, List.mem_cons.2 (.inl (List.mem_singleton.1 hm)), ht, hc⟩

theorem Follows.head {p : Progress} {t : Token} {ts : List Token} (h : sc.Follows p (t :: ts)) : sc.Follows p [t] :=
  fun name k raw hm ht => h name k raw (List.mem_cons.2 (.inl (List.mem_singleton.1 hm))) ht

theorem Follows.tail {p : Progress} {t : Token} {ts : List Token} (h : sc.Follows p (t :: ts)) : sc.Follows p ts :=
  fun name k raw hm ht => h name k raw (List.mem_cons_of_mem _ hm) ht

theorem Follows.of_visiting {p q : Progress} {ts : List Token} (h : sc.Follows p ts) (he : q.visiting = p.visiting) :
    sc.Follows q ts := by
  intro name k raw hm ht l hl
  exact h name k raw hm ht l (he ▸ hl)

/-- A key that is entered is one more key of the table beside those on the way. -/
theorem Enters.length_lt {p : Progress} {k raw : Text} (h : sc.Enters p k raw) :
    p.visiting.length < sc.table.size := by
  refine Dictionary.length_le_size (l := k :: p.visiting) (List.nodup_cons.2 ⟨h.fresh, h.valid.nodup⟩) ?_
  intro l hl
  rcases List.mem_cons.1 hl with rfl | hl
  · exact Dictionary.mem_keys_of_get? h.value
  · exact h.valid.visiting l hl

/-- A walk that enters a key has depth left. -/
theorem Enters.exists_depth {p : Progress} {k raw : Text} {depth : Nat} (h : sc.Enters p k raw)
    (hr : sc.table.size ≤ depth + p.visiting.length) : ∃ d, depth = d + 1 := by
  have := h.length_lt
  exact ⟨depth - 1, by omega⟩

/-- The walk inside a key: the key is on the way, and its references may be followed. -/
theorem Enters.inside {p : Progress} {k raw : Text} (h : sc.Enters p k raw) :
    sc.Valid { p with visiting := k :: p.visiting } ∧
      sc.Follows { p with visiting := k :: p.visiting } (tagsOf sc.delimiters raw) := by
  refine ⟨⟨h.valid.settled, h.valid.finished, ?_, List.nodup_cons.2 ⟨h.fresh, h.valid.nodup⟩⟩, ?_⟩
  · intro l hl
    rcases List.mem_cons.1 hl with rfl | hl
    · exact Dictionary.mem_keys_of_get? h.value
    · exact h.valid.visiting l hl
  · intro name m raw' hm ht l hl
    have hkm : sc.Refers k m := ⟨raw, name, raw', h.value, hm, ht⟩
    rcases List.mem_cons.1 hl with rfl | hl
    · exact .single hkm
    · exact (h.leads l hl).tail hkm

/-! ## One reference -/

section Walks

variable {entry entry' : Text → Text → Progress → Resolution × Progress} {p q : Progress}

/-- What a reference does: it is looked up in the registry, or cut, or visited. -/
theorem reference_cases (hp : sc.Valid p) (entry : Text → Text → Progress → Resolution × Progress) (name : Text) :
    (sc.target? name = none ∧ sc.reference entry name p = (⟨sc.fromRegistry name, false⟩, p)) ∨
      ∃ k raw, sc.target? name = some (k, raw) ∧
        ((k ∈ p.visiting ∧ sc.reference entry name p = (⟨.empty, true⟩, p)) ∨
          (k ∉ p.visiting ∧ sc.reference entry name p = entry k raw p)) := by
  unfold reference target?
  by_cases hn : isThemeReference name = true
  · simp only [hn, if_true]
    cases hg : sc.table.get? (themeKey name) with
    | none =>
      have hv : themeKey name ∉ p.visiting := by
        intro hv
        have := Dictionary.mem_keys_iff.1 (hp.visiting _ hv)
        rw [Dictionary.contains, hg] at this
        cases this
      exact .inl ⟨rfl, by rw [if_neg hv]⟩
    | some raw =>
      refine .inr ⟨themeKey name, raw, rfl, ?_⟩
      by_cases hv : themeKey name ∈ p.visiting
      · exact .inl ⟨hv, by rw [if_pos hv]⟩
      · exact .inr ⟨hv, by rw [if_neg hv]⟩
  · rw [if_neg hn, if_neg hn]
    exact .inl ⟨rfl, rfl⟩

/-- A reference gives what its value reads as, or meets a cycle. -/
theorem outcome_reference (he : sc.Resolves entry p.visiting) (hp : sc.Valid p) {name : Text}
    (hf : sc.Follows p [.semantic name]) :
    sc.Outcome p (fun v => ∀ c, sc.Reads [.semantic name] c (c.merge v)) (sc.MeetsCycle [.semantic name])
      (sc.reference entry name p) := by
  rcases reference_cases hp entry name with ⟨ht, hr⟩ | ⟨k, raw, ht, ⟨hv, hr⟩ | ⟨hv, hr⟩⟩
  · rw [hr]
    exact ⟨rfl, hp, fun _ => ⟨fun c => .outside ht (.nil _), rfl⟩, fun h => by cases h⟩
  · rw [hr]
    have hk : sc.Cyclic k := .of_transGen (hf name k raw List.mem_cons_self ht k hv)
    exact ⟨rfl, hp, fun h => absurd h (by simp), fun _ => ⟨name, k, raw, List.mem_cons_self, ht, hk⟩⟩
  · rw [hr]
    have hg := (of_target? ht).2.2
    have ho := he rfl ⟨hp, hg, hv, hf name k raw List.mem_cons_self ht⟩
    refine ⟨ho.visiting, ho.valid, fun hc => ?_, fun hc => ⟨name, k, raw, List.mem_cons_self, ht, ho.cut hc⟩⟩
    obtain ⟨⟨raw', hg', hv'⟩, hfin⟩ := ho.uncut hc
    rw [hg] at hg'
    cases hg'
    exact ⟨fun c => .inside ht hv' (.nil _), hfin⟩

/-! ## The tags of a value -/

@[simp] theorem composeTag_text (s : Text) (res : Resolution) :
    sc.composeTag entry (res, p) (.text s) = (res, p) := rfl

@[simp] theorem composeTag_direct (code : Text) (res : Resolution) :
    sc.composeTag entry (res, p) (.direct code) = (⟨res.composition.overlay code, res.cut⟩, p) := rfl

@[simp] theorem composeTag_semantic (name : Text) (res : Resolution) :
    sc.composeTag entry (res, p) (.semantic name) =
      (⟨res.composition.merge (sc.reference entry name p).1.composition, res.cut || (sc.reference entry name p).1.cut⟩,
        (sc.reference entry name p).2) := rfl

/-- Tags that follow a result: they read as far as nothing has been cut. The induction is on the tags, and keeps the
result so far general. -/
theorem outcome_tags (ts : List Token) : ∀ (res : Resolution) (p : Progress), sc.Resolves entry p.visiting →
    sc.Valid p → sc.Follows p ts →
    sc.Outcome p (fun v => res.cut = false ∧ sc.Reads ts res.composition v) (res.cut = true ∨ sc.MeetsCycle ts)
      (ts.foldl (sc.composeTag entry) (res, p)) := by
  induction ts with
  | nil =>
    intro res p _ hp _
    exact ⟨rfl, hp, fun hc => ⟨⟨hc, .nil _⟩, rfl⟩, fun hc => .inl hc⟩
  | cons t ts ih =>
    intro res p he hp hf
    rw [List.foldl_cons]
    cases t with
    | text s =>
      rw [composeTag_text]
      have ho := ih res p he hp hf.tail
      refine ⟨ho.visiting, ho.valid, fun hc => ?_, fun hc => (ho.cut hc).imp_right .cons⟩
      obtain ⟨⟨hr, hts⟩, hfin⟩ := ho.uncut hc
      exact ⟨⟨hr, .text s hts⟩, hfin⟩
    | direct code =>
      rw [composeTag_direct]
      have ho := ih ⟨res.composition.overlay code, res.cut⟩ p he hp hf.tail
      refine ⟨ho.visiting, ho.valid, fun hc => ?_, fun hc => (ho.cut hc).imp_right .cons⟩
      obtain ⟨⟨hr, hts⟩, hfin⟩ := ho.uncut hc
      exact ⟨⟨hr, .direct code hts⟩, hfin⟩
    | semantic name =>
      rw [composeTag_semantic]
      have h1 := outcome_reference he hp hf.head
      generalize sc.reference entry name p = out at h1 ⊢
      obtain ⟨⟨v, b⟩, p'⟩ := out
      have ho := ih ⟨res.composition.merge v, res.cut || b⟩ p' (h1.visiting ▸ he) h1.valid
        (hf.tail.of_visiting h1.visiting)
      refine ⟨ho.visiting.trans h1.visiting, ho.valid, fun hc => ?_, fun hc => ?_⟩
      · obtain ⟨⟨hr, hts⟩, hfin⟩ := ho.uncut hc
        obtain ⟨hres, hb⟩ := Bool.or_eq_false_iff.1 hr
        obtain ⟨hread, hfin1⟩ := h1.uncut hb
        exact ⟨⟨hres, (hread res.composition).append hts⟩, hfin.trans hfin1⟩
      · rcases ho.cut hc with hc | hc
        · exact (Bool.or_eq_true_iff.1 hc).imp_right fun hb => (h1.cut hb).head
        · exact .inr hc.cons

/-- A value reads as its tags do. -/
theorem outcome_compose (he : sc.Resolves entry p.visiting) (hp : sc.Valid p) (raw : Text)
    (hf : sc.Follows p (tagsOf sc.delimiters raw)) :
    sc.Outcome p (sc.Reads (tagsOf sc.delimiters raw) .empty) (sc.MeetsCycle (tagsOf sc.delimiters raw))
      (sc.compose entry raw p) := by
  have ho := outcome_tags (tagsOf sc.delimiters raw) ⟨.empty, false⟩ p he hp hf
  refine ⟨ho.visiting, ho.valid, fun hc => ?_, fun hc => ?_⟩
  · obtain ⟨⟨-, hr⟩, hfin⟩ := ho.uncut hc
    exact ⟨hr, hfin⟩
  · rcases ho.cut hc with hc | hc
    · cases hc
    · exact hc

/-! ## A visit -/

/-- Ends the visit of a key, and keeps its result. -/
def leave (k : Text) (out : Resolution × Progress) : Resolution × Progress :=
  (out.1,
    if out.1.cut then
      { out.2 with visiting := out.2.visiting.erase k, finished := out.2.finished.insert k out.1.composition }
    else { out.2 with visiting := out.2.visiting.erase k, settled := out.2.settled.insert k out.1.composition })

theorem visiting_leave (k : Text) (out : Resolution × Progress) :
    (leave k out).2.visiting = out.2.visiting.erase k := by
  unfold leave
  dsimp only
  split
  · rfl
  · rfl

theorem entry_settled {k raw : Text} {v : Composition} (d : Nat) (h : p.settled.get? k = some v) :
    sc.entry (d + 1) k raw p = (⟨v, false⟩, p) := by
  simp only [Scope.entry, h]

theorem entry_finished {k raw : Text} {v : Composition} (d : Nat) (hs : p.settled.get? k = none)
    (h : p.finished.get? k = some v) : sc.entry (d + 1) k raw p = (⟨v, true⟩, p) := by
  simp only [Scope.entry, hs, h]

theorem entry_fresh {k raw : Text} (d : Nat) (hs : p.settled.get? k = none) (hf : p.finished.get? k = none) :
    sc.entry (d + 1) k raw p = leave k (sc.compose (sc.entry d) raw { p with visiting := k :: p.visiting }) := by
  simp only [Scope.entry, hs, hf, leave]
  split <;> rfl

/-- Leaving a key keeps the memory valid. -/
theorem outcome_leave {k raw : Text} {out : Resolution × Progress} (h : sc.Enters p k raw)
    (ho : sc.Outcome { p with visiting := k :: p.visiting } (sc.Reads (tagsOf sc.delimiters raw) .empty)
      (sc.MeetsCycle (tagsOf sc.delimiters raw)) out) :
    sc.Outcome p (sc.ReadsAs k) (sc.Cyclic k) (leave k out) := by
  have hvis : out.2.visiting.erase k = p.visiting := by rw [ho.visiting, List.erase_cons_head]
  have hread (hc : out.1.cut = false) : sc.ReadsAs k out.1.composition := ⟨raw, h.value, (ho.uncut hc).1⟩
  have hcyc (hc : out.1.cut = true) : sc.Cyclic k := by
    obtain ⟨name, l, raw', hm, ht, hl⟩ := ho.cut hc
    exact hl.of_refers ⟨raw, name, raw', h.value, hm, ht⟩
  cases hc : out.1.cut with
  | true =>
    simp only [leave, hc, if_true]
    refine ⟨hvis, ⟨ho.valid.settled, ?_, hvis ▸ h.valid.visiting, hvis ▸ h.valid.nodup⟩, fun hc' => ?_,
      fun _ => hcyc hc⟩
    · intro l v hl
      rw [Dictionary.get?_insert] at hl
      split at hl
      next he => exact he ▸ hcyc hc
      · exact ho.valid.finished hl
    · rw [hc] at hc'
      cases hc'
  | false =>
    simp only [leave, hc, Bool.false_eq_true, if_false]
    refine ⟨hvis, ⟨?_, ho.valid.finished, hvis ▸ h.valid.visiting, hvis ▸ h.valid.nodup⟩,
      fun _ => ⟨hread hc, (ho.uncut hc).2⟩, fun hc' => ?_⟩
    · intro l v hl
      rw [Dictionary.get?_insert] at hl
      split at hl
      next he =>
        cases hl
        exact he ▸ hread hc
      · exact ho.valid.settled hl
    · rw [hc] at hc'
      cases hc'

/-- **One visit.** Where the depth suffices, visiting a key gives its reading or shows that the key is cyclic. The
induction is on the depth. -/
theorem resolves_entry : ∀ (depth : Nat) {vs : List Text}, sc.table.size ≤ depth + vs.length →
    sc.Resolves (sc.entry depth) vs := by
  intro depth
  induction depth with
  | zero =>
    intro vs hr p k raw hv h
    subst hv
    obtain ⟨d, hd⟩ := h.exists_depth hr
    cases hd
  | succ d ih =>
    intro vs hr p k raw hv h
    subst hv
    cases hs : p.settled.get? k with
    | some v =>
      rw [entry_settled d hs]
      exact ⟨rfl, h.valid, fun _ => ⟨h.valid.settled hs, rfl⟩, fun hc => by cases hc⟩
    | none =>
      cases hf : p.finished.get? k with
      | some v =>
        rw [entry_finished d hs hf]
        exact ⟨rfl, h.valid, fun hc => absurd hc (by simp), fun _ => h.valid.finished hf⟩
      | none =>
        rw [entry_fresh d hs hf]
        have hroom : sc.table.size ≤ d + (k :: p.visiting).length := by
          rw [List.length_cons]
          omega
        exact outcome_leave h (outcome_compose (ih hroom) h.inside.1 raw h.inside.2)

/-- The result for a key that reads as something. -/
theorem entry_eq_of_readsAs {depth : Nat} {k raw : Text} {v : Composition}
    (hr : sc.table.size ≤ depth + p.visiting.length) (h : sc.Enters p k raw) (hk : sc.ReadsAs k v) :
    (sc.entry depth k raw p).1 = ⟨v, false⟩ ∧ (sc.entry depth k raw p).2.finished = p.finished := by
  have ho := resolves_entry depth hr rfl h
  have hc : (sc.entry depth k raw p).1.cut = false := by
    cases hc : (sc.entry depth k raw p).1.cut with
    | false => rfl
    | true => exact absurd (ho.cut hc) hk.not_cyclic
  obtain ⟨hread, hfin⟩ := ho.uncut hc
  refine ⟨?_, hfin⟩
  rcases hout : (sc.entry depth k raw p).1 with ⟨c, b⟩
  rw [hout] at hc hread
  obtain rfl := hread.det hk
  exact congrArg _ hc

/-! ## Two walks -/

/-- Two walks on the same keys that have finished the same keys, but may have settled different ones. -/
structure Alike (sc : Scope) (p q : Progress) : Prop where
  left : sc.Valid p
  right : sc.Valid q
  visiting : q.visiting = p.visiting
  finished : q.finished = p.finished

/-- Visits from alike walks give the same result, and leave the walks alike. -/
def Agree (sc : Scope) (entry entry' : Text → Text → Progress → Resolution × Progress) (vs : List Text) : Prop :=
  ∀ ⦃p q : Progress⦄ ⦃k raw : Text⦄, p.visiting = vs → sc.Alike p q → sc.Enters p k raw →
    (entry' k raw q).1 = (entry k raw p).1 ∧ sc.Alike (entry k raw p).2 (entry' k raw q).2

theorem Enters.of_alike {k raw : Text} (h : sc.Enters p k raw) (ha : sc.Alike p q) : sc.Enters q k raw :=
  ⟨ha.right, h.value, ha.visiting ▸ h.fresh, fun l hl => h.leads l (ha.visiting ▸ hl)⟩

theorem agree_reference (hag : sc.Agree entry entry' p.visiting) (ha : sc.Alike p q) {name : Text}
    (hf : sc.Follows p [.semantic name]) :
    (sc.reference entry' name q).1 = (sc.reference entry name p).1 ∧
      sc.Alike (sc.reference entry name p).2 (sc.reference entry' name q).2 := by
  rcases reference_cases ha.left entry name with ⟨ht, hr⟩ | ⟨k, raw, ht, hr⟩
  · rcases reference_cases ha.right entry' name with ⟨-, hr'⟩ | ⟨k', raw', ht', -⟩
    · rw [hr, hr']
      exact ⟨rfl, ha⟩
    · rw [ht] at ht'
      cases ht'
  · rcases reference_cases ha.right entry' name with ⟨ht', -⟩ | ⟨k', raw', ht', hr'⟩
    · rw [ht] at ht'
      cases ht'
    · rw [ht] at ht'
      cases ht'
      rw [ha.visiting] at hr'
      rcases hr with ⟨hv, hr⟩ | ⟨hv, hr⟩
      · rw [hr, (hr'.resolve_right fun h => h.1 hv).2]
        exact ⟨rfl, ha⟩
      · rw [hr, (hr'.resolve_left fun h => hv h.1).2]
        exact hag rfl ha ⟨ha.left, (of_target? ht).2.2, hv, hf name k raw List.mem_cons_self ht⟩

theorem agree_tags (ts : List Token) : ∀ (res : Resolution) (p q : Progress), sc.Resolves entry p.visiting →
    sc.Agree entry entry' p.visiting → sc.Alike p q → sc.Follows p ts →
    (ts.foldl (sc.composeTag entry') (res, q)).1 = (ts.foldl (sc.composeTag entry) (res, p)).1 ∧
      sc.Alike (ts.foldl (sc.composeTag entry) (res, p)).2 (ts.foldl (sc.composeTag entry') (res, q)).2 := by
  induction ts with
  | nil =>
    intro res p q _ _ ha _
    rw [List.foldl_nil, List.foldl_nil]
    exact ⟨rfl, ha⟩
  | cons t ts ih =>
    intro res p q he hag ha hf
    rw [List.foldl_cons, List.foldl_cons]
    cases t with
    | text s =>
      rw [composeTag_text, composeTag_text]
      exact ih res p q he hag ha hf.tail
    | direct code =>
      rw [composeTag_direct, composeTag_direct]
      exact ih ⟨res.composition.overlay code, res.cut⟩ p q he hag ha hf.tail
    | semantic name =>
      have h1 := outcome_reference he ha.left hf.head
      obtain ⟨h2, ha'⟩ := agree_reference hag ha hf.head
      rw [composeTag_semantic, composeTag_semantic, h2]
      exact ih _ _ _ (h1.visiting ▸ he) (h1.visiting ▸ hag) ha' (hf.tail.of_visiting h1.visiting)

theorem agree_compose (he : sc.Resolves entry p.visiting) (hag : sc.Agree entry entry' p.visiting) (ha : sc.Alike p q)
    (raw : Text) (hf : sc.Follows p (tagsOf sc.delimiters raw)) :
    (sc.compose entry' raw q).1 = (sc.compose entry raw p).1 ∧
      sc.Alike (sc.compose entry raw p).2 (sc.compose entry' raw q).2 :=
  agree_tags _ _ p q he hag ha hf

/-- Alike walks that leave a key with the same result leave it alike. -/
theorem Alike.leave {k : Text} {out out' : Resolution × Progress} (hl : sc.Valid (leave k out).2)
    (hr : sc.Valid (leave k out').2) (he : out'.1 = out.1) (ha : sc.Alike out.2 out'.2) :
    (Scope.leave k out').1 = (Scope.leave k out).1 ∧ sc.Alike (Scope.leave k out).2 (Scope.leave k out').2 := by
  refine ⟨he, hl, hr, ?_, ?_⟩
  all_goals
    simp only [Scope.leave, he]
    split
  · exact congrArg (·.erase k) ha.visiting
  · exact congrArg (·.erase k) ha.visiting
  · exact congrArg (·.insert k out.1.composition) ha.finished
  · exact ha.finished

/-- **Two visits.** Where both depths suffice, alike walks give the same result. A key that reads as something gives its
reading in both, whether it is settled or not; any other key is settled in neither. -/
theorem agree_entry : ∀ (depth depth' : Nat) {vs : List Text}, sc.table.size ≤ depth + vs.length →
    sc.table.size ≤ depth' + vs.length → sc.Agree (sc.entry depth) (sc.entry depth') vs := by
  intro depth
  induction depth with
  | zero =>
    intro depth' vs hr _ p q k raw hv _ h
    subst hv
    obtain ⟨d, hd⟩ := h.exists_depth hr
    cases hd
  | succ d ih =>
    intro depth' vs hr hr' p q k raw hv ha h
    subst hv
    have h' := h.of_alike ha
    rw [← ha.visiting] at hr'
    have hp := resolves_entry (d + 1) hr rfl h
    have hq := resolves_entry depth' hr' rfl h'
    by_cases hk : ∃ v, sc.ReadsAs k v
    · obtain ⟨v, hk⟩ := hk
      obtain ⟨hp1, hpf⟩ := entry_eq_of_readsAs hr h hk
      obtain ⟨hq1, hqf⟩ := entry_eq_of_readsAs hr' h' hk
      refine ⟨hq1.trans hp1.symm, hp.valid, hq.valid, ?_, ?_⟩
      · rw [hq.visiting, hp.visiting, ha.visiting]
      · rw [hqf, hpf, ha.finished]
    · obtain ⟨d', rfl⟩ := h'.exists_depth hr'
      have unsettled {r : Progress} (hv : sc.Valid r) : r.settled.get? k = none := by
        cases hs : r.settled.get? k with
        | none => rfl
        | some v => exact absurd ⟨v, hv.settled hs⟩ hk
      have hsp := unsettled h.valid
      have hsq := unsettled h'.valid
      cases hf : p.finished.get? k with
      | some v =>
        rw [entry_finished d hsp hf, entry_finished d' hsq (ha.finished ▸ hf)]
        exact ⟨rfl, ha⟩
      | none =>
        have hpe : sc.entry (d + 1) k raw p = leave k _ := entry_fresh d hsp hf
        have hqe : sc.entry (d' + 1) k raw q = leave k _ := entry_fresh d' hsq (ha.finished ▸ hf)
        have hroom : sc.table.size ≤ d + (k :: p.visiting).length := by
          rw [List.length_cons]
          omega
        have hroom' : sc.table.size ≤ d' + (k :: p.visiting).length := by
          rw [List.length_cons, ← ha.visiting]
          omega
        have hin : sc.Alike { p with visiting := k :: p.visiting } { q with visiting := k :: q.visiting } :=
          ⟨h.inside.1, h'.inside.1, congrArg (k :: ·) ha.visiting, ha.finished⟩
        obtain ⟨he, ha'⟩ := agree_compose (resolves_entry d hroom) (ih d' hroom hroom') hin raw h.inside.2
        rw [hpe] at hp ⊢
        rw [hqe] at hq ⊢
        exact Alike.leave hp.valid hq.valid he ha'

end Walks

end Scope
end TerminalMarkup
