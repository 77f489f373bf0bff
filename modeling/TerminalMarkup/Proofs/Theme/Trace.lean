import TerminalMarkup.Proofs.Theme.Acyclic

/-!
# Resolution ends

`Scope.entry` resolves a key of the table down to a given depth. `Scope.Runs` is the same recursion without a depth, as
a relation: there is a run just where the recursion comes to an end. A run tells which keys have their values composed,
and how deep the visits to keys nest (`Trace`).

* The keys of a trace are different, and new to the walk (`Runs.fits`): once its value has been composed, a key is
  remembered as settled or as finished (`Runs.contains_kept_iff`), and until then it is on the way.
* Keys on the way are different keys of the table, and so visits nest no deeper than there are keys. By induction on the
  number of keys that are not on the way, there is a run for everything that `Scope.entry` resolves (`ends_entry`).

References to the registry need no such argument: `Registry.composition` follows them through `maxDepth` values.
-/

namespace TerminalMarkup

/-! ## Traces -/

/-- What a part of a resolution composes. -/
structure Trace where
  /-- The keys whose values are composed, each with whether a cycle has cut its result short. -/
  composed : List (Text × Bool)
  /-- How deep the visits to keys of the table nest. -/
  height : Nat

namespace Trace

/-- Nothing is composed, and no key visited. -/
def none : Trace := ⟨[], 0⟩

/-- A visit to a key that is remembered. -/
def visit : Trace := ⟨[], 1⟩

/-- One part after another. -/
def append (t u : Trace) : Trace := ⟨t.composed ++ u.composed, max t.height u.height⟩

/-- A visit to a key, with what is composed within its value. -/
def within (k : Text) (cut : Bool) (t : Trace) : Trace := ⟨(k, cut) :: t.composed, t.height + 1⟩

/-- The keys whose values are composed. -/
def keys (t : Trace) : List Text := t.composed.map Prod.fst

theorem keys_append (t u : Trace) : (t.append u).keys = t.keys ++ u.keys := List.map_append

end Trace

/-- A part of a resolution. -/
inductive Call
  /-- A key of the table, with its value. -/
  | entry (k raw : Text)
  | reference (name : Text)
  /-- Tags that are laid over what has been composed so far. -/
  | tags (ts : List Token) (res : Resolution)

/-- The results that a walk keeps: those that a cycle has cut short, or the others. -/
def Progress.kept (p : Progress) (cut : Bool) : Dictionary Composition := if cut then p.finished else p.settled

namespace Scope

/-- The call that composes a value. -/
def valueCall (sc : Scope) (raw : Text) : Call := .tags (tagsOf sc.delimiters raw) ⟨.empty, false⟩

/-- `sc.Runs call p out t`: from `p` on, the call ends with `out`, and `t` is what it composes. -/
inductive Runs (sc : Scope) : Call → Progress → Resolution × Progress → Trace → Prop
  | settled {k raw : Text} {p : Progress} {c : Composition} :
      p.settled.get? k = some c → Runs sc (.entry k raw) p (⟨c, false⟩, p) .visit
  | finished {k raw : Text} {p : Progress} {c : Composition} :
      p.settled.get? k = none → p.finished.get? k = some c → Runs sc (.entry k raw) p (⟨c, true⟩, p) .visit
  /-- The value of a key is composed with the key on the way. -/
  | fresh {k raw : Text} {p : Progress} {out : Resolution × Progress} {t : Trace} :
      p.settled.get? k = none → p.finished.get? k = none →
      Runs sc (sc.valueCall raw) { p with visiting := k :: p.visiting } out t →
      Runs sc (.entry k raw) p (leave k out) (t.within k out.1.cut)
  | elsewhere {name : Text} {p : Progress} : isThemeReference name = false →
      Runs sc (.reference name) p (⟨sc.fromRegistry name, false⟩, p) .none
  | cut {name : Text} {p : Progress} : isThemeReference name = true → themeKey name ∈ p.visiting →
      Runs sc (.reference name) p (⟨.empty, true⟩, p) .none
  | missing {name : Text} {p : Progress} : isThemeReference name = true → themeKey name ∉ p.visiting →
      sc.table.get? (themeKey name) = none → Runs sc (.reference name) p (⟨sc.fromRegistry name, false⟩, p) .none
  | inside {name raw : Text} {p : Progress} {out : Resolution × Progress} {t : Trace} :
      isThemeReference name = true → themeKey name ∉ p.visiting → sc.table.get? (themeKey name) = some raw →
      Runs sc (.entry (themeKey name) raw) p out t → Runs sc (.reference name) p out t
  | nil {res : Resolution} {p : Progress} : Runs sc (.tags [] res) p (res, p) .none
  | text {s : Text} {ts : List Token} {res : Resolution} {p : Progress} {out : Resolution × Progress} {t : Trace} :
      Runs sc (.tags ts res) p out t → Runs sc (.tags (.text s :: ts) res) p out t
  | direct {code : Text} {ts : List Token} {res : Resolution} {p : Progress} {out : Resolution × Progress}
      {t : Trace} : Runs sc (.tags ts ⟨res.composition.overlay code, res.cut⟩) p out t →
      Runs sc (.tags (.direct code :: ts) res) p out t
  /-- The tags behind a reference are laid over what it has contributed. -/
  | semantic {name : Text} {ts : List Token} {res : Resolution} {p : Progress} {found out : Resolution × Progress}
      {t u : Trace} : Runs sc (.reference name) p found t →
      Runs sc (.tags ts ⟨res.composition.merge found.1.composition, res.cut || found.1.cut⟩) found.2 out u →
      Runs sc (.tags (.semantic name :: ts) res) p out (t.append u)

variable {sc : Scope} {call : Call} {p : Progress} {out out' : Resolution × Progress} {t t' : Trace} {k : Text}

/-- **A run is determined by its start.** -/
theorem Runs.det (h : sc.Runs call p out t) (h' : sc.Runs call p out' t') : out' = out ∧ t' = t := by
  induction h generalizing out' t' with
  | settled hs =>
    cases h' with
    | settled hs' => rw [hs] at hs'; cases hs'; exact ⟨rfl, rfl⟩
    | finished hs' => rw [hs] at hs'; cases hs'
    | fresh hs' => rw [hs] at hs'; cases hs'
  | finished hs hf =>
    cases h' with
    | settled hs' => rw [hs] at hs'; cases hs'
    | finished _ hf' => rw [hf] at hf'; cases hf'; exact ⟨rfl, rfl⟩
    | fresh _ hf' => rw [hf] at hf'; cases hf'
  | fresh hs hf _ ih =>
    cases h' with
    | settled hs' => rw [hs] at hs'; cases hs'
    | finished _ hf' => rw [hf] at hf'; cases hf'
    | fresh _ _ h =>
      obtain ⟨rfl, rfl⟩ := ih h
      exact ⟨rfl, rfl⟩
  | elsewhere hn =>
    cases h' with
    | elsewhere => exact ⟨rfl, rfl⟩
    | cut hn' => rw [hn] at hn'; cases hn'
    | missing hn' => rw [hn] at hn'; cases hn'
    | inside hn' => rw [hn] at hn'; cases hn'
  | cut hn hv =>
    cases h' with
    | elsewhere hn' => rw [hn] at hn'; cases hn'
    | cut => exact ⟨rfl, rfl⟩
    | missing _ hv' => exact absurd hv hv'
    | inside _ hv' => exact absurd hv hv'
  | missing hn hv hg =>
    cases h' with
    | elsewhere hn' => rw [hn] at hn'; cases hn'
    | cut _ hv' => exact absurd hv' hv
    | missing => exact ⟨rfl, rfl⟩
    | inside _ _ hg' => rw [hg] at hg'; cases hg'
  | inside hn hv hg _ ih =>
    cases h' with
    | elsewhere hn' => rw [hn] at hn'; cases hn'
    | cut _ hv' => exact absurd hv' hv
    | missing _ _ hg' => rw [hg] at hg'; cases hg'
    | inside _ _ hg' h =>
      rw [hg] at hg'
      cases hg'
      exact ih h
  | nil => cases h' with | nil => exact ⟨rfl, rfl⟩
  | text _ ih => cases h' with | text h => exact ih h
  | direct _ ih => cases h' with | direct h => exact ih h
  | semantic _ _ ihr iht =>
    cases h' with
    | semantic hr ht =>
      obtain ⟨rfl, rfl⟩ := ihr hr
      obtain ⟨rfl, rfl⟩ := iht ht
      exact ⟨rfl, rfl⟩

/-! ## What a run remembers -/

/-- A run ends with the keys on the way that it has begun with. -/
theorem Runs.visiting_eq (h : sc.Runs call p out t) : out.2.visiting = p.visiting := by
  induction h with
  | settled => rfl
  | finished => rfl
  | fresh _ _ _ ih => rw [visiting_leave, ih, List.erase_cons_head]
  | elsewhere => rfl
  | cut => rfl
  | missing => rfl
  | inside _ _ _ _ ih => exact ih
  | nil => rfl
  | text _ ih => exact ih
  | direct _ ih => exact ih
  | semantic _ _ ihr iht => exact iht.trans ihr

/-- Leaving a key keeps its result, with those that a cycle has cut short if it is one of them. -/
theorem contains_kept_leave (k : Text) (out : Resolution × Progress) (l : Text) (cut : Bool) :
    ((leave k out).2.kept cut).contains l = true ↔
      (out.2.kept cut).contains l = true ∨ (l, cut) = (k, out.1.cut) := by
  have hinsert (d : Dictionary Composition) (c : Composition) :
      (d.insert k c).contains l = true ↔ d.contains l = true ∨ l = k := by
    rw [Dictionary.contains, Dictionary.get?_insert, Dictionary.contains]
    split
    next hkl => simp [hkl]
    next hkl => simp [Ne.symm hkl]
  unfold leave Progress.kept
  cases hc : out.1.cut <;> cases cut <;> simp [hinsert]

/-- **A run keeps the results of the keys whose values it composes, and no others.** -/
theorem Runs.contains_kept_iff (h : sc.Runs call p out t) (k : Text) (cut : Bool) :
    (out.2.kept cut).contains k = true ↔ (p.kept cut).contains k = true ∨ (k, cut) ∈ t.composed := by
  have hnone (p : Progress) : (p.kept cut).contains k = true ↔
      (p.kept cut).contains k = true ∨ (k, cut) ∈ Trace.none.composed := (or_iff_left List.not_mem_nil).symm
  induction h with
  | settled => exact hnone _
  | finished => exact hnone _
  | fresh _ _ _ ih =>
    refine (contains_kept_leave _ _ k cut).trans ((or_congr_left ih).trans ?_)
    rw [Trace.within, List.mem_cons, or_assoc, or_comm (a := _ ∈ _)]
    rfl
  | elsewhere => exact hnone _
  | cut => exact hnone _
  | missing => exact hnone _
  | inside _ _ _ _ ih => exact ih
  | nil => exact hnone _
  | text _ ih => exact ih
  | direct _ ih => exact ih
  | semantic _ _ ihr iht =>
    refine iht.trans ((or_congr_left ihr).trans ?_)
    rw [Trace.append, List.mem_append, or_assoc]

/-! ## What a run composes -/

/-- The keys on the way are different keys of the table. -/
structure OnWay (sc : Scope) (p : Progress) : Prop where
  nodup : p.visiting.Nodup
  table : ∀ k ∈ p.visiting, k ∈ sc.table.keys

/-- A key is called with its value, and only when it is not on the way. -/
def Admits (sc : Scope) (p : Progress) : Call → Prop
  | .entry k raw => k ∉ p.visiting ∧ sc.table.get? k = some raw
  | _ => True

/-- The trace is one that a walk from `p` may leave: it composes keys of the table that are new to the walk, each of
them once, and nests visits no deeper than there are keys that are not on the way. -/
structure Fits (sc : Scope) (p : Progress) (t : Trace) : Prop where
  nodup : t.keys.Nodup
  table : ∀ k ∈ t.keys, k ∈ sc.table.keys
  fresh : ∀ k ∈ t.keys, k ∉ p.visiting ∧ ∀ cut, (p.kept cut).contains k ≠ true
  height : t.height + p.visiting.length ≤ sc.table.size

theorem OnWay.enter {raw : Text} (h : sc.OnWay p) (hk : sc.Admits p (.entry k raw)) :
    sc.OnWay { p with visiting := k :: p.visiting } where
  nodup := List.nodup_cons.2 ⟨hk.1, h.nodup⟩
  table l hl := by
    rcases List.mem_cons.1 hl with rfl | hl
    · exact Dictionary.mem_keys_of_get? hk.2
    · exact h.table l hl

/-- A key that is visited is one more key beside those on the way. -/
theorem OnWay.length_lt {raw : Text} (h : sc.OnWay p) (hk : sc.Admits p (.entry k raw)) :
    p.visiting.length < sc.table.size :=
  Dictionary.length_le_size (h.enter hk).nodup (h.enter hk).table

theorem OnWay.of_visiting {q : Progress} (h : sc.OnWay p) (he : q.visiting = p.visiting) : sc.OnWay q :=
  ⟨he ▸ h.nodup, he ▸ h.table⟩

namespace Fits

theorem none (h : sc.OnWay p) : sc.Fits p .none where
  nodup := .nil
  table _ hk := absurd hk List.not_mem_nil
  fresh _ hk := absurd hk List.not_mem_nil
  height := by
    rw [Trace.none, Nat.zero_add]
    exact Dictionary.length_le_size h.nodup h.table

theorem visit {raw : Text} (h : sc.OnWay p) (hk : sc.Admits p (.entry k raw)) : sc.Fits p .visit where
  nodup := .nil
  table _ hk := absurd hk List.not_mem_nil
  fresh _ hk := absurd hk List.not_mem_nil
  height := by
    rw [Trace.visit, Nat.add_comm]
    exact h.length_lt hk

theorem within {raw : Text} (hk : sc.Admits p (.entry k raw)) (hs : p.settled.get? k = .none)
    (hf : p.finished.get? k = .none) (h : sc.Fits { p with visiting := k :: p.visiting } t) (cut : Bool) :
    sc.Fits p (t.within k cut) where
  nodup := List.nodup_cons.2 ⟨fun hin => (h.fresh k hin).1 List.mem_cons_self, h.nodup⟩
  table l hl := by
    rcases List.mem_cons.1 hl with rfl | hl
    · exact Dictionary.mem_keys_of_get? hk.2
    · exact h.table l hl
  fresh l hl := by
    rcases List.mem_cons.1 hl with rfl | hl
    · refine ⟨hk.1, fun cut => ?_⟩
      cases cut with
      | false => simp [Progress.kept, Dictionary.contains, hs]
      | true => simp [Progress.kept, Dictionary.contains, hf]
    · exact ⟨fun hv => (h.fresh l hl).1 (List.mem_cons_of_mem k hv), (h.fresh l hl).2⟩
  height := by
    have hheight : t.height + (p.visiting.length + 1) ≤ sc.table.size := h.height
    have hwithin : (t.within k cut).height = t.height + 1 := rfl
    omega

/-- A part of a walk composes none of the keys of the part before it, for these are remembered. -/
theorem append {u : Trace} (hr : sc.Runs call p out t) (ht : sc.Fits p t) (hu : sc.Fits out.2 u) :
    sc.Fits p (t.append u) where
  nodup := by
    rw [Trace.keys_append]
    refine List.nodup_append.2 ⟨ht.nodup, hu.nodup, ?_⟩
    rintro k hk _ hk' rfl
    obtain ⟨⟨_, cut⟩, hmem, rfl⟩ := List.mem_map.1 hk
    exact (hu.fresh _ hk').2 cut ((hr.contains_kept_iff _ cut).2 (.inr hmem))
  table k hk := by
    rw [Trace.keys_append] at hk
    exact (List.mem_append.1 hk).elim (ht.table k) (hu.table k)
  fresh k hk := by
    rw [Trace.keys_append] at hk
    rcases List.mem_append.1 hk with hk | hk
    · exact ht.fresh k hk
    · obtain ⟨hv, hkept⟩ := hu.fresh k hk
      exact ⟨hr.visiting_eq ▸ hv, fun cut hcut => hkept cut ((hr.contains_kept_iff k cut).2 (.inl hcut))⟩
  height := by
    have hbehind := hu.height
    rw [hr.visiting_eq] at hbehind
    have happend : (t.append u).height = max t.height u.height := rfl
    have hfront := ht.height
    omega

end Fits

/-- **A run composes the value of a key once at most**, and nests visits no deeper than the table has keys. -/
theorem Runs.fits (h : sc.Runs call p out t) (ha : sc.Admits p call) (hp : sc.OnWay p) : sc.Fits p t := by
  induction h with
  | settled => exact .visit hp ha
  | finished => exact .visit hp ha
  | fresh hs hf _ ih => exact (ih trivial (hp.enter ha)).within ha hs hf _
  | elsewhere => exact .none hp
  | cut => exact .none hp
  | missing => exact .none hp
  | inside _ hv hg _ ih => exact ih ⟨hv, hg⟩ hp
  | nil => exact .none hp
  | text _ ih => exact ih trivial hp
  | direct _ ih => exact ih trivial hp
  | semantic hr _ ihr iht => exact (ihr trivial hp).append hr (iht trivial (hp.of_visiting hr.visiting_eq))

/-! ## Runs exist -/

/-- With these keys on the way, what `entry` does is a run. -/
def Ends (sc : Scope) (entry : Text → Text → Progress → Resolution × Progress) (vs : List Text) : Prop :=
  ∀ ⦃p : Progress⦄ ⦃k raw : Text⦄, p.visiting = vs → sc.OnWay p → sc.Admits p (.entry k raw) →
    ∃ t, sc.Runs (.entry k raw) p (entry k raw p) t

section Ends

variable {entry : Text → Text → Progress → Resolution × Progress}

theorem exists_runs_reference (he : sc.Ends entry p.visiting) (hp : sc.OnWay p) (name : Text) :
    ∃ t, sc.Runs (.reference name) p (sc.reference entry name p) t := by
  unfold reference
  dsimp only
  split
  next hn =>
    split
    next hv => exact ⟨_, .cut hn hv⟩
    next hv =>
      split
      next raw hg =>
        obtain ⟨t, ht⟩ := he rfl hp ⟨hv, hg⟩
        exact ⟨t, .inside hn hv hg ht⟩
      next hg => exact ⟨_, .missing hn hv hg⟩
  next hn => exact ⟨_, .elsewhere (Bool.eq_false_iff.2 hn)⟩

/-- The tags of a value are run through one after the other; the keys on the way are the same for each of them. -/
theorem exists_runs_tags (ts : List Token) : ∀ (res : Resolution) (p : Progress), sc.Ends entry p.visiting →
    sc.OnWay p → ∃ t, sc.Runs (.tags ts res) p (ts.foldl (sc.composeTag entry) (res, p)) t := by
  induction ts with
  | nil => exact fun res p _ _ => ⟨_, .nil⟩
  | cons t ts ih =>
    intro res p he hp
    rw [List.foldl_cons]
    cases t with
    | text s =>
      obtain ⟨t, ht⟩ := ih res p he hp
      exact ⟨t, .text ht⟩
    | direct code =>
      obtain ⟨t, ht⟩ := ih ⟨res.composition.overlay code, res.cut⟩ p he hp
      exact ⟨t, .direct ht⟩
    | semantic name =>
      obtain ⟨t, ht⟩ := exists_runs_reference he hp name
      rw [composeTag_semantic]
      obtain ⟨u, hu⟩ := ih _ _ (ht.visiting_eq ▸ he) (hp.of_visiting ht.visiting_eq)
      exact ⟨t.append u, .semantic ht hu⟩

theorem exists_runs_compose (he : sc.Ends entry p.visiting) (hp : sc.OnWay p) (raw : Text) :
    ∃ t, sc.Runs (sc.valueCall raw) p (sc.compose entry raw p) t :=
  exists_runs_tags _ _ p he hp

end Ends

/-- **Resolution ends.** Where the depth suffices, `Scope.entry` does what the recursion without a depth does. The
induction is on the depth, which is at least the number of keys that are not on the way. -/
theorem ends_entry : ∀ (depth : Nat) {vs : List Text}, sc.table.size ≤ depth + vs.length →
    sc.Ends (sc.entry depth) vs := by
  intro depth
  induction depth with
  | zero =>
    rintro _ hr p k raw rfl hp hk
    have := hp.length_lt hk
    omega
  | succ d ih =>
    rintro _ hr p k raw rfl hp hk
    cases hs : p.settled.get? k with
    | some c =>
      rw [entry_settled d hs]
      exact ⟨_, .settled hs⟩
    | none =>
      cases hf : p.finished.get? k with
      | some c =>
        rw [entry_finished d hs hf]
        exact ⟨_, .finished hs hf⟩
      | none =>
        have hroom : sc.table.size ≤ d + (k :: p.visiting).length := by
          rw [List.length_cons]
          omega
        have hinside := hp.enter hk
        obtain ⟨t, ht⟩ := exists_runs_compose (p := { p with visiting := k :: p.visiting }) (ih hroom) hinside raw
        rw [entry_fresh d hs hf]
        exact ⟨_, .fresh hs hf ht⟩

end Scope

/-! ## Complete resolutions -/

/-- The call that a question begins with; there is none for a key that the table lacks. -/
def Query.call? (sc : Scope) : Query → Option Call
  | .key k => (sc.table.get? (themeKey k)).map (.entry (themeKey k))
  | .value raw => some (sc.valueCall raw)

namespace Resolver

variable {r : Resolver} {q : Query} {call : Call}

theorem onWay_start (r : Resolver) : r.scope.OnWay r.start :=
  ⟨.nil, fun _ hk => absurd hk List.not_mem_nil⟩

theorem ask_of_call?_eq_none (h : q.call? r.scope = none) : r.ask q = (none, r) := by
  cases q with
  | value raw => cases h
  | key k =>
    have hg : r.scope.table.get? (themeKey k) = none := Option.map_eq_none_iff.1 h
    simp only [ask, resolveKey, hg]

/-- A question is answered by the run of its call. -/
theorem Settled.exists_runs_ask (h : r.Settled) (hc : q.call? r.scope = some call) :
    r.scope.Admits r.start call ∧ ∃ out t, r.scope.Runs call r.start out t ∧ r.scope.Valid out.2 ∧
      r.ask q = (some out.1.composition, { r with settled := out.2.settled }) := by
  have hres := Scope.resolves_entry r.scope.depth (size_le_depth r.scope)
  have hends := Scope.ends_entry r.scope.depth (size_le_depth r.scope)
  cases q with
  | value raw =>
    cases hc
    obtain ⟨t, ht⟩ := Scope.exists_runs_compose hends r.onWay_start raw
    exact ⟨trivial, _, t, ht, (Scope.outcome_compose hres h.valid_start raw (follows_start r _)).valid, rfl⟩
  | key k =>
    obtain ⟨raw, hg, rfl⟩ := Option.map_eq_some_iff.1 hc
    have hadmits : r.scope.Admits r.start (.entry (themeKey k) raw) := ⟨List.not_mem_nil, hg⟩
    obtain ⟨t, ht⟩ := hends rfl r.onWay_start hadmits
    refine ⟨hadmits, _, t, ht, (hres rfl (h.enters_start hg)).valid, ?_⟩
    simp only [Resolver.ask, resolveKey, hg]

/-- **Resolution ends, and composes each key once at most.** Whatever the table, the registry, the delimiters and the
namespace are, and whatever has been asked before, a question is answered by a run of the recursion without a depth,
unless it is for a key that the table lacks. There is one such run. It composes the values of different keys of the
table, nests visits to keys no deeper than there are keys, and ends with no key on the way. The keys whose results a
cycle has cut short are cyclic, and no cyclic key is settled. -/
theorem ask_composes_once (sc : Scope) (qs : List Query) (q : Query) :
    let r := (new sc).afterAll qs
    (q.call? sc = none → r.ask q = (none, r)) ∧
    ∀ call, q.call? sc = some call → ∃ out t, sc.Runs call r.start out t ∧
      (∀ out' t', sc.Runs call r.start out' t' → out' = out ∧ t' = t) ∧
      r.ask q = (some out.1.composition, { r with settled := out.2.settled }) ∧
      t.keys.Nodup ∧ (∀ k ∈ t.keys, k ∈ sc.table.keys) ∧ t.height ≤ sc.table.size ∧ out.2.visiting = [] ∧
      (∀ k, (k, true) ∈ t.composed → sc.Cyclic k ∧ out.2.settled.contains k = false) ∧
      (∀ k, out.2.settled.contains k = true → ¬ sc.Cyclic k) := by
  intro r
  have hsettled : r.Settled := (settled_new sc).afterAll qs
  have hscope : r.scope = sc := scope_afterAll (new sc) qs
  refine ⟨fun hc => ask_of_call?_eq_none (hscope ▸ hc), fun call hc => ?_⟩
  obtain ⟨hadmits, out, t, hruns, hvalid, hask⟩ := hsettled.exists_runs_ask (hscope ▸ hc)
  have hfits := hruns.fits hadmits r.onWay_start
  have hnot_cyclic (k : Text) (hk : out.2.settled.contains k = true) : ¬ r.scope.Cyclic k := by
    obtain ⟨v, hv⟩ := Option.isSome_iff_exists.1 hk
    exact (hvalid.settled hv).not_cyclic
  have hcyclic (k : Text) (hk : (k, true) ∈ t.composed) : r.scope.Cyclic k := by
    obtain ⟨v, hv⟩ := Option.isSome_iff_exists.1 ((hruns.contains_kept_iff k true).2 (.inr hk))
    exact hvalid.finished hv
  rw [hscope] at *
  refine ⟨out, t, hruns, fun out' t' h' => hruns.det h', hask, hfits.nodup, hfits.table, ?_, hruns.visiting_eq,
    fun k hk => ⟨hcyclic k hk, Bool.eq_false_iff.2 fun hin => hnot_cyclic k hin (hcyclic k hk)⟩, hnot_cyclic⟩
  exact hfits.height

end Resolver
end TerminalMarkup
