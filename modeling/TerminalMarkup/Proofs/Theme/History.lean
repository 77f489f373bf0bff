import TerminalMarkup.Proofs.Theme.Walk

/-!
# The past of a resolver

A resolver keeps what it has settled for the resolutions to come. A question to a resolver is a key of its table or a
value of its own; `Resolver.askAll` asks one after the other.

* Every resolver that has been asked anything has settled readings only (`Settled.ask`), and starts its next walk like a
  new one (`Settled.alike_start`);
* so it answers as a new resolver does (`ask_eq_of_settled`), whatever it has been asked before, cyclic keys included
  (`askAll_eq_map`).
-/

namespace TerminalMarkup

/-- A question to a resolver. -/
inductive Query
  /-- The composition of a key of the table. -/
  | key (k : Text)
  /-- The composition of a value that is not in the table. -/
  | value (raw : Text)
  deriving DecidableEq, Repr

namespace Resolver

/-- Asks a question; there is no answer for a key that the table lacks. -/
def ask (r : Resolver) : Query → Option Composition × Resolver
  | .key k => r.resolveKey k
  | .value raw => (some (r.resolveValue raw).1, (r.resolveValue raw).2)

/-- Asks questions one after the other. -/
def askAll : Resolver → List Query → List (Option Composition)
  | _, [] => []
  | r, q :: qs => (r.ask q).1 :: askAll (r.ask q).2 qs

/-- What has been settled are readings. -/
def Settled (r : Resolver) : Prop :=
  ∀ ⦃k : Text⦄ ⦃v : Composition⦄, r.settled.get? k = some v → r.scope.ReadsAs k v

/-! ## Starts of walks -/

theorem settled_new (sc : Scope) : (new sc).Settled := by
  intro k v h
  cases h

theorem Settled.valid_start {r : Resolver} (h : r.Settled) : r.scope.Valid r.start where
  settled := h
  finished _ _ hf := by cases hf
  visiting _ hk := by cases hk
  nodup := .nil

/-- A walk starts like that of a new resolver, apart from what is settled. -/
theorem Settled.alike_start {r : Resolver} (h : r.Settled) : r.scope.Alike (new r.scope).start r.start :=
  ⟨(settled_new r.scope).valid_start, h.valid_start, rfl, rfl⟩

theorem follows_start (r : Resolver) (ts : List Token) : r.scope.Follows r.start ts := by
  intro _ _ _ _ _ l hl
  cases hl

theorem Settled.enters_start {r : Resolver} (h : r.Settled) {k raw : Text} (hg : r.scope.table.get? k = some raw) :
    r.scope.Enters r.start k raw :=
  ⟨h.valid_start, hg, List.not_mem_nil, fun _ hl => absurd hl List.not_mem_nil⟩

/-- The depth of a scope suffices for a walk that has visited nothing. -/
theorem size_le_depth (sc : Scope) : sc.table.size ≤ sc.depth + ([] : List Text).length := Nat.le_refl _

/-! ## One question -/

/-- Asking does not change what a resolver reads. -/
theorem scope_ask (r : Resolver) (q : Query) : (r.ask q).2.scope = r.scope := by
  cases q with
  | value raw => rfl
  | key k =>
    simp only [ask, resolveKey]
    split <;> rfl

/-- What a resolver settles when it is asked are readings. -/
theorem Settled.ask {r : Resolver} (h : r.Settled) (q : Query) : (r.ask q).2.Settled := by
  have hres := Scope.resolves_entry r.scope.depth (size_le_depth r.scope)
  cases q with
  | value raw =>
    have ho := Scope.outcome_compose hres h.valid_start raw (follows_start r _)
    exact ho.valid.settled
  | key k =>
    simp only [Resolver.ask, resolveKey]
    split
    · exact h
    next raw hg => exact (hres rfl (h.enters_start hg)).valid.settled

/-- **A resolver with a past answers as a new one does.** -/
theorem ask_eq_of_settled {r : Resolver} (h : r.Settled) (q : Query) : (r.ask q).1 = ((new r.scope).ask q).1 := by
  have hres := Scope.resolves_entry r.scope.depth (size_le_depth r.scope)
  have hag := Scope.agree_entry r.scope.depth r.scope.depth (size_le_depth r.scope) (size_le_depth r.scope)
  cases q with
  | value raw =>
    have ha := Scope.agree_compose hres hag h.alike_start raw (follows_start (new r.scope) _)
    exact congrArg (fun res : Resolution => some res.composition) ha.1
  | key k =>
    simp only [Resolver.ask, resolveKey, show (new r.scope).scope = r.scope from rfl]
    split
    · rfl
    next raw hg =>
      have ha := hag rfl h.alike_start ((settled_new r.scope).enters_start hg)
      exact congrArg (fun res : Resolution => some res.composition) ha.1

/-! ## All questions -/

theorem askAll_eq_of_settled {r : Resolver} (h : r.Settled) (qs : List Query) :
    r.askAll qs = qs.map fun q => ((new r.scope).ask q).1 := by
  induction qs generalizing r with
  | nil => rfl
  | cons q qs ih =>
    rw [askAll, List.map_cons, ask_eq_of_settled h q, ih (h.ask q), scope_ask]

/-- **The past does not matter.** However many questions a resolver has been asked, it answers the next one as a new
resolver of the same table, delimiters, registry and namespace does. -/
theorem askAll_eq_map (sc : Scope) (qs : List Query) :
    (new sc).askAll qs = qs.map fun q => ((new sc).ask q).1 :=
  askAll_eq_of_settled (settled_new sc) qs

end Resolver
end TerminalMarkup
