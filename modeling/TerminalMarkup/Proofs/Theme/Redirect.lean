import TerminalMarkup.Proofs.Theme.History
import TerminalMarkup.Proofs.Token.Replace

/-!
# Cut references

While a key is being resolved, every reference back to it is cut. The references might as well lead nowhere: if each
of them is redirected to a name that neither the table nor the registry knows, the key resolves to the same composition
(`Resolver.resolveKey_redirect`).

A walk over the redirected table is not the same walk. It meets fewer cycles, and so it settles keys whose results the
other walk keeps as finished only. But both walks remember the same compositions (`Scope.Alongside`), for a key is
looked up in both memories, and each visit keeps that (`Scope.matches_entry`).
-/

namespace TerminalMarkup

/-! ## Dictionaries with changed values -/

namespace Dictionary

variable {α β : Type}

/-- The dictionary with `f` applied to every value. -/
def map (f : α → β) (d : Dictionary α) : Dictionary β :=
  ⟨d.toList.map fun e => (e.1, f e.2), List.pairwise_map.2 d.sorted⟩

@[simp] theorem get?_map (f : α → β) (d : Dictionary α) (k : Text) : (d.map f).get? k = (d.get? k).map f := by
  have hfind (es : List (Text × α)) : find? k (es.map fun e => (e.1, f e.2)) = (find? k es).map f := by
    induction es with
    | nil => rfl
    | cons e es ih =>
      rw [List.map_cons, find?, find?, ih]
      split
      · rfl
      · rfl
  exact hfind d.toList

theorem size_map (f : α → β) (d : Dictionary α) : (d.map f).size = d.size := List.length_map _

theorem map_insert (f : α → β) (d : Dictionary α) (k : Text) (v : α) :
    (d.insert k v).map f = (d.map f).insert k (f v) := by
  ext1 l
  rw [get?_map, get?_insert, get?_insert, get?_map]
  split
  · rfl
  · rfl

theorem map_ofList (f : α → β) (es : List (Text × α)) :
    (ofList es).map f = ofList (es.map fun e => (e.1, f e.2)) := by
  have hall (d : Dictionary α) : (d.insertAll es).map f = (d.map f).insertAll (es.map fun e => (e.1, f e.2)) := by
    induction es generalizing d with
    | nil => rfl
    | cons e es ih =>
      have hstep := ih (d.insert e.1 e.2)
      rwa [map_insert] at hstep
  exact hall empty

end Dictionary

/-! ## Redirected references -/

/-- Gives the references that satisfy `p` the name `name`. -/
def Token.redirect (p : Text → Bool) (name : Text) : Token → Token
  | .text s => .text s
  | .semantic n => .semantic (if p n then name else n)
  | .direct code => .direct code

/-- The text with the references that satisfy `p` written as references to `name`. -/
def redirect (d : Delimiters) (p : Text → Bool) (name s : Text) : Text :=
  writeTokens d ((tokenize d s).map (Token.redirect p name))

section Redirect

variable {p : Text → Bool} {name : Text}

theorem Token.isTag_redirect (t : Token) : (t.redirect p name).isTag = t.isTag := by
  cases t with
  | text s => rfl
  | semantic n => rfl
  | direct code => rfl

theorem Token.isValid_redirect (hn : Token.isName name = true) {t : Token} (h : t.isValid = true) :
    (t.redirect p name).isValid = true := by
  cases t with
  | text s => rfl
  | direct code => exact h
  | semantic n =>
    simp only [redirect, isValid]
    split
    · exact hn
    · exact h

/-- Redirecting changes the names of references and nothing else. -/
theorem tokenize_redirect (hn : Token.isName name = true) (s : Text) :
    tokenize .canonical (redirect .canonical p name s) = (tokenize .canonical s).map (Token.redirect p name) := by
  refine tokenize_map (fun _ => rfl) (fun t ht hv => ?_) s
  exact ⟨t.isTag_redirect.trans ht, Token.isValid_redirect hn hv⟩

theorem tagsOf_redirect (hn : Token.isName name = true) (s : Text) :
    tagsOf .canonical (redirect .canonical p name s) = (tagsOf .canonical s).map (Token.redirect p name) := by
  cases h : Token.firstTag? .canonical s with
  | none =>
    -- there is no reference to redirect
    have htokens (t : Token) (ht : t ∈ tokenize .canonical s) : t.redirect p name = t := by
      have := untagged_iff.2 h t ht
      cases t with
      | text s => rfl
      | semantic n => cases this
      | direct code => rfl
    have hs : redirect .canonical p name s = s := by
      rw [redirect, List.map_congr_left htokens, List.map_id', source_tokenize]
    have htags (t : Token) (ht : t ∈ tagsOf .canonical s) : t.redirect p name = t := by
      unfold tagsOf at ht
      split at ht
      · exact htokens t (List.mem_filter.1 ht).1
      · split at ht
        · rw [List.mem_singleton.1 ht]
          rfl
        · cases ht
    rw [hs, List.map_congr_left htags, List.map_id']
  | some found =>
    obtain ⟨before, t, rest⟩ := found
    have htag : (t.redirect p name).isTag = true := t.isTag_redirect.trans (Token.isTag_of_firstTag? h).1
    have hfirst : ∃ found, Token.firstTag? .canonical (redirect .canonical p name s) = some found := by
      cases hf : Token.firstTag? .canonical (redirect .canonical p name s) with
      | some found => exact ⟨found, rfl⟩
      | none =>
        have hm : t ∈ tokenize .canonical s := by
          rw [tokenize_of_firstTag? h]
          exact List.mem_append_right _ List.mem_cons_self
        have hplain := untagged_iff.2 hf (t.redirect p name) (tokenize_redirect hn s ▸ List.mem_map_of_mem hm)
        rw [htag] at hplain
        cases hplain
    obtain ⟨found, hfound⟩ := hfirst
    rw [tagsOf, if_pos (hasOpening_of_firstTag? hfound), tagsOf, if_pos (hasOpening_of_firstTag? h),
      tokenize_redirect hn, List.filter_map]
    congr 2
    funext t
    exact t.isTag_redirect

end Redirect

/-! ## Two memories -/

/-- What a walk remembers of a key. -/
def Progress.known? (p : Progress) (k : Text) : Option Composition := (p.settled.get? k).or (p.finished.get? k)

namespace Scope

variable {sc : Scope} {p q : Progress} {k : Text}

theorem entry_of_known (sc : Scope) (d : Nat) (raw : Text) {c : Composition} (h : p.known? k = some c) :
    (sc.entry (d + 1) k raw p).1.composition = c ∧ (sc.entry (d + 1) k raw p).2 = p := by
  rcases Option.or_eq_some_iff.1 h with h | ⟨hs, h⟩
  · rw [entry_settled d h]
    exact ⟨rfl, rfl⟩
  · rw [entry_finished d hs h]
    exact ⟨rfl, rfl⟩

theorem entry_of_unknown (sc : Scope) (d : Nat) (raw : Text) (h : p.known? k = none) :
    sc.entry (d + 1) k raw p = leave k (sc.compose (sc.entry d) raw { p with visiting := k :: p.visiting }) := by
  obtain ⟨hs, hf⟩ := Option.or_eq_none_iff.1 h
  exact entry_fresh d hs hf

/-- In either memory the key is remembered. -/
theorem known?_leave {out : Resolution × Progress} (h : out.2.known? k = none) (l : Text) :
    (leave k out).2.known? l = if k = l then some out.1.composition else out.2.known? l := by
  obtain ⟨hs, hf⟩ := Option.or_eq_none_iff.1 h
  unfold leave Progress.known?
  dsimp only
  split
  · rw [Dictionary.get?_insert]
    split
    next he => rw [← he, hs, Option.none_or]
    · rfl
  · rw [Dictionary.get?_insert]
    split
    · rw [Option.some_or]
    · rfl

/-- Two walks with the same keys on the way that remember the same compositions, of keys that are not on the way. -/
structure Alongside (p q : Progress) : Prop where
  visiting : q.visiting = p.visiting
  known : ∀ k, q.known? k = p.known? k
  fresh : ∀ k ∈ p.visiting, p.known? k = none

/-- Two parts of walks, from `p` the one, compose the same and go on alongside. -/
structure Matched (p : Progress) (out out' : Resolution × Progress) : Prop where
  composition : out'.1.composition = out.1.composition
  alongside : Alongside out.2 out'.2
  visiting : out.2.visiting = p.visiting

theorem Alongside.enter (h : Alongside p q) (hk : p.known? k = none) :
    Alongside { p with visiting := k :: p.visiting } { q with visiting := k :: q.visiting } := by
  refine ⟨congrArg (k :: ·) h.visiting, h.known, fun l hl => ?_⟩
  rcases List.mem_cons.1 hl with rfl | hl
  · exact hk
  · exact h.fresh l hl

/-- Walks that leave a key alongside each other go on like that, whether the key is settled in one of them or not. -/
theorem Matched.leave {out out' : Resolution × Progress} (hk : k ∉ p.visiting)
    (h : Matched { p with visiting := k :: p.visiting } out out') :
    Matched p (Scope.leave k out) (Scope.leave k out') := by
  have hvisiting : out.2.visiting.erase k = p.visiting := by rw [h.visiting, List.erase_cons_head]
  have hnone : out.2.known? k = none := h.alongside.fresh k (h.visiting ▸ List.mem_cons_self)
  have hnone' : out'.2.known? k = none := (h.alongside.known k).trans hnone
  refine ⟨h.composition, ⟨?_, fun l => ?_, fun l hl => ?_⟩, (visiting_leave k out).trans hvisiting⟩
  · rw [visiting_leave, visiting_leave, h.alongside.visiting]
  · rw [known?_leave hnone, known?_leave hnone', h.alongside.known l]
    exact congrArg (fun c => if k = l then some c else out.2.known? l) h.composition
  · rw [visiting_leave, hvisiting] at hl
    have hkl : k ≠ l := fun e => hk (e ▸ hl)
    rw [known?_leave hnone, if_neg hkl]
    exact h.alongside.fresh l (h.visiting ▸ List.mem_cons_of_mem k hl)

/-! ## The walks over both tables -/

/-- The name is a reference to the key `k`. -/
def meansKey (k name : Text) : Bool := isThemeReference name && themeKey name = k

/-- The scope with all references to the key `k` redirected to `name`. -/
def redirect (sc : Scope) (k name : Text) : Scope :=
  { sc with table := sc.table.map (TerminalMarkup.redirect sc.delimiters (meansKey k) name) }

/-- Neither the table nor the registry knows the name, in the namespace or without it. -/
structure Unknown (sc : Scope) (name : Text) : Prop where
  outside : sc.target? name = none
  qualified : sc.registry.lookup (Name.qualify sc.ns name) = none
  plain : sc.registry.lookup name = none

variable {name : Text} {entry entry' : Text → Text → Progress → Resolution × Progress}

/-- An unknown name contributes nothing. -/
theorem Unknown.reference (h : sc.Unknown name) (k : Text)
    (entry : Text → Text → Progress → Resolution × Progress) (p : Progress) :
    ((sc.redirect k name).reference entry name p).1.composition = .empty ∧
      ((sc.redirect k name).reference entry name p).2 = p := by
  have hregistry : (sc.redirect k name).fromRegistry name = .empty := by
    have hnone : sc.registered? name = none := by
      rw [registered?, h.qualified, h.plain]
      rfl
    exact (fromRegistry_eq_registered? sc name).trans (congrArg (·.getD .empty) hnone)
  unfold Scope.reference
  dsimp only
  split
  next hn =>
    have hget : (sc.redirect k name).table.get? (themeKey name) = none := by
      have := h.outside
      rw [target?, if_pos hn, Option.map_eq_none_iff] at this
      rw [redirect, Dictionary.get?_map, this]
      rfl
    split
    · exact ⟨rfl, rfl⟩
    · rw [hget]
      exact ⟨hregistry, rfl⟩
  · exact ⟨hregistry, rfl⟩

/-- Visits with the keys `vs` on the way match, the other one for the redirected value. -/
def Matches (sc : Scope) (k name : Text) (entry entry' : Text → Text → Progress → Resolution × Progress)
    (vs : List Text) : Prop :=
  ∀ ⦃p q : Progress⦄ ⦃l raw : Text⦄, p.visiting = vs → Alongside p q → l ∉ p.visiting →
    Matched p (entry l raw p) (entry' l (TerminalMarkup.redirect sc.delimiters (meansKey k) name raw) q)

/-- A reference matches the redirected one: if it leads to `k` it is cut, and the other one leads nowhere. -/
theorem matches_reference (hu : sc.Unknown name) (he : sc.Matches k name entry entry' p.visiting)
    (h : Alongside p q) (hk : k ∈ p.visiting) (n : Text) :
    Matched p (sc.reference entry n p)
      ((sc.redirect k name).reference entry' (if meansKey k n then name else n) q) := by
  by_cases hn : meansKey k n = true
  · obtain ⟨htheme, hkey⟩ : isThemeReference n = true ∧ themeKey n = k := by simpa [meansKey] using hn
    obtain ⟨hc, hq⟩ := hu.reference k entry' q
    have hcut : sc.reference entry n p = (⟨.empty, true⟩, p) := by
      simp only [reference, htheme, hkey, hk, if_true]
    rw [if_pos hn, hcut]
    exact ⟨hc, hq.symm ▸ h, rfl⟩
  · rw [if_neg hn]
    unfold reference
    dsimp only
    rw [h.visiting]
    split
    · split
      · exact ⟨rfl, h, rfl⟩
      next hv =>
        rw [redirect, Dictionary.get?_map]
        cases sc.table.get? (themeKey n) with
        | none => exact ⟨rfl, h, rfl⟩
        | some raw => exact he rfl h hv
    · exact ⟨rfl, h, rfl⟩

/-- Tags match the redirected ones. The induction is on the tags, for walks that have composed the same so far. -/
theorem matches_tags (hu : sc.Unknown name) (ts : List Token) : ∀ (res res' : Resolution) {p q : Progress},
    sc.Matches k name entry entry' p.visiting → Alongside p q → k ∈ p.visiting → res'.composition = res.composition →
    Matched p (ts.foldl (sc.composeTag entry) (res, p))
      ((ts.map (Token.redirect (meansKey k) name)).foldl ((sc.redirect k name).composeTag entry') (res', q)) := by
  induction ts with
  | nil =>
    intro res res' p q _ h _ hres
    exact ⟨hres, h, rfl⟩
  | cons t ts ih =>
    intro res res' p q he h hk hres
    rw [List.map_cons, List.foldl_cons, List.foldl_cons]
    cases t with
    | text s => exact ih res res' he h hk hres
    | direct code =>
      rw [Token.redirect, composeTag_direct, composeTag_direct, hres]
      exact ih _ _ he h hk rfl
    | semantic n =>
      obtain ⟨hc, ha, hv⟩ := matches_reference hu he h hk n
      rw [Token.redirect, composeTag_semantic, composeTag_semantic]
      generalize sc.reference entry n p = out at hc ha hv ⊢
      generalize (sc.redirect k name).reference entry' (if meansKey k n then name else n) q = out' at hc ha ⊢
      rw [hres, hc]
      obtain ⟨hc', ha', hv'⟩ := ih ⟨res.composition.merge out.1.composition, res.cut || out.1.cut⟩
        ⟨res.composition.merge out.1.composition, res'.cut || out'.1.cut⟩ (hv.symm ▸ he) ha (hv.symm ▸ hk) rfl
      exact ⟨hc', ha', hv'.trans hv⟩

theorem matches_compose (hd : sc.delimiters = .canonical) (hn : Token.isName name = true) (hu : sc.Unknown name)
    (he : sc.Matches k name entry entry' p.visiting) (h : Alongside p q) (hk : k ∈ p.visiting) (raw : Text) :
    Matched p (sc.compose entry raw p)
      ((sc.redirect k name).compose entry' (TerminalMarkup.redirect sc.delimiters (meansKey k) name raw) q) := by
  have htags : tagsOf sc.delimiters (TerminalMarkup.redirect sc.delimiters (meansKey k) name raw)
      = (tagsOf sc.delimiters raw).map (Token.redirect (meansKey k) name) := by
    rw [hd]
    exact tagsOf_redirect hn raw
  unfold compose
  rw [show (sc.redirect k name).delimiters = sc.delimiters from rfl, htags]
  exact matches_tags hu _ _ _ he h hk rfl

/-- **Visits over both tables match.** The induction is on the depth, which is the same for both. -/
theorem matches_entry (hd : sc.delimiters = .canonical) (hn : Token.isName name = true) (hu : sc.Unknown name)
    (depth : Nat) : ∀ {vs : List Text}, k ∈ vs →
    sc.Matches k name (sc.entry depth) ((sc.redirect k name).entry depth) vs := by
  induction depth with
  | zero =>
    intro vs _ p q l raw _ h _
    exact ⟨rfl, h, rfl⟩
  | succ d ih =>
    intro vs hk p q l raw hvs h hl
    subst hvs
    cases hp : p.known? l with
    | some c =>
      have hq : q.known? l = some c := (h.known l).trans hp
      obtain ⟨hc, hout⟩ := entry_of_known sc d raw hp
      obtain ⟨hc', hout'⟩ := entry_of_known (sc.redirect k name) d
        (TerminalMarkup.redirect sc.delimiters (meansKey k) name raw) hq
      exact ⟨hc'.trans hc.symm, hout.symm ▸ hout'.symm ▸ h, congrArg Progress.visiting hout⟩
    | none =>
      have hq : q.known? l = none := (h.known l).trans hp
      rw [entry_of_unknown sc d raw hp, entry_of_unknown _ d _ hq]
      refine Matched.leave hl (matches_compose hd hn hu ?_ (h.enter hp) (List.mem_cons_of_mem l hk) raw)
      exact ih (List.mem_cons_of_mem l hk)

end Scope

/-! ## Resolvers -/

/-- The table with all references to the key `k` redirected to `name`. -/
def redirectTable (d : Delimiters) (k name : Text) (table : List (Text × Text)) : List (Text × Text) :=
  table.map fun (key, raw) => (key, redirect d (Scope.meansKey (themeKey k)) name raw)

theorem Scope.ofTable_redirectTable (table : List (Text × Text)) (d : Delimiters) (r : Registry) (ns : Option Text)
    (k name : Text) :
    ofTable (redirectTable d k name table) d r ns = (ofTable table d r ns).redirect (themeKey k) name := by
  unfold ofTable Scope.redirect redirectTable
  dsimp only
  rw [Dictionary.map_ofList, List.map_map, List.map_map]
  rfl

namespace Resolver

theorem alongside_start (sc : Scope) : Scope.Alongside (new sc).start (new sc).start :=
  ⟨rfl, fun _ => rfl, fun _ hk => absurd hk List.not_mem_nil⟩

/-- The visit that begins a walk matches as well: inside it the key is on the way. -/
theorem matched_start {sc : Scope} (hd : sc.delimiters = .canonical) {name : Text} (hn : Token.isName name = true)
    (hu : sc.Unknown name) (k raw : Text) (depth : Nat) :
    Scope.Matched (new sc).start (sc.entry depth k raw (new sc).start)
      ((sc.redirect k name).entry depth k (redirect sc.delimiters (Scope.meansKey k) name raw) (new sc).start) := by
  cases depth with
  | zero => exact ⟨rfl, alongside_start sc, rfl⟩
  | succ d =>
    rw [Scope.entry_of_unknown sc d raw rfl, Scope.entry_of_unknown _ d _ rfl]
    refine Scope.Matched.leave List.not_mem_nil ?_
    have hentry : sc.Matches k name (sc.entry d) ((sc.redirect k name).entry d) [k] :=
      Scope.matches_entry hd hn hu d List.mem_cons_self
    exact Scope.matches_compose hd hn hu hentry ((alongside_start sc).enter rfl) List.mem_cons_self raw

/-- **A cut reference contributes nothing.** A key resolves to the same composition when every reference to it in the
table, its own value included, is redirected to a name that nothing knows. -/
theorem resolveKey_redirect (table : List (Text × Text)) (r : Registry) (ns : Option Text) (key name : Text)
    (hn : Token.isName name = true) (hu : (Scope.ofTable table .canonical r ns).Unknown name) :
    ((new (.ofTable (redirectTable .canonical key name table) .canonical r ns)).resolveKey key).1
      = ((new (.ofTable table .canonical r ns)).resolveKey key).1 := by
  rw [Scope.ofTable_redirectTable]
  have hdepth : ((Scope.ofTable table .canonical r ns).redirect (themeKey key) name).depth
      = (Scope.ofTable table .canonical r ns).depth := Dictionary.size_map _ _
  generalize hsc : Scope.ofTable table .canonical r ns = sc at hu hdepth ⊢
  have hd : sc.delimiters = .canonical := hsc ▸ rfl
  have hget : (sc.redirect (themeKey key) name).table.get? (themeKey key)
      = (sc.table.get? (themeKey key)).map (redirect sc.delimiters (Scope.meansKey (themeKey key)) name) :=
    Dictionary.get?_map _ _ _
  cases hraw : sc.table.get? (themeKey key) with
  | none =>
    rw [hraw] at hget
    simp only [resolveKey, new, hget, hraw]
    rfl
  | some raw =>
    rw [hraw] at hget
    have hmatch := matched_start hd hn hu (themeKey key) raw sc.depth
    simp only [resolveKey, new, hget, hraw, hdepth]
    exact congrArg some hmatch.composition

/-- Three keys that refer to each other in a ring, with a way across. -/
def ring : List (Text × Text) :=
  let reference (name : String) := Delimiters.canonical.wrapSemantic name.toList
  let code (code : String) := Delimiters.canonical.wrapDirect code.toList
  [("A".toList, code "red" ++ reference "Theme_B" ++ reference "theme_c" ++ code "::U"),
    ("B".toList, reference "THEME_A" ++ code ":blue" ++ reference "Theme_C"),
    ("C".toList, reference "Theme_B" ++ reference "Theme_a" ++ code "::b")]

/-- The key `C` is reached inside `B`, where both of its references are cut, and remembered when it is reached again. -/
theorem resolveKey_redirect_ring :
    Token.isName "gone".toList = true ∧ (Scope.ofTable ring .canonical .empty none).Unknown "gone".toList ∧
      ((new (.ofTable (redirectTable .canonical "A".toList "gone".toList ring) .canonical .empty none)).resolveKey
          "A".toList).1
        = ((new (.ofTable ring .canonical .empty none)).resolveKey "A".toList).1 ∧
      ((new (.ofTable ring .canonical .empty none)).resolveKey "A".toList).1
        = some ⟨"red".toList, "blue".toList, "bU".toList⟩ := by
  have hn : Token.isName "gone".toList = true := by decide
  have hu : (Scope.ofTable ring .canonical .empty none).Unknown "gone".toList :=
    ⟨by decide +kernel, by decide +kernel, by decide +kernel⟩
  exact ⟨hn, hu, resolveKey_redirect ring .empty none "A".toList "gone".toList hn hu, by decide +kernel⟩

end Resolver
end TerminalMarkup
