import Mathlib.Data.List.TakeWhile
import TerminalMarkup.Proofs.Strip.Rendered

/-!
# Sequences that a code interrupts

A code that is written inside an unfinished escape sequence ends it. The equals sign tells: it ends every sequence that
may go on, no remnant holds it, and so the first pass decides whether it stays (`count_stripEscapes`). Wherever the
machine is not at rest some text is read differently once it has been interrupted (`Escape.Phase.exists_count_ne`), and
stripping what has been rendered gives another text than stripping the markup (`Renderer.exists_strip_ne`).
-/

namespace TerminalMarkup

/-! ## Equals signs -/

namespace Escape

/-- The character that tells two texts apart: it ends a sequence, and no remnant holds it. -/
theorem equals_not_mem_remnant {s body rest : Text} (h : remnant? s = some (body, rest)) : '=' ∉ body := by
  have hmode : ∀ c ∈ (splitMode s).1, c = '?' := by
    intro c hc
    unfold splitMode at hc
    split at hc
    · exact List.mem_singleton.1 hc
    · cases hc
  have hparam : ∀ c ∈ (splitMode s).2.takeWhile isParamChar, isParamChar c = true :=
    fun c hc => List.mem_takeWhile_imp hc
  unfold remnant? at h
  dsimp only at h
  split at h
  · cases h
  next final rest' _ =>
    split at h
    next hr =>
      cases h
      intro hm
      rcases List.mem_append.1 hm with hm | hm
      · rcases List.mem_append.1 hm with hm | hm
        · exact absurd (hmode _ hm) (by decide)
        · exact absurd (hparam _ hm) (by decide)
      · rw [← List.mem_singleton.1 hm] at hr
        revert hr
        unfold isRemnant
        split <;> simp
    · cases h

theorem count_scanRemnant (c : Char) (s : Text) :
    (scanRemnant c s).1.count '=' + (scanRemnant c s).2.count '=' = (c :: s).count '=' := by
  unfold scanRemnant
  split
  · next hc =>
    subst hc
    split
    · next body rest h =>
      have hs : '[' :: s = '[' :: body ++ [']'] ++ rest := by simp [← append_of_remnant? h]
      rw [hs]
      exact List.count_append.symm
    · next h =>
      have hb := List.count_eq_zero_of_not_mem (equals_not_mem_remnant h)
      rw [← append_of_remnant? h, List.count_cons_of_ne (by decide), List.count_append, hb, List.count_nil]
    · exact List.count_append.symm
  · exact List.count_append.symm

theorem count_removeRemnants (s : Text) : (removeRemnants s).count '=' = s.count '=' := by
  fun_induction removeRemnants s with
  | case1 => rfl
  | case2 c s ih => rw [List.count_append, ih, count_scanRemnant]

theorem count_removeOnce (s : Text) : (removeOnce s).count '=' = (removeSequences s).count '=' := by
  rw [removeOnce, List.count_filter (by decide), count_removeRemnants]

/-- A text without introducers has no sequences. -/
theorem removeSequences_of_not_mem {s : Text} (he : escape ∉ s) (hi : controlIntroducer ∉ s) :
    removeSequences s = s := by
  rw [removeSequences_eq_scan]
  induction s with
  | nil => rfl
  | cons c s ih =>
    have hc : c ≠ escape := fun e => he (e ▸ List.mem_cons_self)
    have hc' : c ≠ controlIntroducer := fun e => hi (e ▸ List.mem_cons_self)
    rw [Phase.scan, Phase.step, Phase.look, if_neg hc, if_neg hc', List.singleton_append,
      ih (fun h => he (List.mem_cons_of_mem _ h)) fun h => hi (List.mem_cons_of_mem _ h)]

end Escape

/-- Further rounds find no introducers, and delete no equals sign. -/
theorem count_of_settles {s r : Text} (h : Text.Settles Escape.removeOnce s r) (he : escape ∉ s)
    (hi : Escape.controlIntroducer ∉ s) : r.count '=' = s.count '=' := by
  induction h with
  | rest _ => rfl
  | @step s r _ _ ih =>
    have hsub := Escape.removeOnce_sublist s
    rw [ih (fun h => he (hsub.subset h)) fun h => hi (hsub.subset h), Escape.count_removeOnce,
      Escape.removeSequences_of_not_mem he hi]

/-- The first pass decides how many equals signs stay. -/
theorem count_stripEscapes {s : Text} (hi : Escape.controlIntroducer ∉ s) :
    (stripEscapes s).count '=' = (Escape.removeSequences s).count '=' := by
  have he : escape ∉ Escape.removeOnce s := by
    intro h
    exact absurd rfl (of_decide_eq_true (List.mem_filter.1 h).2)
  rw [← stripEscapes_removeOnce, ← Escape.count_removeOnce]
  exact count_of_settles (Text.settles_shrink Escape.removeOnce_sublist _) he
    fun h => hi ((Escape.removeOnce_sublist s).subset h)

/-! ## Open sequences -/

namespace Escape.Phase

/-- In the automaton the machine is in a state from which it may go on. -/
def GoesOn : Phase → Prop
  | sequence q _ => q.isClosed = false
  | _ => True

theorem goesOn_look (c : Char) : (look c).2.GoesOn := by
  unfold look
  split
  · trivial
  · split
    · exact rfl
    · trivial

theorem goesOn_advance (q : State) (kept : Text) (c : Char) : (advance q kept c).2.GoesOn := by
  unfold advance
  split
  · exact goesOn_look c
  · dsimp only
    split
    · trivial
    · next h => exact Bool.eq_false_iff.2 h

theorem goesOn_step (φ : Phase) (c : Char) : (φ.step c).2.GoesOn := by
  cases φ with
  | ground => exact goesOn_look c
  | introduced =>
    simp only [step]
    split
    · trivial
    · split
      · trivial
      · exact goesOn_advance _ _ c
  | sequence q kept => exact goesOn_advance q kept c
  | command escaped => simp only [step]; split <;> trivial
  | controlString escaped => simp only [step]; split <;> trivial

theorem GoesOn.after {φ : Phase} (h : φ.GoesOn) (s : Text) : (φ.after s).GoesOn := by
  induction s generalizing φ with
  | nil => exact h
  | cons c s ih => exact ih (goesOn_step φ c)

/-- **A machine that is not at rest can be told from one that has been interrupted**: some text is read differently. -/
theorem exists_count_ne {φ : Phase} (h : φ.GoesOn) (hr : φ.atRest = false) :
    ∃ u, '{' ∉ u ∧ controlIntroducer ∉ u ∧ (φ.scan u).count '=' ≠ (φ.flush ++ φ.interrupted.scan u).count '=' := by
  cases φ with
  | ground => cases hr
  | introduced => exact ⟨['='], by decide, by decide, by decide⟩
  | sequence q kept =>
    have hq : q.next? '=' = some .done := by
      cases q <;> first | decide | cases h
    refine ⟨['='], by decide, by decide, ?_⟩
    -- the sign ends the open sequence, and is kept behind an interrupted one
    rw [scan_sequence_cons hq, List.count_append]
    have h0 : (ground.scan []).count '=' = 0 := rfl
    have h1 : (ground.scan ['=']).count '=' = 1 := by decide
    simp only [State.isClosed, if_true, interrupted, h0, h1]
    omega
  | command escaped =>
    cases escaped with
    | false => cases hr
    | true => exact ⟨['\\', '='], by decide, by decide, by decide⟩
  | controlString escaped =>
    cases escaped with
    | false => cases hr
    | true => exact ⟨['\\', '='], by decide, by decide, by decide⟩

end Escape.Phase

/-! ## One tag in literal text -/

/-- Without braces only escapes are stripped. -/
theorem strip_eq_stripEscapes {s : Text} (h : '{' ∉ s) : strip .canonical s = stripEscapes s := by
  have hst : stripEscapes (stripEscapes s) = stripEscapes s :=
    stripEscapes_eq_self_iff.2 (stripEscapes_stable s)
  have hun : Untagged .canonical (stripEscapes s) :=
    untagged_of_not_mem fun hm => h ((stripEscapes_sublist s).subset hm)
  have honce := strip_stripOnce .canonical s
  rw [stripTags_eq_self_iff.2 (untagged_of_not_mem h), strip_eq_self_iff.2 ⟨hun, hst⟩] at honce
  exact honce.symm

theorem tokenize_direct {p code u : Text} (hp : '{' ∉ p) (hu : '{' ∉ u) (hc : Token.isCode code = true) :
    tokenize .canonical (p ++ Delimiters.canonical.wrapDirect code ++ u)
      = Token.textUnlessEmpty p ++ .direct code :: Token.textUnlessEmpty u := by
  rw [List.append_assoc, tokenize_append_of_read? hp (Token.read?_wrapDirect hc u),
    tokenize_of_untagged (untagged_of_not_mem hu)]

theorem stripTags_direct {p code u : Text} (hp : '{' ∉ p) (hu : '{' ∉ u) (hc : Token.isCode code = true) :
    stripTags .canonical (p ++ Delimiters.canonical.wrapDirect code ++ u) = p ++ u := by
  rw [stripTags, tokenize_direct hp hu hc, List.flatMap_append, List.flatMap_cons,
    Token.flatMap_literal_textUnlessEmpty, Token.flatMap_literal_textUnlessEmpty]
  rfl

theorem renderSegments_textUnlessEmpty (r : Registry) (profile : Profile) (s : Text) :
    renderSegments profile none ((Token.textUnlessEmpty s).flatMap (Token.segments r)) = s := by
  unfold Token.textUnlessEmpty
  split
  · next h => rw [h]; rfl
  · exact List.append_nil s

theorem render_direct (r : Registry) (profile : Profile) {p code u : Text} (hp : '{' ∉ p) (hu : '{' ∉ u)
    (hc : Token.isCode code = true) :
    render .canonical r profile none (p ++ Delimiters.canonical.wrapDirect code ++ u)
      = p ++ ((Style.parse code).ansi profile ++ u) := by
  have happ (ss ss' : List Segment) :
      renderSegments profile none (ss ++ ss') = renderSegments profile none ss ++ renderSegments profile none ss' :=
    List.flatMap_append
  have hcode : renderSegments profile none (Token.segments r (.direct code)) = (Style.parse code).ansi profile :=
    List.append_nil _
  rw [render, segments, tokenize_direct hp hu hc, List.flatMap_append, List.flatMap_cons, happ, happ, hcode,
    renderSegments_textUnlessEmpty, renderSegments_textUnlessEmpty]

/-- What is stripped of a text with one tag. -/
theorem strip_direct {p code u : Text} (hp : '{' ∉ p) (hu : '{' ∉ u) (hc : Token.isCode code = true) :
    strip .canonical (p ++ Delimiters.canonical.wrapDirect code ++ u) = stripEscapes (p ++ u) := by
  have hb : '{' ∉ p ++ u := List.not_mem_append hp hu
  have honce := strip_stripOnce .canonical (p ++ Delimiters.canonical.wrapDirect code ++ u)
  rw [stripTags_direct hp hu hc, ← strip_eq_stripEscapes hb, strip_strip] at honce
  rw [← strip_eq_stripEscapes hb]
  exact honce.symm

namespace Renderer

/-- A text with one tag, rendered. -/
theorem ansiFor_direct (r : Registry) {profile : Profile} {p code u : Text} (hp : '{' ∉ p) (hu : '{' ∉ u)
    (hc : Token.isCode code = true) (hv : (Style.parse code).ansi profile ≠ []) :
    (new r).ansiFor profile (p ++ Delimiters.canonical.wrapDirect code ++ u)
      = p ++ ((Style.parse code).ansi profile ++ u) := by
  have hcolor : profile.supportsColor = true := by
    by_contra h
    exact hv (by simp [Style.ansi, h])
  rw [ansiFor, if_pos hcolor]
  exact render_direct r profile hp hu hc

/-- **An unfinished sequence that reaches over a tag**: some text behind the tag is stripped in another way once the
markup has been rendered. -/
theorem exists_strip_ne (r : Registry) (profile : Profile) {p code : Text} (hp : '{' ∉ p)
    (hi : Escape.controlIntroducer ∉ p) (hc : Token.isCode code = true) (hv : (Style.parse code).ansi profile ≠ [])
    (hr : (Escape.Phase.ground.after p).atRest = false) :
    ∃ u, (new r).strip ((new r).ansiFor profile (p ++ Delimiters.canonical.wrapDirect code ++ u))
      ≠ (new r).strip (p ++ Delimiters.canonical.wrapDirect code ++ u) := by
  obtain ⟨ns, hns, hlt, he⟩ := Style.ansi_eq profile (.parse code) hv
  obtain ⟨u, hu, hui, hne⟩ :=
    Escape.Phase.exists_count_ne (Escape.Phase.GoesOn.after (φ := .ground) trivial p) hr
  have hb : '{' ∉ p ++ (Sgr.sequence ns ++ u) :=
    List.not_mem_append hp (List.not_mem_append (not_mem_sgr (by decide) (by decide)) hu)
  have hci : Escape.controlIntroducer ∉ p ++ (Sgr.sequence ns ++ u) :=
    List.not_mem_append hi (List.not_mem_append (not_mem_sgr (by decide) (by decide)) hui)
  refine ⟨u, ?_⟩
  intro heq
  have hrendered : (new r).strip ((new r).ansiFor profile (p ++ Delimiters.canonical.wrapDirect code ++ u))
      = stripEscapes (p ++ (Sgr.sequence ns ++ u)) := by
    rw [ansiFor_direct r hp hu hc hv, he]
    exact strip_eq_stripEscapes hb
  have hmarkup : (new r).strip (p ++ Delimiters.canonical.wrapDirect code ++ u) = stripEscapes (p ++ u) :=
    strip_direct hp hu hc
  rw [hrendered, hmarkup] at heq
  -- the number of equals signs shows the difference
  have hcount := congrArg (List.count '=') heq
  rw [count_stripEscapes hci, count_stripEscapes (List.not_mem_append hi hui), Escape.removeSequences_eq_scan,
    Escape.removeSequences_eq_scan, Escape.Phase.scan_append _ p, Escape.Phase.scan_append _ p,
    Escape.Phase.scan_sgr _ hns hlt] at hcount
  simp only [List.count_append] at hcount hne
  omega

/-- **When stripping undoes rendering.** If no escape sequence of the literal text is unfinished where a code is
written, then stripping the rendered text gives what stripping the markup gives, provided that it makes no difference
whether its tags or its escapes go first; so it does where removing the tags leaves no tags. Nothing less than that will
do for the text in front of a code: behind an unfinished sequence every visible code is followed, in some text, by a
difference. -/
theorem strip_ansiFor (r : Registry) (profile : Profile) :
    (∀ s, (new r).Separates profile s →
      ((new r).strip ((new r).ansiFor profile s) = (new r).strip s ↔
        (new r).strip (stripEscapes ((new r).ansiFor profile s)) = (new r).strip ((new r).ansiFor profile s)) ∧
      (Untagged .canonical (stripTags .canonical s) →
        (new r).strip ((new r).ansiFor profile s) = (new r).strip s)) ∧
    ∀ p code, '{' ∉ p → Escape.controlIntroducer ∉ p → Token.isCode code = true →
      (Style.parse code).ansi profile ≠ [] → (Escape.Phase.ground.after p).atRest = false →
      ∃ u, (new r).strip ((new r).ansiFor profile (p ++ Delimiters.canonical.wrapDirect code ++ u))
        ≠ (new r).strip (p ++ Delimiters.canonical.wrapDirect code ++ u) := by
  refine ⟨?_, fun p code hp hi hc hv hr => exists_strip_ne r profile hp hi hc hv hr⟩
  intro s hs
  have hfirst := strip_stripEscapes_ansiFor hs
  constructor
  · rw [hfirst]
    exact eq_comm
  · intro htags
    have hun : Untagged .canonical ((new r).ansiFor profile s) := untagged_ansiFor rfl profile htags
    rw [← hfirst, strip_of_untagged hun]

/-- A complete sequence in front of a tag, and an unfinished one. -/
theorem strip_ansiFor_complete :
    (new .empty).strip ((new .empty).ansiFor .ansi16
          ("\x1b[1ma".toList ++ Delimiters.canonical.wrapDirect "red".toList))
        = (new .empty).strip ("\x1b[1ma".toList ++ Delimiters.canonical.wrapDirect "red".toList) ∧
      ∃ u, (new .empty).strip ((new .empty).ansiFor .ansi16
          ("\x1b[3".toList ++ Delimiters.canonical.wrapDirect "red".toList ++ u))
        ≠ (new .empty).strip ("\x1b[3".toList ++ Delimiters.canonical.wrapDirect "red".toList ++ u) := by
  obtain ⟨hall, hopen⟩ := strip_ansiFor .empty .ansi16
  refine ⟨(hall _ (by decide +kernel)).2 (by decide +kernel), ?_⟩
  exact hopen _ _ (by decide) (by decide) (by decide) (by decide +kernel) (by decide +kernel)

/-- A tag inside of a sequence. -/
def redInSequence : Text := "\x1b[3".toList ++ Delimiters.canonical.wrapDirect "red".toList ++ "1mx".toList

/-- A remnant in front of a tag that comes about when the tag inside of it is gone. -/
def nestedReference : Text :=
  "[3A\x7b\x7b_".toList ++ Delimiters.canonical.wrapSemantic "x".toList ++ "b_\x7d\x7d]".toList

/-- **Rendering that stripping does not undo.** -/
theorem strip_ansiFor_ne :
    ((new .empty).strip redInSequence = "x".toList ∧
        (new .empty).strip ((new .empty).ansiFor .ansi16 redInSequence) = "1mx".toList) ∧
      (new .empty).strip nestedReference = "]".toList ∧
        (new .empty).strip ((new .empty).ansiFor .ansi16 nestedReference) = "[3A]".toList := by
  decide +kernel

end Renderer
end TerminalMarkup
