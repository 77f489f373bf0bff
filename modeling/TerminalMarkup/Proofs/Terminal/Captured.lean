import TerminalMarkup.Proofs.Rendering.Resets
import TerminalMarkup.Proofs.Terminal.Style
import TerminalMarkup.Renderer

/-!
# Captured sequences

Literal text inside a base style may have been written by another program, with SGR sequences of its own. The two
sequences that only reset are replaced, so that the base is there again.

* Rendering may cut literal text in front of such a sequence and behind it (`renderText_append_captured`), and so may a
  terminal that reads the output: `PenBehind` says which pen it has behind the sequence.
* Of a sequence with a reset, only what stands behind the last one counts (`Pen.applyAll_of_behindReset?`). So the pen
  behind a sequence that is not replaced does not have the base (`Renderer.penBehind_captured`).
-/

namespace TerminalMarkup

/-- The SGR sequence with the given parameters, as it stands in the output of some program. -/
def Sgr.captured (ps : Text) : Text := escape :: '[' :: (ps ++ ['m'])

namespace Pen

/-- The changes behind the last reset, if there is one. -/
def behindReset? : List Change → Option (List Change)
  | [] => none
  | c :: cs => (behindReset? cs).or (if c = .reset then some cs else none)

/-- **What stands before the last reset does not count.** -/
theorem applyAll_of_behindReset? {cs tail : List Change} (h : behindReset? cs = some tail) (p : Pen) :
    p.applyAll cs = blank.applyAll tail := by
  induction cs generalizing p with
  | nil => cases h
  | cons c cs ih =>
    rcases Option.or_eq_some_iff.1 h with h | ⟨-, h⟩
    · exact ih h (p.apply c)
    · split at h
      next hc =>
        rw [applyAll_cons, hc, ← Option.some.inj h]
        rfl
      next => cases h

end Pen

/-! ## Literal text with a sequence -/

section Literal

variable {restore : Text}

/-- A reset is a sequence without parameters, or with a lone zero. -/
theorem startsReset_iff {s : Text} :
    StartsReset (escape :: s) ↔ Pen.params? s = some [] ∨ Pen.params? s = some ['0'] := by
  constructor
  · rintro ⟨r, hr, t, ht⟩
    rcases mem_resetSpellings.1 hr with rfl | rfl
    · cases ht
      exact .inl rfl
    · cases ht
      exact .inr rfl
  · rintro (h | h)
    · obtain ⟨t, rfl⟩ := Pen.append_of_params? h
      exact startsReset_of_mem (mem_resetSpellings.2 (.inl rfl)) t
    · obtain ⟨t, rfl⟩ := Pen.append_of_params? h
      exact startsReset_of_mem (mem_resetSpellings.2 (.inr rfl)) t

/-- An escape character completes no reset. -/
theorem startsReset_append_escape {c : Char} {s t : Text} (h : StartsReset (c :: (s ++ escape :: t))) :
    StartsReset (c :: s) := by
  by_cases hc : c = escape
  · subst hc
    rwa [startsReset_iff, Pen.params?_append_escape, ← startsReset_iff] at h
  · exact absurd h (not_startsReset_of_ne hc _)

theorem replaceResets_append_escape (s t : Text) :
    replaceResets restore (s ++ escape :: t) = replaceResets restore s ++ replaceResets restore (escape :: t) := by
  induction s using resets_induction with
  | nil => rfl
  | reset r hr s ih =>
    rw [List.append_assoc, replaceResets_append_of_mem hr, replaceResets_append_of_mem hr, ih, List.append_assoc]
  | cons c s hs ih =>
    have hst : ¬ StartsReset (c :: (s ++ escape :: t)) := fun h => hs (startsReset_append_escape h)
    rw [List.cons_append, replaceResets_cons hst, replaceResets_cons hs, ih, List.cons_append]

variable (restore) in
theorem replaceResets_append_of_not_mem {s : Text} (h : escape ∉ s) (t : Text) :
    replaceResets restore (s ++ t) = s ++ replaceResets restore t := by
  induction s with
  | nil => rfl
  | cons c s ih =>
    rw [List.mem_cons, not_or] at h
    rw [List.cons_append, replaceResets_cons (not_startsReset_of_ne (Ne.symm h.1) _), ih h.2, List.cons_append]

variable {ps : Text}

theorem captured_append (ps t : Text) : Sgr.captured ps ++ t = escape :: '[' :: (ps ++ 'm' :: t) := by
  rw [Sgr.captured, List.cons_append, List.cons_append, List.append_assoc]
  rfl

/-- The sequence is one of those that count as a reset of everything. -/
theorem startsReset_captured_iff (hps : ∀ c ∈ ps, Pen.isParamChar c = true) (t : Text) :
    StartsReset (Sgr.captured ps ++ t) ↔ ps = [] ∨ ps = ['0'] := by
  have hparams : Pen.params? ('[' :: (ps ++ 'm' :: t)) = some ps := Pen.paramsBefore?_append hps t
  rw [captured_append, startsReset_iff, hparams, Option.some.injEq, Option.some.injEq]

theorem escape_not_mem_behind (hps : ∀ c ∈ ps, Pen.isParamChar c = true) : escape ∉ '[' :: (ps ++ ['m']) := by
  rw [List.mem_cons, List.mem_append, not_or, not_or]
  exact ⟨by decide, Pen.escape_not_mem_of_params hps, by decide⟩

theorem replaceResets_of_not_mem {s : Text} (h : escape ∉ s) : replaceResets restore s = s := by
  have happend := replaceResets_append_of_not_mem restore h []
  rwa [List.append_nil, replaceResets, List.append_nil] at happend

variable (restore) in
/-- **A sequence is replaced as a whole**, if it is one of the two. -/
theorem replaceResets_captured_append (hps : ∀ c ∈ ps, Pen.isParamChar c = true) (t : Text) :
    replaceResets restore (Sgr.captured ps ++ t)
      = (if ps = [] ∨ ps = ['0'] then restore else Sgr.captured ps) ++ replaceResets restore t := by
  split
  next h =>
    have hr : Sgr.captured ps ∈ resetSpellings := by
      rw [mem_resetSpellings]
      exact h.imp (congrArg Sgr.captured) (congrArg Sgr.captured)
    exact replaceResets_append_of_mem hr t
  next h =>
    have hstart : ¬ StartsReset (Sgr.captured ps ++ t) := fun hs => h ((startsReset_captured_iff hps t).1 hs)
    rw [Sgr.captured, List.cons_append] at hstart ⊢
    rw [replaceResets_cons hstart, replaceResets_append_of_not_mem restore (escape_not_mem_behind hps)]
    rfl

theorem replaceResets_captured (hps : ∀ c ∈ ps, Pen.isParamChar c = true) :
    replaceResets restore (Sgr.captured ps) = if ps = [] ∨ ps = ['0'] then restore else Sgr.captured ps := by
  have happend := replaceResets_captured_append restore hps []
  rwa [List.append_nil, replaceResets, List.append_nil] at happend

variable {profile : Profile} {base : Option Style}

/-- What a sequence is in rendered text. -/
theorem renderText_captured (hps : ∀ c ∈ ps, Pen.isParamChar c = true) :
    renderText profile base (Sgr.captured ps)
      = if baseAnsi profile base ≠ [] ∧ (ps = [] ∨ ps = ['0']) then Sgr.reset ++ baseAnsi profile base
        else Sgr.captured ps := by
  by_cases hb : baseAnsi profile base = []
  · rw [renderText_of_nil hb, if_neg fun h => h.1 hb]
    rfl
  · rw [renderText_of_ne_nil hb, replaceResets_captured hps]
    simp only [ne_eq, hb, not_false_eq_true, true_and]

/-- **Text may be cut in front of a sequence and behind it** before it is rendered. -/
theorem renderText_append_captured (hps : ∀ c ∈ ps, Pen.isParamChar c = true) (u v : Text) :
    renderText profile base (u ++ (Sgr.captured ps ++ v))
      = renderText profile base u ++ (renderText profile base (Sgr.captured ps) ++ renderText profile base v) := by
  by_cases hb : baseAnsi profile base = []
  · rw [renderText_of_nil hb]
    rfl
  · rw [renderText_of_ne_nil hb, replaceResets_captured hps, ← replaceResets_captured_append _ hps]
    exact replaceResets_append_escape u ('[' :: (ps ++ ['m']) ++ v)

theorem renderText_append_of_not_mem {s : Text} (h : escape ∉ s) (t : Text) :
    renderText profile base (s ++ t) = s ++ renderText profile base t := by
  by_cases hb : baseAnsi profile base = []
  · rw [renderText_of_nil hb]
    rfl
  · rw [renderText_of_ne_nil hb, replaceResets_append_of_not_mem _ h]

theorem renderText_of_not_mem {s : Text} (h : escape ∉ s) : renderText profile base s = s := by
  have happend : renderText profile base (s ++ []) = s ++ renderText profile base [] :=
    renderText_append_of_not_mem h []
  rwa [List.append_nil, renderText_nil, List.append_nil] at happend

theorem flatMap_render_text {ys : List Text} (h : escape ∉ ys.flatten) :
    (ys.map Segment.text).flatMap (Segment.render profile base) = ys.flatten := by
  induction ys with
  | nil => rfl
  | cons y ys ih =>
    rw [List.flatten_cons, List.mem_append, not_or] at h
    rw [List.map_cons, List.flatMap_cons, List.flatten_cons, ih h.2, Segment.render, renderText_of_not_mem h.1]

/-- Behind its first character a sequence has no escape character. -/
theorem escape_not_mem_of_captured (hps : ∀ c ∈ ps, Pen.isParamChar c = true) {a w : Text} (ha : a ≠ [])
    (h : Sgr.captured ps = a ++ w) : escape ∉ w := by
  obtain ⟨c, a, rfl⟩ := List.exists_cons_of_ne_nil ha
  rw [Sgr.captured, List.cons_append, List.cons.injEq] at h
  exact fun hm => escape_not_mem_behind hps (h.2 ▸ List.mem_append_right _ hm)

/-- The beginning of a sequence is no reset: the final letter is the last character. -/
theorem not_startsReset_of_captured (hps : ∀ c ∈ ps, Pen.isParamChar c = true) {a w : Text} (hw : w ≠ [])
    (h : '[' :: (ps ++ ['m']) = a ++ w) : ¬ StartsReset (escape :: a) := by
  have hinit := congrArg List.dropLast h
  rw [← List.cons_append, List.dropLast_concat, List.dropLast_append_of_ne_nil hw] at hinit
  have hfinal : 'm' ∉ a := fun hm => by
    have hbefore : 'm' ∈ '[' :: ps := hinit ▸ List.mem_append_left _ hm
    rcases List.mem_cons.1 hbefore with he | hm
    · cases he
    · exact absurd (hps _ hm) (by decide)
  have of_params {qs : Text} (hqs : Pen.params? a = some qs) : 'm' ∈ a := by
    obtain ⟨t, rfl⟩ := Pen.append_of_params? hqs
    exact List.mem_cons_of_mem _ (List.mem_append_right _ List.mem_cons_self)
  rw [startsReset_iff]
  exact fun hs => hfinal (hs.elim of_params of_params)

/-- The beginning of a sequence stays. -/
theorem renderText_append_of_captured (hps : ∀ c ∈ ps, Pen.isParamChar c = true) {a w : Text} (ha : a ≠ [])
    (hw : w ≠ []) (h : Sgr.captured ps = a ++ w) (u : Text) :
    renderText profile base (u ++ a) = renderText profile base u ++ a := by
  obtain ⟨c, a, rfl⟩ := List.exists_cons_of_ne_nil ha
  rw [Sgr.captured, List.cons_append, List.cons.injEq] at h
  obtain ⟨rfl, h⟩ := h
  have hescape : escape ∉ a := fun hm => escape_not_mem_behind hps (h ▸ List.mem_append_left _ hm)
  by_cases hb : baseAnsi profile base = []
  · rw [renderText_of_nil hb]
    rfl
  · rw [renderText_of_ne_nil hb, replaceResets_append_escape,
      replaceResets_cons (not_startsReset_of_captured hps hw h), replaceResets_of_not_mem hescape]

end Literal

/-! ## The pen behind a sequence -/

/-- A terminal that reads `out` has the pen `p` behind the part `written`, and goes on with it. -/
structure PenBehind (out before written after : Text) (p : Pen) : Prop where
  divides : out = before ++ (written ++ after)
  pen : Pen.blank.read (before ++ written) = p
  continues : Pen.blank.read out = p.read after

namespace Pen

variable {profile : Profile} {style : Style} {ps : Text} {tail : List Change}

/-- A part that starts with an escape character, and leaves one pen whatever the pen was before. -/
theorem penBehind_of_read {w : Text} {q : Pen} (h : ∀ (p : Pen) t, p.read (escape :: (w ++ t)) = q.read t)
    (before after : Text) : PenBehind (before ++ (escape :: w ++ after)) before (escape :: w) after q where
  divides := rfl
  pen := by
    have hlast := h (blank.read before) []
    rw [List.append_nil] at hlast
    rw [read_append_escape, hlast, read]
  continues := by
    rw [List.cons_append, read_append_escape, h]

theorem read_captured (hps : ∀ c ∈ ps, isParamChar c = true) (htail : behindReset? (changesOf ps) = some tail) (p : Pen)
    (t : Text) : p.read (escape :: ('[' :: (ps ++ ['m']) ++ t)) = (blank.applyAll tail).read t := by
  rw [List.cons_append, List.append_assoc, ← applyAll_of_behindReset? htail p]
  exact p.read_sgr hps t

/-- The two sequences that are replaced have nothing behind the reset. -/
theorem behindReset?_changesOf (h : ps = [] ∨ ps = ['0']) : behindReset? (changesOf ps) = some [] := by
  rcases h with rfl | rfl
  · rfl
  · rfl

theorem read_reset_ansi (h : profile.supportsColor = true) (p : Pen) (t : Text) :
    p.read (Sgr.reset ++ style.ansi profile ++ t) = (blank.wear profile style).read t := by
  rw [Sgr.reset, List.append_assoc, read_sequence p (List.cons_ne_nil 0 []), read_ansi h]
  rfl

theorem wear_of_ansi_eq_nil (h : profile.supportsColor = true) (hs : style.ansi profile = []) (p : Pen) :
    p.wear profile style = p := by
  have hread := read_ansi h p style []
  rw [hs, List.append_nil, read, read] at hread
  exact hread.symm

/-- **A sequence that is rendered inside a base style** restores the base if it is one of the two that are replaced, and
otherwise starts from the terminal's default. -/
theorem penBehind_renderText (h : profile.supportsColor = true) (style : Style) (hps : ∀ c ∈ ps, isParamChar c = true)
    (htail : behindReset? (changesOf ps) = some tail) (before after : Text) :
    PenBehind (before ++ (renderText profile (some style) (Sgr.captured ps) ++ after)) before
      (renderText profile (some style) (Sgr.captured ps)) after
      (if ps = [] ∨ ps = ['0'] then blank.wear profile style else blank.applyAll tail) := by
  have hbase : baseAnsi profile (some style) = style.ansi profile := rfl
  rw [renderText_captured hps, hbase]
  by_cases hspelled : ps = [] ∨ ps = ['0']
  · rw [if_pos hspelled]
    by_cases hnil : style.ansi profile = []
    · rw [if_neg fun hc => hc.1 hnil, wear_of_ansi_eq_nil h hnil]
      exact penBehind_of_read (read_captured hps (behindReset?_changesOf hspelled)) before after
    · rw [if_pos ⟨hnil, hspelled⟩]
      exact penBehind_of_read (fun p t => read_reset_ansi h p t) before after
  · rw [if_neg hspelled, if_neg fun hc => hspelled hc.2]
    exact penBehind_of_read (read_captured hps htail) before after

end Pen

/-- The part lies in one literal text of the segments, between `u` and `v`. -/
def LiesIn (ss : List Segment) (part : Text) (pre : List Segment) (u v : Text) (post : List Segment) : Prop :=
  ss = pre ++ .text (u ++ (part ++ v)) :: post

/-- The part is spread over literal texts that follow one another, behind `u` in the first and before `v` in the
last. -/
def LiesAcross (ss : List Segment) (part : Text) (pre : List Segment) (u v : Text) (post : List Segment) : Prop :=
  ∃ (a : Text) (ys : List Text) (b : Text), a ≠ [] ∧ b ≠ [] ∧ part = a ++ (ys.flatten ++ b) ∧
    ss = pre ++ .text (u ++ a) :: (ys.map .text ++ .text (b ++ v) :: post)

namespace Renderer

variable {re : Renderer} {s : Text}

theorem ansiWithin_of_rendersColor (h : re.rendersColor = true) (s base : Text) :
    re.ansiWithin s base = (re.baseStyle base).ansi re.profile
      ++ renderSegments re.profile (some (re.baseStyle base)) (segments re.delimiters re.registry s) ++ Sgr.reset :=
  if_pos h

/-- What the terminal reads before the literal text `u`, and that text, when the segments `pre` stand before it. -/
def outputBefore (re : Renderer) (base : Text) (pre : List Segment) (u : Text) : Text :=
  (re.baseStyle base).ansi re.profile ++ renderSegments re.profile (some (re.baseStyle base)) (pre ++ [.text u])

/-- What the terminal reads from the literal text `v` on, when the segments `post` stand behind it. -/
def outputAfter (re : Renderer) (base : Text) (v : Text) (post : List Segment) : Text :=
  renderSegments re.profile (some (re.baseStyle base)) (.text v :: post) ++ Sgr.reset

theorem ansiWithin_of_liesIn (h : re.rendersColor = true) {ps : Text} (hps : ∀ c ∈ ps, Pen.isParamChar c = true)
    {pre post : List Segment} {u v : Text}
    (hs : LiesIn (segments re.delimiters re.registry s) (Sgr.captured ps) pre u v post) (base : Text) :
    re.ansiWithin s base = re.outputBefore base pre u
      ++ (renderText re.profile (some (re.baseStyle base)) (Sgr.captured ps) ++ re.outputAfter base v post) := by
  rw [LiesIn] at hs
  simp only [ansiWithin_of_rendersColor h, hs, outputBefore, outputAfter, renderSegments, List.flatMap_append,
    List.flatMap_cons, List.flatMap_nil, Segment.render, renderText_append_captured hps, List.append_assoc,
    List.append_nil]

/-- A sequence that a vanished reference interrupts is written as it is. -/
theorem ansiWithin_of_liesAcross (h : re.rendersColor = true) {ps : Text} (hps : ∀ c ∈ ps, Pen.isParamChar c = true)
    {pre post : List Segment} {u v : Text}
    (hs : LiesAcross (segments re.delimiters re.registry s) (Sgr.captured ps) pre u v post) (base : Text) :
    re.ansiWithin s base = re.outputBefore base pre u ++ (Sgr.captured ps ++ re.outputAfter base v post) := by
  obtain ⟨a, ys, b, ha, hb, hparts, hs⟩ := hs
  have hrest : ys.flatten ++ b ≠ [] := List.append_ne_nil_of_right_ne_nil _ hb
  have hescape : escape ∉ ys.flatten ++ b := escape_not_mem_of_captured hps ha hparts
  rw [List.mem_append, not_or] at hescape
  simp only [ansiWithin_of_rendersColor h, hs, outputBefore, outputAfter, renderSegments, List.flatMap_append,
    List.flatMap_cons, List.flatMap_nil, flatMap_render_text hescape.1, Segment.render,
    renderText_append_of_captured hps ha hrest hparts, renderText_append_of_not_mem hescape.2, hparts,
    List.append_assoc, List.append_nil]

theorem supportsColor_of_rendersColor (h : re.rendersColor = true) : re.profile.supportsColor = true :=
  (Bool.and_eq_true_iff.1 h).2

/-- **A captured sequence restores the base style just when it is one of the two that are replaced**, in one literal
text. Any other sequence with a reset starts from the terminal's default; the pen behind it is as though it started from
the base just when what follows the last reset covers the base. -/
theorem penBehind_captured (h : re.rendersColor = true) {ps : Text} (hps : ∀ c ∈ ps, Pen.isParamChar c = true)
    {tail : List Pen.Change} (htail : Pen.behindReset? (Pen.changesOf ps) = some tail) (s base : Text) :
    let worn := Pen.blank.wear re.profile (re.baseStyle base)
    (∀ pre u v post, LiesIn (segments re.delimiters re.registry s) (Sgr.captured ps) pre u v post →
        let before := re.outputBefore base pre u
        let written := renderText re.profile (some (re.baseStyle base)) (Sgr.captured ps)
        PenBehind (re.ansiWithin s base) before written (re.outputAfter base v post)
            (if ps = [] ∨ ps = ['0'] then worn else Pen.blank.applyAll tail) ∧
          (Pen.blank.read (before ++ written) = worn.applyAll tail ↔ (ps = [] ∨ ps = ['0']) ∨ Pen.Covers tail worn)) ∧
      ∀ pre u v post, LiesAcross (segments re.delimiters re.registry s) (Sgr.captured ps) pre u v post →
        let before := re.outputBefore base pre u
        PenBehind (re.ansiWithin s base) before (Sgr.captured ps) (re.outputAfter base v post)
            (Pen.blank.applyAll tail) ∧
          (Pen.blank.read (before ++ Sgr.captured ps) = worn.applyAll tail ↔ Pen.Covers tail worn) := by
  have hcolor := supportsColor_of_rendersColor h
  refine ⟨fun pre u v post hs => ?_, fun pre u v post hs => ?_⟩
  · have hbehind := Pen.penBehind_renderText hcolor (re.baseStyle base) hps htail (re.outputBefore base pre u)
      (re.outputAfter base v post)
    rw [← ansiWithin_of_liesIn h hps hs base] at hbehind
    refine ⟨hbehind, ?_⟩
    rw [hbehind.pen]
    by_cases hspelled : ps = [] ∨ ps = ['0']
    · have hnil : tail = [] := Option.some.inj (htail.symm.trans (Pen.behindReset?_changesOf hspelled))
      rw [if_pos hspelled, hnil]
      exact iff_of_true rfl (.inl hspelled)
    · rw [if_neg hspelled, Pen.applyAll_eq_blank_iff]
      exact (or_iff_right hspelled).symm
  · have hbehind := Pen.penBehind_of_read (Pen.read_captured hps htail) (re.outputBefore base pre u)
      (re.outputAfter base v post)
    have hout := ansiWithin_of_liesAcross h hps hs base
    refine ⟨hout ▸ hbehind, ?_⟩
    rw [← Pen.applyAll_eq_blank_iff]
    exact Eq.congr_left hbehind.pen

/-- A lone zero restores the blue background, and takes away the red that a tag has set. -/
theorem penBehind_captured_zero :
    let re : Renderer := ⟨.empty, .canonical, .ansi16, true⟩
    let s := "{{|red|}}a\x1b[0mb".toList
    let base := ":blue".toList
    re.rendersColor = true ∧ Pen.behindReset? (Pen.changesOf ['0']) = some [] ∧
      LiesIn (segments re.delimiters re.registry s) (Sgr.captured ['0']) [.direct "red".toList] ['a'] ['b'] [] ∧
      Pen.blank.read "\x1b[44m\x1b[31ma\x1b[0m\x1b[44m".toList = Pen.blank.wear .ansi16 (re.baseStyle base) := by
  intro re s base
  have hcolor : re.rendersColor = true := by decide
  have hparam : ∀ c ∈ ['0'], Pen.isParamChar c = true := List.forall_mem_singleton.2 rfl
  have htail : Pen.behindReset? (Pen.changesOf ['0']) = some [] := Pen.behindReset?_changesOf (.inr rfl)
  have hs : LiesIn (segments re.delimiters re.registry s) (Sgr.captured ['0']) [.direct "red".toList] ['a'] ['b']
      [] := by
    unfold LiesIn
    decide +kernel
  have hout : re.outputBefore base [.direct "red".toList] ['a']
      ++ renderText re.profile (some (re.baseStyle base)) (Sgr.captured ['0'])
        = "\x1b[44m\x1b[31ma\x1b[0m\x1b[44m".toList := by decide +kernel
  have hbehind := (penBehind_captured hcolor hparam htail s base).1 _ _ _ _ hs
  refine ⟨hcolor, htail, hs, ?_⟩
  rw [← hout, hbehind.1.pen]
  rfl

/-- Two zeros, and a zero before a color, take the terminal to its default background. -/
theorem penBehind_captured_ne :
    let re : Renderer := ⟨.empty, .canonical, .ansi16, true⟩
    let base := ":blue".toList
    let worn := Pen.blank.wear .ansi16 (re.baseStyle base)
    (Pen.behindReset? (Pen.changesOf "00".toList) = some [] ∧
        re.ansiWithin "a\x1b[00mb".toList base = "\x1b[44ma\x1b[00mb\x1b[0m".toList ∧
        Pen.blank.read "\x1b[44ma\x1b[00m".toList = Pen.blank ∧ Pen.blank ≠ worn) ∧
      Pen.behindReset? (Pen.changesOf "0;31".toList) = some [.paint .foreground (some (.palette 1))] ∧
        re.ansiWithin "\x1b[0;31mx".toList base = "\x1b[44m\x1b[0;31mx\x1b[0m".toList ∧
        Pen.blank.read "\x1b[44m\x1b[0;31m".toList ≠ worn.applyAll [.paint .foreground (some (.palette 1))] := by
  decide +kernel

end Renderer

end TerminalMarkup
