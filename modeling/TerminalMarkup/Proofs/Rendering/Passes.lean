import TerminalMarkup.Proofs.Rendering.Resets
import TerminalMarkup.Proofs.Strip.Rendered
import TerminalMarkup.Proofs.Theme.Registry
import TerminalMarkup.Proofs.Token.Written

/-!
# Rendering in two passes

A text may be rendered in one pass, or be expanded first and the result be rendered with its direct tags. The second way
reads the literal text a second time, after the references between its parts have vanished.

* Style codes divide the text into runs of literal texts (`textRuns`). Both ways of rendering are put together from what
  they make of each run (`weave`), with the same sequences in between.
* In a run that is `Seamless` they make the same (`Seamless.flatMap_renderText`). Otherwise they differ by their number
  of braces, for the second pass takes tags away, or of escapes, for it replaces more resets. The numbers can only
  differ in one direction, so that runs do not make up for each other (`countP_eq_of_weave_eq`).
-/

namespace TerminalMarkup

/-! ## Braces of tags -/

/-- The braces of a tag are no literal text. -/
theorem count_brace_stripTags_iff {s : Text} :
    (stripTags .canonical s).count '{' = s.count '{' ↔ Untagged .canonical s := by
  constructor
  · intro h
    rw [untagged_iff, Option.eq_none_iff_forall_ne_some]
    rintro ⟨before, t, rest⟩ hf
    obtain ⟨u, hu⟩ := Token.exists_braces_of_isTag (Token.isTag_of_firstTag? hf).1 []
    have hsource : 2 ≤ (t.source .canonical).count '{' := by
      rw [← List.append_nil (t.source _), hu]
      simp
    have hrest := (stripTags_sublist .canonical rest).count_le '{'
    have hs := congrArg (List.count '{') (Token.append_of_firstTag? hf).1
    rw [stripTags_of_firstTag? hf] at h
    simp only [List.count_append] at h hs
    omega
  · intro h
    rw [stripTags_eq_self_iff.2 h]

/-! ## Runs of literal texts -/

/-- The literal texts that follow one another without a style code between them; `run` are those of the first run so
far. -/
def runsFrom : List Text → List Segment → List (List Text)
  | run, [] => [run]
  | run, .text s :: ss => runsFrom (run ++ [s]) ss
  | run, .direct _ :: ss => run :: runsFrom [] ss

/-- The runs of literal texts between the style codes. -/
def textRuns (ss : List Segment) : List (List Text) := runsFrom [] ss

/-- Puts together what `f` makes of every run, and what `g` makes of the style codes between them. -/
def weave {α : Type} (f : List Text → List α) (g : Text → List α) : List Text → List Segment → List α
  | run, [] => f run
  | run, .text s :: ss => weave f g (run ++ [s]) ss
  | run, .direct code :: ss => f run ++ (g code ++ weave f g [] ss)

section Weave

variable {α β : Type} {f f' : List Text → List α} {g : Text → List α}

theorem apply_weave {h : List α → List β} (happend : ∀ a b, h (a ++ b) = h a ++ h b) (run : List Text)
    (ss : List Segment) : h (weave f g run ss) = weave (fun r => h (f r)) (fun code => h (g code)) run ss := by
  induction ss generalizing run with
  | nil => rfl
  | cons seg ss ih =>
    cases seg with
    | text s => exact ih (run ++ [s])
    | direct code => rw [weave, weave, happend, happend, ih]

/-- Where the runs give nothing, there are the style codes. -/
theorem weave_nil (run : List Text) (ss : List Segment) :
    weave (fun _ => []) g run ss = (ss.filterMap Segment.code?).flatMap g := by
  induction ss generalizing run with
  | nil => rfl
  | cons seg ss ih =>
    cases seg with
    | text s => exact ih (run ++ [s])
    | direct code => exact congrArg (g code ++ ·) (ih [])

theorem weave_congr {run : List Text} {ss : List Segment} (h : ∀ r ∈ runsFrom run ss, f r = f' r) :
    weave f g run ss = weave f' g run ss := by
  induction ss generalizing run with
  | nil => exact h run (List.mem_singleton.2 rfl)
  | cons seg ss ih =>
    cases seg with
    | text s => exact ih h
    | direct code =>
      rw [runsFrom, List.forall_mem_cons] at h
      rw [weave, weave, h.1, ih h.2]

/-- What there is less of in every run, there is less of in all. -/
theorem countP_weave_le (p : α → Bool) (h : ∀ r, (f r).countP p ≤ (f' r).countP p) (run : List Text)
    (ss : List Segment) : (weave f g run ss).countP p ≤ (weave f' g run ss).countP p := by
  induction ss generalizing run with
  | nil => exact h run
  | cons seg ss ih =>
    cases seg with
    | text s => exact ih (run ++ [s])
    | direct code =>
      have := h run
      have := ih []
      simp only [weave, List.countP_append]
      omega

/-- And if there is as much of it in all, there is as much of it in every run. -/
theorem countP_eq_of_weave_eq {p : α → Bool} (h : ∀ r, (f r).countP p ≤ (f' r).countP p) {run : List Text}
    {ss : List Segment} (he : weave f g run ss = weave f' g run ss) :
    ∀ r ∈ runsFrom run ss, (f r).countP p = (f' r).countP p := by
  replace he := congrArg (List.countP p) he
  induction ss generalizing run with
  | nil => exact List.forall_mem_singleton.2 he
  | cons seg ss ih =>
    cases seg with
    | text s => exact ih he
    | direct code =>
      have hrun := h run
      have hrest := countP_weave_le (g := g) p h [] ss
      simp only [weave, List.countP_append] at he
      exact List.forall_mem_cons.2 ⟨by omega, ih (by omega)⟩

end Weave

/-! ## Both ways of rendering -/

variable {profile : Profile} {base : Option Style} {ss : List Segment}

/-- Rendering in one pass renders every literal text on its own. -/
theorem renderSegments_eq_weave (run : List Text) :
    run.flatMap (renderText profile base) ++ renderSegments profile base ss
      = weave (fun r => r.flatMap (renderText profile base)) (renderCode profile base) run ss := by
  induction ss generalizing run with
  | nil => exact List.append_nil _
  | cons seg ss ih =>
    rw [renderSegments, List.flatMap_cons]
    cases seg with
    | text s =>
      rw [weave, ← ih, List.flatMap_append, List.flatMap_singleton, List.append_assoc]
      rfl
    | direct code =>
      rw [weave, ← ih]
      rfl

/-- **The tokens of an expanded text** are its style codes and the tokens of the runs between them. -/
theorem tokenize_source (h : ∀ code, .direct code ∈ ss → Token.isCode code = true) (run : List Text) :
    tokenize .canonical (run.flatten ++ ss.flatMap (Segment.source .canonical))
      = weave (fun r => tokenize .canonical r.flatten) (fun code => [.direct code]) run ss := by
  induction ss generalizing run with
  | nil => exact congrArg _ (List.append_nil _)
  | cons seg ss ih =>
    have htail : ∀ code, .direct code ∈ ss → Token.isCode code = true :=
      fun code hc => h code (List.mem_cons_of_mem _ hc)
    rw [List.flatMap_cons]
    cases seg with
    | text s =>
      rw [weave, ← ih htail, List.flatten_append, List.flatten_singleton, List.append_assoc]
      rfl
    | direct code =>
      have hcode : Token.isValid (.direct code) = true := h code List.mem_cons_self
      rw [weave, ← ih htail]
      exact tokenize_append_tag (t := .direct code) rfl hcode _ _

theorem renderDirect_eq_flatMap (d : Delimiters) (profile : Profile) (base : Option Style) (s : Text) :
    renderDirect d profile base s
      = (tokenize d s).flatMap fun t => t.directSegment?.toList.flatMap (Segment.render profile base) := by
  rw [renderDirect, renderSegments, List.filterMap_eq_flatMap_toList, List.flatMap_assoc]

/-- Rendering in two passes renders the direct tags in every run. -/
theorem renderDirect_source_eq_weave (h : ∀ code, .direct code ∈ ss → Token.isCode code = true) :
    renderDirect .canonical profile base (ss.flatMap (Segment.source .canonical))
      = weave (fun r => renderDirect .canonical profile base r.flatten) (renderCode profile base) [] ss := by
  have htokens := tokenize_source h []
  rw [List.flatten_nil, List.nil_append] at htokens
  have hcode (code : Text) :
      [Token.direct code].flatMap (fun t => t.directSegment?.toList.flatMap (Segment.render profile base))
        = renderCode profile base code := by
    rw [List.flatMap_singleton]
    exact List.append_nil _
  simp only [renderDirect_eq_flatMap, htokens, apply_weave fun _ _ => List.flatMap_append, hcode]

/-! ## One run -/

theorem Style.not_mem_ansi {c : Char} (hd : c.isDigit = false) (hc : c ∉ [escape, '[', ';', 'm']) (profile : Profile)
    (s : Style) : c ∉ s.ansi profile := by
  by_cases h : s.ansi profile = []
  · rw [h]
    exact List.not_mem_nil
  · obtain ⟨ns, -, -, he⟩ := Style.ansi_eq profile s h
    rw [he]
    exact not_mem_sgr hd hc

theorem brace_not_mem_baseAnsi (profile : Profile) (base : Option Style) : '{' ∉ baseAnsi profile base := by
  cases base with
  | none => exact List.not_mem_nil
  | some b => exact Style.not_mem_ansi (by decide) (by decide) profile b

theorem brace_not_mem_renderCode (profile : Profile) (base : Option Style) (code : Text) :
    '{' ∉ renderCode profile base code := by
  have hstyle (s : Style) : '{' ∉ s.ansi profile := Style.not_mem_ansi (by decide) (by decide) profile s
  cases base with
  | none => exact hstyle _
  | some b =>
    rw [renderCode]
    split
    · rw [List.mem_append, not_or]
      exact ⟨by decide, hstyle _⟩
    · exact hstyle _

/-- Literal text keeps its braces. -/
theorem count_brace_renderText (profile : Profile) (base : Option Style) (s : Text) :
    (renderText profile base s).count '{' = s.count '{' := by
  rw [renderText]
  split
  · rfl
  · refine count_replaceResets ?_ (by decide) s
    rw [List.mem_append, not_or]
    exact ⟨by decide, brace_not_mem_baseAnsi profile base⟩

theorem count_brace_flatMap_renderText (profile : Profile) (base : Option Style) (run : List Text) :
    (run.flatMap (renderText profile base)).count '{' = run.flatten.count '{' := by
  induction run with
  | nil => rfl
  | cons s run ih => rw [List.flatMap_cons, List.flatten_cons, List.count_append, List.count_append,
      count_brace_renderText, ih]

/-- A text loses the braces of its tags. -/
theorem count_brace_renderDirect (profile : Profile) (base : Option Style) (s : Text) :
    (renderDirect .canonical profile base s).count '{' = (stripTags .canonical s).count '{' := by
  rw [renderDirect_eq_flatMap, stripTags]
  induction tokenize .canonical s with
  | nil => rfl
  | cons t ts ih =>
    have ht : (t.directSegment?.toList.flatMap (Segment.render profile base)).count '{' = t.literal.count '{' := by
      cases t with
      | text s =>
        refine Eq.trans ?_ (count_brace_renderText profile base s)
        exact congrArg (List.count '{') (List.append_nil _)
      | semantic name => rfl
      | direct code =>
        refine Eq.trans ?_ (List.count_eq_zero_of_not_mem (brace_not_mem_renderCode profile base code))
        exact congrArg (List.count '{') (List.append_nil _)
    rw [List.flatMap_cons, List.flatMap_cons, List.count_append, List.count_append, ht, ih]

theorem renderDirect_of_untagged {s : Text} (h : Untagged .canonical s) :
    renderDirect .canonical profile base s = renderText profile base s := by
  rw [renderDirect_eq_flatMap, tokenize_of_untagged h, Token.textUnlessEmpty]
  split
  next hs => rw [hs, renderText_nil, List.flatMap_nil]
  next => exact (List.flatMap_singleton ..).trans (List.append_nil _)

/-- The reset and the base's sequence start with an escape each. -/
theorem one_lt_count_escape (h : baseAnsi profile base ≠ []) :
    1 < (Sgr.reset ++ baseAnsi profile base).count escape := by
  have hbase : 0 < (baseAnsi profile base).count escape := by
    cases base with
    | none => exact absurd rfl h
    | some b =>
      obtain ⟨ns, -, -, he⟩ := Style.ansi_eq profile b h
      have hb : baseAnsi profile (some b) = Sgr.sequence ns := he
      rw [List.count_pos_iff, hb]
      exact List.mem_cons_self
  have hreset : Sgr.reset.count escape = 1 := by decide
  rw [List.count_append]
  omega

/-- Joining a run first makes its braces no more. -/
theorem count_brace_renderDirect_le (profile : Profile) (base : Option Style) (run : List Text) :
    (renderDirect .canonical profile base run.flatten).count '{'
      ≤ (run.flatMap (renderText profile base)).count '{' := by
  rw [count_brace_renderDirect, count_brace_flatMap_renderText]
  exact (stripTags_sublist .canonical run.flatten).count_le '{'

/-- Where the texts of a run are put together there is no tag; and inside a base style that writes something, there are
no more resets than in the texts. -/
structure Seamless (profile : Profile) (base : Option Style) (run : List Text) : Prop where
  untagged : Untagged .canonical run.flatten
  resets : baseAnsi profile base = [] ∨ countResets run.flatten = (run.map countResets).sum

theorem flatMap_renderText_of_nil (h : baseAnsi profile base = []) (run : List Text) :
    run.flatMap (renderText profile base) = renderText profile base run.flatten := by
  rw [renderText_of_nil h, List.flatMap_id]
  rfl

/-- Joining a run first makes its escapes no fewer. -/
theorem count_escape_flatMap_renderText_le (profile : Profile) (base : Option Style) (run : List Text) :
    (run.flatMap (renderText profile base)).count escape ≤ (renderText profile base run.flatten).count escape := by
  by_cases h : baseAnsi profile base = []
  · exact (congrArg (List.count escape) (flatMap_renderText_of_nil h run)).le
  · rw [renderText_of_ne_nil h]
    exact count_escape_flatMap_replaceResets_le (Nat.zero_lt_of_lt (one_lt_count_escape h)) run

namespace Seamless

variable {run : List Text}

/-- **The texts of a seamless run may be put together before or after they are rendered.** -/
theorem flatMap_renderText (h : Seamless profile base run) :
    run.flatMap (renderText profile base) = renderDirect .canonical profile base run.flatten := by
  rw [renderDirect_of_untagged h.untagged]
  by_cases hb : baseAnsi profile base = []
  · exact flatMap_renderText_of_nil hb run
  · rw [renderText_of_ne_nil hb]
    exact (flatMap_replaceResets_iff (one_lt_count_escape hb) run).2 (h.resets.resolve_left hb)

theorem nil (profile : Profile) (base : Option Style) : Seamless profile base [] where
  untagged := untagged_of_not_mem List.not_mem_nil
  resets := .inr (by decide)

theorem singleton {s : Text} (h : Untagged .canonical s) : Seamless profile base [s] where
  untagged := by rwa [List.flatten_singleton]
  resets := .inr (by rw [List.flatten_singleton, List.map_singleton, List.sum_singleton])

end Seamless

/-! ## The runs of a text -/

theorem isCode_of_mem_segments {d : Delimiters} {r : Registry} {s code : Text} (h : .direct code ∈ segments d r s) :
    Token.isCode code = true := by
  obtain ⟨t, ht, hc⟩ := List.mem_flatMap.1 h
  cases t with
  | text s => cases List.mem_singleton.1 hc
  | direct code' =>
    cases List.mem_singleton.1 hc
    exact Token.isValid_of_mem_tokenize ht
  | semantic name =>
    obtain ⟨code', hc, he⟩ := List.mem_map.1 hc
    cases he
    exact r.isCode_of_mem_codes hc

/-- Style codes end a run, and begin the next one. -/
theorem mem_runsFrom_codes {codes : List Text} (h : codes ≠ []) {run run' : List Text}
    (hm : run' ∈ runsFrom run (codes.map .direct ++ ss)) : run' = run ∨ run' = [] ∨ run' ∈ runsFrom [] ss := by
  induction codes generalizing run with
  | nil => exact absurd rfl h
  | cons code codes ih =>
    rcases List.mem_cons.1 hm with rfl | hm
    · exact .inl rfl
    · by_cases hc : codes = []
      · subst hc
        exact .inr (.inr hm)
      · rcases ih hc hm with rfl | hm
        · exact .inr (.inl rfl)
        · exact .inr hm

/-- One of two tokens is a tag. -/
def Token.Alternate (t u : Token) : Prop := t.isTag = true ∨ u.isTag = true

theorem eq_nil_or_singleton_of_isChain {run : List Text} {ts : List Token}
    (h : (run.map Token.text ++ ts).IsChain Token.Alternate) :
    run = [] ∨ ∃ s, run = [s] ∧ .text s ∈ run.map Token.text ++ ts := by
  match run, h with
  | [], _ => exact .inl rfl
  | [s], _ => exact .inr ⟨s, rfl, List.mem_cons_self⟩
  | _ :: _ :: _, h =>
    rcases (List.isChain_cons_cons.1 h).1 with h | h
    · cases h
    · cases h

/-- **Where every reference has codes, no two literal texts meet.** -/
theorem mem_runsFrom_of_isChain {r : Registry} {ts : List Token} {run : List Text}
    (hchain : (run.map Token.text ++ ts).IsChain Token.Alternate)
    (hcodes : ∀ name, .semantic name ∈ ts → r.codes maxDepth name ≠ []) {run' : List Text}
    (hm : run' ∈ runsFrom run (ts.flatMap (Token.segments r))) :
    run' = [] ∨ ∃ s, run' = [s] ∧ .text s ∈ run.map Token.text ++ ts := by
  induction ts generalizing run with
  | nil =>
    rw [List.mem_singleton.1 hm]
    exact eq_nil_or_singleton_of_isChain hchain
  | cons t ts ih =>
    have hcodes' : ∀ name, .semantic name ∈ ts → r.codes maxDepth name ≠ [] :=
      fun name hn => hcodes name (List.mem_cons_of_mem _ hn)
    -- behind style codes a new run begins
    have behind (hm : run' ∈ runsFrom [] (ts.flatMap (Token.segments r))) :
        run' = [] ∨ ∃ s, run' = [s] ∧ .text s ∈ run.map Token.text ++ t :: ts := by
      have hchain' : (([] : List Text).map Token.text ++ ts).IsChain Token.Alternate := hchain.right_of_append.tail
      refine (ih hchain' hcodes' hm).imp_right fun ⟨s, he, hs⟩ => ⟨s, he, ?_⟩
      exact List.mem_append_right _ (List.mem_cons_of_mem _ hs)
    cases t with
    | text s =>
      have happend : run.map Token.text ++ .text s :: ts = (run ++ [s]).map Token.text ++ ts := by
        rw [List.map_append, List.append_assoc]
        rfl
      rw [happend] at hchain ⊢
      exact ih hchain hcodes' hm
    | direct code =>
      rcases List.mem_cons.1 hm with rfl | hm
      · exact eq_nil_or_singleton_of_isChain hchain
      · exact behind hm
    | semantic name =>
      rcases mem_runsFrom_codes (hcodes name List.mem_cons_self) hm with rfl | he | hm
      · exact eq_nil_or_singleton_of_isChain hchain
      · exact .inl he
      · exact behind hm

/-- Where every reference has codes, all runs are seamless. -/
theorem seamless_of_codes {r : Registry} {s : Text}
    (h : ∀ name, .semantic name ∈ tokenize .canonical s → r.codes maxDepth name ≠ []) {run : List Text}
    (hm : run ∈ textRuns (segments .canonical r s)) : Seamless profile base run := by
  have hchain : (([] : List Text).map Token.text ++ tokenize .canonical s).IsChain Token.Alternate :=
    isChain_tokenize .canonical s
  rcases mem_runsFrom_of_isChain hchain h hm with rfl | ⟨u, rfl, hu⟩
  · exact .nil profile base
  · exact .singleton (untagged_of_mem_tokenize hu)

/-! ## The whole text -/

section Whole

variable {r : Registry} {s : Text}

theorem render_eq_weave : render .canonical r profile base s
    = weave (fun run => run.flatMap (renderText profile base)) (renderCode profile base) [] (segments .canonical r s) :=
  renderSegments_eq_weave []

theorem renderDirect_expand_eq_weave : renderDirect .canonical profile base (expand .canonical r s)
    = weave (fun run => renderDirect .canonical profile base run.flatten) (renderCode profile base) []
      (segments .canonical r s) :=
  renderDirect_source_eq_weave fun _ => isCode_of_mem_segments

/-- **Rendering in one pass and in two agree just when all runs are seamless.** A tag across a seam loses braces; then
without such tags, a reset across a seam gives escapes. -/
theorem render_eq_renderDirect_iff :
    render .canonical r profile base s = renderDirect .canonical profile base (expand .canonical r s) ↔
      ∀ run ∈ textRuns (segments .canonical r s), Seamless profile base run := by
  rw [render_eq_weave, renderDirect_expand_eq_weave]
  constructor
  · intro h
    have huntagged : ∀ run ∈ textRuns (segments .canonical r s), Untagged .canonical run.flatten := fun run hm => by
      have hcount : (renderDirect .canonical profile base run.flatten).count '{'
          = (run.flatMap (renderText profile base)).count '{' :=
        countP_eq_of_weave_eq (count_brace_renderDirect_le profile base) h.symm run hm
      rw [count_brace_renderDirect, count_brace_flatMap_renderText] at hcount
      exact count_brace_stripTags_iff.1 hcount
    rw [weave_congr fun run hm => renderDirect_of_untagged (huntagged run hm)] at h
    refine fun run hm => ⟨huntagged run hm, or_iff_not_imp_left.2 fun hb => ?_⟩
    have hcount : (run.flatMap (renderText profile base)).count escape
        = (renderText profile base run.flatten).count escape :=
      countP_eq_of_weave_eq (count_escape_flatMap_renderText_le profile base) h run hm
    rw [renderText_of_ne_nil hb] at hcount
    exact countResets_flatten_of_count (one_lt_count_escape hb) hcount
  · intro h
    exact weave_congr fun run hm => (h run hm).flatMap_renderText

/-- **Expansion makes no tags of its own just when there is none in a run.** -/
theorem tags_expand_iff :
    (tokenize .canonical (expand .canonical r s)).filter Token.isTag
        = ((segments .canonical r s).filterMap Segment.code?).map Token.direct ↔
      ∀ run ∈ textRuns (segments .canonical r s), Untagged .canonical run.flatten := by
  have htokens := tokenize_source (fun _ => isCode_of_mem_segments (d := .canonical) (r := r) (s := s)) []
  rw [List.flatten_nil, List.nil_append] at htokens
  have hcodes : ((segments .canonical r s).filterMap Segment.code?).map Token.direct
      = weave (fun _ => []) (fun code => [Token.direct code]) [] (segments .canonical r s) := by
    rw [weave_nil, List.map_eq_flatMap]
  have htags : (tokenize .canonical (expand .canonical r s)).filter Token.isTag
      = weave (fun run => (tokenize .canonical run.flatten).filter Token.isTag) (fun code => [Token.direct code]) []
        (segments .canonical r s) := by
    rw [expand, htokens, apply_weave fun _ _ => List.filter_append (p := Token.isTag) ..]
    rfl
  have hrun (run : List Text) : (tokenize .canonical run.flatten).filter Token.isTag = [] ↔
      Untagged .canonical run.flatten := by
    simp only [List.filter_eq_nil_iff, Untagged, Bool.not_eq_true]
  rw [htags, hcodes]
  constructor
  · intro h run hm
    have hcount := countP_eq_of_weave_eq (p := fun _ => true) (fun _ => Nat.zero_le _) h.symm run hm
    simp only [List.countP_true] at hcount
    exact (hrun run).1 (List.length_eq_zero_iff.1 hcount.symm)
  · intro h
    exact weave_congr fun run hm => (hrun run).2 (h run hm)

end Whole

/-- **Rendering is the second pass after the first** just when neither a tag nor, in a base style that writes something,
a reset arises where literal texts meet. The tags of an expanded text are those that expansion writes just when no tag
arises. In a text whose references all have style codes, no literal texts meet. -/
theorem render_eq_renderDirect_expand_iff (r : Registry) (profile : Profile) (base : Option Style) (s : Text) :
    (render .canonical r profile base s = renderDirect .canonical profile base (expand .canonical r s) ↔
        ∀ run ∈ textRuns (segments .canonical r s), Seamless profile base run) ∧
      ((tokenize .canonical (expand .canonical r s)).filter Token.isTag
          = ((segments .canonical r s).filterMap Segment.code?).map Token.direct ↔
        ∀ run ∈ textRuns (segments .canonical r s), Untagged .canonical run.flatten) ∧
      ((∀ name, .semantic name ∈ tokenize .canonical s → r.codes maxDepth name ≠ []) →
        ∀ run ∈ textRuns (segments .canonical r s), Seamless profile base run) :=
  ⟨render_eq_renderDirect_iff, tags_expand_iff, fun h _ hm => seamless_of_codes h hm⟩

/-- Around references that vanish there are a reference, a direct tag and a reset: the second pass drops the one, writes
the other as a sequence, and puts the base behind the third. -/
theorem render_ne_renderDirect_expand :
    let reference := "{{_{{_gone_}}b_}}".toList
    let tag := "{{|{{_gone_}}red|}}x".toList
    let reset := escape :: "[{{_gone_}}0mx".toList
    let base := Style.parse ":blue".toList
    (expand .canonical .empty reference = "{{_b_}}".toList ∧
        render .canonical .empty .ansi16 none reference = "{{_b_}}".toList ∧
        renderDirect .canonical .ansi16 none (expand .canonical .empty reference) = []) ∧
      (expand .canonical .empty tag = "{{|red|}}x".toList ∧
        render .canonical .empty .ansi16 none tag = "{{|red|}}x".toList ∧
        renderDirect .canonical .ansi16 none (expand .canonical .empty tag) = "\x1b[31mx".toList) ∧
      render .canonical .empty .ansi16 (some base) reset = "\x1b[0mx".toList ∧
        renderDirect .canonical .ansi16 (some base) (expand .canonical .empty reset) = "\x1b[0m\x1b[44mx".toList := by
  decide +kernel

end TerminalMarkup
