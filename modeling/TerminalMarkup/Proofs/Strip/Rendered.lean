import TerminalMarkup.Proofs.Escape.Phase
import TerminalMarkup.Proofs.Strip.Normal
import TerminalMarkup.Proofs.Token.Canonical

/-!
# Stripping what has been rendered

Rendering writes an SGR sequence in place of a tag, and stripping is to delete it again. The sequence leaves no trace
when the literal text in front of it has no unfinished escape sequence (`Renderer.Separates`).

* Then one pass over the rendered text keeps what it keeps of the literal text (`Renderer.removeSequences_render`), and
  without its escapes the rendered text is as good as the markup (`Renderer.strip_stripEscapes_ansiFor`).
* Sequences that are put into a text without tags make no tags (`Inserted.untagged`), so the rendered text has none if
  removing the tags of the markup leaves none (`Renderer.untagged_ansiFor`).
-/

namespace TerminalMarkup

/-! ## The numbers of a style -/

theorem Attribute.codes_lt : ∀ e ∈ Attribute.codes, e.2.1 < 256 ∧ e.2.2 < 256 := by decide

theorem Flags.offCodes_lt {f : Flags} {n : Nat} (h : n ∈ f.offCodes) : n < 256 := by
  obtain ⟨e, he, rfl⟩ := List.mem_map.1 (List.mem_eraseDups.1 h)
  exact (Attribute.codes_lt e (List.mem_filter.1 he).1).2

theorem Flags.onCodes_lt {f : Flags} {n : Nat} (h : n ∈ f.onCodes) : n < 256 := by
  obtain ⟨e, he, rfl⟩ := List.mem_map.1 h
  exact (Attribute.codes_lt e (List.mem_filter.1 he).1).1

theorem Color.slotParam_lt (layer : Layer) (s : Slot) : Color.slotParam layer s < 256 := by
  unfold Color.slotParam
  have := s.isLt
  split <;> split <;> omega

theorem Color.params_lt {profile : Profile} {layer : Layer} {c : Color} {n : Nat} (h : n ∈ c.params profile layer) :
    n < 256 := by
  have hext : layer.extended < 256 := by cases layer <;> decide
  have rgb {r g b : Channel} (h : n ∈ [layer.extended, 2, r.val, g.val, b.val]) : n < 256 := by
    simp only [List.mem_cons, List.not_mem_nil, or_false] at h
    have := r.isLt
    have := g.isLt
    have := b.isLt
    omega
  have index {i : Palette.Index} (h : n ∈ [layer.extended, 5, i.val]) : n < 256 := by
    simp only [List.mem_cons, List.not_mem_nil, or_false] at h
    have := i.isLt
    omega
  cases profile with
  | ascii => cases h
  | ansi16 =>
    rw [List.mem_singleton.1 h]
    exact slotParam_lt layer _
  | ansi256 => exact index h
  | trueColor =>
    cases c with
    | named c => exact rgb h
    | hex c => exact rgb h
    | index i => exact index h

theorem Style.paintParams_lt {profile : Profile} {layer : Layer} {paint : Option Paint} {n : Nat}
    (h : n ∈ Style.paintParams profile layer paint) : n < 256 := by
  match paint with
  | none => cases h
  | some .default =>
    rw [List.mem_singleton.1 h]
    cases layer <;> decide
  | some (.color c) => exact Color.params_lt h

/-- The numbers of a style have at most three digits. -/
theorem Style.params_lt {profile : Profile} {s : Style} {n : Nat} (h : n ∈ s.params profile) : n < 256 := by
  cases s with
  | reset =>
    rw [List.mem_singleton.1 h]
    decide
  | overlay fg bg flags =>
    simp only [Style.params, List.mem_append] at h
    rcases h with ((h | h) | h) | h
    · exact Flags.offCodes_lt h
    · exact Style.paintParams_lt h
    · exact Style.paintParams_lt h
    · exact Flags.onCodes_lt h

/-- A style writes one SGR sequence, or nothing. -/
theorem Style.ansi_eq (profile : Profile) (s : Style) (h : s.ansi profile ≠ []) :
    ∃ ns, ns ≠ [] ∧ (∀ n ∈ ns, n < 10000) ∧ s.ansi profile = Sgr.sequence ns := by
  unfold Style.ansi Sgr.sequenceUnlessEmpty at h ⊢
  split at h
  · next hp =>
    split at h
    · exact absurd rfl h
    · next hne =>
      rw [if_pos hp, if_neg hne]
      exact ⟨_, hne, fun n hn => Nat.lt_of_lt_of_le (params_lt hn) (by decide), rfl⟩
  · exact absurd rfl h

/-! ## Literal text -/

theorem flatMap_literal_segments (r : Registry) (t : Token) : (t.segments r).flatMap Segment.literal = t.literal := by
  cases t with
  | text s => exact List.append_nil s
  | direct code => rfl
  | semantic name =>
    rw [Token.segments, List.flatMap_map]
    exact List.flatMap_eq_nil_iff.2 fun _ _ => rfl

/-- Expansion does not change the literal text. -/
theorem flatMap_literal (d : Delimiters) (r : Registry) (s : Text) :
    (segments d r s).flatMap Segment.literal = stripTags d s := by
  rw [segments, List.flatMap_assoc, stripTags]
  exact List.flatMap_congr fun t _ => flatMap_literal_segments r t

/-! ## Inserted sequences -/

/-- The characters of an SGR sequence: no brace and no introducer but the escape character. -/
theorem not_mem_sgr {ns : List Nat} {c : Char} (hd : c.isDigit = false) (hc : c ∉ [escape, '[', ';', 'm']) :
    c ∉ Sgr.sequence ns := by
  simp only [List.mem_cons, List.not_mem_nil, or_false, not_or] at hc
  obtain ⟨he, hb, hs, hm⟩ := hc
  intro h
  rcases List.mem_cons.1 h with h | h
  · exact he h
  · rcases List.mem_cons.1 h with h | h
    · exact hb h
    · rcases List.mem_append.1 h with h | h
      · rcases Escape.Phase.mem_params h with h | h
        · rw [hd] at h
          cases h
        · exact hs h
      · exact hm (List.mem_singleton.1 h)

/-- The second text is the first with SGR sequences put in. -/
inductive Inserted : Text → Text → Prop
  | nil : Inserted [] []
  | keep (c : Char) {s t : Text} : Inserted s t → Inserted (c :: s) (c :: t)
  | sgr (ns : List Nat) {s t : Text} : Inserted s t → Inserted s (Sgr.sequence ns ++ t)

namespace Inserted

theorem append {s t : Text} (u : Text) (h : Inserted s t) : Inserted (u ++ s) (u ++ t) := by
  induction u with
  | nil => exact h
  | cons c u ih => exact .keep c ih

/-- Rendering puts sequences into the literal text. -/
theorem renderSegments (profile : Profile) (ss : List Segment) :
    Inserted (ss.flatMap Segment.literal) (renderSegments profile none ss) := by
  induction ss with
  | nil => exact .nil
  | cons seg ss ih =>
    rw [TerminalMarkup.renderSegments, List.flatMap_cons, List.flatMap_cons]
    cases seg with
    | text s => exact ih.append s
    | direct code =>
      by_cases hne : (Style.parse code).ansi profile = []
      · have hs : Segment.render profile none (.direct code) = [] := hne
        rw [hs]
        exact ih
      · obtain ⟨ns, -, -, he⟩ := Style.ansi_eq profile (.parse code) hne
        have hs : Segment.render profile none (.direct code) = Sgr.sequence ns := he
        rw [hs]
        exact .sgr ns ih

/-- What has no escape character has been kept as it is. -/
theorem of_append {u s t : Text} (hu : escape ∉ u) (h : Inserted s (u ++ t)) : ∃ s', s = u ++ s' ∧ Inserted s' t := by
  induction u generalizing s with
  | nil => exact ⟨s, rfl, h⟩
  | cons c u ih =>
    have hc : escape ≠ c := fun e => hu (e ▸ List.mem_cons_self)
    rw [List.cons_append] at h
    generalize hr : c :: (u ++ t) = r at h
    cases h with
    | nil => cases hr
    | keep x h =>
      cases hr
      obtain ⟨s', rfl, h'⟩ := ih (fun hm => hu (List.mem_cons_of_mem _ hm)) h
      exact ⟨s', rfl, h'⟩
    | sgr ns h => exact absurd (List.cons.inj hr).1.symm hc

/-- A tag that is read with sequences put in is read without them. -/
theorem read?_eq_none {s t : Text} (h : Inserted s t) (hs : Token.read? .canonical s = none) :
    Token.read? .canonical t = none := by
  rw [Option.eq_none_iff_forall_ne_some]
  rintro ⟨tag, rest⟩ hr
  rcases Token.of_read? hr with ⟨name, -, hp⟩ | ⟨code, -, hp⟩
  · obtain ⟨-, -, hn, -, rfl⟩ := Token.of_readPayload? hp
    have hu : escape ∉ Delimiters.canonical.wrapSemantic name := by
      simp only [Delimiters.wrapSemantic, List.mem_append, not_or]
      exact ⟨⟨by decide, Token.not_mem_of_isName hn (by decide)⟩, by decide⟩
    have ht : Inserted s (Delimiters.canonical.wrapSemantic name ++ rest) := by
      simpa [Delimiters.wrapSemantic] using h
    obtain ⟨s', rfl, -⟩ := of_append hu ht
    rw [Token.read?_wrapSemantic hn] at hs
    cases hs
  · obtain ⟨-, -, hn, -, rfl⟩ := Token.of_readPayload? hp
    have hu : escape ∉ Delimiters.canonical.wrapDirect code := by
      simp only [Delimiters.wrapDirect, List.mem_append, not_or]
      exact ⟨⟨by decide, Token.not_mem_of_isCode hn (by decide)⟩, by decide⟩
    have ht : Inserted s (Delimiters.canonical.wrapDirect code ++ rest) := by
      simpa [Delimiters.wrapDirect] using h
    obtain ⟨s', rfl, -⟩ := of_append hu ht
    rw [Token.read?_wrapDirect hn] at hs
    cases hs

/-- **Sequences that are put into a text without tags make no tags.** -/
theorem untagged {s t : Text} (h : Inserted s t) (hs : Untagged .canonical s) : Untagged .canonical t := by
  rw [untagged_iff] at hs ⊢
  induction h with
  | nil => exact hs
  | @keep c s t h ih =>
    have hr : Token.read? .canonical (c :: s) = none := by
      rw [Option.eq_none_iff_forall_ne_some]
      rintro ⟨tag, rest⟩ hr
      rw [Token.firstTag?_of_read? hr] at hs
      cases hs
    rw [Token.firstTag?_cons hr, Option.map_eq_none_iff] at hs
    rw [Token.firstTag?_cons ((Inserted.keep c h).read?_eq_none hr), ih hs]
    rfl
  | sgr ns h ih =>
    rw [Token.firstTag?_append_of_not_mem (not_mem_sgr (by decide) (by decide)), ih hs]
    rfl

end Inserted

/-! ## Between sequences -/

namespace Escape.Phase

/-- Every code that writes something stands where the machine is at rest after the literal text before it. -/
def Admits (profile : Profile) : Phase → List Segment → Prop
  | _, [] => True
  | φ, .text s :: ss => (φ.after s).Admits profile ss
  | φ, .direct code :: ss => ((Style.parse code).ansi profile = [] ∨ φ.atRest = true) ∧ φ.Admits profile ss

instance decidableAdmits (profile : Profile) : ∀ φ ss, Decidable (Admits profile φ ss)
  | _, [] => isTrue trivial
  | φ, .text s :: ss => decidableAdmits profile (φ.after s) ss
  | φ, .direct code :: ss =>
    have := decidableAdmits profile φ ss
    inferInstanceAs (Decidable (((Style.parse code).ansi profile = [] ∨ φ.atRest = true) ∧ φ.Admits profile ss))

/-- **Codes that are written where the machine is at rest leave no trace.** -/
theorem scan_renderSegments {profile : Profile} {φ : Phase} {ss : List Segment} (h : φ.Admits profile ss) :
    φ.scan (renderSegments profile none ss) = φ.scan (ss.flatMap Segment.literal) := by
  induction ss generalizing φ with
  | nil => rfl
  | cons seg ss ih =>
    rw [renderSegments, List.flatMap_cons, List.flatMap_cons]
    cases seg with
    | text s =>
      have hs : Segment.render profile none (.text s) = s := rfl
      rw [hs, Segment.literal, scan_append, scan_append]
      exact congrArg _ (ih h)
    | direct code =>
      obtain ⟨hcode, h⟩ := h
      rw [Segment.literal, List.nil_append, ← ih h]
      by_cases hne : (Style.parse code).ansi profile = []
      · have hs : Segment.render profile none (.direct code) = [] := hne
        rw [hs, List.nil_append]
        rfl
      · obtain ⟨ns, hns, hlt, he⟩ := Style.ansi_eq profile (.parse code) hne
        have hs : Segment.render profile none (.direct code) = Sgr.sequence ns := he
        rw [hs]
        exact scan_sgr_of_atRest (hcode.resolve_left hne) hns hlt _

end Escape.Phase

namespace Renderer

/-- No escape sequence of the literal text is unfinished where a tag of the text writes a sequence. -/
def Separates (re : Renderer) (profile : Profile) (s : Text) : Prop :=
  Escape.Phase.ground.Admits profile (segments re.delimiters re.registry s)

instance (re : Renderer) (profile : Profile) (s : Text) : Decidable (re.Separates profile s) :=
  Escape.Phase.decidableAdmits profile _ _

theorem removeSequences_render {re : Renderer} {profile : Profile} {s : Text} (h : re.Separates profile s) :
    Escape.removeSequences (render re.delimiters re.registry profile none s)
      = Escape.removeSequences (stripTags re.delimiters s) := by
  rw [Escape.removeSequences_eq_scan, render, Escape.Phase.scan_renderSegments h, flatMap_literal,
    Escape.removeSequences_eq_scan]

/-- **Without its escapes, what has been rendered is as good as the text itself.** -/
theorem strip_stripEscapes_ansiFor {re : Renderer} {profile : Profile} {s : Text} (h : re.Separates profile s) :
    re.strip (stripEscapes (re.ansiFor profile s)) = re.strip s := by
  unfold ansiFor
  split
  · have honce : Escape.removeOnce (render re.delimiters re.registry profile none s)
        = Escape.removeOnce (stripTags re.delimiters s) := by
      rw [Escape.removeOnce, removeSequences_render h, Escape.removeOnce]
    rw [← stripEscapes_removeOnce, honce, stripEscapes_removeOnce]
    exact strip_stripOnce re.delimiters s
  · rw [strip, strip, stripEscapes_strip, strip_strip]

theorem strip_of_untagged {re : Renderer} {s : Text} (h : Untagged re.delimiters s) :
    re.strip (stripEscapes s) = re.strip s := by
  have := strip_stripOnce re.delimiters s
  rwa [stripTags_eq_self_iff.2 h] at this

/-- Where the tags of a text leave no tags behind, rendering leaves none. -/
theorem untagged_ansiFor {re : Renderer} (hd : re.delimiters = .canonical) (profile : Profile) {s : Text}
    (h : Untagged .canonical (stripTags .canonical s)) : Untagged .canonical (re.ansiFor profile s) := by
  unfold ansiFor
  split
  · rw [render, hd]
    refine (Inserted.renderSegments profile _).untagged ?_
    rwa [flatMap_literal]
  · rw [strip, hd]
    exact strip_untagged _ s

end Renderer
end TerminalMarkup
