import TerminalMarkup.Proofs.Terminal.Captured

/-!
# What a terminal shows

A terminal shows the characters of a text, each as the pen writes it there. An SGR sequence changes the pen and shows
nothing.

* `Pen.shown` are the characters with their pens. Literal text is shown as it is (`Pen.shown_append_of_not_mem`), and
  the sequence of a style puts the style on (`Pen.shown_ansi`).
* `Segment.annotate` goes along segments with a state that the style codes change, and notes it at every character. With
  the pen for a state it is what a terminal shows of the rendered segments (`Pen.shown_renderSegments`).
* Of the inks of a pen only the style codes and the base count (`Style.tint`): whatever returns a layer to the default
  returns it to the base (`Renderer.ink_shown_ansiWithin`).
-/

namespace TerminalMarkup

namespace Pen

/-- What a terminal shows of a text whose first `skip` characters belong to a sequence that has been read. -/
def shownBehind : Nat → Pen → Text → List (Char × Pen)
  | _, _, [] => []
  | skip + 1, p, _ :: s => shownBehind skip p s
  | 0, p, c :: s =>
    if c = escape then
      match params? s with
      | some ps => shownBehind (ps.length + 2) (p.applyAll (changesOf ps)) s
      | none => shownBehind 0 p s
    else (c, p) :: shownBehind 0 p s

/-- The characters that a terminal shows of a text, each with the pen that writes it. -/
def shown (p : Pen) (s : Text) : List (Char × Pen) := shownBehind 0 p s

theorem shown_cons_of_ne (p : Pen) {c : Char} (h : c ≠ escape) (s : Text) : p.shown (c :: s) = (c, p) :: p.shown s :=
  if_neg h

/-- **Literal text is shown as it is.** -/
theorem shown_append_of_not_mem (p : Pen) {s : Text} (h : escape ∉ s) (t : Text) :
    p.shown (s ++ t) = s.map (·, p) ++ p.shown t := by
  induction s with
  | nil => rfl
  | cons c s ih =>
    rw [List.mem_cons, not_or] at h
    rw [List.cons_append, shown_cons_of_ne p (Ne.symm h.1), ih h.2, List.map_cons, List.cons_append]

theorem shownBehind_append (p : Pen) (s t : Text) : shownBehind s.length p (s ++ t) = p.shown t := by
  induction s with
  | nil => rfl
  | cons c s ih => exact ih

/-- **A sequence shows nothing**, and makes its changes. -/
theorem shown_sequence (p : Pen) {ns : List Nat} (h : ns ≠ []) (t : Text) :
    p.shown (Sgr.sequence ns ++ t) = (p.applyAll (changes ns)).shown t := by
  have hchars : ∀ c ∈ Sgr.params ns, isParamChar c = true := isParamChar_of_mem_params
  have hparams : params? ('[' :: (Sgr.params ns ++ 'm' :: t)) = some (Sgr.params ns) := paramsBefore?_append hchars t
  have htext : '[' :: (Sgr.params ns ++ 'm' :: t) = '[' :: (Sgr.params ns ++ ['m']) ++ t := by
    rw [List.cons_append, List.append_assoc, List.singleton_append]
  have hlength : ('[' :: (Sgr.params ns ++ ['m'])).length = (Sgr.params ns).length + 2 := by
    rw [List.length_cons, List.length_append, List.length_singleton]
  rw [htext] at hparams
  rw [Sgr.sequence, List.cons_append, shown, shownBehind, if_pos rfl, hparams]
  dsimp only
  rw [changesOf, numbers_params h, ← hlength]
  exact shownBehind_append _ _ t

@[simp] theorem shown_nil (p : Pen) : p.shown [] = [] := rfl

/-- A full reset at the end shows nothing. -/
@[simp] theorem shown_reset (p : Pen) : p.shown Sgr.reset = [] := by
  have hlast := p.shown_sequence (List.cons_ne_nil 0 []) []
  rw [List.append_nil] at hlast
  exact hlast

variable {profile : Profile}

/-- The sequence of a style puts the style on. -/
theorem shown_ansi (h : profile.supportsColor = true) (p : Pen) (s : Style) (t : Text) :
    p.shown (s.ansi profile ++ t) = (p.wear profile s).shown t := by
  rw [Style.ansi, if_pos h, Sgr.sequenceUnlessEmpty, ← applyAll_params h]
  split
  next hnil =>
    rw [hnil]
    rfl
  next hne => exact shown_sequence p hne t

/-! ## Rendered segments -/

/-- The pen with a style put on inside a base style. -/
def wearWithin (profile : Profile) (base : Option Style) (p : Pen) (s : Style) : Pen :=
  match base with
  | none => p.wear profile s
  | some base => if s.isReset then blank.wear profile base else p.wear profile (s.withBase base)

theorem shown_renderCode (h : profile.supportsColor = true) (base : Option Style) (p : Pen) (code t : Text) :
    p.shown (renderCode profile base code ++ t) = (p.wearWithin profile base (.parse code)).shown t := by
  cases base with
  | none => exact shown_ansi h p _ t
  | some base =>
    rw [renderCode, wearWithin]
    split
    next =>
      rw [Sgr.reset, List.append_assoc, shown_sequence p (List.cons_ne_nil 0 []), shown_ansi h]
      rfl
    next => exact shown_ansi h p _ t

end Pen

namespace Segment

variable {α β : Type}

/-- The characters of the literal texts, each with what the style codes before it have made of a state. -/
def annotate (step : α → Style → α) : α → List Segment → List (Char × α)
  | _, [] => []
  | a, text s :: ss => s.map (·, a) ++ annotate step a ss
  | a, direct code :: ss => annotate step (step a (.parse code)) ss

/-- The state behind segments. -/
def behind (step : α → Style → α) (a : α) (ss : List Segment) : α :=
  ss.foldl (fun a s => match s with
    | text _ => a
    | direct code => step a (.parse code)) a

/-- A view of the state that the style codes change on its own. -/
theorem map_annotate (view : α → β) {step : α → Style → α} {step' : β → Style → β}
    (h : ∀ a style, view (step a style) = step' (view a) style) (a : α) (ss : List Segment) :
    (annotate step a ss).map (Prod.map id view) = annotate step' (view a) ss := by
  induction ss generalizing a with
  | nil => rfl
  | cons segment ss ih =>
    cases segment with
    | text s =>
      rw [annotate, annotate, List.map_append, List.map_map, ih]
      rfl
    | direct code => rw [annotate, annotate, ih, h]

/-- The characters are those of the literal texts. -/
theorem map_fst_annotate (step : α → Style → α) (a : α) (ss : List Segment) :
    (annotate step a ss).map Prod.fst = ss.flatMap literal := by
  induction ss generalizing a with
  | nil => rfl
  | cons segment ss ih =>
    cases segment with
    | text s =>
      have hid : (Prod.fst ∘ fun c : Char => (c, a)) = id := rfl
      rw [annotate, List.map_append, List.map_map, hid, List.map_id, ih, List.flatMap_cons, literal]
    | direct code => exact ih _

end Segment

/-- **A terminal shows the literal texts of rendered segments**, with the styles between them put on. -/
theorem Pen.shown_renderSegments {profile : Profile} (h : profile.supportsColor = true) (base : Option Style) (p : Pen)
    {ss : List Segment} (hss : escape ∉ ss.flatMap Segment.literal) (t : Text) :
    p.shown (renderSegments profile base ss ++ t)
      = Segment.annotate (wearWithin profile base) p ss
        ++ (Segment.behind (wearWithin profile base) p ss).shown t := by
  induction ss generalizing p with
  | nil => rfl
  | cons segment ss ih =>
    rw [List.flatMap_cons, List.mem_append, not_or] at hss
    rw [renderSegments, List.flatMap_cons, List.append_assoc]
    cases segment with
    | text s =>
      have hs : escape ∉ s := hss.1
      rw [Segment.render, renderText_of_not_mem hs, shown_append_of_not_mem p hs, Segment.annotate, List.append_assoc]
      exact congrArg (s.map (·, p) ++ ·) (ih p hss.2)
    | direct code =>
      rw [Segment.render, shown_renderCode h, Segment.annotate]
      exact ih _ hss.2

/-- The segments of a markup text bring no character that is not in it into the literal text. -/
theorem not_mem_literal_segments {c : Char} {s : Text} (h : c ∉ s) (d : Delimiters) (r : Registry) :
    c ∉ (segments d r s).flatMap Segment.literal := by
  rw [flatMap_literal]
  exact fun hm => h ((stripTags_sublist d s).subset hm)

/-! ## Inks -/

/-- The ink that a base style gives a layer; a layer that the base leaves open has the terminal's default. -/
def Style.home (profile : Profile) (layer : Layer) (base : Style) : Option Ink :=
  Paint.over profile none (base.paint layer)

/-- What a style makes of the ink of a layer inside a base style that gives the layer the ink `home`. -/
def Style.tint (profile : Profile) (layer : Layer) (home ink : Option Ink) (s : Style) : Option Ink :=
  if s.isReset then home
  else
    match s.paint layer with
    | none => ink
    | some .default => home
    | some (.color c) => c.ink? profile

/-- The characters of the literal texts, each with the ink that the style codes before it make of that of the base. -/
def Segment.inked (profile : Profile) (layer : Layer) (base : Style) (ss : List Segment) : List (Char × Option Ink) :=
  annotate (Style.tint profile layer (base.home profile layer)) (base.home profile layer) ss

namespace Pen

theorem ink_blank_wear (profile : Profile) (layer : Layer) (base : Style) :
    (blank.wear profile base).ink layer = base.home profile layer := by
  cases base with
  | reset => cases layer <;> rfl
  | overlay fg bg flags => rfl

theorem paint_withBase (fg bg : Option Paint) (flags : Flags) (base : Style) (layer : Layer) :
    ((Style.overlay fg bg flags).withBase base).paint layer
      = Paint.withBase (base.paint layer) ((Style.overlay fg bg flags).paint layer) := by
  cases layer with
  | foreground => rfl
  | background => rfl

/-- **The inks of a pen change as the styles say**: a return to the default leads to the base. -/
theorem ink_wearWithin (profile : Profile) (layer : Layer) (base : Style) (p : Pen) (s : Style) :
    (p.wearWithin profile (some base) s).ink layer
      = s.tint profile layer (base.home profile layer) (p.ink layer) := by
  cases s with
  | reset => exact ink_blank_wear profile layer base
  | overlay fg bg flags =>
    have hpaint := paint_withBase fg bg flags base layer
    have hink : (p.wear profile ((Style.overlay fg bg flags).withBase base)).ink layer
        = Paint.over profile (p.ink layer) (((Style.overlay fg bg flags).withBase base).paint layer) := rfl
    rw [wearWithin, Style.tint]
    simp only [Style.isReset, Bool.false_eq_true, if_false]
    rw [hink, hpaint]
    match (Style.overlay fg bg flags).paint layer with
    | none => rfl
    | some (.color c) => rfl
    | some .default =>
      rw [Style.home]
      match base.paint layer with
      | none => rfl
      | some .default => rfl
      | some (.color c) => rfl

end Pen

namespace Renderer

variable {re : Renderer} {s : Text}

/-- **Tags change the colors of the base and return to them.** Of a text without escape characters a terminal shows the
literal text, each character in the inks that the style codes before it make of those of the base. -/
theorem ink_shown_ansiWithin (h : re.rendersColor = true) (hs : escape ∉ s) (base : Text) :
    (Pen.blank.shown (re.ansiWithin s base)).map Prod.fst = stripTags re.delimiters s ∧
      ∀ layer, (Pen.blank.shown (re.ansiWithin s base)).map (Prod.map id (Pen.ink · layer))
        = Segment.inked re.profile layer (re.baseStyle base) (segments re.delimiters re.registry s) := by
  have hcolor := supportsColor_of_rendersColor h
  have hliteral := not_mem_literal_segments hs re.delimiters re.registry
  have hshown : Pen.blank.shown (re.ansiWithin s base)
      = Segment.annotate (Pen.wearWithin re.profile (some (re.baseStyle base)))
        (Pen.blank.wear re.profile (re.baseStyle base)) (segments re.delimiters re.registry s) := by
    rw [ansiWithin_of_rendersColor h, List.append_assoc, Pen.shown_ansi hcolor,
      Pen.shown_renderSegments hcolor _ _ hliteral, Pen.shown_reset, List.append_nil]
  refine ⟨?_, fun layer => ?_⟩
  · rw [hshown, Segment.map_fst_annotate, flatMap_literal]
  · rw [hshown, Segment.map_annotate (Pen.ink · layer) (Pen.ink_wearWithin re.profile layer (re.baseStyle base)),
      Pen.ink_blank_wear]
    rfl

/-- Colors, a dash for a layer, an unknown color, a full reset, and a reference with a color of its own, in a base style
with both layers. -/
theorem ink_shown_ansiWithin_dashes :
    let re : Renderer := ⟨.ofEntries [("x".toList, "{{|-|}}{{|nope:12|}}".toList)], .canonical, .ansi256, true⟩
    let s := "a{{|red:white:B|}}b{{|-:nope|}}c{{|-|}}d{{_x_}}e".toList
    re.rendersColor = true ∧ escape ∉ s ∧
      (Pen.blank.shown (re.ansiWithin s "yellow:blue".toList)).map (Prod.map id (Pen.ink · .foreground))
        = [('a', some (.palette 3)), ('b', some (.palette 1)), ('c', some (.palette 3)), ('d', some (.palette 3)),
          ('e', some (.palette 3))] ∧
      (Pen.blank.shown (re.ansiWithin s "yellow:blue".toList)).map (Prod.map id (Pen.ink · .background))
        = [('a', some (.palette 4)), ('b', some (.palette 7)), ('c', some (.palette 7)), ('d', some (.palette 4)),
          ('e', some (.palette 12))] := by
  intro re s
  have hcolor : re.rendersColor = true := by decide
  have hs : escape ∉ s := by decide
  obtain ⟨-, hink⟩ := ink_shown_ansiWithin hcolor hs "yellow:blue".toList
  refine ⟨hcolor, hs, (hink .foreground).trans ?_, (hink .background).trans ?_⟩
  · decide +kernel
  · decide +kernel

end Renderer

end TerminalMarkup
