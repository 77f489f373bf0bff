import TerminalMarkup.Proofs.Terminal.Screen

/-!
# What rendering writes

Without a base style, rendering keeps the literal text of a markup text, and writes SGR sequences of one shape in place
of its tags: a full reset, or switching attributes off, a foreground, a background and switching attributes on, in this
order (`Sgr.Regular`). Nothing else comes out of a style code, whatever it says (`Style.regular_params`), and so nothing
else comes out of a registry (`render_interleaves`).
-/

namespace TerminalMarkup

/-! ## The shape of a sequence -/

/-- The number of the first system color of a layer. -/
def Layer.firstNumber : Layer → Nat
  | .foreground => 30
  | .background => 40

namespace Sgr

/-- The numbers that switch attributes off. -/
def offNumbers : List Nat := [22, 23, 24, 25, 27, 29]

/-- The numbers that switch attributes on. -/
def onNumbers : List Nat := [1, 2, 3, 4, 5, 7, 9]

/-- The numbers that give a layer its default or a color. -/
inductive Paints (layer : Layer) : List Nat → Prop
  | default : Paints layer [layer.firstNumber + 9]
  | dark {i : Nat} (h : i < 8) : Paints layer [layer.firstNumber + i]
  | bright {i : Nat} (h : i < 8) : Paints layer [layer.firstNumber + 60 + i]
  | place (i : Palette.Index) : Paints layer [layer.firstNumber + 8, 5, i]
  | mixture (c : Rgb) : Paints layer [layer.firstNumber + 8, 2, c.red, c.green, c.blue]

/-- The numbers of a sequence that resets everything, or sets some attributes and layers. -/
inductive Regular : List Nat → Prop
  | reset : Regular [0]
  | setting {off fg bg on : List Nat} (off_mem : off ⊆ offNumbers) (off_nodup : off.Nodup)
      (foreground : fg = [] ∨ Paints .foreground fg) (background : bg = [] ∨ Paints .background bg)
      (on_mem : on ⊆ onNumbers) (on_nodup : on.Nodup) (ne_nil : off ++ fg ++ bg ++ on ≠ []) :
      Regular (off ++ fg ++ bg ++ on)

end Sgr

/-! ## The numbers of a style -/

theorem nodup_eraseDups {α : Type} [BEq α] [LawfulBEq α] (xs : List α) : xs.eraseDups.Nodup := by
  match xs with
  | [] => exact List.nodup_nil
  | x :: xs =>
    rw [List.eraseDups_cons, List.nodup_cons]
    exact ⟨by simp, nodup_eraseDups _⟩
termination_by xs.length
decreasing_by exact Nat.lt_succ_of_le (List.length_filter_le _ xs)

namespace Flags

theorem offCodes_subset (f : Flags) : f.offCodes ⊆ Sgr.offNumbers := fun n hn => by
  have hcodes : ∀ e ∈ Attribute.codes, e.2.2 ∈ Sgr.offNumbers := by decide
  obtain ⟨e, he, -, rfl⟩ := mem_offCodes.1 hn
  exact hcodes e he

theorem onCodes_subset (f : Flags) : f.onCodes ⊆ Sgr.onNumbers := fun n hn => by
  have hcodes : ∀ e ∈ Attribute.codes, e.2.1 ∈ Sgr.onNumbers := by decide
  obtain ⟨e, he, -, rfl⟩ := mem_onCodes.1 hn
  exact hcodes e he

theorem nodup_onCodes (f : Flags) : f.onCodes.Nodup := by
  have hcodes : (Attribute.codes.map fun e => e.2.1).Nodup := by decide
  exact (List.filter_sublist.map _).nodup hcodes

end Flags

namespace Style

variable {profile : Profile}

theorem paints_color (h : profile.supportsColor = true) (layer : Layer) (c : Color) :
    Sgr.Paints layer (c.params profile layer) := by
  have hext : layer.extended = layer.firstNumber + 8 := by cases layer <;> rfl
  have hslot : ∀ s : Slot, Sgr.Paints layer [Color.slotParam layer s] := fun s => by
    by_cases hs : s.val < 8
    · have hnumber : Color.slotParam layer s = layer.firstNumber + s.val := by
        cases layer <;> exact if_pos hs
      exact hnumber ▸ .dark hs
    · have hnumber : Color.slotParam layer s = layer.firstNumber + 60 + (s.val - 8) := by
        cases layer <;> simp only [Color.slotParam, if_neg hs, Layer.firstNumber] <;> omega
      exact hnumber ▸ .bright (by omega)
  have hplace (i : Palette.Index) : Sgr.Paints layer [layer.extended, 5, i] := by
    rw [hext]
    exact .place i
  have hmixture (c : Rgb) : Sgr.Paints layer [layer.extended, 2, c.red, c.green, c.blue] := by
    rw [hext]
    exact .mixture c
  cases profile with
  | ascii => cases h
  | ansi16 => exact hslot c.slot
  | ansi256 => exact hplace c.paletteIndex
  | trueColor =>
    cases c with
    | named c => exact hmixture c.rgb
    | hex c => exact hmixture c
    | index i => exact hplace i

theorem paints_paintParams (h : profile.supportsColor = true) (layer : Layer) (paint : Option Paint) :
    paintParams profile layer paint = [] ∨ Sgr.Paints layer (paintParams profile layer paint) := by
  match paint with
  | none => exact .inl rfl
  | some .default =>
    have hdefault : paintParams profile layer (some .default) = [layer.firstNumber + 9] := by cases layer <;> rfl
    rw [hdefault]
    exact .inr .default
  | some (.color c) => exact .inr (paints_color h layer c)

/-- **The numbers of a style have the shape of a sequence**, if there are any. -/
theorem regular_params (h : profile.supportsColor = true) (s : Style) (hne : s.params profile ≠ []) :
    Sgr.Regular (s.params profile) := by
  cases s with
  | reset => exact .reset
  | overlay fg bg flags =>
    exact .setting flags.offCodes_subset (nodup_eraseDups _) (paints_paintParams h .foreground fg)
      (paints_paintParams h .background bg) flags.onCodes_subset flags.nodup_onCodes hne

/-- The sequences that are written for a style: one, or none if it changes nothing. -/
def sequences (profile : Profile) (s : Style) : List (List Nat) :=
  if s.params profile = [] then [] else [s.params profile]

theorem ansi_eq_flatMap (h : profile.supportsColor = true) (s : Style) :
    s.ansi profile = (s.sequences profile).flatMap Sgr.sequence := by
  rw [ansi, if_pos h, Sgr.sequenceUnlessEmpty, sequences]
  split
  · rfl
  · exact (List.flatMap_singleton ..).symm

theorem eq_params_of_mem_sequences {s : Style} {ns : List Nat} (h : ns ∈ s.sequences profile) :
    ns = s.params profile ∧ s.params profile ≠ [] := by
  rw [sequences] at h
  split at h
  · cases h
  next hne => exact ⟨List.mem_singleton.1 h, hne⟩

end Style

/-! ## Tokens -/

/-- The style codes that a token stands for. -/
def Token.styleCodes (r : Registry) : Token → List Text
  | text _ => []
  | direct code => [code]
  | semantic name => r.codes maxDepth name

/-- The sequences that are written in place of a token. -/
def Token.sequences (profile : Profile) (r : Registry) (t : Token) : List (List Nat) :=
  (t.styleCodes r).flatMap fun code => (Style.parse code).sequences profile

variable {profile : Profile}

/-- **A token keeps its literal text**, and its style codes become sequences. -/
theorem Token.flatMap_render_segments (h : profile.supportsColor = true) (r : Registry) (t : Token) :
    (t.segments r).flatMap (Segment.render profile none)
      = t.literal ++ (t.sequences profile r).flatMap Sgr.sequence := by
  have hcodes (codes : List Text) : (codes.map Segment.direct).flatMap (Segment.render profile none)
      = (codes.flatMap fun code => (Style.parse code).sequences profile).flatMap Sgr.sequence := by
    rw [List.flatMap_map, List.flatMap_assoc]
    exact List.flatMap_congr fun code _ => Style.ansi_eq_flatMap h _
  cases t with
  | text s =>
    rw [segments, List.flatMap_singleton, Segment.render, renderText_of_nil rfl]
    exact (List.append_nil s).symm
  | direct code => exact hcodes [code]
  | semantic name => exact hcodes (r.codes maxDepth name)

/-- **Rendering writes the literal text and regular sequences only.** In place of every tag stand sequences of the one
shape, and a terminal shows of a text without escape characters what stripping the tags leaves, whatever the registry
holds. -/
theorem render_interleaves (h : profile.supportsColor = true) (d : Delimiters) (r : Registry) (s : Text) :
    (∃ sequences : Token → List (List Nat),
        (∀ t, t.isTag = false → sequences t = []) ∧
        (∀ t, ∀ ns ∈ sequences t, Sgr.Regular ns ∧ ns ≠ [] ∧ ∀ n ∈ ns, n ≤ 255) ∧
        render d r profile none s = (tokenize d s).flatMap fun t => t.literal ++ (sequences t).flatMap Sgr.sequence) ∧
      (escape ∉ s → ∀ p : Pen, (p.shown (render d r profile none s)).map Prod.fst = stripTags d s) := by
  refine ⟨⟨Token.sequences profile r, fun t ht => ?_, fun t ns hns => ?_, ?_⟩, fun hs p => ?_⟩
  · cases t with
    | text s => rfl
    | direct code => cases ht
    | semantic name => cases ht
  · obtain ⟨code, -, hcode⟩ := List.mem_flatMap.1 hns
    obtain ⟨rfl, hne⟩ := Style.eq_params_of_mem_sequences hcode
    exact ⟨Style.regular_params h _ hne, hne, fun n hn => Nat.le_of_lt_succ (Style.params_lt hn)⟩
  · rw [render, renderSegments, segments, List.flatMap_assoc]
    exact List.flatMap_congr fun t _ => t.flatMap_render_segments h r
  · have hshown := Pen.shown_renderSegments h none p (not_mem_literal_segments hs d r) []
    rw [List.append_nil] at hshown
    rw [render, hshown, Pen.shown_nil, List.append_nil, Segment.map_fst_annotate, flatMap_literal]

/-- A stored value with an escape sequence, literal text, an unknown color and a reference to itself. -/
theorem render_interleaves_junk :
    let r := Registry.ofEntries [("junk".toList, "\x1b[2J{{|red::Bd|}}text{{|nope:-:u|}}{{_junk_}}".toList)]
    let s := "a{{|B|}}b{{_gone_}}c{{_junk_}}d".toList
    Profile.ansi16.supportsColor = true ∧ escape ∉ s ∧
      (Pen.blank.shown (render .canonical r .ansi16 none s)).map Prod.fst = "abcd".toList := by
  intro r s
  have hcolor : Profile.ansi16.supportsColor = true := by decide
  have hs : escape ∉ s := by decide
  obtain ⟨-, hshown⟩ := render_interleaves hcolor .canonical r s
  exact ⟨hcolor, hs, (hshown hs Pen.blank).trans (by decide +kernel)⟩

end TerminalMarkup
