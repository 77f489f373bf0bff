import TerminalMarkup.Proofs.Strip.Rendered
import TerminalMarkup.Proofs.Terminal.Pen

/-!
# Styles on a terminal

What a style says of the two layers and of the attributes is what its escape sequence does to the pen, with one
exception: bold and dim go off together.

* `Pen.wear` is the pen with a style put on;
* the numbers of a style stand for switching attributes off, for the paints, and for switching attributes on
  (`Pen.changes_params`), and together they put the style on (`Pen.applyAll_params`, `Pen.read_ansi`).
-/

namespace TerminalMarkup

namespace Slot

theorem lt_paletteSize (s : Slot) : s.val < 256 := by omega

/-- The place of a system color in the palette. -/
def index (s : Slot) : Palette.Index := ⟨s, lt_paletteSize s⟩

end Slot

/-- The ink that shows a color, on a terminal that has colors. -/
def Color.ink? (profile : Profile) (c : Color) : Option Ink :=
  match profile with
  | .ascii => none
  | .ansi16 => some (.palette (Slot.index c.slot))
  | .ansi256 => some (.palette c.paletteIndex)
  | .trueColor =>
    match c with
    | index i => some (.palette i)
    | named ⟨_, rgb, _⟩ | hex rgb => some (.rgb rgb)

/-- What a paint makes of the ink of a layer. -/
def Paint.over (profile : Profile) (ink : Option Ink) : Option Paint → Option Ink
  | none => ink
  | some .default => none
  | some (.color c) => c.ink? profile

/-- The attributes that go off when the attribute is switched off. -/
def Attribute.offWith : Attribute → List Attribute
  | bold | dim => [bold, dim]
  | highIntensity => []
  | a => [a]

/-- What a style says of a layer. -/
def Style.paint (s : Style) : Layer → Option Paint
  | .foreground => s.foreground
  | .background => s.background

namespace Flags

variable {f : Flags}

theorem mem_offCodes {n : Nat} : n ∈ f.offCodes ↔ ∃ e ∈ Attribute.codes, f.get e.1 = some false ∧ e.2.2 = n := by
  simp [offCodes, and_assoc]

theorem mem_onCodes {n : Nat} : n ∈ f.onCodes ↔ ∃ e ∈ Attribute.codes, f.get e.1 = some true ∧ e.2.1 = n := by
  simp [onCodes, and_assoc]

end Flags

namespace Pen

/-- The pen with a style put on. -/
def wear (profile : Profile) (p : Pen) : Style → Pen
  | .reset => blank
  | .overlay fg bg flags =>
    { ink := fun l => Paint.over profile (p.ink l) ((Style.overlay fg bg flags).paint l)
      has := fun a =>
        flags.get a = some true && a ≠ .highIntensity ||
          p.has a && !Attribute.all.any fun b => flags.get b = some false && a ∈ b.offWith }

/-! ## The numbers of a style -/

variable {profile : Profile}

/-- Numbers that announce no color stand for themselves. -/
theorem changes_append {ns : List Nat} (h : ∀ n ∈ ns, extendedLayer? n = none) (ms : List Nat) :
    changes (ns ++ ms) = ns.filterMap change? ++ changes ms := by
  induction ns with
  | nil => rfl
  | cons n ns ih =>
    rw [List.forall_mem_cons] at h
    have hhead : (n :: ns).filterMap change? = (change? n).toList ++ ns.filterMap change? := by
      rw [List.filterMap_cons]
      cases change? n with
      | none => rfl
      | some c => rfl
    rw [List.cons_append, changes, h.1, hhead, List.append_assoc, ← ih h.2]

theorem change?_codes : ∀ e ∈ Attribute.codes, extendedLayer? e.2.1 = none ∧ extendedLayer? e.2.2 = none ∧
    change? e.2.1 = some (.switch [e.1] true) ∧ change? e.2.2 = some (.switch e.1.offWith false) := by decide

theorem change?_slotParam (layer : Layer) : ∀ s : Slot, extendedLayer? (Color.slotParam layer s) = none ∧
    change? (Color.slotParam layer s) = some (.paint layer (some (.palette (Slot.index s)))) := by
  cases layer with
  | foreground => decide
  | background => decide

/-- The change that a paint stands for. -/
def paintChange (profile : Profile) (layer : Layer) : Option Paint → List Change
  | none => []
  | some .default => [.paint layer none]
  | some (.color c) => [.paint layer (c.ink? profile)]

theorem changes_color (h : profile.supportsColor = true) (layer : Layer) (c : Color) (ns : List Nat) :
    changes (c.params profile layer ++ ns) = .paint layer (c.ink? profile) :: changes ns := by
  have hext : extendedLayer? layer.extended = some layer := by cases layer <;> decide
  have place (i : Palette.Index) :
      changes ([layer.extended, 5, i.val] ++ ns) = .paint layer (some (.palette i)) :: changes ns := by
    simp [changes, hext, paintWith, place?]
  have mixture (c : Rgb) : changes ([layer.extended, 2, c.red.val, c.green.val, c.blue.val] ++ ns)
      = .paint layer (some (.rgb c)) :: changes ns := by
    simp [changes, hext, paintWith, mixture?]
  cases profile with
  | ascii => cases h
  | ansi16 =>
    obtain ⟨hnone, hchange⟩ := change?_slotParam layer c.slot
    rw [Color.params, List.singleton_append, changes, hnone, hchange]
    rfl
  | ansi256 => exact place c.paletteIndex
  | trueColor =>
    cases c with
    | named c => exact mixture c.rgb
    | hex c => exact mixture c
    | index i => exact place i

theorem changes_paintParams (h : profile.supportsColor = true) (layer : Layer) (paint : Option Paint) (ns : List Nat) :
    changes (Style.paintParams profile layer paint ++ ns) = paintChange profile layer paint ++ changes ns := by
  match paint with
  | none => rfl
  | some .default =>
    cases layer with
    | foreground => rfl
    | background => rfl
  | some (.color c) => exact changes_color h layer c ns

/-! ## The pen after a style -/

theorem ink_paintChange (p : Pen) (layer l : Layer) (paint : Option Paint) :
    (p.applyAll (paintChange profile layer paint)).ink l
      = if l = layer then Paint.over profile (p.ink l) paint else p.ink l := by
  match paint with
  | none => exact (ite_self _).symm
  | some .default => rfl
  | some (.color c) => rfl

theorem has_paintChange (p : Pen) (layer : Layer) (paint : Option Paint) :
    (p.applyAll (paintChange profile layer paint)).has = p.has := by
  match paint with
  | none => rfl
  | some .default => rfl
  | some (.color c) => rfl

/-- The changes only switch attributes on, or only off. -/
def Switches (on : Bool) (cs : List Change) : Prop := ∀ c ∈ cs, ∃ as, c = .switch as on

theorem Switches.ink {on : Bool} {cs : List Change} (h : Switches on cs) (p : Pen) : (p.applyAll cs).ink = p.ink := by
  funext l
  refine (sets_ink l).applyAll_of_not (fun c hc => ?_) p
  obtain ⟨as, rfl⟩ := h c hc
  rfl

theorem Switches.has {on : Bool} {cs : List Change} (h : Switches on cs) (p : Pen) (a : Attribute) :
    (p.applyAll cs).has a = if cs.any (·.switches a) then on else p.has a := by
  induction cs generalizing p with
  | nil => rfl
  | cons c cs ih =>
    obtain ⟨⟨as, rfl⟩, hcs⟩ := List.forall_mem_cons.1 h
    rw [applyAll_cons, ih hcs, List.any_cons]
    by_cases ha : a ∈ as
    · simp [apply, Change.switches, ha]
    · simp [apply, Change.switches, ha]

/-! ## Switching attributes -/

/-- The numbers of the attributes that flags switch on, or off, stand for one change each. -/
theorem mem_filterMap_change? (number : Attribute × Nat × Nat → Nat) (change : Attribute → Change) {f : Flags}
    {on : Bool} {ns : List Nat} (hns : ∀ n, n ∈ ns ↔ ∃ e ∈ Attribute.codes, f.get e.1 = some on ∧ number e = n)
    (hchange : ∀ e ∈ Attribute.codes, change? (number e) = some (change e.1)) {c : Change} :
    c ∈ ns.filterMap change? ↔ ∃ e ∈ Attribute.codes, f.get e.1 = some on ∧ c = change e.1 := by
  rw [List.mem_filterMap]
  constructor
  · rintro ⟨n, hn, hc⟩
    obtain ⟨e, he, hf, rfl⟩ := (hns n).1 hn
    rw [hchange e he, Option.some.injEq] at hc
    exact ⟨e, he, hf, hc.symm⟩
  · rintro ⟨e, he, hf, rfl⟩
    exact ⟨number e, (hns _).2 ⟨e, he, hf, rfl⟩, hchange e he⟩

theorem mem_changes_offCodes {f : Flags} {c : Change} : c ∈ f.offCodes.filterMap change? ↔
    ∃ e ∈ Attribute.codes, f.get e.1 = some false ∧ c = .switch e.1.offWith false :=
  mem_filterMap_change? (·.2.2) (.switch ·.offWith false) (fun _ => Flags.mem_offCodes) fun e he =>
    (change?_codes e he).2.2.2

theorem mem_changes_onCodes {f : Flags} {c : Change} : c ∈ f.onCodes.filterMap change? ↔
    ∃ e ∈ Attribute.codes, f.get e.1 = some true ∧ c = .switch [e.1] true :=
  mem_filterMap_change? (·.2.1) (.switch [·] true) (fun _ => Flags.mem_onCodes) fun e he =>
    (change?_codes e he).2.2.1

/-- High intensity is the only attribute without codes. -/
theorem exists_codes (a : Attribute) : a ≠ .highIntensity ↔ ∃ e ∈ Attribute.codes, e.1 = a := by
  cases a <;> decide

theorem any_switches_offCodes (f : Flags) (a : Attribute) : (f.offCodes.filterMap change?).any (·.switches a)
    = Attribute.all.any fun b => f.get b = some false && a ∈ b.offWith := by
  rw [Bool.eq_iff_iff, List.any_eq_true, List.any_eq_true]
  simp only [Bool.and_eq_true, decide_eq_true_eq]
  constructor
  · rintro ⟨c, hc, ha⟩
    obtain ⟨e, -, hf, rfl⟩ := mem_changes_offCodes.1 hc
    exact ⟨e.1, e.1.mem_all, hf, of_decide_eq_true ha⟩
  · rintro ⟨b, -, hf, ha⟩
    have hb : b ≠ .highIntensity := by
      rintro rfl
      cases ha
    obtain ⟨e, he, rfl⟩ := (exists_codes b).1 hb
    exact ⟨_, mem_changes_offCodes.2 ⟨e, he, hf, rfl⟩, decide_eq_true ha⟩

theorem any_switches_onCodes (f : Flags) (a : Attribute) : (f.onCodes.filterMap change?).any (·.switches a)
    = (f.get a = some true && a ≠ .highIntensity : Bool) := by
  rw [Bool.eq_iff_iff, List.any_eq_true]
  simp only [Bool.and_eq_true, decide_eq_true_eq]
  rw [exists_codes]
  constructor
  · rintro ⟨c, hc, ha⟩
    obtain ⟨e, he, hf, rfl⟩ := mem_changes_onCodes.1 hc
    obtain rfl := List.mem_singleton.1 (of_decide_eq_true ha)
    exact ⟨hf, e, he, rfl⟩
  · rintro ⟨hf, e, he, rfl⟩
    exact ⟨_, mem_changes_onCodes.2 ⟨e, he, hf, rfl⟩, decide_eq_true List.mem_cons_self⟩

theorem switches_offCodes (f : Flags) : Switches false (f.offCodes.filterMap change?) := fun _ hc => by
  obtain ⟨e, -, -, he⟩ := mem_changes_offCodes.1 hc
  exact ⟨_, he⟩

theorem switches_onCodes (f : Flags) : Switches true (f.onCodes.filterMap change?) := fun _ hc => by
  obtain ⟨e, -, -, he⟩ := mem_changes_onCodes.1 hc
  exact ⟨_, he⟩

theorem changes_params (h : profile.supportsColor = true) (fg bg : Option Paint) (flags : Flags) :
    changes ((Style.overlay fg bg flags).params profile)
      = flags.offCodes.filterMap change? ++ (paintChange profile .foreground fg ++
        (paintChange profile .background bg ++ flags.onCodes.filterMap change?)) := by
  have hoff : ∀ n ∈ flags.offCodes, extendedLayer? n = none := fun n hn => by
    obtain ⟨e, he, -, rfl⟩ := Flags.mem_offCodes.1 hn
    exact (change?_codes e he).2.1
  have hon : ∀ n ∈ flags.onCodes, extendedLayer? n = none := fun n hn => by
    obtain ⟨e, he, -, rfl⟩ := Flags.mem_onCodes.1 hn
    exact (change?_codes e he).1
  have hlast := changes_append hon []
  rw [List.append_nil] at hlast
  rw [Style.params, List.append_assoc, List.append_assoc, changes_append hoff, changes_paintParams h,
    changes_paintParams h, hlast, changes, List.append_nil]

/-- **The numbers of a style put the style on.** -/
theorem applyAll_params (h : profile.supportsColor = true) (p : Pen) (s : Style) :
    p.applyAll (changes (s.params profile)) = p.wear profile s := by
  cases s with
  | reset => rfl
  | overlay fg bg flags =>
    rw [changes_params h, applyAll_append, applyAll_append, applyAll_append]
    refine Pen.ext (funext fun l => ?_) (funext fun a => ?_)
    · rw [(switches_onCodes flags).ink, ink_paintChange, ink_paintChange, (switches_offCodes flags).ink]
      cases l with
      | foreground => rfl
      | background => rfl
    · rw [(switches_onCodes flags).has, has_paintChange, has_paintChange, (switches_offCodes flags).has,
        any_switches_onCodes, any_switches_offCodes]
      have onOff : ∀ on off before : Bool,
          (if on then true else if off then false else before) = (on || before && !off) := by decide
      exact onOff _ _ _

/-- **A terminal that reads the sequence of a style puts the style on.** -/
theorem read_ansi (h : profile.supportsColor = true) (p : Pen) (s : Style) (t : Text) :
    p.read (s.ansi profile ++ t) = (p.wear profile s).read t := by
  rw [Style.ansi, if_pos h, Sgr.sequenceUnlessEmpty, ← applyAll_params h]
  split
  next hnil =>
    rw [hnil]
    rfl
  next hne => exact read_sequence p hne t

end Pen

end TerminalMarkup
