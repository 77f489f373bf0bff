import Mathlib.Logic.Basic
import TerminalMarkup.Proofs.Composition.Merge
import TerminalMarkup.Proofs.Escape.Phase
import TerminalMarkup.Rendering

/-!
# The pen of a terminal

A terminal writes with a pen: an ink for each layer, and the attributes that are on. SGR sequences change the pen, and
everything else leaves it as it is.

* The numbers of a sequence stand for changes of the pen (`Pen.changes`), which are made one after the other
  (`Pen.applyAll`).
* A change concerns some layers and attributes (`Change.inks`, `Change.switches`). What no change concerns stays; what
  some change concerns does not depend on the pen before (`ink_applyAll`, `has_applyAll`). So changes give the same from
  a pen and from the blank one just when they cover everything that the pen has (`applyAll_eq_blank_iff`).
* `Pen.read` is the pen after a text. A text may be cut in front of an escape character (`read_append_escape`), and
  behind a sequence (`read_sgr`).
-/

namespace TerminalMarkup

/-- A color as a terminal is told to show it. -/
inductive Ink
  /-- The color at a place of the palette. -/
  | palette (i : Palette.Index)
  | rgb (c : Rgb)
  deriving DecidableEq, Repr

/-- How a terminal writes. A layer without ink has the terminal's default color. -/
@[ext] structure Pen where
  ink : Layer → Option Ink
  has : Attribute → Bool

namespace Pen

/-- The pen that a terminal starts with. -/
def blank : Pen := ⟨fun _ => none, fun _ => false⟩

instance : DecidableEq Pen := fun p q =>
  if h : (∀ l ∈ [Layer.foreground, .background], p.ink l = q.ink l) ∧ ∀ a ∈ Attribute.all, p.has a = q.has a then
    isTrue (Pen.ext (funext fun l => h.1 l (by cases l <;> decide)) (funext fun a => h.2 a a.mem_all))
  else isFalse fun e => h (e ▸ ⟨fun _ _ => rfl, fun _ _ => rfl⟩)

/-! ## Changes -/

/-- What a number of a sequence tells the terminal. -/
inductive Change
  /-- Everything returns to the default. -/
  | reset
  /-- Some attributes go on, or off. -/
  | switch (as : List Attribute) (on : Bool)
  /-- A layer gets an ink, or returns to the default. -/
  | paint (layer : Layer) (ink : Option Ink)
  deriving DecidableEq

/-- Makes a change. -/
def apply (p : Pen) : Change → Pen
  | .reset => blank
  | .switch as on => ⟨p.ink, fun a => if a ∈ as then on else p.has a⟩
  | .paint layer ink => ⟨fun l => if l = layer then ink else p.ink l, p.has⟩

/-- Makes changes one after the other. -/
def applyAll (p : Pen) (cs : List Change) : Pen := cs.foldl apply p

/-- The change concerns the layer. -/
def Change.inks : Change → Layer → Bool
  | reset, _ => true
  | switch .., _ => false
  | paint layer _, l => l = layer

/-- The change concerns the attribute. -/
def Change.switches : Change → Attribute → Bool
  | reset, _ => true
  | switch as _, a => a ∈ as
  | paint .., _ => false

/-- The changes concern whatever the pen has. -/
def Covers (cs : List Change) (p : Pen) : Prop :=
  (∀ l, p.ink l ≠ none → ∃ c ∈ cs, c.inks l = true) ∧ ∀ a, p.has a = true → ∃ c ∈ cs, c.switches a = true

theorem applyAll_cons (p : Pen) (c : Change) (cs : List Change) :
    p.applyAll (c :: cs) = (p.apply c).applyAll cs := rfl

theorem applyAll_append (p : Pen) (cs ds : List Change) : p.applyAll (cs ++ ds) = (p.applyAll cs).applyAll ds :=
  List.foldl_append

/-! ### What changes concern -/

/-- A part of the pen that just the given changes concern: they set it, and the others keep it. -/
structure Sets {α : Type} (concerns : Change → Bool) (part : Pen → α) : Prop where
  set : ∀ {c}, concerns c = true → ∀ p q : Pen, part (p.apply c) = part (q.apply c)
  keep : ∀ {c}, concerns c = false → ∀ p : Pen, part (p.apply c) = part p

theorem sets_ink (l : Layer) : Sets (·.inks l) (·.ink l) where
  set {c} hc p q := by
    cases c with
    | reset => rfl
    | switch as on => cases hc
    | paint layer ink =>
      have hl : l = layer := of_decide_eq_true hc
      exact (if_pos hl).trans (if_pos hl).symm
  keep {c} hc p := by
    cases c with
    | reset => cases hc
    | switch as on => rfl
    | paint layer ink => exact if_neg (of_decide_eq_false hc)

theorem sets_has (a : Attribute) : Sets (·.switches a) (·.has a) where
  set {c} hc p q := by
    cases c with
    | reset => rfl
    | switch as on =>
      have ha : a ∈ as := of_decide_eq_true hc
      exact (if_pos ha).trans (if_pos ha).symm
    | paint layer ink => cases hc
  keep {c} hc p := by
    cases c with
    | reset => cases hc
    | switch as on => exact if_neg (of_decide_eq_false hc)
    | paint layer ink => rfl

namespace Sets

variable {α : Type} {concerns : Change → Bool} {part : Pen → α} {cs : List Change}

/-- What no change concerns stays. -/
theorem applyAll_of_not (h : Sets concerns part) (hcs : ∀ c ∈ cs, concerns c = false) (p : Pen) :
    part (p.applyAll cs) = part p := by
  induction cs generalizing p with
  | nil => rfl
  | cons c cs ih =>
    rw [List.forall_mem_cons] at hcs
    exact (ih hcs.2 (p.apply c)).trans (h.keep hcs.1 p)

theorem applyAll_congr (h : Sets concerns part) {p q : Pen} (hpq : part p = part q) :
    part (p.applyAll cs) = part (q.applyAll cs) := by
  induction cs generalizing p q with
  | nil => exact hpq
  | cons c cs ih =>
    refine ih (p := p.apply c) (q := q.apply c) ?_
    cases hc : concerns c with
    | true => exact h.set hc p q
    | false => rw [h.keep hc, h.keep hc, hpq]

/-- What some change concerns does not depend on the pen before. -/
theorem applyAll_of_mem (h : Sets concerns part) (hcs : ∃ c ∈ cs, concerns c = true) (p q : Pen) :
    part (p.applyAll cs) = part (q.applyAll cs) := by
  obtain ⟨c, hc, hset⟩ := hcs
  obtain ⟨l, r, rfl⟩ := List.append_of_mem hc
  rw [applyAll_append, applyAll_append, applyAll_cons, applyAll_cons]
  exact h.applyAll_congr (h.set hset _ _)

/-- **Changes give the same part from two pens just when they concern it, or the pens have it in common.** -/
theorem applyAll_eq_iff (h : Sets concerns part) {p q : Pen} :
    part (p.applyAll cs) = part (q.applyAll cs) ↔ (part p ≠ part q → ∃ c ∈ cs, concerns c = true) := by
  by_cases hcs : ∃ c ∈ cs, concerns c = true
  · exact ⟨fun _ _ => hcs, fun _ => h.applyAll_of_mem hcs p q⟩
  · have hnot : ∀ c ∈ cs, concerns c = false := fun c hc => Bool.eq_false_iff.2 fun ht => hcs ⟨c, hc, ht⟩
    rw [h.applyAll_of_not hnot, h.applyAll_of_not hnot]
    exact ⟨fun he hne => absurd he hne, fun hne => by_contra fun he => hcs (hne he)⟩

end Sets

/-- **Changes give the same from a pen and from the blank one just when they cover the pen.** -/
theorem applyAll_eq_blank_iff {p : Pen} {cs : List Change} : blank.applyAll cs = p.applyAll cs ↔ Covers cs p := by
  have hink (l : Layer) : (blank.applyAll cs).ink l = (p.applyAll cs).ink l ↔
      (p.ink l ≠ none → ∃ c ∈ cs, c.inks l = true) :=
    (sets_ink l).applyAll_eq_iff.trans (by rw [ne_comm]; rfl)
  have hhas (a : Attribute) : (blank.applyAll cs).has a = (p.applyAll cs).has a ↔
      (p.has a = true → ∃ c ∈ cs, c.switches a = true) :=
    (sets_has a).applyAll_eq_iff.trans (by rw [ne_comm, ← Bool.not_eq_false]; rfl)
  rw [Pen.ext_iff, funext_iff, funext_iff, Covers, forall_congr' hink, forall_congr' hhas]

/-! ## Numbers -/

/-- The ink at a place of the palette. -/
def place? (i : Nat) : Option Ink := if h : i < 256 then some (.palette ⟨i, h⟩) else none

/-- The ink with the given channels. -/
def mixture? (r g b : Nat) : Option Ink :=
  if h : r < 256 ∧ g < 256 ∧ b < 256 then some (.rgb ⟨⟨r, h.1⟩, ⟨g, h.2.1⟩, ⟨b, h.2.2⟩⟩) else none

/-- The layer that a number announces a color for. -/
def extendedLayer? (n : Nat) : Option Layer :=
  if n = 38 then some .foreground else if n = 48 then some .background else none

/-- The layer and the place in the palette that a number for a system color selects. -/
def systemColor? (n : Nat) : Option (Layer × Nat) :=
  if 30 ≤ n ∧ n < 38 then some (.foreground, n - 30)
  else if 40 ≤ n ∧ n < 48 then some (.background, n - 40)
  else if 90 ≤ n ∧ n < 98 then some (.foreground, n - 82)
  else if 100 ≤ n ∧ n < 108 then some (.background, n - 92)
  else none

/-- The change that a number by itself stands for. -/
def change? : Nat → Option Change
  | 0 => some .reset
  | 1 => some (.switch [.bold] true)
  | 2 => some (.switch [.dim] true)
  | 3 => some (.switch [.italic] true)
  | 4 => some (.switch [.underline] true)
  | 5 => some (.switch [.blink] true)
  | 7 => some (.switch [.reverse] true)
  | 9 => some (.switch [.strikethrough] true)
  | 22 => some (.switch [.bold, .dim] false)
  | 23 => some (.switch [.italic] false)
  | 24 => some (.switch [.underline] false)
  | 25 => some (.switch [.blink] false)
  | 27 => some (.switch [.reverse] false)
  | 29 => some (.switch [.strikethrough] false)
  | 39 => some (.paint .foreground none)
  | 49 => some (.paint .background none)
  | n => (systemColor? n).map fun (layer, i) => .paint layer (place? i)

/-- Gives a layer an ink; a number that is too large for a color changes nothing. -/
def paintWith (layer : Layer) (ink : Option Ink) : List Change := ink.toList.map fun ink => .paint layer (some ink)

/-- The changes that the numbers of a sequence stand for. Three or five of them select a color together; what follows
when they are not complete is ignored. -/
def changes : List Nat → List Change
  | [] => []
  | n :: ns =>
    match extendedLayer? n with
    | some layer =>
      match ns with
      | 5 :: i :: ns => paintWith layer (place? i) ++ changes ns
      | 2 :: r :: g :: b :: ns => paintWith layer (mixture? r g b) ++ changes ns
      | _ => []
    | none => (change? n).toList ++ changes ns

/-! ## Sequences -/

/-- A character between the introducer of a sequence and its final letter. -/
def isParamChar (c : Char) : Bool := c.isDigit || c = ';'

/-- The numbers that are written between semicolons; a number that is left out is zero. -/
def numbers (ps : Text) : List Nat := (Text.fields ';' ps).map fun p => Nat.ofDigitChars 10 p 0

/-- The parameters that a text begins with, if the final letter stands behind them. -/
def paramsBefore? : Text → Option Text
  | [] => none
  | c :: s => if c = 'm' then some [] else if isParamChar c then (paramsBefore? s).map (c :: ·) else none

/-- The parameters of the SGR sequence that a text begins with, behind its escape character. -/
def params? : Text → Option Text
  | [] => none
  | c :: s => if c = '[' then paramsBefore? s else none

/-- The changes that the parameters of a sequence stand for. -/
def changesOf (ps : Text) : List Change := changes (numbers ps)

/-- The pen after a text. -/
def read (p : Pen) : Text → Pen
  | [] => p
  | c :: s => read (if c = escape then p.applyAll (((params? s).map changesOf).getD []) else p) s

theorem read_cons_of_ne (p : Pen) {c : Char} (h : c ≠ escape) (s : Text) : p.read (c :: s) = p.read s := by
  rw [read, if_neg h]

theorem read_append_of_not_mem (p : Pen) {s : Text} (h : escape ∉ s) (t : Text) : p.read (s ++ t) = p.read t := by
  induction s with
  | nil => rfl
  | cons c s ih =>
    rw [List.mem_cons, not_or] at h
    rw [List.cons_append, read_cons_of_ne p (Ne.symm h.1), ih h.2]

theorem escape_not_mem_of_params {ps : Text} (h : ∀ c ∈ ps, isParamChar c = true) : escape ∉ ps := fun hm => by
  have hparam := h escape hm
  revert hparam
  decide

theorem paramsBefore?_append {ps : Text} (h : ∀ c ∈ ps, isParamChar c = true) (t : Text) :
    paramsBefore? (ps ++ 'm' :: t) = some ps := by
  induction ps with
  | nil => rfl
  | cons c ps ih =>
    rw [List.forall_mem_cons] at h
    have hm : c ≠ 'm' := fun e => by
      rw [e] at h
      exact absurd h.1 (by decide)
    rw [List.cons_append, paramsBefore?, if_neg hm, if_pos h.1, ih h.2]
    rfl

theorem append_of_paramsBefore? {ps s : Text} (h : paramsBefore? s = some ps) : ∃ t, ps ++ 'm' :: t = s := by
  induction s generalizing ps with
  | nil => cases h
  | cons c s ih =>
    rw [paramsBefore?] at h
    split at h
    next hc =>
      cases h
      exact ⟨s, congrArg (· :: s) hc.symm⟩
    next =>
      split at h
      · obtain ⟨qs, hqs, rfl⟩ := Option.map_eq_some_iff.1 h
        obtain ⟨t, ht⟩ := ih hqs
        exact ⟨t, congrArg (c :: ·) ht⟩
      · cases h

theorem append_of_params? {ps s : Text} (h : params? s = some ps) : ∃ t, '[' :: (ps ++ 'm' :: t) = s := by
  cases s with
  | nil => cases h
  | cons c s =>
    rw [params?] at h
    split at h
    next hc =>
      obtain ⟨t, ht⟩ := append_of_paramsBefore? h
      exact ⟨t, by rw [ht, hc]⟩
    next => cases h

/-- **Reading a sequence makes its changes**, and goes on behind it. -/
theorem read_sgr (p : Pen) {ps : Text} (h : ∀ c ∈ ps, isParamChar c = true) (t : Text) :
    p.read (escape :: '[' :: (ps ++ 'm' :: t)) = (p.applyAll (changesOf ps)).read t := by
  have hparams : params? ('[' :: (ps ++ 'm' :: t)) = some ps := paramsBefore?_append h t
  rw [read, if_pos rfl, hparams, Option.map_some, Option.getD_some, read_cons_of_ne _ (by decide),
    read_append_of_not_mem _ (escape_not_mem_of_params h), read_cons_of_ne _ (by decide)]

theorem paramsBefore?_append_escape (s t : Text) : paramsBefore? (s ++ escape :: t) = paramsBefore? s := by
  induction s with
  | nil => rfl
  | cons c s ih => rw [List.cons_append, paramsBefore?, paramsBefore?, ih]

/-- An escape character completes no sequence. -/
theorem params?_append_escape (s t : Text) : params? (s ++ escape :: t) = params? s := by
  cases s with
  | nil => rfl
  | cons c s => rw [List.cons_append, params?, params?, paramsBefore?_append_escape]

/-- **A text may be cut in front of an escape character.** -/
theorem read_append_escape (p : Pen) (s t : Text) : p.read (s ++ escape :: t) = (p.read s).read (escape :: t) := by
  induction s generalizing p with
  | nil => rfl
  | cons c s ih =>
    rw [List.cons_append, read, params?_append_escape, ih]
    rfl

/-! ### Written sequences -/

/-- The numbers of a written sequence are read as they are. -/
theorem numbers_params {ns : List Nat} (h : ns ≠ []) : numbers (Sgr.params ns) = ns := by
  have hsep (n : Nat) : ';' ∉ Text.ofNat n := fun hm =>
    absurd (Nat.isDigit_of_mem_toDigits (by decide) (by decide) hm) (by decide)
  rw [numbers]
  fun_induction Sgr.params ns with
  | case1 => exact absurd rfl h
  | case2 n => rw [Text.fields_of_not_mem (hsep n), List.map_singleton, Text.ofNat, Nat.ofDigitChars_ten_toDigits]
  | case3 n ns hns ih =>
    rw [Text.fields_append (hsep n), List.map_cons, ih hns, Text.ofNat, Nat.ofDigitChars_ten_toDigits]

theorem isParamChar_of_mem_params {ns : List Nat} : ∀ c ∈ Sgr.params ns, isParamChar c = true := fun c hc => by
  rcases Escape.Phase.mem_params hc with h | rfl
  · rw [isParamChar, h, Bool.true_or]
  · decide

theorem read_sequence (p : Pen) {ns : List Nat} (h : ns ≠ []) (t : Text) :
    p.read (Sgr.sequence ns ++ t) = (p.applyAll (changes ns)).read t := by
  have hchars : ∀ c ∈ Sgr.params ns, isParamChar c = true := isParamChar_of_mem_params
  have hsgr := p.read_sgr hchars t
  rw [changesOf, numbers_params h] at hsgr
  rw [Sgr.sequence, List.cons_append, List.cons_append, List.append_assoc]
  exact hsgr

end Pen
end TerminalMarkup
