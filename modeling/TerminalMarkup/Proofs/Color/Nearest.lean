import Mathlib.Data.Fintype.Basic
import Mathlib.Tactic.Linarith
import Mathlib.Tactic.Ring
import TerminalMarkup.Color.Palette
import TerminalMarkup.Proofs.Color.Hex

/-!
# The nearest place in the palette

The place that stands for a color is found without a search, by cutting the scale of a channel into equal parts
(`Palette.index`). Computed in bytes it is the same place (`Palette.indexBytewise_eq`). But the levels of the palette
are not evenly spaced, and so it is not always the nearest one.

* In the color cube the nearest place is found channel by channel (`Palette.forall_cube_iff`), and on the ramp of grays
  it depends on the mean of the channels alone (`Palette.distanceSq_meanGray_le`).
* `Palette.index_nearest_iff` says for which colors the place that is found is a nearest one.
-/

namespace TerminalMarkup

namespace Palette

/-! ## Computing in bytes -/

/-- A number that is less than a bound. -/
def fit (bound n : Nat) : Except Fault Nat := if n < bound then .ok n else .error .overflow

theorem fit_of_lt {bound n : Nat} (h : n < bound) : fit bound n = .ok n := if_pos h

theorem fit_bind {α : Type} {bound n : Nat} (h : n < bound) (f : Nat → Except Fault α) : (fit bound n >>= f) = f n := by
  rw [fit_of_lt h]
  rfl

/-- The place of a gray, where all numbers are bytes but for the one that is divided, which is two. -/
def grayIndexBytewise (c : Channel) : Except Fault Nat := do
  if c.val < 8 then return 16
  else if 248 < c.val then return 231
  else
    let scaled ← fit 65536 ((c - 8) * 24)
    let step ← fit 256 (scaled / 247)
    fit 256 (232 + step)

/-- The level of a channel in the cube, where the number that is divided is two bytes. -/
def cubeLevelBytewise (c : Channel) : Except Fault Nat := do
  let scaled ← fit 65536 (c * 5)
  fit 256 (scaled / 255)

/-- The place of a color in the cube, where all numbers are bytes. -/
def cubeIndexBytewise (c : Rgb) : Except Fault Nat := do
  let red ← cubeLevelBytewise c.red
  let green ← cubeLevelBytewise c.green
  let blue ← cubeLevelBytewise c.blue
  let red ← fit 256 (36 * red)
  let sum ← fit 256 (16 + red)
  let green ← fit 256 (6 * green)
  let sum ← fit 256 (sum + green)
  fit 256 (sum + blue)

/-- The place that stands for a color, computed in bytes. -/
def indexBytewise (c : Rgb) : Except Fault Nat :=
  if c.red = c.green ∧ c.green = c.blue then grayIndexBytewise c.red else cubeIndexBytewise c

theorem grayIndexBytewise_eq (c : Channel) : grayIndexBytewise c = .ok (grayIndex c) := by
  have hlt := c.isLt
  unfold grayIndexBytewise grayIndex
  split
  · rfl
  · split
    · rfl
    · rw [fit_bind (by omega), fit_bind (by omega), fit_of_lt (by omega)]

theorem cubeLevelBytewise_bind {α : Type} (c : Channel) (f : Nat → Except Fault α) :
    (cubeLevelBytewise c >>= f) = f (cubeLevel c) := by
  have hlt := c.isLt
  have hlevel : cubeLevelBytewise c = .ok (cubeLevel c) := by
    rw [cubeLevelBytewise, fit_bind (by omega)]
    exact fit_of_lt (by omega)
  rw [hlevel]
  rfl

theorem cubeIndexBytewise_eq (c : Rgb) : cubeIndexBytewise c = .ok (cubeIndex c) := by
  have hr := cubeLevel_le c.red
  have hg := cubeLevel_le c.green
  have hb := cubeLevel_le c.blue
  rw [cubeIndexBytewise, cubeLevelBytewise_bind, cubeLevelBytewise_bind, cubeLevelBytewise_bind, fit_bind (by omega),
    fit_bind (by omega), fit_bind (by omega), fit_bind (by omega), fit_of_lt (by omega), cubeIndex]

/-- **No number on the way is too large.** -/
theorem indexBytewise_eq (c : Rgb) : indexBytewise c = .ok (index c) := by
  rw [indexBytewise, grayIndexBytewise_eq, cubeIndexBytewise_eq]
  exact (apply_ite Except.ok _ _ _).symm

/-! ## Distance -/

/-- The square of the difference of two channels. -/
def gap (a b : Channel) : Int := ((a.val : Int) - b.val) ^ 2

/-- The square of the distance of two colors. -/
def distanceSq (c o : Rgb) : Int := gap c.red o.red + gap c.green o.green + gap c.blue o.blue

/-- No other place of the cube and the ramp shows a nearer color. -/
def IsNearest (c : Rgb) (i : Index) : Prop := ∀ j : Index, 16 ≤ j.val → distanceSq c (rgb i) ≤ distanceSq c (rgb j)

instance (c : Rgb) (i : Index) : Decidable (IsNearest c i) := inferInstanceAs (Decidable (∀ _ : Index, _ → _))

/-- A gray of the ramp. -/
def rampLevel (k : Fin 24) : Channel := ⟨8 + 10 * k, by omega⟩

/-- The color with three equal channels. -/
def gray (c : Channel) : Rgb := ⟨c, c, c⟩

/-- The place of the levels of the three channels in the cube. -/
def cubePlace (r g b : Fin 6) : Index := ⟨16 + 36 * r + 6 * g + b, by omega⟩

/-- The place of a gray of the ramp. -/
def rampPlace (k : Fin 24) : Index := ⟨232 + k, by omega⟩

theorem rgb_cubePlace : ∀ r g b, rgb (cubePlace r g b) = ⟨level r, level g, level b⟩ := by decide +kernel

theorem rgb_rampPlace : ∀ k, rgb (rampPlace k) = gray (rampLevel k) := by decide +kernel

/-- Behind the system colors there are the cube and the ramp. -/
theorem place_cases {i : Index} (h : 16 ≤ i.val) : (∃ r g b, i = cubePlace r g b) ∨ ∃ k, i = rampPlace k := by
  by_cases hi : i.val < 232
  · refine .inl ⟨⟨(i.val - 16) / 36, by omega⟩, ⟨(i.val - 16) / 6 % 6, by omega⟩, ⟨(i.val - 16) % 6, by omega⟩,
      Fin.ext ?_⟩
    simp only [cubePlace]
    omega
  · refine .inr ⟨⟨i.val - 232, by omega⟩, Fin.ext ?_⟩
    simp only [rampPlace]
    omega

theorem forall_place_iff {P : Rgb → Prop} :
    (∀ i : Index, 16 ≤ i.val → P (rgb i)) ↔
      (∀ r g b, P ⟨level r, level g, level b⟩) ∧ ∀ k, P (gray (rampLevel k)) := by
  constructor
  · intro h
    refine ⟨fun r g b => ?_, fun k => ?_⟩
    · rw [← rgb_cubePlace]
      exact h _ (by simp only [cubePlace]; omega)
    · rw [← rgb_rampPlace]
      exact h _ (by simp only [rampPlace]; omega)
  · rintro ⟨hcube, hramp⟩ i hi
    rcases place_cases hi with ⟨r, g, b, rfl⟩ | ⟨k, rfl⟩
    · rw [rgb_cubePlace]
      exact hcube r g b
    · rw [rgb_rampPlace]
      exact hramp k

/-! ## The cube -/

/-- **In the cube the nearest place is found channel by channel.** -/
theorem forall_cube_iff (c : Rgb) (r g b : Fin 6) :
    (∀ r' g' b', distanceSq c ⟨level r, level g, level b⟩ ≤ distanceSq c ⟨level r', level g', level b'⟩) ↔
      (∀ l, gap c.red (level r) ≤ gap c.red (level l)) ∧ (∀ l, gap c.green (level g) ≤ gap c.green (level l)) ∧
        ∀ l, gap c.blue (level b) ≤ gap c.blue (level l) := by
  simp only [distanceSq]
  constructor
  · intro h
    refine ⟨fun l => ?_, fun l => ?_, fun l => ?_⟩
    · linarith [h l g b]
    · linarith [h r l b]
    · linarith [h r g l]
  · rintro ⟨hr, hg, hb⟩ r' g' b'
    linarith [hr r', hg g', hb b']

/-! ## The ramp -/

/-- The gray of the ramp that is nearest to the mean of the channels. -/
def meanGray (c : Rgb) : Fin 24 := ⟨min 23 ((c.red.val + c.green.val + c.blue.val - 9) / 30), by omega⟩

theorem distanceSq_gray (c : Rgb) (v : Channel) :
    distanceSq c (gray v)
      = (c.red : Int) ^ 2 + (c.green : Int) ^ 2 + (c.blue : Int) ^ 2
        - 2 * v * ((c.red : Int) + c.green + c.blue) + 3 * (v : Int) ^ 2 := by
  simp only [distanceSq, gray, gap]
  ring

/-- **On the ramp the gray nearest to the mean of the channels is the nearest one.** The distances to two grays differ
by a product of the difference of the grays and of what the mean lacks from their middle. -/
theorem distanceSq_meanGray_le (c : Rgb) (k : Fin 24) :
    distanceSq c (gray (rampLevel (meanGray c))) ≤ distanceSq c (gray (rampLevel k)) := by
  have hr := c.red.isLt
  have hg := c.green.isLt
  have hb := c.blue.isLt
  have hk := k.isLt
  have hn : (meanGray c).val = min 23 ((c.red.val + c.green.val + c.blue.val - 9) / 30) := rfl
  generalize meanGray c = n at hn ⊢
  have hprod : 0 ≤ ((k : Int) - n) * (24 + 15 * ((k : Int) + n) - ((c.red : Int) + c.green + c.blue)) := by
    rcases lt_trichotomy k.val n.val with hlt | heq | hlt
    · exact mul_nonneg_of_nonpos_of_nonpos (by omega) (by omega)
    · rw [heq, sub_self, zero_mul]
    · exact mul_nonneg (by omega) (by omega)
  rw [distanceSq_gray, distanceSq_gray]
  have hlevel (k : Fin 24) : ((rampLevel k).val : Int) = 8 + 10 * k := by simp [rampLevel]
  rw [hlevel, hlevel]
  nlinarith [hprod]

/-! ## The place that is found -/

/-- The channel lies in one of the ranges, ends included. -/
def Within (ranges : List (Nat × Nat)) (c : Channel) : Prop := ∃ r ∈ ranges, r.1 ≤ c.val ∧ c.val ≤ r.2

instance (ranges : List (Nat × Nat)) (c : Channel) : Decidable (Within ranges c) :=
  inferInstanceAs (Decidable (∃ r ∈ ranges, _))

/-- The channels for which no level of the cube is nearer than the one that is found. -/
def cubeRanges : List (Nat × Nat) := [(0, 47), (51, 101), (115, 152), (155, 195), (204, 235), (255, 255)]

/-- The grays for which no gray of the cube and the ramp is nearer than the one that is found. -/
def grayRanges : List (Nat × Nat) :=
  [(0, 4), (8, 13), (19, 23), (29, 33), (39, 43), (50, 53), (60, 63), (70, 73), (81, 83), (91, 91), (101, 103),
    (111, 113), (122, 123), (142, 143), (153, 153), (163, 163), (183, 183), (245, 246), (249, 255)]

/-- The level that is found for a channel in the cube. -/
def levelOf (c : Channel) : Fin 6 := ⟨cubeLevel c, Nat.lt_succ_of_le (cubeLevel_le c)⟩

/-- The gray that is found for a gray. -/
def grayOf (c : Channel) : Channel := (rgb (index (gray c))).red

theorem rgb_index_gray : ∀ c, rgb (index (gray c)) = gray (grayOf c) := by decide +kernel

theorem rgb_index_of_not_gray {c : Rgb} (h : ¬ (c.red = c.green ∧ c.green = c.blue)) :
    rgb (index c) = ⟨level (levelOf c.red), level (levelOf c.green), level (levelOf c.blue)⟩ := by
  rw [← rgb_cubePlace]
  exact congrArg rgb (Fin.ext (if_neg h))

theorem levelOf_nearest_iff : ∀ c, (∀ l, gap c (level (levelOf c)) ≤ gap c (level l)) ↔ Within cubeRanges c := by
  decide +kernel

theorem grayOf_nearest_iff :
    ∀ c, ((∀ l, gap c (grayOf c) ≤ gap c (level l)) ∧ ∀ k, gap c (grayOf c) ≤ gap c (rampLevel k)) ↔
      Within grayRanges c := by
  decide +kernel

/-- The place of a color that is no gray is a nearest one if the level of every channel is and the ramp has no nearer
gray. -/
theorem isNearest_index_iff_of_not_gray {c : Rgb} (h : ¬ (c.red = c.green ∧ c.green = c.blue)) :
    IsNearest c (index c) ↔
      (Within cubeRanges c.red ∧ Within cubeRanges c.green ∧ Within cubeRanges c.blue) ∧
        distanceSq c (rgb (index c)) ≤ distanceSq c (gray (rampLevel (meanGray c))) := by
  rw [IsNearest, forall_place_iff (P := fun o => distanceSq c (rgb (index c)) ≤ distanceSq c o)]
  refine and_congr ?_ ⟨fun hk => hk (meanGray c), fun hmean k => hmean.trans (distanceSq_meanGray_le c k)⟩
  rw [rgb_index_of_not_gray h, forall_cube_iff, levelOf_nearest_iff, levelOf_nearest_iff, levelOf_nearest_iff]

/-- For a gray the channels are compared one by one in the cube and on the ramp. -/
theorem isNearest_index_gray_iff (c : Channel) : IsNearest (gray c) (index (gray c)) ↔ Within grayRanges c := by
  rw [IsNearest, forall_place_iff (P := fun o => distanceSq (gray c) (rgb (index (gray c))) ≤ distanceSq (gray c) o),
    rgb_index_gray, ← grayOf_nearest_iff]
  simp only [distanceSq, gray]
  constructor
  · rintro ⟨hcube, hramp⟩
    exact ⟨fun l => by linarith [hcube l l l], fun k => by linarith [hramp k]⟩
  · rintro ⟨hcube, hramp⟩
    exact ⟨fun r g b => by linarith [hcube r, hcube g, hcube b], fun k => by linarith [hramp k]⟩

/-- **The place that stands for a color** lies behind the system colors and is computed in bytes. It is a nearest one
just if the gray is in one of the ranges of grays, and for all other colors if the channels are in the ranges of the
cube and the gray of the ramp nearest to their mean is no nearer. -/
theorem index_nearest_iff (c : Rgb) :
    (16 ≤ (index c).val ∧ (index c).val ≤ 255) ∧ indexBytewise c = .ok (index c) ∧
      (IsNearest c (index c) ↔
        if c.red = c.green ∧ c.green = c.blue then Within grayRanges c.red
        else (Within cubeRanges c.red ∧ Within cubeRanges c.green ∧ Within cubeRanges c.blue) ∧
          distanceSq c (rgb (index c)) ≤ distanceSq c (gray (rampLevel (meanGray c)))) := by
  refine ⟨indexNumber_bounds c, indexBytewise_eq c, ?_⟩
  split
  next h =>
    obtain ⟨r, g, b⟩ := c
    obtain ⟨rfl, rfl⟩ : r = g ∧ g = b := h
    exact isNearest_index_gray_iff r
  next h => exact isNearest_index_iff_of_not_gray h

/-- The middle gray is a color of the ramp, and another place is found. Of the dark red the level is cut off, and black
is found. -/
theorem not_isNearest_index :
    (index (gray 128) = 243 ∧ rgb 244 = gray 128 ∧ ¬ IsNearest (gray 128) (index (gray 128))) ∧
      index ⟨50, 0, 0⟩ = 16 ∧ distanceSq ⟨50, 0, 0⟩ (rgb 52) < distanceSq ⟨50, 0, 0⟩ (rgb 16) ∧
      ¬ IsNearest ⟨50, 0, 0⟩ (index ⟨50, 0, 0⟩) := by
  decide +kernel

end Palette
end TerminalMarkup
