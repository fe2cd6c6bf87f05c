import Mathlib.Algebra.BigOperators.Ring.Finset
import RepRapFirmware.Library.Sweep

/-! The transforms between the coordinates of the user and those of the machine: the compensation of
axes that are not at right angles, and of a bed that is not flat. Coordinates are exact. -/

namespace RepRapFirmware.Movement

open Library.Sweep

abbrev Point := ℕ → ℚ

def zAxis : ℕ := 2

/-- A bitmap of axes has 32 places, and the lowest bit of an empty one counts as the next. -/
def lowestSetBit (axes : Finset ℕ) : ℕ := if h : axes.Nonempty then axes.min' h else 32

/-- The axes that a tool uses as X, Y and Z axes, and where its nozzle is. -/
structure ToolAxes where
  xAxes : Finset ℕ
  yAxes : Finset ℕ
  zAxes : Finset ℕ
  offset : ℕ → ℚ
  disjoint : Disjoint xAxes yAxes
  noZ : zAxis ∉ xAxes ∧ zAxis ∉ yAxes

structure AxisCompensation where
  tanXY : ℚ
  tanYZ : ℚ
  tanXZ : ℚ
  compensateXY : Bool
  numVisibleAxes : ℕ
  visible_le : numVisibleAxes ≤ 32

/-- One turn of the loop of `AxisTransform`. -/
def transformAxis (m : AxisCompensation) (tool : ToolAxes) (xyzPoint : Point) (axis : ℕ) : Point :=
  let xyzPoint :=
    if axis ∈ tool.xAxes then
      Function.update xyzPoint axis (xyzPoint axis +
        ((if m.compensateXY then m.tanXY * xyzPoint (lowestSetBit tool.yAxes) else 0) +
          m.tanXZ * xyzPoint zAxis))
    else xyzPoint
  if axis ∈ tool.yAxes then
    Function.update xyzPoint axis (xyzPoint axis +
      ((if m.compensateXY then 0 else m.tanXY * xyzPoint (lowestSetBit tool.xAxes)) +
        m.tanYZ * xyzPoint zAxis))
  else xyzPoint

def axisTransform (m : AxisCompensation) (tool : ToolAxes) (xyzPoint : Point) : Point :=
  if lowestSetBit tool.yAxes < m.numVisibleAxes then
    sweep (transformAxis m tool) m.numVisibleAxes xyzPoint
  else xyzPoint

/-- One turn of the loop of `InverseAxisTransform`. -/
def inverseTransformAxis (m : AxisCompensation) (tool : ToolAxes) (xyzPoint : Point) (axis : ℕ) :
    Point :=
  let xyzPoint :=
    if axis ∈ tool.yAxes then
      Function.update xyzPoint axis (xyzPoint axis -
        ((if m.compensateXY then 0 else m.tanXY * xyzPoint (lowestSetBit tool.xAxes)) +
          m.tanYZ * xyzPoint zAxis))
    else xyzPoint
  if axis ∈ tool.xAxes then
    Function.update xyzPoint axis (xyzPoint axis -
      ((if m.compensateXY then m.tanXY * xyzPoint (lowestSetBit tool.yAxes) else 0) +
        m.tanXZ * xyzPoint zAxis))
  else xyzPoint

def inverseAxisTransform (m : AxisCompensation) (tool : ToolAxes) (xyzPoint : Point) : Point :=
  if lowestSetBit tool.yAxes < m.numVisibleAxes then
    sweep (inverseTransformAxis m tool) m.numVisibleAxes xyzPoint
  else xyzPoint

/-! ### The axis transform and its inverse -/

variable {m : AxisCompensation} {tool : ToolAxes} {p q : Point} {a n : ℕ}

lemma transformAxis_local : Local (transformAxis m tool) := by
  intro p a b hb
  rw [transformAxis]
  split
  · rw [Function.update_of_ne hb]
    split
    · exact Function.update_of_ne hb _ _
    · rfl
  · split
    · exact Function.update_of_ne hb _ _
    · rfl

lemma inverseTransformAxis_local : Local (inverseTransformAxis m tool) := by
  intro p a b hb
  rw [inverseTransformAxis]
  split
  · rw [Function.update_of_ne hb]
    split
    · exact Function.update_of_ne hb _ _
    · rfl
  · split
    · exact Function.update_of_ne hb _ _
    · rfl

/-- What is added to an axis, from what it sees of the others. -/
def shear (m : AxisCompensation) (tool : ToolAxes) (p : Point) (a : ℕ) : ℚ :=
  if a ∈ tool.xAxes then
    (if m.compensateXY then m.tanXY * p (lowestSetBit tool.yAxes) else 0) + m.tanXZ * p zAxis
  else if a ∈ tool.yAxes then
    (if m.compensateXY then 0 else m.tanXY * p (lowestSetBit tool.xAxes)) + m.tanYZ * p zAxis
  else 0

lemma transformAxis_self (p : Point) (a : ℕ) :
    transformAxis m tool p a a = p a + shear m tool p a := by
  rw [transformAxis, shear]
  by_cases hx : a ∈ tool.xAxes
  · have hy : a ∉ tool.yAxes := Finset.disjoint_left.mp tool.disjoint hx
    simp [hx, hy]
  · simp only [hx, if_false]
    split
    · rw [Function.update_self]
    · rw [add_zero]

lemma inverseTransformAxis_self (p : Point) (a : ℕ) :
    inverseTransformAxis m tool p a a = p a - shear m tool p a := by
  rw [inverseTransformAxis, shear]
  by_cases hx : a ∈ tool.xAxes
  · have hy : a ∉ tool.yAxes := Finset.disjoint_left.mp tool.disjoint hx
    simp [hx, hy]
  · simp only [hx, if_false]
    split
    · rw [Function.update_self]
    · rw [sub_zero]

lemma lowestSetBit_mem {axes : Finset ℕ} (h : lowestSetBit axes < 32) : lowestSetBit axes ∈ axes :=
    by
  rw [lowestSetBit] at h ⊢
  split at h
  · next hne =>
    rw [dif_pos hne]
    exact axes.min'_mem hne
  · exact absurd h (lt_irrefl 32)

lemma lowestSetBit_le {axes : Finset ℕ} (h : a ∈ axes) : lowestSetBit axes ≤ a := by
  rw [lowestSetBit, dif_pos ⟨a, h⟩]
  exact axes.min'_le a h

/-- The axis whose coordinate changes others: the lowest Y axis, or the lowest X axis. -/
def leadAxis (m : AxisCompensation) (tool : ToolAxes) : ℕ :=
  if m.compensateXY then lowestSetBit tool.yAxes else lowestSetBit tool.xAxes

/-- The axes that the leading axis changes. -/
def ledAxes (m : AxisCompensation) (tool : ToolAxes) : Finset ℕ :=
  if m.compensateXY then tool.xAxes else tool.yAxes

/-- What the height changes the leading axis by. -/
def leadTan (m : AxisCompensation) : ℚ := if m.compensateXY then m.tanYZ else m.tanXZ

def ledTan (m : AxisCompensation) : ℚ := if m.compensateXY then m.tanXZ else m.tanYZ

lemma shear_led (p : Point) (h : a ∈ ledAxes m tool) :
    shear m tool p a = m.tanXY * p (leadAxis m tool) + ledTan m * p zAxis := by
  rw [shear, leadAxis, ledTan]
  rw [ledAxes] at h
  by_cases hc : m.compensateXY = true
  · rw [if_pos hc] at h
    simp [hc, h]
  · rw [if_neg hc] at h
    have hx : a ∉ tool.xAxes := Finset.disjoint_right.mp tool.disjoint h
    simp [hc, h, hx]

/-- An axis that is not led is changed by the height alone, if at all. -/
lemma shear_not_led (p : Point) (h : a ∉ ledAxes m tool) :
    shear m tool p a = (if a ∈ tool.xAxes ∪ tool.yAxes then leadTan m else 0) * p zAxis := by
  rw [shear, leadTan]
  rw [ledAxes] at h
  by_cases hc : m.compensateXY = true
  · rw [if_pos hc] at h
    by_cases hy : a ∈ tool.yAxes <;> simp [hc, h, hy]
  · rw [if_neg hc] at h
    by_cases hx : a ∈ tool.xAxes <;> simp [hc, h, hx]

lemma shear_z (p : Point) : shear m tool p zAxis = 0 := by
  rw [shear, if_neg tool.noZ.1, if_neg tool.noZ.2]

lemma sweep_transform_z : sweep (transformAxis m tool) n p zAxis = p zAxis :=
  transformAxis_local.sweep_eq fun q => by rw [transformAxis_self, shear_z, add_zero]

lemma sweep_inverse_z : sweep (inverseTransformAxis m tool) n p zAxis = p zAxis :=
  inverseTransformAxis_local.sweep_eq fun q => by rw [inverseTransformAxis_self, shear_z, sub_zero]

/-- Both passes over the axes. -/
def backAndForth (m : AxisCompensation) (tool : ToolAxes) (p : Point) : Point :=
  sweep (inverseTransformAxis m tool) m.numVisibleAxes
    (sweep (transformAxis m tool) m.numVisibleAxes p)

lemma backAndForth_invisible (h : m.numVisibleAxes ≤ a) : backAndForth m tool p a = p a := by
  rw [backAndForth, inverseTransformAxis_local.sweep_of_le h, transformAxis_local.sweep_of_le h]

lemma forth (h : a < m.numVisibleAxes) :
    sweep (transformAxis m tool) m.numVisibleAxes p a =
      p a + shear m tool (sweep (transformAxis m tool) a p) a := by
  rw [transformAxis_local.sweep_of_lt h, transformAxis_self, transformAxis_local.sweep_of_le le_rfl]

lemma back (h : a < m.numVisibleAxes) (q : Point) :
    sweep (inverseTransformAxis m tool) m.numVisibleAxes q a =
      q a - shear m tool (sweep (inverseTransformAxis m tool) a q) a := by
  rw [inverseTransformAxis_local.sweep_of_lt h, inverseTransformAxis_self,
    inverseTransformAxis_local.sweep_of_le le_rfl]

lemma backAndForth_not_led (h : a < m.numVisibleAxes) (hled : a ∉ ledAxes m tool) :
    backAndForth m tool p a = p a := by
  rw [backAndForth, back h, forth h, shear_not_led _ hled, shear_not_led _ hled, sweep_inverse_z,
    sweep_transform_z, sweep_transform_z]
  exact add_sub_cancel_right _ _

/-- By how much the two passes move a led axis. -/
lemma backAndForth_led (hle : leadAxis m tool < m.numVisibleAxes → leadAxis m tool ∉ ledAxes m tool)
    (h : a < m.numVisibleAxes) (hled : a ∈ ledAxes m tool) :
    backAndForth m tool p a = p a + (if leadAxis m tool < a then 1 else -1) * (m.tanXY *
      (sweep (transformAxis m tool) m.numVisibleAxes p (leadAxis m tool) - p (leadAxis m tool))) :=
      by
  have hlead : backAndForth m tool p (leadAxis m tool) = p (leadAxis m tool) := by
    by_cases hvis : leadAxis m tool < m.numVisibleAxes
    · exact backAndForth_not_led hvis (hle hvis)
    · exact backAndForth_invisible (not_lt.mp hvis)
  rw [backAndForth, back h, forth h, shear_led _ hled, shear_led _ hled, sweep_inverse_z,
    sweep_transform_z, sweep_transform_z, transformAxis_local.sweep_seen h,
    inverseTransformAxis_local.sweep_seen h]
  rw [backAndForth] at hlead
  rw [hlead]
  split
  · ring
  · ring

lemma leadAxis_not_led (hvis : leadAxis m tool < m.numVisibleAxes) :
    leadAxis m tool ∉ ledAxes m tool ∧ leadAxis m tool ∈ tool.xAxes ∪ tool.yAxes := by
  have hbits : leadAxis m tool < 32 := hvis.trans_le m.visible_le
  rw [leadAxis] at hbits ⊢
  rw [ledAxes]
  split at hbits
  · next hc =>
    have hmem := lowestSetBit_mem hbits
    rw [if_pos hc, if_pos hc]
    exact ⟨Finset.disjoint_right.mp tool.disjoint hmem, Finset.mem_union_right _ hmem⟩
  · next hc =>
    have hmem := lowestSetBit_mem hbits
    rw [if_neg hc, if_neg hc]
    exact ⟨Finset.disjoint_left.mp tool.disjoint hmem, Finset.mem_union_left _ hmem⟩

lemma lead_moves : sweep (transformAxis m tool) m.numVisibleAxes p (leadAxis m tool) -
    p (leadAxis m tool) =
      if leadAxis m tool < m.numVisibleAxes then leadTan m * p zAxis else 0 := by
  split
  · next hvis =>
    obtain ⟨hled, hmem⟩ := leadAxis_not_led hvis
    rw [forth hvis, shear_not_led _ hled, if_pos hmem, sweep_transform_z, add_sub_cancel_left]
  · next hvis => rw [transformAxis_local.sweep_of_le (not_lt.mp hvis), sub_self]

/-- The inverse transform takes the axes in the same order as the transform, and so it corrects one
axis with another one that was not, or was already, set back. -/
theorem inverseAxisTransform_axisTransform (m : AxisCompensation) (tool : ToolAxes) (p : Point) :
    inverseAxisTransform m tool (axisTransform m tool p) = p ↔
      (lowestSetBit tool.xAxes < m.numVisibleAxes → lowestSetBit tool.yAxes < m.numVisibleAxes →
        m.tanXY * (if m.compensateXY then m.tanYZ else m.tanXZ) * p zAxis = 0) := by
  rw [inverseAxisTransform, axisTransform]
  by_cases hy : lowestSetBit tool.yAxes < m.numVisibleAxes
  · rw [if_pos hy, if_pos hy, ← backAndForth, ← leadTan]
    constructor
    · intro hsame hx _
      -- the lowest axis of the led ones moves by the product
      have hvis : leadAxis m tool < m.numVisibleAxes := by
        rw [leadAxis]
        split
        · exact hy
        · exact hx
      obtain ⟨a, ha, hled⟩ : ∃ a < m.numVisibleAxes, a ∈ ledAxes m tool := by
        rw [ledAxes]
        split
        · exact ⟨_, hx, lowestSetBit_mem (hx.trans_le m.visible_le)⟩
        · exact ⟨_, hy, lowestSetBit_mem (hy.trans_le m.visible_le)⟩
      have hmoved := backAndForth_led (p := p) (fun h => (leadAxis_not_led h).1) ha hled
      rw [hsame, lead_moves, if_pos hvis, eq_comm, add_eq_left, mul_eq_zero] at hmoved
      rcases hmoved with hsign | hzero
      · split at hsign
        · exact absurd hsign one_ne_zero
        · exact absurd hsign (neg_ne_zero.mpr one_ne_zero)
      · rw [mul_assoc]
        exact hzero
    · intro hzero
      funext a
      by_cases ha : a < m.numVisibleAxes
      · by_cases hled : a ∈ ledAxes m tool
        · have hnone : m.tanXY *
              (if leadAxis m tool < m.numVisibleAxes then leadTan m * p zAxis else 0) = 0 := by
            split
            · next hvis =>
              rw [← mul_assoc]
              apply hzero _ hy
              rw [leadAxis] at hvis
              rw [ledAxes] at hled
              by_cases hc : m.compensateXY = true
              · rw [if_pos hc] at hled
                exact (lowestSetBit_le hled).trans_lt ha
              · rwa [if_neg hc] at hvis
            · exact mul_zero _
          rw [backAndForth_led (fun h => (leadAxis_not_led h).1) ha hled, lead_moves, hnone,
            mul_zero, add_zero]
        · exact backAndForth_not_led ha hled
      · exact backAndForth_invisible (not_lt.mp ha)
  · rw [if_neg hy, if_neg hy]
    exact iff_of_true rfl fun _ h => absurd h hy

/-- No tool: X, Y and Z are the axes of these names. -/
def noTool : ToolAxes where
  xAxes := {0}
  yAxes := {1}
  zAxes := {2}
  offset _ := 0
  disjoint := by decide
  noZ := by decide

def skewed : AxisCompensation := ⟨1, 1, 0, true, 3, by decide⟩

theorem inverseAxisTransform_skewed : ¬ ∀ (m : AxisCompensation) (tool : ToolAxes) (p : Point),
    inverseAxisTransform m tool (axisTransform m tool p) = p := by
  intro h
  have hx := congrFun (h skewed noTool fun a => if a = zAxis then 1 else 0) 0
  exact absurd hx (by decide +kernel)

/-! ### The bed transform and its inverse -/

/-- Compensation with a height map over two axes, neither of which is Z. With a taper it fades out
up to a height. -/
structure BedCompensation where
  interpolatedHeightError : ℚ → ℚ → ℚ
  axisNumber0 : ℕ
  axisNumber1 : ℕ
  noZ : axisNumber0 ≠ zAxis ∧ axisNumber1 ≠ zAxis
  zShift : ℚ
  usingMesh : Bool
  taperHeight : Option { h : ℚ // 1 < h }

def getAxisMapping (tool : ToolAxes) (axis : ℕ) : Finset ℕ :=
  if axis = 0 then tool.xAxes
  else if axis = 1 then tool.yAxes
  else if axis = zAxis then tool.zAxes
  else {axis}

def computeHeightCorrection (b : BedCompensation) (tool : ToolAxes) (xyzPoint : Point) : ℚ :=
  let axis0Axes := getAxisMapping tool b.axisNumber0
  let axis1Axes := getAxisMapping tool b.axisNumber1
  let zCorrection := ∑ axis0 ∈ axis0Axes, ∑ axis1 ∈ axis1Axes,
    b.interpolatedHeightError (xyzPoint axis0 + tool.offset axis0)
      (xyzPoint axis1 + tool.offset axis1)
  let numCorrections := axis0Axes.card * axis1Axes.card
  (if 1 < numCorrections then zCorrection / numCorrections else zCorrection) + b.zShift

def bedTransform (b : BedCompensation) (tool : ToolAxes) (xyzPoint : Point) : Point :=
  if b.usingMesh then
    let toolHeight := xyzPoint zAxis + tool.offset zAxis
    let zCorrection := computeHeightCorrection b tool xyzPoint
    match b.taperHeight with
    | none => Function.update xyzPoint zAxis (xyzPoint zAxis + zCorrection)
    | some ⟨taperHeight, _⟩ =>
      let recipTaperHeight := 1 / taperHeight
      if toolHeight < taperHeight then
        Function.update xyzPoint zAxis (xyzPoint zAxis +
          if zCorrection < taperHeight then
            (taperHeight - toolHeight) * recipTaperHeight * zCorrection
          else zCorrection)
      else xyzPoint
  else xyzPoint

def inverseBedTransform (b : BedCompensation) (tool : ToolAxes) (xyzPoint : Point) : Point :=
  if b.usingMesh then
    let zCorrection := computeHeightCorrection b tool xyzPoint
    match b.taperHeight with
    | none => Function.update xyzPoint zAxis (xyzPoint zAxis - zCorrection)
    | some ⟨taperHeight, _⟩ =>
      let recipTaperHeight := 1 / taperHeight
      if taperHeight ≤ zCorrection then
        Function.update xyzPoint zAxis (xyzPoint zAxis - zCorrection)
      else
        let toolZoffset := tool.offset zAxis
        let zreq := (xyzPoint zAxis - (taperHeight - toolZoffset) * zCorrection * recipTaperHeight)
          /
          (1 - zCorrection * recipTaperHeight)
        if zreq + toolZoffset < taperHeight then Function.update xyzPoint zAxis zreq else xyzPoint
  else xyzPoint

variable {b : BedCompensation}

lemma notMem_getAxisMapping {axis : ℕ} (h : axis ≠ zAxis) : zAxis ∉ getAxisMapping tool axis := by
  rw [getAxisMapping]
  split
  · exact tool.noZ.1
  · split
    · exact tool.noZ.2
    · rw [Finset.mem_singleton]
      exact h.symm

/-- The height of the nozzle plays no part in its correction. -/
lemma computeHeightCorrection_update (p : Point) (z : ℚ) :
    computeHeightCorrection b tool (Function.update p zAxis z) = computeHeightCorrection b tool p :=
      by
  have hsum : ∀ axis0 ∈ getAxisMapping tool b.axisNumber0,
      ∀ axis1 ∈ getAxisMapping tool b.axisNumber1,
        b.interpolatedHeightError (Function.update p zAxis z axis0 + tool.offset axis0)
            (Function.update p zAxis z axis1 + tool.offset axis1) =
          b.interpolatedHeightError (p axis0 + tool.offset axis0) (p axis1 + tool.offset axis1) :=
            by
    intro axis0 h0 axis1 h1
    have hne0 : axis0 ≠ zAxis := fun heq => notMem_getAxisMapping b.noZ.1 (heq ▸ h0)
    have hne1 : axis1 ≠ zAxis := fun heq => notMem_getAxisMapping b.noZ.2 (heq ▸ h1)
    rw [Function.update_of_ne hne0, Function.update_of_ne hne1]
  rw [computeHeightCorrection, computeHeightCorrection]
  rw [Finset.sum_congr rfl fun axis0 h0 => Finset.sum_congr rfl fun axis1 h1 => hsum axis0 h0 axis1
    h1]

lemma update_update (p : Point) (x : ℚ) :
    Function.update (Function.update p zAxis x) zAxis (p zAxis) = p := by
  rw [Function.update_idem, Function.update_eq_self]

/-- Below the taper height a correction below it is undone: both are linear in the height. -/
lemma taper_undone {z o h c : ℚ} (h1 : 1 < h) (hc : c < h) :
    (z + (h - (z + o)) * (1 / h) * c - (h - o) * c * (1 / h)) / (1 - c * (1 / h)) = z := by
  have hpos : 0 < h := one_pos.trans h1
  have hden : 1 - c * (1 / h) ≠ 0 := by
    rw [mul_one_div, sub_ne_zero, ne_comm]
    exact ((div_lt_one hpos).mpr hc).ne
  rw [div_eq_iff hden]
  ring

/-- From the taper height on, the inverse of a correction below it would still be there. -/
lemma taper_above {z o h c : ℚ} (h1 : 1 < h) (hc : c < h) (hz : h ≤ z + o) :
    h ≤ (z - (h - o) * c * (1 / h)) / (1 - c * (1 / h)) + o := by
  have hpos : 0 < h := one_pos.trans h1
  have hden : 0 < 1 - c * (1 / h) := by
    rw [mul_one_div, sub_pos]
    exact (div_lt_one hpos).mpr hc
  have hle : h - o ≤ (z - (h - o) * c * (1 / h)) / (1 - c * (1 / h)) := by
    rw [le_div_iff₀ hden]
    linarith
  linarith

/-- The inverse is one, up to the corrections that reach the taper height: at or above that height
they are not applied, but taken off all the same. -/
theorem inverseBedTransform_bedTransform (b : BedCompensation) (tool : ToolAxes) (p : Point) :
    inverseBedTransform b tool (bedTransform b tool p) = p ↔
      ¬ (b.usingMesh = true ∧ ∃ h, b.taperHeight = some h ∧
        h.1 ≤ p zAxis + tool.offset zAxis ∧ h.1 ≤ computeHeightCorrection b tool p) := by
  by_cases hmesh : b.usingMesh = true
  · rw [inverseBedTransform, if_pos hmesh, bedTransform, if_pos hmesh]
    cases htaper : b.taperHeight with
    | none =>
      refine iff_of_true ?_ fun ⟨_, h, hh, _⟩ => nomatch hh
      dsimp only
      rw [computeHeightCorrection_update, Function.update_self, add_sub_cancel_right, update_update]
    | some h =>
      obtain ⟨h, h1⟩ := h
      dsimp only
      by_cases hheight : p zAxis + tool.offset zAxis < h
      · refine iff_of_true ?_ ?_
        · rw [if_pos hheight, computeHeightCorrection_update, Function.update_self]
          by_cases hc : computeHeightCorrection b tool p < h
          · rw [if_neg (not_le.mpr hc), if_pos hc, taper_undone h1 hc, if_pos hheight,
              update_update]
          · rw [if_pos (not_lt.mp hc), if_neg hc, add_sub_cancel_right, update_update]
        · rintro ⟨-, h', hh', hle, -⟩
          cases hh'
          exact absurd hle (not_le.mpr hheight)
      · rw [if_neg hheight]
        by_cases hc : h ≤ computeHeightCorrection b tool p
        · rw [if_pos hc]
          refine iff_of_false ?_ fun hnot =>
            hnot ⟨hmesh, ⟨h, h1⟩, rfl, not_lt.mp hheight, hc⟩
          intro hsame
          have hz := congrFun hsame zAxis
          rw [Function.update_self, sub_eq_self] at hz
          linarith
        · rw [if_neg hc, if_neg (not_lt.mpr (taper_above h1 (not_le.mp hc) (not_lt.mp hheight)))]
          refine iff_of_true rfl ?_
          rintro ⟨-, h', hh', -, hle⟩
          cases hh'
          exact hc hle
  · rw [inverseBedTransform, if_neg hmesh, bedTransform, if_neg hmesh]
    exact iff_of_true rfl fun hf => hmesh hf.1

/-- A bed that is two above its nominal height everywhere, with a taper of two. -/
def raisedBed : BedCompensation :=
  ⟨fun _ _ => 2, 0, 1, by decide, 0, true, some ⟨2, by decide +kernel⟩⟩

theorem inverseBedTransform_raised : ¬ ∀ (b : BedCompensation) (tool : ToolAxes) (p : Point),
    inverseBedTransform b tool (bedTransform b tool p) = p := by
  intro h
  have hz := congrFun (h raisedBed noTool fun _ => 2) zAxis
  exact absurd hz (by decide +kernel)

end RepRapFirmware.Movement
