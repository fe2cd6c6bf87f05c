import Mathlib
import RepRapFirmware.Library.Sweep
import RepRapFirmware.Movement.Transforms

/-! The transforms between the coordinates of the user and those of the head,
  with the offsets of the
tool, and axes that move in place of others. Coordinates are exact. -/

namespace RepRapFirmware.GCodes

open Library.Sweep Movement

-- One proof for the axes that are given as numerals.
local instance neZero3 : NeZero 3 := ⟨by decide⟩

/-- What the transforms use of the machine. -/
structure AxisSettings where
  numVisibleAxes : ℕ
  axisScaleFactors : ℕ → ℚ
  currentBabyStepOffsets : ℕ → ℚ
  minAxes : 3 ≤ numVisibleAxes
  scale_ne_zero : ∀ axis, axisScaleFactors axis ≠ 0

/-- A tool, with the axes that move in place of X, Y and Z. -/
structure MappedTool (m : AxisSettings) where
  axisMapping : Fin 3 → Finset ℕ
  offset : ℕ → ℚ
  actualZHop : ℚ
  disjoint : ∀ j k, j ≠ k → Disjoint (axisMapping j) (axisMapping k)
  nonempty : ∀ k, (axisMapping k).Nonempty
  visible : ∀ k, ∀ axis ∈ axisMapping k, axis < m.numVisibleAxes

variable {m : AxisSettings}

def MappedTool.totalOffset (tool : MappedTool m) (axis : ℕ) : ℚ :=
  let totalOffset := m.currentBabyStepOffsets axis - tool.offset axis
  if axis ∈ tool.axisMapping 2 then totalOffset + tool.actualZHop else totalOffset

/-- X, Y or Z where another axis moves in its place. -/
def MappedTool.replaced (tool : MappedTool m) (axis : ℕ) : Prop :=
  axis = 0 ∧ 0 ∉ tool.axisMapping 0 ∨ axis = 1 ∧ 1 ∉ tool.axisMapping 1 ∨
    axis = 2 ∧ 2 ∉ tool.axisMapping 2

instance (tool : MappedTool m) (axis : ℕ) : Decidable (tool.replaced axis) :=
  inferInstanceAs (Decidable (_ ∨ _ ∨ _))

def MappedTool.inputAxis (tool : MappedTool m) (explicitAxes : Finset ℕ) (axis : ℕ) : ℕ :=
  if axis ∈ explicitAxes then axis
  else if axis ∈ tool.axisMapping 0 then 0
  else if axis ∈ tool.axisMapping 1 then 1
  else if axis ∈ tool.axisMapping 2 then 2
  else axis

/-- One turn of the loop of `ToolOffsetTransform`. -/
def offsetAxis (m : AxisSettings) (tool : Option (MappedTool m)) (explicitAxes : Finset ℕ)
    (coordsIn coordsOut : Point) (axis : ℕ) : Point :=
  match tool with
  | none =>
    Function.update coordsOut axis
      (coordsIn axis * m.axisScaleFactors axis + m.currentBabyStepOffsets axis)
  | some tool =>
    if tool.replaced axis then coordsOut
    else
      Function.update coordsOut axis
        (coordsIn (tool.inputAxis explicitAxes axis) * m.axisScaleFactors axis +
          tool.totalOffset axis)

def toolOffsetTransform (m : AxisSettings) (tool : Option (MappedTool m)) (explicitAxes : Finset ℕ)
    (coordsIn coordsOut : Point) : Point :=
  sweep (offsetAxis m tool explicitAxes coordsIn) m.numVisibleAxes coordsOut

/-- The variables of the loop of `ToolOffsetInverseTransform`, with a coordinate and a number of
axes
for each of X, Y and Z. -/
structure InverseState where
  coordsOut : Point
  coord : Fin 3 → ℚ
  numAxes : Fin 3 → ℕ

/-- One turn of the loop; `coordsIn` is given the other array, which may be the same one. -/
def inverseOffsetAxis (tool : MappedTool m) (coordsIn : Point → Point) (s : InverseState)
    (axis : ℕ) : InverseState :=
  let coord := (coordsIn s.coordsOut axis - tool.totalOffset axis) / m.axisScaleFactors axis
  { coordsOut := Function.update s.coordsOut axis coord
    coord := fun k => if axis ∈ tool.axisMapping k then s.coord k + coord else s.coord k
    numAxes := fun k => if axis ∈ tool.axisMapping k then s.numAxes k + 1 else s.numAxes k }

/-- What is done for X, Y and Z after the loop. -/
def storeMean (s : InverseState) (coordsOut : Point) (k : Fin 3) : Point :=
  if s.numAxes k ≠ 0 then Function.update coordsOut k (s.coord k / s.numAxes k) else coordsOut

def inverseOffset (m : AxisSettings) (tool : Option (MappedTool m)) (coordsIn : Point → Point)
    (coordsOut : Point) : Point :=
  match tool with
  | none =>
    sweep (fun coordsOut axis => Function.update coordsOut axis
      ((coordsIn coordsOut axis - m.currentBabyStepOffsets axis) / m.axisScaleFactors axis))
      m.numVisibleAxes coordsOut
  | some tool =>
    let s := (List.range m.numVisibleAxes).foldl (inverseOffsetAxis tool coordsIn)
      ⟨coordsOut, 0, 0⟩
    storeMean s (storeMean s (storeMean s s.coordsOut 0) 1) 2

def toolOffsetInverseTransform (m : AxisSettings) (tool : Option (MappedTool m))
    (coordsIn coordsOut : Point) : Point :=
  inverseOffset m tool (fun _ => coordsIn) coordsOut

/-- `ToolOffsetInverseTransform` with the same array for both coordinates. -/
def toolOffsetInverseTransformInPlace (m : AxisSettings) (tool : Option (MappedTool m))
    (coords : Point) : Point :=
  inverseOffset m tool id coords

/-! ### What comes back -/

/-- An axis that the tool uses for itself only. -/
def Unmapped (tool : Option (MappedTool m)) (axis : ℕ) : Prop :=
  ∀ tool' ∈ tool, ∀ k, axis ∈ tool'.axisMapping k → axis = k

/-- The user has X, Y and Z back and all axes that are not mapped to another one, whatever the
coordinates were, also with one array for both. -/
def RoundTrips (m : AxisSettings) (tool : Option (MappedTool m)) (explicitAxes : Finset ℕ) : Prop :=
  ∀ user before before' : Point, ∀ axis < m.numVisibleAxes, axis < 3 ∨ Unmapped tool axis →
    toolOffsetInverseTransform m tool
      (toolOffsetTransform m tool explicitAxes user before) before' axis = user axis ∧
    toolOffsetInverseTransformInPlace m tool
      (toolOffsetTransform m tool explicitAxes user before) axis = user axis

/-- No axis of X, Y and Z moves in place of another one of them, and no axis that moves in place of
another one was given for itself. -/
def Separate (tool : MappedTool m) (explicitAxes : Finset ℕ) : Prop :=
  ∀ k, ∀ axis ∈ tool.axisMapping k, axis ≠ k → 3 ≤ axis ∧ axis ∉ explicitAxes

variable {tool : MappedTool m} {explicitAxes : Finset ℕ} {user before coordsIn coordsOut : Point}
  {axis : ℕ} {k : Fin 3}

/-! ### Forward -/

lemma offsetAxis_local (tool : Option (MappedTool m)) :
    Local (offsetAxis m tool explicitAxes coordsIn) := by
  intro p a b hb
  cases tool with
  | none => exact Function.update_of_ne hb _ _
  | some tool =>
    rw [offsetAxis]
    split
    · rfl
    · exact Function.update_of_ne hb _ _

lemma toolOffsetTransform_none (haxis : axis < m.numVisibleAxes) :
    toolOffsetTransform m none explicitAxes user before axis =
      user axis * m.axisScaleFactors axis + m.currentBabyStepOffsets axis := by
  rw [toolOffsetTransform, (offsetAxis_local none).sweep_of_lt haxis, offsetAxis]
  exact Function.update_self _ _ _

lemma toolOffsetTransform_some (haxis : axis < m.numVisibleAxes) :
    toolOffsetTransform m (some tool) explicitAxes user before axis =
      if tool.replaced axis then before axis
      else user (tool.inputAxis explicitAxes axis) * m.axisScaleFactors axis +
        tool.totalOffset axis := by
  have hlocal : Local (offsetAxis m (some tool) explicitAxes user) := offsetAxis_local (some tool)
  rw [toolOffsetTransform, hlocal.sweep_of_lt haxis, offsetAxis]
  split
  · exact hlocal.sweep_of_le le_rfl
  · exact Function.update_self _ _ _

/-! ### Back -/

/-- The user's coordinate of one axis of the head. -/
def userCoord (tool : MappedTool m) (coords : Point) (axis : ℕ) : ℚ :=
  (coords axis - tool.totalOffset axis) / m.axisScaleFactors axis

/-- The mean of the axes that move in place of X, Y or Z. -/
def meanCoord (tool : MappedTool m) (coords : Point) (k : Fin 3) : ℚ :=
  (∑ axis ∈ tool.axisMapping k, userCoord tool coords axis) / (tool.axisMapping k).card

/-- The array is read where it has not been written yet. -/
def ReadsFirst (look : Point → Point) (coords coordsOut : Point) : Prop :=
  ∀ (p : Point) (axis : ℕ), p axis = coordsOut axis → look p axis = coords axis

/-- The loop up to some axis. -/
lemma inverseLoop_spec (tool : MappedTool m) {look : Point → Point} {coords : Point}
    (hlook : ReadsFirst look coords coordsOut) (n : ℕ) :
    let s := (List.range n).foldl (inverseOffsetAxis tool look) ⟨coordsOut, 0, 0⟩
    (∀ axis, s.coordsOut axis =
        if axis < n then userCoord tool coords axis else coordsOut axis) ∧
      (∀ k, s.coord k = ∑ axis ∈ tool.axisMapping k with axis < n, userCoord tool coords axis) ∧
      ∀ k, s.numAxes k = (tool.axisMapping k |>.filter (· < n)).card := by
  induction n with
  | zero => simp
  | succ n ih =>
    obtain ⟨hout, hcoord, hnum⟩ := ih
    rw [List.range_succ, List.foldl_append, List.foldl_cons, List.foldl_nil]
    generalize (List.range n).foldl (inverseOffsetAxis tool look) ⟨coordsOut, 0, 0⟩ = s at *
    have hread : (look s.coordsOut n - tool.totalOffset n) / m.axisScaleFactors n =
        userCoord tool coords n := by
      rw [hlook s.coordsOut n (by rw [hout, if_neg (lt_irrefl n)]), userCoord]
    have hinsert (k : Fin 3) (hk : n ∈ tool.axisMapping k) :
        (tool.axisMapping k).filter (· < n + 1) = insert n ((tool.axisMapping k).filter (· < n)) :=
        by
      ext axis
      rw [Finset.mem_filter, Finset.mem_insert, Finset.mem_filter, Nat.lt_succ_iff_lt_or_eq]
      constructor
      · rintro ⟨hmem, hlt | rfl⟩
        · exact Or.inr ⟨hmem, hlt⟩
        · exact Or.inl rfl
      · rintro (rfl | ⟨hmem, hlt⟩)
        · exact ⟨hk, Or.inr rfl⟩
        · exact ⟨hmem, Or.inl hlt⟩
    have hsame (k : Fin 3) (hk : n ∉ tool.axisMapping k) :
        (tool.axisMapping k).filter (· < n + 1) = (tool.axisMapping k).filter (· < n) := by
      apply Finset.filter_congr
      intro axis hmem
      have hne : axis ≠ n := fun heq => hk (heq ▸ hmem)
      omega
    have hnew (k : Fin 3) : n ∉ (tool.axisMapping k).filter (· < n) := fun h =>
      lt_irrefl n (Finset.mem_filter.mp h).2
    refine ⟨fun axis => ?_, fun k => ?_, fun k => ?_⟩
    · rw [inverseOffsetAxis]
      dsimp only
      rw [hread]
      rcases Nat.lt_trichotomy axis n with hlt | rfl | hlt
      · rw [Function.update_of_ne hlt.ne, hout, if_pos hlt, if_pos (by omega)]
      · rw [Function.update_self, if_pos (Nat.lt_succ_self _)]
      · rw [Function.update_of_ne hlt.ne', hout, if_neg (by omega), if_neg (by omega)]
    · rw [inverseOffsetAxis]
      dsimp only
      rw [hread]
      split
      · next hk => rw [hinsert k hk, Finset.sum_insert (hnew k), hcoord, add_comm]
      · next hk => rw [hsame k hk, hcoord]
    · rw [inverseOffsetAxis]
      dsimp only
      split
      · next hk => rw [hinsert k hk, Finset.card_insert_of_notMem (hnew k), hnum]
      · next hk => rw [hsame k hk, hnum]

/-- What the transform gives for the axes of the user. -/
lemma inverseOffset_some {look : Point → Point} {coords : Point}
    (hlook : ReadsFirst look coords coordsOut) (haxis : axis < m.numVisibleAxes) :
    inverseOffset m (some tool) look coordsOut axis =
      if h : axis < 3 then meanCoord tool coords ⟨axis, h⟩ else userCoord tool coords axis := by
  have hall (k : Fin 3) :
      (tool.axisMapping k).filter (· < m.numVisibleAxes) = tool.axisMapping k :=
    Finset.filter_true_of_mem (tool.visible k)
  have hspec := inverseLoop_spec tool hlook m.numVisibleAxes
  rw [inverseOffset]
  dsimp only at hspec ⊢
  generalize (List.range m.numVisibleAxes).foldl (inverseOffsetAxis tool look)
    ⟨coordsOut, 0, 0⟩ = s at *
  obtain ⟨hout, hcoord, hnum⟩ := hspec
  simp only [hall] at hcoord hnum
  have hstore (p : Point) (k : Fin 3) :
      storeMean s p k = Function.update p k (meanCoord tool coords k) := by
    have hpos : s.numAxes k ≠ 0 := by
      rw [hnum, Finset.card_ne_zero]
      exact tool.nonempty k
    rw [storeMean, if_pos hpos, hcoord, hnum, meanCoord]
  rw [hstore, hstore, hstore]
  split
  · next h =>
    have hcases : axis = 0 ∨ axis = 1 ∨ axis = 2 := by omega
    obtain rfl | rfl | rfl := hcases
    · rfl
    · rfl
    · rfl
  · next h =>
    have hne (k : Fin 3) : axis ≠ k := by omega
    rw [Function.update_of_ne (hne 2), Function.update_of_ne (hne 1), Function.update_of_ne (hne 0),
      hout, if_pos haxis]

lemma inverseOffset_none {look : Point → Point} {coords : Point}
    (hlook : ReadsFirst look coords coordsOut) (haxis : axis < m.numVisibleAxes) :
    inverseOffset m none look coordsOut axis =
      (coords axis - m.currentBabyStepOffsets axis) / m.axisScaleFactors axis := by
  have hlocal : Local (fun coordsOut axis => Function.update coordsOut axis
      ((look coordsOut axis - m.currentBabyStepOffsets axis) / m.axisScaleFactors axis)) :=
    fun _ _ _ hb => Function.update_of_ne hb _ _
  rw [inverseOffset, hlocal.sweep_of_lt haxis, Function.update_self,
    hlook _ axis (hlocal.sweep_of_le le_rfl)]

lemma readsFirst_apart (coords coordsOut : Point) : ReadsFirst (fun _ => coords) coords coordsOut :=
  fun _ _ _ => rfl

lemma readsFirst_inPlace (coords : Point) : ReadsFirst id coords coords := fun _ _ h => h

/-! ### Forward and back -/

lemma not_mem_of_ne {j : Fin 3} (h : axis ∈ tool.axisMapping k) (hne : j ≠ k) :
    axis ∉ tool.axisMapping j := Finset.disjoint_left.mp (tool.disjoint k j hne.symm) h

lemma inputAxis_mapped (h : axis ∈ tool.axisMapping k) (hexplicit : axis ∉ explicitAxes) :
    tool.inputAxis explicitAxes axis = k := by
  rw [MappedTool.inputAxis, if_neg hexplicit]
  fin_cases k
  · exact if_pos h
  · rw [if_neg (not_mem_of_ne h (by decide))]
    exact if_pos h
  · rw [if_neg (not_mem_of_ne h (by decide)), if_neg (not_mem_of_ne h (by decide))]
    exact if_pos h

lemma inputAxis_unmapped (h : ∀ k, axis ∉ tool.axisMapping k) :
    tool.inputAxis explicitAxes axis = axis := by
  rw [MappedTool.inputAxis, if_neg (h 0), if_neg (h 1), if_neg (h 2), ite_self]

lemma not_replaced_of_le (h : 3 ≤ axis) : ¬ tool.replaced axis := by
  rintro (⟨rfl, -⟩ | ⟨rfl, -⟩ | ⟨rfl, -⟩)
  · exact absurd h (by decide)
  · exact absurd h (by decide)
  · exact absurd h (by decide)

lemma not_replaced_self (h : (k : ℕ) ∈ tool.axisMapping k) : ¬ tool.replaced k := by
  fin_cases k
  · rintro (⟨-, hnot⟩ | ⟨heq, -⟩ | ⟨heq, -⟩)
    · exact hnot h
    · exact absurd heq (by decide)
    · exact absurd heq (by decide)
  · rintro (⟨heq, -⟩ | ⟨-, hnot⟩ | ⟨heq, -⟩)
    · exact absurd heq (by decide)
    · exact hnot h
    · exact absurd heq (by decide)
  · rintro (⟨heq, -⟩ | ⟨heq, -⟩ | ⟨-, hnot⟩)
    · exact absurd heq (by decide)
    · exact absurd heq (by decide)
    · exact hnot h

/-- One of X, Y and Z that moves in place of another one is replaced itself. -/
lemma replaced_of_mapped {j : Fin 3} (h : (j : ℕ) ∈ tool.axisMapping k) (hne : j ≠ k) :
    tool.replaced j := by
  have hnot := not_mem_of_ne h hne
  fin_cases j
  · exact Or.inl ⟨rfl, hnot⟩
  · exact Or.inr (Or.inl ⟨rfl, hnot⟩)
  · exact Or.inr (Or.inr ⟨rfl, hnot⟩)

/-- The user's coordinate of an axis of the head, after the forward transform. -/
lemma userCoord_forward (haxis : axis < m.numVisibleAxes) :
    userCoord tool (toolOffsetTransform m (some tool) explicitAxes user before) axis =
      if tool.replaced axis then userCoord tool before axis
      else user (tool.inputAxis explicitAxes axis) := by
  rw [userCoord, toolOffsetTransform_some haxis]
  split
  · rfl
  · rw [add_sub_cancel_right, mul_div_cancel_right₀ _ (m.scale_ne_zero axis)]

lemma meanCoord_of_const {coords : Point} {c : ℚ}
    (h : ∀ axis ∈ tool.axisMapping k, userCoord tool coords axis = c) :
    meanCoord tool coords k = c := by
  have hcard : ((tool.axisMapping k).card : ℚ) ≠ 0 :=
    Nat.cast_ne_zero.mpr (Finset.card_ne_zero.mpr (tool.nonempty k))
  rw [meanCoord, Finset.sum_congr rfl h, Finset.sum_const, nsmul_eq_mul,
    mul_div_cancel_left₀ _ hcard]

/-- If a single axis differs, the mean does. -/
lemma meanCoord_of_single {coords : Point} {a : ℕ} (ha : a ∈ tool.axisMapping k)
    (h : ∀ axis ∈ tool.axisMapping k, userCoord tool coords axis = if axis = a then 1 else 0) :
    meanCoord tool coords k ≠ 0 := by
  have hcard : ((tool.axisMapping k).card : ℚ) ≠ 0 :=
    Nat.cast_ne_zero.mpr (Finset.card_ne_zero.mpr (tool.nonempty k))
  rw [meanCoord, Finset.sum_congr rfl h, Finset.sum_ite_eq' (tool.axisMapping k) a, if_pos ha]
  exact div_ne_zero one_ne_zero hcard

lemma Separate.roundTrips (h : Separate tool explicitAxes) :
    RoundTrips m (some tool) explicitAxes := by
  intro user before before' axis haxis hkind
  have hboth (look : Point → Point) (out : Point) (hlook : ReadsFirst look
      (toolOffsetTransform m (some tool) explicitAxes user before) out) :
      inverseOffset m (some tool) look out axis = user axis := by
    rw [inverseOffset_some hlook haxis]
    split
    · next hlt =>
      apply meanCoord_of_const (k := ⟨axis, hlt⟩)
      intro a ha
      rw [userCoord_forward (tool.visible _ a ha)]
      by_cases hself : a = axis
      · subst hself
        rw [if_neg (not_replaced_self (k := ⟨a, hlt⟩) ha)]
        by_cases hexplicit : a ∈ explicitAxes
        · rw [MappedTool.inputAxis, if_pos hexplicit]
        · rw [inputAxis_mapped ha hexplicit]
      · obtain ⟨hhigh, hexplicit⟩ := h _ a ha hself
        rw [if_neg (not_replaced_of_le hhigh), inputAxis_mapped ha hexplicit]
    · next hhigh =>
      have hunmapped (k : Fin 3) : axis ∉ tool.axisMapping k := by
        intro hk
        have heq := (hkind.resolve_left hhigh) tool rfl k hk
        omega
      rw [userCoord_forward haxis, if_neg (not_replaced_of_le (not_lt.mp hhigh)),
        inputAxis_unmapped hunmapped]
  exact ⟨hboth _ _ (readsFirst_apart _ _), hboth _ _ (readsFirst_inPlace _)⟩

lemma RoundTrips.separate (h : RoundTrips m (some tool) explicitAxes) :
    Separate tool explicitAxes := by
  intro k a ha hne
  -- a coordinate of 1 on this axis alone does not come back as 0
  have hsingle (user before : Point) (huser : user k = 0)
      (hcoords : ∀ axis ∈ tool.axisMapping k, userCoord tool
        (toolOffsetTransform m (some tool) explicitAxes user before) axis =
          if axis = a then 1 else 0) : False := by
    have hk : (k : ℕ) < m.numVisibleAxes := k.isLt.trans_le m.minAxes
    have hback := (h user before before k hk (Or.inl k.isLt)).1
    rw [toolOffsetInverseTransform, inverseOffset_some (readsFirst_apart _ _) hk,
      dif_pos k.isLt, huser] at hback
    exact meanCoord_of_single ha hcoords hback
  have hzero (axis : ℕ) : userCoord tool tool.totalOffset axis = 0 := by
    rw [userCoord, sub_self, zero_div]
  have hhigh : 3 ≤ a := by
    by_contra hlow
    have hreplaced : tool.replaced a :=
      replaced_of_mapped (j := ⟨a, not_le.mp hlow⟩) ha fun heq => hne (congrArg Fin.val heq)
    apply hsingle 0 (fun axis => tool.totalOffset axis +
      if axis = a then m.axisScaleFactors axis else 0) rfl
    intro axis haxis
    rw [userCoord_forward (tool.visible k axis haxis)]
    split
    · rw [userCoord, add_sub_cancel_left]
      split
      · exact div_self (m.scale_ne_zero axis)
      · exact zero_div _
    · next hnot =>
      have hother : axis ≠ a := by
        rintro rfl
        exact hnot hreplaced
      rw [if_neg hother, Pi.zero_apply]
  refine ⟨hhigh, fun hexplicit => ?_⟩
  have hother : (k : ℕ) ≠ a := fun heq => hne heq.symm
  apply hsingle (fun axis => if axis = a then 1 else 0) tool.totalOffset (if_neg hother)
  intro axis haxis
  rw [userCoord_forward (tool.visible k axis haxis), hzero]
  split
  · next hreplaced =>
    rw [if_neg]
    rintro rfl
    exact not_replaced_of_le hhigh hreplaced
  · by_cases hgiven : axis ∈ explicitAxes
    · rw [MappedTool.inputAxis, if_pos hgiven]
    · rw [inputAxis_mapped haxis hgiven, if_neg hother, if_neg]
      rintro rfl
      exact hgiven hexplicit

/-- The user's coordinates come back exactly if none of X, Y and Z moves in place of another one of
them, and no axis that moves in place of another one is given for itself. -/
theorem conversions_roundTrip_iff (m : AxisSettings) (tool : Option (MappedTool m)) (explicitAxes : Finset ℕ) :
    RoundTrips m tool explicitAxes ↔ ∀ tool' ∈ tool, Separate tool' explicitAxes := by
  cases tool with
  | none =>
    refine ⟨fun _ => nofun, fun _ => ?_⟩
    intro user before before' axis haxis _
    have hboth (look : Point → Point) (out : Point) (hlook : ReadsFirst look
        (toolOffsetTransform m none explicitAxes user before) out) :
        inverseOffset m none look out axis = user axis := by
      rw [inverseOffset_none hlook haxis, toolOffsetTransform_none haxis, add_sub_cancel_right,
        mul_div_cancel_right₀ _ (m.scale_ne_zero axis)]
    exact ⟨hboth _ _ (readsFirst_apart _ _), hboth _ _ (readsFirst_inPlace _)⟩
  | some tool =>
    constructor
    · intro h tool' htool'
      rw [← Option.some.inj htool']
      exact h.separate
    · exact fun h => (h tool rfl).roundTrips

/-! ### Axes in place of others -/

def fourAxes : AxisSettings where
  numVisibleAxes := 4
  axisScaleFactors := fun _ => 1
  currentBabyStepOffsets := fun _ => 0
  minAxes := by decide
  scale_ne_zero := fun _ => one_ne_zero

/-- X and Y have changed places. -/
def crossedTool : MappedTool fourAxes where
  axisMapping := ![{1}, {0}, {2}]
  offset := fun _ => 0
  actualZHop := 0
  disjoint := by decide
  nonempty := by decide
  visible := by decide

/-- The axes that have changed places are not moved at all. -/
theorem not_roundTrips_crossed :
    toolOffsetInverseTransform fourAxes (some crossedTool)
        (toolOffsetTransform fourAxes (some crossedTool) ∅ (fun _ => 5) (fun _ => 0))
        (fun _ => 0) 0 = 0 ∧
      ¬ RoundTrips fourAxes (some crossedTool) ∅ := by
  have hback : toolOffsetInverseTransform fourAxes (some crossedTool)
      (toolOffsetTransform fourAxes (some crossedTool) ∅ (fun _ => 5) (fun _ => 0))
      (fun _ => 0) 0 = 0 := by decide +kernel
  refine ⟨hback, fun h => ?_⟩
  have hfive := (h (fun _ => 5) (fun _ => 0) (fun _ => 0) 0 (by decide) (Or.inl (by decide))).1
  rw [hback] at hfive
  norm_num at hfive

end RepRapFirmware.GCodes
