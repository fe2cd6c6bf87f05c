import Mathlib
import RepRapFirmware.Library.Rods
import RepRapFirmware.Movement.LinearDelta

/-! The limits on the final position of a straight move of a linear delta machine. -/

namespace RepRapFirmware.Movement

open Library Library.Kinematics

inductive LimitPositionResult
  | ok
  | adjusted
  | intermediateUnreachable
  | adjustedAndIntermediateUnreachable
  deriving DecidableEq

/-- The limits set by `M208`. -/
structure AxisLimits (α : Type*) where
  axisMinimum : ℕ → α
  axisMaximum : ℕ → α

/-- The final coordinates so far, and whether they have been changed. -/
structure Adjusted (α : Type*) where
  finalCoords : ℕ → α
  limited : Bool

/-- The variables of the search along a line. -/
structure LineSearch (α : Type*) extends Adjusted α where
  dz : α
  tdmSquared : α

/-- What one pass of the inner loop for a tower leads to. -/
inductive Pass (α : Type*)
  | done (limitFinalHeight : Bool)
  | again (s : LineSearch α)
  | unreachable

/-- What a call returns and leaves in the final coordinates, and whether the minimum of Z has raised
them. -/
structure Limited (α : Type*) where
  result : LimitPositionResult
  finalCoords : ℕ → α
  raised : Bool

/-- The call reports an unreachable intermediate position. -/
def Limited.Unreachable {α : Type*} (r : Limited α) : Prop :=
  r.result = .intermediateUnreachable ∨ r.result = .adjustedAndIntermediateUnreachable

/-- The arguments of a call besides the coordinates. -/
structure LimitOptions where
  numVisibleAxes : ℕ
  axesToLimit : Finset ℕ
  applyM208Limits : Bool

namespace LinearDeltaKinematics

variable {α : Type*} [Field α] [LinearOrder α] (k : LinearDeltaKinematics α) (sqrt : α → α)

def homedCarriageHeights (axis : ℕ) : α :=
  k.homedHeight +
    sqrt (k.D2 axis - if axis < 3 then k.radius ^ 2 else k.towerX axis ^ 2 + k.towerY axis ^ 2) +
    k.endstopAdjustments axis

def alwaysReachableHeight : α :=
  (List.range k.numTowers).foldl
    (fun height axis =>
      let heightLimit := k.homedCarriageHeights sqrt axis - k.diagonals axis
      if heightLimit < height then heightLimit else height)
    k.homedHeight

/-- Constrain the move to be within the build radius. -/
def limitRadius (applyM208Limits : Bool) (finalCoords : ℕ → α) : Adjusted α :=
  let diagonalSquared := finalCoords 0 ^ 2 + finalCoords 1 ^ 2
  if applyM208Limits ∧ diagonalSquared > k.printRadius ^ 2 then
    let factor := sqrt (k.printRadius ^ 2 / diagonalSquared)
    { finalCoords := Function.update (Function.update finalCoords 0 (finalCoords 0 * factor)) 1
        (finalCoords 1 * factor)
      limited := true }
  else { finalCoords := finalCoords, limited := false }

/-- Limit a single position by one tower. -/
def limitHeight (a : Adjusted α) (tower : ℕ) : Adjusted α :=
  let carriageHeight := k.transform sqrt a.finalCoords tower
  if carriageHeight > k.homedCarriageHeights sqrt tower then
    { finalCoords := Function.update a.finalCoords 2
        (a.finalCoords 2 - (carriageHeight - k.homedCarriageHeights sqrt tower))
      limited := true }
  else a

section Line

variable (initialCoords : ℕ → α) (dx dy : α)

def discriminant (tower : ℕ) : α :=
  k.D2 tower * (dx ^ 2 + dy ^ 2) -
    (dx * (initialCoords 1 - k.towerY tower) - dy * (initialCoords 0 - k.towerX tower)) ^ 2

def tP2Q2 (tower : ℕ) (s : LineSearch α) : α :=
  s.dz * sqrt (k.discriminant initialCoords dx dy tower * s.tdmSquared) -
    ((initialCoords 0 - k.towerX tower) * dx + (initialCoords 1 - k.towerY tower) * dy) *
      s.tdmSquared

/-- The maximum is beyond the final position. -/
def BeyondFinal (tower : ℕ) (s : LineSearch α) : Prop :=
  k.tP2Q2 sqrt initialCoords dx dy tower s ≥ (dx ^ 2 + dy ^ 2) * s.tdmSquared

instance (tower : ℕ) (s : LineSearch α) :
    Decidable (k.BeyondFinal sqrt initialCoords dx dy tower s) :=
  inferInstanceAs (Decidable (_ ≥ _))

def tempCoords (dz t : α) : ℕ → α :=
  Function.update (Function.update (Function.update initialCoords 0 (initialCoords 0 + t * dx)) 1
    (initialCoords 1 + t * dy)) 2 (initialCoords 2 + t * dz)

/-- Reduce the requested final Z coordinate. -/
def reduce (proposedAdjustment : α) (s : LineSearch α) : LineSearch α :=
  { finalCoords := Function.update s.finalCoords 2 (s.finalCoords 2 - proposedAdjustment)
    limited := true
    dz := s.dz - proposedAdjustment
    tdmSquared := dx ^ 2 + dy ^ 2 + (s.dz - proposedAdjustment) ^ 2 }

/-- One pass of the inner loop. -/
def pass (tower : ℕ) (s : LineSearch α) : Pass α :=
  if k.discriminant initialCoords dx dy tower < 0 then .done true
  else if k.BeyondFinal sqrt initialCoords dx dy tower s then .done true
  else if k.tP2Q2 sqrt initialCoords dx dy tower s > 0 then
    let t := k.tP2Q2 sqrt initialCoords dx dy tower s / ((dx ^ 2 + dy ^ 2) * s.tdmSquared)
    let carriageHeight := k.transform sqrt (tempCoords initialCoords dx dy s.dz t) tower
    if carriageHeight > k.homedCarriageHeights sqrt tower then
      let proposedAdjustment := carriageHeight - k.homedCarriageHeights sqrt tower + 1 / 2
      if s.dz ≥ proposedAdjustment then .again (reduce dx dy proposedAdjustment s)
      else .unreachable
    else .done false
  else .done false

/-- At most `fuel` passes of the inner loop. The move cannot be done where it ends with an error. -/
def passes (tower : ℕ) : ℕ → LineSearch α → Option (Except (LineSearch α) (Bool × LineSearch α))
  | 0, _ => none
  | fuel + 1, s =>
    match k.pass sqrt initialCoords dx dy tower s with
    | .done limitFinalHeight => some (.ok (limitFinalHeight, s))
    | .again s' => passes tower fuel s'
    | .unreachable => some (.error s)

/-- By how much the carriage of a tower is too high at the final position. -/
def excess (tower : ℕ) (s : LineSearch α) : α :=
  k.transform sqrt s.finalCoords tower - k.homedCarriageHeights sqrt tower

/-- The check of the final position. The variables of the line are not needed after the last
tower. -/
def limitFinal (tower : ℕ) (s : LineSearch α) : Except (LineSearch α) (LineSearch α) :=
  if k.transform sqrt s.finalCoords tower > k.homedCarriageHeights sqrt tower then
    if s.dz ≥ k.excess sqrt tower s then
      let reduced := reduce dx dy (k.excess sqrt tower s) s
      if tower + 1 < k.numTowers then .ok reduced
      else .ok { s with toAdjusted := reduced.toAdjusted }
    else .error s
  else .ok s

def limitTower (fuel tower : ℕ) (s : LineSearch α) :
    Option (Except (LineSearch α) (LineSearch α)) :=
  match k.passes sqrt initialCoords dx dy tower fuel s with
  | none => none
  | some (.error s') => some (.error s')
  | some (.ok (true, s')) => some (k.limitFinal sqrt dx dy tower s')
  | some (.ok (false, s')) => some (.ok s')

def limitTowers (fuel : ℕ) : List ℕ → LineSearch α → Option (Except (LineSearch α) (LineSearch α))
  | [], s => some (.ok s)
  | tower :: towers, s =>
    match k.limitTower sqrt initialCoords dx dy fuel tower s with
    | some (.ok s') => limitTowers fuel towers s'
    | stopped => stopped

end Line

def startSearch (initialCoords : ℕ → α) (a : Adjusted α) : LineSearch α :=
  { a with
    dz := a.finalCoords 2 - initialCoords 2
    tdmSquared := (a.finalCoords 0 - initialCoords 0) ^ 2 +
      (a.finalCoords 1 - initialCoords 1) ^ 2 + (a.finalCoords 2 - initialCoords 2) ^ 2 }

/-- Limit all positions along a straight line. -/
def limitLine (fuel : ℕ) (initialCoords : ℕ → α) (a : Adjusted α) :
    Option (Except (LineSearch α) (LineSearch α)) :=
  let s := startSearch initialCoords a
  if s.tdmSquared ≠ 0 then
    k.limitTowers sqrt initialCoords (a.finalCoords 0 - initialCoords 0)
      (a.finalCoords 1 - initialCoords 1) fuel (List.range k.numTowers) s
  else some (.ok s)

/-- Constrain the position to be within the reachable height. -/
def limitHeights (fuel : ℕ) (initialCoords : Option (ℕ → α)) (a : Adjusted α) :
    Option (Except (Adjusted α) (Adjusted α)) :=
  match initialCoords with
  | none =>
    if a.finalCoords 2 > k.alwaysReachableHeight sqrt then
      some (.ok ((List.range 3).foldl (k.limitHeight sqrt) a))
    else some (.ok a)
  | some initialCoords =>
    if a.finalCoords 2 > k.alwaysReachableHeight sqrt ∨
        initialCoords 2 > k.alwaysReachableHeight sqrt then
      (k.limitLine sqrt fuel initialCoords a).map fun r =>
        match r with
        | .ok s => .ok s.toAdjusted
        | .error s => .error s.toAdjusted
    else some (.ok a)

def axisRoundingError : α := 2 / 100

def limitAxis (limits : AxisLimits α) (options : LimitOptions) (a : Adjusted α) (axis : ℕ) :
    Adjusted α :=
  if axis ∈ options.axesToLimit then
    if a.finalCoords axis < limits.axisMinimum axis - axisRoundingError then
      { finalCoords := Function.update a.finalCoords axis (limits.axisMinimum axis), limited := true }
    else if a.finalCoords axis > limits.axisMaximum axis + axisRoundingError then
      { finalCoords := Function.update a.finalCoords axis (limits.axisMaximum axis), limited := true }
    else a
  else a

def limitPositionFromAxis (limits : AxisLimits α) (options : LimitOptions) (firstAxis : ℕ)
    (a : Adjusted α) : Adjusted α :=
  (List.range' firstAxis (options.numVisibleAxes - firstAxis)).foldl (limitAxis limits options) a

/-- The additional axes are limited, and the result is made up. -/
def limitOthers (limits : AxisLimits α) (options : LimitOptions) (raised : Bool) (a : Adjusted α) :
    Limited α :=
  let b := if options.applyM208Limits then limitPositionFromAxis limits options k.numTowers a else a
  { result := if b.limited then .adjusted else .ok
    finalCoords := b.finalCoords
    raised := raised }

def limitPosition (fuel : ℕ) (limits : AxisLimits α) (options : LimitOptions)
    (initialCoords : Option (ℕ → α)) (finalCoords : ℕ → α) : Option (Limited α) :=
  if 0 ∈ options.axesToLimit ∨ 1 ∈ options.axesToLimit ∨ 2 ∈ options.axesToLimit then
    match k.limitHeights sqrt fuel initialCoords
        (k.limitRadius sqrt options.applyM208Limits finalCoords) with
    | none => none
    | some (.error a) =>
      some
        { result := if a.limited then .adjustedAndIntermediateUnreachable else .intermediateUnreachable
          finalCoords := a.finalCoords
          raised := false }
    | some (.ok a) =>
      if options.applyM208Limits ∧ a.finalCoords 2 < limits.axisMinimum 2 then
        some (k.limitOthers limits options true
          { finalCoords := Function.update a.finalCoords 2 (limits.axisMinimum 2), limited := true })
      else some (k.limitOthers limits options false a)
  else some (k.limitOthers limits options false { finalCoords := finalCoords, limited := false })

section Search

variable {k sqrt} {initialCoords : ℕ → α} {dx dy dz t : α} {tower : ℕ}
  {s s' : LineSearch α}

/-- The rod of a tower along the line. -/
def rod (k : LinearDeltaKinematics α) (initialCoords : ℕ → α) (dx dy : α) (tower : ℕ) : Rod α where
  length2 := k.D2 tower
  x := initialCoords 0 - k.towerX tower
  y := initialCoords 1 - k.towerY tower
  dx := dx
  dy := dy

/-- A tower's carriage is not too high anywhere on the line. -/
def Safe (k : LinearDeltaKinematics α) (sqrt : α → α) (initialCoords : ℕ → α) (dx dy : α)
    (tower : ℕ) (dz : α) : Prop :=
  ∀ t, 0 ≤ t → t ≤ 1 →
    k.transform sqrt (tempCoords initialCoords dx dy dz t) tower ≤
      k.homedCarriageHeights sqrt tower

/-- The variables of the search belong to the line to the final coordinates. -/
structure OnLine (initialCoords : ℕ → α) (dx dy : α) (s : LineSearch α) : Prop where
  x_eq : s.finalCoords 0 = initialCoords 0 + dx
  y_eq : s.finalCoords 1 = initialCoords 1 + dy
  z_eq : s.finalCoords 2 = initialCoords 2 + s.dz
  tdm_eq : s.tdmSquared = dx ^ 2 + dy ^ 2 + s.dz ^ 2

/-- What is known of a tower before the search: the tilts do not matter, the start is allowed, and
the rod reaches both ends of the line. -/
structure Reaches (k : LinearDeltaKinematics α) (sqrt : α → α) (initialCoords : ℕ → α) (dx dy : α)
    (tower : ℕ) : Prop where
  tower_lt : tower < k.numTowers
  level : dx * k.xTilt + dy * k.yTilt = 0
  start : k.transform sqrt initialCoords tower ≤ k.homedCarriageHeights sqrt tower
  reach_start : 0 ≤ (k.rod initialCoords dx dy tower).reach 0
  reach_end : 0 ≤ (k.rod initialCoords dx dy tower).reach 1

section Coordinates

omit [LinearOrder α]

lemma transform_congr {p q : ℕ → α} (htower : tower < k.numTowers) (hx : p 0 = q 0)
    (hy : p 1 = q 1) (hz : p 2 = q 2) : k.transform sqrt p tower = k.transform sqrt q tower := by
  rw [transform, transform, if_pos htower, if_pos htower, radicand, radicand, hx, hy, hz]

@[simp]
lemma tempCoords_zero : tempCoords initialCoords dx dy dz t 0 = initialCoords 0 + t * dx := by
  simp [tempCoords]

@[simp]
lemma tempCoords_one : tempCoords initialCoords dx dy dz t 1 = initialCoords 1 + t * dy := by
  simp [tempCoords]

@[simp]
lemma tempCoords_two : tempCoords initialCoords dx dy dz t 2 = initialCoords 2 + t * dz := by
  simp [tempCoords]

@[simp]
lemma reduce_zero (adjustment : α) :
    (reduce dx dy adjustment s).finalCoords 0 = s.finalCoords 0 := by
  simp [reduce]

@[simp]
lemma reduce_one (adjustment : α) :
    (reduce dx dy adjustment s).finalCoords 1 = s.finalCoords 1 := by
  simp [reduce]

@[simp]
lemma reduce_two (adjustment : α) :
    (reduce dx dy adjustment s).finalCoords 2 = s.finalCoords 2 - adjustment := by
  simp [reduce]

@[simp]
lemma reduce_dz (adjustment : α) : (reduce dx dy adjustment s).dz = s.dz - adjustment := rfl

lemma transform_tempCoords (htower : tower < k.numTowers) :
    k.transform sqrt (tempCoords initialCoords dx dy dz t) tower =
      (k.rod initialCoords dx dy tower).height sqrt dz t + initialCoords 2 +
        (initialCoords 0 + t * dx) * k.xTilt + (initialCoords 1 + t * dy) * k.yTilt := by
  have hreach : k.radicand (tempCoords initialCoords dx dy dz t) tower =
      (k.rod initialCoords dx dy tower).reach t := by
    rw [radicand, tempCoords_zero, tempCoords_one, Rod.reach, rod]
    ring
  rw [transform, if_pos htower, hreach, Rod.height, tempCoords_zero, tempCoords_one, tempCoords_two]
  ring

lemma OnLine.transform_eq (hs : OnLine initialCoords dx dy s) (htower : tower < k.numTowers) :
    k.transform sqrt s.finalCoords tower =
      k.transform sqrt (tempCoords initialCoords dx dy s.dz 1) tower := by
  apply transform_congr htower
  · rw [hs.x_eq, tempCoords_zero, one_mul]
  · rw [hs.y_eq, tempCoords_one, one_mul]
  · rw [hs.z_eq, tempCoords_two, one_mul]

lemma transform_start (htower : tower < k.numTowers) (dz : α) :
    k.transform sqrt (tempCoords initialCoords dx dy dz 0) tower =
      k.transform sqrt initialCoords tower := by
  apply transform_congr htower <;> simp

lemma OnLine.after_reduce (hs : OnLine initialCoords dx dy s) (adjustment : α) :
    OnLine initialCoords dx dy (reduce dx dy adjustment s) where
  x_eq := (reduce_zero adjustment).trans hs.x_eq
  y_eq := (reduce_one adjustment).trans hs.y_eq
  z_eq := by
    rw [reduce_two, reduce_dz, hs.z_eq]
    ring
  tdm_eq := rfl

/-- The end of a line that has been lowered. -/
lemma transform_reduce (htower : tower < k.numTowers) (adjustment : α) :
    k.transform sqrt (reduce dx dy adjustment s).finalCoords tower =
      k.transform sqrt s.finalCoords tower - adjustment := by
  rw [transform, transform, if_pos htower, if_pos htower, radicand, radicand, reduce_zero,
    reduce_one, reduce_two]
  ring

lemma OnLine.rise (hs : OnLine initialCoords dx dy s) :
    s.finalCoords 2 - initialCoords 2 = s.dz := by
  rw [hs.z_eq]
  ring

end Coordinates

variable [IsStrictOrderedRing α]

lemma Reaches.transform_eq (h : Reaches k sqrt initialCoords dx dy tower) (dz t : α) :
    k.transform sqrt (tempCoords initialCoords dx dy dz t) tower =
      (k.rod initialCoords dx dy tower).height sqrt dz t +
        (initialCoords 2 + initialCoords 0 * k.xTilt + initialCoords 1 * k.yTilt) := by
  rw [transform_tempCoords h.tower_lt]
  linear_combination t * h.level

lemma Safe.of_le {c : α} (hsafe : k.Safe sqrt initialCoords dx dy tower dz)
    (htower : tower < k.numTowers) (hle : c ≤ dz) : k.Safe sqrt initialCoords dx dy tower c := by
  intro t h0 h1
  apply le_trans _ (hsafe t h0 h1)
  rw [transform_tempCoords htower, transform_tempCoords htower]
  have hmono := Rod.height_mono (f := sqrt) (r := k.rod initialCoords dx dy tower) h0 hle
  linarith

/-- The line is as high as its highest place. -/
lemma Reaches.safe_of_le {u : α} (h : Reaches k sqrt initialCoords dx dy tower)
    (hle : ∀ t, 0 ≤ t → t ≤ 1 → (k.rod initialCoords dx dy tower).height sqrt dz t ≤
      (k.rod initialCoords dx dy tower).height sqrt dz u)
    (hu : k.transform sqrt (tempCoords initialCoords dx dy dz u) tower ≤
      k.homedCarriageHeights sqrt tower) : k.Safe sqrt initialCoords dx dy tower dz := by
  intro t h0 h1
  apply le_trans _ hu
  rw [h.transform_eq, h.transform_eq]
  linarith [hle t h0 h1]

lemma Reaches.reach (h : Reaches k sqrt initialCoords dx dy tower) (h0 : 0 ≤ t) (h1 : t ≤ 1) :
    0 ≤ (k.rod initialCoords dx dy tower).reach t := by
  have hconvex := Rod.convex_reach h.reach_start h.reach_end (sub_nonneg.mpr h1) h0 (by ring)
  simpa using hconvex

/-- The place of the maximum, as a part of the line. -/
def place (k : LinearDeltaKinematics α) (sqrt : α → α) (initialCoords : ℕ → α) (dx dy : α)
    (tower : ℕ) (s : LineSearch α) : α :=
  k.tP2Q2 sqrt initialCoords dx dy tower s / ((dx ^ 2 + dy ^ 2) * s.tdmSquared)

lemma OnLine.tdm_pos (hs : OnLine initialCoords dx dy s)
    (hP2 : 0 < dx ^ 2 + dy ^ 2) : 0 < s.tdmSquared := by
  rw [hs.tdm_eq]
  positivity

lemma Reaches.isTop (h : Reaches k sqrt initialCoords dx dy tower) (hf : IsSqrt sqrt)
    (hs : OnLine initialCoords dx dy s) (hP2 : 0 < dx ^ 2 + dy ^ 2) :
    (k.rod initialCoords dx dy tower).IsTop sqrt s.dz
      (k.place sqrt initialCoords dx dy tower s) := by
  have hpos : 0 < (k.rod initialCoords dx dy tower).P2 := hP2
  apply Rod.isTop_of_eq hf hpos (Rod.discriminant_pos h.reach_start h.reach_end hpos)
  have hne : (dx ^ 2 + dy ^ 2) * s.tdmSquared ≠ 0 := (mul_pos hP2 (hs.tdm_pos hP2)).ne'
  have hplace := div_mul_cancel₀ (k.tP2Q2 sqrt initialCoords dx dy tower s) hne
  rw [tP2Q2, hs.tdm_eq] at hplace
  rw [place, tP2Q2, hs.tdm_eq]
  exact hplace

lemma discriminant_of_still (h : dx ^ 2 + dy ^ 2 = 0) :
    k.discriminant initialCoords dx dy tower = 0 := by
  obtain ⟨hx, hy⟩ := (add_eq_zero_iff_of_nonneg (sq_nonneg dx) (sq_nonneg dy)).mp h
  rw [discriminant, h, eq_zero_of_pow_eq_zero hx, eq_zero_of_pow_eq_zero hy]
  ring

lemma Reaches.not_discriminant_neg (h : Reaches k sqrt initialCoords dx dy tower) :
    ¬ k.discriminant initialCoords dx dy tower < 0 := by
  rw [not_lt]
  rcases (add_nonneg (sq_nonneg dx) (sq_nonneg dy)).eq_or_lt with hP2 | hP2
  · rw [discriminant_of_still hP2.symm]
  · exact (Rod.discriminant_pos h.reach_start h.reach_end hP2).le

lemma beyondFinal_iff (hs : OnLine initialCoords dx dy s) (hP2 : 0 < dx ^ 2 + dy ^ 2) :
    k.BeyondFinal sqrt initialCoords dx dy tower s ↔
      1 ≤ k.place sqrt initialCoords dx dy tower s := by
  rw [BeyondFinal, place, one_le_div (mul_pos hP2 (hs.tdm_pos hP2))]

/-- If the maximum is beyond the final position, then the line is as high as its final position. -/
lemma Reaches.safe_of_final (h : Reaches k sqrt initialCoords dx dy tower) (hf : IsSqrt sqrt)
    (hs : OnLine initialCoords dx dy s) (hbeyond : k.BeyondFinal sqrt initialCoords dx dy tower s)
    (hfinal : k.transform sqrt s.finalCoords tower ≤ k.homedCarriageHeights sqrt tower) :
    k.Safe sqrt initialCoords dx dy tower s.dz := by
  rw [hs.transform_eq h.tower_lt] at hfinal
  rcases (add_nonneg (sq_nonneg dx) (sq_nonneg dy)).eq_or_lt with hP2 | hP2
  · -- a vertical line is highest at one of its ends
    obtain ⟨hx, hy⟩ := (add_eq_zero_iff_of_nonneg (sq_nonneg dx) (sq_nonneg dy)).mp hP2.symm
    have hstill : ∀ t, (k.rod initialCoords dx dy tower).reach t =
        (k.rod initialCoords dx dy tower).reach 0 := by
      intro t
      simp only [Rod.reach, rod, eq_zero_of_pow_eq_zero hx, eq_zero_of_pow_eq_zero hy, mul_zero]
    rcases le_total 0 s.dz with hup | hdown
    · refine h.safe_of_le (fun t h0 h1 => ?_) hfinal
      rw [Rod.height, Rod.height, hstill t, hstill 1]
      have := mul_le_mul_of_nonneg_right h1 hup
      linarith
    · refine h.safe_of_le (u := 0) (fun t h0 h1 => ?_) ?_
      · rw [Rod.height, Rod.height, hstill t]
        have := mul_nonpos_of_nonneg_of_nonpos h0 hdown
        linarith
      · rw [transform_start h.tower_lt]
        exact h.start
  · have htop := h.isTop hf hs hP2
    refine h.safe_of_le (fun t h0 h1 => ?_) hfinal
    exact htop.height_le_before hf hP2 (h.reach h0 h1) h1 ((beyondFinal_iff hs hP2).mp hbeyond)

lemma beyondFinal_of_still (hf : IsSqrt sqrt) (hP2 : dx ^ 2 + dy ^ 2 = 0) :
    k.BeyondFinal sqrt initialCoords dx dy tower s := by
  obtain ⟨hx, hy⟩ := (add_eq_zero_iff_of_nonneg (sq_nonneg dx) (sq_nonneg dy)).mp hP2
  have hzero : sqrt 0 = 0 := eq_zero_of_pow_eq_zero (hf.sq 0 le_rfl)
  rw [BeyondFinal, tP2Q2, discriminant_of_still hP2, hP2, zero_mul, hzero,
    eq_zero_of_pow_eq_zero hx, eq_zero_of_pow_eq_zero hy]
  simp

/-- If the maximum is beyond neither end, then the line is as high as its maximum; if it is before
the initial position, then as the initial position. -/
lemma Reaches.safe_of_place (h : Reaches k sqrt initialCoords dx dy tower) (hf : IsSqrt sqrt)
    (hs : OnLine initialCoords dx dy s)
    (hbeyond : ¬ k.BeyondFinal sqrt initialCoords dx dy tower s)
    (hplace : k.tP2Q2 sqrt initialCoords dx dy tower s > 0 →
      k.transform sqrt (tempCoords initialCoords dx dy s.dz
        (k.place sqrt initialCoords dx dy tower s)) tower ≤ k.homedCarriageHeights sqrt tower) :
    k.Safe sqrt initialCoords dx dy tower s.dz := by
  rcases (add_nonneg (sq_nonneg dx) (sq_nonneg dy)).eq_or_lt with hP2 | hP2
  · exact absurd (beyondFinal_of_still hf hP2.symm) hbeyond
  · have htop := h.isTop hf hs hP2
    have htdm := mul_pos hP2 (hs.tdm_pos hP2)
    by_cases hpos : k.tP2Q2 sqrt initialCoords dx dy tower s > 0
    · refine h.safe_of_le (fun t h0 h1 => ?_) (hplace hpos)
      exact htop.height_le hf hP2 (h.reach h0 h1)
    · refine h.safe_of_le (u := 0) (fun t h0 h1 => ?_) ?_
      · have hbefore : k.place sqrt initialCoords dx dy tower s ≤ 0 :=
          div_nonpos_of_nonpos_of_nonneg (not_lt.mp hpos) htdm.le
        exact htop.height_le_after hf hP2 (h.reach h0 h1) hbefore h0
      · rw [transform_start h.tower_lt]
        exact h.start

/-- A repeated pass has lowered the final position by half a millimetre or more, but not below the
initial position. -/
lemma pass_again (hp : k.pass sqrt initialCoords dx dy tower s = .again s') :
    ∃ adjustment, 1 / 2 ≤ adjustment ∧ adjustment ≤ s.dz ∧ s' = reduce dx dy adjustment s := by
  rw [pass] at hp
  split_ifs at hp with hdisc hbeyond hpos
  dsimp only at hp
  split_ifs at hp with hhigh hroom
  obtain rfl := Pass.again.inj hp
  refine ⟨_, ?_, hroom, rfl⟩
  linarith

lemma Reaches.pass_done {limitFinalHeight : Bool} (h : Reaches k sqrt initialCoords dx dy tower)
    (hf : IsSqrt sqrt) (hs : OnLine initialCoords dx dy s)
    (hp : k.pass sqrt initialCoords dx dy tower s = .done limitFinalHeight) :
    if limitFinalHeight then k.BeyondFinal sqrt initialCoords dx dy tower s
    else k.Safe sqrt initialCoords dx dy tower s.dz := by
  rw [pass, if_neg h.not_discriminant_neg] at hp
  split_ifs at hp with hbeyond hpos
  · obtain rfl := (Pass.done.inj hp).symm
    exact hbeyond
  · dsimp only at hp
    split_ifs at hp with hhigh hroom
    obtain rfl := (Pass.done.inj hp).symm
    exact h.safe_of_place hf hs hbeyond fun _ => not_lt.mp hhigh
  · obtain rfl := (Pass.done.inj hp).symm
    exact h.safe_of_place hf hs hbeyond fun hpos' => absurd hpos' hpos

lemma Reaches.passes_ok {limitFinalHeight : Bool} {fuel : ℕ}
    (h : Reaches k sqrt initialCoords dx dy tower) (hf : IsSqrt sqrt)
    (hs : OnLine initialCoords dx dy s)
    (hp : k.passes sqrt initialCoords dx dy tower fuel s = some (.ok (limitFinalHeight, s'))) :
    OnLine initialCoords dx dy s' ∧ s'.dz ≤ s.dz ∧
      if limitFinalHeight then k.BeyondFinal sqrt initialCoords dx dy tower s'
      else k.Safe sqrt initialCoords dx dy tower s'.dz := by
  induction fuel generalizing s with
  | zero => cases hp
  | succ fuel ih =>
    rw [passes] at hp
    cases hpass : k.pass sqrt initialCoords dx dy tower s with
    | done b =>
      rw [hpass] at hp
      obtain ⟨rfl, rfl⟩ := Prod.mk.inj (Except.ok.inj (Option.some.inj hp))
      exact ⟨hs, le_rfl, h.pass_done hf hs hpass⟩
    | again s1 =>
      rw [hpass] at hp
      obtain ⟨adjustment, hhalf, -, rfl⟩ := pass_again hpass
      obtain ⟨hs', hle, hkept⟩ := ih (hs.after_reduce adjustment) hp
      refine ⟨hs', hle.trans ?_, hkept⟩
      rw [reduce_dz]
      linarith
    | unreachable =>
      rw [hpass] at hp
      cases hp

/-- Where a check of the final position lowers it, the lowered line is safe for the tower exactly if
its maximum is still beyond the final position. -/
lemma Reaches.safe_reduce_iff (h : Reaches k sqrt initialCoords dx dy tower) (hf : IsSqrt sqrt)
    (hs : OnLine initialCoords dx dy s) :
    k.Safe sqrt initialCoords dx dy tower (reduce dx dy (k.excess sqrt tower s) s).dz ↔
      k.BeyondFinal sqrt initialCoords dx dy tower (reduce dx dy (k.excess sqrt tower s) s) := by
  have hs' := hs.after_reduce (k.excess sqrt tower s)
  have hfinal : k.transform sqrt (reduce dx dy (k.excess sqrt tower s) s).finalCoords tower =
      k.homedCarriageHeights sqrt tower := by
    rw [transform_reduce h.tower_lt, excess, sub_sub_cancel]
  generalize reduce dx dy (k.excess sqrt tower s) s = s1 at *
  refine ⟨fun hsafe => ?_, fun hbeyond => h.safe_of_final hf hs' hbeyond hfinal.le⟩
  by_contra hbefore
  have hP2 : 0 < (k.rod initialCoords dx dy tower).P2 := by
    rcases (add_nonneg (sq_nonneg dx) (sq_nonneg dy)).eq_or_lt with hP2 | hP2
    · exact absurd (beyondFinal_of_still hf hP2.symm) hbefore
    · exact hP2
  have htop := h.isTop hf hs' hP2
  rw [beyondFinal_iff hs' hP2, not_le] at hbefore
  generalize k.place sqrt initialCoords dx dy tower s1 = p at *
  have hend : k.transform sqrt s1.finalCoords tower =
      k.transform sqrt (tempCoords initialCoords dx dy s1.dz 1) tower :=
    hs'.transform_eq h.tower_lt
  rw [h.transform_eq, hfinal] at hend
  -- neither the maximum nor the initial position may be higher than the final one
  have hle : ∀ t, 0 ≤ t → t ≤ 1 → (k.rod initialCoords dx dy tower).height sqrt s1.dz t ≤
      (k.rod initialCoords dx dy tower).height sqrt s1.dz 1 := by
    intro t h0 h1
    have ht := hsafe t h0 h1
    rw [h.transform_eq, hend] at ht
    linarith
  rcases le_or_gt 0 p with hpos | hneg
  · exact (hle p hpos hbefore.le).not_gt (htop.height_lt hf hP2 h.reach_end hbefore.ne')
  · exact (hle 0 le_rfl zero_le_one).not_gt
      (htop.height_lt_after hf hP2 h.reach_start h.reach_end hneg zero_lt_one)

/-- If the check of the final position lowers it, the maximum on the lowered line is still beyond
it. -/
def KeepsMaximum (k : LinearDeltaKinematics α) (sqrt : α → α) (initialCoords : ℕ → α) (dx dy : α)
    (tower : ℕ) (s : LineSearch α) : Prop :=
  k.transform sqrt s.finalCoords tower > k.homedCarriageHeights sqrt tower →
    s.dz ≥ k.excess sqrt tower s →
      k.BeyondFinal sqrt initialCoords dx dy tower (reduce dx dy (k.excess sqrt tower s) s)

/-- The final coordinates are at the end of a line that is not above another. -/
structure EndsBelow (initialCoords : ℕ → α) (dx dy dz : α) (a : Adjusted α) : Prop where
  x_eq : a.finalCoords 0 = initialCoords 0 + dx
  y_eq : a.finalCoords 1 = initialCoords 1 + dy
  z_le : a.finalCoords 2 - initialCoords 2 ≤ dz

omit [IsStrictOrderedRing α] in
lemma EndsBelow.of_le {c : α} {a : Adjusted α} (h : EndsBelow initialCoords dx dy c a)
    (hle : c ≤ dz) : EndsBelow initialCoords dx dy dz a :=
  ⟨h.x_eq, h.y_eq, h.z_le.trans hle⟩

omit [IsStrictOrderedRing α] in
lemma OnLine.endsBelow (hs : OnLine initialCoords dx dy s) :
    EndsBelow initialCoords dx dy s.dz s.toAdjusted :=
  ⟨hs.x_eq, hs.y_eq, hs.rise.le⟩

omit [IsStrictOrderedRing α] in
/-- What the check of the final position can do. -/
lemma limitFinal_ok (hl : k.limitFinal sqrt dx dy tower s = .ok s') :
    (k.transform sqrt s.finalCoords tower > k.homedCarriageHeights sqrt tower ∧
      s.dz ≥ k.excess sqrt tower s ∧
      s'.toAdjusted = (reduce dx dy (k.excess sqrt tower s) s).toAdjusted ∧
      (tower + 1 < k.numTowers → s' = reduce dx dy (k.excess sqrt tower s) s)) ∨
    (k.transform sqrt s.finalCoords tower ≤ k.homedCarriageHeights sqrt tower ∧ s' = s) := by
  rw [limitFinal] at hl
  by_cases hhigh : k.transform sqrt s.finalCoords tower > k.homedCarriageHeights sqrt tower
  · rw [if_pos hhigh] at hl
    by_cases hroom : s.dz ≥ k.excess sqrt tower s
    · rw [if_pos hroom] at hl
      refine .inl ⟨hhigh, hroom, ?_⟩
      by_cases hmore : tower + 1 < k.numTowers
      · obtain rfl := Except.ok.inj ((if_pos hmore).symm.trans hl)
        exact ⟨rfl, fun _ => rfl⟩
      · obtain rfl := Except.ok.inj ((if_neg hmore).symm.trans hl)
        exact ⟨rfl, fun hmore' => absurd hmore' hmore⟩
    · rw [if_neg hroom] at hl
      cases hl
  · rw [if_neg hhigh] at hl
    exact .inr ⟨not_lt.mp hhigh, (Except.ok.inj hl).symm⟩

lemma excess_pos (h : k.transform sqrt s.finalCoords tower > k.homedCarriageHeights sqrt tower) :
    0 < k.excess sqrt tower s :=
  sub_pos.mpr h

lemma OnLine.after_limitFinal (hs : OnLine initialCoords dx dy s)
    (hl : k.limitFinal sqrt dx dy tower s = .ok s') :
    EndsBelow initialCoords dx dy s.dz s'.toAdjusted ∧
      (tower + 1 < k.numTowers → OnLine initialCoords dx dy s' ∧ s'.dz ≤ s.dz) := by
  rcases limitFinal_ok hl with ⟨hhigh, -, hadjusted, hmore⟩ | ⟨-, rfl⟩
  · have hs' := hs.after_reduce (k.excess sqrt tower s)
    have hle : (reduce dx dy (k.excess sqrt tower s) s).dz ≤ s.dz :=
      sub_le_self _ (excess_pos hhigh).le
    rw [hadjusted]
    refine ⟨hs'.endsBelow.of_le hle, fun h => ?_⟩
    rw [hmore h]
    exact ⟨hs', hle⟩
  · exact ⟨hs.endsBelow, fun _ => ⟨hs, le_rfl⟩⟩

lemma Reaches.limitFinal_safe_iff (h : Reaches k sqrt initialCoords dx dy tower)
    (hf : IsSqrt sqrt) (hs : OnLine initialCoords dx dy s)
    (hbeyond : k.BeyondFinal sqrt initialCoords dx dy tower s)
    (hl : k.limitFinal sqrt dx dy tower s = .ok s') :
    k.Safe sqrt initialCoords dx dy tower (s'.finalCoords 2 - initialCoords 2) ↔
      k.KeepsMaximum sqrt initialCoords dx dy tower s := by
  rcases limitFinal_ok hl with ⟨hhigh, hroom, hadjusted, -⟩ | ⟨hlow, rfl⟩
  · rw [hadjusted, (hs.after_reduce (k.excess sqrt tower s)).rise, h.safe_reduce_iff hf hs]
    exact ⟨fun hkept _ _ => hkept, fun hkept => hkept hhigh hroom⟩
  · rw [hs.rise]
    exact ⟨fun _ hhigh => absurd hhigh hlow.not_gt,
      fun _ => h.safe_of_final hf hs hbeyond hlow⟩

/-- The check of the final position, if the search comes to it, keeps the maximum beyond it. -/
def GuardsTower (k : LinearDeltaKinematics α) (sqrt : α → α) (initialCoords : ℕ → α) (dx dy : α)
    (fuel tower : ℕ) (s : LineSearch α) : Prop :=
  ∀ s', k.passes sqrt initialCoords dx dy tower fuel s = some (.ok (true, s')) →
    k.KeepsMaximum sqrt initialCoords dx dy tower s'

/-- A tower leaves a line that is not above the one it finds. -/
lemma Reaches.limitTower_line {fuel : ℕ} (h : Reaches k sqrt initialCoords dx dy tower)
    (hf : IsSqrt sqrt) (hs : OnLine initialCoords dx dy s)
    (hl : k.limitTower sqrt initialCoords dx dy fuel tower s = some (.ok s')) :
    EndsBelow initialCoords dx dy s.dz s'.toAdjusted ∧
      (tower + 1 < k.numTowers → OnLine initialCoords dx dy s' ∧ s'.dz ≤ s.dz) ∧
      (k.Safe sqrt initialCoords dx dy tower (s'.finalCoords 2 - initialCoords 2) ↔
        k.GuardsTower sqrt initialCoords dx dy fuel tower s) := by
  rw [limitTower] at hl
  match hp : k.passes sqrt initialCoords dx dy tower fuel s with
  | none =>
    rw [hp] at hl
    cases hl
  | some (.error s1) =>
    rw [hp] at hl
    cases hl
  | some (.ok (true, s1)) =>
    rw [hp] at hl
    obtain ⟨hs1, hle, hbeyond⟩ := h.passes_ok hf hs hp
    obtain ⟨hends, hnext⟩ := hs1.after_limitFinal (Option.some.inj hl)
    refine ⟨hends.of_le hle, fun hmore => ⟨(hnext hmore).1, (hnext hmore).2.trans hle⟩, ?_⟩
    rw [h.limitFinal_safe_iff hf hs1 hbeyond (Option.some.inj hl)]
    refine ⟨fun hkept s2 hs2 => ?_, fun hguards => hguards s1 hp⟩
    obtain rfl : s1 = s2 := congrArg Prod.snd (Except.ok.inj (Option.some.inj (hp.symm.trans hs2)))
    exact hkept
  | some (.ok (false, s1)) =>
    rw [hp] at hl
    obtain rfl := Except.ok.inj (Option.some.inj hl)
    obtain ⟨hs1, hle, hsafe⟩ := h.passes_ok hf hs hp
    refine ⟨hs1.endsBelow.of_le hle, fun _ => ⟨hs1, hle⟩, fun _ s2 hs2 => ?_, fun _ => ?_⟩
    · have hb := congrArg Prod.fst (Except.ok.inj (Option.some.inj (hp.symm.trans hs2)))
      exact absurd hb Bool.false_ne_true
    · rw [hs1.rise]
      exact hsafe

/-- No check of the final position, of the ones that the search comes to, moves the maximum before
the final position. -/
def Guarded (k : LinearDeltaKinematics α) (sqrt : α → α) (initialCoords : ℕ → α) (dx dy : α)
    (fuel : ℕ) : List ℕ → LineSearch α → Prop
  | [], _ => True
  | tower :: towers, s =>
    ∀ s', k.limitTower sqrt initialCoords dx dy fuel tower s = some (.ok s') →
      k.GuardsTower sqrt initialCoords dx dy fuel tower s ∧
        Guarded k sqrt initialCoords dx dy fuel towers s'

/-- Every tower leaves a line that is safe for it. -/
def Checked (k : LinearDeltaKinematics α) (sqrt : α → α) (initialCoords : ℕ → α) (dx dy : α)
    (fuel : ℕ) : List ℕ → LineSearch α → Prop
  | [], _ => True
  | tower :: towers, s =>
    ∀ s', k.limitTower sqrt initialCoords dx dy fuel tower s = some (.ok s') →
      k.Safe sqrt initialCoords dx dy tower (s'.finalCoords 2 - initialCoords 2) ∧
        Checked k sqrt initialCoords dx dy fuel towers s'

lemma checked_iff_guarded {fuel first n : ℕ} (hf : IsSqrt sqrt)
    (hreaches : ∀ tower < k.numTowers, Reaches k sqrt initialCoords dx dy tower)
    (hn : first + n = k.numTowers) (hs : OnLine initialCoords dx dy s) :
    k.Checked sqrt initialCoords dx dy fuel (List.range' first n) s ↔
      k.Guarded sqrt initialCoords dx dy fuel (List.range' first n) s := by
  induction n generalizing first s with
  | zero => exact Iff.rfl
  | succ n ih =>
    rw [List.range'_succ, Checked, Guarded]
    refine forall₂_congr fun s1 hp => ?_
    obtain ⟨-, hnext, hsafe⟩ := (hreaches first (by omega)).limitTower_line hf hs hp
    rw [hsafe]
    rcases Nat.eq_zero_or_pos n with rfl | hpos
    · exact Iff.rfl
    · rw [ih (by omega) (hnext (by omega)).1]

/-- What the towers have left is safe for all of them if each leaves a line that is safe for it. -/
lemma limitTowers_ok {fuel first n : ℕ} (hf : IsSqrt sqrt)
    (hreaches : ∀ tower < k.numTowers, Reaches k sqrt initialCoords dx dy tower)
    (hn : first + n = k.numTowers) (hs : OnLine initialCoords dx dy s)
    (hchecked : k.Checked sqrt initialCoords dx dy fuel (List.range' first n) s)
    (hl : k.limitTowers sqrt initialCoords dx dy fuel (List.range' first n) s = some (.ok s')) :
    EndsBelow initialCoords dx dy s.dz s'.toAdjusted ∧
      ∀ tower, first ≤ tower → tower < k.numTowers →
        k.Safe sqrt initialCoords dx dy tower (s'.finalCoords 2 - initialCoords 2) := by
  induction n generalizing first s with
  | zero =>
    obtain rfl := Except.ok.inj (Option.some.inj hl)
    exact ⟨hs.endsBelow, fun tower hle hlt => absurd hlt (by omega)⟩
  | succ n ih =>
    rw [List.range'_succ] at hl hchecked
    rw [limitTowers] at hl
    match hp : k.limitTower sqrt initialCoords dx dy fuel first s with
    | none =>
      rw [hp] at hl
      cases hl
    | some (.error s1) =>
      rw [hp] at hl
      cases hl
    | some (.ok s1) =>
      rw [hp] at hl
      obtain ⟨hends, hnext, -⟩ := (hreaches first (by omega)).limitTower_line hf hs hp
      obtain ⟨hsafe, hrest⟩ := hchecked s1 hp
      rcases Nat.eq_zero_or_pos n with rfl | hpos
      · obtain rfl := Except.ok.inj (Option.some.inj hl)
        refine ⟨hends, fun tower hle hlt => ?_⟩
        obtain rfl : tower = first := by omega
        exact hsafe
      · obtain ⟨hs1, hle1⟩ := hnext (by omega)
        obtain ⟨hends', hall⟩ := ih (by omega) hs1 hrest hl
        refine ⟨hends'.of_le hle1, fun tower hle hlt => ?_⟩
        rcases hle.eq_or_lt with rfl | hlater
        · rw [hs1.rise] at hsafe
          exact hsafe.of_le hlt hends'.z_le
        · exact hall tower hlater hlt

end Search

end LinearDeltaKinematics

end RepRapFirmware.Movement
