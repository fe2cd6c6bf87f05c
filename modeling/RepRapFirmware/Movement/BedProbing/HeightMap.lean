import Mathlib
import RepRapFirmware.Movement.BedProbing.Grid

/-! The heights at the points of a grid, and the height between the points. -/

namespace RepRapFirmware.Movement.BedProbing

structure HeightMap where
  grid : GridDefinition
  -- What lies behind the array can be read too.
  gridHeights : ℕ → ℚ
  gridHeightSet : Finset ℕ
  fileName : List Char
  useMap : Bool

namespace HeightMap

def getMapIndex (map : HeightMap) (axis0Index axis1Index : ℕ) : ℕ :=
  (axis1Index * map.grid.nums 0 + axis0Index) % 2 ^ 32

def useHeightMap (b : Bool) (map : HeightMap) : HeightMap :=
  { map with useMap := b && map.grid.isValid }

def interpolateAxis0Axis1 (map : HeightMap) (axis0Index axis1Index : ℕ)
    (axis0Frac axis1Frac : ℚ) : ℚ :=
  let indexX0Y0 := map.getMapIndex axis0Index axis1Index
  let indexX1Y0 := (indexX0Y0 + 1) % 2 ^ 32
  let indexX0Y1 := (indexX0Y0 + map.grid.nums 0) % 2 ^ 32
  let indexX1Y1 := (indexX0Y1 + 1) % 2 ^ 32
  let xyFrac := axis0Frac * axis1Frac
  map.gridHeights indexX0Y0 * (1 - axis0Frac - axis1Frac + xyFrac) +
    map.gridHeights indexX1Y0 * (axis0Frac - xyFrac) +
    map.gridHeights indexX0Y1 * (axis1Frac - xyFrac) +
    map.gridHeights indexX1Y1 * xyFrac

def fEPSILON : ℚ := 1 / 100

/-- The last point of an axis. -/
def lastPoint (map : HeightMap) (axis : Fin 2) : ℚ :=
  map.grid.mins axis + ((map.grid.nums axis + 2 ^ 32 - 1) % 2 ^ 32 : ℕ) * map.grid.spacings axis

def clampToGrid (map : HeightMap) (axis : Fin 2) (x : ℚ) : ℚ :=
  let x := if x < map.grid.mins axis then map.grid.mins axis else x
  if map.lastPoint axis - fEPSILON < x then map.lastPoint axis - fEPSILON else x

/-- The coordinate in spacings from the first point. -/
def gridPosition (map : HeightMap) (axis : Fin 2) (x : ℚ) : ℚ :=
  (map.clampToGrid axis x - map.grid.mins axis) * map.grid.recipAxisSpacings axis

/-- The conversion to `int32_t`, which stops at the ends of its range. -/
def toInt32 (z : ℤ) : ℤ := max (-2 ^ 31) (min z (2 ^ 31 - 1))

def gridIndex (map : HeightMap) (axis : Fin 2) (x : ℚ) : ℤ := toInt32 ⌊map.gridPosition axis x⌋

def gridFraction (map : HeightMap) (axis : Fin 2) (x : ℚ) : ℚ :=
  map.gridPosition axis x - ⌊map.gridPosition axis x⌋

def toSize (z : ℤ) : ℕ := (z % 2 ^ 32).toNat

def getInterpolatedHeightError (map : HeightMap) (axis0 axis1 : ℚ) : ℚ :=
  if map.useMap then
    map.interpolateAxis0Axis1 (toSize (map.gridIndex 0 axis0)) (toSize (map.gridIndex 1 axis1))
      (map.gridFraction 0 axis0) (map.gridFraction 1 axis1)
  else 0

/-! ### Between the points -/

/-- The height of a point of the grid. -/
def heightAt (map : HeightMap) (axis0Index axis1Index : ℕ) : ℚ :=
  map.gridHeights (axis1Index * map.grid.nums 0 + axis0Index)

/-- The interpolation at two coordinates uses four points of the grid, whose heights are stored. -/
structure StaysInside (m : Machine) (map : HeightMap) (axis0 axis1 : ℚ) : Prop where
  exists0 : 0 ≤ map.gridIndex 0 axis0 ∧ map.gridIndex 0 axis0 + 1 < map.grid.nums 0
  exists1 : 0 ≤ map.gridIndex 1 axis1 ∧ map.gridIndex 1 axis1 + 1 < map.grid.nums 1
  stored : (map.gridIndex 1 axis1 + 1) * map.grid.nums 0 + (map.gridIndex 0 axis0 + 1) <
    m.board.maxGridProbePoints
  fraction0 : 0 ≤ map.gridFraction 0 axis0 ∧ map.gridFraction 0 axis0 ≤ 1
  fraction1 : 0 ≤ map.gridFraction 1 axis1 ∧ map.gridFraction 1 axis1 ≤ 1
  between :
    let x := (map.gridIndex 0 axis0).toNat
    let y := (map.gridIndex 1 axis1).toNat
    min (min (map.heightAt x y) (map.heightAt (x + 1) y))
        (min (map.heightAt x (y + 1)) (map.heightAt (x + 1) (y + 1))) ≤
      map.getInterpolatedHeightError axis0 axis1 ∧
    map.getInterpolatedHeightError axis0 axis1 ≤
      max (max (map.heightAt x y) (map.heightAt (x + 1) y))
        (max (map.heightAt x (y + 1)) (map.heightAt (x + 1) (y + 1)))

/-- There is a cell between the points, and the count of the points is not cut. -/
structure HasCells (g : GridDefinition) : Prop where
  axis0 : 2 ≤ g.nums 0
  axis1 : 2 ≤ g.nums 1
  fits : g.nums 0 * g.nums 1 < 2 ^ 32

instance (g : GridDefinition) : Decidable (HasCells g) :=
  decidable_of_iff (2 ≤ g.nums 0 ∧ 2 ≤ g.nums 1 ∧ g.nums 0 * g.nums 1 < 2 ^ 32)
    ⟨fun h => ⟨h.1, h.2.1, h.2.2⟩, fun h => ⟨h.1, h.2, h.3⟩⟩

variable {m : Machine} {map : HeightMap} {axis : Fin 2} {x axis0 axis1 : ℚ} {n : ℕ}

section Axis

lemma lastPoint_eq (hnum : 1 ≤ map.grid.nums axis) (hlt : map.grid.nums axis < 2 ^ 32) :
    map.lastPoint axis =
      map.grid.mins axis + (map.grid.nums axis - 1 : ℕ) * map.grid.spacings axis := by
  have hmod : (map.grid.nums axis + 2 ^ 32 - 1) % 2 ^ 32 = map.grid.nums axis - 1 := by
    omega
  rw [lastPoint, hmod]

lemma gridFraction_bounds : 0 ≤ map.gridFraction axis x ∧ map.gridFraction axis x ≤ 1 :=
  ⟨Int.fract_nonneg _, (Int.fract_lt_one _).le⟩

lemma clampToGrid_eq :
    map.clampToGrid axis x = min (map.lastPoint axis - fEPSILON) (max x (map.grid.mins axis)) := by
  rw [clampToGrid, min_def_lt, max_def_lt]

lemma toInt32_of_range {z : ℤ} (hlow : 0 ≤ z) (hhigh : z < 2 ^ 31) : toInt32 z = z := by
  rw [toInt32, min_eq_left (by omega), max_eq_right (by omega)]

lemma toSize_natCast (h : n < 2 ^ 32) : toSize n = n := by
  rw [toSize]
  omega

variable (hspacing : 1 / 10 ≤ map.grid.spacings axis)
  (hrecip : map.grid.recipAxisSpacings axis = 1 / map.grid.spacings axis)
  (hlt : map.grid.nums axis < 2 ^ 32)

include hspacing hlt in
lemma clampToGrid_bounds (htwo : 2 ≤ map.grid.nums axis) :
    map.grid.mins axis ≤ map.clampToGrid axis x ∧
      map.clampToGrid axis x < map.lastPoint axis := by
  have hlast : map.grid.mins axis ≤ map.lastPoint axis - fEPSILON := by
    rw [lastPoint_eq (by omega) (by omega), fEPSILON]
    have hone : (1 : ℚ) ≤ (map.grid.nums axis - 1 : ℕ) := by
      exact_mod_cast (by omega : 1 ≤ map.grid.nums axis - 1)
    have hmul := mul_le_mul hone hspacing (by norm_num) (by positivity)
    linarith
  have hless : map.lastPoint axis - fEPSILON < map.lastPoint axis :=
    sub_lt_self _ (by norm_num [fEPSILON])
  rw [clampToGrid_eq]
  exact ⟨le_min hlast (le_max_right _ _), (min_le_left _ _).trans_lt hless⟩

include hspacing hrecip hlt in
lemma gridPosition_bounds (htwo : 2 ≤ map.grid.nums axis) :
    0 ≤ map.gridPosition axis x ∧ map.gridPosition axis x < (map.grid.nums axis - 1 : ℕ) := by
  have hpos : 0 < map.grid.spacings axis := lt_of_lt_of_le (by norm_num) hspacing
  obtain ⟨hlow, hhigh⟩ := clampToGrid_bounds (x := x) hspacing hlt htwo
  rw [lastPoint_eq (by omega) (by omega)] at hhigh
  rw [gridPosition, hrecip, mul_one_div]
  exact ⟨div_nonneg (by linarith) hpos.le, (div_lt_iff₀ hpos).mpr (by linarith)⟩

include hspacing hrecip in
/-- The index is the one of a point that has a next one. -/
lemma gridIndex_bounds (hlt : map.grid.nums axis < 2 ^ 31) (htwo : 2 ≤ map.grid.nums axis) :
    0 ≤ map.gridIndex axis x ∧ map.gridIndex axis x + 1 < map.grid.nums axis := by
  obtain ⟨hlow, hhigh⟩ := gridPosition_bounds (x := x) hspacing hrecip (by omega) htwo
  have hfloor : 0 ≤ ⌊map.gridPosition axis x⌋ := Int.floor_nonneg.mpr hlow
  have hless : ⌊map.gridPosition axis x⌋ < ((map.grid.nums axis - 1 : ℕ) : ℤ) :=
    Int.floor_lt.mpr (by exact_mod_cast hhigh)
  rw [gridIndex, toInt32_of_range hfloor (by omega)]
  exact ⟨hfloor, by omega⟩

include hspacing hrecip in
/-- A single point: the clamp puts every coordinate in front of it. -/
lemma gridIndex_of_one (hone : map.grid.nums axis = 1) :
    map.gridIndex axis (map.grid.mins axis) < 0 := by
  have hpos : 0 < map.grid.spacings axis := lt_of_lt_of_le (by norm_num) hspacing
  have hlast : map.lastPoint axis = map.grid.mins axis := by
    rw [lastPoint_eq (by omega) (by omega), hone]
    simp
  have hclamp : map.clampToGrid axis (map.grid.mins axis) = map.grid.mins axis - fEPSILON := by
    rw [clampToGrid_eq, hlast, max_self]
    exact min_eq_left (sub_le_self _ (by norm_num [fEPSILON]))
  have hneg : ⌊map.gridPosition axis (map.grid.mins axis)⌋ < 0 := by
    rw [Int.floor_lt, gridPosition, hclamp, hrecip]
    have hrecippos : 0 < 1 / map.grid.spacings axis := one_div_pos.mpr hpos
    have hdiff : map.grid.mins axis - fEPSILON - map.grid.mins axis < 0 := by
      norm_num [fEPSILON]
    exact_mod_cast mul_neg_of_neg_of_pos hdiff hrecippos
  rw [gridIndex, toInt32]
  omega

include hspacing hrecip hlt in
/-- The index of a point that is not the last one. -/
lemma gridIndex_of_point (hn : n + 1 < map.grid.nums axis) (hrange : n < 2 ^ 31) :
    map.gridIndex axis (map.grid.mins axis + n * map.grid.spacings axis) = n := by
  have hpos : 0 < map.grid.spacings axis := lt_of_lt_of_le (by norm_num) hspacing
  have hlast : map.grid.mins axis + n * map.grid.spacings axis ≤ map.lastPoint axis - fEPSILON := by
    rw [lastPoint_eq (by omega) (by omega), fEPSILON]
    have hle : (n : ℚ) + 1 ≤ (map.grid.nums axis - 1 : ℕ) := by
      exact_mod_cast (by omega : n + 1 ≤ map.grid.nums axis - 1)
    have hmul := mul_le_mul_of_nonneg_right hle hpos.le
    linarith
  have hnonneg : 0 ≤ n * map.grid.spacings axis := by positivity
  have hclamp : map.clampToGrid axis (map.grid.mins axis + n * map.grid.spacings axis) =
      map.grid.mins axis + n * map.grid.spacings axis := by
    rw [clampToGrid_eq, max_eq_left (by linarith), min_eq_right hlast]
  have hposition :
      map.gridPosition axis (map.grid.mins axis + n * map.grid.spacings axis) = n := by
    rw [gridPosition, hclamp, hrecip]
    field_simp
    ring
  rw [gridIndex, hposition, Int.floor_natCast, toInt32_of_range (by omega) (by omega)]

end Axis

lemma between_ends (h h' : ℚ) {f : ℚ} (hf : 0 ≤ f ∧ f ≤ 1) :
    min h h' ≤ (1 - f) * h + f * h' ∧ (1 - f) * h + f * h' ≤ max h h' := by
  have hf' : 0 ≤ 1 - f := sub_nonneg.mpr hf.2
  have hsum : 1 - f + f = 1 := sub_add_cancel 1 f
  exact ⟨Convex.min_le_combo h h' hf' hf.1 hsum, Convex.combo_le_max h h' hf' hf.1 hsum⟩

/-- Four heights, combined by two fractions, stay between the smallest and the largest. -/
lemma between_corners {h00 h10 h01 h11 f0 f1 : ℚ} (hf0 : 0 ≤ f0 ∧ f0 ≤ 1)
    (hf1 : 0 ≤ f1 ∧ f1 ≤ 1) :
    min (min h00 h10) (min h01 h11) ≤
        h00 * (1 - f0 - f1 + f0 * f1) + h10 * (f0 - f0 * f1) + h01 * (f1 - f0 * f1) +
          h11 * (f0 * f1) ∧
      h00 * (1 - f0 - f1 + f0 * f1) + h10 * (f0 - f0 * f1) + h01 * (f1 - f0 * f1) +
          h11 * (f0 * f1) ≤
        max (max h00 h10) (max h01 h11) := by
  have hrows : h00 * (1 - f0 - f1 + f0 * f1) + h10 * (f0 - f0 * f1) + h01 * (f1 - f0 * f1) +
      h11 * (f0 * f1) =
      (1 - f1) * ((1 - f0) * h00 + f0 * h10) + f1 * ((1 - f0) * h01 + f0 * h11) := by
    ring
  obtain ⟨hlow0, hhigh0⟩ := between_ends h00 h10 hf0
  obtain ⟨hlow1, hhigh1⟩ := between_ends h01 h11 hf0
  obtain ⟨hlow, hhigh⟩ :=
    between_ends ((1 - f0) * h00 + f0 * h10) ((1 - f0) * h01 + f0 * h11) hf1
  rw [hrows]
  exact ⟨(min_le_min hlow0 hlow1).trans hlow, hhigh.trans (max_le_max hhigh0 hhigh1)⟩

/-- Four points whose indices are not cut are read as the heights of the grid. -/
lemma interpolateAxis0Axis1_eq {i j : ℕ} {f0 f1 : ℚ}
    (hfits : (j + 1) * map.grid.nums 0 + (i + 1) < 2 ^ 32) :
    map.interpolateAxis0Axis1 i j f0 f1 =
      map.heightAt i j * (1 - f0 - f1 + f0 * f1) + map.heightAt (i + 1) j * (f0 - f0 * f1) +
        map.heightAt i (j + 1) * (f1 - f0 * f1) + map.heightAt (i + 1) (j + 1) * (f0 * f1) := by
  rw [add_mul, one_mul] at hfits
  have h00 : map.getMapIndex i j = j * map.grid.nums 0 + i := Nat.mod_eq_of_lt (by omega)
  have h10 : (j * map.grid.nums 0 + i + 1) % 2 ^ 32 = j * map.grid.nums 0 + (i + 1) :=
    Nat.mod_eq_of_lt (by omega)
  have h01 : (j * map.grid.nums 0 + i + map.grid.nums 0) % 2 ^ 32 =
      (j + 1) * map.grid.nums 0 + i := by
    rw [add_mul, one_mul, Nat.mod_eq_of_lt (by omega)]
    omega
  have h11 : ((j + 1) * map.grid.nums 0 + i + 1) % 2 ^ 32 =
      (j + 1) * map.grid.nums 0 + (i + 1) := by
    rw [add_mul, one_mul, Nat.mod_eq_of_lt (by omega)]
    omega
  simp only [interpolateAxis0Axis1, h00, h10, h01, h11, heightAt]

/-- Indices of points that have next ones, in a grid that fits, stay inside the map. -/
lemma staysInside_of_indices (huse : map.useMap = true)
    (hle : map.grid.nums 0 * map.grid.nums 1 ≤ m.board.maxGridProbePoints)
    (h0 : 0 ≤ map.gridIndex 0 axis0 ∧ map.gridIndex 0 axis0 + 1 < map.grid.nums 0)
    (h1 : 0 ≤ map.gridIndex 1 axis1 ∧ map.gridIndex 1 axis1 + 1 < map.grid.nums 1) :
    StaysInside m map axis0 axis1 := by
  obtain ⟨i, hi⟩ := Int.eq_ofNat_of_zero_le h0.1
  obtain ⟨j, hj⟩ := Int.eq_ofNat_of_zero_le h1.1
  have hinum : i + 1 < map.grid.nums 0 := by
    rw [hi] at h0
    exact_mod_cast h0.2
  have hjnum : j + 1 < map.grid.nums 1 := by
    rw [hj] at h1
    exact_mod_cast h1.2
  have hrows : (j + 1) * map.grid.nums 0 + map.grid.nums 0 ≤
      map.grid.nums 0 * map.grid.nums 1 := by
    calc (j + 1) * map.grid.nums 0 + map.grid.nums 0 = map.grid.nums 0 * (j + 2) := by ring
      _ ≤ map.grid.nums 0 * map.grid.nums 1 := Nat.mul_le_mul_left _ hjnum
  have hstored : (j + 1) * map.grid.nums 0 + (i + 1) < m.board.maxGridProbePoints := by omega
  have hmax := m.board.maxGridProbePoints_le
  have hcols : map.grid.nums 0 ≤ (j + 1) * map.grid.nums 0 := Nat.le_mul_of_pos_left _ (by omega)
  have hrowcount : j + 1 ≤ (j + 1) * map.grid.nums 0 := Nat.le_mul_of_pos_right _ (by omega)
  have hresult : map.getInterpolatedHeightError axis0 axis1 =
      map.interpolateAxis0Axis1 i j (map.gridFraction 0 axis0) (map.gridFraction 1 axis1) := by
    rw [getInterpolatedHeightError, if_pos huse, hi, hj, toSize_natCast (by omega),
      toSize_natCast (by omega)]
  refine ⟨h0, h1, ?_, gridFraction_bounds, gridFraction_bounds, ?_⟩
  · rw [hi, hj]
    exact_mod_cast hstored
  · rw [hresult, hi, hj, interpolateAxis0Axis1_eq (by omega)]
    exact between_corners gridFraction_bounds gridFraction_bounds

lemma nums_pos (hv : GridDefinition.Valid m map.grid) (axis : Fin 2) :
    1 ≤ map.grid.nums axis := by
  by_contra hzero
  have hzero : map.grid.nums axis = 0 := Nat.lt_one_iff.mp (not_le.mp hzero)
  apply hv.points_pos
  fin_cases axis
  · change map.grid.nums 0 = 0 at hzero
    rw [GridDefinition.numPoints, hzero, zero_mul, Nat.zero_mod]
  · change map.grid.nums 1 = 0 at hzero
    rw [GridDefinition.numPoints, hzero, mul_zero, Nat.zero_mod]

/-- A grid whose count of points was cut has points that are not stored. -/
lemma not_staysInside_of_cut (hv : GridDefinition.Valid m map.grid)
    (hnum1 : map.grid.nums 1 < 2 ^ 32) (htwo : 2 ≤ map.grid.nums 0)
    (hcut : 2 ^ 32 ≤ map.grid.nums 0 * map.grid.nums 1) :
    ∃ axis0 axis1, ¬ StaysInside m map axis0 axis1 := by
  have hnum0 := hv.nums_le
  have hmany : 1001 < map.grid.nums 1 := by
    by_contra hfew
    have hprod := Nat.mul_le_mul hnum0 (not_lt.mp hfew)
    omega
  refine ⟨map.grid.mins 0, map.grid.mins 1 + (1000 : ℕ) * map.grid.spacings 1, fun h => ?_⟩
  have hindex := gridIndex_of_point (n := 1000) (hv.spacing 1) (hv.recip 1) hnum1 hmany
    (by norm_num)
  have hstored := h.stored
  rw [hindex] at hstored
  have hmax := m.board.maxGridProbePoints_le
  have hpos := h.exists0.1
  omega

/-- The points that the interpolation uses exist, and its result is between their heights, at all
coordinates: exactly for the grids that have two points or more along both axes and whose count of
points is not cut at 32 bits. -/
theorem staysInside_iff (haccepted : GridDefinition.Accepted m map.grid)
    (huse : map.useMap = true) :
    (∀ axis0 axis1, StaysInside m map axis0 axis1) ↔ HasCells map.grid := by
  have hv := haccepted.valid
  constructor
  · intro h
    have htwo (axis : Fin 2) (hinside : 0 ≤ map.gridIndex axis (map.grid.mins axis)) :
        2 ≤ map.grid.nums axis := by
      by_contra hfew
      have hone : map.grid.nums axis = 1 := by
        have hpos := nums_pos hv axis
        omega
      exact absurd hinside (not_le.mpr (gridIndex_of_one (hv.spacing axis) (hv.recip axis) hone))
    have hfirst := h (map.grid.mins 0) (map.grid.mins 1)
    refine ⟨htwo 0 hfirst.exists0.1, htwo 1 hfirst.exists1.1, ?_⟩
    by_contra hcut
    obtain ⟨axis0, axis1, hnot⟩ := not_staysInside_of_cut hv (haccepted.nums_lt 1)
      (htwo 0 hfirst.exists0.1) (not_lt.mp hcut)
    exact hnot (h axis0 axis1)
  · intro hcells axis0 axis1
    have hle : map.grid.nums 0 * map.grid.nums 1 ≤ m.board.maxGridProbePoints := by
      have hpoints := hv.points_le
      rwa [GridDefinition.numPoints, Nat.mod_eq_of_lt hcells.fits] at hpoints
    have hnum1 : map.grid.nums 1 ≤ m.board.maxGridProbePoints :=
      (Nat.le_mul_of_pos_left _ (nums_pos hv 0)).trans hle
    have hmax := m.board.maxGridProbePoints_le
    have hnum0 := hv.nums_le
    apply staysInside_of_indices huse hle
    · exact gridIndex_bounds (hv.spacing 0) (hv.recip 0) (by omega) hcells.axis0
    · exact gridIndex_bounds (hv.spacing 1) (hv.recip 1) (by omega) hcells.axis1

/-! ### A bed of 100 mm -/

def cartesian : Machine where
  board := .other
  maxAxes := 10
  axisLetters := ['X', 'Y', 'Z']
  numVisibleAxes := 3
  visible_le := by decide
  total_le := by decide

def squareBed (spacing : ℚ) : GridDefinition :=
  GridDefinition.set cartesian !['X', 'Y'] ![0, 100] ![0, 100] (-1) ![spacing, spacing]
    GridDefinition.undefined

/-- A height map in use, whose heights rise from point to point. -/
def risingMap (g : GridDefinition) : HeightMap where
  grid := g
  gridHeights := fun index => index
  gridHeightSet := Finset.range g.numPoints
  fileName := []
  useMap := true

lemma squareBed_accepted {spacing : ℚ} (h : (squareBed spacing).isValid = true) :
    GridDefinition.Accepted cartesian (squareBed spacing) :=
  ⟨h, Or.inl ⟨_, _, _, _, _, _, rfl⟩⟩

theorem staysInside_squareBed :
    HasCells (squareBed 20) ∧
      ((∀ axis0 axis1, StaysInside cartesian (risingMap (squareBed 20)) axis0 axis1) ↔
        HasCells (squareBed 20)) :=
  ⟨by decide +kernel, staysInside_iff (squareBed_accepted (by decide +kernel)) rfl⟩

/-- With a spacing of 200 mm there is one point, and the index in front of it is used. -/
theorem leaves_squareBed :
    (squareBed 200).isValid = true ∧
      ¬ ∀ axis0 axis1, StaysInside cartesian (risingMap (squareBed 200)) axis0 axis1 := by
  have hvalid : (squareBed 200).isValid = true := by decide +kernel
  refine ⟨hvalid, fun h => ?_⟩
  have hv := (squareBed_accepted hvalid).valid
  have hinside := (h 0 0).exists0.1
  have hmins : (squareBed 200).mins 0 = 0 := by decide +kernel
  have hindex : (risingMap (squareBed 200)).gridIndex 0 ((squareBed 200).mins 0) < 0 :=
    gridIndex_of_one (hv.spacing 0) (hv.recip 0) (by decide +kernel)
  rw [hmins] at hindex
  omega

end HeightMap

end RepRapFirmware.Movement.BedProbing
