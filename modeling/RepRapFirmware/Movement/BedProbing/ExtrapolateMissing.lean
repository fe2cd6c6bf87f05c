import Mathlib
import RepRapFirmware.Library.LeastSquares
import RepRapFirmware.Movement.BedProbing.HeightMap

/-! The heights of the points that were not probed: from the points around them, or from the plane
through the points that were probed. -/

namespace RepRapFirmware.Movement.BedProbing.HeightMap

open Library.LeastSquares

/-- What the build gives to the height map: whether probe points files are supported, and the
square root function. -/
structure Build where
  supportProbePointsFile : Bool
  fastSqrtf : ℚ → ℚ

/-- The points of the grid, in the order of the loops. -/
def gridPoints (g : GridDefinition) : List (ℕ × ℕ) :=
  (List.range (g.nums 1)).flatMap fun iAxis1 =>
    (List.range (g.nums 0)).map fun iAxis0 => (iAxis0, iAxis1)

def isSet (map : HeightMap) (p : ℕ × ℕ) : Prop := map.getMapIndex p.1 p.2 ∈ map.gridHeightSet

instance (map : HeightMap) (p : ℕ × ℕ) : Decidable (map.isSet p) :=
  inferInstanceAs (Decidable (map.getMapIndex p.1 p.2 ∈ map.gridHeightSet))

def pointHeight (map : HeightMap) (p : ℕ × ℕ) : ℚ := map.gridHeights (map.getMapIndex p.1 p.2)

/-- The points that the sums run over. -/
def probed (map : HeightMap) : Finset (ℕ × ℕ) := (gridPoints map.grid).toFinset.filter map.isSet

def coordinate (g : GridDefinition) (axis : Fin 2) (p : ℕ × ℕ) : ℚ :=
  g.spacings axis * (if axis = 0 then p.1 else p.2) + g.mins axis

/-- The plane through the probed points: the heights are `(d - (a * x + b * y)) * invC`. -/
structure Plane where
  a : ℚ
  b : ℚ
  d : ℚ
  invC : ℚ

def Plane.height (plane : Plane) (fAxis0 fAxis1 : ℚ) : ℚ :=
  (plane.d - (plane.a * fAxis0 + plane.b * fAxis1)) * plane.invC

/-- The plane from the means and the covariances, or `none` where they do not give one. -/
def planeEquation (build : Build) (centAxis0 centAxis1 centZ axis0Axis0 axis0Axis1 axis0z
    axis1Axis1 axis1z : ℚ) : Option Plane :=
  let detZ := axis0Axis0 * axis1Axis1 - axis0Axis1 * axis0Axis1
  if detZ ≤ 0 then none
  else
    let a := (axis1z * axis0Axis1 - axis0z * axis1Axis1) / detZ
    let b := (axis0z * axis0Axis1 - axis1z * axis0Axis0) / detZ
    let invC := build.fastSqrtf (a * a + b * b + 1)
    let normLenInv := 1 / invC
    let a := a * normLenInv
    let b := b * normLenInv
    let c := normLenInv
    some ⟨a, b, centAxis0 * a + centAxis1 * b + centZ * c, invC⟩

def fitPlane (map : HeightMap) (build : Build) : Option Plane :=
  let fAxis0 := coordinate map.grid 0
  let fAxis1 := coordinate map.grid 1
  let fZ := map.pointHeight
  let invN := 1 / (map.probed.card : ℚ)
  let centAxis0 := (∑ p ∈ map.probed, fAxis0 p) * invN
  let centAxis1 := (∑ p ∈ map.probed, fAxis1 p) * invN
  let centZ := (∑ p ∈ map.probed, fZ p) * invN
  planeEquation build centAxis0 centAxis1 centZ
    (∑ p ∈ map.probed, (fAxis0 p - centAxis0) * (fAxis0 p - centAxis0))
    (∑ p ∈ map.probed, (fAxis0 p - centAxis0) * (fAxis1 p - centAxis1))
    (∑ p ∈ map.probed, (fAxis0 p - centAxis0) * (fZ p - centZ))
    (∑ p ∈ map.probed, (fAxis1 p - centAxis1) * (fAxis1 p - centAxis1))
    (∑ p ∈ map.probed, (fAxis1 p - centAxis1) * (fZ p - centZ))

/-- Two points count if both are set. -/
def addPair (map : HeightMap) (p q : ℕ × ℕ) (sum : ℚ × ℕ) : ℚ × ℕ :=
  if map.isSet p ∧ map.isSet q then (sum.1 + (map.pointHeight p + map.pointHeight q), sum.2 + 2)
  else sum

def interpolateMissingPoint (map : HeightMap) (axis0Index axis1Index : ℕ) : Option ℚ :=
  let inside0 : Bool := axis0Index ≠ 0 ∧ axis0Index + 1 < map.grid.nums 0
  let inside1 : Bool := axis1Index ≠ 0 ∧ axis1Index + 1 < map.grid.nums 1
  let sum : ℚ × ℕ := (0, 0)
  let sum :=
    if inside0 then
      map.addPair (axis0Index - 1, axis1Index) (axis0Index + 1, axis1Index) sum
    else sum
  let sum :=
    if inside1 then
      map.addPair (axis0Index, axis1Index - 1) (axis0Index, axis1Index + 1) sum
    else sum
  let sum :=
    if inside1 ∧ sum.2 < 4 ∧ inside0 then
      map.addPair (axis0Index - 1, axis1Index + 1) (axis0Index + 1, axis1Index - 1)
        (map.addPair (axis0Index - 1, axis1Index - 1) (axis0Index + 1, axis1Index + 1) sum)
    else sum
  if sum.2 ≠ 0 then some (sum.1 / sum.2) else none

def missingHeight (map : HeightMap) (build : Build) (plane : Plane) (p : ℕ × ℕ) : ℚ :=
  let extrapolated := plane.height (coordinate map.grid 0 p) (coordinate map.grid 1 p)
  if build.supportProbePointsFile then (map.interpolateMissingPoint p.1 p.2).getD extrapolated
  else extrapolated

/-- One turn of the last loop. -/
def fillPoint (build : Build) (plane : Plane) (map : HeightMap) (p : ℕ × ℕ) : HeightMap :=
  if map.isSet p then map
  else
    { map with
      gridHeights := Function.update map.gridHeights (map.getMapIndex p.1 p.2)
        (map.missingHeight build plane p) }

def extrapolateMissing (build : Build) (map : HeightMap) : HeightMap :=
  match map.fitPlane build with
  | none => map
  | some plane => (gridPoints map.grid).foldl (fillPoint build plane) map

/-! ### What the missing heights depend on -/

/-- The maps differ at points that were not probed, at most. -/
structure SameProbed (map map' : HeightMap) : Prop where
  grid : map.grid = map'.grid
  heightSet : map.gridHeightSet = map'.gridHeightSet
  heights : ∀ index ∈ map.gridHeightSet, map.gridHeights index = map'.gridHeights index

variable {build : Build} {map map' map'' : HeightMap} {plane : Plane} {p q : ℕ × ℕ} {m : Machine}

@[simp]
lemma mem_gridPoints {g : GridDefinition} :
    p ∈ gridPoints g ↔ p.1 < g.nums 0 ∧ p.2 < g.nums 1 := by
  obtain ⟨i, j⟩ := p
  simp [gridPoints, and_comm]

lemma mem_probed :
    p ∈ map.probed ↔ (p.1 < map.grid.nums 0 ∧ p.2 < map.grid.nums 1) ∧ map.isSet p := by
  rw [probed, Finset.mem_filter, List.mem_toFinset, mem_gridPoints]

lemma SameProbed.refl (map : HeightMap) : SameProbed map map := ⟨rfl, rfl, fun _ _ => rfl⟩

lemma SameProbed.trans (h : SameProbed map map') (h' : SameProbed map' map'') :
    SameProbed map map'' :=
  ⟨h.grid.trans h'.grid, h.heightSet.trans h'.heightSet, fun index hindex =>
    (h.heights index hindex).trans (h'.heights index (h.heightSet ▸ hindex))⟩

lemma fitPlane_eq :
    map.fitPlane build =
      planeEquation build (mean map.probed (coordinate map.grid 0))
        (mean map.probed (coordinate map.grid 1)) (mean map.probed map.pointHeight)
        (covariance map.probed (coordinate map.grid 0) (coordinate map.grid 0))
        (covariance map.probed (coordinate map.grid 0) (coordinate map.grid 1))
        (covariance map.probed (coordinate map.grid 0) map.pointHeight)
        (covariance map.probed (coordinate map.grid 1) (coordinate map.grid 1))
        (covariance map.probed (coordinate map.grid 1) map.pointHeight) := by
  simp only [fitPlane, mul_one_div]
  rfl

namespace SameProbed

variable (h : SameProbed map map')

include h

lemma getMapIndex (i j : ℕ) : map.getMapIndex i j = map'.getMapIndex i j := by
  rw [HeightMap.getMapIndex, HeightMap.getMapIndex, h.grid]

lemma isSet_iff (p : ℕ × ℕ) : map.isSet p ↔ map'.isSet p := by
  rw [HeightMap.isSet, HeightMap.isSet, h.heightSet, h.getMapIndex]

lemma pointHeight (hp : map.isSet p) : map.pointHeight p = map'.pointHeight p := by
  rw [HeightMap.pointHeight, HeightMap.pointHeight, h.heights _ hp, h.getMapIndex]

lemma probed : map.probed = map'.probed := by
  ext p
  rw [mem_probed, mem_probed, h.grid, h.isSet_iff]

lemma addPair (p q : ℕ × ℕ) (sum : ℚ × ℕ) : map.addPair p q sum = map'.addPair p q sum := by
  rw [HeightMap.addPair, HeightMap.addPair]
  by_cases hset : map.isSet p ∧ map.isSet q
  · rw [if_pos hset, if_pos ⟨(h.isSet_iff p).mp hset.1, (h.isSet_iff q).mp hset.2⟩,
      h.pointHeight hset.1, h.pointHeight hset.2]
  · rw [if_neg hset, if_neg fun hset' =>
      hset ⟨(h.isSet_iff p).mpr hset'.1, (h.isSet_iff q).mpr hset'.2⟩]

lemma interpolateMissingPoint (i j : ℕ) :
    map.interpolateMissingPoint i j = map'.interpolateMissingPoint i j := by
  simp only [HeightMap.interpolateMissingPoint, h.grid, h.addPair]

lemma fitPlane : map.fitPlane build = map'.fitPlane build := by
  have hheights : ∀ p ∈ map'.probed, map.pointHeight p = map'.pointHeight p :=
    fun p hp => h.pointHeight ((h.isSet_iff p).mpr (mem_probed.mp hp).2)
  rw [fitPlane_eq, fitPlane_eq, h.probed, h.grid, mean_congr hheights,
    covariance_congr (fun _ _ => rfl) hheights, covariance_congr (fun _ _ => rfl) hheights]

lemma missingHeight (p : ℕ × ℕ) :
    map.missingHeight build plane p = map'.missingHeight build plane p := by
  rw [HeightMap.missingHeight, HeightMap.missingHeight, h.grid, h.interpolateMissingPoint]

end SameProbed

/-! ### The last loop -/

lemma getMapIndex_eq {i j : ℕ} (hi : i < map.grid.nums 0) (hj : j < map.grid.nums 1)
    (hfits : map.grid.nums 0 * map.grid.nums 1 < 2 ^ 32) :
    map.getMapIndex i j = j * map.grid.nums 0 + i := by
  apply Nat.mod_eq_of_lt
  calc j * map.grid.nums 0 + i < (j + 1) * map.grid.nums 0 := by
        rw [add_mul, one_mul]
        omega
    _ ≤ map.grid.nums 1 * map.grid.nums 0 := Nat.mul_le_mul_right _ hj
    _ < 2 ^ 32 := by rwa [mul_comm]

/-- In a grid whose count of points is not cut, each point has its own place. -/
lemma getMapIndex_injective (hfits : map.grid.nums 0 * map.grid.nums 1 < 2 ^ 32)
    (hp : p ∈ gridPoints map.grid) (hq : q ∈ gridPoints map.grid)
    (h : map.getMapIndex p.1 p.2 = map.getMapIndex q.1 q.2) : p = q := by
  obtain ⟨hp0, hp1⟩ := mem_gridPoints.mp hp
  obtain ⟨hq0, hq1⟩ := mem_gridPoints.mp hq
  rw [getMapIndex_eq hp0 hp1 hfits, getMapIndex_eq hq0 hq1 hfits] at h
  have hpos : 0 < map.grid.nums 0 := by omega
  have hrow := congrArg (· / map.grid.nums 0) h
  have hcol := congrArg (· % map.grid.nums 0) h
  simp only [mul_comm _ (map.grid.nums 0), Nat.mul_add_div hpos, Nat.div_eq_of_lt hp0,
    Nat.div_eq_of_lt hq0, add_zero] at hrow
  simp only [mul_comm _ (map.grid.nums 0), Nat.mul_add_mod, Nat.mod_eq_of_lt hp0,
    Nat.mod_eq_of_lt hq0] at hcol
  exact Prod.ext hcol hrow

lemma fillPoint_same (build : Build) (plane : Plane) (map : HeightMap) (p : ℕ × ℕ) :
    SameProbed map (fillPoint build plane map p) := by
  rw [fillPoint]
  split
  · exact .refl map
  · next hset =>
    refine ⟨rfl, rfl, fun index hindex => ?_⟩
    have hne : index ≠ map.getMapIndex p.1 p.2 := by
      rintro rfl
      exact hset hindex
    exact (Function.update_of_ne hne _ _).symm

lemma fillPoints_same (build : Build) (plane : Plane) (ps : List (ℕ × ℕ)) (map : HeightMap) :
    SameProbed map (ps.foldl (fillPoint build plane) map) := by
  induction ps generalizing map with
  | nil => exact .refl map
  | cons p ps ih => exact (fillPoint_same build plane map p).trans (ih _)

lemma fillPoints_other {ps : List (ℕ × ℕ)} {index : ℕ}
    (h : ∀ q ∈ ps, map.getMapIndex q.1 q.2 ≠ index) :
    (ps.foldl (fillPoint build plane) map).gridHeights index = map.gridHeights index := by
  induction ps generalizing map with
  | nil => rfl
  | cons q ps ih =>
    have hsame := fillPoint_same build plane map q
    rw [List.foldl_cons, ih]
    · rw [fillPoint]
      split
      · rfl
      · exact Function.update_of_ne (h q List.mem_cons_self).symm _ _
    · intro q' hq'
      rw [← hsame.getMapIndex]
      exact h q' (List.mem_cons_of_mem _ hq')

/-- Each point that is not set gets the height that the probed points give it. -/
lemma fillPoints_missing {ps : List (ℕ × ℕ)} (hp : p ∈ ps) (hset : ¬ map.isSet p)
    (hinj : ∀ q ∈ ps, map.getMapIndex q.1 q.2 = map.getMapIndex p.1 p.2 → q = p) :
    (ps.foldl (fillPoint build plane) map).pointHeight p = map.missingHeight build plane p := by
  induction ps generalizing map with
  | nil => exact absurd hp List.not_mem_nil
  | cons q ps ih =>
    have hsame := fillPoint_same build plane map q
    rw [List.foldl_cons]
    by_cases hlater : p ∈ ps
    · rw [ih hlater (fun h => hset ((hsame.isSet_iff p).mpr h)), hsame.missingHeight]
      intro q' hq' hindex
      rw [← hsame.getMapIndex, ← hsame.getMapIndex] at hindex
      exact hinj q' (List.mem_cons_of_mem _ hq') hindex
    · have hq : p = q := (List.mem_cons.mp hp).resolve_right hlater
      subst hq
      have hother : ∀ q ∈ ps, (fillPoint build plane map p).getMapIndex q.1 q.2 ≠
          map.getMapIndex p.1 p.2 := by
        intro q hq hindex
        rw [← hsame.getMapIndex] at hindex
        exact hlater (hinj q (List.mem_cons_of_mem _ hq) hindex ▸ hq)
      rw [pointHeight, ← (fillPoints_same build plane ps _).getMapIndex, ← hsame.getMapIndex,
        fillPoints_other hother, fillPoint, if_neg hset]
      exact Function.update_self _ _ _

/-! ### The heights of all points -/

lemma extrapolateMissing_same (build : Build) (map : HeightMap) :
    SameProbed map (map.extrapolateMissing build) := by
  rw [extrapolateMissing]
  split
  · exact .refl map
  · exact fillPoints_same build _ _ map

/-- Where there is a plane, the heights of all points depend on the probed points only. -/
lemma SameProbed.extrapolateMissing (h : SameProbed map map')
    (hfits : map.grid.nums 0 * map.grid.nums 1 < 2 ^ 32) (hplane : map.fitPlane build ≠ none)
    (hp : p ∈ gridPoints map.grid) :
    (map.extrapolateMissing build).pointHeight p =
      (map'.extrapolateMissing build).pointHeight p := by
  by_cases hset : map.isSet p
  · have hsame := extrapolateMissing_same build map
    have hsame' := extrapolateMissing_same build map'
    rw [← hsame.pointHeight hset, ← hsame'.pointHeight ((h.isSet_iff p).mp hset),
      h.pointHeight hset]
  · obtain ⟨plane, hfit⟩ := Option.ne_none_iff_exists'.mp hplane
    rw [HeightMap.extrapolateMissing, HeightMap.extrapolateMissing, ← h.fitPlane, hfit]
    dsimp only
    rw [fillPoints_missing hp hset, fillPoints_missing (h.grid ▸ hp)
      (fun hset' => hset ((h.isSet_iff p).mpr hset')), h.missingHeight]
    · intro q hq hindex
      exact getMapIndex_injective (h.grid ▸ hfits) hq (h.grid ▸ hp) hindex
    · intro q hq hindex
      exact getMapIndex_injective hfits hq hp hindex

/-- There is no plane exactly if one line of the grid goes through all probed points. -/
lemma fitPlane_eq_none_iff (hspacing : ∀ axis, map.grid.spacings axis ≠ 0) :
    map.fitPlane build = none ↔
      OnOneLine map.probed (fun p => (p.1 : ℚ)) (fun p => (p.2 : ℚ)) := by
  rw [fitPlane_eq, ← onOneLine_affine (hspacing 0) (hspacing 1) (u := map.grid.mins 0)
    (v := map.grid.mins 1), ← not_iff_not, ← spread_pos_iff, ← not_le, planeEquation]
  dsimp only
  split
  · next h => exact iff_of_false (fun hne => hne rfl) (not_not.mpr h)
  · next h => exact iff_of_true (Option.some_ne_none _) h

end RepRapFirmware.Movement.BedProbing.HeightMap
