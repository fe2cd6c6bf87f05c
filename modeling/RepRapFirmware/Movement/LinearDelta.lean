import Mathlib
import RepRapFirmware.Library.Kinematics

/-! The kinematics of linear delta machines. Carriage heights are not rounded to whole steps. -/

namespace RepRapFirmware.Movement

open Library.Kinematics

/-- The parameters of a machine. The first three towers have been placed by the radius and the angle
corrections, the others by their coordinates. -/
structure LinearDeltaKinematics (α : Type*) where
  numTowers : ℕ
  diagonals : ℕ → α
  radius : α
  endstopAdjustments : ℕ → α
  printRadius : α
  homedHeight : α
  xTilt : α
  yTilt : α
  towerX : ℕ → α
  towerY : ℕ → α
  usualNumTowers_le : 3 ≤ numTowers

namespace LinearDeltaKinematics

variable {α : Type*} [Field α] (k : LinearDeltaKinematics α)

/-! The values that `Recalc` derives from the parameters. -/

def Xbc : α := k.towerX 2 - k.towerX 1

def Xca : α := k.towerX 0 - k.towerX 2

def Xab : α := k.towerX 1 - k.towerX 0

def Ybc : α := k.towerY 2 - k.towerY 1

def Yca : α := k.towerY 0 - k.towerY 2

def Yab : α := k.towerY 1 - k.towerY 0

def Q : α := (k.Xab * k.towerY 2 + k.Xca * k.towerY 1 + k.Xbc * k.towerY 0) * 2

def D2 (axis : ℕ) : α := k.diagonals axis ^ 2

def coreF (axis : ℕ) : α := k.towerX axis ^ 2 + k.towerY axis ^ 2

def coreKa : α := (k.D2 1 - k.D2 2) + (k.coreF 2 - k.coreF 1)

def coreKb : α := (k.D2 2 - k.D2 0) + (k.coreF 0 - k.coreF 2)

def coreKc : α := (k.D2 0 - k.D2 1) + (k.coreF 1 - k.coreF 0)

/-- The square of the height of a carriage above the plane of its rods' ends. -/
def radicand (machinePos : ℕ → α) (axis : ℕ) : α :=
  k.D2 axis - (machinePos 0 - k.towerX axis) ^ 2 - (machinePos 1 - k.towerY axis) ^ 2

/-- The motor position for a single tower or a further axis. -/
def transform (sqrt : α → α) (machinePos : ℕ → α) (axis : ℕ) : α :=
  if axis < k.numTowers then
    sqrt (k.radicand machinePos axis) + machinePos 2 + machinePos 0 * k.xTilt + machinePos 1 * k.yTilt
  else machinePos axis

section Forward

variable (Ha Hb Hc : α)

def R : α := (k.Xbc * Ha + k.Xca * Hb + k.Xab * Hc) * 2

def U : α := (k.Ybc * Ha + k.Yca * Hb + k.Yab * Hc) * 2

def Ka : α := k.coreKa + (Hc ^ 2 - Hb ^ 2)

def Kb : α := k.coreKb + (Ha ^ 2 - Hc ^ 2)

def Kc : α := k.coreKc + (Hb ^ 2 - Ha ^ 2)

def S : α :=
  k.Ka Hb Hc * k.towerY 0 + k.Kb Ha Hc * k.towerY 1 + k.Kc Ha Hb * k.towerY 2

def T : α :=
  k.Ka Hb Hc * k.towerX 0 + k.Kb Ha Hc * k.towerX 1 + k.Kc Ha Hb * k.towerX 2

def A : α := k.U Ha Hb Hc ^ 2 + k.R Ha Hb Hc ^ 2 + k.Q ^ 2

def minusHalfB : α :=
  k.Q ^ 2 * Ha + k.Q * (k.U Ha Hb Hc * k.towerX 0 - k.R Ha Hb Hc * k.towerY 0) -
    (k.R Ha Hb Hc * k.T Ha Hb Hc + k.U Ha Hb Hc * k.S Ha Hb Hc)

def C : α :=
  (k.towerX 0 * k.Q - k.S Ha Hb Hc) ^ 2 + (k.towerY 0 * k.Q + k.T Ha Hb Hc) ^ 2 +
    (Ha ^ 2 - k.D2 0) * k.Q ^ 2

/-- The three coordinates are calculated from the carriage heights. -/
def forwardTransform (sqrt : α → α) (machinePos : ℕ → α) : ℕ → α :=
  let z := (k.minusHalfB Ha Hb Hc -
    sqrt (k.minusHalfB Ha Hb Hc ^ 2 - k.A Ha Hb Hc * k.C Ha Hb Hc)) / k.A Ha Hb Hc
  let x := (k.U Ha Hb Hc * z + k.S Ha Hb Hc) / k.Q
  let y := -(k.R Ha Hb Hc * z + k.T Ha Hb Hc) / k.Q
  Function.update (Function.update (Function.update machinePos 0 x) 1 y) 2
    (z - (x * k.xTilt + y * k.yTilt))

end Forward

/-- A point above the triangle of the towers, and the heights `a`, `b` and `c` of the carriages above
it. The weights are the barycentric coordinates of the point. -/
structure Hangs [LinearOrder α] (x y a b c wa wb wc : α) : Prop where
  rod_a : k.D2 0 = a ^ 2 + (x - k.towerX 0) ^ 2 + (y - k.towerY 0) ^ 2
  rod_b : k.D2 1 = b ^ 2 + (x - k.towerX 1) ^ 2 + (y - k.towerY 1) ^ 2
  rod_c : k.D2 2 = c ^ 2 + (x - k.towerX 2) ^ 2 + (y - k.towerY 2) ^ 2
  above_a : 0 < a
  above_b : 0 < b
  above_c : 0 < c
  weight_a : 0 ≤ wa
  weight_b : 0 ≤ wb
  weight_c : 0 ≤ wc
  total : wa + wb + wc = 1
  x_eq : wa * k.towerX 0 + wb * k.towerX 1 + wc * k.towerX 2 = x
  y_eq : wa * k.towerY 0 + wb * k.towerY 1 + wc * k.towerY 2 = y

section Field

variable {k} [LinearOrder α] {x y z a b c wa wb wc : α}

lemma Hangs.x_on_line (h : k.Hangs x y a b c wa wb wc) :
    k.U (a + z) (b + z) (c + z) * z + k.S (a + z) (b + z) (c + z) = k.Q * x := by
  rw [U, S, Ka, Kb, Kc, coreKa, coreKb, coreKc, coreF, coreF, coreF, h.rod_a, h.rod_b, h.rod_c, Q,
    Ybc, Yca, Yab, Xab, Xbc, Xca]
  ring

lemma Hangs.y_on_line (h : k.Hangs x y a b c wa wb wc) :
    k.R (a + z) (b + z) (c + z) * z + k.T (a + z) (b + z) (c + z) = -(k.Q * y) := by
  rw [R, T, Ka, Kb, Kc, coreKa, coreKb, coreKc, coreF, coreF, coreF, h.rod_a, h.rod_b, h.rod_c, Q,
    Xab, Xbc, Xca]
  ring

/-- The height of the point is a root of the quadratic equation. -/
lemma Hangs.root (h : k.Hangs x y a b c wa wb wc) :
    k.A (a + z) (b + z) (c + z) * z ^ 2 - 2 * k.minusHalfB (a + z) (b + z) (c + z) * z +
      k.C (a + z) (b + z) (c + z) = 0 := by
  have hx := h.x_on_line (z := z)
  have hy := h.y_on_line (z := z)
  have hrod := h.rod_a
  rw [A, minusHalfB, C]
  generalize k.U (a + z) (b + z) (c + z) = u at *
  generalize k.R (a + z) (b + z) (c + z) = r at *
  generalize k.S (a + z) (b + z) (c + z) = s at *
  generalize k.T (a + z) (b + z) (c + z) = t at *
  obtain rfl : s = k.Q * x - u * z := by linear_combination hx
  obtain rfl : t = -(k.Q * y) - r * z := by linear_combination hy
  rw [hrod]
  ring

/-- The distance of the root from the vertex of the parabola is the carriages' height above the
point, as the barycentric coordinates weigh it. -/
lemma Hangs.vertex (h : k.Hangs x y a b c wa wb wc) :
    k.minusHalfB (a + z) (b + z) (c + z) - k.A (a + z) (b + z) (c + z) * z =
      k.Q ^ 2 * (wa * a + wb * b + wc * c) := by
  have hx := h.x_on_line (z := z)
  have hy := h.y_on_line (z := z)
  have hvertex : k.minusHalfB (a + z) (b + z) (c + z) - k.A (a + z) (b + z) (c + z) * z =
      k.Q ^ 2 * a - k.Q * (k.U (a + z) (b + z) (c + z) * (x - k.towerX 0) -
        k.R (a + z) (b + z) (c + z) * (y - k.towerY 0)) := by
    rw [A, minusHalfB]
    generalize k.U (a + z) (b + z) (c + z) = u at *
    generalize k.R (a + z) (b + z) (c + z) = r at *
    linear_combination -u * hx - r * hy
  obtain rfl : wa = 1 - wb - wc := by linear_combination h.total
  rw [hvertex, ← h.x_eq, ← h.y_eq, U, R, Q, Ybc, Yca, Yab, Xab, Xbc, Xca]
  ring

end Field

section Ordered

variable [LinearOrder α] [IsStrictOrderedRing α] {k} {x y z a b c wa wb wc : α} {sqrt : α → α}

lemma Hangs.above (h : k.Hangs x y a b c wa wb wc) : 0 < wa * a + wb * b + wc * c := by
  have ha := mul_nonneg h.weight_a h.above_a.le
  have hb := mul_nonneg h.weight_b h.above_b.le
  have hc := mul_nonneg h.weight_c h.above_c.le
  apply lt_of_le_of_ne (by linarith)
  intro hzero
  have ha0 : wa = 0 := (mul_eq_zero.mp (by linarith)).resolve_right h.above_a.ne'
  have hb0 : wb = 0 := (mul_eq_zero.mp (by linarith)).resolve_right h.above_b.ne'
  have hc0 : wc = 0 := (mul_eq_zero.mp (by linarith)).resolve_right h.above_c.ne'
  have htotal := h.total
  rw [ha0, hb0, hc0] at htotal
  norm_num at htotal

lemma A_pos (hQ : k.Q ≠ 0) (Ha Hb Hc : α) : 0 < k.A Ha Hb Hc := by
  rw [A]
  positivity

/-- The point is below the vertex of the parabola, hence the lower root is its height. -/
lemma Hangs.lower_root (h : k.Hangs x y a b c wa wb wc) (hf : IsSqrt sqrt) (hQ : k.Q ≠ 0) :
    (k.minusHalfB (a + z) (b + z) (c + z) - sqrt (k.minusHalfB (a + z) (b + z) (c + z) ^ 2 -
      k.A (a + z) (b + z) (c + z) * k.C (a + z) (b + z) (c + z))) / k.A (a + z) (b + z) (c + z) =
      z := by
  have hA := A_pos hQ (a + z) (b + z) (c + z)
  have hroot := h.root (z := z)
  have hnonneg : 0 ≤ k.minusHalfB (a + z) (b + z) (c + z) - k.A (a + z) (b + z) (c + z) * z := by
    rw [h.vertex]
    exact mul_nonneg (sq_nonneg _) h.above.le
  have hsquare : k.minusHalfB (a + z) (b + z) (c + z) ^ 2 -
      k.A (a + z) (b + z) (c + z) * k.C (a + z) (b + z) (c + z) =
        (k.minusHalfB (a + z) (b + z) (c + z) - k.A (a + z) (b + z) (c + z) * z) ^ 2 := by
    linear_combination -k.A (a + z) (b + z) (c + z) * hroot
  rw [hsquare, hf.of_sq hnonneg, div_eq_iff hA.ne']
  ring

lemma Hangs.forwardTransform_eq (h : k.Hangs x y a b c wa wb wc) (hf : IsSqrt sqrt) (hQ : k.Q ≠ 0)
    (machinePos : ℕ → α) : k.forwardTransform (a + z) (b + z) (c + z) sqrt machinePos =
      Function.update (Function.update (Function.update machinePos 0 x) 1 y) 2
        (z - (x * k.xTilt + y * k.yTilt)) := by
  have hx : (k.U (a + z) (b + z) (c + z) * z + k.S (a + z) (b + z) (c + z)) / k.Q = x := by
    rw [h.x_on_line, mul_div_cancel_left₀ x hQ]
  have hy : -(k.R (a + z) (b + z) (c + z) * z + k.T (a + z) (b + z) (c + z)) / k.Q = y := by
    rw [h.y_on_line, neg_neg, mul_div_cancel_left₀ y hQ]
  simp only [forwardTransform, h.lower_root hf hQ, hx, hy]

end Ordered

/-- The triangle of the first three towers. -/
def triangle (k : LinearDeltaKinematics ℝ) : Set (ℝ × ℝ) :=
  convexHull ℝ {(k.towerX 0, k.towerY 0), (k.towerX 1, k.towerY 1), (k.towerX 2, k.towerY 2)}

variable {k : LinearDeltaKinematics ℝ} {x y : ℝ}

lemma barycentric (h : (x, y) ∈ k.triangle) : ∃ wa wb wc : ℝ, 0 ≤ wa ∧ 0 ≤ wb ∧ 0 ≤ wc ∧
    wa + wb + wc = 1 ∧ wa * k.towerX 0 + wb * k.towerX 1 + wc * k.towerX 2 = x ∧
      wa * k.towerY 0 + wb * k.towerY 1 + wc * k.towerY 2 = y := by
  rw [triangle, convexHull_insert (Set.insert_nonempty _ _), convexHull_pair, mem_convexJoin] at h
  obtain ⟨_, rfl, _, ⟨u, v, hu, hv, huv, rfl⟩, s, t, hs, ht, hst, heq⟩ := h
  obtain ⟨hx, hy⟩ := Prod.mk.inj heq
  simp only [Prod.smul_mk, Prod.mk_add_mk, smul_eq_mul] at hx hy
  refine ⟨s, t * u, t * v, hs, mul_nonneg ht hu, mul_nonneg ht hv, ?_, ?_, ?_⟩
  · linear_combination hst + t * huv
  · linear_combination hx
  · linear_combination hy

lemma isSqrt_sqrt : IsSqrt Real.sqrt :=
  ⟨fun x _ => Real.sqrt_nonneg x, fun _ hx => Real.sq_sqrt hx⟩

lemma transform_of_tower (k : LinearDeltaKinematics ℝ) (machinePos : ℕ → ℝ) {tower : ℕ}
    (h : tower < 3) : k.transform Real.sqrt machinePos tower =
      √(k.radicand machinePos tower) +
        (machinePos 2 + machinePos 0 * k.xTilt + machinePos 1 * k.yTilt) := by
  rw [transform, if_pos (h.trans_le k.usualNumTowers_le)]
  ring

lemma D2_eq (k : LinearDeltaKinematics ℝ) (machinePos : ℕ → ℝ) {tower : ℕ}
    (h : 0 < k.radicand machinePos tower) :
    k.D2 tower = √(k.radicand machinePos tower) ^ 2 + (machinePos 0 - k.towerX tower) ^ 2 +
      (machinePos 1 - k.towerY tower) ^ 2 := by
  rw [Real.sq_sqrt h.le, radicand]
  ring

theorem forwardTransform_transform (k : LinearDeltaKinematics ℝ) (hQ : k.Q ≠ 0)
    (machinePos result : ℕ → ℝ) (hinside : (machinePos 0, machinePos 1) ∈ k.triangle)
    (hreal : ∀ tower < 3, 0 < k.radicand machinePos tower) (axis : ℕ) :
    k.forwardTransform (k.transform Real.sqrt machinePos 0) (k.transform Real.sqrt machinePos 1)
      (k.transform Real.sqrt machinePos 2) Real.sqrt result axis =
        if axis < 3 then machinePos axis else result axis := by
  obtain ⟨wa, wb, wc, hwa, hwb, hwc, htotal, hx, hy⟩ := barycentric hinside
  have hangs : k.Hangs (machinePos 0) (machinePos 1) (√(k.radicand machinePos 0))
      (√(k.radicand machinePos 1)) (√(k.radicand machinePos 2)) wa wb wc :=
    { rod_a := k.D2_eq machinePos (hreal 0 (by norm_num))
      rod_b := k.D2_eq machinePos (hreal 1 (by norm_num))
      rod_c := k.D2_eq machinePos (hreal 2 (by norm_num))
      above_a := Real.sqrt_pos.mpr (hreal 0 (by norm_num))
      above_b := Real.sqrt_pos.mpr (hreal 1 (by norm_num))
      above_c := Real.sqrt_pos.mpr (hreal 2 (by norm_num))
      weight_a := hwa
      weight_b := hwb
      weight_c := hwc
      total := htotal
      x_eq := hx
      y_eq := hy }
  rw [transform_of_tower k machinePos (by norm_num), transform_of_tower k machinePos (by norm_num),
    transform_of_tower k machinePos (by norm_num), hangs.forwardTransform_eq isSqrt_sqrt hQ]
  rcases axis with _ | _ | _ | axis
  · simp
  · simp
  · simp
  · simp

/-- Towers at three corners of a square, with different diagonals, and with tilts. -/
def unequal (α : Type*) [Field α] : LinearDeltaKinematics α where
  numTowers := 3
  diagonals := fun axis => axis + 5
  radius := 4
  endstopAdjustments := fun _ => 0
  printRadius := 4
  homedHeight := 10
  xTilt := 1 / 10
  yTilt := 1 / 5
  towerX := fun axis => if axis = 1 then 4 else 0
  towerY := fun axis => if axis = 2 then 4 else 0
  usualNumTowers_le := le_rfl

theorem forwardTransform_transform_unequal :
    let machinePos : ℕ → ℝ := fun axis => if axis = 2 then 3 else 1
    (unequal ℝ).forwardTransform ((unequal ℝ).transform Real.sqrt machinePos 0)
      ((unequal ℝ).transform Real.sqrt machinePos 1) ((unequal ℝ).transform Real.sqrt machinePos 2)
      Real.sqrt 0 2 = 3 := by
  intro machinePos
  have hQ : (unequal ℝ).Q ≠ 0 := by
    norm_num [Q, Xab, Xca, Xbc, unequal]
  have hinside : (machinePos 0, machinePos 1) ∈ (unequal ℝ).triangle := by
    rw [triangle, convexHull_insert (Set.insert_nonempty _ _), convexHull_pair, mem_convexJoin]
    refine ⟨_, rfl, (2, 2), ⟨1 / 2, 1 / 2, by norm_num, by norm_num, by norm_num, ?_⟩,
      1 / 2, 1 / 2, by norm_num, by norm_num, by norm_num, ?_⟩
    · norm_num [unequal]
    · norm_num [unequal, machinePos]
  have hreal : ∀ tower < 3, 0 < (unequal ℝ).radicand machinePos tower := by
    intro tower h
    interval_cases tower <;> norm_num [radicand, D2, unequal, machinePos]
  exact forwardTransform_transform (unequal ℝ) hQ machinePos 0 hinside hreal 2

end LinearDeltaKinematics

end RepRapFirmware.Movement
