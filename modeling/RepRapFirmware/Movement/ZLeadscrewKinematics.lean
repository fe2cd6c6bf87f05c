import RepRapFirmware.RRFLibraries.Matrix

/-! Levelling the bed by its leadscrews. Positions and heights are exact. -/

namespace RepRapFirmware.Movement.ZLeadscrews

open Finset RepRapFirmware.Library.LinearSystems RepRapFirmware.RRFLibraries

def maxLeadscrews : ℕ := 4

structure ZLeadscrewKinematics where
  numLeadscrews : ℕ
  leadscrewX : ℕ → ℚ
  leadscrewY : ℕ → ℚ
  correctionFactor : ℚ
  maxCorrection : ℚ
  hnum : numLeadscrews ≤ maxLeadscrews

structure ProbePoint where
  x : ℚ
  y : ℚ
  z : ℚ

structure RandomProbePointSet where
  numPoints : ℕ
  points : ℕ → ProbePoint

/-! ### The derivatives with respect to the adjustments of the leadscrews -/

section Derivatives

variable (X Y : ℕ → ℚ)

def denominator2 : ℚ := (X 1 - X 0) ^ 2 + (Y 1 - Y 0) ^ 2

def numerators2 (x y : ℚ) : ℕ → ℚ
  | 0 => -(Y 1 ^ 2 - Y 0 * Y 1 - y * (Y 1 - Y 0) + X 1 ^ 2 - X 0 * X 1 - x * (X 1 - X 0))
  | 1 => -(Y 0 ^ 2 - Y 0 * Y 1 + y * (Y 1 - Y 0) + X 0 ^ 2 - X 0 * X 1 + x * (X 1 - X 0))
  | _ => 0

def denominator3 : ℚ :=
  X 1 * Y 2 - X 0 * Y 2 - X 2 * Y 1 + X 0 * Y 1 + X 2 * Y 0 - X 1 * Y 0

def numerators3 (x y : ℚ) : ℕ → ℚ
  | 0 => -(X 1 * Y 2 - x * Y 2 - X 2 * Y 1 + x * Y 1 + X 2 * y - X 1 * y)
  | 1 => X 0 * Y 2 - x * Y 2 - X 2 * Y 0 + x * Y 0 + X 2 * y - X 0 * y
  | 2 => -(X 0 * Y 1 - x * Y 1 - X 1 * Y 0 + x * Y 0 + X 1 * y - X 0 * y)
  | _ => 0

def denominator4 : ℚ :=
  let (x0, x1, x2, x3) := (X 0, X 1, X 2, X 3)
  let (y0, y1, y2, y3) := (Y 0, Y 1, Y 2, Y 3)
  let (x01, x02, x03, x12, x13, x23) := (x0 * x1, x0 * x2, x0 * x3, x1 * x2, x1 * x3, x2 * x3)
  let (y01, y02, y03, y12, y13, y23) := (y0 * y1, y0 * y2, y0 * y3, y1 * y2, y1 * y3, y2 * y3)
  x13*y23 - x03*y23 - x12*y23 + x02*y23 - x23*y13 + x03*y13 + x12*y13 - x01*y13
    + x23*y03 - x13*y03 - x02*y03 + x01*y03 + x23*y12 - x13*y12 - x02*y12 + x01*y12
    - x23*y02 + x03*y02 + x12*y02 - x01*y02 + x13*y01 - x03*y01 - x12*y01 + x02*y01

def numerators4 (x y : ℚ) (j : ℕ) : ℚ :=
  let (x0, x1, x2, x3) := (X 0, X 1, X 2, X 3)
  let (y0, y1, y2, y3) := (Y 0, Y 1, Y 2, Y 3)
  let (x01, x02, x03, x12, x13, x23) := (x0 * x1, x0 * x2, x0 * x3, x1 * x2, x1 * x3, x2 * x3)
  let (y01, y02, y03, y12, y13, y23) := (y0 * y1, y0 * y2, y0 * y3, y1 * y2, y1 * y3, y2 * y3)
  let (xx0, xx1, xx2, xx3) := (x * x0, x * x1, x * x2, x * x3)
  let (yy0, yy1, yy2, yy3) := (y * y0, y * y1, y * y2, y * y3)
  match j with
  | 0 =>
    -(x13*y23 - xx3*y23 - x12*y23 + xx2*y23 - x23*y13 + xx3*y13 + x12*y13 - xx1*y13
      + x23*yy3 - x13*yy3 - xx2*yy3 + xx1*yy3 + x23*y12 - x13*y12 - xx2*y12 + xx1*y12
      - x23*yy2 + xx3*yy2 + x12*yy2 - xx1*yy2 + x13*yy1 - xx3*yy1 - x12*yy1 + xx2*yy1)
  | 1 =>
    x03*y23 - xx3*y23 - x02*y23 + xx2*y23 - x23*y03 + xx3*y03 + x02*y03 - xx0*y03
      + x23*yy3 - x03*yy3 - xx2*yy3 + xx0*yy3 + x23*y02 - x03*y02 - xx2*y02 + xx0*y02
      - x23*yy2 + xx3*yy2 + x02*yy2 - xx0*yy2 + x03*yy0 - xx3*yy0 - x02*yy0 + xx2*yy0
  | 2 =>
    -(x03*y13 - xx3*y13 - x01*y13 + xx1*y13 - x13*y03 + xx3*y03 + x01*y03 - xx0*y03
      + x13*yy3 - x03*yy3 - xx1*yy3 + xx0*yy3 + x13*y01 - x03*y01 - xx1*y01 + xx0*y01
      - x13*yy1 + xx3*yy1 + x01*yy1 - xx0*yy1 + x03*yy0 - xx3*yy0 - x01*yy0 + xx1*yy0)
  | 3 =>
    x02*y12 - xx2*y12 - x01*y12 + xx1*y12 - x12*y02 + xx2*y02 + x01*y02 - xx0*y02
      + x12*yy2 - x02*yy2 - xx1*yy2 + xx0*yy2 + x12*y01 - x02*y01 - xx1*y01 + xx0*y01
      - x12*yy1 + xx2*yy1 + x01*yy1 - xx0*yy1 + x02*yy0 - xx2*yy0 - x01*yy0 + xx1*yy0
  | _ => 0

/-- The denominator `d2`. -/
def denominator (numFactors : ℕ) : ℚ :=
  match numFactors with
  | 2 => denominator2 X Y
  | 3 => denominator3 X Y
  | 4 => denominator4 X Y
  | _ => 0

def numerators (numFactors : ℕ) (x y : ℚ) : ℕ → ℚ :=
  match numFactors with
  | 2 => numerators2 X Y x y
  | 3 => numerators3 X Y x y
  | 4 => numerators4 X Y x y
  | _ => fun _ => 0

/-- The row of the derivative matrix for a point of the bed. -/
def derivatives (numFactors : ℕ) (x y : ℚ) (j : ℕ) : ℚ :=
  numerators X Y numFactors x y j / denominator X Y numFactors

end Derivatives

/-! ### The calibration -/

/-- A sum that starts with the first term. -/
def accumulate (numPoints : ℕ) (term : ℕ → ℚ) : ℚ :=
  (List.range' 1 (numPoints - 1)).foldl (fun temp k => temp + term k) (term 0)

inductive Action
  | limitExceeded (corrections : ℕ → ℚ)
  | adjustLeadscrews (corrections : ℕ → ℚ)
  | manual (netAdjustments : ℕ → ℚ)

inductive CalibrationResult
  | notSupported
  | failed (reply : String)
  | calibrated (solution : ℕ → ℚ) (residuals : ℕ → ℚ) (action : Action)

namespace ZLeadscrewKinematics

variable (k : ZLeadscrewKinematics)

def supportsAutoCalibration : Bool := decide (2 ≤ k.numLeadscrews)

variable (numFactors : ℕ) (probePoints : RandomProbePointSet)

def derivativeMatrix (i j : ℕ) : ℚ :=
  derivatives k.leadscrewX k.leadscrewY numFactors (probePoints.points i).x (probePoints.points
    i).y j

/-- The normal equations, with their right hand side in the last column. -/
def normalMatrix (i j : ℕ) : ℚ :=
  if j < numFactors then
    accumulate probePoints.numPoints fun p =>
      k.derivativeMatrix numFactors probePoints p i * k.derivativeMatrix numFactors probePoints p j
  else
    accumulate probePoints.numPoints fun p =>
      k.derivativeMatrix numFactors probePoints p i * -(probePoints.points p).z

def residuals (solution : ℕ → ℚ) (i : ℕ) : ℚ :=
  (List.range' 0 numFactors).foldl
    (fun residual j => residual + solution j * k.derivativeMatrix numFactors probePoints i j)
    (probePoints.points i).z

/-- What is done with the solution. -/
def act (numZDrivers : ℕ) (solution : ℕ → ℚ) : Action :=
  let solution := fun i => solution i * k.correctionFactor
  if numZDrivers = k.numLeadscrews then
    if (List.range numFactors).any fun i => decide (|solution i| > k.maxCorrection) then
      .limitExceeded solution
    else .adjustLeadscrews solution
  else .manual fun i => solution i - solution 0

def doAutoCalibration (numZDrivers : ℕ) : CalibrationResult :=
  if !k.supportsAutoCalibration then .notSupported
  else if numFactors ≠ k.numLeadscrews then
    .failed ("Number of calibration factors (" ++ toString numFactors ++
      ") not equal to number of leadscrews (" ++ toString k.numLeadscrews ++ ")")
  else
    match FixedMatrix.gaussJordan numFactors (numFactors + 1)
      (k.normalMatrix numFactors probePoints) with
    | none => .failed "Unable to calculate screw corrections. Please choose different probe points."
    | some normalMatrix =>
      let solution := fun i => normalMatrix i numFactors
      .calibrated solution (k.residuals numFactors probePoints solution)
        (k.act numFactors numZDrivers solution)

end ZLeadscrewKinematics

/-! ### The surfaces through the leadscrews -/

section Surfaces

variable (X Y : ℕ → ℚ)

/-- Affine along the line of two leadscrews, affine for three, and bilinear for four. -/
def Surface (n : ℕ) (f : ℚ → ℚ → ℚ) : Prop :=
  match n with
  | 2 => ∃ a b, ∀ x y, f x y = a + b * ((X 1 - X 0) * x + (Y 1 - Y 0) * y)
  | 3 => ∃ a b c, ∀ x y, f x y = a + b * x + c * y
  | 4 => ∃ a b c d, ∀ x y, f x y = a + b * x + c * y + d * (x * y)
  | _ => False

/-- Displacing the screws by `c` moves the bed by the surface `f`. -/
structure Displaces (n : ℕ) (c : ℕ → ℚ) (f : ℚ → ℚ → ℚ) : Prop where
  surface : Surface X Y n f
  screws : ∀ j < n, f (X j) (Y j) = c j

variable {X Y}

/-- The numerators are what the surface through the screws is made of. -/
lemma surface_numerators {n : ℕ} (hn : n = 2 ∨ n = 3 ∨ n = 4) {f : ℚ → ℚ → ℚ}
    (hf : Surface X Y n f) (x y : ℚ) :
    ∑ j ∈ range n, f (X j) (Y j) * numerators X Y n x y j = -(f x y * denominator X Y n) := by
  rcases hn with rfl | rfl | rfl
  · obtain ⟨a, b, hf⟩ := hf
    simp only [sum_range_succ, sum_range_zero, hf, numerators, numerators2, denominator,
      denominator2]
    ring
  · obtain ⟨a, b, c, hf⟩ := hf
    simp only [sum_range_succ, sum_range_zero, hf, numerators, numerators3, denominator,
      denominator3]
    ring
  · obtain ⟨a, b, c, d, hf⟩ := hf
    have hone : ∑ j ∈ range 4, numerators4 X Y x y j = -denominator4 X Y := by
      simp only [sum_range_succ, sum_range_zero, numerators4, denominator4]
      ring
    have hx : ∑ j ∈ range 4, X j * numerators4 X Y x y j = -(x * denominator4 X Y) := by
      simp only [sum_range_succ, sum_range_zero, numerators4, denominator4]
      ring
    have hy : ∑ j ∈ range 4, Y j * numerators4 X Y x y j = -(y * denominator4 X Y) := by
      simp only [sum_range_succ, sum_range_zero, numerators4, denominator4]
      ring
    have hxy : ∑ j ∈ range 4, X j * Y j * numerators4 X Y x y j = -(x * y * denominator4 X Y) := by
      simp only [sum_range_succ, sum_range_zero, numerators4, denominator4]
      ring
    have hsplit : ∀ j, (a + b * X j + c * Y j + d * (X j * Y j)) * numerators4 X Y x y j =
        a * numerators4 X Y x y j + b * (X j * numerators4 X Y x y j) +
          c * (Y j * numerators4 X Y x y j) + d * (X j * Y j * numerators4 X Y x y j) := by
      intro j
      ring
    simp only [hf, numerators, denominator, hsplit, sum_add_distrib, ← mul_sum, hone, hx, hy, hxy]
    ring

/-- A numerator is zero at the other screws. -/
lemma numerators_screw {n : ℕ} (hn : n = 2 ∨ n = 3 ∨ n = 4) {j k : ℕ} (hj : j < n) (hk : k < n) :
    numerators X Y n (X k) (Y k) j = if j = k then -denominator X Y n else 0 := by
  by_cases hjk : j = k
  · rw [if_pos hjk, hjk]
    rcases hn with rfl | rfl | rfl
    · interval_cases k <;> simp only [numerators, numerators2, denominator, denominator2] <;> ring
    · interval_cases k <;> simp only [numerators, numerators3, denominator, denominator3] <;> ring
    · interval_cases k <;> simp only [numerators, numerators4, denominator, denominator4] <;> ring
  · rw [if_neg hjk]
    rcases hn with rfl | rfl | rfl <;> interval_cases j <;> interval_cases k
    all_goals
      first
      | exact absurd rfl hjk
      | simp only [numerators, numerators2, numerators3, numerators4]
        ring

variable {n : ℕ} {c : ℕ → ℚ} {f : ℚ → ℚ → ℚ}

/-- There is only one surface for a displacement of the screws. -/
lemma Displaces.eq (hn : n = 2 ∨ n = 3 ∨ n = 4) (hd2 : denominator X Y n ≠ 0)
    (h : Displaces X Y n c f) (x y : ℚ) :
    f x y = -∑ j ∈ range n, c j * derivatives X Y n x y j := by
  have hsum : ∑ j ∈ range n, c j * derivatives X Y n x y j =
      (∑ j ∈ range n, f (X j) (Y j) * numerators X Y n x y j) / denominator X Y n := by
    rw [sum_div]
    apply sum_congr rfl
    intro j hj
    rw [h.screws j (mem_range.mp hj), derivatives, mul_div_assoc]
  rw [hsum, surface_numerators hn h.surface, neg_div, neg_neg, mul_div_cancel_right₀ _ hd2]

/-- There is a surface for every displacement of the screws. -/
lemma displaces_derivatives (hn : n = 2 ∨ n = 3 ∨ n = 4) (hd2 : denominator X Y n ≠ 0) (c : ℕ → ℚ) :
    Displaces X Y n c fun x y => -∑ j ∈ range n, c j * derivatives X Y n x y j := by
  constructor
  · generalize hf : (fun x y => -∑ j ∈ range n, c j * derivatives X Y n x y j) = f
    have hf' : ∀ x y, f x y = -∑ j ∈ range n, c j * derivatives X Y n x y j :=
      fun x y => by rw [← hf]
    rcases hn with rfl | rfl | rfl
    · refine ⟨f 0 0, (c 1 - c 0) / denominator X Y 2, fun x y => ?_⟩
      simp only [hf', sum_range_succ, sum_range_zero, derivatives, numerators, numerators2]
      ring
    · refine ⟨f 0 0, f 1 0 - f 0 0, f 0 1 - f 0 0, fun x y => ?_⟩
      simp only [hf', sum_range_succ, sum_range_zero, derivatives, numerators, numerators3]
      ring
    · refine ⟨f 0 0, f 1 0 - f 0 0, f 0 1 - f 0 0, f 1 1 - f 1 0 - f 0 1 + f 0 0, fun x y => ?_⟩
      simp only [hf', sum_range_succ, sum_range_zero, derivatives, numerators, numerators4]
      ring
  · intro k hk
    have hterm : ∀ j ∈ range n, c j * derivatives X Y n (X k) (Y k) j = if j = k then -c k else 0 :=
        by
      intro j hj
      rw [derivatives, numerators_screw hn (mem_range.mp hj) hk]
      split
      · next hjk => rw [hjk, neg_div, div_self hd2, mul_neg_one]
      · rw [zero_div, mul_zero]
    rw [sum_congr rfl hterm, sum_ite_eq', if_pos (mem_range.mpr hk), neg_neg]

end Surfaces

/-! ### The solution -/

lemma foldl_add (start count : ℕ) (term : ℕ → ℚ) (x : ℚ) :
    (List.range' start count).foldl (fun temp k => temp + term k) x =
      x + ∑ k ∈ range count, term (start + k) := by
  induction count generalizing start x with
  | zero => rw [List.range'_zero, List.foldl_nil, sum_range_zero, add_zero]
  | succ count ih =>
    rw [List.range'_succ, List.foldl_cons, ih, sum_range_succ', add_zero, add_assoc,
      add_comm (term start)]
    congr 3
    funext k
    rw [show start + 1 + k = start + (k + 1) by omega]

lemma accumulate_eq {numPoints : ℕ} (h : 0 < numPoints) (term : ℕ → ℚ) :
    accumulate numPoints term = ∑ k ∈ range numPoints, term k := by
  obtain ⟨m, rfl⟩ := Nat.exists_eq_succ_of_ne_zero h.ne'
  rw [accumulate, foldl_add, sum_range_succ', Nat.succ_sub_one, add_comm]
  congr 2
  funext k
  rw [add_comm 1 k]

/-- What a calibration promises: the residuals are the heights that the correction leaves, no other
correction leaves a smaller sum of squares, and displacements of the screws are cancelled. -/
structure Exact (k : ZLeadscrewKinematics) (p : RandomProbePointSet) (solution left : ℕ → ℚ) :
    Prop where
  surface : ∃ f, Displaces k.leadscrewX k.leadscrewY k.numLeadscrews solution f
  residuals : ∀ f, Displaces k.leadscrewX k.leadscrewY k.numLeadscrews solution f →
    ∀ i < p.numPoints, left i = (p.points i).z - f (p.points i).x (p.points i).y
  least : ∀ f c g, Displaces k.leadscrewX k.leadscrewY k.numLeadscrews solution f →
    Displaces k.leadscrewX k.leadscrewY k.numLeadscrews c g →
    ∑ i ∈ range p.numPoints, ((p.points i).z - f (p.points i).x (p.points i).y) ^ 2 ≤
      ∑ i ∈ range p.numPoints, ((p.points i).z - g (p.points i).x (p.points i).y) ^ 2
  cancels : ∀ c g, Displaces k.leadscrewX k.leadscrewY k.numLeadscrews c g →
    (∀ i < p.numPoints, (p.points i).z = g (p.points i).x (p.points i).y) →
    (∀ j < k.numLeadscrews, solution j = c j) ∧ ∀ i < p.numPoints, left i = 0

section Calibration

variable {k : ZLeadscrewKinematics} {p : RandomProbePointSet} {n : ℕ}

/-- A single column of products has no determinant. -/
lemma numPoints_pos (hn : 2 ≤ n) (hregular : ∀ x : ℕ → ℚ,
      (∀ r < n, ∑ j ∈ range n, k.normalMatrix n p r j * x j = 0) → ∀ j < n, x j = 0) :
    0 < p.numPoints := by
  by_contra hnone
  have hzero : p.numPoints = 0 := by omega
  have hentry : ∀ r, ∀ j < n, k.normalMatrix n p r j =
      k.derivativeMatrix n p 0 r * k.derivativeMatrix n p 0 j := by
    intro r j hj
    rw [ZLeadscrewKinematics.normalMatrix, if_pos hj, accumulate, hzero]
    rfl
  have hsum : ∀ (x : ℕ → ℚ) (r : ℕ), (∀ j, 2 ≤ j → x j = 0) →
      ∑ j ∈ range n, k.normalMatrix n p r j * x j = k.derivativeMatrix n p 0 r *
        (k.derivativeMatrix n p 0 0 * x 0 + k.derivativeMatrix n p 0 1 * x 1) := by
    intro x r hx
    rw [sum_eq_add 0 1 zero_ne_one]
    · rw [hentry r 0 (by omega), hentry r 1 (by omega)]
      ring
    · intro j _ hne
      rw [hx j (by omega), mul_zero]
    · exact fun hrange => absurd (mem_range.mpr (by omega)) hrange
    · exact fun hrange => absurd (mem_range.mpr (by omega)) hrange
  have hfirst : k.derivativeMatrix n p 0 0 = 0 := by
    have hx := hregular (fun j => if j = 0 then k.derivativeMatrix n p 0 1
      else if j = 1 then -k.derivativeMatrix n p 0 0 else 0) ?_ 1 (by omega)
    · simpa using hx
    · intro r _
      rw [hsum _ r (fun j hj => by rw [if_neg (by omega), if_neg (by omega)])]
      simp only [if_true, one_ne_zero, if_false]
      ring
  have hone := hregular (fun j => if j = 0 then 1 else 0) ?_ 0 (by omega)
  · simp at hone
  · intro r _
    rw [hsum _ r (fun j hj => by rw [if_neg (by omega)]), hfirst]
    simp

/-- The derivatives are those of the library's least squares problem. -/
lemma residuals_eq (c : ℕ → ℚ) (i : ℕ) : k.residuals n p c i =
    deviation (range n) (k.derivativeMatrix n p) (fun i => (p.points i).z) c i := by
  rw [ZLeadscrewKinematics.residuals, foldl_add, deviation]
  congr 2
  funext j
  rw [Nat.zero_add]

lemma residual_displaced (hn : n = 2 ∨ n = 3 ∨ n = 4)
    (hd2 : denominator k.leadscrewX k.leadscrewY n ≠ 0) {c : ℕ → ℚ} {f : ℚ → ℚ → ℚ}
    (h : Displaces k.leadscrewX k.leadscrewY n c f) (i : ℕ) :
    deviation (range n) (k.derivativeMatrix n p) (fun i => (p.points i).z) c i =
      (p.points i).z - f (p.points i).x (p.points i).y := by
  rw [h.eq hn hd2, sub_neg_eq_add]
  rfl

/-- The normal equations, for a solution of the system. -/
lemma normal_equations (hpoints : 0 < p.numPoints) (s : ℕ → ℚ) (r : ℕ) :
    ∑ j ∈ range n, k.normalMatrix n p r j * s j = k.normalMatrix n p r n ↔
      ∑ i ∈ range p.numPoints, k.derivativeMatrix n p i r *
        deviation (range n) (k.derivativeMatrix n p) (fun i => (p.points i).z) s i = 0 := by
  have hleft : ∑ j ∈ range n, k.normalMatrix n p r j * s j =
      ∑ i ∈ range p.numPoints, k.derivativeMatrix n p i r *
        ∑ j ∈ range n, s j * k.derivativeMatrix n p i j := by
    simp only [mul_sum]
    rw [sum_comm]
    apply sum_congr rfl
    intro j hj
    rw [ZLeadscrewKinematics.normalMatrix, if_pos (mem_range.mp hj), accumulate_eq hpoints, sum_mul]
    exact sum_congr rfl fun i _ => by ring
  have hright : k.normalMatrix n p r n =
      -∑ i ∈ range p.numPoints, k.derivativeMatrix n p i r * (p.points i).z := by
    rw [ZLeadscrewKinematics.normalMatrix, if_neg (lt_irrefl n), accumulate_eq hpoints,
      ← sum_neg_distrib]
    exact sum_congr rfl fun i _ => by ring
  simp only [deviation, mul_add, sum_add_distrib]
  rw [hleft, hright, eq_neg_iff_add_eq_zero, add_comm]

lemma exact_of_solves (hn : k.numLeadscrews = 2 ∨ k.numLeadscrews = 3 ∨ k.numLeadscrews = 4)
    (hd2 : denominator k.leadscrewX k.leadscrewY k.numLeadscrews ≠ 0)
    (hregular : ∀ x : ℕ → ℚ, (∀ r < k.numLeadscrews, ∑ j ∈ range k.numLeadscrews,
      k.normalMatrix k.numLeadscrews p r j * x j = 0) → ∀ j < k.numLeadscrews, x j = 0)
    {s : ℕ → ℚ} (hs : ∀ r < k.numLeadscrews, ∑ j ∈ range k.numLeadscrews,
      k.normalMatrix k.numLeadscrews p r j * s j =
        k.normalMatrix k.numLeadscrews p r k.numLeadscrews) :
    Exact k p s (k.residuals k.numLeadscrews p s) := by
  have hpoints : 0 < p.numPoints := numPoints_pos (by omega) hregular
  have hleast := leastSquares (range p.numPoints) (range k.numLeadscrews)
    (k.derivativeMatrix k.numLeadscrews p) (fun i => (p.points i).z)
    (fun r hr => (normal_equations hpoints s r).mp (hs r (mem_range.mp hr)))
  refine ⟨⟨_, displaces_derivatives hn hd2 s⟩, fun f hf i _ => ?_, fun f c g hf hg => ?_,
    fun c g hg hz => ?_⟩
  · rw [residuals_eq, residual_displaced hn hd2 hf]
  · have hle := hleast c
    simp only [residual_displaced hn hd2 hf, residual_displaced hn hd2 hg] at hle
    exact hle
  · have hnormal : ∀ r < k.numLeadscrews, ∑ j ∈ range k.numLeadscrews,
        k.normalMatrix k.numLeadscrews p r j * c j =
          k.normalMatrix k.numLeadscrews p r k.numLeadscrews := by
      intro r _
      rw [normal_equations hpoints c r]
      apply sum_eq_zero
      intro i hi
      rw [residual_displaced hn hd2 hg, hz i (mem_range.mp hi), sub_self, mul_zero]
    have hequal : ∀ j < k.numLeadscrews, s j = c j := by
      intro j hj
      have hzero := hregular (fun j => s j - c j) ?_ j hj
      · exact sub_eq_zero.mp hzero
      · intro r hr
        simp only [mul_sub, sum_sub_distrib]
        rw [hs r hr, hnormal r hr, sub_self]
    refine ⟨hequal, fun i hi => ?_⟩
    rw [residuals_eq]
    have hsame : deviation (range k.numLeadscrews) (k.derivativeMatrix k.numLeadscrews p)
        (fun i => (p.points i).z) s i = deviation (range k.numLeadscrews)
          (k.derivativeMatrix k.numLeadscrews p) (fun i => (p.points i).z) c i := by
      rw [deviation, deviation]
      congr 1
      exact sum_congr rfl fun j hj => by rw [hequal j (mem_range.mp hj)]
    rw [hsame, residual_displaced hn hd2 hg, hz i hi, sub_self]

end Calibration

theorem doAutoCalibration_exact (k : ZLeadscrewKinematics) (p : RandomProbePointSet) (numZDrivers
    : ℕ)
    (hsupported : k.supportsAutoCalibration = true)
    (hd2 : denominator k.leadscrewX k.leadscrewY k.numLeadscrews ≠ 0)
    (hregular : (Matrix.of fun i j : Fin k.numLeadscrews =>
      k.normalMatrix k.numLeadscrews p i j).det ≠ 0) :
    ∃ solution action, k.doAutoCalibration k.numLeadscrews p numZDrivers =
        .calibrated solution (k.residuals k.numLeadscrews p solution) action ∧
      Exact k p solution (k.residuals k.numLeadscrews p solution) := by
  have hatLeast : 2 ≤ k.numLeadscrews := of_decide_eq_true hsupported
  have hatMost : k.numLeadscrews ≤ 4 := k.hnum
  have hzero : ∀ x : ℕ → ℚ, (∀ r < k.numLeadscrews, ∑ j ∈ range k.numLeadscrews,
      k.normalMatrix k.numLeadscrews p r j * x j = 0) → ∀ j < k.numLeadscrews, x j = 0 :=
    fun x hx => eq_zero_of_det_ne_zero hregular hx
  obtain ⟨solved, hsolved, hsolves⟩ := FixedMatrix.gaussJordan_solves
    (Nat.le_succ k.numLeadscrews) hzero
  refine ⟨fun i => solved i k.numLeadscrews, k.act k.numLeadscrews numZDrivers fun i =>
    solved i k.numLeadscrews, ?_, ?_⟩
  · rw [ZLeadscrewKinematics.doAutoCalibration, hsupported, if_neg (by decide),
      if_neg (not_not.mpr rfl), hsolved]
  · exact exact_of_solves (by omega) hd2 hzero
      (hsolves k.numLeadscrews le_rfl (Nat.lt_succ_self k.numLeadscrews))

/-- A leadscrew at each end of a unit length, probed at the screws. -/
def twoScrews : ZLeadscrewKinematics where
  numLeadscrews := 2
  leadscrewX := fun j => j
  leadscrewY := fun _ => 0
  correctionFactor := 1
  maxCorrection := 1
  hnum := by decide

def probedAtScrews : RandomProbePointSet where
  numPoints := 2
  points := fun i => ⟨i, 0, 1 / 2⟩

theorem doAutoCalibration_exact_twoScrews :
    ∃ solution action, twoScrews.doAutoCalibration 2 probedAtScrews 2 =
        .calibrated solution (twoScrews.residuals 2 probedAtScrews solution) action ∧
      Exact twoScrews probedAtScrews solution (twoScrews.residuals 2 probedAtScrews solution) := by
  apply doAutoCalibration_exact twoScrews probedAtScrews 2 rfl
  · decide +kernel
  · change (Matrix.of fun i j : Fin 2 => twoScrews.normalMatrix 2 probedAtScrews i j).det ≠ 0
    rw [Matrix.det_fin_two]
    decide +kernel

end RepRapFirmware.Movement.ZLeadscrews
