import Mathlib.Algebra.BigOperators.Field
import Mathlib.Algebra.Order.BigOperators.Ring.Finset
import Mathlib.Tactic

/-! The covariances of points in a plane, and when the points are on one line. -/

namespace RepRapFirmware.Library.LeastSquares

variable {ι K : Type*} [Field K]

def mean (s : Finset ι) (x : ι → K) : K := (∑ i ∈ s, x i) / s.card

/-- The sum of the products of the distances from the means. -/
def covariance (s : Finset ι) (x y : ι → K) : K :=
  ∑ i ∈ s, (x i - mean s x) * (y i - mean s y)

/-- The determinant of the covariances of two coordinates. -/
def spread (s : Finset ι) (x y : ι → K) : K :=
  covariance s x x * covariance s y y - covariance s x y * covariance s x y

/-- One line goes through all the points. -/
def OnOneLine (s : Finset ι) (x y : ι → K) : Prop :=
  ∃ a b c, (a ≠ 0 ∨ b ≠ 0) ∧ ∀ i ∈ s, a * x i + b * y i = c

variable {s : Finset ι} {x y z w : ι → K}

lemma covariance_comm : covariance s x y = covariance s y x :=
  Finset.sum_congr rfl fun _ _ => mul_comm _ _

lemma mean_congr (h : ∀ i ∈ s, x i = z i) : mean s x = mean s z := by
  rw [mean, mean, Finset.sum_congr rfl h]

lemma covariance_congr (hx : ∀ i ∈ s, x i = z i) (hy : ∀ i ∈ s, y i = w i) :
    covariance s x y = covariance s z w := by
  rw [covariance, covariance, mean_congr hx, mean_congr hy]
  exact Finset.sum_congr rfl fun i hi => by rw [hx i hi, hy i hi]

variable [LinearOrder K] [IsStrictOrderedRing K]

/-- A line through all the points goes through their centroid. -/
lemma line_through_mean {a b c : K} (hs : s.Nonempty) (h : ∀ i ∈ s, a * x i + b * y i = c) :
    a * mean s x + b * mean s y = c := by
  have hcard : (s.card : K) ≠ 0 := Nat.cast_ne_zero.mpr hs.card_pos.ne'
  have hsum : a * ∑ i ∈ s, x i + b * ∑ i ∈ s, y i = s.card * c := by
    rw [Finset.mul_sum, Finset.mul_sum, ← Finset.sum_add_distrib, Finset.sum_congr rfl h,
      Finset.sum_const, nsmul_eq_mul]
  rw [mean, mean]
  field_simp
  linear_combination hsum

lemma covariance_of_line {a b c : K} (h : ∀ i ∈ s, a * x i + b * y i = c) :
    a * covariance s x z + b * covariance s y z = 0 := by
  obtain rfl | hs := s.eq_empty_or_nonempty
  · simp [covariance]
  · rw [covariance, covariance, Finset.mul_sum, Finset.mul_sum, ← Finset.sum_add_distrib]
    apply Finset.sum_eq_zero
    intro i hi
    linear_combination (z i - mean s z) * (h i hi - line_through_mean hs h)

lemma OnOneLine.spread_eq_zero (h : OnOneLine s x y) : spread s x y = 0 := by
  obtain ⟨a, b, c, hab, hline⟩ := h
  have hx := covariance_of_line (z := x) hline
  have hy := covariance_of_line (z := y) hline
  rw [covariance_comm (x := y) (y := x)] at hx
  have ha : a * spread s x y = 0 := by
    rw [spread]
    linear_combination covariance s y y * hx - covariance s x y * hy
  have hb : b * spread s x y = 0 := by
    rw [spread]
    linear_combination covariance s x x * hy - covariance s x y * hx
  obtain hne | hne := hab
  · exact (mul_eq_zero.mp ha).resolve_left hne
  · exact (mul_eq_zero.mp hb).resolve_left hne

lemma onOneLine_of_covariance_zero (h : covariance s x x = 0) : OnOneLine s x y := by
  have hnonneg : ∀ i ∈ s, 0 ≤ (x i - mean s x) * (x i - mean s x) :=
    fun i _ => mul_self_nonneg _
  have hzero := (Finset.sum_eq_zero_iff_of_nonneg hnonneg).mp h
  refine ⟨1, 0, mean s x, Or.inl one_ne_zero, fun i hi => ?_⟩
  linear_combination mul_self_eq_zero.mp (hzero i hi)

lemma onOneLine_of_spread (h : spread s x y ≤ 0) : OnOneLine s x y := by
  by_cases hzero : covariance s x x = 0
  · exact onOneLine_of_covariance_zero hzero
  · have hpos : 0 < covariance s x x :=
      lt_of_le_of_ne (Finset.sum_nonneg fun i _ => mul_self_nonneg _) (Ne.symm hzero)
    -- The slope of the best line leaves no distance.
    obtain ⟨t, ht⟩ : ∃ t, t * covariance s x x = covariance s x y :=
      ⟨covariance s x y / covariance s x x, div_mul_cancel₀ _ hzero⟩
    have hexpand : ∑ i ∈ s, (y i - mean s y - t * (x i - mean s x)) ^ 2 =
        covariance s y y - 2 * t * covariance s x y + t ^ 2 * covariance s x x := by
      simp only [covariance, Finset.mul_sum, ← Finset.sum_sub_distrib, ← Finset.sum_add_distrib]
      exact Finset.sum_congr rfl fun i _ => by ring
    have hsquares : ∑ i ∈ s, (y i - mean s y - t * (x i - mean s x)) ^ 2 ≤ 0 := by
      have hproduct : covariance s x x *
          ∑ i ∈ s, (y i - mean s y - t * (x i - mean s x)) ^ 2 = spread s x y := by
        rw [hexpand, spread, ← ht]
        ring
      exact nonpos_of_mul_nonpos_right (hproduct.trans_le h) hpos
    have hnonneg : ∀ i ∈ s, 0 ≤ (y i - mean s y - t * (x i - mean s x)) ^ 2 :=
      fun i _ => sq_nonneg _
    have heach := (Finset.sum_eq_zero_iff_of_nonneg hnonneg).mp
      (le_antisymm hsquares (Finset.sum_nonneg hnonneg))
    refine ⟨-t, 1, mean s y - t * mean s x, Or.inr one_ne_zero, fun i hi => ?_⟩
    linear_combination pow_eq_zero_iff two_ne_zero |>.mp (heach i hi)

/-- A plane can be fitted to points exactly if they are not on one line. -/
lemma spread_pos_iff : 0 < spread s x y ↔ ¬ OnOneLine s x y := by
  constructor
  · intro hpos hline
    exact hpos.ne' hline.spread_eq_zero
  · intro hline
    exact not_le.mp fun h => hline (onOneLine_of_spread h)

/-- Coordinates may be measured from another origin and in other units. -/
lemma onOneLine_affine {p q u v : K} (hp : p ≠ 0) (hq : q ≠ 0) :
    OnOneLine s (fun i => p * x i + u) (fun i => q * y i + v) ↔ OnOneLine s x y := by
  constructor
  · rintro ⟨a, b, c, hab, hline⟩
    refine ⟨a * p, b * q, c - a * u - b * v, ?_, fun i hi => ?_⟩
    · exact hab.imp (mul_ne_zero · hp) (mul_ne_zero · hq)
    · linear_combination hline i hi
  · rintro ⟨a, b, c, hab, hline⟩
    refine ⟨a / p, b / q, c + a / p * u + b / q * v, ?_, fun i hi => ?_⟩
    · exact hab.imp (div_ne_zero · hp) (div_ne_zero · hq)
    · field_simp
      linear_combination p * q * hline i hi

end RepRapFirmware.Library.LeastSquares
