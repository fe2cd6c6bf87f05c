import Mathlib.Algebra.Order.Field.Basic
import Mathlib.Tactic

/-! Motion with a limited acceleration and a limited deceleration along a distance. -/

namespace RepRapFirmware.Library.Kinematics

-- One proof for each numeral, whatever the field.
scoped instance atLeastTwo2 : Nat.AtLeastTwo 2 := ⟨by decide⟩
scoped instance atLeastTwo10 : Nat.AtLeastTwo 10 := ⟨by decide⟩
scoped instance atLeastTwo100 : Nat.AtLeastTwo 100 := ⟨by decide⟩

variable {α : Type*} [Field α] [LinearOrder α]

/-- An exact square root. -/
structure IsSqrt (f : α → α) : Prop where
  nonneg : ∀ x, 0 ≤ x → 0 ≤ f x
  sq : ∀ x, 0 ≤ x → f x ^ 2 = x

/-- The speeds `u` and `v` can be joined over the distance `s`. -/
structure Joinable (a d s u v : α) : Prop where
  rise : v ^ 2 ≤ u ^ 2 + 2 * a * s
  fall : u ^ 2 ≤ v ^ 2 + 2 * d * s

/-- The square of the top speed if there is no steady speed. -/
def peak (a d s u v : α) : α :=
  (2 * a * (2 * d) * s + 2 * a * v ^ 2 + 2 * d * u ^ 2) / (2 * a + 2 * d)

variable [IsStrictOrderedRing α] {f : α → α} {a d s u v w x : α}

lemma IsSqrt.le (hf : IsSqrt f) (hx : 0 ≤ x) (h : v ^ 2 ≤ x) : v ≤ f x := by
  apply le_of_sq_le_sq _ (hf.nonneg x hx)
  rwa [hf.sq x hx]

lemma IsSqrt.le_of_le_sq (hf : IsSqrt f) (hx : 0 ≤ x) (hv : 0 ≤ v) (h : x ≤ v ^ 2) : f x ≤ v := by
  apply le_of_sq_le_sq _ hv
  rwa [hf.sq x hx]

omit [IsStrictOrderedRing α] in
lemma IsSqrt.pos (hf : IsSqrt f) (hx : 0 < x) : 0 < f x := by
  apply lt_of_le_of_ne (hf.nonneg x hx.le)
  intro hzero
  have hsq := hf.sq x hx.le
  rw [← hzero] at hsq
  exact hx.ne (by simpa using hsq)

lemma IsSqrt.sq_le (hf : IsSqrt f) (hx : 0 ≤ x) (hv : 0 ≤ v) (h : v ≤ f x) : v ^ 2 ≤ x := by
  rw [← hf.sq x hx]
  exact pow_le_pow_left₀ hv h 2

lemma IsSqrt.of_sq (hf : IsSqrt f) (hx : 0 ≤ x) : f (x ^ 2) = x := by
  apply (sq_eq_sq₀ (hf.nonneg _ (sq_nonneg x)) hx).mp
  exact hf.sq _ (sq_nonneg x)

lemma peak_mul (ha : 0 < a) (hd : 0 < d) :
    peak a d s u v * (2 * a + 2 * d) = 2 * a * (2 * d) * s + 2 * a * v ^ 2 + 2 * d * u ^ 2 := by
  rw [peak, div_mul_cancel₀]
  positivity

/-- The two phases to and from the peak fill the distance. -/
lemma peak_distance (ha : 0 < a) (hd : 0 < d) :
    (peak a d s u v - u ^ 2) / (2 * a) + (peak a d s u v - v ^ 2) / (2 * d) = s := by
  have hmul := peak_mul (s := s) (u := u) (v := v) ha hd
  field_simp
  linarith

/-- A speed whose phases do not fit into the distance is at least the peak. -/
lemma peak_le (ha : 0 < a) (hd : 0 < d)
    (h : s ≤ (w ^ 2 - u ^ 2) / (2 * a) + (w ^ 2 - v ^ 2) / (2 * d)) : peak a d s u v ≤ w ^ 2 := by
  rw [← peak_distance (s := s) (u := u) (v := v) ha hd] at h
  by_contra hlt
  have hlt' : w ^ 2 < peak a d s u v := not_le.mp hlt
  have h1 : (w ^ 2 - u ^ 2) / (2 * a) < (peak a d s u v - u ^ 2) / (2 * a) := by
    apply div_lt_div_of_pos_right _ (by positivity)
    linarith
  have h2 : (w ^ 2 - v ^ 2) / (2 * d) < (peak a d s u v - v ^ 2) / (2 * d) := by
    apply div_lt_div_of_pos_right _ (by positivity)
    linarith
  linarith

/-- A peak that is not above the start speed leaves deceleration only. -/
lemma fall_of_peak_le (ha : 0 < a) (hd : 0 < d) (h : peak a d s u v ≤ u ^ 2) :
    v ^ 2 + 2 * d * s ≤ u ^ 2 := by
  have hmul := peak_mul (s := s) (u := u) (v := v) ha hd
  have hle : peak a d s u v * (2 * a + 2 * d) ≤ u ^ 2 * (2 * a + 2 * d) :=
    mul_le_mul_of_nonneg_right h (by positivity)
  have htwo : 2 * a * (v ^ 2 + 2 * d * s) ≤ 2 * a * u ^ 2 := by
    rw [hmul] at hle
    linarith
  exact le_of_mul_le_mul_left htwo (by positivity)

lemma rise_of_peak_le (ha : 0 < a) (hd : 0 < d) (h : peak a d s u v ≤ v ^ 2) :
    u ^ 2 + 2 * a * s ≤ v ^ 2 := by
  have hmul := peak_mul (s := s) (u := u) (v := v) ha hd
  have hle : peak a d s u v * (2 * a + 2 * d) ≤ v ^ 2 * (2 * a + 2 * d) :=
    mul_le_mul_of_nonneg_right h (by positivity)
  have htwo : 2 * d * (u ^ 2 + 2 * a * s) ≤ 2 * d * v ^ 2 := by
    rw [hmul] at hle
    linarith
  exact le_of_mul_le_mul_left htwo (by positivity)

lemma peak_le_rise (ha : 0 < a) (hd : 0 < d) (h : v ^ 2 ≤ peak a d s u v) :
    peak a d s u v ≤ u ^ 2 + 2 * a * s := by
  have hdistance := peak_distance (s := s) (u := u) (v := v) ha hd
  have hfall : 0 ≤ (peak a d s u v - v ^ 2) / (2 * d) := by
    apply div_nonneg _ (by positivity)
    linarith
  have hrise : (peak a d s u v - u ^ 2) / (2 * a) ≤ s := by linarith
  rw [div_le_iff₀ (by positivity)] at hrise
  linarith

end RepRapFirmware.Library.Kinematics
