import Mathlib.Analysis.Convex.Jensen
import RepRapFirmware.Library.Kinematics

/-! A rod whose lower end moves along a straight line and whose upper end stays on a vertical line. -/

namespace RepRapFirmware.Library

open Kinematics

/-- The square of the rod's length, where the lower end starts in relation to the vertical line, and
how far it moves. -/
structure Rod (α : Type*) where
  length2 : α
  x : α
  y : α
  dx : α
  dy : α

namespace Rod

section Field

variable {α : Type*} [Field α] (r : Rod α)

/-- The square of the height of the upper end above the lower end. -/
def reach (t : α) : α := r.length2 - (r.x + t * r.dx) ^ 2 - (r.y + t * r.dy) ^ 2

/-- The height of the upper end while the lower end rises by `dz`. -/
def height (f : α → α) (dz t : α) : α := f (r.reach t) + t * dz

def P2 : α := r.dx ^ 2 + r.dy ^ 2

def dot : α := r.x * r.dx + r.y * r.dy

def discriminant : α := r.length2 * r.P2 - (r.dx * r.y - r.dy * r.x) ^ 2

lemma reach_mul_P2 (t : α) : r.reach t * r.P2 = r.discriminant - (r.dot + t * r.P2) ^ 2 := by
  rw [reach, discriminant, P2, dot]
  ring

lemma reach_from (p t : α) :
    r.reach t = r.reach p - 2 * (t - p) * (r.dot + p * r.P2) - (t - p) ^ 2 * r.P2 := by
  rw [reach, reach, P2, dot]
  ring

end Field

variable {α : Type*} [Field α] [LinearOrder α] [IsStrictOrderedRing α] {f : α → α} {r : Rod α}
  {c dz p t : α}

lemma P2_nonneg : 0 ≤ r.P2 := add_nonneg (sq_nonneg _) (sq_nonneg _)

lemma concaveOn_reach : ConcaveOn α Set.univ r.reach := by
  refine ⟨convex_univ, fun s _ t _ a b ha hb hab => ?_⟩
  simp only [smul_eq_mul]
  have hspread : 0 ≤ a * b * ((s - t) ^ 2 * r.P2) :=
    mul_nonneg (mul_nonneg ha hb) (mul_nonneg (sq_nonneg _) P2_nonneg)
  obtain rfl : b = 1 - a := by linarith
  rw [reach, reach, reach]
  rw [P2] at hspread
  linarith

lemma convex_reach : Convex α {t | 0 ≤ r.reach t} := by
  have h := (concaveOn_reach (r := r)).convex_ge 0
  simpa using h

lemma concaveOn_height (hf : IsSqrt f) (dz : α) : ConcaveOn α {t | 0 ≤ r.reach t} (r.height f dz) := by
  refine ⟨convex_reach, fun s hs t ht a b ha hb hab => ?_⟩
  have hst : 0 ≤ r.reach (a • s + b • t) := convex_reach hs ht ha hb hab
  have hroot : a * f (r.reach s) + b * f (r.reach t) ≤ f (r.reach (a • s + b • t)) := by
    apply hf.le hst
    have hspread : 0 ≤ a * b * ((f (r.reach s) - f (r.reach t)) ^ 2 + (s - t) ^ 2 * r.P2) := by
      have hP2 := r.P2_nonneg
      positivity
    have hsq_s := hf.sq _ hs
    have hsq_t := hf.sq _ ht
    have hbetween : r.reach (a • s + b • t) =
        a * r.reach s + b * r.reach t + a * b * ((s - t) ^ 2 * r.P2) := by
      obtain rfl : b = 1 - a := by linarith
      simp only [reach, P2, smul_eq_mul]
      ring
    rw [hbetween]
    obtain rfl : b = 1 - a := by linarith
    nlinarith
  simp only [height, smul_eq_mul] at hroot ⊢
  linarith

/-- Both ends of the line are within the rod's reach, hence some of the line around them is. -/
lemma discriminant_pos (h0 : 0 ≤ r.reach 0) (h1 : 0 ≤ r.reach 1) (hP2 : 0 < r.P2) :
    0 < r.discriminant := by
  have hstart := r.reach_mul_P2 0
  have hend := r.reach_mul_P2 1
  have hstart' := mul_nonneg h0 hP2.le
  have hend' := mul_nonneg h1 hP2.le
  rw [zero_mul, add_zero] at hstart
  rw [one_mul] at hend
  nlinarith [sq_nonneg (r.dot + (r.dot + r.P2))]

/-- `p` is the place of the maximum, where the height rises as much as the reach falls. -/
def IsTop (f : α → α) (r : Rod α) (dz p : α) : Prop :=
  0 < r.reach p ∧ f (r.reach p) * dz = r.dot + p * r.P2

lemma isTop_of_eq (hf : IsSqrt f) (hP2 : 0 < r.P2) (hdisc : 0 < r.discriminant)
    (h : p * (r.P2 * (r.P2 + dz ^ 2)) =
      dz * f (r.discriminant * (r.P2 + dz ^ 2)) - r.dot * (r.P2 + dz ^ 2)) : r.IsTop f dz p := by
  have hm : 0 < r.P2 + dz ^ 2 := by positivity
  have hroot := hf.sq _ (mul_pos hdisc hm).le
  have hnonneg := hf.nonneg _ (mul_pos hdisc hm).le
  set m := r.P2 + dz ^ 2 with hmdef
  set root := f (r.discriminant * m)
  have hplace : (r.dot + p * r.P2) * m = dz * root := by linear_combination h
  have hreach : r.reach p * m = r.discriminant := by
    have hmul := r.reach_mul_P2 p
    have hP2m : r.P2 * m ≠ 0 := (mul_pos hP2 hm).ne'
    apply mul_right_cancel₀ hP2m
    linear_combination m ^ 2 * hmul - ((r.dot + p * r.P2) * m + dz * root) * hplace -
      dz ^ 2 * hroot + r.discriminant * m * hmdef
  have hpos : 0 < r.reach p := (mul_pos_iff_of_pos_right hm).mp (hreach ▸ hdisc)
  have hvalue : f (r.reach p) * m = root := by
    apply (sq_eq_sq₀ (mul_nonneg (hf.nonneg _ hpos.le) hm.le) hnonneg).mp
    rw [mul_pow, hf.sq _ hpos.le, hroot, ← hreach]
    ring
  refine ⟨hpos, mul_right_cancel₀ hm.ne' ?_⟩
  rw [hplace, ← hvalue]
  ring

lemma IsTop.height_lt (hf : IsSqrt f) (hP2 : 0 < r.P2) (h : r.IsTop f dz p) (ht : 0 ≤ r.reach t)
    (hne : t ≠ p) : r.height f dz t < r.height f dz p := by
  have hpos := hf.pos h.1
  have hsq := hf.sq _ h.1.le
  have hsq_t := hf.sq _ ht
  have hfrom := r.reach_from p t
  have hspread : 0 < (t - p) ^ 2 * r.P2 := mul_pos (sq_pos_of_ne_zero (sub_ne_zero.mpr hne)) hP2
  have hslope := h.2
  have hgap : 2 * (f (r.reach p) * r.height f dz p - f (r.reach p) * r.height f dz t) =
      (f (r.reach t) - f (r.reach p)) ^ 2 + (t - p) ^ 2 * r.P2 := by
    rw [height, height]
    linear_combination hsq - hsq_t - hfrom + 2 * (p - t) * hslope
  apply lt_of_mul_lt_mul_left _ hpos.le
  linarith [sq_nonneg (f (r.reach t) - f (r.reach p))]

lemma IsTop.height_le (hf : IsSqrt f) (hP2 : 0 < r.P2) (h : r.IsTop f dz p) (ht : 0 ≤ r.reach t) :
    r.height f dz t ≤ r.height f dz p := by
  by_cases hne : t = p
  · rw [hne]
  · exact (h.height_lt hf hP2 ht hne).le

/-- Up to the place of the maximum the height does not fall. -/
lemma IsTop.height_le_before {s : α} (hf : IsSqrt f) (hP2 : 0 < r.P2) (h : r.IsTop f dz p)
    (ht : 0 ≤ r.reach t) (hts : t ≤ s) (hsp : s ≤ p) : r.height f dz t ≤ r.height f dz s := by
  have hmin := (concaveOn_height hf dz).min_le_of_mem_Icc ht h.1.le ⟨hts, hsp⟩
  rwa [min_eq_left (h.height_le hf hP2 ht)] at hmin

lemma IsTop.height_le_after {s : α} (hf : IsSqrt f) (hP2 : 0 < r.P2) (h : r.IsTop f dz p)
    (ht : 0 ≤ r.reach t) (hps : p ≤ s) (hst : s ≤ t) : r.height f dz t ≤ r.height f dz s := by
  have hmin := (concaveOn_height hf dz).min_le_of_mem_Icc h.1.le ht ⟨hps, hst⟩
  rwa [min_eq_right (h.height_le hf hP2 ht)] at hmin

/-- After the place of the maximum the height falls. -/
lemma IsTop.height_lt_after {s : α} (hf : IsSqrt f) (hP2 : 0 < r.P2) (h : r.IsTop f dz p)
    (hs : 0 ≤ r.reach s) (ht : 0 ≤ r.reach t) (hps : p < s) (hst : s < t) :
    r.height f dz t < r.height f dz s := by
  apply (concaveOn_height hf dz).lt_right_of_left_lt h.1.le ht
  · rw [openSegment_eq_Ioo (hps.trans hst)]
    exact ⟨hps, hst⟩
  · exact h.height_lt hf hP2 hs hps.ne'

lemma height_mono (ht : 0 ≤ t) (h : c ≤ dz) : r.height f c t ≤ r.height f dz t := by
  rw [height, height]
  have hmul := mul_le_mul_of_nonneg_left h ht
  linarith

end Rod

end RepRapFirmware.Library
