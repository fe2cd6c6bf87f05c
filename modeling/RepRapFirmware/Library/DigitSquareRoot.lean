import Mathlib.Analysis.Real.Sqrt
import Mathlib.Data.Nat.Sqrt
import Mathlib.Tactic

/-! The square root digit by digit, in binary: what the digits found so far and the remainder
have to do with the number. -/

namespace RepRapFirmware.Library.DigitSquareRoot

/-- `r` holds the leading digits of the root of `x`, down to the place `2 ^ n`, and `rem` what is
left of `x`. -/
structure Partial (x n r rem : ℕ) : Prop where
  split : x = r ^ 2 * 2 ^ (2 * n) + rem
  below : rem < (2 * r + 1) * 2 ^ (2 * n)

variable {x y n r rem : ℕ}

lemma partial_start (h : x < 2 ^ (2 * n)) : Partial x n 0 x := ⟨by simp, by simpa using h⟩

lemma Partial.one (h : Partial x (n + 1) r rem) (hle : (4 * r + 1) * 2 ^ (2 * n) ≤ rem) :
    Partial x n (2 * r + 1) (rem - (4 * r + 1) * 2 ^ (2 * n)) := by
  obtain ⟨hsplit, hbelow⟩ := h
  rw [show 2 * (n + 1) = 2 * n + 2 by ring, pow_add] at hsplit hbelow
  constructor
  · rw [hsplit]
    zify [hle]
    ring
  · zify [hle] at hbelow ⊢
    linarith

lemma Partial.zero (h : Partial x (n + 1) r rem) (hlt : rem < (4 * r + 1) * 2 ^ (2 * n)) :
    Partial x n (2 * r) rem := by
  obtain ⟨hsplit, -⟩ := h
  rw [show 2 * (n + 1) = 2 * n + 2 by ring, pow_add] at hsplit
  constructor
  · rw [hsplit]
    ring
  · rw [show 2 * (2 * r) + 1 = 4 * r + 1 by ring]
    exact hlt

lemma Partial.sqrt_eq (h : Partial x 0 r rem) : Nat.sqrt x = r := by
  obtain ⟨hsplit, hbelow⟩ := h
  rw [mul_zero, pow_zero, mul_one] at hsplit hbelow
  exact (Nat.eq_sqrt'.mpr ⟨by omega, by rw [hsplit]; linarith⟩).symm

/-- Lower digits of the number may follow once the root has all digits of what came before. -/
lemma Partial.extend (h : Partial x 0 r rem) (hy : y < 2 ^ (2 * n)) :
    Partial (x * 2 ^ (2 * n) + y) n r (rem * 2 ^ (2 * n) + y) := by
  obtain ⟨hsplit, hbelow⟩ := h
  rw [mul_zero, pow_zero, mul_one] at hsplit hbelow
  constructor
  · rw [hsplit]
    ring
  · calc rem * 2 ^ (2 * n) + y < (rem + 1) * 2 ^ (2 * n) := by linarith
      _ ≤ (2 * r + 1) * 2 ^ (2 * n) := Nat.mul_le_mul_right _ hbelow

lemma Partial.root_lt {m : ℕ} (h : Partial x 0 r rem) (hx : x < 2 ^ (2 * m)) : r < 2 ^ m := by
  rw [← h.sqrt_eq]
  exact Nat.sqrt_lt'.mpr (by rwa [← pow_mul, mul_comm])

lemma Partial.le_root {m : ℕ} (h : Partial x 0 r rem) (hx : 2 ^ (2 * m) ≤ x) : 2 ^ m ≤ r := by
  rw [← h.sqrt_eq]
  exact Nat.le_sqrt'.mpr (by rwa [← pow_mul, mul_comm])

/-- The root cannot be halfway between two integers, and the remainder says on which side it
is. -/
lemma Partial.round (h : Partial x 0 r rem) :
    if r < rem then (r : ℝ) + 1 / 2 < √x ∧ √x < r + 1 else (r : ℝ) ≤ √x ∧ √x < r + 1 / 2 := by
  obtain ⟨hsplit, hbelow⟩ := h
  rw [mul_zero, pow_zero, mul_one] at hsplit hbelow
  have hx : (x : ℝ) = (r : ℝ) ^ 2 + rem := by exact_mod_cast hsplit
  have hr : (0 : ℝ) ≤ r := r.cast_nonneg
  have hup : (rem : ℝ) + 1 ≤ 2 * r + 1 := by exact_mod_cast hbelow
  by_cases hlt : r < rem
  · have hrem : (r : ℝ) + 1 ≤ rem := by exact_mod_cast hlt
    rw [if_pos hlt]
    constructor
    · apply Real.lt_sqrt_of_sq_lt
      rw [hx]
      linarith [show ((r : ℝ) + 1 / 2) ^ 2 = r ^ 2 + r + 1 / 4 by ring]
    · rw [Real.sqrt_lt' (by linarith), hx]
      linarith [show ((r : ℝ) + 1) ^ 2 = r ^ 2 + 2 * r + 1 by ring]
  · have hrem : (rem : ℝ) ≤ r := by exact_mod_cast Nat.not_lt.mp hlt
    rw [if_neg hlt]
    constructor
    · apply Real.le_sqrt_of_sq_le
      rw [hx]
      linarith [Nat.cast_nonneg (α := ℝ) rem]
    · rw [Real.sqrt_lt' (by linarith), hx]
      linarith [show ((r : ℝ) + 1 / 2) ^ 2 = r ^ 2 + r + 1 / 4 by ring]

end RepRapFirmware.Library.DigitSquareRoot
