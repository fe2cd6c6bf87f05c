import Mathlib.Algebra.BigOperators.Intervals
import Mathlib.Algebra.Order.BigOperators.Ring.Finset
import Mathlib.LinearAlgebra.Matrix.ToLinearEquiv
import Mathlib.Tactic

/-! Systems of linear equations held as rows in an array: what the row operations keep, what can be
read off when columns have been eliminated, and the least squares solution of too many equations. -/

namespace RepRapFirmware.Library.LinearSystems

open Finset

section Rows

variable {α : Type*} [Field α] {n m i j : ℕ} {data data' data'' : ℕ → ℕ → α} {x : ℕ → α}

/-- The vectors of length `m` that all `n` rows send to zero. -/
def Kernel (n m : ℕ) (data : ℕ → ℕ → α) (x : ℕ → α) : Prop :=
  ∀ r < n, ∑ c ∈ range m, data r c * x c = 0

def SameKernel (n m : ℕ) (data data' : ℕ → ℕ → α) : Prop :=
  ∀ x, Kernel n m data x ↔ Kernel n m data' x

lemma SameKernel.refl (data : ℕ → ℕ → α) : SameKernel n m data data := fun _ => .rfl

lemma SameKernel.trans (h : SameKernel n m data data') (h' : SameKernel n m data' data'') :
    SameKernel n m data data'' := fun x => (h x).trans (h' x)

lemma sum_row_congr {row row' : ℕ → α} (h : ∀ c < m, row' c = row c) (x : ℕ → α) :
    ∑ c ∈ range m, row' c * x c = ∑ c ∈ range m, row c * x c := by
  apply sum_congr rfl
  intro c hc
  rw [h c (mem_range.mp hc)]

/-- Two rows are exchanged. -/
lemma sameKernel_swap (hi : i < n) (hj : j < n) (hrowi : ∀ c < m, data' i c = data j c)
    (hrowj : ∀ c < m, data' j c = data i c)
    (hother : ∀ r, r ≠ i → r ≠ j → ∀ c < m, data' r c = data r c) :
    SameKernel n m data data' := by
  intro x
  constructor
  · intro h r hr
    by_cases hri : r = i
    · rw [hri, sum_row_congr hrowi]
      exact h j hj
    · by_cases hrj : r = j
      · rw [hrj, sum_row_congr hrowj]
        exact h i hi
      · rw [sum_row_congr (hother r hri hrj)]
        exact h r hr
  · intro h r hr
    by_cases hri : r = i
    · rw [hri, ← sum_row_congr hrowj]
      exact h j hj
    · by_cases hrj : r = j
      · rw [hrj, ← sum_row_congr hrowi]
        exact h i hi
      · rw [← sum_row_congr (hother r hri hrj)]
        exact h r hr

/-- A multiple of row `i` is subtracted from row `j`. -/
lemma sameKernel_subtract (hij : i ≠ j) (hi : i < n) (factor : α)
    (hrowj : ∀ c < m, data' j c = data j c - data i c * factor)
    (hother : ∀ r, r ≠ j → ∀ c < m, data' r c = data r c) : SameKernel n m data data' := by
  have hsum : ∀ x : ℕ → α, ∑ c ∈ range m, data' j c * x c =
      ∑ c ∈ range m, data j c * x c - (∑ c ∈ range m, data i c * x c) * factor := by
    intro x
    rw [sum_mul, ← sum_sub_distrib]
    apply sum_congr rfl
    intro c hc
    rw [hrowj c (mem_range.mp hc)]
    ring
  intro x
  constructor
  · intro h r hr
    by_cases hrj : r = j
    · rw [hrj, hsum, h i hi, h j (hrj ▸ hr), zero_mul, sub_zero]
    · rw [sum_row_congr (hother r hrj)]
      exact h r hr
  · intro h r hr
    have hrowi : ∑ c ∈ range m, data i c * x c = 0 := by
      rw [← sum_row_congr (hother i hij)]
      exact h i hi
    by_cases hrj : r = j
    · have hj := h j (hrj ▸ hr)
      rw [hsum, hrowi, zero_mul, sub_zero] at hj
      rw [hrj]
      exact hj
    · rw [← sum_row_congr (hother r hrj)]
      exact h r hr

/-- The first `i` columns have been eliminated. -/
def Reduced (n i : ℕ) (data : ℕ → ℕ → α) : Prop :=
  ∀ k < i, data k k ≠ 0 ∧ ∀ r < n, r ≠ k → data r k = 0

/-- A vector that is zero beyond column `i` meets row `r` in its own column and column `i` only. -/
lemma Reduced.sum_row (h : Reduced n i data) (him : i < m) (hx : ∀ c, c ≠ i → i ≤ c → x c = 0)
    {r : ℕ} (hr : r < n) : ∑ c ∈ range m, data r c * x c =
      (if r < i then data r r * x r else 0) + data r i * x i := by
  split
  · next hri =>
    apply sum_eq_add r i (by omega)
    · intro c _ hne
      by_cases hci : c < i
      · rw [(h c hci).2 r hr (Ne.symm hne.1), zero_mul]
      · rw [hx c hne.2 (not_lt.mp hci), mul_zero]
    · exact fun hrange => absurd (mem_range.mpr (hri.trans him)) hrange
    · exact fun hrange => absurd (mem_range.mpr him) hrange
  · next hri =>
    rw [zero_add]
    apply sum_eq_single i
    · intro c _ hne
      by_cases hci : c < i
      · rw [(h c hci).2 r hr (by omega), zero_mul]
      · rw [hx c hne (not_lt.mp hci), mul_zero]
    · exact fun hrange => absurd (mem_range.mpr him) hrange

/-- Without a pivot in the next column there is a vector that all rows send to zero. -/
lemma Reduced.exists_kernel (h : Reduced n i data) (him : i < m)
    (hcol : ∀ r < n, i ≤ r → data r i = 0) :
    ∃ x : ℕ → α, x i = 1 ∧ (∀ c, i < c → x c = 0) ∧ Kernel n m data x := by
  refine ⟨fun c => if c = i then 1 else if c < i then -(data c i) / data c c else 0, if_pos rfl,
    fun c hc => ?_, fun r hr => ?_⟩
  · simp only
    rw [if_neg (by omega), if_neg (by omega)]
  · rw [h.sum_row him _ hr]
    · split
      · next hri =>
        rw [if_neg (by omega), if_pos rfl, mul_div_cancel₀ _ (h r hri).1]
        ring
      · next hri => rw [hcol r hr (not_lt.mp hri), zero_mul, zero_add]
    · intro c hne hc
      rw [if_neg hne, if_neg (by omega)]

/-- Only the zero vector is sent to zero by rows with a determinant. -/
lemma eq_zero_of_det_ne_zero (hdet : (Matrix.of fun r c : Fin n => data r c).det ≠ 0)
    (hx : ∀ r < n, ∑ k ∈ range n, data r k * x k = 0) : ∀ k < n, x k = 0 := by
  have hzero : (fun k : Fin n => x k) = 0 := by
    apply Matrix.eq_zero_of_mulVec_eq_zero hdet
    funext r
    rw [Pi.zero_apply, ← hx r r.isLt, sum_range]
    rfl
  exact fun k hk => congrFun hzero ⟨k, hk⟩

end Rows

section LeastSquares

variable {ι κ α : Type*} [Field α] [LinearOrder α] [IsStrictOrderedRing α] (points : Finset ι)
  (unknowns : Finset κ) (D : ι → κ → α) (z : ι → α)

def deviation (s : κ → α) (i : ι) : α := z i + ∑ k ∈ unknowns, s k * D i k

/-- A solution of the normal equations has the least sum of squares. -/
lemma leastSquares {s : κ → α}
    (h : ∀ k ∈ unknowns, ∑ i ∈ points, D i k * deviation unknowns D z s i = 0) (c : κ → α) :
    ∑ i ∈ points, deviation unknowns D z s i ^ 2 ≤ ∑ i ∈ points, deviation unknowns D z c i ^ 2 :=
      by
  have hdifference : ∀ i, deviation unknowns D z c i =
      deviation unknowns D z s i + ∑ k ∈ unknowns, (c k - s k) * D i k := by
    intro i
    have hsplit : ∑ k ∈ unknowns, (c k - s k) * D i k =
        ∑ k ∈ unknowns, c k * D i k - ∑ k ∈ unknowns, s k * D i k := by
      rw [← sum_sub_distrib]
      exact sum_congr rfl fun k _ => by ring
    rw [hsplit, deviation, deviation]
    ring
  have hcross : ∑ i ∈ points, deviation unknowns D z s i * ∑ k ∈ unknowns, (c k - s k) * D i k =
      0 := by
    have hterm : ∀ i ∈ points, deviation unknowns D z s i * ∑ k ∈ unknowns, (c k - s k) * D i k =
        ∑ k ∈ unknowns, (c k - s k) * (D i k * deviation unknowns D z s i) := by
      intro i _
      rw [mul_sum]
      exact sum_congr rfl fun k _ => by ring
    rw [sum_congr rfl hterm, sum_comm]
    apply sum_eq_zero
    intro k hk
    rw [← mul_sum, h k hk, mul_zero]
  have hsum : ∑ i ∈ points, deviation unknowns D z c i ^ 2 =
      ∑ i ∈ points, deviation unknowns D z s i ^ 2 +
        ∑ i ∈ points, (∑ k ∈ unknowns, (c k - s k) * D i k) ^ 2 := by
    have hexpand : ∀ i ∈ points, deviation unknowns D z c i ^ 2 =
        deviation unknowns D z s i ^ 2 +
          2 * (deviation unknowns D z s i * ∑ k ∈ unknowns, (c k - s k) * D i k) +
          (∑ k ∈ unknowns, (c k - s k) * D i k) ^ 2 := by
      intro i _
      rw [hdifference i]
      ring
    rw [sum_congr rfl hexpand, sum_add_distrib, sum_add_distrib, ← mul_sum, hcross, mul_zero,
      add_zero]
  rw [hsum]
  exact le_add_of_nonneg_right (sum_nonneg fun i _ => sq_nonneg _)

end LeastSquares

end RepRapFirmware.Library.LinearSystems
