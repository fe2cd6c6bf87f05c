import Mathlib.Data.List.Basic
import Mathlib.Tactic

/-! A line with two levels that carries bits, all of the same length: when its level changes. -/

namespace RepRapFirmware.Library.LineCode

/-- The changes of a line that was at `level` and carries the bits from the time `t` on. -/
def edges (b : ℕ) : ℕ → Bool → List Bool → List ℕ
  | _, _, [] => []
  | t, level, bit :: bits => if bit = level then edges b (t + b) level bits
      else t :: edges b (t + b) bit bits

variable {b t e : ℕ} {level bit : Bool} {bits : List Bool}

@[simp]
lemma edges_nil : edges b t level [] = [] := rfl

@[simp]
lemma edges_same : edges b t level (level :: bits) = edges b (t + b) level bits := by
  simp [edges]

lemma edges_change (h : bit ≠ level) :
    edges b t level (bit :: bits) = t :: edges b (t + b) bit bits := by
  simp [edges, h]

lemma edges_append (xs ys : List Bool) : edges b t level (xs ++ ys) =
    edges b t level xs ++ edges b (t + b * xs.length) (xs.getLastD level) ys := by
  induction xs generalizing t level with
  | nil => simp
  | cons bit xs ih =>
    have hlen : t + b * (bit :: xs).length = t + b + b * xs.length := by
      rw [List.length_cons]
      ring
    by_cases h : bit = level
    · subst h
      rw [List.cons_append, edges_same, edges_same, ih, hlen, List.getLastD_cons]
    · rw [List.cons_append, edges_change h, edges_change h, ih, hlen, List.getLastD_cons,
        List.cons_append]

lemma bounds_of_mem (h : e ∈ edges b t level bits) : t ≤ e ∧ e + b ≤ t + b * bits.length := by
  induction bits generalizing t level with
  | nil => exact absurd h List.not_mem_nil
  | cons bit bits ih =>
    have hlen : t + b * (bit :: bits).length = t + b + b * bits.length := by
      rw [List.length_cons]
      ring
    rw [hlen]
    by_cases hbit : bit = level
    · subst hbit
      rw [edges_same] at h
      have hle := ih h
      omega
    · rw [edges_change hbit] at h
      cases List.mem_cons.mp h with
      | inl h => exact ⟨h.ge, by omega⟩
      | inr h =>
        have hle := ih h
        omega

lemma sorted_edges : (edges b t level bits).Pairwise (· ≤ ·) := by
  induction bits generalizing t level with
  | nil => exact List.Pairwise.nil
  | cons bit bits ih =>
    by_cases hbit : bit = level
    · subst hbit
      rw [edges_same]
      exact ih
    · rw [edges_change hbit]
      apply List.Pairwise.cons _ ih
      intro e he
      have hle := (bounds_of_mem he).1
      omega

/-- The level after the bits is that before them, once negated for each change. -/
lemma parity_edges {n : ℕ} (h : (n % 2 = 1) ↔ level = true) :
    ((n + (edges b t level bits).length) % 2 = 1) ↔ bits.getLastD level = true := by
  induction bits generalizing t level n with
  | nil => exact h
  | cons bit bits ih =>
    rw [List.getLastD_cons]
    by_cases hbit : bit = level
    · subst hbit
      rw [edges_same]
      exact ih h
    · rw [edges_change hbit, List.length_cons, add_comm _ 1, ← add_assoc]
      apply ih
      cases level <;> cases bit <;> simp_all <;> omega

end RepRapFirmware.Library.LineCode
