import Mathlib.Data.List.Range
import Mathlib.Tactic

/-! Passes over the places of an array that change every place in its turn. A place sees those
  before
it changed already, and those after it unchanged. -/

namespace RepRapFirmware.Library.Sweep

variable {α : Type*} (step : (ℕ → α) → ℕ → (ℕ → α))

def sweep (n : ℕ) (p : ℕ → α) : ℕ → α := (List.range n).foldl step p

/-- A step changes its own place only. -/
def Local : Prop := ∀ p a b, b ≠ a → step p a b = p b

variable {step} {p : ℕ → α} {n a : ℕ}

@[simp] lemma sweep_zero (p : ℕ → α) : sweep step 0 p = p := rfl

lemma sweep_succ (n : ℕ) (p : ℕ → α) : sweep step (n + 1) p = step (sweep step n p) n := by
  rw [sweep, List.range_succ, List.foldl_append]
  rfl

lemma Local.sweep_of_le (h : Local step) (ha : n ≤ a) : sweep step n p a = p a := by
  induction n with
  | zero => rfl
  | succ n ih =>
    rw [sweep_succ, h _ _ _ (by omega)]
    exact ih (by omega)

/-- A place keeps the value that it got in its turn. -/
lemma Local.sweep_of_lt (h : Local step) (ha : a < n) :
    sweep step n p a = step (sweep step a p) a a := by
  induction n with
  | zero => exact absurd ha (Nat.not_lt_zero a)
  | succ n ih =>
    rw [sweep_succ]
    rcases Nat.lt_succ_iff_lt_or_eq.mp ha with hlt | rfl
    · rw [h _ _ _ (by omega), ih hlt]
    · rfl

/-- What a place sees of another one in its turn. -/
lemma Local.sweep_seen (h : Local step) (ha : a < n) (b : ℕ) :
    sweep step a p b = if b < a then sweep step n p b else p b := by
  split
  · next hb => rw [h.sweep_of_lt hb, h.sweep_of_lt (hb.trans ha)]
  · next hb => exact h.sweep_of_le (not_lt.mp hb)

/-- A step that leaves its own place alone, whatever it sees, leaves that place alone in a pass. -/
lemma Local.sweep_eq (h : Local step) (ha : ∀ q : ℕ → α, step q a a = q a) :
    sweep step n p a = p a := by
  by_cases hlt : a < n
  · rw [h.sweep_of_lt hlt, ha, h.sweep_of_le le_rfl]
  · exact h.sweep_of_le (not_lt.mp hlt)

end RepRapFirmware.Library.Sweep
