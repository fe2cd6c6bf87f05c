import Mathlib.Order.Basic
import Mathlib.Tactic

/-! A function applied until nothing changes any more. -/

namespace RepRapFirmware.Library.Saturation

variable {α : Type*} [DecidableEq α]

def saturate (f : α → α) : ℕ → α → α
  | 0, a => a
  | n + 1, a => if f a = a then a else saturate f n (f a)

variable {f : α → α}

/-- A measure that falls as long as something changes bounds the number of rounds. -/
lemma saturate_fixed (μ : α → ℕ) (hμ : ∀ a, f a ≠ a → μ (f a) < μ a) {n : ℕ} {a : α}
    (h : μ a ≤ n) : f (saturate f n a) = saturate f n a := by
  induction n generalizing a with
  | zero =>
    by_contra hne
    have := hμ a hne
    omega
  | succ n ih =>
    rw [saturate]
    split
    case isTrue heq => exact heq
    case isFalse hne =>
      apply ih
      have := hμ a hne
      omega

variable [Preorder α] {a b : α} {n : ℕ}

lemma le_saturate (hf : ∀ a, a ≤ f a) : a ≤ saturate f n a := by
  induction n generalizing a with
  | zero => exact le_rfl
  | succ n ih =>
    rw [saturate]
    split
    · exact le_rfl
    · exact (hf a).trans ih

/-- Nothing beyond what a closed value above the start has is reached. -/
lemma saturate_le (hf : Monotone f) (hb : f b ≤ b) (h : a ≤ b) : saturate f n a ≤ b := by
  induction n generalizing a with
  | zero => exact h
  | succ n ih =>
    rw [saturate]
    split
    · exact h
    · exact ih ((hf h).trans hb)

end RepRapFirmware.Library.Saturation
