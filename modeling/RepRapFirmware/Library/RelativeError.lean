import Mathlib.Algebra.Order.Field.Basic
import Mathlib.Tactic

/-! Numbers that differ by a small part of themselves, and numbers of which only the leading digits
are kept. -/

namespace RepRapFirmware.Library.RelativeError

variable {F : Type*} [Field F] [LinearOrder F] [IsStrictOrderedRing F] {e x y : F}

/-- `x` stands for `y` with a relative error of at most `e`. -/
def Near (e x y : F) : Prop := |x - y| ≤ |y| * e

lemma near_refl (h : 0 ≤ e) (x : F) : Near e x x := by
  rw [Near, sub_self, abs_zero]
  exact mul_nonneg (abs_nonneg x) h

lemma Near.mul (h : Near e x y) (a : F) : Near e (a * x) (a * y) := by
  rw [Near, ← mul_sub, abs_mul, abs_mul, mul_assoc]
  exact mul_le_mul_of_nonneg_left h (abs_nonneg a)

/-- `r` stands for the leading digits of `n`, that is for all of them but the last `j`, with an
error that leaves room for the digits cut. -/
def Cut (e : F) (b j : ℕ) (r : F) (n : ℕ) : Prop :=
  |r - (n / b ^ j : ℕ)| + 1 ≤ (n / b ^ j : ℕ) * e

variable {b j n d : ℕ} {r : F}

omit [IsStrictOrderedRing F] in
lemma cut_zero (h : |r - n| + 1 ≤ n * e) : Cut e b 0 r n := by
  rw [Cut, pow_zero, Nat.div_one]
  exact h

omit [IsStrictOrderedRing F] in
lemma Cut.push (h : Cut e b j r n) (hd : d < b) : Cut e b (j + 1) r (n * b + d) := by
  have hleading : (n * b + d) / b ^ (j + 1) = n / b ^ j := by
    rw [pow_succ', ← Nat.div_div_eq_div_mul, mul_comm n b, Nat.mul_add_div (by omega),
      Nat.div_eq_of_lt hd, add_zero]
  rw [Cut, hleading]
  exact h

lemma Cut.near (h : Cut e b j r n) (hb : 0 < b) (he : 0 ≤ e) : Near e (r * b ^ j) n := by
  have hpow : (0 : F) < (b : F) ^ j := pow_pos (Nat.cast_pos.mpr hb) j
  -- The digits cut are less than one unit of the leading ones.
  have hrest : (n % b ^ j : ℕ) < (b : F) ^ j := by
    exact_mod_cast Nat.mod_lt n (pow_pos hb j)
  have hsplit : (n : F) = (n / b ^ j : ℕ) * (b : F) ^ j + (n % b ^ j : ℕ) := by
    exact_mod_cast (Nat.div_add_mod' n (b ^ j)).symm
  have hle : ((n / b ^ j : ℕ) : F) * (b : F) ^ j ≤ n := by
    rw [hsplit]
    exact le_add_of_nonneg_right (Nat.cast_nonneg _)
  rw [Near, abs_of_nonneg (Nat.cast_nonneg n : (0 : F) ≤ n)]
  calc |r * (b : F) ^ j - n|
      = |(r - (n / b ^ j : ℕ)) * (b : F) ^ j - (n % b ^ j : ℕ)| := by
        rw [hsplit]
        ring_nf
    _ ≤ |r - (n / b ^ j : ℕ)| * (b : F) ^ j + (n % b ^ j : ℕ) := by
        refine (abs_sub _ _).trans (le_of_eq ?_)
        rw [abs_mul, abs_of_pos hpow, Nat.abs_cast]
    _ ≤ (|r - (n / b ^ j : ℕ)| + 1) * (b : F) ^ j := by
        rw [add_one_mul]
        exact add_le_add_right hrest.le _
    _ ≤ (n / b ^ j : ℕ) * e * (b : F) ^ j := mul_le_mul_of_nonneg_right h hpow.le
    _ = (n / b ^ j : ℕ) * (b : F) ^ j * e := mul_right_comm _ _ _
    _ ≤ n * e := mul_le_mul_of_nonneg_right hle he

end RepRapFirmware.Library.RelativeError
