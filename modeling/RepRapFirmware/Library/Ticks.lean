import Mathlib.Tactic

/-! Times on a clock of 32 bits. Two times are compared by the sign of their difference. -/

namespace RepRapFirmware.Library.Ticks

/-- How far `a` is ahead of `b`, as a signed number. -/
def signedDiff (a b : UInt32) : ℤ := (a - b).toInt32.toInt

variable {a b : UInt32} {d : ℕ}

lemma signedDiff_eq : signedDiff a b =
    if ((a.toNat : ℤ) - b.toNat) % 2 ^ 32 < 2 ^ 31 then ((a.toNat : ℤ) - b.toNat) % 2 ^ 32
    else ((a.toNat : ℤ) - b.toNat) % 2 ^ 32 - 2 ^ 32 := by
  change (a - b).toBitVec.toInt = _
  rw [BitVec.toInt_eq_toNat_cond, UInt32.toNat_toBitVec, UInt32.toNat_sub]
  have ha := a.toNat_lt
  have hb := b.toNat_lt
  split_ifs <;> omega

lemma signedDiff_lt : signedDiff a b < 2 ^ 31 := by
  rw [signedDiff_eq]
  split_ifs <;> omega

lemma signedDiff_le : signedDiff a b ≤ (a - b).toNat := by
  rw [signedDiff_eq, UInt32.toNat_sub]
  have ha := a.toNat_lt
  have hb := b.toNat_lt
  split_ifs <;> omega

/-- As long as the difference does not wrap, it goes down as the clock goes up. -/
lemma signedDiff_add (h : -2 ^ 31 ≤ signedDiff a b - d) :
    signedDiff a (b + UInt32.ofNat d) = signedDiff a b - d := by
  have hlt := signedDiff_lt (a := a) (b := b)
  rw [signedDiff_eq] at h hlt ⊢
  rw [signedDiff_eq, UInt32.toNat_add, UInt32.toNat_ofNat']
  have ha := a.toNat_lt
  have hb := b.toNat_lt
  split_ifs at h hlt ⊢ <;> omega

end RepRapFirmware.Library.Ticks
