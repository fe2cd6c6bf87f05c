import Mathlib

/-! When two floats compare. The order is partial because of NaN alone, and neither an integer
nor the product of a number with a finite constant is NaN. -/

namespace RepRapFirmware.Library.FloatOrder

open Float.Model Float.Model.UnpackedFloat

/-- The float is a number, infinities included. -/
def IsNumber (x : Float32) : Prop := x.toModel.unpack ≠ .notANumber

lemma unpack_packComponents {sign : Sign} {exponent : BitVec Format.binary32.exponentBits}
    {mantissa : BitVec Format.binary32.mantissaBitsWithoutImplicit}
    (h : exponent = -1#_ → mantissa = 0#_) :
    UnpackedFloat.unpack Format.binary32 (packComponents Format.binary32 sign exponent mantissa) ≠
      .notANumber := by
  rw [UnpackedFloat.unpack]
  simp only [unpackMantissa_packComponents, unpackExponent_packComponents]
  split_ifs with he hm <;> simp_all

lemma unpack_pack {f : UnpackedFloat} (h : f ≠ .notANumber) :
    UnpackedFloat.unpack Format.binary32 (pack Format.binary32 f) ≠ .notANumber := by
  fun_cases pack Format.binary32 f with
  | case1 => exact absurd rfl h
  | case2 s => exact unpack_packComponents fun _ => rfl
  | case3 s => exact unpack_packComponents fun _ => rfl
  | case4 => exact unpack_packComponents fun _ => rfl
  | case5 s m e hm actual biased hsmall hnormal =>
    refine unpack_packComponents fun he => ?_
    have hlt : biased < 2 ^ Format.binary32.exponentBits - 1 := by omega
    have hmod := congrArg BitVec.toNat he
    rw [BitVec.toNat_ofNat, Nat.mod_eq_of_lt (by omega)] at hmod
    exact absurd hlt (by rw [hmod]; decide)
  | case6 => exact unpack_packComponents fun he => absurd he (by decide)

lemma isNumber_pack {f : UnpackedFloat} (h : f ≠ .notANumber) :
    IsNumber (.ofModel (.pack f)) := unpack_pack h

lemma roundWithAccuracy_ne (sign : Sign) (mantissa : ℕ) (exponent : ℤ) (accuracy : Accuracy) :
    roundWithAccuracy Format.binary32 sign mantissa exponent accuracy ≠ .notANumber := by
  rw [roundWithAccuracy]
  dsimp only
  split_ifs <;> simp

lemma isNumber_ofInt16 (n : Int16) : IsNumber (.ofModel (.ofInt16 n)) := by
  refine isNumber_pack ?_
  rw [UnpackedFloat.ofInt16, UnpackedFloat.ofInt, UnpackedFloat.normalize]
  split
  · exact roundWithAccuracy_ne _ _ _ _
  · simp
  · exact roundWithAccuracy_ne _ _ _ _

lemma isNumber_mul {x c : Float32} (hx : IsNumber x) {sign : Sign} {mantissa : ℕ} {exponent : ℤ}
    {hm : 0 < mantissa} (hc : c.toModel.unpack = .finite sign mantissa exponent hm) :
    IsNumber (x * c) := by
  refine isNumber_pack ?_
  rw [hc]
  cases hux : x.toModel.unpack with
  | notANumber => exact absurd hux hx
  | infinity s => simp [UnpackedFloat.mul]
  | zero s => simp [UnpackedFloat.mul]
  | finite s m e h => exact roundWithAccuracy_ne _ _ _ _

lemma swap_then (e e' : ℤ) (m m' : ℕ) :
    ((compare e e').then (compare m m')).swap = (compare e' e).then (compare m' m) := by
  have he : compare e' e = (compare e e').swap := Std.OrientedCmp.eq_swap
  have hm : compare m' m = (compare m m').swap := Std.OrientedCmp.eq_swap
  rw [Ordering.swap_then, he, hm]

lemma lt_iff {x y : Float32} :
    x < y ↔ x.toModel.unpack.compare y.toModel.unpack = some .lt := by
  refine Iff.trans (decide_eq_true_iff (p := x.toModel < y.toModel)) ?_
  exact beq_iff_eq

lemma le_iff {x y : Float32} :
    x ≤ y ↔ (x.toModel.unpack.compare y.toModel.unpack).any (·.isLE) :=
  decide_eq_true_iff (p := x.toModel ≤ y.toModel)

lemma not_le_of_lt {x c : Float32} {mantissa : ℕ} {exponent : ℤ} {hm : 0 < mantissa}
    (hc : c.toModel.unpack = .finite .positive mantissa exponent hm) (h : x < c) : ¬ c ≤ x := by
  rw [lt_iff, hc] at h
  rw [le_iff, hc]
  cases hux : x.toModel.unpack with
  | notANumber => simp [UnpackedFloat.compare]
  | infinity s => cases s <;> simp_all [UnpackedFloat.compare]
  | zero s => simp [UnpackedFloat.compare]
  | finite s m e hm' =>
    cases s with
    | positive =>
      simp only [hux, UnpackedFloat.compare, Option.some.injEq] at h
      simp [UnpackedFloat.compare, ← swap_then e, h]
    | negative => simp [UnpackedFloat.compare]

/-- A number compares with every positive constant. -/
lemma lt_or_le {x c : Float32} (hx : IsNumber x) {mantissa : ℕ} {exponent : ℤ}
    {hm : 0 < mantissa} (hc : c.toModel.unpack = .finite .positive mantissa exponent hm) :
    x < c ∨ c ≤ x := by
  rw [lt_iff, le_iff, hc]
  cases hux : x.toModel.unpack with
  | notANumber => exact absurd hux hx
  | infinity s => cases s <;> simp [UnpackedFloat.compare]
  | zero s => simp [UnpackedFloat.compare]
  | finite s m e h =>
    cases s with
    | positive =>
      simp only [UnpackedFloat.compare, ← swap_then e]
      cases (compare e exponent).then (compare m mantissa) <;> simp
    | negative => simp [UnpackedFloat.compare]

end RepRapFirmware.Library.FloatOrder
