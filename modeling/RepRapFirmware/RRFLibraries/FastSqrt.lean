import RepRapFirmware.RRFLibraries.Isqrt

/-! The square root of a single-precision number without a floating point unit. -/

namespace RepRapFirmware.RRFLibraries.FastSqrt

open Library.DigitSquareRoot Isqrt

def exponentField (bits : UInt32) : ℕ := bits.toNat / 2 ^ 23 % 2 ^ 8

def fractionField (bits : UInt32) : ℕ := bits.toNat % 2 ^ 23

def IsFinite (bits : UInt32) : Prop := exponentField bits ≠ 0xFF

def PositiveNormal (bits : UInt32) : Prop :=
  bits.toNat < 2 ^ 31 ∧ exponentField bits ≠ 0 ∧ exponentField bits ≠ 0xFF

instance (bits : UInt32) : Decidable (PositiveNormal bits) := inferInstanceAs (Decidable (_ ∧ _))

def mantissa (bits : UInt32) : ℕ :=
  if exponentField bits = 0 then fractionField bits else 2 ^ 23 + fractionField bits

def unitExponent (bits : UInt32) : ℤ :=
  if exponentField bits = 0 then -149 else exponentField bits - 150

/-- The number that a finite bit pattern stands for. -/
def value (bits : UInt32) : ℚ :=
  (if bits.toNat < 2 ^ 31 then 1 else -1) * (mantissa bits * 2 ^ unitExponent bits)

/-- The remainder has 17 digits, so it is shifted by 14 places only. -/
def shiftRemainder (s : Root32) : Root32 where
  num := shl s.num 14
  res := shl s.res 7
  overflow := s.overflow || !decide (Fits 32 s.num.toNat 14 ∧ Fits 32 s.res.toNat 7)

def lastDigit (s : Root32) : Root32 :=
  let fraction := shl s.num 2
  let temp := shl s.res 1 ||| 1
  let overflow := s.overflow || !decide (Fits 32 s.num.toNat 2 ∧ Fits 32 s.res.toNat 1)
  if fraction ≥ temp then ⟨fraction - temp, s.res ||| 1, overflow⟩ else ⟨fraction, s.res, overflow⟩

/-- Step 7 of the source: 24 digits of the root of a fraction of 32 bits, and the remainder. -/
def rootDigits (fraction : UInt32) : Root32 :=
  let s := (places 16).foldl iter32 ⟨fraction, 0, false⟩
  lastDigit ((places 7).foldl iter32 (shiftRemainder s))

/-- The result, and whether a value has left its word or its field on the way. -/
def fastSqrtf (f : UInt32) : UInt32 × Bool :=
  if f.toInt32 ≤ 0 then (0, false)
  else
    let uexponent := f >>> 23
    if uexponent = 0xFF ∨ uexponent = 0 then (f, false)
    else
      let fraction := (f &&& (shl 1 23 - 1)) ||| shl 1 23
      let exponent : ℤ := uexponent.toNat - 127
      let shift := 7 + (exponent % 2).toNat
      let s := rootDigits (shl fraction shift)
      let res := if s.num > s.res then s.res + 1 else s.res
      let exponent := exponent / 2 + 127
      let overflow := s.overflow ||
        !decide (Fits 32 fraction.toNat shift ∧ res.toNat < 2 ^ 24 ∧ 0 ≤ exponent ∧ exponent < 0xFF)
      ((res &&& (shl 1 23 - 1)) ||| shl (UInt32.ofInt exponent) 23, overflow)

variable {f g fraction : UInt32} {s : Root32} {x r rem : ℕ}

/-! ### The digits -/

lemma shl_of_lt {a : UInt32} {n b : ℕ} (hn : n < 32) (h : a.toNat < 2 ^ b) (hb : b + n ≤ 32) :
    Fits 32 a.toNat n ∧ (shl a n).toNat = a.toNat * 2 ^ n := by
  have hfits : Fits 32 a.toNat n := by
    calc a.toNat * 2 ^ n < 2 ^ b * 2 ^ n := Nat.mul_lt_mul_of_pos_right h (by positivity)
      _ = 2 ^ (b + n) := (pow_add 2 b n).symm
      _ ≤ 2 ^ 32 := Nat.pow_le_pow_right (by omega) hb
  exact ⟨hfits, toNat_shl hn hfits⟩

/-- The remainder takes one bit more than the root. -/
lemma rem_lt {m : ℕ} (h : Partial x 0 r rem) (hr : r < 2 ^ m) : rem < 2 ^ (m + 1) := by
  have hbelow := h.below
  rw [mul_zero, pow_zero, mul_one] at hbelow
  rw [pow_succ]
  omega

lemma shiftRemainder_progress (h : Progress32 x 16 0 s r) :
    Progress32 (x * 2 ^ 14) 16 7 (shiftRemainder s) r := by
  obtain ⟨hfound, hsmall, hres, hfits⟩ := h
  obtain ⟨hfitsNum, hnum⟩ := shl_of_lt (n := 14) (by norm_num) (rem_lt hfound hsmall) (by norm_num)
  obtain ⟨hfitsRes, hshl⟩ := shl_of_lt (a := s.res) (n := 7) (b := 17) (by norm_num)
    (by rw [hres]; omega) (by norm_num)
  refine ⟨?_, hsmall, ?_, ?_⟩
  · have hextended := hfound.extend (y := 0) (n := 7) (by norm_num)
    rw [show 2 * 7 = 14 by norm_num, add_zero, add_zero, ← hnum] at hextended
    exact hextended
  · rw [shiftRemainder, hshl, hres]
    ring
  · rw [shiftRemainder, hfits, decide_eq_true ⟨hfitsNum, hfitsRes⟩]
    rfl

lemma lastDigit_spec (h : Progress32 x 23 0 s r) : ∃ r',
    Partial (x * 2 ^ 2) 0 r' (lastDigit s).num.toNat ∧ r' < 2 ^ 24 ∧
      (lastDigit s).res.toNat = r' ∧ (lastDigit s).overflow = false := by
  obtain ⟨hfound, hsmall, hres, hfits⟩ := h
  have hres' : s.res.toNat = 2 * r := by rw [hres]; ring
  obtain ⟨hfitsNum, hnum⟩ := shl_of_lt (n := 2) (by norm_num) (rem_lt hfound hsmall) (by norm_num)
  obtain ⟨hfitsRes, -, htemp, -⟩ := shifted_res hsmall hres' (by norm_num)
  have hone : (s.res ||| 1).toNat = 2 * r + 1 := by
    have hor := or_eq_add (a := s.res.toNat) (b := 1) (k := r) (m := 1) (by rw [hres']; ring)
      (by norm_num)
    rw [UInt32.toNat_or, UInt32.toNat_one, hor, hres']
  have hflag : (s.overflow || !decide (Fits 32 s.num.toNat 2 ∧ Fits 32 s.res.toNat 1)) = false := by
    rw [hfits, decide_eq_true ⟨hfitsNum, hfitsRes⟩]
    rfl
  have hextended : Partial (x * 2 ^ 2) 1 r (shl s.num 2).toNat := by
    have hextended := hfound.extend (y := 0) (n := 1) (by norm_num)
    rw [mul_one, add_zero, add_zero, ← hnum] at hextended
    exact hextended
  by_cases hge : shl s.num 2 ≥ shl s.res 1 ||| 1
  · have hle : 4 * r + 1 ≤ (shl s.num 2).toNat := htemp ▸ UInt32.le_iff_toNat_le.mp hge
    refine ⟨2 * r + 1, ?_⟩
    rw [lastDigit, if_pos hge]
    refine ⟨?_, by omega, hone, hflag⟩
    rw [UInt32.toNat_sub_of_le _ _ hge, htemp]
    simpa using hextended.one (by simpa using hle)
  · have hlt : (shl s.num 2).toNat < 4 * r + 1 := by
      rw [← htemp, ← Nat.not_le, ← UInt32.le_iff_toNat_le]
      exact hge
    refine ⟨2 * r, ?_⟩
    rw [lastDigit, if_neg hge]
    exact ⟨hextended.zero (by simpa using hlt), by omega, hres', hflag⟩

lemma rootDigits_spec (fraction : UInt32) : ∃ r,
    Partial (fraction.toNat * 2 ^ 16) 0 r (rootDigits fraction).num.toNat ∧ r < 2 ^ 24 ∧
      (rootDigits fraction).res.toNat = r ∧ (rootDigits fraction).overflow = false := by
  have hstart : Progress32 fraction.toNat 0 16 ⟨fraction, 0, false⟩ 0 :=
    ⟨partial_start fraction.toNat_lt, by norm_num, by simp, rfl⟩
  obtain ⟨r₁, h₁⟩ := iter32_run hstart (by norm_num)
  obtain ⟨r₂, h₂⟩ := iter32_run (shiftRemainder_progress h₁) (by norm_num)
  have hspec := lastDigit_spec h₂
  rw [mul_assoc, ← pow_add] at hspec
  exact hspec

/-! ### The fields -/

/-- The fraction with its leading one. -/
lemma mantissa_toNat (f : UInt32) :
    ((f &&& (shl 1 23 - 1)) ||| shl 1 23).toNat = 2 ^ 23 + fractionField f := by
  have hmask : (shl 1 23 - 1).toNat = 2 ^ 23 - 1 := by decide
  have hone : (shl 1 23).toNat = 2 ^ 23 := by decide
  have hand : (f &&& (shl 1 23 - 1)).toNat = fractionField f := by
    rw [UInt32.toNat_and, hmask, Nat.and_two_pow_sub_one_eq_mod]
    rfl
  rw [UInt32.toNat_or, hand, hone, Nat.or_comm]
  exact or_eq_add (k := 1) (one_mul _).symm (Nat.mod_lt _ (by norm_num))

lemma uexponent_toNat (hf : f.toNat < 2 ^ 31) : (f >>> 23).toNat = exponentField f := by
  have hshift : (f >>> 23).toNat = f.toNat / 2 ^ 23 := by
    rw [UInt32.toNat_shiftRight, Nat.shiftRight_eq_div_pow]
    rfl
  rw [hshift, exponentField]
  omega

lemma operand_positive (hf : PositiveNormal f) : ¬ f.toInt32 ≤ 0 := by
  obtain ⟨hlt, hexponent, -⟩ := hf
  have hint : f.toInt32.toInt = f.toNat := by
    have hbits : f.toInt32.toInt = f.toBitVec.toInt := rfl
    rw [hbits, BitVec.toInt_eq_toNat_of_lt (by rw [UInt32.toNat_toBitVec]; omega)]
    rfl
  rw [Int32.le_iff_toInt_le, hint, Int32.toInt_zero]
  rw [exponentField] at hexponent
  omega

lemma toNat_fields (bits : UInt32) (h : bits.toNat < 2 ^ 31) :
    bits.toNat = exponentField bits * 2 ^ 23 + fractionField bits := by
  rw [exponentField, fractionField]
  omega

/-- The result put together from an exponent and a mantissa with its leading one. -/
lemma assembled_toNat {res : UInt32} {e : ℤ} (hlow : 2 ^ 23 ≤ res.toNat) (hhigh
    : res.toNat < 2 ^ 24)
    (he : 0 ≤ e) (he' : e < 0xFF) :
    ((res &&& (shl 1 23 - 1)) ||| shl (UInt32.ofInt e) 23).toNat =
      e.toNat * 2 ^ 23 + (res.toNat - 2 ^ 23) := by
  have hmask : (shl 1 23 - 1).toNat = 2 ^ 23 - 1 := by decide
  have hand : (res &&& (shl 1 23 - 1)).toNat = res.toNat - 2 ^ 23 := by
    rw [UInt32.toNat_and, hmask, Nat.and_two_pow_sub_one_eq_mod]
    omega
  have hint : (UInt32.ofInt e).toNat = e.toNat := by
    rw [UInt32.ofInt, UInt32.toNat_ofNat']
    omega
  obtain ⟨-, hshl⟩ := shl_of_lt (a := UInt32.ofInt e) (n := 23) (b := 8) (by norm_num)
    (by rw [hint]; omega) (by norm_num)
  rw [UInt32.toNat_or, hand, hshl, hint, Nat.or_comm]
  exact or_eq_add rfl (by omega)

/-- The fraction of 32 bits whose root is taken, for an exponent field `e`. -/
def scaled (f : UInt32) : ℕ :=
  (2 ^ 23 + fractionField f) * 2 ^ (7 + ((exponentField f - 127 : ℤ) % 2).toNat)

lemma scaled_bounds (f : UInt32) : 2 ^ 30 ≤ scaled f ∧ scaled f ≤ 2 ^ 32 - 2 ^ 8 := by
  have hfraction : fractionField f < 2 ^ 23 := Nat.mod_lt _ (by norm_num)
  rw [scaled]
  rcases Int.emod_two_eq_zero_or_one (exponentField f - 127 : ℤ) with h | h <;> rw [h] <;>
    norm_num <;> omega

lemma rounded_toNat (hr : r < 2 ^ 24) (hrem : s.num.toNat = rem) (hres : s.res.toNat = r) :
    (if s.num > s.res then s.res + 1 else s.res).toNat = if r < rem then r + 1 else r := by
  have hiff : s.num > s.res ↔ r < rem := by
    rw [gt_iff_lt, UInt32.lt_iff_toNat_lt, hres, hrem]
  by_cases h : r < rem
  · rw [if_pos h, if_pos (hiff.mpr h), UInt32.toNat_add, hres, UInt32.toNat_one]
    omega
  · rw [if_neg h, if_neg (mt hiff.mp h), hres]

/-- Rounding up never carries out of the mantissa. -/
lemma rounded_bounds (h : Partial (x * 2 ^ 16) 0 r rem) (hlow : 2 ^ 30 ≤ x) (hhigh : x ≤
    2 ^ 32 - 2 ^ 8) :
    2 ^ 23 ≤ r ∧ (if r < rem then r + 1 else r) < 2 ^ 24 := by
  have hfloor : 2 ^ 23 ≤ r := h.le_root (m := 23) (by omega)
  have hceil : r < 2 ^ 24 := h.root_lt (m := 24) (by omega)
  refine ⟨hfloor, ?_⟩
  split_ifs with hround
  · by_contra hcarry
    obtain rfl : r = 2 ^ 24 - 1 := by omega
    have hsplit := h.split
    norm_num at hsplit hround
    omega
  · exact hceil

lemma fastSqrtf_spec (hf : PositiveNormal f) : ∃ r rem, Partial (scaled f * 2 ^ 16) 0 r rem ∧
    2 ^ 23 ≤ r ∧ (if r < rem then r + 1 else r) < 2 ^ 24 ∧ (fastSqrtf f).2 = false ∧
    (fastSqrtf f).1.toNat = ((exponentField f - 127 : ℤ) / 2 + 127).toNat * 2 ^ 23 +
      ((if r < rem then r + 1 else r) - 2 ^ 23) := by
  obtain ⟨hlt, hzero, hmax⟩ := hf
  have huexponent := uexponent_toNat hlt
  have hrange : ¬ (f >>> 23 = 0xFF ∨ f >>> 23 = 0) := by
    rw [← UInt32.toNat_inj, ← UInt32.toNat_inj, huexponent]
    exact not_or.mpr ⟨hmax, hzero⟩
  have hfield : exponentField f < 2 ^ 8 := Nat.mod_lt _ (by norm_num)
  obtain ⟨hlow, hhigh⟩ := scaled_bounds f
  have hmantissa := mantissa_toNat f
  have hfits : Fits 32 ((f &&& (shl 1 23 - 1)) ||| shl 1 23).toNat
      (7 + ((exponentField f - 127 : ℤ) % 2).toNat) := by
    rw [Fits, hmantissa]
    exact hhigh.trans_lt (by norm_num)
  have hshl : (shl ((f &&& (shl 1 23 - 1)) ||| shl 1 23)
      (7 + ((exponentField f - 127 : ℤ) % 2).toNat)).toNat = scaled f := by
    rw [toNat_shl (by omega) hfits, hmantissa]
    rfl
  have hdigits := rootDigits_spec (shl ((f &&& (shl 1 23 - 1)) ||| shl 1 23)
    (7 + ((exponentField f - 127 : ℤ) % 2).toNat))
  rw [fastSqrtf, if_neg (operand_positive ⟨hlt, hzero, hmax⟩), if_neg hrange, huexponent]
  simp only
  rw [hshl] at hdigits
  generalize rootDigits _ = s at hdigits ⊢
  obtain ⟨r, hfound, hr, hres, hoverflow⟩ := hdigits
  obtain ⟨hroot, hcarry⟩ := rounded_bounds hfound hlow hhigh
  have hrounded := rounded_toNat hr rfl hres
  refine ⟨r, s.num.toNat, hfound, hroot, hcarry, ?_, ?_⟩
  · rw [hoverflow, hrounded, decide_eq_true ⟨hfits, hcarry, by omega, by omega⟩]
    rfl
  · rw [assembled_toNat (by rw [hrounded]; split_ifs <;> omega) (by rw [hrounded]; exact hcarry)
      (by omega) (by omega), hrounded]

/-! ### The numbers -/

lemma mantissa_lt (g : UInt32) : mantissa g < 2 ^ 24 := by
  have hfraction : fractionField g < 2 ^ 23 := Nat.mod_lt _ (by norm_num)
  rw [mantissa]
  split_ifs <;> omega

lemma value_normal (hf : PositiveNormal f) :
    value f = ((2 ^ 23 + fractionField f : ℕ) : ℚ) * 2 ^ (exponentField f - 150 : ℤ) := by
  rw [value, mantissa, unitExponent, if_pos hf.1, if_neg hf.2.1, if_neg hf.2.1, one_mul]

/-- A number on the scale of another one is a whole number or smaller than any mantissa there. -/
lemma value_scaled (g : UInt32) (k : ℤ) :
    (∃ n : ℤ, value g * 2 ^ (-k) = n) ∨ value g * 2 ^ (-k) < 2 ^ 23 := by
  have hmantissa : (mantissa g : ℚ) < 2 ^ 24 := by exact_mod_cast mantissa_lt g
  have hvalue : value g * 2 ^ (-k) =
      (if g.toNat < 2 ^ 31 then 1 else -1) * (mantissa g * 2 ^ (unitExponent g - k)) := by
    rw [value, sub_eq_add_neg, zpow_add₀ (by norm_num)]
    ring
  rcases le_or_gt k (unitExponent g) with hle | hlt
  · left
    obtain ⟨n, hn⟩ := Int.eq_ofNat_of_zero_le (sub_nonneg.mpr hle)
    rw [hvalue, hn, zpow_natCast]
    split_ifs
    · exact ⟨mantissa g * 2 ^ n, by push_cast; ring⟩
    · exact ⟨-(mantissa g * 2 ^ n), by push_cast; ring⟩
  · right
    have hhalf : (2 : ℚ) ^ (unitExponent g - k) ≤ 2 ^ (-1 : ℤ) :=
      zpow_le_zpow_right₀ (by norm_num) (by omega)
    have hpos : (0 : ℚ) < 2 ^ (unitExponent g - k) := by positivity
    have hsmall : (mantissa g : ℚ) * 2 ^ (unitExponent g - k) < 2 ^ 23 := by
      calc (mantissa g : ℚ) * 2 ^ (unitExponent g - k) < 2 ^ 24 * 2 ^ (unitExponent g - k) :=
            mul_lt_mul_of_pos_right hmantissa hpos
        _ ≤ 2 ^ 24 * 2 ^ (-1 : ℤ) := mul_le_mul_of_nonneg_left hhalf (by positivity)
        _ = 2 ^ 23 := by norm_num
    have hnonneg : (0 : ℚ) ≤ mantissa g * 2 ^ (unitExponent g - k) := by positivity
    rw [hvalue]
    split_ifs
    · rwa [one_mul]
    · linarith

lemma exponent_unique {a b : ℕ} {i j : ℤ} (ha : a < 2 ^ 24) (hb : 2 ^ 23 ≤ b)
    (h : (a : ℚ) * 2 ^ i = b * 2 ^ j) : j ≤ i := by
  by_contra hlt
  have hb' : (2 : ℚ) ^ (23 : ℤ) ≤ b := by exact_mod_cast hb
  have ha' : (a : ℚ) < 2 ^ (24 : ℤ) := by exact_mod_cast ha
  have hle : (2 : ℚ) ^ (24 + i) ≤ 2 ^ (23 + j) := zpow_le_zpow_right₀ (by norm_num) (by omega)
  have hchain : (a : ℚ) * 2 ^ i < b * 2 ^ j := by
    calc (a : ℚ) * 2 ^ i < 2 ^ (24 : ℤ) * 2 ^ i := by
          exact mul_lt_mul_of_pos_right ha' (by positivity)
      _ = 2 ^ (24 + i) := (zpow_add₀ (by norm_num) _ _).symm
      _ ≤ 2 ^ (23 + j) := hle
      _ = 2 ^ (23 : ℤ) * 2 ^ j := zpow_add₀ (by norm_num) _ _
      _ ≤ b * 2 ^ j := mul_le_mul_of_nonneg_right hb' (by positivity)
  exact absurd h hchain.ne

/-- A positive normal number has one bit pattern. -/
lemma value_injective (hf : PositiveNormal f) (h : value g = value f) : g = f := by
  have hfraction : fractionField f < 2 ^ 23 := Nat.mod_lt _ (by norm_num)
  have hfraction' : fractionField g < 2 ^ 23 := Nat.mod_lt _ (by norm_num)
  have hfbits := toNat_fields f hf.1
  rw [value_normal hf] at h
  have hpos : (0 : ℚ) < ((2 ^ 23 + fractionField f : ℕ) : ℚ) * 2 ^ (exponentField f - 150 : ℤ) :=
    mul_pos (by exact_mod_cast Nat.add_pos_left (by norm_num) _) (by positivity)
  have hnonneg : (0 : ℚ) ≤ mantissa g * 2 ^ unitExponent g := by positivity
  rw [value] at h
  split_ifs at h with hsign
  · rw [one_mul] at h
    have hgbits := toNat_fields g hsign
    have hle := exponent_unique (mantissa_lt g) (Nat.le_add_right (2 ^ 23) (fractionField f)) h
    have hnormal : exponentField g ≠ 0 := by
      intro hzero
      have hone : exponentField f = 1 := by
        have hnonzero := hf.2.1
        rw [unitExponent, if_pos hzero] at hle
        omega
      rw [mantissa, if_pos hzero, unitExponent, if_pos hzero, hone] at h
      have hmantissa : (fractionField g : ℚ) = (2 ^ 23 + fractionField f : ℕ) :=
        mul_right_cancel₀ (by positivity) h
      have hsame : fractionField g = 2 ^ 23 + fractionField f := by exact_mod_cast hmantissa
      omega
    rw [mantissa, if_neg hnormal, unitExponent, if_neg hnormal] at h
    have hge := exponent_unique (by omega) (Nat.le_add_right (2 ^ 23) (fractionField g)) h.symm
    rw [unitExponent, if_neg hnormal] at hle
    have hexponent : exponentField g = exponentField f := by omega
    rw [hexponent] at h
    have hmantissa := mul_right_cancel₀ (by positivity) h
    have hsame : 2 ^ 23 + fractionField g = 2 ^ 23 + fractionField f := by exact_mod_cast hmantissa
    apply UInt32.toNat_inj.mp
    omega
  · linarith

/-- Among the numbers that are whole or below the smallest mantissa, the rounded root is the
nearest one to the root. -/
lemma rounded_nearest (h : Partial x 0 r rem) (hlow : 2 ^ 23 ≤ r) {z : ℝ}
    (hz : (∃ n : ℤ, z = n) ∨ z < 2 ^ 23) (hne : z ≠ ((if r < rem then r + 1 else r : ℕ) : ℝ)) :
    |√x - ((if r < rem then r + 1 else r : ℕ) : ℝ)| < |√x - z| := by
  have hround := h.round
  have hr : (2 : ℝ) ^ 23 ≤ r := by exact_mod_cast hlow
  split_ifs at hround hne ⊢ with hup
  · obtain ⟨habove, hbelow⟩ := hround
    have hclose : |√x - ((r + 1 : ℕ) : ℝ)| = r + 1 - √x := by
      rw [abs_sub_comm, abs_of_nonneg] <;> push_cast <;> linarith
    rw [hclose]
    rcases hz with ⟨n, rfl⟩ | hz
    · rcases lt_or_gt_of_ne (show n ≠ (r + 1
        : ℕ) from fun heq => hne (by rw [heq]; rfl)) with hn | hn
      · have hn' : (n : ℝ) ≤ r := by exact_mod_cast Int.lt_add_one_iff.mp (by exact_mod_cast hn)
        rw [abs_of_pos (by linarith)]
        linarith
      · have hn' : (r : ℝ) + 2 ≤ n := by
          have hint : (r : ℤ) + 2 ≤ n := by push_cast at hn; omega
          exact_mod_cast hint
        rw [abs_of_neg (by linarith)]
        linarith
    · rw [abs_of_pos (by linarith)]
      linarith
  · obtain ⟨habove, hbelow⟩ := hround
    rw [abs_of_nonneg (by linarith)]
    rcases hz with ⟨n, rfl⟩ | hz
    · rcases lt_or_gt_of_ne (show n ≠ (r : ℤ) from fun heq => hne (by rw [heq]; rfl)) with hn | hn
      · have hn' : (n : ℝ) + 1 ≤ r := by exact_mod_cast hn
        rw [abs_of_pos (by linarith)]
        linarith
      · have hn' : (r : ℝ) + 1 ≤ n := by exact_mod_cast hn
        rw [abs_of_neg (by linarith)]
        linarith
    · rw [abs_of_pos (by linarith)]
      linarith

/-- The root of a positive normal number, as a multiple of a power of two. -/
lemma sqrt_value (hf : PositiveNormal f) : √(value f : ℝ) =
    √((scaled f * 2 ^ 16 : ℕ) : ℝ) * 2 ^ ((exponentField f - 127 : ℤ) / 2 - 23) := by
  have hexponent : (exponentField f - 150 : ℤ) =
      (((exponentField f - 127 : ℤ) % 2).toNat + 23 : ℕ) +
        2 * ((exponentField f - 127 : ℤ) / 2 - 23) := by omega
  have hvalue : (value f : ℝ) = ((scaled f * 2 ^ 16 : ℕ) : ℝ) *
      (2 ^ ((exponentField f - 127 : ℤ) / 2 - 23)) ^ 2 := by
    rw [value_normal hf, hexponent, zpow_add₀ (by norm_num), mul_comm 2 (_ - _), zpow_mul,
      zpow_natCast, scaled, zpow_ofNat]
    push_cast
    ring
  rw [hvalue, Real.sqrt_mul (Nat.cast_nonneg _), Real.sqrt_sq (by positivity)]

/-- The result is a positive normal number, strictly nearer to the root than every other number
in single precision, and nothing has left its word or its field. -/
theorem fastSqrtf_nearest (f : UInt32) (hf : PositiveNormal f) :
    PositiveNormal (fastSqrtf f).1 ∧ (fastSqrtf f).2 = false ∧
      ∀ g, IsFinite g → g ≠ (fastSqrtf f).1 →
        |√(value f : ℝ) - value (fastSqrtf f).1| < |√(value f : ℝ) - value g| := by
  obtain ⟨r, rem, hfound, hlow, hhigh, hfits, hbits⟩ := fastSqrtf_spec hf
  have hfield : exponentField f < 2 ^ 8 := Nat.mod_lt _ (by norm_num)
  have hle : 2 ^ 23 ≤ if r < rem then r + 1 else r := by split_ifs <;> omega
  have hsqrt := sqrt_value hf
  have hnearest := fun z hz hne => rounded_nearest (z := z) hfound hlow hz hne
  generalize (if r < rem then r + 1 else r) = res at hhigh hbits hle hnearest
  generalize hh : (exponentField f - 127 : ℤ) / 2 = h at hbits hsqrt
  have hexponent : exponentField (fastSqrtf f).1 = (h + 127).toNat := by
    rw [exponentField, hbits]
    omega
  have hfraction : fractionField (fastSqrtf f).1 = res - 2 ^ 23 := by
    rw [fractionField, hbits]
    omega
  have hnormal : PositiveNormal (fastSqrtf f).1 := by
    refine ⟨?_, ?_, ?_⟩ <;> omega
  have hvalue : (value (fastSqrtf f).1 : ℝ) = res * 2 ^ (h - 23) := by
    rw [value_normal hnormal, hexponent, hfraction, show 2 ^ 23 + (res - 2 ^ 23) = res by omega,
      show (((h + 127).toNat : ℕ) : ℤ) - 150 = h - 23 by omega]
    push_cast
    rfl
  refine ⟨hnormal, hfits, fun g _ hne => ?_⟩
  have hscale : (0 : ℝ) < 2 ^ (h - 23) := by positivity
  have hg : (value g : ℝ) = (value g * 2 ^ (-(h - 23)) : ℚ) * 2 ^ (h - 23) := by
    push_cast
    rw [mul_assoc, ← zpow_add₀ (by norm_num), neg_add_cancel, zpow_zero, mul_one]
  have hdiffer : ((value g * 2 ^ (-(h - 23)) : ℚ) : ℝ) ≠ (res : ℝ) := by
    intro heq
    apply hne
    apply value_injective hnormal
    rw [heq, ← hvalue] at hg
    exact_mod_cast hg
  have hkind : (∃ n : ℤ, ((value g * 2 ^ (-(h - 23)) : ℚ) : ℝ) = n) ∨
      ((value g * 2 ^ (-(h - 23)) : ℚ) : ℝ) < 2 ^ 23 := by
    rcases value_scaled g (h - 23) with ⟨n, hn⟩ | hsmall
    · exact .inl ⟨n, by rw [hn]; rfl⟩
    · exact .inr (by exact_mod_cast hsmall)
  have hcloser := hnearest _ hkind hdiffer
  rw [hsqrt, hvalue, hg, ← sub_mul, ← sub_mul, abs_mul, abs_mul, abs_of_pos hscale]
  exact mul_lt_mul_of_pos_right hcloser hscale

theorem fastSqrtf_nearest_two : PositiveNormal (fastSqrtf 0x40000000).1 ∧
    (fastSqrtf 0x40000000).2 = false ∧
      ∀ g, IsFinite g → g ≠ (fastSqrtf 0x40000000).1 →
        |√(value 0x40000000 : ℝ) - value (fastSqrtf 0x40000000).1| <
          |√(value 0x40000000 : ℝ) - value g| :=
  fastSqrtf_nearest 0x40000000 (by decide)

end RepRapFirmware.RRFLibraries.FastSqrt
