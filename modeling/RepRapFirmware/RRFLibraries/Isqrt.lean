import RepRapFirmware.Library.DigitSquareRoot

/-! Integer square root without a divider unit. Every iteration also notes whether one of its
shifts has lost bits; the only other arithmetic is a subtraction behind a comparison. -/

namespace RepRapFirmware.RRFLibraries.Isqrt

open Library.DigitSquareRoot

def shl (x : UInt32) (n : ℕ) : UInt32 := x <<< UInt32.ofNat n

def shl64 (x : UInt64) (n : ℕ) : UInt64 := x <<< UInt64.ofNat n

/-- The number of bits that a shifted value takes. -/
def Fits (w x n : ℕ) : Prop := x * 2 ^ n < 2 ^ w

instance (w x n : ℕ) : Decidable (Fits w x n) := inferInstanceAs (Decidable (_ < _))

structure Root32 where
  num : UInt32
  res : UInt32
  overflow : Bool
  deriving DecidableEq

structure Root64 where
  num : UInt64
  res : UInt32
  overflow : Bool
  deriving DecidableEq

def iter32 (s : Root32) (n : ℕ) : Root32 :=
  let temp := s.res ||| shl 1 n
  let overflow := s.overflow || !decide (Fits 32 1 n ∧ Fits 32 temp.toNat n ∧ Fits 32 2 n)
  if s.num ≥ shl temp n then ⟨s.num - shl temp n, s.res ||| shl 2 n, overflow⟩
  else { s with overflow := overflow }

def iter64a (s : Root32) (n : ℕ) : Root32 :=
  let res := shl s.res 1
  let temp := shl (res ||| 1) n
  let overflow := s.overflow || !decide (Fits 32 s.res.toNat 1 ∧ Fits 32 (res ||| 1).toNat n)
  if s.num ≥ temp then ⟨s.num - temp, res ||| 2, overflow⟩ else ⟨s.num, res, overflow⟩

def iter64b (s : Root64) (n : ℕ) : Root64 :=
  let res := shl s.res 1
  let temp := shl64 (res ||| 1).toUInt64 n
  let overflow := s.overflow || !decide (Fits 32 s.res.toNat 1 ∧ Fits 64 (res ||| 1).toNat n)
  if s.num ≥ temp then ⟨s.num - temp, res ||| 2, overflow⟩ else ⟨s.num, res, overflow⟩

/-- The shifts of the unrolled iterations, the largest one first. -/
def places (n : ℕ) : List ℕ := (List.range n).reverse

/-- The result, and whether a shift has lost bits on the way. -/
def isqrt64 (num : UInt64) : UInt32 × Bool :=
  let numHigh := (num >>> 32).toUInt32
  if numHigh = 0 then
    let s := (places 16).foldl iter32 ⟨num.toUInt32, 0, false⟩
    (s.res >>> 1, s.overflow)
  else if numHigh &&& shl 3 30 ≠ 0 then (0xFFFFFFFF, false)
  else
    let s := (places 15).foldl (fun s i => iter64a s (2 * i)) ⟨numHigh, 0, false⟩
    let numAll := shl64 s.num.toUInt64 32 ||| num.toUInt32.toUInt64
    let overflow := s.overflow || !decide (Fits 64 s.num.toNat 32)
    let s := (places 16).foldl (fun s i => iter64b s (2 * i)) ⟨numAll, s.res, overflow⟩
    (s.res >>> 1, s.overflow)

variable {x k m n r : ℕ} {s : Root32} {w : Root64}

lemma toNat_shl {a : UInt32} (hn : n < 32) (h : Fits 32 a.toNat n) :
    (shl a n).toNat = a.toNat * 2 ^ n := by
  have hmod : (UInt32.ofNat n).toNat % 32 = n := by
    rw [UInt32.toNat_ofNat']
    omega
  rw [shl, UInt32.toNat_shiftLeft, hmod, Nat.shiftLeft_eq, Nat.mod_eq_of_lt h]

lemma toNat_shl64 {a : UInt64} (hn : n < 64) (h : Fits 64 a.toNat n) :
    (shl64 a n).toNat = a.toNat * 2 ^ n := by
  have hmod : (UInt64.ofNat n).toNat % 64 = n := by
    rw [UInt64.toNat_ofNat']
    omega
  rw [shl64, UInt64.toNat_shiftLeft, hmod, Nat.shiftLeft_eq, Nat.mod_eq_of_lt h]

lemma or_eq_add {a b : ℕ} (ha : a = k * 2 ^ m) (hb : b < 2 ^ m) : a ||| b = a + b := by
  rw [ha, ← Nat.shiftLeft_eq, ← Nat.shiftLeft_add_eq_or_of_lt hb]

/-- What the digits that `res` holds, `n` still to come, have to do with the number `x`. -/
structure Progress32 (x m n : ℕ) (s : Root32) (r : ℕ) : Prop where
  found : Partial x n r s.num.toNat
  small : r < 2 ^ m
  res : s.res.toNat = r * 2 ^ (n + 1)
  fits : s.overflow = false

/-- Where the next digit's trial value is and how far it reaches. -/
lemma trial_lt {w : ℕ} (hsmall : r < 2 ^ m) (hroom : m + 2 * (n + 1) ≤ w) :
    (4 * r + 1) * 2 ^ (2 * n) < 2 ^ w := by
  calc (4 * r + 1) * 2 ^ (2 * n) < 2 ^ (m + 2) * 2 ^ (2 * n) := by
        apply Nat.mul_lt_mul_of_pos_right _ (by positivity)
        rw [pow_add]
        omega
    _ ≤ 2 ^ w := by
        rw [← pow_add]
        exact Nat.pow_le_pow_right (by omega) (by omega)

lemma iter32_step (h : Progress32 x m (n + 1) s r) (hroom : m + 2 * (n + 1) ≤ 32) :
    ∃ r', Progress32 x (m + 1) n (iter32 s n) r' := by
  obtain ⟨hfound, hsmall, hres, hfits⟩ := h
  have hn : n < 32 := by omega
  have htrial := trial_lt hsmall hroom
  have hsquare : 2 ^ (2 * n) = 2 ^ n * 2 ^ n := by rw [← pow_add, two_mul]
  have hplace : 2 ^ (n + 2) ≤ 2 ^ 32 := Nat.pow_le_pow_right (by omega) (by omega)
  have hfour : 2 ^ (n + 2) = 4 * 2 ^ n := by rw [pow_add]; ring
  have htwice : 2 ^ (n + 1) = 2 * 2 ^ n := by rw [pow_add]; ring
  have hpos : 0 < 2 ^ n := by positivity
  have hfits1 : Fits 32 (1 : UInt32).toNat n := by simp only [Fits, UInt32.toNat_one]; omega
  have hfits2 : Fits 32 (2 : UInt32).toNat n := by
    simp only [Fits, show (2 : UInt32).toNat = 2 from rfl]
    omega
  have hshl1 : (shl 1 n).toNat = 2 ^ n := by
    rw [toNat_shl hn hfits1, UInt32.toNat_one, one_mul]
  have hshl2 : (shl 2 n).toNat = 2 ^ (n + 1) := by
    rw [toNat_shl hn hfits2, htwice]
    rfl
  have htemp : (s.res ||| shl 1 n).toNat = (4 * r + 1) * 2 ^ n := by
    have hor := or_eq_add (a := s.res.toNat) (b := (shl 1 n).toNat) (k := 2 * r) (m := n + 1)
      (by rw [hres, pow_succ 2 (n + 1)]; ring) (by rw [hshl1]; omega)
    rw [UInt32.toNat_or, hor, hres, hshl1, hfour]
    ring
  have hfits3 : Fits 32 (s.res ||| shl 1 n).toNat n := by
    rw [Fits, htemp, mul_assoc, ← hsquare]
    exact htrial
  have hshift : (shl (s.res ||| shl 1 n) n).toNat = (4 * r + 1) * 2 ^ (2 * n) := by
    rw [toNat_shl hn hfits3, htemp, mul_assoc, ← hsquare]
  have hnext : (s.res ||| shl 2 n).toNat = (2 * r + 1) * 2 ^ (n + 1) := by
    have hor := or_eq_add (a := s.res.toNat) (b := (shl 2 n).toNat) (k := r) (m := n + 2)
      hres (by rw [hshl2]; omega)
    rw [UInt32.toNat_or, hor, hres, hshl2, hfour, htwice]
    ring
  have hflag : (s.overflow || !decide (Fits 32 1 n ∧ Fits 32 (s.res ||| shl 1 n).toNat n ∧
      Fits 32 2 n)) = false := by
    rw [hfits, decide_eq_true ⟨hfits1, hfits3, hfits2⟩]
    rfl
  by_cases hge : s.num ≥ shl (s.res ||| shl 1 n) n
  · have hle : (4 * r + 1) * 2 ^ (2 * n) ≤ s.num.toNat := hshift ▸ UInt32.le_iff_toNat_le.mp hge
    refine ⟨2 * r + 1, ?_⟩
    rw [iter32, if_pos hge]
    refine ⟨?_, by rw [pow_succ]; omega, hnext, hflag⟩
    rw [UInt32.toNat_sub_of_le _ _ hge, hshift]
    exact hfound.one hle
  · have hlt : s.num.toNat < (4 * r + 1) * 2 ^ (2 * n) := by
      rw [← hshift, ← Nat.not_le, ← UInt32.le_iff_toNat_le]
      exact hge
    refine ⟨2 * r, ?_⟩
    rw [iter32, if_neg hge]
    exact ⟨hfound.zero hlt, by rw [pow_succ]; omega, by rw [hres, pow_succ 2 (n + 1)]; ring, hflag⟩

lemma places_succ (n : ℕ) : places (n + 1) = n :: places n := by
  rw [places, List.range_succ, List.reverse_append]
  rfl

lemma iter32_run (h : Progress32 x m n s r) (hroom : m + 2 * n ≤ 32) :
    ∃ r', Progress32 x (m + n) 0 ((places n).foldl iter32 s) r' := by
  induction n generalizing m s r with
  | zero => exact ⟨r, h⟩
  | succ n ih =>
    obtain ⟨r', h'⟩ := iter32_step h hroom
    rw [places_succ, List.foldl_cons, ← add_assoc, add_right_comm]
    exact ih h' (by omega)

/-- As `Progress32`, where `res` is kept at the low end of its word. -/
structure Progress64 (x m n num : ℕ) (res : UInt32) (overflow : Bool) (r : ℕ) : Prop where
  found : Partial x n r num
  small : r < 2 ^ m
  res : res.toNat = 2 * r
  fits : overflow = false

lemma shifted_res {res : UInt32} (hsmall : r < 2 ^ m) (hres : res.toNat = 2 * r) (hm : m + 2 ≤ 32) :
    Fits 32 res.toNat 1 ∧ (shl res 1).toNat = 2 * (2 * r) ∧
      (shl res 1 ||| 1).toNat = 4 * r + 1 ∧ (shl res 1 ||| 2).toNat = 2 * (2 * r + 1) := by
  have hroom : 2 ^ (m + 2) ≤ 2 ^ 32 := Nat.pow_le_pow_right (by omega) hm
  rw [pow_add] at hroom
  have hfits : Fits 32 res.toNat 1 := by
    rw [Fits, hres]
    omega
  have hshl : (shl res 1).toNat = 4 * r := by
    rw [toNat_shl (by omega) hfits, hres]
    ring
  have hor1 := or_eq_add (a := (shl res 1).toNat) (b := 1) (k := r) (m := 2)
    (by rw [hshl]; ring) (by norm_num)
  have hor2 := or_eq_add (a := (shl res 1).toNat) (b := 2) (k := r) (m := 2)
    (by rw [hshl]; ring) (by norm_num)
  refine ⟨hfits, by rw [hshl]; ring, ?_, ?_⟩
  · rw [UInt32.toNat_or, UInt32.toNat_one, hor1, hshl]
  · rw [UInt32.toNat_or, show (2 : UInt32).toNat = 2 from rfl, hor2, hshl]
    ring

lemma iter64a_step (h : Progress64 x m (n + 1) s.num.toNat s.res s.overflow r)
    (hroom : m + 2 * (n + 1) ≤ 32) : ∃ r', Progress64 x (m + 1) n (iter64a s (2 * n)).num.toNat
      (iter64a s (2 * n)).res (iter64a s (2 * n)).overflow r' := by
  obtain ⟨hfound, hsmall, hres, hfits⟩ := h
  obtain ⟨hfits1, hshl, hor1, hor2⟩ := shifted_res hsmall hres (by omega)
  have hfits2 : Fits 32 (shl s.res 1 ||| 1).toNat (2 * n) := by
    rw [Fits, hor1]
    exact trial_lt hsmall hroom
  have htemp : (shl (shl s.res 1 ||| 1) (2 * n)).toNat = (4 * r + 1) * 2 ^ (2 * n) := by
    rw [toNat_shl (by omega) hfits2, hor1]
  have hflag : (s.overflow || !decide (Fits 32 s.res.toNat 1 ∧
      Fits 32 (shl s.res 1 ||| 1).toNat (2 * n))) = false := by
    rw [hfits, decide_eq_true ⟨hfits1, hfits2⟩]
    rfl
  by_cases hge : s.num ≥ shl (shl s.res 1 ||| 1) (2 * n)
  · have hle : (4 * r + 1) * 2 ^ (2 * n) ≤ s.num.toNat := htemp ▸ UInt32.le_iff_toNat_le.mp hge
    refine ⟨2 * r + 1, ?_⟩
    rw [iter64a, if_pos hge]
    refine ⟨?_, by rw [pow_succ]; omega, hor2, hflag⟩
    rw [UInt32.toNat_sub_of_le _ _ hge, htemp]
    exact hfound.one hle
  · have hlt : s.num.toNat < (4 * r + 1) * 2 ^ (2 * n) := by
      rw [← htemp, ← Nat.not_le, ← UInt32.le_iff_toNat_le]
      exact hge
    refine ⟨2 * r, ?_⟩
    rw [iter64a, if_neg hge]
    exact ⟨hfound.zero hlt, by rw [pow_succ]; omega, hshl, hflag⟩

lemma iter64b_step (h : Progress64 x m (n + 1) w.num.toNat w.res w.overflow r)
    (hroom : m + 2 * (n + 1) ≤ 64) (hm : m + 2 ≤ 32) :
    ∃ r', Progress64 x (m + 1) n (iter64b w (2 * n)).num.toNat (iter64b w (2 * n)).res
      (iter64b w (2 * n)).overflow r' := by
  obtain ⟨hfound, hsmall, hres, hfits⟩ := h
  obtain ⟨hfits1, hshl, hor1, hor2⟩ := shifted_res hsmall hres hm
  have hwide : (shl w.res 1 ||| 1).toUInt64.toNat = 4 * r + 1 := by
    rw [UInt32.toNat_toUInt64, hor1]
  have hfits2 : Fits 64 (shl w.res 1 ||| 1).toUInt64.toNat (2 * n) := by
    rw [Fits, hwide]
    exact trial_lt hsmall hroom
  have htemp : (shl64 (shl w.res 1 ||| 1).toUInt64 (2 * n)).toNat =
      (4 * r + 1) * 2 ^ (2 * n) := by
    rw [toNat_shl64 (by omega) hfits2, hwide]
  have hflag : (w.overflow || !decide (Fits 32 w.res.toNat 1 ∧
      Fits 64 (shl w.res 1 ||| 1).toNat (2 * n))) = false := by
    rw [hfits, decide_eq_true ⟨hfits1, hfits2⟩]
    rfl
  by_cases hge : w.num ≥ shl64 (shl w.res 1 ||| 1).toUInt64 (2 * n)
  · have hle : (4 * r + 1) * 2 ^ (2 * n) ≤ w.num.toNat := htemp ▸ UInt64.le_iff_toNat_le.mp hge
    refine ⟨2 * r + 1, ?_⟩
    rw [iter64b, if_pos hge]
    refine ⟨?_, by rw [pow_succ]; omega, hor2, hflag⟩
    rw [UInt64.toNat_sub_of_le _ _ hge, htemp]
    exact hfound.one hle
  · have hlt : w.num.toNat < (4 * r + 1) * 2 ^ (2 * n) := by
      rw [← htemp, ← Nat.not_le, ← UInt64.le_iff_toNat_le]
      exact hge
    refine ⟨2 * r, ?_⟩
    rw [iter64b, if_neg hge]
    exact ⟨hfound.zero hlt, by rw [pow_succ]; omega, hshl, hflag⟩

lemma iter64a_run (h : Progress64 x m n s.num.toNat s.res s.overflow r) (hroom : m + 2 * n ≤ 32) :
    let s' := (places n).foldl (fun s i => iter64a s (2 * i)) s
    ∃ r', Progress64 x (m + n) 0 s'.num.toNat s'.res s'.overflow r' := by
  induction n generalizing m s r with
  | zero => exact ⟨r, h⟩
  | succ n ih =>
    obtain ⟨r', h'⟩ := iter64a_step h hroom
    rw [places_succ, List.foldl_cons, ← add_assoc, add_right_comm]
    exact ih h' (by omega)

lemma iter64b_run (h : Progress64 x m n w.num.toNat w.res w.overflow r)
    (hroom : m + 2 * n ≤ 64) (hm : m + n + 1 ≤ 32) :
    let s' := (places n).foldl (fun s i => iter64b s (2 * i)) w
    ∃ r', Progress64 x (m + n) 0 s'.num.toNat s'.res s'.overflow r' := by
  induction n generalizing m w r with
  | zero => exact ⟨r, h⟩
  | succ n ih =>
    obtain ⟨r', h'⟩ := iter64b_step h hroom (by omega)
    rw [places_succ, List.foldl_cons, ← add_assoc, add_right_comm]
    exact ih h' (by omega) (by omega)

/-- The root is half of `res` once no digit is left. -/
lemma halved {res : UInt32} {rem : ℕ} (h : Partial x 0 r rem) (hres : res.toNat = 2 * r) :
    (res >>> 1).toNat = Nat.sqrt x := by
  have hshift : (res >>> 1).toNat = res.toNat / 2 := by
    rw [UInt32.toNat_shiftRight, Nat.shiftRight_eq_div_pow]
    rfl
  rw [hshift, hres, h.sqrt_eq]
  omega

lemma high_toNat (num : UInt64) : (num >>> 32).toUInt32.toNat = num.toNat / 2 ^ 32 := by
  have hlt := num.toNat_lt
  rw [UInt64.toNat_toUInt32, UInt64.toNat_shiftRight, Nat.shiftRight_eq_div_pow]
  exact Nat.mod_eq_of_lt (Nat.div_lt_of_lt_mul (by simpa using hlt))

/-- The hand-over from the 32-bit to the 64-bit remainder. -/
lemma numAll_toNat (high : UInt32) (num : UInt64) : Fits 64 high.toNat 32 ∧
    (shl64 high.toUInt64 32 ||| num.toUInt32.toUInt64).toNat =
      high.toNat * 2 ^ 32 + num.toNat % 2 ^ 32 := by
  have hfits : Fits 64 high.toNat 32 := by
    have hlt := high.toNat_lt
    rw [Fits]
    omega
  have hshl : (shl64 high.toUInt64 32).toNat = high.toNat * 2 ^ 32 := by
    rw [toNat_shl64 (by omega) (by rw [UInt32.toNat_toUInt64]; exact hfits), UInt32.toNat_toUInt64]
  refine ⟨hfits, ?_⟩
  rw [UInt64.toNat_or, UInt32.toNat_toUInt64, UInt64.toNat_toUInt32, hshl]
  exact or_eq_add rfl (Nat.mod_lt _ (by norm_num))

lemma top_bits (high : UInt32) : high &&& shl 3 30 = 0 ↔ high.toNat < 2 ^ 30 := by
  have hlt := high.toNat_lt
  have hmask : (shl 3 30).toNat = 3 <<< 30 := by decide
  rw [← UInt32.toNat_inj, UInt32.toNat_and, hmask, UInt32.toNat_zero]
  constructor
  · intro h
    have hshift : (high.toNat &&& 3 <<< 30) >>> 30 = high.toNat / 2 ^ 30 % 2 ^ 2 := by
      rw [Nat.shiftRight_and_distrib, Nat.shiftRight_eq_div_pow]
      exact Nat.and_two_pow_sub_one_eq_mod _ 2
    rw [h, Nat.zero_shiftRight] at hshift
    omega
  · intro h
    apply Nat.eq_of_testBit_eq
    intro i
    rw [Nat.testBit_and, Nat.testBit_shiftLeft, Nat.zero_testBit]
    by_cases hi : 30 ≤ i
    · rw [Nat.testBit_lt_two_pow (h.trans_le (Nat.pow_le_pow_right (by omega) hi)), Bool.false_and]
    · rw [decide_eq_false hi, Bool.false_and, Bool.and_false]

/-- Below `2 ^ 62` the result is the root rounded down, from there up the largest number, and no
shift loses a bit. -/
theorem isqrt64_eq (num : UInt64) :
    (isqrt64 num).1.toNat = (if num.toNat < 2 ^ 62 then Nat.sqrt num.toNat else 0xFFFFFFFF) ∧
      (isqrt64 num).2 = false := by
  have hhigh := high_toNat num
  have hlt := num.toNat_lt
  by_cases hzero : (num >>> 32).toUInt32 = 0
  · have hsmall : num.toNat < 2 ^ 32 := by
      rw [hzero, UInt32.toNat_zero] at hhigh
      omega
    have hnum : num.toUInt32.toNat = num.toNat := by
      rw [UInt64.toNat_toUInt32, Nat.mod_eq_of_lt hsmall]
    have hstart : Progress32 num.toNat 0 16 ⟨num.toUInt32, 0, false⟩ 0 :=
      ⟨by rw [hnum]; exact partial_start hsmall, by norm_num, by simp, rfl⟩
    obtain ⟨r, hfound, -, hres, hfits⟩ := iter32_run hstart (by norm_num)
    rw [isqrt64, if_pos hzero, if_pos (by omega)]
    exact ⟨halved hfound (by rw [hres]; ring), hfits⟩
  · have htop := top_bits (num >>> 32).toUInt32
    by_cases hrange : (num >>> 32).toUInt32 &&& shl 3 30 = 0
    · have hsmall := htop.mp hrange
      obtain ⟨r, hfound, hroot, hres, hfits⟩ := iter64a_run (m := 0) (n := 15) (r := 0)
        (x := (num >>> 32).toUInt32.toNat) (s := ⟨(num >>> 32).toUInt32, 0, false⟩)
        ⟨partial_start hsmall, by norm_num, rfl, rfl⟩ (by norm_num)
      generalize hs : (places 15).foldl (fun s i => iter64a s (2 * i))
        ⟨(num >>> 32).toUInt32, 0, false⟩ = s at hfound hres hfits
      obtain ⟨hfits64, hall⟩ := numAll_toNat s.num num
      have hx : num.toNat = (num >>> 32).toUInt32.toNat * 2 ^ 32 + num.toNat % 2 ^ 32 := by omega
      have hextended := hfound.extend (n := 16) (y := num.toNat % 2 ^ 32)
        (Nat.mod_lt _ (by norm_num))
      rw [show 2 * 16 = 32 by norm_num, ← hx, ← hall] at hextended
      have hflag : (s.overflow || !decide (Fits 64 s.num.toNat 32)) = false := by
        rw [hfits, decide_eq_true hfits64]
        rfl
      obtain ⟨r', hfound', -, hres', hfits'⟩ := iter64b_run (m := 15) (n := 16)
        (w := ⟨shl64 s.num.toUInt64 32 ||| num.toUInt32.toUInt64, s.res, _⟩)
        ⟨hextended, hroot, hres, hflag⟩ (by norm_num) (by norm_num)
      rw [isqrt64, if_neg hzero, if_neg (not_not_intro hrange), if_pos (by omega)]
      simp only [hs]
      exact ⟨halved hfound' hres', hfits'⟩
    · rw [isqrt64, if_neg hzero, if_pos hrange]
      rw [htop, hhigh] at hrange
      rw [if_neg (by omega)]
      exact ⟨rfl, rfl⟩

end RepRapFirmware.RRFLibraries.Isqrt
