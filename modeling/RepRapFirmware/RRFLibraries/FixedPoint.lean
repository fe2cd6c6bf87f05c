import RepRapFirmware.RRFLibraries.NumericConverter
import RepRapFirmware.RRFLibraries.SafeVsnprintf

/-! Numbers that are printed with a fixed count of digits behind the point, and read again. -/

namespace RepRapFirmware.RRFLibraries.FixedPoint

open NumericConverters SafeVsnprintf

/-- The lowest digits of a number. -/
def lowDigits : ℕ → ℕ → List Char
  | 0, _ => []
  | k + 1, u => lowDigits k (u / 10) ++ [Nat.digitChar (u % 10)]

/-- `u / 10 ^ k` with `k` digits behind the point. -/
def fixedText (k u : ℕ) : List Char := Nat.toDigits 10 (u / 10 ^ k) ++ '.' :: lowDigits k u

variable {k n u a t : ℕ} {s rest : List Char} {r : Reading}

/-! ### Printing -/

lemma digitOf_decimal (ht : t < 10) : digitOf 'a' t = Nat.digitChar t := by
  interval_cases t <;> decide

lemma pointLoop_integer {digitsAfterPoint : ℤ} (hpoint : digitsAfterPoint < 0) (hn : u < n)
    (s : List Char) : pointLoop n digitsAfterPoint u s = Nat.toDigits 10 u ++ s := by
  induction n generalizing digitsAfterPoint u s with
  | zero => exact absurd hn (Nat.not_lt_zero _)
  | succ n ih =>
    rw [pointLoop, Nat.toDigits_eq_if (by decide)]
    rw [if_neg hpoint.ne, digitOf_decimal (Nat.mod_lt _ (by decide))]
    by_cases hlt : u < 10
    · have hdiv : u / 10 = 0 := Nat.div_eq_of_lt hlt
      rw [if_neg (by omega), if_pos hlt, Nat.mod_eq_of_lt hlt]
      rfl
    · rw [if_pos (Or.inl (by omega)), if_neg hlt, ih (by omega) (by omega), List.append_assoc]
      rfl

lemma pointLoop_point (hn : u < n) (s : List Char) :
    pointLoop n 0 u s = Nat.toDigits 10 u ++ '.' :: s := by
  obtain ⟨n, rfl⟩ : ∃ n', n = n' + 1 := ⟨n - 1, by omega⟩
  rw [pointLoop, Nat.toDigits_eq_if (by decide)]
  rw [if_pos rfl, digitOf_decimal (Nat.mod_lt _ (by decide))]
  by_cases hlt : u < 10
  · have hdiv : u / 10 = 0 := Nat.div_eq_of_lt hlt
    rw [if_neg (by omega), if_pos hlt, Nat.mod_eq_of_lt hlt]
    rfl
  · rw [if_pos (Or.inl (by omega)), if_neg hlt, pointLoop_integer (by omega) (by omega),
      List.append_assoc]
    rfl

lemma pointLoop_eq (hn : u + k < n) (s : List Char) : pointLoop n k u s = fixedText k u ++ s := by
  induction k generalizing n u s with
  | zero =>
    rw [Nat.cast_zero, pointLoop_point (by omega), fixedText, lowDigits, pow_zero, Nat.div_one,
      List.append_assoc]
    rfl
  | succ k ih =>
    obtain ⟨n, rfl⟩ : ∃ n', n = n' + 1 := ⟨n - 1, by omega⟩
    have hpoint : ((k + 1 : ℕ) : ℤ) ≠ 0 := by omega
    have hnext : ((k + 1 : ℕ) : ℤ) - 1 = (k : ℤ) := by omega
    rw [pointLoop]
    rw [if_neg hpoint, hnext, if_pos (Or.inr (Int.natCast_nonneg k)),
      digitOf_decimal (Nat.mod_lt _ (by decide)), ih (by omega), fixedText, fixedText, lowDigits,
      Nat.div_div_eq_div_mul, ← pow_succ']
    simp only [List.append_assoc, List.cons_append, List.nil_append]

lemma scaleUp_eq {ud : ℚ} (hpos : 0 ≤ ud) (hsmall : ud * 10 ^ k ≤ (llongMax / 10 : ℕ)) (m : ℕ) :
    scaleUp k ud m = (ud * 10 ^ k, m + k) := by
  induction k generalizing ud m with
  | zero => rw [scaleUp, pow_zero, mul_one, Nat.add_zero]
  | succ k ih =>
    have hpow : (1 : ℚ) ≤ 10 ^ k := one_le_pow₀ (by norm_num)
    have hlarge : (0 : ℚ) < (llongMax / 10 : ℕ) := by norm_num [llongMax]
    have hlt : ud < (llongMax / 10 : ℕ) := by
      have hten : ud * 10 ≤ ud * 10 ^ (k + 1) := by
        apply mul_le_mul_of_nonneg_left _ hpos
        rw [pow_succ]
        linarith
      linarith
    rw [scaleUp, if_pos hlt, ih (by linarith) (by rw [mul_assoc, ← pow_succ']; exact hsmall),
      mul_assoc, ← pow_succ', Nat.add_right_comm, Nat.add_assoc]

/-- The digits that are printed for a number, as a natural number. -/
def scaled (k : ℕ) (d : ℚ) : ℕ := (llrint (|d| * 10 ^ k)).toNat

lemma floatDigits_eq {flags : PrintFlags} {d : ℚ} (hk : 0 < k) (hlimit : flags.printLimit = k)
    (hsmall : |d| * 10 ^ k ≤ (llongMax / 10 : ℕ)) :
    floatDigits flags 'f' d = fixedText k (scaled k d) := by
  have hpow : (1 : ℚ) ≤ 10 ^ k := one_le_pow₀ (by norm_num)
  have hnotbig : ¬ ((llongMax : ℕ) : ℚ) < |d| := by
    have hle : |d| ≤ |d| * 10 ^ k := le_mul_of_one_le_right (abs_nonneg d) hpow
    have hmax : ((llongMax / 10 : ℕ) : ℚ) ≤ (llongMax : ℕ) := by norm_num [llongMax]
    linarith
  have hlimit' : (if flags.printLimit < 0 then 6 else flags.printLimit.toNat) = k := by
    rw [hlimit, if_neg (by omega), Int.toNat_natCast]
  have hpoint : ¬ (k = 0 ∧ (!flags.hash) = true) := fun h => hk.ne' h.1
  rw [floatDigits]
  simp only [decide_eq_false hnotbig, hlimit', Bool.false_eq_true, if_false, Bool.false_and,
    scaleUp_eq (abs_nonneg d) hsmall, Nat.zero_add, if_neg hpoint, Int.toNat_natCast]
  rw [pointLoop_eq (by omega), List.append_nil]
  rfl

lemma llrint_close (q : ℚ) : |(llrint q : ℚ) - q| ≤ 1 / 2 := by
  have hlow : (⌊q⌋ : ℚ) ≤ q := Int.floor_le q
  have hhigh : q < ⌊q⌋ + 1 := Int.lt_floor_add_one q
  rw [llrint]
  split
  · rw [abs_le]
    constructor
    · linarith
    · linarith
  · split
    · push_cast
      rw [abs_le]
      constructor
      · linarith
      · linarith
    · split
      · rw [abs_le]
        constructor
        · linarith
        · linarith
      · push_cast
        rw [abs_le]
        constructor
        · linarith
        · linarith

lemma llrint_nonneg {q : ℚ} (hq : 0 ≤ q) : 0 ≤ llrint q := by
  have hfloor : 0 ≤ ⌊q⌋ := Int.floor_nonneg.mpr hq
  rw [llrint]
  split_ifs
  all_goals omega

lemma scaled_cast (k : ℕ) (d : ℚ) : ((scaled k d : ℕ) : ℚ) = (llrint (|d| * 10 ^ k) : ℚ) := by
  have hnonneg : 0 ≤ llrint (|d| * 10 ^ k) := llrint_nonneg (by positivity)
  rw [scaled, ← Int.cast_natCast, Int.toNat_of_nonneg hnonneg]

/-- What the printed digits stand for. -/
def rounded (k : ℕ) (d : ℚ) : ℚ :=
  if d < 0 then -((scaled k d : ℕ) / 10 ^ k) else (scaled k d : ℕ) / 10 ^ k

lemma rounded_close (k : ℕ) (d : ℚ) : |rounded k d - d| ≤ 1 / (2 * 10 ^ k) := by
  have hpow : (0 : ℚ) < 10 ^ k := by positivity
  have hclose : |(scaled k d : ℚ) / 10 ^ k - (|d|)| ≤ 1 / (2 * 10 ^ k) := by
    have h := llrint_close (|d| * 10 ^ k)
    rw [← scaled_cast] at h
    have hsplit : (scaled k d : ℚ) / 10 ^ k - |d| = (scaled k d - |d| * 10 ^ k) / 10 ^ k := by
      rw [sub_div, mul_div_cancel_right₀ _ hpow.ne']
    rw [hsplit, abs_div, abs_of_pos hpow, div_le_div_iff₀ hpow (by positivity)]
    nlinarith
  rw [rounded]
  split
  · next hneg =>
    rw [abs_of_neg hneg] at hclose
    rw [← abs_neg]
    convert hclose using 2
    ring
  · next hpos =>
    rwa [abs_of_nonneg (not_lt.mp hpos)] at hclose

lemma llrint_eq (q : ℚ) : llrint q = ⌊q⌋ ∧ (Int.fract q < 1 / 2 ∨
      Int.fract q = 1 / 2 ∧ ⌊q⌋ % 2 = 0) ∨
    llrint q = ⌊q⌋ + 1 ∧ (1 / 2 < Int.fract q ∨ Int.fract q = 1 / 2 ∧ ⌊q⌋ % 2 = 1) := by
  have hfract : q - ⌊q⌋ = Int.fract q := rfl
  rw [llrint, hfract]
  split
  · next h => exact Or.inl ⟨rfl, Or.inl h⟩
  · next hlow =>
    split
    · next h => exact Or.inr ⟨rfl, Or.inl h⟩
    · next hhigh =>
      have hhalf : Int.fract q = 1 / 2 := le_antisymm (not_lt.mp hhigh) (not_lt.mp hlow)
      split
      · next h => exact Or.inl ⟨rfl, Or.inr ⟨hhalf, h⟩⟩
      · exact Or.inr ⟨rfl, Or.inr ⟨hhalf, by omega⟩⟩

lemma llrint_mono {p q : ℚ} (h : p ≤ q) : llrint p ≤ llrint q := by
  have hfloor : ⌊p⌋ ≤ ⌊q⌋ := Int.floor_mono h
  obtain hlt | heq := hfloor.lt_or_eq
  · obtain ⟨hp, -⟩ | ⟨hp, -⟩ := llrint_eq p
    · obtain ⟨hq, -⟩ | ⟨hq, -⟩ := llrint_eq q
      · omega
      · omega
    · obtain ⟨hq, -⟩ | ⟨hq, -⟩ := llrint_eq q
      · omega
      · omega
  · have hfract : Int.fract p ≤ Int.fract q := by
      rw [Int.fract, Int.fract, heq]
      linarith
    obtain ⟨hp, -⟩ | ⟨hp, hround⟩ := llrint_eq p
    · obtain ⟨hq, -⟩ | ⟨hq, -⟩ := llrint_eq q
      · omega
      · omega
    · obtain ⟨hq, hround'⟩ | ⟨hq, -⟩ := llrint_eq q
      · obtain hp' | ⟨hp', hodd⟩ := hround
        · obtain hq' | ⟨hq', -⟩ := hround'
          · linarith
          · linarith
        · obtain hq' | ⟨-, heven⟩ := hround'
          · linarith
          · omega
      · omega

lemma llrint_intCast (z : ℤ) : llrint (z : ℚ) = z := by
  rw [llrint, Int.floor_intCast, sub_self, if_pos (by norm_num)]

lemma llrint_add_even (q : ℚ) (n : ℤ) : llrint (q + (2 * n : ℤ)) = llrint q + 2 * n := by
  have hsub : q + ((2 * n : ℤ) : ℚ) - (⌊q⌋ + 2 * n : ℤ) = q - ⌊q⌋ := by
    push_cast
    ring
  have hparity : (⌊q⌋ + 2 * n) % 2 = ⌊q⌋ % 2 := by omega
  rw [llrint, llrint, Int.floor_add_intCast, hsub, hparity]
  split
  · rfl
  · split
    · omega
    · split
      · rfl
      · omega

lemma llrint_neg (q : ℚ) : llrint (-q) = -llrint q := by
  by_cases hint : Int.fract q = 0
  · have hq : q = (⌊q⌋ : ℚ) := (sub_eq_zero.mp hint)
    rw [hq, ← Int.cast_neg, llrint_intCast, llrint_intCast]
  · have hfract : Int.fract (-q) = 1 - Int.fract q := Int.fract_neg hint
    have hfloor : ⌊-q⌋ = -⌊q⌋ - 1 := by
      have hsum : (⌊-q⌋ : ℚ) = -(⌊q⌋ : ℚ) - 1 := by
        have h₁ := Int.floor_add_fract q
        have h₂ := Int.floor_add_fract (-q)
        linarith
      exact_mod_cast hsum
    obtain ⟨hp, hround⟩ | ⟨hp, hround⟩ := llrint_eq q
    · obtain ⟨hq, hround'⟩ | ⟨hq, -⟩ := llrint_eq (-q)
      · obtain h | ⟨h, heven⟩ := hround
        · obtain h' | ⟨h', -⟩ := hround'
          · linarith
          · linarith
        · obtain h' | ⟨-, heven'⟩ := hround'
          · linarith
          · omega
      · omega
    · obtain ⟨hq, -⟩ | ⟨hq, hround'⟩ := llrint_eq (-q)
      · omega
      · obtain h | ⟨h, hodd⟩ := hround
        · obtain h' | ⟨h', -⟩ := hround'
          · linarith
          · linarith
        · obtain h' | ⟨-, hodd'⟩ := hround'
          · linarith
          · omega

lemma rounded_llrint (k : ℕ) (d : ℚ) : rounded k d = (llrint (d * 10 ^ k) : ℚ) / 10 ^ k := by
  rw [rounded, scaled_cast]
  split
  · next hneg =>
    rw [abs_of_neg hneg, neg_mul, llrint_neg, Int.cast_neg, neg_div, neg_neg]
  · next hpos => rw [abs_of_nonneg (not_lt.mp hpos)]

lemma rounded_mono (k : ℕ) {p q : ℚ} (h : p ≤ q) : rounded k p ≤ rounded k q := by
  have hpow : (0 : ℚ) < 10 ^ k := by positivity
  rw [rounded_llrint, rounded_llrint, div_le_div_iff_of_pos_right hpow]
  exact_mod_cast llrint_mono (mul_le_mul_of_nonneg_right h hpow.le)

/-- A minus in front of a negative number. -/
def signText (isNegative : Bool) : List Char := if isNegative then ['-'] else []

/-- A number with `k` digits behind the point, in a field of some width. -/
def decimalText (width k : ℕ) (d : ℚ) : List Char :=
  let number := signText (decide (d < 0)) ++ fixedText k (scaled k d)
  List.replicate (width - number.length) ' ' ++ number

lemma paddedText_width (width k : ℕ) (s : List Char) :
    paddedText { width := width, printLimit := k } s =
      List.replicate (width - s.length) ' ' ++ s := by
  have hlimited : limited { width := width, printLimit := k } s = s :=
    if_neg fun h => Bool.false_ne_true h.2
  rw [paddedText, hlimited, padding]
  by_cases hwidth : width = 0
  · simp [hwidth]
  · simp [Nat.pos_of_ne_zero hwidth]

lemma printFloat_text {d : ℚ} (width : ℕ) (hk : 0 < k)
    (hsmall : |d| * 10 ^ k ≤ (llongMax / 10 : ℕ)) :
    (Call.printFloat { width := width, printLimit := k } d 'f').text = decimalText width k d := by
  rw [Call.text, floatDigits_eq hk rfl hsmall, decimalText, ← paddedText_width width k]
  cases decide (d < 0)
  · rfl
  · rw [signedText, signOf, if_pos rfl]
    dsimp only
    rw [signBeforePadding, Bool.and_false, if_neg Bool.false_ne_true]
    rfl

/-! ### Reading -/

/-- What may follow a number: nothing, or a comma. -/
def Stops (rest : List Char) : Prop := ∀ c ∈ rest.head?, c = ','

lemma isxdigit_digit (ht : t < 10) : isxdigit (Nat.digitChar t) = true ∧
    digitValue (Nat.digitChar t) = t := by
  interval_cases t <;> decide

/-- The next digit. -/
def next (r : Reading) (t : ℕ) : Reading :=
  let r := { r with lvalue := r.lvalue * 10 + t, hadDigit := true }
  if r.hadDecimalPoint then r.scale (-1) (-1) else r

lemma readDigits_digit (hbase : r.base = 10) (hfits : r.overflowed = false) (ht : t < 10)
    (hle : r.lvalue * 10 + t ≤ uint32Max) (s : List Char) :
    readDigits r (Nat.digitChar t :: s) = readDigits (next r t) s := by
  obtain ⟨hdigit, hvalue⟩ := isxdigit_digit ht
  have hroom : r.lvalue ≤ (uint32Max - 9) / 10 ∨ r.lvalue ≤ (uint32Max - t) / 10 := by
    right
    rw [Nat.le_div_iff_mul_le (by decide)]
    omega
  have hadd : addDigit r t = next r t := by
    rw [addDigit]
    dsimp only
    rw [if_neg (by omega), if_pos hbase, addDecimalDigit]
    dsimp only
    rw [if_neg (by rw [hfits]; exact Bool.false_ne_true), if_pos hroom]
    rfl
  rw [readDigits, if_pos hdigit, hvalue, if_neg (by omega), hadd]

lemma readDigits_stop (hrest : Stops rest) : readDigits r rest = (r, rest) := by
  cases rest with
  | nil => rfl
  | cons c s =>
    have hc : c = ',' := hrest c rfl
    subst hc
    rw [readDigits]
    rfl

/-- The digits before the point. -/
lemma readDigits_integer (hbase : r.base = 10) (hfits : r.overflowed = false)
    (hpoint : r.hadDecimalPoint = false) (hzero : r.lvalue = 0) (hn : n ≤ uint32Max)
    (s : List Char) : readDigits r (Nat.toDigits 10 n ++ s) =
      readDigits { r with lvalue := n, hadDigit := true } s := by
  have hnext (r : Reading) (hpoint : r.hadDecimalPoint = false) (t : ℕ) :
      next r t = { r with lvalue := r.lvalue * 10 + t, hadDigit := true } := by
    rw [next]
    exact if_neg (by rw [hpoint]; exact Bool.false_ne_true)
  induction n using Nat.strong_induction_on generalizing s with
  | _ n ih =>
    rw [Nat.toDigits_eq_if (by decide)]
    split
    · next hlt =>
      rw [List.singleton_append, readDigits_digit hbase hfits hlt (by omega), hnext r hpoint, hzero,
        Nat.zero_mul, Nat.zero_add]
    · next hge =>
      have hmod : n / 10 * 10 + n % 10 = n := by omega
      rw [List.append_assoc, ih (n / 10) (by omega) (by omega), List.singleton_append,
        readDigits_digit (r := { r with lvalue := n / 10, hadDigit := true }) hbase hfits
          (Nat.mod_lt _ (by decide)) (hmod.trans_le hn),
        hnext { r with lvalue := n / 10, hadDigit := true } hpoint]
      dsimp only
      rw [hmod]

/-- The digits behind the point. -/
lemma readDigits_low (hbase : r.base = 10) (hfits : r.overflowed = false)
    (hpoint : r.hadDecimalPoint = true) (hdigit : r.hadDigit = true)
    (hle : r.lvalue * 10 ^ k + u % 10 ^ k ≤ uint32Max) (s : List Char) :
    readDigits r (lowDigits k u ++ s) =
      readDigits { r with
        lvalue := r.lvalue * 10 ^ k + u % 10 ^ k, fives := r.fives - k, twos := r.twos - k } s := by
  induction k generalizing u s with
  | zero =>
    simp only [lowDigits, List.nil_append, pow_zero, Nat.mul_one, Nat.mod_one, Nat.add_zero,
      Nat.cast_zero, sub_zero]
  | succ k ih =>
    have hsplit : u % 10 ^ (k + 1) = u / 10 % 10 ^ k * 10 + u % 10 := by
      rw [pow_succ', Nat.mod_mul, add_comm, mul_comm]
    have hvalue : r.lvalue * 10 ^ (k + 1) + u % 10 ^ (k + 1) =
        (r.lvalue * 10 ^ k + u / 10 % 10 ^ k) * 10 + u % 10 := by
      rw [hsplit, pow_succ]
      ring
    rw [lowDigits, List.append_assoc, ih (by omega), List.singleton_append,
      readDigits_digit (r := { r with
        lvalue := r.lvalue * 10 ^ k + u / 10 % 10 ^ k, fives := r.fives - k, twos := r.twos - k })
        hbase hfits (Nat.mod_lt _ (by decide)) (hvalue ▸ hle), next]
    simp only [hpoint, if_true, Reading.scale, hvalue, hdigit]
    have hfives (z : ℤ) : z - k + -1 = z - (k + 1 : ℕ) := by
      push_cast
      ring
    simp only [hfives]

lemma readDigits_point (hfloat : r.acceptFloat = true) (hpoint : r.hadDecimalPoint = false)
    (s : List Char) :
    readDigits r ('.' :: s) = readDigits { r with hadDecimalPoint := true } s := by
  have htakes : takesPoint r '.' = true := by
    rw [takesPoint, hfloat, hpoint]
    rfl
  rw [readDigits, if_neg (by decide), if_pos htakes]

/-- Leading zeros are read like other digits. -/
lemma skipZeros_readDigits (hbase : r.base = 10) (hfits : r.overflowed = false)
    (hzero : r.lvalue = 0) (s : List Char) :
    readDigits (skipZeros r s).1 (skipZeros r s).2 = readDigits r s := by
  induction s generalizing r with
  | nil => rfl
  | cons c s ih =>
    rw [skipZeros]
    split
    · next hc =>
      subst hc
      have hdigit : readDigits r ('0' :: s) = readDigits (next r 0) s :=
        readDigits_digit (t := 0) hbase hfits (by decide) (by rw [hzero]; decide) s
      rw [hdigit, next, hzero]
      cases hpoint : r.hadDecimalPoint
      · simp only [hpoint, Bool.false_eq_true, if_false]
        rw [ih (r := { r with hadDigit := true }) hbase hfits hzero]
        simp only [Nat.zero_mul, Nat.add_zero]
        rw [← hpoint, ← hzero]
      · simp only [hpoint, if_true]
        rw [ih (r := Reading.scale { r with hadDigit := true } (-1) (-1)) hbase hfits hzero]
        simp only [Reading.scale, hzero, hpoint, Nat.zero_mul, Nat.add_zero]
    · split
      · next hc hpoint =>
        rw [ih (r := { r with hadDecimalPoint := true }) hbase hfits hzero, readDigits, if_neg,
          if_pos hpoint]
        rw [takesPoint] at hpoint
        simp only [decide_eq_true_eq] at hpoint
        rw [hpoint.1]
        decide
      · rfl

/-! ### What is printed is read -/

/-- The reading in front of the first digit. -/
def start (options : Options) (isNegative : Bool) : Reading :=
  { lvalue := 0, fives := 0, twos := 0, hadDecimalPoint := false, hadExponent := false,
    isNegative := isNegative, base := 10, acceptFloat := options.acceptFloat, hadDigit := false,
    overflowed := false }

lemma head_integer (n : ℕ) (s : List Char) :
    ∃ t < 10, ∃ s', Nat.toDigits 10 n ++ s = Nat.digitChar t :: s' := by
  induction n using Nat.strong_induction_on generalizing s with
  | _ n ih =>
    rw [Nat.toDigits_eq_if (by decide)]
    split
    · next hlt => exact ⟨n, hlt, s, rfl⟩
    · next hge =>
      rw [List.append_assoc]
      exact ih (n / 10) (by omega) _

lemma dropWhile_spaces (k : ℕ) (s : List Char) :
    (List.replicate k ' ' ++ s).dropWhile isBlank = s.dropWhile isBlank := by
  induction k with
  | zero => rfl
  | succ k ih =>
    rw [List.replicate_succ, List.cons_append, List.dropWhile_cons_of_pos (by decide)]
    exact ih

/-- Blanks and the sign in front of a number. -/
lemma readSign_number {options : Options} {isNegative : Bool}
    (hsign : isNegative = true → options.acceptNegative = true) (k : ℕ) (ht : t < 10)
    (s : List Char) :
    readSign options
      ((List.replicate k ' ' ++
        (signText isNegative ++ Nat.digitChar t :: s)).dropWhile isBlank) =
      some (isNegative, Nat.digitChar t :: s) := by
  rw [dropWhile_spaces]
  cases isNegative
  · have hblank : isBlank (Nat.digitChar t) = false := by interval_cases t <;> decide
    rw [signText, if_neg Bool.false_ne_true, List.nil_append,
      List.dropWhile_cons_of_neg (by rw [hblank]; exact Bool.false_ne_true)]
    interval_cases t <;> rfl
  · rw [signText, if_pos rfl, List.singleton_append, List.dropWhile_cons_of_neg (by decide),
      readSign, if_pos (hsign rfl)]

lemma readExponent_stop (hrest : Stops rest) :
    readExponent r rest = some (r.toNumericConverter, rest) := by
  rw [readExponent, if_neg]
  rintro ⟨-, h | h⟩
  · exact absurd (hrest _ h) (by decide)
  · exact absurd (hrest _ h) (by decide)

/-- The characters of a number from its first digit on are read by the loop over the digits. -/
lemma accumulate_eq {options : Options} {isNegative : Bool} (hhex : options.acceptHex = false)
    (hdecimal : options.defaultHex = false)
    (hsign : isNegative = true → options.acceptNegative = true) (k : ℕ) (ht : t < 10)
    (hrest : Stops rest) (hdigits : readDigits (start options isNegative) (Nat.digitChar t :: s) =
      (r, rest)) (hdigit : r.hadDigit = true) :
    accumulate options (List.replicate k ' ' ++ (signText isNegative ++ Nat.digitChar t :: s)) =
      some (r.toNumericConverter, rest) := by
  have hbase : readBase options isNegative (Nat.digitChar t :: s) =
      (start options isNegative, Nat.digitChar t :: s) := by
    rw [readBase, if_neg, hdecimal]
    · rfl
    · rintro ⟨h, -⟩
      rw [hhex] at h
      exact absurd h Bool.false_ne_true
  rw [accumulate, readSign_number hsign k ht]
  simp only [Option.bind_eq_bind, Option.bind_some, hbase]
  rw [skipZeros_readDigits rfl rfl rfl, hdigits, if_pos hdigit, readExponent_stop hrest]

lemma getFloat_eq {c : NumericConverter} (hfives : c.fives = -k) (htwos : c.twos = -k) :
    c.getFloat = if c.isNegative then -((c.lvalue : ℚ) / 10 ^ k) else (c.lvalue : ℚ) / 10 ^ k := by
  rw [NumericConverter.getFloat, hfives, htwos, min_self, if_neg (lt_irrefl _), sub_self, zpow_zero,
    mul_one, zpow_neg, zpow_natCast, ← div_eq_mul_inv]

/-- The digits before the point, then the point and the digits behind it. -/
lemma safeStrtof_fixed (hu : u ≤ uint32Max) (hrest : Stops rest) (blanks : ℕ) (isNegative : Bool) :
    safeStrtof (List.replicate blanks ' ' ++ (signText isNegative ++ (fixedText k u ++ rest))) =
      some (if isNegative then -((u : ℚ) / 10 ^ k) else (u : ℚ) / 10 ^ k, rest) := by
  have hint : u / 10 ^ k ≤ uint32Max := (Nat.div_le_self _ _).trans hu
  have hvalue : u / 10 ^ k * 10 ^ k + u % 10 ^ k = u := Nat.div_add_mod' u (10 ^ k)
  have hdigits : readDigits (start acceptSignedFloat isNegative) (fixedText k u ++ rest) =
      ({ start acceptSignedFloat isNegative with
        lvalue := u, fives := 0 - k, twos := 0 - k, hadDecimalPoint := true, hadDigit := true },
        rest) := by
    rw [fixedText, List.append_assoc, readDigits_integer rfl rfl rfl rfl hint, List.cons_append,
      readDigits_point rfl rfl, readDigits_low rfl rfl rfl rfl (by dsimp only; omega),
      readDigits_stop hrest]
    dsimp only
    rw [hvalue]
    rfl
  obtain ⟨t, ht, s', hhead⟩ := head_integer (u / 10 ^ k) ('.' :: lowDigits k u ++ rest)
  have htext : fixedText k u ++ rest = Nat.digitChar t :: s' := by
    rw [fixedText, List.append_assoc]
    exact hhead
  rw [htext] at hdigits ⊢
  rw [safeStrtof, accumulate_eq rfl rfl (fun _ => rfl) blanks ht hrest hdigits rfl]
  exact congrArg (fun q => some (q, rest)) (getFloat_eq (zero_sub _) (zero_sub _))

/-- A number without a point. -/
lemma safeStrtof_integer (hn : n ≤ uint32Max) (hrest : Stops rest) (blanks : ℕ)
    (isNegative : Bool) :
    safeStrtof (List.replicate blanks ' ' ++ (signText isNegative ++ (Nat.toDigits 10 n ++ rest))) =
      some (if isNegative then -(n : ℚ) else n, rest) := by
  have hdigits : readDigits (start acceptSignedFloat isNegative) (Nat.toDigits 10 n ++ rest) =
      ({ start acceptSignedFloat isNegative with lvalue := n, hadDigit := true }, rest) := by
    rw [readDigits_integer rfl rfl rfl rfl hn, readDigits_stop hrest]
  obtain ⟨t, ht, s', hhead⟩ := head_integer n rest
  rw [hhead] at hdigits ⊢
  have hvalue (c : NumericConverter) (hfives : c.fives = 0) (htwos : c.twos = 0) :
      c.getFloat = if c.isNegative then -(c.lvalue : ℚ) else c.lvalue := by
    rw [getFloat_eq (k := 0) hfives htwos, pow_zero, div_one]
  rw [safeStrtof, accumulate_eq rfl rfl (fun _ => rfl) blanks ht hrest hdigits rfl]
  exact congrArg (fun q => some (q, rest)) (hvalue _ rfl rfl)

lemma strToU32_integer (hn : n ≤ uint32Max) (hrest : Stops rest) :
    strToU32 (Nat.toDigits 10 n ++ rest) = some (n, rest) := by
  have hdigits : readDigits (start acceptOnlyUnsignedDecimal false) (Nat.toDigits 10 n ++ rest) =
      ({ start acceptOnlyUnsignedDecimal false with lvalue := n, hadDigit := true }, rest) := by
    rw [readDigits_integer rfl rfl rfl rfl hn, readDigits_stop hrest]
  obtain ⟨t, ht, s', hhead⟩ := head_integer n rest
  have hnumber := @accumulate_eq _ _ _ _ acceptOnlyUnsignedDecimal false rfl rfl
    (fun h => absurd h Bool.false_ne_true) 0 ht hrest (hhead ▸ hdigits) rfl
  rw [hhead, strToU32]
  change (accumulate acceptOnlyUnsignedDecimal (Nat.digitChar t :: s')).map _ = _
  change accumulate acceptOnlyUnsignedDecimal (Nat.digitChar t :: s') = _ at hnumber
  rw [hnumber]
  rfl

lemma rounded_eq (k : ℕ) (d : ℚ) : rounded k d = if decide (d < 0) = true then
    -((scaled k d : ℚ) / 10 ^ k) else (scaled k d : ℚ) / 10 ^ k := by
  simp only [rounded, decide_eq_true_eq]

/-- A number is read as it was rounded for printing. -/
lemma safeStrtof_decimal {d : ℚ} (hu : scaled k d ≤ uint32Max) (hrest : Stops rest) (width : ℕ) :
    safeStrtof (decimalText width k d ++ rest) = some (rounded k d, rest) := by
  rw [decimalText, List.append_assoc, List.append_assoc, safeStrtof_fixed hu hrest, rounded_eq]

/-! ### Sizes and characters -/

lemma scaled_le {k bound : ℕ} {d : ℚ} (h : |d| ≤ (bound : ℚ)) : scaled k d ≤ bound * 10 ^ k := by
  have hpow : (0 : ℚ) < 10 ^ k := by positivity
  have hmono := llrint_mono (mul_le_mul_of_nonneg_right h hpow.le)
  have hvalue : llrint ((bound : ℚ) * 10 ^ k) = ((bound * 10 ^ k : ℕ) : ℤ) := by
    have hcast : (bound : ℚ) * 10 ^ k = (((bound * 10 ^ k : ℕ) : ℤ) : ℚ) := by push_cast; rfl
    rw [hcast, llrint_intCast]
  rw [hvalue] at hmono
  rw [scaled]
  omega

lemma mem_lowDigits {k u : ℕ} {c : Char} (hc : c ∈ lowDigits k u) :
    ∃ t < 10, c = Nat.digitChar t := by
  induction k generalizing u with
  | zero => exact absurd hc (List.not_mem_nil)
  | succ k ih =>
    obtain hc | hc := List.mem_append.mp hc
    · exact ih hc
    · exact ⟨u % 10, Nat.mod_lt _ (by decide), List.mem_singleton.mp hc⟩

lemma length_lowDigits (k u : ℕ) : (lowDigits k u).length = k := by
  induction k generalizing u with
  | zero => rfl
  | succ k ih => rw [lowDigits, List.length_append, ih, List.length_singleton]

lemma length_fixedText (k u : ℕ) :
    (fixedText k u).length = (Nat.toDigits 10 (u / 10 ^ k)).length + 1 + k := by
  rw [fixedText, List.length_append, List.length_cons, length_lowDigits]
  omega

def isNumeral (c : Char) : Bool := c.isDigit || c = ' ' || c = '-' || c = '.'

lemma isNumeral_digit {c : Char} (h : c.isDigit = true) : isNumeral c = true := by
  rw [isNumeral, h]
  rfl

lemma isNumeral_fixedText {k u : ℕ} {c : Char} (hc : c ∈ fixedText k u) : isNumeral c = true := by
  obtain hc | hc := List.mem_append.mp hc
  · exact isNumeral_digit (Nat.isDigit_of_mem_toDigits (by decide) (by decide) hc)
  · obtain rfl | hc := List.mem_cons.mp hc
    · decide
    · obtain ⟨t, ht, rfl⟩ := mem_lowDigits hc
      interval_cases t <;> decide

lemma isNumeral_decimalText {width k : ℕ} {d : ℚ} {c : Char} (hc : c ∈ decimalText width k d) :
    isNumeral c = true := by
  obtain hc | hc := List.mem_append.mp hc
  · rw [List.eq_of_mem_replicate hc]
    decide
  · obtain hc | hc := List.mem_append.mp hc
    · rw [signText] at hc
      split at hc
      · rw [List.mem_singleton.mp hc]
        decide
      · exact absurd hc List.not_mem_nil
    · exact isNumeral_fixedText hc

/-! ### Numbers of any size -/

/-- The characters of numbers that may have an exponent. -/
def isScientific (c : Char) : Bool := isNumeral c || c = 'e' || c = '+'

lemma isScientific_numeral {c : Char} (h : isNumeral c = true) : isScientific c = true := by
  rw [isScientific, h]
  rfl

lemma pointLoop_length {digitsAfterPoint : ℤ} {m : ℕ} (hu : u < 10 ^ m)
    (hpoint : digitsAfterPoint < m) (hm : 0 < m) (s : List Char) :
    (pointLoop n digitsAfterPoint u s).length ≤
      s.length + m + if 0 ≤ digitsAfterPoint then 1 else 0 := by
  induction n generalizing digitsAfterPoint u m s with
  | zero =>
    rw [pointLoop]
    omega
  | succ n ih =>
    have hhere : (if digitsAfterPoint = 0 then '.' :: s else s).length =
        s.length + if digitsAfterPoint = 0 then 1 else 0 := by
      split
      · rfl
      · rfl
    rw [pointLoop]
    split
    · next hmore =>
      obtain ⟨m, rfl⟩ : ∃ m', m = m' + 1 := ⟨m - 1, by omega⟩
      have hdiv : u / 10 < 10 ^ m := by
        rw [pow_succ] at hu
        omega
      have hm' : 0 < m := by
        by_contra hzero
        have hm0 : m = 0 := by omega
        subst hm0
        omega
      have hrest := @ih (u / 10) (digitsAfterPoint - 1) m hdiv (by omega) hm'
        (digitOf 'a' (u % 10) :: if digitsAfterPoint = 0 then '.' :: s else s)
      rw [List.length_cons, hhere] at hrest
      refine hrest.trans ?_
      split_ifs
      all_goals omega
    · rw [List.length_cons, hhere]
      split_ifs
      all_goals omega

lemma mem_pointLoop {digitsAfterPoint : ℤ} {c : Char}
    (hc : c ∈ pointLoop n digitsAfterPoint u s) : c ∈ s ∨ isNumeral c = true := by
  induction n generalizing digitsAfterPoint u s with
  | zero => exact Or.inl hc
  | succ n ih =>
    have hdigit : isNumeral (digitOf 'a' (u % 10)) = true := by
      have hlt : u % 10 < 10 := Nat.mod_lt _ (by decide)
      interval_cases u % 10 <;> decide
    have hhere (h : c ∈ digitOf 'a' (u % 10) :: if digitsAfterPoint = 0 then '.' :: s else s) :
        c ∈ s ∨ isNumeral c = true := by
      obtain rfl | h := List.mem_cons.mp h
      · exact Or.inr hdigit
      · split at h
        · obtain rfl | h := List.mem_cons.mp h
          · exact Or.inr (by decide)
          · exact Or.inl h
        · exact Or.inl h
    rw [pointLoop] at hc
    split at hc
    · obtain h | h := ih hc
      · exact hhere h
      · exact Or.inr h
    · exact hhere hc

lemma scaleUp_le {ud : ℚ} (hle : ud ≤ llongMax) (m : ℕ) :
    (scaleUp k ud m).1 ≤ llongMax ∧ (scaleUp k ud m).2 ≤ m + k := by
  induction k generalizing ud m with
  | zero => exact ⟨hle, le_rfl⟩
  | succ k ih =>
    rw [scaleUp]
    split
    · next hlt =>
      have hten : ud * 10 ≤ llongMax := by
        have hdiv : ((llongMax / 10 : ℕ) : ℚ) * 10 ≤ llongMax := by norm_num [llongMax]
        linarith
      obtain ⟨h, hk⟩ := ih hten (m + 1)
      exact ⟨h, by omega⟩
    · exact ⟨hle, by omega⟩

/-- The division by powers of 10 leaves a small number, and its exponent. -/
lemma normalise_spec {step exponent : ℕ} {ud : ℚ} (hstep : 1 ≤ step) (hud : 1 ≤ ud) :
    1 ≤ (normalise (10 ^ step) step ud exponent).1 ∧
      (normalise (10 ^ step) step ud exponent).1 < 10 ^ step ∧
      (normalise (10 ^ step) step ud exponent).1 *
        10 ^ (normalise (10 ^ step) step ud exponent).2 = ud * 10 ^ exponent := by
  have htwo : 2 ≤ 10 ^ step := le_trans (by decide) (Nat.pow_le_pow_right (by decide) hstep)
  have hpow : (0 : ℚ) < 10 ^ step := by positivity
  induction hfloor : ⌊ud⌋₊ using Nat.strong_induction_on generalizing ud exponent with
  | _ m ih =>
    rw [normalise]
    split
    · next h =>
      have hle : (10 : ℚ) ^ step ≤ ud := by exact_mod_cast h.2
      have hone : 1 ≤ ud / (10 ^ step : ℕ) := by
        rw [Nat.cast_pow, Nat.cast_ofNat, le_div_iff₀ hpow]
        linarith
      have hless : ⌊ud / (10 ^ step : ℕ)⌋₊ < m := by
        rw [Nat.floor_div_natCast, hfloor]
        exact Nat.div_lt_self (hfloor ▸ Nat.floor_pos.mpr hud) htwo
      obtain ⟨hlow, hhigh, hvalue⟩ := @ih _ hless (exponent + step) _ hone rfl
      refine ⟨hlow, hhigh, hvalue.trans ?_⟩
      rw [Nat.cast_pow, Nat.cast_ofNat, pow_add]
      field_simp
    · next h =>
      refine ⟨hud, ?_, rfl⟩
      by_contra hge
      exact h ⟨htwo, by rw [Nat.cast_pow, Nat.cast_ofNat]; exact not_lt.mp hge⟩

/-- The digits of a number whose exponent has been split off. -/
def digitsWithExponent (flags : PrintFlags) (big : Bool) (ud : ℚ) (exponent : ℕ) : List Char :=
  let printLimit := if flags.printLimit < 0 then 6 else flags.printLimit.toNat
  let scale := scaleUp printLimit ud 0
  let u := (llrint scale.1).toNat
  let rounded := big && decide (10 ^ (scale.2 + 1) ≤ u)
  let u := if rounded then u / 10 else u
  let exponent := if rounded then exponent + 1 else exponent
  let s := if big then 'e' :: '+' :: Nat.toDigits 10 exponent else []
  let digitsAfterPoint : ℤ := if scale.2 = 0 ∧ !flags.hash then -1 else scale.2
  pointLoop (u + digitsAfterPoint.toNat + 2) digitsAfterPoint u s

lemma floatDigits_split (flags : PrintFlags) (d : ℚ) : floatDigits flags 'f' d =
    if (llongMax : ℚ) < |d| then
      digitsWithExponent flags true
        (normalise 10 1 (normalise 100000 5 |d| 0).1 (normalise 100000 5 |d| 0).2).1
        (normalise 10 1 (normalise 100000 5 |d| 0).1 (normalise 100000 5 |d| 0).2).2
    else digitsWithExponent flags false |d| 0 := by
  by_cases h : (llongMax : ℚ) < |d|
  · rw [floatDigits, decide_eq_true h, if_pos h]
    rfl
  · rw [floatDigits, decide_eq_false h, if_neg h]
    rfl

lemma digitsWithExponent_short {flags : PrintFlags} (hlimit : flags.printLimit = 3) (big : Bool)
    {ud : ℚ} (hle : ud ≤ llongMax) {exponent : ℕ} (hexponent : exponent < 99) :
    (digitsWithExponent flags big ud exponent).length ≤ 25 ∧
      ∀ c ∈ digitsWithExponent flags big ud exponent, isScientific c = true := by
  have hlimit' : (if flags.printLimit < 0 then 6 else flags.printLimit.toNat) = 3 := by
    rw [hlimit]
    rfl
  obtain ⟨hscale, hplaces⟩ := scaleUp_le (k := 3) hle 0
  rw [digitsWithExponent, hlimit']
  generalize scaleUp 3 ud 0 = scale at hscale hplaces ⊢
  have hu : (llrint scale.1).toNat < 10 ^ 20 := by
    have hmono := llrint_mono hscale
    have hmax : llrint ((llongMax : ℕ) : ℚ) = ((llongMax : ℕ) : ℤ) :=
      llrint_intCast ((llongMax : ℕ) : ℤ)
    rw [hmax, llongMax] at hmono
    omega
  generalize (llrint scale.1).toNat = u at hu ⊢
  generalize hrounded : (big && decide (10 ^ (scale.2 + 1) ≤ u)) = rounded
  have hu' : (if rounded = true then u / 10 else u) < 10 ^ 20 := by
    split
    · omega
    · exact hu
  have hexponent' : (Nat.toDigits 10 (if rounded = true then exponent + 1 else exponent)).length ≤
      2 := by
    rw [Nat.length_toDigits_le_iff (by decide) (by decide)]
    split
    · omega
    · omega
  have hpoint : (if scale.2 = 0 ∧ (!flags.hash) = true then -1 else (scale.2 : ℤ)) < (20 : ℕ) := by
    split
    · decide
    · omega
  constructor
  · have hs : (if big = true then 'e' :: '+' :: Nat.toDigits 10
        (if rounded = true then exponent + 1 else exponent) else []).length ≤ 4 := by
      split
      · rw [List.length_cons, List.length_cons]
        omega
      · exact Nat.zero_le _
    have hbit (p : Prop) [Decidable p] : (if p then 1 else 0) ≤ 1 := by
      split
      · exact le_rfl
      · exact Nat.zero_le _
    refine (pointLoop_length hu' hpoint (by decide) _).trans ?_
    exact Nat.add_le_add (Nat.add_le_add hs le_rfl) (hbit _)
  · intro c hc
    obtain hc | hc := mem_pointLoop hc
    · split at hc
      · obtain rfl | hc := List.mem_cons.mp hc
        · decide
        · obtain rfl | hc := List.mem_cons.mp hc
          · decide
          · exact isScientific_numeral (isNumeral_digit
              (Nat.isDigit_of_mem_toDigits (by decide) (by decide) hc))
      · exact absurd hc List.not_mem_nil
    · exact isScientific_numeral hc

/-- A number in the range of floating point numbers takes few characters. -/
lemma floatDigits_short {flags : PrintFlags} (hlimit : flags.printLimit = 3) {d : ℚ}
    (hd : |d| < 10 ^ 90) : (floatDigits flags 'f' d).length ≤ 25 ∧
      ∀ c ∈ floatDigits flags 'f' d, isScientific c = true := by
  rw [floatDigits_split]
  split
  · next hbig =>
    have hone : 1 ≤ |d| := by
      have hmax : (1 : ℚ) ≤ (llongMax : ℕ) := by norm_num [llongMax]
      linarith
    obtain ⟨hlow, -, hvalue⟩ := @normalise_spec 5 0 _ (by decide) hone
    obtain ⟨hlow', hhigh', hvalue'⟩ :=
      @normalise_spec 1 (normalise (10 ^ 5) 5 |d| 0).2 _ le_rfl hlow
    rw [hvalue, pow_zero, mul_one] at hvalue'
    apply digitsWithExponent_short hlimit true
    · have hmax : (10 : ℚ) ≤ (llongMax : ℕ) := by norm_num [llongMax]
      norm_num at hhigh'
      linarith
    · by_contra hlarge
      have hpow : (10 : ℚ) ^ 90 ≤ 10 ^ (normalise (10 ^ 1) 1 (normalise (10 ^ 5) 5 |d| 0).1
          (normalise (10 ^ 5) 5 |d| 0).2).2 := by
        apply pow_le_pow_right₀ (by norm_num)
        norm_num at hlarge ⊢
        omega
      have hmul := mul_le_mul hlow' hpow (by positivity) (by linarith)
      linarith
  · next hsmall =>
    exact digitsWithExponent_short hlimit false (not_lt.mp hsmall) (by decide)

/-! ### Numbers that are cut -/

lemma take_toDigits {j : ℕ} (hj : j < (Nat.toDigits 10 a).length) :
    (Nat.toDigits 10 a).take ((Nat.toDigits 10 a).length - j) = Nat.toDigits 10 (a / 10 ^ j) := by
  induction j generalizing a with
  | zero => rw [Nat.sub_zero, List.take_length, pow_zero, Nat.div_one]
  | succ j ih =>
    by_cases hlt : a < 10
    · rw [Nat.toDigits_of_lt_base hlt, List.length_singleton] at hj
      omega
    · have hsplit : Nat.toDigits 10 a = Nat.toDigits 10 (a / 10) ++ [Nat.digitChar (a % 10)] := by
        rw [Nat.toDigits_eq_if (by decide), if_neg hlt]
      rw [hsplit, List.length_append, List.length_singleton] at hj ⊢
      rw [List.take_append_of_le_length (by omega), Nat.add_sub_add_right, ih (by omega),
        Nat.div_div_eq_div_mul, ← pow_succ']

lemma take_lowDigits {j : ℕ} (hj : j ≤ k) (u : ℕ) :
    (lowDigits k u).take (k - j) = lowDigits (k - j) (u / 10 ^ j) := by
  induction j generalizing k u with
  | zero =>
    rw [Nat.sub_zero, pow_zero, Nat.div_one]
    exact List.take_of_length_le (length_lowDigits k u).le
  | succ j ih =>
    obtain ⟨k, rfl⟩ : ∃ k', k = k' + 1 := ⟨k - 1, by omega⟩
    rw [lowDigits, Nat.add_sub_add_right, List.take_append_of_le_length
      (by rw [length_lowDigits]; omega), ih (by omega), Nat.div_div_eq_div_mul, ← pow_succ']

lemma take_fixedText {j : ℕ} (hj : j ≤ k) (u : ℕ) :
    (fixedText k u).take ((fixedText k u).length - j) = fixedText (k - j) (u / 10 ^ j) := by
  have hpow : u / 10 ^ j / 10 ^ (k - j) = u / 10 ^ k := by
    rw [Nat.div_div_eq_div_mul, ← pow_add, Nat.add_sub_cancel' hj]
  have hlength : (fixedText k u).length - j =
      (Nat.toDigits 10 (u / 10 ^ k)).length + (k - j + 1) := by
    rw [length_fixedText]
    omega
  rw [hlength, fixedText, List.take_length_add_append, List.take_succ_cons, take_lowDigits hj,
    fixedText, hpow]

lemma take_fixedText_integer {j : ℕ} (hj : j < (Nat.toDigits 10 (u / 10 ^ k)).length) :
    (fixedText k u).take ((fixedText k u).length - (k + 1 + j)) =
      Nat.toDigits 10 (u / 10 ^ k / 10 ^ j) := by
  have hlength : (fixedText k u).length - (k + 1 + j) =
      (Nat.toDigits 10 (u / 10 ^ k)).length - j := by
    rw [length_fixedText]
    omega
  rw [hlength, fixedText, List.take_append_of_le_length (Nat.sub_le _ _), take_toDigits hj]

/-- A number that is close to one of fewer digits has these digits. -/
lemma even_close {d : ℚ} {v : ℕ} (heven : v % 2 = 0) (hle : v ≤ scaled k d)
    (hclose : |(v : ℚ) - |d| * 10 ^ k| ≤ 1 / 2) : v = scaled k d := by
  by_contra hne
  have hless : v + 1 ≤ scaled k d := by omega
  have hround : ((scaled k d : ℕ) : ℤ) = llrint (|d| * 10 ^ k) := by
    rw [scaled, Int.toNat_of_nonneg (llrint_nonneg (by positivity))]
  have hhigh := llrint_close (|d| * 10 ^ k)
  rw [abs_le] at hclose hhigh
  have hcast : ((v + 1 : ℕ) : ℚ) ≤ (scaled k d : ℕ) := by exact_mod_cast hless
  rw [scaled_cast] at hcast
  push_cast at hcast
  have hvalue : |d| * 10 ^ k = (v : ℚ) + 1 / 2 := by
    apply le_antisymm
    · linarith [hclose.1]
    · linarith [hhigh.2]
  have hfloor : ⌊(v : ℚ) + 1 / 2⌋ = (v : ℤ) := by
    rw [Int.floor_eq_iff]
    push_cast
    constructor
    · linarith
    · linarith
  have hrint : llrint ((v : ℚ) + 1 / 2) = v := by
    rw [llrint, hfloor]
    push_cast
    rw [add_sub_cancel_left, if_neg (lt_irrefl _), if_neg (lt_irrefl _), if_pos (by omega)]
  rw [hvalue, hrint] at hround
  omega

end RepRapFirmware.RRFLibraries.FixedPoint
