import Mathlib.Data.List.TakeWhile
import Mathlib.Data.Nat.Digits.Defs
import Mathlib.Tactic
import RepRapFirmware.Library.RelativeError
import RepRapFirmware.RRFLibraries.NumericConverter

/-! What the literal in front of a text means, and what the converter makes of it. -/

namespace RepRapFirmware.RRFLibraries.NumericConverters

open RepRapFirmware.Library.RelativeError

def int32Max : ℕ := 2 ^ 31 - 1

namespace NumericConverter

variable (n : NumericConverter)

/-- `FitsInInt32`, which leaves the most negative number out. -/
def fitsInInt32 : Bool :=
  !n.hadDecimalPoint ∧ !n.hadExponent ∧ n.twos = 0 ∧ n.fives = 0 ∧ n.lvalue ≤ int32Max

def getInt32 : BitVec 32 :=
  if n.isNegative then -BitVec.ofNat 32 n.lvalue else BitVec.ofNat 32 n.lvalue

def getUint32 : ℕ := n.lvalue

def magnitude : ℚ := n.lvalue * 2 ^ n.twos * 5 ^ n.fives

def value : ℚ := if n.isNegative then -n.magnitude else n.magnitude

end NumericConverter

/-! ### Literals -/

/-- The number that a row of digits denotes. -/
def number (base : ℕ) (digits : List Char) : ℕ :=
  Nat.ofDigits base (digits.map digitValue).reverse

/-- Digits, with those behind the decimal point where there is one. -/
structure Mantissa where
  whole : List Char
  fraction : Option (List Char)

namespace Mantissa

variable (m : Mantissa)

def text : List Char := m.whole ++ m.fraction.elim [] ('.' :: ·)

def digits : List Char := m.whole ++ m.fraction.getD []

def places : ℕ := (m.fraction.getD []).length

def value (base : ℕ) : ℚ := number base m.digits / base ^ m.places

def push (c : Char) : Mantissa :=
  match m.fraction with
  | none => { m with whole := m.whole ++ [c] }
  | some cs => { m with fraction := some (cs ++ [c]) }

def point : Mantissa := { m with fraction := some [] }

end Mantissa

structure Exponent where
  letter : Char
  sign : Option Char
  digits : List Char

namespace Exponent

variable (e : Exponent)

def text : List Char := e.letter :: (e.sign.toList ++ e.digits)

def magnitude : ℕ := number 10 e.digits

def value : ℤ := if e.sign = some '-' then -e.magnitude else e.magnitude

structure WellFormed : Prop where
  letter : e.letter = 'E' ∨ e.letter = 'e'
  sign : ∀ c ∈ e.sign, c = '+' ∨ c = '-'
  nonempty : e.digits ≠ []
  digits : ∀ c ∈ e.digits, c.isDigit

end Exponent

/-- The base that the letter behind a leading zero names. -/
def letterBase (options : Options) : Option Char → ℕ
  | none => if options.defaultHex then 16 else 10
  | some c => if c = 'x' ∨ c = 'X' then 16 else 2

/-- A number as it is written. -/
structure Literal where
  sign : Option Char
  letter : Option Char
  mantissa : Mantissa
  exponent : Option Exponent

namespace Literal

variable (options : Options) (l : Literal)

def text : List Char :=
  l.sign.toList ++ (l.letter.elim [] (['0', ·]) ++ (l.mantissa.text ++
    l.exponent.elim [] Exponent.text))

def base : ℕ := letterBase options l.letter

def magnitude : ℚ := l.mantissa.value (l.base options) * 10 ^ l.exponent.elim 0 Exponent.value

def value : ℚ := if l.sign = some '-' then -l.magnitude options else l.magnitude options

structure WellFormed : Prop where
  sign : ∀ c ∈ l.sign, c = '+' ∨ c = '-' ∧ options.acceptNegative
  letter : ∀ c ∈ l.letter, options.acceptHex ∧ (c = 'x' ∨ c = 'X' ∨ c = 'b' ∨ c = 'B')
  digits : ∀ c ∈ l.mantissa.digits, isxdigit c ∧ digitValue c < l.base options
  nonempty : l.mantissa.digits ≠ [] ∨ l.letter.isSome
  fraction : l.mantissa.fraction.isSome → options.acceptFloat ∧ l.letter = none
  exponent : ∀ e ∈ l.exponent, e.WellFormed ∧ options.acceptFloat ∧ l.letter = none

/-- A point is a decimal point. -/
def Conventional : Prop := l.mantissa.fraction.isSome → l.base options = 10

end Literal

variable {options : Options} {b : ℕ} {c : Char} {cs s s' : List Char} {m : Mantissa}
  {n : NumericConverter}

lemma number_nil (b : ℕ) : number b [] = 0 := rfl

lemma number_append_singleton (b : ℕ) (cs : List Char) (c : Char) :
    number b (cs ++ [c]) = number b cs * b + digitValue c := by
  rw [number, List.map_append, List.map_singleton, List.reverse_append, List.reverse_singleton,
    List.singleton_append, Nat.ofDigits_cons, number, add_comm, mul_comm]

lemma number_cons (b : ℕ) (c : Char) (cs : List Char) :
    number b (c :: cs) = digitValue c * b ^ cs.length + number b cs := by
  rw [number, List.map_cons, List.reverse_cons, Nat.ofDigits_append, Nat.ofDigits_singleton,
    List.length_reverse, List.length_map, number, add_comm, mul_comm]

namespace Mantissa

lemma push_text (m : Mantissa) (c : Char) : (m.push c).text = m.text ++ [c] := by
  rw [push, text, text]
  split
  · next hnone => simp [hnone]
  · next cs hsome => simp [hsome]

lemma push_digits (m : Mantissa) (c : Char) : (m.push c).digits = m.digits ++ [c] := by
  rw [push, digits, digits]
  split
  · next hnone => simp [hnone]
  · next cs hsome => simp [hsome]

lemma push_fraction (m : Mantissa) (c : Char) :
    (m.push c).fraction.isSome = m.fraction.isSome := by
  rw [push]
  split
  · next hnone => rw [hnone]
  · next cs hsome => simp [hsome]

lemma push_places (m : Mantissa) (c : Char) :
    (m.push c).places = if m.fraction.isSome then m.places + 1 else 0 := by
  rw [push, places, places]
  split
  · next hnone => simp [hnone]
  · next cs hsome => simp [hsome]

lemma places_eq_zero (h : m.fraction.isSome = false) : m.places = 0 := by
  rw [places, Option.isSome_eq_false_iff.mp h |> Option.isNone_iff_eq_none.mp]
  rfl

lemma point_text (h : m.fraction.isSome = false) : m.point.text = m.text ++ ['.'] := by
  rw [point, text, text, Option.isSome_eq_false_iff.mp h |> Option.isNone_iff_eq_none.mp]
  simp

lemma point_digits (h : m.fraction.isSome = false) : m.point.digits = m.digits := by
  rw [point, digits, digits, Option.isSome_eq_false_iff.mp h |> Option.isNone_iff_eq_none.mp]
  rfl

end Mantissa

/-! ### What a digit adds -/

/-- The largest error, which is what 28 exact bits leave. -/
def tolerance : ℚ := 1 / 2 ^ 28

/-- The digits read so far, behind a letter for the base or none. -/
structure Reads (letter : Option Char) (r : Reading) (m : Mantissa) : Prop where
  base : r.base = 2 ∨ r.base = 10 ∨ r.base = 16
  point : r.hadDecimalPoint = m.fraction.isSome
  digits : ∀ c ∈ m.digits, isxdigit c ∧ digitValue c < r.base
  found : r.hadDigit → m.digits ≠ [] ∨ letter.isSome
  float : m.fraction.isSome → r.acceptFloat

/-- What the number so far has to do with the digits read, where a point is a decimal point. Once a
digit did not fit, a number `v` stands for the digits up to that one. -/
structure Represents (r : Reading) (m : Mantissa) : Prop where
  decimal : r.hadDecimalPoint → r.base = 10
  fits : r.overflowed = false → number r.base m.digits ≤ uint32Max
  exact : r.overflowed = false →
    r.lvalue = number r.base m.digits ∧ r.twos = -m.places ∧ r.fives = -m.places
  large : r.overflowed → uint32Max < number r.base m.digits
  cut : r.overflowed → ∃ (v : ℕ) (j : ℕ), Cut tolerance r.base j (v : ℚ) (number r.base m.digits) ∧
    r.magnitude = v * r.base ^ j / r.base ^ m.places
  scaled : r.overflowed → r.hadDecimalPoint = false → 0 ≤ r.twos ∧ 0 ≤ r.fives ∧
    0 < r.twos + r.fives

variable {letter : Option Char} {r r' : Reading} {d : ℕ}

lemma tolerance_nonneg : 0 ≤ tolerance := by
  rw [tolerance]
  norm_num

lemma magnitude_scale (r : Reading) (fives twos : ℤ) :
    (r.scale fives twos).magnitude = r.magnitude * 2 ^ twos * 5 ^ fives := by
  change (r.lvalue : ℚ) * 2 ^ (r.twos + twos) * 5 ^ (r.fives + fives) = _
  rw [NumericConverter.magnitude, zpow_add₀ two_ne_zero, zpow_add₀ (by norm_num)]
  ring

lemma magnitude_overflow (r : Reading) (lvalue : ℕ) (fives twos : ℤ) :
    (r.overflow lvalue fives twos).magnitude =
      lvalue * 2 ^ (r.twos + twos) * 5 ^ (r.fives + fives) := rfl

lemma powers_of_ten (k : ℕ) (twos fives : ℤ) :
    (2 : ℚ) ^ (-(k : ℤ) + twos) * 5 ^ (-(k : ℤ) + fives) = 2 ^ twos * 5 ^ fives / 10 ^ k := by
  have htens : (10 : ℚ) ^ k = 2 ^ k * 5 ^ k := by
    rw [← mul_pow]
    norm_num
  rw [zpow_add₀ two_ne_zero, zpow_add₀ (by norm_num), zpow_neg, zpow_neg, zpow_natCast,
    zpow_natCast, htens]
  field_simp

lemma Reads.base_pos (h : Reads letter r m) : 0 < r.base := by
  obtain hbase | hbase | hbase := h.base <;> omega

/-- A digit that is only counted. -/
lemma Represents.scale (h : Represents r m) (hr : Reads letter r m) (hover : r.overflowed)
    (hc : digitValue c < r.base) {fives twos : ℤ} (hfives : 0 ≤ fives) (htwos : 0 ≤ twos)
    (hscale : (2 : ℚ) ^ twos * 5 ^ fives = if r.hadDecimalPoint then 1 else (r.base : ℚ)) :
    Represents (r.scale fives twos) (m.push c) := by
  have hbase : (r.base : ℚ) ≠ 0 := Nat.cast_ne_zero.mpr hr.base_pos.ne'
  obtain ⟨v, j, hcut, hvalue⟩ := h.cut hover
  refine ⟨h.decimal, ?_, ?_, ?_, ?_, ?_⟩
  · exact fun hnot => absurd (hnot.symm.trans hover) Bool.false_ne_true
  · exact fun hnot => absurd (hnot.symm.trans hover) Bool.false_ne_true
  · intro _
    change uint32Max < number r.base (m.push c).digits
    rw [Mantissa.push_digits, number_append_singleton]
    exact (h.large hover).trans_le
      (Nat.le_add_right_of_le (Nat.le_mul_of_pos_right _ hr.base_pos))
  · intro _
    refine ⟨v, j + 1, ?_, ?_⟩
    · change Cut tolerance r.base (j + 1) (v : ℚ) (number r.base (m.push c).digits)
      rw [Mantissa.push_digits, number_append_singleton]
      exact hcut.push hc
    · rw [magnitude_scale, mul_assoc, hscale, hvalue, Mantissa.push_places, ← hr.point]
      change _ = (v : ℚ) * (r.base : ℚ) ^ (j + 1) / (r.base : ℚ) ^ _
      cases hpoint : r.hadDecimalPoint with
      | true =>
        simp only [↓reduceIte]
        field_simp
        ring
      | false =>
        rw [m.places_eq_zero (hr.point.symm.trans hpoint)]
        simp only [Bool.false_eq_true, ↓reduceIte]
        ring
  · intro _ hpoint
    obtain ⟨htwos', hfives', hsum⟩ := h.scaled hover hpoint
    change 0 ≤ r.twos + twos ∧ 0 ≤ r.fives + fives ∧ 0 < r.twos + twos + (r.fives + fives)
    omega

/-- A digit that fits. -/
lemma Represents.next (h : Represents r m) (hr : Reads letter r m) (hover : r.overflowed = false)
    (hfits : r.lvalue * r.base + digitValue c ≤ uint32Max) {lvalue : ℕ} {fives twos : ℤ}
    (hlvalue : lvalue = r.lvalue * r.base + digitValue c)
    (hfives : fives = if r.hadDecimalPoint then r.fives - 1 else r.fives)
    (htwos : twos = if r.hadDecimalPoint then r.twos - 1 else r.twos) :
    Represents { r with lvalue := lvalue, fives := fives, twos := twos } (m.push c) := by
  obtain ⟨hl, ht, hf⟩ := h.exact hover
  have hnot {p : Prop} (hyes : r.overflowed = true) : p :=
    absurd (hover.symm.trans hyes) Bool.false_ne_true
  refine ⟨h.decimal, ?_, ?_, fun hyes => hnot hyes, fun hyes => hnot hyes, fun hyes => hnot hyes⟩
  · intro _
    change number r.base (m.push c).digits ≤ uint32Max
    rw [Mantissa.push_digits, number_append_singleton, ← hl]
    exact hfits
  · intro _
    change lvalue = number r.base (m.push c).digits ∧ twos = -((m.push c).places : ℤ) ∧
      fives = -((m.push c).places : ℤ)
    rw [Mantissa.push_digits, number_append_singleton, ← hl, Mantissa.push_places, ← hr.point]
    refine ⟨hlvalue, ?_⟩
    rw [htwos, hfives, ht, hf]
    cases hpoint : r.hadDecimalPoint with
    | true =>
      simp only [↓reduceIte]
      omega
    | false =>
      rw [m.places_eq_zero (hr.point.symm.trans hpoint)]
      exact ⟨rfl, rfl⟩

/-- The first digit that does not fit, taken with an error. -/
lemma Represents.overflow (h : Represents r m) (hr : Reads letter r m)
    (hover : r.overflowed = false) (hlarge : uint32Max < r.lvalue * r.base + digitValue c)
    {v e lvalue : ℕ} {fives twos : ℤ} (habove : v ≤ r.lvalue * r.base + digitValue c + e)
    (hbelow : r.lvalue * r.base + digitValue c ≤ v + e)
    (hroom : (e + 1) * 2 ^ 28 ≤ r.lvalue * r.base + digitValue c)
    (hvalue : (lvalue : ℚ) * 2 ^ twos * 5 ^ fives =
      if r.hadDecimalPoint then (v : ℚ) / r.base else v)
    (hscaled : r.hadDecimalPoint = false → 0 ≤ twos ∧ 0 ≤ fives ∧ 0 < twos + fives) :
    Represents (r.overflow lvalue fives twos) (m.push c) := by
  have hbase : (r.base : ℚ) ≠ 0 := Nat.cast_ne_zero.mpr hr.base_pos.ne'
  have herror : |(v : ℚ) - (r.lvalue * r.base + digitValue c : ℕ)| ≤ e := by
    rw [abs_sub_le_iff, sub_le_iff_le_add', sub_le_iff_le_add']
    exact ⟨by exact_mod_cast habove, by exact_mod_cast hbelow⟩
  obtain ⟨hl, ht, hf⟩ := h.exact hover
  refine ⟨h.decimal, ?_, ?_, ?_, ?_, ?_⟩
  · exact fun hnot => absurd hnot.symm Bool.false_ne_true
  · exact fun hnot => absurd hnot.symm Bool.false_ne_true
  · intro _
    change uint32Max < number r.base (m.push c).digits
    rw [Mantissa.push_digits, number_append_singleton, ← hl]
    exact hlarge
  · intro _
    refine ⟨v, 0, ?_, ?_⟩
    · change Cut tolerance r.base 0 (v : ℚ) (number r.base (m.push c).digits)
      rw [Mantissa.push_digits, number_append_singleton, ← hl]
      apply cut_zero
      rw [tolerance, mul_one_div, le_div_iff₀ (by norm_num)]
      have hle : (|(v : ℚ) - (r.lvalue * r.base + digitValue c : ℕ)| + 1) * 2 ^ 28 ≤
          ((e : ℚ) + 1) * 2 ^ 28 := by
        gcongr
      exact hle.trans (by exact_mod_cast hroom)
    · rw [magnitude_overflow, ht, hf, mul_assoc, powers_of_ten, ← mul_div_assoc, ← mul_assoc,
        hvalue, Mantissa.push_places, ← hr.point]
      change _ = (v : ℚ) * (r.base : ℚ) ^ 0 / (r.base : ℚ) ^ _
      cases hpoint : r.hadDecimalPoint with
      | true =>
        simp only [↓reduceIte, h.decimal hpoint, pow_zero, mul_one, pow_succ']
        rw [div_div]
        norm_num
      | false =>
        rw [m.places_eq_zero (hr.point.symm.trans hpoint)]
        simp
  · intro _ hpoint
    change 0 ≤ r.twos + twos ∧ 0 ≤ r.fives + fives ∧ 0 < r.twos + twos + (r.fives + fives)
    rw [ht, hf, m.places_eq_zero (hr.point.symm.trans hpoint)]
    simpa using hscaled hpoint

lemma addBinaryDigit_represents (h : Represents r m) (hr : Reads letter r m) (hbase : r.base = 2)
    (hc : digitValue c < 2) : Represents (addBinaryDigit r (digitValue c)) (m.push c) := by
  have hpoint : r.hadDecimalPoint = false := by
    by_contra hpoint
    have hten := h.decimal (Bool.of_not_eq_false hpoint)
    omega
  rw [addBinaryDigit]
  split
  · next hover =>
    refine h.scale hr hover (hbase.symm ▸ hc) le_rfl zero_le_one ?_
    rw [hpoint, hbase]
    norm_num
  · next hover =>
    have hover := Bool.eq_false_iff.mpr hover
    split
    · next hle =>
      refine h.next hr hover ?_ (by rw [hbase]) (by rw [hpoint]; rfl) (by rw [hpoint]; rfl)
      rw [uint32Max] at hle ⊢
      rw [hbase]
      omega
    · next hle =>
      rw [uint32Max] at hle
      refine h.overflow hr hover ?_ (v := r.lvalue * 2) (e := 1) ?_ ?_ ?_ ?_ fun _ => by decide
      · rw [uint32Max, hbase]
        omega
      · rw [hbase]
        omega
      · rw [hbase]
        omega
      · rw [hbase]
        omega
      · rw [hpoint]
        norm_num

lemma addDecimalDigit_represents (h : Represents r m) (hr : Reads letter r m) (hbase : r.base = 10)
    (hc : digitValue c < 10) : Represents (addDecimalDigit r (digitValue c)) (m.push c) := by
  rw [addDecimalDigit]
  split
  · next hover =>
    split
    · next hpoint =>
      have hcounted := h.scale hr hover (hbase.symm ▸ hc) le_rfl le_rfl (by rw [hpoint]; norm_num)
      rwa [Reading.scale, add_zero, add_zero] at hcounted
    · next hpoint =>
      refine h.scale hr hover (hbase.symm ▸ hc) zero_le_one zero_le_one ?_
      rw [if_neg hpoint, hbase]
      norm_num
  · next hover =>
    have hover := Bool.eq_false_iff.mpr hover
    split
    · next hle =>
      have hfits : r.lvalue * r.base + digitValue c ≤ uint32Max := by
        rw [uint32Max] at hle ⊢
        rw [hbase]
        omega
      dsimp only
      split
      · next hpoint =>
        exact h.next hr hover hfits (by rw [hbase]) (by rw [if_pos hpoint]; rfl)
          (by rw [if_pos hpoint]; rfl)
      · next hpoint =>
        exact h.next hr hover hfits (by rw [hbase]) (by rw [if_neg hpoint]) (by rw [if_neg hpoint])
    · next hgt =>
      rw [uint32Max] at hgt
      have hlarge : uint32Max < r.lvalue * r.base + digitValue c := by
        rw [uint32Max, hbase]
        omega
      dsimp only
      split
      · have habove : (r.lvalue * 5 + (digitValue c + 1) / 2) * 2 ≤
            r.lvalue * r.base + digitValue c + 1 := by
          rw [hbase]
          omega
        have hbelow : r.lvalue * r.base + digitValue c ≤
            (r.lvalue * 5 + (digitValue c + 1) / 2) * 2 + 1 := by
          rw [hbase]
          omega
        have hroom : (1 + 1) * 2 ^ 28 ≤ r.lvalue * r.base + digitValue c := by
          rw [hbase]
          omega
        split
        · next hpoint =>
          refine h.overflow hr hover hlarge habove hbelow hroom ?_
            fun hnot => absurd (hnot.symm.trans hpoint) Bool.false_ne_true
          rw [if_pos hpoint, hbase]
          push_cast
          norm_num
          ring
        · next hpoint =>
          refine h.overflow hr hover hlarge habove hbelow hroom ?_ fun _ => by decide
          rw [if_neg hpoint]
          push_cast
          norm_num
      · next hfive =>
        rw [uint32Max] at hfive
        split
        · have habove : (r.lvalue * 2 + (digitValue c + 4) / 5) * 5 ≤
              r.lvalue * r.base + digitValue c + 4 := by
            rw [hbase]
            omega
          have hbelow : r.lvalue * r.base + digitValue c ≤
              (r.lvalue * 2 + (digitValue c + 4) / 5) * 5 + 4 := by
            rw [hbase]
            omega
          have hroom : (4 + 1) * 2 ^ 28 ≤ r.lvalue * r.base + digitValue c := by
            rw [hbase]
            omega
          split
          · next hpoint =>
            refine h.overflow hr hover hlarge habove hbelow hroom ?_
              fun hnot => absurd (hnot.symm.trans hpoint) Bool.false_ne_true
            rw [if_pos hpoint, hbase]
            push_cast
            norm_num
            ring
          · next hpoint =>
            refine h.overflow hr hover hlarge habove hbelow hroom ?_ fun _ => by decide
            rw [if_neg hpoint]
            push_cast
            norm_num
        · next htwo =>
          rw [uint32Max] at htwo
          have habove : r.lvalue * 10 ≤ r.lvalue * r.base + digitValue c + 9 := by
            rw [hbase]
            omega
          have hbelow : r.lvalue * r.base + digitValue c ≤ r.lvalue * 10 + 9 := by
            rw [hbase]
            omega
          have hroom : (9 + 1) * 2 ^ 28 ≤ r.lvalue * r.base + digitValue c := by
            rw [hbase]
            omega
          split
          · next hpoint =>
            refine h.overflow hr hover hlarge habove hbelow hroom ?_
              fun hnot => absurd (hnot.symm.trans hpoint) Bool.false_ne_true
            rw [if_pos hpoint, hbase]
            push_cast
            norm_num
          · next hpoint =>
            refine h.overflow hr hover hlarge habove hbelow hroom ?_ fun _ => by decide
            rw [if_neg hpoint]
            push_cast
            ring

lemma or_le_add (p q : ℕ) : p ||| q ≤ p + q := by
  induction p using Nat.strong_induction_on generalizing q with
  | _ p ih =>
    rcases Nat.eq_zero_or_pos p with rfl | hp
    · rw [Nat.zero_or, zero_add]
    · have hhalf := ih (p / 2) (Nat.div_lt_self hp one_lt_two) (q / 2)
      have hdiv : (p ||| q) / 2 = p / 2 ||| q / 2 := Nat.or_div_two
      have hodd : (p ||| q) % 2 = 1 ↔ p % 2 = 1 ∨ q % 2 = 1 := Nat.or_mod_two_eq_one
      omega

/-- The leading bits of a hexadecimal digit put below `lvalue`. A carry out of them is lost where
`lvalue` is odd. -/
lemma addLeadingBits_represents (h : Represents r m) (hr : Reads letter r m) (hbase : r.base = 16)
    (hover : r.overflowed = false) (hpoint : r.hadDecimalPoint = false)
    (hlarge : uint32Max < r.lvalue * r.base + digitValue c) (hc : digitValue c < 16)
    {lvalue k up low : ℕ} (hup : 0 < up) (hk : 2 ^ k * 2 ^ up = 16)
    (hlow : low * 2 ^ up ≤ digitValue c + 4) (hlvalue : lvalue = (r.lvalue <<< k) ||| low) :
    Represents (r.overflow lvalue 0 up) (m.push c) := by
  have hshift : (r.lvalue <<< k) * 2 ^ up = r.lvalue * 16 := by
    rw [Nat.shiftLeft_eq, mul_assoc, hk]
  have hleast : r.lvalue * 16 ≤ lvalue * 2 ^ up := by
    rw [← hshift, hlvalue]
    exact Nat.mul_le_mul_right _ Nat.left_le_or
  have hmost : lvalue * 2 ^ up ≤ r.lvalue * 16 + low * 2 ^ up := by
    rw [← hshift, ← add_mul, hlvalue]
    exact Nat.mul_le_mul_right _ (or_le_add _ _)
  have hroom : (15 + 1) * 2 ^ 28 ≤ r.lvalue * r.base + digitValue c := by
    rw [uint32Max] at hlarge
    omega
  refine h.overflow hr hover hlarge (v := lvalue * 2 ^ up) (e := 15) ?_ ?_ hroom ?_ ?_
  · rw [hbase]
    omega
  · rw [hbase]
    omega
  · rw [hpoint]
    push_cast
    simp
  · intro _
    omega

lemma addHexDigit_represents (h : Represents r m) (hr : Reads letter r m) (hbase : r.base = 16)
    (hc : digitValue c < 16) : Represents (addHexDigit r (digitValue c)) (m.push c) := by
  have hpoint : r.hadDecimalPoint = false := by
    by_contra hpoint
    have hten := h.decimal (Bool.of_not_eq_false hpoint)
    omega
  rw [addHexDigit]
  split
  · next hover =>
    refine h.scale hr hover (hbase.symm ▸ hc) le_rfl (by decide) ?_
    rw [hpoint, hbase]
    norm_num
  · next hover =>
    have hover := Bool.eq_false_iff.mpr hover
    split
    · next hle =>
      refine h.next hr hover ?_ (by rw [hbase]) (by rw [hpoint]; rfl) (by rw [hpoint]; rfl)
      rw [uint32Max] at hle ⊢
      rw [hbase]
      omega
    · next hgt =>
      have hlarge : uint32Max < r.lvalue * r.base + digitValue c := by
        rw [uint32Max] at hgt ⊢
        rw [hbase]
        omega
      have hlow (a up : ℕ) (ha : a ≤ 4) : (digitValue c + a) >>> up * 2 ^ up ≤ digitValue c + 4 := by
        rw [Nat.shiftRight_eq_div_pow]
        exact (Nat.div_mul_le_self _ _).trans (Nat.add_le_add_left ha _)
      have hbits {k up low : ℕ} (hup : 0 < up) (hk : 2 ^ k * 2 ^ up = 16)
          (hlow : low * 2 ^ up ≤ digitValue c + 4) {lvalue : ℕ}
          (hlvalue : lvalue = (r.lvalue <<< k) ||| low) :=
        addLeadingBits_represents h hr hbase hover hpoint hlarge hc hup hk hlow hlvalue
      split
      · exact hbits one_pos (k := 3) (by decide) (hlow 1 1 (by decide)) rfl
      · split
        · exact hbits two_pos (k := 2) (by decide) (hlow 2 2 (by decide)) rfl
        · split
          · exact hbits three_pos (k := 1) (by decide) (hlow 4 3 (by decide)) rfl
          · refine hbits four_pos (k := 0) (by decide) (Nat.zero_mul _ ▸ Nat.zero_le _) ?_
            rw [Nat.shiftLeft_zero, Nat.or_zero]

/-! ### The digits of a text -/

lemma addDigit_frame (r : Reading) (d : ℕ) : (addDigit r d).base = r.base ∧
    (addDigit r d).hadDecimalPoint = r.hadDecimalPoint ∧
    (addDigit r d).acceptFloat = r.acceptFloat ∧ (addDigit r d).isNegative = r.isNegative ∧
    (addDigit r d).hadExponent = r.hadExponent := by
  rw [addDigit]
  dsimp only
  split_ifs
  · rw [addBinaryDigit]
    split_ifs <;> exact ⟨rfl, rfl, rfl, rfl, rfl⟩
  · rw [addDecimalDigit]
    dsimp only
    split_ifs <;> exact ⟨rfl, rfl, rfl, rfl, rfl⟩
  · rw [addHexDigit]
    split_ifs <;> exact ⟨rfl, rfl, rfl, rfl, rfl⟩

lemma addDigit_represents (h : Represents r m) (hr : Reads letter r m)
    (hc : digitValue c < r.base) : Represents (addDigit r (digitValue c)) (m.push c) := by
  have hnext : Represents { r with hadDigit := true } m :=
    ⟨h.decimal, h.fits, h.exact, h.large, h.cut, h.scaled⟩
  have hreads : Reads (some c) { r with hadDigit := true } m :=
    ⟨hr.base, hr.point, hr.digits, fun _ => Or.inr rfl, hr.float⟩
  rw [addDigit]
  obtain hbase | hbase | hbase := hr.base
  · rw [if_pos hbase]
    exact addBinaryDigit_represents hnext hreads hbase (hbase ▸ hc)
  · rw [if_neg (show r.base ≠ 2 by omega), if_pos hbase]
    exact addDecimalDigit_represents hnext hreads hbase (hbase ▸ hc)
  · rw [if_neg (show r.base ≠ 2 by omega), if_neg (show r.base ≠ 10 by omega)]
    exact addHexDigit_represents hnext hreads hbase (hbase ▸ hc)

lemma Reads.push (h : Reads letter r m) (hc : isxdigit c ∧ digitValue c < r.base)
    (hbase : r'.base = r.base) (hpoint : r'.hadDecimalPoint = r.hadDecimalPoint)
    (hfloat : r'.acceptFloat = r.acceptFloat) : Reads letter r' (m.push c) := by
  refine ⟨hbase ▸ h.base, ?_, ?_, ?_, ?_⟩
  · rw [hpoint, Mantissa.push_fraction, h.point]
  · rw [hbase, Mantissa.push_digits]
    intro c' hc'
    obtain hold | hnew := List.mem_append.mp hc'
    · exact h.digits c' hold
    · exact List.mem_singleton.mp hnew ▸ hc
  · intro _
    rw [Mantissa.push_digits]
    exact Or.inl (List.append_ne_nil_of_right_ne_nil _ (List.cons_ne_nil _ _))
  · rw [Mantissa.push_fraction, hfloat]
    exact h.float

lemma takesPoint_iff : takesPoint r c = true ↔
    c = '.' ∧ r.hadDecimalPoint = false ∧ r.acceptFloat = true := by
  simp [takesPoint]

lemma Reads.takePoint (h : Reads letter r m) (hc : takesPoint r c) :
    Reads letter { r with hadDecimalPoint := true } m.point := by
  obtain ⟨-, hpoint, hfloat⟩ := takesPoint_iff.mp hc
  have hnone := h.point.symm.trans hpoint
  refine ⟨h.base, rfl, ?_, ?_, fun _ => hfloat⟩
  · rw [m.point_digits hnone]
    exact h.digits
  · rw [m.point_digits hnone]
    exact h.found

lemma Represents.takePoint (h : Represents r m) (hr : Reads letter r m) (hc : takesPoint r c)
    (hbase : r.base = 10) : Represents { r with hadDecimalPoint := true } m.point := by
  have hnone := hr.point.symm.trans (takesPoint_iff.mp hc).2.1
  have hplaces : m.point.places = m.places := (m.places_eq_zero hnone).symm
  refine ⟨fun _ => hbase, ?_, ?_, ?_, ?_, ?_⟩
  · rw [m.point_digits hnone]
    exact h.fits
  · rw [m.point_digits hnone, hplaces]
    exact h.exact
  · rw [m.point_digits hnone]
    exact h.large
  · rw [m.point_digits hnone, hplaces]
    exact h.cut
  · exact fun _ hnot => absurd hnot.symm Bool.false_ne_true

/-- The state behind some characters of `m`, with `s` still to come. -/
structure At (letter : Option Char) (text : List Char) (r : Reading) (s : List Char)
    (m : Mantissa) : Prop where
  reads : Reads letter r m
  represents : (r.hadDecimalPoint → r.base = 10) → Represents r m
  text : m.text ++ s = text

variable {text : List Char}

lemma At.digit (h : At letter text r (c :: s) m) (hc : isxdigit c) (hd : digitValue c < r.base) :
    At letter text (addDigit r (digitValue c)) s (m.push c) := by
  obtain ⟨hbase, hpoint, hfloat, -⟩ := addDigit_frame r (digitValue c)
  refine ⟨h.reads.push ⟨hc, hd⟩ hbase hpoint hfloat, ?_, ?_⟩
  · rw [hbase, hpoint]
    exact fun hdecimal => addDigit_represents (h.represents hdecimal) h.reads hd
  · rw [Mantissa.push_text, List.append_assoc]
    exact h.text

lemma At.takePoint (h : At letter text r (c :: s) m) (hc : takesPoint r c) :
    At letter text { r with hadDecimalPoint := true } s m.point := by
  obtain ⟨rfl, hpoint, -⟩ := takesPoint_iff.mp hc
  refine ⟨h.reads.takePoint hc, ?_, ?_⟩
  · intro hdecimal
    exact (h.represents fun _ => hdecimal rfl).takePoint h.reads hc (hdecimal rfl)
  · rw [Mantissa.point_text (h.reads.point.symm.trans hpoint), List.append_assoc]
    exact h.text

/-- A zero in front of every other digit. -/
lemma At.zero (h : At letter text r ('0' :: s) m) (hover : r.overflowed = false)
    (hlvalue : r.lvalue = 0) :
    At letter text
      (if r.hadDecimalPoint then { r with hadDigit := true }.scale (-1) (-1)
        else { r with hadDigit := true }) s (m.push '0') := by
  have hr : Reads letter { r with hadDigit := true } (m.push '0') :=
    h.reads.push ⟨rfl, h.reads.base_pos⟩ rfl rfl rfl
  have hreads : Reads (some '0') { r with hadDigit := true } m :=
    ⟨h.reads.base, h.reads.point, h.reads.digits, fun _ => Or.inr rfl, h.reads.float⟩
  have htext : (m.push '0').text ++ s = text := by
    rw [Mantissa.push_text, List.append_assoc]
    exact h.text
  have hfits : r.lvalue * r.base + digitValue '0' ≤ uint32Max := by
    rw [hlvalue, zero_mul]
    decide
  have hsame : r.lvalue = r.lvalue * r.base + digitValue '0' := by
    rw [hlvalue, zero_mul]
    rfl
  have hnext (hdecimal : r.hadDecimalPoint → r.base = 10) :
      Represents { r with hadDigit := true } m :=
    have hold := h.represents hdecimal
    ⟨hold.decimal, hold.fits, hold.exact, hold.large, hold.cut, hold.scaled⟩
  split
  · next hpoint =>
    refine ⟨h.reads.push ⟨rfl, h.reads.base_pos⟩ rfl rfl rfl, fun hdecimal => ?_, htext⟩
    exact (hnext hdecimal).next hreads hover hfits hsame (if_pos hpoint).symm (if_pos hpoint).symm
  · next hpoint =>
    refine ⟨hr, fun hdecimal => ?_, htext⟩
    exact (hnext hdecimal).next hreads hover hfits hsame (if_neg hpoint).symm (if_neg hpoint).symm

lemma skipZeros_at (h : At letter text r s m) (hover : r.overflowed = false)
    (hlvalue : r.lvalue = 0) :
    ∃ m, At letter text (skipZeros r s).1 (skipZeros r s).2 m := by
  induction s generalizing r m with
  | nil => exact ⟨m, h⟩
  | cons c s ih =>
    rw [skipZeros]
    split
    · next hzero =>
      subst hzero
      apply ih (h.zero hover hlvalue)
      · split <;> exact hover
      · split <;> exact hlvalue
    · split
      · next hpoint => exact ih (h.takePoint hpoint) hover hlvalue
      · exact ⟨m, h⟩

lemma readDigits_at (h : At letter text r s m) :
    ∃ m, At letter text (readDigits r s).1 (readDigits r s).2 m := by
  induction s generalizing r m with
  | nil => exact ⟨m, h⟩
  | cons c s ih =>
    rw [readDigits]
    split
    · next hc =>
      split
      · exact ⟨m, h⟩
      · next hd => exact ih (h.digit hc (not_le.mp hd))
    · split
      · next hpoint => exact ih (h.takePoint hpoint)
      · exact ⟨m, h⟩

/-- What reading digits leaves alone. -/
structure SameKind (r r' : Reading) : Prop where
  base : r'.base = r.base
  acceptFloat : r'.acceptFloat = r.acceptFloat
  isNegative : r'.isNegative = r.isNegative
  hadExponent : r'.hadExponent = r.hadExponent

lemma SameKind.trans {r'' : Reading} (h : SameKind r r') (h' : SameKind r' r'') :
    SameKind r r'' :=
  ⟨h'.base.trans h.base, h'.acceptFloat.trans h.acceptFloat, h'.isNegative.trans h.isNegative,
    h'.hadExponent.trans h.hadExponent⟩

lemma skipZeros_kind (r : Reading) (s : List Char) : SameKind r (skipZeros r s).1 := by
  induction s generalizing r with
  | nil => exact ⟨rfl, rfl, rfl, rfl⟩
  | cons c s ih =>
    rw [skipZeros]
    split
    · refine SameKind.trans ?_ (ih _)
      split <;> exact ⟨rfl, rfl, rfl, rfl⟩
    · split
      · have hpoint : SameKind r { r with hadDecimalPoint := true } := ⟨rfl, rfl, rfl, rfl⟩
        exact hpoint.trans (ih _)
      · exact ⟨rfl, rfl, rfl, rfl⟩

lemma readDigits_kind (r : Reading) (s : List Char) : SameKind r (readDigits r s).1 := by
  induction s generalizing r with
  | nil => exact ⟨rfl, rfl, rfl, rfl⟩
  | cons c s ih =>
    rw [readDigits]
    split
    · split
      · exact ⟨rfl, rfl, rfl, rfl⟩
      · obtain ⟨hbase, -, hfloat, hnegative, hexponent⟩ := addDigit_frame r (digitValue c)
        exact SameKind.trans ⟨hbase, hfloat, hnegative, hexponent⟩ (ih _)
    · split
      · have hpoint : SameKind r { r with hadDecimalPoint := true } := ⟨rfl, rfl, rfl, rfl⟩
        exact hpoint.trans (ih _)
      · exact ⟨rfl, rfl, rfl, rfl⟩

/-! ### What stands around the digits -/

lemma readSign_text {isNegative : Bool} (h : readSign options s = some (isNegative, s')) :
    ∃ sign : Option Char, (∀ c ∈ sign, c = '+' ∨ c = '-' ∧ options.acceptNegative) ∧
      sign.toList ++ s' = s ∧ (isNegative = true ↔ sign = some '-') := by
  rw [readSign.eq_def] at h
  split at h
  · obtain ⟨rfl, rfl⟩ := Prod.mk.inj (Option.some.inj h)
    exact ⟨some '+', fun c hc => Or.inl (Option.some.inj hc).symm, rfl, by decide⟩
  · split at h
    · next hnegative =>
      obtain ⟨rfl, rfl⟩ := Prod.mk.inj (Option.some.inj h)
      exact ⟨some '-', fun c hc => Or.inr ⟨(Option.some.inj hc).symm, hnegative⟩, rfl, by decide⟩
    · exact absurd h.symm (Option.some_ne_none _)
  · obtain ⟨rfl, rfl⟩ := Prod.mk.inj (Option.some.inj h)
    exact ⟨none, fun c hc => absurd hc (Option.not_mem_none c), rfl, by decide⟩

/-- A converter that has read no digit. -/
structure Fresh (r : Reading) : Prop where
  lvalue : r.lvalue = 0
  fives : r.fives = 0
  twos : r.twos = 0
  point : r.hadDecimalPoint = false
  overflowed : r.overflowed = false

lemma Fresh.at (h : Fresh r) (hbase : r.base = 2 ∨ r.base = 10 ∨ r.base = 16)
    (hfound : r.hadDigit → letter.isSome) (s : List Char) : At letter s r s ⟨[], none⟩ := by
  have hnot {p : Prop} (hyes : r.overflowed = true) : p :=
    absurd (h.overflowed.symm.trans hyes) Bool.false_ne_true
  refine ⟨⟨hbase, h.point, List.forall_mem_nil _, fun hdigit => Or.inr (hfound hdigit),
    fun hnone => absurd hnone Bool.false_ne_true⟩, fun hdecimal => ?_, rfl⟩
  refine ⟨hdecimal, fun _ => Nat.zero_le _, fun _ => ⟨h.lvalue, h.twos, h.fives⟩,
    fun hyes => hnot hyes, fun hyes => hnot hyes, fun hyes => hnot hyes⟩

/-- What the text in front of the digits sets. -/
structure Opened (options : Options) (isNegative : Bool) (letter : Option Char) (r : Reading) :
    Prop where
  known : ∀ c ∈ letter, options.acceptHex ∧ (c = 'x' ∨ c = 'X' ∨ c = 'b' ∨ c = 'B')
  base : r.base = letterBase options letter
  float : r.acceptFloat → options.acceptFloat ∧ letter = none
  isNegative : r.isNegative = isNegative
  hadExponent : r.hadExponent = false
  overflowed : r.overflowed = false
  lvalue : r.lvalue = 0

lemma letterBase_known (options : Options) (letter : Option Char) :
    letterBase options letter = 2 ∨ letterBase options letter = 10 ∨
      letterBase options letter = 16 := by
  rw [letterBase.eq_def]
  split
  · split
    · exact Or.inr (Or.inr rfl)
    · exact Or.inr (Or.inl rfl)
  · split
    · exact Or.inr (Or.inr rfl)
    · exact Or.inl rfl

lemma readBase_at (options : Options) (isNegative : Bool) (s : List Char) :
    ∃ (letter : Option Char) (text : List Char) (m : Mantissa),
      letter.elim [] (['0', ·]) ++ text = s ∧
      Opened options isNegative letter (readBase options isNegative s).1 ∧
      At letter text (readBase options isNegative s).1 (readBase options isNegative s).2 m := by
  have hopened {c : Char} {base : ℕ} (hhex : options.acceptHex)
      (hc : c = 'x' ∨ c = 'X' ∨ c = 'b' ∨ c = 'B')
      (hbase : base = letterBase options (some c)) :
      Opened options isNegative (some c) ⟨⟨0, 0, 0, false, false, isNegative⟩, base, false, true,
        false⟩ :=
    ⟨fun c' hc' => ⟨hhex, Option.some.inj hc' ▸ hc⟩, hbase,
      fun hfloat => absurd hfloat Bool.false_ne_true, rfl, rfl, rfl, rfl⟩
  have hat {c : Char} {base : ℕ} (hbase : base = letterBase options (some c)) (t : List Char) :
      At (some c) t ⟨⟨0, 0, 0, false, false, isNegative⟩, base, false, true, false⟩ t ⟨[], none⟩ :=
    Fresh.at ⟨rfl, rfl, rfl, rfl, rfl⟩ (hbase ▸ letterBase_known options (some c)) (fun _ => rfl) t
  have hplain (hadDigit : Bool) : Opened options isNegative none
      ⟨⟨0, 0, 0, false, false, isNegative⟩, if options.defaultHex then 16 else 10,
        options.acceptFloat, hadDigit, false⟩ :=
    ⟨fun c hc => absurd hc (Option.not_mem_none c), rfl, fun hfloat => ⟨hfloat, rfl⟩, rfl, rfl,
      rfl, rfl⟩
  have hstart (t : List Char) : At none t
      ⟨⟨0, 0, 0, false, false, isNegative⟩, if options.defaultHex then 16 else 10,
        options.acceptFloat, false, false⟩ t ⟨[], none⟩ :=
    Fresh.at ⟨rfl, rfl, rfl, rfl, rfl⟩ (letterBase_known options none)
      (fun hdigit => absurd hdigit Bool.false_ne_true) t
  rw [readBase]
  split
  · next hzero =>
    obtain ⟨hhex, hhead⟩ := hzero
    obtain ⟨t, rfl⟩ := List.head?_eq_some_iff.mp hhead
    rw [List.tail_cons]
    dsimp only
    split
    · exact ⟨some 'x', _, _, rfl, hopened hhex (by decide) rfl, hat rfl _⟩
    · exact ⟨some 'X', _, _, rfl, hopened hhex (by decide) rfl, hat rfl _⟩
    · exact ⟨some 'b', _, _, rfl, hopened hhex (by decide) rfl, hat rfl _⟩
    · exact ⟨some 'B', _, _, rfl, hopened hhex (by decide) rfl, hat rfl _⟩
    · exact ⟨none, _, _, rfl, hplain true, (hstart _).zero rfl rfl⟩
  · exact ⟨none, _, _, rfl, hplain false, hstart s⟩

lemma digitValue_of_isDigit (h : c.isDigit) : digitValue c = c.toNat - '0'.toNat := by
  rw [digitValue, if_pos]
  exact (of_decide_eq_true (Bool.and_eq_true_iff.mp h).2)

lemma exponentDigits_text (p : ℕ) (s : List Char) :
    ∃ ds : List Char, (∀ c ∈ ds, c.isDigit) ∧ ds ++ (exponentDigits p s).2 = s ∧
      (p * 10 ^ ds.length + number 10 ds < 1600 →
        (exponentDigits p s).1 = p * 10 ^ ds.length + number 10 ds) ∧
      ((s.head?.map Char.isDigit) = some true → ds ≠ []) := by
  induction s generalizing p with
  | nil => exact ⟨[], List.forall_mem_nil _, rfl, fun _ => by simp [exponentDigits, number_nil],
      fun h => absurd h.symm (Option.some_ne_none _)⟩
  | cons c s ih =>
    rw [exponentDigits]
    split
    · next hc =>
      obtain ⟨ds, hdigits, htext, hvalue, -⟩ := ih
        (if p < 160 then 10 * p + (c.toNat - '0'.toNat) else p)
      refine ⟨c :: ds, List.forall_mem_cons.mpr ⟨hc, hdigits⟩, by rw [List.cons_append, htext], ?_,
        fun _ => List.cons_ne_nil _ _⟩
      rw [number_cons, digitValue_of_isDigit hc, List.length_cons, pow_succ']
      intro hlt
      have hpow : 0 < 10 ^ ds.length := by positivity
      -- A number that stopped growing is too large already.
      have hp : p < 160 := by
        by_contra hp
        have hle : 160 * 10 * 1 ≤ p * 10 * 10 ^ ds.length :=
          Nat.mul_le_mul (Nat.mul_le_mul_right _ (not_lt.mp hp)) hpow
        rw [← mul_assoc] at hlt
        omega
      rw [if_pos hp] at hvalue ⊢
      have hsame : (10 * p + (c.toNat - '0'.toNat)) * 10 ^ ds.length + number 10 ds =
          p * (10 * 10 ^ ds.length) + ((c.toNat - '0'.toNat) * 10 ^ ds.length + number 10 ds) := by
        ring
      rw [← hsame]
      exact hvalue (hsame ▸ hlt)
    · next hc =>
      refine ⟨[], List.forall_mem_nil _, rfl, fun _ => by simp [number_nil], fun h => ?_⟩
      exact absurd (Option.some.inj h) hc

lemma exponentSign_text (s : List Char) :
    ∃ sign : Option Char, (∀ c ∈ sign, c = '+' ∨ c = '-') ∧ sign.toList ++ (exponentSign s).2 = s ∧
      ((exponentSign s).1 = true ↔ sign = some '-') := by
  rw [exponentSign.eq_def]
  split
  · exact ⟨some '-', fun c hc => Or.inr (Option.some.inj hc).symm, rfl, by simp⟩
  · exact ⟨some '+', fun c hc => Or.inl (Option.some.inj hc).symm, rfl, by simp⟩
  · exact ⟨none, fun c hc => absurd hc (Option.not_mem_none c), rfl, by simp⟩

lemma readExponent_text (h : readExponent r s = some (n, s')) (hexponent : r.hadExponent = false) :
    ∃ e : Option Exponent, (∀ x ∈ e, x.WellFormed ∧ r.acceptFloat) ∧
      e.elim [] Exponent.text ++ s' = s ∧ n.lvalue = r.lvalue ∧ n.isNegative = r.isNegative ∧
      n.hadDecimalPoint = r.hadDecimalPoint ∧ n.hadExponent = e.isSome ∧
      (e.elim 0 Exponent.magnitude < 1600 → n.twos = r.twos + e.elim 0 Exponent.value ∧
        n.fives = r.fives + e.elim 0 Exponent.value) := by
  rw [readExponent] at h
  split at h
  · next hfloat =>
    obtain ⟨letter, hletter, hhead⟩ : ∃ x, (x = 'E' ∨ x = 'e') ∧ s.head? = some x := by
      obtain hupper | hlower := hfloat.2
      · exact ⟨_, Or.inl rfl, hupper⟩
      · exact ⟨_, Or.inr rfl, hlower⟩
    obtain ⟨t, rfl⟩ := List.head?_eq_some_iff.mp hhead
    rw [List.tail_cons] at h
    obtain ⟨sign, hsign, hsignText, hminus⟩ := exponentSign_text t
    obtain ⟨ds, hdigits, htext, hvalue, hnonempty⟩ := exponentDigits_text 0 (exponentSign t).2
    dsimp only at h
    split at h
    · next hdigit =>
      obtain ⟨rfl, rfl⟩ := Prod.mk.inj (Option.some.inj h)
      refine ⟨some ⟨letter, sign, ds⟩, ?_, ?_, rfl, rfl, rfl, rfl, ?_⟩
      · intro x hx
        exact Option.some.inj hx ▸ ⟨⟨hletter, hsign, hnonempty hdigit, hdigits⟩, hfloat.1⟩
      · change letter :: (sign.toList ++ ds) ++ _ = letter :: t
        rw [List.cons_append, List.append_assoc, htext, hsignText]
      · intro hsmall
        change number 10 ds < 1600 at hsmall
        rw [zero_mul, zero_add] at hvalue
        have he : Exponent.value ⟨letter, sign, ds⟩ =
            if (exponentSign t).1 then -((exponentDigits 0 (exponentSign t).2).1 : ℤ)
              else (exponentDigits 0 (exponentSign t).2).1 := by
          rw [Exponent.value, hvalue hsmall]
          exact if_congr hminus.symm rfl rfl
        rw [Option.elim_some, he]
        exact ⟨rfl, rfl⟩
    · exact absurd h.symm (Option.some_ne_none _)
  · obtain ⟨rfl, rfl⟩ := Prod.mk.inj (Option.some.inj h)
    exact ⟨none, fun x hx => absurd hx (Option.not_mem_none x), rfl, rfl, rfl, rfl, hexponent,
      fun _ => ⟨(add_zero _).symm, (add_zero _).symm⟩⟩

/-! ### The powers stay small

Each character changes the powers by at most 4, and the exponent by less than 1600, so that a text of
less than 2²⁸ characters does not overflow an `int`. -/

/-- The powers are small enough for `bound` when the characters still to come are counted. -/
def Small (bound : ℤ) (r : Reading) (s : List Char) : Prop :=
  |r.twos| + 4 * s.length ≤ bound ∧ |r.fives| + 4 * s.length ≤ bound

variable {bound : ℤ}

lemma Small.next (h : Small bound r (c :: s)) (htwos : |r'.twos - r.twos| ≤ 4)
    (hfives : |r'.fives - r.fives| ≤ 4) : Small bound r' s := by
  obtain ⟨htwos', hfives'⟩ := h
  rw [List.length_cons] at htwos' hfives'
  constructor
  · have hle := abs_sub_abs_le_abs_sub r'.twos r.twos
    omega
  · have hle := abs_sub_abs_le_abs_sub r'.fives r.fives
    omega

lemma addDigit_powers (r : Reading) (d : ℕ) :
    |(addDigit r d).twos - r.twos| ≤ 4 ∧ |(addDigit r d).fives - r.fives| ≤ 4 := by
  rw [addDigit, addBinaryDigit, addDecimalDigit, addHexDigit]
  dsimp only [Reading.scale, Reading.overflow]
  split_ifs <;> dsimp only <;> norm_num

lemma skipZeros_small (h : Small bound r s) : Small bound (skipZeros r s).1 (skipZeros r s).2 := by
  induction s generalizing r with
  | nil => exact h
  | cons c s ih =>
    rw [skipZeros]
    split
    · apply ih
      apply h.next
      · dsimp only [Reading.scale]
        split_ifs <;> dsimp only <;> norm_num
      · dsimp only [Reading.scale]
        split_ifs <;> dsimp only <;> norm_num
    · split
      · exact ih (h.next (by norm_num) (by norm_num))
      · exact h

lemma readDigits_small (h : Small bound r s) : Small bound (readDigits r s).1 (readDigits r s).2 := by
  induction s generalizing r with
  | nil => exact h
  | cons c s ih =>
    rw [readDigits]
    split
    · split
      · exact h
      · obtain ⟨htwos, hfives⟩ := addDigit_powers r (digitValue c)
        exact ih (h.next htwos hfives)
    · split
      · exact ih (h.next (by norm_num) (by norm_num))
      · exact h

lemma exponentDigits_lt {p : ℕ} (h : p < 1600) (s : List Char) : (exponentDigits p s).1 < 1600 := by
  induction s generalizing p with
  | nil => exact h
  | cons c s ih =>
    rw [exponentDigits]
    split
    · next hc =>
      apply ih
      have hnine : c.toNat - '0'.toNat ≤ 9 := by
        have hle := of_decide_eq_true (Bool.and_eq_true_iff.mp hc).2
        have hnat : c.toNat ≤ '9'.toNat := hle
        exact Nat.sub_le_of_le_add hnat
      split <;> omega
    · exact h

lemma readExponent_powers (h : readExponent r s = some (n, s')) :
    |n.twos - r.twos| < 1600 ∧ |n.fives - r.fives| < 1600 := by
  rw [readExponent] at h
  split at h
  · have hlt := exponentDigits_lt (by decide : 0 < 1600) (exponentSign s.tail).2
    dsimp only at h
    split at h
    · obtain ⟨rfl, -⟩ := Prod.mk.inj (Option.some.inj h)
      dsimp only
      rw [add_sub_cancel_left, add_sub_cancel_left]
      split
      · rw [abs_neg, Nat.abs_cast]
        omega
      · rw [Nat.abs_cast]
        omega
    · exact absurd h.symm (Option.some_ne_none _)
  · obtain ⟨rfl, -⟩ := Prod.mk.inj (Option.some.inj h)
    rw [sub_self, sub_self]
    norm_num

lemma accumulate_powers (h : accumulate options s = some (n, s')) :
    |n.twos| < 4 * s.length + 1600 ∧ |n.fives| < 4 * s.length + 1600 := by
  simp only [accumulate, Option.bind_eq_bind, Option.bind_eq_some_iff] at h
  obtain ⟨⟨isNegative, t⟩, hsign, h⟩ := h
  dsimp only at h
  have hblank : (s.dropWhile isBlank).length ≤ s.length := (List.dropWhile_sublist _).length_le
  have hlength := (readBase_length options isNegative t).1.trans ((readSign_length hsign).trans hblank)
  obtain ⟨htwos, hfives⟩ : (readBase options isNegative t).1.twos = 0 ∧
      (readBase options isNegative t).1.fives = 0 := by
    rw [readBase]
    split
    · dsimp only
      split <;> exact ⟨rfl, rfl⟩
    · exact ⟨rfl, rfl⟩
  have hstart : Small (4 * s.length) (readBase options isNegative t).1
      (readBase options isNegative t).2 := by
    rw [Small, htwos, hfives, abs_zero]
    omega
  obtain ⟨htwos, hfives⟩ := readDigits_small (skipZeros_small hstart)
  split at h
  · obtain ⟨htwos', hfives'⟩ := readExponent_powers h
    constructor
    · have hle := abs_sub_abs_le_abs_sub n.twos (readDigits (skipZeros
        (readBase options isNegative t).1 (readBase options isNegative t).2).1 (skipZeros
        (readBase options isNegative t).1 (readBase options isNegative t).2).2).1.twos
      omega
    · have hle := abs_sub_abs_le_abs_sub n.fives (readDigits (skipZeros
        (readBase options isNegative t).1 (readBase options isNegative t).2).1 (skipZeros
        (readBase options isNegative t).1 (readBase options isNegative t).2).2).1.fives
      omega
  · exact absurd h.symm (Option.some_ne_none _)

theorem accumulate_powers_exponent : |(2 : ℤ)| < 4 * ['1', '.', '5', 'e', '3'].length + 1600 ∧
    |(2 : ℤ)| < 4 * ['1', '.', '5', 'e', '3'].length + 1600 :=
  accumulate_powers (show accumulate acceptSignedFloat ['1', '.', '5', 'e', '3'] =
    some (⟨15, 2, 2, true, true, false⟩, []) by decide +kernel)

/-! ### What the converter holds in the end -/

lemma At.near (h : At letter text r s m) (hdecimal : r.hadDecimalPoint → r.base = 10) :
    Near tolerance r.magnitude (m.value r.base) ∧
      (number r.base m.digits ≤ uint32Max → r.magnitude = m.value r.base) := by
  have hrepresents := h.represents hdecimal
  cases hover : r.overflowed with
  | false =>
    obtain ⟨hlvalue, htwos, hfives⟩ := hrepresents.exact hover
    have hexact : r.magnitude = m.value r.base := by
      rw [NumericConverter.magnitude, htwos, hfives, hlvalue, Mantissa.value, mul_assoc]
      have hpowers := powers_of_ten m.places 0 0
      rw [add_zero, zpow_zero, zpow_zero, mul_one] at hpowers
      rw [hpowers, mul_one_div]
      cases hpoint : r.hadDecimalPoint with
      | true => rw [hdecimal hpoint, Nat.cast_ofNat]
      | false => rw [m.places_eq_zero (h.reads.point.symm.trans hpoint), pow_zero, pow_zero]
    exact ⟨hexact ▸ near_refl tolerance_nonneg _, fun _ => hexact⟩
  | true =>
    obtain ⟨v, j, hcut, hmagnitude⟩ := hrepresents.cut hover
    refine ⟨?_, fun hfits => absurd (hrepresents.large hover) (not_lt.mpr hfits)⟩
    have hnear := (hcut.near h.reads.base_pos tolerance_nonneg).mul (1 / (r.base : ℚ) ^ m.places)
    rwa [one_div_mul_eq_div, one_div_mul_eq_div, ← hmagnitude] at hnear

lemma magnitude_exponent {e : ℤ} (hlvalue : n.lvalue = r.lvalue) (htwos : n.twos = r.twos + e)
    (hfives : n.fives = r.fives + e) : n.magnitude = 10 ^ e * r.magnitude := by
  have htens : (10 : ℚ) ^ e = 2 ^ e * 5 ^ e := by
    rw [← mul_zpow]
    norm_num
  rw [NumericConverter.magnitude, hlvalue, htwos, hfives, zpow_add₀ two_ne_zero,
    zpow_add₀ (by norm_num), htens, NumericConverter.magnitude]
  ring

/-- A number without a point or an exponent that was not scaled is all of its digits. -/
lemma At.integer (h : At letter text r s m) (hpoint : r.hadDecimalPoint = false)
    (htwos : r.twos = 0) (hfives : r.fives = 0) : m.value r.base = r.lvalue := by
  have hrepresents := h.represents fun hyes => absurd (hpoint.symm.trans hyes) Bool.false_ne_true
  have hover : r.overflowed = false := by
    by_contra hover
    obtain ⟨-, -, hscaled⟩ := hrepresents.scaled (Bool.of_not_eq_false hover) hpoint
    omega
  rw [Mantissa.value, (hrepresents.exact hover).1,
    m.places_eq_zero (h.reads.point.symm.trans hpoint), pow_zero, div_one]

lemma getInt32_toInt (h : n.lvalue ≤ int32Max) :
    n.getInt32.toInt = if n.isNegative then -(n.lvalue : ℤ) else n.lvalue := by
  rw [int32Max] at h
  have hpositive : (BitVec.ofNat 32 n.lvalue).toInt = n.lvalue := by
    rw [BitVec.toInt_eq_toNat_of_lt (by rw [BitVec.toNat_ofNat]; omega), BitVec.toNat_ofNat]
    omega
  rw [NumericConverter.getInt32]
  split
  · rw [BitVec.toInt_neg, hpositive, Int.bmod_eq_of_le (by omega) (by omega)]
  · exact hpositive

lemma Literal.value_near {l : Literal} (hat : At l.letter text r s l.mantissa)
    (hbase : r.base = l.base options) (hminus : n.isNegative = true ↔ l.sign = some '-')
    (hmagnitude : n.magnitude = 10 ^ l.exponent.elim 0 Exponent.value * r.magnitude)
    (hconventional : l.Conventional options) :
    |n.value - l.value options| ≤ |l.value options| * (1 / 2 ^ 28) ∧
      (number (l.base options) l.mantissa.digits ≤ uint32Max → n.value = l.value options) := by
  obtain ⟨hnear, hexact⟩ := hat.near fun hpoint =>
    hbase.trans (hconventional (hat.reads.point.symm.trans hpoint))
  have hnear := hnear.mul (10 ^ l.exponent.elim 0 Exponent.value)
  rw [← hmagnitude, mul_comm, hbase] at hnear
  change |n.magnitude - l.magnitude options| ≤ |l.magnitude options| * (1 / 2 ^ 28) at hnear
  rw [NumericConverter.value, Literal.value]
  constructor
  · by_cases hnegative : n.isNegative
    · rw [if_pos hnegative, if_pos (hminus.mp hnegative), neg_sub_neg, abs_sub_comm, abs_neg]
      exact hnear
    · rw [if_neg hnegative, if_neg (mt hminus.mpr hnegative)]
      exact hnear
  · intro hfits
    have hsame : n.magnitude = l.magnitude options := by
      rw [hmagnitude, hexact (hbase ▸ hfits), mul_comm, hbase]
      rfl
    rw [hsame]
    exact if_congr hminus rfl rfl

lemma Literal.value_integer {l : Literal} (hat : At l.letter text r s l.mantissa)
    (hbase : r.base = l.base options) (hminus : n.isNegative = true ↔ l.sign = some '-')
    (hpoint : r.hadDecimalPoint = false) (htwos : r.twos = 0) (hfives : r.fives = 0)
    (hexponent : l.exponent = none) :
    l.value options = ((if n.isNegative then -(r.lvalue : ℤ) else r.lvalue : ℤ) : ℚ) := by
  rw [Literal.value, Literal.magnitude, ← hbase, hat.integer hpoint htwos hfives, hexponent,
    Option.elim_none, zpow_zero, mul_one]
  by_cases hnegative : n.isNegative
  · rw [if_pos hnegative, if_pos (hminus.mp hnegative), Int.cast_neg, Int.cast_natCast]
  · rw [if_neg hnegative, if_neg (mt hminus.mpr hnegative), Int.cast_natCast]

/-- The literal in front of the rest of a text is converted with a relative error of 2⁻²⁸ at most,
and exactly where its digits fit. What is delivered as an integer is the literal's value. -/
theorem literal_converted {rest : List Char} (h : accumulate options s = some (n, rest)) :
    ∃ (blanks : List Char) (l : Literal), (∀ c ∈ blanks, isBlank c) ∧ l.WellFormed options ∧
      s = blanks ++ (l.text ++ rest) ∧
      (l.Conventional options → l.exponent.elim 0 Exponent.magnitude < 1600 →
        |n.value - l.value options| ≤ |l.value options| * (1 / 2 ^ 28) ∧
        (number (l.base options) l.mantissa.digits ≤ uint32Max → n.value = l.value options)) ∧
      (n.fitsInInt32 → (n.getInt32.toInt : ℚ) = l.value options) ∧
      (n.fitsInUint32 → (n.getUint32 : ℚ) = l.value options) := by
  simp only [accumulate, Option.bind_eq_bind, Option.bind_eq_some_iff] at h
  obtain ⟨⟨isNegative, t⟩, hsign, h⟩ := h
  obtain ⟨sign, hsignKnown, hsignText, hminus⟩ := readSign_text hsign
  obtain ⟨letter, text, m₀, hletterText, hopened, hat₀⟩ := readBase_at options isNegative t
  dsimp only at h
  obtain ⟨m₁, hat₁⟩ := skipZeros_at hat₀ hopened.overflowed hopened.lvalue
  obtain ⟨m, hat⟩ := readDigits_at hat₁
  have hkind := (skipZeros_kind (readBase options isNegative t).1
    (readBase options isNegative t).2).trans (readDigits_kind _
      (skipZeros (readBase options isNegative t).1 (readBase options isNegative t).2).2)
  split at h
  · next hdigit =>
    obtain ⟨e, heKnown, heText, hlvalue, hnegative, hpoint, hexponent, hscaled⟩ :=
      readExponent_text h (hkind.hadExponent.trans hopened.hadExponent)
    have hbase := hkind.base.trans hopened.base
    have hfloat := fun hyes => hopened.float (hkind.acceptFloat.symm.trans hyes)
    have hminus : n.isNegative = true ↔ sign = some '-' := by
      rw [hnegative, hkind.isNegative, hopened.isNegative]
      exact hminus
    have hinteger : n.hadDecimalPoint = false → n.hadExponent = false → n.twos = 0 → n.fives = 0 →
        Literal.value options ⟨sign, letter, m, e⟩ =
          ((if n.isNegative then -(n.lvalue : ℤ) else n.lvalue : ℤ) : ℚ) := by
      intro hnopoint hnoexponent htwos hfives
      have hnone : e = none := by
        rw [hexponent] at hnoexponent
        exact Option.isNone_iff_eq_none.mp (Option.isSome_eq_false_iff.mp hnoexponent)
      subst hnone
      obtain ⟨htwos', hfives'⟩ := hscaled (by decide)
      rw [Option.elim_none, add_zero] at htwos' hfives'
      rw [hlvalue]
      exact Literal.value_integer (l := ⟨sign, letter, m, none⟩) hat hbase hminus
        (hpoint.symm.trans hnopoint) (htwos'.symm.trans htwos) (hfives'.symm.trans hfives) rfl
    refine ⟨s.takeWhile isBlank, ⟨sign, letter, m, e⟩, ?_, ?_, ?_, ?_, ?_, ?_⟩
    · exact fun c hc => List.mem_takeWhile_imp hc
    · refine ⟨hsignKnown, hopened.known, ?_, hat.reads.found hdigit, ?_, ?_⟩
      · intro c hc
        have hknown := hat.reads.digits c hc
        rw [hbase] at hknown
        exact hknown
      · exact fun hfraction => hfloat (hat.reads.float hfraction)
      · exact fun x hx => ⟨(heKnown x hx).1, hfloat (heKnown x hx).2⟩
    · change s = s.takeWhile isBlank ++ (sign.toList ++ (letter.elim [] (['0', ·]) ++ (m.text ++
        e.elim [] Exponent.text)) ++ rest)
      rw [List.append_assoc, List.append_assoc, List.append_assoc, heText, hat.text, hletterText,
        hsignText, List.takeWhile_append_dropWhile]
    · intro hconventional hsmall
      obtain ⟨htwos, hfives⟩ := hscaled hsmall
      exact Literal.value_near (l := ⟨sign, letter, m, e⟩) hat hbase hminus
        (magnitude_exponent hlvalue htwos hfives) hconventional
    · intro hfits
      simp only [NumericConverter.fitsInInt32, Bool.decide_and, Bool.and_eq_true, Bool.not_eq_true', decide_eq_true_eq] at hfits
      obtain ⟨hnopoint, hnoexponent, htwos, hfives, hle⟩ := hfits
      rw [hinteger hnopoint hnoexponent htwos hfives, getInt32_toInt hle]
    · intro hfits
      simp only [NumericConverter.fitsInUint32, Bool.decide_and,
        Bool.decide_or, Bool.and_eq_true, Bool.or_eq_true, Bool.not_eq_true', decide_eq_true_eq]
        at hfits
      obtain ⟨hnopoint, hnoexponent, hsign, htwos, hfives⟩ := hfits
      rw [hinteger hnopoint hnoexponent htwos hfives, NumericConverter.getUint32]
      obtain hplus | hzero := hsign
      · rw [hplus]
        simp
      · rw [hzero]
        simp
  · exact absurd h.symm (Option.some_ne_none _)

/-- The number that eleven digits in front of a point leave, where ten of them fit. -/
def elevenDigits : NumericConverter := ⟨2469135781, -2, -3, true, true, true⟩

theorem literal_converted_eleven :
    ∃ (blanks : List Char) (l : Literal), (∀ c ∈ blanks, isBlank c) ∧
      l.WellFormed acceptSignedFloat ∧
      " -12345678901.5e-3,".toList = blanks ++ (l.text ++ ",".toList) ∧
      (l.Conventional acceptSignedFloat → l.exponent.elim 0 Exponent.magnitude < 1600 →
        |elevenDigits.value - l.value acceptSignedFloat| ≤
          |l.value acceptSignedFloat| * (1 / 2 ^ 28) ∧
        (number (l.base acceptSignedFloat) l.mantissa.digits ≤ uint32Max →
          elevenDigits.value = l.value acceptSignedFloat)) ∧
      (elevenDigits.fitsInInt32 →
        (elevenDigits.getInt32.toInt : ℚ) = l.value acceptSignedFloat) ∧
      (elevenDigits.fitsInUint32 → (elevenDigits.getUint32 : ℚ) = l.value acceptSignedFloat) :=
  literal_converted (by decide +kernel)

end RepRapFirmware.RRFLibraries.NumericConverters
