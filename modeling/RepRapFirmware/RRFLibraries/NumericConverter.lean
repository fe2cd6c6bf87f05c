import Mathlib.Data.List.Basic
import Mathlib.Tactic

/-! Numbers read from a text. A text is its characters before the terminator. -/

namespace RepRapFirmware.RRFLibraries.NumericConverters

def uint32Max : ℕ := 2 ^ 32 - 1

structure Options where
  acceptNegative : Bool
  acceptFloat : Bool
  acceptHex : Bool
  defaultHex : Bool

def acceptOnlyUnsignedDecimal : Options := ⟨false, false, false, false⟩

def acceptSignedFloat : Options := ⟨true, true, false, false⟩

structure NumericConverter where
  lvalue : ℕ
  fives : ℤ
  twos : ℤ
  hadDecimalPoint : Bool
  hadExponent : Bool
  isNegative : Bool
  deriving DecidableEq

/-- A converter with the local variables of `Accumulate`. -/
structure Reading extends NumericConverter where
  base : ℕ
  acceptFloat : Bool
  hadDigit : Bool
  overflowed : Bool
  deriving DecidableEq

def isBlank (c : Char) : Bool := c = ' ' ∨ c = '\t'

def isxdigit (c : Char) : Bool :=
  ('0' ≤ c ∧ c ≤ '9') ∨ ('A' ≤ c ∧ c ≤ 'F') ∨ ('a' ≤ c ∧ c ≤ 'f')

def digitValue (c : Char) : ℕ :=
  if c ≤ '9' then c.toNat - '0'.toNat else c.toUpper.toNat - 'A'.toNat + 10

def Reading.scale (r : Reading) (fives twos : ℤ) : Reading :=
  { r with fives := r.fives + fives, twos := r.twos + twos }

def Reading.overflow (r : Reading) (lvalue : ℕ) (fives twos : ℤ) : Reading :=
  { r with
    lvalue := lvalue, fives := r.fives + fives, twos := r.twos + twos, overflowed := true }

def addBinaryDigit (r : Reading) (digit : ℕ) : Reading :=
  if r.overflowed then r.scale 0 1
  else if r.lvalue ≤ uint32Max / 2 then { r with lvalue := r.lvalue * 2 + digit }
  else r.overflow r.lvalue 0 1

def addDecimalDigit (r : Reading) (digit : ℕ) : Reading :=
  if r.overflowed then if r.hadDecimalPoint then r else r.scale 1 1
  else if r.lvalue ≤ (uint32Max - 9) / 10 ∨ r.lvalue ≤ (uint32Max - digit) / 10 then
    let r := { r with lvalue := r.lvalue * 10 + digit }
    if r.hadDecimalPoint then r.scale (-1) (-1) else r
  else
    -- One more digit of base 5 or of base 2 may still fit.
    let fivesDigit := (digit + 1) / 2
    if r.lvalue ≤ (uint32Max - fivesDigit) / 5 then
      if r.hadDecimalPoint then r.overflow (r.lvalue * 5 + fivesDigit) (-1) 0
      else r.overflow (r.lvalue * 5 + fivesDigit) 0 1
    else
      let twosDigit := (digit + 4) / 5
      if r.lvalue ≤ (uint32Max - twosDigit) / 2 then
        if r.hadDecimalPoint then r.overflow (r.lvalue * 2 + twosDigit) 0 (-1)
        else r.overflow (r.lvalue * 2 + twosDigit) 1 0
      else if r.hadDecimalPoint then r.overflow r.lvalue 0 0
      else r.overflow r.lvalue 1 1

def addHexDigit (r : Reading) (digit : ℕ) : Reading :=
  if r.overflowed then r.scale 0 4
  else if r.lvalue ≤ uint32Max / 16 then { r with lvalue := r.lvalue * 16 + digit }
  else if r.lvalue ≤ uint32Max / 8 then r.overflow ((r.lvalue <<< 3) ||| ((digit + 1) >>> 1)) 0 1
  else if r.lvalue ≤ uint32Max / 4 then r.overflow ((r.lvalue <<< 2) ||| ((digit + 2) >>> 2)) 0 2
  else if r.lvalue ≤ uint32Max / 2 then r.overflow ((r.lvalue <<< 1) ||| ((digit + 4) >>> 3)) 0 3
  else r.overflow r.lvalue 0 4

def addDigit (r : Reading) (digit : ℕ) : Reading :=
  let r := { r with hadDigit := true }
  if r.base = 2 then addBinaryDigit r digit
  else if r.base = 10 then addDecimalDigit r digit
  else addHexDigit r digit

/-- A decimal point counts once, and only in a number that may have one. -/
def takesPoint (r : Reading) (c : Char) : Bool := c = '.' ∧ !r.hadDecimalPoint ∧ r.acceptFloat

def skipZeros (r : Reading) : List Char → Reading × List Char
  | [] => (r, [])
  | c :: s =>
    if c = '0' then
      let r := { r with hadDigit := true }
      skipZeros (if r.hadDecimalPoint then r.scale (-1) (-1) else r) s
    else if takesPoint r c then skipZeros { r with hadDecimalPoint := true } s
    else (r, c :: s)

def readDigits (r : Reading) : List Char → Reading × List Char
  | [] => (r, [])
  | c :: s =>
    if isxdigit c then
      if r.base ≤ digitValue c then (r, c :: s) else readDigits (addDigit r (digitValue c)) s
    else if takesPoint r c then readDigits { r with hadDecimalPoint := true } s
    else (r, c :: s)

/-- The exponent's digits; its value stops growing before it could overflow. -/
def exponentDigits (exponent : ℕ) : List Char → ℕ × List Char
  | [] => (exponent, [])
  | c :: s =>
    if c.isDigit then
      exponentDigits (if exponent < 160 then 10 * exponent + (c.toNat - '0'.toNat) else exponent) s
    else (exponent, c :: s)

def exponentSign : List Char → Bool × List Char
  | '-' :: s => (true, s)
  | '+' :: s => (false, s)
  | s => (false, s)

def readExponent (r : Reading) (s : List Char) : Option (NumericConverter × List Char) :=
  if r.acceptFloat ∧ (s.head? = some 'E' ∨ s.head? = some 'e') then
    let (expNegative, s) := exponentSign s.tail
    if (s.head?.map Char.isDigit) = some true then
      let (exponent, s) := exponentDigits 0 s
      let e : ℤ := if expNegative then -exponent else exponent
      some ({ r.toNumericConverter with
        hadExponent := true, twos := r.twos + e, fives := r.fives + e }, s)
    else none
  else some (r.toNumericConverter, s)

def readSign (options : Options) : List Char → Option (Bool × List Char)
  | '+' :: s => some (false, s)
  | '-' :: s => if options.acceptNegative then some (true, s) else none
  | s => some (false, s)

/-- `0x` or `0b` in front of a number, where that is allowed. -/
def readBase (options : Options) (isNegative : Bool) (s : List Char) : Reading × List Char :=
  let r : Reading :=
    { lvalue := 0, fives := 0, twos := 0, hadDecimalPoint := false, hadExponent := false,
      isNegative := isNegative, base := if options.defaultHex then 16 else 10,
      acceptFloat := options.acceptFloat, hadDigit := false, overflowed := false }
  if options.acceptHex ∧ s.head? = some '0' then
    let r := { r with hadDigit := true }
    match s.tail with
    | 'x' :: s => ({ r with base := 16, acceptFloat := false }, s)
    | 'X' :: s => ({ r with base := 16, acceptFloat := false }, s)
    | 'b' :: s => ({ r with base := 2, acceptFloat := false }, s)
    | 'B' :: s => ({ r with base := 2, acceptFloat := false }, s)
    | s => (r, s)
  else (r, s)

/-- The number at the start of a text, and what follows it. -/
def accumulate (options : Options) (s : List Char) : Option (NumericConverter × List Char) := do
  let (isNegative, s) ← readSign options (s.dropWhile isBlank)
  let (r, s) := readBase options isNegative s
  let (r, s) := skipZeros r s
  let (r, s) := readDigits r s
  if r.hadDigit then readExponent r s else none

def NumericConverter.fitsInUint32 (n : NumericConverter) : Bool :=
  !n.hadDecimalPoint ∧ !n.hadExponent ∧ (!n.isNegative ∨ n.lvalue = 0) ∧ n.twos = 0 ∧ n.fives = 0

/-- `GetFloat`, without its rounding. -/
def NumericConverter.getFloat (n : NumericConverter) : ℚ :=
  let tens := min n.twos n.fives
  let dvalue := n.lvalue * (10 : ℚ) ^ tens
  let dvalue := if n.twos < n.fives then dvalue * 5 else dvalue * 2 ^ (n.twos - n.fives)
  if n.isNegative then -dvalue else dvalue

/-- The number and what follows it, or `none` where the end pointer stays at the start. -/
def safeStrtof (s : List Char) : Option (ℚ × List Char) :=
  (accumulate acceptSignedFloat s).map fun (n, s) => (n.getFloat, s)

def strToU32 (s : List Char) : Option (ℕ × List Char) :=
  (accumulate acceptOnlyUnsignedDecimal s).map fun (n, s) =>
    (if n.fitsInUint32 then n.lvalue else uint32Max, s)

example : safeStrtof " -12.50,7".toList = some (-25 / 2, ",7".toList) := by decide +kernel

/-! ### The value stays within its 32 bits -/

variable {options : Options} {r r' : Reading} {n : NumericConverter} {s s' : List Char} {digit : ℕ}

/-- The number so far fits, and the base is one that the code knows. -/
structure Fits (r : Reading) : Prop where
  lvalue : r.lvalue ≤ uint32Max
  base : r.base = 2 ∨ r.base = 10 ∨ r.base = 16

lemma Fits.scale (h : Fits r) (fives twos : ℤ) : Fits (r.scale fives twos) := ⟨h.lvalue, h.base⟩

lemma Fits.overflow (h : Fits r) {lvalue : ℕ} (hle : lvalue ≤ uint32Max) (fives twos : ℤ) :
    Fits (r.overflow lvalue fives twos) :=
  ⟨hle, h.base⟩

lemma addBinaryDigit_fits (h : Fits r) (hdigit : digit < 2) : Fits (addBinaryDigit r digit) := by
  rw [addBinaryDigit]
  split
  · exact h.scale 0 1
  · split
    · next hle =>
      refine ⟨?_, h.base⟩
      change r.lvalue * 2 + digit ≤ uint32Max
      rw [uint32Max] at hle ⊢
      omega
    · exact h.overflow h.lvalue 0 1

lemma addDecimalDigit_fits (h : Fits r) (hdigit : digit < 10) : Fits (addDecimalDigit r digit) := by
  rw [addDecimalDigit]
  split
  · split
    · exact h
    · exact h.scale 1 1
  · split
    · next hle =>
      have hnext : Fits { r with lvalue := r.lvalue * 10 + digit } := by
        refine ⟨?_, h.base⟩
        change r.lvalue * 10 + digit ≤ uint32Max
        rw [uint32Max] at hle ⊢
        omega
      dsimp only
      split
      · exact hnext.scale (-1) (-1)
      · exact hnext
    · dsimp only
      split
      · next hle =>
        have hnext : r.lvalue * 5 + (digit + 1) / 2 ≤ uint32Max := by
          rw [uint32Max] at hle ⊢
          omega
        split
        · exact h.overflow hnext (-1) 0
        · exact h.overflow hnext 0 1
      · split
        · next hle =>
          have hnext : r.lvalue * 2 + (digit + 4) / 5 ≤ uint32Max := by
            rw [uint32Max] at hle ⊢
            omega
          split
          · exact h.overflow hnext 0 (-1)
          · exact h.overflow hnext 1 0
        · split
          · exact h.overflow h.lvalue 0 0
          · exact h.overflow h.lvalue 1 1

/-- Bits moved up and a digit below them still fit. -/
lemma shifted_fits {lvalue low k : ℕ} (hle : lvalue ≤ uint32Max / 2 ^ k)
    (hlow : low ≤ uint32Max) : (lvalue <<< k) ||| low ≤ uint32Max := by
  have hshift : lvalue <<< k < 2 ^ 32 := by
    rw [Nat.shiftLeft_eq]
    calc lvalue * 2 ^ k ≤ uint32Max / 2 ^ k * 2 ^ k := Nat.mul_le_mul_right _ hle
      _ ≤ uint32Max := Nat.div_mul_le_self _ _
      _ < 2 ^ 32 := by decide
  have hor := Nat.or_lt_two_pow hshift (show low < 2 ^ 32 from Nat.lt_succ_of_le hlow)
  exact Nat.le_of_lt_succ hor

lemma addHexDigit_fits (h : Fits r) (hdigit : digit < 16) : Fits (addHexDigit r digit) := by
  have hlow (a k : ℕ) (ha : a ≤ 4) : (digit + a) >>> k ≤ uint32Max := by
    refine (Nat.shiftRight_le _ _).trans ?_
    rw [uint32Max]
    omega
  rw [addHexDigit]
  split
  · exact h.scale 0 4
  · split
    · next hle =>
      refine ⟨?_, h.base⟩
      change r.lvalue * 16 + digit ≤ uint32Max
      rw [uint32Max] at hle ⊢
      omega
    · split
      · next hle => exact h.overflow (shifted_fits hle (hlow 1 1 (by decide))) 0 1
      · split
        · next hle => exact h.overflow (shifted_fits hle (hlow 2 2 (by decide))) 0 2
        · split
          · next hle => exact h.overflow (shifted_fits hle (hlow 4 3 (by decide))) 0 3
          · exact h.overflow h.lvalue 0 4

lemma addDigit_fits (h : Fits r) (hdigit : digit < r.base) : Fits (addDigit r digit) := by
  have hnext : Fits { r with hadDigit := true } := ⟨h.lvalue, h.base⟩
  rw [addDigit]
  obtain hbase | hbase | hbase := h.base
  · rw [if_pos hbase]
    exact addBinaryDigit_fits hnext (hbase ▸ hdigit)
  · rw [if_neg (show r.base ≠ 2 by omega), if_pos hbase]
    exact addDecimalDigit_fits hnext (hbase ▸ hdigit)
  · rw [if_neg (show r.base ≠ 2 by omega), if_neg (show r.base ≠ 10 by omega)]
    exact addHexDigit_fits hnext (hbase ▸ hdigit)

lemma skipZeros_fits (h : Fits r) : Fits (skipZeros r s).1 := by
  induction s generalizing r with
  | nil => exact h
  | cons c s ih =>
    rw [skipZeros]
    split
    · apply ih
      split
      · exact ⟨h.lvalue, h.base⟩
      · exact ⟨h.lvalue, h.base⟩
    · split
      · exact ih ⟨h.lvalue, h.base⟩
      · exact h

lemma readDigits_fits (h : Fits r) : Fits (readDigits r s).1 := by
  induction s generalizing r with
  | nil => exact h
  | cons c s ih =>
    rw [readDigits]
    split
    · split
      · exact h
      · next hdigit => exact ih (addDigit_fits h (not_le.mp hdigit))
    · split
      · exact ih ⟨h.lvalue, h.base⟩
      · exact h

lemma readExponent_lvalue (h : readExponent r s = some (n, s')) : n.lvalue = r.lvalue := by
  rw [readExponent] at h
  split at h
  · dsimp only at h
    split at h
    · rw [← (Prod.mk.inj (Option.some.inj h)).1]
    · exact absurd h.symm (Option.some_ne_none _)
  · rw [← (Prod.mk.inj (Option.some.inj h)).1]

lemma readBase_fits (options : Options) (isNegative : Bool) (s : List Char) :
    Fits (readBase options isNegative s).1 := by
  have hbase : (if options.defaultHex then 16 else 10) = 2 ∨
      (if options.defaultHex then 16 else 10) = 10 ∨
      (if options.defaultHex then 16 else 10) = 16 := by
    cases options.defaultHex
    · exact Or.inr (Or.inl rfl)
    · exact Or.inr (Or.inr rfl)
  rw [readBase]
  split
  · dsimp only
    split
    · exact ⟨Nat.zero_le _, Or.inr (Or.inr rfl)⟩
    · exact ⟨Nat.zero_le _, Or.inr (Or.inr rfl)⟩
    · exact ⟨Nat.zero_le _, Or.inl rfl⟩
    · exact ⟨Nat.zero_le _, Or.inl rfl⟩
    · exact ⟨Nat.zero_le _, hbase⟩
  · exact ⟨Nat.zero_le _, hbase⟩

lemma accumulate_lvalue (h : accumulate options s = some (n, s')) : n.lvalue ≤ uint32Max := by
  simp only [accumulate, Option.bind_eq_bind, Option.bind_eq_some_iff] at h
  obtain ⟨⟨isNegative, t⟩, -, h⟩ := h
  split at h
  · rw [readExponent_lvalue h]
    exact (readDigits_fits (skipZeros_fits (readBase_fits options isNegative t))).lvalue
  · exact absurd h.symm (Option.some_ne_none _)

lemma strToU32_lt {value : ℕ} (h : strToU32 s = some (value, s')) : value < 2 ^ 32 := by
  obtain ⟨⟨n, t⟩, hn, hvalue⟩ := Option.map_eq_some_iff.mp h
  rw [← (Prod.mk.inj hvalue).1]
  split
  · exact Nat.lt_succ_of_le (accumulate_lvalue hn)
  · decide

/-! ### A number takes one character at least -/

lemma skipZeros_length : (skipZeros r s).2.length ≤ s.length ∧
    ((skipZeros r s).1.hadDigit = true → r.hadDigit = true ∨
      (skipZeros r s).2.length < s.length) := by
  induction s generalizing r with
  | nil => exact ⟨le_rfl, Or.inl⟩
  | cons c s ih =>
    rw [skipZeros, List.length_cons]
    split
    · dsimp only
      exact ⟨Nat.le_succ_of_le ih.1, fun _ => Or.inr (Nat.lt_succ_of_le ih.1)⟩
    · split
      · exact ⟨Nat.le_succ_of_le ih.1, fun _ => Or.inr (Nat.lt_succ_of_le ih.1)⟩
      · exact ⟨le_rfl, Or.inl⟩

lemma readDigits_length : (readDigits r s).2.length ≤ s.length ∧
    ((readDigits r s).1.hadDigit = true → r.hadDigit = true ∨
      (readDigits r s).2.length < s.length) := by
  induction s generalizing r with
  | nil => exact ⟨le_rfl, Or.inl⟩
  | cons c s ih =>
    rw [readDigits, List.length_cons]
    split
    · split
      · exact ⟨le_rfl, Or.inl⟩
      · exact ⟨Nat.le_succ_of_le ih.1, fun _ => Or.inr (Nat.lt_succ_of_le ih.1)⟩
    · split
      · exact ⟨Nat.le_succ_of_le ih.1, fun _ => Or.inr (Nat.lt_succ_of_le ih.1)⟩
      · exact ⟨le_rfl, Or.inl⟩

lemma readSign_length {isNegative : Bool} (h : readSign options s = some (isNegative, s')) :
    s'.length ≤ s.length := by
  rw [readSign.eq_def] at h
  split at h
  · rw [← (Prod.mk.inj (Option.some.inj h)).2]
    exact Nat.le_succ _
  · split at h
    · rw [← (Prod.mk.inj (Option.some.inj h)).2]
      exact Nat.le_succ _
    · exact absurd h.symm (Option.some_ne_none _)
  · rw [← (Prod.mk.inj (Option.some.inj h)).2]

lemma readBase_length (options : Options) (isNegative : Bool) (s : List Char) :
    (readBase options isNegative s).2.length ≤ s.length ∧
      ((readBase options isNegative s).1.hadDigit = true →
        (readBase options isNegative s).2.length < s.length) := by
  have hlt (c : Char) (u : List Char) : u.length < (c :: u).length + 1 := by
    rw [List.length_cons]
    omega
  rw [readBase]
  split
  · next hzero =>
    obtain ⟨t, rfl⟩ := List.head?_eq_some_iff.mp hzero.2
    rw [List.tail_cons, List.length_cons]
    dsimp only
    split
    · exact ⟨(hlt _ _).le, fun _ => hlt _ _⟩
    · exact ⟨(hlt _ _).le, fun _ => hlt _ _⟩
    · exact ⟨(hlt _ _).le, fun _ => hlt _ _⟩
    · exact ⟨(hlt _ _).le, fun _ => hlt _ _⟩
    · exact ⟨Nat.le_succ _, fun _ => Nat.lt_succ_self _⟩
  · exact ⟨le_rfl, fun h => absurd h Bool.false_ne_true⟩

lemma exponentDigits_length (exponent : ℕ) (s : List Char) :
    (exponentDigits exponent s).2.length ≤ s.length := by
  induction s generalizing exponent with
  | nil => exact le_rfl
  | cons c s ih =>
    rw [exponentDigits]
    split
    · exact Nat.le_succ_of_le (ih _)
    · exact le_rfl

lemma exponentSign_length (s : List Char) : (exponentSign s).2.length ≤ s.length := by
  rw [exponentSign.eq_def]
  split
  · exact Nat.le_succ _
  · exact Nat.le_succ _
  · exact le_rfl

lemma readExponent_length (h : readExponent r s = some (n, s')) : s'.length ≤ s.length := by
  rw [readExponent] at h
  split at h
  · dsimp only at h
    split at h
    · rw [← (Prod.mk.inj (Option.some.inj h)).2]
      exact ((exponentDigits_length _ _).trans (exponentSign_length _)).trans
        (List.tail_sublist s).length_le
    · exact absurd h.symm (Option.some_ne_none _)
  · rw [← (Prod.mk.inj (Option.some.inj h)).2]

lemma accumulate_length (h : accumulate options s = some (n, s')) : s'.length < s.length := by
  simp only [accumulate, Option.bind_eq_bind, Option.bind_eq_some_iff] at h
  obtain ⟨⟨isNegative, t⟩, hsign, h⟩ := h
  dsimp only at h
  split at h
  · next hdigit =>
    have hblank : (s.dropWhile isBlank).length ≤ s.length := (List.dropWhile_sublist _).length_le
    have hsign := readSign_length hsign
    obtain ⟨hbase, hbaseDigit⟩ := readBase_length options isNegative t
    obtain ⟨hzeros, hzerosDigit⟩ := skipZeros_length (r := (readBase options isNegative t).1)
      (s := (readBase options isNegative t).2)
    obtain ⟨hdigits, hdigitsDigit⟩ := readDigits_length
      (r := (skipZeros (readBase options isNegative t).1 (readBase options isNegative t).2).1)
      (s := (skipZeros (readBase options isNegative t).1 (readBase options isNegative t).2).2)
    have hexponent := readExponent_length h
    -- Some character before the exponent was a digit.
    obtain hbefore | hhere := hdigitsDigit hdigit
    · obtain hbefore | hhere := hzerosDigit hbefore
      · have hhere := hbaseDigit hbefore
        omega
      · omega
    · omega
  · exact absurd h.symm (Option.some_ne_none _)

lemma safeStrtof_length {value : ℚ} (h : safeStrtof s = some (value, s')) :
    s'.length < s.length := by
  obtain ⟨⟨n, t⟩, hn, hvalue⟩ := Option.map_eq_some_iff.mp h
  rw [← (Prod.mk.inj hvalue).2]
  exact accumulate_length hn

end RepRapFirmware.RRFLibraries.NumericConverters
