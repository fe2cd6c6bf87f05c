import RepRapFirmware.RRFLibraries.SafeVsnprintf

/-! Integers as the C standard wants them printed, and when the printer does it so. -/

namespace RepRapFirmware.RRFLibraries.IntegerFormatting

open SafeVsnprintf

inductive FlagLetter
  | minus
  | zero
  | plus
  | space
  | hash
  deriving DecidableEq

def FlagLetter.char : FlagLetter → Char
  | minus => '-'
  | zero => '0'
  | plus => '+'
  | space => ' '
  | hash => '#'

inductive Conversion
  | d
  | i
  | u
  | x
  | X
  | o
  deriving DecidableEq

namespace Conversion

def char : Conversion → Char
  | d => 'd'
  | i => 'i'
  | u => 'u'
  | x => 'x'
  | X => 'X'
  | o => 'o'

def isSigned (c : Conversion) : Bool := c = d ∨ c = i

def isHex (c : Conversion) : Bool := c = x ∨ c = X

def base : Conversion → ℕ
  | x => 16
  | X => 16
  | o => 8
  | _ => 10

end Conversion

/-- An argument of 32 or, with `ll`, of 64 bits. -/
inductive Value
  | int (i : BitVec 32)
  | longLong (i : BitVec 64)

namespace Value

def arg : Value → Arg
  | int i => .int i
  | longLong i => .longLong i

def length : Value → List Char
  | int _ => []
  | longLong _ => ['l', 'l']

def toInt : Value → ℤ
  | int i => i.toInt
  | longLong i => i.toInt

def toNat : Value → ℕ
  | int i => i.toNat
  | longLong i => i.toNat

/-- The places for characters in front of the terminator of the digit buffer. -/
def places : Value → ℕ
  | int _ => maxLongDigits + 1
  | longLong _ => maxUllDigits + 1

end Value

/-- A directive for an integer; the precision 0 is the one of no minimum. -/
structure Directive where
  flags : List FlagLetter
  width : ℕ
  precision : Option ℕ
  conversion : Conversion

namespace Directive

variable (d : Directive) (v : Value)

/-- The directive as a format. A width of 0 is left out: the digit would be a flag. -/
def format : List Char :=
  '%' :: (d.flags.map FlagLetter.char ++
    ((if d.width = 0 then [] else Nat.toDigits 10 d.width) ++
    ((d.precision.elim [] fun p => '.' :: Nat.toDigits 10 p) ++
    (v.length ++ [d.conversion.char]))))

def has (letter : FlagLetter) : Bool := letter ∈ d.flags

def minDigits : ℕ := d.precision.getD 0

def isNegative : Bool := d.conversion.isSigned ∧ v.toInt < 0

def magnitude : ℕ := if d.conversion.isSigned then v.toInt.natAbs else v.toNat

def digits : List Char :=
  (Nat.toDigits d.conversion.base (d.magnitude v)).map fun c =>
    if d.conversion = .X then c.toUpper else c

def spaces (n : ℕ) : List Char := List.replicate n ' '

def zeros (n : ℕ) : List Char := List.replicate n '0'

/-! ### The standard -/

/-- The sign, which only the signed conversions have. -/
def standardSign : List Char :=
  if !d.conversion.isSigned then []
  else if d.isNegative v then ['-']
  else if d.has .plus then ['+']
  else if d.has .space then [' ']
  else []

/-- The alternative form of `x` puts `0x` in front of a number that is not 0. -/
def standardPrefix : List Char :=
  if d.has .hash ∧ d.magnitude v ≠ 0 then
    if d.conversion = .x then ['0', 'x'] else if d.conversion = .X then ['0', 'X'] else []
  else []

/-- The digits, at least as many as the precision wants; the alternative form of `o` begins
with a 0. -/
def standardDigits : List Char :=
  let digits := zeros (d.minDigits - (d.digits v).length) ++ d.digits v
  if d.has .hash ∧ d.conversion = .o ∧ digits.head? ≠ some '0' then '0' :: digits else digits

/-- The width is filled up with spaces, or with zeros behind the sign and the prefix; the flag for
zeros is without effect beside the one for the left side, or beside a precision. -/
def standardText : List Char :=
  let front := d.standardSign v ++ d.standardPrefix v
  let digits := d.standardDigits v
  let missing := d.width - (front.length + digits.length)
  if d.has .minus then front ++ digits ++ spaces missing
  else if d.has .zero ∧ d.minDigits = 0 then front ++ zeros missing ++ digits
  else spaces missing ++ front ++ digits

/-- The output is what the standard prescribes, nothing is written outside the digit buffer, and a
buffer gets the beginning of the output. -/
structure Conforms : Prop where
  text : printed (d.format v) [v.arg] = d.standardText v
  inside : ∀ call rest, printDirective (d.format v).tail [v.arg] = some (call, rest) →
    call.inBuffer
  stored (maxLen : ℕ) (hroom : 1 ≤ maxLen) :
    (safeVsnprintf maxLen (d.format v) [v.arg]).1 =
      (printed (d.format v) [v.arg]).take (maxLen - 1) ++ ['\x00']

/-! ### When the printer conforms -/

/-- The flag for zeros with a precision and a width that both have an effect. -/
def zerosDespitePrecision (n : ℕ) : Bool :=
  d.has .zero ∧ !d.has .minus ∧ 0 < d.minDigits ∧ max n d.minDigits < d.width

def conformsZero : Bool :=
  if d.conversion.isSigned ∧ d.has .plus then false
  else if d.conversion.isSigned ∧ d.has .space then
    !d.has .minus ∧ !d.has .zero ∧ max 1 d.minDigits < d.width
  else !d.zerosDespitePrecision 1

def conformsSigned (n : ℕ) : Bool :=
  if d.isNegative v ∨ d.has .plus ∨ d.has .space then
    if d.has .zero ∧ d.width ≠ 0 then
      d.has .minus ∨ d.minDigits = 0 ∨ d.width ≤ max n d.minDigits + 1
    else d.minDigits ≤ n
  else !d.zerosDespitePrecision n

def hasPrefix : Bool := d.has .hash ∧ (d.conversion.isHex ∨ d.conversion = .o)

def conformsUnsigned (n : ℕ) : Bool :=
  if d.has .plus then false
  else if d.has .space then
    !d.hasPrefix ∧ !d.has .minus ∧
      if d.has .zero then 0 < d.minDigits ∧ d.width = max n d.minDigits + 1 ∧ n ≤ v.places
      else d.minDigits ≤ n ∧ n < d.width ∧ n + 1 ≤ v.places
  else
    n ≤ v.places ∧
      if d.hasPrefix then
        if d.conversion = .o then d.minDigits ≤ n ∧ d.width ≤ n
        else d.width ≤ max n d.minDigits
      else !d.zerosDespitePrecision n

def conforms : Bool :=
  if d.magnitude v = 0 then d.conformsZero
  else if d.conversion.isSigned then d.conformsSigned v (d.digits v).length
  else d.conformsUnsigned v (d.digits v).length

/-! ### How the format is read -/

/-- The flags of the call for the directive. -/
def callFlags : PrintFlags where
  base := d.conversion.base
  width := d.width
  printLimit := if d.minDigits = 0 then -1 else d.minDigits
  letBase := if d.conversion = .X then 'A' else 'a'
  padZero := d.has .zero
  padRight := d.has .minus
  signOrSpace := d.has .space
  forceSign := d.has .plus
  isSigned := d.conversion.isSigned
  long64 := match v with
    | .int _ => false
    | .longLong _ => true
  hash := d.has .hash

def call : Call :=
  match v with
  | .int i => .printI (d.callFlags v) i
  | .longLong i => .printLL (d.callFlags v) i

/-- What may follow the flags, the width or the precision of a directive. -/
def stops : List Char := ['.', 'l', 'd', 'i', 'u', 'x', 'X', 'o']

variable {d : Directive} {v : Value} {s rest : List Char} {c : Char} {n : ℕ} {flags : PrintFlags}

lemma flagChar_other (hc : c ∉ ['#', '-', '0', '+', ' ', '%']) : flagChar flags c = none := by
  rw [flagChar.eq_def]
  split
  · exact absurd hc (by decide)
  · exact absurd hc (by decide)
  · exact absurd hc (by decide)
  · exact absurd hc (by decide)
  · exact absurd hc (by decide)
  · rfl

lemma readFlags_map (letters : List FlagLetter) (hrest : ∃ c t, rest = c :: t ∧
    c ∉ ['#', '-', '0', '+', ' ', '%']) (flags : PrintFlags) :
    readFlags flags (letters.map FlagLetter.char ++ rest) =
      ({ flags with
        hash := flags.hash || decide (FlagLetter.hash ∈ letters)
        padRight := flags.padRight || decide (FlagLetter.minus ∈ letters)
        padZero := flags.padZero || decide (FlagLetter.zero ∈ letters)
        forceSign := flags.forceSign || decide (FlagLetter.plus ∈ letters)
        signOrSpace := flags.signOrSpace || decide (FlagLetter.space ∈ letters) }, rest) := by
  induction letters generalizing flags with
  | nil =>
    obtain ⟨c, t, rfl, hc⟩ := hrest
    simp [readFlags, flagChar_other hc]
  | cons letter letters ih =>
    rw [List.map_cons, List.cons_append, readFlags]
    cases letter with
    | minus => simp [FlagLetter.char, flagChar, ih]
    | zero => simp [FlagLetter.char, flagChar, ih]
    | plus => simp [FlagLetter.char, flagChar, ih]
    | space => simp [FlagLetter.char, flagChar, ih]
    | hash => simp [FlagLetter.char, flagChar, ih]

/-- The first digit of a number that is not 0 is not 0. -/
lemma head_toDigits {b : ℕ} (hb : 1 < b) (hn : n ≠ 0) :
    ∃ t s, t ≠ 0 ∧ t < b ∧ Nat.toDigits b n = Nat.digitChar t :: s := by
  induction n using Nat.strong_induction_on with
  | _ n ih =>
    rw [Nat.toDigits_eq_if hb]
    split
    · next hlt => exact ⟨n, [], hn, hlt, rfl⟩
    · next hge =>
      have hdiv : n / b ≠ 0 := (Nat.div_pos (not_lt.mp hge) (by omega)).ne'
      obtain ⟨t, s, ht, hlt, hdigits⟩ :=
        ih (n / b) (Nat.div_lt_self (Nat.pos_of_ne_zero hn) hb) hdiv
      exact ⟨t, _, ht, hlt, by rw [hdigits, List.cons_append]⟩

lemma readNumber_digit {k : ℕ} (hk : k < 10) (acc : ℕ) (rest : List Char) :
    readNumber acc (Nat.digitChar k :: rest) = readNumber (acc * 10 + k) rest := by
  have hdigit : (Nat.digitChar k).isDigit = true := by
    rw [Nat.isDigit_digitChar]
    exact decide_eq_true hk
  rw [readNumber, if_pos hdigit]
  congr 2
  exact Nat.toNat_digitChar_sub_48_of_lt_ten hk

lemma readNumber_toDigits (n : ℕ) (rest : List Char) :
    readNumber 0 (Nat.toDigits 10 n ++ rest) = readNumber n rest := by
  induction n using Nat.strong_induction_on generalizing rest with
  | _ n ih =>
    rw [Nat.toDigits_eq_if (by decide)]
    split
    · next hlt =>
      rw [List.singleton_append, readNumber_digit hlt, Nat.zero_mul, Nat.zero_add]
    · next hge =>
      rw [List.append_assoc, ih (n / 10) (by omega), List.singleton_append,
        readNumber_digit (Nat.mod_lt n (by decide)), mul_comm, Nat.div_add_mod]

lemma readNumber_stop (hstop : c ∈ stops) (acc : ℕ) (t : List Char) :
    readNumber acc (c :: t) = (acc, c :: t) := by
  have hall : stops.all (fun c => !c.isDigit) = true := by decide
  have hdigit : c.isDigit = false := by
    simpa using List.all_eq_true.mp hall c hstop
  rw [readNumber, if_neg (by rw [hdigit]; exact Bool.false_ne_true)]

/-- A number of the format, which may be left out if it is 0. -/
lemma readAmount_digits {t : List Char} (hstop : c ∈ stops) (hs : s = Nat.toDigits 10 n ∨
    n = 0 ∧ s = []) (args : List Arg) :
    readAmount (s ++ c :: t) args = some ((n : ℤ), c :: t, args) := by
  have hvalue : readNumber 0 (s ++ c :: t) = (n, c :: t) := by
    obtain rfl | ⟨rfl, rfl⟩ := hs
    · rw [readNumber_toDigits, readNumber_stop hstop]
    · exact readNumber_stop hstop 0 t
  have hstar : (s ++ c :: t).head? ≠ some '*' := by
    obtain rfl | ⟨rfl, rfl⟩ := hs
    · cases hdigits : Nat.toDigits 10 n with
      | nil => exact absurd hdigits Nat.toDigits_ne_nil
      | cons k ks =>
        have hdigit : k.isDigit = true :=
          Nat.isDigit_of_mem_toDigits (by decide) (by decide) (hdigits ▸ List.mem_cons_self)
        rintro ⟨⟩
        exact absurd hdigit (by decide)
    · rintro ⟨⟩
      exact absurd hstop (by decide)
  rw [readAmount.eq_def, if_neg hstar, hvalue]

def parsedLimit (d : Directive) : ℤ := d.precision.elim (-1) fun p => p

/-- The flags before the conversion is known. -/
def parsedFlags (d : Directive) : PrintFlags where
  width := d.width
  printLimit := d.parsedLimit
  padZero := d.has .zero
  padRight := d.has .minus
  signOrSpace := d.has .space
  forceSign := d.has .plus
  hash := d.has .hash

lemma length_stops (v : Value) (conversion : Conversion) :
    ∃ c t, v.length ++ [conversion.char] = c :: t ∧ c ∈ stops ∧ c ≠ '.' ∧ c ≠ 'f' ∧ c ≠ 'F' := by
  cases v with
  | int i =>
    refine ⟨conversion.char, [], rfl, ?_⟩
    cases conversion <;> decide
  | longLong i => exact ⟨'l', _, rfl, by decide⟩

lemma precision_stops (d : Directive) (v : Value) :
    ∃ c t, (d.precision.elim [] fun p => '.' :: Nat.toDigits 10 p) ++
      (v.length ++ [d.conversion.char]) = c :: t ∧ c ∈ stops := by
  cases d.precision with
  | none =>
    obtain ⟨c, t, h, hc, -⟩ := length_stops v d.conversion
    exact ⟨c, t, h, hc⟩
  | some p => exact ⟨'.', _, rfl, by decide⟩

lemma width_no_flag (d : Directive) {c : Char} {t : List Char} (hc : c ∈ stops) :
    ∃ c' t', (if d.width = 0 then [] else Nat.toDigits 10 d.width) ++ c :: t = c' :: t' ∧
      c' ∉ ['#', '-', '0', '+', ' ', '%'] := by
  split
  · have hall : stops.all (fun c => decide (c ∉ ['#', '-', '0', '+', ' ', '%'])) = true := by decide
    exact ⟨c, t, rfl, of_decide_eq_true (List.all_eq_true.mp hall c hc)⟩
  · next hwidth =>
    obtain ⟨k, s, hk, hlt, hdigits⟩ := head_toDigits (b := 10) (by decide) hwidth
    refine ⟨Nat.digitChar k, s ++ c :: t, by rw [hdigits, List.cons_append], ?_⟩
    interval_cases k
    · exact absurd rfl hk
    all_goals decide

lemma readPrecision_format (d : Directive) (v : Value) (flags : PrintFlags) (args : List Arg) :
    readPrecision flags ((d.precision.elim [] fun p => '.' :: Nat.toDigits 10 p) ++
        (v.length ++ [d.conversion.char])) args =
      some ({ flags with printLimit := d.precision.elim flags.printLimit fun p => p },
        v.length ++ [d.conversion.char], args) := by
  obtain ⟨c, t, h, hc, hpoint, -⟩ := length_stops v d.conversion
  rw [h, readPrecision]
  cases d.precision with
  | none =>
    have hhead : (c :: t).head? ≠ some '.' := fun hhead => hpoint (Option.some.inj hhead)
    exact if_neg hhead
  | some p =>
    have hamount := readAmount_digits (t := t) hc (Or.inl (rfl : Nat.toDigits 10 p = _)) args
    change (if some '.' = some '.' then _ else _) = _
    rw [if_pos rfl]
    change (readAmount (Nat.toDigits 10 p ++ c :: t) args).map _ = _
    rw [hamount]
    rfl

lemma normalise_limit (flags : PrintFlags) :
    (if flags.printLimit = 0 then { flags with printLimit := -1 } else flags) =
      { flags with printLimit := if flags.printLimit = 0 then -1 else flags.printLimit } := by
  split
  · rfl
  · rfl

lemma parsed_limit (d : Directive) :
    (if d.parsedLimit = 0 then -1 else d.parsedLimit) =
      if d.minDigits = 0 then -1 else (d.minDigits : ℤ) := by
  rw [minDigits, parsedLimit]
  cases d.precision with
  | none => rfl
  | some p =>
    cases p with
    | zero => rfl
    | succ p => rfl

/-- The conversion letter, with `ll` or without. -/
lemma printOther_format (d : Directive) (v : Value) {c : Char} {t : List Char}
    (h : v.length ++ [d.conversion.char] = c :: t) :
    printOther { d.parsedFlags with
        printLimit := if d.minDigits = 0 then -1 else (d.minDigits : ℤ) } c t [v.arg] =
      some (d.call v, [], []) := by
  obtain ⟨letters, width, precision, conversion⟩ := d
  cases v with
  | int i =>
    obtain ⟨rfl, rfl⟩ := List.cons.inj h
    cases conversion <;> rfl
  | longLong i =>
    obtain ⟨rfl, rfl⟩ := List.cons.inj h
    cases conversion <;> rfl

/-- The format leads to one call for the number, with the flags of the directive. -/
lemma printDirective_format (d : Directive) (v : Value) :
    printDirective (d.format v).tail [v.arg] = some (d.call v, [], []) := by
  obtain ⟨c, t, hprecision, hc⟩ := precision_stops d v
  have hflags := readFlags_map d.flags (width_no_flag d (t := t) hc) {}
  have hwidth : (if d.width = 0 then [] else Nat.toDigits 10 d.width) = Nat.toDigits 10 d.width ∨
      d.width = 0 ∧ (if d.width = 0 then [] else Nat.toDigits 10 d.width) = [] := by
    split
    · next h => exact Or.inr ⟨h, rfl⟩
    · exact Or.inl rfl
  obtain ⟨c', t', hlength, -, -, hf, hF⟩ := length_stops v d.conversion
  rw [format, List.tail_cons, hprecision, printDirective, hflags]
  dsimp only
  rw [readAmount_digits hc hwidth, Option.bind_some]
  dsimp only
  rw [← hprecision, readPrecision_format, Option.bind_some, hlength]
  dsimp only
  rw [printArgument.eq_def]
  dsimp only
  rw [if_neg (not_or.mpr ⟨hf, hF⟩)]
  change printOther (if d.parsedFlags.printLimit = 0 then
    { d.parsedFlags with printLimit := -1 } else d.parsedFlags) c' t' [v.arg] = _
  rw [normalise_limit]
  change printOther { d.parsedFlags with
    printLimit := if d.parsedLimit = 0 then -1 else d.parsedLimit } c' t' [v.arg] = _
  rw [parsed_limit]
  exact printOther_format d v hlength

/-! ### Layouts -/

/-- What `PutString` makes of digits. -/
def layout (minus zero : Bool) (width minDigits : ℕ) (s : List Char) : List Char :=
  let leftZeros := minDigits - s.length
  let missing := width - max s.length minDigits
  if minus then zeros leftZeros ++ s ++ spaces missing
  else if zero then zeros (leftZeros + missing) ++ s
  else spaces missing ++ zeros leftZeros ++ s

/-- What the standard makes of them. -/
def standardLayout (minus zero : Bool) (width minDigits : ℕ) (front digits : List Char) :
    List Char :=
  let missing := width - (front.length + digits.length)
  if minus then front ++ digits ++ spaces missing
  else if zero ∧ minDigits = 0 then front ++ zeros missing ++ digits
  else spaces missing ++ front ++ digits

section Layouts

variable {minus zero : Bool} {width p : ℕ} {front digits D : List Char} {sign : Char}

lemma length_layout : (layout minus zero width p s).length = max width (max s.length p) := by
  simp only [layout]
  split
  · simp [zeros, spaces]
    omega
  · split
    · simp [zeros]
      omega
    · simp [zeros, spaces]
      omega

lemma length_standardLayout : (standardLayout minus zero width p front digits).length =
    max width (front.length + digits.length) := by
  simp only [standardLayout]
  split
  · simp [spaces]
    omega
  · split
    · simp [zeros]
      omega
    · simp [spaces]
      omega

lemma space_layout : (layout minus zero width p s).count ' ' =
    (if zero ∧ !minus then 0 else width - max s.length p) + s.count ' ' := by
  cases minus <;> cases zero <;>
    simp [layout, zeros, spaces, List.count_replicate, Nat.add_comm]

lemma zero_layout : (layout minus zero width p s).count '0' =
    (p - s.length) + (if zero ∧ !minus then width - max s.length p else 0) + s.count '0' := by
  cases minus <;> cases zero <;> simp [layout, zeros, spaces, List.count_replicate]

lemma space_standardLayout : (standardLayout minus zero width p front digits).count ' ' =
    front.count ' ' + digits.count ' ' +
      (if zero ∧ !minus ∧ p = 0 then 0 else width - (front.length + digits.length)) := by
  cases minus <;> cases zero <;> by_cases hp : p = 0 <;>
    simp [standardLayout, zeros, spaces, List.count_replicate, hp, Nat.add_comm, Nat.add_assoc]

lemma zero_standardLayout : (standardLayout minus zero width p front digits).count '0' =
    front.count '0' + digits.count '0' +
      (if zero ∧ !minus ∧ p = 0 then width - (front.length + digits.length) else 0) := by
  cases minus <;> cases zero <;> by_cases hp : p = 0 <;>
    simp [standardLayout, zeros, spaces, List.count_replicate, hp]
  omega

lemma length_padded (p : ℕ) (D : List Char) :
    (zeros (p - D.length) ++ D).length = max D.length p := by
  simp [zeros]
  omega

lemma space_padded (p : ℕ) (D : List Char) :
    (zeros (p - D.length) ++ D).count ' ' = D.count ' ' := by
  simp [zeros, List.count_replicate]

lemma zero_padded (p : ℕ) (D : List Char) :
    (zeros (p - D.length) ++ D).count '0' = (p - D.length) + D.count '0' := by
  simp [zeros]

/-- Digits alone. -/
lemma layout_digits : layout minus zero width p D =
      standardLayout minus zero width p [] (zeros (p - D.length) ++ D) ↔
    ¬ (zero = true ∧ minus = false ∧ 0 < p ∧ max D.length p < width) := by
  constructor
  · rintro h ⟨rfl, rfl, hp, hwidth⟩
    have hzeros := congrArg (List.count '0') h
    rw [zero_layout, zero_standardLayout, zero_padded, length_padded] at hzeros
    simp [hp.ne'] at hzeros
    omega
  · intro h
    rw [layout, standardLayout, length_padded]
    cases minus
    · cases zero
      · simp
      · by_cases hp : p = 0
        · subst hp
          simp [zeros]
        · have hfit : width - max D.length p = 0 := by
            by_contra hroom
            exact h ⟨rfl, rfl, Nat.pos_of_ne_zero hp, by omega⟩
          simp [hfit, hp, zeros, spaces]
    · simp

/-- A sign that is stored in front of the digits. -/
lemma layout_stored_sign (hsign : sign ≠ '0') (hzero : ¬ (zero = true ∧ width ≠ 0)) :
    layout minus zero width p (sign :: D) =
      standardLayout minus zero width p [sign] (zeros (p - D.length) ++ D) ↔ p ≤ D.length := by
  have hcount : List.count '0' [sign] = 0 := by simp [hsign]
  constructor
  · intro h
    have hzeros := congrArg (List.count '0') h
    have hcons : (sign :: D).count '0' = D.count '0' := List.count_cons_of_ne hsign
    rw [zero_layout, zero_standardLayout, zero_padded, length_padded, hcons, hcount,
      List.length_cons] at hzeros
    have hnone : (if zero ∧ !minus then width - max (D.length + 1) p else 0) = 0 := by
      split
      · next hpad =>
        have hwidth : width = 0 := by
          by_contra hne
          exact hzero ⟨hpad.1, hne⟩
        omega
      · rfl
    have hnone' : (if zero ∧ !minus ∧ p = 0 then
        width - ([sign].length + max D.length p) else 0) = 0 := by
      split
      · next hpad =>
        have hwidth : width = 0 := by
          by_contra hne
          exact hzero ⟨hpad.1, hne⟩
        omega
      · rfl
    omega
  · intro hp
    have hmax : max (D.length + 1) p = D.length + 1 := by omega
    have hsub : p - D.length = 0 := by omega
    have hsub' : p - (D.length + 1) = 0 := by omega
    rw [layout, standardLayout, length_padded, List.length_cons, hmax, hsub, hsub',
      List.length_singleton, max_eq_left hp, Nat.add_comm 1]
    cases minus
    · cases zero
      · simp [zeros]
      · have hwidth : width = 0 := by
          by_contra hne
          exact hzero ⟨rfl, hne⟩
        simp [zeros, hwidth, spaces]
    · simp [zeros]

/-- A sign in front of the padding. -/
lemma layout_sign_first (hsign : sign ≠ '0') :
    sign :: layout minus true (width - 1) p D =
      standardLayout minus true width p [sign] (zeros (p - D.length) ++ D) ↔
      minus = true ∨ p = 0 ∨ width ≤ max D.length p + 1 := by
  have hcount : List.count '0' [sign] = 0 := by simp [hsign]
  constructor
  · intro h
    by_contra hnot
    simp only [not_or, Bool.not_eq_true, not_le] at hnot
    obtain ⟨rfl, hp, hroom⟩ := hnot
    have hzeros := congrArg (List.count '0') h
    rw [List.count_cons_of_ne hsign, zero_layout, zero_standardLayout, zero_padded, length_padded,
      hcount] at hzeros
    simp [hp] at hzeros
    omega
  · intro h
    have hmissing : width - 1 - max D.length p = width - (1 + max D.length p) := by omega
    rw [layout, standardLayout, length_padded, List.length_singleton, hmissing]
    cases minus
    · by_cases hp : p = 0
      · subst hp
        simp [zeros]
      · have hfit : width - (1 + max D.length p) = 0 := by
          have hle := (h.resolve_left Bool.false_ne_true).resolve_left hp
          omega
        simp [hfit, hp, zeros, spaces]
    · simp

/-- A character that neither padding nor digits have. -/
lemma layout_other (hspace : sign ≠ ' ') (hzero : sign ≠ '0') :
    (layout minus zero width p s).count sign = s.count sign := by
  have hspace' : ' ' ≠ sign := hspace.symm
  have hzero' : '0' ≠ sign := hzero.symm
  cases minus <;> cases zero <;>
    simp [layout, zeros, spaces, List.count_replicate, hspace', hzero']

lemma standardLayout_other (hspace : sign ≠ ' ') (hzero : sign ≠ '0') :
    (standardLayout minus zero width p front digits).count sign =
      front.count sign + digits.count sign := by
  have hspace' : ' ' ≠ sign := hspace.symm
  have hzero' : '0' ≠ sign := hzero.symm
  cases minus <;> cases zero <;> by_cases hp : p = 0 <;>
    simp [standardLayout, zeros, spaces, List.count_replicate, hspace', hzero', hp]

lemma head_padded (hne : D ≠ []) (hD : D.count ' ' = 0) (p n : ℕ) :
    (zeros (p - D.length) ++ D ++ spaces n).head? ≠ some ' ' := by
  have hpadded : zeros (p - D.length) ++ D ≠ [] := List.append_ne_nil_of_right_ne_nil _ hne
  rw [List.head?_append_of_ne_nil _ hpadded]
  intro hhead
  have hmem : ' ' ∈ zeros (p - D.length) ++ D := List.mem_of_head? hhead
  rw [← List.count_pos_iff, space_padded, hD] at hmem
  exact lt_irrefl 0 hmem

/-- No sign, where the standard wants a space. -/
lemma layout_no_space (hne : D ≠ []) (hD : D.count ' ' = 0) :
    layout minus zero width p D =
      standardLayout minus zero width p [' '] (zeros (p - D.length) ++ D) ↔
      minus = false ∧ zero = false ∧ max D.length p < width := by
  constructor
  · intro h
    cases minus
    · have hspaces := congrArg (List.count ' ') h
      rw [space_layout, space_standardLayout, space_padded, length_padded, hD] at hspaces
      cases zero
      · simp at hspaces
        exact ⟨rfl, rfl, by omega⟩
      · have hone : List.count ' ' [' '] = 1 := rfl
        simp only [hone, Bool.not_false, and_self, if_true] at hspaces
        omega
    · have hhead := congrArg List.head? h
      exact absurd hhead (head_padded hne hD p _)
  · rintro ⟨rfl, rfl, hroom⟩
    have hmissing : width - max D.length p = width - (1 + max D.length p) + 1 := by omega
    rw [layout, standardLayout, length_padded, List.length_singleton, hmissing]
    simp [spaces, List.replicate_succ']

/-- A space that is stored in front of the digits, where the standard wants no sign. -/
lemma layout_stored_space (hne : D ≠ []) (hD : D.count ' ' = 0)
    (hzero : ¬ (zero = true ∧ width ≠ 0)) :
    layout minus zero width p (' ' :: D) =
      standardLayout minus zero width p [] (zeros (p - D.length) ++ D) ↔
      minus = false ∧ p ≤ D.length ∧ D.length < width := by
  constructor
  · intro h
    have hfewer : p ≤ D.length := by
      have hzeros := congrArg (List.count '0') h
      rw [zero_layout, zero_standardLayout, zero_padded, length_padded,
        List.count_cons_of_ne (by decide), List.length_cons, List.count_nil] at hzeros
      have hnone (n : ℕ) (hn : width ≤ n) : width - n = 0 := by omega
      by_cases hz : zero = true
      · have hwidth : width = 0 := by
          by_contra hne
          exact hzero ⟨hz, hne⟩
        simp [hwidth] at hzeros
        omega
      · simp [hz] at hzeros
        omega
    cases minus
    · have hlengths := congrArg List.length h
      rw [length_layout, length_standardLayout, length_padded, List.length_cons,
        List.length_nil] at hlengths
      exact ⟨rfl, hfewer, by omega⟩
    · have hsub : p - (' ' :: D).length = 0 := by
        rw [List.length_cons]
        omega
      have hhead := congrArg List.head? h
      rw [layout, hsub] at hhead
      exact absurd hhead.symm (head_padded hne hD p _)
  · rintro ⟨rfl, hp, hroom⟩
    have hz : zero = false := by
      by_contra hz
      exact hzero ⟨Bool.not_eq_false _ ▸ hz, by omega⟩
    subst hz
    have hmax : max (D.length + 1) p = D.length + 1 := by omega
    have hsub : p - D.length = 0 := by omega
    have hsub' : p - (D.length + 1) = 0 := by omega
    have hmissing : width - (0 + D.length) = width - (D.length + 1) + 1 := by omega
    rw [layout, standardLayout, length_padded, List.length_cons, hmax, hsub, hsub',
      max_eq_left hp, List.length_nil, hmissing]
    simp [zeros, spaces, List.replicate_succ']

/-- A space in front of the padding, where the standard wants no sign. -/
lemma layout_space_first (hne : D ≠ []) (hD : D.count ' ' = 0) (hwidth : width ≠ 0) :
    ' ' :: layout minus true (width - 1) p D =
      standardLayout minus true width p [] (zeros (p - D.length) ++ D) ↔
      minus = false ∧ 0 < p ∧ width = max D.length p + 1 := by
  constructor
  · intro h
    cases minus
    · have hspaces := congrArg (List.count ' ') h
      have hlengths := congrArg List.length h
      rw [List.count_cons_self, space_layout, space_standardLayout, space_padded, length_padded,
        hD] at hspaces
      rw [List.length_cons, length_layout, length_standardLayout, length_padded] at hlengths
      by_cases hp : p = 0
      · simp [hp] at hspaces
      · simp [hp] at hspaces
        exact ⟨rfl, Nat.pos_of_ne_zero hp, by omega⟩
    · have hhead := congrArg List.head? h
      exact absurd hhead.symm (head_padded hne hD p _)
  · rintro ⟨rfl, hp, rfl⟩
    rw [layout, standardLayout, length_padded]
    simp [hp.ne', spaces]

/-- A prefix of two characters in front of the padding. -/
lemma layout_hex (hlength : front.length = 2) :
    front ++ layout minus zero width p D =
      standardLayout minus zero width p front (zeros (p - D.length) ++ D) ↔
      width ≤ max D.length p := by
  constructor
  · intro h
    have hlengths := congrArg List.length h
    rw [List.length_append, length_layout, length_standardLayout, length_padded,
      hlength] at hlengths
    omega
  · intro hfit
    have hnone : width - max D.length p = 0 := by omega
    have hnone' : width - (front.length + max D.length p) = 0 := by omega
    rw [layout, standardLayout, length_padded, hnone, hnone']
    cases minus <;> cases zero <;> simp [spaces, zeros]

/-- The digits of the alternative form of `o`. -/
def octalDigits (p : ℕ) (D : List Char) : List Char :=
  let digits := zeros (p - D.length) ++ D
  if digits.head? ≠ some '0' then '0' :: digits else digits

lemma octalDigits_few (hD : D.head? ≠ some '0') (hp : p ≤ D.length) :
    octalDigits p D = '0' :: D := by
  have hsub : p - D.length = 0 := by omega
  rw [octalDigits, hsub]
  exact if_pos hD

lemma octalDigits_many (hp : D.length < p) : octalDigits p D = zeros (p - D.length) ++ D := by
  obtain ⟨k, hk⟩ : ∃ k, p - D.length = k + 1 := ⟨p - D.length - 1, by omega⟩
  rw [octalDigits, hk]
  exact if_neg (not_not.mpr rfl)

lemma length_octalDigits (hD : D.head? ≠ some '0') :
    (octalDigits p D).length = max p (D.length + 1) := by
  rcases Nat.lt_or_ge D.length p with hp | hp
  · rw [octalDigits_many hp, length_padded]
    omega
  · rw [octalDigits_few hD hp, List.length_cons]
    omega

lemma space_octalDigits (hD : D.head? ≠ some '0') :
    (octalDigits p D).count ' ' = D.count ' ' := by
  rcases Nat.lt_or_ge D.length p with hp | hp
  · rw [octalDigits_many hp, space_padded]
  · rw [octalDigits_few hD hp, List.count_cons_of_ne (by decide)]

lemma zero_octalDigits (hD : D.head? ≠ some '0') :
    (octalDigits p D).count '0' = max p (D.length + 1) - D.length + D.count '0' := by
  rcases Nat.lt_or_ge D.length p with hp | hp
  · rw [octalDigits_many hp, zero_padded]
    omega
  · rw [octalDigits_few hD hp, List.count_cons_self]
    omega

/-- A 0 in front of the padding. -/
lemma layout_octal (hD : D.head? ≠ some '0') :
    '0' :: layout minus zero width p D = standardLayout minus zero width p [] (octalDigits p D) ↔
      p ≤ D.length ∧ width ≤ D.length := by
  constructor
  · intro h
    have hlengths := congrArg List.length h
    rw [List.length_cons, length_layout, length_standardLayout, length_octalDigits hD,
      List.length_nil] at hlengths
    exact ⟨by omega, by omega⟩
  · rintro ⟨hp, hfit⟩
    have hsub : p - D.length = 0 := by omega
    have hnone : width - max D.length p = 0 := by omega
    have hnone' : width - (0 + (D.length + 1)) = 0 := by omega
    rw [octalDigits_few hD hp, layout, standardLayout, List.length_cons, List.length_nil, hnone,
      hnone', hsub]
    cases minus <;> cases zero <;> simp [spaces, zeros]

/-- A prefix and a space, where the standard wants the prefix only. -/
lemma layout_hex_stored_space (hlength : front.length = 2) (hD : D.count ' ' = 0)
    (hzero : ¬ (zero = true ∧ width ≠ 0)) :
    front ++ layout minus zero width p (' ' :: D) ≠
      standardLayout minus zero width p front (zeros (p - D.length) ++ D) := by
  intro h
  have hspaces := congrArg (List.count ' ') h
  rw [List.count_append, space_layout, space_standardLayout, space_padded, length_padded,
    List.count_cons_self, List.length_cons, hD, hlength] at hspaces
  by_cases hz : zero = true
  · have hwidth : width = 0 := by
      by_contra hne
      exact hzero ⟨hz, hne⟩
    simp [hwidth] at hspaces
  · simp [hz] at hspaces
    omega

lemma layout_hex_space_first (hlength : front.length = 2) (hD : D.count ' ' = 0) :
    front ++ ' ' :: layout minus true (width - 1) p D ≠
      standardLayout minus true width p front (zeros (p - D.length) ++ D) := by
  intro h
  have hspaces := congrArg (List.count ' ') h
  have hzeros := congrArg (List.count '0') h
  rw [List.count_append, List.count_cons_self, space_layout, space_standardLayout, space_padded,
    length_padded, hD, hlength] at hspaces
  rw [List.count_append, List.count_cons_of_ne (by decide), zero_layout, zero_standardLayout,
    zero_padded, length_padded, hlength] at hzeros
  cases minus
  · by_cases hp : p = 0
    · simp [hp] at hspaces
    · simp [hp] at hspaces hzeros
      omega
  · simp at hspaces
    omega

lemma layout_octal_stored_space (hhead : D.head? ≠ some '0') (hD : D.count ' ' = 0)
    (hzero : ¬ (zero = true ∧ width ≠ 0)) :
    '0' :: layout minus zero width p (' ' :: D) ≠
      standardLayout minus zero width p [] (octalDigits p D) := by
  intro h
  have hspaces := congrArg (List.count ' ') h
  rw [List.count_cons_of_ne (by decide), space_layout, space_standardLayout,
    space_octalDigits hhead, length_octalDigits hhead, List.count_cons_self, List.length_cons, hD,
    List.length_nil, List.count_nil] at hspaces
  by_cases hz : zero = true
  · have hwidth : width = 0 := by
      by_contra hne
      exact hzero ⟨hz, hne⟩
    simp [hwidth] at hspaces
  · simp [hz] at hspaces
    omega

lemma layout_octal_space_first (hhead : D.head? ≠ some '0') (hD : D.count ' ' = 0) :
    '0' :: ' ' :: layout minus true (width - 1) p D ≠
      standardLayout minus true width p [] (octalDigits p D) := by
  intro h
  have hspaces := congrArg (List.count ' ') h
  have hzeros := congrArg (List.count '0') h
  rw [List.count_cons_of_ne (by decide), List.count_cons_self, space_layout,
    space_standardLayout, space_octalDigits hhead, length_octalDigits hhead, hD,
    List.length_nil, List.count_nil] at hspaces
  rw [List.count_cons_self, List.count_cons_of_ne (by decide), zero_layout, zero_standardLayout,
    zero_octalDigits hhead, length_octalDigits hhead, List.length_nil, List.count_nil] at hzeros
  cases minus
  · by_cases hp : p = 0
    · simp [hp] at hspaces
    · simp [hp] at hspaces hzeros
      omega
  · simp at hspaces hzeros
    omega

end Layouts

/-! ### The digits -/

lemma mem_toDigits {b : ℕ} (hb : 1 < b) (hc : c ∈ Nat.toDigits b n) :
    ∃ t < b, c = Nat.digitChar t := by
  induction n using Nat.strong_induction_on with
  | _ n ih =>
    rw [Nat.toDigits_eq_if hb] at hc
    split at hc
    · next hlt => exact ⟨n, hlt, List.mem_singleton.mp hc⟩
    · next hge =>
      obtain hbefore | hlast := List.mem_append.mp hc
      · exact ih (n / b) (Nat.div_lt_self (by omega) hb) hbefore
      · exact ⟨n % b, Nat.mod_lt _ (by omega), List.mem_singleton.mp hlast⟩

lemma base_bounds (conversion : Conversion) : 1 < conversion.base ∧ conversion.base ≤ 16 := by
  cases conversion <;> decide

lemma mem_digits (hc : c ∈ d.digits v) : c ∉ [' ', '+', '\x00'] := by
  obtain ⟨c', hc', rfl⟩ := List.mem_map.mp hc
  obtain ⟨t, ht, rfl⟩ := mem_toDigits (base_bounds _).1 hc'
  have hlt : t < 16 := ht.trans_le (base_bounds _).2
  split
  · interval_cases t <;> decide
  · interval_cases t <;> decide

lemma digits_ne_nil : d.digits v ≠ [] := by
  rw [digits, ne_eq, List.map_eq_nil_iff]
  exact Nat.toDigits_ne_nil

lemma count_digits (hc : c ∈ [' ', '+', '\x00']) : (d.digits v).count c = 0 :=
  List.count_eq_zero.mpr fun hmem => mem_digits hmem hc

lemma head_digits (hmagnitude : d.magnitude v ≠ 0) : (d.digits v).head? ≠ some '0' := by
  obtain ⟨t, s, ht, hlt, h⟩ := head_toDigits (base_bounds d.conversion).1 hmagnitude
  have hlt : t < 16 := hlt.trans_le (base_bounds _).2
  rw [digits, h, List.map_cons, List.head?_cons]
  intro hzero
  have hzero := Option.some.inj hzero
  split at hzero
  · interval_cases t <;> first | exact absurd rfl ht | exact absurd hzero (by decide)
  · interval_cases t <;> first | exact absurd rfl ht | exact absurd hzero (by decide)

lemma digitOf_eq {t : ℕ} (ht : t < 16) (conversion : Conversion) :
    digitOf (if conversion = .X then 'A' else 'a') t =
      if conversion = .X then (Nat.digitChar t).toUpper else Nat.digitChar t := by
  split
  · interval_cases t <;> decide
  · interval_cases t <;> decide

lemma digitLoop_eq {b : ℕ} (hb : 1 < b) (hb' : b ≤ 16) (conversion : Conversion) {k u : ℕ}
    (hu : u ≤ k) (s : List Char) :
    digitLoop b (if conversion = .X then 'A' else 'a') k u s =
      (if u = 0 then [] else (Nat.toDigits b u).map fun c =>
        if conversion = .X then c.toUpper else c) ++ s := by
  induction k generalizing u s with
  | zero =>
    have hzero : u = 0 := Nat.le_zero.mp hu
    rw [hzero, digitLoop, if_pos rfl, List.nil_append]
  | succ k ih =>
    rw [digitLoop]
    split
    · rw [List.nil_append]
    · next hne =>
      have hdiv : u / b < u := Nat.div_lt_self (Nat.pos_of_ne_zero hne) hb
      have hmod : u % b < b := Nat.mod_lt _ (by omega)
      rw [ih (by omega), digitOf_eq (hmod.trans_le hb'), Nat.toDigits_eq_if hb (n := u)]
      by_cases hlt : u < b
      · rw [if_pos hlt, Nat.div_eq_of_lt hlt, Nat.mod_eq_of_lt hlt, if_pos rfl]
        rfl
      · have hdivne : u / b ≠ 0 := (Nat.div_pos (not_lt.mp hlt) (by omega)).ne'
        rw [if_neg hlt, if_neg hdivne, List.map_append, List.append_assoc]
        rfl

lemma natAbs_toInt {w : ℕ} (i : BitVec w) :
    i.toInt.natAbs = if i.msb then (-i).toNat else i.toNat := by
  have hlt := i.isLt
  rw [BitVec.toInt_eq_msb_cond]
  split
  · next hmsb =>
    have hpos : 0 < i.toNat := by
      by_contra hzero
      have h0 : i = 0#w := BitVec.eq_of_toNat_eq (by simpa using hzero)
      simp [h0] at hmsb
    rw [BitVec.toNat_neg, Nat.mod_eq_of_lt (by omega)]
    omega
  · rfl

/-! ### What is printed -/

/-- The flags while the number is printed. -/
def numberFlags (d : Directive) (v : Value) : PrintFlags :=
  { d.callFlags v with isNumber := true }

lemma paddedText_eq {width p : ℕ} (hnumber : flags.isNumber = true)
    (hstring : flags.isString = false) (hwidth : flags.width = (width : ℤ))
    (hlimit : flags.printLimit = if p = 0 then -1 else (p : ℤ)) :
    paddedText flags s = layout flags.padRight flags.padZero width p s := by
  have hlimited : limited flags s = s := by
    rw [limited, hstring]
    exact if_neg fun h => Bool.false_ne_true h.2
  rw [paddedText, layout, hlimited, padding, hnumber, hwidth, hlimit]
  by_cases hp : p = 0
  · subst hp
    by_cases hw : width = 0
    · subst hw
      cases flags.padRight <;> cases flags.padZero <;> simp [zeros, spaces]
    · have hpos : 0 < width := Nat.pos_of_ne_zero hw
      cases flags.padRight <;> cases flags.padZero <;> simp [zeros, spaces, hpos]
  · have hpos : 0 < p := Nat.pos_of_ne_zero hp
    have hsub : ((p : ℤ) - s.length).toNat = p - s.length := by omega
    have hmissing : ((width : ℤ) - ((s.length : ℤ) + ((p - s.length : ℕ) : ℤ))).toNat =
        width - max s.length p := by omega
    cases flags.padRight <;> cases flags.padZero <;>
      simp [zeros, spaces, hp, hpos, hsub, hmissing]

lemma numberFlags_padded (d : Directive) (v : Value) (s : List Char) :
    paddedText (d.numberFlags v) s = layout (d.has .minus) (d.has .zero) d.width d.minDigits s :=
  paddedText_eq rfl rfl rfl rfl

lemma isSigned_base {conversion : Conversion} (h : conversion.isSigned = true) :
    conversion.base = 10 := by
  revert conversion
  rintro (_ | _ | _ | _ | _ | _) <;> decide

lemma isNegativeNumber_eq {w : ℕ} {i : BitVec w} (hsigned : flags.isSigned = d.conversion.isSigned)
    (hbase : flags.base = d.conversion.base) (hvalue : v.toInt = i.toInt) :
    isNegativeNumber flags i = d.isNegative v := by
  rw [isNegativeNumber, isNegative, hsigned, hbase, hvalue]
  cases hconversion : d.conversion.isSigned
  · simp
  · simp [isSigned_base hconversion, BitVec.msb_eq_toInt]

lemma magnitude_eq {w : ℕ} {i : BitVec w} (hint : v.toInt = i.toInt) (hnat : v.toNat = i.toNat) :
    (if d.isNegative v then (-i).toNat else i.toNat) = d.magnitude v := by
  rw [magnitude, isNegative, hint, hnat]
  cases hconversion : d.conversion.isSigned
  · simp
  · simp [natAbs_toInt, ← BitVec.msb_eq_toInt]

lemma magnitude_zero {w : ℕ} {i : BitVec w} (hint : v.toInt = i.toInt)
    (hnat : v.toNat = i.toNat) : i = 0 ↔ d.magnitude v = 0 := by
  rw [magnitude, hint, hnat]
  split
  · rw [Int.natAbs_eq_zero]
    exact ⟨fun h => by rw [h]; exact BitVec.toInt_zero, fun h => BitVec.eq_of_toInt_eq
      (h.trans BitVec.toInt_zero.symm)⟩
  · exact ⟨fun h => by rw [h]; rfl, fun h => BitVec.eq_of_toNat_eq h⟩

lemma numberDigits_eq {w : ℕ} {i : BitVec w} (hint : v.toInt = i.toInt) (hnat : v.toNat = i.toNat)
    (hne : d.magnitude v ≠ 0) (hsigned : flags.isSigned = d.conversion.isSigned)
    (hbase : flags.base = d.conversion.base)
    (hletter : flags.letBase = if d.conversion = .X then 'A' else 'a') :
    numberDigits flags i = d.digits v := by
  rw [numberDigits, isNegativeNumber_eq hsigned hbase hint, magnitude_eq hint hnat, hbase, hletter,
    digitLoop_eq (base_bounds _).1 (base_bounds _).2 _ le_rfl, if_neg hne, List.append_nil]
  rfl

/-- The text of the call, from the digits. -/
def numberOutput (d : Directive) (v : Value) : List Char :=
  if d.magnitude v = 0 then layout (d.has .minus) (d.has .zero) d.width d.minDigits ['0']
  else prefixText (d.numberFlags v) ++
    signedText (d.numberFlags v) (d.digits v) (d.isNegative v)

lemma numberText_eq {w : ℕ} {i : BitVec w} (hint : v.toInt = i.toInt) (hnat : v.toNat = i.toNat) :
    numberText (d.callFlags v) i = d.numberOutput v := by
  rw [numberText, numberOutput]
  change (if i = 0 then paddedText (d.numberFlags v) ['0'] else
    prefixText (d.numberFlags v) ++ signedText (d.numberFlags v)
      (numberDigits (d.numberFlags v) i) (isNegativeNumber (d.numberFlags v) i)) = _
  by_cases hzero : d.magnitude v = 0
  · rw [if_pos ((magnitude_zero hint hnat).mpr hzero), if_pos hzero, numberFlags_padded]
  · rw [if_neg fun h => hzero ((magnitude_zero hint hnat).mp h), if_neg hzero,
      numberDigits_eq hint hnat hzero rfl rfl rfl, isNegativeNumber_eq (d := d) rfl rfl hint]

lemma call_text (d : Directive) (v : Value) : (d.call v).text = d.numberOutput v := by
  cases v with
  | int i => exact numberText_eq rfl rfl
  | longLong i => exact numberText_eq rfl rfl

lemma head_format (d : Directive) (v : Value) : (d.format v).tail.head? ≠ some '%' := by
  obtain ⟨c, t, hprecision, hc⟩ := precision_stops d v
  rw [format, List.tail_cons, hprecision]
  cases d.flags with
  | nil =>
    obtain ⟨c', t', hwidth, hc'⟩ := width_no_flag d (t := t) hc
    rw [List.map_nil, List.nil_append, hwidth]
    rintro ⟨⟩
    exact absurd hc' (by decide)
  | cons letter letters =>
    rw [List.map_cons, List.cons_append, List.head?_cons]
    cases letter <;> decide

lemma formatText_format (d : Directive) (v : Value) :
    formatText (d.format v).length (d.format v) [v.arg] = d.numberOutput v := by
  have hdirective := printDirective_format d v
  have hhead := head_format d v
  obtain ⟨tail, htail⟩ : ∃ tail, d.format v = '%' :: tail := ⟨_, rfl⟩
  rw [htail, List.tail_cons] at hdirective hhead
  rw [htail, List.length_cons, formatText, if_neg (not_not.mpr rfl), if_neg hhead, hdirective]
  dsimp only
  have hrest : formatText tail.length [] [] = [] := by cases tail.length <;> rfl
  rw [hrest, List.append_nil, call_text]

/-- The width that is left behind a sign. -/
def signedLayout (d : Directive) (sign : Option Char) (s : List Char) : List Char :=
  match sign with
  | none => layout (d.has .minus) (d.has .zero) d.width d.minDigits s
  | some sign =>
    if d.has .zero ∧ d.width ≠ 0 then
      sign :: layout (d.has .minus) true (d.width - 1) d.minDigits s
    else layout (d.has .minus) (d.has .zero) d.width d.minDigits (sign :: s)

lemma signBeforePadding_eq (d : Directive) (v : Value) :
    signBeforePadding (d.numberFlags v) = true ↔ d.has .zero = true ∧ d.width ≠ 0 := by
  have hwidth : (d.numberFlags v).width = (d.width : ℤ) := rfl
  have hzero : (d.numberFlags v).padZero = d.has .zero := rfl
  rw [signBeforePadding, hwidth, hzero, Bool.and_eq_true, bne_iff_ne, Nat.cast_ne_zero, and_comm]

lemma signedText_eq (isNegative : Bool) : signedText (d.numberFlags v) s isNegative =
    d.signedLayout (signOf (d.numberFlags v) isNegative) s := by
  rw [signedText, signedLayout.eq_def]
  cases signOf (d.numberFlags v) isNegative with
  | none => exact numberFlags_padded d v s
  | some sign =>
    dsimp only
    by_cases hfirst : d.has .zero = true ∧ d.width ≠ 0
    · rw [if_pos ((signBeforePadding_eq d v).mpr hfirst), if_pos hfirst]
      have hwidth : ((d.width : ℤ) - 1) = ((d.width - 1 : ℕ) : ℤ) := by omega
      have hpadded : paddedText { d.numberFlags v with width := (d.numberFlags v).width - 1 } s =
          layout (d.has .minus) (d.has .zero) (d.width - 1) d.minDigits s :=
        paddedText_eq rfl rfl hwidth rfl
      rw [hpadded]
      change _ :: layout (d.has .minus) (d.has .zero) (d.width - 1) d.minDigits s = _
      rw [hfirst.1]
    · rw [if_neg fun h => hfirst ((signBeforePadding_eq d v).mp h), if_neg hfirst]
      exact numberFlags_padded d v _

lemma signOf_eq (d : Directive) (v : Value) (isNegative : Bool) :
    signOf (d.numberFlags v) isNegative =
      if isNegative then some '-' else if d.has .plus then some '+'
      else if d.has .space then some ' ' else none := rfl

lemma count_signedLayout (sign : Option Char) (hspace : c ≠ ' ') (hzero : c ≠ '0') :
    (d.signedLayout sign s).count c = sign.toList.count c + s.count c := by
  rw [signedLayout.eq_def]
  cases sign with
  | none =>
    dsimp only
    rw [layout_other hspace hzero]
    exact (Nat.zero_add _).symm
  | some sign =>
    dsimp only
    split
    · rw [List.count_cons, layout_other hspace hzero]
      simp [List.count_cons, Nat.add_comm]
    · rw [layout_other hspace hzero]
      simp [List.count_cons, Nat.add_comm]

lemma prefixText_eq (d : Directive) (v : Value) : prefixText (d.numberFlags v) =
    if d.has .hash then
      if d.conversion = .x then ['0', 'x'] else if d.conversion = .X then ['0', 'X']
      else if d.conversion = .o then ['0'] else []
    else [] := by
  obtain ⟨letters, width, precision, conversion⟩ := d
  have hhash : (numberFlags ⟨letters, width, precision, conversion⟩ v).hash =
      decide (FlagLetter.hash ∈ letters) := rfl
  have hhas : has ⟨letters, width, precision, conversion⟩ .hash =
      decide (FlagLetter.hash ∈ letters) := rfl
  rw [prefixText, PrintFlags.needPrefix, hhash, hhas]
  cases decide (FlagLetter.hash ∈ letters)
  · rfl
  · cases conversion <;> rfl

lemma count_zero_output (d : Directive) (v : Value) : (d.numberOutput v).count '\x00' = 0 := by
  rw [numberOutput]
  split
  · rw [layout_other (by decide) (by decide)]
    decide
  · have hsign : (signOf (d.numberFlags v) (d.isNegative v)).toList.count '\x00' = 0 := by
      rw [signOf_eq]
      split
      · decide
      · split
        · decide
        · split
          · decide
          · decide
    have halternative : (prefixText (d.numberFlags v)).count '\x00' = 0 := by
      rw [prefixText_eq]
      cases d.has .hash
      · rfl
      · cases d.conversion <;> decide
    rw [List.count_append, signedText_eq, count_signedLayout _ (by decide) (by decide), hsign,
      halternative, count_digits (by decide)]

/-- What the printer makes of the format. -/
lemma printed_format (d : Directive) (v : Value) :
    printed (d.format v) [v.arg] = d.numberOutput v := by
  rw [printed_eq, formatText_format, shown_eq (List.count_eq_zero.mp (count_zero_output d v))]

/-! ### The three kinds of numbers -/

lemma digits_zero (hzero : d.magnitude v = 0) : d.digits v = ['0'] := by
  rw [digits, hzero, Nat.toDigits_zero, List.map_singleton]
  split
  · decide
  · rfl

lemma zeros_head (p : ℕ) : (zeros (p - 1) ++ ['0']).head? = some '0' := by
  cases p - 1 with
  | zero => rfl
  | succ n => rfl

lemma standardText_eq (d : Directive) (v : Value) : d.standardText v =
    standardLayout (d.has .minus) (d.has .zero) d.width d.minDigits
      (d.standardSign v ++ d.standardPrefix v) (d.standardDigits v) := rfl

lemma zerosDespitePrecision_iff (d : Directive) (n : ℕ) : (!d.zerosDespitePrecision n) = true ↔
    ¬ (d.has .zero = true ∧ d.has .minus = false ∧ 0 < d.minDigits ∧
      max n d.minDigits < d.width) := by
  rw [zerosDespitePrecision]
  cases d.has .zero <;> cases d.has .minus <;> simp
  omega

/-- The standard wants a character of the output that the printer does not make, or the other way
round. -/
lemma text_ne {t : List Char} (h : s.count c ≠ t.count c) : s ≠ t :=
  fun heq => h (heq ▸ rfl)

/-- Zero is printed without its sign. -/
lemma text_zero (hzero : d.magnitude v = 0) :
    d.numberOutput v = d.standardText v ↔ d.conformsZero = true := by
  have hnegative : d.isNegative v = false := by
    rw [isNegative]
    cases hsigned : d.conversion.isSigned
    · simp
    · rw [magnitude, hsigned, if_pos rfl, Int.natAbs_eq_zero] at hzero
      simp [hzero]
  have hdigits : d.standardDigits v = zeros (d.minDigits - ['0'].length) ++ ['0'] := by
    rw [standardDigits, digits_zero hzero]
    refine if_neg fun h => h.2.2 ?_
    exact zeros_head _
  have halternative : d.standardPrefix v = [] := if_neg fun h => h.2 hzero
  rw [numberOutput, if_pos hzero, standardText_eq, hdigits, halternative, List.append_nil,
    standardSign, hnegative, conformsZero]
  cases hsigned : d.conversion.isSigned
  · simp only [Bool.not_false, if_true, Bool.false_eq_true, false_and, if_false]
    rw [layout_digits, zerosDespitePrecision_iff]
    rfl
  · cases hplus : d.has .plus
    · cases hspace : d.has .space
      · simp only [Bool.not_true, Bool.false_eq_true, if_false, and_false]
        rw [layout_digits, zerosDespitePrecision_iff]
        rfl
      · simp only [Bool.not_true, Bool.false_eq_true, if_false, and_false, and_self, if_true]
        rw [layout_no_space (by decide) (by decide)]
        simp
    · simp only [Bool.not_true, Bool.false_eq_true, if_false, and_self, if_true, iff_false]
      apply text_ne (c := '+')
      rw [layout_other (by decide) (by decide), standardLayout_other (by decide) (by decide),
        List.count_append, zeros, List.count_replicate]
      simp

/-- The sign of a signed number, which the standard wants as well. -/
lemma standardSign_eq (hsigned : d.conversion.isSigned = true) :
    d.standardSign v = (signOf (d.numberFlags v) (d.isNegative v)).toList := by
  rw [standardSign, signOf_eq, hsigned]
  cases d.isNegative v
  · cases d.has .plus
    · cases d.has .space
      · rfl
      · rfl
    · rfl
  · rfl

lemma not_octal {conversion : Conversion} (h : conversion.isSigned = true) : conversion ≠ .o := by
  rintro rfl
  exact absurd h (by decide)

lemma signed_no_prefix (hsigned : d.conversion.isSigned = true) :
    d.standardPrefix v = [] ∧ prefixText (d.numberFlags v) = [] := by
  rw [prefixText_eq, standardPrefix]
  cases hconversion : d.conversion
  all_goals rw [hconversion] at hsigned
  all_goals first | exact absurd hsigned (by decide) | simp

lemma plain_digits (h : ¬ (d.has .hash = true ∧ d.conversion = .o)) :
    d.standardDigits v = zeros (d.minDigits - (d.digits v).length) ++ d.digits v :=
  if_neg fun hall => h ⟨hall.1, hall.2.1⟩

/-- A sign that both have. -/
lemma signedLayout_sign {sign : Char} (hsign : sign ≠ '0') {D : List Char} :
    d.signedLayout (some sign) D = standardLayout (d.has .minus) (d.has .zero) d.width d.minDigits
      [sign] (zeros (d.minDigits - D.length) ++ D) ↔
    if d.has .zero ∧ d.width ≠ 0 then
      d.has .minus ∨ d.minDigits = 0 ∨ d.width ≤ max D.length d.minDigits + 1
    else d.minDigits ≤ D.length := by
  rw [signedLayout.eq_def]
  dsimp only
  by_cases hfirst : d.has .zero = true ∧ d.width ≠ 0
  · rw [if_pos hfirst, if_pos hfirst, hfirst.1]
    exact layout_sign_first hsign
  · rw [if_neg hfirst, if_neg hfirst]
    exact layout_stored_sign hsign hfirst

lemma text_signed (hne : d.magnitude v ≠ 0) (hsigned : d.conversion.isSigned = true) :
    d.numberOutput v = d.standardText v ↔ d.conformsSigned v (d.digits v).length = true := by
  obtain ⟨hstandard, halternative⟩ := signed_no_prefix (v := v) hsigned
  rw [numberOutput, if_neg hne, halternative, List.nil_append, signedText_eq, standardText_eq,
    standardSign_eq hsigned, hstandard, List.append_nil,
    plain_digits fun h => not_octal hsigned h.2, conformsSigned]
  have hsome {sign : Char} (hsign : sign ≠ '0') :
      d.signedLayout (some sign) (d.digits v) =
        standardLayout (d.has .minus) (d.has .zero) d.width d.minDigits [sign]
          (zeros (d.minDigits - (d.digits v).length) ++ d.digits v) ↔
      (if d.has .zero ∧ d.width ≠ 0 then
        decide (d.has .minus ∨ d.minDigits = 0 ∨
          d.width ≤ max (d.digits v).length d.minDigits + 1)
        else decide (d.minDigits ≤ (d.digits v).length)) = true := by
    rw [signedLayout_sign hsign]
    split
    · exact decide_eq_true_iff.symm
    · exact decide_eq_true_iff.symm
  rw [signOf_eq]
  cases hnegative : d.isNegative v
  · cases hplus : d.has .plus
    · cases hspace : d.has .space
      · simp only [Bool.false_eq_true, if_false, or_self]
        rw [zerosDespitePrecision_iff]
        exact layout_digits
      · simp only [Bool.false_eq_true, if_false, if_true, or_true]
        exact hsome (by decide)
    · simp only [Bool.false_eq_true, if_false, if_true, or_true, true_or]
      exact hsome (by decide)
  · simp only [if_true, true_or]
    exact hsome (by decide)

/-! ### The digit buffer -/

/-- How many places the digits and a stored sign take. -/
def placesUsed (d : Directive) (v : Value) : ℕ :=
  (d.digits v).length +
    if (signOf (d.numberFlags v) (d.isNegative v)).isSome ∧ ¬ (d.has .zero ∧ d.width ≠ 0) then 1
    else 0

lemma bufferUse_eq {w : ℕ} {i : BitVec w} (hint : v.toInt = i.toInt) (hnat : v.toNat = i.toNat)
    (hne : d.magnitude v ≠ 0) : bufferUse (d.callFlags v) i = d.placesUsed v := by
  have hdigits : numberDigits (d.callFlags v) i = d.digits v :=
    numberDigits_eq hint hnat hne rfl rfl rfl
  have hnegative : isNegativeNumber (d.callFlags v) i = d.isNegative v :=
    isNegativeNumber_eq rfl rfl hint
  have hfirst := signBeforePadding_eq d v
  change signBeforePadding (d.callFlags v) = true ↔ _ at hfirst
  rw [bufferUse, if_neg fun h => hne ((magnitude_zero hint hnat).mp h), hdigits, hnegative,
    placesUsed]
  congr 1
  apply if_congr _ rfl rfl
  rw [← hfirst, Bool.and_eq_true, Bool.not_eq_true', Bool.not_eq_true]
  rfl

lemma inBuffer_zero (hzero : d.magnitude v = 0) : (d.call v).inBuffer := by
  cases v with
  | int i =>
    have hi : i = 0 := (magnitude_zero (d := d) rfl rfl).mpr hzero
    change staysInBuffer _ _ i
    rw [staysInBuffer, bufferUse, if_pos hi]
    decide
  | longLong i =>
    have hi : i = 0 := (magnitude_zero (d := d) rfl rfl).mpr hzero
    change staysInBuffer _ _ i
    rw [staysInBuffer, bufferUse, if_pos hi]
    decide

lemma inBuffer_iff (hne : d.magnitude v ≠ 0) :
    (d.call v).inBuffer ↔ d.placesUsed v ≤ v.places := by
  cases v with
  | int i =>
    change staysInBuffer _ _ i ↔ _
    rw [staysInBuffer, bufferUse_eq (v := .int i) rfl rfl hne]
    exact Nat.succ_le_succ_iff
  | longLong i =>
    change staysInBuffer _ _ i ↔ _
    rw [staysInBuffer, bufferUse_eq (v := .longLong i) rfl rfl hne]
    exact Nat.succ_le_succ_iff

lemma length_digits_le {k : ℕ} (hk : 0 < k) (h : d.magnitude v < d.conversion.base ^ k) :
    (d.digits v).length ≤ k := by
  rw [digits, List.length_map]
  exact (Nat.length_toDigits_le_iff (base_bounds _).1 hk).mpr h

/-- Signed numbers leave a place for their sign. -/
lemma signed_fits (hsigned : d.conversion.isSigned = true) :
    (d.digits v).length + 1 ≤ v.places := by
  have hbase := isSigned_base hsigned
  have hmagnitude : d.magnitude v = v.toInt.natAbs := by
    rw [magnitude, hsigned]
    rfl
  cases v with
  | int i =>
    have hlow : -2 ^ 31 ≤ i.toInt := BitVec.le_toInt i
    have hhigh : i.toInt < 2 ^ 31 := BitVec.toInt_lt
    have hlength : (d.digits (.int i)).length ≤ 10 := by
      apply length_digits_le (by decide)
      rw [hmagnitude, hbase]
      change i.toInt.natAbs < _
      omega
    exact Nat.succ_le_succ hlength
  | longLong i =>
    have hlow : -2 ^ 63 ≤ i.toInt := BitVec.le_toInt i
    have hhigh : i.toInt < 2 ^ 63 := BitVec.toInt_lt
    have hlength : (d.digits (.longLong i)).length ≤ 20 := by
      apply length_digits_le (by decide)
      rw [hmagnitude, hbase]
      change i.toInt.natAbs < _
      omega
    exact Nat.succ_le_succ hlength

lemma placesUsed_le (d : Directive) (v : Value) : d.placesUsed v ≤ (d.digits v).length + 1 := by
  rw [placesUsed]
  split
  · exact le_rfl
  · exact Nat.le_succ _

/-! ### Unsigned numbers -/

/-- The prefixes: that of `x`, that of `o`, and none. -/
lemma prefix_cases (hne : d.magnitude v ≠ 0) :
    d.hasPrefix = true ∧ d.conversion ≠ .o ∧ (prefixText (d.numberFlags v)).length = 2 ∧
        d.standardPrefix v = prefixText (d.numberFlags v) ∧
        d.standardDigits v = zeros (d.minDigits - (d.digits v).length) ++ d.digits v ∨
      d.hasPrefix = true ∧ d.conversion = .o ∧ prefixText (d.numberFlags v) = ['0'] ∧
        d.standardPrefix v = [] ∧ d.standardDigits v = octalDigits d.minDigits (d.digits v) ∨
      d.hasPrefix = false ∧ prefixText (d.numberFlags v) = [] ∧ d.standardPrefix v = [] ∧
        d.standardDigits v = zeros (d.minDigits - (d.digits v).length) ++ d.digits v := by
  rw [prefixText_eq, hasPrefix, standardPrefix]
  cases hhash : d.has .hash
  · exact Or.inr (Or.inr ⟨by simp, by simp, by simp, plain_digits (by simp [hhash])⟩)
  · by_cases hoctal : d.conversion = .o
    · refine Or.inr (Or.inl ⟨by simp [hoctal], hoctal, by simp [hoctal], by simp [hoctal], ?_⟩)
      rw [standardDigits, octalDigits, hhash, hoctal]
      simp
    · have hdigits := plain_digits (v := v) fun h => hoctal h.2
      by_cases hx : d.conversion = .x
      · exact Or.inl ⟨by simp [hx, Conversion.isHex], hoctal, by simp [hx], by simp [hx, hne],
          hdigits⟩
      · by_cases hX : d.conversion = .X
        · exact Or.inl ⟨by simp [hX, Conversion.isHex], hoctal, by simp [hX], by simp [hX, hne],
            hdigits⟩
        · exact Or.inr (Or.inr ⟨by simp [Conversion.isHex, hx, hX, hoctal],
            by simp [hx, hX, hoctal], by simp [hx, hX], hdigits⟩)

lemma isNegative_unsigned (hunsigned : d.conversion.isSigned = false) :
    d.isNegative v = false := by
  simp [isNegative, hunsigned]

/-- A plus that the standard does not want. -/
lemma text_plus (hne : d.magnitude v ≠ 0) (hunsigned : d.conversion.isSigned = false)
    (hplus : d.has .plus = true) : d.numberOutput v ≠ d.standardText v := by
  have hdigits : (d.digits v).count '+' = 0 := count_digits (by decide)
  have hsign : d.standardSign v = [] := by
    rw [standardSign, hunsigned]
    rfl
  have hfront : (d.standardPrefix v).count '+' = 0 := by
    rw [standardPrefix]
    split
    · split
      · decide
      · split
        · decide
        · rfl
    · rfl
  have hstandard : (d.standardDigits v).count '+' = 0 := by
    rw [standardDigits]
    split
    · simp [zeros, List.count_replicate, hdigits]
    · simp [zeros, List.count_replicate, hdigits]
  apply text_ne (c := '+')
  rw [numberOutput, if_neg hne, signedText_eq, signOf_eq, isNegative_unsigned hunsigned, hplus,
    standardText_eq, hsign, List.nil_append, List.count_append,
    standardLayout_other (by decide) (by decide), hfront, hstandard,
    count_signedLayout _ (by decide) (by decide)]
  simp

/-- A space that the standard does not want. -/
lemma text_space (hne : d.magnitude v ≠ 0) (hunsigned : d.conversion.isSigned = false)
    (hplus : d.has .plus = false) (hspace : d.has .space = true) :
    d.numberOutput v = d.standardText v ↔ d.hasPrefix = false ∧ d.has .minus = false ∧
      if d.has .zero ∧ d.width ≠ 0 then
        0 < d.minDigits ∧ d.width = max (d.digits v).length d.minDigits + 1
      else d.minDigits ≤ (d.digits v).length ∧ (d.digits v).length < d.width := by
  have hnone : (d.digits v).count ' ' = 0 := count_digits (by decide)
  have hsign : d.standardSign v = [] := by
    rw [standardSign, hunsigned]
    rfl
  have hlayout : signedText (d.numberFlags v) (d.digits v) (d.isNegative v) =
      d.signedLayout (some ' ') (d.digits v) := by
    rw [signedText_eq, signOf_eq, isNegative_unsigned hunsigned, hplus, hspace]
    rfl
  rw [numberOutput, if_neg hne, hlayout, standardText_eq, hsign, List.nil_append,
    signedLayout.eq_def]
  dsimp only
  obtain ⟨halternative, -, hlength, hstandard, hdigits⟩ |
    ⟨halternative, -, htext, hstandard, hdigits⟩ | ⟨halternative, htext, hstandard, hdigits⟩ :=
    prefix_cases hne
  · rw [halternative, hstandard, hdigits]
    refine ⟨fun h => absurd h ?_, fun h => absurd h.1 (by decide)⟩
    split
    · next hfirst =>
      rw [hfirst.1]
      exact layout_hex_space_first hlength hnone
    · next hfirst => exact layout_hex_stored_space hlength hnone hfirst
  · rw [halternative, htext, hstandard, hdigits]
    refine ⟨fun h => absurd h ?_, fun h => absurd h.1 (by decide)⟩
    split
    · next hfirst =>
      rw [hfirst.1]
      exact layout_octal_space_first (head_digits hne) hnone
    · next hfirst => exact layout_octal_stored_space (head_digits hne) hnone hfirst
  · rw [halternative, htext, hstandard, hdigits, List.nil_append]
    simp only [true_and]
    by_cases hfirst : d.has .zero = true ∧ d.width ≠ 0
    · rw [if_pos hfirst, if_pos hfirst, hfirst.1]
      exact layout_space_first digits_ne_nil hnone hfirst.2
    · rw [if_neg hfirst, if_neg hfirst]
      exact layout_stored_space digits_ne_nil hnone hfirst

lemma text_unsigned (hne : d.magnitude v ≠ 0) (hunsigned : d.conversion.isSigned = false)
    (hplus : d.has .plus = false) (hspace : d.has .space = false) :
    d.numberOutput v = d.standardText v ↔
      (if d.hasPrefix then
        if d.conversion = .o then
          d.minDigits ≤ (d.digits v).length ∧ d.width ≤ (d.digits v).length
        else d.width ≤ max (d.digits v).length d.minDigits
      else (!d.zerosDespitePrecision (d.digits v).length) = true) := by
  have hsign : d.standardSign v = [] := by
    rw [standardSign, hunsigned]
    rfl
  have hlayout : signedText (d.numberFlags v) (d.digits v) (d.isNegative v) =
      layout (d.has .minus) (d.has .zero) d.width d.minDigits (d.digits v) := by
    rw [signedText_eq, signOf_eq, isNegative_unsigned hunsigned, hplus, hspace]
    rfl
  rw [numberOutput, if_neg hne, hlayout, standardText_eq, hsign, List.nil_append]
  obtain ⟨halternative, hconversion, hlength, hstandard, hdigits⟩ |
    ⟨halternative, hconversion, htext, hstandard, hdigits⟩ | ⟨halternative, htext, hstandard,
      hdigits⟩ :=
    prefix_cases hne
  · rw [hstandard, hdigits, if_pos halternative, if_neg hconversion]
    exact layout_hex hlength
  · rw [htext, hstandard, hdigits, if_pos halternative, if_pos hconversion]
    exact layout_octal (head_digits hne)
  · rw [htext, hstandard, hdigits, halternative, List.nil_append, zerosDespitePrecision_iff]
    exact layout_digits

lemma placesUsed_unsigned (hunsigned : d.conversion.isSigned = false)
    (hplus : d.has .plus = false) : d.placesUsed v =
      (d.digits v).length + if d.has .space ∧ ¬ (d.has .zero ∧ d.width ≠ 0) then 1 else 0 := by
  rw [placesUsed, signOf_eq, isNegative_unsigned hunsigned, hplus]
  cases d.has .space
  · rfl
  · rfl

lemma conformsUnsigned_iff (hne : d.magnitude v ≠ 0) (hunsigned : d.conversion.isSigned = false) :
    (d.numberOutput v = d.standardText v ∧ d.placesUsed v ≤ v.places) ↔
      d.conformsUnsigned v (d.digits v).length = true := by
  rw [conformsUnsigned]
  cases hplus : d.has .plus
  · cases hspace : d.has .space
    · rw [text_unsigned hne hunsigned hplus hspace, placesUsed_unsigned hunsigned hplus, hspace,
        and_comm]
      simp only [Bool.false_eq_true, false_and, if_false, Nat.add_zero, decide_eq_true_iff]
    · rw [text_space hne hunsigned hplus hspace, placesUsed_unsigned hunsigned hplus, hspace]
      have hpositive (h : (d.digits v).length < d.width) : d.width ≠ 0 := by omega
      cases d.hasPrefix <;> cases d.has .minus <;> cases d.has .zero
      all_goals simp
      · omega
      · by_cases hwidth : d.width = 0
        · simp [hwidth]
        · simp [hwidth, and_assoc]
  · simp only [if_true, Bool.false_eq_true, iff_false, not_and]
    exact fun h => absurd h (text_plus hne hunsigned hplus)

/-- The printer keeps to the standard, to its digit buffer and to the room of its caller exactly
on the directives and numbers that meet the condition. -/
theorem conforms_iff (d : Directive) (v : Value) : d.Conforms v ↔ d.conforms v = true := by
  have hparts : d.Conforms v ↔ d.numberOutput v = d.standardText v ∧ (d.call v).inBuffer := by
    constructor
    · rintro ⟨htext, hinside, -⟩
      exact ⟨printed_format d v ▸ htext, hinside _ _ (printDirective_format d v)⟩
    · rintro ⟨htext, hinside⟩
      refine ⟨(printed_format d v).trans htext, fun call rest h => ?_, fun maxLen _ =>
        safeVsnprintf_stored maxLen⟩
      rw [printDirective_format] at h
      exact (Prod.mk.inj (Option.some.inj h)).1 ▸ hinside
  rw [hparts, conforms]
  by_cases hzero : d.magnitude v = 0
  · rw [if_pos hzero, and_iff_left (inBuffer_zero hzero)]
    exact text_zero hzero
  · rw [if_neg hzero, inBuffer_iff hzero]
    cases hsigned : d.conversion.isSigned
    · exact conformsUnsigned_iff hzero hsigned
    · have hfits : d.placesUsed v ≤ v.places := (placesUsed_le d v).trans (signed_fits hsigned)
      rw [and_iff_left hfits]
      exact text_signed hzero hsigned

/-- The zeros of a precision come in front of the minus, and the 22 digits of a large octal number
leave the buffer. -/
theorem not_conforms :
    printed "%.3d".toList [.int (-5)] = "0-5".toList ∧
      ¬ Conforms ⟨[], 0, some 3, .d⟩ (.int (-5)) ∧
      ¬ (call ⟨[], 0, none, .o⟩ (.longLong (-1))).inBuffer ∧
      ¬ Conforms ⟨[], 0, none, .o⟩ (.longLong (-1)) ∧
      ¬ ∀ (d : Directive) (v : Value), d.Conforms v := by
  have hprinted : printed "%.3d".toList [.int (-5)] = "0-5".toList := by decide +kernel
  have hminus : ¬ Conforms ⟨[], 0, some 3, .d⟩ (.int (-5)) := by
    intro h
    have htext : printed "%.3d".toList [.int (-5)] = "-005".toList := h.text
    rw [hprinted] at htext
    exact absurd htext (by decide)
  have hdigits : ¬ (call ⟨[], 0, none, .o⟩ (.longLong (-1))).inBuffer := by
    rw [inBuffer_iff (by decide)]
    decide +kernel
  refine ⟨hprinted, hminus, hdigits, fun h => hdigits ?_, fun h => hminus (h _ _)⟩
  exact h.inside _ _ (printDirective_format _ _)

end Directive

end RepRapFirmware.RRFLibraries.IntegerFormatting
