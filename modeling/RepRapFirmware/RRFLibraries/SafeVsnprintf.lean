import Mathlib.Algebra.Order.Floor.Semifield
import Mathlib.Data.List.TakeWhile
import Mathlib.Data.Rat.Floor
import Mathlib.Tactic

/-! Formatted output, character by character, to a sink that may refuse a character. Numbers in
floating point are exact. -/

namespace RepRapFirmware.RRFLibraries.SafeVsnprintf

structure PrintFlags where
  base : ℕ := 0
  width : ℤ := 0
  printLimit : ℤ := -1
  letBase : Char := '\x00'
  padZero : Bool := false
  padRight : Bool := false
  signOrSpace : Bool := false
  forceSign : Bool := false
  isSigned : Bool := false
  isNumber : Bool := false
  isString : Bool := false
  long32 : Bool := false
  long64 : Bool := false
  hash : Bool := false

def PrintFlags.needPrefix (flags : PrintFlags) : Bool :=
  flags.hash && (flags.base == 16 || flags.base == 8)

/-- The printer: the state of its sink, and how many characters the sink has taken. -/
structure FormattedPrinter (σ : Type) where
  sink : σ
  curLen : ℕ

/-- A part of the output, which succeeds if the sink takes all of it. -/
abbrev Put (σ : Type) := FormattedPrinter σ → Bool × FormattedPrinter σ

def done {σ : Type} : Put σ := fun printer => (true, printer)

def Put.andThen {σ : Type} (first second : Put σ) : Put σ := fun printer =>
  match first printer with
  | (true, printer) => second printer
  | (false, printer) => (false, printer)

section

variable {σ : Type} (putcharFunc : σ → Char → Bool × σ)

def putChar (c : Char) : Put σ := fun printer =>
  let (taken, sink) := putcharFunc printer.sink c
  if taken && c != '\x00' then (true, ⟨sink, printer.curLen + 1⟩)
  else (false, ⟨sink, printer.curLen⟩)

def putText : List Char → Put σ
  | [] => done
  | c :: s => (putChar putcharFunc c).andThen (putText s)

def putRepeated (c : Char) : ℕ → Put σ
  | 0 => done
  | n + 1 => (putChar putcharFunc c).andThen (putRepeated c n)

structure Padding where
  leftSpaces : ℕ
  leftZeros : ℕ
  rightSpaces : ℕ

/-- The padding around `count` characters. -/
def padding (flags : PrintFlags) (count : ℕ) : Padding :=
  let hasMinimumDigits := flags.isNumber && decide (0 < flags.printLimit)
  if hasMinimumDigits || decide (0 < flags.width) then
    let leftZerosNeeded :=
      if hasMinimumDigits then (flags.printLimit - count).toNat else 0
    let remainingPaddingNeeded := (flags.width - (count + leftZerosNeeded : ℕ)).toNat
    if flags.padRight then ⟨0, leftZerosNeeded, remainingPaddingNeeded⟩
    else if flags.padZero then ⟨0, leftZerosNeeded + remainingPaddingNeeded, 0⟩
    else ⟨remainingPaddingNeeded, leftZerosNeeded, 0⟩
  else ⟨0, 0, 0⟩

def putString (flags : PrintFlags) (apString : List Char) : Put σ :=
  let s :=
    if 0 < flags.printLimit ∧ flags.isString then apString.take flags.printLimit.toNat
    else apString
  let pad := padding flags s.length
  (putRepeated putcharFunc ' ' pad.leftSpaces).andThen <|
    (putRepeated putcharFunc '0' pad.leftZeros).andThen <|
    (putText putcharFunc s).andThen <|
    putRepeated putcharFunc ' ' pad.rightSpaces

def signOf (flags : PrintFlags) (isNegative : Bool) : Option Char :=
  if isNegative then some '-'
  else if flags.forceSign then some '+'
  else if flags.signOrSpace then some ' '
  else none

/-- The sign goes in front of padding with zeros; else it is stored in front of the digits. -/
def signBeforePadding (flags : PrintFlags) : Bool := flags.width != 0 && flags.padZero

def putStringWithSign (flags : PrintFlags) (s : List Char) (isNegative : Bool) : Put σ :=
  match signOf flags isNegative with
  | none => putString putcharFunc flags s
  | some sign =>
    if signBeforePadding flags then
      (putChar putcharFunc sign).andThen
        (putString putcharFunc { flags with width := flags.width - 1 } s)
    else putString putcharFunc flags (sign :: s)

def doPrefix (flags : PrintFlags) : Put σ :=
  if flags.needPrefix then
    (putChar putcharFunc '0').andThen <|
      if flags.base = 16 then
        putChar putcharFunc (Char.ofNat (flags.letBase.toNat + ('X'.toNat - 'A'.toNat)))
      else done
  else done

def digitOf (letBase : Char) (t : ℕ) : Char :=
  if 10 ≤ t then Char.ofNat (letBase.toNat + (t - 10)) else Char.ofNat ('0'.toNat + t)

/-- The loop over the digits of a number, lowest first; the first argument bounds its turns. -/
def digitLoop (base : ℕ) (letBase : Char) : ℕ → ℕ → List Char → List Char
  | 0, _, s => s
  | n + 1, u, s =>
    if u = 0 then s else digitLoop base letBase n (u / base) (digitOf letBase (u % base) :: s)

def isNegativeNumber (flags : PrintFlags) {w : ℕ} (i : BitVec w) : Bool :=
  flags.isSigned && flags.base == 10 && i.msb

/-- The digits of a number that is not 0. -/
def numberDigits (flags : PrintFlags) {w : ℕ} (i : BitVec w) : List Char :=
  let u := if isNegativeNumber flags i then (-i).toNat else i.toNat
  digitLoop flags.base flags.letBase u u []

/-- `PrintLL` and `PrintI`, which differ in the widths of the number and of their buffers. -/
def printNumber (flags : PrintFlags) {w : ℕ} (i : BitVec w) : Put σ :=
  let flags := { flags with isNumber := true }
  if i = 0 then putString putcharFunc flags ['0']
  else
    (doPrefix putcharFunc flags).andThen
      (putStringWithSign putcharFunc flags (numberDigits flags i) (isNegativeNumber flags i))

def maxLongDigits : ℕ := 10

def maxUllDigits : ℕ := 20

def printLL (flags : PrintFlags) (i : BitVec 64) : Put σ := printNumber putcharFunc flags i

def printI (flags : PrintFlags) (i : BitVec 32) : Put σ := printNumber putcharFunc flags i

/-- How many characters are written in front of the terminator of the digit buffer. -/
def bufferUse (flags : PrintFlags) {w : ℕ} (i : BitVec w) : ℕ :=
  if i = 0 then 0
  else
    (numberDigits flags i).length +
      if (signOf flags (isNegativeNumber flags i)).isSome && !signBeforePadding flags then 1 else 0

/-- The buffers have places for the digits, a sign and the terminator. -/
def staysInBuffer (flags : PrintFlags) {w : ℕ} (maxDigits : ℕ) (i : BitVec w) : Prop :=
  bufferUse flags i + 1 ≤ maxDigits + 2

/-! ### Floating point numbers -/

def llongMax : ℕ := 2 ^ 63 - 1

/-- Rounding to the nearest integer, and to the even one of two. -/
def llrint (q : ℚ) : ℤ :=
  if q - ⌊q⌋ < 1 / 2 then ⌊q⌋
  else if 1 / 2 < q - ⌊q⌋ then ⌊q⌋ + 1
  else if ⌊q⌋ % 2 = 0 then ⌊q⌋ else ⌊q⌋ + 1

/-- A loop that divides a large number, and counts up the exponent. -/
def normalise (divisor : ℕ) (step : ℕ) (ud : ℚ) (exponent : ℕ) : ℚ × ℕ :=
  if _h : 2 ≤ divisor ∧ (divisor : ℚ) ≤ ud then
    normalise divisor step (ud / divisor) (exponent + step)
  else (ud, exponent)
  termination_by ⌊ud⌋₊
  decreasing_by
    have hdivisor : (2 : ℚ) ≤ divisor := by exact_mod_cast _h.1
    rw [Nat.floor_div_natCast]
    exact Nat.div_lt_self (Nat.floor_pos.mpr (by linarith [_h.2])) _h.1

/-- The multiplication by 10 for each digit after the point, as long as the number stays small. -/
def scaleUp : ℕ → ℚ → ℕ → ℚ × ℕ
  | 0, ud, digitsAfterPoint => (ud, digitsAfterPoint)
  | n + 1, ud, digitsAfterPoint =>
    if ud < (llongMax / 10 : ℕ) then scaleUp n (ud * 10) (digitsAfterPoint + 1)
    else (ud, digitsAfterPoint)

/-- The digits with the point; the first argument bounds the turns of the loop. -/
def pointLoop : ℕ → ℤ → ℕ → List Char → List Char
  | 0, _, _, s => s
  | n + 1, digitsAfterPoint, u, s =>
    let s := if digitsAfterPoint = 0 then '.' :: s else s
    let s := digitOf 'a' (u % 10) :: s
    if u / 10 ≠ 0 ∨ 0 ≤ digitsAfterPoint - 1 then pointLoop n (digitsAfterPoint - 1) (u / 10) s
    else s

/-- The digits of the formats `f` and `F`; a number that is too big gets an exponent. -/
def floatDigits (flags : PrintFlags) (formatLetter : Char) (d : ℚ) : List Char :=
  let ud := |d|
  let big : Bool := (llongMax : ℚ) < ud
  let (ud, exponent) := if big then normalise 100000 5 ud 0 else (ud, 0)
  let (ud, exponent) := if big then normalise 10 1 ud exponent else (ud, exponent)
  let printLimit := if flags.printLimit < 0 then 6 else flags.printLimit.toNat
  let (ud, digitsAfterPoint) := scaleUp printLimit ud 0
  let u := (llrint ud).toNat
  let rounded := big && decide (10 ^ (digitsAfterPoint + 1) ≤ u)
  let u := if rounded then u / 10 else u
  let exponent := if rounded then exponent + 1 else exponent
  let s :=
    if big then
      (if formatLetter = 'f' then 'e' else 'E') :: '+' :: Nat.toDigits 10 exponent
    else []
  let digitsAfterPoint : ℤ :=
    if digitsAfterPoint = 0 ∧ !flags.hash then -1 else digitsAfterPoint
  pointLoop (u + digitsAfterPoint.toNat + 2) digitsAfterPoint u s

def printFloat (flags : PrintFlags) (d : ℚ) (formatLetter : Char) : Put σ :=
  putStringWithSign putcharFunc flags (floatDigits flags formatLetter d) (decide (d < 0))

end

/-! ### Formats -/

inductive Arg
  | int (i : BitVec 32)
  | longLong (i : BitVec 64)
  | double (d : ℚ)
  | string (s : Option (List Char))

/-- What `Print` calls for a directive. -/
inductive Call
  | printLL (flags : PrintFlags) (i : BitVec 64)
  | printI (flags : PrintFlags) (i : BitVec 32)
  | printFloat (flags : PrintFlags) (d : ℚ) (formatLetter : Char)
  | putString (flags : PrintFlags) (s : List Char)
  | putChar (c : Char)
  | nothing

def Call.run {σ : Type} (putcharFunc : σ → Char → Bool × σ) : Call → Put σ
  | printLL flags i => SafeVsnprintf.printLL putcharFunc flags i
  | printI flags i => SafeVsnprintf.printI putcharFunc flags i
  | printFloat flags d formatLetter => SafeVsnprintf.printFloat putcharFunc flags d formatLetter
  | putString flags s => SafeVsnprintf.putString putcharFunc flags s
  | putChar c => SafeVsnprintf.putChar putcharFunc c
  | nothing => done

/-- The digits of the call stay in their buffer. -/
def Call.inBuffer : Call → Prop
  | printLL flags i => staysInBuffer flags maxUllDigits i
  | printI flags i => staysInBuffer flags maxLongDigits i
  | _ => True

def flagChar (flags : PrintFlags) : Char → Option PrintFlags
  | '#' => some { flags with hash := true }
  | '-' => some { flags with padRight := true }
  | '0' => some { flags with padZero := true }
  | '+' => some { flags with forceSign := true }
  | ' ' => some { flags with signOrSpace := true }
  | _ => none

def readFlags (flags : PrintFlags) : List Char → PrintFlags × List Char
  | [] => (flags, [])
  | ch :: format =>
    match flagChar flags ch with
    | some flags => readFlags flags format
    | none => (flags, ch :: format)

def readNumber (n : ℕ) : List Char → ℕ × List Char
  | [] => (n, [])
  | ch :: format =>
    if ch.isDigit then readNumber (n * 10 + (ch.toNat - '0'.toNat)) format else (n, ch :: format)

/-- A number of the format, or the next argument for a star. -/
def readAmount (format : List Char) (args : List Arg) : Option (ℤ × List Char × List Arg) :=
  if format.head? = some '*' then
    match args with
    | .int i :: args => some (i.toInt, format.tail, args)
    | _ => none
  else some ((readNumber 0 format).1, (readNumber 0 format).2, args)

def readPrecision (flags : PrintFlags) (format : List Char) (args : List Arg) :
    Option (PrintFlags × List Char × List Arg) :=
  if format.head? = some '.' then
    (readAmount format.tail args).map fun (printLimit, format, args) =>
      ({ flags with printLimit := printLimit }, format, args)
  else some (flags, format, args)

def readLength (flags : PrintFlags) : List Char → PrintFlags × List Char
  | 'h' :: format => (flags, format)
  | 'l' :: 'l' :: format => ({ flags with long64 := true }, format)
  | 'l' :: format => ({ flags with long32 := true }, format)
  | format => (flags, format)

/-- The argument is a `long long` or an `int`. -/
def printInteger (flags : PrintFlags) : List Arg → Option (Call × List Arg)
  | .longLong i :: args => if flags.long64 then some (.printLL flags i, args) else none
  | .int i :: args => if flags.long64 then none else some (.printI flags i, args)
  | _ => none

/-- The conversion of an integer. Any other character prints nothing. -/
def printConversion (flags : PrintFlags) (ch : Char) (args : List Arg) :
    Option (Call × List Arg) :=
  let flags := { flags with base := 10, letBase := 'a' }
  if ch = 'd' ∨ ch = 'u' ∨ ch = 'i' then
    printInteger { flags with isSigned := ch ≠ 'u' } args
  else
    let flags := { flags with base := 16 }
    if ch = 'x' ∨ ch = 'X' ∨ ch = 'p' ∨ ch = 'o' then
      let flags :=
        if ch = 'X' then { flags with letBase := 'A' }
        else if ch = 'o' then { flags with base := 8 }
        else flags
      printInteger flags args
    else some (.nothing, args)

def printOther (flags : PrintFlags) (ch : Char) (format : List Char) (args : List Arg) :
    Option (Call × List Char × List Arg) :=
  if ch = 's' then
    match args with
    | .string s :: args =>
      some (.putString { flags with isString := true } (s.getD "<null>".toList), format, args)
    | _ => none
  else if ch = 'c' then
    match args with
    | .int i :: args =>
      let c := Char.ofNat (i.toNat % 256)
      some (if c ≠ '\x00' then .putChar c else .nothing, format, args)
    | _ => none
  else
    match readLength flags (ch :: format) with
    | (_, []) => none
    | (flags, ch :: format) =>
      (printConversion flags ch args).map fun (call, args) => (call, format, args)

/-- The part of a directive behind the precision. The formats `e` and `g` and the format `%.s` of
JSON strings are not modelled, nor are arguments of a wrong type. -/
def printArgument (flags : PrintFlags) : List Char → List Arg →
    Option (Call × List Char × List Arg)
  | [], _ => none
  | ch :: format, args =>
    if ch = 'f' ∨ ch = 'F' then
      match args with
      | .double d :: args => some (.printFloat flags d ch, format, args)
      | _ => none
    else
      -- A precision of 0 is treated the same as unlimited.
      printOther (if flags.printLimit = 0 then { flags with printLimit := -1 } else flags) ch
        format args

/-- A directive behind its percent sign. -/
def printDirective (format : List Char) (args : List Arg) :
    Option (Call × List Char × List Arg) :=
  let (flags, format) := readFlags {} format
  (readAmount format args).bind fun (width, format, args) =>
    (readPrecision { flags with width := width } format args).bind fun (flags, format, args) =>
      printArgument flags format args

/-- The loop over the format; the first argument bounds its turns. -/
def printLoop {σ : Type} (putcharFunc : σ → Char → Bool × σ) :
    ℕ → List Char → List Arg → Put σ
  | 0, _, _ => done
  | _, [], _ => done
  | n + 1, ch :: format, args =>
    if ch ≠ '%' then (putChar putcharFunc ch).andThen (printLoop putcharFunc n format args)
    else if format.head? = some '%' then
      (putChar putcharFunc '%').andThen (printLoop putcharFunc n format.tail args)
    else
      match printDirective format args with
      | some (call, format, args) =>
        (call.run putcharFunc).andThen (printLoop putcharFunc n format args)
      | none => done

/-- The printed length and the sink at the end. -/
def print {σ : Type} (putcharFunc : σ → Char → Bool × σ) (format : List Char) (args : List Arg)
    (sink : σ) : ℕ × σ :=
  let (_, printer) := printLoop putcharFunc format.length format args ⟨sink, 0⟩
  let (_, printer) := putChar putcharFunc '\x00' printer
  (printer.curLen, printer.sink)

/-- A sink that takes everything. -/
def collect (text : List Char) (c : Char) : Bool × List Char :=
  if c = '\x00' then (true, text) else (true, text ++ [c])

/-- All that is printed. -/
def printed (format : List Char) (args : List Arg) : List Char := (print collect format args []).2

/-- The characters in the buffer, and the room that is left with the place for the terminator. -/
def store (buffer : List Char × ℕ) (c : Char) : Bool × (List Char × ℕ) :=
  if c ≠ '\x00' ∧ 1 < buffer.2 then (true, (buffer.1 ++ [c], buffer.2 - 1)) else (false, buffer)

/-- What is in the buffer afterwards, and the printed length. -/
def safeVsnprintf (maxLen : ℕ) (format : List Char) (args : List Arg) : List Char × ℕ :=
  let (ret, buffer) := print store format args ([], maxLen)
  (buffer.1 ++ ['\x00'], ret)

example : printed "%7.3f,%d".toList [.double (-2469 / 200), .int 5] = "-12.345,5".toList := by
  decide +kernel

/-! ### Each part of the output is a text -/

section Texts

variable {σ : Type} {putc : σ → Char → Bool × σ} {flags : PrintFlags} {s t : List Char} {n : ℕ}
  {first second third : Put σ}

@[simp]
lemma done_andThen : (done : Put σ).andThen first = first := rfl

@[simp]
lemma andThen_done : first.andThen done = first := by
  funext printer
  rw [Put.andThen]
  split
  · next h => rw [h, done]
  · next h => exact h.symm

lemma andThen_assoc :
    (first.andThen second).andThen third = first.andThen (second.andThen third) := by
  funext printer
  simp only [Put.andThen]
  rcases first printer with ⟨_ | _, printer⟩
  · rfl
  · rfl

lemma putText_append : putText putc (s ++ t) = (putText putc s).andThen (putText putc t) := by
  induction s with
  | nil => rfl
  | cons c s ih => rw [List.cons_append, putText, putText, ih, andThen_assoc]

lemma putText_singleton (c : Char) : putText putc [c] = putChar putc c := andThen_done

lemma putRepeated_eq (c : Char) : putRepeated putc c n = putText putc (List.replicate n c) := by
  induction n with
  | zero => rfl
  | succ n ih => rw [putRepeated, ih, List.replicate_succ, putText]

def limited (flags : PrintFlags) (s : List Char) : List Char :=
  if 0 < flags.printLimit ∧ flags.isString then s.take flags.printLimit.toNat else s

def paddedText (flags : PrintFlags) (s : List Char) : List Char :=
  let pad := padding flags (limited flags s).length
  List.replicate pad.leftSpaces ' ' ++ (List.replicate pad.leftZeros '0' ++ (limited flags s ++
    List.replicate pad.rightSpaces ' '))

lemma putString_eq : putString putc flags s = putText putc (paddedText flags s) := by
  simp only [putString, paddedText, putRepeated_eq, putText_append]
  rfl

def signedText (flags : PrintFlags) (s : List Char) (isNegative : Bool) : List Char :=
  match signOf flags isNegative with
  | none => paddedText flags s
  | some sign =>
    if signBeforePadding flags then sign :: paddedText { flags with width := flags.width - 1 } s
    else paddedText flags (sign :: s)

lemma putStringWithSign_eq (isNegative : Bool) :
    putStringWithSign putc flags s isNegative = putText putc (signedText flags s isNegative) := by
  rw [putStringWithSign, signedText]
  split
  · exact putString_eq
  · split
    · rw [putString_eq, putText]
    · exact putString_eq

def prefixText (flags : PrintFlags) : List Char :=
  if flags.needPrefix then
    '0' :: if flags.base = 16 then [Char.ofNat (flags.letBase.toNat + ('X'.toNat - 'A'.toNat))]
      else []
  else []

lemma doPrefix_eq : doPrefix putc flags = putText putc (prefixText flags) := by
  rw [doPrefix, prefixText]
  split
  · split
    · rw [putText, putText_singleton]
    · rw [putText, putText]
  · rfl

def numberText (flags : PrintFlags) {w : ℕ} (i : BitVec w) : List Char :=
  let flags := { flags with isNumber := true }
  if i = 0 then paddedText flags ['0']
  else prefixText flags ++ signedText flags (numberDigits flags i) (isNegativeNumber flags i)

lemma printNumber_eq {w : ℕ} (i : BitVec w) :
    printNumber putc flags i = putText putc (numberText flags i) := by
  simp only [printNumber, numberText]
  split
  · exact putString_eq
  · rw [doPrefix_eq, putStringWithSign_eq, putText_append]

lemma printFloat_eq (d : ℚ) (formatLetter : Char) : printFloat putc flags d formatLetter =
    putText putc (signedText flags (floatDigits flags formatLetter d) (decide (d < 0))) :=
  putStringWithSign_eq _

end Texts

/-! ### Formats print texts -/

def Call.text : Call → List Char
  | printLL flags i => numberText flags i
  | printI flags i => numberText flags i
  | printFloat flags d formatLetter =>
    signedText flags (floatDigits flags formatLetter d) (decide (d < 0))
  | putString flags s => paddedText flags s
  | putChar c => [c]
  | nothing => []

def formatText : ℕ → List Char → List Arg → List Char
  | 0, _, _ => []
  | _, [], _ => []
  | n + 1, ch :: format, args =>
    if ch ≠ '%' then ch :: formatText n format args
    else if format.head? = some '%' then '%' :: formatText n format.tail args
    else
      match printDirective format args with
      | some (call, format, args) => call.text ++ formatText n format args
      | none => []

section Formats

variable {σ : Type} {putc : σ → Char → Bool × σ} {format : List Char} {args : List Arg} {n : ℕ}

lemma Call.run_eq (call : Call) : call.run putc = putText putc call.text := by
  cases call with
  | printLL flags i => exact printNumber_eq i
  | printI flags i => exact printNumber_eq i
  | printFloat flags d formatLetter => exact printFloat_eq d formatLetter
  | putString flags s => exact putString_eq
  | putChar c => exact (putText_singleton c).symm
  | nothing => rfl

lemma printLoop_eq : printLoop putc n format args = putText putc (formatText n format args) := by
  induction n generalizing format args with
  | zero => rfl
  | succ n ih =>
    cases format with
    | nil => rfl
    | cons ch format =>
      rw [printLoop, formatText]
      split
      · rw [ih, putText]
      · split
        · rw [ih, putText]
        · split
          · next call format args _ => rw [ih, call.run_eq, putText_append]
          · rfl

/-- A zero character stops the output. -/
def shown (s : List Char) : List Char := s.takeWhile fun c => c ≠ '\x00'

lemma shown_cons {c : Char} {s : List Char} (hc : c ≠ '\x00') : shown (c :: s) = c :: shown s :=
  List.takeWhile_cons_of_pos (decide_eq_true hc)

lemma shown_eq {s : List Char} (hs : '\x00' ∉ s) : shown s = s := by
  rw [shown, List.takeWhile_eq_self_iff]
  intro c hc
  exact decide_eq_true fun hzero => hs (hzero ▸ hc)

lemma shown_zero (s : List Char) : shown ('\x00' :: s) = [] := rfl

lemma putChar_collect {c : Char} (hc : c ≠ '\x00') (text : List Char) (n : ℕ) :
    putChar collect c ⟨text, n⟩ = (true, ⟨text ++ [c], n + 1⟩) := by
  simp [putChar, collect, hc]

lemma putText_collect (s text : List Char) (n : ℕ) :
    (putText collect s ⟨text, n⟩).2 = ⟨text ++ shown s, n + (shown s).length⟩ := by
  induction s generalizing text n with
  | nil => simp [putText, done, shown]
  | cons c s ih =>
    rw [putText, Put.andThen]
    by_cases hc : c = '\x00'
    · subst hc
      rw [shown_zero, List.append_nil]
      rfl
    · rw [putChar_collect hc, shown_cons hc]
      dsimp only
      rw [ih, List.append_assoc, List.length_cons, Nat.add_right_comm, Nat.add_assoc]
      rfl

lemma putChar_store {c : Char} (hc : c ≠ '\x00') (buffer : List Char) (room n : ℕ) :
    putChar store c ⟨(buffer, room + 2), n⟩ = (true, ⟨(buffer ++ [c], room + 1), n + 1⟩) := by
  simp [putChar, store, hc]

lemma putChar_store_full (c : Char) {room : ℕ} (hroom : ¬ (c ≠ '\x00' ∧ 1 < room))
    (buffer : List Char) (n : ℕ) :
    putChar store c ⟨(buffer, room), n⟩ = (false, ⟨(buffer, room), n⟩) := by
  rw [putChar, store, if_neg hroom]
  rfl

lemma putText_store (s buffer : List Char) (room n : ℕ) :
    (putText store s ⟨(buffer, room), n⟩).2.sink.1 = buffer ++ (shown s).take (room - 1) := by
  induction s generalizing buffer room n with
  | nil => simp [putText, done, shown]
  | cons c s ih =>
    rw [putText, Put.andThen]
    by_cases hroom : c ≠ '\x00' ∧ 1 < room
    · obtain ⟨k, rfl⟩ : ∃ k, room = k + 2 := ⟨room - 2, by omega⟩
      rw [putChar_store hroom.1, shown_cons hroom.1]
      dsimp only
      rw [ih, List.append_assoc]
      rfl
    · rw [putChar_store_full c hroom]
      dsimp only
      by_cases hc : c = '\x00'
      · rw [hc, shown_zero, List.take_nil, List.append_nil]
      · have hzero : room - 1 = 0 := by
          have hnot : ¬ 1 < room := fun h => hroom ⟨hc, h⟩
          omega
        rw [hzero, List.take_zero, List.append_nil]

lemma printed_eq : printed format args = shown (formatText format.length format args) := by
  rw [printed, print, printLoop_eq]
  dsimp only
  rw [putText_collect]
  rfl

/-- The buffer gets the beginning of what is printed, and a terminator. -/
lemma safeVsnprintf_stored (maxLen : ℕ) :
    (safeVsnprintf maxLen format args).1 = (printed format args).take (maxLen - 1) ++ ['\x00'] := by
  rw [safeVsnprintf, print, printLoop_eq, printed_eq]
  have hstored := putText_store (formatText format.length format args) [] maxLen 0
  rw [List.nil_append] at hstored
  rw [← hstored]
  rfl

end Formats

end RepRapFirmware.RRFLibraries.SafeVsnprintf
