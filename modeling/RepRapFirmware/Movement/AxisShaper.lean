import Mathlib.Algebra.BigOperators.Group.Finset.Basic
import Mathlib.Data.Rat.Floor
import Mathlib.Tactic
import RepRapFirmware.Library.Buffers

/-! The input shaper and the command that configures it. Lengths, amplitudes and the shaper's
parameters are exact; what the mathematical library computes is a parameter. -/

namespace RepRapFirmware.Movement.InputShaping

open RepRapFirmware.Library.Buffers

def stepClockRate : ℕ := 750000

def usualMinimumPreparedTime : ℕ := stepClockRate / 20

def absoluteMinimumPreparedTime : ℕ := stepClockRate / 40

def maxImpulses : ℕ := 5

/-- The library functions, with the `Pi` the firmware uses. -/
structure MathLibrary where
  fastSqrtf : ℚ → ℚ
  sqrtf : ℚ → ℚ
  expf : ℚ → ℚ
  pi : ℚ

/-- The nearest integer, the even one of two. -/
def lrintf (x : ℚ) : ℤ :=
  if 2 * (x - ⌊x⌋) = 1 ∧ ⌊x⌋ % 2 = 0 then ⌊x⌋ else ⌊x + 1 / 2⌋

/-- The conversion to a 32-bit unsigned integer. -/
def toUnsigned (z : ℤ) : ℕ := (z % 2 ^ 32).toNat

inductive InputShaperType
  | custom | ei2 | ei3 | mzv | none | zvd | zvdd | zvddd
  deriving DecidableEq, Repr

def InputShaperType.lookup : String → Option InputShaperType
  | "custom" => some .custom
  | "ei2" => some .ei2
  | "ei3" => some .ei3
  | "mzv" => some .mzv
  | "none" => some .none
  | "zvd" => some .zvd
  | "zvdd" => some .zvdd
  | "zvddd" => some .zvddd
  | _ => Option.none

structure AxisShaper where
  type : InputShaperType
  frequency : ℚ
  zeta : ℚ
  numImpulses : ℕ
  coefficients : ℕ → ℚ
  delays : ℕ → ℕ
  shapingTime : ℕ
  prepareAdvanceTime : ℕ

def AxisShaper.initial : AxisShaper where
  type := .none
  frequency := 40
  zeta := 1 / 20
  numImpulses := 1
  coefficients := fun _ => 1
  delays := fun _ => 0
  shapingTime := 0
  prepareAdvanceTime := usualMinimumPreparedTime

/-! ### The command -/

/-- A parameter as the parser finds it, with the parser's message where its value cannot be read. -/
inductive Param (α : Type)
  | absent
  | malformed (message : String)
  | given (value : α)

/-- A list parameter: the elements stored before the parser is done or throws. No more are ever
stored than the receiving array holds, and a list that is read to its end is not empty. -/
structure FloatArray where
  stored : List ℚ
  thrown : Option String
  fits : stored.length ≤ maxImpulses - 1
  nonempty : thrown = Option.none → stored ≠ []

/-- What `M593` brings along: its parameters, whether all movement has stopped and is locked, and
the reply of an expansion board that refuses the new shaper. -/
structure M593 where
  locked : Bool := true
  F : Param ℚ := .absent
  S : Param ℚ := .absent
  P : Param String := .absent
  H : Option FloatArray := Option.none
  T : Option FloatArray := Option.none
  refusal : Option String := Option.none

inductive Outcome
  | ok
  | notFinished
  | error (reply : String)
  | thrown (message : String)
  deriving DecidableEq, Repr

/-- The results that report a failure; a command that is not finished is called again. -/
def Outcome.failed : Outcome → Bool
  | .ok | .notFinished => false
  | .error _ | .thrown _ => true

def Param.seen {α : Type} : Param α → Bool
  | .absent => false
  | .malformed _ | .given _ => true

def M593.seenAny (c : M593) : Bool :=
  c.F.seen || c.S.seen || c.P.seen || c.H.isSome || c.T.isSome

def tryGetLimitedFValue (letter : String) (p : Param ℚ) (val : ℚ) (seen : Bool)
    (minValue maxValue : ℚ) : Except String (ℚ × Bool) :=
  match p with
  | .absent => .ok (val, seen)
  | .malformed message => .error message
  | .given v =>
    if v < minValue then .error ("parameter '" ++ letter ++ "' too low")
    else if v > maxValue then .error ("parameter '" ++ letter ++ "' too high")
    else .ok (v, true)

/-- The elements that `GetFloatArray` leaves in an array it may fill up with a single one. -/
def padded : List ℚ → List ℚ
  | [x] => List.replicate (maxImpulses - 1) x
  | l => l

/-! ### The shapers -/

/-- The amplitudes without the last one and the delays without the first one. -/
structure Impulses where
  amplitudes : List ℚ
  delays : List ℕ
  same : amplitudes.length = delays.length

def sqrtOneMinusZetaSquared (m : MathLibrary) (zeta : ℚ) : ℚ := m.fastSqrtf (1 - zeta ^ 2)

def dampedPeriod (m : MathLibrary) (frequency zeta : ℚ) : ℕ :=
  toUnsigned (lrintf (stepClockRate / (frequency * sqrtOneMinusZetaSquared m zeta)))

def u32 (n : ℕ) : ℕ := n % 2 ^ 32

def mzv (m : MathLibrary) (zeta : ℚ) (dampedPeriod : ℕ) : Impulses :=
  let kMzv := m.expf (-zeta * (3 / 4) * m.pi / sqrtOneMinusZetaSquared m zeta)
  let a1 := 1 - 1 / 2 * m.sqrtf 2
  let a2 := (m.sqrtf 2 - 1) * kMzv
  let a3 := a1 * kMzv ^ 2
  let sum := a1 + a2 + a3
  let delay := u32 (3 * dampedPeriod) / 8
  ⟨[a3 / sum, a2 / sum], [delay, u32 (2 * delay)], rfl⟩

def zvd (k : ℚ) (dampedPeriod : ℕ) : Impulses :=
  let j := (1 + k) ^ 2
  ⟨[1 / j, 2 * k / j], [dampedPeriod / 2, dampedPeriod], rfl⟩

def zvdd (k : ℚ) (dampedPeriod : ℕ) : Impulses :=
  let j := (1 + k) ^ 3
  ⟨[1 / j, 3 * k / j, 3 * k ^ 2 / j],
    [dampedPeriod / 2, dampedPeriod, u32 (3 * dampedPeriod) / 2], rfl⟩

def zvddd (k : ℚ) (dampedPeriod : ℕ) : Impulses :=
  let j := ((1 + k) ^ 2) ^ 2
  ⟨[1 / j, 4 * k / j, 6 * k ^ 2 / j, 4 * k ^ 3 / j],
    [dampedPeriod / 2, dampedPeriod, u32 (3 * dampedPeriod) / 2, u32 (2 * dampedPeriod)], rfl⟩

/-- A polynomial of the damping, as the two extra-insensitive shapers use them. -/
def cubic (a b c d zeta : ℚ) : ℚ := a + b * zeta + c * zeta ^ 2 + d * (zeta ^ 2 * zeta)

def periods (x : ℚ) (dampedPeriod : ℕ) : ℕ := toUnsigned (lrintf (x * dampedPeriod))

def ei2 (zeta : ℚ) (dampedPeriod : ℕ) : Impulses :=
  ⟨[cubic 0.16054 0.76699 2.26560 (-1.22750) zeta,
      cubic 0.33911 0.45081 (-2.58080) 1.73650 zeta,
      cubic 0.34089 (-0.61533) (-0.68765) 0.42261 zeta],
    [periods (cubic 0.49890 0.16270 (-0.54262) 6.16180 zeta) dampedPeriod,
      periods (cubic 0.99748 0.18382 (-1.58270) 8.17120 zeta) dampedPeriod,
      periods (cubic 1.49920 (-0.09297) (-0.28338) 1.85710 zeta) dampedPeriod], rfl⟩

def ei3 (zeta : ℚ) (dampedPeriod : ℕ) : Impulses :=
  ⟨[cubic 0.11275 0.76632 3.29160 (-1.44380) zeta,
      cubic 0.23698 0.61164 (-2.57850) 4.85220 zeta,
      cubic 0.30008 (-0.19062) (-2.14560) 0.13744 zeta,
      cubic 0.23775 (-0.73297) 0.46885 (-2.08650) zeta],
    [periods (cubic 0.49974 0.23834 0.44559 12.4720 zeta) dampedPeriod,
      periods (cubic 0.99849 0.29808 (-2.36460) 23.3990 zeta) dampedPeriod,
      periods (cubic 1.49870 0.10306 (-2.01390) 17.0320 zeta) dampedPeriod,
      periods (cubic 1.99960 (-0.28231) 0.61536 5.40450 zeta) dampedPeriod], rfl⟩

/-- The shapers that the damped period and the damping determine. -/
def namedImpulses (m : MathLibrary) (type : InputShaperType) (frequency zeta : ℚ) : Impulses :=
  let period := dampedPeriod m frequency zeta
  let k := m.expf (-zeta * m.pi / sqrtOneMinusZetaSquared m zeta)
  match type with
  | .none | .custom => ⟨[], [], rfl⟩
  | .mzv => mzv m zeta period
  | .zvd => zvd k period
  | .zvdd => zvdd k period
  | .zvddd => zvddd k period
  | .ei2 => ei2 zeta period
  | .ei3 => ei3 zeta period

/-! ### Configuring -/

/-- The loop over the impulses before the last one: the sum of their amplitudes, and the longest
interval as the code measures it, from the second impulse on. -/
def tally (s : AxisShaper) : ℕ → ℚ × ℕ
  | 0 => (0, 0)
  | i + 1 =>
    let (sum, longestSegment) := tally s i
    let thisInterval := (s.delays (i + 1) + 2 ^ 32 - s.delays 1) % 2 ^ 32
    (sum + s.coefficients i, if thisInterval > longestSegment then thisInterval else longestSegment)

/-- The values derived from the impulses. -/
def derive (s : AxisShaper) : AxisShaper :=
  let (sum, longestSegment) := tally s (s.numImpulses - 1)
  { s with
    coefficients := Function.update s.coefficients (s.numImpulses - 1) (1 - sum)
    shapingTime := s.delays (s.numImpulses - 1)
    prepareAdvanceTime :=
      max (u32 (longestSegment + absoluteMinimumPreparedTime)) usualMinimumPreparedTime }

def withImpulses (s : AxisShaper) (p : Impulses) : AxisShaper :=
  derive { s with
    coefficients := store s.coefficients 0 p.amplitudes
    delays := store s.delays 1 p.delays
    numImpulses := p.delays.length + 1 }

def updateRemoteInputShaping (c : M593) : Outcome :=
  match c.refusal with
  | Option.none => .ok
  | some reply => .error reply

def missing (letter : String) : String := "missing parameter '" ++ letter ++ "'"

def differentCounts : String := "Number of delays must be same as number of amplitudes"

def toClocks (seconds : ℚ) : ℕ := toUnsigned (lrintf (seconds * stepClockRate))

/-- The delays of a custom shaper for which none are given. -/
def defaultDelays (period numAmplitudes : ℕ) : List ℕ :=
  (List.range numAmplitudes).map fun i => u32 (period * (i + 1)) / 2

/-- The custom shaper. The amplitudes are stored in the live array while they are parsed. -/
def configureCustom (s : AxisShaper) (c : M593) (period : ℕ) : AxisShaper × Outcome :=
  match c.H with
  | Option.none => (s, .thrown (missing "H"))
  | some h =>
    let s := { s with coefficients := store s.coefficients 0 h.stored }
    match h.thrown with
    | some message => (s, .thrown message)
    | Option.none =>
      match c.T with
      | Option.none =>
        (withImpulses s ⟨h.stored, defaultDelays period h.stored.length, by simp [defaultDelays]⟩,
          updateRemoteInputShaping c)
      | some t =>
        match t.thrown with
        | some message => (s, .thrown message)
        | Option.none =>
          if heq : h.stored.length = (padded t.stored).length then
            (withImpulses s ⟨h.stored, (padded t.stored).map toClocks, by simpa using heq⟩,
              updateRemoteInputShaping c)
          else ({ s with type := .none }, .error differentCounts)

/-- What happens once the type, the frequency and the damping are stored. -/
def setImpulses (m : MathLibrary) (s : AxisShaper) (c : M593) : AxisShaper × Outcome :=
  let s := { s with
    delays := Function.update s.delays 0 0
    coefficients := Function.update s.coefficients 0 1 }
  match s.type with
  | .custom => configureCustom s c (dampedPeriod m s.frequency s.zeta)
  | type =>
    (withImpulses s (namedImpulses m type s.frequency s.zeta), updateRemoteInputShaping c)

/-- A shaper gets the default type when a parameter is set while it is disabled. -/
def enable (type : InputShaperType) : InputShaperType :=
  if type = .none then .zvd else type

def configure (m : MathLibrary) (s : AxisShaper) (c : M593) : AxisShaper × Outcome :=
  if c.seenAny && !c.locked then (s, .notFinished)
  else
    match tryGetLimitedFValue "F" c.F s.frequency false 4 400 with
    | .error message => (s, .thrown message)
    | .ok (frequency, seen) =>
      let s := { s with frequency := frequency }
      match tryGetLimitedFValue "S" c.S s.zeta seen 0 0.99 with
      | .error message => (s, .thrown message)
      | .ok (zeta, seen) =>
        let s := { s with zeta := zeta }
        match c.P with
        | .malformed message => (s, .thrown message)
        | .given shaperName =>
          match InputShaperType.lookup shaperName with
          | Option.none => (s, .error ("Unknown input shaper type '" ++ shaperName ++ "'"))
          | some newType => setImpulses m { s with type := newType } c
        | .absent =>
          if seen then setImpulses m { s with type := enable s.type } c else (s, .ok)

/-- The steps that adding a move commands for a drive, one share for each impulse. -/
def commandedSteps (s : AxisShaper) (steps : ℚ) : ℚ :=
  ((List.range s.numImpulses).map fun index => s.coefficients index * steps).sum

end RepRapFirmware.Movement.InputShaping
