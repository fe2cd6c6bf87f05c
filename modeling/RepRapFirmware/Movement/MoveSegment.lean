import Mathlib
import RepRapFirmware.Library.Kinematics
import RepRapFirmware.Library.Ticks

/-! The segments of a drive, and how a new segment is added to them. Distances and accelerations are
exact. -/

namespace RepRapFirmware.Movement.Segments

open Library.Ticks
open scoped Library.Kinematics

structure MovementFlags where
  nonPrintingMove : Bool
  checkEndstops : Bool
  noShaping : Bool
  executing : Bool
  isExtruder : Bool
  deriving DecidableEq, Repr

def MovementFlags.or (f g : MovementFlags) : MovementFlags where
  nonPrintingMove := f.nonPrintingMove || g.nonPrintingMove
  checkEndstops := f.checkEndstops || g.checkEndstops
  noShaping := f.noShaping || g.noShaping
  executing := f.executing || g.executing
  isExtruder := f.isExtruder || g.isExtruder

structure MoveSegment (α : Type) where
  flags : MovementFlags
  startTime : UInt32
  duration : UInt32
  distance : α
  a : α

variable {α : Type} [Field α]

namespace MoveSegment

def minDuration : ℤ := 10

def calcU (seg : MoveSegment α) : α :=
  seg.distance / seg.duration.toNat - 1 / 2 * seg.a * seg.duration.toNat

/-- The distance that the segment moves in its first `clocks`. -/
def firstDistance (seg : MoveSegment α) (clocks : UInt32) : α :=
  (seg.calcU + 1 / 2 * seg.a * clocks.toNat) * clocks.toNat

def split (seg : MoveSegment α) (firstDuration : UInt32) : MoveSegment α × MoveSegment α :=
  let firstDistance := seg.firstDistance firstDuration
  ({ seg with duration := firstDuration, distance := firstDistance },
    { seg with
      startTime := seg.startTime + firstDuration
      duration := seg.duration - firstDuration
      distance := seg.distance - firstDistance })

def merge (seg : MoveSegment α) (distance a : α) (flags : MovementFlags) : MoveSegment α :=
  { seg with
    distance := seg.distance + distance
    a := seg.a + a
    flags := seg.flags.or flags }

end MoveSegment

open MoveSegment

/-- What is printed when the new segment is delayed or shortened a little: its duration before and
after. -/
structure Adjusting where
  before : UInt32
  after : UInt32

/-- What is left of a new segment after a segment of the list has been dealt with. -/
structure Met (α : Type) where
  segments : List (MoveSegment α)
  left : Option (MoveSegment α)
  adjusting : List Adjusting

/-- Whether the new segment is long enough to be delayed or shortened. -/
def canAdjust (new : MoveSegment α) : Bool := decide (new.duration.toNat ≥ 10 * minDuration)

/-- A new segment that starts together with `seg` and is only slightly longer is shortened. -/
def shorten (seg new : MoveSegment α) : MoveSegment α × ℤ × List Adjusting :=
  let timeDifference := signedDiff new.duration seg.duration
  if timeDifference > 0 ∧ timeDifference ≤ minDuration ∧ canAdjust new then
    let duration := new.duration - UInt32.ofInt timeDifference
    ({ new with duration := duration }, 0, [⟨new.duration, duration⟩])
  else (new, timeDifference, [])

/-- The new segment starts together with `seg`, which may end earlier or later. -/
def overlap (before : List (MoveSegment α)) (seg new : MoveSegment α) : Met α :=
  let (new, timeDifference, adjusting) := shorten seg new
  if timeDifference > 0 then
    let firstDistance := new.firstDistance seg.duration
    ⟨before ++ [seg.merge firstDistance new.a new.flags],
      some { new with
        startTime := new.startTime + seg.duration
        duration := UInt32.ofInt timeDifference
        distance := new.distance - firstDistance },
      adjusting⟩
  else if timeDifference ≠ 0 then
    let (seg, rest) := seg.split new.duration
    ⟨before ++ [seg.merge new.distance new.a new.flags, rest], none, adjusting⟩
  else ⟨before ++ [seg.merge new.distance new.a new.flags], none, adjusting⟩

/-- The new segment starts `offset` clocks after `seg`, or together with it. -/
def meet (offset : ℤ) (seg new : MoveSegment α) : Met α :=
  if offset < seg.duration.toInt32.toInt then
    if offset ≠ 0 ∧ offset + minDuration ≥ seg.duration.toInt32.toInt ∧ canAdjust new then
      let startDelay := seg.duration - UInt32.ofInt offset
      let duration := new.duration - startDelay
      ⟨[seg], some { new with startTime := new.startTime + startDelay, duration := duration },
        [⟨new.duration, duration⟩]⟩
    else if offset ≠ 0 then
      let (first, seg) := seg.split (UInt32.ofInt offset)
      overlap [first] seg new
    else overlap [] seg new
  else ⟨[seg], some new, []⟩

/-- What the loop does with the segment `seg` of the list. -/
def meetOrPrecede (seg new : MoveSegment α) : Met α :=
  let offset := signedDiff new.startTime seg.startTime
  if offset < 0 then
    if offset ≥ -minDuration ∧ canAdjust new then
      let duration := UInt32.ofInt (new.duration.toInt32.toInt + offset)
      let met := meet 0 seg { new with startTime := seg.startTime, duration := duration }
      { met with adjusting := ⟨new.duration, duration⟩ :: met.adjusting }
    else
      -- part of the new segment goes before the existing one
      let firstDuration := UInt32.ofInt (-offset)
      let firstDistance := new.firstDistance firstDuration
      let met := meet 0 seg { new with
        startTime := new.startTime + firstDuration
        duration := new.duration - firstDuration
        distance := new.distance - firstDistance }
      { met with
        segments := { new with duration := firstDuration, distance := firstDistance }
          :: met.segments }
  else meet offset seg new

/-- Whether the new segment fits entirely before `seg`. -/
def fitsBefore (seg new : MoveSegment α) : Bool :=
  let offset := signedDiff new.startTime seg.startTime
  decide (offset < 0) && decide (offset + new.duration.toInt32.toInt ≤ 0)

def addToList : List (MoveSegment α) → MoveSegment α → List (MoveSegment α) × List Adjusting
  | [], new => ([new], [])
  | seg :: list, new =>
    if fitsBefore seg new then (new :: seg :: list, [])
    else
      let met := meetOrPrecede seg new
      match met.left with
      | none => (met.segments ++ list, met.adjusting)
      | some new =>
        let (list, adjusting) := addToList list new
        (met.segments ++ list, met.adjusting ++ adjusting)

/-- The list with the new segment, and what is printed on the way. -/
def addSegment (list : List (MoveSegment α)) (startTime duration : UInt32) (distance a : α)
    (moveFlags : MovementFlags) (pressureAdvanceClocksTimesDuration : α) :
    List (MoveSegment α) × List Adjusting :=
  addToList list
    { flags := moveFlags
      startTime := startTime
      duration := duration
      distance := distance + a * pressureAdvanceClocksTimesDuration
      a := a }

/-- A positive duration. -/
def hasDuration (seg : MoveSegment α) : Prop := 0 < seg.duration.toInt32.toInt

/-- The next segment starts when this one ends or later. -/
def doesNotOverlap (seg next : MoveSegment α) : Prop :=
  0 ≤ signedDiff next.startTime (seg.startTime + seg.duration)

instance : DecidablePred (@hasDuration α) :=
  fun seg => inferInstanceAs (Decidable (0 < seg.duration.toInt32.toInt))

instance : DecidableRel (@doesNotOverlap α) := fun seg next =>
  inferInstanceAs (Decidable (0 ≤ signedDiff next.startTime (seg.startTime + seg.duration)))

/-- No segment of the list is bad, as `CheckSegment` has it. -/
structure WellFormed (list : List (MoveSegment α)) : Prop where
  durations : ∀ seg ∈ list, hasDuration seg
  ordered : list.IsChain doesNotOverlap

end RepRapFirmware.Movement.Segments
