import Mathlib.Data.Rat.Floor
import RepRapFirmware.Movement.MoveSegment

/-! The execution of the segments of one drive. Lengths and accelerations are exact, and the times
of the steps are taken from outside, since nothing else depends on them but how many steps are made
at once. -/

namespace RepRapFirmware.Movement.Segments

open Library.Ticks

inductive DMState
  | idle | stepError | starting | ending | cartAccel | cartLinear | cartDecelNoReverse
  | cartDecelForwardsReversing | cartDecelReverse
  deriving DecidableEq, Repr

/-- What is known of a segment when it has been left behind. -/
structure SegmentEnd where
  length : ℚ
  steps : ℤ
  netSteps : ℤ
  position : ℤ
  carried : ℚ

/-- `ended`, `adjustments` and `errors` are history, the latest entry first: the segments left
behind, the corrections of a length, and the step errors logged. -/
structure DriveMovement where
  segments : List (MoveSegment ℚ)
  state : DMState
  direction : Bool
  directionChanged : Bool
  stepsTakenThisSegment : ℕ
  stepsTillRecalc : ℕ
  netStepsThisSegment : ℤ
  segmentStepLimit : ℤ
  reverseStartStep : ℤ
  segmentFlags : MovementFlags
  distanceCarriedForwards : ℚ
  currentMotorPosition : ℤ
  positionAtSegmentStart : ℤ
  movementAccumulator : ℤ
  nextStep : ℤ
  stepInterval : ℕ
  ended : List SegmentEnd
  adjustments : List ℚ
  errors : List ℕ

/-- The conversion of a number to an integer, towards zero. -/
def truncate (x : ℚ) : ℤ := if 0 ≤ x then ⌊x⌋ else ⌈x⌉

def stepClockRate : ℕ := 750000

def minCalcInterval : ℕ := 40 * stepClockRate / 1000000

def maximumMoveStartAdvanceClocks : ℤ := stepClockRate / 1000

namespace MovementFlags

def init : MovementFlags := ⟨true, false, false, false, false⟩

end MovementFlags

namespace MoveSegment

def setExecuting (seg : MoveSegment ℚ) : MoveSegment ℚ :=
  { seg with flags := { seg.flags with executing := true } }

def adjustLength (seg : MoveSegment ℚ) (adjustment : ℚ) : MoveSegment ℚ :=
  { seg with distance := seg.distance + adjustment }

/-- The segment without an acceleration that is too small, and the time at which the speed would be
zero if there is an acceleration. -/
def normaliseAndCheckLinear (seg : MoveSegment ℚ) : MoveSegment ℚ × Option ℚ :=
  if seg.a ≠ 0 then
    let provisionalT0 := 1 / 2 * seg.duration.toNat - seg.distance / (seg.a * seg.duration.toNat)
    if |provisionalT0| ≤ 4 * 16777216 then (seg, some provisionalT0) else ({ seg with a := 0 },
      none)
  else (seg, none)

end MoveSegment

/-- How a segment is going to be executed. -/
structure MotionPlan where
  state : DMState
  newDirection : Bool
  reverseStartStep : ℤ
  segmentStepLimit : ℤ

def multiplier (newDirection : Bool) : ℤ := if newDirection then 1 else -1

/-- A plan without reversal. -/
def oneWay (state : DMState) (newDirection : Bool) (netSteps : ℤ) : MotionPlan where
  state := state
  newDirection := newDirection
  reverseStartStep := 1 + netSteps * multiplier newDirection
  segmentStepLimit := 1 + netSteps * multiplier newDirection

/-- The plan for an accelerating or decelerating segment with zero speed at the time `t0`. -/
def planAccelerated (seg : MoveSegment ℚ) (t0 distanceCarriedForwards : ℚ) (netSteps : ℤ) :
    MotionPlan :=
  let newDirection := decide (0 ≤ seg.a)
  if t0 ≤ 0 then oneWay .cartAccel newDirection netSteps
  else
    -- the initial direction is opposite to the acceleration
    let newDirection := !newDirection
    let netStepsInInitialDirection := netSteps * multiplier newDirection
    if t0 < seg.duration.toNat then
      let rawDistanceToReverse : ℚ := -0.5 * seg.a * t0 ^ 2 + distanceCarriedForwards
      let distanceToReverse : ℚ := rawDistanceToReverse * multiplier newDirection
      let stepsBeforeReverse := truncate (distanceToReverse - 0.2)
      if stepsBeforeReverse ≤ netStepsInInitialDirection ∧ netStepsInInitialDirection ≥ 0 then
        oneWay .cartDecelNoReverse newDirection netSteps
      else if stepsBeforeReverse ≤ 0 then oneWay .cartAccel (!newDirection) netSteps
      else
        { state := .cartDecelForwardsReversing
          newDirection := newDirection
          reverseStartStep := stepsBeforeReverse + 1
          segmentStepLimit := 2 * (stepsBeforeReverse + 1) - netStepsInInitialDirection - 1 }
    else oneWay .cartDecelNoReverse newDirection netSteps

/-- The segment as it is executed, and the plan for it. -/
def plan (seg : MoveSegment ℚ) (distanceCarriedForwards : ℚ) (netSteps : ℤ) :
    MoveSegment ℚ × MotionPlan :=
  match seg.normaliseAndCheckLinear with
  | (seg, none) => (seg, oneWay .cartLinear (decide (0 ≤ seg.distance)) netSteps)
  | (seg, some t0) => (seg, planAccelerated seg t0 distanceCarriedForwards netSteps)

namespace DriveMovement

def init (position : ℤ) : DriveMovement where
  segments := []
  state := .idle
  direction := false
  directionChanged := false
  stepsTakenThisSegment := 0
  stepsTillRecalc := 0
  netStepsThisSegment := 0
  segmentStepLimit := 0
  reverseStartStep := 0
  segmentFlags := .init
  distanceCarriedForwards := 0
  currentMotorPosition := position
  positionAtSegmentStart := position
  movementAccumulator := 0
  nextStep := 0
  stepInterval := 0
  ended := []
  adjustments := []
  errors := []

def logStepError (type : ℕ) (dm : DriveMovement) : DriveMovement :=
  { dm with errors := type :: dm.errors }

def hadStepError (dm : DriveMovement) : Bool := !dm.errors.isEmpty

/-- Leaving a segment behind. -/
def recordEnd (dm : DriveMovement) (length : ℚ) : DriveMovement :=
  { dm with ended :=
      { length := length
        steps := dm.currentMotorPosition - dm.positionAtSegmentStart
        netSteps := dm.netStepsThisSegment
        position := dm.currentMotorPosition
        carried := dm.distanceCarriedForwards } :: dm.ended }

/-- Preparing a segment that is due. -/
def prepare (dm : DriveMovement) (p : MotionPlan) (netSteps : ℤ) : DriveMovement :=
  { dm with
    netStepsThisSegment := netSteps
    reverseStartStep := p.reverseStartStep
    segmentStepLimit := p.segmentStepLimit
    state := p.state
    nextStep := 1 }

def setDirection (dm : DriveMovement) (newDirection : Bool) : DriveMovement :=
  if newDirection ≠ dm.direction then { dm with directionChanged := true, direction :=
    newDirection }
  else dm

/-- Leaving a segment without steps behind. -/
def skip (dm : DriveMovement) (length : ℚ) : DriveMovement :=
  let newDcf := dm.distanceCarriedForwards + length
  if |newDcf| > 1 then
    recordEnd { dm.logStepError 7 with distanceCarriedForwards := max (-1) (min newDcf 1) } length
  else recordEnd { dm with distanceCarriedForwards := newDcf } length

/-- The loop of `NewSegment` over the segments. -/
def examine (now : UInt32) : List (MoveSegment ℚ) → DriveMovement → DriveMovement
  | [], dm => { dm with segments := [], segmentFlags := .init, state := .idle }
  | seg :: rest, dm =>
    let dm := { dm with segmentFlags := seg.flags }
    if signedDiff seg.startTime now > maximumMoveStartAdvanceClocks then
      { dm with segments := seg :: rest, state := .starting }
    else
      let netSteps := truncate (seg.distance + dm.distanceCarriedForwards)
      let (seg, p) := plan seg.setExecuting dm.distanceCarriedForwards netSteps
      let dm := dm.prepare p netSteps
      if 1 < p.segmentStepLimit then { dm.setDirection p.newDirection with segments := seg :: rest }
      else examine now rest (dm.skip seg.distance)

/-- Preparing the head segment. The drive is idle afterwards if there is none. -/
def newSegment (now : UInt32) (dm : DriveMovement) : DriveMovement :=
  examine now dm.segments { dm with positionAtSegmentStart := dm.currentMotorPosition }

/-- What the calculation of a step time comes to: a time that is not reasonable, or else the
interval
to the step before. -/
inductive StepTiming
  | unreasonable
  | interval (clocks : ℕ)

/-- The interval that is stored, except for the first step of a segment. -/
def storeInterval (dm : DriveMovement) : StepTiming → DriveMovement
  | .unreasonable => dm.logStepError 2
  | .interval clocks => if dm.nextStep = 1 then dm else { dm with stepInterval := clocks }

/-- The time of the next step, or of the last one of `2 ^ shiftFactor` steps. -/
def calcTime (t : StepTiming) (shiftFactor : ℕ) (dm : DriveMovement) : DriveMovement :=
  let dm := { dm with stepsTillRecalc := 2 ^ shiftFactor - 1 }
  match dm.state with
  | .cartLinear | .cartAccel | .cartDecelReverse | .cartDecelNoReverse => dm.storeInterval t
  | .cartDecelForwardsReversing =>
    if dm.nextStep + dm.stepsTillRecalc < dm.reverseStartStep then dm.storeInterval t
    else storeInterval { dm with
      direction := !dm.direction
      directionChanged := true
      state := .cartDecelReverse } t
  | .idle | .stepError | .starting | .ending => dm.logStepError 4

/-- One more or one less step, in place of a fraction of nearly a step. -/
def roundLastStep (dm : DriveMovement) (extra : Bool) (netSteps : ℤ) : DriveMovement :=
  if extra then
    { dm with
      netStepsThisSegment := netSteps
      segmentStepLimit := dm.segmentStepLimit + 1
      reverseStartStep :=
        if dm.reverseStartStep = dm.segmentStepLimit then dm.segmentStepLimit + 1
        else dm.reverseStartStep }
  else
    { dm with
      netStepsThisSegment := netSteps
      segmentStepLimit := dm.segmentStepLimit - 1 }

/-- Correcting the length of the segment that is executed. -/
def adjustLength (dm : DriveMovement) (adjustment : ℚ) : DriveMovement :=
  match dm.segments with
  | [] => dm
  | seg :: rest =>
    { dm with
      segments := seg.adjustLength adjustment :: rest
      adjustments := adjustment :: dm.adjustments }

/-- Whether the last step of an axis is about to be calculated, with no segment to follow. -/
def stopsSoon (dm : DriveMovement) (seg : MoveSegment ℚ) (rest : List (MoveSegment ℚ)) : Bool :=
  decide (dm.segmentStepLimit - dm.nextStep = 1) && rest.isEmpty && !seg.flags.isExtruder &&
    decide (dm.reverseStartStep ≠ dm.nextStep)

/-- What is left over when all steps of the segment have been taken. -/
def leftOver (dm : DriveMovement) (seg : MoveSegment ℚ) : ℚ :=
  dm.distanceCarriedForwards + seg.distance - dm.netStepsThisSegment

/-- Ending on an exact microstep. -/
def endOnMicrostep (dm : DriveMovement) (provisional : ℚ) : DriveMovement :=
  if |provisional| < 0.05 then dm.adjustLength (-provisional)
  else if provisional > 0.95 then
    let dm := dm.adjustLength (1 - provisional)
    if dm.direction then dm.roundLastStep true (dm.netStepsThisSegment + 1)
    else dm.roundLastStep false (dm.netStepsThisSegment - 1)
  else if provisional < -0.95 then
    let dm := dm.adjustLength (-1 - provisional)
    if dm.direction then dm.roundLastStep false (dm.netStepsThisSegment - 1)
    else dm.roundLastStep true (dm.netStepsThisSegment - 1)
  else dm

/-- Going on to the next segment when all steps of `seg` have been taken. -/
def finishSegment (now : UInt32) (t : StepTiming) (seg : MoveSegment ℚ)
    (rest : List (MoveSegment ℚ)) (dm : DriveMovement) : DriveMovement :=
  let dm : DriveMovement := { dm with distanceCarriedForwards := dm.leftOver seg }
  if |dm.distanceCarriedForwards| > 1 then dm.logStepError 5
  else if dm.currentMotorPosition - dm.positionAtSegmentStart ≠ dm.netStepsThisSegment then
    dm.logStepError 6
  else
    let prevEndTime := seg.startTime + seg.duration
    let dm := recordEnd { dm with
      movementAccumulator := dm.movementAccumulator + dm.netStepsThisSegment
      segments := rest } seg.distance
    let dm := dm.newSegment now
    match dm.segments with
    | [] => dm
    | next :: _ =>
      if dm.state = .starting then dm
      else if signedDiff next.startTime prevEndTime < -10 then dm.logStepError 1
      else calcTime t 0 { dm with stepsTakenThisSegment := 1 }

/-- The number of steps to the next change, from the third step of a segment on. -/
def stepsToChange (dm : DriveMovement) : ℤ :=
  if dm.reverseStartStep < dm.segmentStepLimit ∧ dm.nextStep ≤ dm.reverseStartStep then
    dm.reverseStartStep - dm.nextStep
  else dm.segmentStepLimit - dm.nextStep

def shiftFactor (dm : DriveMovement) : ℕ :=
  if dm.stepsToChange > 1 ∧ dm.stepInterval < minCalcInterval then
    if dm.stepInterval < minCalcInterval / 4 ∧ dm.stepsToChange > 8 then 3
    else if dm.stepInterval < minCalcInterval / 2 ∧ dm.stepsToChange > 4 then 2
    else if dm.stepsToChange > 2 then 1
    else 0
  else 0

/-- The part of `CalcNextStepTimeFull` that follows the check for the end of the motion. -/
def calcOrFinish (now : UInt32) (t : StepTiming) (dm : DriveMovement) : DriveMovement :=
  match dm.segments with
  | [] => dm
  | seg :: rest =>
    if dm.segmentStepLimit - dm.nextStep ≤ 0 then dm.finishSegment now t seg rest
    else if dm.stepsTakenThisSegment < 2 then
      calcTime t 0 { dm with stepsTakenThisSegment := dm.stepsTakenThisSegment + 1 }
    else dm.calcTime t dm.shiftFactor

def calcNextStepTimeFull (now : UInt32) (t : StepTiming) (dm : DriveMovement) : DriveMovement :=
  match dm.segments with
  | [] => dm
  | seg :: rest =>
    if dm.stopsSoon seg rest then (dm.endOnMicrostep (dm.leftOver seg)).calcOrFinish now t
    else dm.calcOrFinish now t

/-- The drive has taken a step. -/
def takeStep (dm : DriveMovement) : DriveMovement :=
  { dm with
    currentMotorPosition := dm.currentMotorPosition + multiplier dm.direction
    nextStep := dm.nextStep + 1 }

def calcNextStepTime (now : UInt32) (t : StepTiming) (dm : DriveMovement) : DriveMovement :=
  let dm := dm.takeStep
  if dm.stepsTillRecalc ≠ 0 then { dm with stepsTillRecalc := dm.stepsTillRecalc - 1 }
  else dm.calcNextStepTimeFull now t

/-- Preparing the head segment and calculating its first step, if it is due. -/
def start (now : UInt32) (t : StepTiming) (dm : DriveMovement) : DriveMovement :=
  let dm := dm.newSegment now
  if dm.state = .idle ∨ dm.state = .starting then dm else dm.calcNextStepTimeFull now t

def scheduleFirstSegment (now : UInt32) (t : StepTiming) (dm : DriveMovement) : DriveMovement :=
  start now t { dm with directionChanged := true }

/-- Setting the direction pins of a drive that goes on moving. -/
def reinsert (dm : DriveMovement) : DriveMovement :=
  if dm.state = .idle ∨ dm.state = .stepError then dm else { dm with directionChanged := false }

/-- The part of the step interrupt for this drive. -/
def interrupt (now : UInt32) (t : StepTiming) (dm : DriveMovement) : DriveMovement :=
  if dm.hadStepError then dm
  else
    match dm.state with
    | .idle | .stepError => dm
    | .starting => (dm.start now t).reinsert
    | _ => (dm.calcNextStepTime now t).reinsert

/-- A segment put at the end of the list, as `AddLinearSegments` does it. -/
def append (now : UInt32) (t : StepTiming) (seg : MoveSegment ℚ) (dm : DriveMovement) :
    DriveMovement :=
  let dm := { dm with segments := dm.segments ++ [seg] }
  if dm.state = .idle then { dm.scheduleFirstSegment now t with directionChanged := false } else dm

end DriveMovement

end RepRapFirmware.Movement.Segments
