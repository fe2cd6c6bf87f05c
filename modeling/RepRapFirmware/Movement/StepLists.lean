import Mathlib.Data.Fintype.Card
import RepRapFirmware.Library.LinkedLists
import RepRapFirmware.Movement.AddLinearSegments

/-! The lists of the drives that need steps, with phase stepping. The lists are linked through one
field of the drives, and a walk that does not end within the number of the drives never ends. -/

namespace RepRapFirmware.Movement.StepLists

open Segments Segments.DriveMovement InputShaping RepRapFirmware.Library.LinkedLists
open RepRapFirmware.Library.Ticks

/-- A drive without its link. `phaseStepping` stands for the state of that name, and with it
`motion.state` does not count. `stepMode` tells whether the drive is in the step mode `phase`. -/
structure DM where
  motion : DriveMovement
  phaseStepping : Bool
  stepMode : Bool
  nextStepTime : UInt32

namespace DM

def init (position : ℤ) (stepMode : Bool) : DM := ⟨.init position, false, stepMode, 0⟩

def isIdle (d : DM) : Bool := !d.phaseStepping && decide (d.motion.state = .idle)

def isStarting (d : DM) : Bool := !d.phaseStepping && decide (d.motion.state = .starting)

/-- The state is `firstMotionState` or a higher one. -/
def inMotion (d : DM) : Bool :=
  d.phaseStepping || !(decide (d.motion.state = .idle) || decide (d.motion.state = .stepError))

/-- When the interrupt is due, if the segment is not due to start for a while. -/
def startTime (m : DriveMovement) (nextStepTime : UInt32) : UInt32 :=
  match m.state, m.segments with
  | .starting, seg :: _ => seg.startTime
  | _, _ => nextStepTime

/-- Preparing the head segment of a drive with phase stepping. No segment is skipped. -/
def newPhaseSegment (now : UInt32) (d : DM) : DM :=
  let m := { d.motion with positionAtSegmentStart := d.motion.currentMotorPosition }
  match m.segments with
  | [] => { d with
      motion := { m with segmentFlags := .init, state := .idle }
      phaseStepping := false }
  | seg :: rest =>
    let m := { m with segmentFlags := seg.flags }
    if signedDiff seg.startTime now > maximumMoveStartAdvanceClocks then
      { d with
        motion := { m with state := .starting }
        phaseStepping := false
        nextStepTime := seg.startTime }
    else
      { d with
        motion := { m with
          segments := seg.setExecuting :: rest
          netStepsThisSegment := truncate (seg.distance + m.distanceCarriedForwards) }
        phaseStepping := true }

def newSegment (now : UInt32) (d : DM) : DM :=
  if d.stepMode then d.newPhaseSegment now
  else
    let m := d.motion.newSegment now
    { d with motion := m, phaseStepping := false, nextStepTime := startTime m d.nextStepTime }

/-- A step error has ended the calculation. An error of code 7, when a segment is skipped, does
not. -/
def stepFailed (before after : DriveMovement) : Bool :=
  decide (before.errors.length < after.errors.length) && decide (after.errors.head? ≠ some 7)

/-- `time` is the time of the next step, when it can be calculated. -/
def calcNextStepTimeFull (now : UInt32) (t : StepTiming) (time : UInt32) (d : DM) : DM :=
  let m := d.motion.calcNextStepTimeFull now t
  { d with
    motion := m
    nextStepTime :=
      if m.state = .starting then startTime m d.nextStepTime
      else if stepFailed d.motion m || decide (m.state = .idle) then d.nextStepTime
      else time }

def calcNextStepTime (now : UInt32) (t : StepTiming) (time : UInt32) (d : DM) : DM :=
  if d.motion.stepsTillRecalc ≠ 0 then
    { d with
      motion := d.motion.calcNextStepTime now t
      nextStepTime := d.nextStepTime + UInt32.ofNat d.motion.stepInterval }
  else calcNextStepTimeFull now t time { d with motion := d.motion.takeStep }

/-- With whether the drive is to be put into a list. -/
def scheduleFirstSegment (now : UInt32) (t : StepTiming) (time : UInt32) (d : DM) : Bool × DM :=
  let d := newSegment now { d with motion := { d.motion with directionChanged := true } }
  if d.isIdle then (false, d)
  else if d.isStarting then (true, d)
  else if d.phaseStepping then (false, d)
  else
    let d' := d.calcNextStepTimeFull now t time
    (!(stepFailed d.motion d'.motion || d'.isIdle), d')

/-- `PrepareForNextSteps`, for one drive. -/
def prepareForNextSteps (now : UInt32) (t : StepTiming) (time : UInt32) (d : DM) : DM :=
  if d.isStarting then
    let d := d.newSegment now
    if d.isIdle || d.isStarting || d.phaseStepping then d
    else
      let d := d.calcNextStepTimeFull now t time
      { d with motion := { d.motion with directionChanged := true } }
  else d.calcNextStepTime now t time

/-- The end of a segment with phase stepping, and the position rounded at the end of the motion of
an axis. -/
def finishPhaseSegment (seg : MoveSegment ℚ) (rest : List (MoveSegment ℚ)) (m : DriveMovement) :
    DriveMovement :=
  let position := m.positionAtSegmentStart + m.netStepsThisSegment
  let provisional := m.leftOver seg
  let (position, carried) : ℤ × ℚ :=
    if rest.isEmpty && !seg.flags.isExtruder then
      if |provisional| < 0.05 then (position, 0)
      else if provisional > 0.95 then (position + 1, 0)
      else if provisional < -0.95 then (position - 1, 0)
      else (position, provisional)
    else (position, provisional)
  { m with
    segments := rest
    currentMotorPosition := position
    movementAccumulator := m.movementAccumulator + m.netStepsThisSegment
    distanceCarriedForwards := carried }

/-- The loop of `GetCurrentMotion` over the segments. -/
def advancePhase (when : UInt32) : List (MoveSegment ℚ) → DM → DM
  | [], d => d
  | seg :: rest, d =>
    let timeSinceStart := signedDiff when seg.startTime
    if timeSinceStart < 0 then d
    else if timeSinceStart ≥ seg.duration.toNat then
      let d := newPhaseSegment when { d with motion := finishPhaseSegment seg rest d.motion }
      advancePhase when rest d
    else
      { d with motion := { d.motion with
        currentMotorPosition := truncate
          ((seg.calcU + seg.a * timeSinceStart / 2) * timeSinceStart +
            d.motion.positionAtSegmentStart + d.motion.distanceCarriedForwards) } }

def getCurrentMotion (when : UInt32) (d : DM) : DM :=
  if d.phaseStepping then advancePhase when d.motion.segments d else d

end DM

inductive ListHead
  | activeDMs | phaseStepDMs
  deriving DecidableEq

/-- `link` holds the heads of the lists and the field `nextDM` of the drives, and `adding` is the
call of `AddLinearSegments` that has broken off a tail. -/
structure Move (ι : Type) where
  dms : ι → DM
  link : Links ListHead ι
  adding : Option (ι × LinearMove × List (MoveSegment ℚ))

variable {ι : Type} [DecidableEq ι] [Fintype ι]

namespace Move

def init (dms : ι → DM) : Move ι := ⟨dms, fun _ => none, none⟩

def setDM (s : Move ι) (i : ι) (d : DM) : Move ι := { s with dms := Function.update s.dms i d }

/-- The list for a drive of this state. -/
def listOf (d : DM) : ListHead := if d.phaseStepping then .phaseStepDMs else .activeDMs

def turns (ι : Type) [Fintype ι] : ℕ := Fintype.card ι + 1

def insertDM (i : ι) (s : Move ι) : Option (Move ι) :=
  (follow s.link (fun j => decide (signedDiff (s.dms j).nextStepTime (s.dms i).nextStepTime < 0))
    (turns ι) (.inl (listOf (s.dms i)))).map fun before =>
      { s with link := insertAt s.link (endPlace (.inl (listOf (s.dms i))) before) i }

def deactivateDM (i : ι) (s : Move ι) : Option (Move ι) :=
  (follow s.link (fun j => decide (j ≠ i)) (turns ι) (.inl (listOf (s.dms i)))).map fun before =>
    let place := endPlace (.inl (listOf (s.dms i))) before
    match s.link place with
    | none => s
    | some _ =>
      { s.setDM i { s.dms i with motion := { (s.dms i).motion with state := .idle },
                                 phaseStepping := false } with
        link := removeAt s.link place i }

/-- The state is set before the drive is removed from its list. -/
def stopLogicalDrive (i : ι) (s : Move ι) : Option (Move ι) :=
  if (s.dms i).isIdle then some s
  else
    let idle := { s.dms i with
      motion := { (s.dms i).motion with state := .idle }
      phaseStepping := false }
    ((s.setDM i idle).deactivateDM i).map fun s =>
      s.setDM i { s.dms i with motion := { (s.dms i).motion with segments := [] } }

/-- The drives that `CheckEndstops` stops, one after the other. -/
def stopDrives : List ι → Move ι → Option (Move ι)
  | [], s => some s
  | i :: stopped, s => (s.stopLogicalDrive i).bind (stopDrives stopped)

def minInterruptInterval : ℤ := 6 * Segments.stepClockRate / 1000000

def due (now : UInt32) (s : Move ι) (i : ι) : Bool :=
  decide (signedDiff (s.dms i).nextStepTime now ≤ minInterruptInterval)

/-- The drives at the front of the list that need a step. -/
def dueDMs (now : UInt32) (s : Move ι) : Option (List ι) :=
  follow s.link (s.due now) (turns ι) (.inl .activeDMs)

def checksEndstops (s : Move ι) (drives : List ι) : Bool :=
  drives.any fun i => (s.dms i).motion.segmentFlags.checkEndstops

/-- The loop that puts the drives that have had a step back into the lists, up to the drive at
which the chain has been cut. -/
def reinsert (stopDm : Option ι) : ℕ → Option ι → Move ι → Option (Move ι)
  | 0, _, _ => none
  | turns + 1, dmToInsert, s =>
    if dmToInsert = stopDm then some s
    else
      match dmToInsert with
      | none => none
      | some i =>
        let nextToInsert := s.link (.inr i)
        if (s.dms i).inMotion then
          (insertDM i (s.setDM i { s.dms i with
            motion := { (s.dms i).motion with directionChanged := false } })).bind
              (reinsert stopDm turns nextToInsert)
        else reinsert stopDm turns nextToInsert s

/-- What comes from outside: the drives that the endstops stop and the time after that, and what the
calculation of the step times comes to for each drive. -/
structure StepInputs (ι : Type) where
  now : UInt32
  stopped : List ι
  later : UInt32
  timing : ι → StepTiming
  time : ι → UInt32

/-- `PrepareForNextSteps` for the drives of a chain. -/
def prepareForNextSteps (now : UInt32) (inp : StepInputs ι) (chain : List ι) (s : Move ι) :
    Move ι :=
  chain.foldl (fun s i =>
    s.setDM i ((s.dms i).prepareForNextSteps now (inp.timing i) (inp.time i))) s

/-- From the generation of the steps on. -/
def takeSteps (now : UInt32) (inp : StepInputs ι) (s : Move ι) : Option (Move ι) :=
  (s.dueDMs now).bind fun chain =>
    let dm := s.link (endPlace (.inl .activeDMs) chain)
    let s := s.prepareForNextSteps now inp chain
    let dmToInsert := s.link (.inl .activeDMs)
    { s with link := Function.update s.link (.inl .activeDMs) dm }.reinsert dm (turns ι) dmToInsert

def stepDrivers (inp : StepInputs ι) (s : Move ι) : Option (Move ι) :=
  (s.dueDMs inp.now).bind fun drives =>
    if s.checksEndstops drives then (s.stopDrives inp.stopped).bind (takeSteps inp.later inp)
    else s.takeSteps inp.now inp

/-- The loop over the list of the drives with phase stepping. -/
def controlPhases (now : UInt32) : ℕ → ListHead ⊕ ι → Move ι → Option (Move ι)
  | 0, _, _ => none
  | turns + 1, place, s =>
    match s.link place with
    | none => some s
    | some i =>
      let s := s.setDM i ((s.dms i).getCurrentMotion now)
      if (s.dms i).phaseStepping then controlPhases now turns (.inr i) s
      else
        let s := { s with link := removeAt s.link place i }
        if (s.dms i).inMotion then (s.insertDM i).bind (controlPhases now turns place)
        else controlPhases now turns place s

def phaseStepControlLoop (now : UInt32) (stopped : List ι) (s : Move ι) : Option (Move ι) :=
  (follow s.link (fun _ => true) (turns ι) (.inl .phaseStepDMs)).bind fun drives =>
    let moving := drives.filter fun i => (s.dms i).inMotion && !(s.dms i).isStarting
    ((if s.checksEndstops moving then s.stopDrives stopped else some s).bind
      (controlPhases now (turns ι) (.inl .phaseStepDMs)))

/-- The first critical section of `AddLinearSegments`. -/
def detach (i : ι) (m : LinearMove) (s : Move ι) : Move ι :=
  match s.adding with
  | some _ => s
  | none =>
    match breakOff m.startTime (s.dms i).motion.segments with
    | none => s.setDM i { s.dms i with motion := (s.dms i).motion.logStepError 3 }
    | some (kept, tail) =>
      { s.setDM i { s.dms i with motion := { (s.dms i).motion with segments := kept } } with
        adding := some (i, m, tail) }

/-- The drive with the segments of the move at the end of its list. -/
def joined (axisShaper : AxisShaper) (m : LinearMove) (tail : List (MoveSegment ℚ)) (d : DM) : DM :=
  { d with motion := { d.motion with segments := d.motion.segments ++ m.addTo axisShaper tail } }

/-- The second critical section. -/
def attach (axisShaper : AxisShaper) (now : UInt32) (t : StepTiming) (time : UInt32) (s : Move ι) :
    Option (Move ι) :=
  match s.adding with
  | none => some s
  | some (i, m, tail) =>
    let s := { s with adding := none }
    let d := joined axisShaper m tail (s.dms i)
    if d.isIdle then
      match d.scheduleFirstSegment now t time with
      | (false, d) => some (s.setDM i d)
      | (true, d) =>
        (s.setDM i { d with motion :=
          { d.motion with directionChanged :=
            d.motion.directionChanged && d.phaseStepping } }).insertDM i
    else some (s.setDM i d)

end Move

/-- What can happen. A step interrupt consists of calls of `StepDrivers`. -/
inductive Event (ι : Type)
  | detach (i : ι) (m : LinearMove)
  | attach (now : UInt32) (t : StepTiming) (time : UInt32)
  | stepDrivers (inp : Move.StepInputs ι)
  | stop (i : ι)
  | phaseStepControlLoop (now : UInt32) (stopped : List ι)

/-- There is no state after a loop that never ends. -/
def step (axisShaper : AxisShaper) (s : Option (Move ι)) (e : Event ι) : Option (Move ι) :=
  s.bind fun s =>
    match e with
    | .detach i m => some (s.detach i m)
    | .attach now t time => s.attach axisShaper now t time
    | .stepDrivers inp => s.stepDrivers inp
    | .stop i => s.stopLogicalDrive i
    | .phaseStepControlLoop now stopped => s.phaseStepControlLoop now stopped

end RepRapFirmware.Movement.StepLists
