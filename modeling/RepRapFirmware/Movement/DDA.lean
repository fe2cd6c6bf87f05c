import Mathlib
import RepRapFirmware.Library.Kinematics

/-! The queue of moves and its look-ahead. Speeds, distances and accelerations are exact, and the
square root is a parameter. -/

namespace RepRapFirmware.Movement.Lookahead

open scoped Library.Kinematics

inductive DDAState
  | provisional | committed
  deriving DecidableEq, Repr

inductive MovementError
  | ok | moveDurationTooLong
  deriving DecidableEq, Repr

variable {α : Type} [Field α] [LinearOrder α] {n : ℕ}

/-- The jerk settings. `SetInstantDv` accepts positive values only. -/
structure Jerk (α : Type) [Field α] [LinearOrder α] (n : ℕ) where
  jerkPolicy : ℕ
  printingInstantDv : Fin n → α
  maxInstantDv : Fin n → α
  positive : ∀ drive, 0 < printingInstantDv drive

/-- A move as `InitStandardMove` has it before it computes speeds. -/
structure StandardMove (α : Type) [Field α] [LinearOrder α] (n : ℕ) where
  directionVector : Fin n → α
  totalDistance : α
  maxAcceleration : α
  maxDeceleration : α
  requestedSpeed : α
  isPrintingMove : Bool
  xyMoving : Bool
  isNonPrintingExtruderMove : Bool
  canPauseAfter : Bool
  distance_pos : 0 < totalDistance
  acceleration_pos : 0 < maxAcceleration
  deceleration_pos : 0 < maxDeceleration
  speed_pos : 0 < requestedSpeed

structure DDA (α : Type) (n : ℕ) where
  state : DDAState
  directionVector : Fin n → α
  totalDistance : α
  maxAcceleration : α
  maxDeceleration : α
  requestedSpeed : α
  isPrintingMove : Bool
  xyMoving : Bool
  isNonPrintingExtruderMove : Bool
  canPauseAfter : Bool
  startSpeed : α
  endSpeed : α
  topSpeed : α
  accelDistance : α
  decelDistance : α
  targetNextSpeed : α

/-- The moves of a ring, the last one added first, and the number of look-ahead errors. -/
structure DDARing (α : Type) (n : ℕ) where
  queue : List (DDA α n)
  numLookaheadErrors : ℕ

def minimumAccelOrDecelClocks : α := 10

/-- The largest move duration, in step clocks. -/
def maxDuration : α := 2147483647 - 100

/-- Whether a move is or might have been intended to be a deceleration-only move. -/
def DDA.isDecelerationMove (d : DDA α n) : Bool :=
  decide (d.decelDistance = d.totalDistance) ||
    (decide (d.topSpeed < d.requestedSpeed) && decide (d.decelDistance > 0.98 * d.totalDistance))

/-- The speeds and distances of a move that reaches its requested speed. -/
def reachTopSpeed (d : DDA α n) : DDA α n :=
  if d.startSpeed ≥ d.endSpeed then
    if d.startSpeed + d.maxAcceleration * minimumAccelOrDecelClocks > d.requestedSpeed ∧
        d.startSpeed ≥ d.requestedSpeed * 0.9 then
      { d with topSpeed := d.startSpeed, accelDistance := 0 }
    else { d with topSpeed := d.requestedSpeed }
  else if d.endSpeed + d.maxDeceleration * minimumAccelOrDecelClocks > d.requestedSpeed ∧
      d.endSpeed ≥ d.requestedSpeed * 0.9 then
    { d with topSpeed := d.endSpeed, decelDistance := 0 }
  else { d with topSpeed := d.requestedSpeed }

/-- A move that only accelerates or only decelerates. Its limit is changed in place, and an error is
recorded when it is exceeded by more than rounding explains. -/
def singlePhase (d : DDA α n) : DDA α n × ℕ :=
  if d.startSpeed < d.endSpeed then
    let newAcceleration := (d.endSpeed ^ 2 - d.startSpeed ^ 2) / (2 * d.totalDistance)
    ({ d with
        accelDistance := d.totalDistance
        decelDistance := 0
        topSpeed := d.endSpeed
        maxAcceleration := newAcceleration },
      if newAcceleration > 1.02 * d.maxAcceleration then 1 else 0)
  else
    let newDeceleration := (d.startSpeed ^ 2 - d.endSpeed ^ 2) / (2 * d.totalDistance)
    ({ d with
        accelDistance := 0
        decelDistance := d.totalDistance
        topSpeed := d.startSpeed
        maxDeceleration := newDeceleration },
      if newDeceleration > 1.02 * d.maxDeceleration then 1 else 0)

/-- The top speed and the distances for given start and end speeds. -/
def computeProfile (fastSqrtf : α → α) (d : DDA α n) : DDA α n × ℕ :=
  let twoA := 2 * d.maxAcceleration
  let twoD := 2 * d.maxDeceleration
  let accelDistance := (d.requestedSpeed ^ 2 - d.startSpeed ^ 2) / twoA
  let decelDistance := (d.requestedSpeed ^ 2 - d.endSpeed ^ 2) / twoD
  if accelDistance + decelDistance < d.totalDistance then
    (reachTopSpeed { d with accelDistance := accelDistance, decelDistance := decelDistance }, 0)
  else
    let vsquared := (twoA * twoD * d.totalDistance + twoA * d.endSpeed ^ 2 +
      twoD * d.startSpeed ^ 2) / (twoA + twoD)
    if vsquared > d.startSpeed ^ 2 ∧ vsquared > d.endSpeed ^ 2 then
      ({ d with
          accelDistance := (vsquared - d.startSpeed ^ 2) / twoA
          decelDistance := (vsquared - d.endSpeed ^ 2) / twoD
          topSpeed := fastSqrtf vsquared }, 0)
    else singlePhase d

def setCanPauseAfter (k : Jerk α n) (d : DDA α n) : DDA α n :=
  if d.canPauseAfter ∧ d.endSpeed ≠ 0 then
    { d with canPauseAfter := (List.finRange n).all fun drive =>
        decide (d.endSpeed * |d.directionVector drive| ≤ k.maxInstantDv drive) }
  else d

def DDA.totalTime (d : DDA α n) : α :=
  (d.topSpeed - d.startSpeed) / d.maxAcceleration + (d.topSpeed - d.endSpeed) / d.maxDeceleration +
    (d.totalDistance - d.accelDistance - d.decelDistance) / d.topSpeed

/-- The move, the number of errors recorded, and whether the move is short enough. -/
def recalculateMove (k : Jerk α n) (fastSqrtf : α → α) (d : DDA α n) :
    DDA α n × ℕ × MovementError :=
  let (d, errors) := computeProfile fastSqrtf d
  let d := setCanPauseAfter k d
  (d, errors, if d.totalTime < maxDuration then .ok else .moveDurationTooLong)

/-- The speed that a junction allows, starting from the one that is wanted. -/
def matchSpeeds (k : Jerk α n) (d : DDA α n) (next : Fin n → α) : DDA α n :=
  { d with targetNextSpeed := (List.finRange n).foldl (fun target drive =>
      if d.directionVector drive ≠ 0 ∨ next drive ≠ 0 then
        let totalFraction := |d.directionVector drive - next drive|
        if totalFraction * target > k.printingInstantDv drive then
          k.printingInstantDv drive / totalFraction
        else target
      else target) d.targetNextSpeed }

/-- Taking over the end speed that has been found, on the way to later moves. -/
def adjustEnd (k : Jerk α n) (fastSqrtf : α → α) (d : DDA α n) : DDA α n × ℕ :=
  let (d, errors) :=
    if d.targetNextSpeed < d.endSpeed then
      (d, if d.targetNextSpeed < d.endSpeed * 0.99 then 1 else 0)
    else ({ d with endSpeed := d.targetNextSpeed }, 0)
  let (d, errors', _) := recalculateMove k fastSqrtf d
  (d, errors + errors')

/-- Whether the walk to earlier moves goes on from a move to the one before it. -/
def canAdjust (k : Jerk α n) (la prev : DDA α n) : Bool :=
  la.isDecelerationMove && decide (prev.decelDistance > 0) && prev.state == .provisional &&
    (k.jerkPolicy != 0 || (prev.xyMoving == la.xyMoving &&
      (prev.isPrintingMove == la.isPrintingMove ||
        (prev.isPrintingMove && decide (prev.requestedSpeed = la.requestedSpeed)))))

/-- The highest end speed that a move reaches from its start speed. -/
def DDA.reachable (fastSqrtf : α → α) (d : DDA α n) : α :=
  fastSqrtf (d.startSpeed ^ 2 + 2 * d.maxAcceleration * d.totalDistance)

/-- The end of the walk to earlier moves, at a move whose target is final but for the jerk limits.
-/
def turn (k : Jerk α n) (fastSqrtf : α → α) (next : Fin n → α) (la : DDA α n)
    (older : List (DDA α n)) : List (DDA α n) × ℕ :=
  let (la, errors) := adjustEnd k fastSqrtf (matchSpeeds k la next)
  (la :: older, errors)

/-- The end of the walk at a move below its top speed, which may not reach its target. -/
def turnBelowTop (k : Jerk α n) (fastSqrtf : α → α) (next : Fin n → α) (la : DDA α n)
    (older : List (DDA α n)) : List (DDA α n) × ℕ :=
  turn k fastSqrtf next { la with
    targetNextSpeed :=
      if la.targetNextSpeed > la.reachable fastSqrtf then la.reachable fastSqrtf
      else la.targetNextSpeed } older

/-- Raising the end speed of the first move of the list towards a target, so that a move with the
direction vector `next` can follow. The walk to earlier moves is the recursion, the walk back to
later moves is what is done after it. -/
def doLookahead (k : Jerk α n) (fastSqrtf : α → α) :
    α → (Fin n → α) → List (DDA α n) → List (DDA α n) × ℕ
  | _, _, [] => ([], 0)
  | target, next, la :: older =>
    let la := { la with
      targetNextSpeed := if target > la.requestedSpeed then la.requestedSpeed else target }
    if la.topSpeed ≥ la.requestedSpeed then turn k fastSqrtf next la older
    else
      match older with
      | [] => turnBelowTop k fastSqrtf next la []
      | prev :: earlier =>
        if canAdjust k la prev then
          let la := matchSpeeds k la next
          let maxStartSpeed :=
            fastSqrtf (la.targetNextSpeed ^ 2 + 2 * la.maxDeceleration * la.totalDistance)
          let (older, errors) := doLookahead k fastSqrtf (min maxStartSpeed la.requestedSpeed)
            la.directionVector (prev :: earlier)
          let la := { la with startSpeed := (older.headD prev).endSpeed }
          let la := { la with
            targetNextSpeed :=
              if la.reachable fastSqrtf < la.targetNextSpeed then la.reachable fastSqrtf
              else la.targetNextSpeed }
          let (la, errors') := adjustEnd k fastSqrtf la
          (la :: older, errors + errors')
        else turnBelowTop k fastSqrtf next la (prev :: earlier)

/-! ### The ring -/

/-- A move before its speeds are computed. -/
def DDA.ofMove (m : StandardMove α n) : DDA α n where
  state := .provisional
  directionVector := m.directionVector
  totalDistance := m.totalDistance
  maxAcceleration := m.maxAcceleration
  maxDeceleration := m.maxDeceleration
  requestedSpeed := m.requestedSpeed
  isPrintingMove := m.isPrintingMove
  xyMoving := m.xyMoving
  isNonPrintingExtruderMove := m.isNonPrintingExtruderMove
  canPauseAfter := m.canPauseAfter
  startSpeed := 0
  endSpeed := 0
  topSpeed := 0
  accelDistance := 0
  decelDistance := 0
  targetNextSpeed := 0

/-- Whether a move can be melded with the end of the previous one. -/
def melds (k : Jerk α n) (m : StandardMove α n) (prev : DDA α n) : Bool :=
  prev.state == .provisional && (k.jerkPolicy != 0 ||
    (m.isPrintingMove == prev.isPrintingMove && m.xyMoving == prev.xyMoving &&
      m.isNonPrintingExtruderMove == prev.isNonPrintingExtruderMove))

/-- The queue and the start speed for a new move, and the errors recorded. -/
def meld (k : Jerk α n) (fastSqrtf : α → α) (m : StandardMove α n) :
    List (DDA α n) → List (DDA α n) × α × ℕ
  | [] => ([], 0, 0)
  | prev :: older =>
    if melds k m prev then
      let target := min (fastSqrtf (m.maxDeceleration * m.totalDistance * 2)) m.requestedSpeed
      let (queue, errors) := doLookahead k fastSqrtf target m.directionVector (prev :: older)
      (queue, (queue.headD prev).endSpeed, errors)
    else (prev :: older, 0, 0)

/-- Adding a move: the ring, and whether the move is in it. -/
def addStandardMove (k : Jerk α n) (fastSqrtf : α → α) (r : DDARing α n) (m : StandardMove α n) :
    DDARing α n × MovementError :=
  let (queue, startSpeed, errors) := meld k fastSqrtf m r.queue
  let (d, errors', rslt) := recalculateMove k fastSqrtf { DDA.ofMove m with startSpeed :=
    startSpeed }
  let numLookaheadErrors := r.numLookaheadErrors + errors + errors'
  match rslt with
  | .ok => (⟨d :: queue, numLookaheadErrors⟩, .ok)
  | .moveDurationTooLong => (⟨queue, numLookaheadErrors⟩, .moveDurationTooLong)

/-- Committing the oldest provisional move. -/
def commitOldest : List (DDA α n) → List (DDA α n)
  | [] => []
  | d :: older =>
    if older.any fun e => e.state == .provisional then d :: commitOldest older
    else { d with state := .committed } :: older

end RepRapFirmware.Movement.Lookahead
