import Mathlib.LinearAlgebra.AffineSpace.AffineMap
import Mathlib.Tactic

/-! Handing straight moves to the movement task segment by segment,
  in exact arithmetic. Arc moves are
left out; axes and extruders are those of the machine. -/

namespace RepRapFirmware.GCodes

/-- A move as the movement task gets it: where the axes go, and what the extruders extrude. -/
structure RawMove (ι κ : Type*) where
  coords : ι → ℚ
  extrusion : κ → ℚ
  proportionDone : ℚ
  canPauseAfter : Bool
  checkEndstops : Bool

inductive SegmentedMoveState
  | inactive | active | aborted
  deriving DecidableEq, Repr

structure MovementState (ι κ : Type*) extends RawMove ι κ where
  initialCoords : ι → ℚ
  segmentsLeft : ℕ
  totalSegments : ℕ
  segmentsLeftToStartAt : ℕ
  moveFractionToSkip : ℚ
  firstSegmentFractionToSkip : ℚ
  segMoveState : SegmentedMoveState
  currentObjectCancelled : Bool

namespace MovementState

variable {ι κ : Type*}

def getProportionDone (ms : MovementState ι κ) : ℚ :=
  ((ms.totalSegments - ms.segmentsLeft : ℕ) : ℚ) / ms.totalSegments

def clearMove (ms : MovementState ι κ) : MovementState ι κ :=
  { ms with
    segmentsLeft := 0, segMoveState := .inactive, checkEndstops := false, moveFractionToSkip := 0 }

def newMoveAvailable (ms : MovementState ι κ) : MovementState ι κ :=
  { ms with segmentsLeft := ms.totalSegments }

/-- Takes the part of the move that was done before the pause from the restore point. -/
def resumeAfterPause (proportionDone : ℚ) (ms : MovementState ι κ) : MovementState ι κ :=
  { ms with moveFractionToSkip := proportionDone }

def finaliseMove (ms : MovementState ι κ) : MovementState ι κ :=
  let ms := { ms with canPauseAfter := !ms.checkEndstops }
  if ms.currentObjectCancelled then ms
  else if 1 < ms.totalSegments then
    let ms := { ms with
      segMoveState := .active, extrusion := fun b => ms.extrusion b / ms.totalSegments }
    if ms.moveFractionToSkip ≠ 0 then
      let fseg := ⌊(ms.totalSegments : ℚ) * ms.moveFractionToSkip⌋₊
      newMoveAvailable { ms with
        segmentsLeftToStartAt := ms.totalSegments - fseg
        firstSegmentFractionToSkip := ms.moveFractionToSkip * ms.totalSegments - fseg }
    else
      newMoveAvailable { ms with
        segmentsLeftToStartAt := ms.totalSegments
        firstSegmentFractionToSkip := ms.moveFractionToSkip }
  else
    newMoveAvailable { ms with
      segMoveState := .inactive
      segmentsLeftToStartAt := ms.totalSegments
      firstSegmentFractionToSkip := ms.moveFractionToSkip }

/-- The part of `DoStraightMove` that sets up the coordinates and the segments. -/
def doStraightMove (target : ι → ℚ) (extrusion : κ → ℚ) (totalSegments : ℕ)
    (ms : MovementState ι κ) : MovementState ι κ :=
  finaliseMove { ms with
    initialCoords := ms.coords
    coords := target
    extrusion := extrusion
    totalSegments := totalSegments }

def skipFirst (f : ℚ) (m : RawMove ι κ) : RawMove ι κ :=
  { m with extrusion := fun b => m.extrusion b * (1 - f) }

/-- The loop of `ReadMove`, which skips the segments that were printed already. A position is
reachable
if it is within the limits and no collision is in the way. -/
def readLoop (reachable : (ι → ℚ) → Bool) :
    ℕ → MovementState ι κ → Option (RawMove ι κ) × MovementState ι κ
  | 0, ms => (none, ms)
  | n + 1, ms =>
    let m := ms.toRawMove
    if ms.segmentsLeft = 1 then
      let m :=
        if ms.segmentsLeftToStartAt = 1 ∧ ms.firstSegmentFractionToSkip ≠ 0 then
          skipFirst ms.firstSegmentFractionToSkip m
        else m
      (some { m with proportionDone := 1 }, ms.clearMove)
    else
      let newCoords := fun a =>
        ms.initialCoords a + (ms.coords a - ms.initialCoords a) / ms.segmentsLeft
      let ms := { ms with initialCoords := newCoords }
      let m := { m with coords := newCoords }
      if ms.segmentsLeftToStartAt < ms.segmentsLeft then
        readLoop reachable n { ms with segmentsLeft := ms.segmentsLeft - 1 }
      else if !reachable m.coords then
        (none, { ms with segMoveState := .aborted, segmentsLeft := 0 })
      else
        let m :=
          if ms.segmentsLeftToStartAt = ms.segmentsLeft ∧ ms.firstSegmentFractionToSkip ≠ (0
            : ℚ) then
            skipFirst ms.firstSegmentFractionToSkip m
          else m
        let ms := { ms with segmentsLeft := ms.segmentsLeft - 1 }
        (some { m with proportionDone := ms.getProportionDone }, ms)

def readMove (reachable : (ι → ℚ) → Bool) (ms : MovementState ι κ) :
    Option (RawMove ι κ) × MovementState ι κ :=
  if ms.segmentsLeft = 0 then (none, ms) else readLoop reachable ms.segmentsLeft ms

/-- What the movement task gets when it asks `n` times, or until there is nothing. -/
def readMoves (reachable : (ι → ℚ) → Bool) : ℕ → MovementState ι κ → List (RawMove ι κ)
  | 0, _ => []
  | n + 1, ms =>
    match readMove reachable ms with
    | (none, _) => []
    | (some m, ms) => m :: readMoves reachable n ms

end MovementState

end RepRapFirmware.GCodes
