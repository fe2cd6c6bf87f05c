import RepRapFirmware.Library.Ring
import RepRapFirmware.Library.Runs

/-! A ring of DDAs with the counters of its moves. The DDAs are numbered in the order of their
`next` links. Coordinates, restore points, simulation time and the diagnostics are left out, and so
are the waiting times that `Spin` returns. -/

namespace RepRapFirmware.Movement

inductive DDAState
  | empty | provisional | committed
  deriving DecidableEq, Repr

structure DDA where
  state : DDAState
  filePosition : Option ℕ
  canPauseAfter : Bool
  isolatedMove : Bool
  checkEndstops : Bool
  moveStartTime : UInt32
  clocksNeeded : UInt32

/-- `partly` is the last mode of the source, which adds no moves. -/
inductive SimulationMode
  | off | debug | normal | partly
  deriving DecidableEq, Repr

structure DDARing where
  numDdasInRing : ℕ
  several : 2 ≤ numDdasInRing
  fits : numDdasInRing < 2 ^ 32
  dda : ℕ → DDA
  addPointer : ℕ
  getPointer : ℕ
  scheduledMoves : UInt32
  completedMoves : UInt32
  waitingForRingToEmpty : Bool

def stepClockRate : UInt32 := 750000

namespace DDA

def isCommitted (d : DDA) : Bool := d.state = .committed

/-- What `HasExpired` reads: the movement timer and whether the drives of the move have stopped. -/
structure Reading where
  movementTimerTicks : UInt32
  drivesStopped : Bool

def hasExpired (d : DDA) (r : Reading) : Bool :=
  if d.checkEndstops then r.drivesStopped
  else 0 ≤ (r.movementTimerTicks - (d.moveStartTime + d.clocksNeeded)).toInt32

def getTimeLeft (d : DDA) (movementTimerTicks : UInt32) : UInt32 :=
  match d.state with
  | .provisional => d.clocksNeeded
  | .committed =>
    let timeExecuting := movementTimerTicks - d.moveStartTime
    if timeExecuting.toInt32 ≤ 0 then d.clocksNeeded
    else if timeExecuting > d.clocksNeeded then 0
    else d.clocksNeeded - timeExecuting
  | .empty => 0

end DDA

namespace DDARing

section Ring

variable (r : DDARing)

def getNext (p : ℕ) : ℕ := (p + 1) % r.numDdasInRing

def getPrevious (p : ℕ) : ℕ := (p + (r.numDdasInRing - 1)) % r.numDdasInRing

def setDDA (p : ℕ) (d : DDA) : DDARing := { r with dda := Function.update r.dda p d }

def free (p : ℕ) : DDARing := setDDA r p { r.dda p with state := .empty }

def isIdle : Bool := (r.dda r.getPointer).state = .empty

def setWaitingToEmpty : DDARing := { r with waitingForRingToEmpty := !isIdle r }

/-! ### Adding moves -/

/-- The loop over the unprepared moves, from the newest: their total time without the oldest, and
the time of the oldest. -/
def unpreparedTimes : ℕ → ℕ → UInt32 → UInt32 → UInt32 × UInt32
  | 0, _, unPreparedTime, prevMoveTime => (unPreparedTime, prevMoveTime)
  | fuel + 1, dda, unPreparedTime, prevMoveTime =>
    let dda := getPrevious r dda
    if (r.dda dda).state ≠ .provisional then (unPreparedTime, prevMoveTime)
    else unpreparedTimes fuel dda (unPreparedTime + prevMoveTime) (r.dda dda).clocksNeeded

def canAddMove : Bool :=
  if (r.dda r.addPointer).state = .empty ∧ (r.dda (getNext r r.addPointer)).state = .empty then
    let (unPreparedTime, prevMoveTime) := unpreparedTimes r r.numDdasInRing r.addPointer 0 0
    unPreparedTime < stepClockRate / 2 || unPreparedTime + prevMoveTime < 2 * stepClockRate
  else false

/-- What `InitStandardMove` works out: whether the move is accepted, its data, and the time and the
`canPauseAfter` flag that lookahead gives to each move that is still provisional. -/
structure Planned where
  ok : Bool
  move : DDA
  lookahead : ℕ → UInt32 × Bool

def doLookahead (lookahead : ℕ → UInt32 × Bool) : DDARing :=
  { r with
    dda := fun p =>
      let d := r.dda p
      if d.state = .provisional then
        { d with clocksNeeded := (lookahead p).1, canPauseAfter := (lookahead p).2 }
      else d }

def addMove : DDARing :=
  { r with addPointer := getNext r r.addPointer, scheduledMoves := r.scheduledMoves + 1 }

def addStandardMove (planned : Planned) : DDARing :=
  let r := doLookahead r planned.lookahead
  if planned.ok then
    addMove (setDDA r r.addPointer { planned.move with state := .provisional })
  else setDDA r r.addPointer { planned.move with state := .empty }

/-- `realMove` says whether one of the adjustments is a step or more. -/
def addSpecialMove (realMove : Bool) (clocksNeeded : UInt32) : DDARing :=
  if realMove then
    addMove (setDDA r r.addPointer
      { r.dda r.addPointer with
        state := .provisional
        filePosition := (r.dda (getPrevious r r.addPointer)).filePosition
        canPauseAfter := false
        isolatedMove := true
        checkEndstops := false
        clocksNeeded := clocksNeeded })
  else r

def addAsyncMove (realMove : Bool) (clocksNeeded : UInt32) : DDARing :=
  if realMove then
    addMove (setDDA r r.addPointer
      { r.dda r.addPointer with
        state := .provisional
        filePosition := none
        canPauseAfter := false
        isolatedMove := false
        checkEndstops := false
        clocksNeeded := clocksNeeded })
  else r

/-! ### Spin -/

/-- What `Spin` is given and what it reads: the clock readings and the times that `Prepare` works
out are those for each DDA. -/
structure SpinInput where
  prepareAdvanceTime : UInt32
  simulationMode : SimulationMode
  shouldStartMove : Bool
  expiry : ℕ → DDA.Reading
  clock : ℕ → UInt32
  canPrepareMove : ℕ → Bool
  prepared : ℕ → UInt32 × UInt32

def retire : DDARing :=
  let r' := free { r with completedMoves := r.completedMoves + 1 } r.getPointer
  { r' with getPointer := getNext r r.getPointer }

def retireExpired (expiry : ℕ → DDA.Reading) : ℕ → DDARing → DDARing
  | 0, r => r
  | fuel + 1, r =>
    let cdda := r.getPointer
    if (r.dda cdda).isCommitted && (r.dda cdda).hasExpired (expiry cdda) then
      retireExpired expiry fuel (retire r)
    else r

/-- The first DDA that is not committed, and the time that the committed ones before it take. -/
def preparedTime (clock : ℕ → UInt32) : ℕ → ℕ → UInt32 → ℕ × UInt32
  | 0, cdda, total => (cdda, total)
  | fuel + 1, cdda, total =>
    if (r.dda cdda).isCommitted then
      preparedTime clock fuel (getNext r cdda) (total + (r.dda cdda).getTimeLeft (clock cdda))
    else (cdda, total)

def prepare (p : ℕ) (times : UInt32 × UInt32) : DDARing :=
  setDDA r p
    { r.dda p with state := .committed, moveStartTime := times.1, clocksNeeded := times.2 }

def prepareMoves (i : SpinInput) : ℕ → DDARing → ℕ → UInt32 → DDARing
  | 0, r, _, _ => r
  | fuel + 1, r, firstUnpreparedMove, moveTimeLeft =>
    if (r.dda firstUnpreparedMove).state = .provisional ∧ moveTimeLeft < i.prepareAdvanceTime ∧
        i.canPrepareMove firstUnpreparedMove = true then
      let r := prepare r firstUnpreparedMove (i.prepared firstUnpreparedMove)
      prepareMoves i fuel r (getNext r firstUnpreparedMove)
        (moveTimeLeft + (r.dda firstUnpreparedMove).getTimeLeft (i.clock firstUnpreparedMove))
    else r

def completeMoves (i : SpinInput) : DDARing :=
  match i.simulationMode with
  | .off | .debug => retireExpired i.expiry r.numDdasInRing r
  | .normal | .partly => if (r.dda r.getPointer).isCommitted then retire r else r

def spin (i : SpinInput) : DDARing :=
  let r := completeMoves r i
  let cdda := r.getPointer
  if (r.dda cdda).isCommitted then
    let (cdda, time) := preparedTime r i.clock r.numDdasInRing cdda 0
    if (r.dda cdda).state = .provisional then prepareMoves i r.numDdasInRing r cdda time else r
  else if i.shouldStartMove || r.waitingForRingToEmpty || (r.dda cdda).isolatedMove then
    prepareMoves i r.numDdasInRing r cdda 0
  else r

/-! ### Pausing -/

/-- Frees the DDAs from `dda` up to the old add pointer. -/
def freeSkipped (savedDdaRingAddPointer : ℕ) : ℕ → DDARing → ℕ → DDARing
  | 0, r, _ => r
  | fuel + 1, r, dda =>
    if dda = savedDdaRingAddPointer then r
    else
      freeSkipped savedDdaRingAddPointer fuel
        (free { r with scheduledMoves := r.scheduledMoves - 1 } dda) (getNext r dda)

/-- Skips the moves from `dda` on. -/
def skipFrom (dda : ℕ) : DDARing :=
  freeSkipped r.addPointer r.numDdasInRing { r with addPointer := dda } dda

def canPauseAfter (p : ℕ) : Bool :=
  (r.dda p).canPauseAfter && decide ((r.dda (getNext r p)).state = .provisional)

def pausePoint : ℕ → ℕ → Bool → Option ℕ
  | 0, _, _ => none
  | fuel + 1, dda, pauseOkHere =>
    if dda = r.addPointer then none
    else if pauseOkHere then some dda
    else pausePoint fuel (getNext r dda) (canPauseAfter r dda)

def pauseMoves : DDARing :=
  let dda := r.getPointer
  if dda = r.addPointer then r
  else
    match pausePoint r r.numDdasInRing (getNext r dda) (canPauseAfter r dda) with
    | none => r
    | some dda => skipFrom (free r dda) dda

def getCurrentDDA (movementTimerTicks : UInt32) : ℕ → ℕ → Option ℕ
  | 0, _ => none
  | fuel + 1, cdda =>
    if (r.dda cdda).isCommitted then
      let timeRunning := movementTimerTicks - (r.dda cdda).moveStartTime
      if timeRunning.toInt32 < 0 then none
      else if timeRunning < (r.dda cdda).clocksNeeded then some cdda
      else getCurrentDDA movementTimerTicks fuel (getNext r cdda)
    else none

def currentDDA (movementTimerTicks : UInt32) : Option ℕ :=
  getCurrentDDA r movementTimerTicks r.numDdasInRing r.getPointer

def firstFromFile : ℕ → ℕ → ℕ
  | 0, dda => dda
  | fuel + 1, dda =>
    if dda = r.addPointer then dda
    else if (r.dda dda).filePosition.isSome then dda
    else firstFromFile fuel (getNext r dda)

/-- The move that is being executed, if it has a file position: it is aborted. -/
def abortedMove (movementTimerTicks : UInt32) : Option ℕ :=
  (currentDDA r movementTimerTicks).filter fun dda => (r.dda dda).filePosition.isSome

def lowPowerOrStallPause (movementTimerTicks : UInt32) : DDARing :=
  match abortedMove r movementTimerTicks with
  | some dda => skipFrom { r with scheduledMoves := r.scheduledMoves - 1 } (getNext r dda)
  | none =>
    let dda := (currentDDA r movementTimerTicks).getD r.getPointer
    let dda := firstFromFile r r.numDdasInRing dda
    if dda = r.addPointer then r else skipFrom r dda

end Ring

/-! ### The operations -/

inductive Event
  | addStandardMove (planned : Planned)
  | addSpecialMove (realMove : Bool) (clocksNeeded : UInt32)
  | addAsyncMove (realMove : Bool) (clocksNeeded : UInt32)
  | setWaitingToEmpty
  | spin (i : SpinInput)
  | pauseMoves
  | lowPowerOrStallPause (movementTimerTicks : UInt32)

/-- The Move task adds a move only where `CanAddMove` says that it can. -/
def step (r : DDARing) : Event → DDARing
  | .addStandardMove planned => if canAddMove r then addStandardMove r planned else r
  | .addSpecialMove realMove clocksNeeded =>
    if canAddMove r then addSpecialMove r realMove clocksNeeded else r
  | .addAsyncMove realMove clocksNeeded =>
    if canAddMove r then addAsyncMove r realMove clocksNeeded else r
  | .setWaitingToEmpty => setWaitingToEmpty r
  | .spin i => spin r i
  | .pauseMoves => pauseMoves r
  | .lowPowerOrStallPause movementTimerTicks => lowPowerOrStallPause r movementTimerTicks

def start (n : ℕ) (several : 2 ≤ n) (fits : n < 2 ^ 32) : DDARing where
  numDdasInRing := n
  several := several
  fits := fits
  dda := fun _ => ⟨.empty, none, false, false, false, 0, 0⟩
  addPointer := 0
  getPointer := 0
  scheduledMoves := 0
  completedMoves := 0
  waitingForRingToEmpty := false

end DDARing

end RepRapFirmware.Movement
