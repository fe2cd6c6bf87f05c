import RepRapFirmware.Library.Runs

/-! The two channels that read the job file, and how they wait for each other. A channel has a stack
of machine states, the latest first. Coordinates are left out: only whether they are fetched
matters. Files are read without an SBC. -/

namespace RepRapFirmware.GCodes.SyncWith

open Library.Runs

def noFilePosition : ℕ := 0xFFFFFFFF

structure GCodeMachineState where
  fpos : ℕ
  fileIsLive : Bool
  commandedQueueNumber : ℕ
  deriving DecidableEq

inductive SyncState
  | running | syncing | synced
  deriving DecidableEq, Repr

/-- `latest` and `previous` are the stack of machine states. All of them have the same own queue
number and the same `executeAllCommands`. `passed` is history: where `SyncWith` last let the channel
go on. -/
structure GCodeBuffer where
  latest : GCodeMachineState
  previous : List GCodeMachineState
  ownQueueNumber : ℕ
  executeAllCommands : Bool
  syncState : SyncState
  passed : Option (List ℕ)

namespace GCodeBuffer

def states (gb : GCodeBuffer) : List GCodeMachineState := gb.latest :: gb.previous

/-- The file offsets of the lines that are being executed, the innermost first. -/
def position (gb : GCodeBuffer) : List ℕ := gb.states.map (·.fpos)

def executingAll (gb : GCodeBuffer) : Bool := gb.executeAllCommands

def executing (gb : GCodeBuffer) : Bool :=
  gb.executeAllCommands || gb.latest.commandedQueueNumber == gb.ownQueueNumber

def originalMachineState (gb : GCodeBuffer) : GCodeMachineState :=
  gb.previous.getLastD gb.latest

/-- Whether the channel is executing a file. -/
def isLive (gb : GCodeBuffer) : Bool := gb.originalMachineState.fileIsLive

def getStackDepth (gb : GCodeBuffer) : ℕ := gb.previous.length

end GCodeBuffer

/-- The outer part of a stack that has no more levels than the other one. -/
def common (ours others : List ℕ) : List ℕ := ours.drop (ours.length - others.length)

/-- The loop over the levels, from the innermost to the outermost. -/
def laterLoop : List ℕ → List ℕ → Bool → Bool
  | p :: ps, q :: qs, oursIsLater =>
    laterLoop ps qs (if p > q then true else if p < q then false else oursIsLater)
  | _, _, oursIsLater => oursIsLater

def isLaterThan (gb other : GCodeBuffer) : Bool :=
  if gb.getStackDepth = 0 ∧ gb.latest.fileIsLive = false then true
  else laterLoop (common gb.position other.position) (common other.position gb.position) false

/-- What `SyncWith` returns, and whether it has fetched coordinates. -/
structure Outcome where
  synced : Bool
  fetched : Bool
  deriving DecidableEq, Repr

def letGo (gb : GCodeBuffer) : GCodeBuffer :=
  { gb with syncState := .running, passed := some gb.position }

/-- The case in which this channel has finished with the other one's coordinates. -/
def whenSynced (thisGb otherGb : GCodeBuffer) (fetched : Bool) : GCodeBuffer × Outcome :=
  match otherGb.syncState with
  | .running =>
    if thisGb.executing || !otherGb.isLive || isLaterThan otherGb thisGb then
      (letGo thisGb, ⟨true, fetched⟩)
    else (thisGb, ⟨false, fetched⟩)
  | .syncing => (thisGb, ⟨false, fetched⟩)
  | .synced =>
    if thisGb.executing then (letGo thisGb, ⟨true, fetched⟩)
    else if !otherGb.isLive || isLaterThan otherGb thisGb then (letGo thisGb, ⟨true, fetched⟩)
    else (thisGb, ⟨false, fetched⟩)

def whenSyncing (thisGb otherGb : GCodeBuffer) : GCodeBuffer × Outcome :=
  if otherGb.syncState = .running then
    -- the other channel may have skipped this sync point
    if isLaterThan otherGb thisGb then (letGo thisGb, ⟨true, true⟩)
    else (thisGb, ⟨false, false⟩)
  else whenSynced { thisGb with syncState := .synced } otherGb true

/-- `SyncWith` once the channel's movement system is locked and at a standstill. -/
def syncWith (thisGb otherGb : GCodeBuffer) : GCodeBuffer × Outcome :=
  match thisGb.syncState with
  | .running => whenSyncing { thisGb with syncState := .syncing } otherGb
  | .syncing => whenSyncing thisGb otherGb
  | .synced => whenSynced thisGb otherGb false

inductive Channel
  | file | file2
  deriving DecidableEq, Repr

def Channel.other : Channel → Channel
  | .file => .file2
  | .file2 => .file

/-- `moving` is for the movement system that has the channel's own queue number. -/
structure State where
  gb : Channel → GCodeBuffer
  moving : Channel → Bool

/-- A call of `DoSync`. `locked` says whether the movement locks are granted. -/
def doSync (s : State) (c : Channel) (locked : Bool) : State × Outcome :=
  let thisGb := s.gb c
  if thisGb.executingAll then
    if locked && !s.moving c && !s.moving c.other then
      ({ s with gb := Function.update s.gb c { thisGb with passed := some thisGb.position } },
        ⟨true, false⟩)
    else (s, ⟨false, false⟩)
  else if locked && !s.moving c then
    let (gb, outcome) := syncWith thisGb (s.gb c.other)
    ({ s with gb := Function.update s.gb c gb }, outcome)
  else (s, ⟨false, false⟩)

/-- `ForkFrom`: the new machine states are at no position yet. -/
def forkFrom (s : State) : State :=
  let fork (ms : GCodeMachineState) := { ms with fpos := noFilePosition }
  let file := s.gb .file
  { s with
    gb := fun c =>
      match c with
      | .file => { file with ownQueueNumber := 0, executeAllCommands := false }
      | .file2 =>
        { s.gb .file2 with
          latest := fork file.latest
          previous := file.previous.map fork
          ownQueueNumber := 1
          executeAllCommands := false } }

/-- What a channel does: it executes commands, which changes its stack and may start moves; its
moves come to an end; it calls `DoSync`; it is forked; its file ends or is abandoned. -/
inductive Event
  | execute (c : Channel) (latest : GCodeMachineState) (previous : List GCodeMachineState)
      (moves : Channel → Bool)
  | standstill (c : Channel)
  | sync (c : Channel) (locked : Bool)
  | fork
  | endFile (c : Channel)

/-- A channel executes commands only when it is not waiting in `SyncWith`, and starts moves only for
its own queue, except that a reader that has not been forked serves them all. -/
def step (s : State) : Event → State
  | .execute c latest previous moves =>
    let gb := { s.gb c with latest := latest, previous := previous }
    if (s.gb c).isLive ∧ gb.isLive ∧ (s.gb c).syncState = .running then
      { gb := Function.update s.gb c gb
        moving := fun d =>
          s.moving d || moves d && (d = c || (s.gb c).executingAll) }
    else s
  | .standstill c => { s with moving := Function.update s.moving c false }
  | .sync c locked => if (s.gb c).isLive then (doSync s c locked).1 else s
  | .fork =>
    if (s.gb .file).isLive ∧ (s.gb .file).executingAll ∧ (s.gb .file).syncState = .running then
      forkFrom s
    else s
  | .endFile c =>
    { s with
      gb := Function.update s.gb c
        { s.gb c with
          latest := ⟨noFilePosition, false, (s.gb c).latest.commandedQueueNumber⟩
          previous := []
          syncState := .running } }

/-- The File channel has started a job and the File2 channel does nothing. -/
def start : State where
  gb := fun c => ⟨⟨0, c == .file, 0⟩, [], 0, true, .running, none⟩
  moving := fun _ => false

end RepRapFirmware.GCodes.SyncWith
