import RepRapFirmware.Movement.ListAmendments

/-! The steps that are reported to the filament monitors. -/

namespace RepRapFirmware.Movement.Extrusion

open Segments DriveMovement InputShaping ListAmendments RepRapFirmware.Library.Runs

def getNetStepsTakenThisSegment (dm : DriveMovement) : ℤ :=
  dm.currentMotorPosition - dm.positionAtSegmentStart

/-- The number of steps since the last call, and the drive afterwards. -/
def getAccumulatedExtrusion (dm : DriveMovement) : ℤ × DriveMovement :=
  let ret := dm.movementAccumulator
  let adjustment := getNetStepsTakenThisSegment dm
  (ret + adjustment, { dm with movementAccumulator := -adjustment })

def stopLogicalDrive (dm : DriveMovement) : DriveMovement :=
  if dm.state ≠ .idle then { dm with state := .idle, segments := [] } else dm

def setMotorPosition (pos : ℤ) (dm : DriveMovement) : DriveMovement :=
  { dm with
    currentMotorPosition := pos
    positionAtSegmentStart := pos
    movementAccumulator := 0 }

inductive Event
  | detach (m : LinearMove)
  | attach (now : UInt32) (t : StepTiming)
  | interrupt (now : UInt32) (t : StepTiming)
  | stop
  | read
  | setMotorPosition (pos : ℤ)

/-- `returned` is the sum of the numbers returned and `taken` the net number of steps taken, since
the position was set. -/
structure Session where
  amendment : Amendment
  returned : ℤ
  taken : ℤ

def Session.initial (position : ℤ) : Session := ⟨⟨.init position, none⟩, 0, 0⟩

def read (s : Session) : Session :=
  let (ret, dm) := getAccumulatedExtrusion s.amendment.dm
  { s with
    amendment := { s.amendment with dm := dm }
    returned := s.returned + ret }

def step (axisShaper : AxisShaper) (s : Session) : Event → Session
  | .detach m => { s with amendment := s.amendment.detach m }
  | .attach now t => { s with amendment := s.amendment.attach axisShaper now t }
  | .interrupt now t =>
    { s with
      amendment := s.amendment.interrupt now t
      taken := s.taken + stepTaken s.amendment.dm }
  | .stop => { s with amendment := { s.amendment with dm := stopLogicalDrive s.amendment.dm } }
  | .read => read s
  | .setMotorPosition pos =>
    { amendment := { s.amendment with dm := setMotorPosition pos s.amendment.dm }
      returned := 0
      taken := 0 }

/-- Right after a call, the numbers returned add up to the steps taken. -/
def Conserved (s : Session) : Prop := (read s).returned = (read s).taken

/-- A drive that is scheduled again had not been stopped within a segment after a net movement. -/
def NotCutShort (s : Session) : Event → Prop
  | .attach _ _ => s.amendment.pending.isSome → s.amendment.dm.state = .idle →
      getNetStepsTakenThisSegment s.amendment.dm = 0
  | _ => True

section Steps

variable {axisShaper : AxisShaper} {s : Session}

lemma conserved_iff (s : Session) : Conserved s ↔ s.returned + uncollected s.amendment.dm = s.taken
    :=
  Iff.rfl

lemma stopLogicalDrive_attached {dm : DriveMovement} (h : Attached dm) :
    Attached (stopLogicalDrive dm) := by
  rw [stopLogicalDrive]
  split
  · exact ⟨fun _ => rfl, .inl rfl, (nomatch ·)⟩
  · exact h

lemma stopLogicalDrive_uncollected (dm : DriveMovement) :
    uncollected (stopLogicalDrive dm) = uncollected dm := by
  rw [stopLogicalDrive]
  split <;> rfl

lemma detach_uncollected (m : LinearMove) (a : Amendment) :
    uncollected (a.detach m).dm = uncollected a.dm := by
  obtain ⟨dm, pending⟩ := a
  cases pending with
  | some p => rfl
  | none =>
    rw [Amendment.detach]
    cases breakOff m.startTime dm.segments <;> rfl

/-- Scheduling an idle drive forgets the steps of a segment that was not finished. -/
lemma join_uncollected (now : UInt32) (t : StepTiming) (tail : List (MoveSegment ℚ))
    (dm : DriveMovement) : uncollected (Amendment.join now t tail dm) =
      if dm.state = .idle then dm.movementAccumulator else uncollected dm := by
  rw [Amendment.join]
  simp only
  split
  · obtain ⟨-, -, -, huncollected, hattached⟩ := start_executes now t
      { dm with segments := dm.segments ++ tail, directionChanged := true }
    exact ((reinsert_same _).executes hattached).uncollected.trans huncollected
  · rfl

lemma step_attached (s : Session) (e : Event) (h : Attached s.amendment.dm) :
    Attached (step axisShaper s e).amendment.dm := by
  cases e with
  | detach m => exact (detach_attached m h).1
  | attach now t =>
    obtain ⟨⟨dm, pending⟩, returned, taken⟩ := s
    cases pending with
    | none => exact h
    | some p => exact (join_attached now t _ h).1
  | interrupt now t => exact (interrupt_interrupts now t h).attached
  | stop => exact stopLogicalDrive_attached h
  | read => exact ⟨h.idle, h.active, h.starting⟩
  | setMotorPosition pos => exact ⟨h.idle, h.active, fun _ => rfl⟩

lemma step_conserved_iff (s : Session) (e : Event) (h : Attached s.amendment.dm)
    (hs : Conserved s) : Conserved (step axisShaper s e) ↔ NotCutShort s e := by
  rw [conserved_iff] at hs ⊢
  cases e with
  | detach m =>
    refine ⟨fun _ => trivial, fun _ => ?_⟩
    change s.returned + uncollected (s.amendment.detach m).dm = s.taken
    rw [detach_uncollected]
    exact hs
  | attach now t =>
    obtain ⟨⟨dm, pending⟩, returned, taken⟩ := s
    cases pending with
    | none => exact ⟨fun _ => (nomatch ·), fun _ => hs⟩
    | some p =>
      have hbefore : returned + (dm.movementAccumulator + getNetStepsTakenThisSegment dm) = taken :=
        hs
      change returned + uncollected (Amendment.join now t _ dm) = taken ↔
        (true → dm.state = .idle → getNetStepsTakenThisSegment dm = 0)
      rw [join_uncollected]
      split
      · next hidle =>
        constructor
        · intro hafter _ _
          omega
        · intro hnone
          have hzero := hnone rfl hidle
          omega
      · next hstate => exact ⟨fun _ _ hidle => absurd hidle hstate, fun _ => hs⟩
  | interrupt now t =>
    refine ⟨fun _ => trivial, fun _ => ?_⟩
    change s.returned + uncollected (s.amendment.dm.interrupt now t) =
      s.taken + stepTaken s.amendment.dm
    rw [(interrupt_interrupts now t h).uncollected, ← hs]
    ring
  | stop =>
    refine ⟨fun _ => trivial, fun _ => ?_⟩
    change s.returned + uncollected (stopLogicalDrive s.amendment.dm) = s.taken
    rw [stopLogicalDrive_uncollected]
    exact hs
  | read =>
    refine ⟨fun _ => trivial, fun _ => ?_⟩
    change s.returned + uncollected s.amendment.dm + (-getNetStepsTakenThisSegment s.amendment.dm +
      getNetStepsTakenThisSegment s.amendment.dm) = s.taken
    rw [hs]
    ring
  | setMotorPosition pos =>
    refine ⟨fun _ => trivial, fun _ => ?_⟩
    change (0 : ℤ) + (0 + (pos - pos)) = 0
    ring

end Steps

/-- The numbers returned add up to the steps taken throughout a run, exactly if no drive is
scheduled again after it was stopped within a segment, with a net movement in that segment. -/
theorem accumulated_extrusion_conserved (axisShaper : AxisShaper) (position : ℤ)
    (events : List Event) : Always (step axisShaper) Conserved (.initial position) events ↔
      Along (step axisShaper) NotCutShort (.initial position) events := by
  apply always_iff_along (I := fun s => Attached s.amendment.dm)
  · exact ⟨fun _ => rfl, .inl rfl, fun _ => rfl⟩
  · exact fun s e => step_attached s e
  · change (0 : ℤ) + (0 + (position - position)) = 0
    ring
  · exact fun s e => step_conserved_iff s e

/-- Steps at constant speed for a thousand clocks. -/
def extrude (startTime : UInt32) : LinearMove :=
  { steadyMove startTime 10 with
    moveFlags := { MovementFlags.init with nonPrintingMove := false, isExtruder := true } }

/-- The drive is stopped after four of ten steps and moves again before the steps are read. -/
def stoppedAndMoved : List Event :=
  [.detach (extrude 0), .attach 0 (.interval 100)] ++
    List.replicate 4 (.interrupt 0 (.interval 100)) ++
    [.stop, .detach (extrude 2000), .attach 2000 (.interval 100)]

theorem stoppedAndMoved_lost : ¬ ∀ (axisShaper : AxisShaper) (position : ℤ) (events : List Event),
    Always (step axisShaper) Conserved (.initial position) events := by
  intro h
  have hend := h .initial 0 stoppedAndMoved stoppedAndMoved (List.prefix_refl _)
  rw [conserved_iff] at hend
  revert hend
  decide +kernel

end RepRapFirmware.Movement.Extrusion
