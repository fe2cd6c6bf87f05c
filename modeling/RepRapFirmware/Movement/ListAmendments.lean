import RepRapFirmware.Movement.AddLinearSegments

/-! Step interrupts between the two critical sections of `AddLinearSegments`. -/

namespace RepRapFirmware.Movement.ListAmendments

open Segments DriveMovement InputShaping RepRapFirmware.Library.Runs

inductive Event
  | detach (m : LinearMove)
  | attach (now : UInt32) (t : StepTiming)
  | interrupt (now : UInt32) (t : StepTiming)

/-- `given` is the distance of the moves that have been added, and `ends` what their lengths have
been corrected by at the end of the motion, with nothing broken off. -/
structure Session where
  amendment : Amendment
  given : ℚ
  ends : ℚ

namespace Session

def initial (position : ℤ) : Session := ⟨⟨.init position, none⟩, 0, 0⟩

/-- The distance that attaching the tail adds. -/
def added (axisShaper : AxisShaper) (s : Session) : ℚ :=
  match s.amendment.pending with
  | none => 0
  | some (m, _) => m.commanded axisShaper

def corrections (s : Session) : ℚ := s.amendment.dm.adjustments.sum

end Session

def step (axisShaper : AxisShaper) (s : Session) : Event → Session
  | .detach m => { s with amendment := s.amendment.detach m }
  | .attach now t =>
    let amendment := s.amendment.attach axisShaper now t
    { amendment := amendment
      given := s.given + s.added axisShaper
      ends := s.ends + (amendment.dm.adjustments.sum - s.corrections) }
  | .interrupt now t =>
    let amendment := s.amendment.interrupt now t
    { amendment := amendment
      given := s.given
      ends :=
        if s.amendment.tail.isEmpty then
          s.ends + (amendment.dm.adjustments.sum - s.corrections)
        else s.ends }

/-- The distance executed and still in the lists is the distance of the moves, but for the
corrections at the end of the motion, and a drive with segments is scheduled. -/
structure Undisturbed (s : Session) : Prop where
  distance : endedDistance s.amendment.dm.ended + totalDistance s.amendment.dm.segments +
    totalDistance s.amendment.tail = s.given + s.ends
  scheduled : s.amendment.pending = none → s.amendment.dm.segments ≠ [] →
    s.amendment.dm.state ≠ .idle

/-- The interrupt does not end the motion on an exact microstep while more segments are broken
off. -/
def NotTheEnd (s : Session) : Event → Prop
  | .detach _ => True
  | .attach _ _ => True
  | .interrupt now _ => s.amendment.tail = [] ∨ interruptCorrection now s.amendment.dm = 0

/-- The distance of the moves is in the lists or has been executed, but for all corrections. -/
structure Kept (s : Session) : Prop where
  attached : Attached s.amendment.dm
  distance : distanceGiven s.amendment.dm + totalDistance s.amendment.tail = s.given

section Steps

variable {axisShaper : AxisShaper} {s : Session}

lemma Kept.undisturbed_iff (h : Kept s) : Undisturbed s ↔ s.corrections = s.ends := by
  have hdistance := h.distance
  rw [distanceGiven] at hdistance
  constructor
  · intro hundisturbed
    have hlists := hundisturbed.distance
    rw [Session.corrections]
    linarith
  · intro heq
    rw [Session.corrections] at heq
    exact ⟨by linarith, fun _ hsegments hidle => hsegments (h.attached.idle hidle)⟩

lemma detach_attached (m : LinearMove) {a : Amendment} (h : Attached a.dm) :
    Attached (a.detach m).dm ∧ (a.detach m).dm.adjustments = a.dm.adjustments ∧
      distanceGiven (a.detach m).dm + totalDistance (a.detach m).tail =
        distanceGiven a.dm + totalDistance a.tail := by
  obtain ⟨dm, pending⟩ := a
  cases pending with
  | some p => exact ⟨h, rfl, rfl⟩
  | none =>
    rw [Amendment.detach]
    cases hbreak : breakOff m.startTime dm.segments with
    | none => exact ⟨(logStepError_same 3 dm).attached h, rfl, rfl⟩
    | some p =>
      obtain ⟨kept, tail⟩ := p
      obtain ⟨hsum, hhead⟩ := breakOff_kept hbreak
      refine ⟨⟨fun hidle => ?_, ?_, h.starting⟩, rfl, ?_⟩
      · have hnone : dm.segments = [] := h.idle hidle
        rw [hnone] at hbreak
        exact (Prod.mk.inj (Option.some.inj hbreak)).1.symm
      · rcases h.active with hidle | hstarting | ⟨seg, hseg, hexecuting⟩
        · exact .inl hidle
        · exact .inr (.inl hstarting)
        · exact .inr (.inr ⟨seg, hhead seg hseg hexecuting, hexecuting⟩)
      · change endedDistance dm.ended + totalDistance kept - dm.adjustments.sum +
          totalDistance tail = distanceGiven dm + totalDistance []
        rw [distanceGiven, totalDistance_nil, ← hsum]
        ring

lemma join_attached (now : UInt32) (t : StepTiming) (tail : List (MoveSegment ℚ))
    {dm : DriveMovement} (h : Attached dm) :
    Attached (Amendment.join now t tail dm) ∧
      distanceGiven (Amendment.join now t tail dm) = distanceGiven dm + totalDistance tail := by
  have hjoined : distanceGiven { dm with segments := dm.segments ++ tail } =
      distanceGiven dm + totalDistance tail := by
    change endedDistance dm.ended + totalDistance (dm.segments ++ tail) - _ = _
    rw [totalDistance_append, distanceGiven]
    ring
  rw [Amendment.join]
  simp only
  split
  · obtain ⟨hgiven, -, -, -, hattached⟩ := start_executes now t
      { dm with segments := dm.segments ++ tail, directionChanged := true }
    have hsame := (reinsert_same _).executes hattached
    exact ⟨hsame.attached, (hsame.given.trans hgiven).trans hjoined⟩
  · next hstate =>
    refine ⟨⟨fun hidle => absurd hidle hstate, ?_, h.starting⟩, hjoined⟩
    rcases h.active with hidle | hstarting | ⟨seg, hseg, hexecuting⟩
    · exact absurd hidle hstate
    · exact .inr (.inl hstarting)
    · refine .inr (.inr ⟨seg, ?_, hexecuting⟩)
      change seg ∈ (dm.segments ++ tail).head?
      rw [List.head?_append, hseg]
      rfl

lemma step_kept (s : Session) (e : Event) (h : Kept s) : Kept (step axisShaper s e) := by
  cases e with
  | detach m =>
    obtain ⟨hattached, -, hdistance⟩ := detach_attached m h.attached
    exact ⟨hattached, hdistance.trans h.distance⟩
  | attach now t =>
    obtain ⟨⟨dm, pending⟩, given, ends⟩ := s
    cases pending with
    | none => exact ⟨h.attached, h.distance.trans (add_zero given).symm⟩
    | some p =>
      obtain ⟨m, tail⟩ := p
      obtain ⟨hattached, hdistance⟩ :=
        join_attached now t (m.addTo axisShaper tail) h.attached
      refine ⟨hattached, ?_⟩
      have hbefore : distanceGiven dm + totalDistance tail = given := h.distance
      change distanceGiven (Amendment.join now t (m.addTo axisShaper tail) dm) + totalDistance [] =
        given + m.commanded axisShaper
      rw [hdistance, addTo_distance, totalDistance_nil, ← hbefore]
      ring
  | interrupt now t =>
    have hinterrupts := interrupt_interrupts now t h.attached
    refine ⟨hinterrupts.attached, ?_⟩
    change distanceGiven (s.amendment.dm.interrupt now t) + totalDistance s.amendment.tail = s.given
    rw [hinterrupts.given]
    exact h.distance

lemma step_undisturbed_iff (s : Session) (e : Event) (h : Kept s) (hs : Undisturbed s) :
    Undisturbed (step axisShaper s e) ↔ NotTheEnd s e := by
  have hends := h.undisturbed_iff.mp hs
  rw [(step_kept s e h).undisturbed_iff]
  cases e with
  | detach m =>
    obtain ⟨-, hadjustments, -⟩ := detach_attached m h.attached
    refine ⟨fun _ => trivial, fun _ => ?_⟩
    change (s.amendment.detach m).dm.adjustments.sum = s.ends
    rw [hadjustments]
    exact hends
  | attach now t =>
    refine ⟨fun _ => trivial, fun _ => ?_⟩
    change (s.amendment.attach axisShaper now t).dm.adjustments.sum =
      s.ends + ((s.amendment.attach axisShaper now t).dm.adjustments.sum - s.corrections)
    rw [hends]
    ring
  | interrupt now t =>
    have hadjustments := (interrupt_interrupts now t h.attached).adjustments
    change (s.amendment.dm.interrupt now t).adjustments.sum = (if s.amendment.tail.isEmpty then
      s.ends + ((s.amendment.dm.interrupt now t).adjustments.sum - s.corrections) else s.ends) ↔ _
    rw [NotTheEnd, ← List.isEmpty_iff]
    split
    · next hnone =>
      rw [hends]
      exact ⟨fun _ => .inl hnone, fun _ => by ring⟩
    · next hbroken =>
      have hcorrections : s.amendment.dm.adjustments.sum = s.ends := hends
      rw [hadjustments, hcorrections, or_iff_right hbroken, add_eq_left]

end Steps

/-- A call of `AddLinearSegments` as one action, or a step interrupt. -/
inductive AtomicEvent
  | add (m : LinearMove) (now : UInt32) (t : StepTiming)
  | interrupt (now : UInt32) (t : StepTiming)

def AtomicEvent.events : AtomicEvent → List Event
  | .add m now t => [.detach m, .attach now t]
  | .interrupt now t => [.interrupt now t]

/-- With calls that are one action there is nothing broken off at an interrupt. -/
lemma atomic_notTheEnd (axisShaper : AxisShaper) (actions : List AtomicEvent) {s : Session}
    (h : s.amendment.pending = none) :
    Along (step axisShaper) NotTheEnd s (actions.flatMap AtomicEvent.events) := by
  induction actions generalizing s with
  | nil => trivial
  | cons action actions ih =>
    obtain ⟨⟨dm, pending⟩, given, ends⟩ := s
    obtain rfl : pending = none := h
    rw [List.flatMap_cons, along_append]
    cases action with
    | interrupt now t => exact ⟨⟨.inl rfl, trivial⟩, ih rfl⟩
    | add m now t =>
      refine ⟨⟨trivial, trivial, trivial⟩, ih ?_⟩
      change ((Amendment.detach m ⟨dm, none⟩).attach axisShaper now t).pending = none
      rw [Amendment.detach]
      cases breakOff m.startTime dm.segments <;> rfl

/-- Breaking off the tail changes no distance, exactly if no interrupt in between takes the last
segment left for the end of the motion and corrects its length. With calls that are one action none
does. -/
theorem amendment_undisturbed (axisShaper : AxisShaper) (position : ℤ) :
    (∀ events, Always (step axisShaper) Undisturbed (.initial position) events ↔
      Along (step axisShaper) NotTheEnd (.initial position) events) ∧
    ∀ actions : List AtomicEvent, Always (step axisShaper) Undisturbed (.initial position)
      (actions.flatMap AtomicEvent.events) := by
  have hkept : Kept (.initial position) :=
    ⟨⟨fun _ => rfl, .inl rfl, fun _ => rfl⟩, (show (0 + 0 - 0 + 0 : ℚ) = 0 by norm_num)⟩
  have hiff : ∀ events, Always (step axisShaper) Undisturbed (.initial position) events ↔
      Along (step axisShaper) NotTheEnd (.initial position) events :=
    always_iff_along hkept (fun s e => step_kept s e) (hkept.undisturbed_iff.mpr rfl)
      (fun s e => step_undisturbed_iff s e)
  exact ⟨hiff, fun actions => (hiff _).mpr (atomic_notTheEnd axisShaper actions rfl)⟩

/-- Two impulses of half the size, a hundred clocks apart. -/
def halves : AxisShaper :=
  { AxisShaper.initial with
    numImpulses := 2
    coefficients := fun _ => 1 / 2
    delays := fun n => 100 * n }

/-- A move at constant speed for a thousand clocks. -/
def steadyMove (startTime : UInt32) (steps : ℚ) : LinearMove where
  startTime := startTime
  params := {
    accelClocks := 0
    steadyClocks := 1000
    decelClocks := 0
    acceleration := 0
    deceleration := 0
    accelDistance := 0
    decelStartDistance := 1
    totalDistance := 1 }
  steps := steps
  moveFlags := { MovementFlags.init with nonPrintingMove := false }
  kClocks := 0

/-- The next move is added while the last step but one of the full speed is taken. Beyond that,
two hundredths of a step are left over. -/
def endedEarly : List Event :=
  [.detach (steadyMove 0 (1002 / 95)), .attach 0 (.interval 100), .detach (steadyMove 1000 10)] ++
    List.replicate 9 (.interrupt 0 (.interval 100))

theorem endedEarly_disturbed : ¬ ∀ (axisShaper : AxisShaper) (position : ℤ) (events : List Event),
    Always (step axisShaper) Undisturbed (.initial position) events := by
  intro h
  have hend := (h halves 0 endedEarly endedEarly (List.prefix_refl _)).distance
  revert hend
  decide +kernel

end RepRapFirmware.Movement.ListAmendments
