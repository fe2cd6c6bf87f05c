import Mathlib
import RepRapFirmware.Movement.AxisShaper
import RepRapFirmware.Movement.StepCounts

/-! Adding the segments of a move to the list of a drive. The list is broken off in one critical
section and joined again in another, and step interrupts may come in between. -/

namespace RepRapFirmware.Movement.Segments

open DriveMovement InputShaping RepRapFirmware.Library.Runs RepRapFirmware.Library.Ticks

structure PrepParams where
  accelClocks : UInt32
  steadyClocks : UInt32
  decelClocks : UInt32
  acceleration : ℚ
  deceleration : ℚ
  accelDistance : ℚ
  decelStartDistance : ℚ
  totalDistance : ℚ

/-- The arguments of `AddLinearSegments`, with the pressure advance of the drive. -/
structure LinearMove where
  startTime : UInt32
  params : PrepParams
  steps : ℚ
  moveFlags : MovementFlags
  kClocks : ℚ

/-- The arguments of one call of `AddSegment`. -/
structure SegmentCall where
  startTime : UInt32
  duration : UInt32
  distance : ℚ
  a : ℚ
  pressureAdvance : ℚ

/-! ### The segments of a move -/

namespace LinearMove

variable (m : LinearMove)

def advances : Bool := m.moveFlags.isExtruder && !m.moveFlags.nonPrintingMove

def accelDistance : ℚ :=
  if m.params.accelClocks = 0 then 0
  else if m.params.decelClocks + m.params.steadyClocks = 0 then m.params.totalDistance
  else m.params.accelDistance

def accelPressureAdvance : ℚ :=
  if m.params.accelClocks = 0 then 0
  else if m.advances then m.params.accelClocks.toNat * m.kClocks else 0

def decelDistance : ℚ :=
  if m.params.decelClocks = 0 then 0
  else m.params.totalDistance -
    if m.params.steadyClocks = 0 then m.accelDistance else m.params.decelStartDistance

def decelPressureAdvance : ℚ :=
  if m.params.decelClocks = 0 then 0
  else if m.advances then m.params.decelClocks.toNat * m.kClocks else 0

def steadyDistance : ℚ :=
  if m.params.steadyClocks = 0 then 0
  else m.params.totalDistance - m.accelDistance - m.decelDistance

/-- The calls for one impulse, or for a move without shaping. Phases without duration are left
out. -/
def phases (startDelay : UInt32) (factor : ℚ) : List SegmentCall :=
  let steadyStartTime := m.startTime + m.params.accelClocks
  let decelStartTime := steadyStartTime + m.params.steadyClocks
  (if m.params.accelClocks = 0 then [] else
    [⟨m.startTime + startDelay, m.params.accelClocks, m.accelDistance * factor,
      m.params.acceleration * factor, m.accelPressureAdvance⟩]) ++
  (if m.params.steadyClocks = 0 then [] else
    [⟨steadyStartTime + startDelay, m.params.steadyClocks, m.steadyDistance * factor, 0, 0⟩]) ++
  (if m.params.decelClocks = 0 then [] else
    [⟨decelStartTime + startDelay, m.params.decelClocks, m.decelDistance * factor,
      m.params.deceleration * factor, m.decelPressureAdvance⟩])

def calls (axisShaper : AxisShaper) : List SegmentCall :=
  let stepsPerMm := m.steps / m.params.totalDistance
  if m.moveFlags.noShaping then m.phases 0 stepsPerMm
  else (List.range axisShaper.numImpulses).flatMap fun index =>
    m.phases (UInt32.ofNat (axisShaper.delays index)) (axisShaper.coefficients index * stepsPerMm)

/-- The distance that the move commands. -/
def commanded (axisShaper : AxisShaper) : ℚ :=
  ((m.calls axisShaper).map fun call => call.distance + call.a * call.pressureAdvance).sum

/-- The calls of `AddSegment`, one after the other. -/
def addTo (axisShaper : AxisShaper) (tail : List (MoveSegment ℚ)) : List (MoveSegment ℚ) :=
  (m.calls axisShaper).foldl (fun tail call =>
    (addSegment tail call.startTime call.duration call.distance call.a m.moveFlags
      call.pressureAdvance).1) tail

end LinearMove

/-- Where the list is broken off for segments from `startTime` on: what stays with the drive, and
the tail. There is none if a segment that is being executed is in the way. -/
def breakOff (startTime : UInt32) :
    List (MoveSegment ℚ) → Option (List (MoveSegment ℚ) × List (MoveSegment ℚ))
  | [] => some ([], [])
  | seg :: rest =>
    let endTime := seg.startTime + seg.duration
    if signedDiff startTime endTime < 0 then
      if seg.flags.executing then none
      else if signedDiff startTime seg.startTime > 0 then
        let (first, second) := seg.split (startTime - seg.startTime)
        some ([first], second :: rest)
      else some ([], seg :: rest)
    else (breakOff startTime rest).map fun (kept, tail) => (seg :: kept, tail)

/-- A drive, and the move that is being added with the tail broken off for it. -/
structure Amendment where
  dm : DriveMovement
  pending : Option (LinearMove × List (MoveSegment ℚ))

namespace Amendment

/-- The part of `AddLinearSegments` up to the end of the first critical section. The code 3 error
ends the call. -/
def detach (m : LinearMove) (s : Amendment) : Amendment :=
  match s.pending with
  | some _ => s
  | none =>
    match breakOff m.startTime s.dm.segments with
    | none => { s with dm := s.dm.logStepError 3 }
    | some (kept, tail) => ⟨{ s.dm with segments := kept }, some (m, tail)⟩

/-- Joining the tail to the list again. -/
def join (now : UInt32) (t : StepTiming) (tail : List (MoveSegment ℚ)) (dm : DriveMovement) :
    DriveMovement :=
  let dm := { dm with segments := dm.segments ++ tail }
  if dm.state = .idle then (dm.scheduleFirstSegment now t).reinsert else dm

/-- The rest of `AddLinearSegments`. -/
def attach (axisShaper : AxisShaper) (now : UInt32) (t : StepTiming) (s : Amendment) : Amendment :=
  match s.pending with
  | none => s
  | some (m, tail) => ⟨join now t (m.addTo axisShaper tail) s.dm, none⟩

def interrupt (now : UInt32) (t : StepTiming) (s : Amendment) : Amendment :=
  { s with dm := s.dm.interrupt now t }

/-- The segments that are broken off. -/
def tail (s : Amendment) : List (MoveSegment ℚ) :=
  match s.pending with
  | none => []
  | some (_, tail) => tail

end Amendment

/-! ### Adding keeps the distance -/

section Distance

variable {list : List (MoveSegment ℚ)}

lemma totalDistance_nil : totalDistance ([] : List (MoveSegment ℚ)) = 0 := by
  rw [totalDistance, List.map_nil, List.sum_nil]

lemma totalDistance_cons (seg : MoveSegment ℚ) (list : List (MoveSegment ℚ)) :
    totalDistance (seg :: list) = seg.distance + totalDistance list := by
  rw [totalDistance, List.map_cons, List.sum_cons, totalDistance]

lemma totalDistance_append (list list' : List (MoveSegment ℚ)) :
    totalDistance (list ++ list') = totalDistance list + totalDistance list' := by
  rw [totalDistance, List.map_append, List.sum_append, totalDistance, totalDistance]

lemma split_distance (seg : MoveSegment ℚ) (d : UInt32) :
    (seg.split d).1.distance + (seg.split d).2.distance = seg.distance := by
  change seg.firstDistance d + (seg.distance - seg.firstDistance d) = seg.distance
  ring

/-- The distance of a segment of the list and of a new segment that has met it. -/
def Met.distance (met : Met ℚ) : ℚ :=
  totalDistance met.segments + (met.left.map MoveSegment.distance).getD 0

lemma shorten_distance (seg new : MoveSegment ℚ) : (shorten seg new).1.distance = new.distance := by
  rw [shorten]
  simp only
  split <;> rfl

lemma overlap_distance (before : List (MoveSegment ℚ)) (seg new : MoveSegment ℚ) :
    (overlap before seg new).distance = totalDistance before + seg.distance + new.distance := by
  rw [← shorten_distance seg new, overlap]
  obtain ⟨new', timeDifference, adjusting⟩ := shorten seg new
  simp only
  split
  · simp only [Met.distance, totalDistance_append, totalDistance_cons, MoveSegment.merge,
      totalDistance_nil, Option.map_some, Option.getD_some]
    ring
  · split
    · have hsplit := split_distance seg new'.duration
      simp only [Met.distance, totalDistance_append, totalDistance_cons, MoveSegment.merge,
        totalDistance_nil, Option.map_none, Option.getD_none]
      linarith
    · simp only [Met.distance, totalDistance_append, totalDistance_cons, MoveSegment.merge,
        totalDistance_nil, Option.map_none, Option.getD_none]
      ring

lemma meet_distance (offset : ℤ) (seg new : MoveSegment ℚ) :
    (meet offset seg new).distance = seg.distance + new.distance := by
  rw [meet]
  split
  · split
    · simp [Met.distance, totalDistance]
    · split
      · have hsplit := split_distance seg (UInt32.ofInt offset)
        change (overlap [(seg.split _).1] (seg.split _).2 new).distance = _
        rw [overlap_distance, totalDistance_cons, totalDistance_nil]
        linarith
      · rw [overlap_distance, totalDistance_nil, zero_add]
  · simp [Met.distance, totalDistance]

lemma meetOrPrecede_distance (seg new : MoveSegment ℚ) :
    (meetOrPrecede seg new).distance = seg.distance + new.distance := by
  rw [meetOrPrecede]
  simp only
  split
  · split
    · exact meet_distance 0 seg _
    · generalize UInt32.ofInt (-signedDiff new.startTime seg.startTime) = firstDuration
      have hmeet := meet_distance 0 seg { new with
        startTime := new.startTime + firstDuration
        duration := new.duration - firstDuration
        distance := new.distance - new.firstDistance firstDuration }
      simp only [Met.distance, totalDistance_cons] at hmeet ⊢
      linarith
  · exact meet_distance _ seg new

lemma addToList_distance (new : MoveSegment ℚ) :
    totalDistance (addToList list new).1 = totalDistance list + new.distance := by
  induction list generalizing new with
  | nil =>
    rw [addToList, totalDistance_cons]
    ring
  | cons seg list ih =>
    rw [addToList]
    split
    · rw [totalDistance_cons, totalDistance_cons]
      ring
    · have hmet := meetOrPrecede_distance seg new
      rw [Met.distance] at hmet
      simp only
      split
      · next hleft =>
        rw [hleft, Option.map_none, Option.getD_none] at hmet
        rw [totalDistance_append, totalDistance_cons]
        linarith
      · next left hleft =>
        rw [hleft, Option.map_some, Option.getD_some] at hmet
        simp only
        rw [totalDistance_append, totalDistance_cons, ih]
        linarith

lemma addTo_distance (axisShaper : AxisShaper) (m : LinearMove) :
    totalDistance (m.addTo axisShaper list) = totalDistance list + m.commanded axisShaper := by
  rw [LinearMove.addTo, LinearMove.commanded]
  induction m.calls axisShaper generalizing list with
  | nil => simp
  | cons call calls ih =>
    rw [List.foldl_cons, ih, addSegment, addToList_distance, List.map_cons, List.sum_cons]
    ring

/-- Nothing is lost where the list is broken off, and a segment that is being executed stays. -/
lemma breakOff_kept {startTime : UInt32} {kept tail : List (MoveSegment ℚ)}
    (h : breakOff startTime list = some (kept, tail)) :
    totalDistance kept + totalDistance tail = totalDistance list ∧
      ∀ seg ∈ list.head?, seg.flags.executing = true → kept.head? = some seg := by
  induction list generalizing kept with
  | nil =>
    obtain ⟨rfl, rfl⟩ := Prod.mk.inj (Option.some.inj h)
    exact ⟨by simp [totalDistance], fun _ hseg => absurd hseg (by simp)⟩
  | cons seg rest ih =>
    rw [breakOff] at h
    simp only at h
    split at h
    · split at h
      · exact absurd h (by simp)
      · next hexecuting =>
        have hhead : ∀ seg' ∈ (seg :: rest).head?, seg'.flags.executing = true →
            kept.head? = some seg' := by
          intro seg' hseg' hexecuting'
          obtain rfl := Option.some.inj hseg'
          exact absurd hexecuting' hexecuting
        split at h
        · obtain ⟨rfl, rfl⟩ := Prod.mk.inj (Option.some.inj h)
          have hsplit := split_distance seg (startTime - seg.startTime)
          refine ⟨?_, hhead⟩
          simp only [totalDistance_cons, totalDistance_nil]
          linarith
        · obtain ⟨rfl, rfl⟩ := Prod.mk.inj (Option.some.inj h)
          exact ⟨by simp [totalDistance], hhead⟩
    · cases hrest : breakOff startTime rest with
      | none => rw [hrest] at h; exact absurd h (by simp)
      | some p =>
        rw [hrest] at h
        obtain ⟨rfl, rfl⟩ := Prod.mk.inj (Option.some.inj h)
        obtain ⟨hsum, -⟩ := ih hrest
        refine ⟨?_, fun seg' hseg' _ => hseg'⟩
        rw [totalDistance_cons, totalDistance_cons, ← hsum]
        ring

end Distance

/-! ### What the execution keeps -/

section Execution

variable {dm dm' : DriveMovement} {seg : MoveSegment ℚ} {rest : List (MoveSegment ℚ)}

/-- The distance executed and still to be executed, without the corrections of a length. -/
def distanceGiven (dm : DriveMovement) : ℚ :=
  endedDistance dm.ended + totalDistance dm.segments - dm.adjustments.sum

/-- The steps that `GetAccumulatedExtrusion` would return. -/
def uncollected (dm : DriveMovement) : ℤ :=
  dm.movementAccumulator + (dm.currentMotorPosition - dm.positionAtSegmentStart)

/-- An idle drive has no segments, the one that is being executed is the first of the list, and
before a segment is due the drive has not moved. -/
structure Attached (dm : DriveMovement) : Prop where
  idle : dm.state = .idle → dm.segments = []
  active : dm.state = .idle ∨ dm.state = .starting ∨
    ∃ seg ∈ dm.segments.head?, seg.flags.executing = true
  starting : dm.state = .starting → dm.currentMotorPosition = dm.positionAtSegmentStart

lemma normalise_segment (seg : MoveSegment ℚ) :
    seg.normaliseAndCheckLinear.1.distance = seg.distance ∧
      seg.normaliseAndCheckLinear.1.flags = seg.flags := by
  rw [MoveSegment.normaliseAndCheckLinear]
  simp only
  split_ifs <;> exact ⟨rfl, rfl⟩

lemma plan_segment (seg : MoveSegment ℚ) (carried : ℚ) (net : ℤ) :
    (plan seg carried net).1.distance = seg.distance ∧
      (plan seg carried net).1.flags = seg.flags ∧ Plans net (plan seg carried net).2 := by
  obtain ⟨hdistance, hflags⟩ := normalise_segment seg
  rw [plan]
  generalize seg.normaliseAndCheckLinear = r at hdistance hflags
  obtain ⟨seg', t0⟩ := r
  cases t0 with
  | none => exact ⟨hdistance, hflags, oneWay_plans _ _ (.inl rfl)⟩
  | some t0 => exact ⟨hdistance, hflags, planAccelerated_plans _ _ _ _⟩

lemma Plans.state {net : ℤ} {p : MotionPlan} (h : Plans net p) :
    p.state ≠ .idle ∧ p.state ≠ .starting := by
  cases h with
  | oneWay hstate => rcases hstate with h | h | h <;> rw [h] <;> decide
  | reversing hstate => rw [hstate]; decide

/-- The loop of `NewSegment` moves segments from the list to those left behind. -/
structure Examined (segments : List (MoveSegment ℚ)) (dm dm' : DriveMovement) : Prop where
  distance : endedDistance dm'.ended + totalDistance dm'.segments =
    endedDistance dm.ended + totalDistance segments
  adjustments : dm'.adjustments = dm.adjustments
  accumulator : dm'.movementAccumulator = dm.movementAccumulator
  position : dm'.currentMotorPosition = dm.currentMotorPosition
  start : dm'.positionAtSegmentStart = dm.positionAtSegmentStart
  idle : dm'.state = .idle → dm'.segments = []
  active : dm'.state = .idle ∨ dm'.state = .starting ∨
    ∃ seg ∈ dm'.segments.head?, seg.flags.executing = true

structure Skips (length : ℚ) (dm dm' : DriveMovement) : Prop where
  ended : endedDistance dm'.ended = endedDistance dm.ended + length
  adjustments : dm'.adjustments = dm.adjustments
  accumulator : dm'.movementAccumulator = dm.movementAccumulator
  position : dm'.currentMotorPosition = dm.currentMotorPosition
  start : dm'.positionAtSegmentStart = dm.positionAtSegmentStart

lemma endedDistance_recordEnd (dm : DriveMovement) (length : ℚ) :
    endedDistance (dm.recordEnd length).ended = endedDistance dm.ended + length := by
  rw [recordEnd, endedDistance, List.map_cons, List.sum_cons, ← endedDistance, add_comm]

lemma skip_skips (dm : DriveMovement) (length : ℚ) : Skips length dm (dm.skip length) := by
  rw [skip]
  simp only
  split <;> exact ⟨endedDistance_recordEnd _ _, rfl, rfl, rfl, rfl⟩

lemma examine_examined (now : UInt32) (segments : List (MoveSegment ℚ)) (dm : DriveMovement) :
    Examined segments dm (examine now segments dm) := by
  induction segments generalizing dm with
  | nil => exact ⟨rfl, rfl, rfl, rfl, rfl, fun _ => rfl, .inl rfl⟩
  | cons seg rest ih =>
    rw [examine]
    simp only
    split
    · exact ⟨rfl, rfl, rfl, rfl, rfl, (fun h => by cases h), .inr (.inl rfl)⟩
    · obtain ⟨hdistance, hflags, hplans⟩ := plan_segment seg.setExecuting dm.distanceCarriedForwards
        (truncate (seg.distance + dm.distanceCarriedForwards))
      generalize plan seg.setExecuting dm.distanceCarriedForwards _ = r at hdistance hflags hplans
      obtain ⟨seg', p⟩ := r
      simp only at hdistance hflags hplans ⊢
      have hdistance' : seg'.distance = seg.distance := hdistance
      split
      · obtain ⟨changed, hdirection⟩ := setDirection_eq (({ dm with segmentFlags :=
          seg.flags }).prepare p
          (truncate (seg.distance + dm.distanceCarriedForwards))) p.newDirection
        rw [hdirection]
        refine ⟨?_, rfl, rfl, rfl, rfl, fun h => absurd h hplans.state.1, .inr (.inr ⟨seg', rfl,
          ?_⟩)⟩
        · simp only [totalDistance_cons, hdistance']
          rfl
        · rw [hflags]
          rfl
      · have hrest := ih ((({ dm with segmentFlags := seg.flags }).prepare p
          (truncate (seg.distance + dm.distanceCarriedForwards))).skip seg'.distance)
        have hskip := skip_skips (({ dm with segmentFlags := seg.flags }).prepare p
          (truncate (seg.distance + dm.distanceCarriedForwards))) seg'.distance
        exact {
          distance := by
            rw [hrest.distance, hskip.ended, totalDistance_cons, hdistance']
            exact add_assoc _ _ _
          adjustments := hrest.adjustments.trans hskip.adjustments
          accumulator := hrest.accumulator.trans hskip.accumulator
          position := hrest.position.trans hskip.position
          start := hrest.start.trans hskip.start
          idle := hrest.idle
          active := hrest.active }

lemma newSegment_examined (now : UInt32) (dm : DriveMovement) : Examined dm.segments
    { dm with positionAtSegmentStart := dm.currentMotorPosition } (dm.newSegment now) :=
  examine_examined now dm.segments _

/-- A part of the calculation that does not go on to another segment. -/
structure SameBooks (dm dm' : DriveMovement) : Prop where
  ended : dm'.ended = dm.ended
  segments : dm'.segments = dm.segments
  adjustments : dm'.adjustments = dm.adjustments
  accumulator : dm'.movementAccumulator = dm.movementAccumulator
  position : dm'.currentMotorPosition = dm.currentMotorPosition
  start : dm'.positionAtSegmentStart = dm.positionAtSegmentStart
  idle : dm'.state = .idle ↔ dm.state = .idle
  starting : dm'.state = .starting ↔ dm.state = .starting

lemma SameBooks.refl (dm : DriveMovement) : SameBooks dm dm :=
  ⟨rfl, rfl, rfl, rfl, rfl, rfl, .rfl, .rfl⟩

lemma SameBooks.trans {dm'' : DriveMovement} (h : SameBooks dm dm') (h' : SameBooks dm' dm'') :
    SameBooks dm dm'' :=
  ⟨h'.ended.trans h.ended, h'.segments.trans h.segments, h'.adjustments.trans h.adjustments,
    h'.accumulator.trans h.accumulator, h'.position.trans h.position, h'.start.trans h.start,
    h'.idle.trans h.idle, h'.starting.trans h.starting⟩

lemma logStepError_same (type : ℕ) (dm : DriveMovement) : SameBooks dm (dm.logStepError type) :=
  ⟨rfl, rfl, rfl, rfl, rfl, rfl, .rfl, .rfl⟩

lemma storeInterval_same (t : StepTiming) (dm : DriveMovement) :
    SameBooks dm (dm.storeInterval t) := by
  cases t with
  | unreasonable => exact logStepError_same 2 dm
  | interval clocks =>
    rw [storeInterval]
    split
    · exact .refl dm
    · exact ⟨rfl, rfl, rfl, rfl, rfl, rfl, .rfl, .rfl⟩

lemma calcTime_same (t : StepTiming) (shiftFactor : ℕ) (dm : DriveMovement) :
    SameBooks dm (dm.calcTime t shiftFactor) := by
  have hrecalc : SameBooks dm { dm with stepsTillRecalc := 2 ^ shiftFactor - 1 } :=
    ⟨rfl, rfl, rfl, rfl, rfl, rfl, .rfl, .rfl⟩
  rw [calcTime]
  split
  case h_5 hstate =>
    split
    · exact hrecalc.trans (storeInterval_same t _)
    · refine SameBooks.trans ?_ (storeInterval_same t _)
      change dm.state = _ at hstate
      refine ⟨rfl, rfl, rfl, rfl, rfl, rfl, ?_, ?_⟩ <;> rw [hstate] <;> simp
  all_goals
    first
    | exact hrecalc.trans (storeInterval_same t _)
    | exact hrecalc.trans (logStepError_same 4 _)

lemma reinsert_same (dm : DriveMovement) : SameBooks dm dm.reinsert := by
  rw [reinsert]
  split
  · exact .refl dm
  · exact ⟨rfl, rfl, rfl, rfl, rfl, rfl, .rfl, .rfl⟩

lemma SameBooks.attached (h : SameBooks dm dm') (hattached : Attached dm) : Attached dm' := by
  refine ⟨fun hidle => ?_, ?_, fun hstarting => ?_⟩
  · rw [h.segments]
    exact hattached.idle (h.idle.mp hidle)
  · rw [h.idle, h.starting, h.segments]
    exact hattached.active
  · rw [h.position, h.start]
    exact hattached.starting (h.starting.mp hstarting)

/-- A part of the execution that takes no step, and corrects lengths by `correction`. -/
structure Executes (correction : ℚ) (dm dm' : DriveMovement) : Prop where
  given : distanceGiven dm' = distanceGiven dm
  adjustments : dm'.adjustments.sum = dm.adjustments.sum + correction
  position : dm'.currentMotorPosition = dm.currentMotorPosition
  uncollected : uncollected dm' = uncollected dm
  attached : Attached dm'

lemma SameBooks.executes (h : SameBooks dm dm') (hattached : Attached dm) : Executes 0 dm dm' := by
  refine ⟨?_, ?_, h.position, ?_, h.attached hattached⟩
  · rw [distanceGiven, h.ended, h.segments, h.adjustments, distanceGiven]
  · rw [h.adjustments, add_zero]
  · rw [uncollected, h.accumulator, h.position, h.start, uncollected]

lemma Executes.andSame {dm'' : DriveMovement} {x : ℚ} (h : Executes x dm dm')
    (hsame : SameBooks dm' dm'') : Executes x dm dm'' := by
  have hlater := hsame.executes h.attached
  refine ⟨hlater.given.trans h.given, ?_, hlater.position.trans h.position,
    hlater.uncollected.trans h.uncollected, hlater.attached⟩
  rw [hlater.adjustments, h.adjustments, add_zero]

/-- Going on to the next segment loses the steps not collected yet, unless they have been added to
the accumulator or there are none. -/
lemma newSegment_books (now : UInt32) (dm : DriveMovement) :
    distanceGiven (dm.newSegment now) = distanceGiven dm ∧
      (dm.newSegment now).adjustments = dm.adjustments ∧
      (dm.newSegment now).currentMotorPosition = dm.currentMotorPosition ∧
      uncollected (dm.newSegment now) = dm.movementAccumulator ∧ Attached (dm.newSegment now) := by
  have hexamined := newSegment_examined now dm
  have hstart : (dm.newSegment now).positionAtSegmentStart = dm.currentMotorPosition :=
    hexamined.start
  have hposition : (dm.newSegment now).currentMotorPosition = dm.currentMotorPosition :=
    hexamined.position
  refine ⟨?_, hexamined.adjustments, hposition, ?_,
    ⟨hexamined.idle, hexamined.active, fun _ => hposition.trans hstart.symm⟩⟩
  · rw [distanceGiven, hexamined.distance, hexamined.adjustments, distanceGiven]
  · rw [uncollected, hexamined.accumulator, hposition, hstart, sub_self, add_zero]

lemma finishSegment_executes (now : UInt32) (t : StepTiming) (hattached : Attached dm)
    (hsegments : dm.segments = seg :: rest) :
    Executes 0 dm (dm.finishSegment now t seg rest) := by
  rw [finishSegment]
  simp only
  have hleft : SameBooks dm { dm with distanceCarriedForwards := dm.leftOver seg } :=
    ⟨rfl, rfl, rfl, rfl, rfl, rfl, .rfl, .rfl⟩
  split
  · exact (hleft.trans (logStepError_same 5 _)).executes hattached
  · split
    · exact (hleft.trans (logStepError_same 6 _)).executes hattached
    · next hsteps =>
      obtain ⟨hgiven, hadjustments, hposition, huncollected, hattached'⟩ := newSegment_books now
        (recordEnd { dm with
          distanceCarriedForwards := dm.leftOver seg
          movementAccumulator := dm.movementAccumulator + dm.netStepsThisSegment
          segments := rest } seg.distance)
      have hnext : Executes 0 dm (DriveMovement.newSegment now (recordEnd { dm with
          distanceCarriedForwards := dm.leftOver seg
          movementAccumulator := dm.movementAccumulator + dm.netStepsThisSegment
          segments := rest } seg.distance)) := by
        refine ⟨?_, ?_, hposition, ?_, hattached'⟩
        · rw [hgiven, distanceGiven, endedDistance_recordEnd, distanceGiven, hsegments,
            totalDistance_cons]
          change endedDistance dm.ended + _ + totalDistance rest - dm.adjustments.sum = _
          ring
        · rw [hadjustments, add_zero]
          rfl
        · have hnet : dm.currentMotorPosition - dm.positionAtSegmentStart =
              dm.netStepsThisSegment := not_not.mp hsteps
          rw [huncollected, uncollected, hnet]
          rfl
      generalize DriveMovement.newSegment now _ = r at hnext
      split
      · exact hnext
      · split
        · exact hnext
        · split
          · exact hnext.andSame (logStepError_same 1 _)
          · apply Executes.andSame hnext
            refine SameBooks.trans ?_ (calcTime_same t 0 _)
            exact ⟨rfl, rfl, rfl, rfl, rfl, rfl, .rfl, .rfl⟩

lemma calcOrFinish_executes (now : UInt32) (t : StepTiming) (hattached : Attached dm) :
    Executes 0 dm (dm.calcOrFinish now t) := by
  rw [calcOrFinish]
  split
  · exact (SameBooks.refl dm).executes hattached
  · next seg rest hsegments =>
    split
    · exact finishSegment_executes now t hattached hsegments
    · split
      · refine SameBooks.executes (SameBooks.trans ?_ (calcTime_same t 0 _)) hattached
        exact ⟨rfl, rfl, rfl, rfl, rfl, rfl, .rfl, .rfl⟩
      · exact (calcTime_same t _ dm).executes hattached

/-- What the length of the last segment is corrected by, if so much would be left over. -/
def lastStepCorrection (provisional : ℚ) : ℚ :=
  if |provisional| < 0.05 then -provisional
  else if provisional > 0.95 then 1 - provisional
  else if provisional < -0.95 then -1 - provisional
  else 0

lemma adjustLength_executes (adjustment : ℚ) (hattached : Attached dm)
    (hsegments : dm.segments = seg :: rest) :
    Executes adjustment dm (dm.adjustLength adjustment) := by
  rw [adjustLength_eq hsegments]
  refine ⟨?_, ?_, rfl, rfl, ⟨fun hidle => ?_, ?_, hattached.starting⟩⟩
  · simp only [distanceGiven, hsegments, totalDistance_cons, List.sum_cons,
      MoveSegment.adjustLength]
    ring
  · rw [List.sum_cons, add_comm]
  · have hnone := hattached.idle hidle
    rw [hsegments] at hnone
    exact absurd hnone (List.cons_ne_nil _ _)
  · have hactive := hattached.active
    rw [hsegments] at hactive
    rcases hactive with hidle | hstarting | ⟨seg', hseg', hexecuting⟩
    · exact .inl hidle
    · exact .inr (.inl hstarting)
    · obtain rfl := Option.some.inj hseg'
      exact .inr (.inr ⟨_, rfl, hexecuting⟩)

lemma roundLastStep_same (dm : DriveMovement) (extra : Bool) (net : ℤ) :
    SameBooks dm (dm.roundLastStep extra net) := by
  cases extra <;> exact ⟨rfl, rfl, rfl, rfl, rfl, rfl, .rfl, .rfl⟩

lemma endOnMicrostep_executes (provisional : ℚ) (hattached : Attached dm)
    (hsegments : dm.segments = seg :: rest) :
    Executes (lastStepCorrection provisional) dm (dm.endOnMicrostep provisional) := by
  rw [endOnMicrostep, lastStepCorrection]
  split
  · exact adjustLength_executes _ hattached hsegments
  · split
    · simp only
      split <;> exact (adjustLength_executes _ hattached hsegments).andSame (roundLastStep_same _ _
        _)
    · split
      · simp only
        split <;>
          exact (adjustLength_executes _ hattached hsegments).andSame (roundLastStep_same _ _ _)
      · exact (SameBooks.refl dm).executes hattached

/-- The correction that `CalcNextStepTimeFull` makes. -/
def fullCorrection (dm : DriveMovement) : ℚ :=
  match dm.segments with
  | [] => 0
  | seg :: rest => if dm.stopsSoon seg rest then lastStepCorrection (dm.leftOver seg) else 0

lemma calcNextStepTimeFull_executes (now : UInt32) (t : StepTiming) (hattached : Attached dm) :
    Executes (fullCorrection dm) dm (dm.calcNextStepTimeFull now t) := by
  cases hsegments : dm.segments with
  | nil =>
    rw [calcNextStepTimeFull, fullCorrection, hsegments]
    exact (SameBooks.refl dm).executes hattached
  | cons seg rest =>
    rw [calcNextStepTimeFull_eq now t hsegments, fullCorrection, hsegments]
    simp only
    split
    · have hend := endOnMicrostep_executes (dm.leftOver seg) hattached hsegments
      have hcalc := calcOrFinish_executes now t hend.attached
      refine ⟨hcalc.given.trans hend.given, ?_, hcalc.position.trans hend.position,
        hcalc.uncollected.trans hend.uncollected, hcalc.attached⟩
      rw [hcalc.adjustments, hend.adjustments, add_zero]
    · exact calcOrFinish_executes now t hattached

/-- The correction made when the head segment is prepared and its first step calculated. -/
def startCorrection (now : UInt32) (dm : DriveMovement) : ℚ :=
  let dm := dm.newSegment now
  if dm.state = .idle ∨ dm.state = .starting then 0 else fullCorrection dm

lemma start_executes (now : UInt32) (t : StepTiming) (dm : DriveMovement) :
    distanceGiven (dm.start now t) = distanceGiven dm ∧
      (dm.start now t).adjustments.sum = dm.adjustments.sum + startCorrection now dm ∧
      (dm.start now t).currentMotorPosition = dm.currentMotorPosition ∧
      uncollected (dm.start now t) = dm.movementAccumulator ∧ Attached (dm.start now t) := by
  obtain ⟨hgiven, hadjustments, hposition, huncollected, hattached⟩ := newSegment_books now dm
  rw [DriveMovement.start, startCorrection]
  split
  · exact ⟨hgiven, by rw [hadjustments, add_zero], hposition, huncollected, hattached⟩
  · have hfull := calcNextStepTimeFull_executes now t hattached
    exact ⟨hfull.given.trans hgiven, by rw [hfull.adjustments, hadjustments],
      hfull.position.trans hposition, hfull.uncollected.trans huncollected, hfull.attached⟩

/-- The step that the interrupt takes. -/
def stepTaken (dm : DriveMovement) : ℤ :=
  if dm.hadStepError then 0
  else
    match dm.state with
    | .idle | .stepError | .starting => 0
    | _ => multiplier dm.direction

/-- The correction that the interrupt makes. -/
def interruptCorrection (now : UInt32) (dm : DriveMovement) : ℚ :=
  if dm.hadStepError then 0
  else
    match dm.state with
    | .idle | .stepError => 0
    | .starting => startCorrection now dm
    | _ => if dm.takeStep.stepsTillRecalc ≠ 0 then 0 else fullCorrection dm.takeStep

/-- What the interrupt does to the books. -/
structure Interrupts (now : UInt32) (dm dm' : DriveMovement) : Prop where
  given : distanceGiven dm' = distanceGiven dm
  adjustments : dm'.adjustments.sum = dm.adjustments.sum + interruptCorrection now dm
  position : dm'.currentMotorPosition = dm.currentMotorPosition + stepTaken dm
  uncollected : uncollected dm' = uncollected dm + stepTaken dm
  attached : Attached dm'

lemma takeStep_attached (hattached : Attached dm) (hstate : dm.state ≠ .starting) :
    Attached dm.takeStep :=
  ⟨hattached.idle, hattached.active, fun hstarting => absurd hstarting hstate⟩

lemma calcNextStepTime_executes (now : UInt32) (t : StepTiming) (hattached : Attached dm.takeStep) :
    Executes (if dm.takeStep.stepsTillRecalc ≠ 0 then 0 else fullCorrection dm.takeStep) dm.takeStep
      (dm.calcNextStepTime now t) := by
  rw [calcNextStepTime]
  split
  · refine SameBooks.executes ?_ hattached
    exact ⟨rfl, rfl, rfl, rfl, rfl, rfl, .rfl, .rfl⟩
  · exact calcNextStepTimeFull_executes now t hattached

lemma interrupt_interrupts (now : UInt32) (t : StepTiming) (hattached : Attached dm) :
    Interrupts now dm (dm.interrupt now t) := by
  rw [DriveMovement.interrupt]
  split
  · next herror =>
    refine ⟨rfl, ?_, ?_, ?_, hattached⟩
    · rw [interruptCorrection, if_pos herror, add_zero]
    · rw [stepTaken, if_pos herror, add_zero]
    · rw [stepTaken, if_pos herror, add_zero]
  · next herror =>
    split
    · next hidle =>
      refine ⟨rfl, ?_, ?_, ?_, hattached⟩
      · rw [interruptCorrection, if_neg herror, hidle, add_zero]
      · rw [stepTaken, if_neg herror, hidle, add_zero]
      · rw [stepTaken, if_neg herror, hidle, add_zero]
    · next hstopped =>
      refine ⟨rfl, ?_, ?_, ?_, hattached⟩
      · rw [interruptCorrection, if_neg herror, hstopped, add_zero]
      · rw [stepTaken, if_neg herror, hstopped, add_zero]
      · rw [stepTaken, if_neg herror, hstopped, add_zero]
    · next hstarting =>
      obtain ⟨hgiven, hadjustments, hposition, huncollected, hattached'⟩ := start_executes now t dm
      have hsame := (reinsert_same (dm.start now t)).executes hattached'
      have hrest : uncollected dm = dm.movementAccumulator := by
        rw [uncollected, hattached.starting hstarting, sub_self, add_zero]
      refine ⟨hsame.given.trans hgiven, ?_, ?_, ?_, hsame.attached⟩
      · rw [hsame.adjustments, hadjustments, add_zero, interruptCorrection, if_neg herror,
          hstarting]
      · rw [hsame.position, hposition, stepTaken, if_neg herror, hstarting, add_zero]
      · rw [hsame.uncollected, huncollected, stepTaken, if_neg herror, hstarting, add_zero, hrest]
    · next hidle hstopped hstarting =>
      have htake := takeStep_attached hattached hstarting
      have hsteps : stepTaken dm = multiplier dm.direction := by
        rw [stepTaken, if_neg herror]
        split
        · next h => exact absurd h hidle
        · next h => exact absurd h hstopped
        · next h => exact absurd h hstarting
        · rfl
      have hcorrection : interruptCorrection now dm =
          if dm.takeStep.stepsTillRecalc ≠ 0 then 0 else fullCorrection dm.takeStep := by
        rw [interruptCorrection, if_neg herror]
        split
        · next h => exact absurd h hidle
        · next h => exact absurd h hstopped
        · next h => exact absurd h hstarting
        · rfl
      have hcalc := (calcNextStepTime_executes now t htake).andSame (reinsert_same _)
      refine ⟨hcalc.given, hcorrection ▸ hcalc.adjustments, ?_, ?_, hcalc.attached⟩
      · rw [hcalc.position, hsteps]
        rfl
      · rw [hcalc.uncollected, hsteps, uncollected, uncollected]
        change dm.movementAccumulator + (dm.currentMotorPosition + multiplier dm.direction -
          dm.positionAtSegmentStart) = _
        ring

end Execution

end RepRapFirmware.Movement.Segments
