import RepRapFirmware.Library.Runs
import RepRapFirmware.Movement.AddSegment
import RepRapFirmware.Movement.DriveMovement

/-! The steps of a drive add up to the lengths of its segments, as far as whole steps can. -/

namespace RepRapFirmware.Movement.Segments

open DriveMovement RepRapFirmware.Library.Runs RepRapFirmware.Library.Ticks

/-! ### Whole steps and what is left over -/

/-- What is left over of a distance beside `net` steps is less than a step, and never against their
direction. -/
structure Remainder (net : ℤ) (x : ℚ) : Prop where
  small : |x| < 1
  forwards : 0 < net → 0 ≤ x
  backwards : net < 0 → x ≤ 0

lemma truncate_remainder (x : ℚ) : Remainder (truncate x) (x - truncate x) := by
  rw [truncate]
  split
  · next hx =>
    have hlow := Int.floor_le x
    have hhigh := Int.lt_floor_add_one x
    have hfloor : 0 ≤ ⌊x⌋ := Int.floor_nonneg.mpr hx
    refine ⟨abs_lt.mpr ⟨by linarith, by linarith⟩, fun _ => by linarith, fun hneg => ?_⟩
    exact absurd hneg hfloor.not_gt
  · next hx =>
    have hlow := Int.le_ceil x
    have hhigh := Int.ceil_lt_add_one x
    have hceil : ⌈x⌉ ≤ 0 := Int.ceil_le.mpr (by simpa using (not_le.mp hx).le)
    refine ⟨abs_lt.mpr ⟨by linarith, by linarith⟩, fun hpos => ?_, fun _ => by linarith⟩
    exact absurd hpos hceil.not_gt

lemma truncate_nonneg {x : ℚ} (h : -1 < x) : 0 ≤ truncate x := by
  rw [truncate]
  split
  · next hx => exact Int.floor_nonneg.mpr hx
  · have hceil : (-1 : ℤ) < ⌈x⌉ := Int.lt_ceil.mpr (by push_cast; exact h)
    omega

lemma truncate_nonpos {x : ℚ} (h : x < 1) : truncate x ≤ 0 := by
  rw [truncate]
  split
  · exact Int.floor_le_iff.mpr (by simpa using h)
  · next hx => exact Int.ceil_le.mpr (by simpa using (not_le.mp hx).le)

lemma multiplier_cases (direction : Bool) :
    multiplier direction = 1 ∧ multiplier (!direction) = -1 ∨
      multiplier direction = -1 ∧ multiplier (!direction) = 1 := by
  cases direction
  · exact .inr ⟨rfl, rfl⟩
  · exact .inl ⟨rfl, rfl⟩

/-! ### Plans -/

/-- The steps of a plan come to `net`, whether it reverses or not. -/
inductive Plans (net : ℤ) (p : MotionPlan) : Prop
  | oneWay (hstate : p.state = .cartLinear ∨ p.state = .cartAccel ∨ p.state = .cartDecelNoReverse)
      (hlimit : p.reverseStartStep = p.segmentStepLimit)
      (hnet : net = multiplier p.newDirection * (p.segmentStepLimit - 1))
  | reversing (hstate : p.state = .cartDecelForwardsReversing) (hstart : 1 < p.reverseStartStep)
      (hlimit : p.reverseStartStep < p.segmentStepLimit)
      (hnet : net = multiplier p.newDirection * (2 * p.reverseStartStep - 1 - p.segmentStepLimit))

lemma oneWay_plans {state : DMState} (direction : Bool) (net : ℤ)
    (hstate : state = .cartLinear ∨ state = .cartAccel ∨ state = .cartDecelNoReverse) :
    Plans net (oneWay state direction net) := by
  refine .oneWay hstate rfl ?_
  change net = multiplier direction * (1 + net * multiplier direction - 1)
  rcases multiplier_cases direction with ⟨h, -⟩ | ⟨h, -⟩ <;> rw [h] <;> ring

/-! ### Planning a segment -/

section Planning

variable {seg : MoveSegment ℚ} {t0 carried : ℚ}

/-- The distance of a segment in terms of the time at which its speed would be zero. -/
lemma distance_of_t0 (hduration : 0 < seg.duration.toNat) (ha : seg.a ≠ 0)
    (ht0 : t0 = 1 / 2 * seg.duration.toNat - seg.distance / (seg.a * seg.duration.toNat)) :
    seg.distance = seg.a * seg.duration.toNat * (1 / 2 * seg.duration.toNat - t0) := by
  have hpos : (seg.duration.toNat : ℚ) ≠ 0 := by exact_mod_cast hduration.ne'
  rw [ht0]
  field_simp
  ring

/-- A segment that moves in one direction has no whole step in the other. -/
lemma net_direction (direction : Bool) {distance : ℚ}
    (hdistance : 0 ≤ distance * (multiplier direction : ℚ)) (hcarried : |carried| < 1) :
    0 ≤ truncate (distance + carried) * multiplier direction := by
  obtain ⟨hlow, hhigh⟩ := abs_lt.mp hcarried
  cases direction
  · have hneg : distance ≤ 0 := by simpa [multiplier] using hdistance
    have hnet : truncate (distance + carried) ≤ 0 := truncate_nonpos (by linarith)
    rw [multiplier]
    simpa using hnet
  · have hpos : 0 ≤ distance := by simpa [multiplier] using hdistance
    have hnet : 0 ≤ truncate (distance + carried) := truncate_nonneg (by linarith)
    rw [multiplier]
    simpa using hnet

lemma planAccelerated_plans (seg : MoveSegment ℚ) (t0 carried : ℚ) (net : ℤ) :
    Plans net (planAccelerated seg t0 carried net) := by
  simp only [planAccelerated]
  split
  · exact oneWay_plans _ _ (.inr (.inl rfl))
  · split
    · split
      · exact oneWay_plans _ _ (.inr (.inr rfl))
      · next hcross =>
        split
        · exact oneWay_plans _ _ (.inr (.inl rfl))
        · next hpositive =>
          refine .reversing rfl ?_ ?_ ?_
          · change 1 < truncate _ + 1
            omega
          · change truncate _ + 1 < 2 * (truncate _ + 1) - _ - 1
            rcases not_and_or.mp hcross with hcross | hcross <;> omega
          · change net = multiplier _ * (2 * (truncate _ + 1) - 1 - (2 * (truncate _ + 1) - _ - 1))
            rcases multiplier_cases (!decide (0 ≤ seg.a)) with ⟨h, -⟩ | ⟨h, -⟩ <;> rw [h] <;> ring
    · exact oneWay_plans _ _ (.inr (.inr rfl))

lemma sign_of_a (a : ℚ) {x : ℚ} (hx : 0 ≤ x) :
    0 ≤ a * x * (multiplier (decide (0 ≤ a)) : ℚ) ∧
      0 ≤ a * (-x) * (multiplier (!decide (0 ≤ a)) : ℚ) := by
  by_cases ha : 0 ≤ a
  · rw [decide_eq_true ha]
    have hpos : 0 ≤ a * x := mul_nonneg ha hx
    constructor <;> simpa [multiplier] using hpos
  · rw [decide_eq_false ha]
    have hneg : a * x ≤ 0 := mul_nonpos_of_nonpos_of_nonneg (not_le.mp ha).le hx
    constructor <;> simpa [multiplier] using hneg

/-- No plan asks for less than no steps. -/
lemma planAccelerated_limit (hduration : 0 < seg.duration.toNat) (hcarried : |carried| < 1)
    (ha : seg.a ≠ 0)
    (ht0 : t0 = 1 / 2 * seg.duration.toNat - seg.distance / (seg.a * seg.duration.toNat)) :
    1 ≤ (planAccelerated seg t0 carried (truncate (seg.distance + carried))).segmentStepLimit := by
  have hdistance := distance_of_t0 hduration ha ht0
  have hpos : (0 : ℚ) < seg.duration.toNat := by exact_mod_cast hduration
  simp only [planAccelerated]
  split
  · next hpast =>
    have hsign : 0 ≤ seg.distance * (multiplier (decide (0 ≤ seg.a)) : ℚ) := by
      have hmul := (sign_of_a seg.a (x := seg.duration.toNat * (1 / 2 * seg.duration.toNat - t0))
        (mul_nonneg hpos.le (by linarith))).1
      rw [hdistance]
      convert hmul using 1
      ring
    have hnet := net_direction _ hsign hcarried
    change 1 ≤ 1 + truncate _ * multiplier _
    omega
  · next hfuture =>
    split
    · split
      · next hcross =>
        change 1 ≤ 1 + truncate _ * multiplier _
        omega
      · next hcross =>
        split
        · next hnone =>
          change 1 ≤ 1 + truncate _ * multiplier (! !decide (0 ≤ seg.a))
          rw [Bool.not_not]
          have hopposite : truncate (seg.distance + carried) * multiplier (decide (0 ≤ seg.a)) =
              -(truncate (seg.distance + carried) * multiplier (!decide (0 ≤ seg.a))) := by
            rcases multiplier_cases (decide (0 ≤ seg.a)) with ⟨h, h'⟩ | ⟨h, h'⟩ <;> rw [h, h'] <;>
              ring
          rw [hopposite]
          rcases not_and_or.mp hcross with hcross | hcross <;> omega
        · next hpositive =>
          change 1 ≤ 2 * (truncate _ + 1) - _ - 1
          rcases not_and_or.mp hcross with hcross | hcross <;> omega
    · next hlate =>
      have hsign : 0 ≤ seg.distance * (multiplier (!decide (0 ≤ seg.a)) : ℚ) := by
        have hmul := (sign_of_a seg.a (x := seg.duration.toNat * (t0 - 1 / 2 * seg.duration.toNat))
          (mul_nonneg hpos.le (by linarith))).2
        rw [hdistance]
        convert hmul using 1
        ring
      have hnet := net_direction _ hsign hcarried
      change 1 ≤ 1 + truncate _ * multiplier _
      omega

/-- What a plan keeps of its segment, and what it asks for. -/
structure Planned (seg : MoveSegment ℚ) (carried : ℚ) (seg' : MoveSegment ℚ) (p : MotionPlan) :
    Prop where
  distance : seg'.distance = seg.distance
  duration : seg'.duration = seg.duration
  flags : seg'.flags = seg.flags
  plans : Plans (truncate (seg.distance + carried)) p
  limit : 1 ≤ p.segmentStepLimit

lemma plan_planned (hduration : 0 < seg.duration.toNat) (hcarried : |carried| < 1) :
    Planned seg carried (plan seg carried (truncate (seg.distance + carried))).1
      (plan seg carried (truncate (seg.distance + carried))).2 := by
  have hlinear : 1 ≤ (oneWay .cartLinear (decide (0 ≤ seg.distance))
      (truncate (seg.distance + carried))).segmentStepLimit := by
    have hsign := (sign_of_a seg.distance zero_le_one).1
    rw [mul_one] at hsign
    have hnet := net_direction _ hsign hcarried
    change 1 ≤ 1 + truncate _ * multiplier _
    omega
  rw [plan, MoveSegment.normaliseAndCheckLinear]
  by_cases ha : seg.a ≠ 0
  · rw [if_pos ha]
    by_cases hsmall : |1 / 2 * (seg.duration.toNat : ℚ) -
        seg.distance / (seg.a * seg.duration.toNat)| ≤ 4 * 16777216
    · simp only [if_pos hsmall]
      exact ⟨rfl, rfl, rfl, planAccelerated_plans _ _ _ _,
        planAccelerated_limit hduration hcarried ha rfl⟩
    · simp only [if_neg hsmall]
      exact ⟨rfl, rfl, rfl, oneWay_plans _ _ (.inl rfl), hlinear⟩
  · rw [if_neg ha]
    exact ⟨rfl, rfl, rfl, oneWay_plans _ _ (.inl rfl), hlinear⟩

end Planning

/-! ### The books of a drive -/

def endedDistance (ended : List SegmentEnd) : ℚ := (ended.map SegmentEnd.length).sum

/-- At the end of every segment the position and the carried distance account for all lengths so
far, less than a step is carried, and the steps taken were those planned. -/
def Accounts (initial : ℚ) : List SegmentEnd → Prop
  | [] => True
  | e :: ended => e.position + e.carried = initial + endedDistance (e :: ended) ∧ |e.carried| < 1 ∧
      e.steps = e.netSteps ∧ Accounts initial ended

/-- `given` is the length of all segments appended so far. -/
structure Ledger (initial given : ℚ) (dm : DriveMovement) : Prop where
  carried : |dm.distanceCarriedForwards| < 1
  position : dm.positionAtSegmentStart + dm.distanceCarriedForwards =
    initial + endedDistance dm.ended
  lengths : endedDistance dm.ended + totalDistance dm.segments = given + dm.adjustments.sum
  accounts : Accounts initial dm.ended
  errors : ∀ e ∈ dm.errors, e = 1 ∨ e = 2
  durations : ∀ seg ∈ dm.segments, 0 < seg.duration.toNat

/-- The steps that have been taken and those that are planned, before and after a reversal. -/
inductive Course (dm : DriveMovement) : Prop
  | oneWay (hstate : dm.state = .cartLinear ∨ dm.state = .cartAccel ∨ dm.state = .cartDecelNoReverse)
      (hlimit : dm.reverseStartStep = dm.segmentStepLimit)
      (hnet : dm.netStepsThisSegment = multiplier dm.direction * (dm.segmentStepLimit - 1))
      (hsteps : dm.currentMotorPosition - dm.positionAtSegmentStart =
        multiplier dm.direction * (dm.nextStep - 1))
  | forwards (hstate : dm.state = .cartDecelForwardsReversing)
      (hlimit : dm.reverseStartStep < dm.segmentStepLimit)
      (hnet : dm.netStepsThisSegment =
        multiplier dm.direction * (2 * dm.reverseStartStep - 1 - dm.segmentStepLimit))
      (hsteps : dm.currentMotorPosition - dm.positionAtSegmentStart =
        multiplier dm.direction * (dm.nextStep - 1))
      (hnext : dm.nextStep ≤ dm.reverseStartStep)
  | reverse (hstate : dm.state = .cartDecelReverse)
      (hlimit : dm.reverseStartStep < dm.segmentStepLimit)
      (hnet : dm.netStepsThisSegment =
        multiplier dm.direction * (dm.segmentStepLimit - 2 * dm.reverseStartStep + 1))
      (hsteps : dm.currentMotorPosition - dm.positionAtSegmentStart =
        multiplier dm.direction * (dm.nextStep - 2 * dm.reverseStartStep + 1))
      (hnext : dm.reverseStartStep ≤ dm.nextStep)

/-- The drive executes `seg`. -/
structure Active (seg : MoveSegment ℚ) (rest : List (MoveSegment ℚ)) (dm : DriveMovement) : Prop where
  segments : dm.segments = seg :: rest
  course : Course dm
  first : 1 ≤ dm.nextStep
  last : dm.nextStep ≤ dm.segmentStepLimit
  remainder : Remainder dm.netStepsThisSegment (dm.leftOver seg)

/-- The drive has just been given a segment with steps. -/
structure Started (dm : DriveMovement) : Prop where
  active : ∃ seg rest, Active seg rest dm
  nextStep : dm.nextStep = 1
  limit : 1 < dm.segmentStepLimit
  reversal : dm.state = .cartDecelForwardsReversing → 1 < dm.reverseStartStep
  state : dm.state ≠ .cartDecelReverse

/-- The drive executes no segment, and has none or waits for one to be due. -/
structure Resting (dm : DriveMovement) : Prop where
  position : dm.currentMotorPosition = dm.positionAtSegmentStart
  state : dm.state = .idle ∧ dm.segments = [] ∨ dm.state = .starting ∧ dm.segments ≠ []

section NewSegment

variable {initial given : ℚ} {dm : DriveMovement} {seg : MoveSegment ℚ}
  {segments : List (MoveSegment ℚ)}

lemma setDirection_eq (dm : DriveMovement) (direction : Bool) :
    ∃ changed, dm.setDirection direction =
      { dm with direction := direction, directionChanged := changed } := by
  rw [setDirection]
  split
  · exact ⟨true, rfl⟩
  · next hsame => exact ⟨dm.directionChanged, by rw [not_not.mp hsame]⟩

/-- A segment without steps is skipped without an error. -/
lemma skip_eq (dm : DriveMovement) (seg : MoveSegment ℚ)
    (hnone : truncate (seg.distance + dm.distanceCarriedForwards) = 0) :
    |dm.distanceCarriedForwards + seg.distance| < 1 ∧ dm.skip seg.distance =
      recordEnd { dm with distanceCarriedForwards := dm.distanceCarriedForwards + seg.distance }
        seg.distance := by
  have hsmall := (truncate_remainder (seg.distance + dm.distanceCarriedForwards)).small
  rw [hnone, Int.cast_zero, sub_zero, add_comm] at hsmall
  refine ⟨hsmall, ?_⟩
  rw [skip]
  exact if_neg hsmall.le.not_gt

/-- The books after a segment has been left behind. -/
lemma Ledger.leave {dm' : DriveMovement} {e : SegmentEnd} (h : Ledger initial given dm)
    (hsegments : dm.segments = seg :: segments) (hlength : e.length = seg.distance)
    (hcarried : |e.carried| < 1) (hsteps : e.steps = e.netSteps)
    (hbalance : e.position + e.carried =
      dm.positionAtSegmentStart + dm.distanceCarriedForwards + seg.distance)
    (hdcf : dm'.distanceCarriedForwards = e.carried)
    (hposition : dm'.positionAtSegmentStart = e.position) (hended : dm'.ended = e :: dm.ended)
    (hrest : dm'.segments = segments) (hadjustments : dm'.adjustments = dm.adjustments)
    (herrors : dm'.errors = dm.errors) : Ledger initial given dm' := by
  have htotal := h.position
  have hlengths := h.lengths
  have hdurations := h.durations
  have hcons : endedDistance (e :: dm.ended) = seg.distance + endedDistance dm.ended := by
    rw [← hlength]
    exact List.sum_cons
  have htail : totalDistance (seg :: segments) = seg.distance + totalDistance segments :=
    List.sum_cons
  rw [hsegments] at hlengths hdurations
  rw [htail] at hlengths
  have hsum : (e.position : ℚ) + e.carried = initial + endedDistance (e :: dm.ended) := by
    rw [hbalance, hcons]
    linarith
  refine ⟨hdcf ▸ hcarried, ?_, ?_, ?_, herrors ▸ h.errors, ?_⟩
  · rw [hposition, hdcf, hended]
    exact hsum
  · rw [hended, hrest, hcons, hadjustments]
    linarith
  · rw [hended]
    exact ⟨hsum, hcarried, hsteps, h.accounts⟩
  · rw [hrest]
    exact fun e he => hdurations e (List.mem_cons_of_mem seg he)

/-- A plan without steps is made for no whole step. -/
lemma Plans.net_eq_zero {net : ℤ} {p : MotionPlan} (h : Plans net p) (hlow : 1 ≤ p.segmentStepLimit)
    (hlimit : ¬ 1 < p.segmentStepLimit) : net = 0 := by
  have hone : p.segmentStepLimit = 1 := by omega
  cases h with
  | oneWay _ _ hnet => rw [hnet, hone, sub_self, mul_zero]
  | reversing _ hstart hbefore _ => omega

/-- Preparing a segment with steps. -/
lemma started_of_planned (dm : DriveMovement) (seg : MoveSegment ℚ)
    (segments : List (MoveSegment ℚ)) {seg' : MoveSegment ℚ} {p : MotionPlan}
    (hposition : dm.currentMotorPosition = dm.positionAtSegmentStart)
    (hplanned : Planned seg dm.distanceCarriedForwards seg' p) (hlimit : 1 < p.segmentStepLimit) :
    Started { (dm.prepare p (truncate (seg.distance + dm.distanceCarriedForwards))).setDirection
      p.newDirection with segments := seg' :: segments } := by
  obtain ⟨changed, heq⟩ := setDirection_eq
    (dm.prepare p (truncate (seg.distance + dm.distanceCarriedForwards))) p.newDirection
  rw [heq]
  refine ⟨⟨seg', segments, rfl, ?_, le_rfl, hlimit.le, ?_⟩, rfl, hlimit, ?_, ?_⟩
  · have hsteps : dm.currentMotorPosition - dm.positionAtSegmentStart =
        multiplier p.newDirection * (1 - 1) := by
      rw [hposition, sub_self, sub_self, mul_zero]
    cases hplanned.plans with
    | oneWay hstate hsame hnet => exact .oneWay hstate hsame hnet hsteps
    | reversing hstate hstart hbefore hnet =>
      exact .forwards hstate hbefore hnet hsteps hstart.le
  · have hremainder := truncate_remainder (seg.distance + dm.distanceCarriedForwards)
    rw [leftOver, hplanned.distance]
    change Remainder (truncate _) (dm.distanceCarriedForwards + seg.distance - (truncate _ : ℤ))
    rwa [add_comm dm.distanceCarriedForwards]
  · intro hstate
    cases hplanned.plans with
    | oneWay hother _ _ =>
      change p.state = _ at hstate
      rw [hstate] at hother
      simp at hother
    | reversing _ hstart _ _ => exact hstart
  · change p.state ≠ _
    cases hplanned.plans with
    | oneWay hstate _ _ => rcases hstate with h | h | h <;> rw [h] <;> decide
    | reversing hstate _ _ _ => rw [hstate]; decide

/-- The loop of `NewSegment`, by induction on the segments that are left. -/
lemma examine_spec (now : UInt32) (segments : List (MoveSegment ℚ)) (dm : DriveMovement)
    (h : Ledger initial given { dm with segments := segments })
    (hposition : dm.currentMotorPosition = dm.positionAtSegmentStart) :
    Ledger initial given (examine now segments dm) ∧
      (Resting (examine now segments dm) ∨ Started (examine now segments dm)) ∧
      (examine now segments dm).errors = dm.errors := by
  induction segments generalizing dm with
  | nil => exact ⟨{ h with }, .inl ⟨hposition, .inl ⟨rfl, rfl⟩⟩, rfl⟩
  | cons seg rest ih =>
    rw [examine]
    simp only
    split
    · exact ⟨{ h with }, .inl ⟨hposition, .inr ⟨rfl, List.cons_ne_nil _ _⟩⟩, rfl⟩
    · have hduration : 0 < seg.setExecuting.duration.toNat := h.durations seg List.mem_cons_self
      have hplanned := plan_planned hduration h.carried
      change Planned seg.setExecuting dm.distanceCarriedForwards (plan seg.setExecuting
        dm.distanceCarriedForwards (truncate (seg.distance + dm.distanceCarriedForwards))).1 (plan
        seg.setExecuting dm.distanceCarriedForwards (truncate (seg.distance +
          dm.distanceCarriedForwards))).2 at hplanned
      generalize hplan : plan seg.setExecuting dm.distanceCarriedForwards
        (truncate (seg.distance + dm.distanceCarriedForwards)) = planned at hplanned
      obtain ⟨seg', p⟩ := planned
      have hdistance : seg'.distance = seg.distance := hplanned.distance
      have hseg' : seg'.duration = seg.duration := hplanned.duration
      split
      · next hlimit =>
        have hstarted := started_of_planned { dm with segmentFlags := seg.flags } seg.setExecuting
          rest hposition hplanned hlimit
        obtain ⟨changed, heq⟩ := setDirection_eq
          (prepare { dm with segmentFlags := seg.flags } p
            (truncate (seg.distance + dm.distanceCarriedForwards))) p.newDirection
        refine ⟨?_, .inr hstarted, ?_⟩
        · rw [heq]
          refine ⟨h.carried, h.position, ?_, h.accounts, h.errors, ?_⟩
          · have hlengths := h.lengths
            simp only [totalDistance, List.map_cons, List.sum_cons, hdistance] at hlengths ⊢
            exact hlengths
          · exact List.forall_mem_cons.mpr
              ⟨by rw [hseg']; exact hduration, (List.forall_mem_cons.mp h.durations).2⟩
        · rw [heq]
          rfl
      · next hlimit =>
        have hnone := hplanned.plans.net_eq_zero hplanned.limit hlimit
        change truncate (seg.distance + dm.distanceCarriedForwards) = 0 at hnone
        obtain ⟨hsmall, hskip⟩ := skip_eq (prepare { dm with segmentFlags := seg.flags } p
          (truncate (seg.distance + dm.distanceCarriedForwards))) seg' (by rw [hdistance]; exact hnone)
        rw [hskip, hdistance, hnone]
        rw [hdistance] at hsmall
        apply ih
        · apply h.leave (e := ⟨seg.distance,
            dm.currentMotorPosition - dm.positionAtSegmentStart, 0, dm.currentMotorPosition,
            dm.distanceCarriedForwards + seg.distance⟩) rfl rfl hsmall
          · change dm.currentMotorPosition - dm.positionAtSegmentStart = 0
            rw [hposition, sub_self]
          · change (dm.currentMotorPosition : ℚ) + (dm.distanceCarriedForwards + seg.distance) =
              dm.positionAtSegmentStart + dm.distanceCarriedForwards + seg.distance
            rw [hposition]
            ring
          · rfl
          · exact hposition.symm
          · rfl
          · rfl
          · rfl
          · rfl
        · exact hposition

lemma newSegment_spec (now : UInt32) (dm : DriveMovement)
    (h : Ledger initial given { dm with positionAtSegmentStart := dm.currentMotorPosition }) :
    Ledger initial given (dm.newSegment now) ∧
      (Resting (dm.newSegment now) ∨ Started (dm.newSegment now)) ∧
      (dm.newSegment now).errors = dm.errors :=
  examine_spec now dm.segments { dm with positionAtSegmentStart := dm.currentMotorPosition } h rfl

end NewSegment

/-! ### One step after another -/

/-- The steps that are made before the next calculation are all still due. -/
structure Moving (dm : DriveMovement) : Prop where
  active : ∃ seg rest, Active seg rest dm
  limit : dm.nextStep + dm.stepsTillRecalc < dm.segmentStepLimit
  reversal : dm.state = .cartDecelForwardsReversing →
    dm.nextStep + dm.stepsTillRecalc < dm.reverseStartStep

/-- The books are kept, and the drive rests, moves or has been stopped by an error. -/
structure Sound (initial given : ℚ) (dm : DriveMovement) : Prop where
  ledger : Ledger initial given dm
  mode : Resting dm ∨ Moving dm ∨ dm.errors ≠ [] ∧ dm.state ≠ .idle

section Steps

variable {initial given : ℚ} {dm : DriveMovement} {seg : MoveSegment ℚ}
  {rest : List (MoveSegment ℚ)}

lemma Course.state_ne_idle (h : Course dm) : dm.state ≠ .idle := by
  cases h with
  | oneWay hstate => rcases hstate with h | h | h <;> rw [h] <;> decide
  | forwards hstate => rw [hstate]; decide
  | reverse hstate => rw [hstate]; decide

/-- A step of the program that does not concern the course of the segment. -/
structure SameCourse (dm dm' : DriveMovement) : Prop where
  state : dm'.state = dm.state
  direction : dm'.direction = dm.direction
  netSteps : dm'.netStepsThisSegment = dm.netStepsThisSegment
  limit : dm'.segmentStepLimit = dm.segmentStepLimit
  reverseStart : dm'.reverseStartStep = dm.reverseStartStep
  position : dm'.currentMotorPosition = dm.currentMotorPosition
  start : dm'.positionAtSegmentStart = dm.positionAtSegmentStart
  nextStep : dm'.nextStep = dm.nextStep

lemma Course.congr {dm' : DriveMovement} (h : Course dm) (hsame : SameCourse dm dm') :
    Course dm' := by
  cases h with
  | oneWay hstate hlimit hnet hsteps =>
    apply Course.oneWay <;> simpa only [hsame.state, hsame.reverseStart, hsame.limit,
      hsame.netSteps, hsame.direction, hsame.position, hsame.start, hsame.nextStep]
  | forwards hstate hlimit hnet hsteps hnext =>
    apply Course.forwards <;> simpa only [hsame.state, hsame.reverseStart, hsame.limit,
      hsame.netSteps, hsame.direction, hsame.position, hsame.start, hsame.nextStep]
  | reverse hstate hlimit hnet hsteps hnext =>
    apply Course.reverse <;> simpa only [hsame.state, hsame.reverseStart, hsame.limit,
      hsame.netSteps, hsame.direction, hsame.position, hsame.start, hsame.nextStep]

lemma Active.congr {dm' : DriveMovement} (h : Active seg rest dm) (hsame : SameCourse dm dm')
    (hsegments : dm'.segments = dm.segments)
    (hcarried : dm'.distanceCarriedForwards = dm.distanceCarriedForwards) : Active seg rest dm' := by
  refine ⟨hsegments.trans h.segments, h.course.congr hsame, hsame.nextStep ▸ h.first, ?_, ?_⟩
  · rw [hsame.nextStep, hsame.limit]
    exact h.last
  · rw [leftOver, hcarried, hsame.netSteps]
    exact h.remainder

lemma Moving.state_ne_idle (h : Moving dm) : dm.state ≠ .idle := by
  obtain ⟨seg, rest, hactive⟩ := h.active
  exact hactive.course.state_ne_idle

lemma storeInterval_sound (t : StepTiming) (h : Ledger initial given dm) (hmoving : Moving dm) :
    Sound initial given (dm.storeInterval t) := by
  cases t with
  | unreasonable =>
    refine ⟨{ h with errors := ?_ }, .inr (.inr ⟨List.cons_ne_nil _ _, hmoving.state_ne_idle⟩)⟩
    exact List.forall_mem_cons.mpr ⟨.inr rfl, h.errors⟩
  | interval clocks =>
    rw [storeInterval]
    split
    · exact ⟨h, .inr (.inl hmoving)⟩
    · obtain ⟨⟨seg, rest, hactive⟩, hlimit, hreversal⟩ := hmoving
      have hsame : SameCourse dm { dm with stepInterval := clocks } :=
        ⟨rfl, rfl, rfl, rfl, rfl, rfl, rfl, rfl⟩
      exact ⟨{ h with }, .inr (.inl ⟨⟨seg, rest, hactive.congr hsame rfl rfl⟩, hlimit, hreversal⟩)⟩

lemma calcTime_plain (t : StepTiming) (shiftFactor : ℕ)
    (hstate : dm.state = .cartLinear ∨ dm.state = .cartAccel ∨ dm.state = .cartDecelNoReverse ∨
      dm.state = .cartDecelReverse) : dm.calcTime t shiftFactor =
        storeInterval { dm with stepsTillRecalc := 2 ^ shiftFactor - 1 } t := by
  rw [calcTime]
  split
  iterate 4 rfl
  all_goals
    next h =>
      change dm.state = _ at h
      rw [h] at hstate
      simp at hstate

lemma calcTime_forwards (t : StepTiming) (shiftFactor : ℕ)
    (hstate : dm.state = .cartDecelForwardsReversing) : dm.calcTime t shiftFactor =
      if dm.nextStep + (2 ^ shiftFactor - 1 : ℕ) < dm.reverseStartStep then
        storeInterval { dm with stepsTillRecalc := 2 ^ shiftFactor - 1 } t
      else storeInterval { dm with
        stepsTillRecalc := 2 ^ shiftFactor - 1
        direction := !dm.direction
        directionChanged := true
        state := .cartDecelReverse } t := by
  rw [calcTime]
  split
  case h_5 => rfl
  all_goals
    next h =>
      change dm.state = _ at h
      exact absurd (h.symm.trans hstate) (by decide)

/-- The calculation of a step time, at a reversal as elsewhere. -/
lemma calcTime_sound (t : StepTiming) (shiftFactor : ℕ) (h : Ledger initial given dm)
    (hactive : Active seg rest dm)
    (hlimit : dm.nextStep + (2 ^ shiftFactor - 1 : ℕ) < dm.segmentStepLimit)
    (hreversal : dm.state = .cartDecelForwardsReversing → dm.nextStep = dm.reverseStartStep ∨
      dm.nextStep + (2 ^ shiftFactor - 1 : ℕ) < dm.reverseStartStep) :
    Sound initial given (dm.calcTime t shiftFactor) := by
  have hsame : SameCourse dm { dm with stepsTillRecalc := 2 ^ shiftFactor - 1 } :=
    ⟨rfl, rfl, rfl, rfl, rfl, rfl, rfl, rfl⟩
  have hactive' := hactive.congr hsame rfl rfl
  have hplain : dm.state ≠ .cartDecelForwardsReversing →
      Sound initial given (storeInterval { dm with stepsTillRecalc := 2 ^ shiftFactor - 1 } t) :=
    fun hstate => storeInterval_sound t { h with }
      ⟨⟨seg, rest, hactive'⟩, hlimit, fun hforwards => absurd hforwards hstate⟩
  cases hactive.course with
  | oneWay hstate hsame hnet hsteps =>
    rw [calcTime_plain t shiftFactor (by tauto)]
    apply hplain
    rcases hstate with hstate | hstate | hstate <;> rw [hstate] <;> decide
  | reverse hstate hbefore hnet hsteps hnext =>
    rw [calcTime_plain t shiftFactor (by tauto)]
    apply hplain
    rw [hstate]
    decide
  | forwards hstate hbefore hnet hsteps hnext =>
    rw [calcTime_forwards t shiftFactor hstate]
    split
    · next hforwards =>
      exact storeInterval_sound t { h with } ⟨⟨seg, rest, hactive'⟩, hlimit, fun _ => hforwards⟩
    · next hturn =>
      have hnow : dm.nextStep = dm.reverseStartStep := by
        rcases hreversal hstate with hnow | hlater
        · exact hnow
        · exact absurd hlater hturn
      apply storeInterval_sound t
      · exact { h with }
      refine ⟨⟨seg, rest, hactive.segments, ?_, hactive.first, hactive.last, hactive.remainder⟩,
        hlimit, fun hforwards => absurd hforwards (by simp)⟩
      apply Course.reverse
      · rfl
      · exact hbefore
      · change dm.netStepsThisSegment = multiplier (!dm.direction) * _
        rw [hnet]
        rcases multiplier_cases dm.direction with ⟨h1, h2⟩ | ⟨h1, h2⟩ <;> rw [h1, h2] <;> ring
      · change _ = multiplier (!dm.direction) * (dm.nextStep - 2 * dm.reverseStartStep + 1)
        rw [hsteps, ← hnow]
        rcases multiplier_cases dm.direction with ⟨h1, h2⟩ | ⟨h1, h2⟩ <;> rw [h1, h2] <;> ring
      · exact hnow.ge

lemma Course.state_ne_stepError (h : Course dm) : dm.state ≠ .stepError := by
  cases h with
  | oneWay hstate => rcases hstate with h | h | h <;> rw [h] <;> decide
  | forwards hstate => rw [hstate]; decide
  | reverse hstate => rw [hstate]; decide

lemma Course.state_ne_starting (h : Course dm) : dm.state ≠ .starting := by
  cases h with
  | oneWay hstate => rcases hstate with h | h | h <;> rw [h] <;> decide
  | forwards hstate => rw [hstate]; decide
  | reverse hstate => rw [hstate]; decide

/-- At the limit of its steps, a segment has taken those planned. -/
lemma Active.steps (h : Active seg rest dm) (hlimit : dm.segmentStepLimit - dm.nextStep ≤ 0) :
    dm.currentMotorPosition - dm.positionAtSegmentStart = dm.netStepsThisSegment := by
  have hlast : dm.nextStep = dm.segmentStepLimit := by
    have := h.last
    omega
  cases h.course with
  | oneWay hstate hsame hnet hsteps => rw [hsteps, hnet, hlast]
  | forwards hstate hbefore hnet hsteps hnext => omega
  | reverse hstate hbefore hnet hsteps hnext => rw [hsteps, hnet, hlast]

lemma started_sound (t : StepTiming) (h : Ledger initial given dm) (hstarted : Started dm) :
    Sound initial given (calcTime t 0 { dm with stepsTakenThisSegment := 1 }) := by
  obtain ⟨⟨seg, rest, hactive⟩, hnext, hlimit, hreversal, -⟩ := hstarted
  have hsame : SameCourse dm { dm with stepsTakenThisSegment := 1 } :=
    ⟨rfl, rfl, rfl, rfl, rfl, rfl, rfl, rfl⟩
  have hledger : Ledger initial given { dm with stepsTakenThisSegment := 1 } := { h with }
  apply calcTime_sound t 0 hledger (hactive.congr hsame rfl rfl)
  · change dm.nextStep + 0 < dm.segmentStepLimit
    omega
  · intro hstate
    have hafter := hreversal hstate
    right
    change dm.nextStep + 0 < dm.reverseStartStep
    omega

lemma finishSegment_sound (now : UInt32) (t : StepTiming) (h : Ledger initial given dm)
    (hactive : Active seg rest dm) (hlimit : dm.segmentStepLimit - dm.nextStep ≤ 0) :
    Sound initial given (dm.finishSegment now t seg rest) := by
  have hsteps := hactive.steps hlimit
  have hsmall := hactive.remainder.small
  rw [finishSegment]
  simp only
  rw [if_neg hsmall.le.not_gt, if_neg (not_not.mpr hsteps)]
  have hleft : Ledger initial given { (recordEnd { dm with
      distanceCarriedForwards := dm.leftOver seg
      movementAccumulator := dm.movementAccumulator + dm.netStepsThisSegment
      segments := rest } seg.distance) with positionAtSegmentStart := dm.currentMotorPosition } := by
    apply h.leave hactive.segments (e := ⟨seg.distance, dm.currentMotorPosition -
      dm.positionAtSegmentStart, dm.netStepsThisSegment, dm.currentMotorPosition, dm.leftOver seg⟩)
      rfl hsmall hsteps
    · change (dm.currentMotorPosition : ℚ) + dm.leftOver seg = _
      have hcast : (dm.currentMotorPosition : ℚ) - dm.positionAtSegmentStart =
        dm.netStepsThisSegment := by exact_mod_cast hsteps
      rw [leftOver]
      linarith
    · rfl
    · rfl
    · rfl
    · rfl
    · rfl
    · rfl
  obtain ⟨hledger, hmode, -⟩ := newSegment_spec now _ hleft
  generalize DriveMovement.newSegment now _ = r at hledger hmode
  rcases hmode with hresting | hstarted
  · split
    · exact ⟨hledger, .inl hresting⟩
    · next hsegments =>
      rcases hresting.state with ⟨-, hnone⟩ | ⟨hstarting, -⟩
      · rw [hnone] at hsegments
        exact absurd hsegments (List.cons_ne_nil _ _).symm
      · rw [if_pos hstarting]
        exact ⟨hledger, .inl hresting⟩
  · obtain ⟨seg', rest', hactive'⟩ := hstarted.active
    split
    · next hsegments =>
      rw [hactive'.segments] at hsegments
      exact absurd hsegments (List.cons_ne_nil _ _)
    · rw [if_neg hactive'.course.state_ne_starting]
      split
      · exact ⟨{ hledger with errors := List.forall_mem_cons.mpr ⟨.inl rfl, hledger.errors⟩ },
          .inr (.inr ⟨List.cons_ne_nil _ _, hactive'.course.state_ne_idle⟩)⟩
      · exact started_sound t hledger hstarted

/-- Several steps at once never go beyond the next change. -/
lemma shiftFactor_lt (dm : DriveMovement) (h : 0 < dm.stepsToChange) :
    ((2 ^ dm.shiftFactor - 1 : ℕ) : ℤ) < dm.stepsToChange := by
  rw [shiftFactor]
  split_ifs with h1 h2 h3 h4 <;> norm_num <;> omega

lemma calcOrFinish_eq (now : UInt32) (t : StepTiming) (hsegments : dm.segments = seg :: rest) :
    dm.calcOrFinish now t =
      if dm.segmentStepLimit - dm.nextStep ≤ 0 then dm.finishSegment now t seg rest
      else if dm.stepsTakenThisSegment < 2 then
        calcTime t 0 { dm with stepsTakenThisSegment := dm.stepsTakenThisSegment + 1 }
      else dm.calcTime t dm.shiftFactor := by
  rw [calcOrFinish]
  split
  · next hnone => exact absurd (hnone.symm.trans hsegments) (List.cons_ne_nil _ _).symm
  · next seg' rest' hcons =>
    obtain ⟨rfl, rfl⟩ := List.cons.inj (hcons.symm.trans hsegments)
    rfl

/-- A drive that is going to reverse is still before the first step after the reversal. -/
lemma Active.before_reversal (h : Active seg rest dm)
    (hstate : dm.state = .cartDecelForwardsReversing) :
    dm.nextStep ≤ dm.reverseStartStep ∧ dm.reverseStartStep < dm.segmentStepLimit := by
  cases h.course with
  | oneWay hother => rw [hstate] at hother; simp at hother
  | forwards _ hbefore _ _ hnext => exact ⟨hnext, hbefore⟩
  | reverse hother => exact absurd (hstate.symm.trans hother) (by decide)

/-- What follows the check for the end of the motion. -/
lemma calcOrFinish_sound (now : UInt32) (t : StepTiming) (h : Ledger initial given dm)
    (hactive : Active seg rest dm) : Sound initial given (dm.calcOrFinish now t) := by
  rw [calcOrFinish_eq now t hactive.segments]
  split
  · next hlimit => exact finishSegment_sound now t h hactive hlimit
  · next hlimit =>
    split
    · have hsame : SameCourse dm { dm with stepsTakenThisSegment := dm.stepsTakenThisSegment + 1 } :=
        ⟨rfl, rfl, rfl, rfl, rfl, rfl, rfl, rfl⟩
      have hledger : Ledger initial given
        { dm with stepsTakenThisSegment := dm.stepsTakenThisSegment + 1 } := { h with }
      apply calcTime_sound t 0 hledger (hactive.congr hsame rfl rfl)
      · change dm.nextStep + 0 < dm.segmentStepLimit
        omega
      · intro hstate
        change dm.nextStep = dm.reverseStartStep ∨ dm.nextStep + 0 < dm.reverseStartStep
        have hbefore := (hactive.before_reversal hstate).1
        omega
    · by_cases hturn : dm.nextStep = dm.reverseStartStep ∧
          dm.reverseStartStep < dm.segmentStepLimit
      · -- at the reversal there is no step left to the next change, so that one step is made
        have hzero : dm.stepsToChange = 0 := by
          rw [stepsToChange, if_pos ⟨hturn.2, hturn.1.le⟩, hturn.1, sub_self]
        have hshift : dm.shiftFactor = 0 := by
          rw [shiftFactor, hzero, if_neg (by omega)]
        rw [hshift]
        apply calcTime_sound t 0 h hactive
        · change dm.nextStep + 0 < dm.segmentStepLimit
          omega
        · exact fun _ => .inl hturn.1
      · have hpositive : 0 < dm.stepsToChange := by
          rw [stepsToChange]
          split <;> omega
        have hlt := shiftFactor_lt dm hpositive
        have hlimits : dm.stepsToChange ≤ dm.segmentStepLimit - dm.nextStep := by
          rw [stepsToChange]
          split <;> omega
        apply calcTime_sound t dm.shiftFactor h hactive
        · omega
        · intro hstate
          obtain ⟨hnext, hbefore⟩ := hactive.before_reversal hstate
          rw [stepsToChange, if_pos ⟨hbefore, hnext⟩] at hlt
          omega

/-! ### The end of the motion -/

lemma remainder_zero (net : ℤ) : Remainder net 0 :=
  ⟨by rw [abs_zero]; exact one_pos, fun _ => le_rfl, fun _ => le_rfl⟩

lemma adjustLength_eq (hsegments : dm.segments = seg :: rest) (x : ℚ) :
    dm.adjustLength x = { dm with
      segments := seg.adjustLength x :: rest
      adjustments := x :: dm.adjustments } := by
  rw [DriveMovement.adjustLength]
  split
  · next hnone => exact absurd (hnone.symm.trans hsegments) (List.cons_ne_nil _ _).symm
  · next seg' rest' hcons =>
    obtain ⟨rfl, rfl⟩ := List.cons.inj (hcons.symm.trans hsegments)
    rfl

/-- A correction of a length is entered in the books. -/
lemma Ledger.adjust (h : Ledger initial given dm) (hsegments : dm.segments = seg :: rest) (x : ℚ) :
    Ledger initial given (dm.adjustLength x) := by
  rw [adjustLength_eq hsegments]
  have hlengths := h.lengths
  have hdurations := h.durations
  rw [hsegments] at hlengths hdurations
  refine ⟨h.carried, h.position, ?_, h.accounts, h.errors, ?_⟩
  · simp only [totalDistance, List.map_cons, List.sum_cons, MoveSegment.adjustLength] at hlengths ⊢
    linarith
  · exact List.forall_mem_cons.mpr (List.forall_mem_cons.mp hdurations)

lemma stopsSoon_iff : dm.stopsSoon seg rest = true ↔ dm.segmentStepLimit - dm.nextStep = 1 ∧
    rest = [] ∧ seg.flags.isExtruder = false ∧ dm.reverseStartStep ≠ dm.nextStep := by
  rw [stopsSoon]
  simp only [Bool.and_eq_true, decide_eq_true_eq, List.isEmpty_iff, Bool.not_eq_true', and_assoc]

/-- One more step in the direction in which the drive is moving. -/
lemma Course.extra (h : Course dm) (hlast : dm.segmentStepLimit - dm.nextStep = 1)
    (hturn : dm.reverseStartStep ≠ dm.nextStep) :
    Course (dm.roundLastStep true (dm.netStepsThisSegment + multiplier dm.direction)) := by
  rw [roundLastStep, if_pos rfl]
  cases h with
  | oneWay hstate hsame hnet hsteps =>
    apply Course.oneWay
    · exact hstate
    · change (if dm.reverseStartStep = dm.segmentStepLimit then dm.segmentStepLimit + 1 else _) = _
      rw [if_pos hsame]
    · change dm.netStepsThisSegment + multiplier dm.direction =
        multiplier dm.direction * (dm.segmentStepLimit + 1 - 1)
      rw [hnet]
      ring
    · exact hsteps
  | forwards hstate hbefore hnet hsteps hnext => omega
  | reverse hstate hbefore hnet hsteps hnext =>
    have hkeep : (if dm.reverseStartStep = dm.segmentStepLimit then dm.segmentStepLimit + 1 else
      dm.reverseStartStep) = dm.reverseStartStep := if_neg hbefore.ne
    rw [hkeep]
    apply Course.reverse
    · exact hstate
    · change dm.reverseStartStep < dm.segmentStepLimit + 1
      omega
    · change dm.netStepsThisSegment + multiplier dm.direction =
        multiplier dm.direction * (dm.segmentStepLimit + 1 - 2 * dm.reverseStartStep + 1)
      rw [hnet]
      ring
    · exact hsteps
    · exact hnext

/-- One step less, after a reversal. -/
lemma Course.less (h : Course dm) (hstate : dm.state = .cartDecelReverse)
    (hlast : dm.segmentStepLimit - dm.nextStep = 1) (hturn : dm.reverseStartStep ≠ dm.nextStep) :
    Course (dm.roundLastStep false (dm.netStepsThisSegment - multiplier dm.direction)) := by
  rw [roundLastStep, if_neg Bool.false_ne_true]
  cases h with
  | oneWay hother => rw [hstate] at hother; simp at hother
  | forwards hother => exact absurd (hstate.symm.trans hother) (by decide)
  | reverse _ hbefore hnet hsteps hnext =>
    apply Course.reverse
    · exact hstate
    · change dm.reverseStartStep < dm.segmentStepLimit - 1
      omega
    · change dm.netStepsThisSegment - multiplier dm.direction =
        multiplier dm.direction * (dm.segmentStepLimit - 1 - 2 * dm.reverseStartStep + 1)
      rw [hnet]
      ring
    · exact hsteps
    · exact hnext

/-- What is left over is against the direction of the last step only after a reversal. -/
lemma Active.reversed (h : Active seg rest dm) (hlast : dm.segmentStepLimit - dm.nextStep = 1)
    (hturn : dm.reverseStartStep ≠ dm.nextStep)
    (hagainst : dm.direction = true ∧ dm.leftOver seg < 0 ∨
      dm.direction = false ∧ 0 < dm.leftOver seg) : dm.state = .cartDecelReverse := by
  have hfirst := h.first
  cases h.course with
  | oneWay hstate hsame hnet hsteps =>
    rcases hagainst with ⟨hdirection, hneg⟩ | ⟨hdirection, hpos⟩
    · rw [hdirection, multiplier, if_pos rfl, one_mul] at hnet
      exact absurd hneg (h.remainder.forwards (by omega)).not_gt
    · rw [hdirection, multiplier, if_neg Bool.false_ne_true] at hnet
      exact absurd hpos (h.remainder.backwards (by omega)).not_gt
  | forwards hstate hbefore hnet hsteps hnext => omega
  | reverse hstate hbefore hnet hsteps hnext => exact hstate

/-- Adjusting the length so that nothing is left over beside the corrected number of steps. -/
lemma Active.round {dm' : DriveMovement} (h : Active seg rest dm) {x : ℚ}
    (hsegments : dm'.segments = seg.adjustLength x :: rest)
    (hcarried : dm'.distanceCarriedForwards = dm.distanceCarriedForwards) (hcourse : Course dm')
    (hnext : dm'.nextStep = dm.nextStep) (hlast : dm'.nextStep ≤ dm'.segmentStepLimit)
    (hbalance : dm.leftOver seg + x = dm'.netStepsThisSegment - dm.netStepsThisSegment) :
    Active (seg.adjustLength x) rest dm' := by
  refine ⟨hsegments, hcourse, hnext ▸ h.first, hlast, ?_⟩
  have hzero : dm'.leftOver (seg.adjustLength x) = 0 := by
    rw [leftOver] at hbalance ⊢
    rw [hcarried]
    change dm.distanceCarriedForwards + (seg.distance + x) - dm'.netStepsThisSegment = 0
    linarith
  rw [hzero]
  exact remainder_zero _

lemma Ledger.round (h : Ledger initial given dm) (extra : Bool) (net : ℤ) :
    Ledger initial given (dm.roundLastStep extra net) := by
  rw [roundLastStep]
  split
  · exact { h with }
  · exact { h with }

lemma Active.round_extra (h : Active seg rest dm) (hsame : ∀ x, SameCourse dm (dm.adjustLength x))
    (hlast : dm.segmentStepLimit - dm.nextStep = 1) (hturn : dm.reverseStartStep ≠ dm.nextStep)
    {x : ℚ} {net : ℤ} (hnet : net = dm.netStepsThisSegment + multiplier dm.direction)
    (hbalance : dm.leftOver seg + x = multiplier dm.direction) :
    Active (seg.adjustLength x) rest ((dm.adjustLength x).roundLastStep true net) := by
  have heq := adjustLength_eq h.segments x
  have hcourse := (h.course.congr (hsame x)).extra (by rw [heq]; exact hlast) (by rw [heq]; exact hturn)
  rw [(hsame x).netSteps, (hsame x).direction, ← hnet] at hcourse
  apply h.round _ _ hcourse
  · rw [heq]
    rfl
  · rw [heq]
    change dm.nextStep ≤ dm.segmentStepLimit + 1
    omega
  · rw [heq]
    change dm.leftOver seg + x = (net : ℚ) - dm.netStepsThisSegment
    rw [hnet, hbalance]
    push_cast
    ring
  · rw [heq]
    rfl
  · rw [heq]
    rfl

lemma Active.round_less (h : Active seg rest dm) (hsame : ∀ x, SameCourse dm (dm.adjustLength x))
    (hstate : dm.state = .cartDecelReverse) (hlast : dm.segmentStepLimit - dm.nextStep = 1)
    (hturn : dm.reverseStartStep ≠ dm.nextStep) {x : ℚ} {net : ℤ}
    (hnet : net = dm.netStepsThisSegment - multiplier dm.direction)
    (hbalance : dm.leftOver seg + x = -multiplier dm.direction) :
    Active (seg.adjustLength x) rest ((dm.adjustLength x).roundLastStep false net) := by
  have heq := adjustLength_eq h.segments x
  have hcourse := (h.course.congr (hsame x)).less (by rw [heq]; exact hstate)
    (by rw [heq]; exact hlast) (by rw [heq]; exact hturn)
  rw [(hsame x).netSteps, (hsame x).direction, ← hnet] at hcourse
  apply h.round _ _ hcourse
  · rw [heq]
    rfl
  · rw [heq]
    change dm.nextStep ≤ dm.segmentStepLimit - 1
    omega
  · rw [heq]
    change dm.leftOver seg + x = (net : ℚ) - dm.netStepsThisSegment
    rw [hnet, hbalance]
    push_cast
    ring
  · rw [heq]
    rfl
  · rw [heq]
    rfl

lemma endOnMicrostep_spec (h : Ledger initial given dm) (hactive : Active seg rest dm)
    (hsoon : dm.stopsSoon seg rest = true)
    (hok : ¬ (dm.direction = false ∧ 0.95 < dm.leftOver seg)) :
    Ledger initial given (dm.endOnMicrostep (dm.leftOver seg)) ∧
      ∃ seg', Active seg' rest (dm.endOnMicrostep (dm.leftOver seg)) := by
  obtain ⟨hlast, -, -, hturn⟩ := stopsSoon_iff.mp hsoon
  have hsegments := hactive.segments
  have hadjust := h.adjust hsegments
  have heq := adjustLength_eq hsegments
  have hsame : ∀ x, SameCourse dm (dm.adjustLength x) := by
    intro x
    rw [heq]
    exact ⟨rfl, rfl, rfl, rfl, rfl, rfl, rfl, rfl⟩
  rw [endOnMicrostep]
  split
  · refine ⟨hadjust _, _, hactive.round (x := -dm.leftOver seg) ?_ ?_ (hactive.course.congr (hsame _))
      (hsame _).nextStep ?_ ?_⟩
    · rw [heq]
    · rw [heq]
    · rw [(hsame _).nextStep, (hsame _).limit]
      omega
    · rw [(hsame _).netSteps]
      ring
  · split
    · next hlarge =>
      have hforwards : dm.direction = true := by
        by_contra hbackwards
        exact hok ⟨Bool.eq_false_of_not_eq_true hbackwards, hlarge⟩
      simp only
      rw [(hsame _).direction, if_pos hforwards]
      refine ⟨(hadjust _).round _ _, _, hactive.round_extra hsame hlast hturn ?_ ?_⟩
      · rw [(hsame _).netSteps, hforwards]
        rfl
      · rw [hforwards, multiplier, if_pos rfl]
        push_cast
        ring
    · split
      · next hsmall =>
        simp only
        rw [(hsame _).direction]
        split
        · next hforwards =>
          have hreversed := hactive.reversed hlast hturn (.inl ⟨hforwards, by linarith⟩)
          refine ⟨(hadjust _).round _ _, _, hactive.round_less hsame hreversed hlast hturn ?_ ?_⟩
          · rw [(hsame _).netSteps, hforwards]
            rfl
          · rw [hforwards, multiplier, if_pos rfl]
            push_cast
            ring
        · next hbackwards =>
          refine ⟨(hadjust _).round _ _, _, hactive.round_extra hsame hlast hturn ?_ ?_⟩
          · rw [(hsame _).netSteps, Bool.eq_false_of_not_eq_true hbackwards]
            rfl
          · rw [Bool.eq_false_of_not_eq_true hbackwards, multiplier, if_neg Bool.false_ne_true]
            push_cast
            ring
      · exact ⟨h, seg, hactive⟩

/-- Whether the last step of an axis that moves backwards is about to be calculated, with nearly a
step left over forwards. -/
def overshoots (dm : DriveMovement) : Bool :=
  match dm.segments with
  | [seg] => dm.stopsSoon seg [] && !dm.direction && decide (0.95 < dm.leftOver seg)
  | _ => false

lemma calcNextStepTimeFull_eq (now : UInt32) (t : StepTiming) (hsegments : dm.segments = seg :: rest) :
    dm.calcNextStepTimeFull now t =
      if dm.stopsSoon seg rest then (dm.endOnMicrostep (dm.leftOver seg)).calcOrFinish now t
      else dm.calcOrFinish now t := by
  rw [calcNextStepTimeFull]
  split
  · next hnone => exact absurd (hnone.symm.trans hsegments) (List.cons_ne_nil _ _).symm
  · next seg' rest' hcons =>
    obtain ⟨rfl, rfl⟩ := List.cons.inj (hcons.symm.trans hsegments)
    rfl

lemma calcNextStepTimeFull_sound (now : UInt32) (t : StepTiming) (h : Ledger initial given dm)
    (hactive : Active seg rest dm) (hok : overshoots dm = false) :
    Sound initial given (dm.calcNextStepTimeFull now t) := by
  rw [calcNextStepTimeFull_eq now t hactive.segments]
  split
  · next hsoon =>
    have hrest : rest = [] := (stopsSoon_iff.mp hsoon).2.1
    have hkeep : ¬ (dm.direction = false ∧ 0.95 < dm.leftOver seg) := by
      rintro ⟨hdirection, hlarge⟩
      rw [overshoots, hactive.segments, hrest] at hok
      rw [hrest] at hsoon
      simp [hsoon, hdirection, hlarge] at hok
    obtain ⟨hledger, seg', hactive'⟩ := endOnMicrostep_spec h hactive hsoon hkeep
    exact calcOrFinish_sound now t hledger hactive'
  · exact calcOrFinish_sound now t h hactive

/-- The first step of a segment is not the last one before a stop in the wrong direction. -/
lemma Started.not_overshoots (h : Started dm) : overshoots dm = false := by
  obtain ⟨seg, rest, hactive⟩ := h.active
  rw [overshoots, hactive.segments]
  split
  · next seg' hsegments =>
    obtain ⟨rfl, rfl⟩ := List.cons.inj hsegments
    by_contra hovershoots
    rw [Bool.not_eq_false, Bool.and_eq_true, Bool.and_eq_true, decide_eq_true_eq,
      Bool.not_eq_true'] at hovershoots
    obtain ⟨⟨hsoon, hdirection⟩, hlarge⟩ := hovershoots
    obtain ⟨hlast, -, -, hturn⟩ := stopsSoon_iff.mp hsoon
    exact h.state (hactive.reversed hlast hturn (.inr ⟨hdirection, by linarith⟩))
  · rfl

lemma Moving.takeStep (h : Moving dm) : (∃ seg rest, Active seg rest dm.takeStep) ∧
    dm.takeStep.nextStep + dm.stepsTillRecalc ≤ dm.segmentStepLimit ∧
    (dm.state = .cartDecelForwardsReversing →
      dm.takeStep.nextStep + dm.stepsTillRecalc ≤ dm.reverseStartStep) := by
  obtain ⟨⟨seg, rest, hactive⟩, hlimit, hreversal⟩ := h
  have hfirst := hactive.first
  refine ⟨⟨seg, rest, hactive.segments, ?_, ?_, ?_, hactive.remainder⟩, ?_, ?_⟩
  · have hstep : dm.takeStep.currentMotorPosition - dm.positionAtSegmentStart =
        dm.currentMotorPosition - dm.positionAtSegmentStart + multiplier dm.direction := by
      rw [DriveMovement.takeStep]
      ring
    cases hactive.course with
    | oneWay hstate hsame hnet hsteps =>
      refine Course.oneWay hstate hsame hnet ?_
      change dm.takeStep.currentMotorPosition - dm.positionAtSegmentStart =
        multiplier dm.direction * (dm.nextStep + 1 - 1)
      rw [hstep, hsteps]
      ring
    | forwards hstate hbefore hnet hsteps hnext =>
      have hlater := hreversal hstate
      refine Course.forwards hstate hbefore hnet ?_ ?_
      · change dm.takeStep.currentMotorPosition - dm.positionAtSegmentStart =
          multiplier dm.direction * (dm.nextStep + 1 - 1)
        rw [hstep, hsteps]
        ring
      · change dm.nextStep + 1 ≤ dm.reverseStartStep
        omega
    | reverse hstate hbefore hnet hsteps hnext =>
      refine Course.reverse hstate hbefore hnet ?_ ?_
      · change dm.takeStep.currentMotorPosition - dm.positionAtSegmentStart =
          multiplier dm.direction * (dm.nextStep + 1 - 2 * dm.reverseStartStep + 1)
        rw [hstep, hsteps]
        ring
      · change dm.reverseStartStep ≤ dm.nextStep + 1
        omega
  · change 1 ≤ dm.nextStep + 1
    omega
  · change dm.nextStep + 1 ≤ dm.segmentStepLimit
    omega
  · change dm.nextStep + 1 + dm.stepsTillRecalc ≤ dm.segmentStepLimit
    omega
  · intro hstate
    have hlater := hreversal hstate
    change dm.nextStep + 1 + dm.stepsTillRecalc ≤ dm.reverseStartStep
    omega

/-- Whether the next interrupt is for the step after which the drive would overshoot. -/
def willOvershoot (dm : DriveMovement) : Bool :=
  !dm.hadStepError && decide (dm.state ≠ .idle) && decide (dm.state ≠ .starting) &&
    decide (dm.stepsTillRecalc = 0) && overshoots dm.takeStep

lemma calcNextStepTime_sound (now : UInt32) (t : StepTiming) (h : Ledger initial given dm)
    (hmoving : Moving dm) (hok : dm.stepsTillRecalc = 0 → overshoots dm.takeStep = false) :
    Sound initial given (dm.calcNextStepTime now t) := by
  obtain ⟨⟨seg, rest, hactive⟩, hlimit, hreversal⟩ := hmoving.takeStep
  have hledger : Ledger initial given dm.takeStep := { h with }
  rw [calcNextStepTime]
  split
  · next hmore =>
    change dm.stepsTillRecalc ≠ 0 at hmore
    have hledger' : Ledger initial given
      { dm.takeStep with stepsTillRecalc := dm.stepsTillRecalc - 1 } := { hledger with }
    have hsame : SameCourse dm.takeStep
        { dm.takeStep with stepsTillRecalc := dm.stepsTillRecalc - 1 } :=
      ⟨rfl, rfl, rfl, rfl, rfl, rfl, rfl, rfl⟩
    refine ⟨hledger', .inr (.inl ⟨⟨seg, rest, hactive.congr hsame rfl rfl⟩, ?_, ?_⟩)⟩
    · change dm.takeStep.nextStep + ((dm.stepsTillRecalc - 1 : ℕ) : ℤ) < dm.segmentStepLimit
      omega
    · intro hstate
      have hlater := hreversal hstate
      change dm.takeStep.nextStep + ((dm.stepsTillRecalc - 1 : ℕ) : ℤ) < dm.reverseStartStep
      omega
  · next hlast => exact calcNextStepTimeFull_sound now t hledger hactive (hok (not_not.mp hlast))

lemma start_sound (now : UInt32) (t : StepTiming)
    (h : Ledger initial given { dm with positionAtSegmentStart := dm.currentMotorPosition }) :
    Sound initial given (dm.start now t) := by
  obtain ⟨hledger, hmode, -⟩ := newSegment_spec now dm h
  rw [DriveMovement.start]
  rcases hmode with hresting | hstarted
  · have hstate : (dm.newSegment now).state = .idle ∨ (dm.newSegment now).state = .starting :=
      hresting.state.imp And.left And.left
    rw [if_pos hstate]
    exact ⟨hledger, .inl hresting⟩
  · obtain ⟨seg, rest, hactive⟩ := hstarted.active
    rw [if_neg (not_or.mpr ⟨hactive.course.state_ne_idle, hactive.course.state_ne_starting⟩)]
    exact calcNextStepTimeFull_sound now t hledger hactive hstarted.not_overshoots

lemma Sound.directionChanged (h : Sound initial given dm) (changed : Bool) :
    Sound initial given { dm with directionChanged := changed } := by
  have hsame : SameCourse dm { dm with directionChanged := changed } :=
    ⟨rfl, rfl, rfl, rfl, rfl, rfl, rfl, rfl⟩
  refine ⟨{ h.ledger with }, ?_⟩
  rcases h.mode with hresting | ⟨⟨seg, rest, hactive⟩, hlimit, hreversal⟩ | herror
  · exact .inl { hresting with }
  · exact .inr (.inl ⟨⟨seg, rest, hactive.congr hsame rfl rfl⟩, hlimit, hreversal⟩)
  · exact .inr (.inr herror)

lemma Sound.reinsert (h : Sound initial given dm) : Sound initial given dm.reinsert := by
  rw [DriveMovement.reinsert]
  split
  · exact h
  · exact h.directionChanged false

lemma Resting.ledger (hresting : Resting dm) (h : Ledger initial given dm) :
    Ledger initial given { dm with positionAtSegmentStart := dm.currentMotorPosition } := by
  refine { h with position := ?_ }
  change (dm.currentMotorPosition : ℚ) + dm.distanceCarriedForwards = _
  rw [hresting.position]
  exact h.position

lemma interrupt_sound (now : UInt32) (t : StepTiming) (h : Sound initial given dm)
    (hok : willOvershoot dm = false) : Sound initial given (dm.interrupt now t) := by
  rw [DriveMovement.interrupt]
  split
  · exact h
  · next hnoError =>
    rcases h.mode with hresting | hmoving | ⟨herror, -⟩
    · rcases hresting.state with ⟨hidle, -⟩ | ⟨hstarting, -⟩
      · rw [hidle]
        exact h
      · rw [hstarting]
        exact (start_sound now t (hresting.ledger h.ledger)).reinsert
    · obtain ⟨seg, rest, hactive⟩ := hmoving.active
      split
      · next hidle => exact absurd hidle hactive.course.state_ne_idle
      · next hstopped => exact absurd hstopped hactive.course.state_ne_stepError
      · next hstarting => exact absurd hstarting hactive.course.state_ne_starting
      · refine (calcNextStepTime_sound now t h.ledger hmoving ?_).reinsert
        intro hlast
        by_contra hovershoots
        rw [Bool.not_eq_false] at hovershoots
        have hstates : dm.state ≠ .idle ∧ dm.state ≠ .starting :=
          ⟨hactive.course.state_ne_idle, hactive.course.state_ne_starting⟩
        simp [willOvershoot, hnoError, hstates, hlast, hovershoots] at hok
    · have herror' : dm.hadStepError = true := by
        rw [hadStepError, Bool.not_eq_true', List.isEmpty_eq_false_iff]
        exact herror
      exact absurd herror' hnoError

lemma reinsert_errors (dm : DriveMovement) : dm.reinsert.errors = dm.errors := by
  rw [DriveMovement.reinsert]
  split <;> rfl

/-- The correction of the last step goes the wrong way and leaves two steps over. -/
lemma calcNextStepTimeFull_overshoots (now : UInt32) (t : StepTiming) (h : overshoots dm = true) :
    5 ∈ (dm.calcNextStepTimeFull now t).errors := by
  rw [overshoots] at h
  split at h
  · next seg hsegments =>
    rw [Bool.and_eq_true, Bool.and_eq_true, decide_eq_true_eq, Bool.not_eq_true'] at h
    obtain ⟨⟨hsoon, hbackwards⟩, hlarge⟩ := h
    obtain ⟨hlast, -, -, -⟩ := stopsSoon_iff.mp hsoon
    have hround : dm.endOnMicrostep (dm.leftOver seg) =
        (dm.adjustLength (1 - dm.leftOver seg)).roundLastStep false (dm.netStepsThisSegment - 1) := by
      have hbig : ¬ |dm.leftOver seg| < 0.05 := by
        rw [not_lt]
        exact (le_abs_self _).trans' (by linarith)
      rw [endOnMicrostep, if_neg hbig, if_pos hlarge]
      simp only [adjustLength_eq hsegments, hbackwards, Bool.false_eq_true, if_false]
    rw [calcNextStepTimeFull_eq now t hsegments, if_pos hsoon, hround, adjustLength_eq hsegments]
    have htwo : dm.distanceCarriedForwards + (seg.distance + (1 - dm.leftOver seg)) -
        ((dm.netStepsThisSegment - 1 : ℤ) : ℚ) = 2 := by
      rw [leftOver]
      push_cast
      ring
    rw [calcOrFinish_eq now t rfl, if_pos (by change dm.segmentStepLimit - 1 - dm.nextStep ≤ 0; omega),
      finishSegment]
    simp only
    rw [if_pos]
    · exact List.mem_cons_self
    · change 1 < |dm.distanceCarriedForwards + (seg.distance + (1 - dm.leftOver seg)) -
        ((dm.netStepsThisSegment - 1 : ℤ) : ℚ)|
      rw [htwo]
      norm_num
  · exact absurd h Bool.false_ne_true

lemma interrupt_overshoots (now : UInt32) (t : StepTiming) (h : Sound initial given dm)
    (hover : willOvershoot dm = true) : 5 ∈ (dm.interrupt now t).errors := by
  rw [willOvershoot] at hover
  simp only [Bool.and_eq_true, decide_eq_true_eq, Bool.not_eq_true'] at hover
  obtain ⟨⟨⟨⟨hnoError, hidle⟩, hstarting⟩, hlast⟩, hovershoots⟩ := hover
  rw [DriveMovement.interrupt, if_neg (by rw [hnoError]; exact Bool.false_ne_true)]
  rcases h.mode with hresting | hmoving | ⟨herror, -⟩
  · rcases hresting.state with ⟨hstate, -⟩ | ⟨hstate, -⟩
    · exact absurd hstate hidle
    · exact absurd hstate hstarting
  · obtain ⟨seg, rest, hactive⟩ := hmoving.active
    split
    · next hstate => exact absurd hstate hidle
    · next hstate => exact absurd hstate hactive.course.state_ne_stepError
    · next hstate => exact absurd hstate hstarting
    · rw [reinsert_errors, calcNextStepTime]
      have hrecalc : ¬ dm.takeStep.stepsTillRecalc ≠ 0 := not_not.mpr hlast
      rw [if_neg hrecalc]
      exact calcNextStepTimeFull_overshoots now t hovershoots
  · rw [hadStepError, Bool.not_eq_false', List.isEmpty_iff] at hnoError
    exact absurd hnoError herror

/-! ### Runs -/

lemma append_sound (now : UInt32) (t : StepTiming) (h : Sound initial given dm)
    (hduration : 0 < seg.duration.toNat) :
    Sound initial (given + seg.distance) (dm.append now t seg) := by
  have hledger : Ledger initial (given + seg.distance) { dm with segments := dm.segments ++ [seg] } := by
    refine { h.ledger with lengths := ?_, durations := ?_ }
    · have hlengths := h.ledger.lengths
      have hsum : totalDistance (dm.segments ++ [seg]) = totalDistance dm.segments + seg.distance := by
        simp [totalDistance]
      change endedDistance dm.ended + totalDistance (dm.segments ++ [seg]) = _
      rw [hsum]
      linarith
    · exact List.forall_mem_append.mpr ⟨h.ledger.durations, List.forall_mem_singleton.mpr hduration⟩
  rw [DriveMovement.append]
  rcases h.mode with hresting | hmoving | ⟨herror, hstate⟩
  · rcases hresting.state with ⟨hidle, -⟩ | ⟨hstarting, -⟩
    · rw [if_pos hidle]
      apply Sound.directionChanged
      apply start_sound now t
      refine { hledger with position := ?_ }
      exact (hresting.ledger h.ledger).position
    · rw [if_neg (show dm.state ≠ .idle by rw [hstarting]; decide)]
      exact ⟨hledger, .inl ⟨hresting.position, .inr ⟨hstarting, by simp⟩⟩⟩
  · rw [if_neg hmoving.state_ne_idle]
    obtain ⟨⟨first, rest, hactive⟩, hlimit, hreversal⟩ := hmoving
    have hsame : SameCourse dm { dm with segments := dm.segments ++ [seg] } :=
      ⟨rfl, rfl, rfl, rfl, rfl, rfl, rfl, rfl⟩
    refine ⟨hledger, .inr (.inl ⟨⟨first, rest ++ [seg], ?_, hactive.course.congr hsame,
      hactive.first, hactive.last, hactive.remainder⟩, hlimit, hreversal⟩)⟩
    change dm.segments ++ [seg] = _
    rw [hactive.segments]
    rfl
  · rw [if_neg hstate]
    exact ⟨hledger, .inr (.inr ⟨herror, hstate⟩)⟩

end Steps

/-- A segment of positive duration is appended, or the step interrupt runs. -/
inductive Action
  | append (seg : MoveSegment ℚ) (hduration : 0 < seg.duration.toNat) (now : UInt32) (t : StepTiming)
  | interrupt (now : UInt32) (t : StepTiming)

/-- A drive, and the lengths of the segments that were appended. -/
structure Session where
  dm : DriveMovement
  given : List ℚ

def step (s : Session) : Action → Session
  | .append seg _ now t => ⟨s.dm.append now t seg, seg.distance :: s.given⟩
  | .interrupt now t => { s with dm := s.dm.interrupt now t }

def Session.initial (position : ℤ) : Session := ⟨.init position, []⟩

/-- No length is lost but for the corrections of the length, at the end of every segment the
position and the carried distance account for all segments so far and the steps taken were those
planned, less than a step is carried, and no error of the step counts is logged. -/
structure StepsAccounted (position : ℤ) (s : Session) : Prop where
  lengths : endedDistance s.dm.ended + totalDistance s.dm.segments =
    s.given.sum + s.dm.adjustments.sum
  accounts : Accounts position s.dm.ended
  position : s.dm.positionAtSegmentStart + s.dm.distanceCarriedForwards =
    position + endedDistance s.dm.ended
  carried : |s.dm.distanceCarriedForwards| < 1
  errors : ∀ e ∈ s.dm.errors, e ≠ 4 ∧ e ≠ 5 ∧ e ≠ 6 ∧ e ≠ 7

/-- The interrupt does not come for the step after which the drive would overshoot. -/
def NoOvershoot (s : Session) : Action → Prop
  | .append _ _ _ _ => True
  | .interrupt _ _ => willOvershoot s.dm = false

lemma init_sound (position : ℤ) : Sound position 0 (.init position) := by
  refine ⟨⟨?_, ?_, rfl, trivial, fun _ he => absurd he List.not_mem_nil,
    fun _ he => absurd he List.not_mem_nil⟩, .inl ⟨rfl, .inl ⟨rfl, rfl⟩⟩⟩
  · change |(0 : ℚ)| < 1
    rw [abs_zero]
    exact one_pos
  · rfl

lemma Sound.stepsAccounted {position : ℤ} {s : Session} (h : Sound position s.given.sum s.dm) :
    StepsAccounted position s := by
  refine ⟨h.ledger.lengths, h.ledger.accounts, h.ledger.position, h.ledger.carried, ?_⟩
  intro e he
  rcases h.ledger.errors e he with rfl | rfl <;> decide

/-- The steps are accounted for throughout a run exactly if no interrupt comes for a step after which
the drive overshoots. -/
theorem steps_accounted (position : ℤ) (as : List Action) :
    Always step (StepsAccounted position) (.initial position) as ↔
      Along step NoOvershoot (.initial position) as := by
  apply always_iff_along_of_kept (K := fun s => Sound position s.given.sum s.dm)
  · exact init_sound position
  · exact fun s hs => hs.stepsAccounted
  · intro s a hs hok
    cases a with
    | append seg hduration now t =>
      have happend := append_sound now t hs hduration
      rw [add_comm] at happend
      change Sound position (seg.distance :: s.given).sum _
      rw [List.sum_cons]
      exact happend
    | interrupt now t => exact interrupt_sound now t hs hok
  · intro s a hs haccounted
    cases a with
    | append => trivial
    | interrupt now t =>
      by_contra hover
      have herror := interrupt_overshoots now t hs (Bool.eq_true_of_not_eq_false hover)
      exact (haccounted.errors 5 herror).2.1 rfl

/-- A segment that goes out two steps and back again, short of a whole step forwards. -/
def outAndBack : MoveSegment ℚ where
  a := -6 / 3125
  distance := 24 / 25
  startTime := 0
  duration := 100
  flags := { MovementFlags.init with executing := false }

/-- The segment is executed up to its last step. -/
def outAndBackRun : List Action :=
  [.append outAndBack (by decide) 0 (.interval 1000), .interrupt 0 (.interval 1000),
    .interrupt 0 (.interval 1000), .interrupt 0 (.interval 1000)]

theorem outAndBack_step_error :
    ¬ ∀ (position : ℤ) (as : List Action), Always step (StepsAccounted position) (.initial position) as := by
  intro h
  have herror : 5 ∈ (run step (.initial 0) outAndBackRun).dm.errors := by decide +kernel
  exact ((h 0 outAndBackRun outAndBackRun (List.prefix_refl _)).errors 5 herror).2.1 rfl

end RepRapFirmware.Movement.Segments
