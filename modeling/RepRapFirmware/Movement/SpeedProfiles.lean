import RepRapFirmware.Library.Kinematics
import RepRapFirmware.Library.Runs
import RepRapFirmware.Movement.DDA

/-! The speed profiles of the queued moves: what each move and each junction keeps while moves are
added and committed. -/

namespace RepRapFirmware.Movement.Lookahead

open RepRapFirmware.Library.Kinematics RepRapFirmware.Library.Runs

variable {α : Type} [Field α] [LinearOrder α] {n : ℕ} {k : Jerk α n} {fastSqrtf : α → α}
  {d la prev : DDA α n} {m : StandardMove α n}

/-! ### One move -/

/-- Start and end speeds that a move can be given. -/
structure Fits (d : DDA α n) : Prop where
  distance : 0 < d.totalDistance
  acceleration : 0 < d.maxAcceleration
  deceleration : 0 < d.maxDeceleration
  requested : 0 < d.requestedSpeed
  start_nonneg : 0 ≤ d.startSpeed
  end_nonneg : 0 ≤ d.endSpeed
  start_le : d.startSpeed ≤ d.requestedSpeed
  end_le : d.endSpeed ≤ d.requestedSpeed
  joinable : Joinable d.maxAcceleration d.maxDeceleration d.totalDistance d.startSpeed d.endSpeed

/-- A top speed and distances that go with them. -/
structure Planned (d : DDA α n) : Prop extends Fits d where
  start_le_top : d.startSpeed ≤ d.topSpeed
  end_le_top : d.endSpeed ≤ d.topSpeed
  top_le : d.topSpeed ≤ d.requestedSpeed
  distances : d.accelDistance + d.decelDistance ≤ d.totalDistance
  top_reachable : d.topSpeed ^ 2 ≤ d.startSpeed ^ 2 + 2 * d.maxAcceleration * d.totalDistance

/-- A move with another top speed and other distances. -/
def DDA.reshape (d : DDA α n) (topSpeed accelDistance decelDistance : α) : DDA α n :=
  { d with
    topSpeed := topSpeed
    accelDistance := accelDistance
    decelDistance := decelDistance }

lemma Fits.reshape (h : Fits d) (x y z : α) : Fits (d.reshape x y z) := { h with }

lemma Fits.planned (h : Fits d) {x y z : α} (hstart : d.startSpeed ≤ x) (hend : d.endSpeed ≤ x)
    (hle : x ≤ d.requestedSpeed) (hdistances : y + z ≤ d.totalDistance)
    (hreachable : x ^ 2 ≤ d.startSpeed ^ 2 + 2 * d.maxAcceleration * d.totalDistance) :
    Planned (d.reshape x y z) :=
  { h.reshape x y z with
    start_le_top := hstart
    end_le_top := hend
    top_le := hle
    distances := hdistances
    top_reachable := hreachable }

variable [IsStrictOrderedRing α]

/-- The requested speed can be reached if both of its phases fit into the distance. -/
lemma Fits.requested_reachable (h : Fits d)
    (hshort : (d.requestedSpeed ^ 2 - d.startSpeed ^ 2) / (2 * d.maxAcceleration) +
      (d.requestedSpeed ^ 2 - d.endSpeed ^ 2) / (2 * d.maxDeceleration) < d.totalDistance) :
    d.requestedSpeed ^ 2 ≤ d.startSpeed ^ 2 + 2 * d.maxAcceleration * d.totalDistance := by
  have ha := h.acceleration
  have hd := h.deceleration
  have hend : d.endSpeed ^ 2 ≤ d.requestedSpeed ^ 2 := pow_le_pow_left₀ h.end_nonneg h.end_le 2
  have hfall : 0 ≤ (d.requestedSpeed ^ 2 - d.endSpeed ^ 2) / (2 * d.maxDeceleration) :=
    div_nonneg (by linarith) (by positivity)
  have hrise : (d.requestedSpeed ^ 2 - d.startSpeed ^ 2) / (2 * d.maxAcceleration) ≤
      d.totalDistance := by linarith
  rw [div_le_iff₀ (by positivity)] at hrise
  linarith

lemma phase_nonneg {a v w : α} (ha : 0 < a) (hv : 0 ≤ v) (h : v ≤ w) :
    0 ≤ (w ^ 2 - v ^ 2) / (2 * a) :=
  div_nonneg (sub_nonneg.mpr (pow_le_pow_left₀ hv h 2)) (by positivity)

lemma reachTopSpeed_planned (h : Fits d)
    (hshort : (d.requestedSpeed ^ 2 - d.startSpeed ^ 2) / (2 * d.maxAcceleration) +
      (d.requestedSpeed ^ 2 - d.endSpeed ^ 2) / (2 * d.maxDeceleration) < d.totalDistance) :
    ∃ x y z, reachTopSpeed (d.reshape d.topSpeed
        ((d.requestedSpeed ^ 2 - d.startSpeed ^ 2) / (2 * d.maxAcceleration))
        ((d.requestedSpeed ^ 2 - d.endSpeed ^ 2) / (2 * d.maxDeceleration))) = d.reshape x y z ∧
      Planned (d.reshape x y z) := by
  have hrise := phase_nonneg h.acceleration h.start_nonneg h.start_le
  have hfall := phase_nonneg h.deceleration h.end_nonneg h.end_le
  have hrequested := h.requested_reachable hshort
  have hdistance := h.distance
  have ha := h.acceleration
  have hstartSq : d.startSpeed ^ 2 ≤ d.startSpeed ^ 2 + 2 * d.maxAcceleration * d.totalDistance :=
      by
    have : 0 < 2 * d.maxAcceleration * d.totalDistance := by positivity
    linarith
  rw [reachTopSpeed]
  split
  · next hge =>
    split
    · refine ⟨_, _, _, rfl, h.planned le_rfl hge h.start_le ?_ hstartSq⟩
      change 0 + (d.requestedSpeed ^ 2 - d.endSpeed ^ 2) / (2 * d.maxDeceleration) ≤ d.totalDistance
      linarith
    · exact ⟨_, _, _, rfl, h.planned h.start_le h.end_le le_rfl hshort.le hrequested⟩
  · next hlt =>
    have hle : d.startSpeed ≤ d.endSpeed := (not_le.mp hlt).le
    split
    · refine ⟨_, _, _, rfl, h.planned hle le_rfl h.end_le ?_ h.joinable.rise⟩
      change (d.requestedSpeed ^ 2 - d.startSpeed ^ 2) / (2 * d.maxAcceleration) + 0 ≤
        d.totalDistance
      linarith
    · exact ⟨_, _, _, rfl, h.planned h.start_le h.end_le le_rfl hshort.le hrequested⟩

/-- With exact arithmetic a single phase uses up its limit, which therefore does not change. -/
lemma singlePhase_planned (h : Fits d)
    (hpeak : ¬ (peak d.maxAcceleration d.maxDeceleration d.totalDistance d.startSpeed d.endSpeed >
        d.startSpeed ^ 2 ∧
      peak d.maxAcceleration d.maxDeceleration d.totalDistance d.startSpeed d.endSpeed >
        d.endSpeed ^ 2)) :
    ∃ x y z, singlePhase d = (d.reshape x y z, 0) ∧ Planned (d.reshape x y z) := by
  have ha := h.acceleration
  have hd := h.deceleration
  have hs := h.distance
  have hdecel : 0 < 2 * d.maxDeceleration * d.totalDistance := by positivity
  have haccel : 0 < 2 * d.maxAcceleration * d.totalDistance := by positivity
  rw [singlePhase]
  by_cases hlt : d.startSpeed < d.endSpeed
  · have hsq : d.startSpeed ^ 2 < d.endSpeed ^ 2 := pow_lt_pow_left₀ hlt h.start_nonneg two_ne_zero
    have hrise : d.startSpeed ^ 2 + 2 * d.maxAcceleration * d.totalDistance ≤ d.endSpeed ^ 2 := by
      by_cases hend : d.endSpeed ^ 2 < peak d.maxAcceleration d.maxDeceleration d.totalDistance
          d.startSpeed d.endSpeed
      · exact absurd ⟨hsq.trans hend, hend⟩ hpeak
      · exact rise_of_peak_le ha hd (not_lt.mp hend)
    have heq := le_antisymm h.joinable.rise hrise
    have hlimit : (d.endSpeed ^ 2 - d.startSpeed ^ 2) / (2 * d.totalDistance) = d.maxAcceleration :=
        by
      rw [heq]
      field_simp
      ring
    rw [if_pos hlt]
    simp only [hlimit]
    have hnot : ¬ d.maxAcceleration > 1.02 * d.maxAcceleration := by
      rw [gt_iff_lt, not_lt]
      linarith
    rw [if_neg hnot]
    exact ⟨_, _, _, rfl, h.planned hlt.le le_rfl h.end_le (by rw [add_zero]) h.joinable.rise⟩
  · have hge : d.endSpeed ≤ d.startSpeed := not_lt.mp hlt
    have hsq : d.endSpeed ^ 2 ≤ d.startSpeed ^ 2 := pow_le_pow_left₀ h.end_nonneg hge 2
    have hfall : d.endSpeed ^ 2 + 2 * d.maxDeceleration * d.totalDistance ≤ d.startSpeed ^ 2 := by
      by_cases hstart : d.startSpeed ^ 2 < peak d.maxAcceleration d.maxDeceleration
          d.totalDistance d.startSpeed d.endSpeed
      · exact absurd ⟨hstart, hsq.trans_lt hstart⟩ hpeak
      · exact fall_of_peak_le ha hd (not_lt.mp hstart)
    have heq := le_antisymm h.joinable.fall hfall
    have hlimit : (d.startSpeed ^ 2 - d.endSpeed ^ 2) / (2 * d.totalDistance) = d.maxDeceleration :=
        by
      rw [heq]
      field_simp
      ring
    rw [if_neg hlt]
    simp only [hlimit]
    have hnot : ¬ d.maxDeceleration > 1.02 * d.maxDeceleration := by
      rw [gt_iff_lt, not_lt]
      linarith
    rw [if_neg hnot]
    exact ⟨_, _, _, rfl, h.planned le_rfl hge h.start_le (by rw [zero_add]) (by linarith)⟩

lemma computeProfile_planned (hf : IsSqrt fastSqrtf) (h : Fits d) :
    ∃ x y z, computeProfile fastSqrtf d = (d.reshape x y z, 0) ∧ Planned (d.reshape x y z) := by
  have ha := h.acceleration
  have hd := h.deceleration
  rw [computeProfile]
  by_cases hshort : (d.requestedSpeed ^ 2 - d.startSpeed ^ 2) / (2 * d.maxAcceleration) +
      (d.requestedSpeed ^ 2 - d.endSpeed ^ 2) / (2 * d.maxDeceleration) < d.totalDistance
  · simp only [if_pos hshort]
    obtain ⟨x, y, z, heq, hplanned⟩ := reachTopSpeed_planned h hshort
    exact ⟨x, y, z, congrArg (·, 0) heq, hplanned⟩
  · simp only [if_neg hshort]
    by_cases hpeak : peak d.maxAcceleration d.maxDeceleration d.totalDistance d.startSpeed
      d.endSpeed >
        d.startSpeed ^ 2 ∧ peak d.maxAcceleration d.maxDeceleration d.totalDistance d.startSpeed
          d.endSpeed > d.endSpeed ^ 2
    · have hpos : 0 ≤ peak d.maxAcceleration d.maxDeceleration d.totalDistance d.startSpeed
          d.endSpeed := (sq_nonneg _).trans hpeak.1.le
      refine ⟨fastSqrtf (peak d.maxAcceleration d.maxDeceleration d.totalDistance d.startSpeed
        d.endSpeed), _, _, if_pos hpeak, h.planned (hf.le hpos hpeak.1.le) (hf.le hpos hpeak.2.le)
        ?_ ?_ ?_⟩
      · exact hf.le_of_le_sq hpos h.requested.le (peak_le ha hd (not_lt.mp hshort))
      · exact (peak_distance ha hd).le
      · rw [hf.sq _ hpos]
        exact peak_le_rise ha hd hpeak.2.le
    · obtain ⟨x, y, z, heq, hplanned⟩ := singlePhase_planned h hpeak
      exact ⟨x, y, z, (if_neg hpeak).trans heq, hplanned⟩

/-- What recalculating, matching and adjusting leave as it is. -/
structure Same (d d' : DDA α n) : Prop where
  state : d'.state = d.state
  directionVector : d'.directionVector = d.directionVector
  totalDistance : d'.totalDistance = d.totalDistance
  maxAcceleration : d'.maxAcceleration = d.maxAcceleration
  maxDeceleration : d'.maxDeceleration = d.maxDeceleration
  requestedSpeed : d'.requestedSpeed = d.requestedSpeed

omit [Field α] [LinearOrder α] [IsStrictOrderedRing α] in
lemma Same.refl (d : DDA α n) : Same d d := ⟨rfl, rfl, rfl, rfl, rfl, rfl⟩

/-- Recalculating a move: only its shape changes, and no error is recorded. -/
structure Recalculated (d d' : DDA α n) : Prop where
  same : Same d d'
  startSpeed : d'.startSpeed = d.startSpeed
  endSpeed : d'.endSpeed = d.endSpeed
  planned : Planned d'

lemma recalculateMove_spec (hf : IsSqrt fastSqrtf) (h : Fits d) :
    Recalculated d (recalculateMove k fastSqrtf d).1 ∧ (recalculateMove k fastSqrtf d).2.1 = 0 := by
  obtain ⟨x, y, z, heq, hplanned⟩ := computeProfile_planned hf h
  rw [recalculateMove, heq]
  refine ⟨?_, rfl⟩
  simp only [setCanPauseAfter]
  split
  · exact ⟨⟨rfl, rfl, rfl, rfl, rfl, rfl⟩, rfl, rfl, { hplanned with }⟩
  · exact ⟨⟨rfl, rfl, rfl, rfl, rfl, rfl⟩, rfl, rfl, hplanned⟩

/-! ### Junctions -/

/-- The speed change of every drive at a junction is within its jerk limit. -/
def WithinJerk (k : Jerk α n) (before after : Fin n → α) (speed : α) : Prop :=
  ∀ drive, |before drive - after drive| * speed ≤ k.printingInstantDv drive

omit [IsStrictOrderedRing α] in
lemma withinJerk_zero (before after : Fin n → α) : WithinJerk k before after 0 := by
  intro drive
  rw [mul_zero]
  exact (k.positive drive).le

/-- The limit that one drive puts on the speed of a junction. -/
def limitSpeed (k : Jerk α n) (before after : Fin n → α) (target : α) (drive : Fin n) : α :=
  if before drive ≠ 0 ∨ after drive ≠ 0 then
    if |before drive - after drive| * target > k.printingInstantDv drive then
      k.printingInstantDv drive / |before drive - after drive|
    else target
  else target

structure Limited (k : Jerk α n) (before after : Fin n → α) (drives : List (Fin n)) (target r : α) :
    Prop where
  le : r ≤ target
  within : ∀ drive ∈ drives, |before drive - after drive| * r ≤ k.printingInstantDv drive
  pos : 0 < target → 0 < r
  nonneg : 0 ≤ target → 0 ≤ r
  above : ∀ v, v ≤ target → WithinJerk k before after v → v ≤ r

lemma limitSpeed_limited (k : Jerk α n) (before after : Fin n → α) (target : α) (drive : Fin n) :
    Limited k before after [drive] target (limitSpeed k before after target drive) := by
  have hpositive := k.positive drive
  have hkeep : |before drive - after drive| * target ≤ k.printingInstantDv drive →
      Limited k before after [drive] target target := by
    intro hle
    refine ⟨le_rfl, ?_, id, id, fun v hv _ => hv⟩
    intro e he
    rw [List.mem_singleton.mp he]
    exact hle
  rw [limitSpeed]
  split
  · split
    · next hlarge =>
      have hfraction : 0 < |before drive - after drive| := by
        apply lt_of_le_of_ne (abs_nonneg _)
        intro hzero
        rw [← hzero, zero_mul] at hlarge
        exact (hpositive.trans hlarge).false
      have hquotient : 0 < k.printingInstantDv drive / |before drive - after drive| :=
        div_pos hpositive hfraction
      refine ⟨?_, ?_, fun _ => hquotient, fun _ => hquotient.le, ?_⟩
      · rw [div_le_iff₀ hfraction, mul_comm]
        exact hlarge.le
      · intro e he
        rw [List.mem_singleton.mp he, mul_div_cancel₀ _ hfraction.ne']
      · intro v _ hwithin
        rw [le_div_iff₀ hfraction, mul_comm]
        exact hwithin drive
    · next hsmall => exact hkeep (not_lt.mp hsmall)
  · next hstill =>
    apply hkeep
    obtain ⟨hbefore, hafter⟩ := not_or.mp hstill
    rw [not_not.mp hbefore, not_not.mp hafter]
    simpa using hpositive.le

lemma foldl_limited (k : Jerk α n) (before after : Fin n → α) (drives : List (Fin n)) (target : α) :
    Limited k before after drives target (drives.foldl (limitSpeed k before after) target) := by
  induction drives generalizing target with
  | nil => exact ⟨le_rfl, fun _ he => absurd he List.not_mem_nil, id, id, fun v hv _ => hv⟩
  | cons drive drives ih =>
    have hfirst := limitSpeed_limited k before after target drive
    have hrest := ih (limitSpeed k before after target drive)
    refine ⟨hrest.le.trans hfirst.le, ?_, fun hpos => hrest.pos (hfirst.pos hpos),
      fun hpos => hrest.nonneg (hfirst.nonneg hpos),
      fun v hv hwithin => hrest.above v (hfirst.above v hv hwithin) hwithin⟩
    intro e he
    obtain rfl | he := List.mem_cons.mp he
    · exact (mul_le_mul_of_nonneg_left hrest.le (abs_nonneg _)).trans
        (hfirst.within e (List.mem_singleton_self e))
    · exact hrest.within e he

lemma matchSpeeds_eq (k : Jerk α n) (d : DDA α n) (next : Fin n → α) :
    ∃ r, matchSpeeds k d next = { d with targetNextSpeed := r } ∧
      Limited k d.directionVector next (List.finRange n) d.targetNextSpeed r :=
  ⟨_, rfl, foldl_limited k d.directionVector next (List.finRange n) d.targetNextSpeed⟩

/-- With an end speed that can be reached, adjusting the end records no error. -/
lemma adjustEnd_spec (hf : IsSqrt fastSqrtf) (hle : d.endSpeed ≤ d.targetNextSpeed)
    (h : Fits { d with endSpeed := d.targetNextSpeed }) :
    Recalculated { d with endSpeed := d.targetNextSpeed } (adjustEnd k fastSqrtf d).1 ∧
      (adjustEnd k fastSqrtf d).2 = 0 := by
  obtain ⟨hrecalculated, herrors⟩ := recalculateMove_spec (k := k) hf h
  rw [adjustEnd, if_neg (not_lt.mpr hle)]
  exact ⟨hrecalculated, by simp only [herrors]⟩

/-! ### Queues -/

/-- The speeds at a junction agree, and those of provisional moves respect the jerk limits. -/
structure Junction (k : Jerk α n) (newer older : DDA α n) : Prop where
  speed : newer.startSpeed = older.endSpeed
  jerk : newer.state = .provisional → older.state = .provisional →
    WithinJerk k older.directionVector newer.directionVector older.endSpeed

structure Settled (k : Jerk α n) (queue : List (DDA α n)) : Prop where
  planned : ∀ d ∈ queue, d.state = .provisional → Planned d
  junctions : queue.IsChain (Junction k)

/-- The queue after its first move has been raised towards a target. -/
structure Raised (k : Jerk α n) (target : α) (next : Fin n → α) (la : DDA α n) (older
    : List (DDA α n))
    (la' : DDA α n) (older' : List (DDA α n)) : Prop where
  planned : Planned la'
  above : la.endSpeed ≤ la'.endSpeed
  le : la'.endSpeed ≤ target
  within : WithinJerk k la.directionVector next la'.endSpeed
  pos : 0 < target → 0 < la'.endSpeed
  same : Same la la'
  sameOlder : List.Forall₂ Same older older'
  settled : Settled k (la' :: older')

omit [IsStrictOrderedRing α] in
lemma Settled.tail {older : List (DDA α n)} (h : Settled k (d :: older)) : Settled k older :=
  ⟨fun e he => h.planned e (List.mem_cons_of_mem d he), h.junctions.tail⟩

omit [IsStrictOrderedRing α] in
/-- A move with the same start in front of the same queue. -/
lemma Settled.replace {d' : DDA α n} {older : List (DDA α n)} (h : Settled k (d :: older))
    (hsame : Same d d') (hstart : d'.startSpeed = d.startSpeed) (hplanned : Planned d') :
    Settled k (d' :: older) := by
  refine ⟨?_, ?_⟩
  · intro e he hstate
    obtain rfl | he := List.mem_cons.mp he
    · exact hplanned
    · exact h.planned e (List.mem_cons_of_mem d he) hstate
  · have hchain := h.junctions
    cases older with
    | nil => exact .singleton d'
    | cons prev earlier =>
      rw [List.isChain_cons_cons] at hchain ⊢
      refine ⟨⟨hstart.trans hchain.1.speed, ?_⟩, hchain.2⟩
      intro hnewer holder
      rw [hsame.directionVector]
      exact hchain.1.jerk (hsame.state ▸ hnewer) holder

/-- A planned move keeps fitting when its end speed rises as far as it can be reached. -/
lemma Planned.raise (h : Planned d) {x r : α} (hlow : d.endSpeed ≤ r) (hle : r ≤ d.requestedSpeed)
    (hreachable : r ^ 2 ≤ d.startSpeed ^ 2 + 2 * d.maxAcceleration * d.totalDistance) :
    Fits { d with targetNextSpeed := x, endSpeed := r } :=
  { h with
    end_nonneg := h.end_nonneg.trans hlow
    end_le := hle
    joinable := ⟨hreachable, h.joinable.fall.trans
      (by linarith [pow_le_pow_left₀ h.end_nonneg hlow 2])⟩ }

/-- The end of the walk to earlier moves. -/
lemma turn_spec (hf : IsSqrt fastSqrtf) {older : List (DDA α n)} {next : Fin n → α} {target t : α}
    (hstate : la.state = .provisional) (hsettled : Settled k (la :: older))
    (hwithin : WithinJerk k la.directionVector next la.endSpeed) (hlow : la.endSpeed ≤ t)
    (hle : t ≤ la.requestedSpeed) (htarget : t ≤ target) (hpos : 0 < target → 0 < t)
    (hreachable : t ^ 2 ≤ la.startSpeed ^ 2 + 2 * la.maxAcceleration * la.totalDistance) :
    ∃ la', turn k fastSqrtf next { la with targetNextSpeed := t } older = (la' :: older, 0) ∧
      Raised k target next la older la' older := by
  have hplanned := hsettled.planned la List.mem_cons_self hstate
  obtain ⟨r, heq, hlimited⟩ := matchSpeeds_eq k { la with targetNextSpeed := t } next
  have hr : la.endSpeed ≤ r := hlimited.above _ hlow hwithin
  have hrt : r ≤ t := hlimited.le
  have hsq : r ^ 2 ≤ t ^ 2 := pow_le_pow_left₀ (hplanned.end_nonneg.trans hr) hrt 2
  obtain ⟨hrecalculated, herrors⟩ := adjustEnd_spec (k := k)
    (d := { la with targetNextSpeed := r }) hf hr
    (hplanned.raise hr (hrt.trans hle) (hsq.trans hreachable))
  have hend : (adjustEnd k fastSqrtf { la with targetNextSpeed := r }).1.endSpeed = r :=
    hrecalculated.endSpeed
  have hsame : Same la (adjustEnd k fastSqrtf { la with targetNextSpeed := r }).1 :=
    { hrecalculated.same with }
  refine ⟨(adjustEnd k fastSqrtf { la with targetNextSpeed := r }).1, ?_, hrecalculated.planned,
    hr.trans_eq hend.symm, hend.trans_le (hrt.trans htarget), ?_, ?_, hsame,
      List.forall₂_same.mpr fun d _ => .refl d,
    hsettled.replace hsame hrecalculated.startSpeed hrecalculated.planned⟩
  · rw [turn, heq, ← herrors]
  · rw [hend]
    exact fun drive => hlimited.within drive (List.mem_finRange drive)
  · rw [hend]
    exact fun htarget => hlimited.pos (hpos htarget)

omit [IsStrictOrderedRing α] in
/-- The speed that a move is asked to end at, once its own requested speed limits it. -/
lemma limited_target {target : α} (hplanned : Planned la) (hlow : la.endSpeed ≤ target) :
    ∃ t, (if target > la.requestedSpeed then la.requestedSpeed else target) = t ∧
      la.endSpeed ≤ t ∧ t ≤ la.requestedSpeed ∧ t ≤ target ∧ (0 < target → 0 < t) := by
  refine ⟨_, rfl, ?_⟩
  split
  · next hlarge => exact ⟨hplanned.end_le, le_rfl, hlarge.le, fun _ => hplanned.requested⟩
  · next hsmall => exact ⟨hlow, not_lt.mp hsmall, le_rfl, id⟩

lemma reachable_spec (hf : IsSqrt fastSqrtf) (h : Fits d) :
    d.reachable fastSqrtf ^ 2 = d.startSpeed ^ 2 + 2 * d.maxAcceleration * d.totalDistance ∧
      0 < d.reachable fastSqrtf ∧ d.endSpeed ≤ d.reachable fastSqrtf := by
  have ha := h.acceleration
  have hs := h.distance
  have hpos : 0 < d.startSpeed ^ 2 + 2 * d.maxAcceleration * d.totalDistance := by positivity
  exact ⟨hf.sq _ hpos.le, hf.pos hpos, hf.le hpos.le h.joinable.rise⟩

lemma turnBelowTop_spec (hf : IsSqrt fastSqrtf) {older : List (DDA α n)} {next : Fin n → α}
    {target t : α} (hstate : la.state = .provisional) (hsettled : Settled k (la :: older))
    (hwithin : WithinJerk k la.directionVector next la.endSpeed) (hlow : la.endSpeed ≤ t)
    (hle : t ≤ la.requestedSpeed) (htarget : t ≤ target) (hpos : 0 < target → 0 < t) :
    ∃ la', turnBelowTop k fastSqrtf next { la with targetNextSpeed := t } older =
      (la' :: older, 0) ∧ Raised k target next la older la' older := by
  have hplanned := hsettled.planned la List.mem_cons_self hstate
  obtain ⟨hsq, hreachpos, hend⟩ := reachable_spec hf hplanned.toFits
  have hsame : DDA.reachable fastSqrtf { la with targetNextSpeed := t } = la.reachable fastSqrtf :=
    rfl
  rw [turnBelowTop]
  simp only [hsame]
  split
  · next hlarge =>
    exact turn_spec hf hstate hsettled hwithin hend (hlarge.le.trans hle) (hlarge.le.trans htarget)
      (fun _ => hreachpos) hsq.le
  · next hsmall =>
    have htsq : t ^ 2 ≤ la.reachable fastSqrtf ^ 2 :=
      pow_le_pow_left₀ (hplanned.end_nonneg.trans hlow) (not_lt.mp hsmall) 2
    exact turn_spec hf hstate hsettled hwithin hlow hle htarget hpos (htsq.trans hsq.le)

/-- The step of the walk back to later moves: the move takes the raised end of the one before it as
its start. -/
lemma walkBack_spec (hf : IsSqrt fastSqrtf) {next : Fin n → α} {target r : α}
    {earlier earlier' : List (DDA α n)} {prev' : DDA α n} (hstate : la.state = .provisional)
    (hsettled : Settled k (la :: prev :: earlier))
    (hlow : la.endSpeed ≤ r) (hle : r ≤ la.requestedSpeed) (htarget : r ≤ target)
    (hwithin : WithinJerk k la.directionVector next r) (hpos : 0 < target → 0 < r)
    (hraised : Raised k (min (fastSqrtf (r ^ 2 + 2 * la.maxDeceleration * la.totalDistance))
      la.requestedSpeed) la.directionVector prev earlier prev' earlier') :
    let la₁ : DDA α n := { la with targetNextSpeed := r, startSpeed := prev'.endSpeed }
    let la₂ : DDA α n := { la₁ with
      targetNextSpeed :=
        if la₁.reachable fastSqrtf < la₁.targetNextSpeed then la₁.reachable fastSqrtf
        else la₁.targetNextSpeed }
    (adjustEnd k fastSqrtf la₂).2 = 0 ∧ Raised k target next la (prev :: earlier)
      (adjustEnd k fastSqrtf la₂).1 (prev' :: earlier') := by
  intro la₁ la₂
  have hplanned := hsettled.planned la List.mem_cons_self hstate
  have ha := hplanned.acceleration
  have hd := hplanned.deceleration
  have hs := hplanned.distance
  have hjunction := (List.isChain_cons_cons.mp hsettled.junctions).1
  have hraisedStart : la.startSpeed ≤ prev'.endSpeed := hjunction.speed.trans_le hraised.above
  have hstartNonneg : 0 ≤ prev'.endSpeed := hplanned.start_nonneg.trans hraisedStart
  have hstartSq : la.startSpeed ^ 2 ≤ prev'.endSpeed ^ 2 :=
    pow_le_pow_left₀ hplanned.start_nonneg hraisedStart 2
  have hreachPos : 0 < prev'.endSpeed ^ 2 + 2 * la.maxAcceleration * la.totalDistance := by
    positivity
  have hreachSq : la₁.reachable fastSqrtf ^ 2 =
      prev'.endSpeed ^ 2 + 2 * la.maxAcceleration * la.totalDistance := hf.sq _ hreachPos.le
  have hreach : 0 < la₁.reachable fastSqrtf := hf.pos hreachPos
  have hreachEnd : la.endSpeed ≤ la₁.reachable fastSqrtf :=
    hf.le hreachPos.le (by linarith [hplanned.joinable.rise])
  have hrNonneg : 0 ≤ r := hplanned.end_nonneg.trans hlow
  have hfallPos : 0 ≤ r ^ 2 + 2 * la.maxDeceleration * la.totalDistance := by positivity
  have hfall : prev'.endSpeed ^ 2 ≤ r ^ 2 + 2 * la.maxDeceleration * la.totalDistance :=
    hf.sq_le hfallPos hstartNonneg (hraised.le.trans (min_le_left _ _))
  -- the end speed that is set is the target, or what can be reached from the raised start
  obtain ⟨t, ht, htlow, htle, htpos, htrise, htfall⟩ : ∃ t, la₂.targetNextSpeed = t ∧
      la.endSpeed ≤ t ∧ t ≤ r ∧ (0 < target → 0 < t) ∧
      t ^ 2 ≤ prev'.endSpeed ^ 2 + 2 * la.maxAcceleration * la.totalDistance ∧
      prev'.endSpeed ^ 2 ≤ t ^ 2 + 2 * la.maxDeceleration * la.totalDistance := by
    by_cases hshort : la₁.reachable fastSqrtf < r
    · refine ⟨_, if_pos hshort, hreachEnd, hshort.le, fun _ => hreach, hreachSq.le, ?_⟩
      rw [hreachSq]
      have : 0 < 2 * la.maxAcceleration * la.totalDistance := by positivity
      have : 0 < 2 * la.maxDeceleration * la.totalDistance := by positivity
      linarith
    · refine ⟨_, if_neg hshort, hlow, le_rfl, hpos, ?_, hfall⟩
      rw [← hreachSq]
      exact pow_le_pow_left₀ hrNonneg (not_lt.mp hshort) 2
  have hfits : Fits { la₂ with endSpeed := la₂.targetNextSpeed } := by
    rw [ht]
    exact { hplanned with
      start_nonneg := hstartNonneg
      end_nonneg := hplanned.end_nonneg.trans htlow
      start_le := hraised.le.trans (min_le_right _ _)
      end_le := htle.trans hle
      joinable := ⟨htrise, htfall⟩ }
  obtain ⟨hrecalculated, herrors⟩ := adjustEnd_spec (k := k) (d :=
    la₂) hf (htlow.trans_eq ht.symm) hfits
  have hend : (adjustEnd k fastSqrtf la₂).1.endSpeed = t := hrecalculated.endSpeed.trans ht
  have hsame : Same la (adjustEnd k fastSqrtf la₂).1 := { hrecalculated.same with }
  refine ⟨herrors, hrecalculated.planned, htlow.trans_eq hend.symm,
    hend.trans_le (htle.trans htarget), ?_, ?_, hsame, .cons hraised.same hraised.sameOlder, ?_⟩
  · intro drive
    rw [hend]
    exact (mul_le_mul_of_nonneg_left htle (abs_nonneg _)).trans (hwithin drive)
  · rw [hend]
    exact htpos
  · refine ⟨?_, List.isChain_cons_cons.mpr ⟨⟨hrecalculated.startSpeed, ?_⟩,
      hraised.settled.junctions⟩⟩
    · intro e he hprovisional
      obtain rfl | he := List.mem_cons.mp he
      · exact hrecalculated.planned
      · exact hraised.settled.planned e he hprovisional
    · intro _ _
      rw [hraised.same.directionVector, hsame.directionVector]
      exact hraised.within

/-- The start speed of a planned move is within the target that the move sets for the one before. -/
lemma Planned.start_le_limit (h : Planned d) (hf : IsSqrt fastSqrtf) {r : α} (hlow : d.endSpeed ≤
    r) :
    d.startSpeed ≤
      min (fastSqrtf (r ^ 2 + 2 * d.maxDeceleration * d.totalDistance)) d.requestedSpeed := by
  have hd := h.deceleration
  have hs := h.distance
  apply le_min _ h.start_le
  apply hf.le (by positivity)
  linarith [h.joinable.fall, pow_le_pow_left₀ h.end_nonneg hlow 2]

omit [IsStrictOrderedRing α] in
lemma canAdjust_provisional (h : canAdjust k la prev = true) : prev.state = .provisional := by
  simp only [canAdjust, Bool.and_eq_true, beq_iff_eq] at h
  exact h.1.2

theorem doLookahead_spec (hf : IsSqrt fastSqrtf) (older : List (DDA α n)) {target : α}
    {next : Fin n → α} (hstate : la.state = .provisional) (hsettled : Settled k (la :: older))
    (hwithin : WithinJerk k la.directionVector next la.endSpeed) (hlow : la.endSpeed ≤ target) :
    ∃ la' older', doLookahead k fastSqrtf target next (la :: older) = (la' :: older', 0) ∧
      Raised k target next la older la' older' := by
  induction older generalizing la target next with
  | nil =>
    have hplanned := hsettled.planned la List.mem_cons_self hstate
    obtain ⟨t, ht, htlow, htle, httarget, htpos⟩ := limited_target hplanned hlow
    rw [doLookahead]
    simp only [ht]
    split
    · next htop =>
      have hsq : t ^ 2 ≤ la.topSpeed ^ 2 :=
        pow_le_pow_left₀ (hplanned.end_nonneg.trans htlow) (htle.trans htop) 2
      obtain ⟨la', heq, hraised⟩ := turn_spec hf hstate hsettled hwithin htlow htle httarget htpos
        (hsq.trans hplanned.top_reachable)
      exact ⟨la', [], heq, hraised⟩
    · obtain ⟨la', heq, hraised⟩ :=
        turnBelowTop_spec hf hstate hsettled hwithin htlow htle httarget htpos
      exact ⟨la', [], heq, hraised⟩
  | cons prev earlier ih =>
    have hplanned := hsettled.planned la List.mem_cons_self hstate
    obtain ⟨t, ht, htlow, htle, httarget, htpos⟩ := limited_target hplanned hlow
    rw [doLookahead]
    simp only [ht]
    split
    · next htop =>
      have hsq : t ^ 2 ≤ la.topSpeed ^ 2 :=
        pow_le_pow_left₀ (hplanned.end_nonneg.trans htlow) (htle.trans htop) 2
      obtain ⟨la', heq, hraised⟩ := turn_spec hf hstate hsettled hwithin htlow htle httarget htpos
        (hsq.trans hplanned.top_reachable)
      exact ⟨la', _, heq, hraised⟩
    · split
      · next hadjust =>
        obtain ⟨r, heq, hlimited⟩ := matchSpeeds_eq k { la with targetNextSpeed := t } next
        have hrlow : la.endSpeed ≤ r := hlimited.above _ htlow hwithin
        have hprevState : prev.state = .provisional := canAdjust_provisional hadjust
        have hjunction := (List.isChain_cons_cons.mp hsettled.junctions).1
        have hprevWithin : WithinJerk k prev.directionVector la.directionVector prev.endSpeed :=
          hjunction.jerk hstate hprevState
        have hprevLow : prev.endSpeed ≤ min (fastSqrtf (r ^ 2 + 2 * la.maxDeceleration *
            la.totalDistance)) la.requestedSpeed := by
          rw [← hjunction.speed]
          exact hplanned.start_le_limit hf hrlow
        obtain ⟨prev', earlier', hlookahead, hraised⟩ :=
          ih hprevState hsettled.tail hprevWithin hprevLow
        simp only [heq, hlookahead]
        obtain ⟨herrors, hraised'⟩ := walkBack_spec hf hstate hsettled hrlow
          (hlimited.le.trans htle) (hlimited.le.trans httarget)
          (fun drive => hlimited.within drive (List.mem_finRange drive))
          (fun htarget => hlimited.pos (htpos htarget)) hraised
        exact ⟨_, _, Prod.ext rfl (by simpa using herrors), hraised'⟩
      · obtain ⟨la', heq, hraised⟩ :=
          turnBelowTop_spec hf hstate hsettled hwithin htlow htle httarget htpos
        exact ⟨la', _, heq, hraised⟩

end RepRapFirmware.Movement.Lookahead
