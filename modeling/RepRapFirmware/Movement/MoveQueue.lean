import Mathlib.Analysis.Real.Sqrt
import RepRapFirmware.Movement.SpeedProfiles

/-! Moves added to the queue while the oldest ones are committed: the profile stays continuous and
feasible as long as no melded move is refused for its duration. -/

namespace RepRapFirmware.Movement.Lookahead

open RepRapFirmware.Library.Kinematics RepRapFirmware.Library.Runs

variable {α : Type} [Field α] [LinearOrder α] {n : ℕ} {k : Jerk α n} {fastSqrtf : α → α}
  {d : DDA α n} {m : StandardMove α n} {queue : List (DDA α n)}

/-- The last move of the queue ends at rest. -/
def EndsAtRest (queue : List (DDA α n)) : Prop := ∀ last ∈ queue.head?, last.endSpeed = 0

/-- A move in the queue has the path and the limits that it was created with. -/
structure Created (d : DDA α n) (m : StandardMove α n) : Prop where
  directionVector : d.directionVector = m.directionVector
  totalDistance : d.totalDistance = m.totalDistance
  maxAcceleration : d.maxAcceleration = m.maxAcceleration
  maxDeceleration : d.maxDeceleration = m.maxDeceleration
  requestedSpeed : d.requestedSpeed = m.requestedSpeed

lemma Created.of_same {d' : DDA α n} (h : Created d m) (hsame : Same d d') : Created d' m :=
  ⟨hsame.directionVector.trans h.directionVector, hsame.totalDistance.trans h.totalDistance,
    hsame.maxAcceleration.trans h.maxAcceleration, hsame.maxDeceleration.trans h.maxDeceleration,
    hsame.requestedSpeed.trans h.requestedSpeed⟩

lemma created_of_same {queue' : List (DDA α n)} {moves : List (StandardMove α n)}
    (h : List.Forall₂ Created queue moves) (hsame : List.Forall₂ Same queue queue') :
    List.Forall₂ Created queue' moves := by
  induction hsame generalizing moves with
  | nil => exact h
  | cons hfirst _ ih =>
    obtain _ | ⟨hcreated, hrest⟩ := h
    exact .cons (hcreated.of_same hfirst) (ih hrest)

variable [IsStrictOrderedRing α]

/-- The queue and the start speed that a new move is given. -/
structure Melded (k : Jerk α n) (m : StandardMove α n) (queue queue' : List (DDA α n))
    (startSpeed : α) : Prop where
  settled : Settled k queue'
  same : List.Forall₂ Same queue queue'
  fits : Fits { DDA.ofMove m with startSpeed := startSpeed }
  speed : ∀ last ∈ queue'.head?, startSpeed = last.endSpeed
  jerk : ∀ last ∈ queue'.head?, last.state = .provisional →
    WithinJerk k last.directionVector m.directionVector last.endSpeed

/-- A new move can start at any speed that it can be stopped from. -/
lemma ofMove_fits (m : StandardMove α n) {v : α} (hv : 0 ≤ v) (hle : v ≤ m.requestedSpeed)
    (hstop : v ^ 2 ≤ m.maxDeceleration * m.totalDistance * 2) :
    Fits { DDA.ofMove m with startSpeed := v } := by
  have ha := m.acceleration_pos
  have hs := m.distance_pos
  refine ⟨hs, ha, m.deceleration_pos, m.speed_pos, hv, le_rfl, hle, m.speed_pos.le, ?_, ?_⟩
  · change (0 : α) ^ 2 ≤ v ^ 2 + 2 * m.maxAcceleration * m.totalDistance
    rw [zero_pow two_ne_zero]
    positivity
  · change v ^ 2 ≤ (0 : α) ^ 2 + 2 * m.maxDeceleration * m.totalDistance
    linarith

/-- Without melding the move starts at rest. -/
lemma melded_zero (hsettled : Settled k queue) (hrest : EndsAtRest queue) (m : StandardMove α n) :
    Melded k m queue queue 0 := by
  have hd := m.deceleration_pos
  have hs := m.distance_pos
  refine ⟨hsettled, List.forall₂_same.mpr fun d _ => .refl d,
    ofMove_fits m le_rfl m.speed_pos.le (by rw [zero_pow two_ne_zero]; positivity),
    fun last hlast => (hrest last hlast).symm, ?_⟩
  intro last hlast _
  rw [hrest last hlast]
  exact withinJerk_zero _ _

lemma meld_spec (hf : IsSqrt fastSqrtf) (hsettled : Settled k queue) (hrest : EndsAtRest queue)
    (m : StandardMove α n) :
    ∃ queue' v, meld k fastSqrtf m queue = (queue', v, 0) ∧ Melded k m queue queue' v ∧
      ((∃ prev ∈ queue.head?, melds k m prev) → ∃ last ∈ queue'.head?, 0 < last.endSpeed) ∧
      ((¬ ∃ prev ∈ queue.head?, melds k m prev) → queue' = queue) := by
  cases queue with
  | nil =>
    refine ⟨[], 0, rfl, melded_zero hsettled hrest m, ?_, fun _ => rfl⟩
    rintro ⟨prev, hprev, -⟩
    exact absurd hprev (Option.not_mem_none prev)
  | cons prev older =>
    by_cases hmelds : melds k m prev = true
    · have hstate : prev.state = .provisional := by
        simp only [melds, Bool.and_eq_true, beq_iff_eq] at hmelds
        exact hmelds.1
      have hd := m.deceleration_pos
      have hs := m.distance_pos
      have hreach : 0 < m.maxDeceleration * m.totalDistance * 2 := by positivity
      have hzero : prev.endSpeed = 0 := hrest prev rfl
      have htarget : 0 < min (fastSqrtf (m.maxDeceleration * m.totalDistance * 2))
          m.requestedSpeed := lt_min (hf.pos hreach) m.speed_pos
      have hwithin : WithinJerk k prev.directionVector m.directionVector prev.endSpeed := by
        rw [hzero]
        exact withinJerk_zero _ _
      obtain ⟨la', older', hlookahead, hraised⟩ :=
        doLookahead_spec hf older hstate hsettled hwithin (hzero.trans_le htarget.le)
      have hpos : 0 < la'.endSpeed := hraised.pos htarget
      refine ⟨la' :: older', la'.endSpeed, ?_, ⟨hraised.settled, .cons hraised.same
        hraised.sameOlder, ?_, ?_, ?_⟩, fun _ => ⟨la', rfl, hpos⟩, fun hnot => absurd ⟨prev, rfl,
          hmelds⟩ hnot⟩
      · rw [meld, if_pos hmelds]
        simp only [hlookahead, List.headD_cons]
      · exact ofMove_fits m hpos.le (hraised.le.trans (min_le_right _ _))
          (hf.sq_le hreach.le hpos.le (hraised.le.trans (min_le_left _ _)))
      · rintro last hlast
        rw [Option.mem_some.mp hlast]
      · intro last hlast _
        rw [← Option.mem_some.mp hlast, hraised.same.directionVector]
        exact hraised.within
    · refine ⟨prev :: older, 0, if_neg hmelds, melded_zero hsettled hrest m, ?_, fun _ => rfl⟩
      rintro ⟨_, hfirst, hmelds'⟩
      rw [← Option.mem_some.mp hfirst] at hmelds'
      exact absurd hmelds' hmelds

/-! ### Committing moves -/

/-- The move, or the same move committed. -/
def CommittedOrSame (d d' : DDA α n) : Prop := d' = d ∨ d' = { d with state := .committed }

omit [Field α] [LinearOrder α] [IsStrictOrderedRing α] in
lemma commitOldest_spec (queue : List (DDA α n)) :
    List.Forall₂ CommittedOrSame queue (commitOldest queue) := by
  induction queue with
  | nil => exact .nil
  | cons d older ih =>
    rw [commitOldest]
    split
    · exact .cons (.inl rfl) ih
    · exact .cons (.inr rfl) (List.forall₂_same.mpr fun d _ => .inl rfl)

lemma committed_ne_provisional : DDAState.committed ≠ .provisional := by decide

omit [IsStrictOrderedRing α] in
lemma CommittedOrSame.created {d' : DDA α n} (h : CommittedOrSame d d') (hcreated : Created d m) :
    Created d' m := by
  obtain rfl | rfl := h
  · exact hcreated
  · exact { hcreated with }

omit [IsStrictOrderedRing α] in
lemma CommittedOrSame.planned {d' : DDA α n} (h : CommittedOrSame d d')
    (hplanned : d.state = .provisional → Planned d) (hstate : d'.state = .provisional) :
    Planned d' := by
  obtain rfl | rfl := h
  · exact hplanned hstate
  · exact absurd hstate committed_ne_provisional

omit [IsStrictOrderedRing α] in
lemma CommittedOrSame.junction {e d' e' : DDA α n} (hd : CommittedOrSame d d')
    (he : CommittedOrSame e e') (h : Junction k d e) : Junction k d' e' := by
  obtain rfl | rfl := hd
  · obtain rfl | rfl := he
    · exact h
    · exact ⟨h.speed, fun _ hstate => absurd hstate committed_ne_provisional⟩
  · obtain rfl | rfl := he
    · exact ⟨h.speed, fun hstate _ => absurd hstate committed_ne_provisional⟩
    · exact ⟨h.speed, fun hstate _ => absurd hstate committed_ne_provisional⟩

omit [IsStrictOrderedRing α] in
lemma Settled.commit {queue' : List (DDA α n)} (h : Settled k queue)
    (hcommit : List.Forall₂ CommittedOrSame queue queue') : Settled k queue' := by
  induction hcommit with
  | nil => exact h
  | @cons d d' older older' hfirst hrest ih =>
    have htail := ih h.tail
    refine ⟨?_, ?_⟩
    · intro e he hstate
      obtain rfl | he := List.mem_cons.mp he
      · exact hfirst.planned (h.planned d List.mem_cons_self) hstate
      · exact htail.planned e he hstate
    · cases hrest with
      | nil => exact .singleton d'
      | cons hsecond _ =>
        exact List.isChain_cons_cons.mpr
          ⟨hfirst.junction hsecond (List.isChain_cons_cons.mp h.junctions).1, htail.junctions⟩

/-! ### Runs -/

inductive Action (α : Type) [Field α] [LinearOrder α] (n : ℕ)
  | add (m : StandardMove α n)
  | commit

/-- The ring, and the moves it was given as they were created. -/
structure Session (α : Type) [Field α] [LinearOrder α] (n : ℕ) where
  ring : DDARing α n
  moves : List (StandardMove α n)

def Session.initial : Session α n := ⟨⟨[], 0⟩, []⟩

def step (k : Jerk α n) (fastSqrtf : α → α) (s : Session α n) : Action α n → Session α n
  | .add m =>
    let (ring, rslt) := addStandardMove k fastSqrtf s.ring m
    ⟨ring, if rslt = .ok then m :: s.moves else s.moves⟩
  | .commit => { s with ring := { s.ring with queue := commitOldest s.ring.queue } }

/-- A provisional move of the queue keeps to the path and the limits it was created with. -/
structure Feasible (d : DDA α n) (m : StandardMove α n) : Prop where
  start_nonneg : 0 ≤ d.startSpeed
  end_nonneg : 0 ≤ d.endSpeed
  start_le : d.startSpeed ≤ d.topSpeed
  end_le : d.endSpeed ≤ d.topSpeed
  top_le : d.topSpeed ≤ m.requestedSpeed
  distances : d.accelDistance + d.decelDistance ≤ m.totalDistance
  joinable : Joinable m.maxAcceleration m.maxDeceleration m.totalDistance d.startSpeed d.endSpeed

/-- What every addition is to leave: continuous speeds, the last move ending at rest, feasible
provisional moves, junctions within the jerk limits, and no error recorded. -/
structure Good (k : Jerk α n) (s : Session α n) : Prop where
  created : List.Forall₂ Created s.ring.queue s.moves
  feasible : List.Forall₂ (fun d m => d.state = .provisional → Feasible d m) s.ring.queue s.moves
  junctions : s.ring.queue.IsChain (Junction k)
  rest : EndsAtRest s.ring.queue
  errors : s.ring.numLookaheadErrors = 0

/-- The move that `addStandardMove` computes. -/
def newMove (k : Jerk α n) (fastSqrtf : α → α) (queue : List (DDA α n)) (m : StandardMove α n) :
    DDA α n :=
  (recalculateMove k fastSqrtf
    { DDA.ofMove m with startSpeed := (meld k fastSqrtf m queue).2.1 }).1

/-- No move that melds with the last one of the queue takes too long. -/
def ShortIfMelded (k : Jerk α n) (fastSqrtf : α → α) (s : Session α n) : Action α n → Prop
  | .add m => (∃ prev ∈ s.ring.queue.head?, melds k m prev) →
      (newMove k fastSqrtf s.ring.queue m).totalTime < maxDuration
  | .commit => True

/-- What additions and commits rely on from one to the next. -/
structure Kept (k : Jerk α n) (s : Session α n) : Prop where
  created : List.Forall₂ Created s.ring.queue s.moves
  settled : Settled k s.ring.queue
  rest : EndsAtRest s.ring.queue
  errors : s.ring.numLookaheadErrors = 0

omit [IsStrictOrderedRing α] in
lemma kept_initial : Kept k (.initial : Session α n) :=
  ⟨.nil, ⟨fun _ hd => absurd hd List.not_mem_nil, .nil⟩,
    fun _ hlast => absurd hlast (Option.not_mem_none _), rfl⟩

omit [IsStrictOrderedRing α] in
lemma Planned.feasible (h : Planned d) (hcreated : Created d m) : Feasible d m := by
  refine ⟨h.start_nonneg, h.end_nonneg, h.start_le_top, h.end_le_top,
    h.top_le.trans_eq hcreated.requestedSpeed, h.distances.trans_eq hcreated.totalDistance, ?_⟩
  rw [← hcreated.maxAcceleration, ← hcreated.maxDeceleration, ← hcreated.totalDistance]
  exact h.joinable

omit [IsStrictOrderedRing α] in
lemma feasible_of_planned {moves : List (StandardMove α n)}
    (hplanned : ∀ d ∈ queue, d.state = .provisional → Planned d)
    (hcreated : List.Forall₂ Created queue moves) :
    List.Forall₂ (fun d m => d.state = .provisional → Feasible d m) queue moves := by
  induction hcreated with
  | nil => exact .nil
  | cons hfirst _ ih =>
    exact .cons (fun hstate => (hplanned _ List.mem_cons_self hstate).feasible hfirst)
      (ih fun d hd => hplanned d (List.mem_cons_of_mem _ hd))

omit [IsStrictOrderedRing α] in
lemma Kept.good {s : Session α n} (h : Kept k s) : Good k s :=
  ⟨h.created, feasible_of_planned h.settled.planned h.created, h.settled.junctions, h.rest,
    h.errors⟩

/-- What adding a move makes of the session. -/
lemma step_add (hf : IsSqrt fastSqrtf) {s : Session α n} (h : Kept k s) (m : StandardMove α n) :
    ∃ queue' v, Melded k m s.ring.queue queue' v ∧
      ((∃ prev ∈ s.ring.queue.head?, melds k m prev) → ∃ last ∈ queue'.head?, 0 < last.endSpeed) ∧
      ((¬ ∃ prev ∈ s.ring.queue.head?, melds k m prev) → queue' = s.ring.queue) ∧
      newMove k fastSqrtf s.ring.queue m =
        (recalculateMove k fastSqrtf { DDA.ofMove m with startSpeed := v }).1 ∧
      step k fastSqrtf s (.add m) =
        if (newMove k fastSqrtf s.ring.queue m).totalTime < maxDuration then
          ⟨⟨newMove k fastSqrtf s.ring.queue m :: queue', 0⟩, m :: s.moves⟩
        else ⟨⟨queue', 0⟩, s.moves⟩ := by
  obtain ⟨queue', v, hmeld, hmelded, hpos, hsame⟩ := meld_spec hf h.settled h.rest m
  have herrors := (recalculateMove_spec (k := k) hf hmelded.fits).2
  refine ⟨queue', v, hmelded, hpos, hsame, ?_, ?_⟩
  · rw [newMove, hmeld]
  · by_cases hshort : (newMove k fastSqrtf s.ring.queue m).totalTime < maxDuration
    · have hok : (recalculateMove k fastSqrtf { DDA.ofMove m with startSpeed := v }).2.2 = .ok := by
        rw [newMove, hmeld] at hshort
        exact if_pos hshort
      rw [if_pos hshort, step, addStandardMove]
      simp only [newMove, hmeld, herrors, h.errors, hok, if_true]
    · have hlong : (recalculateMove k fastSqrtf { DDA.ofMove m with startSpeed := v }).2.2 =
          .moveDurationTooLong := by
        rw [newMove, hmeld] at hshort
        exact if_neg hshort
      rw [if_neg hshort, step, addStandardMove]
      simp only [hmeld, herrors, h.errors, hlong]
      rfl

lemma step_add_kept (hf : IsSqrt fastSqrtf) {s : Session α n} (h : Kept k s)
    (hshort : ShortIfMelded k fastSqrtf s (.add m)) : Kept k (step k fastSqrtf s (.add m)) := by
  obtain ⟨queue', v, hmelded, -, hsame, hnewMove, heq⟩ := step_add hf h m
  have hrecalculated := (recalculateMove_spec (k := k) hf hmelded.fits).1
  rw [← hnewMove] at hrecalculated
  have hcreated := created_of_same h.created hmelded.same
  rw [heq]
  split
  · have hnew : Created (newMove k fastSqrtf s.ring.queue m) m :=
      Created.of_same ⟨rfl, rfl, rfl, rfl, rfl⟩ hrecalculated.same
    refine ⟨.cons hnew hcreated, ⟨?_, ?_⟩, ?_, rfl⟩
    · intro d hd hstate
      obtain rfl | hd := List.mem_cons.mp hd
      · exact hrecalculated.planned
      · exact hmelded.settled.planned d hd hstate
    · have hchain := hmelded.settled.junctions
      cases queue' with
      | nil => exact .singleton _
      | cons last older =>
        refine List.isChain_cons_cons.mpr ⟨⟨hrecalculated.startSpeed.trans (hmelded.speed last rfl),
          ?_⟩, hchain⟩
        intro _ hlast
        rw [hnew.directionVector]
        exact hmelded.jerk last rfl hlast
    · intro last hlast
      rw [← Option.mem_some.mp hlast]
      exact hrecalculated.endSpeed
  · next hlong =>
    have hqueue := hsame fun hmelds => hlong (hshort hmelds)
    refine ⟨hcreated, hmelded.settled, ?_, rfl⟩
    rw [hqueue]
    exact h.rest

/-- A melded move that is refused leaves the move before it with an end speed. -/
lemma step_add_not_rest (hf : IsSqrt fastSqrtf) {s : Session α n} (h : Kept k s)
    (hlong : ¬ ShortIfMelded k fastSqrtf s (.add m)) :
    ¬ EndsAtRest (step k fastSqrtf s (.add m)).ring.queue := by
  obtain ⟨hmelds, hlong⟩ := Classical.not_imp.mp hlong
  obtain ⟨queue', v, -, hpos, -, -, heq⟩ := step_add hf h m
  obtain ⟨last, hlast, hmoving⟩ := hpos hmelds
  rw [heq, if_neg hlong]
  exact fun hrest => hmoving.ne' (hrest last hlast)

omit [IsStrictOrderedRing α] in
lemma created_of_commit {queue' : List (DDA α n)} {moves : List (StandardMove α n)}
    (h : List.Forall₂ Created queue moves) (hcommit : List.Forall₂ CommittedOrSame queue queue') :
    List.Forall₂ Created queue' moves := by
  induction hcommit generalizing moves with
  | nil => exact h
  | cons hfirst _ ih =>
    obtain _ | ⟨hcreated, hrest⟩ := h
    exact .cons (hfirst.created hcreated) (ih hrest)

omit [LinearOrder α] [IsStrictOrderedRing α] in
lemma EndsAtRest.commit {queue' : List (DDA α n)} (h : EndsAtRest queue)
    (hcommit : List.Forall₂ CommittedOrSame queue queue') : EndsAtRest queue' := by
  cases hcommit with
  | nil => exact h
  | @cons d _ _ _ hfirst _ =>
    intro last hlast
    rw [← Option.mem_some.mp hlast]
    obtain rfl | rfl := hfirst
    · exact h _ rfl
    · exact h d rfl

omit [IsStrictOrderedRing α] in
lemma step_commit_kept {s : Session α n} (h : Kept k s) : Kept k (step k fastSqrtf s .commit) := by
  have hcommit := commitOldest_spec s.ring.queue
  exact ⟨created_of_commit h.created hcommit, h.settled.commit hcommit, h.rest.commit hcommit,
    h.errors⟩

/-- The profile stays continuous and feasible over a run exactly if no melded move is too long. -/
theorem profile_feasible (k : Jerk ℝ n) (as : List (Action ℝ n)) :
    Always (step k Real.sqrt) (Good k) .initial as ↔
      Along (step k Real.sqrt) (ShortIfMelded k Real.sqrt) .initial as := by
  have hf : IsSqrt Real.sqrt := ⟨fun x _ => Real.sqrt_nonneg x, fun x hx => Real.sq_sqrt hx⟩
  apply always_iff_along_of_kept kept_initial fun _ h => h.good
  · rintro s (m | _) h hok
    · exact step_add_kept hf h hok
    · exact step_commit_kept h
  · rintro s (m | _) h hgood
    · by_contra hlong
      exact step_add_not_rest hf h hlong hgood.rest
    · trivial

/-! ### A refused move -/

def oneDrive : Jerk ℝ 1 := ⟨1, fun _ => 1, fun _ => 1, fun _ => one_pos⟩

def straight (distance : ℝ) (h : 0 < distance) : StandardMove ℝ 1 where
  directionVector := fun _ => 1
  totalDistance := distance
  maxAcceleration := 1
  maxDeceleration := 1
  requestedSpeed := 1
  isPrintingMove := true
  xyMoving := true
  isNonPrintingExtruderMove := false
  canPauseAfter := true
  distance_pos := h
  acceleration_pos := one_pos
  deceleration_pos := one_pos
  speed_pos := one_pos

/-- A move over a distance of at least one reaches its requested speed or keeps its start speed. -/
lemma straight_totalTime {s v : ℝ} (hpos : 0 < s) (hs : 1 < s) (hv : 0 ≤ v) :
    (recalculateMove oneDrive Real.sqrt
        { DDA.ofMove (straight s hpos) with startSpeed := v }).1.totalTime =
      if 1 < v + 10 ∧ 0.9 ≤ v then v + (s - 1 / 2) / v
      else 1 - v + 1 + (s - (1 - v ^ 2) / 2 - 1 / 2) := by
  have hpause : ∀ d : DDA ℝ 1, (setCanPauseAfter oneDrive d).totalTime = d.totalTime := by
    intro d
    rw [setCanPauseAfter]
    split <;> rfl
  have hshort : ((1 : ℝ) ^ 2 - v ^ 2) / (2 * 1) + (1 ^ 2 - 0 ^ 2) / (2 * 1) < s := by
    linarith [sq_nonneg v]
  have hprofile : (computeProfile Real.sqrt
      { DDA.ofMove (straight s hpos) with startSpeed := v }).1 = reachTopSpeed
        { DDA.ofMove (straight s hpos) with
          startSpeed := v
          accelDistance := (1 ^ 2 - v ^ 2) / (2 * 1)
          decelDistance := (1 ^ 2 - 0 ^ 2) / (2 * 1) } :=
    congrArg Prod.fst (if_pos hshort)
  rw [recalculateMove, hpause, hprofile]
  have hcond : (v + 1 * minimumAccelOrDecelClocks > 1 ∧ v ≥ 1 * 0.9) ↔ (1 < v + 10 ∧ 0.9 ≤ v) := by
    rw [minimumAccelOrDecelClocks, one_mul, one_mul, gt_iff_lt, ge_iff_le]
  by_cases hfast : 1 < v + 10 ∧ 0.9 ≤ v
  · rw [if_pos hfast]
    refine (congrArg DDA.totalTime ((if_pos hv).trans (if_pos (hcond.mpr hfast)))).trans ?_
    change (v - v) / 1 + (v - 0) / 1 + (s - 0 - (1 ^ 2 - 0 ^ 2) / (2 * 1)) / v = _
    norm_num
  · rw [if_neg hfast]
    refine (congrArg DDA.totalTime ((if_pos hv).trans (if_neg (mt hcond.mp hfast)))).trans ?_
    change (1 - v) / 1 + (1 - 0) / 1 + (s - (1 ^ 2 - v ^ 2) / (2 * 1) -
      (1 ^ 2 - 0 ^ 2) / (2 * 1)) / 1 = _
    norm_num

lemma straight_accepted :
    (newMove oneDrive Real.sqrt [] (straight 2 two_pos)).totalTime < maxDuration := by
  change (recalculateMove oneDrive Real.sqrt
    { DDA.ofMove (straight 2 two_pos) with startSpeed := 0 }).1.totalTime < maxDuration
  rw [straight_totalTime two_pos one_lt_two le_rfl, maxDuration]
  norm_num

lemma straight_refused {v : ℝ} (hpos : (0 : ℝ) < 3000000000) (hv : 0 ≤ v) (hle : v ≤ 1) :
    ¬ (recalculateMove oneDrive Real.sqrt
      { DDA.ofMove (straight 3000000000 hpos) with startSpeed := v }).1.totalTime < maxDuration :=
        by
  rw [straight_totalTime hpos (by norm_num) hv, maxDuration, not_lt]
  split
  · next hfast =>
    have hsteady : (3000000000 - 1 / 2 : ℝ) ≤ (3000000000 - 1 / 2) / v :=
      le_div_self (by norm_num) (by linarith) hle
    linarith
  · linarith [sq_nonneg v]

/-- The second move takes longer than step clocks can tell, and is refused after the first one has
been given an end speed. -/
theorem refused_move_keeps_speed :
    ¬ ∀ (n : ℕ) (k : Jerk ℝ n) (as : List (Action ℝ n)),
      Always (step k Real.sqrt) (Good k) .initial as := by
  intro h
  have hf : IsSqrt Real.sqrt := ⟨fun x _ => Real.sqrt_nonneg x, fun x hx => Real.sq_sqrt hx⟩
  have hlength : (0 : ℝ) < 3000000000 := by norm_num
  have hgood := h 1 oneDrive [.add (straight 2 two_pos), .add (straight 3000000000 hlength)] _
    (List.prefix_refl _)
  obtain ⟨_, v, hmelded, -, -, hnew, heq⟩ :=
    step_add hf (kept_initial (k := oneDrive)) (straight 2 two_pos)
  have hfirst : Kept oneDrive (step oneDrive Real.sqrt .initial (.add (straight 2 two_pos))) := by
    apply step_add_kept hf kept_initial
    rintro ⟨prev, hprev, -⟩
    exact absurd hprev (Option.not_mem_none prev)
  have hstate : (newMove oneDrive Real.sqrt [] (straight 2 two_pos)).state = .provisional :=
    (congrArg DDA.state hnew).trans
      (recalculateMove_spec (k := oneDrive) hf hmelded.fits).1.same.state
  have hmelds : melds oneDrive (straight 3000000000 hlength)
      (newMove oneDrive Real.sqrt [] (straight 2 two_pos)) = true := by
    rw [melds, hstate]
    rfl
  refine step_add_not_rest hf hfirst ?_ hgood.rest
  intro hshort
  have hlong := hshort ⟨newMove oneDrive Real.sqrt [] (straight 2 two_pos), by
    rw [heq]
    exact congrArg (fun s : Session ℝ 1 => s.ring.queue.head?) (if_pos straight_accepted), hmelds⟩
  obtain ⟨_, w, hmelded', -, -, hnew', -⟩ := step_add hf hfirst (straight 3000000000 hlength)
  rw [hnew'] at hlong
  exact straight_refused hlength hmelded'.fits.start_nonneg hmelded'.fits.start_le hlong

end RepRapFirmware.Movement.Lookahead
