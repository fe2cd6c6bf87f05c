import RepRapFirmware.GCodes.KeepoutZone
import RepRapFirmware.Library.HalfOpenIntervals

/-! The angles at which an arc is inside a keep-out zone. Angles are exact,
  from -π to π; an interval
does not contain its upper end, as one of no length is dropped. -/

namespace RepRapFirmware.GCodes

open Library.HalfOpenIntervals

/-- What the check uses of the floating point library. -/
structure Trigonometry where
  pi : ℚ
  acosf : ℚ → ℚ
  asinf : ℚ → ℚ

namespace ArcIntervals

def maxIntervals : ℕ := 4

/-- The first intervals, from `startAngle` to `endAngle`. -/
def initial (pi startAngle endAngle : ℚ) : List (ℚ × ℚ) :=
  if endAngle < startAngle then [(startAngle, pi), (-pi, endAngle)] else [(startAngle, endAngle)]

/-- Copies an interval across, or fails the assertion. -/
def copyAcross (nextSet : List (ℚ × ℚ)) (i : ℚ × ℚ) : Option (List (ℚ × ℚ)) :=
  if i.1 < i.2 then if nextSet.length < maxIntervals then some (nextSet ++ [i]) else none
  else some nextSet

/-- The next set of intervals, or `none` if the assertion fails. -/
def addRangeLimit (currentSet : List (ℚ × ℚ)) (limit : ℚ × ℚ) : Option (List (ℚ × ℚ)) :=
  let (startAngle, endAngle) := limit
  if endAngle < startAngle then
    currentSet.foldlM (fun nextSet i =>
      (copyAcross nextSet (i.1, min i.2 endAngle)).bind fun nextSet =>
        copyAcross nextSet (max i.1 startAngle, i.2)) []
  else
    currentSet.foldlM (fun nextSet i =>
      copyAcross nextSet (max i.1 startAngle, min i.2 endAngle)) []

/-- The limits one after the other, until there are no intervals left. -/
def addRangeLimits : List (ℚ × ℚ) → List (ℚ × ℚ) → Option (List (ℚ × ℚ))
  | [], currentSet => some currentSet
  | limit :: limits, currentSet =>
    (addRangeLimit currentSet limit).bind fun nextSet =>
      if nextSet = [] then some [] else addRangeLimits limits nextSet

end ArcIntervals

namespace KeepoutZone

open ArcIntervals

variable {maxAxes : ℕ}

/-- The limits of the angles that an axis gives, or `none` if the circle is outside the zone. -/
def angleLimits (lowerLimit upperLimit : ℚ → ℚ × ℚ) (zone : KeepoutZone maxAxes)
    (arcCentres : Fin maxAxes → ℚ) (arcRadius : ℚ) (axis : Fin maxAxes) : Option (List (ℚ × ℚ)) :=
  let coords := zone.coords axis
  let centre := arcCentres axis
  if centre + arcRadius ≤ coords.1 ∨ coords.2 ≤ centre - arcRadius then none
  else if centre + arcRadius ≤ coords.2 ∧ coords.1 ≤ centre - arcRadius then some []
  else
    let v1 := (coords.1 - centre) / arcRadius
    let v2 := (coords.2 - centre) / arcRadius
    some ((if v1 < 1 ∧ -1 < v1 then [lowerLimit v1] else []) ++
      if v2 < 1 ∧ -1 < v2 then [upperLimit v2] else [])

def cosineLimits (t : Trigonometry) : KeepoutZone maxAxes → (Fin maxAxes → ℚ) → ℚ → Fin maxAxes →
    Option (List (ℚ × ℚ)) :=
  angleLimits (fun cos1 => (-t.acosf cos1, t.acosf cos1)) (fun cos2 => (t.acosf cos2,
    -t.acosf cos2))

def sineLimits (t : Trigonometry) : KeepoutZone maxAxes → (Fin maxAxes → ℚ) → ℚ → Fin maxAxes →
    Option (List (ℚ × ℚ)) :=
  angleLimits
    (fun sin1 => (t.asinf sin1, (if t.asinf sin1 < 0 then -t.pi else t.pi) - t.asinf sin1))
    (fun sin2 => ((if t.asinf sin2 < 0 then -t.pi else t.pi) - t.asinf sin2, t.asinf sin2))

/-- The iteration over the axes of a kind, until one has no angles left. -/
def limitAngles (limitsOf : Fin maxAxes → Option (List (ℚ × ℚ))) :
    List (Fin maxAxes) → List (ℚ × ℚ) → Option (List (ℚ × ℚ))
  | [], currentSet => some currentSet
  | axis :: axes, currentSet =>
    match limitsOf axis with
    | none => some []
    | some limits =>
      (addRangeLimits limits currentSet).bind fun nextSet =>
        if nextSet = [] then some [] else limitAngles limitsOf axes nextSet

/-- The angles at the two ends of the part of the move that the other axes leave. -/
def initialRange (t : Trigonometry) (startAngle endAngle : ℚ) (clockwise wholeCircle : Bool)
    (p : ℚ × ℚ) : ℚ × ℚ :=
  if wholeCircle ∧ p = (0, 1) then (-t.pi, t.pi)
  else
    let (startAngle, endAngle) :=
      if clockwise then (endAngle, startAngle) else (startAngle, endAngle)
    let endAngle := if endAngle ≤ startAngle then endAngle + 2 * t.pi else endAngle
    let normalise (angle : ℚ) := if t.pi < angle then angle - 2 * t.pi else angle
    (normalise (p.1 * endAngle + (1 - p.1) * startAngle),
      normalise (p.2 * endAngle + (1 - p.2) * startAngle))

/-- Whether the arc comes into the zone, or `none` if an assertion fails. -/
def doesArcIntrude (t : Trigonometry) (zone : KeepoutZone maxAxes)
    (startCoords endCoords : Fin maxAxes → ℚ) (startAngle endAngle : ℚ)
    (arcCentres : Fin maxAxes → ℚ) (arcRadius : ℚ) (cosineAxes sineAxes : Finset (Fin maxAxes))
    (clockwise wholeCircle : Bool) : Option Bool :=
  if !zone.active ∨ zone.axesChecked = ∅ then some false
  else
    let linearAxes := zone.axesChecked \ (cosineAxes ∪ sineAxes)
    match (axesInOrder linearAxes).foldlM (limitProportions (fun pLow pHigh => pLow < pHigh) zone
      startCoords endCoords) (0, 1) with
    | none => some false
    | some p =>
      let range := initialRange t startAngle endAngle clockwise wholeCircle p
      (limitAngles (cosineLimits t zone arcCentres arcRadius) (axesInOrder cosineAxes)
        (initial t.pi range.1 range.2)).bind fun angleIntervals =>
          if angleIntervals = [] then some false
          else (limitAngles (sineLimits t zone arcCentres arcRadius) (axesInOrder sineAxes)
            angleIntervals).map (· ≠ [])

/-- The limits that `DoesArcIntrude` adds, as long as there are intervals left. -/
def limitSequence (t : Trigonometry) (zone : KeepoutZone maxAxes) (arcCentres : Fin maxAxes → ℚ)
    (arcRadius : ℚ) (cosineAxes sineAxes : Finset (Fin maxAxes)) : List (ℚ × ℚ) :=
  (((axesInOrder cosineAxes).map (cosineLimits t zone arcCentres arcRadius) ++
    (axesInOrder sineAxes).map (sineLimits t zone arcCentres arcRadius)).takeWhile
      Option.isSome).flatMap (·.getD [])

end KeepoutZone

namespace ArcIntervals

/-- The intervals are one after the other along the arc, and a limit leaves exactly the angles that
it shares with them. -/
structure Limited (startAngle : ℚ) (limit : ℚ × ℚ) (currentSet nextSet : List (ℚ × ℚ)) : Prop where
  angles (angle : ℚ) :
    Covered nextSet angle ↔ Covered currentSet angle ∧ InRange limit.1 limit.2 angle
  ordered : nextSet.Pairwise (Follows startAngle)
  proper : ∀ i ∈ nextSet, i.1 < i.2

/-- Each of the limits is added as it should be, and no assertion fails. -/
def LimitedExactly (pi startAngle endAngle : ℚ) (limits : List (ℚ × ℚ)) : Prop :=
  ∀ before limit after, limits = before ++ limit :: after →
    ∃ currentSet nextSet,
      before.foldlM addRangeLimit (initial pi startAngle endAngle) = some currentSet ∧
      addRangeLimit currentSet limit = some nextSet ∧ Limited startAngle limit currentSet nextSet

/-- The angle is on the arc and within all limits. -/
def Allowed (pi startAngle endAngle : ℚ) (limits : List (ℚ × ℚ)) (angle : ℚ) : Prop :=
  (-pi ≤ angle ∧ angle < pi) ∧ InRange startAngle endAngle angle ∧
    ∀ limit ∈ limits, InRange limit.1 limit.2 angle

instance (pi startAngle endAngle : ℚ) (limits : List (ℚ × ℚ)) :
    DecidablePred (Allowed pi startAngle endAngle limits) :=
  fun _ => inferInstanceAs (Decidable (_ ∧ _ ∧ _))

/-- The angles at which an interval may begin: the start of the arc, the angle -π, and the lower
ends of the limits. -/
def marks (pi startAngle : ℚ) (limits : List (ℚ × ℚ)) : Finset ℚ :=
  {startAngle, -pi} ∪ (limits.map Prod.fst).toFinset

/-- The angles at which the arc is found in the zone anew. -/
def entries (pi startAngle endAngle : ℚ) (limits : List (ℚ × ℚ)) : Finset ℚ :=
  (marks pi startAngle limits).filter (Allowed pi startAngle endAngle limits)

variable {pi startAngle endAngle : ℚ} {currentSet nextSet : List (ℚ × ℚ)} {limit : ℚ × ℚ}
  {limits : List (ℚ × ℚ)}

/-! ### One limit -/

lemma foldlM_copyAcross (is : List (ℚ × ℚ)) (hroom : nextSet.length ≤ maxIntervals) :
    is.foldlM copyAcross nextSet =
      if (nextSet ++ is.filter fun i => i.1 < i.2).length ≤ maxIntervals then
        some (nextSet ++ is.filter fun i => i.1 < i.2)
      else none := by
  induction is generalizing nextSet with
  | nil =>
    rw [List.filter_nil, List.append_nil, if_pos hroom]
    rfl
  | cons i is ih =>
    rw [List.foldlM_cons, copyAcross]
    by_cases hlt : i.1 < i.2
    · have hfilter : (i :: is).filter (fun i => i.1 < i.2) = i :: is.filter fun i => i.1 < i.2 :=
        List.filter_cons_of_pos (decide_eq_true hlt)
      rw [if_pos hlt, hfilter, List.append_cons nextSet i (is.filter fun i => i.1 < i.2)]
      by_cases hlast : nextSet.length < maxIntervals
      · have hroom' : (nextSet ++ [i]).length ≤ maxIntervals := by
          rw [List.length_append, List.length_singleton]
          exact hlast
        rw [if_pos hlast]
        exact ih hroom'
      · rw [if_neg hlast, if_neg]
        · rfl
        · simp only [List.length_append, List.length_singleton]
          omega
    · have hfilter : (i :: is).filter (fun i => i.1 < i.2) = is.filter fun i => i.1 < i.2 :=
        List.filter_cons_of_neg fun h => hlt (of_decide_eq_true h)
      rw [if_neg hlt, hfilter]
      exact ih hroom

/-- The next set, without the assertion. -/
def cut (currentSet : List (ℚ × ℚ)) (limit : ℚ × ℚ) : List (ℚ × ℚ) :=
  currentSet.flatMap (pieces limit.1 limit.2)

lemma addRangeLimit_eq (currentSet : List (ℚ × ℚ)) (limit : ℚ × ℚ) :
    addRangeLimit currentSet limit =
      if (cut currentSet limit).length ≤ maxIntervals then some (cut currentSet limit) else none :=
        by
  have hloop : addRangeLimit currentSet limit =
      (currentSet.flatMap (candidates limit.1 limit.2)).foldlM copyAcross [] := by
    have hall (step : List (ℚ × ℚ) → ℚ × ℚ → Option (List (ℚ × ℚ)))
        (hstep : ∀ nextSet i, step nextSet i =
          (candidates limit.1 limit.2 i).foldlM copyAcross nextSet) (nextSet : List (ℚ × ℚ)) :
        currentSet.foldlM step nextSet =
          (currentSet.flatMap (candidates limit.1 limit.2)).foldlM copyAcross nextSet := by
      induction currentSet generalizing nextSet with
      | nil => rfl
      | cons i currentSet ih =>
        rw [List.foldlM_cons, List.flatMap_cons, List.foldlM_append, hstep]
        exact congrArg _ (funext ih)
    rw [addRangeLimit]
    split
    · next hwraps =>
      apply hall
      intro nextSet i
      rw [candidates, if_pos hwraps]
      simp only [List.foldlM_cons, List.foldlM_nil, bind_pure]
      rfl
    · next hstraight =>
      apply hall
      intro nextSet i
      rw [candidates, if_neg hstraight, List.foldlM_cons]
      simp only [List.foldlM_nil, bind_pure]
  have hfilter : (currentSet.flatMap (candidates limit.1 limit.2)).filter (fun i => i.1 < i.2) =
      cut currentSet limit := List.filter_flatMap ..
  rw [hloop, foldlM_copyAcross _ (Nat.zero_le _), List.nil_append, hfilter]

/-! ### All limits -/

lemma foldlM_eq_cut (h : limits.foldlM addRangeLimit currentSet = some nextSet) :
    nextSet = limits.foldl cut currentSet := by
  induction limits generalizing currentSet with
  | nil => exact (Option.some.inj h).symm
  | cons limit limits ih =>
    obtain ⟨next, hnext, h⟩ := Option.bind_eq_some_iff.mp h
    rw [addRangeLimit_eq] at hnext
    split at hnext
    · rw [List.foldl_cons, Option.some.inj hnext]
      exact ih h
    · exact nomatch hnext

lemma foldlM_of_room (hroom : ∀ before limit after, limits = before ++ limit :: after →
      ((before ++ [limit]).foldl cut currentSet).length ≤ maxIntervals) :
    limits.foldlM addRangeLimit currentSet = some (limits.foldl cut currentSet) := by
  induction limits generalizing currentSet with
  | nil => rfl
  | cons limit limits ih =>
    have hfirst := hroom [] limit limits rfl
    rw [List.nil_append, List.foldl_cons, List.foldl_nil] at hfirst
    rw [List.foldlM_cons, addRangeLimit_eq, if_pos hfirst, List.foldl_cons]
    apply ih
    intro before limit' after h
    exact hroom (limit :: before) limit' after (congrArg (limit :: ·) h)

lemma marks_concat (pi startAngle : ℚ) (before : List (ℚ × ℚ)) (limit : ℚ × ℚ) :
    marks pi startAngle (before ++ [limit]) = insert limit.1 (marks pi startAngle before) := by
  ext angle
  simp only [marks, List.map_append, List.map_cons, List.map_nil, List.toFinset_append,
    List.toFinset_cons, List.toFinset_nil, Finset.mem_union, Finset.mem_insert,
    Finset.mem_singleton, Finset.notMem_empty]
  tauto

lemma covered_initial (hstart : -pi ≤ startAngle ∧ startAngle ≤ pi)
    (hend : -pi ≤ endAngle ∧ endAngle ≤ pi) (angle : ℚ) :
    Covered (initial pi startAngle endAngle) angle ↔ Allowed pi startAngle endAngle [] angle := by
  rw [Covered, Allowed, initial, InRange]
  split
  · simp only [List.mem_cons, List.not_mem_nil, or_false, exists_eq_or_imp, exists_eq_left, Within,
      false_imp_iff, implies_true, and_true]
    constructor
    · rintro (⟨hlow, hhigh⟩ | ⟨hlow, hhigh⟩)
      · exact ⟨⟨by linarith, hhigh⟩, Or.inr hlow⟩
      · exact ⟨⟨hlow, by linarith⟩, Or.inl hhigh⟩
    · rintro ⟨⟨hlow, hhigh⟩, hbefore | hbehind⟩
      · exact Or.inr ⟨hlow, hbefore⟩
      · exact Or.inl ⟨hbehind, hhigh⟩
  · simp only [List.mem_cons, List.not_mem_nil, or_false, exists_eq_left, Within, false_imp_iff,
      implies_true, and_true]
    constructor
    · rintro ⟨hlow, hhigh⟩
      exact ⟨⟨by linarith, by linarith⟩, hlow, hhigh⟩
    · exact fun h => h.2

lemma marked_initial (hstart : -pi ≤ startAngle ∧ startAngle ≤ pi) :
    Marked (marks pi startAngle []) (initial pi startAngle endAngle) := by
  have hmarks (angle : ℚ) : angle ∈ marks pi startAngle [] ↔ angle = startAngle ∨ angle = -pi := by
    simp [marks]
  rw [initial]
  split
  · next hwraps =>
    constructor
    · intro i hi
      obtain rfl | rfl := List.mem_pair.mp hi
      · exact (hmarks _).mpr (Or.inl rfl)
      · exact (hmarks _).mpr (Or.inr rfl)
    · intro i hi angle hangle hinside
      obtain rfl | rfl := (hmarks angle).mp hangle
      · obtain rfl | rfl := List.mem_pair.mp hi
        · exact lt_irrefl _ hinside.1
        · exact absurd hinside.2 (not_lt.mpr hwraps.le)
      · obtain rfl | rfl := List.mem_pair.mp hi
        · exact absurd hinside.1 (not_lt.mpr hstart.1)
        · exact lt_irrefl _ hinside.1
  · constructor
    · intro i hi
      obtain rfl := List.mem_singleton.mp hi
      exact (hmarks _).mpr (Or.inl rfl)
    · intro i hi angle hangle hinside
      obtain rfl := List.mem_singleton.mp hi
      obtain rfl | rfl := (hmarks angle).mp hangle
      · exact lt_irrefl _ hinside.1
      · exact absurd hinside.1 (not_lt.mpr hstart.1)

lemma follows_initial (pi startAngle endAngle : ℚ) :
    (initial pi startAngle endAngle).Pairwise (Follows startAngle) := by
  rw [initial]
  split
  · next hwraps =>
    rw [List.pairwise_pair]
    exact Or.inr ⟨hwraps.le, le_rfl⟩
  · exact List.pairwise_singleton _ _

lemma allowed_concat (before : List (ℚ × ℚ)) (limit : ℚ × ℚ) (angle : ℚ) :
    Allowed pi startAngle endAngle (before ++ [limit]) angle ↔
      Allowed pi startAngle endAngle before angle ∧ InRange limit.1 limit.2 angle := by
  simp only [Allowed, List.forall_mem_append, List.forall_mem_singleton, and_assoc]

/-- What is known of the intervals after some limits. -/
structure Neat (pi startAngle endAngle : ℚ) (limits currentSet : List (ℚ × ℚ)) : Prop where
  covered (angle : ℚ) : Covered currentSet angle ↔ Allowed pi startAngle endAngle limits angle
  marked : Marked (marks pi startAngle limits) currentSet
  ordered : currentSet.Pairwise (Follows startAngle)

lemma neat_cut (hstart : -pi ≤ startAngle ∧ startAngle ≤ pi)
    (hend : -pi ≤ endAngle ∧ endAngle ≤ pi) (limits : List (ℚ × ℚ)) :
    Neat pi startAngle endAngle limits (limits.foldl cut (initial pi startAngle endAngle)) := by
  induction limits using List.reverseRecOn with
  | nil =>
    exact ⟨covered_initial hstart hend, marked_initial hstart,
      follows_initial pi startAngle endAngle⟩
  | append_singleton before limit ih =>
    rw [List.foldl_append, List.foldl_cons, List.foldl_nil]
    refine ⟨fun angle => ?_, ?_, flatMap_pieces_follow ih.ordered⟩
    · rw [allowed_concat, ← ih.covered]
      exact covered_flatMap_pieces
    · rw [marks_concat]
      exact ih.marked.pieces limit.1 limit.2

lemma proper_cut (i : ℚ × ℚ) (hi : i ∈ cut currentSet limit) : i.1 < i.2 := by
  obtain ⟨i', -, hi⟩ := List.mem_flatMap.mp hi
  exact (mem_pieces hi).2.2.1

/-- After a limit there is one interval for each entry. -/
lemma length_cut (hstart : -pi ≤ startAngle ∧ startAngle ≤ pi)
    (hend : -pi ≤ endAngle ∧ endAngle ≤ pi) (before : List (ℚ × ℚ)) (limit : ℚ × ℚ) :
    ((before ++ [limit]).foldl cut (initial pi startAngle endAngle)).length =
      (entries pi startAngle endAngle (before ++ [limit])).card := by
  classical
  have hneat := neat_cut hstart hend (before ++ [limit])
  have hproper : ∀ i ∈ (before ++ [limit]).foldl cut (initial pi startAngle endAngle),
      i.1 < i.2 := by
    rw [List.foldl_append, List.foldl_cons, List.foldl_nil]
    exact proper_cut
  rw [hneat.marked.length_eq hproper hneat.ordered, entries]
  congr 1
  exact Finset.filter_congr fun angle _ => hneat.covered angle

lemma limited_cut (hstart : -pi ≤ startAngle ∧ startAngle ≤ pi)
    (hend : -pi ≤ endAngle ∧ endAngle ≤ pi) (before : List (ℚ × ℚ)) (limit : ℚ × ℚ) :
    Limited startAngle limit (before.foldl cut (initial pi startAngle endAngle))
      (cut (before.foldl cut (initial pi startAngle endAngle)) limit) where
  angles _ := covered_flatMap_pieces
  ordered := flatMap_pieces_follow (neat_cut hstart hend before).ordered
  proper := proper_cut

/-- The limits are added exactly, and without a failed assertion, as long as the arc is found in the
zone anew at most four times. -/
lemma limitedExactly_iff_entries (hstart : -pi ≤ startAngle ∧ startAngle ≤ pi)
    (hend : -pi ≤ endAngle ∧ endAngle ≤ pi) (limits : List (ℚ × ℚ)) :
    LimitedExactly pi startAngle endAngle limits ↔
      ∀ before limit after, limits = before ++ limit :: after →
        (entries pi startAngle endAngle (before ++ [limit])).card ≤ maxIntervals := by
  constructor
  · intro h before limit after hsplit
    obtain ⟨currentSet, nextSet, hcurrent, hnext, -⟩ := h before limit after hsplit
    rw [← length_cut hstart hend, List.foldl_append, List.foldl_cons, List.foldl_nil,
      ← foldlM_eq_cut hcurrent]
    rw [addRangeLimit_eq] at hnext
    split at hnext
    · next hroom => exact hroom
    · exact nomatch hnext
  · intro h before limit after hsplit
    have hroom (before' : List (ℚ × ℚ)) (limit' : ℚ × ℚ) (after' : List (ℚ × ℚ))
        (hsplit' : limits = before' ++ limit' :: after') :
        ((before' ++ [limit']).foldl cut (initial pi startAngle endAngle)).length ≤
          maxIntervals := by
      rw [length_cut hstart hend]
      exact h before' limit' after' hsplit'
    have hlast := hroom before limit after hsplit
    rw [List.foldl_append, List.foldl_cons, List.foldl_nil] at hlast
    refine ⟨_, _, foldlM_of_room ?_, by rw [addRangeLimit_eq, if_pos hlast],
      limited_cut hstart hend before limit⟩
    intro before' limit' after' hsplit'
    apply hroom before' limit' (after' ++ limit :: after)
    rw [hsplit, hsplit', List.append_assoc, List.cons_append]

end ArcIntervals

namespace KeepoutZone

open ArcIntervals

variable {limitsOf : Fin maxAxes → Option (List (ℚ × ℚ))} {axes : List (Fin maxAxes)}
  {currentSet : List (ℚ × ℚ)}

/-- The limits of the axes in front of the first one that has none. -/
def limitsUntilOutside (found : List (Option (List (ℚ × ℚ)))) : List (ℚ × ℚ) :=
  (found.takeWhile Option.isSome).flatMap (·.getD [])

variable {t : Trigonometry} {zone : KeepoutZone maxAxes} {startCoords endCoords : Fin maxAxes → ℚ}
  {startAngle endAngle arcRadius : ℚ} {arcCentres : Fin maxAxes → ℚ}
  {cosineAxes sineAxes : Finset (Fin maxAxes)} {clockwise wholeCircle : Bool} {p : ℚ × ℚ}

/-! ### Arcs -/

/-- The angles of an arc are limited exactly, and no assertion fails, if and only if the arc is
found
in the zone anew at most four times. -/
theorem limitedExactly_iff (t : Trigonometry) (zone : KeepoutZone maxAxes)
    (arcCentres : Fin maxAxes → ℚ) (arcRadius : ℚ) (cosineAxes sineAxes : Finset (Fin maxAxes))
    (startAngle endAngle : ℚ) (hstart : -t.pi ≤ startAngle ∧ startAngle ≤ t.pi)
    (hend : -t.pi ≤ endAngle ∧ endAngle ≤ t.pi) :
    LimitedExactly t.pi startAngle endAngle
        (limitSequence t zone arcCentres arcRadius cosineAxes sineAxes) ↔
      ∀ before limit after, limitSequence t zone arcCentres arcRadius cosineAxes sineAxes =
          before ++ limit :: after →
        (entries t.pi startAngle endAngle (before ++ [limit])).card ≤ 4 :=
  limitedExactly_iff_entries hstart hend _

/-! ### A square in a circle of 10 mm -/

/-- The functions as they are at 4/5 and -4/5. -/
def fourFifths : Trigonometry where
  pi := 31416 / 10000
  acosf := fun x => if x < 0 then 24981 / 10000 else 6435 / 10000
  asinf := fun x => if x < 0 then -9273 / 10000 else 9273 / 10000

def square : KeepoutZone 3 := configure ![some (-8, 8), some (-8, 8), none] none undefined

/-- Half of the circle. -/
theorem limitedExactly_half :
    LimitedExactly fourFifths.pi 0 fourFifths.pi
      (limitSequence fourFifths square 0 10 {0} {1}) := by
  rw [limitedExactly_iff fourFifths square 0 10 {0} {1} 0 fourFifths.pi (by decide +kernel)
    (by decide +kernel)]
  have hall : ∀ n ≤ (limitSequence fourFifths square 0 10 {0} {1}).length,
      (entries fourFifths.pi 0 fourFifths.pi
        ((limitSequence fourFifths square 0 10 {0} {1}).take n)).card ≤ 4 := by decide +kernel
  intro before limit after h
  have htake : before ++ [limit] =
      (limitSequence fourFifths square 0 10 {0} {1}).take (before ++ [limit]).length := by
    rw [h, List.append_cons before limit after, List.take_left]
  rw [htake]
  apply hall
  rw [h]
  simp

/-- The whole circle but for a small gap in a corner of the square: there are five intervals. -/
theorem not_limitedExactly_gap :
    doesArcIntrude fourFifths square 0 0 (80 / 100) (79 / 100) 0 10 {0} {1} false false = none ∧
      ¬ LimitedExactly fourFifths.pi (80 / 100) (79 / 100)
        (limitSequence fourFifths square 0 10 {0} {1}) := by
  refine ⟨by decide +kernel, fun h => ?_⟩
  obtain ⟨currentSet, nextSet, hcurrent, hnext, -⟩ := h
    ((limitSequence fourFifths square 0 10 {0} {1}).take 3)
    (fourFifths.pi - 9273 / 10000, 9273 / 10000) [] (by decide +kernel)
  have hfails : ((limitSequence fourFifths square 0 10 {0} {1}).take 3).foldlM addRangeLimit
      (initial fourFifths.pi (80 / 100) (79 / 100)) >>= (addRangeLimit ·
        (fourFifths.pi - 9273 / 10000, 9273 / 10000)) = none := by decide +kernel
  rw [hcurrent] at hfails
  exact absurd (hnext.symm.trans hfails) (Option.some_ne_none _)

end KeepoutZone

end RepRapFirmware.GCodes
