import Mathlib.Analysis.Convex.Segment
import Mathlib.Tactic

/-! Keep-out zones, and the straight moves that go through them. Coordinates are exact. -/

namespace RepRapFirmware.GCodes

/-- A zone with the lower and upper limits of the axes that it checks. -/
structure KeepoutZone (maxAxes : ℕ) where
  axesChecked : Finset (Fin maxAxes)
  coords : Fin maxAxes → ℚ × ℚ
  active : Bool
  ordered : ∀ axis ∈ axesChecked, (coords axis).1 < (coords axis).2

namespace KeepoutZone

variable {maxAxes : ℕ}

/-- The zone of the constructor. -/
def undefined : KeepoutZone maxAxes where
  axesChecked := ∅
  coords := fun _ => (0, 0)
  active := false
  ordered := fun _ h => absurd h (Finset.notMem_empty _)

/-- The limits of the axes that were seen, and the `S` parameter. -/
def configure (seen : Fin maxAxes → Option (ℚ × ℚ)) (s : Option Bool) (zone : KeepoutZone maxAxes) :
    KeepoutZone maxAxes where
  axesChecked :=
    if ∃ axis, seen axis ≠ none then
      Finset.univ.filter fun axis => ∃ limits ∈ seen axis, limits.1 < limits.2
    else zone.axesChecked
  coords := fun axis => (seen axis).getD (zone.coords axis)
  active := s.getD (zone.active || decide (∃ axis, seen axis ≠ none))
  ordered := by
    intro axis h
    split at h
    · obtain ⟨-, limits, hseen, hlt⟩ := Finset.mem_filter.mp h
      rwa [Option.mem_def.mp hseen, Option.getD_some]
    · next hnone =>
      have hseen : seen axis = none := not_not.mp fun hne => hnone ⟨axis, hne⟩
      rw [hseen, Option.getD_none]
      exact zone.ordered axis h

/-- The axes in the order of `IterateWhile`. -/
def axesInOrder (axes : Finset (Fin maxAxes)) : List (Fin maxAxes) :=
  (List.finRange maxAxes).filter (· ∈ axes)

/-- The proportions of the move at which one more axis is between its limits, if there are any, and
`enough` says which of them count. -/
def limitProportions (enough : ℚ → ℚ → Bool) (zone : KeepoutZone maxAxes)
    (startCoords endCoords : Fin maxAxes → ℚ) (p : ℚ × ℚ) (axis : Fin maxAxes) : Option (ℚ × ℚ) :=
  let diff := endCoords axis - startCoords axis
  if |diff| < 1 / 100 then
    if (zone.coords axis).1 ≤ endCoords axis ∧ endCoords axis ≤ (zone.coords axis).2 then some p
    else none
  else
    let thisPLow := ((zone.coords axis).1 - startCoords axis) / diff
    let thisPHigh := ((zone.coords axis).2 - startCoords axis) / diff
    let (thisPLow, thisPHigh) :=
      if thisPHigh < thisPLow then (thisPHigh, thisPLow) else (thisPLow, thisPHigh)
    let pLow := max p.1 thisPLow
    let pHigh := min p.2 thisPHigh
    if enough pLow pHigh then some (pLow, pHigh) else none

def doesLineIntrude (zone : KeepoutZone maxAxes) (startCoords endCoords : Fin maxAxes → ℚ) : Bool :=
  zone.active && zone.axesChecked ≠ ∅ &&
    ((axesInOrder zone.axesChecked).foldlM (limitProportions (fun pLow pHigh => pLow ≤ pHigh) zone
      startCoords endCoords) (0, 1)).isSome

/-! ### What the check is for -/

/-- At least 0.01 inside the zone on every axis that is checked. -/
def ClearlyInside (zone : KeepoutZone maxAxes) (x : Fin maxAxes → ℚ) : Prop :=
  ∀ axis ∈ zone.axesChecked,
    (zone.coords axis).1 + 1 / 100 ≤ x axis ∧ x axis ≤ (zone.coords axis).2 - 1 / 100

/-- At most 0.01 outside the zone on every axis that is checked. -/
def NearlyInside (zone : KeepoutZone maxAxes) (x : Fin maxAxes → ℚ) : Prop :=
  ∀ axis ∈ zone.axesChecked,
    (zone.coords axis).1 - 1 / 100 ≤ x axis ∧ x axis ≤ (zone.coords axis).2 + 1 / 100

variable {zone : KeepoutZone maxAxes} {startCoords endCoords : Fin maxAxes → ℚ}
  {axis : Fin maxAxes} {axes : List (Fin maxAxes)} {p p' : ℚ × ℚ} {q : ℚ}

/-- The point of the move at a proportion. -/
def pointAt (startCoords endCoords : Fin maxAxes → ℚ) (q : ℚ) : Fin maxAxes → ℚ :=
  fun axis => startCoords axis + q * (endCoords axis - startCoords axis)

lemma mem_segment {x : Fin maxAxes → ℚ} : x ∈ segment ℚ startCoords endCoords ↔
    ∃ q, 0 ≤ q ∧ q ≤ 1 ∧ x = pointAt startCoords endCoords q := by
  rw [segment_eq_image', Set.mem_image]
  constructor
  · rintro ⟨q, ⟨hlow, hhigh⟩, rfl⟩
    exact ⟨q, hlow, hhigh, rfl⟩
  · rintro ⟨q, hlow, hhigh, rfl⟩
    exact ⟨q, ⟨hlow, hhigh⟩, rfl⟩

/-! ### One axis -/

/-- The proportions between those of the two limits are those between the limits. -/
lemma between_iff {low high start diff : ℚ} (hdiff : diff ≠ 0) (hlimits : low < high) :
    (min ((low - start) / diff) ((high - start) / diff) ≤ q ∧
      q ≤ max ((low - start) / diff) ((high - start) / diff)) ↔
    low ≤ start + q * diff ∧ start + q * diff ≤ high := by
  rcases lt_or_gt_of_ne hdiff with hneg | hpos
  · have horder : (high - start) / diff ≤ (low - start) / diff :=
      div_le_div_of_nonpos_of_le hneg.le (by linarith)
    rw [min_eq_right horder, max_eq_left horder, div_le_iff_of_neg hneg, le_div_iff_of_neg hneg]
    constructor
    · rintro ⟨h, h'⟩
      exact ⟨by linarith, by linarith⟩
    · rintro ⟨h, h'⟩
      exact ⟨by linarith, by linarith⟩
  · have horder : (low - start) / diff ≤ (high - start) / diff :=
      div_le_div_of_nonneg_right (by linarith) hpos.le
    rw [min_eq_left horder, max_eq_right horder, div_le_iff₀ hpos, le_div_iff₀ hpos]
    constructor
    · rintro ⟨h, h'⟩
      exact ⟨by linarith, by linarith⟩
    · rintro ⟨h, h'⟩
      exact ⟨by linarith, by linarith⟩

/-- What the callback returns for an axis that moves. -/
lemma limitProportions_moving (enough : ℚ → ℚ → Bool) (zone : KeepoutZone maxAxes) (p : ℚ × ℚ)
    (hmoves : ¬ |endCoords axis - startCoords axis| < 1 / 100) :
    ∃ low high, limitProportions enough zone startCoords endCoords p axis =
        (if enough (max p.1 low) (min p.2 high) then some (max p.1 low, min p.2 high) else none) ∧
      (axis ∈ zone.axesChecked → ∀ q, (low ≤ q ∧ q ≤ high) ↔
        (zone.coords axis).1 ≤ pointAt startCoords endCoords q axis ∧
          pointAt startCoords endCoords q axis ≤ (zone.coords axis).2) := by
  have hdiff : endCoords axis - startCoords axis ≠ 0 := by
    intro hzero
    rw [hzero, abs_zero] at hmoves
    exact hmoves (by norm_num)
  refine ⟨_, _, ?_, fun hchecked q => between_iff hdiff (zone.ordered axis hchecked)⟩
  rw [limitProportions]
  dsimp only
  rw [if_neg hmoves]
  split
  · next h => rw [min_eq_right h.le, max_eq_left h.le]
  · next h => rw [min_eq_left (not_lt.mp h), max_eq_right (not_lt.mp h)]

/-- The points of an axis that hardly moves are close to its end. -/
lemma abs_pointAt_sub_end (hlow : 0 ≤ q) (hhigh : q ≤ 1)
    (hstill : |endCoords axis - startCoords axis| < 1 / 100) :
    |pointAt startCoords endCoords q axis - endCoords axis| ≤ 1 / 100 := by
  have hpoint : pointAt startCoords endCoords q axis - endCoords axis =
      (q - 1) * (endCoords axis - startCoords axis) := by
    rw [pointAt]
    ring
  have hq : |q - 1| ≤ 1 := abs_le.mpr ⟨by linarith, by linarith⟩
  rw [hpoint, abs_mul]
  calc |q - 1| * |endCoords axis - startCoords axis| ≤ 1 * |endCoords axis - startCoords axis| :=
        mul_le_mul_of_nonneg_right hq (abs_nonneg _)
    _ ≤ 1 / 100 := by
        rw [one_mul]
        exact hstill.le

/-! ### The proportions of all axes -/

/-- What the check of a straight move finds at one proportion of the move: the coordinate of an axis
that moves, or the end of one that does not. -/
def Passes (zone : KeepoutZone maxAxes) (startCoords endCoords : Fin maxAxes → ℚ) (q : ℚ)
    (axis : Fin maxAxes) : Prop :=
  let x := if |endCoords axis - startCoords axis| < 1 / 100 then endCoords axis
    else pointAt startCoords endCoords q axis
  (zone.coords axis).1 ≤ x ∧ x ≤ (zone.coords axis).2

/-- The callback of straight moves. -/
abbrev limitLine (zone : KeepoutZone maxAxes) (startCoords endCoords : Fin maxAxes → ℚ) :
    ℚ × ℚ → Fin maxAxes → Option (ℚ × ℚ) :=
  limitProportions (fun pLow pHigh => pLow ≤ pHigh) zone startCoords endCoords

lemma limitLine_iff (hchecked : axis ∈ zone.axesChecked) :
    (p.1 ≤ q ∧ q ≤ p.2) ∧ Passes zone startCoords endCoords q axis ↔
      ∃ p', limitLine zone startCoords endCoords p axis = some p' ∧ p'.1 ≤ q ∧ q ≤ p'.2 := by
  rw [Passes]
  by_cases hstill : |endCoords axis - startCoords axis| < 1 / 100
  · rw [if_pos hstill, limitLine, limitProportions]
    dsimp only
    rw [if_pos hstill]
    split
    · next hinside =>
      exact ⟨fun h => ⟨p, rfl, h.1⟩, fun ⟨p', h, hq⟩ => ⟨Option.some.inj h ▸ hq, hinside⟩⟩
    · next houtside =>
      exact ⟨fun h => absurd h.2 houtside, fun ⟨p', h, _⟩ => nomatch h⟩
  · obtain ⟨low, high, hlimit, hbetween⟩ := limitProportions_moving
      (fun pLow pHigh => pLow ≤ pHigh) zone p hstill
    rw [if_neg hstill, ← hbetween hchecked, limitLine, hlimit]
    constructor
    · rintro ⟨⟨hp, hp'⟩, hlow, hhigh⟩
      have h : max p.1 low ≤ q ∧ q ≤ min p.2 high := ⟨max_le hp hlow, le_min hp' hhigh⟩
      exact ⟨_, if_pos (decide_eq_true (h.1.trans h.2)), h⟩
    · rintro ⟨p', h, hlow, hhigh⟩
      split at h
      · rw [← Option.some.inj h] at hlow hhigh
        exact ⟨⟨(le_max_left _ _).trans hlow, hhigh.trans (min_le_left _ _)⟩,
          (le_max_right _ _).trans hlow, hhigh.trans (min_le_right _ _)⟩
      · exact nomatch h

lemma limitLine_ordered (h : limitLine zone startCoords endCoords p axis = some p')
    (hp : p.1 ≤ p.2) : p'.1 ≤ p'.2 := by
  by_cases hstill : |endCoords axis - startCoords axis| < 1 / 100
  · rw [limitLine, limitProportions] at h
    dsimp only at h
    rw [if_pos hstill] at h
    split at h
    · rwa [← Option.some.inj h]
    · exact nomatch h
  · obtain ⟨low, high, hlimit, -⟩ := limitProportions_moving
      (fun pLow pHigh => pLow ≤ pHigh) zone p hstill
    rw [limitLine, hlimit] at h
    split at h
    · next henough =>
      rw [← Option.some.inj h]
      exact of_decide_eq_true henough
    · exact nomatch h

/-- The iteration keeps the proportions at which every axis passes. -/
lemma foldlM_limitLine_iff (hchecked : ∀ axis ∈ axes, axis ∈ zone.axesChecked) :
    (p.1 ≤ q ∧ q ≤ p.2) ∧ (∀ axis ∈ axes, Passes zone startCoords endCoords q axis) ↔
      ∃ p', axes.foldlM (limitLine zone startCoords endCoords) p = some p' ∧
        p'.1 ≤ q ∧ q ≤ p'.2 := by
  induction axes generalizing p with
  | nil => exact ⟨fun h => ⟨p, rfl, h.1⟩, fun ⟨p', h, hq⟩ => ⟨Option.some.inj h ▸ hq, nofun⟩⟩
  | cons axis axes ih =>
    have hfirst := @limitLine_iff _ zone startCoords endCoords axis p q
      (hchecked axis List.mem_cons_self)
    have hrest (p : ℚ × ℚ) := @ih p fun axis h => hchecked axis (List.mem_cons_of_mem _ h)
    rw [List.forall_mem_cons, ← and_assoc, hfirst, List.foldlM_cons]
    constructor
    · rintro ⟨⟨p₁, h₁, hq⟩, hpasses⟩
      obtain ⟨p', h', hq'⟩ := (hrest p₁).mp ⟨hq, hpasses⟩
      exact ⟨p', by rw [h₁]; exact h', hq'⟩
    · rintro ⟨p', h, hq'⟩
      obtain ⟨p₁, h₁, h'⟩ := Option.bind_eq_some_iff.mp h
      obtain ⟨hq, hpasses⟩ := (hrest p₁).mpr ⟨p', h', hq'⟩
      exact ⟨⟨p₁, h₁, hq⟩, hpasses⟩

lemma foldlM_limitLine_ordered (h : axes.foldlM (limitLine zone startCoords endCoords) p = some p')
    (hp : p.1 ≤ p.2) : p'.1 ≤ p'.2 := by
  induction axes generalizing p with
  | nil => rwa [← Option.some.inj h]
  | cons axis axes ih =>
    obtain ⟨p₁, h₁, h'⟩ := Option.bind_eq_some_iff.mp h
    exact ih h' (limitLine_ordered h₁ hp)

lemma mem_axesInOrder {checked : Finset (Fin maxAxes)} : axis ∈ axesInOrder checked ↔
    axis ∈ checked := by
  simp [axesInOrder]

/-- A move is refused exactly if every checked axis passes at one and the same proportion. -/
lemma doesLineIntrude_iff : doesLineIntrude zone startCoords endCoords = true ↔
    zone.active = true ∧ zone.axesChecked ≠ ∅ ∧ ∃ q, (0 ≤ q ∧ q ≤ 1) ∧
      ∀ axis ∈ zone.axesChecked, Passes zone startCoords endCoords q axis := by
  have hfold (q : ℚ) := @foldlM_limitLine_iff _ zone startCoords endCoords
    (axesInOrder zone.axesChecked) (0, 1) q fun axis => mem_axesInOrder.mp
  simp only [mem_axesInOrder] at hfold
  rw [doesLineIntrude, Bool.and_eq_true, Bool.and_eq_true, decide_eq_true_eq, and_assoc,
    Option.isSome_iff_exists]
  constructor
  · rintro ⟨hactive, hnonempty, p', h⟩
    have horder := foldlM_limitLine_ordered h zero_le_one
    exact ⟨hactive, hnonempty, p'.1, (hfold p'.1).mpr ⟨p', h, le_rfl, horder⟩⟩
  · rintro ⟨hactive, hnonempty, q, hq⟩
    obtain ⟨p', h, -⟩ := (hfold q).mp hq
    exact ⟨hactive, hnonempty, p', h⟩

/-! ### Straight moves -/

/-- A straight move into an active zone is refused, and only a move that comes close to one. -/
theorem doesLineIntrude_sound (zone : KeepoutZone maxAxes) (startCoords endCoords : Fin maxAxes →
    ℚ) :
    (zone.active = true → zone.axesChecked ≠ ∅ →
      (∃ x ∈ segment ℚ startCoords endCoords, ClearlyInside zone x) →
        doesLineIntrude zone startCoords endCoords = true) ∧
    (doesLineIntrude zone startCoords endCoords = true →
      zone.active = true ∧ zone.axesChecked ≠ ∅ ∧
        ∃ x ∈ segment ℚ startCoords endCoords, NearlyInside zone x) := by
  constructor
  · rintro hactive hnonempty ⟨x, hx, hinside⟩
    obtain ⟨q, hlow, hhigh, rfl⟩ := mem_segment.mp hx
    refine doesLineIntrude_iff.mpr ⟨hactive, hnonempty, q, ⟨hlow, hhigh⟩, fun axis hchecked => ?_⟩
    obtain ⟨hlower, hupper⟩ := hinside axis hchecked
    rw [Passes]
    split
    · next hstill =>
      have hclose := abs_le.mp (abs_pointAt_sub_end hlow hhigh hstill)
      exact ⟨by linarith, by linarith⟩
    · exact ⟨by linarith, by linarith⟩
  · intro h
    obtain ⟨hactive, hnonempty, q, ⟨hlow, hhigh⟩, hpasses⟩ := doesLineIntrude_iff.mp h
    refine ⟨hactive, hnonempty, _, mem_segment.mpr ⟨q, hlow, hhigh, rfl⟩, fun axis hchecked => ?_⟩
    have hpass := hpasses axis hchecked
    rw [Passes] at hpass
    split at hpass
    · next hstill =>
      have hclose := abs_le.mp (abs_pointAt_sub_end hlow hhigh hstill)
      exact ⟨by linarith, by linarith⟩
    · exact ⟨by linarith, by linarith⟩

theorem doesLineIntrude_sound_diagonal :
    doesLineIntrude (configure ![some (0, 10), some (0, 10), none] none undefined)
      ![-5, 0, 0] ![5, 10, 0] = true := by
  apply (doesLineIntrude_sound _ _ _).1 rfl (by decide +kernel)
  refine ⟨![1, 6, 0], mem_segment.mpr ⟨3 / 5, by norm_num, by norm_num, by decide +kernel⟩, ?_⟩
  rw [ClearlyInside]
  decide +kernel

/-- A zone that has been switched off. -/
def switchedOff : KeepoutZone 3 :=
  configure ![some (0, 10), none, none] (some false) undefined

/-- A move within a zone that has been switched off is not refused. -/
theorem doesLineIntrude_switchedOff :
    (∃ x ∈ segment ℚ ![2, 0, 0] ![3, 0, 0], ClearlyInside switchedOff x) ∧
      doesLineIntrude switchedOff ![2, 0, 0] ![3, 0, 0] = false := by
  refine ⟨⟨![2, 0, 0], left_mem_segment ℚ _ _, ?_⟩, by decide +kernel⟩
  rw [ClearlyInside]
  decide +kernel

end KeepoutZone

end RepRapFirmware.GCodes
