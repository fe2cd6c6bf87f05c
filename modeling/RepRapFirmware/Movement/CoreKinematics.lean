import Mathlib.Data.Rat.Lemmas
import RepRapFirmware.RRFLibraries.Matrix

/-! The matrices of core kinematics, and the conversions between positions and motor positions.
Motor positions are not rounded to whole steps. -/

namespace RepRapFirmware.Movement

open Finset RRFLibraries

inductive KinematicsType
  | cartesian
  | coreXY
  | coreXYU
  | coreXYUV
  | coreXZ
  | markForged
  | other
  deriving DecidableEq

structure CoreKinematics where
  inverseMatrix : ℕ → ℕ → ℚ
  forwardMatrix : ℕ → ℕ → ℚ
  controllingDrivers : ℕ → Finset ℕ
  firstMotor : ℕ → ℕ
  lastMotor : ℕ → ℕ
  firstAxis : ℕ → ℕ
  lastAxis : ℕ → ℕ

namespace CoreKinematics

/-- The inverse matrix with a unit matrix beside it. -/
def tempMatrix (maxAxes : ℕ) (inverseMatrix : ℕ → ℕ → ℚ) (i j : ℕ) : ℚ :=
  if j < maxAxes then inverseMatrix i j else if j = i + maxAxes then 1 else 0

def noteAxis (axis motor : ℕ) (k : CoreKinematics) : CoreKinematics :=
  if k.inverseMatrix axis motor ≠ 0 then
    { k with
      firstAxis := if axis < k.firstAxis motor then Function.update k.firstAxis motor axis else
        k.firstAxis
      lastAxis := if axis > k.lastAxis motor then Function.update k.lastAxis motor axis else
        k.lastAxis
      controllingDrivers :=
        Function.update k.controllingDrivers axis (insert motor (k.controllingDrivers axis)) }
  else k

def noteMotor (axis motor : ℕ) (k : CoreKinematics) : CoreKinematics :=
  if k.forwardMatrix motor axis ≠ 0 then
    { k with
      firstMotor := if motor < k.firstMotor axis then Function.update k.firstMotor axis motor else
        k.firstMotor
      lastMotor := if motor > k.lastMotor axis then Function.update k.lastMotor axis motor else
        k.lastMotor
      controllingDrivers :=
        Function.update k.controllingDrivers axis (insert motor (k.controllingDrivers axis)) }
  else k

/-- The variables that are derived from the inverse matrix. The forward matrix is zero where there
is none. -/
def recalc (maxAxes : ℕ) (inverseMatrix : ℕ → ℕ → ℚ) : CoreKinematics :=
  let forwardMatrix :=
    match FixedMatrix.gaussJordan maxAxes (2 * maxAxes) (tempMatrix maxAxes inverseMatrix) with
    | some temp => fun i j => temp i (j + maxAxes)
    | none => fun _ _ => 0
  let k : CoreKinematics :=
    { inverseMatrix := inverseMatrix
      forwardMatrix := forwardMatrix
      controllingDrivers := fun _ => ∅
      firstMotor := fun _ => maxAxes
      lastMotor := fun _ => 0
      firstAxis := fun _ => maxAxes
      lastAxis := fun _ => 0 }
  (List.range maxAxes).foldl (fun k axis =>
    (List.range maxAxes).foldl (fun k motor => (k.noteAxis axis motor).noteMotor axis motor) k) k

def setElements (elements : List (ℕ × ℕ × ℚ)) (inverseMatrix : ℕ → ℕ → ℚ) : ℕ → ℕ → ℚ :=
  elements.foldl (fun m e => Function.update m e.1 (Function.update (m e.1) e.2.1 e.2.2))
    inverseMatrix

/-- The elements that are not those of the unit matrix. -/
def elements : KinematicsType → List (ℕ × ℕ × ℚ)
  | .cartesian | .other => []
  | .coreXY => [(0, 1, 1), (1, 0, 1), (1, 1, -1)]
  | .coreXYU => [(0, 1, 1), (1, 0, 1), (1, 1, -1), (1, 3, 1), (1, 4, -1), (3, 4, 1)]
  | .coreXYUV => [(0, 1, 1), (1, 0, 1), (1, 1, -1), (3, 4, 1), (4, 3, 1), (4, 4, -1)]
  | .coreXZ => [(0, 2, 1), (2, 0, 3), (2, 2, -3)]
  | .markForged => [(1, 0, -1)]

def create (maxAxes : ℕ) (k : KinematicsType) : CoreKinematics :=
  recalc maxAxes (setElements (elements k) fun i j => if i = j then 1 else 0)

/-- An `M669` command. For each axis letter: whether it is there, and the numbers after it if they
can be read. -/
structure Command where
  numVisibleAxes : ℕ
  numTotalAxes : ℕ
  seenK : Bool
  motorFactors : ℕ → Option (Option (List ℚ))

/-- The row of an axis is replaced, where motors without a factor get zero. -/
def setRow (maxAxes axis : ℕ) (motorFactors : List ℚ) (inverseMatrix : ℕ → ℕ → ℚ) : ℕ → ℕ → ℚ :=
  fun i j => if i = axis ∧ j < maxAxes then motorFactors.getD j 0 else inverseMatrix i j

/-- The rows are set one after the other, up to an exception; without one, whether any was seen. -/
def configureRows (maxAxes : ℕ) (c : Command) :
    List ℕ → Bool → (ℕ → ℕ → ℚ) → Option Bool × (ℕ → ℕ → ℚ)
  | [], seen, m => (some seen, m)
  | axis :: axes, seen, m =>
    match c.motorFactors axis with
    | none => configureRows maxAxes c axes seen m
    | some none => (none, m)
    | some (some motorFactors) =>
      if motorFactors.length ≤ c.numTotalAxes then
        configureRows maxAxes c axes true (setRow maxAxes axis motorFactors m)
      else (none, m)

/-- Whether the command has been carried out to its end; after an exception nothing is derived from
the rows that have been set already. -/
def configure (maxAxes : ℕ) (c : Command) (k : CoreKinematics) : Bool × CoreKinematics :=
  match configureRows maxAxes c (List.range c.numVisibleAxes) c.seenK k.inverseMatrix with
  | (some true, m) => (true, recalc maxAxes m)
  | (some false, _) => (true, k)
  | (none, m) => (false, { k with inverseMatrix := m })

def configureAll (maxAxes : ℕ) (k : CoreKinematics) : List Command → Bool × CoreKinematics
  | [] => (true, k)
  | c :: cs =>
    let (done, k) := configure maxAxes c k
    let (allDone, k) := configureAll maxAxes k cs
    (done && allDone, k)

/-- The coordinate of a motor that no visible axis affects is left as it was. -/
def cartesianToMotorSteps (machinePos stepsPerMm : ℕ → ℚ) (numVisibleAxes numTotalAxes : ℕ)
    (motorPos : ℕ → ℚ) (k : CoreKinematics) : ℕ → ℚ := fun motor =>
  let axisLimit := min numVisibleAxes (k.lastAxis motor + 1)
  let axis := k.firstAxis motor
  if motor < numTotalAxes ∧ axis < axisLimit then
    (List.range' (axis + 1) (axisLimit - (axis + 1))).foldl
      (fun movement axis => movement + k.inverseMatrix axis motor * machinePos axis)
      (k.inverseMatrix axis motor * machinePos axis) * stepsPerMm motor
  else motorPos motor

def motorStepsToCartesian (motorPos stepsPerMm : ℕ → ℚ) (numVisibleAxes : ℕ) (k : CoreKinematics)
    (axis : ℕ) : ℚ :=
  let motorLimit := min numVisibleAxes (k.lastMotor axis + 1)
  (List.range' (k.firstMotor axis) (motorLimit - k.firstMotor axis)).foldl (fun position motor =>
    let factor := k.forwardMatrix motor axis
    if factor ≠ 0 then position + factor * motorPos motor / stepsPerMm motor else position) 0

def getControllingDrives (maxAxes axis : ℕ) (k : CoreKinematics) : Finset ℕ :=
  if axis < maxAxes then k.controllingDrivers axis else {axis}

/-! ### The ranges -/

/-- The ranges of the axis and the motor, and the drives of the axis, take in both elements. -/
structure Covers (k : CoreKinematics) (axis motor : ℕ) : Prop where
  axes : k.inverseMatrix axis motor ≠ 0 → k.firstAxis motor ≤ axis ∧ axis ≤ k.lastAxis motor
  motors : k.forwardMatrix motor axis ≠ 0 → k.firstMotor axis ≤ motor ∧ motor ≤ k.lastMotor axis
  drives : k.inverseMatrix axis motor ≠ 0 → motor ∈ k.controllingDrivers axis

/-- The ranges and the drives have become no smaller. -/
structure Widens (k k' : CoreKinematics) : Prop where
  inverseMatrix : k'.inverseMatrix = k.inverseMatrix
  forwardMatrix : k'.forwardMatrix = k.forwardMatrix
  firstAxis : ∀ motor, k'.firstAxis motor ≤ k.firstAxis motor
  lastAxis : ∀ motor, k.lastAxis motor ≤ k'.lastAxis motor
  firstMotor : ∀ axis, k'.firstMotor axis ≤ k.firstMotor axis
  lastMotor : ∀ axis, k.lastMotor axis ≤ k'.lastMotor axis
  drives : ∀ axis, k.controllingDrivers axis ⊆ k'.controllingDrivers axis

variable {k k' k'' : CoreKinematics} {axis motor : ℕ}

lemma Widens.refl (k : CoreKinematics) : Widens k k :=
  ⟨rfl, rfl, fun _ => le_rfl, fun _ => le_rfl, fun _ => le_rfl, fun _ => le_rfl,
    fun _ => subset_rfl⟩

lemma Widens.trans (h : Widens k k') (h' : Widens k' k'') : Widens k k'' where
  inverseMatrix := h'.inverseMatrix.trans h.inverseMatrix
  forwardMatrix := h'.forwardMatrix.trans h.forwardMatrix
  firstAxis := fun motor => (h'.firstAxis motor).trans (h.firstAxis motor)
  lastAxis := fun motor => (h.lastAxis motor).trans (h'.lastAxis motor)
  firstMotor := fun axis => (h'.firstMotor axis).trans (h.firstMotor axis)
  lastMotor := fun axis => (h.lastMotor axis).trans (h'.lastMotor axis)
  drives := fun axis => (h.drives axis).trans (h'.drives axis)

lemma Covers.widens (h : Covers k axis motor) (hw : Widens k k') : Covers k' axis motor := by
  constructor
  · intro hne
    rw [hw.inverseMatrix] at hne
    exact ⟨(hw.firstAxis motor).trans (h.axes hne).1, (h.axes hne).2.trans (hw.lastAxis motor)⟩
  · intro hne
    rw [hw.forwardMatrix] at hne
    exact ⟨(hw.firstMotor axis).trans (h.motors hne).1, (h.motors hne).2.trans (hw.lastMotor axis)⟩
  · intro hne
    rw [hw.inverseMatrix] at hne
    exact hw.drives axis (h.drives hne)

/-- The lesser of two places becomes the first, and the greater the last. -/
lemma update_first (first : ℕ → ℕ) (i new : ℕ) :
    (∀ j, (if new < first i then Function.update first i new else first) j ≤ first j) ∧
      (if new < first i then Function.update first i new else first) i ≤ new := by
  split_ifs with hless
  · refine ⟨fun j => ?_, (Function.update_self ..).le⟩
    by_cases hj : j = i
    · rw [hj, Function.update_self]
      exact hless.le
    · rw [Function.update_of_ne hj]
  · exact ⟨fun j => le_rfl, not_lt.mp hless⟩

lemma update_last (last : ℕ → ℕ) (i new : ℕ) :
    (∀ j, last j ≤ (if new > last i then Function.update last i new else last) j) ∧
      new ≤ (if new > last i then Function.update last i new else last) i := by
  split_ifs with hmore
  · refine ⟨fun j => ?_, by rw [Function.update_self]⟩
    by_cases hj : j = i
    · rw [hj, Function.update_self]
      exact hmore.le
    · rw [Function.update_of_ne hj]
  · exact ⟨fun j => le_rfl, not_lt.mp hmore⟩

lemma subset_update (drivers : ℕ → Finset ℕ) (i new j : ℕ) :
    drivers j ⊆ Function.update drivers i (insert new (drivers i)) j := by
  by_cases hj : j = i
  · rw [hj, Function.update_self]
    exact subset_insert ..
  · rw [Function.update_of_ne hj]

lemma noteAxis_widens (axis motor : ℕ) (k : CoreKinematics) : Widens k (k.noteAxis axis motor) := by
  rw [noteAxis]
  by_cases hne : k.inverseMatrix axis motor ≠ 0
  · rw [if_pos hne]
    exact ⟨rfl, rfl, (update_first k.firstAxis motor axis).1, (update_last k.lastAxis motor axis).1,
      fun _ => le_rfl, fun _ => le_rfl, subset_update k.controllingDrivers axis motor⟩
  · rw [if_neg hne]
    exact .refl k

lemma noteMotor_widens (axis motor : ℕ) (k : CoreKinematics) : Widens k (k.noteMotor axis motor) :=
    by
  rw [noteMotor]
  by_cases hne : k.forwardMatrix motor axis ≠ 0
  · rw [if_pos hne]
    exact ⟨rfl, rfl, fun _ => le_rfl, fun _ => le_rfl, (update_first k.firstMotor axis motor).1,
      (update_last k.lastMotor axis motor).1, subset_update k.controllingDrivers axis motor⟩
  · rw [if_neg hne]
    exact .refl k

lemma note_covers (axis motor : ℕ) (k : CoreKinematics) :
    Covers ((k.noteAxis axis motor).noteMotor axis motor) axis motor := by
  have hw := noteMotor_widens axis motor (k.noteAxis axis motor)
  have hkeep := noteAxis_widens axis motor k
  constructor
  · intro hne
    rw [hw.inverseMatrix, hkeep.inverseMatrix] at hne
    refine ⟨(hw.firstAxis motor).trans ?_, le_trans ?_ (hw.lastAxis motor)⟩
    · rw [noteAxis, if_pos hne]
      exact (update_first ..).2
    · rw [noteAxis, if_pos hne]
      exact (update_last ..).2
  · intro hne
    rw [hw.forwardMatrix] at hne
    rw [noteMotor, if_pos hne]
    exact ⟨(update_first ..).2, (update_last ..).2⟩
  · intro hne
    rw [hw.inverseMatrix, hkeep.inverseMatrix] at hne
    apply hw.drives axis
    rw [noteAxis, if_pos hne]
    simp

lemma foldl_widens {f : CoreKinematics → ℕ → CoreKinematics} (hf : ∀ k i, Widens k (f k i))
    (l : List ℕ) (k : CoreKinematics) : Widens k (l.foldl f k) := by
  induction l generalizing k with
  | nil => exact .refl k
  | cons i l ih => exact (hf k i).trans (ih _)

/-- What the pass of one element covers is covered at the end of the loop. -/
lemma foldl_covers {f : CoreKinematics → ℕ → CoreKinematics} (hf : ∀ k i, Widens k (f k i))
    {l : List ℕ} {i : ℕ} (hi : i ∈ l) (hcovers : ∀ k, Covers (f k i) axis motor) (k
      : CoreKinematics) :
    Covers (l.foldl f k) axis motor := by
  obtain ⟨before, after, rfl⟩ := List.append_of_mem hi
  rw [List.foldl_append, List.foldl_cons]
  exact (hcovers _).widens (foldl_widens hf after _)

variable {maxAxes : ℕ} {m : ℕ → ℕ → ℚ}

lemma note_widens (axis : ℕ) (k : CoreKinematics) (motor : ℕ) :
    Widens k ((k.noteAxis axis motor).noteMotor axis motor) :=
  (noteAxis_widens axis motor k).trans (noteMotor_widens axis motor _)

lemma recalc_covers (ha : axis < maxAxes) (hm : motor < maxAxes) :
    Covers (recalc maxAxes m) axis motor := by
  apply foldl_covers (fun k axis => foldl_widens (note_widens axis) _ k) (List.mem_range.mpr ha) _
  intro k
  exact foldl_covers (note_widens axis) (List.mem_range.mpr hm) (note_covers axis motor) k

lemma recalc_widens : (recalc maxAxes m).inverseMatrix = m ∧ ∀ temp,
    FixedMatrix.gaussJordan maxAxes (2 * maxAxes) (tempMatrix maxAxes m) = some temp →
      (recalc maxAxes m).forwardMatrix = fun i j => temp i (j + maxAxes) := by
  have hw := foldl_widens (fun k axis => foldl_widens (note_widens axis) (List.range maxAxes) k)
    (List.range maxAxes)
  constructor
  · exact (hw _).inverseMatrix
  · intro temp htemp
    refine (hw _).forwardMatrix.trans ?_
    simp only [htemp]

/-! ### The forward matrix -/

/-- The inverse matrix can be inverted, and the rows of the axes that are not visible are those of
the unit matrix. -/
structure Invertible (maxAxes numAxes : ℕ) (m : ℕ → ℕ → ℚ) : Prop where
  det : (Matrix.of fun i j : Fin maxAxes => m i j).det ≠ 0
  unitRows : ∀ axis, numAxes ≤ axis → axis < maxAxes → ∀ motor < maxAxes,
    m axis motor = if motor = axis then 1 else 0

variable {numAxes : ℕ}

lemma recalc_inverse (h : (Matrix.of fun i j : Fin maxAxes => m i j).det ≠ 0) :
    ∀ i < maxAxes, ∀ j < maxAxes,
      ∑ c ∈ range maxAxes, m i c * (recalc maxAxes m).forwardMatrix c j = if i = j then 1 else 0 :=
        by
  have hleft : ∀ i, ∀ c < maxAxes, tempMatrix maxAxes m i c = m i c := fun i c hc => if_pos hc
  have hdet : (Matrix.of fun i j : Fin maxAxes => tempMatrix maxAxes m i j).det ≠ 0 := by
    have hsame : (Matrix.of fun i j : Fin maxAxes => tempMatrix maxAxes m i j) =
        Matrix.of fun i j : Fin maxAxes => m i j := by
      ext i j
      exact hleft i j j.isLt
    rwa [hsame]
  obtain ⟨temp, htemp⟩ : ∃ temp, FixedMatrix.gaussJordan maxAxes (2 * maxAxes)
      (tempMatrix maxAxes m) = some temp := by
    rw [FixedMatrix.det_ne_zero_iff] at hdet
    obtain ⟨temp, htemp, -⟩ := FixedMatrix.gaussJordan_solves (Nat.le_mul_of_pos_left maxAxes
      two_pos) hdet
    exact ⟨temp, htemp⟩
  intro i hi j hj
  have hsolves := FixedMatrix.gaussJordan_solves (Nat.le_mul_of_pos_left maxAxes two_pos)
    (FixedMatrix.det_ne_zero_iff.mp hdet)
  obtain ⟨other, hother, hsolution⟩ := hsolves
  obtain rfl : temp = other := Option.some.inj (htemp.symm.trans hother)
  have hrow := hsolution (j + maxAxes) (by omega) (by omega) i hi
  rw [(recalc_widens).2 temp htemp]
  have hright : tempMatrix maxAxes m i (j + maxAxes) = if i = j then 1 else 0 := by
    rw [tempMatrix, if_neg (by omega)]
    exact if_congr (by omega) rfl rfl
  rw [hright] at hrow
  rw [← hrow]
  exact sum_congr rfl fun c hc => by rw [hleft i c (mem_range.mp hc)]

/-- Motors beyond the axes do not move them. -/
lemma forwardMatrix_beyond (h : Invertible maxAxes numAxes m) (hm : numAxes ≤ motor)
    (hlt : motor < maxAxes) (ha : axis < numAxes) :
    (recalc maxAxes m).forwardMatrix motor axis = 0 := by
  have hrow := recalc_inverse h.det motor hlt axis (by omega)
  rw [sum_eq_single motor, h.unitRows motor hm hlt motor hlt, if_pos rfl, one_mul,
    if_neg (by omega)]
    at hrow
  · exact hrow
  · intro c hc hne
    rw [h.unitRows motor hm hlt c (mem_range.mp hc), if_neg hne, zero_mul]
  · exact fun hnot => absurd (mem_range.mpr hlt) hnot

/-- Every motor of an axis is moved by a visible axis. -/
lemma exists_axis (h : Invertible maxAxes numAxes m) (hle : numAxes ≤ maxAxes) (hm
    : motor < numAxes) :
    ∃ axis < numAxes, m axis motor ≠ 0 := by
  by_contra hnone
  push Not at hnone
  have hzero := FixedMatrix.det_ne_zero_iff.mp h.det (fun c => if c = motor then 1 else 0) ?_ motor
    (by omega)
  · rw [if_pos rfl] at hzero
    exact one_ne_zero hzero
  · intro r hr
    have hentry : m r motor = 0 := by
      by_cases hvisible : r < numAxes
      · exact hnone r hvisible
      · rw [h.unitRows r (not_lt.mp hvisible) hr motor (by omega), if_neg (by omega)]
    rw [sum_eq_single motor]
    · rw [hentry, zero_mul]
    · intro c _ hne
      rw [if_neg hne, mul_zero]
    · exact fun hnot => absurd (mem_range.mpr (by omega)) hnot

/-! ### The conversions -/

lemma foldl_add (f : ℕ → ℚ) (x : ℚ) (start count : ℕ) :
    (List.range' start count).foldl (fun total i => total + f i) x =
      x + ∑ i ∈ Ico start (start + count), f i := by
  induction count generalizing start x with
  | zero => simp
  | succ count ih =>
    rw [List.range'_succ, List.foldl_cons, ih, sum_eq_sum_Ico_succ_bot (by omega : start < _),
      add_assoc,
      show start + 1 + count = start + (count + 1) by omega]

/-- A sum over a range that takes in all terms that are not zero. -/
lemma sum_Ico_eq {f : ℕ → ℚ} {first limit : ℕ} (hle : limit ≤ numAxes)
    (hf : ∀ i < numAxes, f i ≠ 0 → first ≤ i ∧ i < limit) :
    ∑ i ∈ Ico first limit, f i = ∑ i ∈ range numAxes, f i := by
  apply sum_subset
  · intro i hi
    exact mem_range.mpr ((mem_Ico.mp hi).2.trans_le hle)
  · intro i hi hnot
    by_contra hne
    exact hnot (mem_Ico.mpr (hf i (mem_range.mp hi) hne))

variable {machinePos stepsPerMm motorPos : ℕ → ℚ}

lemma cartesianToMotorSteps_eq (h : Invertible maxAxes numAxes m) (hle : numAxes ≤ maxAxes)
    (hm : motor < numAxes) :
    (recalc maxAxes m).cartesianToMotorSteps machinePos stepsPerMm numAxes numAxes motorPos motor =
      (∑ axis ∈ range numAxes, m axis motor * machinePos axis) * stepsPerMm motor := by
  have hinverse : (recalc maxAxes m).inverseMatrix = m := recalc_widens.1
  generalize hk : recalc maxAxes m = k at hinverse
  have hrange : ∀ axis < numAxes, m axis motor ≠ 0 →
      k.firstAxis motor ≤ axis ∧ axis < min numAxes (k.lastAxis motor + 1) := by
    intro axis ha hne
    rw [← hinverse] at hne
    have hcovers : Covers k axis motor := hk ▸ recalc_covers (by omega) (by omega)
    exact ⟨(hcovers.axes hne).1, lt_min ha (Nat.lt_succ_of_le (hcovers.axes hne).2)⟩
  obtain ⟨axis, ha, hne⟩ := exists_axis h hle hm
  have hnonempty : k.firstAxis motor < min numAxes (k.lastAxis motor + 1) :=
    (hrange axis ha hne).1.trans_lt (hrange axis ha hne).2
  rw [cartesianToMotorSteps]
  simp only [if_pos (And.intro hm hnonempty), hinverse]
  rw [foldl_add, show k.firstAxis motor + 1 + (min numAxes (k.lastAxis motor + 1) -
    (k.firstAxis motor + 1)) = min numAxes (k.lastAxis motor + 1) by omega,
    ← sum_eq_sum_Ico_succ_bot hnonempty fun axis => m axis motor * machinePos axis]
  congr 1
  exact sum_Ico_eq (min_le_left ..) fun axis ha hne => hrange axis ha (left_ne_zero_of_mul hne)

lemma motorStepsToCartesian_eq (hle : numAxes ≤ maxAxes) (ha : axis < numAxes) :
    (recalc maxAxes m).motorStepsToCartesian motorPos stepsPerMm numAxes axis =
      ∑ motor ∈ range numAxes,
        (recalc maxAxes m).forwardMatrix motor axis * motorPos motor / stepsPerMm motor := by
  have hcovers : ∀ motor < numAxes, Covers (recalc maxAxes m) axis motor :=
    fun motor hm => recalc_covers (by omega) (by omega)
  generalize recalc maxAxes m = k at hcovers
  have hterm : (fun (position : ℚ) motor =>
      let factor := k.forwardMatrix motor axis
      if factor ≠ 0 then position + factor * motorPos motor / stepsPerMm motor else position) =
      fun position motor =>
        position + k.forwardMatrix motor axis * motorPos motor / stepsPerMm motor := by
    funext position motor
    by_cases hzero : k.forwardMatrix motor axis = 0
    · simp [hzero]
    · exact if_pos hzero
  rw [motorStepsToCartesian]
  simp only [hterm]
  rw [foldl_add, zero_add]
  by_cases hempty : min numAxes (k.lastMotor axis + 1) ≤ k.firstMotor axis
  · rw [Nat.sub_eq_zero_of_le hempty, add_zero, Ico_self, sum_empty]
    symm
    apply sum_eq_zero
    intro motor hmotor
    have hlt := mem_range.mp hmotor
    have hzero : k.forwardMatrix motor axis = 0 := by
      by_contra hne
      have hbetween := (hcovers motor hlt).motors hne
      omega
    rw [hzero, zero_mul, zero_div]
  · rw [Nat.add_sub_cancel' (not_le.mp hempty).le]
    apply sum_Ico_eq (min_le_left ..)
    intro motor hlt hne
    have hfactor : k.forwardMatrix motor axis ≠ 0 := by
      rintro hzero
      rw [hzero, zero_mul, zero_div] at hne
      exact hne rfl
    have hbetween := (hcovers motor hlt).motors hfactor
    omega

/-- Where no command has ended with an exception, all variables are those that are derived from the
matrix. -/
lemma configureAll_done {k : CoreKinematics} (h : k = recalc maxAxes k.inverseMatrix)
    {commands : List Command} (hdone : (configureAll maxAxes k commands).1 = true) :
    (configureAll maxAxes k commands).2 =
    recalc maxAxes (configureAll maxAxes k commands).2.inverseMatrix := by
  induction commands generalizing k with
  | nil => exact h
  | cons c cs ih =>
    rw [configureAll] at hdone ⊢
    have hnext : (configure maxAxes c k).1 = true →
        (configure maxAxes c k).2 = recalc maxAxes (configure maxAxes c k).2.inverseMatrix := by
      intro hone
      rw [configure] at hone ⊢
      rcases hrows : configureRows maxAxes c (List.range c.numVisibleAxes) c.seenK k.inverseMatrix
        with
        ⟨seen, rows⟩
      rw [hrows] at hone
      rcases seen with - | - | -
      · exact absurd hone Bool.false_ne_true
      · exact h
      · exact congrArg (recalc maxAxes) recalc_widens.1.symm
    simp only [Bool.and_eq_true] at hdone
    exact ih (hnext hdone.1) hdone.2

/-- With the variables derived from any matrix that commands have made, and that can be inverted,
the conversions there and back give the position of every axis, and only the drives of an axis are
moved by it. -/
theorem roundTrip (maxAxes numAxes : ℕ) (hle : numAxes ≤ maxAxes) (type : KinematicsType)
    (commands : List Command) (stepsPerMm : ℕ → ℚ) (hsteps : ∀ motor < numAxes,
    0 < stepsPerMm motor) :
    let built := configureAll maxAxes (create maxAxes type) commands
    let k := recalc maxAxes built.2.inverseMatrix
    (built.1 = true → built.2 = k) ∧ (Invertible maxAxes numAxes built.2.inverseMatrix →
      ∀ (machinePos motorPos : ℕ → ℚ), ∀ axis < numAxes,
        k.motorStepsToCartesian (k.cartesianToMotorSteps machinePos stepsPerMm numAxes numAxes
          motorPos)
          stepsPerMm numAxes axis = machinePos axis ∧
        ∀ moved : ℕ → ℚ, (∀ a, a ≠ axis → moved a = machinePos a) → ∀ motor < numAxes,
          k.cartesianToMotorSteps moved stepsPerMm numAxes numAxes motorPos motor ≠
            k.cartesianToMotorSteps machinePos stepsPerMm numAxes numAxes motorPos motor →
          motor ∈ k.getControllingDrives maxAxes axis) := by
  intro built k
  refine ⟨fun hdone => configureAll_done (congrArg (recalc maxAxes) recalc_widens.1.symm) hdone,
    fun hinvertible machinePos motorPos axis ha => ⟨?_, fun moved hmoved motor hm hdiffer => ?_⟩⟩
  · have hinverse := recalc_inverse hinvertible.det
    have hbeyond : ∀ motor, numAxes ≤ motor → motor < maxAxes → k.forwardMatrix motor axis = 0 :=
      fun motor hge hlt => forwardMatrix_beyond hinvertible hge hlt ha
    have hproduct : ∀ a < numAxes, ∑ motor ∈ range numAxes,
        built.2.inverseMatrix a motor * k.forwardMatrix motor axis = if a = axis then 1 else 0 := by
      intro a ha'
      rw [← hinverse a (by omega) axis (by omega)]
      apply sum_subset (range_subset_range.mpr hle)
      intro motor hmotor hnot
      have hge := not_lt.mp fun hlt => hnot (mem_range.mpr hlt)
      rw [hbeyond motor hge (mem_range.mp hmotor), mul_zero]
    calc k.motorStepsToCartesian _ stepsPerMm numAxes axis
        = ∑ motor ∈ range numAxes, ∑ a ∈ range numAxes,
            built.2.inverseMatrix a motor * k.forwardMatrix motor axis * machinePos a := by
          rw [motorStepsToCartesian_eq hle ha]
          apply sum_congr rfl
          intro motor hmotor
          have hm := mem_range.mp hmotor
          have hne := (hsteps motor hm).ne'
          rw [cartesianToMotorSteps_eq hinvertible hle hm, ← mul_assoc, mul_div_cancel_right₀ _ hne,
            mul_sum]
          exact sum_congr rfl fun a _ => by ring
      _ = ∑ a ∈ range numAxes, (if a = axis then 1 else 0) * machinePos a := by
          rw [sum_comm]
          apply sum_congr rfl
          intro a ha'
          rw [← sum_mul, hproduct a (mem_range.mp ha')]
      _ = machinePos axis := by
          rw [sum_eq_single axis]
          · rw [if_pos rfl, one_mul]
          · intro a _ hne
            rw [if_neg hne, zero_mul]
          · exact fun hnot => absurd (mem_range.mpr ha) hnot
  · rw [getControllingDrives, if_pos (by omega)]
    have hcovers : Covers k axis motor := recalc_covers (by omega) (by omega)
    apply hcovers.drives
    rw [recalc_widens.1]
    rintro hzero
    apply hdiffer
    rw [cartesianToMotorSteps_eq hinvertible hle hm, cartesianToMotorSteps_eq hinvertible hle hm]
    congr 1
    apply sum_congr rfl
    intro a _
    by_cases heq : a = axis
    · rw [heq, hzero, zero_mul, zero_mul]
    · rw [hmoved a heq]

/-- `M669` with the factors 2 and -2 for Y. -/
def twiceY : Command where
  numVisibleAxes := 3
  numTotalAxes := 3
  seenK := false
  motorFactors axis := if axis = 1 then some (some [2, -2]) else none

lemma inverseMatrix_twiceY : (configureAll 3 (create 3 .coreXY) [twiceY]).2.inverseMatrix =
    setRow 3 1 [2, -2] (setElements (elements .coreXY) fun i j => if i = j then 1 else 0) := by
  change (recalc 3 (setRow 3 1 [2, -2] (create 3 .coreXY).inverseMatrix)).inverseMatrix = _
  rw [recalc_widens.1, create, recalc_widens.1]

/-- Core XY kinematics of which a command has changed the row of Y. -/
theorem roundTrip_twiceY :
    let k := recalc 3 (configureAll 3 (create 3 .coreXY) [twiceY]).2.inverseMatrix
    k.motorStepsToCartesian (k.cartesianToMotorSteps (fun axis => axis + 1) (fun _ => 80) 3 3
      fun _ => 0) (fun _ => 80) 3 1 = 2 := by
  have hinvertible : Invertible 3 3 (configureAll 3 (create 3 .coreXY) [twiceY]).2.inverseMatrix :=
      by
    rw [inverseMatrix_twiceY]
    refine ⟨?_, fun axis hge hlt => absurd hge (by omega)⟩
    rw [Matrix.det_fin_three]
    simp [setRow, setElements, elements, Function.update]
    norm_num
  have h := roundTrip 3 3 le_rfl .coreXY [twiceY] (fun _ => 80) fun _ _ => by norm_num
  have hback := (h.2 hinvertible (fun axis => axis + 1) (fun _ => 0) 1 (by decide)).1
  refine hback.trans ?_
  norm_num

end CoreKinematics

end RepRapFirmware.Movement
