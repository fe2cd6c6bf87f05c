import Mathlib.Data.Fin.VecNotation
import RepRapFirmware.RRFLibraries.NumericConverter

/-! The grid of points at which a bed is probed. Coordinates are exact. -/

namespace RepRapFirmware.Movement.BedProbing

open RRFLibraries.NumericConverters

-- One proof for the axes that are given as numerals.
scoped instance neZero2 : NeZero 2 := ⟨by decide⟩

inductive Board
  | same70
  | other
  deriving DecidableEq

def Board.maxGridProbePoints : Board → ℕ
  | same70 => 961
  | other => 441

lemma Board.maxGridProbePoints_le (b : Board) : b.maxGridProbePoints ≤ 961 := by
  cases b
  · exact le_rfl
  · decide

def maxAxis0GridPoints : ℕ := 41

/-- What the grid uses of the rest of the machine. -/
structure Machine where
  board : Board
  maxAxes : ℕ
  axisLetters : List Char
  numVisibleAxes : ℕ
  visible_le : numVisibleAxes ≤ axisLetters.length
  total_le : axisLetters.length ≤ maxAxes

def Machine.getAxisNumberForLetter (m : Machine) (axisLetter : Char) : ℕ :=
  if axisLetter ∈ m.axisLetters then m.axisLetters.idxOf axisLetter else m.maxAxes

structure GridDefinition where
  letters : Fin 2 → Char
  mins : Fin 2 → ℚ
  maxs : Fin 2 → ℚ
  radius : ℚ
  spacings : Fin 2 → ℚ
  axisNumbers : Fin 2 → ℕ
  nums : Fin 2 → ℕ
  recipAxisSpacings : Fin 2 → ℚ
  isValid : Bool

namespace GridDefinition

def minSpacing : ℚ := 1 / 10

def minRange : ℚ := 1

/-- A grid that has not been defined. -/
def undefined : GridDefinition where
  letters := !['X', 'Y']
  mins := ![0, 0]
  maxs := ![-1, -1]
  radius := -1
  spacings := ![0, 0]
  axisNumbers := ![0, 0]
  nums := ![0, 0]
  recipAxisSpacings := ![0, 0]
  isValid := false

def numPoints (g : GridDefinition) : ℕ := g.nums 0 * g.nums 1 % 2 ^ 32

def getCoordinate (g : GridDefinition) (axis : Fin 2) (coordinateIndex : ℕ) : ℚ :=
  g.mins axis + coordinateIndex * g.spacings axis

/-- The conversion to `uint32_t`, which stops at the largest value, and 1 added to it. -/
def pointsInRange (range spacing : ℚ) : ℕ := (min ⌊range / spacing⌋₊ uint32Max + 1) % 2 ^ 32

/-- The part of `CheckValidity` behind the ranges and the spacings. -/
def checkPoints (m : Machine) (g : GridDefinition) : GridDefinition :=
  let axis0NumForLetter := m.getAxisNumberForLetter (g.letters 0)
  let axis1NumForLetter := m.getAxisNumberForLetter (g.letters 1)
  if g.numPoints ≠ 0 ∧ g.numPoints ≤ m.board.maxGridProbePoints ∧
      (g.radius < 0 ∨ 1 ≤ g.radius) ∧ g.nums 0 ≤ maxAxis0GridPoints ∧
      g.letters 0 ≠ g.letters 1 ∧ axis0NumForLetter < m.numVisibleAxes ∧
      axis1NumForLetter < m.numVisibleAxes then
    { g with
      isValid := true
      axisNumbers := ![axis0NumForLetter, axis1NumForLetter]
      recipAxisSpacings := fun axis => 1 / g.spacings axis }
  else { g with isValid := false }

def checkValidity (m : Machine) (setNum0Num1 : Bool) (g : GridDefinition) : GridDefinition :=
  if g.maxs 0 - g.mins 0 < minRange ∨ g.spacings 0 < minSpacing ∨
      g.maxs 1 - g.mins 1 < minRange ∨ g.spacings 1 < minSpacing then
    { g with isValid := false, nums := if setNum0Num1 then ![0, 0] else g.nums }
  else
    checkPoints m <| { g with
      nums :=
        if setNum0Num1 then
          fun axis => pointsInRange (g.maxs axis - g.mins axis) (g.spacings axis)
        else g.nums }

def set (m : Machine) (axisLetters : Fin 2 → Char) (axis0Range axis1Range : Fin 2 → ℚ)
    (pRadius : ℚ) (pSpacings : Fin 2 → ℚ) (g : GridDefinition) : GridDefinition :=
  checkValidity m true
    { g with
      letters := axisLetters
      mins := ![axis0Range 0, axis1Range 0]
      maxs := ![axis0Range 1, axis1Range 1]
      radius := pRadius
      spacings := pSpacings }

def heightMapLabelLines : List String :=
  ["xmin,xmax,ymin,ymax,radius,spacing,xnum,ynum",
    "xmin,xmax,ymin,ymax,radius,xspacing,yspacing,xnum,ynum",
    "axis0,axis1,min0,max0,min1,max1,radius,spacing0,spacing1,num0,num1"]

/-- The version of the label line, or `none` for -1. -/
def checkHeading (s : List Char) : Option ℕ :=
  heightMapLabelLines.findIdx? fun line => line.toList.isPrefixOf s

/-- A character and the comma behind it. -/
def readLetter : List Char → Option (Char × List Char)
  | letter :: ',' :: p => some (letter, p)
  | _ => none

/-- A number and the comma behind it. -/
def readNumber (p : List Char) : Option (ℚ × List Char) :=
  match safeStrtof p with
  | some (number, ',' :: p) => some (number, p)
  | _ => none

def readLetters (version : ℕ) (s : List Char) : Option ((Fin 2 → Char) × List Char) :=
  if version < 2 then some (!['X', 'Y'], s)
  else
    (readLetter s).bind fun (letter0, p) =>
      (readLetter p).map fun (letter1, p) => (![letter0, letter1], p)

/-- The oldest files have one spacing for both axes. -/
def readSpacings (version : ℕ) (p : List Char) : Option ((Fin 2 → ℚ) × List Char) :=
  (readNumber p).bind fun (spacing0, p) =>
    if version = 0 then some (![spacing0, spacing0], p)
    else (readNumber p).map fun (spacing1, p) => (![spacing0, spacing1], p)

def readNums (p : List Char) : Option (Fin 2 → ℕ) :=
  match strToU32 p with
  | some (num0, ',' :: p) => (strToU32 p).map fun (num1, _) => ![num0, num1]
  | _ => none

/-- The part of `ReadParameters` before the check. -/
def parseParameters (s : List Char) (version : ℕ) : Option GridDefinition := do
  let (letters, p) ← readLetters version s
  let (min0, p) ← readNumber p
  let (max0, p) ← readNumber p
  let (min1, p) ← readNumber p
  let (max1, p) ← readNumber p
  let (radius, p) ← readNumber p
  let (spacings, p) ← readSpacings version p
  let nums ← readNums p
  some { undefined with
    letters := letters
    mins := ![min0, min1]
    maxs := ![max0, max1]
    radius := radius
    spacings := spacings
    nums := nums }

def readParameters (m : Machine) (s : List Char) (version : ℕ) : Option GridDefinition :=
  (parseParameters s version).map (checkValidity m false)

/-- The grid has been set by a command or read from a file, and counts as valid. -/
def Accepted (m : Machine) (g : GridDefinition) : Prop :=
  g.isValid ∧
    ((∃ axisLetters axis0Range axis1Range pRadius pSpacings old,
        g = set m axisLetters axis0Range axis1Range pRadius pSpacings old) ∨
      ∃ s version, readParameters m s version = some g)

/-! ### What a valid grid is -/

/-- What `CheckValidity` has checked. -/
structure Valid (m : Machine) (g : GridDefinition) : Prop where
  range (axis : Fin 2) : 1 ≤ g.maxs axis - g.mins axis
  spacing (axis : Fin 2) : 1 / 10 ≤ g.spacings axis
  points_pos : g.numPoints ≠ 0
  points_le : g.numPoints ≤ m.board.maxGridProbePoints
  radius : g.radius < 0 ∨ 1 ≤ g.radius
  nums_le : g.nums 0 ≤ 41
  letters : g.letters 0 ≠ g.letters 1
  visible (axis : Fin 2) : m.getAxisNumberForLetter (g.letters axis) < m.numVisibleAxes
  recip (axis : Fin 2) : g.recipAxisSpacings axis = 1 / g.spacings axis

variable {m : Machine} {g : GridDefinition} {setNum0Num1 : Bool}

lemma checkPoints_valid (hrange : ∀ axis, 1 ≤ g.maxs axis - g.mins axis)
    (hspacing : ∀ axis, 1 / 10 ≤ g.spacings axis) (h : (checkPoints m g).isValid = true) :
    Valid m (checkPoints m g) := by
  rw [checkPoints] at h ⊢
  split at h
  · next hchecked =>
    rw [if_pos hchecked]
    obtain ⟨hpos, hle, hradius, hnums, hletters, hvisible0, hvisible1⟩ := hchecked
    refine ⟨hrange, hspacing, hpos, hle, hradius, hnums, hletters, ?_, fun axis => rfl⟩
    intro axis
    fin_cases axis
    · exact hvisible0
    · exact hvisible1
  · exact absurd h Bool.false_ne_true

lemma checkValidity_valid (h : (checkValidity m setNum0Num1 g).isValid = true) :
    Valid m (checkValidity m setNum0Num1 g) := by
  rw [checkValidity] at h ⊢
  split at h
  · exact absurd h Bool.false_ne_true
  · next hsmall =>
    rw [if_neg hsmall]
    simp only [minRange, minSpacing, not_or, not_lt] at hsmall
    obtain ⟨hrange0, hspacing0, hrange1, hspacing1⟩ := hsmall
    apply checkPoints_valid _ _ h
    · intro axis
      fin_cases axis
      · exact hrange0
      · exact hrange1
    · intro axis
      fin_cases axis
      · exact hspacing0
      · exact hspacing1

lemma Accepted.valid (h : Accepted m g) : Valid m g := by
  obtain ⟨hvalid, ⟨axisLetters, axis0Range, axis1Range, pRadius, pSpacings, old, rfl⟩ |
    ⟨s, version, hread⟩⟩ := h
  · exact checkValidity_valid hvalid
  · obtain ⟨g', -, rfl⟩ := Option.map_eq_some_iff.mp hread
    exact checkValidity_valid hvalid

lemma readNums_lt {p : List Char} {nums : Fin 2 → ℕ} (h : readNums p = some nums) (axis : Fin 2) :
    nums axis < 2 ^ 32 := by
  rw [readNums] at h
  split at h
  · next num0 _ h0 =>
    obtain ⟨⟨num1, _⟩, h1, rfl⟩ := Option.map_eq_some_iff.mp h
    fin_cases axis
    · exact strToU32_lt h0
    · exact strToU32_lt h1
  · exact absurd h.symm (Option.some_ne_none _)

lemma parseParameters_nums {s : List Char} {version : ℕ} (h : parseParameters s version = some g)
    (axis : Fin 2) : g.nums axis < 2 ^ 32 := by
  iterate 7 obtain ⟨_, -, h⟩ := Option.bind_eq_some_iff.mp h
  obtain ⟨nums, hnums, h⟩ := Option.bind_eq_some_iff.mp h
  rw [← Option.some.inj h]
  exact readNums_lt hnums axis

lemma checkPoints_nums : (checkPoints m g).nums = g.nums := by
  rw [checkPoints]
  split
  · rfl
  · rfl

lemma Accepted.nums_lt (h : Accepted m g) (axis : Fin 2) : g.nums axis < 2 ^ 32 := by
  obtain ⟨-, ⟨axisLetters, axis0Range, axis1Range, pRadius, pSpacings, old, rfl⟩ |
    ⟨s, version, hread⟩⟩ := h
  · rw [set, checkValidity]
    split
    · fin_cases axis
      · exact Nat.two_pow_pos 32
      · exact Nat.two_pow_pos 32
    · rw [checkPoints_nums]
      exact Nat.mod_lt _ (Nat.two_pow_pos 32)
  · obtain ⟨g', hparse, rfl⟩ := Option.map_eq_some_iff.mp hread
    have hnums : (checkValidity m false g').nums = g'.nums := by
      rw [checkValidity]
      split
      · rfl
      · rw [checkPoints_nums]
        rfl
    rw [hnums]
    exact parseParameters_nums hparse axis

end GridDefinition

end RepRapFirmware.Movement.BedProbing
