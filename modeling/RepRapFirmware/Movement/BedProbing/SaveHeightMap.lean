import Mathlib
import RepRapFirmware.Movement.BedProbing.HeightMapFile
import RepRapFirmware.RRFLibraries.FixedPoint
import RepRapFirmware.RRFLibraries.IntegerFormatting

/-! Height maps saved to files, and loaded from them again. -/

namespace RepRapFirmware.Movement.BedProbing

open RRFLibraries.FixedPoint RRFLibraries.SafeVsnprintf Storage.ReadLine

/-! ### The buffer -/

def stringLength500 : ℕ := 500

def copy (src : List Char) : List Char := src.take stringLength500

def cat (buf src : List Char) : List Char := (buf ++ src).take stringLength500

/-- The characters that `SafeVsnprintf` leaves before the terminator, with so much room. -/
def stored (room : ℕ) (format : String) (args : List Arg) : List Char :=
  (safeVsnprintf room format.toList args).1.dropLast

def printf (format : String) (args : List Arg) : List Char :=
  stored (stringLength500 + 1) format args

def catf (buf : List Char) (format : String) (args : List Arg) : List Char :=
  if buf.length < stringLength500 then
    buf ++ stored (stringLength500 + 1 - buf.length) format args
  else buf

/-- A file cannot reach 4 GiB. -/
def writeText (f text : List Char) : Option (List Char) :=
  if f.length + text.length < 2 ^ 32 then some (f ++ text) else none

/-! ### Saving -/

def charArg (c : Char) : Arg := .int (BitVec.ofNat 32 c.toNat)

def GridDefinition.writeHeadingAndParameters (g : GridDefinition) : List Char :=
  printf "%s\n%c,%c,%.2f,%.2f,%.2f,%.2f,%.2f,%.2f,%.2f,%li,%li\n"
    [.string (heightMapLabelLines.getLast?.map String.toList), charArg (g.letters 0),
      charArg (g.letters 1), .double (g.mins 0), .double (g.maxs 0), .double (g.mins 1),
      .double (g.maxs 1), .double g.radius, .double (g.spacings 0), .double (g.spacings 1),
      .int (BitVec.ofNat 32 (g.nums 0)), .int (BitVec.ofNat 32 (g.nums 1))]

structure Deviation where
  mean : ℚ
  deviationFromMean : ℚ

def Deviation.set (fastSqrtf : ℚ → ℚ) (sumOfSquares sum : ℚ) (numPoints : ℕ) : Deviation :=
  if numPoints = 0 then ⟨0, 0⟩
  else
    let mean := sum / numPoints
    let square := sumOfSquares / numPoints - mean ^ 2
    ⟨mean, if square ≤ 0 then 0 else fastSqrtf square⟩

/-- What is known of the date and the time. -/
structure TimeInfo where
  tmYear : BitVec 32
  tmMon : BitVec 32
  tmMday : BitVec 32
  tmHour : BitVec 32
  tmMin : BitVec 32

namespace HeightMap

structure Statistics where
  deviation : Deviation
  minError : ℚ
  maxError : ℚ

def getStatistics (fastSqrtf : ℚ → ℚ) (map : HeightMap) : Statistics :=
  let heights := ((List.range map.grid.numPoints).filter (· ∈ map.gridHeightSet)).map
    map.gridHeights
  { deviation := .set fastSqrtf (heights.map (· ^ 2)).sum heights.sum heights.length
    minError := heights.foldl (fun minError height => if height < minError then height
      else minError) 9999
    maxError := heights.foldl (fun maxError height => if maxError < height then height
      else maxError) (-9999) }

def headerComment (fastSqrtf : ℚ → ℚ) (timeInfo : Option TimeInfo) (zOffset : ℚ)
    (map : HeightMap) : List Char :=
  let buf := copy heightMapComment.toList
  let buf :=
    match timeInfo with
    | some time => catf buf " generated at %04u-%02u-%02u %02u:%02u"
        [.int (time.tmYear + 1900), .int (time.tmMon + 1), .int time.tmMday, .int time.tmHour,
          .int time.tmMin]
    | none => buf
  let statistics := map.getStatistics fastSqrtf
  catf buf ", min error %.3f, max error %.3f, mean %.3f, deviation %.3f\n"
    [.double (statistics.minError + zOffset), .double (statistics.maxError + zOffset),
      .double (statistics.deviation.mean + zOffset),
      .double statistics.deviation.deviationFromMean]

/-- The loop over the columns that are left, with the index of the next point. -/
def saveRow (map : HeightMap) (zOffset : ℚ) : ℕ → ℕ → ℕ → List Char → List Char × ℕ
  | 0, _, index, buf => (buf, index)
  | n + 1, j, index, buf =>
    let buf := if j ≠ 0 then cat buf [','] else buf
    let buf :=
      if index ∈ map.gridHeightSet then
        catf buf "%7.3f" [.double (map.gridHeights index + zOffset)]
      else cat buf "      0".toList
    saveRow map zOffset n (j + 1) ((index + 1) % 2 ^ 32) buf

/-- The loop over the rows that are left. -/
def saveRows (map : HeightMap) (zOffset : ℚ) : ℕ → ℕ → List Char → Option (List Char)
  | 0, _, f => some f
  | n + 1, index, f =>
    let (buf, index) := saveRow map zOffset (map.grid.nums 0) 0 index []
    (writeText f (cat buf ['\n'])).bind (saveRows map zOffset n index)

/-- What is in the file, if no error occurred, and the map afterwards. -/
def saveToFile (fastSqrtf : ℚ → ℚ) (timeInfo : Option TimeInfo) (fname : List Char) (zOffset : ℚ)
    (map : HeightMap) : Option (List Char) × HeightMap :=
  let contents := (writeText [] (map.headerComment fastSqrtf timeInfo zOffset)).bind fun f =>
    (writeText f map.grid.writeHeadingAndParameters).bind fun f =>
      map.saveRows zOffset (map.grid.nums 1) 0 f
  (contents, if contents.isSome then { map with fileName := fname } else map)

/-! ### The text of a row -/

/-- The field of a point. -/
def cell : Option ℚ → List Char
  | none => "      0".toList
  | some height => decimalText 7 3 height

def rowText : List (Option ℚ) → List Char
  | [] => []
  | [entry] => cell entry
  | entry :: next :: entries => cell entry ++ ',' :: rowText (next :: entries)

/-- A height with its offset, which has three digits at most before the point. -/
def Small (entry : Option ℚ) : Prop := ∀ height ∈ entry, |height| < 100

/-- The field of the height takes eight characters. -/
def isWide (entry : Option ℚ) : Bool := entry.any fun height => height ≤ -199999 / 2000

variable {map : HeightMap} {zOffset height : ℚ} {entry : Option ℚ} {entries : List (Option ℚ)}
  {buf rest : List Char} {n index j : ℕ}

lemma stored_eq (room : ℕ) (format : String) (args : List Arg) :
    stored room format args = (printed format.toList args).take (room - 1) := by
  rw [stored, safeVsnprintf_stored, List.dropLast_concat]

lemma catf_eq (buf : List Char) (format : String) (args : List Arg)
    (hfits : (buf ++ printed format.toList args).length ≤ stringLength500) :
    catf buf format args = buf ++ printed format.toList args := by
  rw [List.length_append] at hfits
  rw [catf]
  split
  · rw [stored_eq, List.take_of_length_le (by omega)]
  · have hempty : printed format.toList args = [] := List.eq_nil_of_length_eq_zero (by omega)
    rw [hempty, List.append_nil]

lemma cat_eq {src : List Char} (hfits : (buf ++ src).length ≤ stringLength500) :
    cat buf src = buf ++ src :=
  List.take_of_length_le hfits

lemma printed_height (hsmall : |height| < 100) :
    printed "%7.3f".toList [.double height] = decimalText 7 3 height := by
  have hbound : |height| * 10 ^ 3 ≤ (llongMax / 10 : ℕ) := by
    have hmax : (100000 : ℚ) ≤ (llongMax / 10 : ℕ) := by norm_num [llongMax]
    linarith
  rw [printed_eq]
  change shown ((Call.printFloat { width := (7 : ℕ), printLimit := (3 : ℕ) } height 'f').text ++
    []) = _
  rw [List.append_nil, printFloat_text 7 (by decide) hbound]
  exact shown_eq fun h => absurd (isNumeral_decimalText h) (by decide)

lemma isWide_iff :
    isWide (some height) = true ↔ height < 0 ∧ 100 ≤ scaled 3 height / 10 ^ 3 := by
  have hclose := llrint_close (|height| * 10 ^ 3)
  rw [← scaled_cast, abs_le] at hclose
  rw [isWide, Option.any_some, decide_eq_true_eq, Nat.le_div_iff_mul_le (by decide)]
  constructor
  · intro hwide
    have hneg : height < 0 := by linarith
    have hmono : llrint (199999 / 2) ≤ llrint (|height| * 10 ^ 3) := by
      apply llrint_mono
      rw [abs_of_neg hneg]
      linarith
    have hvalue : llrint (199999 / 2) = 100000 := by decide +kernel
    refine ⟨hneg, ?_⟩
    rw [scaled]
    omega
  · rintro ⟨hneg, hscaled⟩
    by_contra hnot
    rw [abs_of_neg hneg] at hclose
    have hcast : (100 * 10 ^ 3 : ℚ) ≤ (scaled 3 height : ℕ) := by exact_mod_cast hscaled
    linarith [hclose.2, not_le.mp hnot]

lemma length_cell (hsmall : Small entry) :
    (cell entry).length = 7 + if isWide entry then 1 else 0 := by
  cases entry with
  | none => rfl
  | some height =>
    have hheight : |height| < 100 := hsmall height rfl
    have hscaled : scaled 3 height ≤ 100 * 10 ^ 3 := scaled_le hheight.le
    have hthree : (Nat.toDigits 10 (scaled 3 height / 10 ^ 3)).length ≤ 3 :=
      (Nat.length_toDigits_le_iff (by decide) (by decide)).mpr (by omega)
    have htwo : (Nat.toDigits 10 (scaled 3 height / 10 ^ 3)).length ≤ 2 ↔
        scaled 3 height / 10 ^ 3 < 100 := Nat.length_toDigits_le_iff (by decide) (by decide)
    have hwide : isWide (some height) = true ↔ _ := isWide_iff
    rw [cell, decimalText, List.length_append, List.length_replicate, List.length_append,
      length_fixedText, signText]
    by_cases hneg : height < 0
    · rw [if_pos (decide_eq_true hneg), List.length_singleton]
      by_cases hlarge : 100 ≤ scaled 3 height / 10 ^ 3
      · rw [if_pos (hwide.mpr ⟨hneg, hlarge⟩)]
        omega
      · rw [if_neg fun h => hlarge (hwide.mp h).2]
        omega
    · rw [if_neg (by rw [decide_eq_true_eq]; exact hneg), List.length_nil,
        if_neg fun h => hneg (hwide.mp h).1]
      omega

/-- The entry of a point, as it is saved. -/
def pointEntry (map : HeightMap) (zOffset : ℚ) (index : ℕ) : Option ℚ :=
  if index ∈ map.gridHeightSet then some (map.gridHeights index + zOffset) else none

/-- The entries of the points from an index on; an index has 32 bits. -/
def entriesFrom (map : HeightMap) (zOffset : ℚ) (index n : ℕ) : List (Option ℚ) :=
  (List.range' index n).map fun i => map.pointEntry zOffset (i % 2 ^ 32)

/-- What follows the first field of a row. -/
def moreText : List (Option ℚ) → List Char
  | [] => []
  | entry :: entries => ',' :: (cell entry ++ moreText entries)

lemma rowText_cons (entry : Option ℚ) (entries : List (Option ℚ)) :
    rowText (entry :: entries) = cell entry ++ moreText entries := by
  induction entries generalizing entry with
  | nil => exact (List.append_nil _).symm
  | cons next entries ih => rw [rowText, ih, moreText]

lemma length_moreText (hsmall : ∀ entry ∈ entries, Small entry) :
    (moreText entries).length = 8 * entries.length + entries.countP isWide := by
  induction entries with
  | nil => rfl
  | cons entry entries ih =>
    rw [moreText, List.length_cons, List.length_append,
      length_cell (hsmall entry List.mem_cons_self),
      ih fun e he => hsmall e (List.mem_cons_of_mem _ he), List.length_cons, List.countP_cons]
    omega

/-- The length of a row. -/
lemma length_rowText (hne : entries ≠ []) (hsmall : ∀ entry ∈ entries, Small entry) :
    (rowText entries).length + 1 = 8 * entries.length + entries.countP isWide := by
  cases entries with
  | nil => exact absurd rfl hne
  | cons entry entries =>
    rw [rowText_cons, List.length_append, length_cell (hsmall entry List.mem_cons_self),
      length_moreText fun e he => hsmall e (List.mem_cons_of_mem _ he), List.length_cons,
      List.countP_cons]
    omega

lemma isNumeral_cell {c : Char} (hc : c ∈ cell entry) : isNumeral c = true := by
  cases entry with
  | none =>
    have hall : (cell none).all isNumeral = true := by decide
    exact List.all_eq_true.mp hall c hc
  | some height => exact isNumeral_decimalText hc

/-- The field that the loop writes for a point. -/
lemma saveField_eq (hsmall : Small (map.pointEntry zOffset index))
    (hfits : buf.length + 8 ≤ stringLength500) :
    (if index ∈ map.gridHeightSet then
        catf buf "%7.3f" [.double (map.gridHeights index + zOffset)]
      else cat buf "      0".toList) = buf ++ cell (map.pointEntry zOffset index) := by
  have hlength := length_cell hsmall
  rw [pointEntry] at hsmall hlength ⊢
  split
  · next hset =>
    rw [if_pos hset] at hsmall hlength
    have hprinted := printed_height (hsmall _ rfl)
    have hcell : (decimalText 7 3 (map.gridHeights index + zOffset)).length ≤ 8 := by
      rw [cell] at hlength
      rw [hlength]
      split
      · exact le_rfl
      · exact Nat.le_succ _
    rw [catf_eq, hprinted, cell]
    rw [hprinted, List.length_append]
    omega
  · rw [cat_eq, cell]
    rw [List.length_append]
    exact le_trans (Nat.add_le_add_left (by decide) _) hfits

/-- All heights with their offset have three digits at most before the point. -/
def AllSmall (map : HeightMap) (zOffset : ℚ) : Prop := ∀ k, Small (map.pointEntry zOffset k)

lemma AllSmall.entriesFrom (hsmall : map.AllSmall zOffset) (index n : ℕ) :
    ∀ entry ∈ map.entriesFrom zOffset index n, Small entry := by
  intro entry hentry
  obtain ⟨k, -, rfl⟩ := List.mem_map.mp hentry
  exact hsmall _

lemma AllSmall.length_cell (hsmall : map.AllSmall zOffset) (index : ℕ) :
    (cell (map.pointEntry zOffset index)).length ≤ 8 := by
  rw [HeightMap.length_cell (hsmall index)]
  split
  · exact le_rfl
  · exact Nat.le_succ _

lemma entriesFrom_succ (index n : ℕ) : map.entriesFrom zOffset index (n + 1) =
    map.pointEntry zOffset (index % 2 ^ 32) :: map.entriesFrom zOffset (index + 1) n := by
  rw [entriesFrom, List.range'_succ, List.map_cons]
  rfl

lemma length_entriesFrom (index n : ℕ) : (map.entriesFrom zOffset index n).length = n := by
  rw [entriesFrom, List.length_map, List.length_range']

lemma saveRow_more (hsmall : map.AllSmall zOffset) (hj : j ≠ 0)
    (hfits : buf.length + 9 * n ≤ stringLength500) :
    map.saveRow zOffset n j (index % 2 ^ 32) buf =
      (buf ++ moreText (map.entriesFrom zOffset index n), (index + n) % 2 ^ 32) := by
  induction n generalizing j index buf with
  | zero =>
    rw [saveRow]
    exact Prod.ext (List.append_nil _).symm rfl
  | succ n ih =>
    have hcomma : cat buf [','] = buf ++ [','] := cat_eq (by
      rw [List.length_append, List.length_singleton]
      omega)
    have hcell := hsmall.length_cell (index % 2 ^ 32)
    have hroom : (buf ++ [',']).length + 8 ≤ stringLength500 := by
      rw [List.length_append, List.length_singleton]
      omega
    have hlength : (buf ++ [','] ++ cell (map.pointEntry zOffset (index % 2 ^ 32))).length +
        9 * n ≤ stringLength500 := by
      rw [List.length_append, List.length_append, List.length_singleton]
      omega
    rw [saveRow, if_pos hj, hcomma, saveField_eq (hsmall _) hroom, Nat.mod_add_mod,
      ih (Nat.succ_ne_zero j) hlength, entriesFrom_succ, moreText]
    simp only [List.append_assoc, List.cons_append, List.nil_append, Nat.add_assoc,
      Nat.add_comm 1]

lemma saveRow_eq (hsmall : map.AllSmall zOffset) (hn : 0 < n) (hfits : 9 * n ≤ stringLength500) :
    map.saveRow zOffset n 0 (index % 2 ^ 32) [] =
      (rowText (map.entriesFrom zOffset index n), (index + n) % 2 ^ 32) := by
  obtain ⟨n, rfl⟩ : ∃ n', n = n' + 1 := ⟨n - 1, by omega⟩
  have hcell := hsmall.length_cell (index % 2 ^ 32)
  rw [saveRow, if_neg (not_not.mpr rfl), saveField_eq (hsmall _) (by decide), List.nil_append,
    Nat.mod_add_mod, saveRow_more hsmall (by decide) (by omega), entriesFrom_succ, rowText_cons,
    Nat.add_right_comm, Nat.add_assoc]

/-- The rows of the file from an index on. -/
def rowsText (map : HeightMap) (zOffset : ℚ) : ℕ → ℕ → List Char
  | 0, _ => []
  | n + 1, index => rowText (map.entriesFrom zOffset index (map.grid.nums 0)) ++
      '\n' :: rowsText map zOffset n (index + map.grid.nums 0)

lemma length_row (hsmall : map.AllSmall zOffset) (hn : 0 < n) (index : ℕ) :
    (rowText (map.entriesFrom zOffset index n)).length + 1 =
      8 * n + (map.entriesFrom zOffset index n).countP isWide := by
  have hne : map.entriesFrom zOffset index n ≠ [] := by
    apply List.ne_nil_of_length_pos
    rw [length_entriesFrom]
    exact hn
  rw [length_rowText hne (hsmall.entriesFrom index n), length_entriesFrom]

lemma length_row_le (hsmall : map.AllSmall zOffset) (hn : 0 < n) (index : ℕ) :
    (rowText (map.entriesFrom zOffset index n)).length + 1 ≤ 9 * n := by
  have hwide := List.countP_le_length (p := isWide) (l := map.entriesFrom zOffset index n)
  rw [length_entriesFrom] at hwide
  rw [length_row hsmall hn]
  omega

lemma length_rowsText (hsmall : map.AllSmall zOffset) (hcols : 0 < map.grid.nums 0)
    (index : ℕ) : n * (8 * map.grid.nums 0) ≤ (map.rowsText zOffset n index).length ∧
      (map.rowsText zOffset n index).length ≤ n * (9 * map.grid.nums 0) := by
  induction n generalizing index with
  | zero => exact ⟨(Nat.zero_mul _).le, Nat.zero_le _⟩
  | succ n ih =>
    have hrow := length_row hsmall hcols index
    have hle := length_row_le hsmall hcols index
    obtain ⟨hlow, hhigh⟩ := ih (index + map.grid.nums 0)
    rw [rowsText, List.length_append, List.length_cons, Nat.succ_mul n, Nat.succ_mul n]
    exact ⟨by omega, by omega⟩

/-- The rows are written unless the file becomes too large. -/
lemma saveRows_eq (hsmall : map.AllSmall zOffset) (hcols : 0 < map.grid.nums 0)
    (hfits : map.grid.nums 0 ≤ maxAxis0GridPoints) {f : List Char} (hf : f.length < 2 ^ 32) :
    map.saveRows zOffset n (index % 2 ^ 32) f =
      if f.length + (map.rowsText zOffset n index).length < 2 ^ 32 then
        some (f ++ map.rowsText zOffset n index)
      else none := by
  rw [maxAxis0GridPoints] at hfits
  induction n generalizing index f with
  | zero => rw [saveRows, rowsText, List.length_nil, Nat.add_zero, if_pos hf, List.append_nil]
  | succ n ih =>
    have hle := length_row_le hsmall hcols index
    have hend : cat (rowText (map.entriesFrom zOffset index (map.grid.nums 0))) ['\n'] =
        rowText (map.entriesFrom zOffset index (map.grid.nums 0)) ++ ['\n'] := by
      apply cat_eq
      rw [List.length_append, List.length_singleton, stringLength500]
      omega
    rw [saveRows, saveRow_eq hsmall hcols (by rw [stringLength500]; omega)]
    dsimp only
    rw [hend, writeText, rowsText, List.length_append, List.length_append, List.length_singleton,
      List.length_cons]
    split
    · next hroom =>
      have hnext : (f ++ (rowText (map.entriesFrom zOffset index (map.grid.nums 0)) ++
          ['\n'])).length < 2 ^ 32 := by
        rw [List.length_append, List.length_append, List.length_singleton]
        exact hroom
      rw [Option.bind_some, ih hnext, List.length_append, List.length_append,
        List.length_singleton]
      have hsum (a b c : ℕ) : a + (b + 1) + c = a + (b + (c + 1)) := by omega
      simp only [hsum, List.append_assoc, List.cons_append, List.nil_append]
    · next hroom =>
      rw [Option.bind_none, if_neg]
      omega

end HeightMap

/-! ### The text of the parameters -/

namespace GridDefinition

/-- Lengths of less than 42 km, which have ten digits at most. -/
def Moderate (g : GridDefinition) : Prop :=
  (∀ axis, |g.mins axis| ≤ (42949672 : ℕ) ∧ |g.maxs axis| ≤ (42949672 : ℕ) ∧
    |g.spacings axis| ≤ (42949672 : ℕ)) ∧ |g.radius| ≤ (42949672 : ℕ)

/-- The line of the parameters. -/
def parametersText (g : GridDefinition) : List Char :=
  g.letters 0 :: ',' :: g.letters 1 :: ',' ::
    (decimalText 0 2 (g.mins 0) ++ ',' :: (decimalText 0 2 (g.maxs 0) ++
    ',' :: (decimalText 0 2 (g.mins 1) ++ ',' :: (decimalText 0 2 (g.maxs 1) ++
    ',' :: (decimalText 0 2 g.radius ++ ',' :: (decimalText 0 2 (g.spacings 0) ++
    ',' :: (decimalText 0 2 (g.spacings 1) ++ ',' :: (Nat.toDigits 10 (g.nums 0) ++
    ',' :: Nat.toDigits 10 (g.nums 1)))))))))

variable {g : GridDefinition} {d : ℚ} {n : ℕ} {c : Char}

lemma length_decimalText (hd : |d| ≤ (42949672 : ℕ)) : (decimalText 0 2 d).length ≤ 12 := by
  have hscaled := scaled_le (k := 2) hd
  have hdigits : (Nat.toDigits 10 (scaled 2 d / 10 ^ 2)).length ≤ 8 :=
    (Nat.length_toDigits_le_iff (by decide) (by decide)).mpr (by omega)
  have hsign : (signText (decide (d < 0))).length ≤ 1 := by
    rw [signText]
    split
    · exact le_rfl
    · exact Nat.zero_le _
  rw [decimalText, List.length_append, List.length_replicate, List.length_append,
    length_fixedText]
  omega

open RRFLibraries.IntegerFormatting in
/-- A count of points, as `%li` prints it. -/
lemma printed_count (hn : n < 2 ^ 31) :
    (Call.printI { base := 10, printLimit := -1, letBase := 'a', isSigned := true, long32 := true }
      (BitVec.ofNat 32 n)).text = Nat.toDigits 10 n := by
  let d : Directive := ⟨[], 0, none, .i⟩
  let v : Value := .int (BitVec.ofNat 32 n)
  have hvalue : v.toInt = n := by
    change (BitVec.ofNat 32 n).toInt = n
    rw [BitVec.toInt_eq_toNat_of_lt]
    · rw [BitVec.toNat_ofNat, Nat.mod_eq_of_lt (by omega)]
    · rw [BitVec.toNat_ofNat, Nat.mod_eq_of_lt (by omega)]
      omega
  have hmagnitude : d.magnitude v = n := by
    change v.toInt.natAbs = n
    rw [hvalue, Int.natAbs_natCast]
  have hdigits : d.digits v = Nat.toDigits 10 n := by
    rw [Directive.digits, hmagnitude]
    exact List.map_id _
  have hsign : d.standardSign v = [] := by
    have hnegative : d.isNegative v = false := by
      rw [Directive.isNegative, hvalue]
      simp
    rw [Directive.standardSign, hnegative]
    rfl
  have htext : d.standardText v = d.digits v := by
    simp [d, Directive.standardText, hsign, Directive.standardPrefix, Directive.standardDigits,
      Directive.has, Directive.minDigits, Directive.zeros, Directive.spaces]
  have houtput : d.numberOutput v = d.standardText v := by
    by_cases hzero : d.magnitude v = 0
    · exact (Directive.text_zero hzero).mpr rfl
    · apply (Directive.text_signed hzero rfl).mpr
      have hnegative : d.isNegative v = false := by
        rw [Directive.isNegative, hvalue]
        simp
      rw [Directive.conformsSigned, hnegative]
      rfl
  have hcall := Directive.call_text d v
  rw [houtput, htext, hdigits] at hcall
  exact hcall

lemma printed_letter (hc : c.isAlpha = true) :
    (if Char.ofNat ((BitVec.ofNat 32 c.toNat).toNat % 256) ≠ '\x00' then
      Call.putChar (Char.ofNat ((BitVec.ofNat 32 c.toNat).toNat % 256)) else .nothing).text =
      [c] := by
  have hlt : c.toNat < 128 := by
    simp only [Char.isAlpha, Char.isUpper, Char.isLower, Bool.or_eq_true, Bool.and_eq_true,
      decide_eq_true_eq, ge_iff_le, UInt32.le_iff_toNat_le] at hc
    have hZ : 'Z'.val.toNat = 90 := rfl
    have hz : 'z'.val.toNat = 122 := rfl
    change c.val.toNat < 128
    omega
  have hvalue : Char.ofNat ((BitVec.ofNat 32 c.toNat).toNat % 256) = c := by
    rw [BitVec.toNat_ofNat, Nat.mod_eq_of_lt (a := c.toNat) (by omega), Nat.mod_eq_of_lt (by omega),
      Char.ofNat_toNat]
  have hne : c ≠ '\x00' := by
    rintro rfl
    exact absurd hc (by decide)
  rw [hvalue, if_pos hne]
  rfl

lemma printed_float (hd : |d| ≤ (42949672 : ℕ)) :
    (Call.printFloat { printLimit := 2 } d 'f').text = decimalText 0 2 d := by
  apply printFloat_text 0 (by decide)
  have hmax : (42949672 * 10 ^ 2 : ℚ) ≤ (llongMax / 10 : ℕ) := by norm_num [llongMax]
  push_cast at hd
  linarith

/-- What a grid needs for its parameters to be printed in full. -/
structure Writable (g : GridDefinition) : Prop where
  moderate : g.Moderate
  letters (axis : Fin 2) : (g.letters axis).isAlpha = true
  nums (axis : Fin 2) : g.nums axis < 2 ^ 31

lemma length_count (hn : n < 2 ^ 31) : (Nat.toDigits 10 n).length ≤ 10 :=
  (Nat.length_toDigits_le_iff (by decide) (by decide)).mpr (by omega)

lemma Writable.length (h : g.Writable) : (parametersText g).length ≤ 120 := by
  obtain ⟨⟨hlengths, hradius⟩, -, hnums⟩ := h
  have hmin0 := length_decimalText (hlengths 0).1
  have hmin1 := length_decimalText (hlengths 1).1
  have hmax0 := length_decimalText (hlengths 0).2.1
  have hmax1 := length_decimalText (hlengths 1).2.1
  have hspacing0 := length_decimalText (hlengths 0).2.2
  have hspacing1 := length_decimalText (hlengths 1).2.2
  have hradius := length_decimalText hradius
  have hnum0 := length_count (hnums 0)
  have hnum1 := length_count (hnums 1)
  simp only [parametersText, List.length_cons, List.length_append]
  omega

lemma isAlpha_safe (hc : c.isAlpha = true) : c ≠ '\x00' ∧ isLineEnd c = false := by
  refine ⟨?_, ?_⟩
  · rintro rfl
    exact absurd hc (by decide)
  · rw [isLineEnd, decide_eq_false_iff_not]
    rintro (rfl | rfl)
    · exact absurd hc (by decide)
    · exact absurd hc (by decide)

lemma isNumeral_safe (hc : isNumeral c = true) : c ≠ '\x00' ∧ isLineEnd c = false := by
  refine ⟨?_, ?_⟩
  · rintro rfl
    exact absurd hc (by decide)
  · rw [isLineEnd, decide_eq_false_iff_not]
    rintro (rfl | rfl)
    · exact absurd hc (by decide)
    · exact absurd hc (by decide)

/-- A text within one line. -/
def OneLine (s : List Char) : Prop := ∀ c ∈ s, c ≠ '\x00' ∧ isLineEnd c = false

instance (s : List Char) : Decidable (OneLine s) := List.decidableBAll _ s

lemma OneLine.append {s t : List Char} (hs : OneLine s) (ht : OneLine t) : OneLine (s ++ t) := by
  intro c hc
  obtain hc | hc := List.mem_append.mp hc
  · exact hs c hc
  · exact ht c hc

lemma OneLine.cons {s : List Char} (hc : c ≠ '\x00' ∧ isLineEnd c = false) (hs : OneLine s) :
    OneLine (c :: s) := by
  intro c' hc'
  obtain rfl | hc' := List.mem_cons.mp hc'
  · exact hc
  · exact hs c' hc'

lemma oneLine_decimalText (width k : ℕ) (d : ℚ) : OneLine (decimalText width k d) :=
  fun _ hc => isNumeral_safe (isNumeral_decimalText hc)

lemma oneLine_toDigits (n : ℕ) : OneLine (Nat.toDigits 10 n) := fun _ hc =>
  isNumeral_safe (isNumeral_digit (Nat.isDigit_of_mem_toDigits (by decide) (by decide) hc))

lemma Writable.oneLine (h : g.Writable) : OneLine (parametersText g) := by
  have hcomma : ',' ≠ '\x00' ∧ isLineEnd ',' = false := by decide
  rw [parametersText]
  apply OneLine.cons (isAlpha_safe (h.letters 0))
  apply OneLine.cons hcomma
  apply OneLine.cons (isAlpha_safe (h.letters 1))
  apply OneLine.cons hcomma
  iterate 7
    apply (oneLine_decimalText 0 2 _).append
    apply OneLine.cons hcomma
  exact (oneLine_toDigits _).append (OneLine.cons hcomma (oneLine_toDigits _))

/-- The line of the labels. -/
def labelLine : List Char :=
  "axis0,axis1,min0,max0,min1,max1,radius,spacing0,spacing1,num0,num1".toList

/-- What `%c` calls. -/
def charCall (c : Char) : Call :=
  if Char.ofNat ((BitVec.ofNat 32 c.toNat).toNat % 256) ≠ '\x00' then
    .putChar (Char.ofNat ((BitVec.ofNat 32 c.toNat).toNat % 256))
  else .nothing

/-- What `%.2f` and `%li` call. -/
def floatCall (d : ℚ) : Call := .printFloat { printLimit := 2 } d 'f'

def countCall (n : ℕ) : Call :=
  .printI { base := 10, printLimit := -1, letBase := 'a', isSigned := true, long32 := true }
    (BitVec.ofNat 32 n)

def parametersFormat : String := "%s\n%c,%c,%.2f,%.2f,%.2f,%.2f,%.2f,%.2f,%.2f,%li,%li\n"

def parametersArgs (g : GridDefinition) : List Arg :=
  [.string (heightMapLabelLines.getLast?.map String.toList), charArg (g.letters 0),
    charArg (g.letters 1), .double (g.mins 0), .double (g.maxs 0), .double (g.mins 1),
    .double (g.maxs 1), .double g.radius, .double (g.spacings 0), .double (g.spacings 1),
    .int (BitVec.ofNat 32 (g.nums 0)), .int (BitVec.ofNat 32 (g.nums 1))]

lemma formatText_parameters (g : GridDefinition) :
    formatText parametersFormat.toList.length parametersFormat.toList g.parametersArgs =
      labelLine ++ '\n' :: ((charCall (g.letters 0)).text ++
        ',' :: ((charCall (g.letters 1)).text ++
        ',' :: ((floatCall (g.mins 0)).text ++ ',' :: ((floatCall (g.maxs 0)).text ++
        ',' :: ((floatCall (g.mins 1)).text ++ ',' :: ((floatCall (g.maxs 1)).text ++
        ',' :: ((floatCall g.radius).text ++ ',' :: ((floatCall (g.spacings 0)).text ++
        ',' :: ((floatCall (g.spacings 1)).text ++ ',' :: ((countCall (g.nums 0)).text ++
        ',' :: ((countCall (g.nums 1)).text ++ ['\n']))))))))))) := by
  have hlabel : paddedText { isString := true } labelLine = labelLine := by decide +kernel
  rw [← hlabel]
  rfl

lemma writeHeadingAndParameters_eq (h : g.Writable) :
    g.writeHeadingAndParameters = labelLine ++ '\n' :: (parametersText g ++ ['\n']) := by
  have hlength := h.length
  have hline := h.oneLine
  obtain ⟨⟨hlengths, hradius⟩, hletters, hnums⟩ := h
  have htext := formatText_parameters g
  rw [charCall, printed_letter (hletters 0), charCall, printed_letter (hletters 1)] at htext
  simp only [floatCall, countCall, printed_float (hlengths _).1, printed_float (hlengths _).2.1,
    printed_float (hlengths _).2.2, printed_float hradius, printed_count (hnums _)] at htext
  have hall : labelLine ++ '\n' :: (parametersText g ++ ['\n']) =
      formatText parametersFormat.toList.length parametersFormat.toList g.parametersArgs := by
    rw [htext, parametersText]
    simp only [List.append_assoc, List.cons_append, List.nil_append]
  have hzero : '\x00' ∉ labelLine ++ '\n' :: (parametersText g ++ ['\n']) := by
    rw [List.mem_append, List.mem_cons, List.mem_append]
    rintro (hlabel | hnewline | hparameters | hend)
    · exact absurd hlabel (by decide)
    · exact absurd hnewline (by decide)
    · exact (hline _ hparameters).1 rfl
    · exact absurd hend (by decide)
  have hlabel : labelLine.length ≤ 100 := by decide
  have hwritten : g.writeHeadingAndParameters =
      stored (stringLength500 + 1) parametersFormat g.parametersArgs := rfl
  rw [hwritten, HeightMap.stored_eq, printed_eq, ← hall, shown_eq hzero, List.take_of_length_le]
  rw [List.length_append, List.length_cons, List.length_append, List.length_singleton,
    stringLength500]
  omega

end GridDefinition

/-! ### The comment in front -/

namespace HeightMap

open GridDefinition

/-- What `%04u` and `%02u` call. -/
def dateCall (width : ℕ) (i : BitVec 32) : Call :=
  .printI { base := 10, width := width, printLimit := -1, letBase := 'a', padZero := true } i

open RRFLibraries.IntegerFormatting in
lemma dateCall_text (width : ℕ) (i : BitVec 32) : (dateCall width i).text =
    List.replicate (width - (Nat.toDigits 10 i.toNat).length) '0' ++ Nat.toDigits 10 i.toNat := by
  let d : Directive := ⟨[.zero], width, none, .u⟩
  let v : Value := .int i
  have hdigits : d.digits v = Nat.toDigits 10 i.toNat := List.map_id _
  have htext : d.standardText v =
      List.replicate (width - (Nat.toDigits 10 i.toNat).length) '0' ++
        Nat.toDigits 10 i.toNat := by
    rw [← hdigits]
    simp [d, Directive.standardText, Directive.standardSign, Directive.standardPrefix,
      Directive.standardDigits, Directive.has, Directive.minDigits, Directive.zeros,
      Conversion.isSigned]
  have hplain (k : ℕ) : (!d.zerosDespitePrecision k) = true := by
    rw [Directive.zerosDespitePrecision_iff]
    exact fun h => absurd h.2.2.1 (lt_irrefl 0)
  have houtput : d.numberOutput v = d.standardText v := by
    by_cases hzero : d.magnitude v = 0
    · exact (Directive.text_zero hzero).mpr (hplain 1)
    · exact (Directive.text_unsigned hzero rfl rfl rfl).mpr (hplain _)
  have hcall := Directive.call_text d v
  rw [houtput, htext] at hcall
  exact hcall

lemma dateCall_safe {width : ℕ} (hwidth : width ≤ 10) (i : BitVec 32) :
    (dateCall width i).text.length ≤ 10 ∧ OneLine (dateCall width i).text := by
  have hlength : (Nat.toDigits 10 i.toNat).length ≤ 10 := by
    rw [Nat.length_toDigits_le_iff (by decide) (by decide)]
    have hlt := i.isLt
    omega
  rw [dateCall_text]
  constructor
  · rw [List.length_append, List.length_replicate]
    omega
  · apply OneLine.append
    · intro c hc
      rw [List.eq_of_mem_replicate hc]
      decide
    · exact oneLine_toDigits _

lemma printed_date (a b c d e : BitVec 32) :
    (printed " generated at %04u-%02u-%02u %02u:%02u".toList
      [.int a, .int b, .int c, .int d, .int e]).length ≤ 70 ∧
    OneLine (printed " generated at %04u-%02u-%02u %02u:%02u".toList
      [.int a, .int b, .int c, .int d, .int e]) := by
  have htext : formatText " generated at %04u-%02u-%02u %02u:%02u".toList.length
      " generated at %04u-%02u-%02u %02u:%02u".toList
      [.int a, .int b, .int c, .int d, .int e] =
      " generated at ".toList ++ ((dateCall 4 a).text ++ '-' :: ((dateCall 2 b).text ++
        '-' :: ((dateCall 2 c).text ++ ' ' :: ((dateCall 2 d).text ++
        ':' :: ((dateCall 2 e).text ++ []))))) := rfl
  obtain ⟨ha, ha'⟩ := @dateCall_safe 4 (by decide) a
  obtain ⟨hb, hb'⟩ := @dateCall_safe 2 (by decide) b
  obtain ⟨hc, hc'⟩ := @dateCall_safe 2 (by decide) c
  obtain ⟨hd, hd'⟩ := @dateCall_safe 2 (by decide) d
  obtain ⟨he, he'⟩ := @dateCall_safe 2 (by decide) e
  have hstart : OneLine " generated at ".toList := by decide
  have hlength : " generated at ".toList.length = 14 := rfl
  have hall : OneLine (" generated at ".toList ++ ((dateCall 4 a).text ++
      '-' :: ((dateCall 2 b).text ++ '-' :: ((dateCall 2 c).text ++ ' ' :: ((dateCall 2 d).text ++
      ':' :: ((dateCall 2 e).text ++ [])))))) := by
    apply hstart.append
    apply ha'.append
    apply OneLine.cons (by decide)
    apply hb'.append
    apply OneLine.cons (by decide)
    apply hc'.append
    apply OneLine.cons (by decide)
    apply hd'.append
    apply OneLine.cons (by decide)
    exact he'.append fun c hc => absurd hc List.not_mem_nil
  rw [printed_eq, htext, shown_eq fun hzero => (hall _ hzero).1 rfl]
  refine ⟨?_, hall⟩
  simp only [List.length_append, List.length_cons, List.length_nil, hlength]
  omega

/-- What `%.3f` calls. -/
def errorCall (q : ℚ) : Call := .printFloat { printLimit := 3 } q 'f'

lemma isScientific_safe {c : Char} (hc : isScientific c = true) :
    c ≠ '\x00' ∧ isLineEnd c = false := by
  rw [isScientific, Bool.or_eq_true, Bool.or_eq_true, decide_eq_true_eq, decide_eq_true_eq] at hc
  obtain (hc | rfl) | rfl := hc
  · exact isNumeral_safe hc
  · decide
  · decide

lemma errorCall_safe {q : ℚ} (hq : |q| < 10 ^ 90) :
    (errorCall q).text.length ≤ 26 ∧ OneLine (errorCall q).text := by
  obtain ⟨hlength, hchars⟩ := @floatDigits_short { printLimit := 3 } rfl q hq
  have hdigits : OneLine (floatDigits { printLimit := 3 } 'f' q) :=
    fun c hc => isScientific_safe (hchars c hc)
  have htext : (errorCall q).text =
      signText (decide (q < 0)) ++ floatDigits { printLimit := 3 } 'f' q := by
    rw [errorCall, Call.text]
    have hplain (t : List Char) : paddedText { printLimit := 3 } t = t := by
      have h := paddedText_width 0 3 t
      rw [Nat.zero_sub] at h
      exact h
    cases decide (q < 0)
    · exact hplain _
    · exact hplain _
  rw [htext, List.length_append]
  have hsign : (signText (decide (q < 0))).length ≤ 1 ∧ OneLine (signText (decide (q < 0))) := by
    cases decide (q < 0)
    · exact ⟨Nat.zero_le _, fun c hc => absurd hc List.not_mem_nil⟩
    · exact ⟨le_rfl, fun c hc => by rw [List.mem_singleton.mp hc]; decide⟩
  exact ⟨by omega, hsign.2.append hdigits⟩

/-- The end of the comment. -/
lemma printed_errors {p q r t : ℚ} (hp : |p| < 10 ^ 90) (hq : |q| < 10 ^ 90) (hr : |r| < 10 ^ 90)
    (ht : |t| < 10 ^ 90) : ∃ s : List Char, s.length ≤ 160 ∧ OneLine s ∧
      printed ", min error %.3f, max error %.3f, mean %.3f, deviation %.3f\n".toList
        [.double p, .double q, .double r, .double t] = s ++ ['\n'] := by
  have htext :
      formatText ", min error %.3f, max error %.3f, mean %.3f, deviation %.3f\n".toList.length
        ", min error %.3f, max error %.3f, mean %.3f, deviation %.3f\n".toList
        [.double p, .double q, .double r, .double t] =
      ", min error ".toList ++ ((errorCall p).text ++ (", max error ".toList ++
        ((errorCall q).text ++ (", mean ".toList ++ ((errorCall r).text ++
        (", deviation ".toList ++ ((errorCall t).text ++ ['\n']))))))) := rfl
  obtain ⟨hp, hp'⟩ := errorCall_safe hp
  obtain ⟨hq, hq'⟩ := errorCall_safe hq
  obtain ⟨hr, hr'⟩ := errorCall_safe hr
  obtain ⟨ht, ht'⟩ := errorCall_safe ht
  have hlabels : OneLine ", min error ".toList ∧ OneLine ", max error ".toList ∧
      OneLine ", mean ".toList ∧ OneLine ", deviation ".toList := by
    decide
  refine ⟨", min error ".toList ++ ((errorCall p).text ++ (", max error ".toList ++
    ((errorCall q).text ++ (", mean ".toList ++ ((errorCall r).text ++
    (", deviation ".toList ++ (errorCall t).text)))))), ?_, ?_, ?_⟩
  · have hlengths : ", min error ".toList.length = 12 ∧ ", max error ".toList.length = 12 ∧
        ", mean ".toList.length = 7 ∧ ", deviation ".toList.length = 12 := by decide
    simp only [List.length_append, hlengths]
    omega
  · apply hlabels.1.append
    apply hp'.append
    apply hlabels.2.1.append
    apply hq'.append
    apply hlabels.2.2.1.append
    apply hr'.append
    exact hlabels.2.2.2.append ht'
  · rw [printed_eq, htext, shown_eq]
    · simp only [List.append_assoc]
    · simp only [List.mem_append, not_or]
      have hsafe {s : List Char} (hs : OneLine s) : '\x00' ∉ s := fun h => (hs _ h).1 rfl
      exact ⟨hsafe hlabels.1, hsafe hp', hsafe hlabels.2.1, hsafe hq', hsafe hlabels.2.2.1,
        hsafe hr', hsafe hlabels.2.2.2, hsafe ht', by decide⟩

/-- The range of the type `float`. -/
def FloatRange (q : ℚ) : Prop := |q| < 2 ^ 128

variable {map : HeightMap} {fastSqrtf : ℚ → ℚ} {zOffset bound : ℚ} {heights : List ℚ}

lemma sum_le_of_bounded (hbound : ∀ height ∈ heights, |height| ≤ bound) :
    |heights.sum| ≤ heights.length * bound := by
  induction heights with
  | nil => simp
  | cons height heights ih =>
    have hfirst := hbound height List.mem_cons_self
    have hrest := ih fun h hh => hbound h (List.mem_cons_of_mem _ hh)
    have htriangle := abs_add_le height heights.sum
    rw [List.sum_cons, List.length_cons, Nat.cast_succ, add_mul, one_mul]
    linarith

/-- An extreme value is the one at the start or one of the heights. -/
lemma foldl_mem (pick : ℚ → ℚ → Prop) [∀ p q, Decidable (pick p q)] (start : ℚ) :
    heights.foldl (fun extreme height => if pick extreme height then height else extreme) start ∈
      start :: heights := by
  induction heights generalizing start with
  | nil => exact List.mem_singleton_self _
  | cons height heights ih =>
    rw [List.foldl_cons]
    obtain h | h := List.mem_cons.mp (ih (if pick start height then height else start))
    · rw [h]
      split
      · exact List.mem_cons_of_mem _ List.mem_cons_self
      · exact List.mem_cons_self
    · exact List.mem_cons_of_mem _ (List.mem_cons_of_mem _ h)

/-- The numbers of the comment are not too long. -/
lemma statistics_bounded (hsmall : map.AllSmall zOffset) (hz : FloatRange zOffset)
    (hsqrt : ∀ q, FloatRange (fastSqrtf q)) :
    |(map.getStatistics fastSqrtf).minError + zOffset| < 10 ^ 90 ∧
      |(map.getStatistics fastSqrtf).maxError + zOffset| < 10 ^ 90 ∧
      |(map.getStatistics fastSqrtf).deviation.mean + zOffset| < 10 ^ 90 ∧
      |(map.getStatistics fastSqrtf).deviation.deviationFromMean| < 10 ^ 90 := by
  have hrange : (2 : ℚ) ^ 128 < 10 ^ 80 := by norm_num
  have hz' : |zOffset| < 10 ^ 80 := lt_trans hz hrange
  set heights := ((List.range map.grid.numPoints).filter (· ∈ map.gridHeightSet)).map
    map.gridHeights with hheights
  have hbounded : ∀ height ∈ heights, |height| ≤ 10 ^ 81 := by
    intro height hmem
    obtain ⟨k, hk, rfl⟩ := List.mem_map.mp hmem
    have hset : k ∈ map.gridHeightSet := of_decide_eq_true (List.mem_filter.mp hk).2
    have hentry : map.pointEntry zOffset k = some (map.gridHeights k + zOffset) := if_pos hset
    have hlow : |map.gridHeights k + zOffset| < 100 := hsmall k _ hentry
    have htriangle := abs_sub (map.gridHeights k + zOffset) zOffset
    rw [add_sub_cancel_right] at htriangle
    norm_num at hz' ⊢
    linarith
  have hextreme (pick : ℚ → ℚ → Prop) [∀ p q, Decidable (pick p q)] (start : ℚ)
      (hstart : |start| ≤ 10 ^ 81) : |heights.foldl (fun extreme height =>
        if pick extreme height then height else extreme) start + zOffset| < 10 ^ 90 := by
    have hmem := @foldl_mem heights pick _ start
    have hle : |heights.foldl (fun extreme height => if pick extreme height then height
        else extreme) start| ≤ 10 ^ 81 := by
      obtain h | h := List.mem_cons.mp hmem
      · rw [h]
        exact hstart
      · exact hbounded _ h
    have htriangle := abs_add_le (heights.foldl (fun extreme height =>
      if pick extreme height then height else extreme) start) zOffset
    norm_num at hle hz' ⊢
    linarith
  refine ⟨?_, ?_, ?_, ?_⟩
  · exact hextreme (fun minError height => height < minError) 9999 (by norm_num)
  · exact hextreme (fun maxError height => maxError < height) (-9999) (by norm_num)
  · change |(Deviation.set fastSqrtf _ heights.sum heights.length).mean + zOffset| < _
    have hmean : |(Deviation.set fastSqrtf (heights.map (· ^ 2)).sum heights.sum
        heights.length).mean| ≤ 10 ^ 81 := by
      rw [Deviation.set]
      split
      · norm_num
      · next hcount =>
        have hpos : (0 : ℚ) < heights.length := by
          exact_mod_cast Nat.pos_of_ne_zero hcount
        have hsum := sum_le_of_bounded hbounded
        change |heights.sum / heights.length| ≤ _
        rw [abs_div, abs_of_pos hpos, div_le_iff₀ hpos, mul_comm]
        exact hsum
    have htriangle := abs_add_le (Deviation.set fastSqrtf (heights.map (· ^ 2)).sum heights.sum
      heights.length).mean zOffset
    have hroom : (10 : ℚ) ^ 81 + 10 ^ 80 < 10 ^ 90 := by norm_num
    exact htriangle.trans_lt (by linarith)
  · change |(Deviation.set fastSqrtf (heights.map (· ^ 2)).sum heights.sum
      heights.length).deviationFromMean| < _
    rw [Deviation.set]
    split
    · norm_num
    · dsimp only
      split
      · norm_num
      · exact (hsqrt _).trans (by norm_num)

/-- The comment is one line, which begins with the version. -/
lemma headerComment_eq (hsmall : map.AllSmall zOffset) (hz : FloatRange zOffset)
    (hsqrt : ∀ q, FloatRange (fastSqrtf q)) (timeInfo : Option TimeInfo) :
    ∃ s : List Char, s.length ≤ 300 ∧ OneLine s ∧ heightMapComment.toList.isPrefixOf s = true ∧
      map.headerComment fastSqrtf timeInfo zOffset = s ++ ['\n'] := by
  obtain ⟨hmin, hmax, hmean, hdeviation⟩ := statistics_bounded hsmall hz hsqrt
  obtain ⟨errors, herrors, herrors', hprinted⟩ := printed_errors hmin hmax hmean hdeviation
  have hcomment : OneLine heightMapComment.toList ∧ heightMapComment.toList.length = 33 := by
    decide
  have hcopy : copy heightMapComment.toList = heightMapComment.toList := by decide
  have hend {buf : List Char} (hbuf : buf.length ≤ 110) :
      catf buf ", min error %.3f, max error %.3f, mean %.3f, deviation %.3f\n"
        [.double ((map.getStatistics fastSqrtf).minError + zOffset),
          .double ((map.getStatistics fastSqrtf).maxError + zOffset),
          .double ((map.getStatistics fastSqrtf).deviation.mean + zOffset),
          .double (map.getStatistics fastSqrtf).deviation.deviationFromMean] =
        buf ++ (errors ++ ['\n']) := by
    rw [catf_eq, hprinted]
    rw [hprinted, List.length_append, List.length_append, List.length_singleton, stringLength500]
    omega
  have hstart (t : List Char) : heightMapComment.toList.isPrefixOf
      (heightMapComment.toList ++ t) = true :=
    List.isPrefixOf_iff_prefix.mpr (List.prefix_append _ _)
  cases timeInfo with
  | none =>
    refine ⟨heightMapComment.toList ++ errors, ?_, hcomment.1.append herrors', hstart _, ?_⟩
    · rw [List.length_append]
      omega
    · rw [headerComment, hcopy]
      exact (hend (by omega)).trans (List.append_assoc _ _ _).symm
  | some time =>
    obtain ⟨hdate, hdate'⟩ := printed_date (time.tmYear + 1900) (time.tmMon + 1) time.tmMday
      time.tmHour time.tmMin
    have hbuf : catf heightMapComment.toList " generated at %04u-%02u-%02u %02u:%02u"
        [.int (time.tmYear + 1900), .int (time.tmMon + 1), .int time.tmMday, .int time.tmHour,
          .int time.tmMin] = _ := catf_eq _ _ _ (by
      rw [List.length_append, stringLength500]
      omega)
    refine ⟨_, ?_, (hcomment.1.append hdate').append herrors', ?_, ?_⟩
    · rw [List.length_append, List.length_append]
      omega
    · rw [List.append_assoc]
      exact hstart _
    · rw [headerComment, hcopy, hbuf, hend (by rw [List.length_append]; omega), ← List.append_assoc]

end HeightMap

end RepRapFirmware.Movement.BedProbing
