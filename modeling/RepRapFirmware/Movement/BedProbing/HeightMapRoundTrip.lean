import Mathlib
import RepRapFirmware.Movement.BedProbing.SaveHeightMap

/-! When a height map that is saved and loaded again is the same. -/

namespace RepRapFirmware.Movement.BedProbing

open Library.TextLines RRFLibraries.FixedPoint RRFLibraries.NumericConverters
open RRFLibraries.SafeVsnprintf Storage.ReadLine

/-! ### The header -/

namespace GridDefinition

/-- The grid with its parameters rounded, as they are read. -/
def reread (g : GridDefinition) : GridDefinition :=
  { undefined with
    letters := ![g.letters 0, g.letters 1]
    mins := ![rounded 2 (g.mins 0), rounded 2 (g.mins 1)]
    maxs := ![rounded 2 (g.maxs 0), rounded 2 (g.maxs 1)]
    radius := rounded 2 g.radius
    spacings := ![rounded 2 (g.spacings 0), rounded 2 (g.spacings 1)]
    nums := ![g.nums 0, g.nums 1] }

variable {m : Machine} {g : GridDefinition} {d : ℚ} {rest : List Char}

lemma stops_comma (rest : List Char) : Stops (',' :: rest) := by
  rintro c ⟨⟩
  rfl

lemma readNumber_eq (hd : |d| ≤ (42949672 : ℕ)) (rest : List Char) :
    readNumber (decimalText 0 2 d ++ ',' :: rest) = some (rounded 2 d, rest) := by
  have hscaled : scaled 2 d ≤ uint32Max := (scaled_le hd).trans (by decide)
  rw [readNumber, safeStrtof_decimal hscaled (stops_comma rest)]
  rfl

lemma readNums_eq {num0 num1 : ℕ} (h0 : num0 < 2 ^ 31) (h1 : num1 < 2 ^ 31) :
    readNums (Nat.toDigits 10 num0 ++ ',' :: Nat.toDigits 10 num1) = some ![num0, num1] := by
  have hle {n : ℕ} (hn : n < 2 ^ 31) : n ≤ uint32Max := by
    rw [uint32Max]
    omega
  have hlast : strToU32 (Nat.toDigits 10 num1) = some (num1, []) := by
    have h := strToU32_integer (hle h1) (show Stops [] from fun c hc => by cases hc)
    rwa [List.append_nil] at h
  rw [readNums, strToU32_integer (hle h0) (stops_comma _)]
  change (strToU32 (Nat.toDigits 10 num1)).map _ = _
  rw [hlast]
  rfl

lemma parseParameters_eq (h : g.Writable) :
    parseParameters (parametersText g) 2 = some (reread g) := by
  obtain ⟨⟨hlengths, hradius⟩, -, hnums⟩ := h
  have hletters (rest : List Char) :
      readLetters 2 (g.letters 0 :: ',' :: g.letters 1 :: ',' :: rest) =
      some (![g.letters 0, g.letters 1], rest) := rfl
  have hspacings (rest : List Char) : readSpacings 2 (decimalText 0 2 (g.spacings 0) ++
      ',' :: (decimalText 0 2 (g.spacings 1) ++ ',' :: rest)) =
      some (![rounded 2 (g.spacings 0), rounded 2 (g.spacings 1)], rest) := by
    rw [readSpacings, readNumber_eq (hlengths 0).2.2, Option.bind_some]
    change (readNumber (decimalText 0 2 (g.spacings 1) ++ ',' :: rest)).map _ = _
    rw [readNumber_eq (hlengths 1).2.2]
    rfl
  simp only [parseParameters, parametersText, Option.bind_eq_bind, hletters, Option.bind_some,
    readNumber_eq (hlengths _).1, readNumber_eq (hlengths _).2.1, readNumber_eq hradius,
    hspacings, readNums_eq (hnums 0) (hnums 1)]
  rfl

/-! ### The rounded grid is valid -/

lemma rounded_add_one (d : ℚ) : rounded 2 (d + 1) = rounded 2 d + 1 := by
  have hshift : (d + 1) * 10 ^ 2 = d * 10 ^ 2 + ((2 * 50 : ℤ) : ℚ) := by
    push_cast
    ring
  rw [rounded_llrint, rounded_llrint, hshift, llrint_add_even]
  push_cast
  ring

lemma rounded_range {p q : ℚ} (h : 1 ≤ q - p) : 1 ≤ rounded 2 q - rounded 2 p := by
  have hmono := rounded_mono 2 (show p + 1 ≤ q by linarith)
  rw [rounded_add_one] at hmono
  linarith

lemma rounded_spacing (h : 1 / 10 ≤ d) : 1 / 10 ≤ rounded 2 d := by
  have hvalue : rounded 2 (1 / 10) = 1 / 10 := by decide +kernel
  rw [← hvalue]
  exact rounded_mono 2 h

/-- A radius that is set, or one that is still negative when it is rounded. -/
def RadiusKept (radius : ℚ) : Prop := radius < -1 / 200 ∨ 1 ≤ radius

instance (radius : ℚ) : Decidable (RadiusKept radius) := inferInstanceAs (Decidable (_ ∨ _))

lemma rounded_radius_low (h : d < -1 / 200) : rounded 2 d < 0 := by
  have hclose := llrint_close (d * 10 ^ 2)
  have hscaled : d * 10 ^ 2 < -1 / 2 := by
    norm_num
    linarith
  have hneg : (llrint (d * 10 ^ 2) : ℚ) < 0 := by
    have hsum := add_lt_add_of_le_of_lt (abs_le.mp hclose).2 hscaled
    norm_num at hsum ⊢
    exact hsum
  rw [rounded_llrint]
  exact div_neg_of_neg_of_pos hneg (by norm_num)

lemma rounded_radius_zero (hlow : -1 / 200 ≤ d) (hneg : d < 0) : rounded 2 d = 0 := by
  have hmono := llrint_mono (show -1 / 2 ≤ d * 10 ^ 2 by linarith)
  have hvalue : llrint (-1 / 2) = 0 := by decide +kernel
  have hmono' := llrint_mono (show d * 10 ^ 2 ≤ ((0 : ℤ) : ℚ) by push_cast; linarith)
  rw [llrint_intCast] at hmono'
  have hzero : llrint (d * 10 ^ 2) = 0 := by omega
  rw [rounded_llrint, hzero, Int.cast_zero, zero_div]

lemma rounded_radius_high (h : 1 ≤ d) : 1 ≤ rounded 2 d := by
  have hvalue : rounded 2 1 = 1 := by decide +kernel
  rw [← hvalue]
  exact rounded_mono 2 h

lemma radiusKept_iff (h : d < 0 ∨ 1 ≤ d) :
    (rounded 2 d < 0 ∨ 1 ≤ rounded 2 d) ↔ RadiusKept d := by
  constructor
  · intro hrounded
    obtain hneg | hpos := h
    · by_contra hnot
      have hzero := rounded_radius_zero (not_lt.mp fun hlow => hnot (Or.inl hlow)) hneg
      rw [hzero] at hrounded
      norm_num at hrounded
    · exact Or.inr hpos
  · rintro (hlow | hhigh)
    · exact Or.inl (rounded_radius_low hlow)
    · exact Or.inr (rounded_radius_high hhigh)

/-- The grid that is accepted again, with what is derived from its parameters. -/
def loadedGrid (m : Machine) (g : GridDefinition) : GridDefinition :=
  { reread g with
    isValid := true
    axisNumbers := ![m.getAxisNumberForLetter (g.letters 0),
      m.getAxisNumberForLetter (g.letters 1)]
    recipAxisSpacings := fun axis => 1 / (reread g).spacings axis }

lemma checkValidity_reread (h : Valid m g) : checkValidity m false (reread g) =
    if rounded 2 g.radius < 0 ∨ 1 ≤ rounded 2 g.radius then loadedGrid m g
    else { reread g with isValid := false } := by
  have hsmall : ¬ ((reread g).maxs 0 - (reread g).mins 0 < minRange ∨
      (reread g).spacings 0 < minSpacing ∨ (reread g).maxs 1 - (reread g).mins 1 < minRange ∨
      (reread g).spacings 1 < minSpacing) := by
    simp only [not_or, not_lt, minRange, minSpacing]
    exact ⟨rounded_range (h.range 0), rounded_spacing (h.spacing 0), rounded_range (h.range 1),
      rounded_spacing (h.spacing 1)⟩
  rw [checkValidity, if_neg hsmall]
  change checkPoints m (reread g) = _
  rw [checkPoints]
  have hall : ((reread g).numPoints ≠ 0 ∧ (reread g).numPoints ≤ m.board.maxGridProbePoints ∧
      ((reread g).radius < 0 ∨ 1 ≤ (reread g).radius) ∧ (reread g).nums 0 ≤ maxAxis0GridPoints ∧
      (reread g).letters 0 ≠ (reread g).letters 1 ∧
      m.getAxisNumberForLetter ((reread g).letters 0) < m.numVisibleAxes ∧
      m.getAxisNumberForLetter ((reread g).letters 1) < m.numVisibleAxes) ↔
      (rounded 2 g.radius < 0 ∨ 1 ≤ rounded 2 g.radius) :=
    ⟨fun hchecked => hchecked.2.2.1, fun hradius =>
      ⟨h.points_pos, h.points_le, hradius, h.nums_le, h.letters, h.visible 0, h.visible 1⟩⟩
  by_cases hradius : rounded 2 g.radius < 0 ∨ 1 ≤ rounded 2 g.radius
  · rw [if_pos (hall.mpr hradius), if_pos hradius]
    rfl
  · rw [if_neg fun hchecked => hradius (hall.mp hchecked), if_neg hradius]

end GridDefinition

namespace HeightMap

open GridDefinition

variable {m : Machine} {map : HeightMap} {zOffset height : ℚ} {entry : Option ℚ}
  {entries : List (Option ℚ)} {f f' : FileStore} {line after rest : List Char} {n index : ℕ}

/-! ### Lines -/

lemma OneLine.free (h : OneLine line) : Free isLineEnd line := fun c hc => (h c hc).2

lemma takeWhile_oneLine (h : OneLine line) : line.takeWhile (fun c => c ≠ '\x00') = line :=
  List.takeWhile_eq_self_iff.mpr fun c hc => decide_eq_true (h c hc).1

/-- A line that fits in the buffer is read at once. -/
lemma readText_line (hline : OneLine line) (hne : line ≠ []) (hlength : line.length ≤ maxLineLength)
    (hunread : f.unread = line ++ '\n' :: after) :
    ∃ f', readText f = some (line, f') ∧ f'.unread = after := by
  have hfollows : Follows line .lf after := trivial
  obtain ⟨f', hread, hrest⟩ := readLine_short (OneLine.free hline) hfollows
    (Nat.lt_succ_of_le hlength) hunread
  refine ⟨f', ?_, ?_⟩
  · rw [readText, hread]
    dsimp only
    rw [if_neg hne, takeWhile_oneLine hline]
  · rw [hrest, if_neg]
    exact fun h => by cases h.1

/-- A longer line is cut. -/
lemma readText_long (hline : OneLine line) (hlength : maxLineLength < line.length)
    (hunread : f.unread = line ++ '\n' :: after) :
    ∃ f', readText f = some (line.take maxLineLength, f') ∧
      f'.unread = line.drop maxLineLength ++ '\n' :: after := by
  obtain ⟨f', hread, hrest⟩ := readLine_long (n := maxLineLength + 1) (by decide)
    (OneLine.free hline) hlength hunread
  have htake : OneLine (line.take maxLineLength) := fun c hc => hline c (List.mem_of_mem_take hc)
  have hne : line.take maxLineLength ≠ [] := by
    apply List.ne_nil_of_length_pos
    rw [List.length_take, min_eq_left hlength.le]
    decide
  refine ⟨f', ?_, hrest⟩
  rw [readText, hread]
  change (if line.take maxLineLength = [] then none else
    some ((line.take maxLineLength).takeWhile fun c => c ≠ '\x00', f')) = _
  rw [if_neg hne, takeWhile_oneLine htake]

/-! ### The header is read -/

lemma checkHeading_labelLine : checkHeading labelLine = some 2 := by decide +kernel

/-- The comment, the labels and the parameters in front of the rows. -/
lemma readHeader_eq (hvalid : Valid m map.grid) (hwritable : map.grid.Writable)
    {comment : List Char} (hcomment : OneLine comment) (hlength : comment.length ≤ 300)
    (hversion : heightMapComment.toList.isPrefixOf comment = true)
    (hunread : f.unread = comment ++ '\n' :: (labelLine ++ '\n' :: (parametersText map.grid ++
      '\n' :: rest))) :
    ∃ f', f'.unread = rest ∧ readHeader m f =
      if RadiusKept map.grid.radius then .ok (loadedGrid m map.grid, f')
      else .error "invalid grid" := by
  have hne : comment ≠ [] := by
    rintro rfl
    exact absurd hversion (by decide)
  have hlabel : OneLine labelLine := by decide
  have hparameters : parametersText map.grid ≠ [] := List.cons_ne_nil _ _
  obtain ⟨f₁, hread₁, hunread₁⟩ := readText_line hcomment hne (hlength.trans (by decide)) hunread
  obtain ⟨f₂, hread₂, hunread₂⟩ := readText_line hlabel (by decide) (by decide) hunread₁
  obtain ⟨f₃, hread₃, hunread₃⟩ := readText_line hwritable.oneLine hparameters
    (hwritable.length.trans (by decide)) hunread₂
  have hgrid : readParameters m (parametersText map.grid) 2 =
      some (if RadiusKept map.grid.radius then loadedGrid m map.grid
        else { reread map.grid with isValid := false }) := by
    rw [readParameters, parseParameters_eq hwritable, Option.map_some, checkValidity_reread hvalid]
    have hiff := radiusKept_iff hvalid.radius
    by_cases hradius : RadiusKept map.grid.radius
    · rw [if_pos (hiff.mpr hradius), if_pos hradius]
    · rw [if_neg fun h => hradius (hiff.mp h), if_neg hradius]
  refine ⟨f₃, hunread₃, ?_⟩
  rw [readHeader, hread₁]
  dsimp only
  rw [hversion, hread₂]
  dsimp only
  rw [if_neg (show ¬ (!true) = true by decide), checkHeading_labelLine]
  dsimp only
  rw [hread₃]
  dsimp only
  rw [hgrid]
  dsimp only
  by_cases hradius : RadiusKept map.grid.radius
  · rw [if_pos hradius, if_pos hradius]
    rfl
  · rw [if_neg hradius, if_neg hradius]
    rfl

/-! ### The rows are read -/

/-- What is read of an entry. -/
def reentry (entry : Option ℚ) : Option ℚ := entry.map (rounded 3)

lemma scaled_height (hsmall : |height| < 100) : scaled 3 height ≤ uint32Max :=
  (@scaled_le 3 100 height hsmall.le).trans (by decide)

lemma skipComma_stops (hrest : Stops rest) : skipComma rest = rest.tail := by
  cases rest with
  | nil => rfl
  | cons c s =>
    have hc : c = ',' := hrest c rfl
    subst hc
    rfl

/-- The field of a number in front of its first character that is not blank. -/
lemma dropWhile_decimal {s : List Char} (blanks : ℕ) (isNegative : Bool) (hs : ∃ t < 10, ∃ s',
    s = Nat.digitChar t :: s') :
    (List.replicate blanks ' ' ++ (signText isNegative ++ s)).dropWhile isBlank =
      signText isNegative ++ s := by
  obtain ⟨t, ht, s', rfl⟩ := hs
  rw [dropWhile_spaces]
  cases isNegative
  · have hblank : isBlank (Nat.digitChar t) = false := by interval_cases t <;> decide
    rw [signText, if_neg Bool.false_ne_true, List.nil_append,
      List.dropWhile_cons_of_neg (by rw [hblank]; exact Bool.false_ne_true)]
  · rfl

lemma readEntry_of_number {p q : List Char} {value : ℚ} (hdrop : p.dropWhile isBlank = q)
    (hnumber : ¬ (q.head? = some '0' ∧ (q.tail.head? = some ',' ∨ q.tail = [])))
    (hread : safeStrtof q = some (value, rest)) (hrest : Stops rest) :
    readEntry p = some (some value, rest.tail) := by
  rw [readEntry]
  dsimp only
  rw [hdrop, if_neg hnumber, hread, Option.map_some, skipComma_stops hrest]

lemma head_fixedText (k u : ℕ) (rest : List Char) : ∃ t < 10, ∃ c s, isNumeral c = true ∧
    fixedText k u ++ rest = Nat.digitChar t :: c :: s := by
  obtain ⟨t, ht, s', hs⟩ := head_integer (u / 10 ^ k) ('.' :: lowDigits k u)
  have hlength := length_fixedText k u
  have hchars : ∀ c ∈ fixedText k u, isNumeral c = true := fun c hc => isNumeral_fixedText hc
  change fixedText k u = _ at hs
  rw [hs, List.length_cons] at hlength
  have hpos : (Nat.toDigits 10 (u / 10 ^ k)).length ≠ 0 := by
    rw [ne_eq, List.length_eq_zero_iff]
    exact Nat.toDigits_ne_nil
  cases s' with
  | nil =>
    rw [List.length_nil] at hlength
    omega
  | cons c s' =>
    refine ⟨t, ht, c, s' ++ rest, hchars c ?_, ?_⟩
    · rw [hs]
      exact List.mem_cons_of_mem _ List.mem_cons_self
    · rw [hs, List.cons_append, List.cons_append]

/-- A number with a point is not taken for the mark of a missing point. -/
lemma readEntry_fixed {k u : ℕ} (hu : u ≤ uint32Max) (hrest : Stops rest) (blanks : ℕ)
    (isNegative : Bool) :
    readEntry (List.replicate blanks ' ' ++ (signText isNegative ++ (fixedText k u ++ rest))) =
      some (some (if isNegative then -((u : ℚ) / 10 ^ k) else (u : ℚ) / 10 ^ k), rest.tail) := by
  obtain ⟨t, ht, c, s, hc, htext⟩ := head_fixedText k u rest
  apply readEntry_of_number (dropWhile_decimal blanks isNegative ⟨t, ht, _, htext⟩) _ _ hrest
  · rw [htext]
    cases isNegative
    · rintro ⟨-, hcomma | hnil⟩
      · rw [Option.some.inj hcomma] at hc
        exact absurd hc (by decide)
      · exact absurd hnil (List.cons_ne_nil _ _)
    · exact fun h => absurd (show some '-' = some '0' from h.1) (by decide)
  · exact safeStrtof_fixed hu hrest 0 isNegative

lemma readEntry_cell (hsmall : Small entry) (hrest : Stops rest) :
    readEntry (cell entry ++ rest) = some (reentry entry, rest.tail) := by
  cases entry with
  | none =>
    have hdrop : (cell none ++ rest).dropWhile isBlank = '0' :: rest := rfl
    have hmissing : ('0' :: rest).head? = some '0' ∧
        (('0' :: rest).tail.head? = some ',' ∨ ('0' :: rest).tail = []) := by
      refine ⟨rfl, ?_⟩
      cases rest with
      | nil => exact Or.inr rfl
      | cons c s => exact Or.inl (congrArg some (hrest c rfl))
    rw [readEntry]
    dsimp only
    rw [hdrop, if_pos hmissing, List.tail_cons, skipComma_stops hrest]
    rfl
  | some height =>
    have hscaled := scaled_height (hsmall height rfl)
    rw [cell, decimalText, List.append_assoc, List.append_assoc, readEntry_fixed hscaled hrest,
      ← rounded_eq]
    rfl

/-- The fields of a row are read one after the other. -/
lemma rowEntries_eq (hsmall : ∀ entry ∈ entries, Small entry) :
    rowEntries entries.length (rowText entries) = some (entries.map reentry) := by
  induction entries with
  | nil => rfl
  | cons entry entries ih =>
    have hfirst := hsmall entry List.mem_cons_self
    have hrest := ih fun e he => hsmall e (List.mem_cons_of_mem _ he)
    have hstops : Stops (moreText entries) := by
      cases entries with
      | nil => exact fun c hc => nomatch hc
      | cons next entries => exact stops_comma _
    have htail : (moreText entries).tail = rowText entries := by
      cases entries with
      | nil => rfl
      | cons next entries => rw [moreText, List.tail_cons, rowText_cons]
    rw [rowText_cons, List.length_cons, rowEntries, readEntry_cell hfirst hstops, Option.bind_some]
    dsimp only
    rw [htail, hrest]
    rfl

lemma oneLine_cell (entry : Option ℚ) : OneLine (cell entry) :=
  fun _ hc => isNumeral_safe (isNumeral_cell hc)

lemma oneLine_rowText (entries : List (Option ℚ)) : OneLine (rowText entries) := by
  induction entries with
  | nil => exact fun c hc => absurd hc List.not_mem_nil
  | cons entry entries ih =>
    cases entries with
    | nil => exact oneLine_cell entry
    | cons next entries => exact (oneLine_cell entry).append (ih.cons (by decide))

lemma rowText_ne_nil (hsmall : map.AllSmall zOffset) (hn : 0 < n) (index : ℕ) :
    rowText (map.entriesFrom zOffset index n) ≠ [] := by
  have hlength := length_row hsmall hn index
  apply List.ne_nil_of_length_pos
  omega

lemma entriesFrom_add (index n k : ℕ) : map.entriesFrom zOffset index (n + k) =
    map.entriesFrom zOffset index n ++ map.entriesFrom zOffset (index + n) k := by
  rw [entriesFrom, ← List.range'_append_1, List.map_append]
  rfl

/-! ### Fields that are cut -/

lemma readEntry_blanks (blanks : ℕ) : readEntry (List.replicate blanks ' ') = none := by
  have hdrop : (List.replicate blanks ' ').dropWhile isBlank = [] := by
    rw [← List.append_nil (List.replicate blanks ' '), dropWhile_spaces]
    rfl
  rw [readEntry]
  dsimp only
  rw [hdrop]
  rfl

lemma readEntry_sign (blanks : ℕ) (isNegative : Bool) :
    readEntry (List.replicate blanks ' ' ++ signText isNegative) = none := by
  cases isNegative
  · rw [signText, if_neg Bool.false_ne_true, List.append_nil]
    exact readEntry_blanks blanks
  · have hdrop : (List.replicate blanks ' ' ++ signText true).dropWhile isBlank = ['-'] := by
      rw [dropWhile_spaces]
      rfl
    rw [readEntry]
    dsimp only
    rw [hdrop]
    rfl

/-- Neither the blanks nor the sign are a number. -/
lemma readEntry_front (blanks k : ℕ) (isNegative : Bool) :
    readEntry ((List.replicate blanks ' ' ++ signText isNegative).take k) = none := by
  have hsign : (signText isNegative).length ≤ 1 := by
    cases isNegative
    · exact Nat.zero_le _
    · exact le_rfl
  rcases Nat.lt_or_ge blanks k with hlt | hle
  · rw [List.take_of_length_le (by rw [List.length_append, List.length_replicate]; omega)]
    exact readEntry_sign blanks isNegative
  · rw [List.take_append_of_le_length (by rw [List.length_replicate]; exact hle),
      List.take_replicate]
    exact readEntry_blanks _

/-- A number without a point, which is taken for the mark of a missing point if it is `0`. -/
lemma readEntry_integer (hn : n ≤ uint32Max) (blanks : ℕ) (isNegative : Bool) :
    readEntry (List.replicate blanks ' ' ++ (signText isNegative ++ Nat.toDigits 10 n)) =
      some (if isNegative = false ∧ n = 0 then none
        else some (if isNegative then -(n : ℚ) else n), []) := by
  have hnil : Stops [] := fun c hc => nomatch hc
  obtain ⟨t, ht, s, hhead⟩ := head_integer n []
  rw [List.append_nil] at hhead
  have hdrop := dropWhile_decimal blanks isNegative ⟨t, ht, s, hhead⟩
  have hread := safeStrtof_integer hn hnil 0 isNegative
  rw [List.append_nil] at hread
  by_cases hzero : isNegative = false ∧ n = 0
  · obtain ⟨rfl, rfl⟩ := hzero
    rw [readEntry]
    dsimp only
    rw [hdrop]
    rfl
  · rw [if_neg hzero]
    apply readEntry_of_number hdrop _ hread hnil
    rintro ⟨hfirst, hsecond⟩
    cases isNegative
    · have hne : n ≠ 0 := fun h => hzero ⟨rfl, h⟩
      have hdigits : ∀ c ∈ Nat.toDigits 10 n, isNumeral c = true := fun c hc =>
        isNumeral_digit (Nat.isDigit_of_mem_toDigits (by decide) (by decide) hc)
      change (Nat.toDigits 10 n).head? = some '0' at hfirst
      change (Nat.toDigits 10 n).tail.head? = some ',' ∨ (Nat.toDigits 10 n).tail = [] at hsecond
      obtain ⟨t', s', ht', hlt, hhead'⟩ :=
        RRFLibraries.IntegerFormatting.Directive.head_toDigits (b := 10) (by decide) hne
      rw [hhead', List.head?_cons, Option.some.injEq] at hfirst
      interval_cases t'
      · exact ht' rfl
      all_goals exact absurd hfirst (by decide)
    · exact absurd (show some '-' = some '0' from hfirst) (by decide)

/-- What is read of a height whose field has lost its last characters. -/
def cutEntry (height : ℚ) (excess : ℕ) : Option (Option ℚ) :=
  let value := scaled 3 height
  if excess ≤ 3 then
    let digits : ℕ := value / 10 ^ excess
    let number := (digits : ℚ) / 10 ^ (3 - excess)
    some (some (if height < 0 then -number else number))
  else if excess - 4 < (Nat.toDigits 10 (value / 10 ^ 3)).length then
    let number : ℕ := value / 10 ^ 3 / 10 ^ (excess - 4)
    some (if 0 ≤ height ∧ number = 0 then none
      else some (if height < 0 then -(number : ℚ) else number))
  else none

lemma readEntry_cut (hsmall : |height| < 100) (excess : ℕ) :
    readEntry ((cell (some height)).take ((cell (some height)).length - excess)) =
      (cutEntry height excess).map fun entry => (entry, []) := by
  have hscaled := scaled_height hsmall
  have hnil : Stops [] := fun c hc => nomatch hc
  have hlength := length_fixedText 3 (scaled 3 height)
  rw [cell, decimalText]
  generalize 7 - (signText (decide (height < 0)) ++ fixedText 3 (scaled 3 height)).length = blanks
  have hall : List.replicate blanks ' ' ++ (signText (decide (height < 0)) ++
      fixedText 3 (scaled 3 height)) = (List.replicate blanks ' ' ++
      signText (decide (height < 0))) ++ fixedText 3 (scaled 3 height) :=
    (List.append_assoc _ _ _).symm
  rw [hall, List.length_append, cutEntry]
  have hinside (hle : excess ≤ (fixedText 3 (scaled 3 height)).length) :
      (List.replicate blanks ' ' ++ signText (decide (height < 0)) ++
        fixedText 3 (scaled 3 height)).take ((List.replicate blanks ' ' ++
          signText (decide (height < 0))).length + (fixedText 3 (scaled 3 height)).length -
            excess) = List.replicate blanks ' ' ++ (signText (decide (height < 0)) ++
        (fixedText 3 (scaled 3 height)).take
          ((fixedText 3 (scaled 3 height)).length - excess)) := by
    rw [Nat.add_sub_assoc hle, List.take_length_add_append, List.append_assoc]
  split
  · next hthree =>
    have hdiv : scaled 3 height / 10 ^ excess ≤ uint32Max := (Nat.div_le_self _ _).trans hscaled
    have hread := readEntry_fixed (k := 3 - excess) hdiv hnil blanks (decide (height < 0))
    rw [List.append_nil] at hread
    rw [hinside (by omega), take_fixedText hthree, hread]
    simp only [decide_eq_true_eq, Option.map_some, List.tail_nil]
  · next hthree =>
    split
    · next hfour =>
      have hdiv : scaled 3 height / 10 ^ 3 / 10 ^ (excess - 4) ≤ uint32Max :=
        ((Nat.div_le_self _ _).trans (Nat.div_le_self _ _)).trans hscaled
      have htake := take_fixedText_integer (k := 3) (u := scaled 3 height) hfour
      have hsum : 3 + 1 + (excess - 4) = excess := by omega
      rw [hsum] at htake
      rw [hinside (by omega), htake, readEntry_integer hdiv]
      simp only [decide_eq_true_eq, decide_eq_false_iff_not, not_lt, Option.map_some]
    · next hfour =>
      rw [List.take_append_of_le_length (by omega)]
      exact readEntry_front blanks _ _

/-- A field of a point that was not probed is nothing without its last character. -/
lemma readEntry_cut_none {excess : ℕ} (hpos : 0 < excess) :
    readEntry ((cell none).take ((cell none).length - excess)) = none := by
  have hcell : cell none = List.replicate 6 ' ' ++ ['0'] := rfl
  have hlength : (cell none).length = 7 := rfl
  rw [hlength, hcell, List.take_append_of_le_length (by rw [List.length_replicate]; omega),
    List.take_replicate]
  exact readEntry_blanks _

lemma readEntry_nil : readEntry [] = none := readEntry_blanks 0

/-- Nothing is left behind a field that is cut. -/
lemma readEntry_take (hsmall : Small entry) {k : ℕ} (hk : k ≤ (cell entry).length) :
    readEntry ((cell entry).take k) = none ∨
      ∃ found, readEntry ((cell entry).take k) = some (found, []) := by
  obtain ⟨excess, rfl⟩ : ∃ excess, k = (cell entry).length - excess :=
    ⟨(cell entry).length - k, by omega⟩
  cases entry with
  | none =>
    by_cases hpos : 0 < excess
    · exact Or.inl (readEntry_cut_none hpos)
    · have hzero : excess = 0 := by omega
      subst hzero
      exact Or.inr ⟨none, rfl⟩
  | some height =>
    rw [readEntry_cut (hsmall height rfl)]
    cases cutEntry height excess with
    | none => exact Or.inl rfl
    | some found => exact Or.inr ⟨found, rfl⟩

lemma rowText_split (entry : Option ℚ) (init : List (Option ℚ)) (last : Option ℚ) :
    rowText (entry :: (init ++ [last])) = cell entry ++ ',' :: rowText (init ++ [last]) := by
  cases init with
  | nil => rfl
  | cons next init => rfl

lemma length_cell_le_row (init : List (Option ℚ)) (last : Option ℚ) :
    (cell last).length ≤ (rowText (init ++ [last])).length := by
  induction init with
  | nil => exact le_rfl
  | cons entry init ih =>
    rw [List.cons_append, rowText_split, List.length_append, List.length_cons]
    omega

/-- A row that is cut is read if only its last field has lost characters. -/
lemma rowEntries_cut {init : List (Option ℚ)} {last : Option ℚ}
    (hsmall : ∀ entry ∈ init, Small entry) (excess : ℕ) :
    rowEntries (init.length + 1)
        ((rowText (init ++ [last])).take ((rowText (init ++ [last])).length - excess)) =
      if excess ≤ (cell last).length then
        (readEntry ((cell last).take ((cell last).length - excess))).map fun e =>
          init.map reentry ++ [e.1]
      else none := by
  induction init with
  | nil =>
    have hone (p : List Char) : rowEntries 1 p = (readEntry p).map fun e => [e.1] := by
      rw [rowEntries]
      cases readEntry p with
      | none => rfl
      | some found => rfl
    change rowEntries 1 ((cell last).take ((cell last).length - excess)) = _
    rw [hone]
    split
    · rfl
    · next hlarge =>
      have hzero : (cell last).length - excess = 0 := by omega
      rw [hzero, List.take_zero, readEntry_nil]
      rfl
  | cons entry init ih =>
    have hentry := hsmall entry List.mem_cons_self
    have hrest := ih fun e he => hsmall e (List.mem_cons_of_mem _ he)
    have hle := length_cell_le_row init last
    rw [List.cons_append, rowText_split, List.length_append, List.length_cons, List.length_cons,
      rowEntries]
    by_cases hinside : excess ≤ (rowText (init ++ [last])).length
    · have htake : (cell entry ++ ',' :: rowText (init ++ [last])).take ((cell entry).length +
          ((rowText (init ++ [last])).length + 1) - excess) = cell entry ++
          ',' :: (rowText (init ++ [last])).take ((rowText (init ++ [last])).length - excess) := by
        have hsum : (cell entry).length + ((rowText (init ++ [last])).length + 1) - excess =
            (cell entry).length + ((rowText (init ++ [last])).length - excess + 1) := by omega
        rw [hsum, List.take_length_add_append, List.take_succ_cons]
      rw [htake, readEntry_cell hentry (stops_comma _), Option.bind_some]
      dsimp only
      rw [List.tail_cons, hrest]
      split
      · cases readEntry ((cell last).take ((cell last).length - excess)) with
        | none => rfl
        | some found => rfl
      · rfl
    · have hcut : (cell entry).length + ((rowText (init ++ [last])).length + 1) - excess ≤
          (cell entry).length := by omega
      rw [if_neg (by omega), List.take_append_of_le_length hcut]
      obtain h | ⟨found, h⟩ := readEntry_take hentry hcut
      · rw [h]
        rfl
      · rw [h, Option.bind_some]
        dsimp only
        rw [rowEntries, readEntry_nil]
        rfl

/-! ### Heights that survive -/

/-- The point was probed, or not, like the saved one, and the heights are close. -/
def Close (entry found : Option ℚ) : Prop :=
  match entry, found with
  | none, none => True
  | some height, some number => |number - height| ≤ 1 / 2000
  | _, _ => False

lemma close_reentry (entry : Option ℚ) : Close entry (reentry entry) := by
  cases entry with
  | none => trivial
  | some height =>
    have h := rounded_close 3 height
    norm_num at h ⊢
    exact h

lemma close_some_iff {found : Option ℚ} : Close (some height) found ↔
    ∃ number, found = some number ∧ |number - height| ≤ 1 / 2000 := by
  cases found with
  | none => exact ⟨fun h => h.elim, fun h => nomatch h.choose_spec.1⟩
  | some number =>
    exact ⟨fun h => ⟨number, rfl, h⟩, fun ⟨_, h, hclose⟩ => Option.some.inj h ▸ hclose⟩

/-- Only zeros behind the point are lost, or all of them with the point, unless what is left is the
mark of a missing point. -/
def HarmlessCut (height : ℚ) (excess : ℕ) : Prop :=
  excess ≤ 3 ∧ 10 ^ excess ∣ scaled 3 height ∨
    excess = 4 ∧ 10 ^ 3 ∣ scaled 3 height ∧ ¬ (0 ≤ height ∧ scaled 3 height = 0)

/-- A number of fewer digits with the sign of the height. -/
lemma close_thousandths {value : ℕ} (heven : value % 2 = 0) (hle : value ≤ scaled 3 height) :
    |(if height < 0 then -((value : ℚ) / 10 ^ 3) else (value : ℚ) / 10 ^ 3) - height| ≤ 1 / 2000 ↔
      value = scaled 3 height := by
  have habs : |(if height < 0 then -((value : ℚ) / 10 ^ 3) else (value : ℚ) / 10 ^ 3) - height| =
      |(value : ℚ) - |height| * 10 ^ 3| / 10 ^ 3 := by
    have hthousand : |(10 : ℚ) ^ 3| = 10 ^ 3 := abs_of_pos (by norm_num)
    rw [← hthousand, ← abs_div, hthousand]
    split
    · next hneg =>
      rw [abs_of_neg hneg, ← abs_neg]
      congr 1
      field_simp
      ring
    · next hpos =>
      rw [abs_of_nonneg (not_lt.mp hpos)]
      congr 1
      field_simp
  rw [habs, div_le_iff₀ (by norm_num)]
  have hhalf : (1 : ℚ) / 2000 * 10 ^ 3 = 1 / 2 := by norm_num
  rw [hhalf]
  constructor
  · exact even_close heven hle
  · rintro rfl
    rw [scaled_cast]
    exact llrint_close _

lemma cutEntry_close {excess : ℕ} (hpos : 0 < excess) :
    (∃ found, cutEntry height excess = some found ∧ Close (some height) found) ↔
      HarmlessCut height excess := by
  have hdigits (a : ℕ) : 0 < (Nat.toDigits 10 a).length :=
    List.length_pos_of_ne_nil Nat.toDigits_ne_nil
  rw [cutEntry, HarmlessCut]
  dsimp only
  split
  · next hthree =>
    have heven : scaled 3 height / 10 ^ excess * 10 ^ excess % 2 = 0 := by
      obtain ⟨k, rfl⟩ : ∃ k, excess = k + 1 := ⟨excess - 1, by omega⟩
      rw [pow_succ, ← mul_assoc]
      omega
    have hvalue : ((scaled 3 height / 10 ^ excess : ℕ) : ℚ) / 10 ^ (3 - excess) =
        ((scaled 3 height / 10 ^ excess * 10 ^ excess : ℕ) : ℚ) / 10 ^ 3 := by
      have hsplit : (10 : ℚ) ^ 3 = 10 ^ (3 - excess) * 10 ^ excess := by
        rw [← pow_add, Nat.sub_add_cancel hthree]
      rw [hsplit, Nat.cast_mul, Nat.cast_pow, Nat.cast_ofNat,
        mul_div_mul_right _ _ (by positivity)]
    have hclose := close_thousandths heven (Nat.div_mul_le_self _ _)
    constructor
    · rintro ⟨found, hfound, h⟩
      obtain ⟨number, hnumber, h⟩ := close_some_iff.mp h
      rw [← Option.some.inj hfound] at hnumber
      rw [← Option.some.inj hnumber, hvalue, hclose] at h
      exact Or.inl ⟨hthree, Nat.dvd_of_mod_eq_zero (by
        have hdiv := Nat.div_add_mod' (scaled 3 height) (10 ^ excess)
        omega)⟩
    · rintro (⟨-, hdvd⟩ | ⟨rfl, -⟩)
      · refine ⟨_, rfl, close_some_iff.mpr ⟨_, rfl, ?_⟩⟩
        rw [hvalue, hclose]
        exact Nat.div_mul_cancel hdvd
      · omega
  · next hthree =>
    split
    · next hfour =>
      have heven : scaled 3 height / 10 ^ 3 / 10 ^ (excess - 4) * 10 ^ 3 % 2 = 0 := by omega
      have hle : scaled 3 height / 10 ^ 3 / 10 ^ (excess - 4) * 10 ^ 3 ≤ scaled 3 height :=
        (Nat.mul_le_mul_right _ (Nat.div_le_self _ _)).trans (Nat.div_mul_le_self _ _)
      have hvalue : ((scaled 3 height / 10 ^ 3 / 10 ^ (excess - 4) : ℕ) : ℚ) =
          ((scaled 3 height / 10 ^ 3 / 10 ^ (excess - 4) * 10 ^ 3 : ℕ) : ℚ) / 10 ^ 3 := by
        rw [Nat.cast_mul, Nat.cast_pow, Nat.cast_ofNat, mul_div_cancel_right₀ _ (by norm_num)]
      have hclose := close_thousandths heven hle
      constructor
      · rintro ⟨found, hfound, h⟩
        obtain ⟨number, hnumber, h⟩ := close_some_iff.mp h
        rw [← Option.some.inj hfound] at hnumber
        split at hnumber
        · exact nomatch hnumber
        · next hmark =>
          rw [← Option.some.inj hnumber, hvalue, hclose] at h
          have hexcess : excess = 4 := by
            by_contra hne
            have hsmaller : 10 ^ (excess - 4) ≤ scaled 3 height / 10 ^ 3 := by
              rw [← not_lt, ← Nat.length_toDigits_le_iff (by decide) (by omega)]
              omega
            have hten : 10 ≤ 10 ^ (excess - 4) :=
              Nat.le_self_pow (by omega) 10
            have hless : scaled 3 height / 10 ^ 3 / 10 ^ (excess - 4) < scaled 3 height / 10 ^ 3 :=
              Nat.div_lt_self (by omega) (by omega)
            omega
          subst hexcess
          rw [Nat.sub_self, pow_zero, Nat.div_one] at h hmark
          refine Or.inr ⟨rfl, Dvd.intro_left _ h, fun hzero => hmark ⟨hzero.1, ?_⟩⟩
          rw [hzero.2, Nat.zero_div]
      · rintro (⟨hle', -⟩ | ⟨rfl, hdvd, hmark⟩)
        · exact absurd hle' hthree
        · rw [Nat.sub_self, pow_zero, Nat.div_one] at hvalue hclose ⊢
          have hexact := Nat.div_mul_cancel hdvd
          have hshown : ¬ (0 ≤ height ∧ scaled 3 height / 10 ^ 3 = 0) := by
            rintro ⟨hheight, hzero⟩
            rw [hzero, Nat.zero_mul] at hexact
            exact hmark ⟨hheight, hexact.symm⟩
          refine ⟨_, rfl, ?_⟩
          rw [if_neg hshown]
          refine close_some_iff.mpr ⟨_, rfl, ?_⟩
          rw [hvalue, hclose]
          exact hexact
    · next hfour =>
      constructor
      · rintro ⟨found, h, -⟩
        exact nomatch h
      · rintro (⟨hle, -⟩ | ⟨rfl, -⟩)
        · exact absurd hle hthree
        · exact absurd (hdigits _) hfour

/-! ### The rows of the file -/

/-- How many characters the row has. -/
def rowLength (map : HeightMap) (zOffset : ℚ) (index : ℕ) : ℕ :=
  8 * map.grid.nums 0 - 1 +
    (map.entriesFrom zOffset index (map.grid.nums 0)).countP isWide

/-- The row fits in the buffer, or is the last one and loses nothing of importance. -/
def LastRowSurvives (map : HeightMap) (zOffset : ℚ) (index : ℕ) : Prop :=
  map.rowLength zOffset index ≤ maxLineLength ∨
    ∃ height, map.pointEntry zOffset ((index + (map.grid.nums 0 - 1)) % 2 ^ 32) = some height ∧
      HarmlessCut height (map.rowLength zOffset index - maxLineLength)

lemma rowLength_eq (hsmall : map.AllSmall zOffset) (hcols : 0 < map.grid.nums 0) (index : ℕ) :
    (rowText (map.entriesFrom zOffset index (map.grid.nums 0))).length =
      map.rowLength zOffset index := by
  have hlength := length_row hsmall hcols index
  rw [rowLength]
  omega

lemma forall₂_reentry (entries : List (Option ℚ)) :
    List.Forall₂ Close entries (entries.map reentry) := by
  rw [List.forall₂_map_right_iff]
  exact List.forall₂_same.mpr fun entry _ => close_reentry entry

lemma forall₂_append {first first' second second' : List (Option ℚ)}
    (hlength : first.length = first'.length) :
    List.Forall₂ Close (first ++ second) (first' ++ second') ↔
      List.Forall₂ Close first first' ∧ List.Forall₂ Close second second' := by
  induction first generalizing first' with
  | nil =>
    obtain rfl := List.eq_nil_of_length_eq_zero hlength.symm
    exact ⟨fun h => ⟨List.Forall₂.nil, h⟩, fun h => h.2⟩
  | cons entry first ih =>
    cases first' with
    | nil => exact nomatch hlength
    | cons entry' first' =>
      rw [List.cons_append, List.cons_append, List.forall₂_cons, List.forall₂_cons,
        ih (Nat.succ.inj hlength), and_assoc]

/-- The end of a row that is cut is too short to be a row. -/
lemma rest_too_short (hsmall : map.AllSmall zOffset) (hcols : 0 < map.grid.nums 0)
    (hfits : map.grid.nums 0 ≤ maxAxis0GridPoints) (index : ℕ) :
    rowEntries (map.grid.nums 0) ((rowText (map.entriesFrom zOffset index
      (map.grid.nums 0))).drop maxLineLength) = none := by
  have hle := length_row_le hsmall hcols index
  by_contra hsome
  obtain ⟨entries, hentries⟩ := Option.ne_none_iff_exists'.mp hsome
  have hlength := rowEntries_length hentries
  rw [List.length_drop, maxLineLength] at hlength
  rw [maxAxis0GridPoints] at hfits hlength
  omega

/-- The last field of a row that is cut. -/
lemma rowEntries_long (hsmall : map.AllSmall zOffset) (hcols : 0 < map.grid.nums 0)
    (hlong : maxLineLength < map.rowLength zOffset index) :
    (∃ found, rowEntries (map.grid.nums 0) ((rowText (map.entriesFrom zOffset index
      (map.grid.nums 0))).take maxLineLength) = some found ∧
      List.Forall₂ Close (map.entriesFrom zOffset index (map.grid.nums 0)) found) ↔
    ∃ height, map.pointEntry zOffset ((index + (map.grid.nums 0 - 1)) % 2 ^ 32) = some height ∧
      HarmlessCut height (map.rowLength zOffset index - maxLineLength) := by
  obtain ⟨n, hn⟩ : ∃ n, map.grid.nums 0 = n + 1 := ⟨map.grid.nums 0 - 1, by omega⟩
  have hlength := rowLength_eq hsmall hcols index
  have hsplit : map.entriesFrom zOffset index (n + 1) = map.entriesFrom zOffset index n ++
      [map.pointEntry zOffset ((index + n) % 2 ^ 32)] := by
    rw [entriesFrom_add]
    rfl
  have hinit : (map.entriesFrom zOffset index n).length = n := length_entriesFrom index n
  generalize hexcess : map.rowLength zOffset index - maxLineLength = excess
  have hpos : 0 < excess := by omega
  have hkeep : maxLineLength =
      (rowText (map.entriesFrom zOffset index (map.grid.nums 0))).length - excess := by omega
  have hcut := @rowEntries_cut _ (map.pointEntry zOffset ((index + n) % 2 ^ 32))
    (hsmall.entriesFrom index n) excess
  rw [hinit, ← hsplit] at hcut
  rw [hn] at hkeep
  rw [hn, hkeep, hcut, Nat.add_sub_cancel, hsplit]
  have hlastSmall := hsmall ((index + n) % 2 ^ 32)
  cases hlast : map.pointEntry zOffset ((index + n) % 2 ^ 32) with
  | none =>
    rw [readEntry_cut_none hpos]
    constructor
    · rintro ⟨found, h, -⟩
      split at h
      · exact nomatch h
      · exact nomatch h
    · rintro ⟨height, h, -⟩
      exact nomatch h
  | some height =>
    rw [hlast] at hlastSmall
    have hclose := @cutEntry_close height _ hpos
    have hcell := length_cell hlastSmall
    rw [readEntry_cut (hlastSmall height rfl)]
    have hlengths : (map.entriesFrom zOffset index n).length =
        ((map.entriesFrom zOffset index n).map reentry).length := List.length_map _ |>.symm
    constructor
    · rintro ⟨found, h, hforall⟩
      split at h
      · cases hentry : cutEntry height excess with
        | none =>
          rw [hentry] at h
          exact nomatch h
        | some entry =>
          rw [hentry] at h
          rw [← Option.some.inj h, forall₂_append hlengths] at hforall
          refine ⟨height, rfl, hclose.mp ⟨entry, hentry, ?_⟩⟩
          exact (List.forall₂_cons.mp hforall.2).1
      · exact nomatch h
    · rintro ⟨height', hheight, hharmless⟩
      rw [← Option.some.inj hheight] at hharmless
      obtain ⟨found, hfound, hentry⟩ := hclose.mpr hharmless
      have hfour : excess ≤ 4 := by
        obtain ⟨h, -⟩ | ⟨h, -⟩ := hharmless
        · omega
        · omega
      refine ⟨(map.entriesFrom zOffset index n).map reentry ++ [found], ?_, ?_⟩
      · rw [hfound, if_pos (by omega)]
        rfl
      · rw [forall₂_append hlengths]
        exact ⟨forall₂_reentry _, List.Forall₂.cons hentry List.Forall₂.nil⟩

/-- The rows are read, with heights close to the saved ones, exactly if they fit. -/
lemma fileEntries_close_iff (hsmall : map.AllSmall zOffset) (hcols : 0 < map.grid.nums 0)
    (hfits : map.grid.nums 0 ≤ maxAxis0GridPoints)
    (hunread : f.unread = map.rowsText zOffset n index) :
    (∃ found, fileEntries (map.grid.nums 0) n f = some found ∧
      List.Forall₂ Close (map.entriesFrom zOffset index (n * map.grid.nums 0)) found) ↔
    ∀ row < n, if row + 1 < n then
        map.rowLength zOffset (index + row * map.grid.nums 0) ≤ maxLineLength
      else map.LastRowSurvives zOffset (index + row * map.grid.nums 0) := by
  induction n generalizing index f with
  | zero =>
    rw [Nat.zero_mul]
    exact ⟨fun _ row hrow => absurd hrow (Nat.not_lt_zero _),
      fun _ => ⟨[], rfl, List.Forall₂.nil⟩⟩
  | succ n ih =>
    have hlength := rowLength_eq hsmall hcols index
    have hfirst : index + 0 * map.grid.nums 0 = index := by rw [Nat.zero_mul, Nat.add_zero]
    have hentries : map.entriesFrom zOffset index ((n + 1) * map.grid.nums 0) =
        map.entriesFrom zOffset index (map.grid.nums 0) ++
          map.entriesFrom zOffset (index + map.grid.nums 0) (n * map.grid.nums 0) := by
      rw [Nat.succ_mul, Nat.add_comm, entriesFrom_add]
    have hshift (row : ℕ) : index + (row + 1) * map.grid.nums 0 =
        index + map.grid.nums 0 + row * map.grid.nums 0 := by
      rw [Nat.succ_mul]
      omega
    have hrest : (∀ row < n + 1, if row + 1 < n + 1 then
          map.rowLength zOffset (index + row * map.grid.nums 0) ≤ maxLineLength
        else map.LastRowSurvives zOffset (index + row * map.grid.nums 0)) ↔
        (if 0 < n then map.rowLength zOffset index ≤ maxLineLength
          else map.LastRowSurvives zOffset index) ∧
        ∀ row < n, if row + 1 < n then
          map.rowLength zOffset (index + map.grid.nums 0 + row * map.grid.nums 0) ≤ maxLineLength
        else map.LastRowSurvives zOffset (index + map.grid.nums 0 + row * map.grid.nums 0) := by
      constructor
      · intro h
        refine ⟨?_, fun row hrow => ?_⟩
        · have hzero := h 0 (Nat.succ_pos n)
          rw [hfirst] at hzero
          simpa only [Nat.zero_add, Nat.lt_add_left_iff_pos] using hzero
        · have hnext := h (row + 1) (Nat.succ_lt_succ hrow)
          rw [hshift] at hnext
          simpa only [Nat.add_lt_add_iff_right] using hnext
      · rintro ⟨hzero, hnext⟩ row hrow
        cases row with
        | zero =>
          rw [hfirst]
          simpa only [Nat.zero_add, Nat.lt_add_left_iff_pos] using hzero
        | succ row =>
          have h := hnext row (Nat.lt_of_succ_lt_succ hrow)
          rw [hshift]
          simpa only [Nat.add_lt_add_iff_right] using h
    rw [hrest, hentries]
    rcases Nat.lt_or_ge maxLineLength (map.rowLength zOffset index) with hlong | hshort
    · obtain ⟨f', hread, hunread'⟩ := readText_long (oneLine_rowText _)
        (by rw [hlength]; exact hlong)
        hunread
      have hrow := rowEntries_long hsmall hcols hlong
      rw [fileEntries, hread, Option.bind_some]
      dsimp only
      cases n with
      | zero =>
        have hnone : map.entriesFrom zOffset (index + map.grid.nums 0) (0 * map.grid.nums 0) =
            [] := by
          rw [Nat.zero_mul]
          rfl
        rw [hnone, List.append_nil, if_neg (lt_irrefl 0), LastRowSurvives,
          or_iff_right (not_le.mpr hlong), ← hrow,
            and_iff_left fun row h => absurd h (Nat.not_lt_zero _)]
        constructor
        · rintro ⟨found, h, hforall⟩
          obtain ⟨entries, hentries, h⟩ := Option.bind_eq_some_iff.mp h
          rw [fileEntries, Option.map_some, List.append_nil] at h
          exact ⟨entries, hentries, Option.some.inj h ▸ hforall⟩
        · rintro ⟨found, h, hforall⟩
          refine ⟨found, ?_, hforall⟩
          rw [h, Option.bind_some, fileEntries, Option.map_some, List.append_nil]
      | succ n =>
        have hle := length_row_le hsmall hcols index
        have hline : OneLine ((rowText (map.entriesFrom zOffset index (map.grid.nums 0))).drop
            maxLineLength) := fun c hc => oneLine_rowText _ c (List.mem_of_mem_drop hc)
        have hne : (rowText (map.entriesFrom zOffset index (map.grid.nums 0))).drop
            maxLineLength ≠ [] := by
          apply List.ne_nil_of_length_pos
          rw [List.length_drop]
          omega
        have hroom : ((rowText (map.entriesFrom zOffset index (map.grid.nums 0))).drop
            maxLineLength).length ≤ maxLineLength := by
          rw [List.length_drop, maxLineLength]
          rw [maxAxis0GridPoints] at hfits ⊢
          omega
        obtain ⟨f₂, hread₂, -⟩ := readText_line hline hne hroom hunread'
        have hnone : fileEntries (map.grid.nums 0) (n + 1) f' = none := by
          rw [fileEntries, hread₂, Option.bind_some]
          dsimp only
          rw [rest_too_short hsmall hcols hfits, Option.bind_none]
        rw [hnone, if_pos (Nat.succ_pos n)]
        constructor
        · rintro ⟨found, h, -⟩
          obtain ⟨entries, -, h⟩ := Option.bind_eq_some_iff.mp h
          cases h
        · rintro ⟨hshort, -⟩
          exact absurd hshort (not_le.mpr hlong)
    · obtain ⟨f', hread, hunread'⟩ := readText_line (oneLine_rowText _)
        (rowText_ne_nil hsmall hcols index) (by rw [hlength]; exact hshort) hunread
      have hrow := rowEntries_eq (hsmall.entriesFrom index (map.grid.nums 0))
      rw [length_entriesFrom] at hrow
      have hlengths : (map.entriesFrom zOffset index (map.grid.nums 0)).length =
          ((map.entriesFrom zOffset index (map.grid.nums 0)).map reentry).length :=
        List.length_map _ |>.symm
      have hhere : (if 0 < n then map.rowLength zOffset index ≤ maxLineLength
          else map.LastRowSurvives zOffset index) := by
        split
        · exact hshort
        · exact Or.inl hshort
      rw [fileEntries, hread, Option.bind_some]
      dsimp only
      rw [hrow, Option.bind_some, and_iff_right hhere, ← ih hunread']
      constructor
      · rintro ⟨found, h, hforall⟩
        obtain ⟨rest, hfound, rfl⟩ := Option.map_eq_some_iff.mp h
        exact ⟨rest, hfound, ((forall₂_append hlengths).mp hforall).2⟩
      · rintro ⟨rest, hfound, hforall⟩
        refine ⟨_, by rw [hfound, Option.map_some], ?_⟩
        exact (forall₂_append hlengths).mpr ⟨forall₂_reentry _, hforall⟩

/-! ### The round trip -/

/-- The loaded map has the grid with its parameters, the points and the heights of the saved one. -/
structure Reloaded (map : HeightMap) (zOffset : ℚ) (loaded : HeightMap) : Prop where
  valid : loaded.grid.isValid = true
  axes (axis : Fin 2) : loaded.grid.letters axis = map.grid.letters axis ∧
    loaded.grid.axisNumbers axis = map.grid.axisNumbers axis
  points (axis : Fin 2) : loaded.grid.nums axis = map.grid.nums axis
  lengths (axis : Fin 2) : |loaded.grid.mins axis - map.grid.mins axis| ≤ 1 / 200 ∧
    |loaded.grid.maxs axis - map.grid.maxs axis| ≤ 1 / 200 ∧
    |loaded.grid.spacings axis - map.grid.spacings axis| ≤ 1 / 200
  radius : |loaded.grid.radius - map.grid.radius| ≤ 1 / 200
  probed (k : ℕ) : k ∈ loaded.gridHeightSet ↔ k ∈ map.gridHeightSet
  heights : ∀ k ∈ map.gridHeightSet,
    |loaded.gridHeights k - (map.gridHeights k + zOffset)| ≤ 1 / 2000

/-- The map is saved without an error, and each load of the file gives the map again. -/
def RoundTrips (m : Machine) (build : Build) (timeInfo : Option TimeInfo) (zOffset : ℚ)
    (map : HeightMap) : Prop :=
  ∀ fname, ∃ contents, (map.saveToFile build.fastSqrtf timeInfo fname zOffset).1 = some contents ∧
    ∀ fname' prior, (loadFromFile m build ⟨contents, 0⟩ fname' prior).2 = none ∧
      Reloaded map zOffset (loadFromFile m build ⟨contents, 0⟩ fname' prior).1

/-- The radius is not rounded to 0, the count of the points is not cut, and the rows fit in the
buffer. -/
structure Survives (map : HeightMap) (zOffset : ℚ) : Prop where
  radius : RadiusKept map.grid.radius
  count : map.grid.nums 0 * map.grid.nums 1 < 2 ^ 32
  rows : ∀ row < map.grid.nums 1, if row + 1 < map.grid.nums 1 then
      map.rowLength zOffset (row * map.grid.nums 0) ≤ maxLineLength
    else map.LastRowSurvives zOffset (row * map.grid.nums 0)

variable {build : Build}

/-- What the file consists of. -/
lemma saveToFile_eq (timeInfo : Option TimeInfo) (fname : List Char) (hsmall : map.AllSmall zOffset)
    (hz : FloatRange zOffset) (hsqrt : ∀ q, FloatRange (build.fastSqrtf q))
    (hwritable : map.grid.Writable)
    (hcols : 0 < map.grid.nums 0) (hfits : map.grid.nums 0 ≤ maxAxis0GridPoints)
    (hrows : map.grid.nums 0 * map.grid.nums 1 ≤ 1000) :
    ∃ comment : List Char, comment.length ≤ 300 ∧ OneLine comment ∧
      heightMapComment.toList.isPrefixOf comment = true ∧
      (map.saveToFile build.fastSqrtf timeInfo fname zOffset).1 =
        some (comment ++ '\n' :: (labelLine ++ '\n' :: (parametersText map.grid ++
          '\n' :: map.rowsText zOffset (map.grid.nums 1) 0))) ∧
      (comment ++ '\n' :: (labelLine ++ '\n' :: (parametersText map.grid ++
          '\n' :: map.rowsText zOffset (map.grid.nums 1) 0))).length < 2 ^ 32 := by
  obtain ⟨comment, hlength, hline, hversion, hcomment⟩ :=
    headerComment_eq hsmall hz hsqrt timeInfo
  have hparameters := hwritable.length
  have hlabel : labelLine.length ≤ 100 := by decide
  have hrowsText := (length_rowsText (n := map.grid.nums 1) hsmall hcols 0).2
  have hnine : map.grid.nums 1 * (9 * map.grid.nums 0) =
      9 * (map.grid.nums 0 * map.grid.nums 1) := by
    ring
  rw [hnine] at hrowsText
  refine ⟨comment, hlength, hline, hversion, ?_, ?_⟩
  · have hfirst : writeText [] (map.headerComment build.fastSqrtf timeInfo zOffset) =
        some (comment ++ ['\n']) := by
      rw [hcomment, writeText, if_pos]
      · rfl
      · rw [List.length_append, List.length_singleton, List.length_nil]
        omega
    have hsecond : writeText (comment ++ ['\n']) map.grid.writeHeadingAndParameters =
        some (comment ++ ['\n'] ++ (labelLine ++ '\n' :: (parametersText map.grid ++ ['\n']))) := by
      rw [writeHeadingAndParameters_eq hwritable, writeText, if_pos]
      simp only [List.length_append, List.length_cons, List.length_nil]
      omega
    have hfront : (comment ++ ['\n'] ++ (labelLine ++
        '\n' :: (parametersText map.grid ++ ['\n']))).length ≤ 1000 := by
      simp only [List.length_append, List.length_cons, List.length_nil]
      omega
    have hall := @saveRows_eq map zOffset (map.grid.nums 1) 0 hsmall hcols hfits _
      (hfront.trans_lt (by decide : 1000 < 2 ^ 32))
    rw [Nat.zero_mod, if_pos (by omega)] at hall
    rw [saveToFile, hfirst, Option.bind_some, hsecond, Option.bind_some, hall]
    simp only [List.append_assoc, List.cons_append, List.nil_append]
  · simp only [List.length_append, List.length_cons]
    omega

lemma count_of_saved {timeInfo : Option TimeInfo} {fname : List Char}
    (hsmall : map.AllSmall zOffset) (hcols : 0 < map.grid.nums 0)
    (hfits : map.grid.nums 0 ≤ maxAxis0GridPoints) {contents : List Char}
    (h : (map.saveToFile build.fastSqrtf timeInfo fname zOffset).1 = some contents) :
    map.grid.nums 0 * map.grid.nums 1 < 2 ^ 32 := by
  obtain ⟨f, -, h⟩ := Option.bind_eq_some_iff.mp h
  obtain ⟨f', hwrite, h⟩ := Option.bind_eq_some_iff.mp h
  have hf' : f'.length < 2 ^ 32 := by
    rw [writeText] at hwrite
    split at hwrite
    · next hroom =>
      rw [← Option.some.inj hwrite, List.length_append]
      exact hroom
    · cases hwrite
  have hall := @saveRows_eq map zOffset (map.grid.nums 1) 0 hsmall hcols hfits _ hf'
  rw [Nat.zero_mod, h] at hall
  split at hall
  · next hroom =>
    have hlow := (length_rowsText (n := map.grid.nums 1) hsmall hcols 0).1
    have height : map.grid.nums 1 * (8 * map.grid.nums 0) =
        8 * (map.grid.nums 0 * map.grid.nums 1) := by ring
    omega
  · cases hall

lemma pointEntry_ne_none (zOffset : ℚ) {k : ℕ} : map.pointEntry zOffset k ≠ none ↔
    k ∈ map.gridHeightSet := by
  rw [pointEntry]
  split
  · next h => exact ⟨fun _ => h, fun _ => Option.some_ne_none _⟩
  · next h => exact ⟨fun hne => absurd rfl hne, fun hk => absurd hk h⟩

lemma getElem_entriesFrom (map : HeightMap) (zOffset : ℚ) {count k : ℕ} (hk : k < count)
    (hcount : count ≤ 2 ^ 32) :
    (map.entriesFrom zOffset 0 count)[k]? = some (map.pointEntry zOffset k) := by
  rw [entriesFrom, List.getElem?_map, List.getElem?_range' hk, Option.map_some]
  simp only [Nat.one_mul, Nat.zero_add]
  rw [Nat.mod_eq_of_lt (by omega)]

/-- The points and heights of a map that is loaded are those of the entries. -/
lemma reloaded_points_iff {found : List (Option ℚ)} {count : ℕ} (hcount : count ≤ 2 ^ 32)
    (hpoints : ∀ k ∈ map.gridHeightSet, k < count) (hlength : found.length = count)
    (hroom : found.length ≤ m.board.maxGridProbePoints) {g : GridDefinition} (prior : HeightMap) :
    List.Forall₂ Close (map.entriesFrom zOffset 0 count) found ↔
      (∀ k, k ∈ (loadedMap m g found prior).gridHeightSet ↔ k ∈ map.gridHeightSet) ∧
        ∀ k ∈ map.gridHeightSet, |(loadedMap m g found prior).gridHeights k -
          (map.gridHeights k + zOffset)| ≤ 1 / 2000 := by
  have hget (k : ℕ) (hk : k < count) : found[k]? = some (found[k]) :=
    List.getElem?_eq_getElem (by omega)
  rw [List.forall₂_iff_get]
  constructor
  · rintro ⟨-, hclose⟩
    have hat (k : ℕ) (hk : k < count) :
        Close (map.pointEntry zOffset k) (found[k]) := by
      have h := hclose k (by rw [length_entriesFrom]; exact hk) (by omega)
      have hleft := getElem_entriesFrom map zOffset hk hcount
      rw [List.getElem?_eq_getElem (by rw [length_entriesFrom]; exact hk),
        Option.some.injEq] at hleft
      rw [← hleft]
      exact h
    constructor
    · intro k
      rw [mem_loadedMap hroom, ← pointEntry_ne_none zOffset]
      by_cases hk : k < count
      · have h := hat k hk
        rw [hget k hk, Option.join_some]
        cases hentry : map.pointEntry zOffset k with
        | none =>
          rw [hentry] at h
          cases hfound : found[k] with
          | none => rfl
          | some number =>
            rw [hfound] at h
            exact h.elim
        | some height =>
          rw [hentry] at h
          obtain ⟨number, hfound, -⟩ := close_some_iff.mp h
          rw [hfound]
          exact ⟨fun _ => Option.some_ne_none _, fun _ => Option.some_ne_none _⟩
      · rw [List.getElem?_eq_none (by omega), Option.join_none, pointEntry_ne_none zOffset]
        exact ⟨fun h => absurd rfl h, fun h => absurd (hpoints k h) hk⟩
    · intro k hk
      have h := hat k (hpoints k hk)
      rw [pointEntry, if_pos hk] at h
      obtain ⟨number, hfound, hnumber⟩ := close_some_iff.mp h
      rw [loadedMap_heights hroom, hget k (hpoints k hk), Option.join_some, hfound,
        Option.getD_some]
      exact hnumber
  · rintro ⟨hprobed, hheights⟩
    refine ⟨by rw [length_entriesFrom, hlength], fun k hk hk' => ?_⟩
    rw [length_entriesFrom] at hk
    have hleft := getElem_entriesFrom map zOffset hk hcount
    rw [List.getElem?_eq_getElem (by rw [length_entriesFrom]; exact hk), Option.some.injEq] at hleft
    have hmem := hprobed k
    rw [mem_loadedMap hroom, hget k hk, Option.join_some,
      ← pointEntry_ne_none zOffset] at hmem
    rw [List.get_eq_getElem, List.get_eq_getElem]
    rw [hleft]
    cases hentry : map.pointEntry zOffset k with
    | none =>
      cases hfound : found[k] with
      | none => trivial
      | some number =>
        rw [hentry, hfound] at hmem
        exact absurd rfl (hmem.mp (Option.some_ne_none _))
    | some height =>
      have hset : k ∈ map.gridHeightSet := by
        rw [← pointEntry_ne_none zOffset, hentry]
        exact Option.some_ne_none _
      have hheight : map.gridHeights k + zOffset = height := by
        rw [pointEntry, if_pos hset] at hentry
        exact Option.some.inj hentry
      have h := hheights k hset
      cases hfound : found[k] with
      | none =>
        rw [hentry, hfound] at hmem
        exact absurd rfl (hmem.mpr (Option.some_ne_none _))
      | some number =>
        rw [loadedMap_heights hroom, hget k hk, Option.join_some, hfound, Option.getD_some,
          hheight] at h
        exact h

/-! ### The grid of the file -/

lemma checkPoints_axisNumbers {g : GridDefinition} (h : (checkPoints m g).isValid = true)
    (axis : Fin 2) : (checkPoints m g).axisNumbers axis =
      m.getAxisNumberForLetter ((checkPoints m g).letters axis) := by
  rw [checkPoints] at h ⊢
  split at h
  · next hchecked =>
    rw [if_pos hchecked]
    fin_cases axis
    · rfl
    · rfl
  · exact absurd h Bool.false_ne_true

lemma checkValidity_axisNumbers {g : GridDefinition} {setNum0Num1 : Bool}
    (h : (checkValidity m setNum0Num1 g).isValid = true) (axis : Fin 2) :
    (checkValidity m setNum0Num1 g).axisNumbers axis =
      m.getAxisNumberForLetter ((checkValidity m setNum0Num1 g).letters axis) := by
  rw [checkValidity] at h ⊢
  split at h
  · exact absurd h Bool.false_ne_true
  · next hlarge =>
    rw [if_neg hlarge]
    exact checkPoints_axisNumbers h axis

lemma axisNumbers_of_accepted {g : GridDefinition} (h : Accepted m g) (axis : Fin 2) :
    g.axisNumbers axis = m.getAxisNumberForLetter (g.letters axis) := by
  obtain ⟨hvalid, ⟨axisLetters, axis0Range, axis1Range, pRadius, pSpacings, old, rfl⟩ |
    ⟨s, version, hread⟩⟩ := h
  · exact checkValidity_axisNumbers hvalid axis
  · obtain ⟨g', -, rfl⟩ := Option.map_eq_some_iff.mp hread
    exact checkValidity_axisNumbers hvalid axis

lemma mem_axisLetters {letter : Char} (h : m.getAxisNumberForLetter letter < m.numVisibleAxes) :
    letter ∈ m.axisLetters := by
  by_contra hnot
  rw [Machine.getAxisNumberForLetter, if_neg hnot] at h
  have hvisible := m.visible_le
  have htotal := m.total_le
  omega

/-- A grid of fewer than 2^32 points has few of them. -/
lemma product_le (hvalid : Valid m map.grid)
    (hcount : map.grid.nums 0 * map.grid.nums 1 < 2 ^ 32) :
    0 < map.grid.nums 0 ∧ 0 < map.grid.nums 1 ∧
      map.grid.nums 0 * map.grid.nums 1 ≤ m.board.maxGridProbePoints := by
  have hpos := hvalid.points_pos
  have hle := hvalid.points_le
  rw [numPoints, Nat.mod_eq_of_lt hcount] at hpos hle
  exact ⟨Nat.pos_of_ne_zero (left_ne_zero_of_mul hpos),
    Nat.pos_of_ne_zero (right_ne_zero_of_mul hpos), hle⟩

lemma writable_of_valid (hvalid : Valid m map.grid)
    (hletters : ∀ letter ∈ m.axisLetters, letter.isAlpha = true) (hmoderate : Moderate map.grid)
    (hcount : map.grid.nums 0 * map.grid.nums 1 < 2 ^ 32) : map.grid.Writable := by
  obtain ⟨hpos0, hpos1, hle⟩ := product_le hvalid hcount
  have hboard := m.board.maxGridProbePoints_le
  refine ⟨hmoderate, fun axis => hletters _ (mem_axisLetters (hvalid.visible axis)), fun axis => ?_⟩
  have h0 := Nat.le_mul_of_pos_right (map.grid.nums 0) hpos1
  have h1 := Nat.le_mul_of_pos_left (map.grid.nums 1) hpos0
  fin_cases axis
  · change map.grid.nums 0 < 2 ^ 31
    omega
  · change map.grid.nums 1 < 2 ^ 31
    omega

lemma rounded_close_two (d : ℚ) : |rounded 2 d - d| ≤ 1 / 200 := by
  have h := rounded_close 2 d
  norm_num at h ⊢
  exact h

/-- The map that is loaded is the saved one if its points and heights are. -/
lemma reloaded_iff (haccepted : Accepted m map.grid) {loaded : HeightMap}
    (hgrid : loaded.grid = loadedGrid m map.grid) :
    Reloaded map zOffset loaded ↔ (∀ k, k ∈ loaded.gridHeightSet ↔ k ∈ map.gridHeightSet) ∧
      ∀ k ∈ map.gridHeightSet,
        |loaded.gridHeights k - (map.gridHeights k + zOffset)| ≤ 1 / 2000 := by
  constructor
  · exact fun h => ⟨h.probed, h.heights⟩
  · rintro ⟨hprobed, hheights⟩
    have haxes := axisNumbers_of_accepted haccepted
    refine ⟨by rw [hgrid]; rfl, ?_, ?_, ?_, ?_, hprobed, hheights⟩
    · intro axis
      rw [hgrid, haxes]
      fin_cases axis
      · exact ⟨rfl, rfl⟩
      · exact ⟨rfl, rfl⟩
    · intro axis
      rw [hgrid]
      fin_cases axis
      · rfl
      · rfl
    · intro axis
      rw [hgrid]
      fin_cases axis
      · exact ⟨rounded_close_two _, rounded_close_two _, rounded_close_two _⟩
      · exact ⟨rounded_close_two _, rounded_close_two _, rounded_close_two _⟩
    · rw [hgrid]
      exact rounded_close_two _

/-- A file with this header is loaded exactly if its rows can be read, and gives the saved map
exactly if the entries are close to its points. -/
lemma loaded_iff (haccepted : Accepted m map.grid)
    (hcount : map.grid.nums 0 * map.grid.nums 1 < 2 ^ 32)
    (hpoints : ∀ k ∈ map.gridHeightSet, k < map.grid.nums 0 * map.grid.nums 1)
    (hheader : readHeader m f = .ok (loadedGrid m map.grid, f'))
    (hsize : f.contents.length < 2 ^ 32) (fname : List Char) (prior : HeightMap) :
    ((loadFromFile m build f fname prior).2 = none ∧
      Reloaded map zOffset (loadFromFile m build f fname prior).1) ↔
    ∃ found, fileEntries (map.grid.nums 0) (map.grid.nums 1) f' = some found ∧
      List.Forall₂ Close (map.entriesFrom zOffset 0 (map.grid.nums 1 * map.grid.nums 0)) found := by
  have hproduct : map.grid.nums 1 * map.grid.nums 0 = map.grid.nums 0 * map.grid.nums 1 :=
    Nat.mul_comm _ _
  have hgiven {found : List (Option ℚ)}
      (hentries : fileEntries (map.grid.nums 0) (map.grid.nums 1) f' = some found) :
      (loadFromFile m build f fname prior).2 = none ∧
        (Reloaded map zOffset (loadFromFile m build f fname prior).1 ↔
          List.Forall₂ Close (map.entriesFrom zOffset 0 (map.grid.nums 1 * map.grid.nums 0))
            found) := by
    have hdescribes : Describes m f (loadedGrid m map.grid) found := ⟨f', hheader, hentries⟩
    obtain ⟨-, hlength, -, hroom⟩ := hdescribes.fits hsize
    have hload := @loadFromFile_of_describes m build _ f found fname prior hdescribes hsize
    have hsame := extrapolateMissing_same build (loadedMap m (loadedGrid m map.grid) found prior)
    refine ⟨by rw [hload], ?_⟩
    rw [reloaded_iff haccepted (loadFromFile_grid fname prior hdescribes hsize), hproduct, hload]
    rw [reloaded_points_iff hcount.le hpoints hlength hroom prior (g := loadedGrid m map.grid)]
    change (∀ k, k ∈ ((loadedMap m (loadedGrid m map.grid) found prior).extrapolateMissing
      build).gridHeightSet ↔ _) ∧ (∀ k ∈ map.gridHeightSet, |((loadedMap m (loadedGrid m map.grid)
      found prior).extrapolateMissing build).gridHeights k - _| ≤ _) ↔ _
    rw [← hsame.heightSet]
    constructor
    · rintro ⟨hprobed, hheights⟩
      refine ⟨hprobed, fun k hk => ?_⟩
      rw [hsame.heights k ((hprobed k).mpr hk)]
      exact hheights k hk
    · rintro ⟨hprobed, hheights⟩
      refine ⟨hprobed, fun k hk => ?_⟩
      rw [← hsame.heights k ((hprobed k).mpr hk)]
      exact hheights k hk
  constructor
  · rintro ⟨hloaded, hreloaded⟩
    obtain ⟨g, found, f₁, hheader', hentries⟩ := describes_of_loaded hloaded
    obtain ⟨rfl, rfl⟩ := Prod.mk.inj (Except.ok.inj (hheader'.symm.trans hheader))
    exact ⟨found, hentries, (hgiven hentries).2.mp hreloaded⟩
  · rintro ⟨found, hentries, hclose⟩
    exact ⟨(hgiven hentries).1, (hgiven hentries).2.mpr hclose⟩

def fourPoints (radius : ℚ) : GridDefinition :=
  GridDefinition.set cartesian !['X', 'Y'] ![0, 100] ![0, 100] radius ![100, 100]
    GridDefinition.undefined

def flatBed (radius : ℚ) : HeightMap where
  grid := fourPoints radius
  gridHeights := fun _ => 1 / 10
  gridHeightSet := Finset.range 4
  fileName := []
  useMap := false

/-- The arguments of the square root are 0 and 1. -/
def flatBuild : Build := ⟨false, fun x => if x < 1 / 2 then 0 else 1⟩

end HeightMap

end RepRapFirmware.Movement.BedProbing
