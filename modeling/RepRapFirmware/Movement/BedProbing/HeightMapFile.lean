import Mathlib
import RepRapFirmware.Movement.BedProbing.ExtrapolateMissing
import RepRapFirmware.Storage.ReadLine

/-! Height maps loaded from files: what a file says about the heights, and what the map keeps of
its past. -/

namespace RepRapFirmware.Movement.BedProbing.HeightMap

open Library.LeastSquares RRFLibraries.NumericConverters Storage.ReadLine

def heightMapComment : String := "RepRapFirmware height map file v2"

def maxLineLength : ℕ := maxAxis0GridPoints * 8 + 2

def readFailureText : String := "failed to read line from file"

def clearGridHeights (map : HeightMap) : HeightMap :=
  { map with gridHeightSet := ∅, fileName := [] }

def setGrid (gd : GridDefinition) (map : HeightMap) : HeightMap :=
  clearGridHeights { map with useMap := false, grid := gd }

def setGridHeight (m : Machine) (index : ℕ) (height : ℚ) (map : HeightMap) : HeightMap :=
  if index < m.board.maxGridProbePoints then
    { map with
      gridHeights := Function.update map.gridHeights index height
      gridHeightSet := insert index map.gridHeightSet }
  else map

/-- The text of the next line, which ends at a zero character, unless it is empty. -/
def readText (f : FileStore) : Option (List Char × FileStore) :=
  match readLine (maxLineLength + 1) f with
  | (some line, f) => if line = [] then none else some (line.takeWhile fun c => c ≠ '\x00', f)
  | (none, _) => none

/-- The header of the file up to the parameters: the grid, or the reason of the failure. -/
def readHeader (m : Machine) (f : FileStore) : Except String (GridDefinition × FileStore) :=
  match readText f with
  | none => .error readFailureText
  | some (comment, f) =>
    if !heightMapComment.toList.isPrefixOf comment then
      .error "bad header line or wrong version header"
    else match readText f with
    | none => .error readFailureText
    | some (labels, f) =>
      match GridDefinition.checkHeading labels with
      | none => .error "bad label line"
      | some gridVersion =>
        match readText f with
        | none => .error readFailureText
        | some (parameters, f) =>
          match GridDefinition.readParameters m parameters gridVersion with
          | none => .error "failed to parse grid parameters"
          | some newGrid => if newGrid.isValid then .ok (newGrid, f) else .error "invalid grid"

def skipComma (p : List Char) : List Char := if p.head? = some ',' then p.tail else p

/-- The entry of one point and what follows it. The entry `0` is of a point that was not probed. -/
def readEntry (p : List Char) : Option (Option ℚ × List Char) :=
  let p := p.dropWhile isBlank
  if p.head? = some '0' ∧ (p.tail.head? = some ',' ∨ p.tail = []) then some (none, skipComma p.tail)
  else (safeStrtof p).map fun (ff, np) => (some ff, skipComma np)

def setEntry (m : Machine) (index : ℕ) (entry : Option ℚ) (map : HeightMap) : HeightMap :=
  match entry with
  | none => map
  | some ff => setGridHeight m index ff map

/-- The loop over the columns that are left, with the reason of its failure. -/
def loadRow (m : Machine) (row : ℕ) (buffer : List Char) :
    ℕ → ℕ → List Char → HeightMap → HeightMap × Option String
  | 0, _, _, map => (map, none)
  | n + 1, col, p, map =>
    match readEntry p with
    | none =>
      (map, some ("number expected at line " ++ toString (row + 3) ++ " column " ++
        toString (buffer.length - (p.dropWhile isBlank).length + 1)))
    | some (entry, p) =>
      loadRow m row buffer n (col + 1) p (setEntry m (map.getMapIndex col row) entry map)

/-- The loop over the rows that are left. -/
def loadRows (m : Machine) : ℕ → ℕ → FileStore → HeightMap → HeightMap × Option String
  | 0, _, _, map => (map, none)
  | n + 1, row, f, map =>
    match readText f with
    | none => (map, some readFailureText)
    | some (buffer, f) =>
      match loadRow m row buffer (map.grid.nums 0) 0 buffer map with
      | (map, none) => loadRows m n (row + 1) f map
      | (map, some error) => (map, some error)

/-- The map after the call, and the reason if an error occurred. -/
def loadFromFile (m : Machine) (build : Build) (f : FileStore) (fname : List Char)
    (map : HeightMap) : HeightMap × Option String :=
  let map := clearGridHeights map
  match readHeader m f with
  | .error reason => (map, some reason)
  | .ok (newGrid, f) =>
    let map := setGrid newGrid map
    match loadRows m (map.grid.nums 1) 0 f map with
    | (map, some reason) => (map, some reason)
    | (map, none) => ({ map.extrapolateMissing build with fileName := fname }, none)

/-! ### What a file says -/

/-- The entries of a row. -/
def rowEntries : ℕ → List Char → Option (List (Option ℚ))
  | 0, _ => some []
  | n + 1, p => (readEntry p).bind fun (entry, p) => (rowEntries n p).map (entry :: ·)

/-- The entries of the rows, in the order of the file. -/
def fileEntries (cols : ℕ) : ℕ → FileStore → Option (List (Option ℚ))
  | 0, _ => some []
  | n + 1, f => (readText f).bind fun (buffer, f) =>
      (rowEntries cols buffer).bind fun entries => (fileEntries cols n f).map (entries ++ ·)

/-- A file that can be loaded: its grid, and an entry for each point. -/
def Describes (m : Machine) (f : FileStore) (g : GridDefinition) (entries : List (Option ℚ)) :
    Prop :=
  ∃ f', readHeader m f = .ok (g, f') ∧ fileEntries (g.nums 0) (g.nums 1) f' = some entries

/-- The height that a point has in the file. -/
def heightInFile (g : GridDefinition) (entries : List (Option ℚ)) (p : ℕ × ℕ) : Option ℚ :=
  entries[p.2 * g.nums 0 + p.1]?.join

def probedInFile (g : GridDefinition) (entries : List (Option ℚ)) : Finset (ℕ × ℕ) :=
  (gridPoints g).toFinset.filter fun p => heightInFile g entries p ≠ none

/-- All points were probed, or the ones that were probed are not on one line. -/
def Determined (g : GridDefinition) (entries : List (Option ℚ)) : Prop :=
  (∀ p ∈ gridPoints g, heightInFile g entries p ≠ none) ∨
    ¬ OnOneLine (probedInFile g entries) (fun p => (p.1 : ℚ)) (fun p => (p.2 : ℚ))

/-- Whatever the map was before, a file that can be loaded gives the same height to each point. -/
def DependsOnlyOnFile (m : Machine) (build : Build) (f : FileStore) (fname : List Char) : Prop :=
  ∀ prior prior' : HeightMap, (loadFromFile m build f fname prior).2 = none →
    (loadFromFile m build f fname prior').2 = none →
    (loadFromFile m build f fname prior).1.grid = (loadFromFile m build f fname prior').1.grid ∧
      ∀ i j, i < (loadFromFile m build f fname prior).1.grid.nums 0 →
        j < (loadFromFile m build f fname prior).1.grid.nums 1 →
        (loadFromFile m build f fname prior).1.heightAt i j =
          (loadFromFile m build f fname prior').1.heightAt i j

variable {m : Machine} {build : Build} {map : HeightMap} {g : GridDefinition}
  {f f' : FileStore} {p s : List Char} {entries entries' : List (Option ℚ)} {n row col index : ℕ}

/-! ### The entries become heights -/

/-- The heights from an index on. -/
def setEntries (m : Machine) : ℕ → List (Option ℚ) → HeightMap → HeightMap
  | _, [], map => map
  | index, entry :: entries, map => setEntries m (index + 1) entries (setEntry m index entry map)

@[simp]
lemma setEntry_grid (entry : Option ℚ) : (setEntry m index entry map).grid = map.grid := by
  cases entry with
  | none => rfl
  | some ff =>
    rw [setEntry, setGridHeight]
    split
    · rfl
    · rfl

@[simp]
lemma setEntries_grid : (setEntries m index entries map).grid = map.grid := by
  induction entries generalizing index map with
  | nil => rfl
  | cons entry entries ih => rw [setEntries, ih, setEntry_grid]

lemma setEntries_append : setEntries m index (entries ++ entries') map =
    setEntries m (index + entries.length) entries' (setEntries m index entries map) := by
  induction entries generalizing index map with
  | nil => rfl
  | cons entry entries ih =>
    rw [List.cons_append, setEntries, ih, setEntries, List.length_cons, add_right_comm, add_assoc]

lemma loadRow_of_entries {buffer : List Char} (h : rowEntries n p = some entries)
    (hindex : row * map.grid.nums 0 + col + n ≤ 2 ^ 32) :
    loadRow m row buffer n col p map =
      (setEntries m (row * map.grid.nums 0 + col) entries map, none) := by
  induction n generalizing col p map entries with
  | zero => rw [← Option.some.inj h, loadRow, setEntries]
  | succ n ih =>
    obtain ⟨⟨entry, p'⟩, hentry, h⟩ := Option.bind_eq_some_iff.mp h
    obtain ⟨rest, hrest, rfl⟩ := Option.map_eq_some_iff.mp h
    have hmod : map.getMapIndex col row = row * map.grid.nums 0 + col :=
      Nat.mod_eq_of_lt (by omega)
    rw [loadRow, hentry, setEntries, hmod]
    dsimp only
    rw [ih hrest (by rw [setEntry_grid]; omega), setEntry_grid, ← add_assoc]

lemma loadRow_error {buffer : List Char} (h : rowEntries n p = none) :
    (loadRow m row buffer n col p map).2 ≠ none := by
  induction n generalizing col p map with
  | zero => exact absurd h (Option.some_ne_none _)
  | succ n ih =>
    rw [loadRow]
    cases hentry : readEntry p with
    | none => exact Option.some_ne_none _
    | some next =>
      apply ih
      rw [rowEntries, hentry] at h
      exact Option.map_eq_none_iff.mp h

lemma length_rowEntries (h : rowEntries n p = some entries) : entries.length = n := by
  induction n generalizing p entries with
  | zero => rw [← Option.some.inj h, List.length_nil]
  | succ n ih =>
    obtain ⟨⟨entry, p'⟩, -, h⟩ := Option.bind_eq_some_iff.mp h
    obtain ⟨rest, hrest, rfl⟩ := Option.map_eq_some_iff.mp h
    rw [List.length_cons, ih hrest]

lemma loadRows_of_entries (h : fileEntries (map.grid.nums 0) n f = some entries)
    (hindex : (row + n) * map.grid.nums 0 ≤ 2 ^ 32) :
    loadRows m n row f map = (setEntries m (row * map.grid.nums 0) entries map, none) := by
  induction n generalizing row f map entries with
  | zero => rw [← Option.some.inj h, loadRows, setEntries]
  | succ n ih =>
    obtain ⟨⟨buffer, f'⟩, htext, h⟩ := Option.bind_eq_some_iff.mp h
    obtain ⟨first, hfirst, h⟩ := Option.bind_eq_some_iff.mp h
    obtain ⟨rest, hrest, rfl⟩ := Option.map_eq_some_iff.mp h
    have hrow : row * map.grid.nums 0 + map.grid.nums 0 ≤ 2 ^ 32 := by
      refine le_trans ?_ hindex
      rw [← Nat.succ_mul]
      exact Nat.mul_le_mul_right _ (by omega)
    rw [loadRows, htext]
    dsimp only
    rw [loadRow_of_entries hfirst hrow, add_zero]
    dsimp only
    rw [ih (by rwa [setEntries_grid]) (by rwa [setEntries_grid, Nat.succ_add_eq_add_succ]),
      setEntries_append, setEntries_grid, length_rowEntries hfirst, Nat.succ_mul]

lemma loadRow_grid {buffer : List Char} :
    (loadRow m row buffer n col p map).1.grid = map.grid := by
  induction n generalizing col p map with
  | zero => rfl
  | succ n ih =>
    rw [loadRow]
    split
    · rfl
    · rw [ih, setEntry_grid]

lemma loadRows_error (h : fileEntries (map.grid.nums 0) n f = none) :
    (loadRows m n row f map).2 ≠ none := by
  induction n generalizing row f map with
  | zero => exact absurd h (Option.some_ne_none _)
  | succ n ih =>
    rw [loadRows]
    cases htext : readText f with
    | none => exact Option.some_ne_none _
    | some next =>
      obtain ⟨buffer, f'⟩ := next
      dsimp only
      have hgrid : (loadRow m row buffer (map.grid.nums 0) 0 buffer map).1.grid = map.grid :=
        loadRow_grid
      split
      · next map' hrow =>
        rw [hrow] at hgrid
        apply ih
        rw [fileEntries, htext] at h
        cases hfirst : rowEntries (map.grid.nums 0) buffer with
        | none => exact absurd (congrArg Prod.snd hrow) (loadRow_error hfirst)
        | some first =>
          change ((rowEntries (map.grid.nums 0) buffer).bind fun entries =>
            (fileEntries (map.grid.nums 0) n f').map (entries ++ ·)) = none at h
          rw [hfirst] at h
          rw [show map'.grid = map.grid from hgrid]
          exact Option.map_eq_none_iff.mp h
      · exact Option.some_ne_none _

/-- The entry that an index gets from the entries that begin at `index`. -/
def entryAt (entries : List (Option ℚ)) (index k : ℕ) : Option ℚ :=
  if index ≤ k then entries[k - index]?.join else none

lemma entryAt_nil (index k : ℕ) : entryAt [] index k = none := by
  rw [entryAt]
  split
  · rw [List.getElem?_nil, Option.join_none]
  · rfl

lemma entryAt_cons (entry : Option ℚ) (k : ℕ) : entryAt (entry :: entries) index k =
    if k = index then entry else entryAt entries (index + 1) k := by
  rw [entryAt, entryAt]
  rcases Nat.lt_trichotomy k index with hlt | rfl | hlt
  · rw [if_neg (by omega), if_neg (by omega), if_neg (by omega)]
  · rw [if_pos le_rfl, if_pos rfl, Nat.sub_self, List.getElem?_cons_zero, Option.join_some]
  · have hsub : k - index = k - (index + 1) + 1 := by omega
    rw [if_pos hlt.le, if_neg hlt.ne', if_pos (Nat.succ_le_of_lt hlt), hsub,
      List.getElem?_cons_succ]

lemma mem_setEntry {entry : Option ℚ} (hroom : index < m.board.maxGridProbePoints) (k : ℕ) :
    k ∈ (setEntry m index entry map).gridHeightSet ↔
      k ∈ map.gridHeightSet ∨ (k = index ∧ entry ≠ none) := by
  cases entry with
  | none => simp [setEntry]
  | some ff =>
    rw [setEntry, setGridHeight, if_pos hroom, Finset.mem_insert, or_comm,
      and_iff_left (Option.some_ne_none _)]

lemma setEntry_heights {entry : Option ℚ} (hroom : index < m.board.maxGridProbePoints) (k : ℕ) :
    (setEntry m index entry map).gridHeights k =
      (if k = index then entry else none).getD (map.gridHeights k) := by
  cases entry with
  | none =>
    rw [ite_self]
    rfl
  | some ff =>
    rw [setEntry, setGridHeight, if_pos hroom]
    split
    · next h =>
      subst h
      exact Function.update_self _ _ _
    · next h => exact Function.update_of_ne h _ _

lemma mem_setEntries (hroom : index + entries.length ≤ m.board.maxGridProbePoints) (k : ℕ) :
    k ∈ (setEntries m index entries map).gridHeightSet ↔
      k ∈ map.gridHeightSet ∨ entryAt entries index k ≠ none := by
  induction entries generalizing index map with
  | nil => simp [setEntries, entryAt_nil]
  | cons entry entries ih =>
    rw [List.length_cons] at hroom
    rw [setEntries, ih (by omega), mem_setEntry (by omega), entryAt_cons, or_assoc]
    by_cases hk : k = index
    · subst hk
      have hbefore : entryAt entries (k + 1) k = none := if_neg (Nat.not_succ_le_self k)
      simp [hbefore]
    · simp [hk]

lemma setEntries_heights (hroom : index + entries.length ≤ m.board.maxGridProbePoints) (k : ℕ) :
    (setEntries m index entries map).gridHeights k =
      (entryAt entries index k).getD (map.gridHeights k) := by
  induction entries generalizing index map with
  | nil => rw [setEntries, entryAt_nil, Option.getD_none]
  | cons entry entries ih =>
    rw [List.length_cons] at hroom
    rw [setEntries, ih (by omega), setEntry_heights (by omega), entryAt_cons]
    by_cases hk : k = index
    · subst hk
      have hbefore : entryAt entries (k + 1) k = none := if_neg (Nat.not_succ_le_self k)
      rw [hbefore, if_pos rfl, Option.getD_none]
    · rw [if_neg hk, if_neg hk, Option.getD_none]

/-! ### The sizes -/

lemma length_skipComma (p : List Char) : (skipComma p).length ≤ p.length := by
  rw [skipComma]
  split
  · exact (List.tail_sublist p).length_le
  · exact le_rfl

lemma readEntry_length {entry : Option ℚ} (h : readEntry p = some (entry, s)) :
    s.length < p.length := by
  have hblank : (p.dropWhile isBlank).length ≤ p.length := (List.dropWhile_sublist _).length_le
  rw [readEntry] at h
  split at h
  · next hzero =>
    obtain ⟨-, rfl⟩ := Prod.mk.inj (Option.some.inj h)
    obtain ⟨t, ht⟩ := List.head?_eq_some_iff.mp hzero.1
    have hcomma := length_skipComma t
    rw [ht, List.length_cons] at hblank
    rw [ht, List.tail_cons]
    omega
  · obtain ⟨⟨ff, np⟩, hnumber, h⟩ := Option.map_eq_some_iff.mp h
    obtain ⟨-, rfl⟩ := Prod.mk.inj h
    have hcomma := length_skipComma np
    have hshorter := safeStrtof_length hnumber
    omega

lemma rowEntries_length (h : rowEntries n p = some entries) : n ≤ p.length := by
  induction n generalizing p entries with
  | zero => exact Nat.zero_le _
  | succ n ih =>
    obtain ⟨⟨entry, p'⟩, hentry, h⟩ := Option.bind_eq_some_iff.mp h
    obtain ⟨rest, hrest, rfl⟩ := Option.map_eq_some_iff.mp h
    exact (ih hrest).trans_lt (readEntry_length hentry)

lemma readText_length (h : readText f = some (s, f')) :
    s.length + f'.unread.length ≤ f.unread.length := by
  rw [readText] at h
  split at h
  · next line f₁ hread =>
    split at h
    · exact absurd h.symm (Option.some_ne_none _)
    · obtain ⟨rfl, rfl⟩ := Prod.mk.inj (Option.some.inj h)
      have hadvance := readLine_advance (by decide) hread
      have hprefix := (List.takeWhile_prefix (l := line) fun c => c ≠ '\x00').length_le
      omega
  · exact absurd h.symm (Option.some_ne_none _)

lemma fileEntries_length (h : fileEntries col n f = some entries) :
    entries.length = n * col ∧ entries.length ≤ f.unread.length := by
  induction n generalizing f entries with
  | zero =>
    rw [← Option.some.inj h]
    exact ⟨(Nat.zero_mul col).symm, Nat.zero_le _⟩
  | succ n ih =>
    obtain ⟨⟨buffer, f'⟩, htext, h⟩ := Option.bind_eq_some_iff.mp h
    obtain ⟨first, hfirst, h⟩ := Option.bind_eq_some_iff.mp h
    obtain ⟨rest, hrest, rfl⟩ := Option.map_eq_some_iff.mp h
    obtain ⟨hcount, hle⟩ := ih hrest
    have htextlength := readText_length htext
    have hrow := rowEntries_length hfirst
    rw [List.length_append, length_rowEntries hfirst, hcount, Nat.succ_mul]
    exact ⟨add_comm _ _, by omega⟩

lemma readHeader_ok (h : readHeader m f = .ok (g, f')) :
    GridDefinition.Accepted m g ∧ f'.unread.length ≤ f.unread.length := by
  rw [readHeader] at h
  split at h
  · exact nomatch h
  · next comment f₁ hcomment =>
    split at h
    · exact nomatch h
    · split at h
      · exact nomatch h
      · next labels f₂ hlabels =>
        split at h
        · exact nomatch h
        · next gridVersion _ =>
          split at h
          · exact nomatch h
          · next parameters f₃ hparameters =>
            split at h
            · exact nomatch h
            · next newGrid hread =>
              split at h
              · next hvalid =>
                obtain ⟨rfl, rfl⟩ := Prod.mk.inj (Except.ok.inj h)
                have h₁ := readText_length hcomment
                have h₂ := readText_length hlabels
                have h₃ := readText_length hparameters
                exact ⟨⟨hvalid, Or.inr ⟨_, _, hread⟩⟩, by omega⟩
              · exact nomatch h

/-- A file of less than 4 GiB has an entry for each point, and room for all of them. -/
lemma Describes.fits (h : Describes m f g entries) (hsize : f.contents.length < 2 ^ 32) :
    GridDefinition.Accepted m g ∧ entries.length = g.nums 0 * g.nums 1 ∧
      g.nums 0 * g.nums 1 < 2 ^ 32 ∧ entries.length ≤ m.board.maxGridProbePoints := by
  obtain ⟨f', hheader, hentries⟩ := h
  obtain ⟨haccepted, hunread⟩ := readHeader_ok hheader
  obtain ⟨hcount, hle⟩ := fileEntries_length hentries
  have hcontents : f.unread.length ≤ f.contents.length := (List.drop_sublist _ _).length_le
  have hproduct : entries.length = g.nums 0 * g.nums 1 := hcount.trans (mul_comm _ _)
  have hfits : g.nums 0 * g.nums 1 < 2 ^ 32 := by omega
  have hpoints := haccepted.valid.points_le
  rw [GridDefinition.numPoints, Nat.mod_eq_of_lt hfits] at hpoints
  exact ⟨haccepted, hproduct, hfits, by omega⟩

/-- The map after the loops over the rows. -/
def loadedMap (m : Machine) (g : GridDefinition) (entries : List (Option ℚ)) (prior : HeightMap) :
    HeightMap :=
  setEntries m 0 entries (setGrid g (clearGridHeights prior))

lemma loadFromFile_of_describes (fname : List Char) (prior : HeightMap)
    (h : Describes m f g entries) (hsize : f.contents.length < 2 ^ 32) :
    loadFromFile m build f fname prior =
      ({ (loadedMap m g entries prior).extrapolateMissing build with fileName := fname }, none) :=
      by
  obtain ⟨-, -, hfits, -⟩ := h.fits hsize
  obtain ⟨f', hheader, hentries⟩ := h
  have hrows : loadRows m (g.nums 1) 0 f' (setGrid g (clearGridHeights prior)) =
      (loadedMap m g entries prior, none) := by
    have hroom : (0 + g.nums 1) * g.nums 0 ≤ 2 ^ 32 := by
      rw [zero_add, mul_comm]
      exact hfits.le
    rw [loadRows_of_entries hentries hroom, zero_mul, loadedMap]
  rw [loadFromFile, hheader]
  change (match loadRows m (g.nums 1) 0 f' (setGrid g (clearGridHeights prior)) with
    | (map, some reason) => (map, some reason)
    | (map, none) => ({ map.extrapolateMissing build with fileName := fname }, none)) = _
  rw [hrows]

/-- Only a file that describes a height map is loaded. -/
lemma describes_of_loaded {fname : List Char} {prior : HeightMap}
    (h : (loadFromFile m build f fname prior).2 = none) : ∃ g entries, Describes m f g entries := by
  rw [loadFromFile] at h
  cases hheader : readHeader m f with
  | error reason =>
    rw [hheader] at h
    exact absurd h (Option.some_ne_none reason)
  | ok next =>
    obtain ⟨g, f'⟩ := next
    rw [hheader] at h
    cases hentries : fileEntries (g.nums 0) (g.nums 1) f' with
    | some entries => exact ⟨g, entries, f', hheader, hentries⟩
    | none =>
      have herror :
          (loadRows m (g.nums 1) 0 f' (setGrid g (clearGridHeights prior))).2 ≠ none :=
        loadRows_error hentries
      dsimp only at h
      split at h
      · exact absurd h (Option.some_ne_none _)
      · next hrows =>
        exact absurd (congrArg Prod.snd hrows) herror

/-! ### The probed points of a loaded map -/

lemma loadedMap_grid (prior : HeightMap) : (loadedMap m g entries prior).grid = g :=
  setEntries_grid

lemma mem_loadedMap (hroom : entries.length ≤ m.board.maxGridProbePoints) (prior : HeightMap)
    (k : ℕ) : k ∈ (loadedMap m g entries prior).gridHeightSet ↔ entries[k]?.join ≠ none := by
  rw [loadedMap, mem_setEntries (by omega), entryAt, if_pos (Nat.zero_le k), Nat.sub_zero]
  exact or_iff_right (Finset.notMem_empty k)

lemma loadedMap_heights (hroom : entries.length ≤ m.board.maxGridProbePoints)
    (prior : HeightMap) (k : ℕ) : (loadedMap m g entries prior).gridHeights k =
      entries[k]?.join.getD (prior.gridHeights k) := by
  rw [loadedMap, setEntries_heights (by omega), entryAt, if_pos (Nat.zero_le k), Nat.sub_zero]
  rfl

lemma loadedMap_same (hroom : entries.length ≤ m.board.maxGridProbePoints)
    (prior prior' : HeightMap) :
    SameProbed (loadedMap m g entries prior) (loadedMap m g entries prior') := by
  refine ⟨?_, ?_, fun k hk => ?_⟩
  · rw [loadedMap_grid, loadedMap_grid]
  · ext k
    rw [mem_loadedMap hroom, mem_loadedMap hroom]
  · obtain ⟨height, hheight⟩ := Option.ne_none_iff_exists'.mp ((mem_loadedMap hroom prior k).mp hk)
    rw [loadedMap_heights hroom, loadedMap_heights hroom, hheight, Option.getD_some,
      Option.getD_some]

lemma isSet_loadedMap (hroom : entries.length ≤ m.board.maxGridProbePoints)
    (hfits : g.nums 0 * g.nums 1 < 2 ^ 32) (prior : HeightMap) {q : ℕ × ℕ}
    (hq : q ∈ gridPoints g) :
    (loadedMap m g entries prior).isSet q ↔ heightInFile g entries q ≠ none := by
  obtain ⟨h0, h1⟩ := mem_gridPoints.mp hq
  have hindex : (loadedMap m g entries prior).getMapIndex q.1 q.2 = q.2 * g.nums 0 + q.1 := by
    rw [getMapIndex_eq (by rwa [loadedMap_grid]) (by rwa [loadedMap_grid])
      (by rwa [loadedMap_grid]), loadedMap_grid]
  rw [isSet, hindex, mem_loadedMap hroom, heightInFile]

lemma probed_loadedMap (hroom : entries.length ≤ m.board.maxGridProbePoints)
    (hfits : g.nums 0 * g.nums 1 < 2 ^ 32) (prior : HeightMap) :
    (loadedMap m g entries prior).probed = probedInFile g entries := by
  rw [probed, probedInFile, loadedMap_grid]
  apply Finset.filter_congr
  intro q hq
  exact isSet_loadedMap hroom hfits prior (List.mem_toFinset.mp hq)

/-! ### What the heights depend on -/

lemma heightAt_extrapolated (hfits : map.grid.nums 0 * map.grid.nums 1 < 2 ^ 32) {i j : ℕ}
    (hi : i < map.grid.nums 0) (hj : j < map.grid.nums 1) :
    (map.extrapolateMissing build).heightAt i j =
      (map.extrapolateMissing build).pointHeight (i, j) := by
  have hgrid := (extrapolateMissing_same build map).grid
  rw [pointHeight, heightAt, getMapIndex_eq (hgrid ▸ hi) (hgrid ▸ hj) (hgrid ▸ hfits)]

lemma loaded_grid (prior : HeightMap) :
    ((loadedMap m g entries prior).extrapolateMissing build).grid = g := by
  rw [← (extrapolateMissing_same build _).grid, loadedMap_grid]

lemma fitPlane_loadedMap (hv : GridDefinition.Valid m g)
    (hroom : entries.length ≤ m.board.maxGridProbePoints)
    (hfits : g.nums 0 * g.nums 1 < 2 ^ 32) (prior : HeightMap) :
    (loadedMap m g entries prior).fitPlane build = none ↔
      OnOneLine (probedInFile g entries) (fun p => (p.1 : ℚ)) (fun p => (p.2 : ℚ)) := by
  rw [fitPlane_eq_none_iff, probed_loadedMap hroom hfits]
  intro axis
  rw [loadedMap_grid]
  exact (lt_of_lt_of_le (by norm_num) (hv.spacing axis)).ne'

/-- In a determined map, the heights of the points do not depend on the map before. -/
lemma Determined.heights (hdetermined : Determined g entries) (hv : GridDefinition.Valid m g)
    (hroom : entries.length ≤ m.board.maxGridProbePoints)
    (hfits : g.nums 0 * g.nums 1 < 2 ^ 32) (prior prior' : HeightMap) {q : ℕ × ℕ}
    (hq : q ∈ gridPoints g) :
    ((loadedMap m g entries prior).extrapolateMissing build).pointHeight q =
      ((loadedMap m g entries prior').extrapolateMissing build).pointHeight q := by
  have hsame := loadedMap_same (g := g) hroom prior prior'
  obtain hall | hline := hdetermined
  · have hset := (isSet_loadedMap hroom hfits prior hq).mpr (hall q hq)
    rw [← (extrapolateMissing_same build _).pointHeight hset,
      ← (extrapolateMissing_same build _).pointHeight ((hsame.isSet_iff q).mp hset),
      hsame.pointHeight hset]
  · apply hsame.extrapolateMissing
    · rwa [loadedMap_grid]
    · exact fun hnone => hline ((fitPlane_loadedMap hv hroom hfits prior).mp hnone)
    · rwa [loadedMap_grid]

/-- A map with the same height everywhere. -/
def flatMap (z : ℚ) : HeightMap := ⟨GridDefinition.undefined, fun _ => z, ∅, [], false⟩

/-- A point of a map that is not determined, which was not probed, keeps its height. -/
lemma height_kept (hline : OnOneLine (probedInFile g entries) (fun p => (p.1 : ℚ))
      (fun p => (p.2 : ℚ))) (hv : GridDefinition.Valid m g)
    (hroom : entries.length ≤ m.board.maxGridProbePoints)
    (hfits : g.nums 0 * g.nums 1 < 2 ^ 32) (prior : HeightMap) {q : ℕ × ℕ}
    (hmissing : heightInFile g entries q = none) :
    ((loadedMap m g entries prior).extrapolateMissing build).heightAt q.1 q.2 =
      prior.gridHeights (q.2 * g.nums 0 + q.1) := by
  have hnone : (loadedMap m g entries prior).fitPlane build = none :=
    (fitPlane_loadedMap hv hroom hfits prior).mpr hline
  rw [heightInFile] at hmissing
  rw [extrapolateMissing, hnone]
  dsimp only
  rw [heightAt, loadedMap_grid, loadedMap_heights hroom, hmissing, Option.getD_none]

lemma loadFromFile_grid (fname : List Char) (prior : HeightMap) (h : Describes m f g entries)
    (hsize : f.contents.length < 2 ^ 32) :
    (loadFromFile m build f fname prior).1.grid = g := by
  rw [loadFromFile_of_describes fname prior h hsize]
  exact loaded_grid prior

lemma loadFromFile_heightAt (fname : List Char) (prior : HeightMap) (h : Describes m f g entries)
    (hsize : f.contents.length < 2 ^ 32) (i j : ℕ) :
    (loadFromFile m build f fname prior).1.heightAt i j =
      ((loadedMap m g entries prior).extrapolateMissing build).heightAt i j := by
  rw [loadFromFile_of_describes fname prior h hsize]
  rfl

def mapFile (rows : String) : FileStore where
  contents :=
    ("RepRapFirmware height map file v2\n" ++
      "axis0,axis1,min0,max0,min1,max1,radius,spacing0,spacing1,num0,num1\n" ++
      "X,Y,0.00,100.00,0.00,100.00,-1.00,100.00,100.00,2,2\n" ++ rows).toList
  position := 0

/-- The argument of the square root is close to 1, and so is the root. -/
def plainBuild : Build := ⟨false, fun x => (x + 1) / 2⟩

end RepRapFirmware.Movement.BedProbing.HeightMap
