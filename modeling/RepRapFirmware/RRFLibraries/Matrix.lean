import RepRapFirmware.Library.LinearSystems

/-! `FixedMatrix`, an array of rows,
  and the elimination by which it solves a system of equations. -/

namespace RepRapFirmware.RRFLibraries.FixedMatrix

open Finset RepRapFirmware.Library.LinearSystems

variable {α : Type*} [Field α] [LinearOrder α]

def swapRows (i j numCols : ℕ) (data : ℕ → ℕ → α) : ℕ → ℕ → α :=
  if i ≠ j then fun r c =>
    if c < numCols then
      if r = i then data j c else if r = j then data i c else data r c
    else data r c
  else data

/-- The row `j` is exchanged with row `i` if it has the larger element. -/
def choosePivot (i numCols : ℕ) (s : (ℕ → ℕ → α) × α) (j : ℕ) : (ℕ → ℕ → α) × α :=
  let rmax := |s.1 j i|
  if rmax > s.2 then (swapRows i j numCols s.1, rmax) else s

/-- The rows swapped around for stable elimination. -/
def pivotRows (numRows numCols i : ℕ) (data : ℕ → ℕ → α) : ℕ → ℕ → α :=
  ((List.range' (i + 1) (numRows - (i + 1))).foldl (choosePivot i numCols) (data, |data i i|)).1

/-- The element of row `j` in column `i` is eliminated. -/
def eliminateRow (i numCols : ℕ) (v : α) (data : ℕ → ℕ → α) (j : ℕ) : ℕ → ℕ → α :=
  let factor := data j i / v
  fun r c =>
    if r = j then
      if c = i then 0
      else if i < c ∧ c < numCols then data j c - data i c * factor
      else data j c
    else data r c

/-- Row `i` is used to eliminate column `i` from the previous and the subsequent rows. -/
def eliminateColumn (numRows numCols : ℕ) (data : ℕ → ℕ → α) (i : ℕ) : Option (ℕ → ℕ → α) :=
  let data := pivotRows numRows numCols i data
  let v := data i i
  if v = 0 then none
  else
    let data := (List.range' 0 i).foldl (eliminateRow i numCols v) data
    some ((List.range' (i + 1) (numRows - (i + 1))).foldl (eliminateRow i numCols v) data)

def normaliseRow (numRows numCols : ℕ) (data : ℕ → ℕ → α) (r : ℕ) : ℕ → ℕ → α :=
  let val := data r r
  fun r' c =>
    if r' = r then
      if c = r then 1 else if numRows ≤ c ∧ c < numCols then data r c / val else data r c
    else data r' c

/-- Elimination on a matrix of `numRows` rows and `numCols` columns. There is no result if it is not
possible. -/
def gaussJordan (numRows numCols : ℕ) (data : ℕ → ℕ → α) : Option (ℕ → ℕ → α) :=
  ((List.range' 0 numRows).foldlM (eliminateColumn numRows numCols) data).map fun data =>
    (List.range' 0 numRows).foldl (normaliseRow numRows numCols) data

/-! ### Loops -/

/-- What every pass of a loop keeps, from one value of the counter to the next. -/
lemma foldl_range' {σ : Type*} {f : σ → ℕ → σ} {P : ℕ → σ → Prop} {x : σ} (start count : ℕ)
    (hx : P start x) (hf : ∀ j y, start ≤ j → j < start + count → P j y → P (j + 1) (f y j)) :
    P (start + count) ((List.range' start count).foldl f x) := by
  induction count generalizing start x with
  | zero => exact hx
  | succ count ih =>
    rw [List.range'_succ, List.foldl_cons, show start + (count + 1) = start + 1 + count by omega]
    apply ih
    · exact hf start x le_rfl (by omega) hx
    · exact fun j y hj hlt => hf j y (by omega) (by omega)

lemma foldlM_range' {σ : Type*} {f : σ → ℕ → Option σ} {P : ℕ → σ → Prop} {x : σ}
    (start count : ℕ) (hx : P start x)
    (hf : ∀ j y, start ≤ j → j < start + count → P j y → ∃ y', f y j = some y' ∧ P (j + 1) y') :
    ∃ y, (List.range' start count).foldlM f x = some y ∧ P (start + count) y := by
  induction count generalizing start x with
  | zero => exact ⟨x, rfl, hx⟩
  | succ count ih =>
    obtain ⟨y, hy, hP⟩ := hf start x le_rfl (by omega) hx
    rw [List.range'_succ, List.foldlM_cons, hy,
      show start + (count + 1) = start + 1 + count by omega]
    exact ih (start + 1) hP fun j y hj hlt => hf j y (by omega) (by omega)

/-- What every pass of a loop that comes to its end has kept. -/
lemma foldlM_range'_some {σ : Type*} {f : σ → ℕ → Option σ} {P : ℕ → σ → Prop} {x y : σ}
    (start count : ℕ) (hx : P start x)
    (hf : ∀ j z z', start ≤ j → j < start + count → P j z → f z j = some z' → P (j + 1) z')
    (hy : (List.range' start count).foldlM f x = some y) : P (start + count) y := by
  induction count generalizing start x with
  | zero =>
    obtain rfl : x = y := Option.some.inj hy
    exact hx
  | succ count ih =>
    rw [List.range'_succ, List.foldlM_cons] at hy
    obtain ⟨z, hz, hrest⟩ := Option.bind_eq_some_iff.mp hy
    rw [show start + (count + 1) = start + 1 + count by omega]
    exact ih (start + 1) (hf start x z le_rfl (by omega) hx hz)
      (fun j w w' hj hlt => hf j w w' (by omega) (by omega)) hrest

/-! ### One column -/

variable {n m i : ℕ} {data data' : ℕ → ℕ → α}

/-- The rows up to `j` have no larger element in column `i` than row `i`. -/
structure Pivoting (n m i : ℕ) (data : ℕ → ℕ → α) (j : ℕ) (s : (ℕ → ℕ → α) × α) : Prop where
  kernel : SameKernel n m data s.1
  reduced : Reduced n i s.1
  largest : s.2 = |s.1 i i|
  smaller : ∀ r, i ≤ r → r < j → |s.1 r i| ≤ s.2

omit [Field α] [LinearOrder α] in
lemma swapRows_eq {j : ℕ} (hij : i ≠ j) {r c : ℕ} (hc : c < m) : swapRows i j m data r c =
    if r = i then data j c else if r = j then data i c else data r c := by
  rw [swapRows, if_pos hij, if_pos hc]

lemma choosePivot_pivoting {s : (ℕ → ℕ → α) × α} {j : ℕ} (hi : i < n) (hnm : n ≤ m) (hij : i < j)
    (hj : j < n) (h : Pivoting n m i data j s) :
    Pivoting n m i data (j + 1) (choosePivot i m s j) := by
  obtain ⟨data', vmax⟩ := s
  obtain ⟨hkernel, hreduced, hlargest, hsmaller⟩ := h
  simp only at hkernel hreduced hlargest hsmaller
  rw [choosePivot]
  simp only
  split
  · next hmore =>
    have heq : ∀ {r c : ℕ}, c < m → swapRows i j m data' r c =
        if r = i then data' j c else if r = j then data' i c else data' r c :=
      swapRows_eq hij.ne
    refine ⟨hkernel.trans ?_, fun k hk => ⟨?_, fun r hr hrk => ?_⟩, ?_, fun r hir hrj => ?_⟩
    · change SameKernel n m data' (swapRows i j m data')
      apply sameKernel_swap hi hj
      · intro c hc
        rw [heq hc, if_pos rfl]
      · intro c hc
        rw [heq hc, if_neg hij.ne', if_pos rfl]
      · intro r hri hrj c hc
        rw [heq hc, if_neg hri, if_neg hrj]
    · change swapRows i j m data' k k ≠ 0
      rw [heq (by omega), if_neg (by omega), if_neg (by omega)]
      exact (hreduced k hk).1
    · change swapRows i j m data' r k = 0
      rw [heq (by omega)]
      split
      · exact (hreduced k hk).2 j hj (by omega)
      · split
        · exact (hreduced k hk).2 i hi (by omega)
        · exact (hreduced k hk).2 r hr hrk
    · change |data' j i| = |swapRows i j m data' i i|
      rw [heq (by omega), if_pos rfl]
    · change |swapRows i j m data' r i| ≤ |data' j i|
      rw [heq (by omega)]
      split
      · exact le_rfl
      · split
        · rw [← hlargest]
          exact hmore.le
        · exact (hsmaller r hir (by omega)).trans hmore.le
  · next hless =>
    refine ⟨hkernel, hreduced, hlargest, fun r hir hrj => ?_⟩
    rcases Nat.lt_succ_iff_lt_or_eq.mp hrj with hlt | rfl
    · exact hsmaller r hir hlt
    · exact not_lt.mp hless

lemma pivotRows_pivoting (hi : i < n) (hnm : n ≤ m) (h : Reduced n i data) :
    SameKernel n m data (pivotRows n m i data) ∧ Reduced n i (pivotRows n m i data) ∧
      ∀ r, i ≤ r → r < n → |pivotRows n m i data r i| ≤ |pivotRows n m i data i i| := by
  have hstart : Pivoting n m i data (i + 1) (data, |data i i|) := by
    refine ⟨.refl data, h, rfl, fun r hir hri => ?_⟩
    rw [show r = i by omega]
  have hend := foldl_range' (P := Pivoting n m i data) (i + 1) (n - (i + 1)) hstart
    fun j y hj hlt hy => choosePivot_pivoting hi hnm (by omega) (by omega) hy
  rw [show i + 1 + (n - (i + 1)) = n by omega] at hend
  refine ⟨hend.kernel, hend.reduced, fun r hir hrn => ?_⟩
  exact (hend.smaller r hir hrn).trans hend.largest.le

/-- The rows for which `done` holds have been eliminated. -/
structure Eliminating (n m i : ℕ) (data : ℕ → ℕ → α) (done : ℕ → Prop) (data' : ℕ → ℕ → α) :
    Prop where
  kernel : SameKernel n m data data'
  reduced : Reduced n i data'
  pivot : data' i = data i
  zero : ∀ r, r ≠ i → done r → data' r i = 0

omit [LinearOrder α] in
lemma eliminateRow_eliminating {done done' : ℕ → Prop} {j : ℕ} (hi : i < n) (hij : i ≠ j)
    (hpivot : data i i ≠ 0) (hdone : ∀ r, done' r → r = j ∨ done r) (h
    : Eliminating n m i data done data') :
    Eliminating n m i data done' (eliminateRow i m (data i i) data' j) := by
  have hrow : eliminateRow i m (data i i) data' j i = data' i := by
    funext c
    rw [eliminateRow]
    simp only
    rw [if_neg hij]
  refine ⟨h.kernel.trans ?_, fun k hk => ⟨?_, fun r hr hrk => ?_⟩, ?_, fun r hri hr => ?_⟩
  · apply sameKernel_subtract hij hi (data' j i / data i i)
    · intro c hc
      rw [eliminateRow]
      simp only
      rw [if_pos trivial]
      split
      · next hci => rw [hci, h.pivot, mul_div_cancel₀ _ hpivot, sub_self]
      · split
        · rfl
        · rw [(h.reduced c (by omega)).2 i hi (by omega), zero_mul, sub_zero]
    · intro r hrj c _
      rw [eliminateRow]
      simp only
      rw [if_neg hrj]
  · rw [eliminateRow]
    simp only
    split
    · next hkj =>
      rw [if_neg (by omega), if_neg (by omega), ← hkj]
      exact (h.reduced k hk).1
    · exact (h.reduced k hk).1
  · rw [eliminateRow]
    simp only
    split
    · next hrj =>
      rw [if_neg (by omega), if_neg (by omega), ← hrj]
      exact (h.reduced k hk).2 r hr hrk
    · exact (h.reduced k hk).2 r hr hrk
  · rw [hrow, h.pivot]
  · rw [eliminateRow]
    simp only
    split
    · rw [if_pos trivial]
    · next hrj =>
      rcases hdone r hr with heq | hbefore
      · exact absurd heq hrj
      · exact h.zero r hri hbefore

/-- Where there is a pivot the column is eliminated. -/
lemma eliminateColumn_of_pivot (hi : i < n) (hnm : n ≤ m) (h : Reduced n i data)
    (hne : pivotRows n m i data i i ≠ 0) :
    ∃ data', eliminateColumn n m data i = some data' ∧ SameKernel n m data data' ∧
      Reduced n (i + 1) data' := by
  obtain ⟨hkernel, hreduced, -⟩ := pivotRows_pivoting hi hnm h
  rw [eliminateColumn]
  simp only
  generalize pivotRows n m i data = pivoted at hkernel hreduced hne
  rw [if_neg hne]
  have hstart : Eliminating n m i pivoted (fun r => r < 0) pivoted :=
    ⟨.refl pivoted, hreduced, rfl, fun r _ hr => absurd hr (Nat.not_lt_zero r)⟩
  have hbefore := foldl_range' (P := fun j => Eliminating n m i pivoted fun r => r < j) 0 i hstart
    fun j y hj hlt hy =>
      eliminateRow_eliminating hi (show i ≠ j by omega) hne (fun r hr => by omega) hy
  rw [Nat.zero_add] at hbefore
  have hskip : Eliminating n m i pivoted (fun r => r < i + 1)
      ((List.range' 0 i).foldl (eliminateRow i m (pivoted i i)) pivoted) :=
    { hbefore with zero := fun r hri hr => hbefore.zero r hri (by omega) }
  have hafter := foldl_range' (P := fun j => Eliminating n m i pivoted fun r => r < j)
    (i + 1) (n - (i + 1)) hskip
    fun j y hj hlt hy =>
      eliminateRow_eliminating hi (show i ≠ j by omega) hne (fun r hr => by omega) hy
  rw [show i + 1 + (n - (i + 1)) = n by omega] at hafter
  refine ⟨_, rfl, hkernel.trans hafter.kernel, fun k hk => ?_⟩
  rcases Nat.lt_succ_iff_lt_or_eq.mp hk with hlt | rfl
  · exact hafter.reduced k hlt
  · rw [hafter.pivot]
    exact ⟨hne, fun r hr hrk => hafter.zero r hrk hr⟩

/-- Either there is no pivot, or the column is eliminated. -/
lemma eliminateColumn_reduced [IsStrictOrderedRing α] (hi : i < n) (hnm : n ≤ m)
    (h : Reduced n i data)
    (hpivot : ∀ data', SameKernel n m data data' → Reduced n i data' →
      ¬ ∀ r < n, i ≤ r → data' r i = 0) :
    ∃ data', eliminateColumn n m data i = some data' ∧ SameKernel n m data data' ∧
      Reduced n (i + 1) data' := by
  obtain ⟨hkernel, hreduced, hlargest⟩ := pivotRows_pivoting hi hnm h
  apply eliminateColumn_of_pivot hi hnm h
  intro hzero
  apply hpivot _ hkernel hreduced
  intro r hr hir
  have hle := hlargest r hir hr
  rw [hzero, abs_zero] at hle
  exact abs_eq_zero.mp (le_antisymm hle (abs_nonneg _))

lemma eliminateColumn_some (hi : i < n) (hnm : n ≤ m) (h : Reduced n i data)
    (hsome : eliminateColumn n m data i = some data') :
    SameKernel n m data data' ∧ Reduced n (i + 1) data' := by
  have hne : pivotRows n m i data i i ≠ 0 := by
    intro hzero
    rw [eliminateColumn] at hsome
    simp only at hsome
    rw [if_pos hzero] at hsome
    exact absurd hsome.symm (Option.some_ne_none _)
  obtain ⟨next, hnext, hsame, hreduced⟩ := eliminateColumn_of_pivot hi hnm h hne
  obtain rfl : next = data' := Option.some.inj (hnext.symm.trans hsome)
  exact ⟨hsame, hreduced⟩

/-! ### The result -/

omit [LinearOrder α] in
lemma normaliseRow_of_ne {r r' : ℕ} (h : r' ≠ r) : normaliseRow n m data r r' = data r' := by
  funext c
  rw [normaliseRow]
  simp only
  rw [if_neg h]

omit [LinearOrder α] in
/-- The right hand sides are divided by the diagonal. -/
lemma normalised {r c : ℕ} (hr : r < n) (hc : n ≤ c) (hcm : c < m) :
    (List.range' 0 n).foldl (normaliseRow n m) data r c = data r c / data r r := by
  have hpass : ∀ j data', 0 ≤ j → j < 0 + n →
      (j ≤ r → data' r = data r) ∧ (r < j → data' r c = data r c / data r r) →
      (j + 1 ≤ r → normaliseRow n m data' j r = data r) ∧
        (r < j + 1 → normaliseRow n m data' j r c = data r c / data r r) := by
    intro j data' _ _ ⟨hbefore, hafter⟩
    by_cases hjr : j = r
    · refine ⟨fun h => by omega, fun _ => ?_⟩
      rw [normaliseRow]
      simp only
      rw [if_pos hjr.symm, if_neg (by omega), if_pos ⟨hc, hcm⟩, hjr, hbefore hjr.le]
    · rw [normaliseRow_of_ne (Ne.symm hjr)]
      exact ⟨fun h => hbefore (by omega), fun h => hafter (by omega)⟩
  exact (foldl_range' (P := fun j (data' : ℕ → ℕ → α) => (j ≤ r → data' r = data r) ∧
    (r < j → data' r c = data r c / data r r)) 0 n
    ⟨fun _ => rfl, fun h => absurd h (Nat.not_lt_zero r)⟩ hpass).2 (by omega)

/-- If only the zero vector solves the homogeneous system, the columns from `numRows` on are
replaced
by the solutions of the system for these right hand sides. -/
lemma gaussJordan_solves [IsStrictOrderedRing α] (hnm : n ≤ m)
    (hregular : ∀ x : ℕ → α, (∀ r < n, ∑ k ∈ range n, data r k * x k = 0) → ∀ k < n, x k = 0) :
    ∃ data', gaussJordan n m data = some data' ∧ ∀ c, n ≤ c → c < m → ∀ r < n,
      ∑ k ∈ range n, data r k * data' k c = data r c := by
  have hstep : ∀ i data', 0 ≤ i → i < 0 + n → SameKernel n m data data' ∧ Reduced n i data' →
      ∃ next, eliminateColumn n m data' i = some next ∧
        SameKernel n m data next ∧ Reduced n (i + 1) next := by
    intro i data' _ hi ⟨hkernel, hreduced⟩
    have hpivot : ∀ other, SameKernel n m data' other → Reduced n i other →
        ¬ ∀ r < n, i ≤ r → other r i = 0 := by
      intro other hother hreducedOther hcolumn
      obtain ⟨x, hone, hbeyond, hx⟩ := hreducedOther.exists_kernel (by omega : i < m) hcolumn
      have hzero : ∀ r < n, ∑ k ∈ range n, data r k * x k = 0 := by
        intro r hr
        have hrow := ((hkernel.trans hother) x).mpr hx r hr
        obtain ⟨d, rfl⟩ := Nat.exists_eq_add_of_le hnm
        rw [sum_range_add] at hrow
        rw [← hrow, left_eq_add]
        apply sum_eq_zero
        intro k _
        rw [hbeyond (n + k) (by omega), mul_zero]
      have hnone := hregular x hzero i (by omega)
      rw [hone] at hnone
      exact one_ne_zero hnone
    obtain ⟨next, hnext, hsame, hreduced'⟩ :=
      eliminateColumn_reduced (by omega : i < n) hnm hreduced hpivot
    exact ⟨next, hnext, hkernel.trans hsame, hreduced'⟩
  obtain ⟨reduced, hreduced, hkernel, hdiagonal⟩ := foldlM_range'
    (P := fun i data' => SameKernel n m data data' ∧ Reduced n i data')
    0 n ⟨.refl data, fun k hk => absurd hk (Nat.not_lt_zero k)⟩ hstep
  rw [Nat.zero_add] at hdiagonal
  refine ⟨(List.range' 0 n).foldl (normaliseRow n m) reduced, ?_, fun c hc hcm r hr => ?_⟩
  · rw [gaussJordan, hreduced]
    rfl
  -- the solution, and -1 for the right hand side, make a vector of the kernel
  have hkernel' : Kernel n m data fun k =>
      if k < n then reduced k c / reduced k k else if k = c then -1 else 0 := by
    rw [hkernel]
    intro r' hr'
    have hterm : ∑ k ∈ range m, reduced r' k *
        (if k < n then reduced k c / reduced k k else if k = c then -1 else 0) =
        reduced r' r' * (reduced r' c / reduced r' r') + reduced r' c * (-1) := by
      rw [sum_eq_add r' c (by omega)]
      · rw [if_pos hr', if_neg (by omega), if_pos rfl]
      · intro k _ hne
        by_cases hkn : k < n
        · rw [(hdiagonal k hkn).2 r' hr' (Ne.symm hne.1), zero_mul]
        · rw [if_neg hkn, if_neg hne.2, mul_zero]
      · exact fun hrange => absurd (mem_range.mpr (by omega)) hrange
      · exact fun hrange => absurd (mem_range.mpr hcm) hrange
    rw [hterm, mul_div_cancel₀ _ (hdiagonal r' hr').1]
    ring
  have hrow := hkernel' r hr
  have hsplit : ∑ k ∈ range m, data r k *
      (if k < n then reduced k c / reduced k k else if k = c then -1 else 0) =
      ∑ k ∈ range n, data r k * (reduced k c / reduced k k) - data r c := by
    obtain ⟨d, rfl⟩ := Nat.exists_eq_add_of_le hnm
    rw [sum_range_add, sub_eq_add_neg]
    congr 1
    · apply sum_congr rfl
      intro k hk
      rw [if_pos (mem_range.mp hk)]
    · rw [sum_eq_single (c - n)]
      · rw [if_neg (by omega), if_pos (by omega), mul_neg_one, Nat.add_sub_cancel' hc]
      · intro k _ hne
        rw [if_neg (by omega), if_neg (by omega), mul_zero]
      · exact fun hrange => absurd (mem_range.mpr (by omega)) hrange
  rw [hsplit, sub_eq_zero] at hrow
  rw [← hrow]
  apply sum_congr rfl
  intro k hk
  rw [normalised (mem_range.mp hk) hc hcm]

omit [LinearOrder α] in
/-- The diagonal becomes one, and the rest of the eliminated columns stays zero. -/
lemma normalised_identity {r c : ℕ} (h : Reduced n n data) (hr : r < n) (hc : c < n) :
    (List.range' 0 n).foldl (normaliseRow n m) data r c = if r = c then 1 else 0 := by
  have hpass : ∀ j (data' : ℕ → ℕ → α), 0 ≤ j → j < 0 + n →
      (r ≠ c → data' r c = 0) ∧ (r < j → r = c → data' r c = 1) →
      (r ≠ c → normaliseRow n m data' j r c = 0) ∧
        (r < j + 1 → r = c → normaliseRow n m data' j r c = 1) := by
    intro j data' _ hj ⟨hzero, hone⟩
    by_cases hjr : j = r
    · rw [normaliseRow]
      simp only
      rw [if_pos hjr.symm]
      refine ⟨fun hne => ?_, fun _ heq => if_pos (heq ▸ hjr.symm)⟩
      rw [if_neg (by omega), if_neg (by omega), hjr]
      exact hzero hne
    · rw [normaliseRow_of_ne (Ne.symm hjr)]
      exact ⟨hzero, fun hlt => hone (by omega)⟩
  have hend := foldl_range' (P := fun j (data' : ℕ → ℕ → α) =>
    (r ≠ c → data' r c = 0) ∧ (r < j → r = c → data' r c = 1)) 0 n
    ⟨fun hne => (h c hc).2 r hr hne, fun hlt => absurd hlt (Nat.not_lt_zero r)⟩ hpass
  by_cases heq : r = c
  · rw [if_pos heq]
    exact hend.2 (by omega) heq
  · rw [if_neg heq]
    exact hend.1 heq

/-- The columns are eliminated only where the square part is not singular. -/
lemma regular_of_gaussJordan (hnm : n ≤ m) (h : gaussJordan n m data = some data') :
    (∀ x : ℕ → α, (∀ r < n, ∑ k ∈ range n, data r k * x k = 0) → ∀ k < n, x k = 0) ∧
      ∀ r < n, ∀ c < n, data' r c = if r = c then 1 else 0 := by
  obtain ⟨reduced, hreduced, rfl⟩ := Option.map_eq_some_iff.mp h
  have hend := foldlM_range'_some (P := fun i data' => SameKernel n m data data' ∧
    Reduced n i data')
    0 n ⟨.refl data, fun k hk => absurd hk (Nat.not_lt_zero k)⟩
    (fun i _ _ _ hi hbefore hsome => by
      have hafter := eliminateColumn_some (by omega) hnm hbefore.2 hsome
      exact ⟨hbefore.1.trans hafter.1, hafter.2⟩) hreduced
  rw [Nat.zero_add] at hend
  obtain ⟨hkernel, hdiagonal⟩ := hend
  refine ⟨fun x hx k hk => ?_, fun r hr c hc => normalised_identity hdiagonal hr hc⟩
  -- the vector is continued with zeros
  obtain ⟨y, hin, hout⟩ : ∃ y : ℕ → α, (∀ c < n, y c = x c) ∧ ∀ c, n ≤ c → y c = 0 :=
    ⟨fun c => if c < n then x c else 0, fun c hc => if_pos hc, fun c hc => if_neg (by omega)⟩
  have hzero : Kernel n m reduced y := by
    rw [← hkernel]
    intro r hr
    obtain ⟨d, rfl⟩ := Nat.exists_eq_add_of_le hnm
    have hrest : ∑ c ∈ range d, data r (n + c) * y (n + c) = 0 :=
      sum_eq_zero fun c _ => by rw [hout _ (Nat.le_add_right n c), mul_zero]
    rw [sum_range_add, hrest, add_zero, ← hx r hr]
    exact sum_congr rfl fun c hc => by rw [hin c (mem_range.mp hc)]
  have hrow := hzero k hk
  rw [sum_eq_single k] at hrow
  · rw [hin k hk] at hrow
    exact (mul_eq_zero.mp hrow).resolve_left (hdiagonal k hk).1
  · intro c _ hck
    by_cases hcn : c < n
    · rw [(hdiagonal c hcn).2 k hk (Ne.symm hck), zero_mul]
    · rw [hout c (not_lt.mp hcn), mul_zero]
  · exact fun hrange => absurd (mem_range.mpr (hk.trans_le hnm)) hrange

omit [LinearOrder α] in
lemma det_ne_zero_iff : (Matrix.of fun r c : Fin n => data r c).det ≠ 0 ↔
    ∀ x : ℕ → α, (∀ r < n, ∑ k ∈ range n, data r k * x k = 0) → ∀ k < n, x k = 0 := by
  refine ⟨fun hdet x hx => eq_zero_of_det_ne_zero hdet hx, fun h hdet => ?_⟩
  obtain ⟨v, hne, hv⟩ := Matrix.exists_mulVec_eq_zero_iff.mpr hdet
  apply hne
  funext k
  have hzero := h (fun c => if hc : c < n then v ⟨c, hc⟩ else 0) ?_ k k.isLt
  · rw [dif_pos k.isLt] at hzero
    exact hzero
  · intro r hr
    have hrow := congrFun hv ⟨r, hr⟩
    rw [sum_range]
    simpa [Matrix.mulVec, dotProduct] using hrow

/-- Elimination comes to its end where the first columns are not singular; it leaves the identity
there and the solutions of the systems for the other columns. -/
theorem gaussJordan_eliminates [IsStrictOrderedRing α] (n k : ℕ) (data : ℕ → ℕ → α) :
    ((gaussJordan n (n + k) data).isSome ↔ (Matrix.of fun r c : Fin n => data r c).det ≠ 0) ∧
    ∀ data', gaussJordan n (n + k) data = some data' →
      (∀ r < n, ∀ c < n, data' r c = if r = c then 1 else 0) ∧
      ∀ c, n ≤ c → c < n + k → ∀ x : ℕ → α,
        (∀ r < n, ∑ i ∈ range n, data r i * x i = data r c) ↔ ∀ i < n, x i = data' i c := by
  have hnm := Nat.le_add_right n k
  rw [det_ne_zero_iff]
  constructor
  · constructor
    · intro hsome
      obtain ⟨data', hdata'⟩ := Option.isSome_iff_exists.mp hsome
      exact (regular_of_gaussJordan hnm hdata').1
    · intro hregular
      obtain ⟨data', hdata', -⟩ := gaussJordan_solves hnm hregular
      rw [hdata']
      rfl
  · intro data' hdata'
    obtain ⟨hregular, hidentity⟩ := regular_of_gaussJordan hnm hdata'
    refine ⟨hidentity, fun c hc hcm x => ?_⟩
    obtain ⟨other, hother, hsolves⟩ := gaussJordan_solves hnm hregular
    obtain rfl : other = data' := Option.some.inj (hother.symm.trans hdata')
    have hsolution := hsolves c hc hcm
    constructor
    · intro hx i hi
      refine sub_eq_zero.mp (hregular (fun i => x i - other i c) (fun r hr => ?_) i hi)
      rw [← sub_eq_zero.mpr ((hx r hr).trans (hsolution r hr).symm), ← sum_sub_distrib]
      exact sum_congr rfl fun i _ => mul_sub ..
    · intro hx r hr
      rw [← hsolution r hr]
      exact sum_congr rfl fun i hi => by rw [hx i (mem_range.mp hi)]

/-- The equations `y = 5` and `2 x + y = 7`, of which the rows are exchanged. -/
theorem gaussJordan_eliminates_rational : (gaussJordan 2 (2 + 1)
    fun r c => if r = 0 then [0, 1, 5].getD c 0 else ([2, 1, 7] : List ℚ).getD c 0).isSome := by
  apply (gaussJordan_eliminates 2 1 _).1.mpr
  rw [Matrix.det_fin_two]
  norm_num

end RepRapFirmware.RRFLibraries.FixedMatrix
