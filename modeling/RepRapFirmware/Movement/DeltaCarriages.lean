import Mathlib
import RepRapFirmware.Movement.DeltaLimits

/-! The carriages of a linear delta machine along its straight moves. -/

namespace RepRapFirmware.Movement.LinearDeltaKinematics

open Library Library.Kinematics

variable {α : Type*} [Field α] [LinearOrder α] {k : LinearDeltaKinematics α} {sqrt : α → α}

section Termination

variable {initialCoords : ℕ → α} {dx dy : α} {tower n : ℕ} {s s' : LineSearch α}

variable [IsStrictOrderedRing α]

omit [IsStrictOrderedRing α] in
lemma passes_ends (h : ∀ s', k.pass sqrt initialCoords dx dy tower s ≠ .again s') :
    ∃ o, ∀ fuel > 0, k.passes sqrt initialCoords dx dy tower fuel s = some o := by
  cases hp : k.pass sqrt initialCoords dx dy tower s with
  | done b =>
    refine ⟨.ok (b, s), fun fuel hfuel => ?_⟩
    obtain ⟨fuel, rfl⟩ := Nat.exists_eq_succ_of_ne_zero hfuel.ne'
    rw [Nat.succ_eq_add_one, passes, hp]
  | again s1 => exact absurd hp (h s1)
  | unreachable =>
    refine ⟨.error s, fun fuel hfuel => ?_⟩
    obtain ⟨fuel, rfl⟩ := Nat.exists_eq_succ_of_ne_zero hfuel.ne'
    rw [Nat.succ_eq_add_one, passes, hp]

/-- Every repetition takes half a millimetre or more from the rise, which is not negative
afterwards. -/
lemma passes_terminates (h : s.dz < n / 2) :
    ∃ o, ∀ fuel > n, k.passes sqrt initialCoords dx dy tower fuel s = some o := by
  induction n generalizing s with
  | zero =>
    refine passes_ends fun s' hp => ?_
    obtain ⟨adjustment, hhalf, hle, -⟩ := pass_again hp
    rw [Nat.cast_zero, zero_div] at h
    linarith
  | succ n ih =>
    by_cases hagain : ∃ s', k.pass sqrt initialCoords dx dy tower s = .again s'
    · obtain ⟨s', hp⟩ := hagain
      obtain ⟨adjustment, hhalf, -, rfl⟩ := pass_again hp
      have hless : (reduce dx dy adjustment s).dz < n / 2 := by
        rw [reduce_dz]
        push_cast at h
        linarith
      obtain ⟨o, ho⟩ := ih hless
      refine ⟨o, fun fuel hfuel => ?_⟩
      obtain ⟨fuel, rfl⟩ := Nat.exists_eq_succ_of_ne_zero (Nat.ne_zero_of_lt hfuel)
      rw [Nat.succ_eq_add_one, passes, hp]
      exact ho fuel (Nat.lt_of_succ_lt_succ hfuel)
    · obtain ⟨o, ho⟩ := passes_ends (not_exists.mp hagain)
      exact ⟨o, fun fuel hfuel => ho fuel (Nat.zero_lt_of_lt hfuel)⟩

lemma passes_dz_le {fuel : ℕ} {b : Bool}
    (hp : k.passes sqrt initialCoords dx dy tower fuel s = some (.ok (b, s'))) : s'.dz ≤ s.dz := by
  induction fuel generalizing s with
  | zero => cases hp
  | succ fuel ih =>
    rw [passes] at hp
    cases hpass : k.pass sqrt initialCoords dx dy tower s with
    | done b =>
      rw [hpass] at hp
      obtain ⟨rfl, rfl⟩ := Prod.mk.inj (Except.ok.inj (Option.some.inj hp))
      exact le_rfl
    | again s1 =>
      rw [hpass] at hp
      obtain ⟨adjustment, hhalf, -, rfl⟩ := pass_again hpass
      apply (ih hp).trans
      rw [reduce_dz]
      linarith
    | unreachable =>
      rw [hpass] at hp
      cases hp

lemma limitFinal_dz_le (hl : k.limitFinal sqrt dx dy tower s = .ok s') : s'.dz ≤ s.dz := by
  rw [limitFinal] at hl
  split_ifs at hl with hhigh hroom hmore
  · obtain rfl := Except.ok.inj hl
    exact sub_le_self _ (excess_pos hhigh).le
  · obtain rfl := Except.ok.inj hl
    exact le_rfl
  · obtain rfl := Except.ok.inj hl
    exact le_rfl

lemma limitTower_terminates (h : s.dz < n / 2) :
    ∃ o, (∀ fuel > n, k.limitTower sqrt initialCoords dx dy fuel tower s = some o) ∧
      ∀ s', o = .ok s' → s'.dz ≤ s.dz := by
  have hpasses : ∃ o, ∀ fuel > n, k.passes sqrt initialCoords dx dy tower fuel s = some o :=
    passes_terminates h
  obtain ⟨o, ho⟩ := hpasses
  match o, ho with
  | .error s1, ho =>
    refine ⟨.error s1, fun fuel hfuel => ?_, fun s' heq => ?_⟩
    · rw [limitTower, ho fuel hfuel]
    · cases heq
  | .ok (true, s1), ho =>
    refine ⟨k.limitFinal sqrt dx dy tower s1, fun fuel hfuel => ?_, fun s' heq => ?_⟩
    · rw [limitTower, ho fuel hfuel]
    · exact (limitFinal_dz_le heq).trans (passes_dz_le (ho (n + 1) n.lt_succ_self))
  | .ok (false, s1), ho =>
    refine ⟨.ok s1, fun fuel hfuel => ?_, fun s' heq => ?_⟩
    · rw [limitTower, ho fuel hfuel]
    · obtain rfl := Except.ok.inj heq
      exact passes_dz_le (ho (n + 1) n.lt_succ_self)

lemma limitTowers_terminates {towers : List ℕ} (h : s.dz < n / 2) :
    ∃ o, ∀ fuel > n, k.limitTowers sqrt initialCoords dx dy fuel towers s = some o := by
  induction towers generalizing s with
  | nil => exact ⟨.ok s, fun _ _ => rfl⟩
  | cons tower towers ih =>
    have htower : ∃ o, (∀ fuel > n, k.limitTower sqrt initialCoords dx dy fuel tower s = some o) ∧
        ∀ s', o = .ok s' → s'.dz ≤ s.dz := limitTower_terminates h
    obtain ⟨o, ho, hle⟩ := htower
    cases o with
    | error s1 =>
      refine ⟨.error s1, fun fuel hfuel => ?_⟩
      rw [limitTowers, ho fuel hfuel]
    | ok s1 =>
      obtain ⟨o, ho'⟩ := ih ((hle s1 rfl).trans_lt h)
      refine ⟨o, fun fuel hfuel => ?_⟩
      rw [limitTowers, ho fuel hfuel]
      exact ho' fuel hfuel

lemma limitLine_terminates [Archimedean α] (initialCoords : ℕ → α) (a : Adjusted α) :
    ∃ o n, ∀ fuel > n, k.limitLine sqrt fuel initialCoords a = some o := by
  by_cases hmoves : (startSearch initialCoords a).tdmSquared ≠ 0
  · obtain ⟨n, hn⟩ := exists_nat_gt (2 * (startSearch initialCoords a).dz)
    have htowers : ∃ o, ∀ fuel > n, k.limitTowers sqrt initialCoords
        (a.finalCoords 0 - initialCoords 0) (a.finalCoords 1 - initialCoords 1) fuel
        (List.range k.numTowers) (startSearch initialCoords a) = some o :=
      limitTowers_terminates (by linarith)
    obtain ⟨o, ho⟩ := htowers
    exact ⟨o, n, fun fuel hfuel => (if_pos hmoves).trans (ho fuel hfuel)⟩
  · exact ⟨.ok (startSearch initialCoords a), 0, fun fuel _ => if_neg hmoves⟩

lemma limitHeights_terminates [Archimedean α] (initialCoords : Option (ℕ → α)) (a : Adjusted α) :
    ∃ o n, ∀ fuel > n, k.limitHeights sqrt fuel initialCoords a = some o := by
  cases initialCoords with
  | none =>
    by_cases hhigh : a.finalCoords 2 > k.alwaysReachableHeight sqrt
    · exact ⟨_, 0, fun fuel _ => if_pos hhigh⟩
    · exact ⟨_, 0, fun fuel _ => if_neg hhigh⟩
  | some initialCoords =>
    by_cases hhigh : a.finalCoords 2 > k.alwaysReachableHeight sqrt ∨
        initialCoords 2 > k.alwaysReachableHeight sqrt
    · obtain ⟨o, n, ho⟩ := @limitLine_terminates α _ _ k sqrt _ _ initialCoords a
      cases o with
      | ok s =>
        refine ⟨.ok s.toAdjusted, n, fun fuel hfuel => ?_⟩
        rw [limitHeights, if_pos hhigh, ho fuel hfuel]
        rfl
      | error s =>
        refine ⟨.error s.toAdjusted, n, fun fuel hfuel => ?_⟩
        rw [limitHeights, if_pos hhigh, ho fuel hfuel]
        rfl
    · exact ⟨_, 0, fun fuel _ => if_neg hhigh⟩

lemma limitPosition_terminates [Archimedean α] (limits : AxisLimits α) (options : LimitOptions)
    (initialCoords : Option (ℕ → α)) (finalCoords : ℕ → α) : ∃ r n, ∀ fuel > n,
      k.limitPosition sqrt fuel limits options initialCoords finalCoords = some r := by
  by_cases hxyz : 0 ∈ options.axesToLimit ∨ 1 ∈ options.axesToLimit ∨ 2 ∈ options.axesToLimit
  · obtain ⟨o, n, ho⟩ := @limitHeights_terminates α _ _ k sqrt _ _ initialCoords
      (k.limitRadius sqrt options.applyM208Limits finalCoords)
    have hsame : ∀ fuel > n, k.limitPosition sqrt fuel limits options initialCoords finalCoords =
        k.limitPosition sqrt (n + 1) limits options initialCoords finalCoords := by
      intro fuel hfuel
      rw [limitPosition, limitPosition, ho fuel hfuel, ho (n + 1) n.lt_succ_self]
    have hresult : ∃ r,
        k.limitPosition sqrt (n + 1) limits options initialCoords finalCoords = some r := by
      rw [limitPosition, if_pos hxyz, ho (n + 1) n.lt_succ_self]
      cases o with
      | error a => exact ⟨_, rfl⟩
      | ok a =>
        dsimp only
        split_ifs
        · exact ⟨_, rfl⟩
        · exact ⟨_, rfl⟩
    obtain ⟨r, hr⟩ := hresult
    exact ⟨r, n, fun fuel hfuel => (hsame fuel hfuel).trans hr⟩
  · exact ⟨_, 0, fun fuel _ => if_neg hxyz⟩

end Termination

section Call

variable {limits : AxisLimits α} {options : LimitOptions} {a b : Adjusted α} {r : Limited α}
  {initialCoords finalCoords : ℕ → α} {fuel tower : ℕ} {t : α}

lemma finalCoords_limitAxis {axis other : ℕ} (h : axis ≠ other) :
    (limitAxis limits options a other).finalCoords axis = a.finalCoords axis := by
  rw [limitAxis]
  split_ifs
  · exact Function.update_of_ne h _ _
  · exact Function.update_of_ne h _ _
  · rfl
  · rfl

lemma finalCoords_limitPositionFromAxis {axis firstAxis : ℕ} (h : axis < firstAxis) :
    (limitPositionFromAxis limits options firstAxis a).finalCoords axis = a.finalCoords axis := by
  rw [limitPositionFromAxis]
  generalize options.numVisibleAxes - firstAxis = n
  induction n generalizing firstAxis a with
  | zero => rfl
  | succ n ih =>
    rw [List.range'_succ, List.foldl_cons, ih (h.trans (Nat.lt_succ_self firstAxis)),
      finalCoords_limitAxis h.ne]

lemma finalCoords_limitOthers {raised : Bool} {axis : ℕ} (h : axis < 3) :
    (k.limitOthers limits options raised a).finalCoords axis = a.finalCoords axis := by
  rw [limitOthers]
  by_cases happly : options.applyM208Limits = true
  · simp only [if_pos happly]
    exact finalCoords_limitPositionFromAxis (h.trans_le k.usualNumTowers_le)
  · simp only [if_neg happly]

lemma limitPosition_ok
    (hxyz : 0 ∈ options.axesToLimit ∨ 1 ∈ options.axesToLimit ∨ 2 ∈ options.axesToLimit)
    (h : k.limitPosition sqrt fuel limits options (some initialCoords) finalCoords = some r)
    (hreached : ¬ r.Unreachable) (hraised : r.raised = false) :
    ∃ a, k.limitHeights sqrt fuel (some initialCoords)
        (k.limitRadius sqrt options.applyM208Limits finalCoords) = some (.ok a) ∧
      ∀ axis < 3, r.finalCoords axis = a.finalCoords axis := by
  rw [limitPosition, if_pos hxyz] at h
  match hp : k.limitHeights sqrt fuel (some initialCoords)
      (k.limitRadius sqrt options.applyM208Limits finalCoords) with
  | none =>
    rw [hp] at h
    cases h
  | some (.error a) =>
    rw [hp] at h
    obtain rfl := Option.some.inj h
    refine absurd ?_ hreached
    cases ha : a.limited
    · exact .inl (by simp)
    · exact .inr (by simp)
  | some (.ok a) =>
    rw [hp] at h
    refine ⟨a, rfl, fun axis haxis => ?_⟩
    dsimp only at h
    split_ifs at h
    · obtain rfl := Option.some.inj h
      cases hraised
    · obtain rfl := Option.some.inj h
      exact finalCoords_limitOthers haxis

omit [Field α] in
lemma foldl_lowest_le (limit : ℕ → α) (axes : List ℕ) (height : α) :
    axes.foldl (fun height axis => if limit axis < height then limit axis else height) height ≤
        height ∧
      ∀ axis ∈ axes,
        axes.foldl (fun height axis => if limit axis < height then limit axis else height) height ≤
          limit axis := by
  induction axes generalizing height with
  | nil => exact ⟨le_rfl, fun axis h => absurd h List.not_mem_nil⟩
  | cons axis axes ih =>
    rw [List.foldl_cons]
    obtain ⟨hfirst, hrest⟩ := ih (if limit axis < height then limit axis else height)
    have hmin : (if limit axis < height then limit axis else height) ≤ height ∧
        (if limit axis < height then limit axis else height) ≤ limit axis := by
      split_ifs with hlt
      · exact ⟨hlt.le, le_rfl⟩
      · exact ⟨le_rfl, not_lt.mp hlt⟩
    refine ⟨hfirst.trans hmin.1, fun other hother => ?_⟩
    rcases List.mem_cons.mp hother with rfl | hlater
    · exact hfirst.trans hmin.2
    · exact hrest other hlater

lemma alwaysReachableHeight_le (h : tower < k.numTowers) :
    k.alwaysReachableHeight sqrt ≤ k.homedCarriageHeights sqrt tower - k.diagonals tower :=
  (foldl_lowest_le _ _ _).2 tower (List.mem_range.mpr h)

omit [LinearOrder α] in
lemma onLine_startSearch : OnLine initialCoords (a.finalCoords 0 - initialCoords 0)
    (a.finalCoords 1 - initialCoords 1) (startSearch initialCoords a) where
  x_eq := (add_sub_cancel _ _).symm
  y_eq := (add_sub_cancel _ _).symm
  z_eq := (add_sub_cancel _ _).symm
  tdm_eq := rfl

/-- How much the tilts raise the carriages at a position. -/
def tiltCorrection (k : LinearDeltaKinematics α) (machinePos : ℕ → α) : α :=
  machinePos 0 * k.xTilt + machinePos 1 * k.yTilt

variable [IsStrictOrderedRing α] {dx dy : α}

/-- A line below the height that every rod can reach. -/
lemma safe_of_reachable {dz : α} (hf : IsSqrt sqrt) (htower : tower < k.numTowers)
    (hrod : 0 ≤ k.diagonals tower)
    (hreach : ∀ t, 0 ≤ t → t ≤ 1 → 0 ≤ (k.rod initialCoords dx dy tower).reach t)
    (hstart : initialCoords 2 + k.tiltCorrection initialCoords ≤ k.alwaysReachableHeight sqrt)
    (hend : initialCoords 2 + dz + k.tiltCorrection (tempCoords initialCoords dx dy dz 1) ≤
      k.alwaysReachableHeight sqrt) : k.Safe sqrt initialCoords dx dy tower dz := by
  intro t h0 h1
  rw [transform_tempCoords htower, Rod.height]
  have hle := hf.le_of_le_sq (hreach t h0 h1) hrod (v := k.diagonals tower) (by
    rw [Rod.reach, rod, D2]
    linarith [sq_nonneg (initialCoords 0 - k.towerX tower + t * dx),
      sq_nonneg (initialCoords 1 - k.towerY tower + t * dy)])
  have hlimit : k.alwaysReachableHeight sqrt ≤
      k.homedCarriageHeights sqrt tower - k.diagonals tower := alwaysReachableHeight_le htower
  rw [tiltCorrection] at hstart hend
  rw [tempCoords_zero, tempCoords_one] at hend
  have hs := mul_le_mul_of_nonneg_left hstart (sub_nonneg.mpr h1)
  have he := mul_le_mul_of_nonneg_left hend h0
  linarith

/-- What is known of a machine: its rods have lengths, and they reach the centre, above which the
homed carriage heights are calculated. -/
structure Homeable (k : LinearDeltaKinematics α) : Prop where
  rod_nonneg : ∀ tower < k.numTowers, 0 ≤ k.diagonals tower
  reach_centre : ∀ tower < k.numTowers, k.towerX tower ^ 2 + k.towerY tower ^ 2 ≤ k.D2 tower

/-- The position on the line where a part of it has been travelled. -/
def intermediate (initialCoords finalCoords : ℕ → α) (t : α) : ℕ → α :=
  fun axis => initialCoords axis + t * (finalCoords axis - initialCoords axis)

/-- The condition under which the line keeps below the endstops. Where the search is made, the tilts
do not matter and it keeps the maximum beyond every final position that it lowers; where it is left
out, it would be left out too if the tilts were taken into account. -/
def Heeds (k : LinearDeltaKinematics α) (sqrt : α → α) (initialCoords : ℕ → α) (a : Adjusted α) :
    Prop :=
  if a.finalCoords 2 > k.alwaysReachableHeight sqrt ∨
      initialCoords 2 > k.alwaysReachableHeight sqrt then
    (a.finalCoords 0 - initialCoords 0) * k.xTilt + (a.finalCoords 1 - initialCoords 1) * k.yTilt =
        0 ∧
      ∀ fuel, k.Guarded sqrt initialCoords (a.finalCoords 0 - initialCoords 0)
        (a.finalCoords 1 - initialCoords 1) fuel (List.range k.numTowers)
        (startSearch initialCoords a)
  else
    initialCoords 2 + k.tiltCorrection initialCoords ≤ k.alwaysReachableHeight sqrt ∧
      a.finalCoords 2 + k.tiltCorrection a.finalCoords ≤ k.alwaysReachableHeight sqrt

omit [IsStrictOrderedRing α] in
/-- A move that does not move. -/
lemma safe_of_still {dz : α} (htower : tower < k.numTowers)
    (hstart : k.transform sqrt initialCoords tower ≤ k.homedCarriageHeights sqrt tower)
    (hx : dx = 0) (hy : dy = 0) (hz : dz = 0) : k.Safe sqrt initialCoords dx dy tower dz := by
  intro t h0 h1
  have hsame : k.transform sqrt (tempCoords initialCoords dx dy dz t) tower =
      k.transform sqrt initialCoords tower := by
    apply transform_congr htower <;> simp [hx, hy, hz]
  rwa [hsame]

/-- The whole limit of the height. -/
lemma limitHeights_safe (hf : IsSqrt sqrt) (hk : k.Homeable)
    (hstart : ∀ tower < k.numTowers,
      k.transform sqrt initialCoords tower ≤ k.homedCarriageHeights sqrt tower)
    (hreach : ∀ tower < k.numTowers, ∀ t, 0 ≤ t → t ≤ 1 →
      0 ≤ (k.rod initialCoords (a.finalCoords 0 - initialCoords 0)
        (a.finalCoords 1 - initialCoords 1) tower).reach t)
    (hheeds : k.Heeds sqrt initialCoords a)
    (h : k.limitHeights sqrt fuel (some initialCoords) a = some (.ok b)) :
    b.finalCoords 0 = a.finalCoords 0 ∧ b.finalCoords 1 = a.finalCoords 1 ∧
      ∀ tower < k.numTowers, k.Safe sqrt initialCoords (a.finalCoords 0 - initialCoords 0)
        (a.finalCoords 1 - initialCoords 1) tower (b.finalCoords 2 - initialCoords 2) := by
  rw [limitHeights] at h
  rw [Heeds] at hheeds
  by_cases hhigh : a.finalCoords 2 > k.alwaysReachableHeight sqrt ∨
      initialCoords 2 > k.alwaysReachableHeight sqrt
  · rw [if_pos hhigh] at h hheeds
    obtain ⟨hlevel, hguarded⟩ := hheeds
    obtain ⟨o, ho, hb⟩ := Option.map_eq_some_iff.mp h
    match o, ho with
    | .error s, ho => cases hb
    | .ok s, ho =>
      obtain rfl := Except.ok.inj hb
      rw [limitLine] at ho
      by_cases hmoves : (startSearch initialCoords a).tdmSquared ≠ 0
      · have hs : OnLine initialCoords (a.finalCoords 0 - initialCoords 0)
            (a.finalCoords 1 - initialCoords 1) (startSearch initialCoords a) :=
          onLine_startSearch
        have hreaches : ∀ tower < k.numTowers, Reaches k sqrt initialCoords
            (a.finalCoords 0 - initialCoords 0) (a.finalCoords 1 - initialCoords 1) tower :=
          fun tower htower =>
            { tower_lt := htower
              level := hlevel
              start := hstart tower htower
              reach_start := hreach tower htower 0 le_rfl zero_le_one
              reach_end := hreach tower htower 1 zero_le_one le_rfl }
        have hrange := List.range_eq_range' (n := k.numTowers)
        have hchecked := (checked_iff_guarded hf hreaches (zero_add _) hs).mpr
          (hrange ▸ hguarded fuel)
        obtain ⟨hends, hall⟩ := limitTowers_ok hf hreaches (zero_add _) hs hchecked
          (hrange ▸ (if_pos hmoves).symm.trans ho)
        refine ⟨hends.x_eq.trans (add_sub_cancel _ _), hends.y_eq.trans (add_sub_cancel _ _), ?_⟩
        exact fun tower htower => hall tower tower.zero_le htower
      · obtain rfl := Except.ok.inj (Option.some.inj ((if_neg hmoves).symm.trans ho))
        have hzero := not_not.mp hmoves
        rw [startSearch] at hzero
        obtain ⟨hxy, hz⟩ := (add_eq_zero_iff_of_nonneg
          (add_nonneg (sq_nonneg _) (sq_nonneg _)) (sq_nonneg _)).mp hzero
        obtain ⟨hx, hy⟩ := (add_eq_zero_iff_of_nonneg (sq_nonneg _) (sq_nonneg _)).mp hxy
        refine ⟨rfl, rfl, fun tower htower => ?_⟩
        exact safe_of_still htower (hstart tower htower) (eq_zero_of_pow_eq_zero hx)
          (eq_zero_of_pow_eq_zero hy) (eq_zero_of_pow_eq_zero hz)
  · rw [if_neg hhigh] at h hheeds
    obtain rfl := Except.ok.inj (Option.some.inj h)
    refine ⟨rfl, rfl, fun tower htower => ?_⟩
    apply safe_of_reachable hf htower (hk.rod_nonneg tower htower) (hreach tower htower) hheeds.1
    have htilt : k.tiltCorrection (tempCoords initialCoords (a.finalCoords 0 - initialCoords 0)
        (a.finalCoords 1 - initialCoords 1) (a.finalCoords 2 - initialCoords 2) 1) =
          k.tiltCorrection a.finalCoords := by
      simp [tiltCorrection]
    rw [htilt, add_sub_cancel]
    exact hheeds.2

/-- No carriage is above its homed height on the line. -/
def StaysBelow (k : LinearDeltaKinematics α) (sqrt : α → α) (initialCoords finalCoords : ℕ → α) :
    Prop :=
  ∀ tower < k.numTowers, ∀ t, 0 ≤ t → t ≤ 1 →
    k.transform sqrt (intermediate initialCoords finalCoords t) tower ≤
      k.homedCarriageHeights sqrt tower

/-- The build radius takes the final position towards the centre, which the rods reach too. -/
lemma reach_limitRadius (hf : IsSqrt sqrt) (hk : k.Homeable) {applyM208Limits : Bool}
    (htower : tower < k.numTowers)
    (hreal : ∀ t, 0 ≤ t → t ≤ 1 →
      0 ≤ k.radicand (intermediate initialCoords finalCoords t) tower) :
    ∀ t, 0 ≤ t → t ≤ 1 → 0 ≤ (k.rod initialCoords
      ((k.limitRadius sqrt applyM208Limits finalCoords).finalCoords 0 - initialCoords 0)
      ((k.limitRadius sqrt applyM208Limits finalCoords).finalCoords 1 - initialCoords 1)
      tower).reach t := by
  intro t h0 h1
  have hstart := hreal 0 le_rfl zero_le_one
  have hend := hreal 1 zero_le_one le_rfl
  simp only [intermediate, radicand, zero_mul, add_zero, one_mul, add_sub_cancel] at hstart hend
  have hlimited : 0 ≤ k.radicand (k.limitRadius sqrt applyM208Limits finalCoords).finalCoords
      tower := by
    rw [limitRadius]
    by_cases hfar : applyM208Limits ∧ finalCoords 0 ^ 2 + finalCoords 1 ^ 2 > k.printRadius ^ 2
    · simp only [if_pos hfar]
      have hpos : 0 < finalCoords 0 ^ 2 + finalCoords 1 ^ 2 :=
        (sq_nonneg k.printRadius).trans_lt hfar.2
      have hratio : 0 ≤ k.printRadius ^ 2 / (finalCoords 0 ^ 2 + finalCoords 1 ^ 2) := by
        positivity
      have hle := hf.le_of_le_sq hratio zero_le_one (by
        rw [one_pow, div_le_one hpos]
        exact hfar.2.le)
      have hnonneg := hf.nonneg _ hratio
      generalize sqrt (k.printRadius ^ 2 / (finalCoords 0 ^ 2 + finalCoords 1 ^ 2)) = factor at *
      have hcentre : 0 ≤ (k.rod 0 (finalCoords 0) (finalCoords 1) tower).reach 0 := by
        have := hk.reach_centre tower htower
        simp only [rod, Rod.reach, Pi.zero_apply, zero_mul, add_zero, zero_sub, neg_sq]
        linarith
      have hfull : 0 ≤ (k.rod 0 (finalCoords 0) (finalCoords 1) tower).reach 1 := by
        simp only [rod, Rod.reach, Pi.zero_apply, one_mul, zero_sub, neg_add_eq_sub]
        exact hend
      have hpart := Rod.convex_reach hcentre hfull (sub_nonneg.mpr hle) hnonneg (by ring)
      simp only [rod, Rod.reach, Pi.zero_apply, smul_eq_mul, mul_zero, mul_one, zero_add, zero_sub,
        neg_add_eq_sub, Set.mem_ofPred_eq] at hpart
      rw [radicand, Function.update_self, Function.update_of_ne zero_ne_one, Function.update_self,
        mul_comm, mul_comm (finalCoords 1)]
      exact hpart
    · simp only [if_neg hfar]
      exact hend
  have hreach0 : 0 ≤ (k.rod initialCoords
      ((k.limitRadius sqrt applyM208Limits finalCoords).finalCoords 0 - initialCoords 0)
      ((k.limitRadius sqrt applyM208Limits finalCoords).finalCoords 1 - initialCoords 1)
      tower).reach 0 := by
    simp only [rod, Rod.reach, zero_mul, add_zero]
    exact hstart
  have hreach1 : 0 ≤ (k.rod initialCoords
      ((k.limitRadius sqrt applyM208Limits finalCoords).finalCoords 0 - initialCoords 0)
      ((k.limitRadius sqrt applyM208Limits finalCoords).finalCoords 1 - initialCoords 1)
      tower).reach 1 := by
    rw [radicand] at hlimited
    simp only [rod, Rod.reach, one_mul]
    convert hlimited using 3 <;> ring
  have hconvex := Rod.convex_reach hreach0 hreach1 (sub_nonneg.mpr h1) h0 (by ring)
  simpa using hconvex

/-- A vertical move is highest at one of its ends. -/
lemma guarded_of_still (hf : IsSqrt sqrt) (hP2 : dx ^ 2 + dy ^ 2 = 0) (towers : List ℕ)
    (s : LineSearch α) : k.Guarded sqrt initialCoords dx dy fuel towers s := by
  induction towers generalizing s with
  | nil => trivial
  | cons tower towers ih =>
    exact fun s' _ => ⟨fun _ _ _ _ => beyondFinal_of_still hf hP2, ih s'⟩

end Call

/-- The search ends in every case. What it leaves is below the endstops if the condition holds and
the minimum of Z does not raise it. -/
theorem limitPosition_staysBelow (k : LinearDeltaKinematics ℝ) (limits : AxisLimits ℝ)
    (options : LimitOptions) (initialCoords finalCoords : ℕ → ℝ)
    (hstart : ∀ tower < k.numTowers,
      k.transform Real.sqrt initialCoords tower ≤ k.homedCarriageHeights Real.sqrt tower)
    (hreal : ∀ tower < k.numTowers, ∀ t, 0 ≤ t → t ≤ 1 →
      0 ≤ k.radicand (intermediate initialCoords finalCoords t) tower) :
    ∃ r n, (∀ fuel > n, k.limitPosition Real.sqrt fuel limits options (some initialCoords)
        finalCoords = some r) ∧
      (k.Homeable →
        0 ∈ options.axesToLimit ∨ 1 ∈ options.axesToLimit ∨ 2 ∈ options.axesToLimit →
        k.Heeds Real.sqrt initialCoords
          (k.limitRadius Real.sqrt options.applyM208Limits finalCoords) →
        ¬ r.Unreachable → r.raised = false →
          k.StaysBelow Real.sqrt initialCoords r.finalCoords) := by
  obtain ⟨r, n, hr⟩ := @limitPosition_terminates ℝ _ _ k Real.sqrt _ _ limits options
    (some initialCoords) finalCoords
  refine ⟨r, n, hr, fun hk hxyz hheeds hreached hraised tower htower t h0 h1 => ?_⟩
  obtain ⟨a, ha, haxes⟩ := limitPosition_ok hxyz (hr (n + 1) n.lt_succ_self) hreached hraised
  obtain ⟨hx, hy, hsafe⟩ := limitHeights_safe isSqrt_sqrt hk hstart
    (fun tower htower => reach_limitRadius isSqrt_sqrt hk htower (hreal tower htower)) hheeds ha
  refine le_of_eq_of_le (transform_congr htower ?_ ?_ ?_) (hsafe tower htower t h0 h1)
  · rw [tempCoords_zero, intermediate, haxes 0 (by norm_num), hx]
  · rw [tempCoords_one, intermediate, haxes 1 (by norm_num), hy]
  · rw [tempCoords_two, intermediate, haxes 2 (by norm_num)]

/-- Three towers around the centre, with rods that hang 280 mm high over it. -/
def around (α : Type*) [Field α] : LinearDeltaKinematics α where
  numTowers := 3
  diagonals := fun _ => 325
  radius := 165
  endstopAdjustments := fun _ => 0
  printRadius := 150
  homedHeight := 52
  xTilt := 0
  yTilt := 0
  towerX := fun axis => if axis = 0 then -165 else 99
  towerY := fun axis => if axis = 0 then 0 else if axis = 1 then -132 else 132
  usualNumTowers_le := by decide

def xyzOptions : LimitOptions where
  numVisibleAxes := 3
  axesToLimit := {0, 1, 2}
  applyM208Limits := true

def wideLimits (α : Type*) [Field α] : AxisLimits α where
  axisMinimum := fun axis => if axis = 2 then 0 else -150
  axisMaximum := fun _ => 150

lemma around_centre {tower : ℕ} (h : tower < 3) :
    (around ℝ).towerX tower ^ 2 + (around ℝ).towerY tower ^ 2 = 165 ^ 2 := by
  interval_cases tower <;> norm_num [around]

lemma around_homed {tower : ℕ} (h : tower < 3) :
    (around ℝ).homedCarriageHeights Real.sqrt tower = 332 := by
  have hroot : √((325 : ℝ) ^ 2 - 165 ^ 2) = 280 := by
    rw [show (325 : ℝ) ^ 2 - 165 ^ 2 = 280 ^ 2 by norm_num, Real.sqrt_sq (by norm_num)]
  rw [homedCarriageHeights, if_pos h]
  simp only [around, D2, hroot]
  norm_num

lemma around_homeable : (around ℝ).Homeable where
  rod_nonneg _ _ := by
    norm_num [around]
  reach_centre tower h := by
    rw [around_centre h]
    norm_num [around, D2]

lemma around_alwaysReachableHeight : (around ℝ).alwaysReachableHeight Real.sqrt ≤ 7 := by
  have hle : (around ℝ).alwaysReachableHeight Real.sqrt ≤
      (around ℝ).homedCarriageHeights Real.sqrt 0 - (around ℝ).diagonals 0 :=
    alwaysReachableHeight_le (by norm_num [around])
  rw [around_homed (by norm_num)] at hle
  norm_num [around] at hle
  exact hle

lemma around_transform (machinePos : ℕ → ℝ) {tower : ℕ} (h : tower < 3) :
    (around ℝ).transform Real.sqrt machinePos tower =
      √((around ℝ).radicand machinePos tower) + machinePos 2 := by
  rw [transform_of_tower (around ℝ) machinePos h]
  simp [around]

lemma around_radicand_of_centre {machinePos : ℕ → ℝ} {tower : ℕ} (h : tower < 3)
    (hx : machinePos 0 = 0) (hy : machinePos 1 = 0) :
    (around ℝ).radicand machinePos tower = 280 ^ 2 := by
  have hcentre := around_centre h
  rw [radicand, hx, hy, zero_sub, zero_sub, neg_sq, neg_sq, sub_sub, hcentre]
  norm_num [around, D2]

/-- A vertical move to above the endstops. -/
theorem limitPosition_staysBelow_around :
    let up : ℕ → ℝ := fun axis => if axis = 2 then 400 else 0
    ∃ r n, (∀ fuel > n, (around ℝ).limitPosition Real.sqrt fuel (wideLimits ℝ) xyzOptions (some 0)
        up = some r) ∧
      (¬ r.Unreachable → r.raised = false → (around ℝ).StaysBelow Real.sqrt 0 r.finalCoords) := by
  intro up
  have hcentre : ∀ t, intermediate 0 up t 0 = 0 ∧ intermediate 0 up t 1 = 0 := by
    intro t
    simp [intermediate, up]
  have hlimited : ((around ℝ).limitRadius Real.sqrt xyzOptions.applyM208Limits up).finalCoords =
      up := by
    rw [limitRadius]
    norm_num [up, around]
  obtain ⟨r, n, hr, hbelow⟩ := limitPosition_staysBelow (around ℝ) (wideLimits ℝ) xyzOptions 0 up
    (fun tower htower => by
      rw [around_transform 0 htower, around_homed htower,
        around_radicand_of_centre htower rfl rfl, Real.sqrt_sq (by norm_num)]
      norm_num)
    (fun tower htower t _ _ => by
      rw [around_radicand_of_centre htower (hcentre t).1 (hcentre t).2]
      norm_num)
  refine ⟨r, n, hr, hbelow around_homeable (.inl (by decide)) ?_⟩
  rw [Heeds, hlimited, if_pos]
  · refine ⟨by simp [up], fun fuel => guarded_of_still isSqrt_sqrt (by simp [up]) _ _⟩
  · left
    apply around_alwaysReachableHeight.trans_lt
    norm_num [up]

/-- From beside the first tower to high above the centre. -/
def beside (α : Type*) [Field α] : ℕ → α := fun axis => if axis = 0 then -129 else 0

def high (α : Type*) [Field α] : ℕ → α := fun axis => if axis = 2 then 172 else 0

section Lowered

variable {k : LinearDeltaKinematics ℝ} {initialCoords : ℕ → ℝ} {dx dy : ℝ} {fuel tower : ℕ}
  {s : LineSearch ℝ}

lemma limitTower_of_beyond (hdisc : ¬ k.discriminant initialCoords dx dy tower < 0)
    (hbeyond : k.BeyondFinal Real.sqrt initialCoords dx dy tower s) :
    k.limitTower Real.sqrt initialCoords dx dy (fuel + 1) tower s =
      some (k.limitFinal Real.sqrt dx dy tower s) := by
  have hpasses : k.passes Real.sqrt initialCoords dx dy tower (fuel + 1) s =
      some (.ok (true, s)) := by
    rw [passes, pass, if_neg hdisc, if_pos hbeyond]
  rw [limitTower, hpasses]

/-- The start of the search, and its state after the first tower. -/
def highSearch (α : Type*) [Field α] : LineSearch α :=
  startSearch (beside α) { finalCoords := high α, limited := false }

def loweredSearch (α : Type*) [Field α] : LineSearch α := reduce 129 0 120 (highSearch α)

lemma highSearch_tdm : (highSearch ℝ).tdmSquared = 215 ^ 2 := by
  norm_num [highSearch, startSearch, high, beside]

lemma highSearch_dz : (highSearch ℝ).dz = 172 := by
  norm_num [highSearch, startSearch, high, beside]

lemma loweredSearch_two : (loweredSearch ℝ).finalCoords 2 = 52 := by
  rw [loweredSearch, reduce_two]
  norm_num [highSearch, startSearch, high]

lemma around_final {machinePos : ℕ → ℝ} (h : tower < 3) (hx : machinePos 0 = 0)
    (hy : machinePos 1 = 0) :
    (around ℝ).transform Real.sqrt machinePos tower = 280 + machinePos 2 := by
  rw [around_transform _ h, around_radicand_of_centre h hx hy, Real.sqrt_sq (by norm_num)]

/-- The first tower takes the final position down to where its carriage is at its homed height. -/
lemma limitTower_first :
    (around ℝ).limitTower Real.sqrt (beside ℝ) 129 0 (fuel + 1) 0 (highSearch ℝ) =
      some (.ok (loweredSearch ℝ)) := by
  have hdisc : (around ℝ).discriminant (beside ℝ) 129 0 0 = (325 * 129) ^ 2 := by
    norm_num [discriminant, around, beside, D2]
  have hbeyond : (around ℝ).BeyondFinal Real.sqrt (beside ℝ) 129 0 0 (highSearch ℝ) := by
    rw [BeyondFinal, tP2Q2, hdisc, highSearch_tdm, highSearch_dz, ← mul_pow,
      Real.sqrt_sq (by norm_num)]
    norm_num [around, beside]
  have hexcess : (around ℝ).excess Real.sqrt 0 (highSearch ℝ) = 120 := by
    rw [excess, around_final (by norm_num) rfl rfl, around_homed (by norm_num)]
    norm_num [highSearch, startSearch, high]
  have hhigh : 0 < (around ℝ).excess Real.sqrt 0 (highSearch ℝ) := by
    rw [hexcess]
    norm_num
  rw [limitTower_of_beyond (by rw [hdisc]; norm_num) hbeyond, limitFinal, if_pos (sub_pos.mp hhigh),
    hexcess, if_pos]
  · rfl
  · rw [highSearch_dz]
    norm_num

/-- The other towers are content with that. -/
lemma limitTower_other (hpos : 0 < tower) (htower : tower < 3) :
    (around ℝ).limitTower Real.sqrt (beside ℝ) 129 0 (fuel + 1) tower (loweredSearch ℝ) =
      some (.ok (loweredSearch ℝ)) := by
  have hdisc : (around ℝ).discriminant (beside ℝ) 129 0 tower = 129 ^ 2 * 88201 := by
    interval_cases tower <;> norm_num [discriminant, around, beside, D2]
  have htdm : (loweredSearch ℝ).tdmSquared = 19345 := by
    rw [loweredSearch, reduce, highSearch_dz]
    norm_num
  have hdz : (loweredSearch ℝ).dz = 52 := by
    rw [loweredSearch, reduce_dz, highSearch_dz]
    norm_num
  have hx : (around ℝ).towerX tower = 99 := if_neg hpos.ne'
  have hbeyond : (around ℝ).BeyondFinal Real.sqrt (beside ℝ) 129 0 tower (loweredSearch ℝ) := by
    have hroot := Real.sqrt_nonneg ((129 : ℝ) ^ 2 * 88201 * 19345)
    rw [BeyondFinal, tP2Q2, hdisc, htdm, hdz, hx, beside, if_pos rfl]
    linarith
  rw [limitTower_of_beyond (by rw [hdisc]; norm_num) hbeyond, limitFinal, if_neg]
  rw [around_final htower rfl rfl, around_homed htower, loweredSearch_two]
  norm_num

end Lowered

/-- The move ends in the height of the endstops above the centre, and has been higher before. -/
lemma limitPosition_high (fuel : ℕ) :
    (around ℝ).limitPosition Real.sqrt (fuel + 1) (wideLimits ℝ) xyzOptions (some (beside ℝ))
      (high ℝ) = some
        { result := .adjusted
          finalCoords := (loweredSearch ℝ).finalCoords
          raised := false } := by
  have hradius : (around ℝ).limitRadius Real.sqrt xyzOptions.applyM208Limits (high ℝ) =
      { finalCoords := high ℝ, limited := false } := by
    rw [limitRadius, if_neg]
    norm_num [high, around]
  have hmoves : (startSearch (beside ℝ)
      { finalCoords := high ℝ, limited := false }).tdmSquared ≠ 0 := by
    rw [← highSearch, highSearch_tdm]
    norm_num
  have hdx : high ℝ 0 - beside ℝ 0 = 129 := by
    norm_num [high, beside]
  have hdy : high ℝ 1 - beside ℝ 1 = 0 := by
    norm_num [high, beside]
  have hline : (around ℝ).limitLine Real.sqrt (fuel + 1) (beside ℝ)
      { finalCoords := high ℝ, limited := false } = some (.ok (loweredSearch ℝ)) := by
    refine (if_pos hmoves).trans ?_
    rw [hdx, hdy, ← highSearch]
    change (around ℝ).limitTowers Real.sqrt (beside ℝ) 129 0 (fuel + 1) [0, 1, 2] (highSearch ℝ) = _
    simp only [limitTowers, limitTower_first, limitTower_other one_pos (by norm_num : 1 < 3),
      limitTower_other two_pos (by norm_num : 2 < 3)]
  have hheights : (around ℝ).limitHeights Real.sqrt (fuel + 1) (some (beside ℝ))
      { finalCoords := high ℝ, limited := false } = some (.ok (loweredSearch ℝ).toAdjusted) := by
    rw [limitHeights, if_pos, hline]
    · rfl
    · left
      apply around_alwaysReachableHeight.trans_lt
      norm_num [high]
  have hlow : ¬ (xyzOptions.applyM208Limits = true ∧
      (loweredSearch ℝ).toAdjusted.finalCoords 2 < (wideLimits ℝ).axisMinimum 2) := by
    rw [loweredSearch_two, wideLimits]
    norm_num
  rw [limitPosition, if_pos (.inl (by decide)), hradius, hheights]
  exact (if_neg hlow).trans rfl

lemma beside_below (tower : ℕ) (h : tower < 3) : (around ℝ).transform Real.sqrt (beside ℝ) tower ≤
    (around ℝ).homedCarriageHeights Real.sqrt tower := by
  rw [around_transform _ h, around_homed h]
  have hroot : √((around ℝ).radicand (beside ℝ) tower) ≤ 325 := by
    rw [Real.sqrt_le_left (by norm_num), radicand]
    have hlength : (around ℝ).D2 tower = 325 ^ 2 := rfl
    rw [hlength]
    linarith [sq_nonneg (beside ℝ 0 - (around ℝ).towerX tower),
      sq_nonneg (beside ℝ 1 - (around ℝ).towerY tower)]
  norm_num [beside] at hroot ⊢
  linarith

lemma beside_real (tower : ℕ) (h : tower < 3) (t : ℝ) (h0 : 0 ≤ t) (h1 : t ≤ 1) :
    0 ≤ (around ℝ).radicand (intermediate (beside ℝ) (high ℝ) t) tower := by
  have hx : intermediate (beside ℝ) (high ℝ) t 0 = -129 * (1 - t) := by
    norm_num [intermediate, beside, high]
    ring
  have hy : intermediate (beside ℝ) (high ℝ) t 1 = 0 := by
    norm_num [intermediate, beside, high]
  rw [radicand, hx, hy]
  interval_cases tower <;> norm_num [around, D2] <;> nlinarith

/-- The final position is lowered for the first tower, whose carriage is then highest before the end
of the move, and above its endstop there. -/
theorem limitPosition_not_staysBelow :
    ¬ ∀ (k : LinearDeltaKinematics ℝ) (limits : AxisLimits ℝ) (options : LimitOptions)
      (initialCoords finalCoords : ℕ → ℝ), k.Homeable →
      0 ∈ options.axesToLimit ∨ 1 ∈ options.axesToLimit ∨ 2 ∈ options.axesToLimit →
      (∀ tower < k.numTowers,
        k.transform Real.sqrt initialCoords tower ≤ k.homedCarriageHeights Real.sqrt tower) →
      (∀ tower < k.numTowers, ∀ t, 0 ≤ t → t ≤ 1 →
        0 ≤ k.radicand (intermediate initialCoords finalCoords t) tower) →
      ∃ r n, (∀ fuel > n, k.limitPosition Real.sqrt fuel limits options (some initialCoords)
          finalCoords = some r) ∧
        (¬ r.Unreachable → r.raised = false →
          k.StaysBelow Real.sqrt initialCoords r.finalCoords) := by
  intro h
  obtain ⟨r, n, hr, hbelow⟩ := h (around ℝ) (wideLimits ℝ) xyzOptions (beside ℝ) (high ℝ)
    around_homeable (.inl (by decide)) beside_below beside_real
  obtain rfl := Option.some.inj ((limitPosition_high n).symm.trans (hr (n + 1) n.lt_succ_self))
  have hhigh := hbelow (by simp [Limited.Unreachable]) rfl 0 (by norm_num [around]) (89 / 129)
    (by norm_num) (by norm_num)
  have hroot : √((around ℝ).radicand (intermediate (beside ℝ) (loweredSearch ℝ).finalCoords
      (89 / 129)) 0) = 300 := by
    have hradicand : (around ℝ).radicand (intermediate (beside ℝ) (loweredSearch ℝ).finalCoords
        (89 / 129)) 0 = 300 ^ 2 := by
      norm_num [radicand, intermediate, beside, loweredSearch, highSearch, startSearch, high, around,
        D2]
    rw [hradicand, Real.sqrt_sq (by norm_num)]
  dsimp only at hhigh
  rw [around_transform _ (by norm_num), around_homed (by norm_num), hroot, intermediate,
    loweredSearch_two] at hhigh
  norm_num [beside] at hhigh

end RepRapFirmware.Movement.LinearDeltaKinematics
