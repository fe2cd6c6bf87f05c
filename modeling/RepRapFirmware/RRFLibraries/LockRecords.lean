import RepRapFirmware.RRFLibraries.RTOSIface

/-! What the loops over the lock records do to the count of each task. -/

namespace RepRapFirmware.RRFLibraries.LockRecords

open RTOSIface Function

variable {Task : Type*} [DecidableEq Task] {me t : Task} {rs : List (LockRecord Task)} {c : UInt32}

abbrev owners (rs : List (LockRecord Task)) : List Task := rs.map LockRecord.owner

omit [DecidableEq Task] in
lemma owners_append (rs rs' : List (LockRecord Task)) :
    owners (rs ++ rs') = owners rs ++ owners rs' := List.map_append

@[simp] lemma countOf_nil : countOf t [] = none := rfl

lemma countOf_cons (r : LockRecord Task) :
    countOf t (r :: rs) = if r.owner = t then some r.count else countOf t rs := rfl

@[simp] lemma countOf_cons_self : countOf me (⟨me, c⟩ :: rs) = some c := if_pos rfl

lemma countOf_cons_other (h : t ≠ me) : countOf t (⟨me, c⟩ :: rs) = countOf t rs :=
  if_neg h.symm

lemma countOf_eq_none : countOf t rs = none ↔ t ∉ owners rs := by
  induction rs with
  | nil => simp
  | cons r rs ih =>
    rw [countOf_cons, owners, List.map_cons, List.mem_cons, not_or]
    by_cases h : r.owner = t
    · simp [h]
    · simp [h, Ne.symm h, ih]

lemma mem_of_countOf (h : countOf t rs = some c) : ⟨t, c⟩ ∈ rs := by
  induction rs with
  | nil => cases h
  | cons r rs ih =>
    rw [countOf_cons] at h
    split_ifs at h with hr
    · cases h
      subst hr
      exact List.mem_cons_self
    · exact List.mem_cons_of_mem r (ih h)

lemma countOf_of_mem (hn : (owners rs).Nodup) {r : LockRecord Task} (h : r ∈ rs) :
    countOf r.owner rs = some r.count := by
  induction rs with
  | nil => cases h
  | cons r' rs ih =>
    rw [owners, List.map_cons, List.nodup_cons] at hn
    rw [countOf_cons]
    rcases List.mem_cons.mp h with rfl | h
    · rw [if_pos rfl]
    · have hne : r'.owner ≠ r.owner := fun he => hn.1 (he ▸ List.mem_map_of_mem h)
      rw [if_neg hne, ih hn.2 h]

/-- Some record of the list is a lock. -/
lemma exists_count_iff (hn : (owners rs).Nodup) :
    (∃ r ∈ rs, r.count ≠ 0) ↔ ∃ t, (countOf t rs).getD 0 ≠ 0 := by
  constructor
  · rintro ⟨r, hr, hc⟩
    exact ⟨r.owner, by rwa [countOf_of_mem hn hr]⟩
  · rintro ⟨t, ht⟩
    cases h : countOf t rs with
    | none => simp [h] at ht
    | some c =>
      rw [h] at ht
      exact ⟨⟨t, c⟩, mem_of_countOf h, ht⟩

lemma countOf_append (h : countOf me rs = none) (t : Task) :
    countOf t (rs ++ [⟨me, c⟩]) = if t = me then some c else countOf t rs := by
  induction rs with
  | nil =>
    by_cases ht : t = me
    · simp [ht]
    · simp [ht, countOf_cons, Ne.symm ht]
  | cons r rs ih =>
    rw [countOf_cons] at h
    split_ifs at h with hr
    rw [List.cons_append, countOf_cons, countOf_cons, ih h]
    by_cases ht : t = me
    · rw [if_pos ht, if_neg (ht ▸ hr), if_pos ht]
    · rw [if_neg ht, if_neg ht]

lemma increment_of_none (h : countOf me rs = none) : increment me rs = none := by
  induction rs with
  | nil => rfl
  | cons r rs ih =>
    rw [countOf_cons] at h
    split_ifs at h with hr
    rw [increment, if_neg hr, ih h, Option.map_none]

lemma increment_of_some (h : countOf me rs = some c) : ∃ rs', increment me rs = some rs' ∧
    owners rs' = owners rs ∧
      ∀ t, countOf t rs' = if t = me then some (c + 1) else countOf t rs := by
  induction rs with
  | nil => cases h
  | cons r rs ih =>
    rw [countOf_cons] at h
    by_cases hr : r.owner = me
    · rw [if_pos hr] at h
      cases h
      refine ⟨⟨r.owner, r.count + 1⟩ :: rs, by rw [increment, if_pos hr], rfl, fun t => ?_⟩
      rw [countOf_cons, countOf_cons]
      by_cases ht : t = me
      · simp [ht, hr]
      · simp [ht, hr, Ne.symm ht]
    · rw [if_neg hr] at h
      obtain ⟨rs', hrs', howners, hcount⟩ := ih h
      refine ⟨r :: rs', by rw [increment, if_neg hr, hrs', Option.map_some], ?_, fun t => ?_⟩
      · exact congrArg (r.owner :: ·) howners
      · rw [countOf_cons, countOf_cons, hcount]
        by_cases ht : t = me
        · simp [ht, hr]
        · simp [ht]

/-- The rest of the loop once the caller's record is found. -/
lemma releaseRecord_of_absent (h : countOf me rs = none) (found remaining : Bool) :
    ∃ remaining', releaseRecord me rs found remaining = (rs, found, remaining') ∧
      (remaining' = true ↔ remaining = true ∨ ∃ r ∈ rs, r.count ≠ 0) := by
  induction rs generalizing remaining with
  | nil => exact ⟨remaining, rfl, by simp⟩
  | cons r rs ih =>
    rw [countOf_cons] at h
    split_ifs at h with hr
    obtain ⟨remaining', hloop, hiff⟩ := ih h (remaining || r.count != 0)
    refine ⟨remaining', by rw [releaseRecord, if_neg hr, hloop], hiff.trans ?_⟩
    simp [or_assoc]

/-- The caller's count goes down by one, and its record goes with the last one. -/
lemma releaseRecord_of_some (hn : (owners rs).Nodup) (h : countOf me rs = some c) (hc : c ≠ 0)
    (remaining : Bool) :
    ∃ rs' remaining', releaseRecord me rs false remaining = (rs', true, remaining') ∧
      (owners rs').Sublist (owners rs) ∧
      (∀ t, countOf t rs' = if t = me then (if c = 1 then none else some (c - 1))
        else countOf t rs) ∧
      (remaining' = true ↔ remaining = true ∨ ∃ r ∈ rs', r.count ≠ 0) := by
  induction rs generalizing remaining with
  | nil => cases h
  | cons r rs ih =>
    rw [owners, List.map_cons, List.nodup_cons] at hn
    rw [countOf_cons] at h
    by_cases hr : r.owner = me
    · rw [if_pos hr] at h
      cases h
      have habsent : countOf me rs = none := countOf_eq_none.mpr (hr ▸ hn.1)
      have hother : ∀ t, t ≠ me → countOf t (r :: rs) = countOf t rs :=
        fun t ht => if_neg fun he => ht (he.symm.trans hr)
      by_cases h1 : r.count - 1 = 0
      · have hc1 : r.count = 1 := by
          rw [← UInt32.sub_add_cancel r.count 1, h1]
          rfl
        obtain ⟨remaining', hloop, hiff⟩ := releaseRecord_of_absent habsent true remaining
        have hcount : ∀ t, countOf t rs = if t = me then (if r.count = 1 then none
            else some (r.count - 1)) else countOf t (r :: rs) := by
          intro t
          by_cases ht : t = me
          · rw [if_pos ht, if_pos hc1, ht, habsent]
          · rw [if_neg ht, hother t ht]
        cases remaining with
        | false =>
          exact ⟨rs, remaining', by simp [releaseRecord, hr, h1, hloop],
            List.sublist_cons_self _ _, hcount, hiff⟩
        | true =>
          exact ⟨rs, true, by simp [releaseRecord, hr, h1], List.sublist_cons_self _ _, hcount,
            by simp⟩
      · have hc1 : r.count ≠ 1 := fun he => h1 (by rw [he]; decide)
        refine ⟨⟨r.owner, r.count - 1⟩ :: rs, true, by rw [releaseRecord, if_pos hr, if_neg h1],
          List.Sublist.refl _, fun t => ?_, by simp [h1]⟩
        by_cases ht : t = me
        · rw [if_pos ht, if_neg hc1, countOf_cons, if_pos (hr.trans ht.symm)]
        · rw [if_neg ht, hother t ht, countOf_cons, if_neg fun he => ht (he.symm.trans hr)]
    · rw [if_neg hr] at h
      obtain ⟨rs', remaining', hloop, howners, hcount, hiff⟩ :=
        ih hn.2 h (remaining || r.count != 0)
      refine ⟨r :: rs', remaining', by rw [releaseRecord, if_neg hr, hloop], ?_, fun t => ?_,
        hiff.trans ?_⟩
      · exact howners.cons_cons r.owner
      · rw [countOf_cons, countOf_cons, hcount]
        by_cases ht : t = me
        · simp [ht, hr]
        · simp [ht]
      · simp [or_assoc]

section Wake

/-- A request becomes a lock. -/
def granted (c : UInt32) : UInt32 := if c = 0 then 1 else c

lemma granted_ne_zero (c : UInt32) : granted c ≠ 0 := by
  rw [granted]
  split_ifs with h
  · decide
  · exact h

omit [DecidableEq Task] in
lemma owners_wakeReaders : owners (wakeReaders rs).1 = owners rs := by
  rw [owners, wakeReaders, List.map_map]
  apply List.map_congr_left
  intro r _
  rw [comp_apply]
  split_ifs <;> rfl

lemma countOf_wakeReaders (t : Task) :
    countOf t (wakeReaders rs).1 = (countOf t rs).map granted := by
  rw [wakeReaders]
  induction rs with
  | nil => rfl
  | cons r rs ih =>
    rw [List.map_cons, countOf_cons, countOf_cons, ih]
    by_cases hc : r.count = 0
    · by_cases ht : r.owner = t <;> simp [hc, ht, granted]
    · by_cases ht : r.owner = t <;> simp [hc, ht, granted]

lemma count_wakeReaders (hn : (owners rs).Nodup) (t : Task) :
    (wakeReaders rs).2.count t = if countOf t rs = some 0 then 1 else 0 := by
  rw [wakeReaders]
  induction rs with
  | nil => simp
  | cons r rs ih =>
    rw [owners, List.map_cons, List.nodup_cons] at hn
    rw [countOf_cons, List.filter_cons]
    by_cases ht : r.owner = t
    · have habsent : countOf t rs = none := countOf_eq_none.mpr (ht ▸ hn.1)
      have hrest := ih hn.2
      rw [habsent] at hrest
      by_cases hc : r.count = 0 <;> simp [hc, ht, hrest]
    · by_cases hc : r.count = 0 <;> simp [hc, ht, ih hn.2]

end Wake

end RepRapFirmware.RRFLibraries.LockRecords
