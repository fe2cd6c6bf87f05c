import RepRapFirmware.Movement.DriveOwnership

/-! No logical drive has two owners, whatever the movement systems allocate and release. -/

namespace RepRapFirmware.Movement.DriveOwnership

open Library.Runs

variable {n : ℕ} {m : Machine n} {ι : Type*} {s : State ι n} {i : ι}

structure Inv (m : Machine n) (s : State ι n) : Prop where
  closed : ∀ i, Closed m (s.systems i).axesAndExtrudersOwned (s.systems i).logicalDrivesOwned
  disjoint : ∀ i j, i ≠ j →
    Disjoint (s.systems i).logicalDrivesOwned (s.systems j).logicalDrivesOwned
  union : ∀ d, d ∈ s.allLogicalDrivesOwned ↔ ∃ i, d ∈ (s.systems i).logicalDrivesOwned

lemma inv_start : Inv m (start : State ι n) := by
  refine ⟨fun _ => closed_empty, ?_, ?_⟩
  · intro i j _
    exact Finset.disjoint_empty_left _
  · intro d
    simp [start]

lemma Inv.mem_all (h : Inv m s) (i : ι) (d : Fin n) :
    d ∈ s.allLogicalDrivesOwned ↔ d ∈ (s.systems i).logicalDrivesOwned ∨
      ∃ j, j ≠ i ∧ d ∈ (s.systems j).logicalDrivesOwned := by
  rw [h.union]
  constructor
  · rintro ⟨j, hj⟩
    by_cases hji : j = i
    · exact Or.inl (hji ▸ hj)
    · exact Or.inr ⟨j, hji, hj⟩
  · rintro (hi | ⟨j, -, hj⟩)
    · exact ⟨i, hi⟩
    · exact ⟨j, hj⟩

/-- Another movement system owns one of the drives. -/
def OwnedElsewhere (s : State ι n) (i : ι) (drives : Bitmap n) : Prop :=
  ∃ d ∈ drives, ∃ j, j ≠ i ∧ d ∈ (s.systems j).logicalDrivesOwned

lemma Inv.unavailable_iff (h : Inv m s) (drives : Bitmap n) :
    drives \ (s.systems i).logicalDrivesOwned ∩ s.allLogicalDrivesOwned ≠ ∅ ↔
      OwnedElsewhere s i drives := by
  rw [← Finset.nonempty_iff_ne_empty]
  constructor
  · rintro ⟨d, hd⟩
    obtain ⟨hneeded, hall⟩ := Finset.mem_inter.mp hd
    obtain ⟨hdrive, hnot⟩ := Finset.mem_sdiff.mp hneeded
    refine ⟨d, hdrive, ?_⟩
    exact ((h.mem_all i d).mp hall).resolve_left hnot
  · rintro ⟨d, hdrive, j, hj, hd⟩
    refine ⟨d, Finset.mem_inter.mpr ⟨Finset.mem_sdiff.mpr ⟨hdrive, ?_⟩, (h.union d).mpr ⟨j, hd⟩⟩⟩
    intro hi
    exact Finset.disjoint_left.mp (h.disjoint i j (Ne.symm hj)) hi hd

/-- What the system already owns plays no part in whether a drive is owned elsewhere. -/
lemma Inv.ownedElsewhere_closure (h : Inv m s) (axes : Bitmap n) :
    OwnedElsewhere s i (formClosure m axes ∅).2 ↔
      OwnedElsewhere s i (formClosure m (axes \ (s.systems i).axesAndExtrudersOwned) ∅).2 := by
  have hboth := (h.closed i).union
    (formClosure_closed (m := m) (axes \ (s.systems i).axesAndExtrudersOwned) ∅)
  have hcover : axes ⊆ (s.systems i).axesAndExtrudersOwned ∪
      (formClosure m (axes \ (s.systems i).axesAndExtrudersOwned) ∅).1 := by
    intro a ha
    by_cases hown : a ∈ (s.systems i).axesAndExtrudersOwned
    · exact Finset.mem_union_left _ hown
    · apply Finset.mem_union_right
      exact (subset_formClosure _ _).1 (Finset.mem_sdiff.mpr ⟨ha, hown⟩)
  have hup := (formClosure_subset hboth hcover (Finset.empty_subset _)).2
  have hdown := (formClosure_subset (formClosure_closed (m := m) axes ∅)
    (Finset.sdiff_subset.trans (subset_formClosure axes ∅).1) (Finset.empty_subset _)
    : (formClosure m (axes \ (s.systems i).axesAndExtrudersOwned) ∅).1 ⊆ _ ∧ _).2
  constructor
  · rintro ⟨d, hd, j, hj, hdj⟩
    refine ⟨d, ?_, j, hj, hdj⟩
    rcases Finset.mem_union.mp (hup hd) with hi | hd'
    · exact absurd hdj (Finset.disjoint_left.mp (h.disjoint i j (Ne.symm hj)) hi)
    · exact hd'
  · rintro ⟨d, hd, hj⟩
    exact ⟨d, hdown hd, hj⟩

lemma not_ownedElsewhere_empty : ¬ OwnedElsewhere s i (formClosure m ∅ ∅).2 := by
  rintro ⟨d, hd, -⟩
  have hempty := (formClosure_subset closed_empty le_rfl le_rfl :
    (formClosure m ∅ ∅).1 ⊆ ∅ ∧ (formClosure m ∅ ∅).2 ⊆ ∅).2
  exact absurd (hempty hd) (Finset.notMem_empty d)

variable [DecidableEq ι]

@[simp] lemma setSystem_self (ms : MovementState n) (all : Bitmap n) :
    (setSystem s i ms all).systems i = ms := by simp [setSystem]

lemma setSystem_other {j : ι} (h : j ≠ i) (ms : MovementState n) (all : Bitmap n) :
    (setSystem s i ms all).systems j = s.systems j := by simp [setSystem, h]

@[simp] lemma setSystem_all (ms : MovementState n) (all : Bitmap n) :
    (setSystem s i ms all).allLogicalDrivesOwned = all := rfl

lemma Inv.setSystem (h : Inv m s) {ms : MovementState n} {all : Bitmap n}
    (hclosed : Closed m ms.axesAndExtrudersOwned ms.logicalDrivesOwned)
    (hdisjoint : ∀ j, j ≠ i → Disjoint ms.logicalDrivesOwned (s.systems j).logicalDrivesOwned)
    (hall : ∀ d, d ∈ all ↔ d ∈ ms.logicalDrivesOwned ∨
      ∃ j, j ≠ i ∧ d ∈ (s.systems j).logicalDrivesOwned) : Inv m (setSystem s i ms all) := by
  refine ⟨?_, ?_, ?_⟩
  · intro j
    by_cases hj : j = i
    · subst hj
      rw [setSystem_self]
      exact hclosed
    · rw [setSystem_other hj]
      exact h.closed j
  · intro j k hjk
    by_cases hj : j = i
    · subst hj
      rw [setSystem_self, setSystem_other (Ne.symm hjk)]
      exact hdisjoint k (Ne.symm hjk)
    · rw [setSystem_other hj]
      by_cases hk : k = i
      · subst hk
        rw [setSystem_self]
        exact (hdisjoint j hj).symm
      · rw [setSystem_other hk]
        exact h.disjoint j k hjk
  · intro d
    rw [setSystem_all, hall]
    constructor
    · rintro (hi | ⟨j, hj, hd⟩)
      · exact ⟨i, by rwa [setSystem_self]⟩
      · exact ⟨j, by rwa [setSystem_other hj]⟩
    · rintro ⟨j, hd⟩
      by_cases hj : j = i
      · subst hj
        rw [setSystem_self] at hd
        exact Or.inl hd
      · rw [setSystem_other hj] at hd
        exact Or.inr ⟨j, hj, hd⟩

/-- The letters play no part in the invariant. -/
lemma Inv.setLetters (h : Inv m s) (letters : Finset Char) :
    Inv m (DriveOwnership.setSystem s i { s.systems i with ownedAxisLetters := letters }
      s.allLogicalDrivesOwned) :=
  h.setSystem (h.closed i) (fun j hj => h.disjoint i j (Ne.symm hj)) (h.mem_all i)

/-! ### Release -/

lemma Inv.releaseAxesAndExtruders (h : Inv m s) (axes : Bitmap n) :
    Inv m (releaseAxesAndExtruders m s i axes) := by
  have hretain : (formClosure m ((s.systems i).axesAndExtrudersOwned \ axes) ∅).2 ⊆
      (s.systems i).logicalDrivesOwned :=
    (formClosure_subset (h.closed i) Finset.sdiff_subset (Finset.empty_subset _)).2
  apply h.setSystem
  · exact formClosure_closed _ _
  · intro j hj
    exact (h.disjoint i j (Ne.symm hj)).mono_left hretain
  · intro d
    have hother : (∃ j, j ≠ i ∧ d ∈ (s.systems j).logicalDrivesOwned) →
        d ∉ (s.systems i).logicalDrivesOwned := by
      rintro ⟨j, hj, hd⟩ hi
      exact Finset.disjoint_left.mp (h.disjoint i j (Ne.symm hj)) hi hd
    rw [Finset.mem_sdiff, Finset.mem_sdiff, h.mem_all i d]
    constructor
    · rintro ⟨hi | hj, hkept⟩
      · left
        by_contra hnot
        exact hkept ⟨hi, hnot⟩
      · exact Or.inr hj
    · rintro (hd | hj)
      · exact ⟨Or.inl (hretain hd), fun hgone => hgone.2 hd⟩
      · exact ⟨Or.inr hj, fun hgone => hother hj hgone.1⟩

/-! ### Allocation -/

/-- The drives of a closure can be added where no other system has one of them. -/
lemma Inv.allocate (h : Inv m s) {axes drives : Bitmap n} (letters : Finset Char)
    (hclosed : Closed m axes drives)
    (hfree : drives \ (s.systems i).logicalDrivesOwned ∩ s.allLogicalDrivesOwned = ∅) :
    Inv m (DriveOwnership.setSystem s i
      ⟨(s.systems i).axesAndExtrudersOwned ∪ axes,
        (s.systems i).logicalDrivesOwned ∪ drives \ (s.systems i).logicalDrivesOwned, letters⟩
      (s.allLogicalDrivesOwned ∪ drives \ (s.systems i).logicalDrivesOwned)) := by
  apply h.setSystem
  · rw [Finset.union_sdiff_self_eq_union]
    exact (h.closed i).union hclosed
  · intro j hj
    apply Finset.disjoint_union_left.mpr
    refine ⟨h.disjoint i j (Ne.symm hj), ?_⟩
    apply Finset.disjoint_left.mpr
    intro d hd hdj
    have hall : d ∈ s.allLogicalDrivesOwned := (h.union d).mpr ⟨j, hdj⟩
    exact Finset.eq_empty_iff_forall_notMem.mp hfree d (Finset.mem_inter.mpr ⟨hd, hall⟩)
  · intro d
    rw [Finset.mem_union, Finset.mem_union, h.mem_all i d]
    exact or_right_comm

lemma Inv.allocateAxes (h : Inv m s) (axes : Bitmap n) (letters : Finset Char) :
    Inv m (allocateAxes m s i axes letters).1 := by
  unfold DriveOwnership.allocateAxes
  by_cases hneeded : axes \ (s.systems i).axesAndExtrudersOwned = ∅
  · simp only [hneeded, if_true]
    exact h.setLetters _
  · simp only [hneeded, if_false]
    split
    · next hfree => exact h.allocate _ (formClosure_closed _ _) hfree
    · exact h

lemma Inv.allocateDrives (h : Inv m s) (drives : Bitmap n) :
    Inv m (allocateDrives m s i drives).1 := by
  unfold DriveOwnership.allocateDrives
  dsimp only
  split
  · next hfree => exact h.allocate _ (formClosure_closed _ _) hfree.2
  · exact h

lemma Inv.step (h : Inv m s) (e : Event ι n) : Inv m (step m s e) := by
  cases e with
  | allocateAxes i axes letters => exact h.allocateAxes axes letters
  | allocateDrives i drives => exact h.allocateDrives drives
  | releaseAxesAndExtruders i axes => exact h.releaseAxesAndExtruders axes
  | releaseAllOwnedAxesAndExtruders i => exact h.releaseAxesAndExtruders _
  | releaseNonToolAxesAndExtruders i toolAxes => exact h.releaseAxesAndExtruders _
  | releaseAxisLetter i letter => exact h.setLetters _

/-! ### When an allocation fails -/

lemma Inv.allocateAxes_fails_iff (h : Inv m s) (axes : Bitmap n) (letters : Finset Char) :
    (DriveOwnership.allocateAxes m s i axes letters).2 ≠ ∅ ↔
      OwnedElsewhere s i (formClosure m axes ∅).2 := by
  rw [h.ownedElsewhere_closure axes]
  unfold DriveOwnership.allocateAxes
  by_cases hneeded : axes \ (s.systems i).axesAndExtrudersOwned = ∅
  · simp only [hneeded, if_true]
    exact iff_of_false (fun hne => hne rfl) not_ownedElsewhere_empty
  · rw [← h.unavailable_iff]
    simp only [hneeded, if_false]
    split <;> rfl

lemma Inv.allocateDrives_fails_iff (h : Inv m s) (drives : Bitmap n) :
    (DriveOwnership.allocateDrives m s i drives).2 ≠ ∅ ↔
      OwnedElsewhere s i (formClosure m ∅ drives).2 := by
  rw [← h.unavailable_iff]
  unfold DriveOwnership.allocateDrives
  dsimp only
  split <;> rfl

lemma allocateAxes_failed {axes : Bitmap n} {letters : Finset Char}
    (hfail : (allocateAxes m s i axes letters).2 ≠ ∅) :
    (allocateAxes m s i axes letters).1 = s := by
  unfold allocateAxes at hfail ⊢
  by_cases hneeded : axes \ (s.systems i).axesAndExtrudersOwned = ∅
  · simp [hneeded] at hfail
  · simp only [hneeded, if_false] at hfail ⊢
    split
    · next hfree => simp [hfree] at hfail
    · rfl

lemma allocateDrives_failed {drives : Bitmap n}
    (hfail : (allocateDrives m s i drives).2 ≠ ∅) : (allocateDrives m s i drives).1 = s := by
  unfold allocateDrives at hfail ⊢
  dsimp only at hfail ⊢
  split
  · next hfree => simp [hfree] at hfail
  · rfl

lemma Inv.allocateAxes_owns (h : Inv m s) {axes : Bitmap n} {letters : Finset Char}
    (hok : (DriveOwnership.allocateAxes m s i axes letters).2 = ∅) :
    (formClosure m axes ∅).2 ⊆
      ((DriveOwnership.allocateAxes m s i axes letters).1.systems i).logicalDrivesOwned := by
  have hclosed := (h.allocateAxes (i := i) axes letters).closed i
  apply (formClosure_subset hclosed ?_ (Finset.empty_subset _)).2
  unfold DriveOwnership.allocateAxes at hok ⊢
  by_cases hneeded : axes \ (s.systems i).axesAndExtrudersOwned = ∅
  · simp only [hneeded, if_true, setSystem_self]
    exact Finset.sdiff_eq_empty_iff_subset.mp hneeded
  · simp only [hneeded, if_false] at hok ⊢
    split
    · rw [setSystem_self]
      intro a ha
      by_cases hown : a ∈ (s.systems i).axesAndExtrudersOwned
      · exact Finset.mem_union_left _ hown
      · exact Finset.mem_union_right _ ((subset_formClosure _ _).1 (Finset.mem_sdiff.mpr ⟨ha,
          hown⟩))
    · next hne =>
      rw [if_neg hne] at hok
      exact absurd hok hne

lemma allocateDrives_owns {drives : Bitmap n} (hok : (allocateDrives m s i drives).2 = ∅) :
    (formClosure m ∅ drives).2 ⊆
      ((allocateDrives m s i drives).1.systems i).logicalDrivesOwned := by
  unfold allocateDrives at hok ⊢
  dsimp only at hok ⊢
  split
  · rw [setSystem_self]
    simp only [Finset.union_sdiff_self_eq_union]
    exact Finset.subset_union_right
  · next hne =>
    rw [if_neg hne] at hok
    apply Finset.sdiff_eq_empty_iff_subset.mp
    by_contra hneeded
    exact hne ⟨hneeded, hok⟩

theorem drives_owned_once (m : Machine n) (es : List (Event ι n)) :
    let s := run (step m) start es
    (∀ i j, i ≠ j →
      Disjoint (s.systems i).logicalDrivesOwned (s.systems j).logicalDrivesOwned) ∧
    (∀ d, d ∈ s.allLogicalDrivesOwned ↔ ∃ i, d ∈ (s.systems i).logicalDrivesOwned) ∧
    (∀ i axes letters,
      ((allocateAxes m s i axes letters).2 ≠ ∅ ↔ OwnedElsewhere s i (formClosure m axes ∅).2) ∧
      ((allocateAxes m s i axes letters).2 ≠ ∅ → (allocateAxes m s i axes letters).1 = s) ∧
      ((allocateAxes m s i axes letters).2 = ∅ → (formClosure m axes ∅).2 ⊆
        ((allocateAxes m s i axes letters).1.systems i).logicalDrivesOwned)) ∧
    (∀ i drives,
      ((allocateDrives m s i drives).2 ≠ ∅ ↔ OwnedElsewhere s i (formClosure m ∅ drives).2) ∧
      ((allocateDrives m s i drives).2 ≠ ∅ → (allocateDrives m s i drives).1 = s) ∧
      ((allocateDrives m s i drives).2 = ∅ → (formClosure m ∅ drives).2 ⊆
        ((allocateDrives m s i drives).1.systems i).logicalDrivesOwned)) := by
  intro s
  have h : Inv m s := invariant inv_start (fun _ e h => h.step e) es
  refine ⟨h.disjoint, h.union, ?_, ?_⟩
  · intro i axes letters
    exact ⟨h.allocateAxes_fails_iff axes letters, allocateAxes_failed, h.allocateAxes_owns⟩
  · intro i drives
    exact ⟨h.allocateDrives_fails_iff drives, allocateDrives_failed, allocateDrives_owns⟩

end RepRapFirmware.Movement.DriveOwnership
