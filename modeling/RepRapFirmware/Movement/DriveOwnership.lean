import RepRapFirmware.Library.Runs
import RepRapFirmware.Library.Saturation

/-! The axes and logical drives that movement systems own. Bitmaps are finite sets of bit numbers
below `MaxAxesPlusExtruders`. Endpoints and coordinates are left out. -/

namespace RepRapFirmware.Movement.DriveOwnership

open Library.Runs Library.Saturation

abbrev Bitmap (n : ℕ) := Finset (Fin n)

/-- The kinematics and the numbers of axes and extruders, `n` being `MaxAxesPlusExtruders`. The
logical drives of the extruders are the last ones. -/
structure Machine (n : ℕ) where
  getControllingDrives : Fin n → Bitmap n
  numVisibleAxes : ℕ
  numExtruders : ℕ
  enough : numVisibleAxes + numExtruders ≤ n

variable {n : ℕ} (m : Machine n)

def getAllDrivesUsed (axes : Bitmap n) : Bitmap n := axes.biUnion m.getControllingDrives

def getAffectedAxes (drives : Bitmap n) : Bitmap n :=
  Finset.univ.filter fun axis =>
    axis.val < m.numVisibleAxes ∧ (m.getControllingDrives axis ∩ drives).Nonempty

def axesMask : Bitmap n := Finset.univ.filter fun axis => axis.val < n - m.numExtruders

def closeOnce (s : Bitmap n × Bitmap n) : Bitmap n × Bitmap n :=
  let drives := s.2 ∪ getAllDrivesUsed m (s.1 ∩ axesMask m)
  (s.1 ∪ getAffectedAxes m drives, drives)

/-- Each round of the loop but the last adds an axis or a drive. -/
def formClosure (axes drives : Bitmap n) : Bitmap n × Bitmap n :=
  saturate (closeOnce m) (2 * n) (axes, drives ∪ (axes \ axesMask m))

structure MovementState (n : ℕ) where
  axesAndExtrudersOwned : Bitmap n
  logicalDrivesOwned : Bitmap n
  ownedAxisLetters : Finset Char

structure State (ι : Type*) (n : ℕ) where
  systems : ι → MovementState n
  allLogicalDrivesOwned : Bitmap n

variable {ι : Type*} [DecidableEq ι]

def setSystem (s : State ι n) (i : ι) (ms : MovementState n) (all : Bitmap n) : State ι n :=
  { systems := Function.update s.systems i ms, allLogicalDrivesOwned := all }

def releaseAxesAndExtruders (s : State ι n) (i : ι) (axesToRelease : Bitmap n) : State ι n :=
  let ms := s.systems i
  let (axesAndExtrudersToRetain, drivesToRetain) :=
    formClosure m (ms.axesAndExtrudersOwned \ axesToRelease) ∅
  setSystem s i ⟨axesAndExtrudersToRetain, drivesToRetain, ∅⟩
    (s.allLogicalDrivesOwned \ (ms.logicalDrivesOwned \ drivesToRetain))

def releaseAllOwnedAxesAndExtruders (s : State ι n) (i : ι) : State ι n :=
  releaseAxesAndExtruders m s i (s.systems i).axesAndExtrudersOwned

/-- `toolAxes` are the X and Y axes and the extruders of the current tool, if there is one. -/
def releaseNonToolAxesAndExtruders (s : State ι n) (i : ι) (toolAxes : Option (Bitmap n)) :
    State ι n :=
  releaseAxesAndExtruders m s i
    (match toolAxes with
    | none => (s.systems i).axesAndExtrudersOwned
    | some axes => (s.systems i).axesAndExtrudersOwned \ axes)

def releaseAxisLetter (s : State ι n) (i : ι) (letter : Char) : State ι n :=
  let ms := s.systems i
  setSystem s i { ms with ownedAxisLetters := ms.ownedAxisLetters.erase letter }
    s.allLogicalDrivesOwned

/-- The result has the logical drives that cannot be allocated. -/
def allocateAxes (s : State ι n) (i : ι) (axes : Bitmap n) (axisLetters : Finset Char) :
    State ι n × Bitmap n :=
  let ms := s.systems i
  let axesNeeded := axes \ ms.axesAndExtrudersOwned
  if axesNeeded = ∅ then
    (setSystem s i { ms with ownedAxisLetters := ms.ownedAxisLetters ∪ axisLetters }
      s.allLogicalDrivesOwned, axesNeeded)
  else
    let (axesNeeded, drivesNeeded) := formClosure m axesNeeded ∅
    let drivesNeeded := drivesNeeded \ ms.logicalDrivesOwned
    let unavailableDrives := drivesNeeded ∩ s.allLogicalDrivesOwned
    if unavailableDrives = ∅ then
      (setSystem s i
        ⟨ms.axesAndExtrudersOwned ∪ axesNeeded, ms.logicalDrivesOwned ∪ drivesNeeded,
          ms.ownedAxisLetters ∪ axisLetters⟩
        (s.allLogicalDrivesOwned ∪ drivesNeeded), unavailableDrives)
    else (s, unavailableDrives)

def allocateDrives (s : State ι n) (i : ι) (drivesNeeded : Bitmap n) : State ι n × Bitmap n :=
  let ms := s.systems i
  let (affectedAxes, drivesNeeded) := formClosure m ∅ drivesNeeded
  let drivesNeeded := drivesNeeded \ ms.logicalDrivesOwned
  let unavailableDrives := drivesNeeded ∩ s.allLogicalDrivesOwned
  if drivesNeeded ≠ ∅ ∧ unavailableDrives = ∅ then
    (setSystem s i
      { ms with
        axesAndExtrudersOwned := ms.axesAndExtrudersOwned ∪ affectedAxes
        logicalDrivesOwned := ms.logicalDrivesOwned ∪ drivesNeeded }
      (s.allLogicalDrivesOwned ∪ drivesNeeded), unavailableDrives)
  else (s, unavailableDrives)

inductive Event (ι : Type*) (n : ℕ)
  | allocateAxes (i : ι) (axes : Bitmap n) (axisLetters : Finset Char)
  | allocateDrives (i : ι) (drives : Bitmap n)
  | releaseAxesAndExtruders (i : ι) (axes : Bitmap n)
  | releaseAllOwnedAxesAndExtruders (i : ι)
  | releaseNonToolAxesAndExtruders (i : ι) (toolAxes : Option (Bitmap n))
  | releaseAxisLetter (i : ι) (letter : Char)

def step (s : State ι n) : Event ι n → State ι n
  | .allocateAxes i axes axisLetters => (allocateAxes m s i axes axisLetters).1
  | .allocateDrives i drives => (allocateDrives m s i drives).1
  | .releaseAxesAndExtruders i axes => releaseAxesAndExtruders m s i axes
  | .releaseAllOwnedAxesAndExtruders i => releaseAllOwnedAxesAndExtruders m s i
  | .releaseNonToolAxesAndExtruders i toolAxes => releaseNonToolAxesAndExtruders m s i toolAxes
  | .releaseAxisLetter i letter => releaseAxisLetter s i letter

def start : State ι n where
  systems := fun _ => ⟨∅, ∅, ∅⟩
  allLogicalDrivesOwned := ∅

/-! ### The closure -/

/-- The drives of the axes and extruders are among the drives, and the axes of the drives among the
axes. -/
structure Closed (axes drives : Bitmap n) : Prop where
  extruders : axes \ axesMask m ⊆ drives
  drivesUsed : getAllDrivesUsed m (axes ∩ axesMask m) ⊆ drives
  affected : getAffectedAxes m drives ⊆ axes

variable {m} {axes drives axes' drives' : Bitmap n}

lemma mem_getAffectedAxes {a : Fin n} : a ∈ getAffectedAxes m drives ↔
    a.val < m.numVisibleAxes ∧ ∃ d ∈ m.getControllingDrives a, d ∈ drives := by
  simp [getAffectedAxes, Finset.Nonempty]

lemma getAllDrivesUsed_mono (h : axes ⊆ axes') :
    getAllDrivesUsed m axes ⊆ getAllDrivesUsed m axes' :=
  Finset.biUnion_subset_biUnion_of_subset_left _ h

lemma getAffectedAxes_mono (h : drives ⊆ drives') :
    getAffectedAxes m drives ⊆ getAffectedAxes m drives' := by
  intro a ha
  obtain ⟨hv, d, hd, hmem⟩ := mem_getAffectedAxes.mp ha
  exact mem_getAffectedAxes.mpr ⟨hv, d, hd, h hmem⟩

lemma getAffectedAxes_union :
    getAffectedAxes m (drives ∪ drives') = getAffectedAxes m drives ∪ getAffectedAxes m drives' :=
      by
  ext a
  simp only [mem_getAffectedAxes, Finset.mem_union]
  constructor
  · rintro ⟨hv, d, hd, hmem | hmem⟩
    · exact Or.inl ⟨hv, d, hd, hmem⟩
    · exact Or.inr ⟨hv, d, hd, hmem⟩
  · rintro (⟨hv, d, hd, hmem⟩ | ⟨hv, d, hd, hmem⟩)
    · exact ⟨hv, d, hd, Or.inl hmem⟩
    · exact ⟨hv, d, hd, Or.inr hmem⟩

lemma getAffectedAxes_subset_mask : getAffectedAxes m drives ⊆ axesMask m := by
  intro a ha
  have hv := (mem_getAffectedAxes.mp ha).1
  have := m.enough
  simp only [axesMask, Finset.mem_filter, Finset.mem_univ, true_and]
  omega

lemma le_closeOnce (s : Bitmap n × Bitmap n) : s ≤ closeOnce m s :=
  ⟨Finset.subset_union_left, Finset.subset_union_left⟩

lemma closeOnce_mono : Monotone (closeOnce m) := by
  intro s t h
  have hdrives : (closeOnce m s).2 ⊆ (closeOnce m t).2 :=
    Finset.union_subset_union h.2 (getAllDrivesUsed_mono (Finset.inter_subset_inter_right h.1))
  exact ⟨Finset.union_subset_union h.1 (getAffectedAxes_mono hdrives), hdrives⟩

lemma formClosure_fixed (axes drives : Bitmap n) :
    closeOnce m (formClosure m axes drives) = formClosure m axes drives := by
  apply saturate_fixed fun s => (n - s.1.card) + (n - s.2.card)
  · intro s hne
    obtain ⟨haxes, hdrives⟩ := le_closeOnce (m := m) s
    have ha := Finset.card_le_card haxes
    have hd := Finset.card_le_card hdrives
    have hn := Finset.card_le_univ (closeOnce m s).1
    have hn' := Finset.card_le_univ (closeOnce m s).2
    rw [Fintype.card_fin] at hn hn'
    have hgrow : s.1.card < (closeOnce m s).1.card ∨ s.2.card < (closeOnce m s).2.card := by
      by_contra hsame
      apply hne
      have h1 := Finset.eq_of_subset_of_card_le haxes (by omega)
      have h2 := Finset.eq_of_subset_of_card_le hdrives (by omega)
      exact Prod.ext h1.symm h2.symm
    omega
  · omega

lemma formClosure_closed (axes drives : Bitmap n) :
    Closed m (formClosure m axes drives).1 (formClosure m axes drives).2 := by
  have hfixed := formClosure_fixed (m := m) axes drives
  have hge : (axes, drives ∪ (axes \ axesMask m)) ≤ formClosure m axes drives :=
    le_saturate le_closeOnce
  have hmask : (formClosure m axes drives).1 ⊆ axes ∪ axesMask m := by
    have hle : formClosure m axes drives ≤ (axes ∪ axesMask m, Finset.univ) := by
      apply saturate_le closeOnce_mono
      · exact ⟨Finset.union_subset le_rfl (getAffectedAxes_subset_mask.trans
          Finset.subset_union_right), Finset.subset_univ _⟩
      · exact ⟨Finset.subset_union_left, Finset.subset_univ _⟩
    exact hle.1
  have h1 := congrArg Prod.fst hfixed
  have h2 := congrArg Prod.snd hfixed
  have hused : getAllDrivesUsed m ((formClosure m axes drives).1 ∩ axesMask m) ⊆
      (formClosure m axes drives).2 := by
    rw [← h2]
    exact Finset.subset_union_right
  refine ⟨?_, hused, ?_⟩
  · intro a ha
    obtain ⟨hmem, hnot⟩ := Finset.mem_sdiff.mp ha
    apply hge.2
    rcases Finset.mem_union.mp (hmask hmem) with hmem | hmem
    · exact Finset.mem_union_right _ (Finset.mem_sdiff.mpr ⟨hmem, hnot⟩)
    · exact absurd hmem hnot
  · have hsub : getAffectedAxes m (closeOnce m (formClosure m axes drives)).2 ⊆
        (closeOnce m (formClosure m axes drives)).1 := Finset.subset_union_right
    rwa [hfixed] at hsub

lemma subset_formClosure (axes drives : Bitmap n) :
    axes ⊆ (formClosure m axes drives).1 ∧ drives ⊆ (formClosure m axes drives).2 := by
  have hge : (axes, drives ∪ (axes \ axesMask m)) ≤ formClosure m axes drives :=
    le_saturate le_closeOnce
  exact ⟨hge.1, Finset.subset_union_left.trans hge.2⟩

lemma formClosure_subset (h : Closed m axes' drives') (ha : axes ⊆ axes') (hd : drives ⊆ drives') :
    (formClosure m axes drives).1 ⊆ axes' ∧ (formClosure m axes drives).2 ⊆ drives' := by
  have hle : formClosure m axes drives ≤ (axes', drives') := by
    apply saturate_le closeOnce_mono
    · have hdrives : drives' ∪ getAllDrivesUsed m (axes' ∩ axesMask m) = drives' :=
        Finset.union_eq_left.mpr h.drivesUsed
      simp only [closeOnce, hdrives]
      exact ⟨Finset.union_subset le_rfl h.affected, le_rfl⟩
    · exact ⟨ha, Finset.union_subset hd ((Finset.sdiff_subset_sdiff ha le_rfl).trans h.extruders)⟩
  exact hle

lemma Closed.union (h : Closed m axes drives) (h' : Closed m axes' drives') :
    Closed m (axes ∪ axes') (drives ∪ drives') := by
  refine ⟨?_, ?_, ?_⟩
  · rw [Finset.union_sdiff_distrib]
    exact Finset.union_subset_union h.extruders h'.extruders
  · rw [Finset.union_inter_distrib_right, getAllDrivesUsed, Finset.union_biUnion]
    exact Finset.union_subset_union h.drivesUsed h'.drivesUsed
  · rw [getAffectedAxes_union]
    exact Finset.union_subset_union h.affected h'.affected

lemma closed_empty : Closed m ∅ ∅ := by
  refine ⟨by simp, by simp [getAllDrivesUsed], ?_⟩
  intro a ha
  obtain ⟨-, d, -, hd⟩ := mem_getAffectedAxes.mp ha
  exact absurd hd (Finset.notMem_empty d)

end RepRapFirmware.Movement.DriveOwnership
