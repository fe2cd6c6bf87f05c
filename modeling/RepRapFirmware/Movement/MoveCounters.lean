import Mathlib
import RepRapFirmware.Movement.DDARing

/-! The counters of the moves and the DDAs that are in use. An aborted move is counted twice: when
it is removed and when it is retired. -/

namespace RepRapFirmware.Movement.DDARing

open Library.Runs Library.Ring

/-- The DDAs from `p` up to the add pointer. -/
def between (r : DDARing) : ℕ → ℕ → List ℕ
  | 0, _ => []
  | fuel + 1, p => if p = r.addPointer then [] else p :: between r fuel (getNext r p)

def occupied (r : DDARing) : ℕ :=
  (between r r.numDdasInRing r.getPointer).countP fun p => (r.dda p).state ≠ .empty

def Agrees (r : DDARing) : Prop := (r.scheduledMoves - r.completedMoves).toNat = occupied r

instance (r : DDARing) : Decidable (Agrees r) := inferInstanceAs (Decidable (_ = _))

/-- The pause aborts the move that is being executed. -/
def aborts (r : DDARing) : Event → Bool
  | .lowPowerOrStallPause movementTimerTicks => (abortedMove r movementTimerTicks).isSome
  | _ => false

variable {r r' : DDARing} {i j k : ℕ}

/-! ### The ring from the get pointer on -/

def slot (r : DDARing) (j : ℕ) : ℕ := (r.getPointer + j) % r.numDdasInRing

/-- The first `j` DDAs from the get pointer on are in use, and those from the add pointer on, the
`k`th and the later ones, are free. -/
structure Occupies (r : DDARing) (j k : ℕ) : Prop where
  get : r.getPointer < r.numDdasInRing
  le : j ≤ k
  bound : k < r.numDdasInRing
  add : r.addPointer = slot r k
  used : ∀ i < j, (r.dda (slot r i)).state ≠ .empty
  free : ∀ i, k ≤ i → i < r.numDdasInRing → (r.dda (slot r i)).state = .empty

lemma getNext_slot (j : ℕ) : getNext r (slot r j) = slot r (j + 1) := by
  rw [getNext, slot, slot, Nat.mod_add_mod, Nat.add_assoc]

lemma slot_zero (h : r.getPointer < r.numDdasInRing) : slot r 0 = r.getPointer :=
  Nat.mod_eq_of_lt h

lemma slot_wrap (h : r.getPointer < r.numDdasInRing) :
    slot r r.numDdasInRing = r.getPointer := by
  rw [slot, Nat.add_mod_right, Nat.mod_eq_of_lt h]

lemma slot_inj (hi : i < r.numDdasInRing) (hj : j < r.numDdasInRing) :
    slot r i = slot r j ↔ i = j := by
  constructor
  · intro h
    rcases lt_trichotomy i j with hlt | heq | hlt
    · exact absurd h (place_ne hlt (by omega))
    · exact heq
    · exact absurd h.symm (place_ne hlt (by omega))
  · rintro rfl
    rfl

lemma Occupies.mono (h : Occupies r k k) (hj : j ≤ k) : Occupies r j k :=
  { h with le := hj, used := fun i hi => h.used i (hi.trans_le hj) }

/-- How far the counters are from the number `k` of DDAs in use. -/
def drift (r : DDARing) (k : ℕ) : ℕ :=
  (r.completedMoves.toNat + k + 2 ^ 32 - r.scheduledMoves.toNat) % 2 ^ 32

lemma between_slot (h : Occupies r k k) (hj : j ≤ k) {fuel : ℕ} (hfuel : k - j ≤ fuel) :
    between r fuel (slot r j) = (List.range' j (k - j)).map (slot r) := by
  induction fuel generalizing j with
  | zero =>
    have hzero : k - j = 0 := by omega
    rw [hzero]
    rfl
  | succ fuel ih =>
    have hn := h.bound
    rw [between, h.add]
    by_cases hjk : j = k
    · subst hjk
      simp
    · have hne : slot r j ≠ slot r k := fun heq => hjk ((slot_inj (by omega) hn).mp heq)
      have hlen : k - j = (k - (j + 1)) + 1 := by omega
      rw [if_neg hne, getNext_slot, ih (by omega) (by omega), hlen, List.range'_succ,
        List.map_cons]

lemma Occupies.occupied_eq (h : Occupies r k k) : occupied r = k := by
  have hfuel : k - 0 ≤ r.numDdasInRing := by
    have := h.bound
    omega
  have hbetween := between_slot h (Nat.zero_le k) hfuel
  rw [slot_zero h.get] at hbetween
  rw [occupied, hbetween, List.countP_eq_length.mpr]
  · simp
  · intro p hp
    obtain ⟨i, hi, rfl⟩ := List.mem_map.mp hp
    have hik : i < k := by
      have := List.mem_range'_1.mp hi
      omega
    exact decide_eq_true (h.used i hik)

lemma Occupies.agrees_iff (h : Occupies r k k) : Agrees r ↔ drift r k = 0 := by
  have hk := h.bound
  have hn := r.fits
  have hs := r.scheduledMoves.toNat_lt
  have hc := r.completedMoves.toNat_lt
  rw [Agrees, h.occupied_eq, UInt32.toNat_sub, drift]
  omega

/-- The ring stays in order, and the counters stay as far from it as they are. -/
def Keeps (r r' : DDARing) : Prop :=
  ∀ k, Occupies r k k → ∃ k', Occupies r' k' k' ∧ drift r' k' = drift r k

lemma Keeps.refl (r : DDARing) : Keeps r r := fun k h => ⟨k, h, rfl⟩

lemma Keeps.trans {r'' : DDARing} (h : Keeps r r') (h' : Keeps r' r'') : Keeps r r'' := by
  intro k hk
  obtain ⟨k', hk', hdrift⟩ := h k hk
  obtain ⟨k'', hk'', hdrift'⟩ := h' k' hk'
  exact ⟨k'', hk'', hdrift'.trans hdrift⟩

/-- The pointers and the counters are the same and so is which DDAs are free. -/
structure SameUse (r r' : DDARing) : Prop where
  size : r'.numDdasInRing = r.numDdasInRing
  get : r'.getPointer = r.getPointer
  add : r'.addPointer = r.addPointer
  scheduled : r'.scheduledMoves = r.scheduledMoves
  completed : r'.completedMoves = r.completedMoves
  state : ∀ p, (r'.dda p).state = .empty ↔ (r.dda p).state = .empty

lemma SameUse.refl (r : DDARing) : SameUse r r := ⟨rfl, rfl, rfl, rfl, rfl, fun _ => Iff.rfl⟩

lemma SameUse.trans {r'' : DDARing} (h : SameUse r r') (h' : SameUse r' r'') : SameUse r r'' :=
  ⟨h'.size.trans h.size, h'.get.trans h.get, h'.add.trans h.add,
    h'.scheduled.trans h.scheduled, h'.completed.trans h.completed,
    fun p => (h'.state p).trans (h.state p)⟩

lemma SameUse.keeps (h : SameUse r r') : Keeps r r' := by
  intro k hk
  have hslot : ∀ i, slot r' i = slot r i := by
    intro i
    rw [slot, slot, h.get, h.size]
  refine ⟨k, ⟨?_, le_rfl, ?_, ?_, ?_, ?_⟩, ?_⟩
  · rw [h.get, h.size]
    exact hk.get
  · rw [h.size]
    exact hk.bound
  · rw [h.add, hslot]
    exact hk.add
  · intro i hi hempty
    rw [hslot, h.state] at hempty
    exact hk.used i hi hempty
  · intro i hki hi
    rw [hslot, h.state]
    exact hk.free i hki (h.size ▸ hi)
  · rw [drift, drift, h.completed, h.scheduled]

lemma sameUse_setDDA {p : ℕ} {d : DDA} (h : d.state = .empty ↔ (r.dda p).state = .empty) :
    SameUse r (setDDA r p d) := by
  refine ⟨rfl, rfl, rfl, rfl, rfl, ?_⟩
  intro q
  by_cases hq : q = p
  · subst hq
    simpa [setDDA] using h
  · simp [setDDA, hq]

lemma free_dda_of_ne {p q : ℕ} (h : q ≠ p) : (DDARing.free r p).dda q = r.dda q :=
  Function.update_of_ne h _ _

/-! ### Adding moves -/

lemma canAddMove_empty (h : canAddMove r = true) : (r.dda r.addPointer).state = .empty ∧
    (r.dda (getNext r r.addPointer)).state = .empty := by
  by_contra hne
  rw [canAddMove, if_neg hne] at h
  exact Bool.noConfusion h

lemma keeps_addMove (hnext : (r.dda (getNext r r.addPointer)).state = .empty) {d : DDA}
    (hd : d.state ≠ .empty) : Keeps r (addMove (setDDA r r.addPointer d)) := by
  intro k h
  have hk := h.bound
  have hn := r.several
  have hroom : k + 1 < r.numDdasInRing := by
    by_contra hfull
    have heq : k + 1 = r.numDdasInRing := by omega
    rw [h.add, getNext_slot, heq, slot_wrap h.get, ← slot_zero h.get] at hnext
    exact h.used 0 (by omega) hnext
  have hother : ∀ i, i < r.numDdasInRing → i ≠ k →
      (addMove (setDDA r r.addPointer d)).dda (slot r i) = r.dda (slot r i) := by
    intro i hi hik
    have hne : slot r i ≠ r.addPointer := by
      rw [h.add]
      exact fun heq => hik ((slot_inj hi hk).mp heq)
    exact Function.update_of_ne hne _ _
  refine ⟨k + 1, ⟨h.get, le_rfl, hroom, ?_, ?_, ?_⟩, ?_⟩
  · change getNext r r.addPointer = slot r (k + 1)
    rw [h.add, getNext_slot]
  · intro i hi
    change ((addMove (setDDA r r.addPointer d)).dda (slot r i)).state ≠ .empty
    by_cases hik : i = k
    · rw [hik, ← h.add]
      simpa [addMove, setDDA] using hd
    · rw [hother i (by omega) hik]
      exact h.used i (by omega)
  · intro i hki hi
    change ((addMove (setDDA r r.addPointer d)).dda (slot r i)).state = .empty
    rw [hother i hi (by omega)]
    exact h.free i (by omega) hi
  · change (r.completedMoves.toNat + (k + 1) + 2 ^ 32 - (r.scheduledMoves + 1).toNat) % 2 ^ 32 =
      (r.completedMoves.toNat + k + 2 ^ 32 - r.scheduledMoves.toNat) % 2 ^ 32
    have hs := r.scheduledMoves.toNat_lt
    rw [UInt32.toNat_add]
    simp only [UInt32.toNat_one]
    omega

lemma sameUse_doLookahead (lookahead : ℕ → UInt32 × Bool) :
    SameUse r (doLookahead r lookahead) := by
  refine ⟨rfl, rfl, rfl, rfl, rfl, ?_⟩
  intro p
  simp only [doLookahead]
  split <;> rfl

lemma keeps_addStandardMove (h : canAddMove r = true) (planned : Planned) :
    Keeps r (addStandardMove r planned) := by
  obtain ⟨hadd, hnext⟩ := canAddMove_empty h
  have hsame := sameUse_doLookahead (r := r) planned.lookahead
  have hadd' := (hsame.state r.addPointer).mpr hadd
  have hnext' := (hsame.state _).mpr hnext
  apply hsame.keeps.trans
  simp only [addStandardMove]
  cases planned.ok with
  | true => exact keeps_addMove hnext' (by simp)
  | false => exact (sameUse_setDDA (iff_of_true rfl hadd')).keeps

lemma keeps_addSpecialMove (h : canAddMove r = true) (realMove : Bool) (clocksNeeded : UInt32) :
    Keeps r (addSpecialMove r realMove clocksNeeded) := by
  obtain ⟨-, hnext⟩ := canAddMove_empty h
  cases realMove with
  | true => exact keeps_addMove hnext (by simp)
  | false => exact Keeps.refl r

lemma keeps_addAsyncMove (h : canAddMove r = true) (realMove : Bool) (clocksNeeded : UInt32) :
    Keeps r (addAsyncMove r realMove clocksNeeded) := by
  obtain ⟨-, hnext⟩ := canAddMove_empty h
  cases realMove with
  | true => exact keeps_addMove hnext (by simp)
  | false => exact Keeps.refl r

/-! ### Spin -/

lemma isCommitted_iff (d : DDA) : d.isCommitted = true ↔ d.state = .committed := by
  simp [DDA.isCommitted]

lemma used_of_committed {p : ℕ} (h : (r.dda p).isCommitted = true) :
    (r.dda p).state ≠ .empty := by
  rw [(isCommitted_iff _).mp h]
  exact DDAState.noConfusion

lemma keeps_retire (h : (r.dda r.getPointer).state ≠ .empty) : Keeps r (retire r) := by
  intro k hk
  have hkn := hk.bound
  have hn := r.several
  have hpos : 0 < k := by
    by_contra hzero
    apply h
    rw [← slot_zero hk.get]
    exact hk.free 0 (by omega) (by omega)
  have hslot : ∀ i, slot (retire r) i = slot r (i + 1) := by
    intro i
    change ((r.getPointer + 1) % r.numDdasInRing + i) % r.numDdasInRing = slot r (i + 1)
    rw [Nat.mod_add_mod, slot]
    congr 1
    omega
  have hother : ∀ i, i + 1 < r.numDdasInRing →
      (retire r).dda (slot r (i + 1)) = r.dda (slot r (i + 1)) := by
    intro i hi
    have hne : slot r (i + 1) ≠ r.getPointer := by
      rw [← slot_zero hk.get]
      exact fun heq => absurd ((slot_inj hi (by omega)).mp heq) (by omega)
    exact Function.update_of_ne hne _ _
  refine ⟨k - 1, ⟨?_, le_rfl, ?_, ?_, ?_, ?_⟩, ?_⟩
  · exact Nat.mod_lt _ (by omega)
  · change k - 1 < r.numDdasInRing
    omega
  · rw [hslot]
    change r.addPointer = slot r (k - 1 + 1)
    rw [hk.add, Nat.sub_add_cancel hpos]
  · intro i hi
    rw [hslot, hother i (by omega)]
    exact hk.used (i + 1) (by omega)
  · intro i hki hi
    change i < r.numDdasInRing at hi
    rw [hslot]
    by_cases hlast : i + 1 = r.numDdasInRing
    · rw [hlast, slot_wrap hk.get]
      simp [retire, DDARing.free, setDDA]
    · rw [hother i (by omega)]
      exact hk.free (i + 1) (by omega) (by omega)
  · change ((r.completedMoves + 1).toNat + (k - 1) + 2 ^ 32 - r.scheduledMoves.toNat) % 2 ^ 32 =
      (r.completedMoves.toNat + k + 2 ^ 32 - r.scheduledMoves.toNat) % 2 ^ 32
    have hc := r.completedMoves.toNat_lt
    have hs := r.scheduledMoves.toNat_lt
    rw [UInt32.toNat_add]
    simp only [UInt32.toNat_one]
    omega

lemma keeps_retireExpired (expiry : ℕ → DDA.Reading) (fuel : ℕ) :
    Keeps r (retireExpired expiry fuel r) := by
  induction fuel generalizing r with
  | zero => exact Keeps.refl r
  | succ fuel ih =>
    rw [retireExpired]
    split
    · next h =>
      have hcommitted := (Bool.and_eq_true_iff.mp h).1
      exact (keeps_retire (used_of_committed hcommitted)).trans ih
    · exact Keeps.refl r

lemma keeps_completeMoves (i : SpinInput) : Keeps r (completeMoves r i) := by
  have hsimulated : Keeps r (if (r.dda r.getPointer).isCommitted then retire r else r) := by
    split
    · next h => exact keeps_retire (used_of_committed h)
    · exact Keeps.refl r
  rw [completeMoves]
  cases i.simulationMode with
  | off => exact keeps_retireExpired i.expiry _
  | debug => exact keeps_retireExpired i.expiry _
  | normal => exact hsimulated
  | partly => exact hsimulated

lemma sameUse_prepareMoves (i : SpinInput) (fuel p : ℕ) (moveTimeLeft : UInt32) :
    SameUse r (prepareMoves i fuel r p moveTimeLeft) := by
  induction fuel generalizing r p moveTimeLeft with
  | zero => exact SameUse.refl r
  | succ fuel ih =>
    rw [prepareMoves]
    split
    · next h =>
      have hprepare : SameUse r (prepare r p (i.prepared p)) := by
        apply sameUse_setDDA
        rw [h.1]
        exact iff_of_false DDAState.noConfusion DDAState.noConfusion
      exact hprepare.trans (ih _ _)
    · exact SameUse.refl r

lemma keeps_spin (i : SpinInput) : Keeps r (spin r i) := by
  apply (keeps_completeMoves i).trans
  simp only [spin]
  split
  · split
    · exact (sameUse_prepareMoves i _ _ _).keeps
    · exact Keeps.refl _
  · split
    · exact (sameUse_prepareMoves i _ _ _).keeps
    · exact Keeps.refl _

/-! ### Pausing -/

/-- What freeing the DDAs from the `j`th up to the `k`th does. -/
structure Freed (r r' : DDARing) (j k : ℕ) : Prop where
  size : r'.numDdasInRing = r.numDdasInRing
  get : r'.getPointer = r.getPointer
  add : r'.addPointer = r.addPointer
  completed : r'.completedMoves = r.completedMoves
  scheduled : (r'.scheduledMoves.toNat + (k - j)) % 2 ^ 32 = r.scheduledMoves.toNat
  state : ∀ i < r.numDdasInRing, (r'.dda (slot r i)).state =
    if j ≤ i ∧ i < k then .empty else (r.dda (slot r i)).state

lemma freed_refl (r : DDARing) (k : ℕ) : Freed r r k k := by
  refine ⟨rfl, rfl, rfl, rfl, ?_, ?_⟩
  · have := r.scheduledMoves.toNat_lt
    omega
  · intro i _
    rw [if_neg (by omega)]

lemma freed_freeSkipped {fuel : ℕ} (hjk : j ≤ k) (hk : k < r.numDdasInRing)
    (hfuel : k - j ≤ fuel) : Freed r (freeSkipped (slot r k) fuel r (slot r j)) j k := by
  induction fuel generalizing r j with
  | zero =>
    obtain rfl : j = k := by omega
    exact freed_refl r j
  | succ fuel ih =>
    rw [freeSkipped]
    by_cases hdone : j = k
    · subst hdone
      rw [if_pos rfl]
      exact freed_refl r j
    · have hapart : slot r j ≠ slot r k := fun heq => hdone ((slot_inj (by omega) hk).mp heq)
      rw [if_neg hapart, getNext_slot]
      have hnext : Freed (DDARing.free { r with scheduledMoves := r.scheduledMoves - 1 } (slot r j))
          (freeSkipped (slot r k) fuel
            (DDARing.free { r with scheduledMoves := r.scheduledMoves - 1 } (slot r j))
            (slot r (j + 1))) (j + 1) k := ih (by omega) hk (by omega)
      generalize freeSkipped (slot r k) fuel
        (DDARing.free { r with scheduledMoves := r.scheduledMoves - 1 } (slot r j))
        (slot r (j + 1)) = r' at hnext ⊢
      refine ⟨hnext.size, hnext.get, hnext.add, hnext.completed, ?_, ?_⟩
      · have hscheduled := hnext.scheduled
        have hs := r.scheduledMoves.toNat_lt
        change (r'.scheduledMoves.toNat + _) % _ = (r.scheduledMoves - 1).toNat at hscheduled
        rw [UInt32.toNat_sub] at hscheduled
        simp only [UInt32.toNat_one] at hscheduled
        have hdiff : k - j = k - (j + 1) + 1 := by omega
        rw [hdiff]
        omega
      · intro i hi
        refine (hnext.state i hi).trans ?_
        by_cases hij : i = j
        · subst hij
          rw [if_neg (by omega), if_pos (by omega)]
          simp [DDARing.free, setDDA, slot]
        · have hne : slot r i ≠ slot r j := fun heq => hij ((slot_inj hi (by omega)).mp heq)
          have hrange : (j + 1 ≤ i ∧ i < k) ↔ (j ≤ i ∧ i < k) := by omega
          simp only [hrange]
          split
          · rfl
          · change ((DDARing.free { r with scheduledMoves := r.scheduledMoves - 1 }
              (slot r j)).dda (slot r i)).state = _
            rw [free_dda_of_ne hne]

/-- Freeing up to the old add pointer leaves the ring in order. -/
lemma Occupies.freed (h : Occupies r j k) (hf : Freed { r with addPointer := slot r j } r' j k) :
    Occupies r' j j ∧ drift r' j = drift r k := by
  have hk := h.bound
  have hjk := h.le
  have hsize : r'.numDdasInRing = r.numDdasInRing := hf.size
  have hget : r'.getPointer = r.getPointer := hf.get
  have hslot : ∀ i, slot r' i = slot r i := by
    intro i
    rw [slot, slot, hget, hsize]
  have hstate : ∀ i < r.numDdasInRing, (r'.dda (slot r' i)).state =
      if j ≤ i ∧ i < k then .empty else (r.dda (slot r i)).state := by
    intro i hi
    rw [hslot]
    exact hf.state i hi
  refine ⟨⟨?_, le_rfl, ?_, ?_, ?_, ?_⟩, ?_⟩
  · rw [hget, hsize]
    exact h.get
  · rw [hsize]
    omega
  · rw [hslot]
    exact hf.add
  · intro i hi
    rw [hstate i (by omega), if_neg (by omega)]
    exact h.used i hi
  · intro i hji hi
    rw [hsize] at hi
    rw [hstate i hi]
    by_cases hik : i < k
    · rw [if_pos ⟨hji, hik⟩]
    · rw [if_neg (by omega)]
      exact h.free i (by omega) hi
  · have hscheduled : (r'.scheduledMoves.toNat + (k - j)) % 2 ^ 32 = r.scheduledMoves.toNat :=
      hf.scheduled
    have hcompleted : r'.completedMoves = r.completedMoves := hf.completed
    have hs := r'.scheduledMoves.toNat_lt
    have hn := r.fits
    rw [drift, drift, hcompleted]
    omega

lemma Occupies.skipFrom (h : Occupies r j k) : Occupies (skipFrom r (slot r j)) j j ∧
    drift (DDARing.skipFrom r (slot r j)) j = drift r k := by
  apply h.freed
  rw [DDARing.skipFrom, h.add]
  exact freed_freeSkipped h.le h.bound (by have := h.bound; omega)

lemma Occupies.freeFirst (h : Occupies r j k) (hjk : j < k) :
    Occupies (DDARing.free r (slot r j)) j k ∧
      drift (DDARing.free r (slot r j)) k = drift r k := by
  have hk := h.bound
  refine ⟨⟨h.get, h.le, h.bound, h.add, ?_, ?_⟩, rfl⟩
  · intro i hi
    have hne : slot r i ≠ slot r j := fun heq => absurd ((slot_inj (by omega) (by omega)).mp heq)
      (by omega)
    change ((DDARing.free r (slot r j)).dda (slot r i)).state ≠ .empty
    rw [free_dda_of_ne hne]
    exact h.used i hi
  · intro i hki hi
    have hi : i < r.numDdasInRing := hi
    have hne : slot r i ≠ slot r j := fun heq => absurd ((slot_inj hi (by omega)).mp heq)
      (by omega)
    change ((DDARing.free r (slot r j)).dda (slot r i)).state = .empty
    rw [free_dda_of_ne hne]
    exact h.free i hki hi

lemma pausePoint_slot (h : Occupies r k k) (hj : j ≤ k) {fuel p : ℕ} {pauseOkHere : Bool}
    (hp : pausePoint r fuel (slot r j) pauseOkHere = some p) : ∃ i, i < k ∧ p = slot r i := by
  induction fuel generalizing j pauseOkHere with
  | zero => cases hp
  | succ fuel ih =>
    rw [pausePoint] at hp
    by_cases hend : slot r j = r.addPointer
    · rw [if_pos hend] at hp
      cases hp
    · have hjk : j < k := by
        apply lt_of_le_of_ne hj
        rintro rfl
        exact hend h.add.symm
      rw [if_neg hend] at hp
      cases pauseOkHere with
      | true => exact ⟨j, hjk, (Option.some.inj hp).symm⟩
      | false =>
        rw [getNext_slot] at hp
        exact ih hjk hp

lemma keeps_pauseMoves : Keeps r (pauseMoves r) := by
  intro k h
  simp only [pauseMoves]
  split
  · exact ⟨k, h, rfl⟩
  · next hne =>
    have hpos : 0 < k := by
      by_contra hzero
      obtain rfl : k = 0 := by omega
      exact hne (by rw [h.add, slot_zero h.get])
    cases hp : pausePoint r r.numDdasInRing (getNext r r.getPointer)
        (canPauseAfter r r.getPointer) with
    | none => exact ⟨k, h, rfl⟩
    | some p =>
      rw [← slot_zero h.get, getNext_slot] at hp
      obtain ⟨i, hi, rfl⟩ := pausePoint_slot h hpos hp
      obtain ⟨hfirst, hdrift⟩ := (h.mono hi.le).freeFirst hi
      obtain ⟨hskip, hdrift'⟩ := hfirst.skipFrom
      exact ⟨i, hskip, hdrift'.trans hdrift⟩

lemma getCurrentDDA_slot (h : Occupies r k k) (hj : j ≤ k) {fuel p : ℕ} {now : UInt32}
    (hp : getCurrentDDA r now fuel (slot r j) = some p) : ∃ i, i < k ∧ p = slot r i := by
  induction fuel generalizing j with
  | zero => cases hp
  | succ fuel ih =>
    rw [getCurrentDDA] at hp
    split at hp
    · next hcommitted =>
      have hjk : j < k := by
        by_contra hge
        exact used_of_committed hcommitted (h.free j (by omega) (by have := h.bound; omega))
      simp only at hp
      split at hp
      · cases hp
      · split at hp
        · exact ⟨j, hjk, (Option.some.inj hp).symm⟩
        · rw [getNext_slot] at hp
          exact ih hjk hp
    · cases hp

lemma firstFromFile_slot (h : Occupies r k k) (hj : j ≤ k) (fuel : ℕ) :
    ∃ i, i ≤ k ∧ firstFromFile r fuel (slot r j) = slot r i := by
  induction fuel generalizing j with
  | zero => exact ⟨j, hj, rfl⟩
  | succ fuel ih =>
    rw [firstFromFile]
    by_cases hend : slot r j = r.addPointer
    · rw [if_pos hend]
      exact ⟨j, hj, rfl⟩
    · have hjk : j < k := by
        apply lt_of_le_of_ne hj
        rintro rfl
        exact hend h.add.symm
      rw [if_neg hend]
      split
      · exact ⟨j, hj, rfl⟩
      · rw [getNext_slot]
        exact ih hjk

lemma currentDDA_slot (h : Occupies r k k) {p : ℕ} {now : UInt32}
    (hp : currentDDA r now = some p) : ∃ i, i < k ∧ p = slot r i := by
  rw [currentDDA, ← slot_zero h.get] at hp
  exact getCurrentDDA_slot h (Nat.zero_le k) hp

lemma keeps_lowPowerOrStallPause {now : UInt32} (hnone : abortedMove r now = none) :
    Keeps r (lowPowerOrStallPause r now) := by
  intro k h
  simp only [lowPowerOrStallPause, hnone]
  have hstart : ∃ i, i ≤ k ∧ (currentDDA r now).getD r.getPointer = slot r i := by
    cases hp : currentDDA r now with
    | none => exact ⟨0, Nat.zero_le k, (slot_zero h.get).symm⟩
    | some p =>
      obtain ⟨i, hi, rfl⟩ := currentDDA_slot h hp
      exact ⟨i, hi.le, rfl⟩
  obtain ⟨i, hi, hfrom⟩ := hstart
  obtain ⟨q, hq, hfirst⟩ := firstFromFile_slot h hi r.numDdasInRing
  rw [hfrom, hfirst]
  split
  · exact ⟨k, h, rfl⟩
  · exact ⟨q, (h.mono hq).skipFrom⟩

lemma drift_of_abort {now : UInt32} {p : ℕ} (h : Occupies r k k)
    (hp : abortedMove r now = some p) : ∃ k', Occupies (lowPowerOrStallPause r now) k' k' ∧
      drift (lowPowerOrStallPause r now) k' = (drift r k + 1) % 2 ^ 32 := by
  obtain ⟨i, hi, rfl⟩ := currentDDA_slot h (Option.filter_eq_some_iff.mp hp).1
  have hscheduled : Occupies { r with scheduledMoves := r.scheduledMoves - 1 } (i + 1) k :=
    ⟨h.get, hi, h.bound, h.add, (h.mono hi).used, h.free⟩
  obtain ⟨hskip, hdrift⟩ := hscheduled.skipFrom
  simp only [lowPowerOrStallPause, hp, getNext_slot]
  refine ⟨i + 1, hskip, hdrift.trans ?_⟩
  have hs := r.scheduledMoves.toNat_lt
  change (r.completedMoves.toNat + k + 2 ^ 32 - (r.scheduledMoves - 1).toNat) % 2 ^ 32 = _
  rw [drift, UInt32.toNat_sub]
  simp only [UInt32.toNat_one]
  omega

/-! ### Runs -/

lemma keeps_step {e : Event} (h : aborts r e = false) : Keeps r (step r e) := by
  cases e with
  | addStandardMove planned =>
    rw [step]
    split
    · next hcan => exact keeps_addStandardMove hcan planned
    · exact Keeps.refl r
  | addSpecialMove realMove clocksNeeded =>
    rw [step]
    split
    · next hcan => exact keeps_addSpecialMove hcan realMove clocksNeeded
    · exact Keeps.refl r
  | addAsyncMove realMove clocksNeeded =>
    rw [step]
    split
    · next hcan => exact keeps_addAsyncMove hcan realMove clocksNeeded
    · exact Keeps.refl r
  | setWaitingToEmpty =>
    have hsame : SameUse r (setWaitingToEmpty r) := ⟨rfl, rfl, rfl, rfl, rfl, fun _ => Iff.rfl⟩
    exact hsame.keeps
  | spin i => exact keeps_spin i
  | pauseMoves => exact keeps_pauseMoves
  | lowPowerOrStallPause now =>
    apply keeps_lowPowerOrStallPause
    simpa [aborts] using h

lemma drift_of_aborts {e : Event} (hk : Occupies r k k) (h : aborts r e = true) :
    ∃ k', Occupies (step r e) k' k' ∧ drift (step r e) k' = (drift r k + 1) % 2 ^ 32 := by
  cases e with
  | lowPowerOrStallPause now =>
    obtain ⟨p, hp⟩ := Option.isSome_iff_exists.mp h
    exact drift_of_abort hk hp
  | _ => cases h

lemma agrees_step {e : Event} (hk : Occupies r k k) (h : Agrees r) :
    Agrees (step r e) ↔ aborts r e = false := by
  have hdrift := hk.agrees_iff.mp h
  cases ha : aborts r e with
  | true =>
    obtain ⟨k', hk', hdrift'⟩ := drift_of_aborts hk ha
    rw [hk'.agrees_iff, hdrift', hdrift]
    simp
  | false =>
    obtain ⟨k', hk', hdrift'⟩ := keeps_step ha k hk
    exact iff_of_true (hk'.agrees_iff.mpr (hdrift'.trans hdrift)) rfl

lemma ordered_step (h : ∃ k, Occupies r k k) (e : Event) : ∃ k, Occupies (step r e) k k := by
  obtain ⟨k, hk⟩ := h
  cases ha : aborts r e with
  | true =>
    obtain ⟨k', hk', -⟩ := drift_of_aborts hk ha
    exact ⟨k', hk'⟩
  | false =>
    obtain ⟨k', hk', -⟩ := keeps_step ha k hk
    exact ⟨k', hk'⟩

lemma occupies_start {n : ℕ} (several : 2 ≤ n) (fits : n < 2 ^ 32) :
    Occupies (start n several fits) 0 0 := by
  refine ⟨?_, le_rfl, ?_, ?_, ?_, ?_⟩
  · change 0 < n
    omega
  · change 0 < n
    omega
  · rfl
  · intro i hi
    omega
  · intro i _ _
    rfl

theorem counters_agree_iff (n : ℕ) (several : 2 ≤ n) (fits : n < 2 ^ 32) (es : List Event) :
    Always step Agrees (start n several fits) es ↔
      Along step (fun r e => aborts r e = false) (start n several fits) es := by
  have hstart := occupies_start several fits
  apply always_iff_along (I := fun r => ∃ k, Occupies r k k)
  · exact ⟨0, hstart⟩
  · intro r e h
    exact ordered_step h e
  · apply hstart.agrees_iff.mpr
    simp [drift, start]
  · rintro r e ⟨k, hk⟩ h
    exact agrees_step hk h

/-- A move from a file is added and committed. -/
def commitRun : List Event :=
  [.addStandardMove
      { ok := true, move := ⟨.empty, some 0, true, false, false, 0, 750⟩,
        lookahead := fun _ => (0, false) },
    .spin
      { prepareAdvanceTime := 75000, simulationMode := .off, shouldStartMove := true,
        expiry := fun _ => ⟨0, false⟩, clock := fun _ => 0, canPrepareMove := fun _ => true,
        prepared := fun _ => (1000, 750) }]

theorem counters_agree_paused :
    Always step Agrees (start 3 (by norm_num) (by norm_num)) (commitRun ++ [.pauseMoves]) :=
  (counters_agree_iff 3 (by norm_num) (by norm_num) (commitRun ++ [.pauseMoves])).mpr
    (by decide +kernel)

theorem aborted_move_counted_twice : ¬ ∀ (n : ℕ) (several : 2 ≤ n) (fits : n < 2 ^ 32)
    (es : List Event), Agrees (run step (start n several fits) es) := by
  intro h
  have hrun := h 3 (by norm_num) (by norm_num) (commitRun ++ [.lowPowerOrStallPause 1200])
  revert hrun
  decide +kernel

end RepRapFirmware.Movement.DDARing
