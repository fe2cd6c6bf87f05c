import Mathlib
import RepRapFirmware.Movement.ListAmendments
import RepRapFirmware.Movement.StepLists

/-! Every moving drive stays in one of the two lists, and the list of the drives that need steps
stays in order. -/

namespace RepRapFirmware.Movement.StepLists

open Segments Segments.DriveMovement InputShaping RepRapFirmware.Library.LinkedLists
open RepRapFirmware.Library.Ticks RepRapFirmware.Library.Runs

/-! ### The states of one drive -/

section States

variable {dm : DriveMovement}

lemma plan_state (seg : MoveSegment ℚ) (carried : ℚ) (net : ℤ) :
    (plan seg carried net).2.state ≠ .stepError := by
  rw [plan]
  split
  · change DMState.cartLinear ≠ .stepError
    exact fun h => by cases h
  · next t0 _ =>
    simp only [planAccelerated]
    split_ifs <;> exact fun h => by cases h

lemma setDirection_state (dm : DriveMovement) (direction : Bool) :
    (dm.setDirection direction).state = dm.state := by
  rw [DriveMovement.setDirection]
  split <;> rfl

lemma examine_state (now : UInt32) (segments : List (MoveSegment ℚ)) (dm : DriveMovement) :
    (examine now segments dm).state ≠ .stepError := by
  induction segments generalizing dm with
  | nil => exact fun h => by cases h
  | cons seg rest ih =>
    rw [examine]
    simp only
    split
    · exact fun h => by cases h
    · split
      · change (DriveMovement.setDirection _ _).state ≠ .stepError
        rw [setDirection_state]
        exact plan_state _ _ _
      · exact ih _

lemma newSegment_state (now : UInt32) (dm : DriveMovement) :
    (dm.newSegment now).state ≠ .stepError := examine_state now _ _

lemma storeInterval_state (t : StepTiming) (dm : DriveMovement) :
    (dm.storeInterval t).state = dm.state := by
  cases t with
  | unreasonable => rfl
  | interval clocks =>
    rw [storeInterval]
    split <;> rfl

lemma calcTime_state (t : StepTiming) (shift : ℕ) (h : dm.state ≠ .stepError) :
    (dm.calcTime t shift).state ≠ .stepError := by
  rw [calcTime]
  simp only
  split
  case h_5 =>
    split
    · rw [storeInterval_state]
      exact h
    · rw [storeInterval_state]
      exact fun h => by cases h
  all_goals first
    | (rw [storeInterval_state]; exact h)
    | exact h

lemma endOnMicrostep_state (dm : DriveMovement) (provisional : ℚ) :
    (dm.endOnMicrostep provisional).state = dm.state := by
  have hadjust : ∀ x, (dm.adjustLength x).state = dm.state := by
    intro x
    rw [DriveMovement.adjustLength]
    split <;> rfl
  have hround : ∀ (m : DriveMovement) extra net, (m.roundLastStep extra net).state = m.state := by
    intro m extra net
    cases extra <;> rfl
  rw [endOnMicrostep]
  simp only
  split_ifs <;> simp only [hadjust, hround]

lemma calcNextStepTimeFull_state (now : UInt32) (t : StepTiming) (h : dm.state ≠ .stepError) :
    (dm.calcNextStepTimeFull now t).state ≠ .stepError := by
  have hcalc : ∀ m : DriveMovement, m.state ≠ .stepError →
      (m.calcOrFinish now t).state ≠ .stepError := by
    intro m hm
    rw [calcOrFinish]
    split
    · exact hm
    · next seg rest _ =>
      split
      · rw [finishSegment]
        simp only
        split
        · exact hm
        · split
          · exact hm
          · split
            · exact newSegment_state now _
            · split
              · exact newSegment_state now _
              · split
                · exact newSegment_state now _
                · exact calcTime_state t 0 (newSegment_state now _)
      · split
        · exact calcTime_state t 0 hm
        · exact calcTime_state t _ hm
  rw [calcNextStepTimeFull]
  split
  · exact h
  · split
    · apply hcalc
      rw [endOnMicrostep_state]
      exact h
    · exact hcalc dm h

end States

namespace DM

variable {d : DM}

lemma inMotion_of_not_idle (hidle : d.isIdle = false) (hstate : d.motion.state ≠ .stepError) :
    d.inMotion = true := by
  rw [isIdle] at hidle
  rw [inMotion]
  cases hphase : d.phaseStepping with
  | true => rfl
  | false =>
    rw [hphase, Bool.not_false, Bool.true_and] at hidle
    rw [hidle, decide_eq_false hstate]
    rfl

lemma not_inMotion_of_idle (h : d.isIdle = true) :
    d.inMotion = false ∧ d.phaseStepping = false := by
  rw [isIdle, Bool.and_eq_true, Bool.not_eq_true'] at h
  refine ⟨?_, h.1⟩
  rw [inMotion, h.1, h.2]
  rfl

lemma inMotion_of_starting (h : d.isStarting = true) : d.inMotion = true := by
  rw [isStarting, Bool.and_eq_true, decide_eq_true_eq] at h
  rw [inMotion, h.2]
  cases d.phaseStepping <;> rfl

end DM

/-! ### The two lists -/

variable {ι : Type}

/-- The drives of the two lists, with none of them twice. -/
structure Listed (link : Links ListHead ι) (A P : List ι) : Prop where
  active : Linked link (.inl .activeDMs) A none
  phaseStep : Linked link (.inl .phaseStepDMs) P none
  nodup : (A ++ P).Nodup

/-- The lists hold the drives that are moving. The list for phase stepping may hold others, which
have been stopped. -/
structure Holds (s : Move ι) (A P : List ι) : Prop where
  listed : Listed s.link A P
  active : ∀ i, i ∈ A ↔ (s.dms i).inMotion = true ∧ (s.dms i).phaseStepping = false
  phaseStep : ∀ i, (s.dms i).phaseStepping = true → i ∈ P

def timeOf (s : Move ι) (i : ι) : UInt32 := (s.dms i).nextStepTime

/-- The order in which the code compares the times. -/
def Ordered (time : ι → UInt32) (A : List ι) : Prop :=
  A.Pairwise fun i j => signedDiff (time i) (time j) ≤ 0

def Within (time : ι → UInt32) (A : List ι) : Prop := ∃ base, ∀ i ∈ A, ticks base (time i) < 2 ^ 31

def earlier (time : ι → UInt32) (i j : ι) : Bool := decide (signedDiff (time j) (time i) < 0)

/-- The list with a drive in its place. -/
def placed (time : ι → UInt32) (i : ι) (l : List ι) : List ι :=
  l.takeWhile (earlier time i) ++
    i :: l.dropWhile (earlier time i)

section Order

variable {time : ι → UInt32} {i j : ι} {A l : List ι}

lemma mem_placed : j ∈ placed time i l ↔ j = i ∨ j ∈ l := by
  rw [placed, List.mem_append, List.mem_cons, or_left_comm, ← List.mem_append,
    List.takeWhile_append_dropWhile]

lemma placed_perm (time : ι → UInt32) (i : ι) (l : List ι) : (placed time i l).Perm (i :: l) := by
  have hmiddle : (placed time i l).Perm
      (i :: (l.takeWhile (earlier time i) ++ l.dropWhile (earlier time i))) := List.perm_middle
  rwa [List.takeWhile_append_dropWhile] at hmiddle

lemma Within.mono {A' : List ι} (h : Within time A') (hsub : A ⊆ A') : Within time A := by
  obtain ⟨base, hbase⟩ := h
  exact ⟨base, fun i hi => hbase i (hsub hi)⟩

lemma placed_ordered (h : Ordered time l) (hwithin : Within time (placed time i l)) :
    Ordered time (placed time i l) := by
  obtain ⟨base, hbase⟩ := hwithin
  have hdiff : ∀ a ∈ placed time i l, ∀ b ∈ placed time i l,
      signedDiff (time a) (time b) = (ticks base (time a) : ℤ) - ticks base (time b) :=
    fun a ha b hb => signedDiff_ticks (hbase a ha) (hbase b hb)
  have hi : i ∈ placed time i l := mem_placed.mpr (.inl rfl)
  have hl : ∀ a ∈ l, a ∈ placed time i l := fun a ha => mem_placed.mpr (.inr ha)
  rw [← List.takeWhile_append_dropWhile (l := l)
    (p := earlier time i)] at h
  rw [Ordered, List.pairwise_append] at h
  obtain ⟨hbefore, hafter, hacross⟩ := h
  have hearlier : ∀ a ∈ l.takeWhile (earlier time i),
      signedDiff (time a) (time i) < 0 :=
    fun a ha => of_decide_eq_true (List.mem_takeWhile_imp (p := earlier time i) ha)
  -- the first drive behind the place is not earlier, and so are those that follow
  have hlater : ∀ a ∈ l.dropWhile (earlier time i),
      signedDiff (time i) (time a) ≤ 0 := by
    intro a ha
    have hmem : ∀ b ∈ l.dropWhile (earlier time i),
        b ∈ placed time i l := fun b hb => hl b (List.dropWhile_subset _ hb)
    rw [hdiff i hi a (hmem a ha)]
    cases hdrop : l.dropWhile (earlier time i) with
    | nil =>
      rw [hdrop] at ha
      exact absurd ha List.not_mem_nil
    | cons b rest =>
      have hb := hmem b (hdrop ▸ List.mem_cons_self)
      have hnot : ¬ signedDiff (time b) (time i) < 0 := by
        have hhead := List.head_dropWhile_not (earlier time i)
          (l := l) (by rw [hdrop]; exact List.cons_ne_nil _ _)
        simp only [hdrop, List.head_cons] at hhead
        exact of_decide_eq_false hhead
      rw [hdiff b hb i hi] at hnot
      rw [hdrop] at ha hafter
      rcases List.mem_cons.mp ha with rfl | hrest
      · omega
      · have hba := (List.pairwise_cons.mp hafter).1 a hrest
        rw [hdiff b hb a (hmem a (hdrop ▸ List.mem_cons_of_mem b hrest))] at hba
        omega
  rw [Ordered, placed, List.pairwise_append, List.pairwise_cons]
  refine ⟨hbefore, ⟨hlater, hafter⟩, fun a ha b hb => ?_⟩
  rcases List.mem_cons.mp hb with rfl | hb
  · exact (hearlier a ha).le
  · exact hacross a ha b hb

end Order

/-- What the drives outside of the lists point to stays. -/
def FrameOutside (link link' : Links ListHead ι) (l : List ι) : Prop :=
  ∀ j, j ∉ l → link' (.inr j) = link (.inr j)

lemma length_lt_turns [Fintype ι] {l : List ι} (h : l.Nodup) : l.length < Move.turns ι :=
  Nat.lt_succ_of_le h.length_le_card

lemma endPlace_mem {k : ListHead} {l : List ι} {j : ι} (h : endPlace (.inl k) l = .inr j) :
    j ∈ l := by
  rcases endPlace_cases (.inl k : ListHead ⊕ ι) l with ⟨heq, -⟩ | ⟨i, hi, heq⟩
  · exact nomatch heq.symm.trans h
  · exact Sum.inr.inj (heq.symm.trans h) ▸ hi

lemma endPlace_head {k k' : ListHead} {l : List ι} (h : endPlace (.inl k) l = .inl k') : k = k' :=
    by
  rcases endPlace_cases (.inl k : ListHead ⊕ ι) l with ⟨heq, -⟩ | ⟨i, hi, heq⟩
  · exact Sum.inl.inj (heq.symm.trans h)
  · exact nomatch heq.symm.trans h

section Links

variable [DecidableEq ι] {s : Move ι} {A P : List ι} {i : ι}

/-- Inserting a drive in one of two separate lists. -/
lemma insert_two {k : ListHead} (k' : ListHead) {link : Links ListHead ι} {before after l : List ι}
    (hk : k ≠ k') (h : Linked link (.inl k) (before ++ after) none)
    (h' : Linked link (.inl k') l none) (hnodup : ((before ++ after) ++ l).Nodup)
    (hi : i ∉ (before ++ after) ++ l) :
    Linked (insertAt link (endPlace (.inl k) before) i) (.inl k) (before ++ i :: after) none ∧
      Linked (insertAt link (endPlace (.inl k) before) i) (.inl k') l none ∧
      FrameOutside link (insertAt link (endPlace (.inl k) before) i) (i :: (before ++ after)) := by
  rw [List.mem_append, not_or] at hi
  rw [List.nodup_append] at hnodup
  obtain ⟨hnodup, -, hdisjoint⟩ := hnodup
  refine ⟨h.insertAt (outside_inl k _) hnodup hi.1 (nomatch ·), ?_, fun j hj => ?_⟩
  · apply h'.insertAt_frame
    · exact fun heq => hk (endPlace_head heq.symm)
    · exact (nomatch ·)
    · rintro j hj heq
      exact hdisjoint j (List.mem_append_left _ (endPlace_mem heq)) j hj rfl
    · exact hi.2
  · rw [List.mem_cons, not_or] at hj
    rw [insertAt, Function.update_of_ne, Function.update_of_ne]
    · exact fun heq => hj.1 (Sum.inr.inj heq)
    · exact fun heq => hj.2 (List.mem_append_left _ (endPlace_mem heq.symm))

/-- A drive that becomes idle leaves the list of the drives that need steps. -/
lemma Holds.idle {s' : Move ι} {A' : List ι} (h : Holds s A P) (hlisted : Listed s'.link A' P)
    (hdms : ∀ j, j ≠ i → s'.dms j = s.dms j) (hidle : (s'.dms i).isIdle = true)
    (hA' : ∀ j, j ∈ A' ↔ j ∈ A ∧ j ≠ i) : Holds s' A' P := by
  obtain ⟨hmotion, hphase⟩ := DM.not_inMotion_of_idle hidle
  refine ⟨hlisted, fun j => ?_, fun j hj => ?_⟩
  · rw [hA']
    by_cases hne : j = i
    · subst hne
      simp [hmotion]
    · rw [hdms j hne, h.active]
      exact and_iff_left hne
  · have hne : j ≠ i := by
      rintro rfl
      rw [hphase] at hj
      exact Bool.false_ne_true hj
    rw [hdms j hne] at hj
    exact h.phaseStep j hj

lemma takeWhile_ne {before after : List ι} (h : i ∉ before) :
    (before ++ i :: after).takeWhile (fun j => decide (j ≠ i)) = before := by
  rw [List.takeWhile_append_of_pos, List.takeWhile_cons_of_neg, List.append_nil]
  · simp
  · exact fun j hj => decide_eq_true fun heq => h (heq ▸ hj)

lemma timeOf_setDM (s : Move ι) {d : DM} (hd : d.nextStepTime = (s.dms i).nextStepTime) :
    timeOf (s.setDM i d) = timeOf s := by
  funext j
  by_cases hj : j = i
  · subst hj
    exact (congrArg DM.nextStepTime (Function.update_self _ _ _)).trans hd
  · exact congrArg DM.nextStepTime (Function.update_of_ne hj _ _)

lemma setDM_of_ne (s : Move ι) (d : DM) {j : ι} (h : j ≠ i) : (s.setDM i d).dms j = s.dms j :=
  Function.update_of_ne h _ _

lemma setDM_self (s : Move ι) (i : ι) (d : DM) : (s.setDM i d).dms i = d :=
  Function.update_self _ _ _

variable [Fintype ι]

lemma insertDM_spec (h : Listed s.link A P) (hi : i ∉ A ++ P) : ∃ link',
    s.insertDM i = some { s with link := link' } ∧
      Listed link' (if (s.dms i).phaseStepping then A else placed (timeOf s) i A)
        (if (s.dms i).phaseStepping then placed (timeOf s) i P else P) ∧
      FrameOutside s.link link' (i :: (A ++ P)) := by
  have hA := (List.nodup_append.mp h.nodup).1
  have hP := (List.nodup_append.mp h.nodup).2.1
  set pred := earlier (timeOf s) i
  cases hphase : (s.dms i).phaseStepping with
  | false =>
    have hfollow : follow s.link pred (Move.turns ι) (.inl .activeDMs) = some (A.takeWhile pred) :=
      follow_eq h.active (length_lt_turns hA)
    have hsplit : A.takeWhile pred ++ A.dropWhile pred = A := List.takeWhile_append_dropWhile
    obtain ⟨hactive, hphases, hframe⟩ := insert_two (i := i) (k := .activeDMs)
      .phaseStepDMs (nomatch ·) (hsplit.symm ▸ h.active) h.phaseStep (hsplit.symm ▸ h.nodup)
      (hsplit.symm ▸ hi)
    refine ⟨insertAt s.link (endPlace (.inl .activeDMs) (A.takeWhile pred)) i, ?_,
      ⟨hactive, hphases, ?_⟩, fun j hj => hframe j ?_⟩
    · rw [Move.insertDM, Move.listOf, hphase, if_neg Bool.false_ne_true]
      exact congrArg (Option.map _) hfollow
    · have hperm := (placed_perm (timeOf s) i A).append_right P
      exact hperm.nodup_iff.mpr (List.nodup_cons.mpr ⟨hi, h.nodup⟩)
    · rw [hsplit]
      simp only [List.mem_cons, List.mem_append] at hj ⊢
      tauto
  | true =>
    have hfollow : follow s.link pred (Move.turns ι) (.inl .phaseStepDMs) =
        some (P.takeWhile pred) := follow_eq h.phaseStep (length_lt_turns hP)
    have hsplit : P.takeWhile pred ++ P.dropWhile pred = P := List.takeWhile_append_dropWhile
    have hcomm : (P ++ A).Nodup := List.perm_append_comm.nodup_iff.mp h.nodup
    have hi' : i ∉ P ++ A := fun hmem => hi (List.perm_append_comm.mem_iff.mp hmem)
    obtain ⟨hphases, hactive, hframe⟩ := insert_two (i := i) (k := .phaseStepDMs)
      .activeDMs (nomatch ·) (hsplit.symm ▸ h.phaseStep) h.active (hsplit.symm ▸ hcomm)
      (hsplit.symm ▸ hi')
    refine ⟨insertAt s.link (endPlace (.inl .phaseStepDMs) (P.takeWhile pred)) i, ?_,
      ⟨hactive, hphases, ?_⟩, fun j hj => hframe j ?_⟩
    · rw [Move.insertDM, Move.listOf, hphase, if_pos rfl]
      exact congrArg (Option.map _) hfollow
    · have hperm := ((placed_perm (timeOf s) i P).append_left A).trans List.perm_middle
      exact hperm.nodup_iff.mpr (List.nodup_cons.mpr ⟨hi, h.nodup⟩)
    · rw [hsplit]
      simp only [List.mem_cons, List.mem_append] at hj ⊢
      tauto

/-- Removing a drive that is idle already. -/
lemma deactivateDM_spec (h : Listed s.link A P) (hidle : (s.dms i).isIdle = true) : ∃ s' A',
    s.deactivateDM i = some s' ∧ Listed s'.link A' P ∧ A'.Sublist A ∧
      (∀ j, j ∈ A' ↔ j ∈ A ∧ j ≠ i) ∧ (∀ j, j ≠ i → s'.dms j = s.dms j) ∧
      (s'.dms i).isIdle = true ∧ timeOf s' = timeOf s := by
  have hA := (List.nodup_append.mp h.nodup).1
  have hfollow : follow s.link (fun j => decide (j ≠ i)) (Move.turns ι) (.inl .activeDMs) =
      some (A.takeWhile fun j => decide (j ≠ i)) := follow_eq h.active (length_lt_turns hA)
  rw [Move.deactivateDM, Move.listOf, (DM.not_inMotion_of_idle hidle).2,
    if_neg Bool.false_ne_true, hfollow]
  simp only [Option.map_some]
  by_cases hi : i ∈ A
  · obtain ⟨before, after, rfl⟩ := List.append_of_mem hi
    have hdisjoint := (List.nodup_append.mp h.nodup).2.2
    have hbefore : i ∉ before := by
      rw [List.nodup_append] at hA
      exact fun hmem => hA.2.2 i hmem i List.mem_cons_self rfl
    have hafter : i ∉ after := (List.nodup_cons.mp (List.nodup_append.mp hA).2.1).1
    have hplace : s.link (endPlace (.inl .activeDMs) before) = some i :=
      (linked_append.mp h.active).2.1
    have hsub : (before ++ after).Sublist (before ++ i :: after) :=
      (List.sublist_cons_self i after).append_left before
    rw [takeWhile_ne hbefore, hplace]
    refine ⟨_, before ++ after, rfl, ⟨?_, ?_, ?_⟩, hsub, fun j => ?_, fun j hj => ?_, ?_, ?_⟩
    · exact h.active.removeAt (outside_inl _ _) hA
    · apply h.phaseStep.removeAt_frame
      · exact fun heq => nomatch endPlace_head heq.symm
      · rintro j hj heq
        exact hdisjoint j (List.mem_append_left _ (endPlace_mem heq)) j hj rfl
    · exact h.nodup.sublist (hsub.append_right P)
    · simp only [List.mem_append, List.mem_cons]
      constructor
      · rintro (hj | hj)
        · exact ⟨.inl hj, fun heq => hbefore (heq ▸ hj)⟩
        · exact ⟨.inr (.inr hj), fun heq => hafter (heq ▸ hj)⟩
      · rintro ⟨hj | rfl | hj, hne⟩
        · exact .inl hj
        · exact absurd rfl hne
        · exact .inr hj
    · exact setDM_of_ne s _ hj
    · exact (congrArg DM.isIdle (setDM_self s i _)).trans rfl
    · exact timeOf_setDM (i := i) s rfl
  · have hall : A.takeWhile (fun j => decide (j ≠ i)) = A :=
      List.takeWhile_eq_self_iff.mpr fun j hj => decide_eq_true fun heq => hi (heq ▸ hj)
    rw [hall, h.active.end_eq]
    exact ⟨s, A, rfl, h, List.Sublist.refl A,
      fun j => ⟨fun hj => ⟨hj, fun heq => hi (heq ▸ hj)⟩, And.left⟩, fun _ _ => rfl, hidle, rfl⟩

lemma stopLogicalDrive_spec (h : Holds s A P) (i : ι) : ∃ s' A',
    s.stopLogicalDrive i = some s' ∧ Holds s' A' P ∧ A'.Sublist A ∧ timeOf s' = timeOf s := by
  rw [Move.stopLogicalDrive]
  split
  · exact ⟨s, A, rfl, h, List.Sublist.refl A, rfl⟩
  obtain ⟨s₁, A', hdeactivate, hlisted, hsub, hmem, hdms, hidle, htime⟩ :=
    deactivateDM_spec (i := i) (s := s.setDM i { s.dms i with
      motion := { (s.dms i).motion with state := .idle }
      phaseStepping := false }) h.listed (by rw [setDM_self]; rfl)
  simp only [hdeactivate, Option.map_some]
  refine ⟨_, A', rfl, ?_, hsub, ?_⟩
  · apply h.idle (i := i)
    · exact hlisted
    · intro j hj
      rw [setDM_of_ne _ _ hj, hdms j hj, setDM_of_ne _ _ hj]
    · rw [setDM_self]
      exact hidle
    · exact hmem
  · refine (timeOf_setDM s₁ ?_).trans (htime.trans (timeOf_setDM s ?_)) <;> rfl

lemma stopDrives_spec (h : Holds s A P) (stopped : List ι) : ∃ s' A',
    s.stopDrives stopped = some s' ∧ Holds s' A' P ∧ A'.Sublist A ∧ timeOf s' = timeOf s := by
  induction stopped generalizing s A with
  | nil => exact ⟨s, A, rfl, h, List.Sublist.refl A, rfl⟩
  | cons i stopped ih =>
    obtain ⟨s₁, A₁, hstop, h₁, hsub, htime⟩ := stopLogicalDrive_spec h i
    obtain ⟨s', A', hstops, h', hsub', htime'⟩ := ih h₁
    refine ⟨s', A', ?_, h', hsub'.trans hsub, htime'.trans htime⟩
    rw [Move.stopDrives, hstop]
    exact hstops

/-! ### Putting a chain back -/

/-- The pointer `cur` is the start of a chain of drives that ends at `stop`. -/
def ChainFrom (link : Links ListHead ι) (stop : Option ι) : Option ι → List ι → Prop
  | cur, [] => cur = stop
  | cur, i :: chain => cur = some i ∧ Linked link (.inr i) chain stop

/-- The states are the same as far as the lists depend on them. -/
structure SameStates (s s' : Move ι) : Prop where
  inMotion : ∀ j, (s'.dms j).inMotion = (s.dms j).inMotion
  phaseStepping : ∀ j, (s'.dms j).phaseStepping = (s.dms j).phaseStepping
  time : timeOf s' = timeOf s

omit [DecidableEq ι] [Fintype ι] in
lemma SameStates.refl (s : Move ι) : SameStates s s := ⟨fun _ => rfl, fun _ => rfl, rfl⟩

omit [DecidableEq ι] [Fintype ι] in
lemma SameStates.trans {s' s'' : Move ι} (h : SameStates s s') (h' : SameStates s' s'') :
    SameStates s s'' :=
  ⟨fun j => (h'.inMotion j).trans (h.inMotion j),
    fun j => (h'.phaseStepping j).trans (h.phaseStepping j), h'.time.trans h.time⟩

omit [DecidableEq ι] [Fintype ι] in
lemma Holds.same_states {s' : Move ι} (h : Holds s A P) (hsame : SameStates s s')
    (hlink : s'.link = s.link) : Holds s' A P := by
  refine ⟨hlink ▸ h.listed, fun j => ?_, fun j => ?_⟩
  · rw [hsame.inMotion, hsame.phaseStepping]
    exact h.active j
  · rw [hsame.phaseStepping]
    exact h.phaseStep j

omit [Fintype ι] in
lemma sameStates_setDM (s : Move ι) {d : DM} (hmotion : d.inMotion = (s.dms i).inMotion)
    (hphase : d.phaseStepping = (s.dms i).phaseStepping)
    (htime : d.nextStepTime = (s.dms i).nextStepTime) : SameStates s (s.setDM i d) := by
  refine ⟨fun j => ?_, fun j => ?_, timeOf_setDM s htime⟩
  · by_cases hj : j = i
    · subst hj
      rw [setDM_self]
      exact hmotion
    · rw [setDM_of_ne s d hj]
  · by_cases hj : j = i
    · subst hj
      rw [setDM_self]
      exact hphase
    · rw [setDM_of_ne s d hj]

omit [DecidableEq ι] [Fintype ι] in
lemma ChainFrom.frame {link link' : Links ListHead ι} {stop : Option ι} {chain : List ι}
    (h : Linked link (.inr i) chain stop)
    (hframe : ∀ j ∈ chain, link' (.inr j) = link (.inr j)) :
    ChainFrom link' stop (link (.inr i)) chain := by
  cases chain with
  | nil => exact h
  | cons j chain =>
    obtain ⟨hj, hchain⟩ := List.forall_mem_cons.mp hframe
    exact ⟨h.1, h.2.congr hj hchain⟩

lemma reinsert_spec {stop : Option ι} {chain : List ι} {turns : ℕ} {cur : Option ι}
    (hturns : chain.length < turns) (hchain : ChainFrom s.link stop cur chain)
    (h : Listed s.link A P) (hnodup : (chain ++ (A ++ P)).Nodup)
    (hstop : ∀ i ∈ chain, stop ≠ some i) : ∃ s' A' P',
      s.reinsert stop turns cur = some s' ∧ Listed s'.link A' P' ∧ SameStates s s' ∧
        (∀ j, j ∈ A' ↔ j ∈ A ∨ j ∈ chain ∧ (s.dms j).inMotion = true ∧
          (s.dms j).phaseStepping = false) ∧
        (∀ j, j ∈ P' ↔ j ∈ P ∨ j ∈ chain ∧ (s.dms j).inMotion = true ∧
          (s.dms j).phaseStepping = true) ∧
        (Ordered (timeOf s) A → Within (timeOf s) A' → Ordered (timeOf s) A') := by
  induction chain generalizing turns cur s A P with
  | nil =>
    obtain ⟨turns, rfl⟩ := Nat.exists_eq_add_one.mpr hturns
    refine ⟨s, A, P, ?_, h, SameStates.refl s, fun j => ?_, fun j => ?_, fun hordered _ => hordered⟩
    · have hend : cur = stop := hchain
      cases cur <;> rw [Move.reinsert, if_pos hend]
    · simp
    · simp
  | cons i chain ih =>
    obtain ⟨turns, rfl⟩ := Nat.exists_eq_add_one.mpr (Nat.zero_lt_of_lt hturns)
    have hshort : chain.length < turns := Nat.lt_of_succ_lt_succ hturns
    obtain ⟨hcur, hrest⟩ := hchain
    rw [List.cons_append, List.nodup_cons, List.mem_append, not_or] at hnodup
    obtain ⟨⟨hi, hiLists⟩, hnodup⟩ := hnodup
    have hlater : ∀ j ∈ chain, stop ≠ some j := fun j hj => hstop j (List.mem_cons_of_mem i hj)
    subst hcur
    rw [Move.reinsert, if_neg (hstop i List.mem_cons_self).symm]
    by_cases hmotion : (s.dms i).inMotion = true
    · rw [if_pos hmotion]
      set d : DM := { s.dms i with motion := { (s.dms i).motion with directionChanged := false } }
      have hsame : SameStates s (s.setDM i d) := sameStates_setDM s rfl rfl rfl
      obtain ⟨link', hinsert, hlisted, hframe⟩ :=
        insertDM_spec (s := s.setDM i d) (i := i) (A := A) (P := P) h hiLists
      have hlists : ∀ j ∈ chain, j ∉ i :: (A ++ P) := by
        intro j hj
        rw [List.mem_cons, not_or]
        exact ⟨fun heq => hi (heq ▸ hj),
          fun hmem => (List.nodup_append.mp hnodup).2.2 j hj j hmem rfl⟩
      rw [hsame.time, hsame.phaseStepping] at hlisted
      set A₁ := if (s.dms i).phaseStepping then A else placed (timeOf s) i A with hA₁
      set P₁ := if (s.dms i).phaseStepping then placed (timeOf s) i P else P with hP₁
      have hmemA : ∀ j, j ∈ A₁ ↔ j ∈ A ∨ j = i ∧ (s.dms i).phaseStepping = false := by
        intro j
        rw [hA₁]
        split
        · next hphase => simp [hphase]
        · next hphase => simp [hphase, mem_placed, or_comm]
      have hmemP : ∀ j, j ∈ P₁ ↔ j ∈ P ∨ j = i ∧ (s.dms i).phaseStepping = true := by
        intro j
        rw [hP₁]
        split
        · next hphase => simp [hphase, mem_placed, or_comm]
        · next hphase => simp [hphase]
      obtain ⟨s', A', P', hreinsert, hlisted', hsame', hA', hP', hordered⟩ :=
        ih (s := { s.setDM i d with link := link' }) hshort
          (ChainFrom.frame hrest fun j hj => hframe j (hlists j hj)) hlisted
          (List.nodup_append.mpr ⟨(List.nodup_append.mp hnodup).1, hlisted.nodup, by
            rintro j hj k hk rfl
            rw [List.mem_append, hmemA, hmemP] at hk
            apply hlists j hj
            simp only [List.mem_cons, List.mem_append]
            tauto⟩) hlater
      have hsame₂ : SameStates s { s.setDM i d with link := link' } :=
        ⟨hsame.inMotion, hsame.phaseStepping, hsame.time⟩
      refine ⟨s', A', P', ?_, hlisted', hsame₂.trans hsame', fun j => ?_, fun j => ?_, ?_⟩
      · rw [hinsert]
        exact hreinsert
      · rw [hA', hmemA, hsame₂.inMotion, hsame₂.phaseStepping, List.mem_cons]
        constructor
        · rintro ((hj | ⟨rfl, hphase⟩) | ⟨hj, hj'⟩)
          · exact .inl hj
          · exact .inr ⟨.inl rfl, hmotion, hphase⟩
          · exact .inr ⟨.inr hj, hj'⟩
        · rintro (hj | ⟨rfl | hj, hj'⟩)
          · exact .inl (.inl hj)
          · exact .inl (.inr ⟨rfl, hj'.2⟩)
          · exact .inr ⟨hj, hj'⟩
      · rw [hP', hmemP, hsame₂.inMotion, hsame₂.phaseStepping, List.mem_cons]
        constructor
        · rintro ((hj | ⟨rfl, hphase⟩) | ⟨hj, hj'⟩)
          · exact .inl hj
          · exact .inr ⟨.inl rfl, hmotion, hphase⟩
          · exact .inr ⟨.inr hj, hj'⟩
        · rintro (hj | ⟨rfl | hj, hj'⟩)
          · exact .inl (.inl hj)
          · exact .inl (.inr ⟨rfl, hj'.2⟩)
          · exact .inr ⟨hj, hj'⟩
      · intro hA hwithin
        rw [hsame₂.time] at hordered
        apply hordered _ hwithin
        have hsub : A₁ ⊆ A' := fun j hj => (hA' j).mpr (.inl hj)
        rw [hA₁] at hsub ⊢
        split at hsub
        · next hphase =>
          rw [if_pos hphase]
          exact hA
        · next hphase =>
          rw [if_neg hphase]
          exact placed_ordered hA (hwithin.mono hsub)
    · rw [if_neg hmotion]
      obtain ⟨s', A', P', hreinsert, hlisted', hsame', hA', hP', hordered⟩ :=
        ih hshort (ChainFrom.frame hrest fun _ _ => rfl) h hnodup hlater
      refine ⟨s', A', P', hreinsert, hlisted', hsame', fun j => ?_, fun j => ?_, hordered⟩
      · rw [hA', List.mem_cons]
        constructor
        · exact Or.imp_right fun hj => ⟨.inr hj.1, hj.2⟩
        · rintro (hj | ⟨rfl | hj, hj'⟩)
          · exact .inl hj
          · exact absurd hj'.1 hmotion
          · exact .inr ⟨hj, hj'⟩
      · rw [hP', List.mem_cons]
        constructor
        · exact Or.imp_right fun hj => ⟨.inr hj.1, hj.2⟩
        · rintro (hj | ⟨rfl | hj, hj'⟩)
          · exact .inl hj
          · exact absurd hj'.1 hmotion
          · exact .inr ⟨hj, hj'⟩

/-! ### The step interrupt -/

omit [Fintype ι] in
lemma prepareForNextSteps_frame (now : UInt32) (inp : Move.StepInputs ι) (chain : List ι)
    (s : Move ι) : (s.prepareForNextSteps now inp chain).link = s.link ∧
      ∀ j, j ∉ chain → (s.prepareForNextSteps now inp chain).dms j = s.dms j := by
  induction chain generalizing s with
  | nil => exact ⟨rfl, fun _ _ => rfl⟩
  | cons i chain ih =>
    obtain ⟨hlink, hdms⟩ := ih (s.setDM i
      ((s.dms i).prepareForNextSteps now (inp.timing i) (inp.time i)))
    refine ⟨hlink, fun j hj => ?_⟩
    rw [List.mem_cons, not_or] at hj
    exact (hdms j hj.2).trans (setDM_of_ne s _ hj.1)

omit [Fintype ι] in
/-- The list cut behind the chain of the drives that have had a step. -/
lemma cut_spec {chain rest : List ι} (h : Listed s.link (chain ++ rest) P) {dm : Option ι}
    (hdm : dm = s.link (endPlace (.inl .activeDMs) chain)) :
    Listed (Function.update s.link (.inl .activeDMs) dm) rest P ∧
      ChainFrom (Function.update s.link (.inl .activeDMs) dm) dm (s.link (.inl .activeDMs)) chain ∧
      ∀ i ∈ chain, dm ≠ some i := by
  have hnodup := h.nodup
  rw [List.append_assoc, List.nodup_append] at hnodup
  obtain ⟨-, hnodup, hdisjoint⟩ := hnodup
  obtain ⟨hfront, hback⟩ := linked_append.mp h.active
  rw [← hdm] at hfront
  refine ⟨⟨?_, ?_, hnodup⟩, ?_, ?_⟩
  · cases rest with
    | nil => exact (Function.update_self _ _ _).trans (hdm.trans hback)
    | cons j rest =>
      exact ⟨(Function.update_self _ _ _).trans (hdm.trans hback.1),
        hback.2.frame (nomatch ·) (outside_inl _ _)⟩
  · exact h.phaseStep.frame (nomatch ·) (outside_inl _ _)
  · cases chain with
    | nil => exact hdm.symm
    | cons i chain => exact ⟨hfront.1, hfront.2.frame (nomatch ·) (outside_inl _ _)⟩
  · rintro i hi rfl
    cases rest with
    | nil => exact nomatch hdm.trans hback
    | cons j rest =>
      obtain rfl := Option.some.inj (hdm.trans hback.1)
      exact hdisjoint i hi i (List.mem_append_left _ List.mem_cons_self) rfl

/-- What a step of the system comes to: the lists are kept, and so is the order as long as the times
lie within half the range. -/
def Keeps (s : Move ι) (A : List ι) (r : Option (Move ι)) : Prop :=
  ∃ s' A' P', r = some s' ∧ Holds s' A' P' ∧
    (Ordered (timeOf s) A → Within (timeOf s') A' → Ordered (timeOf s') A')

lemma takeSteps_keeps (h : Holds s A P) (now : UInt32) (inp : Move.StepInputs ι) :
    Keeps s A (s.takeSteps now inp) := by
  have hA := (List.nodup_append.mp h.listed.nodup).1
  have hdue : s.dueDMs now = some (A.takeWhile (s.due now)) :=
    follow_eq h.listed.active (length_lt_turns hA)
  set chain := A.takeWhile (s.due now) with hchain
  set rest := A.dropWhile (s.due now) with hrest
  have hsplit : chain ++ rest = A := List.takeWhile_append_dropWhile
  obtain ⟨hlink, hdms⟩ := prepareForNextSteps_frame now inp chain s
  set s₁ := s.prepareForNextSteps now inp chain with hs₁
  set dm := s.link (endPlace (.inl .activeDMs) chain) with hdm
  obtain ⟨hlisted, hfrom, hstop⟩ := cut_spec (P := P) (hsplit.symm ▸ h.listed) hdm
  have hnodup := h.listed.nodup
  rw [← hsplit, List.append_assoc] at hnodup
  have hshort : chain.length < Move.turns ι := length_lt_turns (List.nodup_append.mp hnodup).1
  rw [← hlink] at hfrom hlisted
  obtain ⟨s', A', P', hreinsert, hlisted', hsame, hA', hP', hordered⟩ :=
    reinsert_spec (s := { s₁ with link := Function.update s₁.link (.inl .activeDMs) dm })
      hshort hfrom hlisted hnodup hstop
  have htime : ∀ j ∈ rest, timeOf s₁ j = timeOf s j := fun j hj =>
    congrArg DM.nextStepTime (hdms j fun hmem =>
      (List.nodup_append.mp hnodup).2.2 j hmem j (List.mem_append_left _ hj) rfl)
  refine ⟨s', A', P', ?_, ⟨hlisted', fun j => ?_, fun j => ?_⟩, ?_⟩
  · rw [Move.takeSteps, hdue]
    exact hreinsert
  · rw [hA', hsame.inMotion, hsame.phaseStepping]
    change j ∈ rest ∨ j ∈ chain ∧ (s₁.dms j).inMotion = true ∧ (s₁.dms j).phaseStepping = false ↔
      (s₁.dms j).inMotion = true ∧ (s₁.dms j).phaseStepping = false
    by_cases hj : j ∈ chain
    · have hnot : j ∉ rest := fun hmem =>
        (List.nodup_append.mp hnodup).2.2 j hj j (List.mem_append_left _ hmem) rfl
      simp [hj, hnot]
    · have hiff := h.active j
      rw [← hsplit, List.mem_append] at hiff
      rw [hdms j hj, ← hiff]
      simp [hj]
  · rw [hP', hsame.phaseStepping]
    change (s₁.dms j).phaseStepping = true →
      j ∈ P ∨ j ∈ chain ∧ (s₁.dms j).inMotion = true ∧ (s₁.dms j).phaseStepping = true
    intro hphase
    by_cases hj : j ∈ chain
    · exact .inr ⟨hj, by rw [DM.inMotion, hphase]; rfl, hphase⟩
    · rw [hdms j hj] at hphase
      exact .inl (h.phaseStep j hphase)
  · intro hold hwithin
    rw [hsame.time] at hwithin ⊢
    apply hordered _ hwithin
    rw [Ordered, ← hsplit, List.pairwise_append] at hold
    apply hold.2.1.imp_of_mem
    intro a b ha hb hab
    change signedDiff (timeOf s₁ a) (timeOf s₁ b) ≤ 0
    rw [htime a ha, htime b hb]
    exact hab

lemma stepDrivers_keeps (h : Holds s A P) (inp : Move.StepInputs ι) :
    Keeps s A (s.stepDrivers inp) := by
  have hA := (List.nodup_append.mp h.listed.nodup).1
  have hdue : s.dueDMs inp.now = some (A.takeWhile (s.due inp.now)) :=
    follow_eq h.listed.active (length_lt_turns hA)
  rw [Move.stepDrivers, hdue, Option.bind_some]
  split
  · obtain ⟨s₁, A₁, hstops, h₁, hsub, htime⟩ := stopDrives_spec h inp.stopped
    rw [hstops, Option.bind_some]
    obtain ⟨s', A', P', hsteps, h', hordered⟩ := takeSteps_keeps h₁ inp.later inp
    refine ⟨s', A', P', hsteps, h', fun hold => hordered ?_⟩
    rw [htime]
    exact hold.sublist hsub
  · exact takeSteps_keeps h inp.now inp

/-! ### The control loop -/

lemma getCurrentMotion_of_not (now : UInt32) {d : DM} (h : d.phaseStepping = false) :
    d.getCurrentMotion now = d := by
  rw [DM.getCurrentMotion, h, if_neg Bool.false_ne_true]

lemma controlPhases_keeps {todo : List ι} (done : List ι) {turns : ℕ} (now : UInt32)
    (hturns : todo.length < turns) (h : Holds s A (done ++ todo)) : ∃ s' A' P',
      s.controlPhases now turns (endPlace (.inl .phaseStepDMs) done) = some s' ∧ Holds s' A' P' ∧
        (∀ j ∈ A, j ∈ A' ∧ timeOf s' j = timeOf s j) ∧
        (Ordered (timeOf s) A → Within (timeOf s') A' → Ordered (timeOf s') A') := by
  induction todo generalizing turns done s A with
  | nil =>
    obtain ⟨turns, rfl⟩ := Nat.exists_eq_add_one.mpr hturns
    have hend : s.link (endPlace (.inl .phaseStepDMs) done) = none := by
      have hlinked := h.listed.phaseStep
      rw [List.append_nil] at hlinked
      exact hlinked.end_eq
    refine ⟨s, A, _, ?_, h, fun j hj => ⟨hj, rfl⟩, fun hold _ => hold⟩
    rw [Move.controlPhases, hend]
  | cons i todo ih =>
    obtain ⟨turns, rfl⟩ := Nat.exists_eq_add_one.mpr (Nat.zero_lt_of_lt hturns)
    have hshort : todo.length < turns := Nat.lt_of_succ_lt_succ hturns
    have hplace : s.link (endPlace (.inl .phaseStepDMs) done) = some i :=
      (linked_append.mp h.listed.phaseStep).2.1
    have hiA : i ∉ A := fun hmem => (List.nodup_append.mp h.listed.nodup).2.2 i hmem i
      (List.mem_append_right _ List.mem_cons_self) rfl
    rw [Move.controlPhases, hplace]
    set d := (s.dms i).getCurrentMotion now with hd
    have htime : ∀ j ∈ A, timeOf (s.setDM i d) j = timeOf s j := by
      intro j hj
      exact congrArg DM.nextStepTime (setDM_of_ne s d fun heq => hiA (heq ▸ hj))
    have hordered₁ : Ordered (timeOf s) A → Ordered (timeOf (s.setDM i d)) A := by
      intro hold
      apply hold.imp_of_mem
      intro a b ha hb hab
      rw [htime a ha, htime b hb]
      exact hab
    simp only [setDM_self]
    by_cases hphase : d.phaseStepping = true
    · rw [if_pos hphase]
      have hbefore : (s.dms i).phaseStepping = true := by
        by_contra hnot
        rw [Bool.not_eq_true] at hnot
        rw [hd, getCurrentMotion_of_not now hnot, hnot] at hphase
        exact Bool.false_ne_true hphase
      have h₁ : Holds (s.setDM i d) A ((done ++ [i]) ++ todo) := by
        rw [List.append_assoc, List.singleton_append]
        refine ⟨h.listed, fun j => ?_, fun j hj => ?_⟩
        · by_cases hj : j = i
          · subst hj
            rw [setDM_self, hphase]
            simp [hiA]
          · rw [setDM_of_ne s d hj]
            exact h.active j
        · by_cases hji : j = i
          · subst hji
            exact List.mem_append_right _ List.mem_cons_self
          · rw [setDM_of_ne s d hji] at hj
            exact h.phaseStep j hj
      obtain ⟨s', A', P', hloop, h', hmem, hordered⟩ := ih _ hshort h₁
      rw [endPlace_append] at hloop
      exact ⟨s', A', P', hloop, h', fun j hj => ⟨(hmem j hj).1, ((hmem j hj).2).trans (htime j hj)⟩,
        fun hold => hordered (hordered₁ hold)⟩
    · rw [if_neg hphase]
      rw [Bool.not_eq_true] at hphase
      have hnodup := h.listed.nodup
      have hP := (List.nodup_append.mp hnodup).2.1
      have hperm : (A ++ (done ++ i :: todo)).Perm (i :: (A ++ (done ++ todo))) :=
        (List.perm_middle.append_left A).trans List.perm_middle
      obtain ⟨hi, hnodup₁⟩ := List.nodup_cons.mp (hperm.nodup_iff.mp hnodup)
      have hlisted₁ : Listed (removeAt s.link (endPlace (.inl .phaseStepDMs) done) i) A
          (done ++ todo) := by
        refine ⟨?_, h.listed.phaseStep.removeAt (outside_inl _ _) hP, hnodup₁⟩
        apply h.listed.active.removeAt_frame
        · exact fun heq => nomatch endPlace_head heq.symm
        · rintro j hj heq
          exact (List.nodup_append.mp hnodup).2.2 j hj j
            (List.mem_append_left _ (endPlace_mem heq)) rfl
      have hphases : ∀ j, ((s.setDM i d).dms j).phaseStepping = true → j ∈ done ++ todo := by
        intro j hj
        have hne : j ≠ i := by
          rintro rfl
          rw [setDM_self, hphase] at hj
          exact Bool.false_ne_true hj
        rw [setDM_of_ne s d hne] at hj
        have hmem := h.phaseStep j hj
        rw [List.mem_append, List.mem_cons] at hmem
        rw [List.mem_append]
        exact hmem.imp_right fun hor => hor.resolve_left hne
      by_cases hmotion : d.inMotion = true
      · rw [if_pos hmotion]
        obtain ⟨link', hinsert, hlisted₂, -⟩ := insertDM_spec (i := i)
          (s := { s.setDM i d with link := removeAt s.link (endPlace (.inl .phaseStepDMs) done) i })
          hlisted₁ hi
        simp only [setDM_self, hphase, Bool.false_eq_true, if_false] at hlisted₂
        have h₂ : Holds { s.setDM i d with link := link' } (placed (timeOf (s.setDM i d)) i A)
            (done ++ todo) := by
          refine ⟨hlisted₂, fun j => ?_, hphases⟩
          rw [mem_placed]
          by_cases hj : j = i
          · subst hj
            simp only [setDM_self, hmotion, hphase, true_or, and_self]
          · have hiff := h.active j
            simp only [setDM_of_ne s d hj, ← hiff, hj, false_or]
        obtain ⟨s', A', P', hloop, h', hmem, hordered⟩ := ih _ hshort h₂
        refine ⟨s', A', P', ?_, h', fun j hj => ?_, fun hold hwithin => ?_⟩
        · exact (congrArg (fun r => Option.bind r (Move.controlPhases now turns _)) hinsert).trans
            hloop
        · obtain ⟨hj', hsame⟩ := hmem j (mem_placed.mpr (.inr hj))
          exact ⟨hj', hsame.trans (htime j hj)⟩
        · apply hordered _ hwithin
          apply placed_ordered (hordered₁ hold)
          obtain ⟨base, hbase⟩ := hwithin
          refine ⟨base, fun j hj => ?_⟩
          obtain ⟨hj', hsame⟩ := hmem j hj
          have hlt := hbase j hj'
          rw [hsame] at hlt
          exact hlt
      · rw [if_neg hmotion]
        have h₂ : Holds { s.setDM i d with
            link := removeAt s.link (endPlace (.inl .phaseStepDMs) done) i } A (done ++ todo) := by
          refine ⟨hlisted₁, fun j => ?_, hphases⟩
          by_cases hj : j = i
          · subst hj
            simp [setDM_self, hmotion, hiA]
          · simp only [setDM_of_ne s d hj]
            exact h.active j
        obtain ⟨s', A', P', hloop, h', hmem, hordered⟩ := ih _ hshort h₂
        exact ⟨s', A', P', hloop, h',
          fun j hj => ⟨(hmem j hj).1, ((hmem j hj).2).trans (htime j hj)⟩,
          fun hold => hordered (hordered₁ hold)⟩

lemma phaseStepControlLoop_keeps (h : Holds s A P) (now : UInt32) (stopped : List ι) :
    Keeps s A (s.phaseStepControlLoop now stopped) := by
  have hP := (List.nodup_append.mp h.listed.nodup).2.1
  obtain ⟨drives, hfollow⟩ : ∃ drives,
      follow s.link (fun _ => true) (Move.turns ι) (.inl .phaseStepDMs) = some drives :=
    ⟨_, follow_eq h.listed.phaseStep (length_lt_turns hP)⟩
  rw [Move.phaseStepControlLoop, hfollow, Option.bind_some]
  simp only
  split
  · obtain ⟨s₁, A₁, hstops, h₁, hsub, htime⟩ := stopDrives_spec h stopped
    obtain ⟨s', A', P', hloop, h', -, hordered⟩ :=
      controlPhases_keeps [] now (length_lt_turns hP) h₁
    refine ⟨s', A', P', ?_, h', fun hold => hordered ?_⟩
    · rw [hstops]
      exact hloop
    · rw [htime]
      exact hold.sublist hsub
  · obtain ⟨s', A', P', hloop, h', -, hordered⟩ :=
      controlPhases_keeps [] now (length_lt_turns hP) h
    exact ⟨s', A', P', hloop, h', hordered⟩

/-! ### Adding segments -/

omit [DecidableEq ι] [Fintype ι] in
lemma Holds.keeps_same {s' : Move ι} (h : Holds s A P) (hsame : SameStates s s')
    (hlink : s'.link = s.link) : Keeps s A (some s') := by
  refine ⟨s', A, P, rfl, h.same_states hsame hlink, fun hold _ => ?_⟩
  rw [hsame.time]
  exact hold

omit [Fintype ι] in
lemma detach_keeps (h : Holds s A P) (i : ι) (m : LinearMove) : Keeps s A (some (s.detach i m)) :=
    by
  rw [Move.detach]
  split
  · exact h.keeps_same (SameStates.refl s) rfl
  · split
    · exact h.keeps_same (sameStates_setDM s rfl rfl rfl) rfl
    · next kept _ _ =>
      obtain ⟨hmotion, hphase, htime⟩ : SameStates s (s.setDM i { s.dms i with
          motion := { (s.dms i).motion with segments := kept } }) := sameStates_setDM s rfl rfl rfl
      exact h.keeps_same ⟨hmotion, hphase, htime⟩ rfl

end Links

/-- The drive, which is idle, can be started: with phase stepping, the first segment is not due yet,
and otherwise the calculation of the first step succeeds. -/
structure CanStart (now : UInt32) (t : StepTiming) (d : DM) : Prop where
  phase : d.stepMode = true → ∀ seg ∈ d.motion.segments.head?,
    signedDiff seg.startTime now > maximumMoveStartAdvanceClocks
  steps : d.stepMode = false →
    let m := newSegment now { d.motion with directionChanged := true }
    m.state ≠ .idle → m.state ≠ .starting → DM.stepFailed m (m.calcNextStepTimeFull now t) = false

lemma scheduleFirstSegment_spec {now : UInt32} {t : StepTiming} {d : DM} (h : CanStart now t d)
    (time : UInt32) : (d.scheduleFirstSegment now t time).2.inMotion =
        (d.scheduleFirstSegment now t time).1 ∧
      (d.scheduleFirstSegment now t time).2.phaseStepping = false := by
  have hphases : ∀ d' : DM, d'.isIdle = true ∨ d'.isStarting = true → d'.phaseStepping = false := by
    rintro d' (hidle | hstarting)
    · exact (DM.not_inMotion_of_idle hidle).2
    · rw [DM.isStarting, Bool.and_eq_true, Bool.not_eq_true'] at hstarting
      exact hstarting.1
  rw [DM.scheduleFirstSegment]
  simp only
  set d₁ := DM.newSegment now { d with motion := { d.motion with directionChanged :=
    true } } with hd₁
  by_cases hidle : d₁.isIdle = true
  · rw [if_pos hidle]
    exact ⟨(DM.not_inMotion_of_idle hidle).1, hphases d₁ (.inl hidle)⟩
  rw [if_neg hidle]
  by_cases hstarting : d₁.isStarting = true
  · rw [if_pos hstarting]
    exact ⟨DM.inMotion_of_starting hstarting, hphases d₁ (.inr hstarting)⟩
  rw [if_neg hstarting]
  cases hmode : d.stepMode with
  | true =>
    -- a drive with phase stepping is idle or waits for its first segment
    exfalso
    rw [hd₁, DM.newSegment, hmode, if_pos rfl, DM.newPhaseSegment] at hidle hstarting
    cases hsegments : d.motion.segments with
    | nil =>
      simp only [hsegments] at hidle
      exact hidle rfl
    | cons seg rest =>
      have hlater := h.phase hmode seg (by rw [hsegments]; rfl)
      simp only [hsegments, if_pos hlater] at hstarting
      exact hstarting rfl
  | false =>
    set m := newSegment now { d.motion with directionChanged := true } with hm
    have hmotion : d₁.motion = m ∧ d₁.phaseStepping = false := by
      rw [hd₁, DM.newSegment, hmode, if_neg Bool.false_ne_true]
      exact ⟨rfl, rfl⟩
    have hcalc : (d₁.calcNextStepTimeFull now t time).motion = m.calcNextStepTimeFull now t := by
      rw [← hmotion.1]
      rfl
    have hphase : (d₁.calcNextStepTimeFull now t time).phaseStepping = false := hmotion.2
    have hfailed := h.steps hmode
    simp only [← hm] at hfailed
    rw [DM.isIdle, hmotion.2, hmotion.1, Bool.not_false, Bool.true_and, decide_eq_true_eq] at hidle
    rw [DM.isStarting, hmotion.2, hmotion.1, Bool.not_false, Bool.true_and, decide_eq_true_eq]
      at hstarting
    rw [if_neg (by rw [hmotion.2]; exact Bool.false_ne_true)]
    simp only
    rw [hmotion.1, hcalc, hfailed hidle hstarting, Bool.false_or]
    refine ⟨?_, hphase⟩
    cases hidle' : (d₁.calcNextStepTimeFull now t time).isIdle with
    | true => exact (DM.not_inMotion_of_idle hidle').1
    | false =>
      apply DM.inMotion_of_not_idle hidle'
      rw [hcalc]
      exact calcNextStepTimeFull_state now t (newSegment_state now _)

section Run

variable [DecidableEq ι] [Fintype ι] {s : Move ι} {A P : List ι} {axisShaper : AxisShaper}

/-- The condition on a step: a drive that is started has left the list for phase stepping, and it
can be started. -/
def Unobstructed (axisShaper : AxisShaper) : Option (Move ι) → Event ι → Prop
  | some s, .attach now t _ => ∀ i m tail, s.adding = some (i, m, tail) →
      (s.dms i).isIdle = true →
        (∀ P, Linked s.link (.inl .phaseStepDMs) P none → i ∉ P) ∧
          CanStart now t (Move.joined axisShaper m tail (s.dms i))
  | _, _ => True

lemma attach_keeps (h : Holds s A P) {now : UInt32} {t : StepTiming} (time : UInt32)
    (hready : Unobstructed axisShaper (some s) (.attach now t time)) :
    Keeps s A (s.attach axisShaper now t time) := by
  rw [Move.attach]
  cases hadding : s.adding with
  | none => exact h.keeps_same (SameStates.refl s) rfl
  | some call =>
    obtain ⟨i, m, tail⟩ := call
    simp only
    set d := Move.joined axisShaper m tail (s.dms i) with hd
    by_cases hidle : d.isIdle = true
    · rw [if_pos hidle]
      obtain ⟨hunlinked, hstart⟩ := hready i m tail hadding hidle
      obtain ⟨hmotion, hphase⟩ := scheduleFirstSegment_spec hstart time
      obtain ⟨hwas, hwasPhase⟩ := DM.not_inMotion_of_idle (show (s.dms i).isIdle = true from hidle)
      have hiA : i ∉ A := fun hmem => by
        rw [h.active, hwas] at hmem
        exact Bool.false_ne_true hmem.1
      generalize d.scheduleFirstSegment now t time = r at hmotion hphase
      obtain ⟨scheduled, d'⟩ := r
      simp only at hmotion hphase
      have htime : ∀ (d'' : DM) (j : ι), j ≠ i → timeOf (s.setDM i d'') j = timeOf s j :=
        fun d'' j hj => congrArg DM.nextStepTime (setDM_of_ne s d'' hj)
      have hold : ∀ d'' : DM, Ordered (timeOf s) A → Ordered (timeOf (s.setDM i d'')) A := by
        intro d'' hordered
        apply hordered.imp_of_mem
        intro a b ha hb hab
        rw [htime d'' a fun heq => hiA (heq ▸ ha), htime d'' b fun heq => hiA (heq ▸ hb)]
        exact hab
      have hphases : ∀ d'' : DM, d''.phaseStepping = false →
          ∀ j, ((s.setDM i d'').dms j).phaseStepping = true → j ∈ P := by
        intro d'' hfalse j hj
        have hne : j ≠ i := by
          rintro rfl
          rw [setDM_self, hfalse] at hj
          exact Bool.false_ne_true hj
        rw [setDM_of_ne s d'' hne] at hj
        exact h.phaseStep j hj
      cases scheduled with
      | false =>
        refine ⟨{ s.setDM i d' with adding := none }, A, P, rfl,
          ⟨h.listed, fun j => ?_, hphases d' hphase⟩, fun hordered _ => hold d' hordered⟩
        by_cases hj : j = i
        · subst hj
          simp [setDM_self, hmotion, hiA]
        · simp only [setDM_of_ne s d' hj]
          exact h.active j
      | true =>
        set d'' : DM := { d' with motion := { d'.motion with
          directionChanged := d'.motion.directionChanged && d'.phaseStepping } } with hd''
        have hphase'' : d''.phaseStepping = false := hphase
        have hmotion'' : d''.inMotion = true := hmotion
        have hi : i ∉ A ++ P := fun hmem => (List.mem_append.mp hmem).elim hiA
          (hunlinked P h.listed.phaseStep)
        obtain ⟨link', hinsert, hlisted, -⟩ :=
          insertDM_spec (s := { s.setDM i d'' with adding := none }) h.listed hi
        simp only [setDM_self, hphase'', Bool.false_eq_true, if_false] at hlisted
        refine ⟨{ s.setDM i d'' with link := link', adding := none },
          placed (timeOf (s.setDM i d'')) i A, P, hinsert, ⟨hlisted, fun j => ?_,
            hphases d'' hphase''⟩, fun hordered hwithin => placed_ordered (hold d'' hordered)
              hwithin⟩
        rw [mem_placed]
        by_cases hj : j = i
        · subst hj
          simp only [setDM_self, hmotion'', hphase'', true_or, and_self]
        · simp only [setDM_of_ne s d'' hj, hj, false_or]
          exact h.active j
    · rw [if_neg hidle]
      obtain ⟨hmotion, hphase, htime⟩ : SameStates s (s.setDM i d) :=
        sameStates_setDM s rfl rfl rfl
      exact h.keeps_same ⟨hmotion, hphase, htime⟩ rfl

lemma step_keeps (h : Holds s A P) {e : Event ι} (hready : Unobstructed axisShaper (some s) e) :
    Keeps s A (step axisShaper (some s) e) := by
  rw [step, Option.bind_some]
  cases e with
  | detach i m => exact detach_keeps h i m
  | attach now t time => exact attach_keeps h time hready
  | stepDrivers inp => exact stepDrivers_keeps h inp
  | stop i =>
    obtain ⟨s', A', hstop, h', hsub, htime⟩ := stopLogicalDrive_spec h i
    refine ⟨s', A', P, hstop, h', fun hold _ => ?_⟩
    rw [htime]
    exact hold.sublist hsub
  | phaseStepControlLoop now stopped => exact phaseStepControlLoop_keeps h now stopped

/-- Every moving drive is in the one list that its state asks for, no drive is in a list twice or in
both, and the drives that need steps are all moving. -/
def DrivesListed (r : Option (Move ι)) : Prop := ∃ s ∈ r, ∃ A P, Holds s A P

/-- The times of the drives that need steps lie within half the range of the clock. -/
def WithinHalfRange (r : Option (Move ι)) : Prop :=
  ∀ s ∈ r, ∀ A, Linked s.link (.inl .activeDMs) A none → Within (timeOf s) A

/-- The drives that need steps are in the order of the times. -/
def InStepOrder (r : Option (Move ι)) : Prop :=
  ∀ s ∈ r, ∀ A, Linked s.link (.inl .activeDMs) A none → Ordered (timeOf s) A

omit [DecidableEq ι] [Fintype ι] in
lemma init_listed (positions : ι → ℤ) (modes : ι → Bool) :
    Holds (Move.init fun i => DM.init (positions i) (modes i)) [] [] := by
  refine ⟨⟨rfl, rfl, List.nodup_nil⟩, fun i => ?_, fun i hi => nomatch hi⟩
  exact ⟨(fun hi => absurd hi List.not_mem_nil), fun hi => nomatch hi.1⟩

/-- In a run whose steps all meet the condition, no drive is ever lost from the lists, and the order
is kept as far as it can be told from the times. -/
theorem drives_stay_listed (axisShaper : AxisShaper) (positions : ι → ℤ) (modes : ι → Bool)
    (events : List (Event ι)) (h : Along (step axisShaper) (Unobstructed axisShaper)
      (some (Move.init fun i => DM.init (positions i) (modes i))) events) :
    Always (step axisShaper) DrivesListed
        (some (Move.init fun i => DM.init (positions i) (modes i))) events ∧
      (Always (step axisShaper) WithinHalfRange
          (some (Move.init fun i => DM.init (positions i) (modes i))) events →
        Always (step axisShaper) InStepOrder
          (some (Move.init fun i => DM.init (positions i) (modes i))) events) := by
  have hinit := init_listed positions modes
  constructor
  · refine Along.always (P := DrivesListed) ⟨_, rfl, [], [], hinit⟩ ?_ h
    · rintro r e ⟨s, rfl, A, P, hholds⟩ hready
      obtain ⟨s', A', P', hstep, hholds', -⟩ := step_keeps hholds hready
      exact ⟨s', hstep, A', P', hholds'⟩
  · intro hwithin
    have hboth := h.and hwithin.along
    have hkept := hboth.always
      (P := fun r => ∃ s, r = some s ∧ ∃ A P, Holds s A P ∧ Ordered (timeOf s) A)
      ⟨_, rfl, [], [], hinit, .nil⟩ (by
        rintro r e ⟨s, rfl, A, P, hholds, hordered⟩ ⟨hready, hrange⟩
        obtain ⟨s', A', P', hstep, hholds', hkeeps⟩ := step_keeps hholds hready
        exact ⟨s', hstep, A', P', hholds',
          hkeeps hordered (hrange s' hstep A' hholds'.listed.active)⟩)
    intro bs hprefix s hs A hlinked
    obtain ⟨s', hs', A', P', hholds, hordered⟩ := hkept bs hprefix
    obtain rfl := Option.some.inj (hs.symm.trans hs')
    obtain rfl := hlinked.unique hholds.listed.active
    exact hordered

/-- A drive is started for a move that is due later, and it is stopped. -/
theorem drives_stay_listed_stopped :
    Always (step AxisShaper.initial) DrivesListed
        (some (Move.init fun _ : Unit => DM.init 0 true))
        [.detach () (ListAmendments.steadyMove 10000 10), .attach 0 (.interval 100) 0, .stop ()] ∧
      (Always (step AxisShaper.initial) WithinHalfRange
          (some (Move.init fun _ : Unit => DM.init 0 true))
          [.detach () (ListAmendments.steadyMove 10000 10), .attach 0 (.interval 100) 0, .stop ()] →
        Always (step AxisShaper.initial) InStepOrder
          (some (Move.init fun _ : Unit => DM.init 0 true))
          [.detach () (ListAmendments.steadyMove 10000 10), .attach 0 (.interval 100) 0,
            .stop ()]) := by
  apply drives_stay_listed AxisShaper.initial (fun _ => 0) (fun _ => true)
  refine ⟨trivial, ?_, trivial, trivial⟩
  rintro i m tail hadding -
  obtain ⟨rfl, rfl, rfl⟩ : i = () ∧ m = ListAmendments.steadyMove 10000 10 ∧ tail = [] := by
    have hcall : some ((), ListAmendments.steadyMove 10000 10, []) = some (i, m, tail) := hadding
    simpa [eq_comm] using hcall
  constructor
  · intro P hlinked
    obtain rfl : P = [] := Linked.unique hlinked rfl
    exact List.not_mem_nil
  · refine ⟨fun _ => ?_, (nomatch ·)⟩
    decide +kernel

/-- A drive with phase stepping, and a move that is due at once. -/
def dueAtOnce : List (Event Unit) :=
  [.detach () (ListAmendments.steadyMove 0 10), .attach 0 (.interval 100) 0]

theorem dueAtOnce_lost : ¬ ∀ (axisShaper : AxisShaper) (positions : Unit → ℤ) (modes : Unit → Bool)
    (events : List (Event Unit)), Always (step axisShaper) DrivesListed
      (some (Move.init fun i => DM.init (positions i) (modes i))) events := by
  intro h
  obtain ⟨s, hs, A, P, hholds⟩ := h AxisShaper.initial (fun _ => 0) (fun _ => true) dueAtOnce
    dueAtOnce List.prefix_rfl
  have hrun : (run (step AxisShaper.initial) (some (Move.init fun _ : Unit => DM.init 0 true))
      dueAtOnce).map (fun s => ((s.dms ()).phaseStepping, s.link (.inl .phaseStepDMs))) =
        some (true, none) := by
    decide +kernel
  rw [Option.mem_def.mp hs, Option.map_some, Option.some.injEq, Prod.mk.injEq] at hrun
  obtain ⟨hphase, hempty⟩ := hrun
  have hempty' : Linked s.link (.inl .phaseStepDMs) [] none := hempty
  obtain rfl : P = [] := hholds.listed.phaseStep.unique hempty'
  exact absurd (hholds.phaseStep () hphase) List.not_mem_nil

end Run

end RepRapFirmware.Movement.StepLists
