import RepRapFirmware.Movement.StepTimer

/-! No timer is lost and none is early, as long as no timer is taken from the head of the list
without the interrupt being set for the next one. -/

namespace RepRapFirmware.Movement.StepTimer

open Library.LinkedList Library.Runs Library.Ticks

variable {τ : Type*} {s : State τ} {l : List τ} {x y : τ} {d : ℕ}

/-- The interrupt is set for the timer, and its time has not been reached before the timer is due.
-/
def ArmedFor (s : State τ) (x : τ) : Prop :=
  s.compare = some (s.whenDue x) ∧ (s.matched = true → s.due x < minInterruptInterval)

def Covered (s : State τ) : Prop :=
  ∀ x, s.pendingList = some x → ArmedFor s x ∨ s.serving = some (some x)

structure Pending (s : State τ) (l : List τ) : Prop where
  chain : Chain s.links.next s.pendingList l
  sorted : l.Pairwise fun x y => s.due x ≤ s.due y
  active : ∀ x, x ∈ l ↔ (s.timers x).active = true
  notEarly : ∀ call ∈ s.calls, call.2 < minInterruptInterval

lemma sound_of_covered (h : Pending s l) (hc : Covered s) : Sound s := by
  refine ⟨⟨l, h.chain, h.chain.nodup, h.sorted, h.active⟩, ?_, h.notEarly⟩
  intro tmr htmr hserving
  rcases hc tmr htmr with harmed | hnext
  · exact ⟨s.whenDue tmr, harmed.1, le_rfl⟩
  · rw [hserving] at hnext
    cases hnext

lemma start_spec : ∃ l, Pending (start : State τ) l ∧ Covered (start : State τ) := by
  refine ⟨[], ⟨rfl, List.Pairwise.nil, ?_, ?_⟩, ?_⟩
  · intro x
    simp [start]
  · intro call hcall
    cases hcall
  · intro x hx
    cases hx

lemma Pending.head_mem (h : Pending s l) (hx : s.pendingList = some x) : x ∈ l := by
  cases l with
  | nil =>
    have hnone : s.pendingList = none := h.chain
    rw [hx] at hnone
    cases hnone
  | cons y l =>
    obtain rfl : x = y := Option.some.inj (hx.symm.trans h.chain.1)
    exact List.mem_cons_self

lemma Pending.head_le (h : Pending s l) (hx : s.pendingList = some x) (hy : y ∈ l) :
    s.due x ≤ s.due y := by
  cases l with
  | nil => exact absurd hy List.not_mem_nil
  | cons z l =>
    obtain rfl : x = z := Option.some.inj (hx.symm.trans h.chain.1)
    rcases List.mem_cons.mp hy with rfl | hy
    · exact le_rfl
    · exact List.rel_of_pairwise_cons h.sorted hy

/-! ### Time -/

lemma due_elapse (h : -2 ^ 31 ≤ s.due x - d) : (s.elapse d).due x = s.due x - d :=
  signedDiff_add h

lemma Pending.elapse (h : Pending s l)
    (hd : ∀ x, s.pendingList = some x → -2 ^ 31 ≤ s.due x - d) : Pending (s.elapse d) l := by
  have hdue : ∀ y ∈ l, (s.elapse d).due y = s.due y - d := by
    intro y hy
    apply due_elapse
    cases l with
    | nil => exact absurd hy List.not_mem_nil
    | cons x l =>
      have hx := hd x h.chain.1
      have hle := h.head_le h.chain.1 hy
      omega
  refine ⟨h.chain, ?_, h.active, h.notEarly⟩
  apply List.Pairwise.imp_of_mem _ h.sorted
  intro y z hy hz hle
  rw [hdue y hy, hdue z hz]
  omega

lemma Covered.elapse (h : Covered s)
    (hd : ∀ x, s.pendingList = some x → -2 ^ 31 ≤ s.due x - d) : Covered (s.elapse d) := by
  intro x hx
  rcases h x hx with ⟨hcompare, hmatched⟩ | hserving
  · refine Or.inl ⟨hcompare, ?_⟩
    intro hreached
    rw [due_elapse (hd x hx)]
    have hreached : s.matched = true ∨ (s.whenDue x - s.clock).toNat ≤ d := by
      simpa [State.elapse, hcompare] using hreached
    rcases hreached with hmatch | hpassed
    · have hdue := hmatched hmatch
      omega
    · have hdue : s.due x ≤ (s.whenDue x - s.clock).toNat := signedDiff_le
      have hpositive : 0 < minInterruptInterval := by decide
      omega
  · exact Or.inr hserving

variable [DecidableEq τ]

lemma due_setActive (active : Bool) (y : τ) : (s.setActive x active).due y = s.due y := by
  by_cases hy : y = x
  · subst hy
    simp [State.due, State.whenDue, State.setActive]
  · simp [State.due, State.whenDue, State.setActive, hy]

lemma whenDue_setActive (active : Bool) (y : τ) :
    (s.setActive x active).whenDue y = s.whenDue y := by
  by_cases hy : y = x
  · subst hy
    simp [State.whenDue, State.setActive]
  · simp [State.whenDue, State.setActive, hy]

lemma armedFor_setActive (active : Bool) : ArmedFor (s.setActive x active) y ↔ ArmedFor s y := by
  simp only [ArmedFor, whenDue_setActive, due_setActive]
  rfl

lemma active_setActive (active : Bool) (y : τ) : ((s.setActive x active).timers y).active =
    if y = x then active else (s.timers y).active := by
  by_cases hy : y = x
  · subst hy
    simp [State.setActive]
  · simp [State.setActive, hy]

/-! ### Scheduling -/

lemma due_setWhenDue_self (when : UInt32) :
    (s.setWhenDue x when).due x = signedDiff when s.clock := by
  simp [State.due, State.whenDue, State.setWhenDue]

lemma due_setWhenDue_of_ne (hy : y ≠ x) (when : UInt32) :
    (s.setWhenDue x when).due y = s.due y := by
  simp [State.due, State.whenDue, State.setWhenDue, hy]

lemma active_setWhenDue (when : UInt32) (y : τ) :
    ((s.setWhenDue x when).timers y).active = (s.timers y).active := by
  by_cases hy : y = x
  · subst hy
    simp [State.setWhenDue]
  · simp [State.setWhenDue, hy]

lemma setWhenDue_self (x : τ) : s.setWhenDue x (s.whenDue x) = s := by
  simp [State.setWhenDue, State.whenDue]

lemma Pending.setWhenDue (h : Pending s l) (hx : x ∉ l) (when : UInt32) :
    Pending (s.setWhenDue x when) l := by
  refine ⟨h.chain, ?_, ?_, h.notEarly⟩
  · apply List.Pairwise.imp_of_mem _ h.sorted
    intro y z hy hz hle
    have hyx : y ≠ x := fun heq => hx (heq ▸ hy)
    have hzx : z ≠ x := fun heq => hx (heq ▸ hz)
    rw [due_setWhenDue_of_ne hyx, due_setWhenDue_of_ne hzx]
    exact hle
  · intro y
    rw [active_setWhenDue]
    exact h.active y

lemma Covered.setWhenDue (hc : Covered s) (h : Pending s l) (hx : x ∉ l) (when : UInt32) :
    Covered (s.setWhenDue x when) := by
  intro y hy
  have hmem : y ∈ l := h.head_mem hy
  have hne : y ≠ x := by
    rintro rfl
    exact hx hmem
  rcases hc y hy with ⟨hcompare, hmatched⟩ | hserving
  · refine Or.inl ⟨?_, ?_⟩
    · simpa [State.whenDue, State.setWhenDue, hne] using hcompare
    · rw [due_setWhenDue_of_ne hne]
      exact hmatched
  · exact Or.inr hserving

/-- A timer that is due no later than the others comes to the head, with the interrupt for it. -/
lemma scheduleFirst_spec (h : Pending s l) (hx : x ∉ l) (hfirst : ∀ y ∈ l, s.due x ≤ s.due y)
    (hc : Covered s ∨ minInterruptInterval ≤ s.due x) :
    ∃ l', Pending (scheduleFirst s x).1 l' ∧ Covered (scheduleFirst s x).1 := by
  rw [scheduleFirst, scheduleTimerInterrupt]
  by_cases himminent : signedDiff (s.whenDue x) s.clock < minInterruptInterval
  · have hcovered : Covered s := by
      apply hc.resolve_right
      exact not_le.mpr himminent
    simp only [himminent, if_true]
    exact ⟨l, h, hcovered⟩
  · simp only [himminent, if_false]
    refine ⟨x :: l, ⟨?_, ?_, ?_, h.notEarly⟩, ?_⟩
    · exact Links.chain_push h.chain hx
    · apply List.pairwise_cons.mpr
      refine ⟨?_, ?_⟩
      · intro y hy
        rw [due_setActive, due_setActive]
        exact hfirst y hy
      · apply h.sorted.imp
        intro y z hle
        rw [due_setActive, due_setActive]
        exact hle
    · intro y
      rw [active_setActive, List.mem_cons]
      by_cases hy : y = x
      · simp [hy]
      · simp only [hy, false_or, if_false]
        exact h.active y
    · intro y hy
      obtain rfl : x = y := Option.some.inj hy
      left
      apply (armedFor_setActive true).mpr
      exact ⟨rfl, fun hmatched => nomatch hmatched⟩

/-! ### Running a callback -/

lemma Pending.runCallback (h : Pending s l) (hx : s.pendingList = some x)
    (hdue : s.due x < minInterruptInterval) :
    (∃ l', Pending (runCallback s x) l') ∧ Covered (StepTimer.runCallback s x) := by
  cases l with
  | nil => cases hx.symm.trans h.chain
  | cons y l =>
    obtain rfl : x = y := Option.some.inj (hx.symm.trans h.chain.1)
    refine ⟨⟨l, h.chain.2, ?_, ?_, ?_⟩, ?_⟩
    · apply (List.pairwise_cons.mp h.sorted).2.imp
      intro y z hle
      rw [StepTimer.runCallback, due_setActive, due_setActive]
      exact hle
    · intro y
      have hnodup := (List.nodup_cons.mp h.chain.nodup).1
      rw [StepTimer.runCallback, active_setActive]
      by_cases hy : y = x
      · simp [hy, hnodup]
      · have hactive := h.active y
        rw [List.mem_cons] at hactive
        simpa [hy] using hactive
    · intro call hcall
      rcases List.mem_cons.mp hcall with rfl | hcall
      · exact hdue
      · exact h.notEarly call hcall
    · intro y hy
      exact Or.inr (congrArg some hy)

variable [Fintype τ]

/-! ### Cancelling -/

lemma Pending.cancel (h : Pending s l) (x : τ) :
    Pending (cancelCallbackFromIsr s x) (l.erase x) := by
  have hplace : ∀ t ∈ (none : Option τ), t ∉ l := fun t ht => nomatch ht
  have hchain := (Links.unlink_spec (x := x) h.chain hplace h.chain.length_le).1
  refine ⟨hchain, ?_, ?_, h.notEarly⟩
  · have hsorted := h.sorted.sublist (List.erase_sublist (a := x))
    apply hsorted.imp
    intro y z hle
    rw [cancelCallbackFromIsr, due_setActive, due_setActive]
    exact hle
  · intro y
    rw [cancelCallbackFromIsr, active_setActive, h.chain.nodup.mem_erase_iff, h.active y]
    by_cases hy : y = x
    · simp [hy]
    · simp [hy]

lemma pendingList_cancel (h : Pending s l) (x : τ) :
    (cancelCallbackFromIsr s x).pendingList = headWithout s x := by
  have hchain := (h.cancel x).chain
  rw [headWithout]
  cases l with
  | nil =>
    have hnone : s.pendingList = none := h.chain
    have hleft : (cancelCallbackFromIsr s x).pendingList = none := hchain
    rw [hleft, hnone]
    rfl
  | cons y l =>
    rw [h.chain.1]
    by_cases hy : y = x
    · subst hy
      rw [List.erase_cons_head] at hchain
      rw [if_pos rfl]
      have hnext := h.chain.2
      cases l with
      | nil =>
        have hleft : (cancelCallbackFromIsr s y).pendingList = none := hchain
        have hright : s.links.next y = none := hnext
        rw [hleft, hright]
      | cons z l => rw [hchain.1, hnext.1]
    · have hne : some y ≠ some x := fun heq => hy (Option.some.inj heq)
      rw [List.erase_cons_tail (by simpa using hy)] at hchain
      rw [if_neg hne, hchain.1]

lemma Covered.cancel (hc : Covered s) (h : Pending s l) (hx : ¬ Uncovers s x) :
    Covered (cancelCallbackFromIsr s x) := by
  intro y hy
  rw [pendingList_cancel h, headWithout] at hy
  have hsame : ArmedFor (cancelCallbackFromIsr s x) y ↔ ArmedFor s y := armedFor_setActive false
  rw [hsame]
  split at hy
  · next hhead =>
    right
    by_contra hserving
    exact hx ⟨hhead, y, hy, hserving⟩
  · exact hc y hy

lemma cancel_setWhenDue (when : UInt32) : cancelCallbackFromIsr (s.setWhenDue x when) x =
    (cancelCallbackFromIsr s x).setWhenDue x when := by
  simp [cancelCallbackFromIsr, State.setActive, State.setWhenDue]

lemma insertTimer_spec (h : Pending s l) (hx : x ∉ l)
    (hwrap : ∀ y, s.pendingList = some y → s.due x < s.due y → -2 ^ 31 ≤ s.due x - d)
    (hc : Covered s ∨ ∀ y, s.pendingList = some y →
      s.due x < s.due y ∧ minInterruptInterval ≤ s.due x - d) :
    ∃ l', Pending (insertTimer s x d).1 l' ∧ Covered (insertTimer s x d).1 := by
  rw [insertTimer]
  cases hhead : s.pendingList with
  | none =>
    have hempty : l = [] := by
      cases l with
      | nil => rfl
      | cons y l => cases hhead.symm.trans h.chain.1
    subst hempty
    have hcovered : Covered s := by
      intro y hy
      cases hhead.symm.trans hy
    exact scheduleFirst_spec h hx (fun y hy => absurd hy List.not_mem_nil) (Or.inl hcovered)
  | some tmr =>
    by_cases hearlier : s.due x < s.due tmr
    · simp only [hearlier, if_true]
      have hdelay := hwrap tmr hhead hearlier
      have hd : ∀ y, s.pendingList = some y → -2 ^ 31 ≤ s.due y - d := by
        intro y hy
        obtain rfl : tmr = y := Option.some.inj (hhead.symm.trans hy)
        omega
      apply scheduleFirst_spec (h.elapse hd) hx
      · intro y hy
        have hle := h.head_le hhead hy
        rw [due_elapse hdelay, due_elapse (by omega)]
        omega
      · rw [due_elapse hdelay]
        rcases hc with hc | hc
        · exact Or.inl (hc.elapse hd)
        · exact Or.inr (hc tmr hhead).2
    · simp only [hearlier, if_false]
      have hcovered : Covered s := by
        rcases hc with hc | hc
        · exact hc
        · exact absurd (hc tmr hhead).1 hearlier
      cases l with
      | nil => cases hhead.symm.trans h.chain
      | cons z l =>
        obtain rfl : tmr = z := Option.some.inj (hhead.symm.trans h.chain.1)
        have hlen : l.length ≤ Fintype.card τ := by
          have hle := h.chain.length_le
          rw [List.length_cons] at hle
          omega
        have hchain := @Links.chain_insertAfter_findPlace _ _ _ _ _ _ _
          (fun t => decide (s.due t < s.due x)) _ h.chain hx hlen
        have : Std.Total fun y z => s.due y ≤ s.due z := ⟨fun y z => le_total _ _⟩
        have : IsTrans τ fun y z => s.due y ≤ s.due z := ⟨fun _ _ _ => le_trans⟩
        have hinsert : l.takeWhile (fun t => decide (s.due t < s.due x)) ++
            x :: l.dropWhile (fun t => decide (s.due t < s.due x)) =
              l.orderedInsert (fun y z => s.due y ≤ s.due z) x := by
          rw [List.orderedInsert_eq_take_drop]
          simp only [not_le]
        rw [hinsert] at hchain
        refine ⟨tmr :: l.orderedInsert (fun y z => s.due y ≤ s.due z) x,
          ⟨hchain, ?_, ?_, h.notEarly⟩, ?_⟩
        · have hsorted := List.pairwise_cons.mp h.sorted
          have hordered : (tmr :: l.orderedInsert (fun y z => s.due y ≤ s.due z) x).Pairwise
              fun y z => s.due y ≤ s.due z := by
            apply List.pairwise_cons.mpr
            refine ⟨?_, ?_⟩
            · intro y hy
              rcases (List.mem_orderedInsert _).mp hy with rfl | hy
              · exact not_lt.mp hearlier
              · exact hsorted.1 y hy
            · exact List.Pairwise.orderedInsert x l hsorted.2
          apply hordered.imp
          intro y z hle
          rw [due_setActive, due_setActive]
          exact hle
        · intro y
          rw [active_setActive]
          by_cases hy : y = x
          · simp [hy]
          · simp only [hy, if_false, List.mem_cons, List.mem_orderedInsert, false_or]
            rw [← h.active y, List.mem_cons]
        · intro y hy
          rcases hcovered y hy with harmed | hserving
          · exact Or.inl ((armedFor_setActive true).mpr harmed)
          · exact Or.inr hserving

/-- The timer with its new time, out of the list. -/
lemma pending_without (h : Pending s l) (x : τ) (when : UInt32) : ∃ l', x ∉ l' ∧
    Pending ((if (s.timers x).active then cancelCallbackFromIsr s x else s).setWhenDue x when) l' ∧
    ((if (s.timers x).active then cancelCallbackFromIsr s x else s).setWhenDue x when).pendingList =
      headWithout s x ∧
    (¬ Uncovers s x → Covered s → Covered
      ((if (s.timers x).active then cancelCallbackFromIsr s x else s).setWhenDue x when)) := by
  by_cases hactive : (s.timers x).active = true
  · have hx : x ∉ l.erase x := h.chain.nodup.not_mem_erase
    simp only [hactive, if_true]
    refine ⟨l.erase x, hx, (h.cancel x).setWhenDue hx when, pendingList_cancel h x, ?_⟩
    intro hu hc
    exact (hc.cancel h hu).setWhenDue (h.cancel x) hx when
  · have hx : x ∉ l := fun hmem => hactive ((h.active x).mp hmem)
    have hhead : s.pendingList = headWithout s x := by
      rw [headWithout, if_neg]
      intro heq
      exact hx (h.head_mem heq)
    simp only [hactive]
    exact ⟨l, hx, h.setWhenDue hx when, hhead, fun _ hc => hc.setWhenDue h hx when⟩

lemma schedule_spec (h : Pending s l) (hc : Covered s) {when : UInt32}
    (hmay : MaySchedule s x when d) :
    ∃ l', Pending (step s (.scheduleCallback x when d)) l' ∧
      Covered (step s (.scheduleCallback x when d)) := by
  have hstep : step s (.scheduleCallback x when d) = (insertTimer
      ((if (s.timers x).active then cancelCallbackFromIsr s x else s).setWhenDue x when) x d).1 :=
      by
    rw [step, scheduleCallbackFromIsr, active_setWhenDue]
    by_cases hactive : (s.timers x).active = true
    · rw [if_pos hactive, if_pos hactive, cancel_setWhenDue]
    · rw [if_neg hactive, if_neg hactive]
  obtain ⟨l', hx, hpending, hhead, hcovered⟩ := pending_without h x when
  rw [hstep]
  generalize hs : (if (s.timers x).active then cancelCallbackFromIsr s x else s) = s₁ at *
  have hclock : s₁.clock = s.clock := by
    rw [← hs]
    split <;> rfl
  have hdue : (s₁.setWhenDue x when).due x = signedDiff when s.clock := by
    rw [due_setWhenDue_self, hclock]
  have hother : ∀ y, headWithout s x = some y → (s₁.setWhenDue x when).due y = s.due y := by
    intro y hy
    have hne : y ≠ x := by
      rintro rfl
      exact hx (hpending.head_mem (hhead.trans hy))
    rw [due_setWhenDue_of_ne hne, ← hs]
    split
    · exact due_setActive false y
    · rfl
  apply insertTimer_spec hpending hx
  · intro y hy hlt
    rw [hhead] at hy
    rw [hdue, hother y hy] at hlt
    rw [hdue]
    exact (hmay y hy).1 hlt
  · by_cases hu : Uncovers s x
    · right
      intro y hy
      rw [hhead] at hy
      rw [hdue, hother y hy]
      exact (hmay y hy).2 hu
    · exact Or.inl (hcovered hu hc)

/-! ### The interrupt -/

lemma interrupt_spec (h : Pending s l) (hc : Covered s) :
    ∃ l', Pending (step s .interrupt) l' ∧ Covered (step s .interrupt) := by
  rw [step]
  split
  · next hguard =>
    obtain ⟨hserving, -, hmatched⟩ := hguard
    have hdisabled : Pending { s with compare := none } l := ⟨h.chain, h.sorted, h.active,
      h.notEarly⟩
    simp only [interrupt]
    cases hhead : State.pendingList { s with compare := none } with
    | none =>
      refine ⟨l, hdisabled, ?_⟩
      intro y hy
      cases hhead.symm.trans hy
    | some tmr =>
      have hdue : s.due tmr < minInterruptInterval := by
        rcases hc tmr hhead with harmed | hnext
        · exact harmed.2 hmatched
        · rw [hserving] at hnext
          cases hnext
      obtain ⟨⟨l', hpending⟩, hcovered⟩ := hdisabled.runCallback hhead hdue
      exact ⟨l', hpending, hcovered⟩
  · exact ⟨l, h, hc⟩

lemma callbackReturns_spec (h : Pending s l) (hc : Covered s) :
    ∃ l', Pending (step s .callbackReturns) l' ∧ Covered (step s .callbackReturns) := by
  have hreturned : Pending { s with serving := none } l :=
    ⟨h.chain, h.sorted, h.active, h.notEarly⟩
  rw [step]
  cases hserving : s.serving with
  | none => exact ⟨l, h, hc⟩
  | some nextTimer =>
    simp only [callbackReturns]
    cases hhead : s.pendingList with
    | none =>
      refine ⟨l, hreturned, ?_⟩
      intro y hy
      cases hhead.symm.trans hy
    | some tmr =>
      by_cases hnext : some tmr = nextTimer
      · subst hnext
        simp only [ne_eq, not_true_eq_false, if_false, scheduleTimerInterrupt]
        by_cases himminent : signedDiff (s.whenDue tmr) s.clock < minInterruptInterval
        · simp only [himminent, if_true]
          obtain ⟨⟨l', hpending⟩, hcovered⟩ := h.runCallback hhead himminent
          exact ⟨l', hpending, hcovered⟩
        · simp only [himminent, if_false]
          refine ⟨l, ⟨h.chain, h.sorted, h.active, h.notEarly⟩, ?_⟩
          intro y hy
          obtain rfl : tmr = y := Option.some.inj (hhead.symm.trans hy)
          exact Or.inl ⟨rfl, fun hmatched => nomatch hmatched⟩
      · simp only [ne_eq, hnext, not_false_eq_true, if_true]
        refine ⟨l, hreturned, ?_⟩
        intro y hy
        obtain rfl : tmr = y := Option.some.inj (hhead.symm.trans hy)
        rcases hc tmr hhead with harmed | hserves
        · exact Or.inl harmed
        · rw [hserving] at hserves
          exact absurd (Option.some.inj hserves).symm hnext

/-! ### Runs -/

lemma step_spec {e : Event τ} (h : ∃ l, Pending s l ∧ Covered s) (he : Careful s e) :
    ∃ l, Pending (step s e) l ∧ Covered (step s e) := by
  obtain ⟨l, h, hc⟩ := h
  cases e with
  | scheduleCallback x when d => exact schedule_spec h hc he
  | scheduleAgain x d =>
    have hagain := schedule_spec h hc he
    rw [step, setWhenDue_self] at hagain
    exact hagain
  | cancelCallback x => exact ⟨l.erase x, h.cancel x, hc.cancel h he⟩
  | interrupt => exact interrupt_spec h hc
  | callbackReturns => exact callbackReturns_spec h hc
  | elapse d => exact ⟨l, h.elapse he, hc.elapse he⟩

theorem timers_sound {es : List (Event τ)} (h : Along step Careful start es) :
    Always step Sound (start : State τ) es := by
  intro es' hprefix
  obtain ⟨l, hpending, hcovered⟩ := Along.always (P := fun s => ∃ l, Pending s l ∧ Covered s)
    start_spec (fun _ _ => step_spec) h es' hprefix
  exact sound_of_covered hpending hcovered

/-- Three timers are pending and the first comes due. -/
def dueRun : List (Event (Fin 3)) :=
  [.scheduleCallback 0 100 0, .scheduleCallback 1 200 0, .scheduleCallback 2 300 0, .elapse 100,
    .interrupt]

theorem dueRun_sound :
    Always step Sound (start : State (Fin 3)) (dueRun ++ [.cancelCallback 2, .callbackReturns]) :=
  timers_sound (by decide +kernel)

theorem cancelled_next_lost :
    ¬ ∀ es : List (Event (Fin 3)), Sound (run step (start : State (Fin 3)) es) := by
  intro h
  have hlost := (h (dueRun ++ [.cancelCallback 1, .callbackReturns])).armed 2 (by decide +kernel)
    (by decide +kernel)
  obtain ⟨c, hc, -⟩ := hlost
  have hnone : (run step (start : State (Fin 3))
      (dueRun ++ [.cancelCallback 1, .callbackReturns])).compare = none := by decide +kernel
  rw [hnone] at hc
  cases hc

end RepRapFirmware.Movement.StepTimer
