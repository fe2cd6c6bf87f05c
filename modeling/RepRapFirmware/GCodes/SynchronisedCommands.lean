import Mathlib.Tactic
import RepRapFirmware.GCodes.GCodeQueue
import RepRapFirmware.Library.Runs
import RepRapFirmware.Movement.MoveCounters

/-! The queue of commands beside the ring of moves whose counters it reads, over any run. The
commands are numbered in the order in which they are queued. -/

namespace RepRapFirmware.GCodes.SynchronisedCommands

open Library.Runs GCodeQueues Movement

/-- A command that was handed out, with the counter of completed moves at that time. -/
structure Delivery where
  number : ℕ
  code : GCodeBuffer
  completedMoves : UInt32

structure State where
  ring : DDARing
  queue : GCodeQueue
  /-- The main task has paused the moves and has still to purge the queue. -/
  pausing : Bool
  /-- The commands that were queued, with the move that each waits for. -/
  accepted : List QueuedCode.Command
  /-- Which of them an item holds. -/
  number : Item → ℕ
  delivered : List Delivery

inductive Action
  | ring (e : DDARing.Event)
  | resetMoveCounters
  | queueCode (gb : GCodeBuffer)
  | fillBuffer
  | purgeEntries
  | clear

def isPause : DDARing.Event → Bool
  | .pauseMoves => true
  | .lowPowerOrStallPause _ => true
  | _ => false

/-- `ResetMoveCounters`, which a print calls when it starts. -/
def resetCounters (r : DDARing) : DDARing := { r with scheduledMoves := 0, completedMoves := 0 }

/-- The main task does not queue a command or start a print between a pause and the purge behind
it. Before it starts a print it waits until the ring is empty and the queue is idle. -/
def step (s : State) : Action → State
  | .ring e => { s with ring := DDARing.step s.ring e, pausing := s.pausing || isPause e }
  | .resetMoveCounters =>
    if !s.pausing && s.ring.isIdle && s.queue.isIdle s.ring.completedMoves then
      { s with ring := resetCounters s.ring }
    else s
  | .queueCode gb =>
    if s.pausing then s
    else
      let (queued, queue) := s.queue.queueCode gb s.ring.scheduledMoves
      match queued, s.queue.freeItems with
      | true, some item =>
        { s with
          queue := queue
          accepted := s.accepted ++ [⟨gb, s.ring.scheduledMoves⟩]
          number := Function.update s.number item s.accepted.length }
      | _, _ => { s with queue := queue }
  | .fillBuffer =>
    let (gb, queue) := s.queue.fillBuffer s.ring.completedMoves
    match gb, s.queue.queuedItems with
    | some gb, some item =>
      { s with
        queue := queue
        delivered := s.delivered ++ [⟨s.number item, gb, s.ring.completedMoves⟩] }
    | _, _ => { s with queue := queue }
  | .purgeEntries =>
    { s with queue := s.queue.purgeEntries s.ring.scheduledMoves, pausing := false }
  | .clear => { s with queue := s.queue.clear }

def start (n : ℕ) (several : 2 ≤ n) (fits : n < 2 ^ 32) : State :=
  ⟨DDARing.start n several fits, GCodeQueue.init, false, [], fun _ => 0, []⟩

/-- One of the counters of the ring runs past an end of its range: `scheduledMoves` where a move is
added, or where a pause takes moves away, or `completedMoves`. -/
def Wraps (s : State) : Action → Prop
  | .ring e =>
    (DDARing.step s.ring e).completedMoves < s.ring.completedMoves ∨
      if isPause e then s.ring.scheduledMoves < (DDARing.step s.ring e).scheduledMoves
      else (DDARing.step s.ring e).scheduledMoves < s.ring.scheduledMoves
  | _ => False

/-- The numbers of the commands delivered and of those still queued, in order. -/
def line (s : State) : List ℕ :=
  s.delivered.map Delivery.number ++ (s.queue.listed .queuedItems).map s.number

/-- Every item is free or queued, every command is delivered once at most and in the order in which
they were queued, as it was queued and not before the move that it waits for is completed. -/
structure Consistent (s : State) : Prop where
  partition : s.queue.Partition (s.queue.listed .freeItems) (s.queue.listed .queuedItems)
  inOrder : (line s).Pairwise (· < ·)
  held : ∀ i ∈ s.queue.listed .queuedItems, ∃ c, s.accepted[s.number i]? = some c ∧
    (s.queue.items i).command = ⟨QueuedCode.kept c.code, c.executeAtMove⟩
  delivered : ∀ d ∈ s.delivered, ∃ c, s.accepted[d.number]? = some c ∧
    d.code = QueuedCode.kept c.code ∧ c.executeAtMove ≤ d.completedMoves

def Sorted (s : State) : Prop :=
  ((s.queue.listed .queuedItems).map fun i => (s.queue.items i).executeAtMove).Pairwise (· ≤ ·)

instance (s : State) : Decidable (Sorted s) := inferInstanceAs (Decidable (List.Pairwise _ _))

/-! ### What a step does to the queue -/

/-- The numbers of the commands delivered and of those that the items hold. -/
def numbers (s : State) (queued : List Item) : List ℕ :=
  s.delivered.map Delivery.number ++ queued.map s.number

/-- The moves that the commands in the items wait for. -/
def moves (s : State) (queued : List Item) : List UInt32 :=
  queued.map fun i => (s.queue.items i).executeAtMove

/-- `Consistent`, of two lists of items that follow the heads. -/
structure Holds (s : State) (free queued : List Item) : Prop where
  partition : s.queue.Partition free queued
  inOrder : (numbers s queued).Pairwise (· < ·)
  held : ∀ i ∈ queued, ∃ c, s.accepted[s.number i]? = some c ∧
    (s.queue.items i).command = ⟨QueuedCode.kept c.code, c.executeAtMove⟩
  delivered : ∀ d ∈ s.delivered, ∃ c, s.accepted[d.number]? = some c ∧
    d.code = QueuedCode.kept c.code ∧ c.executeAtMove ≤ d.completedMoves

variable {s s' : State} {free queued : List Item} {i : Item} {a : Action}

lemma Holds.numbers_lt (h : Holds s free queued) : ∀ n ∈ numbers s queued, n < s.accepted.length := by
  intro n hn
  obtain hdelivered | hqueued := List.mem_append.mp hn
  · obtain ⟨d, hd, rfl⟩ := List.mem_map.mp hdelivered
    obtain ⟨c, hc, -⟩ := h.delivered d hd
    exact (List.getElem?_eq_some_iff.mp hc).1
  · obtain ⟨j, hj, rfl⟩ := List.mem_map.mp hqueued
    obtain ⟨c, hc, -⟩ := h.held j hj
    exact (List.getElem?_eq_some_iff.mp hc).1

lemma getElem?_push {α : Type*} {l : List α} {n : ℕ} {c d : α} (h : l[n]? = some c) :
    (l ++ [d])[n]? = some c := by
  rw [List.getElem?_append_left (List.getElem?_eq_some_iff.mp h).1]
  exact h

lemma queueCode_step (h : Holds s free queued) (gb : GCodeBuffer) :
    step s (.queueCode gb) = s ∨ s.pausing = false ∧ ∃ i free' s', step s (.queueCode gb) = s' ∧
      Holds s' free' (queued ++ [i]) ∧
      numbers s' (queued ++ [i]) = numbers s queued ++ [s.accepted.length] ∧
      moves s' (queued ++ [i]) = moves s queued ++ [s.ring.scheduledMoves] ∧
      s'.ring = s.ring ∧ s'.pausing = s.pausing ∧
      s'.accepted = s.accepted ++ [⟨gb, s.ring.scheduledMoves⟩] := by
  rw [step]
  by_cases hpausing : s.pausing = true
  · exact Or.inl (if_pos hpausing)
  · rw [if_neg hpausing]
    cases free with
    | nil =>
      left
      rw [GCodeQueue.queueCode_full h.partition]
    | cons i free =>
      refine Or.inr ⟨Bool.eq_false_iff.mpr hpausing, ?_⟩
      obtain ⟨q, hqueue, hpartition, hsame, hcommand⟩ :=
        GCodeQueue.queueCode_spec h.partition gb s.ring.scheduledMoves
      have hfirst : s.queue.freeItems = some i := h.partition.freeLinked.1
      have hi : ∀ j ∈ queued, j ≠ i := by
        rintro j hj rfl
        have hnodup := List.nodup_append'.mp h.partition.nodup
        exact hnodup.2.2 List.mem_cons_self hj
      have hnumbers : (queued ++ [i]).map (Function.update s.number i s.accepted.length) =
          queued.map s.number ++ [s.accepted.length] := by
        rw [List.map_append, List.map_singleton, Function.update_self]
        congr 1
        exact List.map_congr_left fun j hj => Function.update_of_ne (hi j hj) _ _
      have hmoves : (queued ++ [i]).map (fun j => (q.items j).executeAtMove) =
          moves s queued ++ [s.ring.scheduledMoves] := by
        rw [List.map_append, List.map_singleton, moves]
        congr 1
        · refine List.map_congr_left fun j hj => ?_
          exact congrArg QueuedCode.Command.executeAtMove (hsame j (hi j hj))
        · exact congrArg (fun c => [QueuedCode.Command.executeAtMove c]) hcommand
      refine ⟨i, free, { s with
        queue := q
        accepted := s.accepted ++ [⟨gb, s.ring.scheduledMoves⟩]
        number := Function.update s.number i s.accepted.length }, ?_, ⟨hpartition, ?_, ?_, ?_⟩, ?_,
        hmoves, rfl, rfl, rfl⟩
      · rw [hqueue, hfirst]
      · rw [numbers, hnumbers, ← List.append_assoc, List.pairwise_append]
        refine ⟨h.inOrder, List.pairwise_singleton _ _, fun n hn m hm => ?_⟩
        rw [List.mem_singleton.mp hm]
        exact h.numbers_lt n hn
      · intro j hj
        dsimp only at hj ⊢
        obtain hj | hj := List.mem_append.mp hj
        · obtain ⟨c, hc, hheld⟩ := h.held j hj
          rw [Function.update_of_ne (hi j hj), hsame j (hi j hj)]
          exact ⟨c, getElem?_push hc, hheld⟩
        · rw [List.mem_singleton.mp hj, Function.update_self]
          exact ⟨_, List.getElem?_concat_length, hcommand⟩
      · intro d hd
        obtain ⟨c, hc, hdelivered⟩ := h.delivered d hd
        exact ⟨c, getElem?_push hc, hdelivered⟩
      · rw [numbers, hnumbers, ← List.append_assoc]
        rfl

lemma fillBuffer_step (h : Holds s free queued) :
    step s .fillBuffer = s ∨ ∃ i queued' s', step s .fillBuffer = s' ∧ queued = i :: queued' ∧
      Holds s' (i :: free) queued' ∧ numbers s' queued' = numbers s queued ∧
      moves s queued = (s.queue.items i).executeAtMove :: moves s' queued' ∧
      s'.ring = s.ring ∧ s'.pausing = s.pausing ∧ s'.accepted = s.accepted := by
  rw [step]
  cases queued with
  | nil =>
    left
    have hnone : s.queue.queuedItems = none := h.partition.queuedLinked
    rw [GCodeQueue.fillBuffer_waits]
    rw [hnone]
    exact nofun
  | cons i queued =>
    have hfirst : s.queue.queuedItems = some i := h.partition.queuedLinked.1
    by_cases hreached : (s.queue.items i).executeAtMove ≤ s.ring.completedMoves
    · right
      obtain ⟨q, hqueue, hpartition, hsame⟩ := GCodeQueue.fillBuffer_spec h.partition hreached
      obtain ⟨c, hc, hheld⟩ := h.held i List.mem_cons_self
      have hcode : (s.queue.items i).assignTo = QueuedCode.kept c.code :=
        congrArg QueuedCode.Command.code hheld
      have hmove : (s.queue.items i).executeAtMove = c.executeAtMove :=
        congrArg QueuedCode.Command.executeAtMove hheld
      let d : Delivery := ⟨s.number i, (s.queue.items i).assignTo, s.ring.completedMoves⟩
      have hnumbers : (s.delivered ++ [d]).map Delivery.number ++ queued.map s.number =
          numbers s (i :: queued) := by
        rw [List.map_append, List.map_singleton, List.append_assoc]
        rfl
      refine ⟨i, queued, { s with queue := q, delivered := s.delivered ++ [d] }, ?_, rfl, ⟨hpartition, ?_, ?_, ?_⟩, hnumbers, ?_, rfl, rfl, rfl⟩
      · rw [hqueue, hfirst]
      · rw [numbers, hnumbers]
        exact h.inOrder
      · intro j hj
        obtain ⟨c, hc, hheld⟩ := h.held j (List.mem_cons_of_mem i hj)
        exact ⟨c, hc, (hsame j id).trans hheld⟩
      · intro d hd
        obtain hd | hd := List.mem_append.mp hd
        · exact h.delivered d hd
        · rw [List.mem_singleton.mp hd]
          exact ⟨c, hc, hcode, hmove ▸ hreached⟩
      · rw [moves, List.map_cons, moves]
        congr 1
        exact List.map_congr_left fun j _ => (hsame.executeAtMove j).symm
    · left
      rw [GCodeQueue.fillBuffer_waits]
      rw [hfirst]
      intro j hj
      obtain rfl := Option.some.inj hj
      exact UInt32.not_le.mp hreached

/-- Some of the commands are taken out of the queue. -/
lemma Holds.drop (h : Holds s free queued) {q : GCodeQueue} {free' queued' : List Item}
    (hpartition : q.Partition free' queued') (hsub : queued'.Sublist queued)
    (hsame : s.queue.SameCommands q fun _ => False) (pausing : Bool) :
    Holds { s with queue := q, pausing := pausing } free' queued' := by
  refine ⟨hpartition, ?_, ?_, h.delivered⟩
  · exact h.inOrder.sublist (List.Sublist.append_left (hsub.map s.number) _)
  · intro j hj
    obtain ⟨c, hc, hheld⟩ := h.held j (hsub.subset hj)
    exact ⟨c, hc, (hsame j id).trans hheld⟩

lemma purgeEntries_step (h : Holds s free queued) :
    ∃ free' queued', Holds (step s .purgeEntries) free' queued' ∧
      moves (step s .purgeEntries) queued' =
        (moves s queued).filter (· ≤ s.ring.scheduledMoves) := by
  obtain ⟨free', hpartition, hsame⟩ :=
    GCodeQueue.purgeEntries_spec h.partition s.ring.scheduledMoves
  refine ⟨free', _, h.drop hpartition List.filter_sublist hsame false, ?_⟩
  rw [moves, moves, List.filter_map]
  exact List.map_congr_left fun j _ => hsame.executeAtMove j

lemma clear_step (h : Holds s free queued) : ∃ free', Holds (step s .clear) free' [] := by
  obtain ⟨free', hpartition, hsame⟩ := GCodeQueue.clear_spec h.partition
  exact ⟨free', h.drop hpartition (List.nil_sublist _) hsame s.pausing⟩

/-! ### The counters -/

/-- No more moves are scheduled than are completed or are still in the ring. An aborted move is
counted as completed and is no longer counted as scheduled. -/
def Ahead (r : DDARing) : Prop :=
  ∃ k, DDARing.Occupies r k k ∧ r.scheduledMoves.toNat ≤ r.completedMoves.toNat + k

variable {r : DDARing} {e : DDARing.Event}

lemma scheduled_addMove (r : DDARing) :
    (DDARing.addMove r).scheduledMoves.toNat ≤ r.scheduledMoves.toNat + 1 := by
  change (r.scheduledMoves + 1).toNat ≤ r.scheduledMoves.toNat + 1
  rw [UInt32.toNat_add]
  exact Nat.mod_le _ _

lemma scheduled_retireExpired (expiry : ℕ → DDA.Reading) (fuel : ℕ) :
    (DDARing.retireExpired expiry fuel r).scheduledMoves = r.scheduledMoves := by
  induction fuel generalizing r with
  | zero => rfl
  | succ fuel ih =>
    rw [DDARing.retireExpired]
    split
    · exact ih
    · rfl

lemma scheduled_spin (i : DDARing.SpinInput) :
    (DDARing.spin r i).scheduledMoves = r.scheduledMoves := by
  have hcomplete : (DDARing.completeMoves r i).scheduledMoves = r.scheduledMoves := by
    rw [DDARing.completeMoves]
    split
    · exact scheduled_retireExpired _ _
    · exact scheduled_retireExpired _ _
    · split <;> rfl
    · split <;> rfl
  have hprepare (fuel p : ℕ) (moveTimeLeft : UInt32) (r : DDARing) :
      (DDARing.prepareMoves i fuel r p moveTimeLeft).scheduledMoves = r.scheduledMoves :=
    (DDARing.sameUse_prepareMoves i fuel p moveTimeLeft).scheduled
  rw [DDARing.spin]
  dsimp only
  split
  · split
    · exact (hprepare _ _ _ _).trans hcomplete
    · exact hcomplete
  · split
    · exact (hprepare _ _ _ _).trans hcomplete
    · exact hcomplete

/-- Where no move is paused, one move is added at most. -/
lemma scheduled_step (h : isPause e = false) :
    (DDARing.step r e).scheduledMoves.toNat ≤ r.scheduledMoves.toNat + 1 := by
  cases e with
  | addStandardMove planned =>
    rw [DDARing.step]
    split
    · rw [DDARing.addStandardMove]
      dsimp only
      split
      · exact scheduled_addMove _
      · exact Nat.le_succ _
    · exact Nat.le_succ _
  | addSpecialMove realMove clocksNeeded =>
    rw [DDARing.step]
    split
    · rw [DDARing.addSpecialMove]
      split
      · exact scheduled_addMove _
      · exact Nat.le_succ _
    · exact Nat.le_succ _
  | addAsyncMove realMove clocksNeeded =>
    rw [DDARing.step]
    split
    · rw [DDARing.addAsyncMove]
      split
      · exact scheduled_addMove _
      · exact Nat.le_succ _
    · exact Nat.le_succ _
  | setWaitingToEmpty => exact Nat.le_succ _
  | spin i =>
    rw [DDARing.step, scheduled_spin]
    exact Nat.le_succ _
  | pauseMoves => exact absurd h.symm Bool.false_ne_true
  | lowPowerOrStallPause _ => exact absurd h.symm Bool.false_ne_true

lemma Ahead.step (h : Ahead r) (hcompleted : r.completedMoves ≤ (DDARing.step r e).completedMoves)
    (hscheduled : isPause e → (DDARing.step r e).scheduledMoves ≤ r.scheduledMoves) :
    Ahead (DDARing.step r e) := by
  obtain ⟨k, hk, hle⟩ := h
  have hbound := hk.bound
  have hfits := r.fits
  rw [UInt32.le_iff_toNat_le] at hcompleted
  have hS := r.scheduledMoves.toNat_lt
  have hC := r.completedMoves.toNat_lt
  have hS' := (DDARing.step r e).scheduledMoves.toNat_lt
  cases haborts : DDARing.aborts r e with
  | true =>
    obtain ⟨k', hk', hdrift⟩ := DDARing.drift_of_aborts hk haborts
    have hpause : isPause e = true := by
      cases e with
      | lowPowerOrStallPause _ => rfl
      | _ => exact absurd haborts Bool.false_ne_true
    have hscheduled := UInt32.le_iff_toNat_le.mp (hscheduled hpause)
    refine ⟨k', hk', ?_⟩
    rw [DDARing.drift, DDARing.drift] at hdrift
    omega
  | false =>
    obtain ⟨k', hk', hdrift⟩ := DDARing.keeps_step haborts k hk
    have hscheduled : (DDARing.step r e).scheduledMoves.toNat ≤ r.scheduledMoves.toNat + 1 := by
      cases hpause : isPause e with
      | true => exact Nat.le_succ_of_le (UInt32.le_iff_toNat_le.mp (hscheduled hpause))
      | false => exact scheduled_step hpause
    refine ⟨k', hk', ?_⟩
    rw [DDARing.drift, DDARing.drift] at hdrift
    omega

lemma Ahead.idle (h : Ahead r) (hidle : DDARing.isIdle r = true) :
    r.scheduledMoves ≤ r.completedMoves ∧ Ahead (resetCounters r) := by
  obtain ⟨k, hk, hle⟩ := h
  have hzero : k = 0 := by
    by_contra hne
    have hused := hk.used 0 (Nat.pos_of_ne_zero hne)
    rw [DDARing.slot_zero hk.get] at hused
    exact hused (of_decide_eq_true hidle)
  subst hzero
  refine ⟨UInt32.le_iff_toNat_le.mpr hle, 0, ⟨hk.get, hk.le, hk.bound, hk.add, hk.used, hk.free⟩, ?_⟩
  exact Nat.zero_le _

/-! ### Runs -/

/-- The queue is in order, and but for a pause it waits for no move that is not scheduled. -/
structure Ordered (s : State) (queued : List Item) : Prop where
  sorted : (moves s queued).Pairwise (· ≤ ·)
  below : s.pausing = false → ∀ m ∈ moves s queued, m ≤ s.ring.scheduledMoves
  ahead : Ahead s.ring

/-- What a step makes of the commands in the line. -/
structure Advances (s s' : State) (a : Action) (queued queued' : List Item) : Prop where
  ordered : Ordered s queued → ¬ Wraps s a → Ordered s' queued'
  joins : a ≠ .purgeEntries → a ≠ .clear → numbers s' queued' = numbers s queued ++
    List.range' s.accepted.length (s'.accepted.length - s.accepted.length)

lemma advances_refl (s : State) (a : Action) (queued : List Item) :
    Advances s s a queued queued := by
  refine ⟨fun h _ => h, fun _ _ => ?_⟩
  rw [Nat.sub_self, List.range'_zero, List.append_nil]

lemma ring_advances (e : DDARing.Event) (queued : List Item) :
    Advances s (step s (.ring e)) (.ring e) queued queued := by
  refine ⟨fun h hwraps => ⟨h.sorted, fun hpausing m hm => ?_, ?_⟩, fun _ _ => ?_⟩
  · obtain ⟨hbefore, hpause⟩ := Bool.or_eq_false_iff.mp hpausing
    rw [Wraps, hpause, not_or] at hwraps
    exact UInt32.le_trans (h.below hbefore m hm) (UInt32.not_lt.mp hwraps.2)
  · rw [Wraps, not_or] at hwraps
    refine h.ahead.step (UInt32.not_lt.mp hwraps.1) fun hpause => ?_
    rw [if_pos hpause] at hwraps
    exact UInt32.not_lt.mp hwraps.2
  · exact (advances_refl s (.ring e) queued).joins Action.noConfusion Action.noConfusion

lemma resetMoveCounters_advances (h : Holds s free queued) :
    Advances s (step s .resetMoveCounters) .resetMoveCounters queued queued := by
  rw [step]
  split
  · next hready =>
    simp only [Bool.and_eq_true, Bool.not_eq_true'] at hready
    obtain ⟨⟨hpausing, hring⟩, hqueue⟩ := hready
    refine ⟨fun hordered _ => ?_, fun _ _ => ?_⟩
    · obtain ⟨hfinished, hahead⟩ := hordered.ahead.idle hring
      have hempty : queued = [] := by
        refine GCodeQueue.empty_of_isIdle h.partition hqueue fun i hi => ?_
        have hbelow := hordered.below hpausing _ (List.mem_map_of_mem hi)
        exact UInt32.le_trans hbelow hfinished
      subst hempty
      exact ⟨List.Pairwise.nil, fun _ => List.forall_mem_nil _, hahead⟩
    · exact (advances_refl s .resetMoveCounters queued).joins Action.noConfusion Action.noConfusion
  · exact advances_refl s .resetMoveCounters queued

lemma step_advances (h : Holds s free queued) (a : Action) :
    ∃ free' queued', Holds (step s a) free' queued' ∧ Advances s (step s a) a queued queued' := by
  cases a with
  | ring e => exact ⟨free, queued, ⟨h.partition, h.inOrder, h.held, h.delivered⟩, ring_advances e queued⟩
  | resetMoveCounters =>
    refine ⟨free, queued, ?_, resetMoveCounters_advances h⟩
    rw [step]
    split
    · exact ⟨h.partition, h.inOrder, h.held, h.delivered⟩
    · exact h
  | queueCode gb =>
    obtain hsame | ⟨hpausing, i, free', s', hstep, hholds, hnumbers, hmoves, hring, hpausing',
      haccepted⟩ := queueCode_step h gb
    · rw [hsame]
      exact ⟨free, queued, h, advances_refl s _ queued⟩
    · rw [hstep]
      refine ⟨free', queued ++ [i], hholds, fun hordered _ => ⟨?_, fun _ => ?_, ?_⟩, fun _ _ => ?_⟩
      · rw [hmoves, List.pairwise_append]
        refine ⟨hordered.sorted, List.pairwise_singleton _ _, fun m hm m' hm' => ?_⟩
        rw [List.mem_singleton.mp hm']
        exact hordered.below hpausing m hm
      · rw [hmoves, hring]
        intro m hm
        obtain hm | hm := List.mem_append.mp hm
        · exact hordered.below hpausing m hm
        · rw [List.mem_singleton.mp hm]
          exact UInt32.le_refl _
      · rw [hring]
        exact hordered.ahead
      · rw [hnumbers, haccepted, List.length_append, List.length_singleton, Nat.add_sub_cancel_left]
        rfl
  | fillBuffer =>
    obtain hsame | ⟨i, queued', s', hstep, rfl, hholds, hnumbers, hmoves, hring, hpausing,
      haccepted⟩ := fillBuffer_step h
    · rw [hsame]
      exact ⟨free, queued, h, advances_refl s _ queued⟩
    · rw [hstep]
      refine ⟨i :: free, queued', hholds, fun hordered _ => ⟨?_, fun hbefore => ?_, ?_⟩,
        fun _ _ => ?_⟩
      · have hsorted := hordered.sorted
        rw [hmoves] at hsorted
        exact hsorted.tail
      · rw [hring]
        intro m hm
        apply hordered.below (hpausing ▸ hbefore)
        rw [hmoves]
        exact List.mem_cons_of_mem _ hm
      · rw [hring]
        exact hordered.ahead
      · rw [hnumbers, haccepted, Nat.sub_self, List.range'_zero, List.append_nil]
  | purgeEntries =>
    obtain ⟨free', queued', hholds, hmoves⟩ := purgeEntries_step h
    refine ⟨free', queued', hholds, fun hordered _ => ⟨?_, fun _ => ?_, hordered.ahead⟩,
      fun hpurge => absurd rfl hpurge⟩
    · rw [hmoves]
      exact hordered.sorted.filter _
    · rw [hmoves]
      exact fun m hm => of_decide_eq_true (List.mem_filter.mp hm).2
  | clear =>
    obtain ⟨free', hholds⟩ := clear_step h
    exact ⟨free', [], hholds, fun hordered _ => ⟨List.Pairwise.nil, fun _ => List.forall_mem_nil _,
      hordered.ahead⟩, fun _ hclear => absurd rfl hclear⟩

lemma Holds.consistent (h : Holds s free queued) : Consistent s := by
  obtain ⟨hpartition, hinOrder, hheld, hdelivered⟩ := h
  have hfree := hpartition.listed_free
  have hqueued := hpartition.listed_queued
  refine ⟨?_, ?_, ?_, hdelivered⟩
  · rw [hfree, hqueued]
    exact hpartition
  · rw [line, hqueued]
    exact hinOrder
  · rw [hqueued]
    exact hheld

lemma holds_start {n : ℕ} (several : 2 ≤ n) (fits : n < 2 ^ 32) :
    Holds (start n several fits) (List.finRange maxQueuedCodes).reverse [] :=
  ⟨GCodeQueue.init_partition, List.Pairwise.nil, List.forall_mem_nil _, List.forall_mem_nil _⟩

lemma ordered_start {n : ℕ} (several : 2 ≤ n) (fits : n < 2 ^ 32) :
    Ordered (start n several fits) [] :=
  ⟨List.Pairwise.nil, fun _ => List.forall_mem_nil _, 0, DDARing.occupies_start several fits,
    Nat.zero_le _⟩

lemma run_holds (h : Holds s free queued) (as : List Action) :
    ∃ free' queued', Holds (run step s as) free' queued' ∧
      (Ordered s queued → Along step (fun s a => ¬ Wraps s a) s as →
        Ordered (run step s as) queued') := by
  induction as generalizing s free queued with
  | nil => exact ⟨free, queued, h, fun hordered _ => hordered⟩
  | cons a as ih =>
    obtain ⟨free', queued', hholds, hadvances⟩ := step_advances h a
    obtain ⟨free'', queued'', hholds', hordered'⟩ := ih hholds
    exact ⟨free'', queued'', hholds', fun hordered halong =>
      hordered' (hadvances.ordered hordered halong.1) halong.2⟩

/-- In every run the queue is consistent, a purge leaves no command that waits for a move beyond
those scheduled, and commands leave the line by a purge or a clear only. The queue is sorted as long
as no counter of the ring wraps around. -/
theorem commands_synchronised (n : ℕ) (several : 2 ≤ n) (fits : n < 2 ^ 32) (as : List Action) :
    Consistent (run step (start n several fits) as) ∧
    (Along step (fun s a => ¬ Wraps s a) (start n several fits) as →
      Sorted (run step (start n several fits) as)) ∧
    (∀ i ∈ (run step (start n several fits) (as ++ [.purgeEntries])).queue.listed .queuedItems,
      ((run step (start n several fits) (as ++ [.purgeEntries])).queue.items i).executeAtMove ≤
        (run step (start n several fits) as).ring.scheduledMoves) ∧
    ∀ a, a ≠ .purgeEntries → a ≠ .clear →
      line (run step (start n several fits) (as ++ [a])) =
        line (run step (start n several fits) as) ++
          List.range' (run step (start n several fits) as).accepted.length
            ((run step (start n several fits) (as ++ [a])).accepted.length -
              (run step (start n several fits) as).accepted.length) := by
  obtain ⟨free, queued, hholds, hordered⟩ := run_holds (holds_start several fits) as
  have hqueued := hholds.partition.listed_queued
  refine ⟨hholds.consistent, fun halong => ?_, ?_, fun a hpurge hclear => ?_⟩
  · have hsorted := (hordered (ordered_start several fits) halong).sorted
    rw [Sorted, hqueued]
    exact hsorted
  · rw [run_concat]
    obtain ⟨free', queued', hpurged, hmoves⟩ := purgeEntries_step hholds
    rw [hpurged.partition.listed_queued]
    intro i hi
    have hmem : ((step (run step (start n several fits) as) .purgeEntries).queue.items
        i).executeAtMove ∈ moves (step (run step (start n several fits) as) .purgeEntries) queued' :=
      List.mem_map_of_mem hi
    rw [hmoves] at hmem
    exact of_decide_eq_true (List.mem_filter.mp hmem).2
  · rw [run_concat]
    obtain ⟨free', queued', hholds', hadvances⟩ := step_advances hholds a
    rw [line, line, hqueued, hholds'.partition.listed_queued]
    exact hadvances.joins hpurge hclear

theorem commands_synchronised_three :
    Consistent (run step (start 3 (by decide) (by decide)) [.queueCode ⟨false, [77]⟩, .fillBuffer]) ∧
    (Along step (fun s a => ¬ Wraps s a) (start 3 (by decide) (by decide))
        [.queueCode ⟨false, [77]⟩, .fillBuffer] →
      Sorted (run step (start 3 (by decide) (by decide))
        [.queueCode ⟨false, [77]⟩, .fillBuffer])) ∧
    (∀ i ∈ (run step (start 3 (by decide) (by decide))
        ([.queueCode ⟨false, [77]⟩, .fillBuffer] ++ [.purgeEntries])).queue.listed .queuedItems,
      ((run step (start 3 (by decide) (by decide))
        ([.queueCode ⟨false, [77]⟩, .fillBuffer] ++ [.purgeEntries])).queue.items i).executeAtMove ≤
        (run step (start 3 (by decide) (by decide))
          [.queueCode ⟨false, [77]⟩, .fillBuffer]).ring.scheduledMoves) ∧
    ∀ a, a ≠ .purgeEntries → a ≠ .clear →
      line (run step (start 3 (by decide) (by decide))
        ([.queueCode ⟨false, [77]⟩, .fillBuffer] ++ [a])) =
        line (run step (start 3 (by decide) (by decide))
          [.queueCode ⟨false, [77]⟩, .fillBuffer]) ++
          List.range' (run step (start 3 (by decide) (by decide))
            [.queueCode ⟨false, [77]⟩, .fillBuffer]).accepted.length
            ((run step (start 3 (by decide) (by decide))
              ([.queueCode ⟨false, [77]⟩, .fillBuffer] ++ [a])).accepted.length -
              (run step (start 3 (by decide) (by decide))
                [.queueCode ⟨false, [77]⟩, .fillBuffer]).accepted.length) :=
  commands_synchronised 3 (by decide) (by decide) [.queueCode ⟨false, [77]⟩, .fillBuffer]

/-! ### A counter that wraps around -/

section Wrapped

def emptyDDA : DDA := ⟨.empty, none, false, false, false, 0, 0⟩

def plainMove : DDARing.Planned := ⟨true, emptyDDA, fun _ => (0, false)⟩

/-- A turn of a simulation. It completes a move that is committed and commits one that is not. -/
def simulate : DDARing.SpinInput :=
  { prepareAdvanceTime := 1, simulationMode := .normal, shouldStartMove := true,
    expiry := fun _ => ⟨0, false⟩, clock := fun _ => 0, canPrepareMove := fun _ => true,
    prepared := fun _ => (0, 0) }

def oneMove : List DDARing.Event := [.addStandardMove plainMove, .spin simulate, .spin simulate]

/-- A ring that is empty after `count` moves. -/
def idleRing (count : UInt32) (p : ℕ) : DDARing :=
  { DDARing.start 2 le_rfl (by decide) with
    addPointer := p, getPointer := p, scheduledMoves := count, completedMoves := count }

/-- The ring while it holds one move. -/
def busyRing (count : UInt32) (p q : ℕ) (state : DDAState) : DDARing :=
  { idleRing count p with
    dda := Function.update (fun _ => emptyDDA) p { emptyDDA with state := state }
    addPointer := q
    scheduledMoves := count + 1 }

variable (count : UInt32)

lemma busyRing_update (p q : ℕ) (state : DDAState) (d : DDA) :
    { busyRing count p q state with
      dda := Function.update (Function.update (fun _ => emptyDDA) p d) p
        { emptyDDA with state := state } } = busyRing count p q state := by
  rw [Function.update_idem]
  rfl

lemma idleRing_update (p q : ℕ) (d : DDA) :
    { idleRing count q with
      dda := Function.update (Function.update (fun _ => emptyDDA) p d) p emptyDDA } =
      idleRing count q := by
  rw [Function.update_idem, Function.update_eq_self_iff.mpr rfl]
  rfl

lemma oneMove_first : run DDARing.step (idleRing count 0) oneMove = idleRing (count + 1) 1 := by
  have hadd : DDARing.step (idleRing count 0) (.addStandardMove plainMove) =
      busyRing count 0 1 .provisional := by
    with_unfolding_all rfl
  have hcommit : DDARing.step (busyRing count 0 1 .provisional) (.spin simulate) =
      busyRing count 0 1 .committed := by
    with_unfolding_all exact busyRing_update count 0 1 .committed _
  have hretire : DDARing.step (busyRing count 0 1 .committed) (.spin simulate) =
      idleRing (count + 1) 1 := by
    with_unfolding_all exact idleRing_update (count + 1) 0 1 _
  rw [oneMove, run_cons, run_cons, run_cons, run_nil, hadd, hcommit, hretire]

lemma oneMove_second : run DDARing.step (idleRing count 1) oneMove = idleRing (count + 1) 0 := by
  have hadd : DDARing.step (idleRing count 1) (.addStandardMove plainMove) =
      busyRing count 1 0 .provisional := by
    with_unfolding_all rfl
  have hcommit : DDARing.step (busyRing count 1 0 .provisional) (.spin simulate) =
      busyRing count 1 0 .committed := by
    with_unfolding_all exact busyRing_update count 1 0 .committed _
  have hretire : DDARing.step (busyRing count 1 0 .committed) (.spin simulate) =
      idleRing (count + 1) 0 := by
    with_unfolding_all exact idleRing_update (count + 1) 1 0 _
  rw [oneMove, run_cons, run_cons, run_cons, run_nil, hadd, hcommit, hretire]

def manyMoves (pairs : ℕ) : List DDARing.Event :=
  (List.replicate pairs (oneMove ++ oneMove)).flatten

lemma manyMoves_run (pairs : ℕ) :
    run DDARing.step (idleRing 0 0) (manyMoves pairs) = idleRing (UInt32.ofNat (2 * pairs)) 0 := by
  induction pairs with
  | zero => rfl
  | succ pairs ih =>
    have hmore : manyMoves (pairs + 1) = manyMoves pairs ++ (oneMove ++ oneMove) := by
      rw [manyMoves, List.replicate_succ', List.flatten_append]
      simp [manyMoves]
    have hcount : UInt32.ofNat (2 * pairs) + 1 + 1 = UInt32.ofNat (2 * (pairs + 1)) := by
      rw [Nat.mul_succ, UInt32.ofNat_add, UInt32.add_assoc]
      rfl
    rw [hmore, run_append, ih, run_append, oneMove_first, oneMove_second, hcount]

lemma run_ring (s : State) {es : List DDARing.Event} (h : ∀ e ∈ es, isPause e = false) :
    run step s (es.map .ring) = { s with ring := run DDARing.step s.ring es } := by
  induction es generalizing s with
  | nil => rfl
  | cons e es ih =>
    obtain ⟨he, hes⟩ := List.forall_mem_cons.mp h
    rw [List.map_cons, run_cons, ih _ hes, step, he, Bool.or_false]
    rfl

lemma manyMoves_pause (pairs : ℕ) : ∀ e ∈ manyMoves pairs, isPause e = false := by
  intro e he
  obtain ⟨es, hes, he⟩ := List.mem_flatten.mp he
  rw [(List.mem_replicate.mp hes).2] at he
  have hall : ∀ e ∈ oneMove ++ oneMove, isPause e = false := by
    simp [oneMove, isPause]
  exact hall e he

/-- A command is queued for the last move before the counter wraps around, and one for the next. -/
def wrappingActions : List Action :=
  [.ring (.addStandardMove plainMove), .queueCode ⟨false, [77]⟩, .ring (.spin simulate),
    .ring (.spin simulate), .ring (.addStandardMove plainMove), .queueCode ⟨false, [77]⟩]

theorem wrapped_queue_unsorted :
    ¬ ∀ (n : ℕ) (several : 2 ≤ n) (fits : n < 2 ^ 32) (as : List Action),
      Sorted (run step (start n several fits) as) := by
  intro h
  have hsorted := h 2 le_rfl (by decide) ((manyMoves (2 ^ 31 - 1)).map .ring ++ wrappingActions)
  rw [run_append, run_ring _ (manyMoves_pause _)] at hsorted
  have hstart : (start 2 le_rfl (by decide)).ring = idleRing 0 0 := rfl
  rw [hstart, manyMoves_run] at hsorted
  revert hsorted
  decide +kernel

end Wrapped

end RepRapFirmware.GCodes.SynchronisedCommands
