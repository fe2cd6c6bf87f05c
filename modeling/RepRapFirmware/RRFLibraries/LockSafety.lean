import RepRapFirmware.RRFLibraries.LockRecords

/-! The lock excludes, serves its writers in turn and wakes every task that it grants the lock. -/

namespace RepRapFirmware.RRFLibraries.LockSafety

open Library.Runs RTOSIface LockRecords Function

variable {Task : Type*} [DecidableEq Task]

/-- The records that a task's calls have left in the two lists. -/
inductive Fits : Caller → Option UInt32 → Option UInt32 → Prop
  | idle : Fits ⟨.running, 0, 0, 0⟩ none none
  | reader (c : UInt32) (hc : c ≠ 0) : Fits ⟨.running, c.toNat, 0, 0⟩ (some c) none
  | writer (reads : ℕ) (c : UInt32) (hc : c ≠ 0) :
    Fits ⟨.running, reads, c.toNat, 0⟩ none (some c)
  | waitingToRead : Fits ⟨.waitingToRead, 0, 0, 0⟩ (some 0) none
  | mayRead : Fits ⟨.waitingToRead, 0, 0, 1⟩ (some 1) none
  | waitingToWrite : Fits ⟨.waitingToWrite, 0, 0, 0⟩ none (some 0)
  | mayWrite : Fits ⟨.waitingToWrite, 0, 0, 1⟩ none (some 1)

/-- Only the first writer has the lock, and then no reader has; where it has to wait for the lock,
some reader has it; without writers every reader has it. -/
def QueueOk (read : Task → Option UInt32) : List (LockRecord Task) → Prop
  | [] => ∀ t, read t ≠ some 0
  | w :: ws => (∀ v ∈ ws, v.count = 0) ∧ (w.count ≠ 0 → ∀ t, (read t).getD 0 = 0) ∧
    (w.count = 0 → ∃ t, (read t).getD 0 ≠ 0)

structure Inv (s : System Task) : Prop where
  readers : (owners s.lock.readLocks).Nodup
  writers : (owners s.lock.writeLocks).Nodup
  queue : QueueOk (fun t => countOf t s.lock.readLocks) s.lock.writeLocks
  fits : ∀ t, Fits (s.caller t) (countOf t s.lock.readLocks) (countOf t s.lock.writeLocks)

section Fits

variable {s : System Task} {me t : Task} {c : UInt32}

lemma Inv.idle (hI : Inv s) (hrunning : (s.caller t).phase = .running)
    (hr : (s.caller t).reads = 0) (hw : (s.caller t).writes = 0) :
    s.caller t = ⟨.running, 0, 0, 0⟩ ∧ countOf t s.lock.readLocks = none ∧
      countOf t s.lock.writeLocks = none := by
  have hfits := hI.fits t
  generalize s.caller t = caller, countOf t s.lock.readLocks = read,
    countOf t s.lock.writeLocks = write at *
  cases hfits with
  | idle => exact ⟨rfl, rfl, rfl⟩
  | reader c hc => exact absurd (UInt32.toNat_inj.mp hr) hc
  | writer reads c hc => exact absurd (UInt32.toNat_inj.mp hw) hc
  | _ => cases hrunning

lemma Inv.reader (hI : Inv s) (hrunning : (s.caller t).phase = .running)
    (hr : (s.caller t).reads ≠ 0) (hw : (s.caller t).writes = 0) :
    ∃ c, c ≠ 0 ∧ s.caller t = ⟨.running, c.toNat, 0, 0⟩ ∧
      countOf t s.lock.readLocks = some c ∧ countOf t s.lock.writeLocks = none := by
  have hfits := hI.fits t
  generalize s.caller t = caller, countOf t s.lock.readLocks = read,
    countOf t s.lock.writeLocks = write at *
  cases hfits with
  | idle => exact absurd rfl hr
  | reader c hc => exact ⟨c, hc, rfl, rfl, rfl⟩
  | writer reads c hc => exact absurd (UInt32.toNat_inj.mp hw) hc
  | _ => cases hrunning

lemma Inv.writer (hI : Inv s) (hrunning : (s.caller t).phase = .running)
    (hw : (s.caller t).writes ≠ 0) :
    ∃ reads c, c ≠ 0 ∧ s.caller t = ⟨.running, reads, c.toNat, 0⟩ ∧
      countOf t s.lock.readLocks = none ∧ countOf t s.lock.writeLocks = some c := by
  have hfits := hI.fits t
  generalize s.caller t = caller, countOf t s.lock.readLocks = read,
    countOf t s.lock.writeLocks = write at *
  cases hfits with
  | idle => exact absurd rfl hw
  | reader c hc => exact absurd rfl hw
  | writer reads c hc => exact ⟨reads, c, hc, rfl, rfl, rfl⟩
  | _ => cases hrunning

/-- A task that has a count in the writers' list is the first one there. -/
lemma Inv.head (hI : Inv s) (h : countOf t s.lock.writeLocks = some c) (hc : c ≠ 0) :
    ∃ ws, s.lock.writeLocks = ⟨t, c⟩ :: ws ∧ (∀ v ∈ ws, v.count = 0) ∧
      ∀ t, (countOf t s.lock.readLocks).getD 0 = 0 := by
  have hqueue := hI.queue
  have hmem := mem_of_countOf h
  cases hws : s.lock.writeLocks with
  | nil =>
    rw [hws] at hmem
    cases hmem
  | cons w ws =>
    rw [hws] at hqueue hmem
    rcases List.mem_cons.mp hmem with rfl | hrest
    · exact ⟨ws, rfl, hqueue.1, hqueue.2.1 hc⟩
    · exact absurd (hqueue.1 _ hrest) hc

lemma ownsWriteLock_of_cons {l : ReadWriteLock Task} {w : LockRecord Task}
    {ws : List (LockRecord Task)} (h : l.writeLocks = w :: ws) :
    ownsWriteLock me l = decide (w.owner = me) := by
  rw [ownsWriteLock, h]
  rfl

lemma ownsWriteLock_of_none {l : ReadWriteLock Task} (h : countOf me l.writeLocks = none) :
    ownsWriteLock me l = false := by
  cases hws : l.writeLocks with
  | nil =>
    rw [ownsWriteLock, hws]
    rfl
  | cons w ws =>
    rw [hws, countOf_cons] at h
    split_ifs at h with hw
    rw [ownsWriteLock_of_cons hws, decide_eq_false hw]

end Fits

section Queue

/-- The tasks that wait to write, in turn. -/
def waitingWriters (ws : List (LockRecord Task)) : List Task :=
  owners (ws.filter fun w => w.count = 0)

/-- The task that has the write lock. -/
def writer : List (LockRecord Task) → Option Task
  | [] => none
  | w :: _ => if w.count = 0 then none else some w.owner

/-- The tasks that join the writers. -/
def joining (ws ws' : List (LockRecord Task)) : List Task :=
  (owners ws').filter fun t => t ∉ owners ws

/-- The task that gets the write lock. -/
def starting (ws ws' : List (LockRecord Task)) : List Task :=
  if writer ws' = writer ws then [] else (writer ws').toList

/-- Writers wait in the order in which they join, and get the lock in this order. -/
def InTurn (ws ws' : List (LockRecord Task)) : Prop :=
  waitingWriters ws ++ joining ws ws' = starting ws ws' ++ waitingWriters ws'

variable {ws ws' : List (LockRecord Task)} {me t u : Task} {c c' : UInt32}

lemma joining_of_subset (h : owners ws' ⊆ owners ws) : joining ws ws' = [] :=
  List.filter_eq_nil_iff.mpr fun t ht => by simpa using h ht

lemma inTurn_refl (ws : List (LockRecord Task)) : InTurn ws ws := by
  rw [InTurn, joining_of_subset (List.Subset.refl _), starting, if_pos rfl, List.append_nil,
    List.nil_append]

/-- The writer takes the lock once more, or releases it once of several times. -/
lemma inTurn_again (hc : c ≠ 0) (hc' : c' ≠ 0) : InTurn (⟨t, c⟩ :: ws) (⟨t, c'⟩ :: ws) := by
  have hj : joining (⟨t, c⟩ :: ws) (⟨t, c'⟩ :: ws) = [] :=
    joining_of_subset (List.Subset.refl (t :: owners ws))
  simp [InTurn, hj, starting, writer, waitingWriters, hc, hc']

/-- The first writer's request is granted. -/
lemma inTurn_grant : InTurn (⟨t, 0⟩ :: ws) (⟨t, 1⟩ :: ws) := by
  have hj : joining (⟨t, 0⟩ :: ws) (⟨t, 1⟩ :: ws) = [] :=
    joining_of_subset (List.Subset.refl (t :: owners ws))
  simp [InTurn, hj, starting, writer, waitingWriters]

lemma inTurn_first (h : ws = []) (me : Task) : InTurn ws [⟨me, 1⟩] := by
  simp [InTurn, joining, starting, writer, waitingWriters, h]

lemma inTurn_append (h : countOf me ws = none) :
    InTurn ws (ws ++ [⟨me, 0⟩]) := by
  have hj : joining ws (ws ++ [⟨me, 0⟩]) = [me] := by
    have hme : me ∉ owners ws := countOf_eq_none.mp h
    have hold : (owners ws).filter (fun t => t ∉ owners ws) = [] :=
      List.filter_eq_nil_iff.mpr (by simp)
    rw [joining, owners_append, List.filter_append, hold, List.nil_append]
    exact List.filter_cons_of_pos (by simpa using hme)
  have hw : writer (ws ++ [⟨me, 0⟩]) = writer ws := by
    cases ws <;> rfl
  rw [InTurn, hj, starting, if_pos hw, waitingWriters, waitingWriters, List.filter_append]
  simp

/-- The writer passes the lock on to the next one. -/
lemma inTurn_pass (hc : c ≠ 0) (htu : t ≠ u) :
    InTurn (⟨t, c⟩ :: ⟨u, 0⟩ :: ws) (⟨u, 1⟩ :: ws) := by
  have hj : joining (⟨t, c⟩ :: ⟨u, 0⟩ :: ws) (⟨u, 1⟩ :: ws) = [] :=
    joining_of_subset (List.subset_cons_self t (u :: owners ws))
  simp [InTurn, hj, starting, writer, waitingWriters, hc, htu.symm]

/-- The writer leaves, and nobody gets the write lock. -/
lemma inTurn_leave (hc : c ≠ 0) (hws : ∀ v ∈ ws, v.count = 0) : InTurn (⟨t, c⟩ :: ws) ws := by
  have hj : joining (⟨t, c⟩ :: ws) ws = [] :=
    joining_of_subset (List.subset_cons_self t (owners ws))
  have hw : writer ws = none := by
    cases ws with
    | nil => rfl
    | cons w ws => exact if_pos (hws w List.mem_cons_self)
  simp [InTurn, hj, starting, hw, waitingWriters, hc]

end Queue

section Reading

variable {s : System Task} {me : Task}

/-- What a call does: no assertion fails, the invariant stays, and the writers stay in turn. -/
def Keeps (s : System Task) (a : Action Task) : Prop :=
  ∃ s', exec s a = some s' ∧ Inv s' ∧ InTurn s.lock.writeLocks s'.lock.writeLocks

section Fits

variable {caller : Task → Caller} {read write : Task → Option UInt32}

/-- Only the caller's own entry and record change. -/
lemma fits_update {r w : Task → Option UInt32}
    (h : ∀ t, Fits (caller t) (read t) (write t)) {c : Caller} (hme : Fits c (r me) (w me))
    (hr : ∀ t, t ≠ me → r t = read t) (hw : ∀ t, t ≠ me → w t = write t) (t : Task) :
    Fits (update caller me c t) (r t) (w t) := by
  by_cases ht : t = me
  · rw [ht, update_self]
    exact hme
  · rw [update_of_ne ht, hr t ht, hw t ht]
    exact h t

lemma give_other {given : List Task} {t : Task} (h : given.count t = 0) :
    give given caller t = caller t := by
  simp [give, h]

@[simp] lemma give_nil : give [] caller = caller :=
  funext fun _ => give_other List.count_nil

/-- The writer whose request is granted is notified. -/
lemma fits_grant {w : Task → Option UInt32} {u : Task}
    (h : ∀ t, Fits (caller t) (read t) (write t)) (hu : write u = some 0)
    (hu' : w u = some 1) (hother : ∀ t, t ≠ u → w t = write t) (t : Task) :
    Fits (give [u] caller t) (read t) (w t) := by
  by_cases ht : t = u
  · subst ht
    have hfits := h t
    rw [hu] at hfits
    simp only [give, List.count_singleton_self, hu']
    generalize caller t = c, read t = r at *
    cases hfits with
    | writer reads c hc => exact absurd rfl hc
    | waitingToWrite => exact .mayWrite
  · rw [give_other (List.count_eq_zero.mpr (by simpa using ht)), hother t ht]
    exact h t

/-- The readers whose requests are granted are notified. -/
lemma fits_wake {given : List Task} (h : ∀ t, Fits (caller t) (read t) (write t))
    (hgiven : ∀ t, given.count t = if read t = some 0 then 1 else 0) (t : Task) :
    Fits (give given caller t) ((read t).map granted) (write t) := by
  have hfits := h t
  by_cases hr : read t = some 0
  · have hcount : given.count t = 1 := (hgiven t).trans (if_pos hr)
    rw [hr] at hfits ⊢
    simp only [give, hcount]
    generalize caller t = c, write t = w at *
    cases hfits with
    | reader c hc => exact absurd rfl hc
    | waitingToRead => exact .mayRead
  · rw [give_other ((hgiven t).trans (if_neg hr))]
    have hsame : (read t).map granted = read t := by
      cases h : read t with
      | none => rfl
      | some c => exact congrArg some (if_neg fun h0 => hr (h.trans (congrArg some h0)))
    rwa [hsame]

end Fits

/-- A read lock is ignored while its caller has the write lock. -/
lemma inv_ignored (hI : Inv s) {w : UInt32} (hw : w ≠ 0) (reads : ℕ)
    (hread : countOf me s.lock.readLocks = none)
    (hwrite : countOf me s.lock.writeLocks = some w) :
    Inv ⟨s.lock, update s.caller me ⟨.running, reads, w.toNat, 0⟩⟩ := by
  refine ⟨hI.readers, hI.writers, hI.queue, fits_update hI.fits ?_ (fun _ _ => rfl) fun _ _ => rfl⟩
  rw [hread, hwrite]
  exact .writer reads w hw

/-- A reader that has the lock keeps the queue waiting. -/
lemma queueOk_reader {read read' : Task → Option UInt32} {ws : List (LockRecord Task)}
    (h : QueueOk read ws) {c c' : UInt32} (hme : read me = some c) (hc : c ≠ 0)
    (hme' : read' me = some c') (hc' : c' ≠ 0) (hother : ∀ t, t ≠ me → read' t = read t) :
    QueueOk read' ws := by
  cases ws with
  | nil =>
    intro t
    by_cases ht : t = me
    · rw [ht, hme']
      exact fun h0 => hc' (Option.some.inj h0)
    · rw [hother t ht]
      exact h t
  | cons w ws =>
    refine ⟨h.1, fun hw => absurd (h.2.1 hw me) ?_, fun _ => ⟨me, ?_⟩⟩
    · rwa [hme]
    · rwa [hme']

/-- A read lock taken once more. -/
lemma inv_increment (hI : Inv s) {c : UInt32} {rs : List (LockRecord Task)} (hc : c ≠ 0)
    (hc' : c + 1 ≠ 0) (hread : countOf me s.lock.readLocks = some c)
    (hwrite : countOf me s.lock.writeLocks = none)
    (howners : owners rs = owners s.lock.readLocks)
    (hcount : ∀ t, countOf t rs = if t = me then some (c + 1) else countOf t s.lock.readLocks) :
    Inv ⟨⟨rs, s.lock.writeLocks⟩, update s.caller me ⟨.running, (c + 1).toNat, 0, 0⟩⟩ := by
  have hother : ∀ t, t ≠ me → countOf t rs = countOf t s.lock.readLocks := by
    intro t ht
    rw [hcount, if_neg ht]
  have hme : countOf me rs = some (c + 1) := by rw [hcount, if_pos rfl]
  refine ⟨howners ▸ hI.readers, hI.writers, queueOk_reader hI.queue hread hc hme hc' hother,
    fits_update hI.fits ?_ hother fun _ _ => rfl⟩
  rw [hme, hwrite]
  exact .reader (c + 1) hc'

/-- A new reader has the lock at once where there is no writer. -/
lemma inv_newReader (hI : Inv s) (hread : countOf me s.lock.readLocks = none)
    (hws : s.lock.writeLocks = []) :
    Inv ⟨⟨⟨me, 1⟩ :: s.lock.readLocks, s.lock.writeLocks⟩,
      update s.caller me ⟨.running, 1, 0, 0⟩⟩ := by
  have hn : (owners (⟨me, 1⟩ :: s.lock.readLocks)).Nodup :=
    List.nodup_cons.mpr ⟨countOf_eq_none.mp hread, hI.readers⟩
  refine ⟨hn, hI.writers, ?_, fits_update hI.fits ?_ (fun t ht => countOf_cons_other ht) fun _ _ =>
    rfl⟩
  · have hqueue := hI.queue
    rw [hws] at hqueue ⊢
    intro t
    by_cases ht : t = me
    · simp [ht]
    · exact fun h0 => hqueue t ((countOf_cons_other ht).symm.trans h0)
  · rw [countOf_cons_self, hws]
    exact .reader 1 (by decide)

/-- A new reader waits where there is a writer. -/
lemma inv_requestRead (hI : Inv s) (hread : countOf me s.lock.readLocks = none)
    (hwrite : countOf me s.lock.writeLocks = none) (hws : s.lock.writeLocks ≠ []) :
    Inv ⟨⟨⟨me, 0⟩ :: s.lock.readLocks, s.lock.writeLocks⟩,
      update s.caller me ⟨.waitingToRead, 0, 0, 0⟩⟩ := by
  have hn : (owners (⟨me, 0⟩ :: s.lock.readLocks)).Nodup :=
    List.nodup_cons.mpr ⟨countOf_eq_none.mp hread, hI.readers⟩
  have hget : ∀ t, (countOf t (⟨me, 0⟩ :: s.lock.readLocks)).getD 0 =
      (countOf t s.lock.readLocks).getD 0 := by
    intro t
    by_cases ht : t = me
    · rw [ht, countOf_cons_self, hread]
      rfl
    · rw [countOf_cons_other ht]
  refine ⟨hn, hI.writers, ?_, fits_update hI.fits ?_ (fun t ht => countOf_cons_other ht) fun _ _ =>
    rfl⟩
  · have hqueue := hI.queue
    cases hl : s.lock.writeLocks with
    | nil => exact absurd hl hws
    | cons w ws =>
      rw [hl] at hqueue
      simpa only [QueueOk, hget] using hqueue
  · rw [countOf_cons_self, hwrite]
    exact .waitingToRead

lemma toNat_succ {c : UInt32} (h : c.toNat + 1 < UInt32.size) :
    (c + 1).toNat = c.toNat + 1 ∧ c + 1 ≠ 0 := by
  have hsum : (c + 1).toNat = c.toNat + 1 := by
    rw [UInt32.toNat_add]
    exact Nat.mod_eq_of_lt h
  refine ⟨hsum, fun h0 => ?_⟩
  rw [h0] at hsum
  cases hsum

lemma ownsWriteLock_of_writer (hI : Inv s) {w : UInt32} (hw : w ≠ 0)
    (hwrite : countOf me s.lock.writeLocks = some w) : ownsWriteLock me s.lock = true := by
  obtain ⟨ws, hws, -⟩ := hI.head hwrite hw
  rw [ownsWriteLock_of_cons hws, decide_eq_true rfl]

lemma keeps_lockForReading (hI : Inv s) (h : Permitted s (me, .lockForReading)) :
    Keeps s (me, .lockForReading) := by
  obtain ⟨hrunning, hbound⟩ := h
  by_cases hw : (s.caller me).writes = 0
  · by_cases hr : (s.caller me).reads = 0
    · obtain ⟨hcaller, hread, hwrite⟩ := hI.idle hrunning hr hw
      have howns := ownsWriteLock_of_none hwrite
      have hincrement := increment_of_none hread
      cases hws : s.lock.writeLocks with
      | nil =>
        refine ⟨_, ?_, inv_newReader hI hread hws, inTurn_refl _⟩
        simp [exec, lockForReading, howns, hincrement, hws, hcaller]
      | cons w ws =>
        refine ⟨_, ?_, inv_requestRead hI hread hwrite (by simp [hws]), inTurn_refl _⟩
        simp [exec, lockForReading, howns, hincrement, hws, hcaller]
    · obtain ⟨c, hc, hcaller, hread, hwrite⟩ := hI.reader hrunning hr hw
      obtain ⟨rs, hincrement, howners, hcount⟩ := increment_of_some hread
      have hlt : c.toNat + 1 < UInt32.size := by
        have hlt := hbound.resolve_left (not_not.mpr hw)
        rwa [hcaller] at hlt
      obtain ⟨hsum, hne⟩ := toNat_succ hlt
      refine ⟨_, ?_, inv_increment hI hc hne hread hwrite howners hcount, inTurn_refl _⟩
      simp [exec, lockForReading, ownsWriteLock_of_none hwrite, hincrement, hcaller, hsum]
  · obtain ⟨reads, w, hw0, hcaller, hread, hwrite⟩ := hI.writer hrunning hw
    have howns := ownsWriteLock_of_writer hI hw0 hwrite
    refine ⟨_, ?_, inv_ignored hI hw0 (reads + 1) hread hwrite, inTurn_refl _⟩
    simp [exec, lockForReading, howns, hcaller]

/-- The call fails and changes nothing. -/
lemma inv_unchanged (hI : Inv s) (me : Task) : Inv ⟨s.lock, update s.caller me (s.caller me)⟩ := by
  rw [update_eq_self]
  exact hI

lemma keeps_conditionalLockForReading (hI : Inv s)
    (h : Permitted s (me, .conditionalLockForReading)) :
    Keeps s (me, .conditionalLockForReading) := by
  obtain ⟨hrunning, hbound⟩ := h
  by_cases hw : (s.caller me).writes = 0
  · by_cases hr : (s.caller me).reads = 0
    · obtain ⟨hcaller, hread, hwrite⟩ := hI.idle hrunning hr hw
      have howns := ownsWriteLock_of_none hwrite
      have hincrement := increment_of_none hread
      cases hws : s.lock.writeLocks with
      | nil =>
        refine ⟨_, ?_, inv_newReader hI hread hws, inTurn_refl _⟩
        simp [exec, conditionalLockForReading, howns, hincrement, hws, hcaller]
      | cons w ws =>
        refine ⟨_, ?_, inv_unchanged hI me, inTurn_refl _⟩
        simp [exec, conditionalLockForReading, howns, hincrement, hws]
    · obtain ⟨c, hc, hcaller, hread, hwrite⟩ := hI.reader hrunning hr hw
      obtain ⟨rs, hincrement, howners, hcount⟩ := increment_of_some hread
      have hlt : c.toNat + 1 < UInt32.size := by
        have hlt := hbound.resolve_left (not_not.mpr hw)
        rwa [hcaller] at hlt
      obtain ⟨hsum, hne⟩ := toNat_succ hlt
      refine ⟨_, ?_, inv_increment hI hc hne hread hwrite howners hcount, inTurn_refl _⟩
      simp [exec, conditionalLockForReading, ownsWriteLock_of_none hwrite, hincrement, hcaller,
        hsum]
  · obtain ⟨reads, w, hw0, hcaller, hread, hwrite⟩ := hI.writer hrunning hw
    have howns := ownsWriteLock_of_writer hI hw0 hwrite
    refine ⟨_, ?_, inv_ignored hI hw0 (reads + 1) hread hwrite, inTurn_refl _⟩
    simp [exec, conditionalLockForReading, howns, hcaller]

/-- What is left of a reader that releases its lock once. -/
lemma fits_released {c : UInt32} (hc : c ≠ 0) :
    Fits ⟨.running, c.toNat - 1, 0, 0⟩ (if c = 1 then none else some (c - 1)) none := by
  by_cases h1 : c = 1
  · rw [if_pos h1, h1]
    exact .idle
  · have hpos : 1 ≤ c.toNat := Nat.pos_of_ne_zero fun h => hc (UInt32.toNat_inj.mp h)
    have hsub : (c - 1).toNat = c.toNat - 1 := UInt32.toNat_sub_of_le _ _ hpos
    have hne : c - 1 ≠ 0 := fun h => h1 (by rw [← UInt32.sub_add_cancel c 1, h]; rfl)
    rw [if_neg h1, ← hsub]
    exact .reader (c - 1) hne

lemma released_ne_zero (c : UInt32) :
    (if c = 1 then none else some (c - 1)) ≠ some 0 := by
  split_ifs with h1
  · exact (Option.some_ne_none 0).symm
  · intro h
    have h0 : c - 1 = 0 := Option.some.inj h
    exact h1 (by rw [← UInt32.sub_add_cancel c 1, h0]; rfl)

lemma keeps_releaseReader (hI : Inv s) (h : Permitted s (me, .releaseReader)) :
    Keeps s (me, .releaseReader) := by
  obtain ⟨hrunning, hr⟩ := h
  by_cases hw : (s.caller me).writes = 0
  · obtain ⟨c, hc, hcaller, hread, hwrite⟩ := hI.reader hrunning hr hw
    have howns := ownsWriteLock_of_none hwrite
    obtain ⟨rs, remaining, hloop, howners, hcount, hiff⟩ :=
      releaseRecord_of_some hI.readers hread hc false
    have hn : (owners rs).Nodup := howners.nodup hI.readers
    have hother : ∀ t, t ≠ me → countOf t rs = countOf t s.lock.readLocks := by
      intro t ht
      rw [hcount, if_neg ht]
    have hfits := fits_update (c := ⟨.running, c.toNat - 1, 0, 0⟩) hI.fits
      (r := fun t => countOf t rs) (w := fun t => countOf t s.lock.writeLocks)
      (by simp only [hcount, if_true, hwrite]; exact fits_released hc) hother fun _ _ => rfl
    have hqueue := hI.queue
    have hlocked : s.lock.writeLocks = [] → ∀ t, countOf t rs ≠ some 0 := by
      intro hws t
      rw [hws] at hqueue
      by_cases ht : t = me
      · rw [hcount, if_pos ht]
        exact released_ne_zero c
      · rw [hother t ht]
        exact hqueue t
    rw [exists_count_iff hn] at hiff
    cases hws : s.lock.writeLocks with
    | nil =>
      refine ⟨⟨⟨rs, []⟩, give [] (update s.caller me ⟨.running, c.toNat - 1, 0, 0⟩)⟩, ?_,
        ⟨hn, List.nodup_nil, hlocked hws, ?_⟩, hws ▸ inTurn_refl _⟩
      · cases remaining <;> simp [exec, releaseReader, howns, hloop, hws, hcaller]
      · rw [give_nil, ← hws]
        exact hfits
    | cons w ws =>
      rw [hws] at hqueue
      have hw0 : w.count = 0 := by
        by_contra hne
        have hzero := hqueue.2.1 hne me
        simp only [hread, Option.getD_some] at hzero
        exact hc hzero
      cases remaining with
      | true =>
        refine ⟨⟨⟨rs, w :: ws⟩, give [] (update s.caller me ⟨.running, c.toNat - 1, 0, 0⟩)⟩, ?_,
          ⟨hn, hws ▸ hI.writers, ⟨hqueue.1, fun hne => absurd hw0 hne,
            fun _ => by simpa using hiff⟩,
            ?_⟩, hws ▸ inTurn_refl _⟩
        · simp [exec, releaseReader, howns, hloop, hws, hcaller]
        · rw [give_nil, ← hws]
          exact hfits
      | false =>
        have hzero : ∀ t, (countOf t rs).getD 0 = 0 := by
          simpa using hiff
        obtain ⟨u, count⟩ := w
        obtain rfl : count = 0 := hw0
        have hgranted := fits_grant hfits (u := u) (by rw [hws]; exact countOf_cons_self)
          (w := fun t => countOf t (⟨u, 1⟩ :: ws)) countOf_cons_self
          (fun t ht => by rw [hws, countOf_cons_other ht, countOf_cons_other ht])
        refine ⟨⟨⟨rs, ⟨u, 1⟩ :: ws⟩, give [u] (update s.caller me
          ⟨.running, c.toNat - 1, 0, 0⟩)⟩, ?_, ⟨hn, ?_, ⟨hqueue.1, fun _ => hzero, fun h1 => ?_⟩,
            hgranted⟩, hws ▸ inTurn_grant⟩
        · simp [exec, releaseReader, howns, hloop, hws, hcaller]
        · have hwriters := hI.writers
          rwa [hws] at hwriters
        · exact absurd (show (1 : UInt32) = 0 from h1) (by decide)
  · obtain ⟨reads, w, hw0, hcaller, hread, hwrite⟩ := hI.writer hrunning hw
    have howns := ownsWriteLock_of_writer hI hw0 hwrite
    refine ⟨_, ?_, inv_ignored hI hw0 (reads - 1) hread hwrite, inTurn_refl _⟩
    simp [exec, releaseReader, howns, hcaller]

end Reading

section Writing

variable {s : System Task} {me : Task}

/-- A write lock taken once more, or released once of several times. -/
lemma inv_again (hI : Inv s) {w w' : UInt32} {ws : List (LockRecord Task)} {n : ℕ} (hw : w ≠ 0)
    (hw' : w' ≠ 0) (hread : countOf me s.lock.readLocks = none)
    (hws : s.lock.writeLocks = ⟨me, w⟩ :: ws) :
    Inv ⟨⟨s.lock.readLocks, ⟨me, w'⟩ :: ws⟩,
      update s.caller me ⟨.running, n, w'.toNat, 0⟩⟩ := by
  have hqueue := hI.queue
  have hwriters := hI.writers
  rw [hws] at hqueue hwriters
  refine ⟨hI.readers, hwriters, ⟨hqueue.1, fun _ => hqueue.2.1 hw, fun h0 => absurd h0 hw'⟩,
    fits_update hI.fits ?_ (fun _ _ => rfl) fun t ht => ?_⟩
  · rw [hread, countOf_cons_self]
    exact .writer n w' hw'
  · rw [hws, countOf_cons_other ht, countOf_cons_other ht]

/-- The first writer has the lock at once where nobody reads. -/
lemma inv_newWriter (hI : Inv s) (hr : s.lock.readLocks = []) (hws : s.lock.writeLocks = []) :
    Inv ⟨⟨s.lock.readLocks, [⟨me, 1⟩]⟩, update s.caller me ⟨.running, 0, 1, 0⟩⟩ := by
  refine ⟨hI.readers, List.nodup_singleton me, ⟨by simp, fun _ t => ?_, fun h0 => ?_⟩,
    fits_update hI.fits ?_ (fun _ _ => rfl) fun t ht => ?_⟩
  · simp [hr]
  · exact absurd (show (1 : UInt32) = 0 from h0) (by decide)
  · rw [hr, countOf_nil, countOf_cons_self]
    exact .writer 0 1 (by decide)
  · rw [hws, countOf_cons_other ht]

/-- A writer waits at the end of the queue. -/
lemma inv_requestWrite (hI : Inv s) (hread : countOf me s.lock.readLocks = none)
    (hwrite : countOf me s.lock.writeLocks = none)
    (hne : s.lock.writeLocks = [] → s.lock.readLocks ≠ []) :
    Inv ⟨⟨s.lock.readLocks, s.lock.writeLocks ++ [⟨me, 0⟩]⟩,
      update s.caller me ⟨.waitingToWrite, 0, 0, 0⟩⟩ := by
  have hqueue := hI.queue
  refine ⟨hI.readers, ?_, ?_, fits_update hI.fits ?_ (fun _ _ => rfl) fun t ht => ?_⟩
  · rw [owners_append]
    exact List.nodup_append.mpr ⟨hI.writers, List.nodup_singleton me, fun t ht u hu => by
      rintro rfl
      rw [List.mem_singleton.mp hu] at ht
      exact countOf_eq_none.mp hwrite ht⟩
  · cases hws : s.lock.writeLocks with
    | nil =>
      rw [hws] at hqueue
      refine ⟨by simp, fun h0 => absurd rfl h0, fun _ => ?_⟩
      obtain ⟨r, rs, hrs⟩ := List.exists_cons_of_ne_nil (hne hws)
      have hr : countOf r.owner s.lock.readLocks = some r.count :=
        countOf_of_mem hI.readers (hrs ▸ List.mem_cons_self)
      refine ⟨r.owner, ?_⟩
      simp only [hr, Option.getD_some]
      exact fun h0 => hqueue r.owner (hr.trans (congrArg some h0))
    | cons w ws =>
      rw [hws] at hqueue
      refine ⟨fun v hv => ?_, hqueue.2⟩
      rcases List.mem_append.mp hv with hv | hv
      · exact hqueue.1 v hv
      · rw [List.mem_singleton.mp hv]
  · rw [hread, countOf_append hwrite, if_pos rfl]
    exact .waitingToWrite
  · rw [countOf_append hwrite, if_neg ht]

lemma keeps_lockForWriting (hI : Inv s) (h : Permitted s (me, .lockForWriting)) :
    Keeps s (me, .lockForWriting) := by
  obtain ⟨hrunning, hbound, hrule⟩ := h
  by_cases hw : (s.caller me).writes = 0
  · obtain ⟨hcaller, hread, hwrite⟩ := hI.idle hrunning (hrule.resolve_left (not_not.mpr hw)) hw
    cases hws : s.lock.writeLocks with
    | nil =>
      cases hrs : s.lock.readLocks with
      | nil =>
        refine ⟨_, ?_, inv_newWriter hI hrs hws, inTurn_first hws me⟩
        simp [exec, lockForWriting, hws, hrs, hcaller]
      | cons r rs =>
        refine ⟨_, ?_, inv_requestWrite hI hread hwrite fun _ => by simp [hrs],
          inTurn_append hwrite⟩
        simp [exec, lockForWriting, hws, hrs, hcaller]
    | cons w ws =>
      have hne : w.owner ≠ me := by
        rw [hws, countOf_cons] at hwrite
        intro he
        rw [if_pos he] at hwrite
        cases hwrite
      refine ⟨_, ?_, inv_requestWrite hI hread hwrite fun h0 => absurd (hws.symm.trans h0)
        (by simp),
        inTurn_append hwrite⟩
      simp [exec, lockForWriting, hws, hne, hcaller]
  · obtain ⟨reads, w, hw0, hcaller, hread, hwrite⟩ := hI.writer hrunning hw
    obtain ⟨ws, hws, -, -⟩ := hI.head hwrite hw0
    have hlt : w.toNat + 1 < UInt32.size := by
      rwa [hcaller] at hbound
    obtain ⟨hsum, hne⟩ := toNat_succ hlt
    refine ⟨_, ?_, inv_again hI hw0 hne hread hws (n := reads), hws ▸ inTurn_again hw0 hne⟩
    simp [exec, lockForWriting, hws, hw0, hcaller, hsum]

lemma keeps_conditionalLockForWriting (hI : Inv s) (me : Task) :
    Keeps s (me, .conditionalLockForWriting) := by
  by_cases hfree : s.lock.writeLocks = [] ∧ s.lock.readLocks = []
  · obtain ⟨hws, hrs⟩ := hfree
    have hfits := hI.fits me
    rw [hws, hrs] at hfits
    have hcaller : s.caller me = ⟨.running, 0, 0, 0⟩ := by
      generalize s.caller me = c at hfits
      cases hfits
      rfl
    refine ⟨_, ?_, inv_newWriter hI hrs hws, inTurn_first hws me⟩
    simp [exec, conditionalLockForWriting, hws, hrs, hcaller]
  · refine ⟨_, ?_, inv_unchanged hI me, inTurn_refl _⟩
    have hno : (s.lock.writeLocks.isEmpty && s.lock.readLocks.isEmpty) = false := by
      simpa using hfree
    simp [exec, conditionalLockForWriting, hno]

/-- The last release of a write lock, seen without the requests that it grants. -/
lemma fits_left (hI : Inv s) {w : UInt32} {ws : List (LockRecord Task)}
    (hread : countOf me s.lock.readLocks = none) (hws : s.lock.writeLocks = ⟨me, w⟩ :: ws) (t
    : Task) :
    Fits (update s.caller me ⟨.running, 0, 0, 0⟩ t) (countOf t s.lock.readLocks) (countOf t ws) :=
      by
  have hwriters := hI.writers
  rw [hws] at hwriters
  have hme : countOf me ws = none := countOf_eq_none.mpr (List.nodup_cons.mp hwriters).1
  refine fits_update hI.fits (r := fun t => countOf t s.lock.readLocks)
    (w := fun t => countOf t ws) ?_ (fun _ _ => rfl) (fun t ht => ?_) t
  · simp only [hread, hme]
    exact .idle
  · rw [hws, countOf_cons_other ht]

lemma inv_wake (hI : Inv s) {w : UInt32} (hread : countOf me s.lock.readLocks = none)
    (hws : s.lock.writeLocks = [⟨me, w⟩]) :
    Inv ⟨⟨(wakeReaders s.lock.readLocks).1, []⟩,
      give (wakeReaders s.lock.readLocks).2 (update s.caller me ⟨.running, 0, 0, 0⟩)⟩ := by
  refine ⟨owners_wakeReaders.symm ▸ hI.readers, List.nodup_nil, fun t => ?_, fun t => ?_⟩
  · simp only [countOf_wakeReaders, ne_eq, Option.map_eq_some_iff, not_exists, not_and]
    exact fun c _ => granted_ne_zero c
  · rw [countOf_wakeReaders]
    exact fits_wake (fits_left hI hread hws) (count_wakeReaders hI.readers) t

lemma inv_pass (hI : Inv s) {w : UInt32} {u : Task} {ws : List (LockRecord Task)} (hw : w ≠ 0)
    (hread : countOf me s.lock.readLocks = none)
    (hws : s.lock.writeLocks = ⟨me, w⟩ :: ⟨u, 0⟩ :: ws) :
    Inv ⟨⟨s.lock.readLocks, ⟨u, 1⟩ :: ws⟩,
      give [u] (update s.caller me ⟨.running, 0, 0, 0⟩)⟩ := by
  have hqueue := hI.queue
  have hwriters := hI.writers
  rw [hws] at hqueue hwriters
  refine ⟨hI.readers, (List.nodup_cons.mp hwriters).2,
    ⟨fun v hv => hqueue.1 v (List.mem_cons_of_mem _ hv), fun _ => hqueue.2.1 hw, fun h1 => ?_⟩,
    fits_grant (fits_left hI hread hws) countOf_cons_self countOf_cons_self fun t ht => ?_⟩
  · exact absurd (show (1 : UInt32) = 0 from h1) (by decide)
  · rw [countOf_cons_other ht, countOf_cons_other ht]

lemma sub_one_spec {c : UInt32} (hc : c ≠ 0) (h1 : c ≠ 1) :
    (c - 1).toNat = c.toNat - 1 ∧ c - 1 ≠ 0 := by
  have hpos : 1 ≤ c.toNat := Nat.pos_of_ne_zero fun h => hc (UInt32.toNat_inj.mp h)
  exact ⟨UInt32.toNat_sub_of_le _ _ hpos,
    fun h => h1 (by rw [← UInt32.sub_add_cancel c 1, h]; rfl)⟩

lemma keeps_releaseWriter (hI : Inv s) (h : Permitted s (me, .releaseWriter)) :
    Keeps s (me, .releaseWriter) := by
  obtain ⟨hrunning, hw, hrule⟩ := h
  obtain ⟨reads, w, hw0, hcaller, hread, hwrite⟩ := hI.writer hrunning hw
  obtain ⟨ws, hws, hrest, -⟩ := hI.head hwrite hw0
  by_cases hw1 : w = 1
  · subst hw1
    have hr : reads = 0 := by
      rw [hcaller] at hrule
      exact hrule rfl
    cases ws with
    | nil =>
      refine ⟨_, ?_, inv_wake hI hread hws, hws ▸ inTurn_leave (by decide) (by simp)⟩
      simp [exec, releaseWriter, hws, hcaller, hr]
    | cons v ws =>
      obtain ⟨u, count⟩ := v
      obtain rfl : count = 0 := hrest _ List.mem_cons_self
      have hwriters := hI.writers
      rw [hws] at hwriters
      have hne : me ≠ u := fun he => (List.nodup_cons.mp hwriters).1 (he ▸ List.mem_cons_self)
      refine ⟨_, ?_, inv_pass hI (by decide) hread hws, hws ▸ inTurn_pass (by decide) hne⟩
      simp [exec, releaseWriter, hws, hcaller, hr]
  · obtain ⟨hsub, hne⟩ := sub_one_spec hw0 hw1
    refine ⟨_, ?_, inv_again hI hw0 hne hread hws (n := reads), hws ▸ inTurn_again hw0 hne⟩
    simp [exec, releaseWriter, hws, hw0, hne, hcaller, hsub]

/-- The writer goes on as a reader, with the readers that waited for it. -/
lemma inv_downgrade (hI : Inv s) {ws : List (LockRecord Task)}
    (hread : countOf me s.lock.readLocks = none) (hws : s.lock.writeLocks = ⟨me, 1⟩ :: ws) :
    Inv ⟨⟨⟨me, 1⟩ :: (wakeReaders s.lock.readLocks).1, ws⟩,
      give (wakeReaders s.lock.readLocks).2 (update s.caller me ⟨.running, 1, 0, 0⟩)⟩ := by
  have hqueue := hI.queue
  have hwriters := hI.writers
  rw [hws] at hqueue hwriters
  have hme : countOf me ws = none := countOf_eq_none.mpr (List.nodup_cons.mp hwriters).1
  have howners : owners (wakeReaders s.lock.readLocks).1 = owners s.lock.readLocks :=
    owners_wakeReaders
  have hwoken : ∀ t, countOf t (⟨me, 1⟩ :: (wakeReaders s.lock.readLocks).1) =
      (countOf t (⟨me, 1⟩ :: s.lock.readLocks)).map granted := by
    intro t
    by_cases ht : t = me
    · rw [ht, countOf_cons_self, countOf_cons_self]
      rfl
    · rw [countOf_cons_other ht, countOf_cons_other ht, countOf_wakeReaders]
  have hfits := fits_update (c := ⟨.running, 1, 0, 0⟩) hI.fits
    (r := fun t => countOf t (⟨me, 1⟩ :: s.lock.readLocks)) (w := fun t => countOf t ws)
    (by simp only [countOf_cons_self, hme]; exact .reader 1 (by decide))
    (fun t ht => countOf_cons_other ht) (fun t ht => by rw [hws, countOf_cons_other ht])
  refine ⟨?_, (List.nodup_cons.mp hwriters).2, ?_, fun t => ?_⟩
  · have hn : (me :: owners (wakeReaders s.lock.readLocks).1).Nodup := by
      rw [howners]
      exact List.nodup_cons.mpr ⟨countOf_eq_none.mp hread, hI.readers⟩
    exact hn
  · cases ws with
    | nil =>
      intro t
      simp only [hwoken, ne_eq, Option.map_eq_some_iff, not_exists, not_and]
      exact fun c _ => granted_ne_zero c
    | cons v ws =>
      have hv : v.count = 0 := hqueue.1 v List.mem_cons_self
      exact ⟨fun u hu => hqueue.1 u (List.mem_cons_of_mem v hu), fun h0 => absurd hv h0,
        fun _ => ⟨me, by simp⟩⟩
  · rw [hwoken]
    refine fits_wake hfits (fun t => ?_) t
    rw [count_wakeReaders hI.readers]
    by_cases ht : t = me
    · simp [ht, hread]
    · rw [countOf_cons_other ht]

lemma keeps_downgradeWriter (hI : Inv s) (h : Permitted s (me, .downgradeWriter)) :
    Keeps s (me, .downgradeWriter) := by
  obtain ⟨hrunning, hw, hr⟩ := h
  obtain ⟨reads, w, hw0, hcaller, hread, hwrite⟩ := hI.writer hrunning (by rw [hw]; decide)
  obtain ⟨ws, hws, hrest, -⟩ := hI.head hwrite hw0
  have hw1 : w = 1 := by
    rw [hcaller] at hw
    exact UInt32.toNat_inj.mp hw
  have hr0 : reads = 0 := by rwa [hcaller] at hr
  subst hw1 hr0
  refine ⟨_, ?_, inv_downgrade hI hread hws, hws ▸ inTurn_leave hw0 hrest⟩
  simp [exec, downgradeWriter, hws, hcaller]

end Writing

section Waiting

variable {s : System Task} {me : Task}

/-- A task that is notified has the lock. -/
lemma keeps_take (hI : Inv s) (h : Permitted s (me, .take)) : Keeps s (me, .take) := by
  refine ⟨_, rfl, ⟨hI.readers, hI.writers, hI.queue, ?_⟩, inTurn_refl _⟩
  refine fits_update hI.fits (r := fun t => countOf t s.lock.readLocks)
    (w := fun t => countOf t s.lock.writeLocks) ?_ (fun _ _ => rfl) fun _ _ => rfl
  have hphase : (s.caller me).phase ≠ .running := h
  have hfits := hI.fits me
  simp only [take]
  generalize s.caller me = c, countOf me s.lock.readLocks = read,
    countOf me s.lock.writeLocks = write at *
  cases hfits with
  | waitingToRead => exact .waitingToRead
  | mayRead => exact .reader 1 (by decide)
  | waitingToWrite => exact .waitingToWrite
  | mayWrite => exact .writer 0 1 (by decide)
  | _ => exact absurd rfl hphase

end Waiting

section Runs

variable {s : System Task}

lemma keeps (hI : Inv s) (a : Action Task) (h : Permitted s a) : Keeps s a := by
  obtain ⟨me, call⟩ := a
  cases call with
  | lockForReading => exact keeps_lockForReading hI h
  | conditionalLockForReading => exact keeps_conditionalLockForReading hI h
  | releaseReader => exact keeps_releaseReader hI h
  | lockForWriting => exact keeps_lockForWriting hI h
  | conditionalLockForWriting => exact keeps_conditionalLockForWriting hI me
  | releaseWriter => exact keeps_releaseWriter hI h
  | downgradeWriter => exact keeps_downgradeWriter hI h
  | take => exact keeps_take hI h

lemma inv_step (s : System Task) (a : Action Task) (hI : Inv s) (h : Permitted s a) :
    Inv (step s a) := by
  obtain ⟨s', hs', hI', -⟩ := keeps hI a h
  rwa [step, hs', Option.getD_some]

lemma inTurn_step (s : System Task) (a : Action Task) (hI : Inv s) (h : Permitted s a) :
    InTurn s.lock.writeLocks (step s a).lock.writeLocks := by
  obtain ⟨s', hs', -, hturn⟩ := keeps hI a h
  rwa [step, hs', Option.getD_some]

lemma inv_unlocked : Inv (unlocked : System Task) :=
  ⟨List.nodup_nil, List.nodup_nil, fun _ => (Option.some_ne_none 0).symm, fun _ => .idle⟩

/-- At most one task has the write lock, and then no other task reads. A writer that waits at the
head of the queue waits for a reader or has been notified, and so has every task whose request is
granted. -/
structure Safe (s : System Task) : Prop where
  exclusive : ∀ t u, (s.caller t).writes ≠ 0 → u ≠ t →
    (s.caller u).reads = 0 ∧ (s.caller u).writes = 0
  noReader : ∀ w ∈ s.lock.writeLocks.head?, w.count ≠ 0 → ∀ r ∈ s.lock.readLocks,
    r.owner ≠ w.owner → r.count = 0
  waits : ∀ w ∈ s.lock.writeLocks.head?, (s.caller w.owner).phase = .waitingToWrite →
    (s.caller w.owner).notified ≠ 0 ∨
      ∃ r ∈ s.lock.readLocks, r.owner ≠ w.owner ∧ r.count ≠ 0
  notified : ∀ t, (s.caller t).phase = .waitingToRead ∧ (countOf t s.lock.readLocks).getD 0 ≠ 0 ∨
    (s.caller t).phase = .waitingToWrite ∧ (countOf t s.lock.writeLocks).getD 0 ≠ 0 →
      (s.caller t).notified ≠ 0

lemma Inv.writing (hI : Inv s) {t : Task} (h : (s.caller t).writes ≠ 0) :
    ∃ c, c ≠ 0 ∧ countOf t s.lock.writeLocks = some c := by
  have hfits := hI.fits t
  generalize s.caller t = caller, countOf t s.lock.readLocks = read,
    countOf t s.lock.writeLocks = write at *
  cases hfits with
  | writer reads c hc => exact ⟨c, hc, rfl⟩
  | _ => exact absurd rfl h

/-- A task that neither reads nor writes in the records does not do so in its own view. -/
lemma Inv.resting (hI : Inv s) {t : Task} (hr : (countOf t s.lock.readLocks).getD 0 = 0)
    (hw : (countOf t s.lock.writeLocks).getD 0 = 0) :
    (s.caller t).reads = 0 ∧ (s.caller t).writes = 0 := by
  have hfits := hI.fits t
  generalize s.caller t = caller, countOf t s.lock.readLocks = read,
    countOf t s.lock.writeLocks = write at *
  cases hfits with
  | reader c hc => exact absurd hr hc
  | writer reads c hc => exact absurd hw hc
  | _ => exact ⟨rfl, rfl⟩

lemma Inv.safe (hI : Inv s) : Safe s where
  exclusive := by
    intro t u hw hu
    obtain ⟨c, hc, hwrite⟩ := hI.writing hw
    obtain ⟨ws, hws, hrest, hread⟩ := hI.head hwrite hc
    refine hI.resting (hread u) ?_
    rw [hws, countOf_cons_other hu]
    cases h : countOf u ws with
    | none => rfl
    | some c => exact hrest _ (mem_of_countOf h)
  noReader := by
    intro w hw hc r hr _
    have hqueue := hI.queue
    obtain ⟨ws, hws⟩ := List.head?_eq_some_iff.mp hw
    rw [hws] at hqueue
    simpa [countOf_of_mem hI.readers hr] using hqueue.2.1 hc r.owner
  waits := by
    intro w hw hphase
    have hqueue := hI.queue
    have hfits := hI.fits w.owner
    obtain ⟨ws, hws⟩ := List.head?_eq_some_iff.mp hw
    rw [hws] at hqueue hfits
    rw [countOf_cons, if_pos rfl] at hfits
    by_cases hc : w.count = 0
    · obtain ⟨t, ht⟩ := hqueue.2.2 hc
      obtain ⟨c, hread⟩ : ∃ c, countOf t s.lock.readLocks = some c := by
        apply Option.ne_none_iff_exists'.mp
        intro hnone
        simp [hnone] at ht
      have hne : t ≠ w.owner := by
        rintro rfl
        rw [hread] at hfits
        generalize s.caller w.owner = caller at hfits
        cases hfits
      simp only [hread, Option.getD_some] at ht
      exact .inr ⟨⟨t, c⟩, mem_of_countOf hread, hne, ht⟩
    · refine .inl ?_
      generalize s.caller w.owner = caller, countOf w.owner s.lock.readLocks = read,
        w.count = count at *
      cases hfits with
      | writer reads c hc => cases hphase
      | waitingToWrite => exact absurd rfl hc
      | mayWrite => exact one_ne_zero
  notified := by
    intro t h
    have hfits := hI.fits t
    generalize s.caller t = caller, countOf t s.lock.readLocks = read,
      countOf t s.lock.writeLocks = write at *
    cases hfits with
    | mayRead => exact one_ne_zero
    | mayWrite => exact one_ne_zero
    | _ => simp at h

def joins (s : System Task) (a : Action Task) : List Task :=
  joining s.lock.writeLocks (step s a).lock.writeLocks

def starts (s : System Task) (a : Action Task) : List Task :=
  starting s.lock.writeLocks (step s a).lock.writeLocks

/-- What the lock owes its callers over a run: it is safe in every state, no assertion fails, and
the writers get it in the order in which they ask for it. -/
def Serves (as : List (Action Task)) : Prop :=
  Always step Safe unlocked as ∧
    Along step (fun s a => (exec s a).isSome) unlocked as ∧
      collect step joins unlocked as = collect step starts unlocked as ++
        waitingWriters (run step unlocked as).lock.writeLocks

lemma serves_of_permitted {as : List (Action Task)} (h : Along step Permitted unlocked as) :
    Serves as := by
  refine ⟨fun bs hp => ?_, ?_, ?_⟩
  · exact (run_invariant inv_unlocked inv_step (h.upTo hp)).safe
  · refine h.of_invariant inv_unlocked inv_step fun s a hI hp => ?_
    obtain ⟨s', hs', -⟩ := keeps hI a hp
    rw [hs']
    rfl
  · exact h.fifo (q := fun s => waitingWriters s.lock.writeLocks) inv_unlocked inv_step
      inTurn_step

end Runs

section Documented

variable {s : System Task} {me : Task}

/-- Write locks are not recursive. -/
def Once (s : System Task) : Prop := ∀ t, (s.caller t).writes ≤ 1

lemma once_update {caller : Task → Caller} (h : ∀ t, (caller t).writes ≤ 1) {c : Caller}
    (hc : c.writes ≤ 1) (t : Task) : (update caller me c t).writes ≤ 1 := by
  by_cases ht : t = me
  · rw [ht, update_self]
    exact hc
  · rw [update_of_ne ht]
    exact h t

omit [DecidableEq Task] in
lemma permitted_of_documented {a : Action Task} (honce : Once s) (h : Documented s a)
    (hscoped : Scoped s a) : Permitted s a := by
  obtain ⟨me, call⟩ := a
  cases call with
  | lockForReading => exact ⟨h, or_iff_not_imp_left.mpr fun hw => hscoped (not_not.mp hw)⟩
  | conditionalLockForReading =>
    exact ⟨h, or_iff_not_imp_left.mpr fun hw => hscoped (not_not.mp hw)⟩
  | releaseReader => exact h
  | lockForWriting =>
    obtain ⟨hrunning, hr, hw⟩ := h
    exact ⟨hrunning, by rw [hw]; decide, .inr hr⟩
  | conditionalLockForWriting => exact ⟨h, trivial⟩
  | releaseWriter => exact ⟨h.1, h.2, fun _ => hscoped⟩
  | downgradeWriter =>
    exact ⟨h.1, le_antisymm (honce me) (Nat.one_le_iff_ne_zero.mpr h.2), hscoped⟩
  | take => exact h

lemma Inv.no_writes (hI : Inv s) (h : countOf me s.lock.writeLocks = none) :
    (s.caller me).writes = 0 := by
  have hfits := hI.fits me
  rw [h] at hfits
  generalize s.caller me = caller, countOf me s.lock.readLocks = read at hfits
  cases hfits <;> rfl

omit [DecidableEq Task] in
lemma empty_of_acquired {l : ReadWriteLock Task} (h : (conditionalLockForWriting me l).2 = true) :
    l.writeLocks = [] := by
  simp only [conditionalLockForWriting] at h
  split_ifs at h with hempty
  exact List.isEmpty_iff.mp (Bool.and_eq_true_iff.mp hempty).1

lemma once_take (h : (s.caller me).writes ≤ 1) : (take me s (s.caller me)).writes ≤ 1 := by
  have hwake : ∀ count reads writes, writes ≤ 1 →
      (wakeUp (s.caller me) count reads writes).writes ≤ 1 := by
    intro count reads writes hw
    rw [wakeUp]
    split_ifs
    · exact h
    · exact hw
  simp only [take]
  split_ifs
  · exact h
  · cases (s.caller me).phase with
    | running => exact h
    | waitingToRead => exact hwake _ _ _ (Nat.zero_le _)
    | waitingToWrite => exact hwake _ _ _ le_rfl

/-- Only a task without a write lock gets one. -/
lemma once_step (s : System Task) (a : Action Task) (hI : Inv s) (honce : Once s)
    (h : Documented s a) (hp : Permitted s a) : Once (step s a) := by
  obtain ⟨s', hs', -⟩ := keeps hI a hp
  rw [step, hs', Option.getD_some]
  obtain ⟨me, call⟩ := a
  cases call with
  | lockForReading =>
    cases hs'
    exact once_update honce (by split_ifs <;> exact honce me)
  | conditionalLockForReading =>
    cases hs'
    exact once_update honce (by split_ifs <;> exact honce me)
  | releaseReader =>
    obtain ⟨r, -, rfl⟩ := Option.map_eq_some_iff.mp hs'
    exact once_update honce (honce me)
  | lockForWriting =>
    obtain ⟨r, -, rfl⟩ := Option.map_eq_some_iff.mp hs'
    obtain ⟨-, -, hw⟩ := h
    exact once_update honce (by split_ifs <;> simp [hw])
  | conditionalLockForWriting =>
    cases hs'
    refine once_update honce ?_
    split_ifs with hacquired
    · have hnone : countOf me s.lock.writeLocks = none := by
        rw [empty_of_acquired hacquired]
        rfl
      simp [hI.no_writes hnone]
    · exact honce me
  | releaseWriter =>
    obtain ⟨r, -, rfl⟩ := Option.map_eq_some_iff.mp hs'
    exact once_update honce ((Nat.sub_le _ _).trans (honce me))
  | downgradeWriter =>
    obtain ⟨r, -, rfl⟩ := Option.map_eq_some_iff.mp hs'
    exact once_update honce ((Nat.sub_le _ _).trans (honce me))
  | take =>
    cases hs'
    exact once_update honce (once_take (honce me))

/-- Where all tasks follow the rules, and give up a write lock only after the read locks that they
took under it, the lock serves them. -/
theorem scoped_serves (as : List (Action Task)) (h : Along step Documented unlocked as)
    (hscoped : Along step Scoped unlocked as) : Serves as := by
  refine serves_of_permitted ((h.and hscoped).of_invariant (P := fun s => Inv s ∧ Once s)
    ⟨inv_unlocked, fun _ => Nat.zero_le _⟩ ?_ fun s a hk hp => ?_)
  · intro s a hk hp
    have hpermitted := permitted_of_documented hk.2 hp.1 hp.2
    exact ⟨inv_step s a hk.1 hpermitted, once_step s a hk.1 hk.2 hp.1 hpermitted⟩
  · exact permitted_of_documented hk.2 hp.1 hp.2

/-- A reader, a writer that waits for it, and a reader behind the writer that asks again under the
write lock that it then gets. -/
theorem scoped_serves_queue : Serves [((0 : ℕ), .lockForReading), (1, .lockForWriting),
    (2, .lockForReading), (3, .lockForWriting), (0, .lockForReading), (0, .releaseReader),
    (0, .releaseReader), (1, .take), (1, .lockForReading), (1, .releaseReader),
    (1, .downgradeWriter), (2, .take), (1, .releaseReader), (2, .releaseReader), (3, .take),
    (3, .releaseWriter)] :=
  scoped_serves _ (by decide +kernel) (by decide +kernel)

/-- The rules allow a task to downgrade while it still has a read lock that it took as the writer.
The lock does not know of this read lock, and its release fails an assertion. -/
theorem unscoped_downgrade_asserts :
    ¬ ∀ as : List (Action ℕ), Along step Documented unlocked as → Serves as := by
  intro h
  have hserves := h [(0, .lockForWriting), (0, .lockForReading), (0, .downgradeWriter),
    (0, .releaseReader), (0, .releaseReader)] (by decide +kernel)
  exact absurd hserves.2.1 (by decide +kernel)

end Documented

end RepRapFirmware.RRFLibraries.LockSafety
