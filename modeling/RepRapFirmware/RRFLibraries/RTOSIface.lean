import RepRapFirmware.Library.Runs

/-! The lock that lets many tasks read or one task write. Each function is one critical section: it
returns the lock it leaves behind, and none where an assertion fails. A task that has to wait then
takes notifications until its record has a count. -/

namespace RepRapFirmware.RRFLibraries.RTOSIface

open Function

/-- A count of 0 is a request. -/
structure LockRecord (Task : Type*) where
  owner : Task
  count : UInt32

structure ReadWriteLock (Task : Type*) where
  readLocks : List (LockRecord Task)
  writeLocks : List (LockRecord Task)

variable {Task : Type*} [DecidableEq Task] (me : Task)

section Lists

def increment : List (LockRecord Task) → Option (List (LockRecord Task))
  | [] => none
  | r :: rs =>
    if r.owner = me then some ({ r with count := r.count + 1 } :: rs)
    else (increment rs).map (r :: ·)

/-- The loop of `ReleaseReader`: the records it leaves, whether it found the caller's own, and
whether it saw a read lock that remains. -/
def releaseRecord : List (LockRecord Task) → Bool → Bool → List (LockRecord Task) × Bool × Bool
  | [], foundOwnRecord, hasRemainingReadLocks => ([], foundOwnRecord, hasRemainingReadLocks)
  | rl :: rs, foundOwnRecord, hasRemainingReadLocks =>
    if rl.owner = me then
      if rl.count - 1 = 0 then
        if hasRemainingReadLocks then (rs, true, true)
        else releaseRecord rs true hasRemainingReadLocks
      else ({ rl with count := rl.count - 1 } :: rs, true, true)
    else
      let (kept, found, remaining) :=
        releaseRecord rs foundOwnRecord (hasRemainingReadLocks || rl.count != 0)
      (rl :: kept, found, remaining)

/-- Every request for a read lock is granted. -/
def wakeReaders (rs : List (LockRecord Task)) : List (LockRecord Task) × List Task :=
  (rs.map fun rl => if rl.count = 0 then { rl with count := rl.count + 1 } else rl,
    (rs.filter fun rl => rl.count = 0).map LockRecord.owner)

end Lists

section Functions

variable (l : ReadWriteLock Task)

/-- The first writer is the caller. -/
def ownsWriteLock : Bool := l.writeLocks.head?.any fun wl => wl.owner = me

/-- The second component tells whether the caller has the lock or must wait for it. -/
def lockForReading : ReadWriteLock Task × Bool :=
  if ownsWriteLock me l then (l, true)
  else match increment me l.readLocks with
    | some rs => ({ l with readLocks := rs }, true)
    | none =>
      if l.writeLocks.isEmpty then ({ l with readLocks := ⟨me, 0 + 1⟩ :: l.readLocks }, true)
      else ({ l with readLocks := ⟨me, 0⟩ :: l.readLocks }, false)

def conditionalLockForReading : ReadWriteLock Task × Bool :=
  if ownsWriteLock me l then (l, true)
  else match increment me l.readLocks with
    | some rs => ({ l with readLocks := rs }, true)
    | none =>
      if l.writeLocks.isEmpty then ({ l with readLocks := ⟨me, 0 + 1⟩ :: l.readLocks }, true)
      else (l, false)

/-- The second component lists the tasks that are notified. -/
def releaseReader : Option (ReadWriteLock Task × List Task) :=
  if ownsWriteLock me l then some (l, [])
  else
    let (rs, foundOwnRecord, hasRemainingReadLocks) := releaseRecord me l.readLocks false false
    if !foundOwnRecord then none
    else if hasRemainingReadLocks then some (⟨rs, l.writeLocks⟩, [])
    else match l.writeLocks with
      | [] => some (⟨rs, []⟩, [])
      | wr :: ws =>
        if wr.count = 0 then some (⟨rs, { wr with count := wr.count + 1 } :: ws⟩, [wr.owner])
        else some (⟨rs, wr :: ws⟩, [])

def lockForWriting : Option (ReadWriteLock Task × Bool) :=
  match l.writeLocks with
  | [] =>
    if l.readLocks.isEmpty then some (⟨l.readLocks, [⟨me, 0 + 1⟩]⟩, true)
    else some (⟨l.readLocks, [⟨me, 0⟩]⟩, false)
  | wr :: ws =>
    if wr.owner = me then
      if wr.count = 0 then none
      else some (⟨l.readLocks, { wr with count := wr.count + 1 } :: ws⟩, true)
    else some (⟨l.readLocks, (wr :: ws) ++ [⟨me, 0⟩]⟩, false)

def conditionalLockForWriting : ReadWriteLock Task × Bool :=
  if l.writeLocks.isEmpty && l.readLocks.isEmpty then (⟨l.readLocks, [⟨me, 0 + 1⟩]⟩, true)
  else (l, false)

def releaseWriter : Option (ReadWriteLock Task × List Task) :=
  match l.writeLocks with
  | [] => none
  | wl :: ws =>
    if wl.owner ≠ me ∨ wl.count = 0 then none
    else if wl.count - 1 = 0 then
      match ws with
      | wl2 :: rest =>
        some (⟨l.readLocks, { wl2 with count := wl2.count + 1 } :: rest⟩, [wl2.owner])
      | [] => some (⟨(wakeReaders l.readLocks).1, []⟩, (wakeReaders l.readLocks).2)
    else some (⟨l.readLocks, { wl with count := wl.count - 1 } :: ws⟩, [])

def downgradeWriter : Option (ReadWriteLock Task × List Task) :=
  match l.writeLocks with
  | [] => none
  | wl :: ws =>
    if wl.owner ≠ me ∨ wl.count ≠ 1 then none
    else some (⟨wl :: (wakeReaders l.readLocks).1, ws⟩, (wakeReaders l.readLocks).2)

end Functions

inductive Phase
  | running | waitingToRead | waitingToWrite
  deriving DecidableEq

/-- A task as the lock's callers see it: how many read and write locks it has taken and not
released, and how often it has been notified since it last looked. -/
structure Caller where
  phase : Phase
  reads : ℕ
  writes : ℕ
  notified : ℕ

structure System (Task : Type*) where
  lock : ReadWriteLock Task
  caller : Task → Caller

inductive Call
  | lockForReading | conditionalLockForReading | releaseReader | lockForWriting
  | conditionalLockForWriting | releaseWriter | downgradeWriter
  -- One turn of the loop in which a task waits.
  | take
  deriving DecidableEq

abbrev Action (Task : Type*) := Task × Call

section System

variable (s : System Task)

def give (given : List Task) (caller : Task → Caller) : Task → Caller :=
  fun t => { caller t with notified := (caller t).notified + given.count t }

/-- The count of a task's record; nothing where it has none. -/
def countOf (t : Task) : List (LockRecord Task) → Option UInt32
  | [] => none
  | r :: rs => if r.owner = t then some r.count else countOf t rs

/-- The caller after one turn of the waiting loop that ends with the record's count as it is. -/
def wakeUp (c : Caller) (count : Option UInt32) (reads writes : ℕ) : Caller :=
  if count.getD 0 = 0 then { c with notified := 0 } else ⟨.running, reads, writes, 0⟩

def take (c : Caller) : Caller :=
  if c.notified = 0 then c
  else match c.phase with
    | .running => { c with notified := 0 }
    | .waitingToRead => wakeUp c (countOf me s.lock.readLocks) 1 0
    | .waitingToWrite => wakeUp c (countOf me s.lock.writeLocks) 0 1

def exec : Action Task → Option (System Task)
  | (me, .lockForReading) =>
    let (l, acquired) := lockForReading me s.lock
    let c := s.caller me
    some ⟨l, update s.caller me
      (if acquired then { c with reads := c.reads + 1 } else { c with phase := .waitingToRead })⟩
  | (me, .conditionalLockForReading) =>
    let (l, acquired) := conditionalLockForReading me s.lock
    let c := s.caller me
    some ⟨l, update s.caller me (if acquired then { c with reads := c.reads + 1 } else c)⟩
  | (me, .releaseReader) =>
    (releaseReader me s.lock).map fun (l, given) =>
      let c := s.caller me
      ⟨l, give given (update s.caller me { c with reads := c.reads - 1 })⟩
  | (me, .lockForWriting) =>
    (lockForWriting me s.lock).map fun (l, acquired) =>
      let c := s.caller me
      ⟨l, update s.caller me (if acquired then { c with writes := c.writes + 1 }
        else { c with phase := .waitingToWrite })⟩
  | (me, .conditionalLockForWriting) =>
    let (l, acquired) := conditionalLockForWriting me s.lock
    let c := s.caller me
    some ⟨l, update s.caller me (if acquired then { c with writes := c.writes + 1 } else c)⟩
  | (me, .releaseWriter) =>
    (releaseWriter me s.lock).map fun (l, given) =>
      let c := s.caller me
      ⟨l, give given (update s.caller me { c with writes := c.writes - 1 })⟩
  | (me, .downgradeWriter) =>
    (downgradeWriter me s.lock).map fun (l, given) =>
      let c := s.caller me
      ⟨l, give given (update s.caller me
        { c with writes := c.writes - 1, reads := c.reads + 1 })⟩
  | (me, .take) => some { s with caller := update s.caller me (take me s (s.caller me)) }

/-- A failed assertion stops the system. -/
def step (s : System Task) (a : Action Task) : System Task := (exec s a).getD s

/-- What the functions can serve. Beyond the documented rules they serve a task that writes and asks
for the write lock again. -/
def Permitted (s : System Task) : Action Task → Prop
  | (me, .take) => (s.caller me).phase ≠ .running
  | (me, call) => (s.caller me).phase = .running ∧ match call with
    | .lockForReading | .conditionalLockForReading =>
      (s.caller me).writes ≠ 0 ∨ (s.caller me).reads + 1 < UInt32.size
    | .releaseReader => (s.caller me).reads ≠ 0
    | .lockForWriting => (s.caller me).writes + 1 < UInt32.size ∧
        ((s.caller me).writes ≠ 0 ∨ (s.caller me).reads = 0)
    | .releaseWriter => (s.caller me).writes ≠ 0 ∧
        ((s.caller me).writes = 1 → (s.caller me).reads = 0)
    | .downgradeWriter => (s.caller me).writes = 1 ∧ (s.caller me).reads = 0
    | .conditionalLockForWriting | .take => True

/-- The rules that the header gives to the callers: a task releases what it has; read locks are
recursive and write locks are not; a task that reads does not ask for the write lock; a task that
writes may ask for a read lock and may downgrade. A task that waits makes no call. -/
def Documented (s : System Task) : Action Task → Prop
  | (me, .take) => (s.caller me).phase ≠ .running
  | (me, .lockForReading) | (me, .conditionalLockForReading)
  | (me, .conditionalLockForWriting) => (s.caller me).phase = .running
  | (me, .releaseReader) => (s.caller me).phase = .running ∧ (s.caller me).reads ≠ 0
  | (me, .lockForWriting) =>
    (s.caller me).phase = .running ∧ (s.caller me).reads = 0 ∧ (s.caller me).writes = 0
  | (me, .releaseWriter) | (me, .downgradeWriter) =>
    (s.caller me).phase = .running ∧ (s.caller me).writes ≠ 0

instance (s : System Task) : ∀ a, Decidable (Documented s a)
  | (me, .take) => inferInstanceAs (Decidable ((s.caller me).phase ≠ .running))
  | (me, .lockForReading) | (me, .conditionalLockForReading)
  | (me, .conditionalLockForWriting) => inferInstanceAs (Decidable ((s.caller me).phase = .running))
  | (me, .releaseReader) =>
    inferInstanceAs (Decidable ((s.caller me).phase = .running ∧ (s.caller me).reads ≠ 0))
  | (me, .lockForWriting) => inferInstanceAs (Decidable
    ((s.caller me).phase = .running ∧ (s.caller me).reads = 0 ∧ (s.caller me).writes = 0))
  | (me, .releaseWriter) | (me, .downgradeWriter) =>
    inferInstanceAs (Decidable ((s.caller me).phase = .running ∧ (s.caller me).writes ≠ 0))

/-- A task that gives up the write lock has released the read locks that it took under it, and the
count of a read lock does not overflow. -/
def Scoped (s : System Task) (a : Action Task) : Prop :=
  match a.2 with
  | .lockForReading | .conditionalLockForReading =>
    (s.caller a.1).writes = 0 → (s.caller a.1).reads + 1 < UInt32.size
  | .releaseWriter | .downgradeWriter => (s.caller a.1).reads = 0
  | _ => True

instance (s : System Task) : ∀ a, Decidable (Scoped s a)
  | (me, .lockForReading) | (me, .conditionalLockForReading) => inferInstanceAs
    (Decidable ((s.caller me).writes = 0 → (s.caller me).reads + 1 < UInt32.size))
  | (me, .releaseWriter) | (me, .downgradeWriter) =>
    inferInstanceAs (Decidable ((s.caller me).reads = 0))
  | (_, .releaseReader) | (_, .lockForWriting) | (_, .conditionalLockForWriting) | (_, .take) =>
    isTrue trivial

/-- No task has asked for the lock. -/
def unlocked : System Task := ⟨⟨[], []⟩, fun _ => ⟨.running, 0, 0, 0⟩⟩

end System

end RepRapFirmware.RRFLibraries.RTOSIface
