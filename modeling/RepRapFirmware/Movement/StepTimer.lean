import RepRapFirmware.Library.LinkedList
import RepRapFirmware.Library.Runs
import RepRapFirmware.Library.Ticks

/-! Software timers on one compare interrupt. The steps are the calls of tasks and of callbacks,
the interrupt, the return of a callback and the passing of time. Movement and clock offsets only
change the times that are asked for, and are left out with the parameters of the callbacks. -/

namespace RepRapFirmware.Movement

structure StepTimer where
  whenDue : UInt32
  active : Bool

namespace StepTimer

open Library.LinkedList Library.Runs Library.Ticks

def stepClockRate : ℤ := 750000

def minInterruptInterval : ℤ := (6 * stepClockRate) / 1000000

/-- `compare` is the time of the compare interrupt, where it is enabled, and `matched` says that the
clock has reached it. `serving` has the `nextTimer` of `Interrupt` while a callback runs. `calls` is
history: the timers whose callbacks were run, with how far ahead their due time was. -/
structure State (τ : Type*) where
  timers : τ → StepTimer
  links : Links τ
  clock : UInt32
  compare : Option UInt32
  matched : Bool
  serving : Option (Option τ)
  calls : List (τ × ℤ)

variable {τ : Type*} [DecidableEq τ] [Fintype τ]

namespace State

def pendingList (s : State τ) : Option τ := s.links.head

def whenDue (s : State τ) (x : τ) : UInt32 := (s.timers x).whenDue

/-- How far ahead the due time of the timer is. -/
def due (s : State τ) (x : τ) : ℤ := signedDiff (s.whenDue x) s.clock

def setActive (s : State τ) (x : τ) (active : Bool) : State τ :=
  { s with timers := Function.update s.timers x { s.timers x with active := active } }

def setWhenDue (s : State τ) (x : τ) (when : UInt32) : State τ :=
  { s with timers := Function.update s.timers x { s.timers x with whenDue := when } }

def elapse (s : State τ) (d : ℕ) : State τ :=
  { s with
    clock := s.clock + UInt32.ofNat d
    matched := s.matched || s.compare.any fun c => (c - s.clock).toNat ≤ d }

end State

def scheduleTimerInterrupt (s : State τ) (tim : UInt32) : State τ × Bool :=
  if signedDiff tim s.clock < minInterruptInterval then (s, true)
  else ({ s with compare := some tim, matched := false }, false)

def cancelCallbackFromIsr (s : State τ) (x : τ) : State τ :=
  ({ s with links := Links.unlink x (Fintype.card τ) s.links none }).setActive x false

/-- Puts the timer at the head of the list, unless it is due already. -/
def scheduleFirst (s : State τ) (x : τ) : State τ × Bool :=
  match scheduleTimerInterrupt s (s.whenDue x) with
  | (s, true) => (s, true)
  | (s, false) => (({ s with links := s.links.push x }).setActive x true, false)

/-- `delay` is the time between the two readings of the clock. -/
def insertTimer (s : State τ) (x : τ) (delay : ℕ) : State τ × Bool :=
  match s.pendingList with
  | none => scheduleFirst s x
  | some tmr =>
    let howSoon := s.due x
    if howSoon < s.due tmr then scheduleFirst (s.elapse delay) x
    else
      let tmr := Links.findPlace (fun t => s.due t < howSoon) s.links (Fintype.card τ) tmr
      (({ s with links := s.links.insertAfter x tmr }).setActive x true, false)

def scheduleCallbackFromIsr (s : State τ) (x : τ) (delay : ℕ) : State τ × Bool :=
  insertTimer (if (s.timers x).active then cancelCallbackFromIsr s x else s) x delay

/-- Takes the first timer off the list and starts its callback. -/
def runCallback (s : State τ) (tmr : τ) : State τ :=
  let nextTimer := s.links.next tmr
  ({ s with
      links := { s.links with head := nextTimer }
      serving := some nextTimer
      calls := (tmr, s.due tmr) :: s.calls }).setActive tmr false

/-- The compare interrupt: it is disabled and the first callback starts. -/
def interrupt (s : State τ) : State τ :=
  let s := { s with compare := none }
  match s.pendingList with
  | none => s
  | some tmr => runCallback s tmr

/-- The loop of the interrupt goes on when a callback has returned. -/
def callbackReturns (s : State τ) (nextTimer : Option τ) : State τ :=
  match s.pendingList with
  | none => { s with serving := none }
  | some tmr =>
    if some tmr ≠ nextTimer then { s with serving := none }
    else
      match scheduleTimerInterrupt s (s.whenDue tmr) with
      | (s, false) => { s with serving := none }
      | (s, true) => runCallback s tmr

inductive Event (τ : Type*)
  | scheduleCallback (x : τ) (when : UInt32) (delay : ℕ)
  | scheduleAgain (x : τ) (delay : ℕ)
  | cancelCallback (x : τ)
  | interrupt
  | callbackReturns
  | elapse (d : ℕ)

/-- Scheduling and cancelling are for tasks and for the callback that is running. The interrupt is
taken when it is enabled and its time has been reached. -/
def step (s : State τ) : Event τ → State τ
  | .scheduleCallback x when delay => (scheduleCallbackFromIsr (s.setWhenDue x when) x delay).1
  | .scheduleAgain x delay => (scheduleCallbackFromIsr s x delay).1
  | .cancelCallback x => cancelCallbackFromIsr s x
  | .interrupt =>
    if s.serving = none ∧ s.compare.isSome ∧ s.matched then interrupt s else s
  | .callbackReturns =>
    match s.serving with
    | none => s
    | some nextTimer => callbackReturns s nextTimer
  | .elapse d => s.elapse d

def start : State τ where
  timers := fun _ => ⟨0, false⟩
  links := ⟨none, fun _ => none⟩
  clock := 0
  compare := none
  matched := false
  serving := none
  calls := []

/-! ### What is promised, and when -/

/-- The pending list is in order and matches the active flags, the compare interrupt is set for its
head unless an interrupt is being served, and no callback was early. -/
structure Sound (s : State τ) : Prop where
  pending : ∃ l, Chain s.links.next s.pendingList l ∧ l.Nodup ∧
    l.Pairwise (fun x y => s.due x ≤ s.due y) ∧ ∀ x, x ∈ l ↔ (s.timers x).active = true
  armed : ∀ tmr, s.pendingList = some tmr → s.serving = none →
    ∃ c, s.compare = some c ∧ signedDiff c s.clock ≤ s.due tmr
  notEarly : ∀ call ∈ s.calls, call.2 < minInterruptInterval

/-- Taking the timer out leaves another one at the head, which is not the one that the interrupt
being served deals with next. -/
def Uncovers (s : State τ) (x : τ) : Prop :=
  s.pendingList = some x ∧ ∃ y, s.links.next x = some y ∧ s.serving ≠ some (some y)

/-- The head of the list with `x` out of it. -/
def headWithout (s : State τ) (x : τ) : Option τ :=
  if s.pendingList = some x then s.links.next x else s.pendingList

/-- Where `x` becomes the first of several timers, the difference of its time does not wrap between
the two readings of the clock. Where it leaves another timer at the head, it comes back there. -/
def MaySchedule (s : State τ) (x : τ) (when : UInt32) (delay : ℕ) : Prop :=
  ∀ y, headWithout s x = some y →
    (signedDiff when s.clock < s.due y → -2 ^ 31 ≤ signedDiff when s.clock - delay) ∧
    (Uncovers s x → signedDiff when s.clock < s.due y ∧
      minInterruptInterval ≤ signedDiff when s.clock - delay)

def Careful (s : State τ) : Event τ → Prop
  | .scheduleCallback x when delay => MaySchedule s x when delay
  | .scheduleAgain x delay => MaySchedule s x (s.whenDue x) delay
  | .cancelCallback x => ¬ Uncovers s x
  | .elapse d => ∀ tmr, s.pendingList = some tmr → -2 ^ 31 ≤ s.due tmr - d
  | _ => True

instance (s : State τ) (x : τ) : Decidable (Uncovers s x) := inferInstanceAs (Decidable (_ ∧ _))

instance (s : State τ) (x : τ) (when : UInt32) (delay : ℕ) :
    Decidable (MaySchedule s x when delay) := inferInstanceAs (Decidable (∀ _, _))

instance (s : State τ) : ∀ e, Decidable (Careful s e)
  | .scheduleCallback x when delay => inferInstanceAs (Decidable (MaySchedule s x when delay))
  | .scheduleAgain x delay => inferInstanceAs (Decidable (MaySchedule s x (s.whenDue x) delay))
  | .cancelCallback x => inferInstanceAs (Decidable (¬ Uncovers s x))
  | .elapse d => inferInstanceAs (Decidable (∀ tmr, _ → -2 ^ 31 ≤ s.due tmr - d))
  | .interrupt | .callbackReturns => isTrue trivial

end StepTimer

end RepRapFirmware.Movement
