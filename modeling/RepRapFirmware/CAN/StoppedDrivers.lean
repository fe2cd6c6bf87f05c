import RepRapFirmware.Library.Runs

/-! Stopping and reverting the drivers of CAN-connected boards in a move that checks endstops. The
step ISR can come between any two drivers that `GetUrgentMessage` looks at. -/

namespace RepRapFirmware.CAN.CanMotion

open Library.Runs

inductive DriverStopState
  | inactive | active | stopRequested | stopSent
  deriving DecidableEq

/-- The drivers that `whichDrives` names, the first that was found last, and for a reversion their
final step counts. -/
inductive Message
  | stopMovement (boardAddress : ℕ) (whichDrives : List ℕ)
  | revertPosition (boardAddress : ℕ) (whichDrives : List (ℕ × ℤ))

/-- A call of `GetUrgentMessage` in progress. `boards` are those left of the list, the one that is
being looked at first. -/
structure Scan where
  revertingAll : Bool
  boards : List ℕ
  driver : ℕ
  driversToStop : List ℕ
  driversToRevert : List (ℕ × ℤ)

/-- There is one item of the stop list for each board. `sent` and `requests` are history: what was
sent, and the requests that were accepted. -/
structure State where
  stopStates : ℕ → ℕ → DriverStopState
  stopSteps : ℕ → ℕ → ℤ
  sentRevertRequest : ℕ → Bool
  revertAll : Bool
  revertedAll : Bool
  whenRevertedAll : UInt32
  scan : Option Scan
  sent : List Message
  requests : List (ℕ × ℕ × ℤ)

def totalDriverPositionRevertMillis : UInt32 := 50

/-- The stop list that `FinishMovement` has made. -/
structure StopList where
  boards : List ℕ
  numDrivers : ℕ → ℕ

def set {α : Type*} (f : ℕ → ℕ → α) (a d : ℕ) (x : α) : ℕ → ℕ → α :=
  fun a' d' => if a' = a ∧ d' = d then x else f a' d'

section
variable (l : StopList)

def start (moves : ℕ → ℕ → Bool) : State where
  stopStates a d := if moves a d then .active else .inactive
  stopSteps _ _ := 0
  sentRevertRequest _ := false
  revertAll := false
  revertedAll := false
  whenRevertedAll := 0
  scan := none
  sent := []
  requests := []

def stopDriverWhenExecuting (s : State) (a d : ℕ) (netStepsTaken : ℤ) : State × Bool :=
  if a ∈ l.boards ∧ d < l.numDrivers a ∧ s.stopStates a d = .active then
    ({ s with
      stopSteps := set s.stopSteps a d netStepsTaken
      stopStates := set s.stopStates a d .stopRequested
      requests := s.requests ++ [(a, d, netStepsTaken)] }, true)
  else (s, false)

def revertStoppedDrivers (s : State) (now : UInt32) : State × Bool :=
  if !s.revertAll && !s.revertedAll then ({ s with revertAll := true }, false)
  else (s, !s.revertAll ||
    (s.revertedAll && decide (totalDriverPositionRevertMillis ≤ now - s.whenRevertedAll)))

def getUrgentMessage (s : State) : State :=
  if s.revertedAll then s else { s with scan := some ⟨s.revertAll, l.boards, 0, [], []⟩ }

/-- The next driver of the board. -/
def visitDriver (s : State) (c : Scan) (a : ℕ) : State :=
  let next := { c with driver := c.driver + 1 }
  if s.stopStates a c.driver = .stopRequested then
    { s with
      stopStates := set s.stopStates a c.driver .stopSent
      scan := some { next with driversToStop := c.driver :: c.driversToStop } }
  else if c.revertingAll ∧ s.stopStates a c.driver = .stopSent then
    { s with scan := some { next with
      driversToRevert := (c.driver, s.stopSteps a c.driver) :: c.driversToRevert } }
  else { s with scan := some next }

/-- All drivers of the board have been looked at. Stop messages take priority over revert
messages. -/
def finishBoard (s : State) (c : Scan) (a : ℕ) (boards : List ℕ) : State :=
  if c.driversToStop ≠ [] then
    { s with scan := none, sent := s.sent ++ [.stopMovement a c.driversToStop] }
  else if c.driversToRevert ≠ [] then
    { s with
      sentRevertRequest := fun a' => if a' = a then true else s.sentRevertRequest a'
      scan := none
      sent := s.sent ++ [.revertPosition a c.driversToRevert] }
  else { s with scan := some ⟨c.revertingAll, boards, 0, [], []⟩ }

def advance (s : State) (c : Scan) (now : UInt32) : State :=
  match c.boards with
  | [] =>
    -- We found nothing to send.
    if c.revertingAll then { s with scan := none, whenRevertedAll := now, revertedAll := true }
    else { s with scan := none }
  | a :: boards =>
    if s.sentRevertRequest a then { s with scan := some ⟨c.revertingAll, boards, 0, [], []⟩ }
    else if c.driver < l.numDrivers a then visitDriver s c a
    else finishBoard s c a boards

inductive Event
  | stopDriver (a d : ℕ) (netStepsTaken : ℤ)
  | revertStopped (now : UInt32)
  | sender (now : UInt32)

/-- The sender task starts a call or goes on with the one in progress. -/
def step (s : State) : Event → State
  | .stopDriver a d k => (stopDriverWhenExecuting l s a d k).1
  | .revertStopped now => (revertStoppedDrivers s now).1
  | .sender now => s.scan.elim (getUrgentMessage l s) (advance l s · now)

end

/-- What a driver is told. -/
inductive Order
  | stop | revert (finalStepCount : ℤ)
  deriving DecidableEq

def stopOrders (d : ℕ) (ds : List ℕ) : List Order :=
  ds.filterMap fun d' => if d' = d then some .stop else none

def revertOrders (d : ℕ) (ds : List (ℕ × ℤ)) : List Order :=
  ds.filterMap fun x => if x.1 = d then some (.revert x.2) else none

def ordersOf (a d : ℕ) : Message → List Order
  | .stopMovement a' ds => if a' = a then stopOrders d ds else []
  | .revertPosition a' ds => if a' = a then revertOrders d ds else []

def orders (s : State) (a d : ℕ) : List Order := s.sent.flatMap (ordersOf a d)

/-- The step counts of the requests for a driver that were accepted. -/
def requested (s : State) (a d : ℕ) : List ℤ :=
  s.requests.filterMap fun x => if x.1 = a ∧ x.2.1 = d then some x.2.2 else none

section Invariant
variable {l : StopList} {s : State} {c : Scan} {a d : ℕ}

/-- The stop that a call in progress has noted down but not sent. -/
def pending (s : State) (a d : ℕ) : List Order :=
  s.scan.elim [] fun c => if c.boards.head? = some a then stopOrders d c.driversToStop else []

/-- Every driver of the board that was stopped has been reverted as well. -/
def Reverted (s : State) (a : ℕ) : Prop :=
  ∀ d, s.stopStates a d ≠ .stopRequested ∧
    (s.stopStates a d = .stopSent → s.sentRevertRequest a = true)

/-- What the call in progress has found on its board so far. -/
structure Found (s : State) (c : Scan) (a : ℕ) : Prop where
  stops : ∀ d ∈ c.driversToStop, d < c.driver
  reverts : ∀ d, revertOrders d c.driversToRevert =
    if c.revertingAll ∧ d < c.driver ∧ s.stopStates a d = .stopSent ∧ d ∉ c.driversToStop then
      [.revert (s.stopSteps a d)] else []
  requests : c.revertingAll → ∀ d < c.driver, s.stopStates a d ≠ .stopRequested
  untouched : s.sentRevertRequest a = true → c.driversToStop = []

/-- A call in progress. -/
structure Scanning (l : StopList) (s : State) (c : Scan) : Prop where
  reverting : c.revertingAll → s.revertAll
  found : ∀ a boards, c.boards = a :: boards → Found s c a
  passed : c.revertingAll → ∃ passed, l.boards = passed ++ c.boards ∧ ∀ a ∈ passed, Reverted s a

structure Tracked (l : StopList) (s : State) : Prop where
  orders : ∀ a d, orders s a d ++ pending s a d =
    if s.stopStates a d = .stopSent then
      .stop :: (if s.sentRevertRequest a then [.revert (s.stopSteps a d)] else [])
    else []
  requests : ∀ a d, requested s a d =
    if s.stopStates a d = .stopRequested ∨ s.stopStates a d = .stopSent then [s.stopSteps a d]
    else []
  drivers : ∀ a d, s.stopStates a d = .stopRequested ∨ s.stopStates a d = .stopSent →
    a ∈ l.boards ∧ d < l.numDrivers a
  reverting : ∀ a, s.sentRevertRequest a → s.revertAll ∧ ∀ d, s.stopStates a d ≠ .stopRequested
  scan : ∀ c, s.scan = some c → Scanning l s c
  reverted : s.revertedAll → s.revertAll ∧ s.scan = none ∧ ∀ a ∈ l.boards, Reverted s a

lemma start_tracked (moves : ℕ → ℕ → Bool) : Tracked l (start moves) := by
  have hstate : ∀ a d, (start moves).stopStates a d ≠ .stopRequested ∧
      (start moves).stopStates a d ≠ .stopSent := by
    intro a d
    simp only [start]
    split <;> simp
  refine ⟨fun a d => ?_, fun a d => ?_, fun a d h => ?_, nofun, nofun, nofun⟩
  · rw [if_neg (hstate a d).2]
    rfl
  · rw [if_neg (not_or.mpr (hstate a d))]
    rfl
  · exact absurd h (not_or.mpr (hstate a d))

/-- A step that changes nothing but what a call in progress has found. -/
lemma Tracked.rescan (h : Tracked l s) {scan : Option Scan}
    (hpending : ∀ a d, pending { s with scan := scan } a d = pending s a d)
    (hscan : ∀ c, scan = some c → Scanning l { s with scan := scan } c)
    (hreverted : s.revertedAll → scan = none) : Tracked l { s with scan := scan } where
  orders a d := by
    rw [hpending]
    exact h.orders a d
  requests := h.requests
  drivers := h.drivers
  reverting := h.reverting
  scan := hscan
  reverted hr := ⟨(h.reverted hr).1, hreverted hr, (h.reverted hr).2.2⟩

lemma set_same {α : Type*} (f : ℕ → ℕ → α) (x : α) : set f a d x a d = x := by simp [set]

lemma set_other {α : Type*} (f : ℕ → ℕ → α) (x : α) {a' d' : ℕ} (h : ¬ (a' = a ∧ d' = d)) :
    set f a d x a' d' = f a' d' := if_neg h

lemma Tracked.stopDriver (h : Tracked l s) (hrevert : s.revertAll = false) (k : ℤ) :
    Tracked l (stopDriverWhenExecuting l s a d k).1 := by
  rw [stopDriverWhenExecuting]
  split
  · next hactive =>
    obtain ⟨ha, hd, hactive⟩ := hactive
    have hnone : s.sentRevertRequest a ≠ true := fun hsent => by
      simp [(h.reverting a hsent).1] at hrevert
    refine ⟨fun a' d' => ?_, fun a' d' => ?_, fun a' d' hstate => ?_, fun a' hsent => ?_,
      fun c hc => ?_, fun hr => ?_⟩
    · have horders := h.orders a' d'
      by_cases hsame : a' = a ∧ d' = d
      · obtain ⟨rfl, rfl⟩ := hsame
        rw [hactive, if_neg (by decide)] at horders
        simp only [set_same]
        exact horders
      · simp only [set_other _ _ hsame]
        exact horders
    · have hrequests := h.requests a' d'
      by_cases hsame : a' = a ∧ d' = d
      · obtain ⟨rfl, rfl⟩ := hsame
        simp only [set_same]
        simpa [requested, hactive] using hrequests
      · simp only [set_other _ _ hsame]
        rw [← hrequests]
        have hne : ¬ (a = a' ∧ d = d') := fun h => hsame ⟨h.1.symm, h.2.symm⟩
        simp [requested, hne]
    · by_cases hsame : a' = a ∧ d' = d
      · obtain ⟨rfl, rfl⟩ := hsame
        exact ⟨ha, hd⟩
      · simp only [set_other _ _ hsame] at hstate
        exact h.drivers a' d' hstate
    · simp [(h.reverting a' hsent).1] at hrevert
    · obtain ⟨hreverting, hfound, -⟩ := h.scan c hc
      have hnot : ¬ c.revertingAll = true := fun hr => by simp [hreverting hr] at hrevert
      refine ⟨hreverting, fun a' boards hboards => ?_, fun hr => absurd hr hnot⟩
      obtain ⟨hstops, hreverts, -, huntouched⟩ := hfound a' boards hboards
      refine ⟨hstops, fun d' => ?_, fun hr => absurd hr hnot, huntouched⟩
      rw [hreverts, if_neg (fun h => hnot h.1), if_neg (fun h => hnot h.1)]
    · simp [(h.reverted hr).1] at hrevert
  · exact h

lemma Tracked.revertStopped (h : Tracked l s) (now : UInt32) :
    Tracked l (revertStoppedDrivers s now).1 := by
  rw [revertStoppedDrivers]
  split
  · refine ⟨h.orders, h.requests, h.drivers, fun a hsent => ⟨rfl, (h.reverting a hsent).2⟩,
      fun c hc => ?_, fun hr => ⟨rfl, (h.reverted hr).2⟩⟩
    obtain ⟨-, hfound, hpassed⟩ := h.scan c hc
    exact ⟨fun _ => rfl, fun a boards hboards => ⟨(hfound a boards hboards).stops,
      (hfound a boards hboards).reverts, (hfound a boards hboards).requests,
      (hfound a boards hboards).untouched⟩, hpassed⟩
  · exact h

lemma found_fresh {boards : List ℕ} (reverting : Bool) (a : ℕ) :
    Found s ⟨reverting, boards, 0, [], []⟩ a :=
  ⟨nofun, fun d => by simp [revertOrders], fun _ d hd => absurd hd (Nat.not_lt_zero d),
    fun _ => rfl⟩

lemma Tracked.getUrgentMessage (h : Tracked l s) (hscan : s.scan = none) :
    Tracked l (getUrgentMessage l s) := by
  rw [CanMotion.getUrgentMessage]
  split
  · exact h
  · next hreverted =>
    refine h.rescan (fun a d => by simp [pending, hscan, stopOrders]) ?_
      fun hr => absurd hr hreverted
    rintro _ ⟨⟩
    exact ⟨fun hr => hr, fun a _ _ => found_fresh _ a, fun _ => ⟨[], rfl, nofun⟩⟩

/-- The call goes on with the next board. -/
lemma Tracked.nextBoard (h : Tracked l s) {boards : List ℕ} (hscan : s.scan = some c)
    (hboards : c.boards = a :: boards) (hstops : c.driversToStop = [])
    (hreverted : c.revertingAll → Reverted s a) :
    Tracked l { s with scan := some ⟨c.revertingAll, boards, 0, [], []⟩ } := by
  obtain ⟨hreverting, -, hpassed⟩ := h.scan c hscan
  refine h.rescan (fun a d => by simp [pending, hscan, hstops, stopOrders]) ?_ fun hr => ?_
  · rintro _ ⟨⟩
    refine ⟨hreverting, fun a _ _ => found_fresh _ a, fun hr => ?_⟩
    obtain ⟨passed, hl, hpassed⟩ := hpassed hr
    refine ⟨passed ++ [a], by rw [hl, hboards, List.append_assoc]; rfl, fun a' ha' => ?_⟩
    rcases List.mem_append.mp ha' with ha' | ha'
    · exact hpassed a' ha'
    · rw [List.mem_singleton.mp ha']
      exact hreverted hr
  · rw [(h.reverted hr).2.1] at hscan
    cases hscan

lemma Scanning.visit {boards : List ℕ} (h : Scanning l s c) (hboards : c.boards = a :: boards)
    {c' : Scan} {s' : State} (hc : c'.revertingAll = c.revertingAll ∧ c'.boards = c.boards)
    (hs : s'.revertAll = s.revertAll ∧ s'.sentRevertRequest = s.sentRevertRequest)
    (hstates : ∀ a' d', s'.stopStates a' d' = s.stopStates a' d' ∨
      a' = a ∧ s'.stopStates a' d' = .stopSent ∧ s.stopStates a' d' = .stopRequested)
    (hfound : Found s' c' a) : Scanning l s' c' := by
  refine ⟨fun hr => hs.1 ▸ h.reverting (hc.1 ▸ hr), fun a' boards' hboards' => ?_, fun hr => ?_⟩
  · rw [hc.2, hboards] at hboards'
    obtain ⟨rfl, rfl⟩ := List.cons.inj hboards'
    exact hfound
  · obtain ⟨passed, hl, hpassed⟩ := h.passed (hc.1 ▸ hr)
    refine ⟨passed, hc.2 ▸ hl, fun a' ha' d' => ?_⟩
    obtain ⟨hrequest, hsent⟩ := hpassed a' ha' d'
    rcases hstates a' d' with hstate | ⟨-, -, hstate⟩
    · rw [hstate, hs.2]
      exact ⟨hrequest, hsent⟩
    · exact absurd hstate hrequest

lemma Tracked.visitDriver {boards : List ℕ} (h : Tracked l s) (hscan : s.scan = some c)
    (hboards : c.boards = a :: boards) (hsent : s.sentRevertRequest a = false) :
    Tracked l (visitDriver s c a) := by
  have hc := h.scan c hscan
  obtain ⟨hstops, hreverts, hrequests, -⟩ := hc.found a boards hboards
  have hnot : c.driver ∉ c.driversToStop := fun hmem => (hstops _ hmem).false
  have hreverted : s.revertedAll ≠ true := fun hr => by simp [(h.reverted hr).2.1] at hscan
  have hpending : ∀ {s' : State} {c' : Scan}, s'.scan = some c' → c'.boards = c.boards →
      c'.driversToStop = c.driversToStop → ∀ a d, pending s' a d = pending s a d := by
    intro s' c' hscan' hboards' hstops' a' d'
    simp only [pending, hscan, hscan', Option.elim_some, hboards', hstops']
  have hle : ∀ {d}, d ≠ c.driver → (d < c.driver + 1 ↔ d < c.driver) := fun _ => by omega
  rw [CanMotion.visitDriver]
  dsimp only
  split
  · next hstate =>
    have hother : ∀ {a' d'}, ¬ (a' = a ∧ d' = c.driver) →
        (if c.boards.head? = some a' then stopOrders d' (c.driver :: c.driversToStop) else []) =
          pending s a' d' := by
      intro a' d' hne
      simp only [pending, hscan, Option.elim_some, hboards, List.head?_cons, Option.some.injEq]
      split
      · next ha =>
        have hd : ¬ c.driver = d' := fun hd => hne ⟨ha.symm, hd.symm⟩
        simp [stopOrders, hd]
      · rfl
    refine ⟨fun a' d' => ?_, fun a' d' => ?_, fun a' d' hstate' => ?_, fun a' hsent' => ?_, ?_,
      fun hr => absurd hr hreverted⟩
    · have horders := h.orders a' d'
      by_cases hsame : a' = a ∧ d' = c.driver
      · obtain ⟨rfl, rfl⟩ := hsame
        rw [hstate, if_neg (by decide), List.append_eq_nil_iff] at horders
        have hempty : stopOrders c.driver c.driversToStop = [] := by
          have hnil := horders.2
          simpa [pending, hscan, hboards] using hnil
        have hnew : stopOrders c.driver (c.driver :: c.driversToStop) =
            .stop :: stopOrders c.driver c.driversToStop := by simp [stopOrders]
        simp only [set_same, if_true, hsent, Bool.false_eq_true, if_false]
        simp only [pending, Option.elim_some, hboards, List.head?_cons, if_true, hnew, hempty]
        exact congrArg (· ++ _) horders.1
      · simp only [set_other _ _ hsame]
        rw [← horders, ← hother hsame]
        rfl
    · have hrequests := h.requests a' d'
      by_cases hsame : a' = a ∧ d' = c.driver
      · obtain ⟨rfl, rfl⟩ := hsame
        simp only [hstate, true_or, if_true] at hrequests
        simp only [set_same, or_true, if_true]
        exact hrequests
      · simp only [set_other _ _ hsame]
        exact hrequests
    · by_cases hsame : a' = a ∧ d' = c.driver
      · obtain ⟨rfl, rfl⟩ := hsame
        exact h.drivers _ _ (.inl hstate)
      · simp only [set_other _ _ hsame] at hstate'
        exact h.drivers a' d' hstate'
    · refine ⟨(h.reverting a' hsent').1, fun d' => ?_⟩
      have hne : ¬ (a' = a ∧ d' = c.driver) := by
        rintro ⟨rfl, -⟩
        exact Bool.false_ne_true (hsent.symm.trans hsent')
      simp only [set_other _ _ hne]
      exact (h.reverting a' hsent').2 d'
    · rintro _ ⟨⟩
      refine hc.visit hboards ⟨rfl, rfl⟩ ⟨rfl, rfl⟩ (fun a' d' => ?_) ⟨?_, fun d' => ?_, ?_, ?_⟩
      · by_cases hsame : a' = a ∧ d' = c.driver
        · obtain ⟨rfl, rfl⟩ := hsame
          exact .inr ⟨rfl, set_same _ _, hstate⟩
        · exact .inl (set_other _ _ hsame)
      · simpa using fun d hd => (hstops d hd).trans c.driver.lt_succ_self
      · rw [hreverts]
        by_cases hd : d' = c.driver
        · simp [hd]
        · simp only [set_other _ _ fun h => hd h.2, hle hd, List.mem_cons, hd, false_or]
      · intro hr d' hlt
        by_cases hd : d' = c.driver
        · simp [hd, set_same]
        · simp only [set_other _ _ fun h => hd h.2]
          exact hrequests hr d' ((hle hd).mp hlt)
      · exact fun hsent' => absurd (hsent.symm.trans hsent') Bool.false_ne_true
  · next hstate =>
    have hnext : c.revertingAll → ∀ d < c.driver + 1, s.stopStates a d ≠ .stopRequested := by
      intro hr d hlt
      by_cases hd : d = c.driver
      · exact hd ▸ hstate
      · exact hrequests hr d ((hle hd).mp hlt)
    split
    · next hrevert =>
      refine h.rescan (hpending rfl rfl rfl) ?_ fun hr => absurd hr hreverted
      rintro _ ⟨⟩
      refine hc.visit hboards ⟨rfl, rfl⟩ ⟨rfl, rfl⟩ (fun _ _ => .inl rfl) ⟨?_, fun d' => ?_, ?_, ?_⟩
      · exact fun d hd => (hstops d hd).trans c.driver.lt_succ_self
      · by_cases hd : d' = c.driver
        · have hempty := hreverts c.driver
          rw [if_neg (by simp)] at hempty
          simp only [revertOrders] at hempty
          simp [hd, hrevert, hnot, revertOrders, hempty]
        · simp only [hle hd]
          rw [← hreverts d']
          simp [revertOrders, Ne.symm hd]
      · exact hnext
      · exact fun hsent' => absurd (hsent.symm.trans hsent') Bool.false_ne_true
    · next hrevert =>
      refine h.rescan (hpending rfl rfl rfl) ?_ fun hr => absurd hr hreverted
      rintro _ ⟨⟩
      refine hc.visit hboards ⟨rfl, rfl⟩ ⟨rfl, rfl⟩ (fun _ _ => .inl rfl) ⟨?_, fun d' => ?_, ?_, ?_⟩
      · exact fun d hd => (hstops d hd).trans c.driver.lt_succ_self
      · rw [hreverts]
        by_cases hd : d' = c.driver
        · simp only [hd, lt_self_iff_false, false_and, and_false, if_false]
          rw [if_neg fun h => hrevert ⟨h.1, h.2.2.1⟩]
        · simp only [hle hd]
      · exact hnext
      · exact fun hsent' => absurd (hsent.symm.trans hsent') Bool.false_ne_true

lemma Tracked.finishBoard {boards : List ℕ} (h : Tracked l s) (hscan : s.scan = some c)
    (hboards : c.boards = a :: boards) (hsent : s.sentRevertRequest a = false)
    (hd : l.numDrivers a ≤ c.driver) : Tracked l (finishBoard s c a boards) := by
  have hc := h.scan c hscan
  obtain ⟨hstops, hreverts, hrequests, -⟩ := hc.found a boards hboards
  have hreverted : s.revertedAll ≠ true := fun hr => by simp [(h.reverted hr).2.1] at hscan
  have hrequest : c.revertingAll → ∀ d, s.stopStates a d ≠ .stopRequested := by
    intro hr d hstate
    exact hrequests hr d ((h.drivers a d (.inl hstate)).2.trans_le hd) hstate
  have hpending : ∀ a' d', pending s a' d' =
      if a = a' then stopOrders d' c.driversToStop else [] := by
    intro a' d'
    simp [pending, hscan, hboards]
  rw [CanMotion.finishBoard]
  split
  · refine ⟨fun a' d' => ?_, h.requests, h.drivers, h.reverting, nofun,
      fun hr => absurd hr hreverted⟩
    rw [← h.orders a' d', hpending]
    simp [CanMotion.orders, ordersOf, pending]
  · next hnone =>
    rw [not_not] at hnone
    split
    · next hsome =>
      have hr : c.revertingAll = true := by
        by_contra hr
        obtain ⟨x, hx⟩ := List.exists_mem_of_ne_nil _ hsome
        have hempty := hreverts x.1
        rw [if_neg fun h => hr h.1, revertOrders, List.filterMap_eq_nil_iff] at hempty
        simpa using hempty x hx
      refine ⟨fun a' d' => ?_, h.requests, h.drivers, fun a' hsent' => ?_, nofun,
        fun hr => absurd hr hreverted⟩
      · have horders := h.orders a' d'
        rw [hpending, hnone] at horders
        by_cases ha : a' = a
        · subst ha
          have hrevert := hreverts d'
          simp only [hnone, hr, hsent, stopOrders] at horders hrevert
          by_cases hstate : s.stopStates a' d' = .stopSent
          · have hlt := (h.drivers a' d' (.inr hstate)).2.trans_le hd
            simp only [hstate, if_true] at horders
            simp [hlt, hstate] at hrevert
            simp_all [CanMotion.orders, ordersOf, pending]
          · simp_all [CanMotion.orders, ordersOf, pending]
        · have hne : ¬ a = a' := fun h => ha h.symm
          simpa [CanMotion.orders, ordersOf, pending, hne, ha] using horders
      · by_cases ha : a' = a
        · exact ⟨hc.reverting hr, ha ▸ hrequest hr⟩
        · simp only [if_neg ha] at hsent'
          exact h.reverting a' hsent'
    · next hempty =>
      rw [not_not] at hempty
      refine h.nextBoard hscan hboards hnone fun hr d => ⟨hrequest hr d, fun hstate => ?_⟩
      have hnil := hreverts d
      rw [hempty, if_pos ⟨hr, (h.drivers a d (.inr hstate)).2.trans_le hd, hstate, by simp [hnone]⟩]
        at hnil
      cases hnil

lemma Tracked.advance (h : Tracked l s) (hscan : s.scan = some c) (now : UInt32) :
    Tracked l (advance l s c now) := by
  have hc := h.scan c hscan
  rw [CanMotion.advance]
  split
  · next hboards =>
    have hpending : ∀ a d, pending { s with scan := none } a d = pending s a d :=
      fun a d => by simp [pending, hscan, hboards]
    split
    · next hr =>
      have hnone : Tracked l { s with scan := none } := h.rescan hpending nofun fun _ => rfl
      obtain ⟨passed, hl, hpassed⟩ := hc.passed hr
      rw [hboards, List.append_nil] at hl
      exact ⟨hnone.orders, hnone.requests, hnone.drivers, hnone.reverting, nofun,
        fun _ => ⟨hc.reverting hr, rfl, hl ▸ hpassed⟩⟩
    · exact h.rescan hpending nofun fun _ => rfl
  · next a boards hboards =>
    split
    · next hsent =>
      refine h.nextBoard hscan hboards ((hc.found a boards hboards).untouched hsent) fun _ d => ?_
      exact ⟨(h.reverting a hsent).2 d, fun _ => hsent⟩
    · next hsent =>
      rw [Bool.not_eq_true] at hsent
      split
      · exact h.visitDriver hscan hboards hsent
      · next hd => exact h.finishBoard hscan hboards hsent (Nat.le_of_not_lt hd)

def Allowed (s : State) : Event → Prop
  | .stopDriver _ _ _ => s.revertAll = false
  | _ => True

lemma run_tracked (moves : ℕ → ℕ → Bool) {es : List Event}
    (h : Along (step l) Allowed (start moves) es) : Tracked l (run (step l) (start moves) es) := by
  refine run_invariant (start_tracked moves) (fun s e hs hok => ?_) h
  cases e with
  | stopDriver a d k => exact hs.stopDriver hok k
  | revertStopped now => exact hs.revertStopped now
  | sender now =>
    rw [step]
    cases hscan : s.scan with
    | none => exact hs.getUrgentMessage hscan
    | some c => exact hs.advance hscan now

end Invariant

/-- Each driver is told once to stop, and then at most once to revert, by the step count of the one
request for it that was accepted; a driver for which none was accepted is told nothing. -/
theorem stopped_drivers_orders (l : StopList) (moves : ℕ → ℕ → Bool) (es : List Event)
    (h : Along (step l) Allowed (start moves) es) (a d : ℕ) :
    let s := run (step l) (start moves) es
    (requested s a d).length ≤ 1 ∧
      orders s a d <+: (requested s a d).flatMap fun k => [.stop, .revert k] := by
  have hs := run_tracked moves h
  generalize run (step l) (start moves) es = s at hs ⊢
  have hstart : orders s a d <+: orders s a d ++ pending s a d := List.prefix_append _ _
  dsimp only
  rw [hs.orders a d] at hstart
  rw [hs.requests a d]
  by_cases hsent : s.stopStates a d = .stopSent
  · rw [if_pos hsent] at hstart
    rw [if_pos (.inr hsent)]
    refine ⟨le_rfl, hstart.trans ?_⟩
    split
    · exact List.prefix_rfl
    · exact ⟨[_], rfl⟩
  · rw [if_neg hsent, List.prefix_nil] at hstart
    rw [hstart]
    refine ⟨?_, List.nil_prefix⟩
    split <;> simp

/-- The second driver of a board is stopped while the first is being told. -/
theorem stopped_drivers_orders_interleaved :
    orders (run (step ⟨[1], fun _ => 2⟩) (start fun _ _ => true)
      [.stopDriver 1 0 7, .sender 0, .sender 0, .stopDriver 1 1 9, .sender 0]) 1 0 <+:
        [.stop, .revert 7] :=
  (stopped_drivers_orders ⟨[1], fun _ => 2⟩ (fun _ _ => true)
    [.stopDriver 1 0 7, .sender 0, .sender 0, .stopDriver 1 1 9, .sender 0]
    ⟨rfl, trivial, trivial, rfl, trivial, trivial⟩ 1 0).2

end RepRapFirmware.CAN.CanMotion
