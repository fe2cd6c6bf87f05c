import Mathlib.Data.Finset.Basic
import Mathlib.Data.Finset.Range
import Mathlib.Tactic

/-! The endstops and Z probes that are active in a move, and how the move reacts to them. -/

namespace RepRapFirmware.Endstops

/-- What to stop. The order matters. -/
inductive EndstopHitAction
  | none | stopDriver | stopAxis | stopAll
  deriving DecidableEq, Repr

def EndstopHitAction.toNat : EndstopHitAction → ℕ
  | .none => 0
  | .stopDriver => 1
  | .stopAxis => 2
  | .stopAll => 3

structure EndstopHitDetails where
  action : EndstopHitAction
  internalUse : ℕ
  axis : Option ℕ
  setAxisLow : Bool
  setAxisHigh : Bool
  isZProbe : Bool
  driver : ℕ

def EndstopHitDetails.init : EndstopHitDetails :=
  ⟨.none, 0, Option.none, false, false, false, 0⟩

structure AxisDriversConfig where
  numDrivers : ℕ
  driverNumbers : ℕ → ℕ

/-- What of the machine's configuration the endstops depend on. -/
structure Configuration where
  axisDrivers : ℕ → AxisDriversConfig
  controllingDrives : ℕ → List ℕ

/-- The state of the inputs: the switch at a port of an axis, and the Z probes that exist. -/
structure Inputs where
  port : ℕ → ℕ → Bool
  zProbeStopped : ℕ → Option Bool

/-- Whether an endstop of the axis has to stop everything. -/
def Configuration.stopsAll (cfg : Configuration) (axis : ℕ) : Bool :=
  (cfg.controllingDrives axis).any fun drive => drive != axis

/-! ### Switches -/

/-- The port number fits into the four bits of `internalUse`. -/
structure SwitchEndstop where
  axis : ℕ
  atHighEnd : Bool
  numPortsUsed : ℕ
  portsLeftToTrigger : Finset ℕ
  numPortsLeftToTrigger : ℕ
  stopAll : Bool
  hports : numPortsUsed ≤ 16

namespace SwitchEndstop

variable (e : SwitchEndstop)

def primeAxis (cfg : Configuration) : SwitchEndstop :=
  { e with
    stopAll := cfg.stopsAll e.axis
    numPortsLeftToTrigger :=
      if e.numPortsUsed ≠ (cfg.axisDrivers e.axis).numDrivers then 1 else e.numPortsUsed
    portsLeftToTrigger := Finset.range e.numPortsUsed }

/-- The switches that have not acted yet and are triggered, in the order of the ports. -/
def triggeredPorts (inp : Inputs) : List ℕ :=
  (List.range e.numPortsUsed).filter fun i => decide (i ∈ e.portsLeftToTrigger) && inp.port e.axis i

lemma mem_triggeredPorts (inp : Inputs) {i : ℕ} (h : i ∈ e.triggeredPorts inp) :
    i < e.numPortsUsed ∧ i ∈ e.portsLeftToTrigger ∧ inp.port e.axis i = true := by
  rw [triggeredPorts, List.mem_filter, List.mem_range, Bool.and_eq_true, decide_eq_true_eq] at h
  exact h

def axisHit (action : EndstopHitAction) : EndstopHitDetails :=
  { EndstopHitDetails.init with
    action := action
    axis := some e.axis
    setAxisHigh := e.atHighEnd
    setAxisLow := !e.atHighEnd }

def checkTriggered (cfg : Configuration) (inp : Inputs) : EndstopHitDetails :=
  match (e.triggeredPorts inp).head? with
  | Option.none => .init
  | some i =>
    if e.stopAll then e.axisHit .stopAll
    else if e.numPortsLeftToTrigger = 1 then e.axisHit .stopAxis
    else { EndstopHitDetails.init with
      action := .stopDriver
      axis := some e.axis
      internalUse := i % 16
      driver := (cfg.axisDrivers e.axis).driverNumbers i }

/-- Whether the endstop has finished, and the endstop if it has not. -/
def acknowledge (what : EndstopHitDetails) : Bool × SwitchEndstop :=
  match what.action with
  | .stopAll | .stopAxis => (true, e)
  | .stopDriver =>
    (false, { e with
      portsLeftToTrigger := e.portsLeftToTrigger.erase what.internalUse
      numPortsLeftToTrigger := e.numPortsLeftToTrigger - 1 })
  | .none => (false, e)

end SwitchEndstop

/-! ### All kinds of endstops -/

/-- A Z probe that is used as the endstop of an axis. -/
structure ZProbeEndstop where
  axis : ℕ
  atHighEnd : Bool
  zProbeNumber : ℕ
  stopAll : Bool

namespace ZProbeEndstop

variable (e : ZProbeEndstop)

def primeAxis (cfg : Configuration) : ZProbeEndstop := { e with stopAll := cfg.stopsAll e.axis }

def checkTriggered (inp : Inputs) : EndstopHitDetails :=
  if inp.zProbeStopped e.zProbeNumber = some true then
    { EndstopHitDetails.init with
      action := if e.stopAll then .stopAll else .stopAxis
      axis := some e.axis
      setAxisHigh := e.atHighEnd
      setAxisLow := !e.atHighEnd }
  else .init

end ZProbeEndstop

/-- A Z probe in a probing move. -/
structure ZProbe where
  number : ℕ
  probingAway : Bool

def ZProbe.checkTriggered (e : ZProbe) (inp : Inputs) : EndstopHitDetails :=
  if (inp.zProbeStopped e.number).any (· != e.probingAway) then
    { EndstopHitDetails.init with action := .stopAll, isZProbe := true }
  else .init

inductive EndstopOrZProbe
  | switch (e : SwitchEndstop)
  | zProbeEndstop (e : ZProbeEndstop)
  | zProbe (e : ZProbe)

namespace EndstopOrZProbe

def getAxis : EndstopOrZProbe → Option ℕ
  | .switch e => some e.axis
  | .zProbeEndstop e => some e.axis
  | .zProbe _ => Option.none

def checkTriggered (cfg : Configuration) (inp : Inputs) : EndstopOrZProbe → EndstopHitDetails
  | .switch e => e.checkTriggered cfg inp
  | .zProbeEndstop e => e.checkTriggered inp
  | .zProbe e => e.checkTriggered inp

def acknowledge (what : EndstopHitDetails) : EndstopOrZProbe → Bool × EndstopOrZProbe
  | .switch e => let (done, e) := e.acknowledge what; (done, .switch e)
  | .zProbeEndstop e => (true, .zProbeEndstop e)
  | .zProbe e => (decide (what.action = .stopAll), .zProbe e)

def primeAxis (cfg : Configuration) : EndstopOrZProbe → EndstopOrZProbe
  | .switch e => .switch (e.primeAxis cfg)
  | .zProbeEndstop e => .zProbeEndstop (e.primeAxis cfg)
  | .zProbe e => .zProbe e

end EndstopOrZProbe

/-- The endstops of the axes, each made for its own axis. -/
structure AxisEndstops where
  endstop : ℕ → Option EndstopOrZProbe
  haxis : ∀ axis e, endstop axis = some e → e.getAxis = some axis

/-! ### The active endstops -/

structure EndstopsManager where
  activeEndstops : List EndstopOrZProbe
  isHomingMove : Bool

namespace EndstopsManager

/-- The loop over the axes, from the lowest on. Every endstop is put in front of the list. -/
def enableAxes (cfg : Configuration) (axisEndstops : AxisEndstops) :
    List ℕ → List EndstopOrZProbe → Option (List EndstopOrZProbe)
  | [], active => some active
  | axis :: axes, active =>
    match axisEndstops.endstop axis with
    | none => none
    | some e => enableAxes cfg axisEndstops axes (e.primeAxis cfg :: active)

/-- There is no result if an axis has no endstop. -/
def enableAxisEndstops (cfg : Configuration) (axisEndstops : AxisEndstops) (axes : Finset ℕ)
    (forHoming : Bool) : Option EndstopsManager :=
  (enableAxes cfg axisEndstops (axes.sort (· ≤ ·)) []).map fun active =>
    ⟨active, forHoming && decide axes.Nonempty⟩

def enableZProbe (probe : Option ZProbe) : EndstopsManager :=
  ⟨(probe.map EndstopOrZProbe.zProbe).toList, false⟩

/-- The loop over the active endstops, with the strongest hit so far and where it is in the list. -/
def scan (check : EndstopOrZProbe → EndstopHitDetails) :
    List EndstopOrZProbe → ℕ → EndstopHitDetails × ℕ → EndstopHitDetails × ℕ
  | [], _, found => found
  | e :: es, index, found =>
    let hd := check e
    if hd.action = .stopAll then (hd, index)
    else if hd.action.toNat > found.1.action.toNat then scan check es (index + 1) (hd, index)
    else scan check es (index + 1) found

/-- The axis position is set in homing moves only. -/
def settled (m : EndstopsManager) (hd : EndstopHitDetails) : EndstopHitDetails :=
  if m.isHomingMove then hd else { hd with setAxisHigh := false, setAxisLow := false }

def acknowledged (active : List EndstopOrZProbe) (index : ℕ) (what : EndstopHitDetails) :
    List EndstopOrZProbe :=
  match active[index]? with
  | none => active
  | some e =>
    let (done, e) := e.acknowledge what
    if done then active.eraseIdx index else active.set index e

def checkEndstops (cfg : Configuration) (inp : Inputs) (m : EndstopsManager) :
    EndstopHitDetails × EndstopsManager :=
  let (ret, actioned) := scan (EndstopOrZProbe.checkTriggered cfg inp) m.activeEndstops 0 (.init, 0)
  match ret.action with
  | .stopAll => (m.settled ret, { m with activeEndstops := [] })
  | .none => (ret, m)
  | .stopAxis | .stopDriver =>
    (m.settled ret, { m with activeEndstops := acknowledged m.activeEndstops actioned ret })

/-- How often an endstop can act. -/
def weight : EndstopOrZProbe → ℕ
  | .switch e => e.portsLeftToTrigger.card + 1
  | .zProbeEndstop _ => 1
  | .zProbe _ => 1

def totalWeight (active : List EndstopOrZProbe) : ℕ := (active.map weight).sum

/-- A hit comes from one of the active endstops. -/
lemma scan_found (check : EndstopOrZProbe → EndstopHitDetails) (es : List EndstopOrZProbe)
    (index : ℕ) (found : EndstopHitDetails × ℕ) :
    scan check es index found = found ∨ ∃ before e after, es = before ++ e :: after ∧
      scan check es index found = (check e, index + before.length) := by
  induction es generalizing index found with
  | nil => exact .inl rfl
  | cons e es ih =>
    have hlater : ∀ found', (scan check es (index + 1) found' = found ∨
        scan check es (index + 1) found' = (check e, index)) ∨
        (∃ before e' after, es = before ++ e' :: after ∧
          scan check es (index + 1) found' = (check e', index + 1 + before.length)) →
        scan check es (index + 1) found' = found ∨ ∃ before e' after,
          e :: es = before ++ e' :: after ∧
            scan check es (index + 1) found' = (check e', index + before.length) := by
      rintro found' ((heq | heq) | ⟨before, e', after, hes, heq⟩)
      · exact .inl heq
      · exact .inr ⟨[], e, es, rfl, heq⟩
      · refine .inr ⟨e :: before, e', after, by rw [hes]; rfl, ?_⟩
        rw [heq, List.length_cons, Nat.add_assoc, Nat.add_comm 1]
    rw [scan]
    split
    · exact .inr ⟨[], e, es, rfl, rfl⟩
    · split
      · exact hlater _ ((ih (index + 1) (check e, index)).imp_left .inr)
      · exact hlater _ ((ih (index + 1) found).imp_left .inl)

lemma acknowledged_append (before after : List EndstopOrZProbe) (e : EndstopOrZProbe)
    (what : EndstopHitDetails) : acknowledged (before ++ e :: after) before.length what =
      before ++ (if (e.acknowledge what).1 then after else (e.acknowledge what).2 :: after) := by
  have hget : (before ++ e :: after)[before.length]? = some e := by simp
  rw [acknowledged, hget]
  simp only
  split
  · rw [List.eraseIdx_append_of_length_le le_rfl, Nat.sub_self]
    rfl
  · rw [List.set_append_right _ _ le_rfl, Nat.sub_self]
    rfl

/-- The hit of an endstop that acts, and what becomes of the endstop. -/
inductive Acts (cfg : Configuration) (inp : Inputs) (m : EndstopsManager) :
    EndstopHitDetails × EndstopsManager → Prop
  | intro (before after : List EndstopOrZProbe) (e : EndstopOrZProbe) (what : EndstopHitDetails)
      (hactive : m.activeEndstops = before ++ e :: after)
      (hwhat : what = e.checkTriggered cfg inp) :
      Acts cfg inp m (m.settled what, { m with activeEndstops :=
        before ++ (if (e.acknowledge what).1 then after else (e.acknowledge what).2 :: after) })

lemma settled_action (m : EndstopsManager) (hd : EndstopHitDetails) :
    (m.settled hd).action = hd.action := by
  rw [settled]
  split <;> rfl

lemma checkEndstops_acts (cfg : Configuration) (inp : Inputs) (m : EndstopsManager)
    (h : (m.checkEndstops cfg inp).1.action = .stopAxis ∨
      (m.checkEndstops cfg inp).1.action = .stopDriver) :
    Acts cfg inp m (m.checkEndstops cfg inp) := by
  rw [checkEndstops] at h ⊢
  rcases scan_found (EndstopOrZProbe.checkTriggered cfg inp) m.activeEndstops 0 (.init, 0) with
    hnone | ⟨before, e, after, hactive, hscan⟩
  · rw [hnone] at h
    simp [EndstopHitDetails.init] at h
  · rw [hscan] at h ⊢
    rw [Nat.zero_add] at h ⊢
    simp only at h ⊢
    split at h
    · next haction =>
      rw [settled_action, haction] at h
      simp at h
    · next haction =>
      rw [haction] at h
      simp at h
    all_goals
      rw [hactive, acknowledged_append]
      exact .intro before after e _ hactive rfl

/-- An endstop that acts, acts less often afterwards. -/
lemma checkEndstops_weight (cfg : Configuration) (inp : Inputs) (m : EndstopsManager)
    (h : (m.checkEndstops cfg inp).1.action = .stopAxis ∨
      (m.checkEndstops cfg inp).1.action = .stopDriver) :
    totalWeight (m.checkEndstops cfg inp).2.activeEndstops < totalWeight m.activeEndstops := by
  have hacts := checkEndstops_acts cfg inp m h
  generalize m.checkEndstops cfg inp = r at h hacts
  obtain ⟨before, after, e, what, hactive, hwhat⟩ := hacts
  rw [settled_action] at h
  simp only [hactive, totalWeight, List.map_append, List.map_cons, List.sum_append, List.sum_cons]
  apply Nat.add_lt_add_left
  split
  · have hpos : 0 < weight e := by cases e <;> simp [weight]
    omega
  · next hnotDone =>
    rw [List.map_cons, List.sum_cons]
    apply Nat.add_lt_add_right
    cases e with
    | switch e =>
      rw [EndstopOrZProbe.checkTriggered, SwitchEndstop.checkTriggered] at hwhat
      split at hwhat
      · rw [hwhat] at h
        simp [EndstopHitDetails.init] at h
      · next i hi =>
        split at hwhat
        · simp [EndstopOrZProbe.acknowledge, SwitchEndstop.acknowledge, hwhat,
            SwitchEndstop.axisHit] at hnotDone
        · split at hwhat
          · simp [EndstopOrZProbe.acknowledge, SwitchEndstop.acknowledge, hwhat,
              SwitchEndstop.axisHit] at hnotDone
          · obtain ⟨hrange, hleft⟩ := e.mem_triggeredPorts inp (List.mem_of_head? hi)
            have hsmall : i % 16 = i := Nat.mod_eq_of_lt (hrange.trans_le e.hports)
            rw [hwhat]
            change (e.portsLeftToTrigger.erase (i % 16)).card + 1 < e.portsLeftToTrigger.card + 1
            rw [hsmall]
            exact Nat.add_lt_add_right (Finset.card_erase_lt_of_mem hleft.1) 1
    | zProbeEndstop e => exact absurd rfl hnotDone
    | zProbe e =>
      rw [EndstopOrZProbe.checkTriggered, ZProbe.checkTriggered] at hwhat
      split at hwhat <;> rw [hwhat] at h <;> simp [EndstopHitDetails.init] at h

end EndstopsManager

/-! ### The move -/

/-- `driversCurrentlyUsed` and `driverEndstopsTriggeredAtStart` are sets of drivers. -/
structure Drive where
  moving : Bool
  driversCurrentlyUsed : Finset ℕ
  driverEndstopsTriggeredAtStart : Finset ℕ

/-- What has been stopped. A driver is recorded with the port that stopped it. -/
inductive Stop
  | all
  | axis (axis : ℕ)
  | driver (axis port driver : ℕ)
  deriving DecidableEq

/-- What other parts of the firmware are told. -/
inductive Notice
  | endstopTriggered (axis : Option ℕ)
  | stoppedByZProbe
  | wakeMoveTask
  deriving DecidableEq

/-- `stops` and `notices` are the history of the move. -/
structure MoveState where
  manager : EndstopsManager
  drives : ℕ → Drive
  stops : List Stop
  notices : List Notice

namespace MoveState

def stopAxisOrExtruder (drives : ℕ → Drive) (drive : ℕ) : ℕ → Drive :=
  Function.update drives drive { drives drive with moving := false }

def stopAllDrivers (maxAxesPlusExtruders : ℕ) (drives : ℕ → Drive) : ℕ → Drive :=
  (List.range maxAxesPlusExtruders).foldl stopAxisOrExtruder drives

def stopDriver (executingMove : Bool) (drives : ℕ → Drive) (axis driver : ℕ) : ℕ → Drive :=
  Function.update drives axis { drives axis with
    driversCurrentlyUsed := (drives axis).driversCurrentlyUsed.erase driver
    driverEndstopsTriggeredAtStart :=
      if executingMove then (drives axis).driverEndstopsTriggeredAtStart
      else insert driver (drives axis).driverEndstopsTriggeredAtStart }

/-- The reaction to a hit that stops everything. -/
def hitAll (maxAxesPlusExtruders : ℕ) (executingMove : Bool) (hit : EndstopHitDetails)
    (s : MoveState) : MoveState :=
  { s with
    drives := stopAllDrivers maxAxesPlusExtruders s.drives
    stops := s.stops ++ [.all]
    notices := s.notices ++
      [if hit.isZProbe then .stoppedByZProbe else .endstopTriggered hit.axis] ++
      if executingMove then [.wakeMoveTask] else [] }

def hitAxis (executingMove : Bool) (axis : ℕ) (s : MoveState) : MoveState :=
  { s with
    drives := stopAxisOrExtruder s.drives axis
    stops := s.stops ++ [.axis axis]
    notices := s.notices ++ [.endstopTriggered (some axis)] ++
      if executingMove && s.manager.activeEndstops.isEmpty then [.wakeMoveTask] else [] }

def hitDriver (executingMove : Bool) (axis port driver : ℕ) (s : MoveState) : MoveState :=
  { s with
    drives := stopDriver executingMove s.drives axis driver
    stops := s.stops ++ [.driver axis port driver] }

/-- `CheckEndstops` of the move. It goes on until there is nothing more to stop. -/
def checkEndstops (cfg : Configuration) (maxAxesPlusExtruders : ℕ) (executingMove : Bool)
    (inp : Inputs) (s : MoveState) : MoveState :=
  let r := s.manager.checkEndstops cfg inp
  let s' : MoveState := { s with manager := r.2 }
  match _haction : r.1.action with
  | .stopAll => s'.hitAll maxAxesPlusExtruders executingMove r.1
  | .stopAxis =>
    (s'.hitAxis executingMove (r.1.axis.getD 0)).checkEndstops cfg maxAxesPlusExtruders
      executingMove inp
  | .stopDriver =>
    (s'.hitDriver executingMove (r.1.axis.getD 0) r.1.internalUse r.1.driver).checkEndstops cfg
      maxAxesPlusExtruders executingMove inp
  | .none => s'
termination_by EndstopsManager.totalWeight s.manager.activeEndstops
decreasing_by
  · exact EndstopsManager.checkEndstops_weight cfg inp s.manager (.inl _haction)
  · exact EndstopsManager.checkEndstops_weight cfg inp s.manager (.inr _haction)

end MoveState

end RepRapFirmware.Endstops
