import RepRapFirmware.Host.LpcInterface

/-! The host's heater that the LPC drives: it follows the status that the host has cached, and
raises a fault where the status reports one or where there is none. -/

namespace RepRapFirmware.Host.LpcHeater

open Shared.LpcProtocol LpcInterface

inductive HeaterMode
  | fault | offline | off | suspended | cooling | stable | heating
  | tuning0 | tuning1 | tuning2 | tuning3
  deriving DecidableEq, Repr

def HeaterMode.code : HeaterMode → UInt8
  | .fault => 0
  | .offline => 1
  | .off => 2
  | .suspended => 3
  | .cooling => 4
  | .stable => 5
  | .heating => 6
  | .tuning0 => 7
  | .tuning1 => 8
  | .tuning2 => 9
  | .tuning3 => 10

def HeaterMode.ofState : HeaterState → HeaterMode
  | .fault => .fault
  | .offline => .offline
  | .off => .off
  | .suspended => .suspended
  | .cooling => .cooling
  | .stable => .stable
  | .heating => .heating

/-- The cast keeps the code, as the static assertion demands. -/
@[simp] lemma HeaterMode.code_ofState (s : HeaterState) : (ofState s).code = s.code := by
  cases s <;> rfl

@[simp] lemma HeaterMode.ofState_eq_fault {s : HeaterState} : ofState s = fault ↔ s = .fault := by
  cases s <;> simp [ofState]

inductive HeaterFaultType
  | failedToReadSensor | temperatureRisingTooSlowly | exceededAllowedExcursion | monitorTriggered
  | heaterFaultTypeLimit
  deriving DecidableEq, Repr

def getHeaterFaultType : ThermalError → HeaterFaultType
  | .adcTimeout | .shortCircuit | .openCircuit | .linkTimeout => .failedToReadSensor
  | .heatingTooSlow => .temperatureRisingTooSlowly
  | .temperatureExcursion => .exceededAllowedExcursion
  | .overTemperature | .underTemperature => .monitorTriggered
  | _ => .heaterFaultTypeLimit

def getThermalErrorText : ThermalError → String
  | .none => "none"
  | .notConfigured => "LPC thermal controller not configured"
  | .adcTimeout => "LPC thermistor ADC timeout"
  | .shortCircuit => "LPC thermistor short circuit"
  | .openCircuit => "LPC thermistor open circuit"
  | .overTemperature => "LPC upper temperature limit exceeded"
  | .underTemperature => "LPC lower temperature limit exceeded"
  | .linkTimeout => "LPC link timeout"
  | .controlFault => "LPC thermal control fault"
  | .heatingTooSlow => "LPC temperature rising too slowly"
  | .temperatureExcursion => "LPC temperature excursion exceeded"

structure State where
  mode : HeaterMode
  connectionGeneration : UInt32

/-- The event of a heater fault; the flag that the tools get goes with it. -/
structure Event where
  faultType : HeaterFaultType
  text : String
  deriving DecidableEq, Repr

structure Outcome where
  heater : State
  sent : List Frame
  events : List Event

variable (h : LpcInterface.State) (s : State)

/-- A new heater. -/
def new : State := ⟨.off, h.connectionGeneration⟩

def raiseFault (error : ThermalError) : Outcome :=
  ⟨{ s with mode := .fault }, commandHeater h .off 0.0,
    [⟨getHeaterFaultType error, getThermalErrorText error⟩]⟩

/-- The first part of `Spin`: the link has been made anew since the last call. -/
def checkGeneration : Outcome :=
  if h.connectionGeneration ≠ s.connectionGeneration then
    let followed := { s with connectionGeneration := h.connectionGeneration }
    if s.mode.code ≥ HeaterMode.suspended.code then raiseFault h followed .linkTimeout
    else ⟨followed, [], []⟩
  else ⟨s, [], []⟩

/-- The second part of `Spin`. -/
def followStatus : Outcome :=
  match getThermalStatus h with
  | some status =>
    if s.mode ≠ .fault then
      let followed := { s with mode := .ofState status.state }
      if followed.mode = .fault then raiseFault h followed status.error else ⟨followed, [], []⟩
    else ⟨s, [], []⟩
  | none =>
    if s.mode ≠ .fault then
      if s.mode.code ≥ HeaterMode.suspended.code then raiseFault h s .linkTimeout
      else ⟨{ s with mode := .offline }, [], []⟩
    else ⟨s, [], []⟩

def spin : Outcome :=
  let checked := checkGeneration h s
  let followed := followStatus h checked.heater
  ⟨followed.heater, checked.sent ++ followed.sent, checked.events ++ followed.events⟩

def switchOff : State × List Frame :=
  (if s.mode ≠ .fault then { s with mode := .off } else s, commandHeater h .off 0.0)

def resetFault : Except String (State × List Frame) :=
  if !h.online then .error "LPC heater is offline"
  else .ok ({ s with mode := .off }, commandHeater h .resetFault 0.0)

/-- The status for which `spin` raises a fault. -/
def blamed : Option ThermalStatus :=
  if (checkGeneration h s).heater.mode = .fault then none
  else (getThermalStatus h).filter fun status => status.state = .fault

variable {h s}

lemma fault_of_blamed {status : ThermalStatus} (hb : blamed h s = some status) :
    h.thermalStatus.state = .fault := by
  rw [blamed] at hb
  split_ifs at hb
  obtain ⟨hstatus, hfault⟩ := Option.filter_eq_some_iff.mp hb
  rw [getThermalStatus] at hstatus
  split_ifs at hstatus
  rw [Option.some.inj hstatus]
  exact of_decide_eq_true hfault

def timeout : Event := ⟨getHeaterFaultType .linkTimeout, getThermalErrorText .linkTimeout⟩

lemma events_checkGeneration : ∀ e ∈ (checkGeneration h s).events, e = timeout := by
  rw [checkGeneration]
  split_ifs
  · exact fun e he => List.mem_singleton.mp he
  all_goals exact List.forall_mem_nil _

lemma events_followStatus
    (hb : s.mode = .fault ∨ ∀ status, getThermalStatus h = some status → status.state ≠ .fault) :
    ∀ e ∈ (followStatus h s).events, e = timeout := by
  cases hstatus : getThermalStatus h with
  | none =>
    simp only [followStatus, hstatus]
    split_ifs
    · exact fun e he => List.mem_singleton.mp he
    all_goals exact List.forall_mem_nil _
  | some status =>
    simp only [followStatus, hstatus]
    split_ifs with hmode hfault
    · have hstate := HeaterMode.ofState_eq_fault.mp hfault
      exact absurd hstate (hb.resolve_left hmode status hstatus)
    all_goals exact List.forall_mem_nil _

/-- A fault that `spin` raises without a status to blame is a link timeout. -/
lemma events_of_not_blamed (hb : blamed h s = none) : ∀ e ∈ (spin h s).events, e = timeout := by
  have hfollow : (checkGeneration h s).heater.mode = .fault ∨
      ∀ status, getThermalStatus h = some status → status.state ≠ .fault := by
    rw [blamed] at hb
    split_ifs at hb with hmode
    · exact .inl hmode
    · refine .inr fun status hstatus hfault => ?_
      rw [hstatus] at hb
      simp [hfault] at hb
  intro e he
  rcases List.mem_append.mp he with he | he
  · exact events_checkGeneration e he
  · exact events_followStatus hfollow e he

end RepRapFirmware.Host.LpcHeater
