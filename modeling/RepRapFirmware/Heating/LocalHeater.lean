import Mathlib.Data.Rat.Floor
import RepRapFirmware.Host.LpcHeater

/-! A heater whose ports and sensor belong to the host itself. Temperatures and powers are exact.
What the process model computes with powers and exponentials, and what the auto tuning decides from
its statistics, is taken from outside. -/

namespace RepRapFirmware.Heating

open Host.LpcHeater (HeaterMode HeaterFaultType)

structure PidParameters where
  kP : ℚ
  recipTi : ℚ
  tD : ℚ

/-- The process model. -/
structure FopDt where
  heatingRate : ℚ
  basicCoolingRate : ℚ
  fanCoolingRate : ℚ
  coolingRateExponent : ℚ
  deadTime : ℚ
  maxPwm : ℚ
  usePid : Bool
  inverted : Bool
  enabled : Bool
  getNetHeatingRate : ℚ → ℚ → ℚ → ℚ
  estimateRequiredPwm : ℚ → ℚ → ℚ
  getPidParameters : Bool → PidParameters

namespace FopDt

def parameterError (p : FopDt) : Option String :=
  if p.heatingRate / p.basicCoolingRate < 0.1 then some "estimated temperature rise too small"
  else if p.fanCoolingRate < 0 then some "fan reduces cooling rate"
  else if p.coolingRateExponent < 1 ∨ p.coolingRateExponent > 1.6 then
    some "cooling rate exponent out of range"
  else if p.deadTime ≤ 0.0099 then some "dead time too small"
  else if p.deadTime * p.basicCoolingRate > 50 then
    some "dead time too close to cooling time constant"
  else if p.maxPwm ≤ 0.0099 ∨ p.maxPwm > 1 then some "PWM out of range"
  else none

/-- A model that is accepted is always enabled. -/
def setParameters (p : FopDt) : Except String FopDt :=
  match p.parameterError with
  | some err => .error ("bad model parameters: " ++ err)
  | none => .ok { p with enabled := true }

end FopDt

inductive HeaterMonitorTrigger
  | disabled | temperatureExceeded | temperatureTooLow
  deriving DecidableEq, Repr

inductive HeaterMonitorAction
  | generateFault | permanentSwitchOff | temporarySwitchOff | shutDown
  deriving DecidableEq, Repr

structure HeaterMonitor where
  limit : ℚ
  sensorNumber : ℤ
  action : HeaterMonitorAction
  trigger : HeaterMonitorTrigger
  badTemperatureCount : UInt8

def badErrorTemperature : ℚ := 2000

def absZero : ℚ := -273.15

/-- `none` is a reading with an error. -/
abbrev Sensors := ℤ → Option ℚ

namespace HeaterMonitor

/-- Whether everything is in order, and the monitor with its count of bad readings. -/
def check (sensors : Sensors) (maxBadTemperatureCount : ℕ) (m : HeaterMonitor) :
    Bool × HeaterMonitor :=
  if m.sensorNumber ≥ 0 ∧ m.trigger ≠ .disabled then
    match sensors m.sensorNumber with
    | none =>
      let count := m.badTemperatureCount + 1
      (!decide (count.toNat > maxBadTemperatureCount), { m with badTemperatureCount := count })
    | some temperature =>
      (match m.trigger with
        | .temperatureExceeded => decide (temperature ≤ m.limit)
        | .temperatureTooLow => decide (temperature ≥ m.limit)
        | .disabled => true,
      { m with badTemperatureCount := 0 })
  else (true, m)

end HeaterMonitor

/-- A heater with its ports. `M570` allows no more than fifty bad readings. The last fields are
history: whether it was switched off with no success in switching it on or tuning it since, and the
number of control cycles with bad readings since the last good one. -/
structure LocalHeater where
  mode : HeaterMode
  model : FopDt
  sensorNumber : ℤ
  monitors : List HeaterMonitor
  activeTemperature : ℚ
  standbyTemperature : ℚ
  maxTempExcursion : ℚ
  maxHeatingFaultTime : ℚ
  maxBadTemperatureCount : Fin 51
  isBedOrChamber : Bool
  active : Bool
  modelSetByUser : Bool
  monitorsSetByUser : Bool
  lastFanPwm : ℚ
  extrusionPwmBoost : ℚ
  extrusionTemperatureBoost : ℚ
  previousExtrusionPwmBoost : ℚ
  temperature : ℚ
  previousTemperatures : Fin 4 → ℚ
  previousTemperatureIndex : Fin 4
  previousTemperaturesGood : UInt8
  iAccumulator : ℚ
  lastPwm : ℚ
  averagePwm : ℚ
  lastTemperatureValue : ℚ
  lastExtrusionTemperatureBoost : ℚ
  lastTemperatureMillis : UInt32
  timeSetHeating : UInt32
  heatingFaultCount : UInt16
  badTemperatureCount : UInt8
  tuningPwm : ℚ
  portPower : ℚ
  switchedOff : Bool
  badReadings : ℕ

/-- What one step of the auto tuning decides. -/
inductive TuningDecision
  | wait | proceed | finish (model : Option FopDt)

/-- What a control cycle meets. -/
structure Cycle where
  sensors : Sensors
  now : UInt32
  tuning : TuningDecision

/-- The parameters of `M303`. -/
structure TuningRequest where
  targetTemp : ℚ
  ambientTemp : Option ℚ
  tuningPwm : ℚ

def temperatureCloseEnough : ℚ := 1.5

def maxAmbientTemperature : ℚ := 45

def normalAmbientTemperature : ℚ := 25

def lowAmbientTemperature : ℚ := 15

def heatSampleIntervalMillis : ℕ := 250

def heatPwmAverageTime : ℚ := 5

def fanFeedForwardMultiplier : ℚ := 0.7

def isPidMode (m : HeaterMode) : Bool :=
  HeaterMode.cooling.code ≤ m.code && m.code ≤ HeaterMode.heating.code

def constrain (x low high : ℚ) : ℚ := max low (min x high)

namespace LocalHeater

/-- A new heater with its sensor and the parameters of its fault detection. -/
def create (defaults : FopDt) (sensorNumber : ℤ) (maxTempExcursion maxHeatingFaultTime : ℚ)
    (maxBadTemperatureCount : Fin 51) : LocalHeater where
  mode := .off
  model := { defaults with enabled := false }
  sensorNumber := sensorNumber
  monitors := List.replicate 3 ⟨0, -1, .generateFault, .disabled, 0⟩
  activeTemperature := 0
  standbyTemperature := 0
  maxTempExcursion := maxTempExcursion
  maxHeatingFaultTime := maxHeatingFaultTime
  maxBadTemperatureCount := maxBadTemperatureCount
  isBedOrChamber := false
  active := false
  modelSetByUser := false
  monitorsSetByUser := false
  lastFanPwm := 0
  extrusionPwmBoost := 0
  extrusionTemperatureBoost := 0
  previousExtrusionPwmBoost := 0
  temperature := badErrorTemperature
  previousTemperatures := 0
  previousTemperatureIndex := 0
  previousTemperaturesGood := 0
  iAccumulator := 0
  lastPwm := 0
  averagePwm := 0
  lastTemperatureValue := 0
  lastExtrusionTemperatureBoost := 0
  lastTemperatureMillis := 0
  timeSetHeating := 0
  heatingFaultCount := 0
  badTemperatureCount := 0
  tuningPwm := 0
  portPower := 0
  switchedOff := false
  badReadings := 0

def setHeater (power : ℚ) (h : LocalHeater) : LocalHeater := { h with portPower := power }

def getTargetTemperature (h : LocalHeater) : ℚ :=
  if h.active then h.activeTemperature else h.standbyTemperature

def getHighestTemperatureLimit (h : LocalHeater) : ℚ :=
  h.monitors.foldl (fun limit m =>
    if m.trigger = .temperatureExceeded then
      if limit = badErrorTemperature ∨ m.limit > limit then m.limit else limit
    else limit) badErrorTemperature

def getLowestTemperatureLimit (h : LocalHeater) : ℚ :=
  h.monitors.foldl (fun limit m =>
    if m.trigger = .temperatureTooLow then
      if limit = absZero ∨ m.limit < limit then m.limit else limit
    else limit) absZero

/-- The temperature that is aimed at. -/
def boostedTarget (h : LocalHeater) : ℚ :=
  min (h.getTargetTemperature + h.extrusionTemperatureBoost) h.getHighestTemperatureLimit

def resetHeater (h : LocalHeater) : LocalHeater :=
  { h with
    previousExtrusionPwmBoost := 0
    extrusionTemperatureBoost := 0
    extrusionPwmBoost := 0
    lastFanPwm := 0
    lastExtrusionTemperatureBoost := 0
    mode := .off
    previousTemperaturesGood := 0
    previousTemperatureIndex := 0
    iAccumulator := 0
    badTemperatureCount := 0
    averagePwm := 0
    lastPwm := 0
    heatingFaultCount := 0
    temperature := badErrorTemperature }

/-- The mode in which the temperature is controlled. -/
def newMode (targetTemperature : ℚ) (h : LocalHeater) : HeaterMode :=
  if h.temperature + temperatureCloseEnough < targetTemperature then .heating
  else if h.temperature > targetTemperature + temperatureCloseEnough then .cooling
  else .stable

def updateHeaterMode (now : UInt32) (targetTemperature : ℚ) (h : LocalHeater) : LocalHeater :=
  if h.newMode targetTemperature ≠ h.mode then
    if h.newMode targetTemperature = .heating then
      { h with
        lastTemperatureValue := h.temperature
        lastTemperatureMillis := now
        timeSetHeating := now
        heatingFaultCount := 0
        mode := .heating }
    else { h with heatingFaultCount := 0, mode := h.newMode targetTemperature }
  else h

/-- `none` is an error: the model is bad or the heater is in the fault state. -/
def switchOn (now : UInt32) (h : LocalHeater) : Option LocalHeater :=
  if !h.model.enabled then none
  else if h.mode = .fault then none
  else some { h.updateHeaterMode now h.boostedTarget with switchedOff := false }

/-- A heater with a disabled model keeps its mode and the power at its ports. -/
def switchOff (h : LocalHeater) : LocalHeater :=
  { h with
    lastPwm := 0
    portPower := if h.model.enabled then 0 else h.portPower
    mode := if h.model.enabled ∧ h.mode.code > HeaterMode.off.code then .off else h.mode
    previousExtrusionPwmBoost := 0
    extrusionTemperatureBoost := 0
    extrusionPwmBoost := 0
    lastExtrusionTemperatureBoost := 0
    switchedOff := true }

/-- The tools get their flag with it. -/
def raiseHeaterFault (h : LocalHeater) : LocalHeater :=
  { h with lastPwm := 0, portPower := 0, mode := .fault }

def resetFault (h : LocalHeater) : LocalHeater :=
  let h := { h with badTemperatureCount := 0 }
  if h.mode = .fault then switchOff { h with mode := .off } else h

def suspend (sus : Bool) (now : UInt32) (h : LocalHeater) : LocalHeater :=
  if sus then
    if h.mode = .stable ∨ h.mode = .heating ∨ h.mode = .cooling then
      { h with mode := .suspended, portPower := 0, lastPwm := 0 }
    else h
  else if h.mode = .suspended then (h.switchOn now).getD h
  else h

/-- A parameter that is not accepted leaves the model as it was. -/
def setModel (p : FopDt) (h : LocalHeater) : LocalHeater :=
  match p.setParameters with
  | .ok model =>
    let h := { h with model := model }
    if h.model.enabled then h else h.resetHeater
  | .error _ => h

/-- As `M307` does it. -/
def setModelByUser (p : FopDt) (h : LocalHeater) : LocalHeater :=
  match p.setParameters with
  | .ok _ => { h.setModel p with modelSetByUser := true }
  | .error _ => h

/-- As `M502` does it for a heater that is enabled. -/
def clearModelAndMonitors (h : LocalHeater) : LocalHeater :=
  if h.model.enabled then
    { h with
      model := { h.model with enabled := false }
      monitors := h.monitors.map fun m => { m with trigger := .disabled }
      modelSetByUser := false
      monitorsSetByUser := false }
  else h

def maxSensors : ℤ := 8

def setFirstMonitor (limit : ℚ) (h : LocalHeater) : LocalHeater :=
  if !h.monitorsSetByUser ∧ h.sensorNumber ≥ 0 ∧ h.sensorNumber < maxSensors then
    { h with monitors := h.monitors.set 0 ⟨limit, h.sensorNumber, .generateFault,
      .temperatureExceeded, 0⟩ }
  else h

/-- Declaring the heater as that of a tool, or of a bed or chamber, with the default model and
limit of such a heater. -/
def declareHeater (defaults : FopDt) (limit : ℚ) (h : LocalHeater) : LocalHeater :=
  setFirstMonitor limit
    (if h.modelSetByUser then h else { h with model := { defaults with enabled := true } })

def configureMonitor (index : Fin 3) (m : HeaterMonitor) (h : LocalHeater) : LocalHeater :=
  { h with
    monitors := h.monitors.set index { m with badTemperatureCount := 0 }
    monitorsSetByUser := true }

def setActiveOrStandby (setActive isBedOrChamber : Bool) (now : UInt32) (h : LocalHeater) :
    LocalHeater :=
  if h.mode ≠ .fault then
    let h := { h with active := setActive, isBedOrChamber := isBedOrChamber }
    (h.switchOn now).getD h
  else h

/-- `pid` are the constants that the model calculates for the new temperature. -/
def setTemperature (t : ℚ) (activeNotStandby isBedOrChamber : Bool) (pid : Bool → PidParameters)
    (now : UInt32) (h : LocalHeater) : LocalHeater :=
  if t > h.getHighestTemperatureLimit ∨ t < h.getLowestTemperatureLimit then h
  else
    let h := if activeNotStandby then { h with activeTemperature := t }
      else { h with standbyTemperature := t }
    if h.mode.code > HeaterMode.suspended.code ∧ h.active = activeNotStandby then
      let h := { h with isBedOrChamber := isBedOrChamber }
      match h.switchOn now with
      | none => h
      | some h => { h with model := { h.model with getPidParameters := pid } }
    else h

def setFanFeedForwardPwm (pwm correction : ℚ) (h : LocalHeater) : LocalHeater :=
  if h.mode = .stable then
    { h with
      lastFanPwm := pwm
      iAccumulator := h.iAccumulator + correction * fanFeedForwardMultiplier }
  else h

def setExtrusionFeedForward (pwmBoost tempBoost : ℚ) (h : LocalHeater) : LocalHeater :=
  let h := { h with extrusionPwmBoost := pwmBoost, extrusionTemperatureBoost := tempBoost }
  if h.mode = .stable then
    { h with
      previousExtrusionPwmBoost := h.extrusionPwmBoost
      iAccumulator := h.iAccumulator + (h.extrusionPwmBoost - h.previousExtrusionPwmBoost) }
  else h

/-- `none` is an error, which leaves the heater as it was. -/
def startAutoTune (r : TuningRequest) (sensors : Sensors) (now : UInt32) (h : LocalHeater) :
    Option LocalHeater :=
  if !h.model.enabled then none
  else if r.targetTemp ≥ h.getHighestTemperatureLimit then none
  else
    match sensors h.sensorNumber with
    | none => none
    | some currentTemp =>
      if r.ambientTemp.getD currentTemp + 20 ≥ r.targetTemp then none
      else
        let h := { h with tuningPwm := r.tuningPwm }
        if (0 : ℚ) < h.lastPwm ∨ (0.02 : ℚ) < h.averagePwm then none
        else if r.ambientTemp.isSome then
          some { h with
            timeSetHeating := now
            lastPwm := h.tuningPwm
            mode := .tuning1
            switchedOff := false }
        else some { h with mode := .tuning0, switchedOff := false }

/-- One step of the auto tuning. -/
def doTuningStep (now : UInt32) (h : LocalHeater) : TuningDecision → LocalHeater
  | .wait => h
  | .proceed =>
    match h.mode with
    | .tuning0 => { h with timeSetHeating := now, lastPwm := h.tuningPwm, mode := .tuning1 }
    | .tuning1 => { h.setHeater 0 with lastPwm := 0, mode := .tuning2 }
    | .tuning2 => { h with lastPwm := h.tuningPwm, mode := .tuning3 }
    | .tuning3 => { h with lastPwm := 0, mode := .tuning2 }
    | _ => h.switchOff
  | .finish model =>
    match h.mode, model with
    | .tuning2, some p => (h.setModel p).switchOff
    | .tuning3, _ => h
    | _, _ => h.switchOff

/-- The rate at which the temperature has risen over the last readings, unless it is a spike. -/
def derivative (h : LocalHeater) : Option ℚ :=
  if h.previousTemperaturesGood &&& 8 ≠ 0 then
    let tentative := (1000 / heatSampleIntervalMillis : ℚ) *
      (h.temperature - h.previousTemperatures h.previousTemperatureIndex) / 4
    if |tentative| ≤ 10 then some tentative else none
  else none

def storeTemperature (h : LocalHeater) : LocalHeater :=
  { h with
    badTemperatureCount := 0
    previousTemperatures :=
      Function.update h.previousTemperatures h.previousTemperatureIndex h.temperature
    previousTemperaturesGood := (h.previousTemperaturesGood <<< 1) ||| 1
    previousTemperatureIndex := h.previousTemperatureIndex + 1 }

def getExpectedHeatingRate (h : LocalHeater) : ℚ :=
  h.model.getNetHeatingRate (max (h.temperature - lowAmbientTemperature) 0) 1
    (min h.averagePwm h.lastPwm)

/-- One more questionable behaviour, and a fault if it has gone on for too long. -/
def countHeatingFault (h : LocalHeater) : LocalHeater :=
  let h := { h with heatingFaultCount := h.heatingFaultCount + 1 }
  if ((h.heatingFaultCount.toNat * heatSampleIntervalMillis : ℕ) : ℚ) > h.maxHeatingFaultTime * 1000
  then h.raiseHeaterFault
  else h

def forgiveHeatingFault (h : LocalHeater) : LocalHeater :=
  if h.heatingFaultCount ≠ 0 then { h with heatingFaultCount := h.heatingFaultCount - 1 } else h

def minTemperatureRiseFactor (h : LocalHeater) : ℚ := if h.isBedOrChamber then 0.3 else 0.6

/-- Whether the temperature rises as it should. -/
def checkHeating (now : UInt32) (gotDerivative : Bool) (h : LocalHeater) : LocalHeater :=
  if ((now - h.timeSetHeating).toNat : ℚ) < h.model.deadTime * 1000 * 2 then
    { h with lastTemperatureValue := h.temperature, lastTemperatureMillis := now }
  else if gotDerivative then
    let expectedRate := h.getExpectedHeatingRate
    let actualInterval : ℚ := (now - h.lastTemperatureMillis).toNat / 1000
    if expectedRate ≠ 0 ∧ actualInterval ≥ 3 / expectedRate then
      if h.temperature - h.lastTemperatureValue <
          expectedRate * actualInterval * h.minTemperatureRiseFactor then h.countHeatingFault
      else
        forgiveHeatingFault
          { h with lastTemperatureValue := h.temperature, lastTemperatureMillis := now }
    else h
  else h

def heatingChecks (now : UInt32) (gotDerivative : Bool) (targetTemperature : ℚ) (h : LocalHeater) :
    LocalHeater :=
  let error := targetTemperature - h.temperature
  match h.mode with
  | .heating =>
    if error ≤ temperatureCloseEnough then { h with mode := .stable, heatingFaultCount := 0 }
    else h.checkHeating now gotDerivative
  | .stable =>
    if |error| > h.maxTempExcursion ∧ h.temperature > maxAmbientTemperature then h.countHeatingFault
    else h.forgiveHeatingFault
  | .cooling =>
    if -error ≤ temperatureCloseEnough ∧ targetTemperature > maxAmbientTemperature then
      { h with mode := .stable, heatingFaultCount := 0 }
    else h
  | _ => h

def pidPwm (derivative error : ℚ) (h : LocalHeater) : LocalHeater :=
  let inLoadMode := decide (h.mode = .stable) || decide (|error| < 3)
  let params := h.model.getPidParameters inLoadMode
  let pPlusD := params.kP * (error - params.tD * derivative)
  let expectedPwm :=
    h.model.estimateRequiredPwm (h.temperature - normalAmbientTemperature) h.lastFanPwm
  if pPlusD + expectedPwm > h.model.maxPwm then
    if h.mode = .heating ∧ error > 0 ∧ derivative > 0 then
      { h with lastPwm := h.model.maxPwm, iAccumulator := expectedPwm }
    else { h with lastPwm := h.model.maxPwm }
  else if pPlusD + expectedPwm < 0 then { h with lastPwm := 0 }
  else
    let iAccumulator := constrain (h.iAccumulator +
      error * params.kP * params.recipTi * (heatSampleIntervalMillis / 1000)) 0 h.model.maxPwm
    { h with
      iAccumulator := iAccumulator
      lastPwm := constrain (pPlusD + iAccumulator) 0 h.model.maxPwm }

/-- Normal temperature control. -/
def control (derivative error : ℚ) (h : LocalHeater) : LocalHeater :=
  let h :=
    if h.model.usePid then h.pidPwm derivative error
    else { h with lastPwm := if error > 0 then h.model.maxPwm else 0 }
  if h.model.inverted then { h with lastPwm := h.model.maxPwm - h.lastPwm } else h

def calculatePwm (c : Cycle) (derivative error : ℚ) (h : LocalHeater) : LocalHeater :=
  if h.mode.code ≥ HeaterMode.tuning0.code then h.doTuningStep c.now c.tuning
  else if h.mode.code ≤ HeaterMode.suspended.code then { h with lastPwm := 0 }
  else h.control derivative error

/-- What a monitor does that finds its limit exceeded. -/
def protect (h : LocalHeater) (action : HeaterMonitorAction) : LocalHeater :=
  let h := { h with lastPwm := 0 }
  match action with
  | .generateFault => h.raiseHeaterFault
  | .permanentSwitchOff | .shutDown => h.switchOff
  | .temporarySwitchOff => h

def checkMonitors (sensors : Sensors) (h : LocalHeater) : LocalHeater :=
  let results := h.monitors.map (HeaterMonitor.check sensors h.maxBadTemperatureCount)
  let failed := results.filter fun r => !r.1
  failed.foldl (fun h r => h.protect r.2.action) { h with monitors := results.map Prod.snd }

/-- The part of a control cycle that needs an enabled model. -/
def runModel (c : Cycle) (derivative : Option ℚ) (h : LocalHeater) : LocalHeater :=
  let targetTemperature := h.boostedTarget
  let h :=
    if isPidMode h.mode ∧ h.extrusionTemperatureBoost ≠ h.lastExtrusionTemperatureBoost then
      { h.updateHeaterMode c.now targetTemperature with
        lastExtrusionTemperatureBoost := h.extrusionTemperatureBoost }
    else h
  let error := targetTemperature - h.temperature
  ((h.heatingChecks c.now derivative.isSome targetTemperature).calculatePwm c (derivative.getD 0)
    error).checkMonitors c.sensors

/-- A control cycle with a bad reading leaves the power alone. -/
def spinBad (h : LocalHeater) : LocalHeater :=
  let h := { h with
    temperature := badErrorTemperature
    previousTemperaturesGood := h.previousTemperaturesGood <<< 1
    badReadings := h.badReadings + 1 }
  if h.mode.code > HeaterMode.suspended.code then
    let h := { h with badTemperatureCount := h.badTemperatureCount + 1 }
    if h.badTemperatureCount.toNat > h.maxBadTemperatureCount then h.raiseHeaterFault else h
  else h

/-- The end of a control cycle with a good reading. -/
def writePower (h : LocalHeater) : LocalHeater :=
  let avgFactor : ℚ := heatSampleIntervalMillis / (heatPwmAverageTime * 1000)
  { h.setHeater h.lastPwm with
    averagePwm := h.averagePwm * (1 - avgFactor) + h.lastPwm * avgFactor }

def spinGood (c : Cycle) (temperature : ℚ) (h : LocalHeater) : LocalHeater :=
  let h := { h with temperature := temperature, badReadings := 0 }
  let derivative := h.derivative
  let h := h.storeTemperature
  if h.model.enabled then (h.runModel c derivative).writePower
  else writePower { h with lastPwm := 0 }

def spin (c : Cycle) (h : LocalHeater) : LocalHeater :=
  match c.sensors h.sensorNumber with
  | none => h.spinBad
  | some temperature => h.spinGood c temperature

end LocalHeater

end RepRapFirmware.Heating
