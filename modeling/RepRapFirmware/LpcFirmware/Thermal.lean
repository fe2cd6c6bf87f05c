import RepRapFirmware.LpcFirmware.Pwm

/-! The state of the LPC's thermal module and the functions its handlers and its control loop
share. The static variables are grouped by what they are for: configuration, control loop, and
the rest. A C `float` is a `Float32`; its logarithm and power are left to the C library. -/

namespace RepRapFirmware.LpcFirmware.Thermal

open Shared.LpcProtocol Gpio

class Libm where
  logf : Float32 → Float32
  powf : Float32 → Float32 → Float32

def sampleIntervalMillis : UInt32 := 250
def linkTimeoutMillis : UInt32 := 2500
def absoluteZero : Float32 := -273.15
def minimumConnectedTemperature : Float32 := -5.0
def normalAmbientTemperature : Float32 := 25.0
def temperatureCloseEnough : Float32 := 1.5
def maxAmbientTemperature : Float32 := 45.0
def fanFeedForwardMultiplier : Float32 := 0.7
def heaterPin : UInt8 := Pins.heater
def adcRange : UInt16 := 1024

structure Model where
  heatingRate : Float32
  basicCoolingRate : Float32
  fanCoolingRate : Float32
  coolingRateExponent : Float32
  deadTime : Float32
  maxPwm : Float32
  overrideKp : Float32
  overrideRecipTi : Float32
  overrideTd : Float32
  usePid : Bool
  inverted : Bool
  pidOverridden : Bool
  deriving DecidableEq

structure Pid where
  kP : Float32
  recipTi : Float32
  tD : Float32

/-- The static variables that configuration frames set. -/
structure Config where
  heaterFrequency : UInt16
  maxBadReadings : UInt8
  r25 : Float32
  beta : Float32
  shC : Float32
  pullupR : Float32
  shA : Float32
  shB : Float32
  upperLimit : Float32
  lowerLimit : Float32
  maxTempExcursion : Float32
  maxFaultTime : Float32
  thermistorConfigured : Bool
  heaterConfigured : Bool
  modelConfigured : Bool
  model : Model
  pendingModel : Model
  pendingModelParts : UInt8

/-- The static variables of sampling, of the control loop and of feed-forward. -/
structure Loop where
  lastRawAdc : UInt16
  badReadings : UInt8
  temperature : Float32
  targetTemperature : Float32
  fanPwm : Float32
  extrusionPwmBoost : Float32
  extrusionTemperatureBoost : Float32
  lastExtrusionTemperatureBoost : Float32
  integral : Float32
  averagePwm : Float32
  lastPwm : Float32
  heatingReferenceTemperature : Float32
  heatingReferenceMillis : UInt32
  timeSetHeating : UInt32
  excursionFaultMillis : UInt32
  heatingFaultMillis : UInt32
  previousTemperatures : Fin 4 → Float32
  previousIndex : UInt8
  goodTemperatureMask : UInt8

structure State where
  millisTicks : UInt32
  lastHostHeartbeat : UInt32
  lastSampleTime : UInt32
  statusDirty : Bool
  config : Config
  loop : Loop
  state : HeaterState
  error : ThermalError
  linkTimeoutLatched : Bool
  board : Board

def clamp (value low high : Float32) : Float32 :=
  if value < low then low else if value > high then high else value

def modelReady (candidate : Model) : Bool :=
  candidate.heatingRate.isFinite && candidate.heatingRate > 0.0
    && candidate.basicCoolingRate.isFinite && candidate.basicCoolingRate ≥ 0.0
    && candidate.fanCoolingRate.isFinite && candidate.fanCoolingRate ≥ 0.0
    && candidate.coolingRateExponent.isFinite && candidate.coolingRateExponent ≥ 1.0
    && candidate.coolingRateExponent ≤ 1.6
    && candidate.deadTime.isFinite && candidate.deadTime > 0.0
    && candidate.maxPwm.isFinite && candidate.maxPwm > 0.0 && candidate.maxPwm ≤ 1.0
    && (!candidate.pidOverridden || (candidate.overrideKp.isFinite
      && candidate.overrideRecipTi.isFinite && candidate.overrideTd.isFinite))

def linkAlive (s : State) : Bool := s.millisTicks - s.lastHostHeartbeat ≤ linkTimeoutMillis

def active (s : State) : Bool := s.state.code ≥ HeaterState.cooling.code

def inPidMode (s : State) : Bool :=
  s.state.code ≥ HeaterState.cooling.code && s.state.code ≤ HeaterState.heating.code

def updateHeaterState (target : Float32) (s : State) : State :=
  let temperature := s.loop.temperature
  let newState :=
    if temperature + temperatureCloseEnough < target then HeaterState.heating
    else if temperature > target + temperatureCloseEnough then .cooling else .stable
  if newState = s.state then s
  else
    let referenced := if newState = .heating then
        { s.loop with
          heatingReferenceTemperature := temperature
          heatingReferenceMillis := s.millisTicks
          timeSetHeating := s.millisTicks }
      else s.loop
    { s with
      loop := { referenced with heatingFaultMillis := 0, excursionFaultMillis := 0 }
      state := newState }

def setHeaterPwm (duty : UInt16) (s : State) : State :=
  { s with board := (Pwm.set s.board heaterPin duty s.config.heaterFrequency).getD s.board }

/-- The second test can only succeed where an interrupt latches the timeout during the write. -/
def applyHeater (pwm : Float32) (s : State) : State :=
  let timeoutBeforeWrite := s.linkTimeoutLatched
  let limited := if timeoutBeforeWrite then 0.0 else clamp pwm 0.0 1.0
  let duty := (limited * 65535.0 + 0.5).toUInt16
  let written := setHeaterPwm duty s
  if !timeoutBeforeWrite && written.linkTimeoutLatched then setHeaterPwm 0 written else written

def setFault (newError : ThermalError) (s : State) : State :=
  { applyHeater 0.0 s with state := .fault, error := newError, statusDirty := true }

/-- The values that the ADC data register shows to the polls of one conversion. -/
abbrev Conversion := ℕ → UInt32

/-- The conversions of one temperature sample. -/
abbrev Adc := Fin 8 → Conversion

def pollAdc (conversion : Conversion) : ℕ → ℕ → Option UInt16
  | 0, _ => none
  | polls + 1, timeout =>
    let reading := conversion timeout
    if reading &&& ((1 : UInt32) <<< 31) ≠ 0 then some ((reading >>> 6) &&& 0x03FF).toUInt16
    else pollAdc conversion polls (timeout + 1)

def readAdc (conversion : Conversion) : Option UInt16 := pollAdc conversion 10000 0

def sumReadings (adc : Adc) : Option UInt32 :=
  (List.finRange 8).foldlM (fun sum i => (readAdc (adc i)).map (fun r => sum + r.toUInt32)) 0

variable [Libm]

/-- The resistance of the thermistor and the reciprocal of its absolute temperature. -/
def thermistor (c : Config) (rawAdc : UInt16) : Float32 × Float32 :=
  let resistance := c.pullupR * rawAdc.toFloat32 / (adcRange - rawAdc).toFloat32
  let logResistance := Libm.logf resistance
  (resistance, c.shA + c.shB * logResistance + c.shC * logResistance * logResistance *
  logResistance)

/-- What a sample comes to: the loop variables it leaves behind and the error it reports,
`none` being a good temperature. -/
def sample (adc : Adc) (s : State) : Loop × ThermalError :=
  if !s.config.thermistorConfigured then (s.loop, .notConfigured)
  else match sumReadings adc with
    | none => (s.loop, .adcTimeout)
    | some sum =>
      let rawAdc := ((sum + 4) / 8).toUInt16
      let read := { s.loop with lastRawAdc := rawAdc }
      if rawAdc = 0 then (read, .shortCircuit)
      else
        let (resistance, recipT) := thermistor s.config rawAdc
        if ¬ recipT > 0.0 then (read, .openCircuit)
        else
          let temperature := 1.0 / recipT + absoluteZero
          let measured := { read with temperature := temperature }
          if !temperature.isFinite || (temperature < minimumConnectedTemperature
              && resistance > s.config.pullupR * 100.0) then (measured, .openCircuit)
          else (measured, .none)

def sampleTemperature (adc : Adc) (s : State) : State × Bool :=
  let (loop, error) := sample adc s
  ({ s with loop := loop, error := error }, error = .none)

def coolingRate (model : Model) (temperatureRise pwmFan : Float32) : Float32 :=
  let scaledRise := temperatureRise * 0.01
  let base := if scaledRise < 0.0 then -Libm.powf (-scaledRise) model.coolingRateExponent
    else Libm.powf scaledRise model.coolingRateExponent
  model.basicCoolingRate * base + scaledRise * model.fanCoolingRate * pwmFan

def pidForTarget (model : Model) (loadMode : Bool) (target : Float32) : Pid :=
  if model.pidOverridden then ⟨model.overrideKp, model.overrideRecipTi, model.overrideTd⟩
  else
    let rise := if target - normalAmbientTemperature > 1.0 then target - normalAmbientTemperature
      else 1.0
    let coolingPerDegree := coolingRate model rise 0.2 / rise
    let kP := 0.7 / (model.heatingRate * model.deadTime)
    let recipTi := if loadMode then
        Libm.powf coolingPerDegree 0.25 / (1.14 * Libm.powf model.deadTime 0.75)
      else (coolingPerDegree / model.deadTime).sqrt
    ⟨kP, recipTi, model.deadTime * 0.7⟩

end RepRapFirmware.LpcFirmware.Thermal
