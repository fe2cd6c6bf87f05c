import RepRapFirmware.LpcFirmware.Thermal

/-! The control loop, the tick and the status report. `Control` is cut where the source has
its paragraphs; a part that may end the loop with a fault returns the error it raises. -/

namespace RepRapFirmware.LpcFirmware.Thermal

open Shared.LpcProtocol Shared.Payload Function

/-- The derivative and whether it can be used. -/
abbrev Derivative := Float32 × Bool

/-- The ring buffer slot of the next good sample. -/
def ringSlot (l : Loop) : Fin 4 := ⟨l.previousIndex.toNat % 4, Nat.mod_lt _ (by decide)⟩

def recordSample (goodTemperature : Bool) (l : Loop) : Loop × Derivative :=
  let shifted := { l with goodTemperatureMask := l.goodTemperatureMask <<< 1 }
  if goodTemperature then
    let derivative := shifted.temperature - shifted.previousTemperatures (ringSlot l)
    let available := shifted.goodTemperatureMask &&& 0x08 ≠ 0
    ({ shifted with
        badReadings := 0
        previousTemperatures := update shifted.previousTemperatures (ringSlot l) shifted.temperature
        previousIndex := (shifted.previousIndex + 1) &&& 3
        goodTemperatureMask := shifted.goodTemperatureMask ||| 1 },
      if available then (derivative, derivative.abs ≤ 10.0) else (0.0, false))
  else
    (if shifted.badReadings < 0xFF then { shifted with badReadings := shifted.badReadings + 1 }
      else shifted, 0.0, false)

def adjustedTarget (s : State) : Float32 :=
  let boostedTarget := s.loop.targetTemperature + s.loop.extrusionTemperatureBoost
  if boostedTarget < s.config.upperLimit then boostedTarget else s.config.upperLimit

def followBoost (target : Float32) (s : State) : State :=
  if inPidMode s && s.loop.extrusionTemperatureBoost != s.loop.lastExtrusionTemperatureBoost then
    let followed := updateHeaterState target s
    { followed with loop := { followed.loop with
        lastExtrusionTemperatureBoost := followed.loop.extrusionTemperatureBoost } }
  else s

def faultMillisLimit (c : Config) : UInt32 := (c.maxFaultTime * 1000.0).toUInt32

def checkStable (tempError : Float32) (s : State) : State × Option ThermalError :=
  if tempError.abs > s.config.maxTempExcursion && s.loop.temperature > maxAmbientTemperature then
    let excursion := s.loop.excursionFaultMillis + sampleIntervalMillis
    let counted := { s with loop := { s.loop with excursionFaultMillis := excursion } }
    (counted, if excursion > faultMillisLimit s.config then some .temperatureExcursion else none)
  else if s.loop.excursionFaultMillis ≥ sampleIntervalMillis then
    ({ s with loop := { s.loop with
        excursionFaultMillis := s.loop.excursionFaultMillis - sampleIntervalMillis } }, none)
  else (s, none)

def checkCooling (tempError target : Float32) (s : State) : State × Option ThermalError :=
  if -tempError ≤ temperatureCloseEnough && target > maxAmbientTemperature then
    ({ s with
        state := .stable
        loop := { s.loop with heatingFaultMillis := 0, excursionFaultMillis := 0 } }, none)
  else (s, none)

variable [Libm]

/-- The rate of heating is compared with what the model expects once enough rise is due. -/
def checkRise (now : UInt32) (s : State) : State × Option ThermalError :=
  let l := s.loop
  let temperatureRise := if l.temperature > 15.0 then l.temperature - 15.0 else 0.0
  let heatingPwm := if l.averagePwm < l.lastPwm then l.averagePwm else l.lastPwm
  let expectedRate := s.config.model.heatingRate * heatingPwm
    - coolingRate s.config.model temperatureRise 1.0
  let actualInterval := now - l.heatingReferenceMillis
  if expectedRate ≤ 0.0 || actualInterval.toFloat32 * expectedRate ≥ 3000.0 then
    let expectedRise := expectedRate * actualInterval.toFloat32 * 0.001
    let actualRise := l.temperature - l.heatingReferenceTemperature
    if expectedRate > 0.0 && actualRise < expectedRise * 0.6 then
      let late := l.heatingFaultMillis + sampleIntervalMillis
      let counted := { s with loop := { l with heatingFaultMillis := late } }
      (counted, if late > faultMillisLimit s.config then some .heatingTooSlow else none)
    else
      ({ s with loop := { l with
          heatingReferenceTemperature := l.temperature
          heatingReferenceMillis := now
          heatingFaultMillis := if l.heatingFaultMillis ≥ sampleIntervalMillis then
            l.heatingFaultMillis - sampleIntervalMillis else l.heatingFaultMillis } }, none)
  else (s, none)

def checkHeating (tempError : Float32) (gotDerivative : Bool) (now : UInt32) (s : State) :
    State × Option ThermalError :=
  if tempError ≤ temperatureCloseEnough then
    ({ s with state := .stable, loop := { s.loop with heatingFaultMillis := 0 } }, none)
  else if (now - s.loop.timeSetHeating).toFloat32 < s.config.model.deadTime * 2000.0 then
    ({ s with loop := { s.loop with
        heatingReferenceTemperature := s.loop.temperature
        heatingReferenceMillis := now
        heatingFaultMillis := 0 } }, none)
  else if gotDerivative then checkRise now s
  else (s, none)

/-- The switch on the heater state. -/
def checkProgress (tempError target : Float32) (gotDerivative : Bool) (s : State) :
    State × Option ThermalError :=
  match s.state with
  | .heating => checkHeating tempError gotDerivative s.millisTicks s
  | .stable => checkStable tempError s
  | .cooling => checkCooling tempError target s
  | _ => (s, none)

/-- The PWM that the PID asks for and the integral it leaves behind. -/
def pidOutput (tempError target : Float32) (derivative : Derivative) (s : State) :
    Float32 × Float32 :=
  let model := s.config.model
  let loadMode := s.state = .stable || tempError.abs < 3.0
  let pid := pidForTarget model loadMode target
  let errorMinusD := tempError - (if derivative.2 then pid.tD * derivative.1 else 0.0)
  let pPlusD := pid.kP * errorMinusD
  let expected := coolingRate model (s.loop.temperature - normalAmbientTemperature) s.loop.fanPwm
    / model.heatingRate
  if pPlusD + expected > model.maxPwm then
    (model.maxPwm, if s.state = .heating && tempError > 0.0 && derivative.1 > 0.0 then expected
      else s.loop.integral)
  else if pPlusD + expected < 0.0 then (0.0, s.loop.integral)
  else
    let integral := clamp (s.loop.integral + tempError * pid.kP * pid.recipTi * 0.25) 0.0
      model.maxPwm
    (clamp (pPlusD + integral) 0.0 model.maxPwm, integral)

/-- The PWM before inversion and the integral. -/
def heaterOutput (tempError target : Float32) (derivative : Derivative) (s : State) :
    Float32 × Float32 :=
  if s.config.model.usePid then pidOutput tempError target derivative s
  else (if tempError > 0.0 then s.config.model.maxPwm else 0.0, s.loop.integral)

/-- The end of the control loop: compute the PWM and apply it, unless the link timed out. -/
def drive (tempError target : Float32) (derivative : Derivative) (s : State) : State :=
  let (output, integral) := heaterOutput tempError target derivative s
  let computed := { s with loop := { s.loop with integral := integral } }
  let pwm := if s.config.model.inverted then s.config.model.maxPwm - output else output
  if computed.linkTimeoutLatched then setFault .linkTimeout computed
  else
    let applied := applyHeater pwm computed
    { applied with
      loop := { applied.loop with
        lastPwm := pwm
        averagePwm := applied.loop.averagePwm * 0.95 + pwm * 0.05 }
      statusDirty := true }

/-- The control loop of an active heater that has a good temperature within the limits. -/
def regulate (derivative : Derivative) (s : State) : State :=
  let target := adjustedTarget s
  let followed := followBoost target s
  let tempError := target - followed.loop.temperature
  match checkProgress tempError target derivative.2 followed with
  | (checked, some error) => setFault error checked
  | (checked, none) => drive tempError target derivative checked

/-- The control loop once the sample is taken. -/
def respond (goodTemperature : Bool) (derivative : Derivative) (s : State) : State :=
  if !active s then
    let applied := applyHeater 0.0 s
    { applied with
      loop := { applied.loop with averagePwm := applied.loop.averagePwm * 0.95 }
      statusDirty := true }
  else if !linkAlive s then setFault .linkTimeout s
  else if !goodTemperature && s.loop.badReadings > s.config.maxBadReadings then setFault s.error s
  else if !goodTemperature then { s with statusDirty := true }
  else if s.loop.temperature > s.config.upperLimit then setFault .overTemperature s
  else if s.config.lowerLimit > absoluteZero + 1.0 && s.loop.temperature < s.config.lowerLimit then
    setFault .underTemperature s
  else regulate derivative s

def control (adc : Adc) (s : State) : State :=
  let faultWasLatched := s.state = .fault
  let latchedError := s.error
  let (sampled, goodTemperature) := sampleTemperature adc s
  let error := if faultWasLatched then latchedError else sampled.error
  let (loop, derivative) := recordSample goodTemperature sampled.loop
  respond goodTemperature derivative { sampled with error := error, loop := loop }

def spin (adc : Adc) (s : State) : State :=
  if s.millisTicks - s.lastSampleTime ≥ sampleIntervalMillis then
    control adc { s with lastSampleTime := s.millisTicks }
  else s

omit [Libm]

def tick (s : State) : State :=
  let ticked := { s with millisTicks := s.millisTicks + 1 }
  if active ticked && ticked.millisTicks - ticked.lastHostHeartbeat > linkTimeoutMillis then
    setFault .linkTimeout { ticked with linkTimeoutLatched := true }
  else ticked

def hostHeartbeat (s : State) : State := { s with lastHostHeartbeat := s.millisTicks }

/-- The payload of a status frame, where the status has changed since the last one. -/
def takeStatus (s : State) : Option (State × List UInt8) :=
  if !s.statusDirty then none
  else
    let boundedTemperature := clamp s.loop.temperature (-327.68) 327.67
    let temperatureCenti := (toInt16 (boundedTemperature * 100.0)).toUInt16
    let pwm := (clamp s.loop.averagePwm 0.0 1.0 * 65535.0 + 0.5).toUInt16
    some ({ s with statusDirty := false },
      [temperatureCenti.toUInt8, (temperatureCenti >>> 8).toUInt8,
        s.loop.lastRawAdc.toUInt8, (s.loop.lastRawAdc >>> 8).toUInt8,
        pwm.toUInt8, (pwm >>> 8).toUInt8, s.state.code, s.error.code])

end RepRapFirmware.LpcFirmware.Thermal
