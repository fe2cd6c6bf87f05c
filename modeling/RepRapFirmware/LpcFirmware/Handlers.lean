import Mathlib
import RepRapFirmware.LpcFirmware.Control

/-! The handlers of the frames that configure and command the heater. -/

namespace RepRapFirmware.LpcFirmware.Thermal

open Shared.LpcProtocol Shared.Payload

/-- What a configuration handler does where it finds its part of the configuration wrong. -/
def rejectConfiguration (fault : ThermalError) (s : State) : State :=
  if active s then setFault fault s
  else { s with error := .notConfigured, statusDirty := true }

def rejectModelUpdate (s : State) : State :=
  let dropped := { s with config := { s.config with pendingModelParts := 0 } }
  if active dropped then setFault .controlFault dropped else dropped

def configureModelA (payload : Payload) (length : UInt8) (s : State) : State :=
  if length ≠ 16 then rejectModelUpdate s
  else { s with config := { s.config with
    pendingModel := { s.config.model with
      heatingRate := readFloat payload 0
      basicCoolingRate := readFloat payload 4
      fanCoolingRate := readFloat payload 8
      coolingRateExponent := readFloat payload 12 }
    pendingModelParts := 0x01 } }

def configureModelB (payload : Payload) (length : UInt8) (s : State) : State :=
  if length ≠ 16 then rejectModelUpdate s
  else if s.config.pendingModelParts ≠ 0x01 then rejectModelUpdate s
  else { s with config := { s.config with
    pendingModel := { s.config.pendingModel with
      deadTime := readFloat payload 0
      maxPwm := readFloat payload 4
      overrideKp := readFloat payload 8
      overrideRecipTi := readFloat payload 12 }
    pendingModelParts := 0x03 } }

def configureModelC (payload : Payload) (length : UInt8) (s : State) : State :=
  if length ≠ 5 then rejectModelUpdate s
  else if s.config.pendingModelParts ≠ 0x03 then rejectModelUpdate s
  else
    let flags := getElem payload 4 byte4
    let named := { s.config.pendingModel with overrideTd := readFloat payload 0 }
    if flags &&& ~~~0x07 ≠ 0 then
      rejectModelUpdate { s with config := { s.config with pendingModel := named } }
    else
      let pendingModel := { named with
        usePid := flags &&& 0x01 ≠ 0
        inverted := flags &&& 0x02 ≠ 0
        pidOverridden := flags &&& 0x04 ≠ 0 }
      let pending := { s with config := { s.config with pendingModel := pendingModel } }
      if modelReady pendingModel then
        { pending with config := { pending.config with
            model := pendingModel
            modelConfigured := true
            pendingModelParts := 0 } }
      else rejectModelUpdate pending

def configureHeater (payload : Payload) (length : UInt8) (s : State) : State :=
  if length ≠ 11 then s
  else
    let newFrequency := readU16 payload 0
    let newUpperLimit := ofInt16 (readI16 payload 2) * 0.1
    let newLowerLimit := ofInt16 (readI16 payload 4) * 0.1
    if newFrequency = 0 || newUpperLimit ≤ newLowerLimit then
      rejectConfiguration .controlFault
        { s with config := { s.config with heaterConfigured := false } }
    else { s with
      config := { s.config with
        heaterFrequency := newFrequency
        upperLimit := newUpperLimit
        lowerLimit := newLowerLimit
        maxTempExcursion := (readU16 payload 6).toFloat32 * 0.01
        maxFaultTime := (readU16 payload 8).toFloat32 * 0.1
        maxBadReadings := getElem payload 10 byte10
        heaterConfigured := true }
      statusDirty := true }

def configureFeedForward (payload : Payload) (length : UInt8) (s : State) : State :=
  if length ≠ 12 then s
  else
    let newFanPwm := readFloat payload 0
    let newExtrusionPwmBoost := readFloat payload 4
    let newExtrusionTemperatureBoost := readFloat payload 8
    if !newFanPwm.isFinite || !newExtrusionPwmBoost.isFinite
        || !newExtrusionTemperatureBoost.isFinite then
      setFault .controlFault s
    else
      let clampedFanPwm := clamp newFanPwm 0.0 1.0
      let l := s.loop
      let boosted :=
        if s.state = .stable then
          let pwmBoost := newExtrusionPwmBoost - l.extrusionPwmBoost
          if clampedFanPwm != l.fanPwm then
            let pwmChange := clampedFanPwm - l.fanPwm
            let fanBoost := (l.targetTemperature - normalAmbientTemperature) * 0.01
              * s.config.model.fanCoolingRate * pwmChange / s.config.model.heatingRate
              * fanFeedForwardMultiplier
            { l with
              extrusionPwmBoost := newExtrusionPwmBoost
              fanPwm := clampedFanPwm
              integral := l.integral + (pwmBoost + fanBoost) }
          else { l with
            extrusionPwmBoost := newExtrusionPwmBoost
            integral := l.integral + pwmBoost }
        else l
      { s with loop := { boosted with extrusionTemperatureBoost := newExtrusionTemperatureBoost } }

/-- The loop variables that switching the heater off clears. -/
def clearBoosts (l : Loop) : Loop :=
  { l with
    integral := 0.0
    extrusionPwmBoost := 0.0
    extrusionTemperatureBoost := 0.0
    lastExtrusionTemperatureBoost := 0.0
    excursionFaultMillis := 0
    heatingFaultMillis := 0
    lastPwm := 0.0 }

def commandOff (s : State) : State :=
  let applied := applyHeater 0.0 s
  { applied with
    state := if applied.state ≠ .fault then .off else applied.state
    loop := clearBoosts applied.loop
    statusDirty := true }

def commandSuspend (s : State) : State :=
  let applied := applyHeater 0.0 s
  { applied with
    state := if applied.state ≠ .fault then .suspended else applied.state
    loop := { applied.loop with lastPwm := 0.0 }
    statusDirty := true }

variable [Libm]

def configureThermistor (payload : Payload) (length : UInt8) (s : State) : State :=
  if length ≠ 16 then s
  else
    let r25 := readFloat payload 0
    let beta := readFloat payload 4
    let shC := readFloat payload 8
    let pullupR := readFloat payload 12
    let read := { s with config := { s.config with
      r25 := r25, beta := beta, shC := shC, pullupR := pullupR } }
    if !r25.isFinite || !beta.isFinite || !shC.isFinite || !pullupR.isFinite
        || ¬ r25 > 0.0 || ¬ beta > 0.0 || ¬ pullupR > 0.0 then
      rejectConfiguration .notConfigured
        { read with config := { read.config with thermistorConfigured := false } }
    else
      let shB := 1.0 / beta
      let lnR25 := Libm.logf r25
      let shA := 1.0 / (25.0 - absoluteZero) - shB * lnR25 - shC * lnR25 * lnR25 * lnR25
      { read with
        config := { read.config with shA := shA, shB := shB, thermistorConfigured := true }
        loop := { read.loop with badReadings := 0 }
        statusDirty := true }

/-- The checks of the command `on`, in the source's order: the temperature is sampled only
where the ones before it hold. The second component tells whether the command was refused. -/
def checkReady (adc : Adc) (s : State) : State × Bool :=
  if !linkAlive s || !s.config.thermistorConfigured || !s.config.heaterConfigured
      || !s.config.modelConfigured || s.state = .fault then (s, true)
  else
    let (sampled, goodTemperature) := sampleTemperature adc s
    (sampled, !goodTemperature)

def refusal (s : State) : ThermalError :=
  if !linkAlive s then .linkTimeout
  else if !s.config.thermistorConfigured || !s.config.heaterConfigured
      || !s.config.modelConfigured then .notConfigured
  else s.error

def commandOn (requestedTarget : Float32) (adc : Adc) (s : State) : State :=
  match checkReady adc s with
  | (checked, true) =>
    if checked.state ≠ .fault then setFault (refusal checked) checked else checked
  | (checked, false) =>
    let upperLimit := checked.config.upperLimit
    let lowerLimit := checked.config.lowerLimit
    if upperLimit ≥ 1000.0 || requestedTarget > upperLimit
        || (lowerLimit > absoluteZero + 1.0 && requestedTarget < lowerLimit) then
      setFault .controlFault checked
    else
      let targeted := { checked with loop := { checked.loop with
        targetTemperature := requestedTarget } }
      { updateHeaterState (adjustedTarget targeted) targeted with statusDirty := true }

def commandResetFault (adc : Adc) (s : State) : State :=
  if !linkAlive s then { s with statusDirty := true }
  else
    let (sampled, goodTemperature) := sampleTemperature adc s
    if goodTemperature then
      let applied := applyHeater 0.0 { sampled with linkTimeoutLatched := false }
      { applied with
        state := .off
        error := .none
        loop := { clearBoosts applied.loop with badReadings := 0 }
        statusDirty := true }
    else { sampled with statusDirty := true }

def command (payload : Payload) (length : UInt8) (adc : Adc) (s : State) : State :=
  if length ≠ 3 then s
  else
    let requestedTarget := ofInt16 (readI16 payload 1) * 0.01
    match HeaterCommand.ofCode (getElem payload 0 byte0) with
    | some .off => commandOff s
    | some .on => commandOn requestedTarget adc s
    | some .suspend => commandSuspend s
    | some .resetFault => commandResetFault adc s
    | none => { s with statusDirty := true }

def handleFrame (frame : Frame) (adc : Adc) (s : State) : State :=
  match MessageType.ofCode frame.type with
  | some .thermistorConfig => configureThermistor frame.payload frame.length s
  | some .heaterModelA => configureModelA frame.payload frame.length s
  | some .heaterModelB => configureModelB frame.payload frame.length s
  | some .heaterModelC => configureModelC frame.payload frame.length s
  | some .heaterConfig => configureHeater frame.payload frame.length s
  | some .heaterCommand => command frame.payload frame.length adc s
  | some .heaterFeedForward => configureFeedForward frame.payload frame.length s
  | _ => s

omit [Libm]

def resetLoop (l : Loop) : Loop :=
  { l with
    badReadings := 0
    lastRawAdc := 0
    temperature := absoluteZero
    targetTemperature := 0.0
    fanPwm := 0.0
    extrusionPwmBoost := 0.0
    extrusionTemperatureBoost := 0.0
    lastExtrusionTemperatureBoost := 0.0
    integral := 0.0
    averagePwm := 0.0
    lastPwm := 0.0
    heatingReferenceTemperature := 0.0
    heatingReferenceMillis := 0
    timeSetHeating := 0
    excursionFaultMillis := 0
    heatingFaultMillis := 0
    previousIndex := 0
    goodTemperatureMask := 0 }

def resetConfig (c : Config) : Config :=
  { c with
    heaterFrequency := 250
    maxBadReadings := 3
    thermistorConfigured := false
    heaterConfigured := false
    modelConfigured := false
    pendingModelParts := 0
    upperLimit := 2000.0
    lowerLimit := absoluteZero
    maxTempExcursion := 15.0
    maxFaultTime := 5.0 }

def resetConfiguration (s : State) : State :=
  { applyHeater 0.0 { s with
      config := resetConfig s.config
      loop := resetLoop s.loop
      state := .off
      error := .notConfigured
      linkTimeoutLatched := false } with statusDirty := true }

end RepRapFirmware.LpcFirmware.Thermal
