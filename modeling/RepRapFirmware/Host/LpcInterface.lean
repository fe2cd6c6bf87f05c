import Mathlib
import RepRapFirmware.Shared.Payload

/-! The host's side of the link: its caches of the LPC's pins and of the heater's configuration,
the frames it sends, and what it keeps of the frames it receives. `State.pins` can only hold modes
that a pin is capable of. A function returns the frames that it sends. -/

namespace RepRapFirmware.Host.LpcInterface

open Shared.LpcProtocol Shared.Payload Function

inductive PinMode
  | notConfigured | input | inputPullup | inputPulldown | outputLow | outputHigh | ain
  | outputPwmLow | outputPwmHigh | outputLowOpenDrain | outputHighOpenDrain | outputPwmOpenDrain
  deriving DecidableEq, Repr

namespace PinCapability

def read : UInt8 := 1
def ain : UInt8 := 2
def write : UInt8 := 4
def pwm : UInt8 := 8
def ainr : UInt8 := 1 ||| 2
def wpwm : UInt8 := 4 ||| 8

end PinCapability

def lpcPinIds : Vector UInt8 7 := #v[
  Pins.filamentRunout, Pins.rotation, Pins.hotendFilament, Pins.statusLed, Pins.hotendFan,
  Pins.reflowFan, Pins.hotendNtc]

/-- The capabilities in the rows of `PinTable` that belong to the LPC's pins. -/
def capabilities : Vector UInt8 7 := #v[
  PinCapability.read, PinCapability.read, PinCapability.read, PinCapability.write,
  PinCapability.wpwm, PinCapability.wpwm, PinCapability.ainr]

def firstLpcPin : ℕ := 32 + 32 + 32 + 32 + 6

/-- The index of an LPC pin among the LPC's pins. -/
def pinIndex (pin : UInt8) : Option (Fin 7) :=
  if h : firstLpcPin ≤ pin.toNat ∧ pin.toNat < firstLpcPin + 7 then
    some ⟨pin.toNat - firstLpcPin, by omega⟩
  else none

def Capable (i : Fin 7) (capability : UInt8) : Prop := capabilities.get i &&& capability ≠ 0

instance (i : Fin 7) (capability : UInt8) : Decidable (Capable i capability) :=
  inferInstanceAs (Decidable (¬ _ = _))

def Allowed (i : Fin 7) : GpioMode → Prop
  | .disabled => True
  | .input | .inputPullup => Capable i PinCapability.read
  | .output => Capable i PinCapability.write
  | .pwm => Capable i PinCapability.pwm
  | .analog => Capable i PinCapability.ain
  | .unnamed _ => False

structure PinCache where
  mode : GpioMode
  value : Bool
  stateReceived : Bool
  pwmValue : UInt16
  pwmFrequency : UInt16

structure ThermalStatus where
  temperature : Float32
  rawAdc : UInt16
  averagePwm : Float32
  state : HeaterState
  error : ThermalError

/-- The payloads that the host has cached for the heater, with the flags that say whether it has. -/
structure HeaterCache where
  thermistorPayload : Vector UInt8 16
  modelAPayload : Vector UInt8 16
  modelBPayload : Vector UInt8 16
  modelCPayload : Vector UInt8 5
  heaterPayload : Vector UInt8 11
  feedForwardPayload : Vector UInt8 12
  thermistorConfigured : Bool
  thermistorSensorNumber : ℤ
  modelConfigured : Bool
  heaterConfigured : Bool
  feedForwardConfigured : Bool

structure State where
  millis : UInt32
  pins : Fin 7 → PinCache
  allowed : ∀ i, Allowed i (pins i).mode
  online : Bool
  lastPingSent : UInt32
  lastPongReceived : UInt32
  connectionGeneration : UInt32
  firmwareUpdateActive : Bool
  heater : HeaterCache
  thermalStatusReceived : Bool
  thermalStatus : ThermalStatus
  thermalStatusReceivedAt : UInt32

section Send

variable (h : State)

def send (type : MessageType) (payload : List UInt8) : List Frame :=
  if h.firmwareUpdateActive then [] else [Frame.ofBytes type payload]

def sendPing : State × List Frame := ({ h with lastPingSent := h.millis }, send h .ping [version])

def gpioConfigPayload (i : Fin 7) : List UInt8 :=
  [lpcPinIds.get i, (h.pins i).mode.code, if (h.pins i).value then 1 else 0]

def sendGpioConfig (i : Fin 7) : List Frame := send h .gpioConfig (gpioConfigPayload h i)

def pwmPayload (i : Fin 7) : List UInt8 :=
  lpcPinIds.get i :: (putU16 (h.pins i).pwmValue ++ putU16 (h.pins i).pwmFrequency)

def sendPwm (i : Fin 7) : List Frame := send h .pwmWrite (pwmPayload h i)

def replayPin (i : Fin 7) : List Frame :=
  if (h.pins i).mode ≠ .disabled then
    sendGpioConfig h i ++
      if (h.pins i).mode = .pwm ∧ (h.pins i).pwmFrequency ≠ 0 then sendPwm h i else []
  else []

def replayHeater : List Frame :=
  (if h.heater.thermistorConfigured then
      send h .thermistorConfig h.heater.thermistorPayload.toList else []) ++
    (if h.heater.modelConfigured then
      send h .heaterModelA h.heater.modelAPayload.toList ++
        send h .heaterModelB h.heater.modelBPayload.toList ++
          send h .heaterModelC h.heater.modelCPayload.toList else []) ++
    (if h.heater.heaterConfigured then
      send h .heaterConfig h.heater.heaterPayload.toList else []) ++
    (if h.heater.feedForwardConfigured then
      send h .heaterFeedForward h.heater.feedForwardPayload.toList else [])

def replayConfiguration : List Frame :=
  send h .configurationReset [] ++ (List.finRange 7).flatMap (replayPin h) ++ replayHeater h ++
    send h .configurationComplete []

end Send

section Receive

variable (frame : Frame) (h : State)

def setOffline (h : State) : State :=
  { h with
    online := false
    pins := fun i => { h.pins i with stateReceived := false }
    thermalStatusReceived := false }

def handlePong : State × List Frame :=
  if frame.length ≠ 2 ∨ getElem frame.payload 0 byte0 ≠ version then (setOffline h, [])
  else
    let reconnected := !h.online || getElem frame.payload 1 byte1 ≠ 0
    let dropped := if reconnected then setOffline h else h
    let connected := { dropped with
      online := true
      lastPongReceived := h.millis
      connectionGeneration :=
        if reconnected then h.connectionGeneration + 1 else h.connectionGeneration }
    (connected, if reconnected then replayConfiguration connected else [])

def setPin (i : Fin 7) (c : PinCache) (hc : Allowed i c.mode) (h : State) : State :=
  { h with
    pins := update h.pins i c
    allowed := fun j => by
      by_cases hj : j = i
      · subst hj
        simpa using hc
      · simpa [update_of_ne hj] using h.allowed j }

def handleGpioState : State :=
  if frame.length ≠ 2 then h
  else match (List.finRange 7).find? (fun i => lpcPinIds.get i = getElem frame.payload 0 byte0) with
    | none => h
    | some i => setPin i { h.pins i with
        value := getElem frame.payload 1 byte1 ≠ 0
        stateReceived := true }
        (h.allowed i) h

def HeaterState.ofCode (b : UInt8) : Option HeaterState :=
  [HeaterState.fault, .offline, .off, .suspended, .cooling, .stable, .heating].find?
    (fun s => s.code = b)

def ThermalError.ofCode (b : UInt8) : Option ThermalError :=
  [ThermalError.none, .notConfigured, .adcTimeout, .shortCircuit, .openCircuit, .overTemperature,
    .underTemperature, .linkTimeout, .controlFault, .heatingTooSlow, .temperatureExcursion].find?
    (fun e => e.code = b)

/-- A status with a state or an error that has no name is ignored. -/
def readStatus : Option ThermalStatus :=
  if frame.length ≠ 8 ∨ readU16 frame.payload 2 ≥ 1024 then none
  else match HeaterState.ofCode (getElem frame.payload 6 byte6),
      ThermalError.ofCode (getElem frame.payload 7 byte7) with
    | some state, some error => some
      { temperature := ofInt16 (readI16 frame.payload 0) * 0.01
        rawAdc := readU16 frame.payload 2
        averagePwm := (readU16 frame.payload 4).toFloat32 * (1.0 / 65535.0)
        state := state
        error := error }
    | _, _ => none

def handleThermalStatus : State :=
  match readStatus frame with
  | none => h
  | some status => { h with
      thermalStatus := status
      thermalStatusReceivedAt := h.millis
      thermalStatusReceived := true }

def handleFrame : State × List Frame :=
  match MessageType.ofCode frame.type with
  | some .pong => handlePong frame h
  | some .gpioState => (handleGpioState frame h, [])
  | some .thermalStatus => (handleThermalStatus frame h, [])
  | _ => (h, [])

/-- The end of `Spin`, once the received bytes are handled. -/
def keepAlive (h : State) : State × List Frame :=
  let checked := if !h.firmwareUpdateActive && h.online && h.millis - h.lastPongReceived ≥ 3000 then
    setOffline h else h
  if !h.firmwareUpdateActive && h.millis - h.lastPingSent ≥ 1000 then sendPing checked
  else (checked, [])

end Receive

section Calls

variable (h : State)

/-- What `SetPinMode` makes of a mode: the capability that it needs, the LPC's mode and, for an
output, the level. -/
def modeChange : PinMode → Option (UInt8 × GpioMode × Option Bool)
  | .input => some (PinCapability.read, .input, none)
  | .inputPullup => some (PinCapability.read, .inputPullup, none)
  | .outputLow => some (PinCapability.write, .output, some false)
  | .outputHigh => some (PinCapability.write, .output, some true)
  | .outputPwmLow => some (PinCapability.pwm, .pwm, some false)
  | .outputPwmHigh => some (PinCapability.pwm, .pwm, some true)
  | .ain => some (PinCapability.ain, .analog, none)
  | _ => none

lemma allowed_of_modeChange {mode : PinMode} {i : Fin 7} {capability : UInt8} {m : GpioMode}
    {v : Option Bool} (hm : modeChange mode = some (capability, m, v))
    (hc : Capable i capability) : Allowed i m := by
  cases mode <;> simp only [modeChange, reduceCtorEq, Option.some.injEq, Prod.mk.injEq] at hm <;>
    obtain ⟨rfl, rfl, -⟩ := hm <;> exact hc

def setMode (c : PinCache) (m : GpioMode) (v : Option Bool) : PinCache :=
  { c with
    mode := m
    value := v.getD c.value
    stateReceived := if m = .input ∨ m = .inputPullup then false else c.stateReceived }

def setPinMode (pin : UInt8) (mode : PinMode) : State × List Frame × Bool :=
  match pinIndex pin with
  | none => (h, [], false)
  | some i =>
    match hm : modeChange mode with
    | none => (h, [], false)
    | some (capability, m, v) =>
      if hc : Capable i capability then
        let changed := setPin i (setMode (h.pins i) m v) (allowed_of_modeChange hm hc) h
        (changed, if changed.online then sendGpioConfig changed i else [], true)
      else (h, [], false)

def readPin (pin : UInt8) : Bool := (pinIndex pin).any (fun i => (h.pins i).value)

def writePin (pin : UInt8) (high : Bool) : State × List Frame :=
  match pinIndex pin with
  | none => (h, [])
  | some i =>
    let written := setPin i { h.pins i with value := high } (h.allowed i) h
    (written, if written.online then
      send written .gpioWrite [lpcPinIds.get i, if high then 1 else 0] else [])

def dutyOf (duty : Float32) : UInt16 :=
  let constrainedDuty := if duty ≤ 0.0 then 0.0 else if duty ≥ 1.0 then 1.0 else duty
  (constrainedDuty * 65535.0 + 0.5).toUInt16

def writePwm (pin : UInt8) (duty : Float32) (frequency : UInt16) : State × List Frame :=
  match pinIndex pin with
  | none => (h, [])
  | some i =>
    let written := setPin i
      { h.pins i with pwmValue := dutyOf duty, pwmFrequency := frequency } (h.allowed i) h
    (written, if written.online then sendPwm written i else [])

def toCentiDegrees (value : Float32) : Int16 :=
  let scaled := value * 100.0
  toInt16 (if scaled < -32768.0 then -32768.0 else if scaled > 32767.0 then 32767.0 else scaled)

def commandHeater (command : HeaterCommand) (targetTemperature : Float32) : List Frame :=
  if command = .off ∨ h.online then
    send h .heaterCommand (command.code :: putU16 (toCentiDegrees targetTemperature).toUInt16)
  else []

def getThermalStatus : Option ThermalStatus :=
  if !h.online || !h.thermalStatusReceived
      || (!h.firmwareUpdateActive && h.millis - h.thermalStatusReceivedAt ≥ 1000) then none
  else some h.thermalStatus

def blankPin : PinCache := ⟨.disabled, false, false, 0, 0⟩

def blankHeater : HeaterCache :=
  ⟨.replicate 16 0, .replicate 16 0, .replicate 16 0, .replicate 5 0, .replicate 11 0,
    .replicate 12 0, false, -1, false, false, false⟩

def blank : State where
  millis := 0
  pins := fun _ => blankPin
  allowed := fun _ => trivial
  online := false
  lastPingSent := 0
  lastPongReceived := 0
  connectionGeneration := 0
  firmwareUpdateActive := false
  heater := blankHeater
  thermalStatusReceived := false
  thermalStatus := ⟨0.0, 0, 0.0, .fault, .none⟩
  thermalStatusReceivedAt := 0

/-- The host at the end of its initialisation. -/
def init : State × List Frame := sendPing blank

end Calls

end RepRapFirmware.Host.LpcInterface
