import Mathlib.Tactic

/-! The serial protocol between the host and the LPC. A value of a C++ enumeration over a
byte may be any byte, so a frame keeps its type as the byte that was received. -/

namespace RepRapFirmware.Shared.LpcProtocol

def version : UInt8 := 3
def syncByte : UInt8 := 0xA5
def maxPayload : ℕ := 16
def maxEncodedFrame : ℕ := maxPayload + 4

namespace Pins

def filamentRunout : UInt8 := 0x27
def rotation : UInt8 := 0x21
def hotendFilament : UInt8 := 0x06
def statusLed : UInt8 := 0x2A
def heater : UInt8 := 0x09
def hotendFan : UInt8 := 0x25
def reflowFan : UInt8 := 0x1A
def hotendNtc : UInt8 := 0x10

end Pins

inductive MessageType
  | ping | pong | gpioConfig | gpioWrite | gpioState | pwmWrite | thermistorConfig
  | heaterModelA | heaterModelB | heaterModelC | heaterConfig | heaterCommand | thermalStatus
  | heaterFeedForward | configurationReset | configurationComplete
  deriving DecidableEq, Repr

def MessageType.code : MessageType → UInt8
  | .ping => 1
  | .pong => 2
  | .gpioConfig => 3
  | .gpioWrite => 4
  | .gpioState => 5
  | .pwmWrite => 6
  | .thermistorConfig => 7
  | .heaterModelA => 8
  | .heaterModelB => 9
  | .heaterModelC => 10
  | .heaterConfig => 11
  | .heaterCommand => 12
  | .thermalStatus => 13
  | .heaterFeedForward => 14
  | .configurationReset => 15
  | .configurationComplete => 16

def MessageType.all : List MessageType :=
  [.ping, .pong, .gpioConfig, .gpioWrite, .gpioState, .pwmWrite, .thermistorConfig,
    .heaterModelA, .heaterModelB, .heaterModelC, .heaterConfig, .heaterCommand, .thermalStatus,
    .heaterFeedForward, .configurationReset, .configurationComplete]

/-- The enumerator a received byte names, if it names one. -/
def MessageType.ofCode (b : UInt8) : Option MessageType :=
  MessageType.all.find? (fun t => t.code = b)

@[simp] lemma MessageType.ofCode_code (t : MessageType) : ofCode t.code = some t := by
  cases t <;> rfl

inductive GpioMode
  | disabled | input | inputPullup | output | pwm | analog
  | unnamed (code : UInt8)
  deriving DecidableEq, Repr

def GpioMode.code : GpioMode → UInt8
  | .disabled => 0
  | .input => 1
  | .inputPullup => 2
  | .output => 3
  | .pwm => 4
  | .analog => 5
  | .unnamed code => code

def GpioMode.ofCode (b : UInt8) : GpioMode :=
  if b = 0 then .disabled else if b = 1 then .input else if b = 2 then .inputPullup
  else if b = 3 then .output else if b = 4 then .pwm else if b = 5 then .analog else .unnamed b

inductive HeaterCommand
  | off | on | suspend | resetFault
  deriving DecidableEq, Repr

def HeaterCommand.code : HeaterCommand → UInt8
  | .off => 0
  | .on => 1
  | .suspend => 2
  | .resetFault => 3

def HeaterCommand.ofCode (b : UInt8) : Option HeaterCommand :=
  [HeaterCommand.off, .on, .suspend, .resetFault].find? (fun c => c.code = b)

@[simp] lemma HeaterCommand.ofCode_code (c : HeaterCommand) : ofCode c.code = some c := by
  cases c <;> rfl

inductive HeaterState
  | fault | offline | off | suspended | cooling | stable | heating
  deriving DecidableEq, Repr

def HeaterState.code : HeaterState → UInt8
  | .fault => 0
  | .offline => 1
  | .off => 2
  | .suspended => 3
  | .cooling => 4
  | .stable => 5
  | .heating => 6

inductive ThermalError
  | none | notConfigured | adcTimeout | shortCircuit | openCircuit | overTemperature
  | underTemperature | linkTimeout | controlFault | heatingTooSlow | temperatureExcursion
  deriving DecidableEq, Repr

def ThermalError.code : ThermalError → UInt8
  | .none => 0
  | .notConfigured => 1
  | .adcTimeout => 2
  | .shortCircuit => 3
  | .openCircuit => 4
  | .overTemperature => 5
  | .underTemperature => 6
  | .linkTimeout => 7
  | .controlFault => 8
  | .heatingTooSlow => 9
  | .temperatureExcursion => 10

abbrev Payload := Vector UInt8 16

/-! The bytes that are read by their number are in a payload. The bounds have names, so that all
the definitions take the same proof. -/

lemma byte0 : 0 < 16 := by decide
lemma byte1 : 1 < 16 := by decide
lemma byte2 : 2 < 16 := by decide
lemma byte4 : 4 < 16 := by decide
lemma byte6 : 6 < 16 := by decide
lemma byte7 : 7 < 16 := by decide
lemma byte10 : 10 < 16 := by decide

structure Frame where
  type : UInt8
  length : UInt8
  payload : Payload
  deriving DecidableEq, Repr

/-- The bytes of the payload that belong to the frame; what lies beyond is left over from
earlier frames. -/
def Frame.data (f : Frame) : List UInt8 := f.payload.toList.take f.length.toNat

def Frame.ofBytes (type : MessageType) (payload : List UInt8) : Frame :=
  ⟨type.code, UInt8.ofNat payload.length, Vector.ofFn (fun i => payload.getD i 0)⟩

structure Decoder where
  frame : Frame
  state : UInt8
  index : UInt8
  crc : UInt8
  deriving DecidableEq, Repr

def shiftCrc (crc : UInt8) : UInt8 :=
  if crc &&& 0x80 ≠ 0 then (crc <<< 1) ^^^ 0x07 else crc <<< 1

def updateCrc (crc value : UInt8) : UInt8 := shiftCrc^[8] (crc ^^^ value)

def reset (d : Decoder) : Decoder :=
  { d with state := 0, index := 0, crc := 0, frame := { d.frame with length := 0 } }

/-- One received byte. The frame is returned exactly when the source returns true; it is then
also the only case in which the source writes its output argument. -/
def feed (d : Decoder) (byte : UInt8) : Decoder × Option Frame :=
  if d.state = 0 then
    if byte = syncByte then ({ d with state := 1 }, none) else (d, none)
  else if d.state = 1 then
    ({ d with frame := { d.frame with type := byte }, crc := updateCrc 0 byte, state := 2 }, none)
  else if d.state = 2 then
    if byte.toNat > maxPayload then (reset d, none)
    else
      ({ d with frame := { d.frame with length := byte }, crc := updateCrc d.crc byte, index := 0,
                state := 3 }, none)
  else if d.state = 3 then
    if d.index < d.frame.length then
      ({ d with
          frame := { d.frame with payload := d.frame.payload.setIfInBounds d.index.toNat byte }
          index := d.index + 1
          crc := updateCrc d.crc byte }, none)
    else
      (reset d, if byte = d.crc then some d.frame else none)
  else (d, none)

/-- The index of the payload byte that `feed` writes, if it writes one. -/
def writeIndex (d : Decoder) : Option ℕ :=
  if d.state = 3 ∧ d.index < d.frame.length then some d.index.toNat else none

def crcOf (type : UInt8) (payload : List UInt8) : UInt8 :=
  payload.foldl updateCrc (updateCrc (updateCrc 0 type) (UInt8.ofNat payload.length))

/-- The bytes that the source writes to its output, none where it returns 0. -/
def encode (type : UInt8) (payload : List UInt8) : List UInt8 :=
  if payload.length > maxPayload then []
  else syncByte :: type :: UInt8.ofNat payload.length :: (payload ++ [crcOf type payload])

end RepRapFirmware.Shared.LpcProtocol
