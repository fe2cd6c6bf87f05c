import RepRapFirmware.Shared.Payload

/-! The pins of the LPC. Registers keep what is written to them; a function that the source
lets return false gives `none` there, having changed nothing. -/

namespace RepRapFirmware.LpcFirmware.Gpio

open Shared.LpcProtocol Function

structure PinDefinition where
  id : UInt8
  ioconOffset : UInt32
  gpioFunction : UInt32
  analogCapable : Bool

structure PinState where
  mode : GpioMode
  lastValue : Bool

def pins : Vector PinDefinition 8 := #v[
  ⟨Pins.filamentRunout, 0x020, 0, false⟩,
  ⟨Pins.rotation, 0x028, 0, false⟩,
  ⟨Pins.hotendFilament, 0x04C, 0, false⟩,
  ⟨Pins.statusLed, 0x058, 0, false⟩,
  ⟨Pins.heater, 0x064, 0, false⟩,
  ⟨Pins.hotendFan, 0x044, 0, false⟩,
  ⟨Pins.reflowFan, 0x06C, 0, true⟩,
  ⟨Pins.hotendNtc, 0x078, 1, true⟩]

/-- The registers that the pin and PWM code writes and the pin states it keeps. A pin number
is its port times 16 plus its bit, so it names one bit of the direction and data registers. -/
structure Board where
  /-- I/O configuration registers, by offset from `LPC_IOCON_BASE`. -/
  iocon : UInt32 → UInt32
  direction : UInt8 → Bool
  data : UInt8 → Bool
  /-- The level that the outside world puts on a pin that is not driven. -/
  line : UInt8 → Bool
  sysAhbClkCtrl : UInt32
  /-- Timer registers, by address. -/
  timer : UInt32 → UInt32
  states : Fin 8 → PinState

def findPin (pin : UInt8) : Option (Fin 8) :=
  (List.finRange 8).find? (fun i => (pins.get i).id = pin)

def readRaw (b : Board) (pin : UInt8) : Bool :=
  if b.direction pin then b.data pin else b.line pin

def writeRaw (b : Board) (pin : UInt8) (value : Bool) : Board :=
  { b with data := update b.data pin value }

/-- The I/O configuration that selects the GPIO function of a pin in a digital mode. -/
def digitalIocon (definition : PinDefinition) (mode : GpioMode) (iocon : UInt32) : UInt32 :=
  let selected := (iocon &&& ~~~((0x07 : UInt32) ||| ((0x03
    : UInt32) <<< 3))) ||| definition.gpioFunction
  let digital := if definition.analogCapable then selected ||| ((1 : UInt32) <<< 7) else selected
  if mode = .inputPullup then digital ||| ((0x02 : UInt32) <<< 3) else digital

def configureAnalog (b : Board) (pin : UInt8) (i : Fin 8) : Board :=
  let offset := (pins.get i).ioconOffset
  { b with
    iocon := update b.iocon offset ((b.iocon offset &&& ~~~0x9F) ||| 0x02)
    direction := update b.direction pin false
    states := update b.states i { b.states i with mode := .analog } }

def configureDigital (b : Board) (pin : UInt8) (i : Fin 8) (mode : GpioMode)
    (initialValue : Bool) : Board :=
  let offset := (pins.get i).ioconOffset
  let iocon := update b.iocon offset (digitalIocon (pins.get i) mode (b.iocon offset))
  let driven : Board :=
    if mode = .output ∨ mode = .pwm then
      { writeRaw b pin initialValue with iocon := iocon, direction := update b.direction pin true }
    else { b with iocon := iocon, direction := update b.direction pin false }
  let lastValue :=
    if mode = .input ∨ mode = .inputPullup then !readRaw driven pin else (b.states i).lastValue
  { driven with states := update b.states i ⟨mode, lastValue⟩ }

def configure (b : Board) (pin : UInt8) (mode : GpioMode) (initialValue : Bool) : Option Board :=
  (findPin pin).map fun i =>
    if mode = .analog then configureAnalog b pin i else configureDigital b pin i mode initialValue

def initPin (b : Board) (i : Fin 8) : Board :=
  let cleared := { b with states := update b.states i ⟨.disabled, false⟩ }
  (configure cleared (pins.get i).id .disabled false).getD cleared

def init (b : Board) : Board :=
  (List.finRange 8).foldl initPin
    { b with sysAhbClkCtrl := b.sysAhbClkCtrl ||| (((1 : UInt32) <<< 16) ||| ((1 : UInt32) <<< 6)) }

def write (b : Board) (pin : UInt8) (value : Bool) : Option Board :=
  match findPin pin with
  | none => none
  | some i => if (b.states i).mode ≠ .output then none else some (writeRaw b pin value)

/-- The first input whose level differs from the one reported last: the pin, its level, and
the board that remembers the level as reported. -/
def poll (b : Board) : Option (UInt8 × Bool × Board) :=
  ((List.finRange 8).find? fun i =>
    ((b.states i).mode = .input ∨ (b.states i).mode = .inputPullup) ∧
      readRaw b (pins.get i).id ≠ (b.states i).lastValue).map fun i =>
    let current := readRaw b (pins.get i).id
    ((pins.get i).id, current,
      { b with states := update b.states i { b.states i with lastValue := current } })

end RepRapFirmware.LpcFirmware.Gpio
