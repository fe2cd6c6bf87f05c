import Mathlib
import RepRapFirmware.Library.Runs
import RepRapFirmware.LpcFirmware.Handlers

/-! The main loop of the LPC as a machine. Its actions are what one pass of the loop does with
one input; the tick interrupt is an action of its own and may come between any two others. -/

namespace RepRapFirmware.LpcFirmware.MainLoop

open Shared.LpcProtocol Shared.Payload Thermal Gpio

structure State where
  thermal : Thermal.State
  needsConfiguration : Bool

def pong (s : State) : Frame :=
  Frame.ofBytes .pong [version, if s.needsConfiguration then 1 else 0]

/-- Run `f` on the board; nothing changes where it fails. -/
def onBoard (f : Board → Option Board) (s : State) : State :=
  { s with thermal := { s.thermal with board := (f s.thermal.board).getD s.thermal.board } }

def handlePing (frame : Frame) (s : State) : State × List Frame :=
  if frame.length = 1 ∧ getElem frame.payload 0 byte0 = version then
    ({ s with thermal := hostHeartbeat s.thermal }, [pong s])
  else (s, [])

def handleConfigurationReset (frame : Frame) (s : State) : State :=
  if frame.length = 0 then
    ⟨resetConfiguration { s.thermal with board := Gpio.init s.thermal.board }, true⟩
  else s

def handleConfigurationComplete (frame : Frame) (s : State) : State :=
  if frame.length = 0 then { s with needsConfiguration := false } else s

def handleGpioConfig (frame : Frame) (s : State) : State :=
  if frame.length = 3 ∧ getElem frame.payload 0 byte0 ≠ Pins.heater then
    onBoard (fun b => configure b (getElem frame.payload 0 byte0)
      (GpioMode.ofCode (getElem frame.payload 1 byte1)) (getElem frame.payload 2 byte2 ≠ 0)) s
  else s

def handleGpioWrite (frame : Frame) (s : State) : State :=
  if frame.length = 2 ∧ getElem frame.payload 0 byte0 ≠ Pins.heater then
    onBoard (fun b => write b (getElem frame.payload 0 byte0) (getElem frame.payload 1 byte1 ≠ 0)) s
  else s

def handlePwmWrite (frame : Frame) (s : State) : State :=
  if frame.length = 5 ∧ getElem frame.payload 0 byte0 ≠ Pins.heater then
    onBoard (fun b => Pwm.set b (getElem frame.payload 0 byte0) (readU16 frame.payload 1)
      (readU16 frame.payload 3)) s
  else s

def blankModel : Model := ⟨0.0, 0.0, 0.0, 0.0, 0.0, 0.0, 0.0, 0.0, 0.0, false, false, false⟩

def blankConfig : Config :=
  ⟨250, 3, 0.0, 0.0, 0.0, 0.0, 0.0, 0.0, 0.0, 0.0, 0.0, 0.0, false, false, false, blankModel,
    blankModel, 0⟩

def blankLoop : Loop :=
  ⟨0, 0, 0.0, 0.0, 0.0, 0.0, 0.0, 0.0, 0.0, 0.0, 0.0, 0.0, 0, 0, 0, 0, fun _ => 0.0, 0, 0⟩

def thermalInit (s : Thermal.State) : Thermal.State :=
  let b := s.board
  resetConfiguration { s with board := { b with
    sysAhbClkCtrl := b.sysAhbClkCtrl ||| (((1 : UInt32) <<< 13) ||| ((1 : UInt32) <<< 16))
    iocon := Function.update b.iocon 0x078 ((b.iocon 0x078 &&& ~~~0x9F) ||| 0x02) } }

/-- The hardware that a reset leaves behind is whatever it is; `main` initialises what it
relies on. -/
def powerUp (hardware : Board) : State :=
  ⟨thermalInit ⟨0, 0, 0, false, blankConfig, blankLoop, .fault, .none, false, Gpio.init hardware⟩,
    true⟩

variable [Libm]

/-- The switch on the type of a received frame, with the frames sent in reply. -/
def handleFrame (frame : Frame) (adc : Adc) (s : State) : State × List Frame :=
  match MessageType.ofCode frame.type with
  | some .ping => handlePing frame s
  | some .configurationReset => (handleConfigurationReset frame s, [])
  | some .configurationComplete => (handleConfigurationComplete frame s, [])
  | some .gpioConfig => (handleGpioConfig frame s, [])
  | some .gpioWrite => (handleGpioWrite frame s, [])
  | some .pwmWrite => (handlePwmWrite frame s, [])
  | _ => ({ s with thermal := Thermal.handleFrame frame adc s.thermal }, [])

inductive Action
  | tick
  | spin (adc : Adc)
  | frame (frame : Frame) (adc : Adc)
  | poll
  | status
  | lines (line : UInt8 → Bool)
  | reset (hardware : Board)

def pollPin (s : State) : State × List Frame :=
  if s.needsConfiguration then (s, [])
  else match Gpio.poll s.thermal.board with
    | none => (s, [])
    | some (pin, value, b) =>
      ({ s with thermal := { s.thermal with board := b } },
        [Frame.ofBytes .gpioState [pin, if value then 1 else 0]])

def sendStatus (s : State) : State × List Frame :=
  if s.needsConfiguration then (s, [])
  else match takeStatus s.thermal with
    | none => (s, [])
    | some (t, payload) => ({ s with thermal := t }, [Frame.ofBytes .thermalStatus payload])

/-- The next state and the frames sent. -/
def act (s : State) : Action → State × List Frame
  | .tick => ({ s with thermal := tick s.thermal }, [])
  | .spin adc => ({ s with thermal := spin adc s.thermal }, [])
  | .frame frame adc => handleFrame frame adc s
  | .poll => pollPin s
  | .status => sendStatus s
  | .lines line => ({ s with thermal := { s.thermal with board := { s.thermal.board with
      line := line } } }, [])
  | .reset hardware => (powerUp hardware, [])

def step (s : State) (a : Action) : State := (act s a).1

end RepRapFirmware.LpcFirmware.MainLoop
