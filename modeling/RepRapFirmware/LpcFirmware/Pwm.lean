import RepRapFirmware.LpcFirmware.Gpio

namespace RepRapFirmware.LpcFirmware.Pwm

open Shared.LpcProtocol Gpio Function

def coreClock : ℕ := 12000000

structure Channel where
  pin : UInt8
  ioconOffset : UInt32
  timerBase : UInt32
  maxPeriod : ℕ
  clockBit : UInt32
  matchChannel : UInt32
  pinFunction : UInt32
  analogCapable : Bool

def channels : List Channel := [
  ⟨Pins.heater, 0x064, 0x4000C000, 0x0000FFFF, 7, 1, 2, false⟩,
  ⟨Pins.hotendFan, 0x044, 0x40014000, 0xFFFFFFFF, 9, 0, 1, false⟩,
  ⟨Pins.reflowFan, 0x06C, 0x40010000, 0x0000FFFF, 8, 1, 2, true⟩]

def find (pin : UInt8) : Option Channel := channels.find? (fun c => c.pin = pin)

def setTimer (b : Board) (c : Channel) (offset value : UInt32) : Board :=
  { b with timer := update b.timer (c.timerBase + offset) value }

def setConstant (b : Board) (c : Channel) (high : Bool) : Board :=
  let stopped := setTimer b c 0x004 0
  (configure stopped c.pin .pwm high).getD stopped

/-- The timer's prescale divider for a PWM frequency. The products stay below 2^64, so plain
naturals give what the source computes. -/
def divider (c : Channel) (frequency : UInt16) : ℕ :=
  let maxTimerClock := frequency.toNat * c.maxPeriod
  if coreClock ≤ maxTimerClock then 1 else (coreClock + maxTimerClock - 1) / maxTimerClock

def period (c : Channel) (frequency : UInt16) : ℕ :=
  coreClock / divider c frequency / frequency.toNat

def highTicks (c : Channel) (duty frequency : UInt16) : ℕ :=
  (period c frequency * duty.toNat + 32767) / 65535

def matchValue (c : Channel) (duty frequency : UInt16) : ℕ :=
  period c frequency - highTicks c duty frequency

/-- Connect the pin to its timer and let the timer run at the given duty and frequency. -/
def setTimed (b : Board) (c : Channel) (duty frequency : UInt16) : Board :=
  let selected := (b.iocon c.ioconOffset &&& ~~~0x07) ||| c.pinFunction
  let iocon := if c.analogCapable then selected ||| ((1 : UInt32) <<< 7) else selected
  let connected := { b with
    sysAhbClkCtrl := b.sysAhbClkCtrl ||| ((1 : UInt32) <<< c.clockBit)
    iocon := update b.iocon c.ioconOffset iocon }
  [((0x004 : UInt32), (0x02 : UInt32)),
    (0x00C, UInt32.ofNat (divider c frequency - 1)),
    (0x018 + 4 * c.matchChannel, UInt32.ofNat (matchValue c duty frequency)),
    (0x024, UInt32.ofNat (period c frequency)),
    (0x014, (1 : UInt32) <<< 10),
    (0x074, ((1 : UInt32) <<< 3) ||| ((1 : UInt32) <<< c.matchChannel)),
    (0x004, 0x01)].foldl (fun b r => setTimer b c r.1 r.2) connected

def set (b : Board) (pin : UInt8) (duty frequency : UInt16) : Option Board :=
  match find pin with
  | none => none
  | some c =>
    if duty = 0 then some (setConstant b c false)
    else if frequency = 0 then none
    else if duty = 65535 then some (setConstant b c true)
    else if period c frequency < 2 ∨ c.maxPeriod < period c frequency then none
    else some (setTimed b c duty frequency)

end RepRapFirmware.LpcFirmware.Pwm
