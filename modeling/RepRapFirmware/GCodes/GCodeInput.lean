import RepRapFirmware.GCodes.StringParser
import RepRapFirmware.Library.Ring

/-! The inputs that receive G-code from a stream device or from the network: a ring buffer with a
scanner for urgent commands in front of it. `char` is unsigned on the target. -/

namespace RepRapFirmware.GCodes.GCodeInput

open StringParser

inductive GCodeInputState
  | idle | doingCode | doingMCode | doingMCode1 | doingMCode10 | doingMCode11 | doingMCode12
  | doingMCode108 | doingMCode112 | doingMCode122
  deriving DecidableEq, Repr

def gcodeInputBufferSize : ℕ := 256

def gcodeInputUSBReadThreshold : ℕ := 128

structure RegularGCodeInput where
  state : GCodeInputState
  writingFile : Bool
  writingPointer : ℕ
  readingPointer : ℕ
  buffer : ℕ → UInt8

namespace RegularGCodeInput

def reset (i : RegularGCodeInput) : RegularGCodeInput :=
  { i with state := .idle, writingPointer := 0, readingPointer := 0 }

def readByte (i : RegularGCodeInput) : UInt8 × RegularGCodeInput :=
  let next := i.readingPointer + 1
  (i.buffer i.readingPointer,
    { i with readingPointer := if next = gcodeInputBufferSize then 0 else next })

-- The unsigned subtractions wrap, and the buffer size divides 2 ^ 32.
def bytesCached (i : RegularGCodeInput) : ℕ :=
  (i.writingPointer + gcodeInputBufferSize - i.readingPointer) % gcodeInputBufferSize

def bufferSpaceLeft (i : RegularGCodeInput) : ℕ :=
  (i.readingPointer + 2 * gcodeInputBufferSize - i.writingPointer - 1) % gcodeInputBufferSize

/-- `buffer[writingPointer++] = c` with the wrap that follows it. -/
def store (i : RegularGCodeInput) (c : UInt8) : RegularGCodeInput :=
  let next := i.writingPointer + 1
  { i with
    buffer := Function.update i.buffer i.writingPointer c
    writingPointer := if next = gcodeInputBufferSize then 0 else next }

end RegularGCodeInput

/-- An input and the G-code buffer that it feeds. `taken` is history: the characters that the
buffer was given since its last `Init`. -/
structure Channel where
  input : RegularGCodeInput
  gb : GCodeBuffer
  taken : List UInt8

namespace Channel

def resetBuffer (s : Channel) : Channel := { s with gb := StringParser.reset s.gb, taken := [] }

def discardPartialLine (s : Channel) : Channel :=
  { s with
    gb := StringParser.discardPartialLine s.gb
    taken := if s.gb.bufferState ≠ .parseNotStarted ∧ s.gb.bufferState ≠ .ready then []
      else s.taken }

end Channel

inductive Urgent
  | cancelWait | emergencyStop | diagnostics
  deriving DecidableEq, Repr

/-- `CheckForUrgentCommand` returns true: the command was handled and the buffer was reset. -/
def handled : Option Urgent → Bool
  | some .emergencyStop | some .diagnostics => true
  | _ => false

def blank (c : UInt8) : Bool := c ≤ char ' '

def enter (s : Channel) (state : GCodeInputState) : Channel :=
  { s with input := { s.input with state := state } }

def checkForUrgentCommand (s : Channel) (c : UInt8) : Channel × Option Urgent :=
  if s.input.writingFile then (s, none)
  else match s.input.state with
  | .idle =>
    if char ' ' < c then
      (enter s (if c = char 'M' ∨ c = char 'm' then .doingMCode else .doingCode), none)
    else (s, none)
  | .doingCode =>
    if c = 0 ∨ c = char '\r' ∨ c = char '\n' then (enter s .idle, none) else (s, none)
  | .doingMCode => (enter s (if c = char '1' then .doingMCode1 else .doingCode), none)
  | .doingMCode1 =>
    (enter s
      (if c = char '0' then .doingMCode10
      else if c = char '1' then .doingMCode11
      else if c = char '2' then .doingMCode12
      else .doingCode), none)
  | .doingMCode10 => (enter s (if c = char '8' then .doingMCode108 else .doingCode), none)
  | .doingMCode11 => (enter s (if c = char '2' then .doingMCode112 else .doingCode), none)
  | .doingMCode12 => (enter s (if c = char '2' then .doingMCode122 else .doingCode), none)
  | .doingMCode108 =>
    -- The command is queued as well, so it is not handled here.
    (enter s .doingCode, if c < char ' ' ∨ c = char ';' then some .cancelWait else none)
  | .doingMCode112 =>
    if c ≤ char ' ' ∨ c = char ';' then
      -- `GCodes::Reset` resets every G-code buffer.
      ({ s.resetBuffer with input := s.input.reset }, some .emergencyStop)
    else (enter s .doingCode, none)
  | .doingMCode122 =>
    if c < char ' ' ∨ c = char ';' then ({ s with input := s.input.reset }, some .diagnostics)
    else (enter s .doingCode, none)

inductive Fate
  /-- The scanner looked at the byte, and this is what it did. -/
  | heard (urgent : Option Urgent)
  /-- The byte is data of a file that is being written. -/
  | data
  /-- The device read that delivered the byte had completed an urgent command before it. -/
  | behind
  /-- There was no room for the byte. -/
  | dropped
  /-- The byte came in while the port was closed. -/
  | lost
  /-- A mark for the closing of the port, and whether the input was reset. -/
  | closed (wasReset : Bool)
  deriving DecidableEq, Repr

structure Received where
  byte : UInt8
  fate : Fate
  deriving DecidableEq, Repr

def received (s : Channel) (c : UInt8) (u : Option Urgent) : Received :=
  ⟨c, if s.input.writingFile then .data else .heard u⟩

/-! The functions that receive bytes return, next to their result, what became of each byte. -/

namespace Network

def putChar (s : Channel) (c : UInt8) : Channel × List Received :=
  if s.input.bufferSpaceLeft = 0 then (s, [⟨c, .dropped⟩])
  else
    let (s', u) := checkForUrgentCommand s c
    if handled u then (s', [received s c u])
    else ({ s' with input := s'.input.store c }, [received s c u])

def putChars : List UInt8 → Channel → Channel × List Received
  | [], s => (s, [])
  | c :: cs, s =>
    let (s', log) := putChar s c
    let (s'', log') := putChars cs s'
    (s'', log ++ log')

/-- The string with its terminating null. -/
def terminated (buf : List UInt8) : List UInt8 := buf.takeWhile (· ≠ 0) ++ [0]

def put (s : Channel) (buf : List UInt8) (acquired : Bool) : Channel × List Received :=
  if acquired ∧ (terminated buf).length ≤ s.input.bufferSpaceLeft then putChars (terminated buf) s
  else (s, [])

end Network

namespace BufferedStream

def held : GCodeInputState → ℕ
  | .doingMCode => 1
  | .doingMCode1 => 2
  | .doingMCode10 | .doingMCode11 | .doingMCode12 => 3
  | .doingMCode108 | .doingMCode112 | .doingMCode122 => 4
  | .idle | .doingCode => 0

def bytesCached (i : RegularGCodeInput) : ℕ :=
  let cached := i.bytesCached
  if i.writingFile then cached
  else if held i.state < cached then cached - held i.state else 0

def readBytes (buffer : ℕ → UInt8) (p : ℕ) (bytes : List UInt8) : ℕ → UInt8 :=
  fun i => if p ≤ i ∧ i < p + bytes.length then bytes.getD (i - p) 0 else buffer i

def memmove (buffer : ℕ → UInt8) (src n : ℕ) : ℕ → UInt8 :=
  fun i => if i < n then buffer (src + i) else buffer i

/-- The loop over the `n` bytes that are left up to `endPointer`. -/
def spinLoop (endPointer : ℕ) : ℕ → Channel → Channel × List Received
  | 0, s =>
    (if s.input.writingPointer = gcodeInputBufferSize then
      { s with input := { s.input with writingPointer := 0 } } else s, [])
  | n + 1, s =>
    let pos := s.input.writingPointer
    let c := s.input.buffer pos
    let (s', u) := checkForUrgentCommand s c
    if handled u then
      let s' := s'.discardPartialLine
      let remaining := endPointer - pos - 1
      let log := received s c u ::
        (List.range remaining).map fun i => ⟨s.input.buffer (pos + 1 + i), .behind⟩
      if remaining ≠ 0 then
        ({ s' with input := { s'.input with
            buffer := memmove s'.input.buffer (pos + 1) remaining
            writingPointer := remaining } }, log)
      else (s', log)
    else
      let (s'', log) :=
        spinLoop endPointer n { s' with input := { s'.input with writingPointer := pos + 1 } }
      (s'', received s c u :: log)

/-- `Spin` while the device is connected. The device may have more bytes than are read. -/
def spin (s : Channel) (available : List UInt8) : Channel × List Received :=
  let spaceLeft := s.input.bufferSpaceLeft
  if gcodeInputUSBReadThreshold ≤ spaceLeft then
    let maxToTransfer := min spaceLeft (gcodeInputBufferSize - s.input.writingPointer)
    let bytes := available.take maxToTransfer
    spinLoop (s.input.writingPointer + bytes.length) bytes.length
      { s with input := { s.input with
          buffer := readBytes s.input.buffer s.input.writingPointer bytes } }
  else (s, [])

/-- `Spin` while the device is not connected. -/
def unplugged (s : Channel) (available : List UInt8) : Channel × List Received :=
  let wasReset := s.input.bytesCached ≠ 0
  ({ s.discardPartialLine with input := if wasReset then s.input.reset else s.input },
    available.map (⟨·, .lost⟩) ++ [⟨0, .closed wasReset⟩])

end BufferedStream

inductive Kind
  | network | buffered
  deriving DecidableEq, Repr

def bytesCached : Kind → RegularGCodeInput → ℕ
  | .network => RegularGCodeInput.bytesCached
  | .buffered => BufferedStream.bytesCached

/-- `GCodeBuffer::WriteToFile`, without the file. -/
def writeToFile (s : Channel) : Channel :=
  { input := { s.input with writingFile := !isM29 s.gb }, gb := init s.gb, taken := [] }

/-- The loop of `StandardGCodeInput::FillBuffer` over `n` bytes: the lines that were completed, and
whether a command is waiting to be processed. -/
def fillLoop : ℕ → Channel → Channel × List (List UInt8) × Bool
  | 0, s => (s, [], false)
  | n + 1, s =>
    let (c, i) := s.input.readByte
    let (g, complete) := put s.gb c
    let s' : Channel :=
      { input := i, gb := g, taken := if endsLine c then [] else s.taken ++ [c] }
    if complete then
      if s.input.writingFile then
        let (s'', lines, got) := fillLoop n (writeToFile s')
        (s'', s.taken :: lines, got)
      else (s', [s.taken], true)
    else fillLoop n s'

/-- `StartNextGCode` asks the input only while the buffer holds no command, and decodes the command
that it got. -/
def fillBuffer (k : Kind) (s : Channel) : Channel × List (List UInt8) :=
  if s.gb.bufferState = .ready ∨ s.gb.bufferState = .executing then (s, [])
  else
    let (s', lines, gotCommand) := fillLoop (bytesCached k s.input) s
    (if gotCommand then { s' with gb := { s'.gb with bufferState := .ready } } else s', lines)

def initialBuffer : GCodeBuffer :=
  { bufferState := .parseNotStarted
    buffer := []
    commandStart := 0
    commandLength := 0
    commandIndent := 0
    braceCount := 0
    receivedLineNumber := 0
    declaredChecksum := 0
    checksumCharsReceived := 0
    computedChecksum := 0
    crc16 := 0
    hadLineNumber := false
    hadChecksum := false
    overflowed := false
    seenExpression := false
    seenLeadingSpace := false
    seenLeadingTab := false
    seenMetaCommand := false
    lineNumber := 0
    doingFile := false
    cnc := false
    checksumRequired := false
    crcRequired := false
    hasPrevious := false }

/-- A channel with the stream it received and the lines that its buffer was handed. -/
structure System where
  channel : Channel
  stream : List Received
  lines : List (List UInt8)

/-- What a buffer that holds no ring content starts with. -/
def start (buffer : ℕ → UInt8) : System where
  channel :=
    { input :=
        { state := .idle, writingFile := false, writingPointer := 0, readingPointer := 0
          buffer := buffer }
      gb := initialBuffer
      taken := [] }
  stream := []
  lines := []

inductive Event : Kind → Type
  | put (buf : List UInt8) (acquired : Bool) : Event .network
  | spin (available : List UInt8) : Event .buffered
  | unplugged (available : List UInt8) : Event .buffered
  | fillBuffer {k : Kind} : Event k
  | setFinished {k : Kind} (f : Bool) : Event k
  | setWritingFile {k : Kind} (wf : Bool) : Event k
  | configure {k : Kind} (cnc checksumRequired crcRequired : Bool) : Event k

/-- What the event does to the channel, what became of the bytes that came in, and the lines that
were completed. -/
def act (s : Channel) : {k : Kind} → Event k → Channel × List Received × List (List UInt8)
  | _, .put buf acquired =>
    let (s', log) := Network.put s buf acquired
    (s', log, [])
  | _, .spin available =>
    let (s', log) := BufferedStream.spin s available
    (s', log, [])
  | _, .unplugged available =>
    let (s', log) := BufferedStream.unplugged s available
    (s', log, [])
  | k, .fillBuffer =>
    let (s', lines) := fillBuffer k s
    (s', [], lines)
  | _, .setFinished f =>
    -- at the end of `ActOnCode`
    (if s.gb.bufferState = .ready ∨ s.gb.bufferState = .executing then
      { s with gb := setFinished s.gb f } else s, [], [])
  | _, .setWritingFile wf => ({ s with input := { s.input with writingFile := wf } }, [], [])
  | _, .configure cnc checksumRequired crcRequired =>
    ({ s with gb := { s.gb with
        cnc := cnc, checksumRequired := checksumRequired, crcRequired := crcRequired } }, [], [])

def step {k : Kind} (s : System) (e : Event k) : System :=
  let (channel, log, lines) := act s.channel e
  { channel := channel, stream := s.stream ++ log, lines := s.lines ++ lines }

end RepRapFirmware.GCodes.GCodeInput
