import RepRapFirmware.GCodes.Caching

/-! The input that reads G-code files. One such input, with its read-ahead buffer, serves all the
files that a G-code buffer has open, and the files of other G-code buffers. -/

namespace RepRapFirmware.GCodes.FileGCodeInput

open StringParser GCodeInput

def gcodeInputFileReadThreshold : ℕ := 128

/-- An open file. Positions have 32 bits. -/
structure FileStore where
  content : List UInt8
  position : ℕ
  inside : position ≤ content.length
  size : content.length < 2 ^ 32

namespace FileStore

def seek (f : FileStore) (pos : ℕ) : FileStore :=
  { f with position := min pos f.content.length, inside := min_le_right _ _ }

def read (f : FileStore) (nBytes : ℕ) : List UInt8 × FileStore :=
  let bytes := (f.content.drop f.position).take nBytes
  (bytes, { f with
    position := f.position + bytes.length
    inside := by
      have := f.inside
      simp only [bytes, List.length_take, List.length_drop]
      omega })

end FileStore

/-- The files by the addresses of their `FileStore`s, the input, and one of the G-code buffers that
use it: `stack` has the files of its machine states, the innermost first. The rest is history:
`taken` has the characters that the buffer was given since its last `Init`, `padded` says whether
the last of them was appended by `FileEnded`; and of each file `delivered` has the bytes that were
read from it since it was last positioned, at `base`. -/
structure State where
  files : ℕ → FileStore
  input : RegularGCodeInput
  lastFileRead : Option ℕ
  gb : GCodeBuffer
  stack : List ℕ
  taken : List UInt8
  padded : Bool
  base : ℕ → ℕ
  delivered : ℕ → List UInt8

def setFile (s : State) (f : ℕ) (file : FileStore) : State :=
  { s with files := Function.update s.files f file }

def reset (s : State) : State := { s with input := s.input.reset, lastFileRead := none }

/-- `Reset(const FileData&)`. -/
def resetFile (s : State) (f : ℕ) : State := if s.lastFileRead = some f then reset s else s

def fileBytesCached (s : State) (f : ℕ) : ℕ :=
  if s.lastFileRead = some f then s.input.bytesCached else 0

/-- The input leaves the file that it read last, and gives back the bytes that are still cached. -/
def switchTo (s : State) (f : ℕ) : State :=
  match s.lastFileRead with
  | some g =>
    if g = f then s
    else
      let cached := s.input.bytesCached
      let s := if 0 < cached then setFile s g ((s.files g).seek ((s.files g).position - cached))
        else s
      { s with input := s.input.reset, lastFileRead := some f }
  | none => { s with input := s.input.reset, lastFileRead := some f }

/-- `ReadFromFile`, with whether there is data. Reading a file does not fail here. -/
def readFromFile (s : State) (f : ℕ) : State × Bool :=
  let s := switchTo s f
  let bytesCached := s.input.bytesCached
  if bytesCached < gcodeInputFileReadThreshold then
    let i := if s.input.readingPointer = s.input.writingPointer then
      { s.input with readingPointer := 0, writingPointer := 0 } else s.input
    let (bytes, file) := (s.files f).read
      (min i.bufferSpaceLeft (gcodeInputBufferSize - i.writingPointer))
    let i := { i with
      buffer := BufferedStream.readBytes i.buffer i.writingPointer bytes
      writingPointer := (i.writingPointer + bytes.length) % gcodeInputBufferSize }
    ({ setFile s f file with input := i }, decide (0 < bytes.length) || decide (0 < bytesCached))
  else (s, decide (0 < bytesCached))

def getFilePosition (s : State) (f : ℕ) : UInt32 :=
  UInt32.ofNat (s.files f).position - UInt32.ofNat (fileBytesCached s f) - s.gb.commandLength +
    s.gb.commandStart

def initBuffer (s : State) : State :=
  { s with gb := init s.gb, taken := [], padded := false }

/-- `Put`, with the history of the characters. An incomplete line that ends was initialised. -/
def putChar (s : State) (c : UInt8) : State × Bool :=
  let (g, complete) := put s.gb c
  let dropped := ¬ complete ∧ endsLine c ∧ c ≠ char '\r'
  ({ s with gb := g, taken := if dropped then [] else s.taken ++ [c] }, complete)

def readByte (s : State) (f : ℕ) : UInt8 × State :=
  let (c, i) := s.input.readByte
  (c, { s with
    input := i
    delivered := Function.update s.delivered f (s.delivered f ++ [c]) })

/-- `FillBuffer` for the file `f`. The buffer does not write a file. -/
def fillBuffer (f : ℕ) : ℕ → State → State × Bool
  | 0, s => (s, false)
  | n + 1, s =>
    let (c, s) := readByte s f
    let (s, complete) := putChar s c
    if complete then (s, true) else fillBuffer f n s

def decodeCommand (s : State) : State :=
  { s with gb := { s.gb with bufferState := .ready } }

/-- `DoFilePrint` while the buffer executes no command. At the end of the file the closing of the
file is a step of its own. -/
def doFilePrint (s : State) (f : ℕ) : State :=
  let (s, haveData) := readFromFile s f
  if haveData then
    let (s, complete) := fillBuffer f s.input.bytesCached s
    if complete then decodeCommand s else s
  else if gcodeLineEnd s.gb ≠ 0 then
    let (s, complete) := putChar s (char '\n')
    if complete then decodeCommand { s with padded := true } else s
  else s

/-- The history of the file starts again where it is. -/
def markBase (s : State) (f : ℕ) : State :=
  { s with
    base := Function.update s.base f (s.files f).position
    delivered := Function.update s.delivered f [] }

def seekFile (s : State) (f : ℕ) (pos : UInt32) : State :=
  let s := resetFile s f
  markBase (setFile s f ((s.files f).seek pos.toNat)) f

/-- `GCodeBuffer::RestartFrom`. -/
def restartFrom (s : State) (f : ℕ) (pos : UInt32) : State := initBuffer (seekFile s f pos)

def setStack (s : State) (stack : List ℕ) : State :=
  { s with stack := stack, gb := { s.gb with doingFile := !stack.isEmpty } }

/-- A macro is started: `DoFileMacro` pushes a machine state with the newly opened file. -/
def openFile (s : State) (f : ℕ) (content : List UInt8) (size : content.length < 2 ^ 32) : State :=
  let s := resetFile (setFile s f ⟨content, 0, Nat.zero_le _, size⟩) f
  initBuffer (setStack (markBase s f) (f :: s.stack))

/-- The file of the innermost machine state is closed and the state popped. -/
def closeFile (s : State) (f : ℕ) : State :=
  initBuffer (setStack (markBase (resetFile s f) f) s.stack.tail)

/-- Another G-code buffer reads `n` bytes of its file. -/
def readOther (f : ℕ) : ℕ → State → State
  | 0, s => s
  | n + 1, s => readOther f n (readByte s f).2

inductive Event
  | doFilePrint
  | setFinished (f : Bool)
  | restartFrom (pos : UInt32)
  | openFile (f : ℕ) (content : List UInt8) (size : content.length < 2 ^ 32)
  | closeFile
  | readOther (f n : ℕ)
  | restartOther (f : ℕ) (pos : UInt32)
  | closeOther (f : ℕ)

def executing (s : State) : Prop :=
  s.gb.bufferState = .ready ∨ s.gb.bufferState = .executing

instance (s : State) : Decidable (executing s) := inferInstanceAs (Decidable (_ ∨ _))

def step (s : State) : Event → State
  | .doFilePrint =>
    match s.stack with
    | [] => s
    | f :: _ => if executing s then s else doFilePrint s f
  | .setFinished f =>
    if executing s then
      let g := setFinished s.gb f
      if g.bufferState = .parseNotStarted then initBuffer { s with gb := g } else { s with gb := g }
    else s
  | .restartFrom pos =>
    match s.stack with
    | [] => s
    | f :: _ => restartFrom s f pos
  | .openFile f content size =>
    -- The `FileStore` of a new file is one that nothing refers to. A macro is started by a command
    -- or between two commands.
    if f ∈ s.stack ∨ s.lastFileRead = some f ∨ ¬ (executing s ∨ s.taken = []) then s
    else openFile s f content size
  | .closeFile =>
    match s.stack with
    | [] => s
    | f :: _ => closeFile s f
  | .readOther f n =>
    if f ∈ s.stack then s
    else
      let s := (readFromFile s f).1
      readOther f (min n s.input.bytesCached) s
  | .restartOther f pos => if f ∈ s.stack then s else seekFile s f pos
  | .closeOther f => if f ∈ s.stack then s else markBase (resetFile s f) f

def start (files : ℕ → FileStore) (buffer : ℕ → UInt8) : State where
  files := files
  input :=
    { state := .idle, writingFile := false, writingPointer := 0, readingPointer := 0
      buffer := buffer }
  lastFileRead := none
  gb := initialBuffer
  stack := []
  taken := []
  padded := false
  base := fun f => (files f).position
  delivered := fun _ => []

end RepRapFirmware.GCodes.FileGCodeInput
