import Mathlib.Data.List.Basic
import Mathlib.Tactic

/-! The part of `StringParser` that assembles a line of G-code from the bytes it is fed. The
parser is a friend of its `GCodeBuffer` and works on that one's `buffer` and `bufferState`. -/

namespace RepRapFirmware.GCodes.StringParser

inductive GCodeBufferState
  | parseNotStarted | parsingLineNumber | parsingWhitespace | parsingComment | parsingGCode
  | parsingBracketedComment | parsingQuotedString | parsingChecksum | discarding | ready | executing
  deriving DecidableEq, Repr

def maxGCodeLength : ℕ := 256

def crc16XmodemTable : Array UInt16 :=
  #[
    0x0000, 0x1021, 0x2042, 0x3063, 0x4084, 0x50a5, 0x60c6, 0x70e7, 0x8108, 0x9129, 0xa14a, 0xb16b,
    0xc18c, 0xd1ad, 0xe1ce, 0xf1ef, 0x1231, 0x0210, 0x3273, 0x2252, 0x52b5, 0x4294, 0x72f7, 0x62d6,
    0x9339, 0x8318, 0xb37b, 0xa35a, 0xd3bd, 0xc39c, 0xf3ff, 0xe3de, 0x2462, 0x3443, 0x0420, 0x1401,
    0x64e6, 0x74c7, 0x44a4, 0x5485, 0xa56a, 0xb54b, 0x8528, 0x9509, 0xe5ee, 0xf5cf, 0xc5ac, 0xd58d,
    0x3653, 0x2672, 0x1611, 0x0630, 0x76d7, 0x66f6, 0x5695, 0x46b4, 0xb75b, 0xa77a, 0x9719, 0x8738,
    0xf7df, 0xe7fe, 0xd79d, 0xc7bc, 0x48c4, 0x58e5, 0x6886, 0x78a7, 0x0840, 0x1861, 0x2802, 0x3823,
    0xc9cc, 0xd9ed, 0xe98e, 0xf9af, 0x8948, 0x9969, 0xa90a, 0xb92b, 0x5af5, 0x4ad4, 0x7ab7, 0x6a96,
    0x1a71, 0x0a50, 0x3a33, 0x2a12, 0xdbfd, 0xcbdc, 0xfbbf, 0xeb9e, 0x9b79, 0x8b58, 0xbb3b, 0xab1a,
    0x6ca6, 0x7c87, 0x4ce4, 0x5cc5, 0x2c22, 0x3c03, 0x0c60, 0x1c41, 0xedae, 0xfd8f, 0xcdec, 0xddcd,
    0xad2a, 0xbd0b, 0x8d68, 0x9d49, 0x7e97, 0x6eb6, 0x5ed5, 0x4ef4, 0x3e13, 0x2e32, 0x1e51, 0x0e70,
    0xff9f, 0xefbe, 0xdfdd, 0xcffc, 0xbf1b, 0xaf3a, 0x9f59, 0x8f78, 0x9188, 0x81a9, 0xb1ca, 0xa1eb,
    0xd10c, 0xc12d, 0xf14e, 0xe16f, 0x1080, 0x00a1, 0x30c2, 0x20e3, 0x5004, 0x4025, 0x7046, 0x6067,
    0x83b9, 0x9398, 0xa3fb, 0xb3da, 0xc33d, 0xd31c, 0xe37f, 0xf35e, 0x02b1, 0x1290, 0x22f3, 0x32d2,
    0x4235, 0x5214, 0x6277, 0x7256, 0xb5ea, 0xa5cb, 0x95a8, 0x8589, 0xf56e, 0xe54f, 0xd52c, 0xc50d,
    0x34e2, 0x24c3, 0x14a0, 0x0481, 0x7466, 0x6447, 0x5424, 0x4405, 0xa7db, 0xb7fa, 0x8799, 0x97b8,
    0xe75f, 0xf77e, 0xc71d, 0xd73c, 0x26d3, 0x36f2, 0x0691, 0x16b0, 0x6657, 0x7676, 0x4615, 0x5634,
    0xd94c, 0xc96d, 0xf90e, 0xe92f, 0x99c8, 0x89e9, 0xb98a, 0xa9ab, 0x5844, 0x4865, 0x7806, 0x6827,
    0x18c0, 0x08e1, 0x3882, 0x28a3, 0xcb7d, 0xdb5c, 0xeb3f, 0xfb1e, 0x8bf9, 0x9bd8, 0xabbb, 0xbb9a,
    0x4a75, 0x5a54, 0x6a37, 0x7a16, 0x0af1, 0x1ad0, 0x2ab3, 0x3a92, 0xfd2e, 0xed0f, 0xdd6c, 0xcd4d,
    0xbdaa, 0xad8b, 0x9de8, 0x8dc9, 0x7c26, 0x6c07, 0x5c64, 0x4c45, 0x3ca2, 0x2c83, 0x1ce0, 0x0cc1,
    0xef1f, 0xff3e, 0xcf5d, 0xdf7c, 0xaf9b, 0xbfba, 0x8fd9, 0x9ff8, 0x6e17, 0x7e36, 0x4e55, 0x5e74,
    0x2e93, 0x3eb2, 0x0ed1, 0x1ef0]

def updateNormal (crc : UInt16) (c : UInt8) : UInt16 :=
  (crc <<< 8) ^^^ crc16XmodemTable.getD (((crc >>> 8) ^^^ c.toUInt16) &&& 0x00ff).toNat 0

/-- `buffer` holds the first `gcodeLineEnd` characters of the C++ buffer. The last five fields
belong to the rest of the program: whether the buffer reads from a file, whether the machine is a
CNC machine, which checksums the channel asks for, and whether the machine state is a pushed one. -/
structure GCodeBuffer where
  bufferState : GCodeBufferState
  buffer : List UInt8
  commandStart : UInt32
  commandLength : UInt32
  commandIndent : UInt8
  braceCount : UInt32
  receivedLineNumber : UInt32
  declaredChecksum : UInt32
  checksumCharsReceived : UInt8
  computedChecksum : UInt8
  crc16 : UInt16
  hadLineNumber : Bool
  hadChecksum : Bool
  overflowed : Bool
  seenExpression : Bool
  seenLeadingSpace : Bool
  seenLeadingTab : Bool
  seenMetaCommand : Bool
  lineNumber : UInt32
  doingFile : Bool
  cnc : Bool
  checksumRequired : Bool
  crcRequired : Bool
  hasPrevious : Bool
  deriving DecidableEq, Repr

def gcodeLineEnd (g : GCodeBuffer) : ℕ := g.buffer.length

def init (g : GCodeBuffer) : GCodeBuffer :=
  { g with
    buffer := []
    commandStart := 0
    commandLength := 0
    hadLineNumber := false
    hadChecksum := false
    overflowed := false
    seenExpression := false
    computedChecksum := 0
    bufferState := .parseNotStarted
    commandIndent := 0
    seenLeadingSpace := if g.seenMetaCommand then g.seenLeadingSpace else false
    seenLeadingTab := if g.seenMetaCommand then g.seenLeadingTab else false }

def discardPartialLine (g : GCodeBuffer) : GCodeBuffer :=
  if g.bufferState ≠ .parseNotStarted ∧ g.bufferState ≠ .ready then init g else g

/-- `GCodeBuffer::Reset`: every pushed machine state is popped, and with them their files. -/
def reset (g : GCodeBuffer) : GCodeBuffer :=
  init { g with hasPrevious := false, doingFile := false }

def addToChecksum (g : GCodeBuffer) (c : UInt8) : GCodeBuffer :=
  if g.hadLineNumber then
    { g with computedChecksum := g.computedChecksum ^^^ c, crc16 := updateNormal g.crc16 c }
  else g

def storeAndAddToChecksum (g : GCodeBuffer) (c : UInt8) : GCodeBuffer :=
  let g := addToChecksum g c
  if gcodeLineEnd g + 1 < maxGCodeLength then { g with buffer := g.buffer ++ [c] }
  else if g.bufferState ≠ .parsingComment then { g with overflowed := true }
  else g

def char (c : Char) : UInt8 := c.toNat.toUInt8

def ofChars (cs : List Char) : List UInt8 := cs.map char

def isDigit (c : UInt8) : Bool := char '0' ≤ c ∧ c ≤ char '9'

/-! One function for each case of the state machine in `Put`. Where the C++ code sets `again`, the
function of the new state is called. -/

def parsingGCode (g : GCodeBuffer) (c : UInt8) : GCodeBuffer :=
  if c = char '*' then
    if g.hadLineNumber ∧ g.braceCount = 0 then
      { g with
        declaredChecksum := 0
        checksumCharsReceived := 0
        hadChecksum := true
        bufferState := .parsingChecksum }
    else storeAndAddToChecksum g c
  else if c = char ';' then
    if g.commandIndent = 0 ∧ gcodeLineEnd g = 0 then
      { storeAndAddToChecksum g c with bufferState := .parsingComment }
    else { g with bufferState := .discarding }
  else if c = char '(' then
    if g.braceCount = 0 ∧ g.cnc then
      { addToChecksum g c with bufferState := .parsingBracketedComment }
    else storeAndAddToChecksum g c
  else if c = char '"' then
    { storeAndAddToChecksum g c with bufferState := .parsingQuotedString }
  else if c = char '\x7b' then
    storeAndAddToChecksum { g with braceCount := g.braceCount + 1, seenExpression := true } c
  else if c = char '\x7d' then
    storeAndAddToChecksum
      (if g.braceCount ≠ 0 then { g with braceCount := g.braceCount - 1 } else g) c
  else storeAndAddToChecksum g c

def startGCode (g : GCodeBuffer) (c : UInt8) : GCodeBuffer :=
  parsingGCode { g with bufferState := .parsingGCode, commandStart := 0 } c

def parsingWhitespace (g : GCodeBuffer) (c : UInt8) : GCodeBuffer :=
  if c = char ' ' ∨ c = char '\t' then addToChecksum g c else startGCode g c

def parsingLineNumber (g : GCodeBuffer) (c : UInt8) : GCodeBuffer :=
  if isDigit c then
    { addToChecksum g c with
      receivedLineNumber := 10 * g.receivedLineNumber + (c - char '0').toUInt32 }
  else parsingWhitespace { g with bufferState := .parsingWhitespace } c

def parseNotStarted (g : GCodeBuffer) (c : UInt8) : GCodeBuffer :=
  let g := { g with braceCount := 0 }
  if c = char 'N' ∨ c = char 'n' then
    { addToChecksum { g with hadLineNumber := true, crc16 := 0 } c with
      bufferState := .parsingLineNumber
      receivedLineNumber := 0 }
  else if c = char ' ' then
    { addToChecksum g c with commandIndent := g.commandIndent + 1, seenLeadingSpace := true }
  else if c = char '\t' then
    -- move on at least 1 to the next multiple of 4
    { addToChecksum g c with
      commandIndent := (g.commandIndent + 4) &&& ~~~3, seenLeadingTab := true }
  else startGCode g c

def parsingBracketedComment (g : GCodeBuffer) (c : UInt8) : GCodeBuffer :=
  let g := addToChecksum g c
  if c = char ')' then { g with bufferState := .parsingGCode } else g

def parsingQuotedString (g : GCodeBuffer) (c : UInt8) : GCodeBuffer :=
  let g := storeAndAddToChecksum g c
  if c = char '"' then { g with bufferState := .parsingGCode } else g

def parsingChecksum (g : GCodeBuffer) (c : UInt8) : GCodeBuffer :=
  if isDigit c then
    { g with
      declaredChecksum := 10 * g.declaredChecksum + (c - char '0').toUInt32
      checksumCharsReceived := g.checksumCharsReceived + 1 }
  else { g with bufferState := .discarding }

def parseChar (g : GCodeBuffer) (c : UInt8) : GCodeBuffer :=
  match g.bufferState with
  | .parseNotStarted => parseNotStarted g c
  | .parsingLineNumber => parsingLineNumber g c
  | .parsingWhitespace => parsingWhitespace g c
  | .parsingGCode => parsingGCode g c
  | .parsingComment => storeAndAddToChecksum g c
  | .parsingBracketedComment => parsingBracketedComment g c
  | .parsingQuotedString => parsingQuotedString g c
  | .parsingChecksum => parsingChecksum g c
  | .discarding | .ready | .executing => g

def badChecksum (g : GCodeBuffer) : Bool :=
  g.hadChecksum &&
    if g.checksumCharsReceived = 1 ∨ g.checksumCharsReceived = 2 ∨ g.checksumCharsReceived = 3 then
      g.crcRequired || g.computedChecksum.toUInt32 != g.declaredChecksum
    else if g.checksumCharsReceived = 5 then g.crc16.toUInt32 != g.declaredChecksum
    else true

def missingChecksum (g : GCodeBuffer) : Bool :=
  !g.hadChecksum && (g.checksumRequired || g.crcRequired) && !g.hasPrevious

/-- The result says whether there is a completed command ready to be executed. -/
def lineFinished (g : GCodeBuffer) : GCodeBuffer × Bool :=
  let g := { g with
    lineNumber := if g.hadLineNumber then g.receivedLineNumber else g.lineNumber + 1 }
  if gcodeLineEnd g = 0 then (init g, false)
  else if g.bufferState ≠ .parsingComment ∧ (badChecksum g ∨ missingChecksum g) then
    (init g, false)
  else ({ g with commandStart := 0 }, true)

def endsLine (c : UInt8) : Bool := c = 0 ∨ c = char '\n' ∨ c = char '\r'

def countChar (g : GCodeBuffer) (c : UInt8) : GCodeBuffer :=
  if c ≠ 0 then { g with commandLength := g.commandLength + 1 } else g

-- The UART receiver stores 0x7F in the buffer if an overrun or framing error occurs.
def resync (g : GCodeBuffer) (c : UInt8) : GCodeBuffer :=
  if c = 0x7F ∧ g.bufferState ≠ .discarding then { g with buffer := [], bufferState := .discarding }
  else g

def put (g : GCodeBuffer) (c : UInt8) : GCodeBuffer × Bool :=
  let g := countChar g c
  if c = char '\r' ∧ g.doingFile then (g, false)
  else if endsLine c then lineFinished g
  else (parseChar (resync g c) c, false)

/-! ### The commands of a line

A line that continues a G0 to G3 command without repeating it, as CNC and laser machines accept it,
is left out. -/

def upper (c : UInt8) : UInt8 := if char 'a' ≤ c ∧ c ≤ char 'z' then c - 32 else c

def isBlank (c : UInt8) : Bool := c = char ' ' ∨ c = char '\t'

/-- Where the parameters of the G, M or T command at `start` begin. -/
def parameterStart (buffer : List UInt8) (start : ℕ) : ℕ :=
  let look := fun i => buffer.getD i 0
  if upper (look start) = char 'T' ∧ look (start + 1) = char '\x7b' then start
  else
    let p := if look (start + 1) = char '-' then start + 2 else start + 1
    let digits := ((buffer.drop p).takeWhile isDigit).length
    let p := p + digits
    let p := if digits ≠ 0 ∧ look p = char '.' then if isDigit (look (p + 1)) then p + 2 else p + 1
      else p
    p + ((buffer.drop p).takeWhile isBlank).length

/-- The number of characters up to the next command. -/
def findParameters (inQuotes escaped : Bool) (braces : ℕ) : List UInt8 → ℕ
  | [] => 0
  | c :: rest =>
    if c = char '\x27' then 1 + findParameters inQuotes (!inQuotes) braces rest
    else if c = char '"' then 1 + findParameters (!inQuotes) false braces rest
    else if inQuotes then 1 + findParameters inQuotes false braces rest
    else if c = char '\x7b' then 1 + findParameters inQuotes false (braces + 1) rest
    else if braces ≠ 0 then
      1 + findParameters inQuotes false (if c = char '\x7d' then braces - 1 else braces) rest
    else if escaped = false ∧ (upper c = char 'G' ∨ upper c = char 'M') then 0
    else 1 + findParameters inQuotes false braces rest

/-- What `DecodeCommand` leaves in `commandEnd`. -/
def commandEnd (g : GCodeBuffer) : ℕ :=
  let start := g.commandStart.toNat
  let letter := upper (g.buffer.getD start 0)
  if letter = char 'G' ∨ letter = char 'M' ∨ letter = char 'T' then
    let p := parameterStart g.buffer start
    p + findParameters false false 0 (g.buffer.drop p)
  else gcodeLineEnd g

/-- The command at the start of the line is `M29`, the end of a file that is being written. -/
def isM29 (g : GCodeBuffer) : Bool :=
  let digits := (g.buffer.drop 1).takeWhile isDigit
  upper (g.buffer.getD 0 0) = char 'M' ∧ digits ≠ [] ∧
    digits.foldl (fun n d => 10 * n + (d - char '0').toNat) 0 = 29

/-- `GCodeBuffer::SetFinished`. There may be another command in the same line. -/
def setFinished (g : GCodeBuffer) (f : Bool) : GCodeBuffer :=
  if f then
    if commandEnd g < gcodeLineEnd g then
      { g with commandStart := (commandEnd g).toUInt32, bufferState := .ready }
    else init g
  else { g with bufferState := .executing }

/-! ### What feeding a character leaves alone -/

section
variable (g : GCodeBuffer) (c : UInt8)

@[simp] lemma init_bufferState : (init g).bufferState = .parseNotStarted := rfl

@[simp] lemma init_doingFile : (init g).doingFile = g.doingFile := rfl

@[simp] lemma init_commandLength : (init g).commandLength = 0 := rfl

@[simp] lemma init_commandStart : (init g).commandStart = 0 := rfl

@[simp] lemma addToChecksum_bufferState : (addToChecksum g c).bufferState = g.bufferState := by
  unfold addToChecksum
  split <;> rfl

@[simp] lemma addToChecksum_doingFile : (addToChecksum g c).doingFile = g.doingFile := by
  unfold addToChecksum
  split <;> rfl

@[simp] lemma addToChecksum_commandLength :
    (addToChecksum g c).commandLength = g.commandLength := by
  unfold addToChecksum
  split <;> rfl

@[simp] lemma addToChecksum_commandStart : (addToChecksum g c).commandStart = g.commandStart := by
  unfold addToChecksum
  split <;> rfl

@[simp] lemma store_bufferState : (storeAndAddToChecksum g c).bufferState = g.bufferState := by
  simp only [storeAndAddToChecksum]
  split
  · simp
  · split <;> simp

@[simp] lemma store_doingFile : (storeAndAddToChecksum g c).doingFile = g.doingFile := by
  simp only [storeAndAddToChecksum]
  split
  · simp
  · split <;> simp

@[simp] lemma store_commandLength :
    (storeAndAddToChecksum g c).commandLength = g.commandLength := by
  simp only [storeAndAddToChecksum]
  split
  · simp
  · split <;> simp

@[simp] lemma store_commandStart :
    (storeAndAddToChecksum g c).commandStart = g.commandStart := by
  simp only [storeAndAddToChecksum]
  split
  · simp
  · split <;> simp

/-- What a character does to the fields that the rest of the program looks at. -/
structure Fed (g g' : GCodeBuffer) : Prop where
  doingFile : g'.doingFile = g.doingFile
  commandLength : g'.commandLength = g.commandLength
  commandStart : g.commandStart = 0 → g'.commandStart = 0

lemma parsingGCode_fed : Fed g (parsingGCode g c) := by
  unfold parsingGCode
  split_ifs <;> exact ⟨by simp, by simp, by simp⟩

lemma startGCode_fed : Fed g (startGCode g c) := by
  obtain ⟨hf, hl, hs⟩ :=
    parsingGCode_fed { g with bufferState := .parsingGCode, commandStart := 0 } c
  exact ⟨hf, hl, fun _ => hs rfl⟩

lemma parsingWhitespace_fed : Fed g (parsingWhitespace g c) := by
  unfold parsingWhitespace
  split_ifs
  · exact ⟨by simp, by simp, by simp⟩
  · exact startGCode_fed g c

lemma parseNotStarted_fed : Fed g (parseNotStarted g c) := by
  unfold parseNotStarted
  simp only
  split_ifs
  · exact ⟨by simp, by simp, by simp⟩
  · exact ⟨by simp, by simp, by simp⟩
  · exact ⟨by simp, by simp, by simp⟩
  · obtain ⟨hf, hl, hs⟩ := startGCode_fed { g with braceCount := 0 } c
    exact ⟨hf, hl, hs⟩

lemma parsingLineNumber_fed : Fed g (parsingLineNumber g c) := by
  unfold parsingLineNumber
  split_ifs
  · exact ⟨by simp, by simp, by simp⟩
  · obtain ⟨hf, hl, hs⟩ := parsingWhitespace_fed { g with bufferState := .parsingWhitespace } c
    exact ⟨hf, hl, hs⟩

lemma parseChar_fed : Fed g (parseChar g c) := by
  unfold parseChar
  split
  · exact parseNotStarted_fed g c
  · exact parsingLineNumber_fed g c
  · exact parsingWhitespace_fed g c
  · exact parsingGCode_fed g c
  · exact ⟨by simp, by simp, by simp⟩
  · simp only [parsingBracketedComment]
    split_ifs <;> exact ⟨by simp, by simp, by simp⟩
  · simp only [parsingQuotedString]
    split_ifs <;> exact ⟨by simp, by simp, by simp⟩
  · simp only [parsingChecksum]
    split_ifs <;> exact ⟨rfl, rfl, id⟩
  · exact ⟨rfl, rfl, id⟩
  · exact ⟨rfl, rfl, id⟩
  · exact ⟨rfl, rfl, id⟩

@[simp] lemma countChar_doingFile : (countChar g c).doingFile = g.doingFile := by
  unfold countChar
  split <;> rfl

@[simp] lemma countChar_bufferState : (countChar g c).bufferState = g.bufferState := by
  unfold countChar
  split <;> rfl

@[simp] lemma countChar_commandStart : (countChar g c).commandStart = g.commandStart := by
  unfold countChar
  split <;> rfl

lemma resync_fed : Fed g (resync g c) := by
  unfold resync
  split <;> exact ⟨rfl, rfl, id⟩

@[simp] lemma lineFinished_doingFile : (lineFinished g).1.doingFile = g.doingFile := by
  simp only [lineFinished]
  split_ifs <;> rfl

@[simp] lemma put_doingFile : (put g c).1.doingFile = g.doingFile := by
  simp only [put]
  split_ifs
  · simp
  · simp
  · exact ((parseChar_fed _ c).doingFile.trans (resync_fed _ c).doingFile).trans (by simp)

variable {c} in
lemma put_char (h : endsLine c = false) : put g c = (parseChar (resync (countChar g c) c) c, false)
    := by
  have hr : c ≠ char '\r' := by
    rintro rfl
    exact absurd h (by decide)
  simp [put, hr, h]

variable {g c} {st : GCodeBufferState}

lemma parsingGCode_state (hst : st = .parseNotStarted ∨ st = .ready ∨ st = .executing) (h
    : g.bufferState ≠ st) :
    (parsingGCode g c).bufferState ≠ st := by
  unfold parsingGCode
  rcases hst with rfl | rfl | rfl <;> split_ifs <;> simp [h]

lemma startGCode_state (hst : st = .parseNotStarted ∨ st = .ready ∨ st = .executing) :
    (startGCode g c).bufferState ≠ st := by
  apply parsingGCode_state hst
  rcases hst with rfl | rfl | rfl <;> simp

lemma parsingWhitespace_state (hst : st = .parseNotStarted ∨ st = .ready ∨ st = .executing)
    (h : g.bufferState ≠ st) : (parsingWhitespace g c).bufferState ≠ st := by
  unfold parsingWhitespace
  split
  · simpa using h
  · exact startGCode_state hst

/-- Only blanks leave the parser at the start of a line, and no character completes one. -/
lemma parseChar_state (hst : st = .parseNotStarted ∨ st = .ready ∨ st = .executing)
    (h : (parseChar g c).bufferState = st) :
    g.bufferState = st ∧ (st = .parseNotStarted → c = char ' ' ∨ c = char '\t') := by
  by_contra hcon
  revert h
  unfold parseChar
  cases hg : g.bufferState
  case parseNotStarted =>
    simp only [parseNotStarted]
    split_ifs with hn hs ht
    · rcases hst with rfl | rfl | rfl <;> simp
    · rcases hst with rfl | rfl | rfl <;> simp_all
    · rcases hst with rfl | rfl | rfl <;> simp_all
    · exact startGCode_state hst
  case parsingLineNumber =>
    simp only [parsingLineNumber]
    split
    · rcases hst with rfl | rfl | rfl <;> simp [hg]
    · apply parsingWhitespace_state hst
      rcases hst with rfl | rfl | rfl <;> simp
  case parsingWhitespace =>
    apply parsingWhitespace_state hst
    rcases hst with rfl | rfl | rfl <;> simp [hg]
  case parsingGCode =>
    apply parsingGCode_state hst
    rcases hst with rfl | rfl | rfl <;> simp [hg]
  all_goals
    simp only [parsingBracketedComment, parsingQuotedString, parsingChecksum]
    rcases hst with rfl | rfl | rfl <;> (try split) <;> simp_all

lemma resync_state (hst : st = .parseNotStarted ∨ st = .ready ∨ st = .executing)
    (h : (resync g c).bufferState = st) : g.bufferState = st := by
  unfold resync at h
  split at h
  · rcases hst with rfl | rfl | rfl <;> simp at h
  · exact h

lemma put_state (hst : st = .parseNotStarted ∨ st = .ready ∨ st = .executing) (hc : endsLine c =
    false)
    (h : (put g c).1.bufferState = st) :
    g.bufferState = st ∧ (st = .parseNotStarted → c = char ' ' ∨ c = char '\t') := by
  rw [put_char g hc] at h
  obtain ⟨hr, hblank⟩ := parseChar_state hst h
  exact ⟨by simpa using resync_state hst hr, hblank⟩

lemma lineFinished_of_not_complete (h : (lineFinished g).2 = false) :
    (lineFinished g).1.bufferState = .parseNotStarted := by
  simp only [lineFinished] at h ⊢
  split_ifs at h ⊢ <;> simp_all

/-- The end of a line leaves nothing of it, unless the line is a command to be executed. -/
lemma put_end (hf : g.doingFile = false) (hc : endsLine c = true) (h : (put g c).2 = false) :
    (put g c).1.bufferState = .parseNotStarted := by
  simp only [put, countChar_doingFile, hf, hc, if_true, Bool.false_eq_true, and_false,
    if_false] at h ⊢
  exact lineFinished_of_not_complete h

lemma lineFinished_state :
    (lineFinished g).1.bufferState = g.bufferState ∨
      (lineFinished g).1.bufferState = .parseNotStarted := by
  simp only [lineFinished]
  split_ifs <;> simp

lemma lineFinished_commandLength :
    (lineFinished g).1.commandLength = if (lineFinished g).2 then g.commandLength else 0 := by
  simp only [lineFinished]
  split_ifs <;> simp_all

/-- Lines from a file end with a line feed or with a null. -/
lemma put_doing_file (hf : g.doingFile = true) :
    put g c = if c = char '\r' then (countChar g c, false)
      else if endsLine c then lineFinished (countChar g c)
      else (parseChar (resync (countChar g c) c) c, false) := by
  simp [put, hf]

lemma put_complete (h : (put g c).2 = true) : endsLine c = true ∧ ¬ (c = char '\r' ∧ g.doingFile) :=
    by
  simp only [put, countChar_doingFile] at h
  split_ifs at h with hr he
  exact ⟨he, hr⟩

/-- The length of the command counts the characters that are not null. -/
lemma put_commandLength (hf : g.doingFile = true) :
    (put g c).1.commandLength =
      if (put g c).2 = false ∧ endsLine c ∧ c ≠ char '\r' then 0
      else (countChar g c).commandLength := by
  rw [put_doing_file hf]
  by_cases hr : c = char '\r'
  · simp [hr]
  · by_cases he : endsLine c = true
    · simp only [hr, if_false, he, if_true, lineFinished_commandLength]
      cases (lineFinished (countChar g c)).2 <;> simp [hr]
    · simp only [hr, if_false, he]
      simp [(parseChar_fed _ c).commandLength, (resync_fed _ c).commandLength]

lemma put_executing (hr : g.bufferState ≠ .ready) (he : g.bufferState ≠ .executing) :
    (put g c).1.bufferState ≠ .ready ∧ (put g c).1.bufferState ≠ .executing := by
  have hparse : ∀ st, (st = .parseNotStarted ∨ st = .ready ∨ st = .executing) →
      g.bufferState ≠ st → (parseChar (resync (countChar g c) c) c).bufferState ≠ st := by
    intro st hst hne h
    have := resync_state hst (parseChar_state hst h).1
    exact hne (by simpa using this)
  simp only [put]
  split_ifs
  · simp [hr, he]
  · rcases lineFinished_state (g := countChar g c) with h | h
    · simp [h, hr, he]
    · simp [h]
  · exact ⟨hparse _ (by simp) hr, hparse _ (by simp) he⟩

end

end RepRapFirmware.GCodes.StringParser
