import RepRapFirmware.Library.Buffers
import RepRapFirmware.Library.TextLines

/-! Reading a G-code file chunk by chunk for its header and footer comments. A file is the list of
its bytes; read and seek operations succeed. What is done with a line that is handed on is left
out: the lines are collected. -/

namespace RepRapFirmware.Storage.FileInfo

open RepRapFirmware.Library.Buffers

def gCodeReadSize : ℕ := 2048

def gCodeFooterSize : ℕ := 400 * 1024

def gCodeOverlapSize : ℕ := 100

def u32 (n : ℕ) : ℕ := n % 2 ^ 32

inductive FileParseState
  | notParsing | parsingHeader | seeking | parsingFooter
  deriving DecidableEq, Repr

/-- The parser's variables. Offsets `0` to `gCodeReadSize + gCodeOverlapSize` of `buf` are the
buffer,
what follows is the memory behind it. -/
structure FileInfoParser where
  buf : ℕ → Char
  scanStartOffset : ℕ
  atLineStart : Bool
  position : ℕ
  headerSize : ℕ
  parseState : FileParseState
  handed : List (List Char)

def isEol (c : Char) : Bool := c == '\r' || c == '\n'

/-- A line that stops the header: it starts a command. -/
def startsCommand (line : List Char) : Bool :=
  match line with
  | 'G' :: _ | 'M' :: _ | 'T' :: _ => true
  | _ => false

/-- A comment that may hold a key phrase: spaces and dashes and then a letter. -/
def mayHoldKeyPhrase (line : List Char) : Bool :=
  match line with
  | ';' :: comment =>
    match comment.dropWhile fun c => c == ' ' || c == '-' with
    | c :: _ => c.isAlpha
    | [] => false
  | _ => false

/-- Whether a line is passed over. For a comment of the footer that may hold a key phrase the test
looks at the byte behind the data, `*pEnd`, and not at the one behind the comment. -/
def passedOver (isParsingHeader : Bool) (pEnd : Char) (line : List Char) : Bool :=
  mayHoldKeyPhrase line && !(isParsingHeader || (pEnd != 'G' && pEnd != 'M'))

/-- What scanning returns: the bytes from the returned pointer on, the flags it sets, and the lines
it hands on. -/
structure Scan where
  rest : List Char
  stopped : Bool
  atLineStart : Bool
  handed : List (List Char)

def Scan.hand (s : Scan) (lines : List (List Char)) : Scan :=
  { s with handed := lines ++ s.handed }

/-- Scanning the bytes up to the offset `bufLim`, behind which is the byte `pEnd`. Every round
takes a
line with its end, so that one round for each byte is enough. -/
def scanBuffer (isParsingHeader : Bool) (bufLim : ℕ) (pEnd : Char) : ℕ → List Char → Scan
  | 0, bytes => ⟨bytes, false, true, []⟩
  | rounds + 1, bytes =>
    let lineStart := bytes.dropWhile isEol
    let line := lineStart.takeWhile fun c => !isEol c
    let lineEnd := lineStart.dropWhile fun c => !isEol c
    if lineEnd.length ≤ 1 then
      -- the line does not end in the buffer, or only its last byte ends it
      if gCodeReadSize ≤ bufLim - lineStart.length then ⟨lineStart, false, true, []⟩
      else ⟨[], false, false, []⟩
    else if isParsingHeader && startsCommand line then ⟨lineStart, true, true, []⟩
    else
      (scanBuffer isParsingHeader bufLim pEnd rounds lineEnd.tail).hand
        (if passedOver isParsingHeader pEnd line then [] else [line])

/-- The buffer after a read, where the data in it ends, and whether the file has been read. -/
structure Chunk where
  buf : ℕ → Char
  bufLim : ℕ
  reachedEnd : Bool

def readChunk (file : List Char) (s : FileInfoParser) : Chunk :=
  let sizeLeft := file.length - s.position
  let bytes := (file.drop s.position).take gCodeReadSize
  let buf := store s.buf gCodeOverlapSize bytes
  let bufLim := gCodeOverlapSize + bytes.length
  if sizeLeft ≤ gCodeReadSize then ⟨store buf bufLim ['\n'], bufLim + 1, true⟩
  else ⟨buf, bufLim, false⟩

/-- The bytes to be scanned: the rest of a very long line is skipped. -/
def toScan (s : FileInfoParser) (chunk : Chunk) : List Char :=
  let bytes := slice chunk.buf s.scanStartOffset chunk.bufLim
  if s.atLineStart then bytes else (bytes.dropWhile fun c => !isEol c).drop 1

/-- Whether a line start has been found by then. -/
def foundLineStart (s : FileInfoParser) (chunk : Chunk) : Bool :=
  s.atLineStart || (slice chunk.buf s.scanStartOffset chunk.bufLim).any isEol

def scanChunk (isParsingHeader : Bool) (s : FileInfoParser) (chunk : Chunk) : Scan :=
  let bytes := toScan s chunk
  if bytes.isEmpty then ⟨[], false, foundLineStart s chunk, []⟩
  else scanBuffer isParsingHeader chunk.bufLim (chunk.buf chunk.bufLim) (bytes.length + 1) bytes

/-- One chunk, and whether the end of the file or of the header is reached. -/
def readAndProcessFileChunk (file : List Char) (isParsingHeader : Bool) (s : FileInfoParser) :
    FileInfoParser × Bool :=
  let bufferStartFilePosition := u32 (s.position + 2 ^ 32 - gCodeOverlapSize)
  let chunk := readChunk file s
  let scan := scanChunk isParsingHeader s chunk
  let reachedEnd := chunk.reachedEnd || scan.stopped
  let carried := if reachedEnd then [] else scan.rest
  ({ s with
      buf := store chunk.buf (gCodeOverlapSize - carried.length) carried
      scanStartOffset := gCodeOverlapSize - carried.length
      atLineStart := scan.atLineStart
      position := s.position + ((file.drop s.position).take gCodeReadSize).length
      headerSize :=
        if reachedEnd && isParsingHeader then
          u32 (bufferStartFilePosition + (chunk.bufLim - scan.rest.length))
        else s.headerSize
      handed := s.handed ++ scan.handed }, reachedEnd)

def findEndComments (file : List Char) (s : FileInfoParser) : FileInfoParser :=
  let roundedDownLength := file.length - file.length % gCodeReadSize
  if roundedDownLength > u32 (s.headerSize + gCodeFooterSize) then
    { s with
      position := min (roundedDownLength - gCodeFooterSize) file.length
      scanStartOffset := gCodeOverlapSize
      atLineStart := false }
  else
    { s with
      position := min (s.headerSize - s.headerSize % gCodeReadSize) file.length
      scanStartOffset := s.headerSize % gCodeReadSize + gCodeOverlapSize
      atLineStart := false }

/-- One round of the loop in `GetFileInfo`. Where the loop is left for a while, it goes on from the
state it was left in. -/
def step (file : List Char) (s : FileInfoParser) : FileInfoParser :=
  match s.parseState with
  | .notParsing => s
  | .parsingHeader =>
    let (s, reachedEnd) := readAndProcessFileChunk file true s
    if reachedEnd then { s with parseState := .seeking } else s
  | .seeking => { findEndComments file s with parseState := .parsingFooter }
  | .parsingFooter =>
    let (s, reachedEnd) := readAndProcessFileChunk file false s
    if reachedEnd then { s with parseState := .notParsing } else s

/-- The parser when it has opened a file. -/
def start (s : FileInfoParser) : FileInfoParser :=
  { s with
    scanStartOffset := gCodeOverlapSize
    atLineStart := true
    position := 0
    parseState := .parsingHeader
    handed := [] }

/-- The rounds that a file takes at most. -/
def rounds (file : List Char) : ℕ := 2 * (file.length / gCodeReadSize) + 3

def getFileInfo (file : List Char) (s : FileInfoParser) : FileInfoParser :=
  (step file)^[rounds file] (start s)

end RepRapFirmware.Storage.FileInfo
