import RepRapFirmware.Library.Runs
import RepRapFirmware.Storage.FileStore
import RepRapFirmware.Storage.Rename

/-! One upload over HTTP or FTP, from its start to the answer that the client gets. Nothing else
changes the files meanwhile, and every call of the file system may fail. -/

namespace RepRapFirmware.Networking.UploadingNetworkResponder

open Library.FileTree Storage

/-- What a client asks for. Over FTP neither a length nor a CRC is announced. -/
inductive Request
  | http (fileName : List Char) (postFileLength : UInt32) (expectedCrc : Option UInt32)
  | ftp (currentDirectory : { d : List Char // d.head? = some '/' }) (fileName : List Char)

namespace Request

def folder : Request → List Char
  | http _ _ _ => "0:".toList
  | ftp currentDirectory _ => currentDirectory

def fileName : Request → List Char
  | http fileName _ _ => fileName
  | ftp _ fileName => fileName

def fileLength : Request → ℕ
  | http _ postFileLength _ => postFileLength.toNat
  | ftp _ _ => 0

def expectedCrc : Request → Option UInt32
  | http _ _ expectedCrc => expectedCrc
  | ftp _ _ => none

end Request

/-- What the file system and the network answer during the upload. -/
structure Answers where
  folders : MassStorage.PathFaults
  openFails : Bool
  expands : Bool
  haveWriteBuffer : Bool
  file : FileStore.Faults
  disk : MassStorage.Disk
  rename : MassStorage.RenameFaults
  canReport : Bool

inductive ResponderState
  | uploading
  | finished
  | halted
  deriving DecidableEq, Repr

/-- The responder with its upload, the drives, what was received and what was reported. A dummy
upload has no file. -/
structure Upload where
  responderState : ResponderState
  fileBeingUploaded : Option FileStore.File
  filenameBeingProcessed : List Char
  uploadError : Bool
  uploadedBytes : ℕ
  received : List UInt8
  report : Option Bool
  drives : MassStorage.State

def maxFilenameLength : ℕ := 120

def uploadExtension : List Char := ".part".toList

def combineName (directory fileName : List Char) : Option (List Char) :=
  let start :=
    if directory ≠ [] ∧ fileName.head? ≠ some '/' ∧ MassStorage.hasDrive fileName = false then
      MassStorage.addSlash directory
    else []
  if (start ++ fileName).length ≤ maxFilenameLength then some (start ++ fileName) else none

def endsWithIgnoreCase (string ending : List Char) : Bool :=
  ending.length ≤ string.length &&
    (string.drop (string.length - ending.length)).map Char.toLower = ending.map Char.toLower

/-- `OpenFile` for writing. -/
def openFile (a : Answers) (folder fileName : List Char) (withCrc : Bool) (preAllocSize : ℕ)
    (s : MassStorage.State) : Option FileStore.File × MassStorage.State :=
  match combineName folder fileName with
  | none => (none, s)
  | some path =>
    match MassStorage.ensurePath a.folders path true s with
    | (false, s) => (none, s)
    | (true, s) =>
      if !a.openFails && MassStorage.validPath path && !MassStorage.isRoot path &&
          !MassStorage.isDirAt (MassStorage.resolve path) s &&
          MassStorage.isDirAt (MassStorage.resolve path).dropLast s then
        let allocated := if a.expands then preAllocSize else 0
        let writeBuffer := if a.haveWriteBuffer then some [] else none
        (some ⟨[], allocated, writeBuffer, withCrc, [], 0, 0⟩,
          MassStorage.place (MassStorage.resolve path) (.file []) s)
      else (none, s)

def rejected (s : MassStorage.State) : Upload :=
  { responderState := .finished, fileBeingUploaded := none, filenameBeingProcessed := [],
    uploadError := false, uploadedBytes := 0, received := [],
    report := some false, drives := s }

def started (file : Option FileStore.File) (name : List Char) (s : MassStorage.State) : Upload :=
  { responderState := .uploading, fileBeingUploaded := file, filenameBeingProcessed := name,
    uploadError := false, uploadedBytes := 0, received := [],
    report := none, drives := s }

def startUpload (a : Answers) (r : Request) (s : MassStorage.State) : Upload :=
  if r.fileName = [] ∨ endsWithIgnoreCase r.fileName ".dummy".toList then started none [] s
  else
    match combineName r.folder r.fileName with
    | none => rejected s
    | some name =>
      if maxFilenameLength < (name ++ uploadExtension).length then rejected s
      else
        match openFile a r.folder (name ++ uploadExtension) r.expectedCrc.isSome r.fileLength s with
        | (none, s) => rejected s
        | (some file, s) => started (some file) (name ++ uploadExtension) s

/-- The drives once the uploaded file is closed. -/
def closeFile (a : Answers) (file : FileStore.File) (u : Upload) : MassStorage.State :=
  MassStorage.place (MassStorage.resolve u.filenameBeingProcessed)
    (.file (FileStore.close a.file file).2) u.drives

def deleteUpload (a : Answers) (mode : MassStorage.ErrorMessageMode) (name : List Char)
    (s : MassStorage.State) : MassStorage.State :=
  (MassStorage.delete a.disk name mode false s).state

def cancelUpload (a : Answers) (u : Upload) : Upload :=
  match u.fileBeingUploaded with
  | none => u
  | some file =>
    let s := closeFile a file u
    { u with
      fileBeingUploaded := none
      filenameBeingProcessed := []
      drives := if u.filenameBeingProcessed ≠ [] then
          deleteUpload a .messageAlways u.filenameBeingProcessed s else s }

/-- The checks of `FinishUpload`, with the error flag and the file after them. -/
def checkUpload (a : Answers) (crc32 : List UInt8 → UInt32) (fileLength : ℕ)
    (expectedCrc : Option UInt32) (file : FileStore.File) : Bool × FileStore.File :=
  let (flushed, file) := FileStore.flush a.file file
  let lengthError := fileLength ≠ 0 && FileStore.length file ≠ fileLength
  let crcError := expectedCrc.any (· ≠ crc32 file.crcData)
  (!flushed || lengthError || crcError, file)

def finishUpload (a : Answers) (crc32 : List UInt8 → UInt32) (fileLength : ℕ)
    (expectedCrc : Option UInt32) (u : Upload) : Upload :=
  match u.fileBeingUploaded with
  | none => u
  | some file =>
    let (failed, file) := checkUpload a crc32 fileLength expectedCrc file
    let uploadError := u.uploadError || failed
    let s := closeFile a file u
    let name := u.filenameBeingProcessed
    let origFilename := name.take (name.length - uploadExtension.length)
    { u with
      fileBeingUploaded := none
      filenameBeingProcessed := []
      uploadError := uploadError
      drives := if name = [] then s
        else if uploadError then deleteUpload a .messageUnlessMissing name s
        else (MassStorage.rename a.disk a.rename name origFilename true true s).2 }

/-- The answer to the client, if there is a buffer and a connection to send it. -/
def respond (a : Answers) (u : Upload) : Upload :=
  { u with
    responderState := .finished
    report := if a.canReport then some (!u.uploadError) else none }

/-- The upload after one pass of `DoUpload`, or as `FinishUpload` is going to find it. -/
inductive Progress
  | goesOn (u : Upload)
  | finishing (u : Upload)

def writeFailed (a : Answers) (u : Upload) : Upload :=
  respond a (cancelUpload a { u with uploadError := true })

namespace Http

def connectionLost (a : Answers) (u : Upload) : Upload :=
  { cancelUpload a u with responderState := .finished }

/-- The loop over the buffers of the socket, up to the length of a write buffer. -/
def takeBuffers (a : Answers) : (bytesWritten : ℕ) → List (List UInt8) → Upload → Bool × Upload
  | _, [], u => (true, u)
  | bytesWritten, buffer :: buffers, u =>
    if bytesWritten < FileStore.fileWriteBufLen then
      let taken := { u with
        uploadedBytes := (u.uploadedBytes + buffer.length) % 2 ^ 32
        received := u.received ++ buffer }
      match u.fileBeingUploaded with
      | none => takeBuffers a (bytesWritten + buffer.length) buffers taken
      | some file =>
        match FileStore.write a.file buffer file with
        | (false, file) => (false, { taken with fileBeingUploaded := some file })
        | (true, file) => takeBuffers a (bytesWritten + buffer.length) buffers
            { taken with fileBeingUploaded := some file }
    else (true, u)

def doUpload (a : Answers) (fileLength : ℕ) (buffers : List (List UInt8))
    (canRead timedOut : Bool) (u : Upload) : Progress :=
  let checkFinished (u : Upload) : Progress :=
    if fileLength ≤ u.uploadedBytes then .finishing u else .goesOn u
  if buffers = [] then
    if !canRead || timedOut then .goesOn (connectionLost a u) else checkFinished u
  else
    match takeBuffers a 0 buffers u with
    | (false, u) => .goesOn (writeFailed a u)
    | (true, u) => checkFinished u

end Http

namespace Ftp

/-- The file that was being uploaded stays open. -/
def connectionLost (u : Upload) : Upload := { u with responderState := .finished }

def doUpload (a : Answers) (buffers : List (List UInt8)) (canRead : Bool) (u : Upload) : Progress :=
  let checkFinished (u : Upload) : Progress := if canRead then .goesOn u else .finishing u
  match buffers with
  | [] => checkFinished u
  | buffer :: _ =>
    let taken := { u with received := u.received ++ buffer }
    match u.fileBeingUploaded with
    | none => .goesOn { taken with responderState := .halted }
    | some file =>
      match FileStore.write a.file buffer file with
      | (false, file) => .goesOn (writeFailed a { taken with fileBeingUploaded := some file })
      | (true, file) => checkFinished { taken with fileBeingUploaded := some file }

end Ftp

/-- The buffers that the socket holds when the responder comes to it, the loss of the connection on
which commands are sent or an order to stop, and a command to abort the transfer. -/
inductive Event
  | data (buffers : List (List UInt8)) (canRead timedOut : Bool)
  | lost
  | abort

def progress (a : Answers) (r : Request) (u : Upload) : Event → Progress
  | .data buffers canRead timedOut =>
    match r with
    | .http _ _ _ => Http.doUpload a r.fileLength buffers canRead timedOut u
    | .ftp _ _ => Ftp.doUpload a buffers canRead u
  | .lost =>
    match r with
    | .http _ _ _ => .goesOn (Http.connectionLost a u)
    | .ftp _ _ => .goesOn (Ftp.connectionLost u)
  | .abort =>
    match r with
    | .http _ _ _ => .goesOn u
    | .ftp _ _ => .goesOn { cancelUpload a u with responderState := .finished }

def step (a : Answers) (crc32 : List UInt8 → UInt32) (r : Request) (u : Upload) (e : Event) :
    Upload :=
  if u.responderState = .uploading then
    match progress a r u e with
    | .goesOn u => u
    | .finishing u => respond a (finishUpload a crc32 r.fileLength r.expectedCrc u)
  else u

end RepRapFirmware.Networking.UploadingNetworkResponder
