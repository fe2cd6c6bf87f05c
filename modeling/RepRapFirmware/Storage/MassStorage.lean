import RepRapFirmware.Library.FileTree

/-! Deleting files and directories. The calls of the file system behave as specified, but any
deletion may fail. Path buffers are large enough for what is put into them. -/

namespace RepRapFirmware.Storage.MassStorage

open Library.FileTree

abbrev Name := List Char

/-- Names are compared without regard to case. -/
def nameKey (n : Name) : Name := n.map Char.toUpper

def hasDrive : List Char → Bool
  | d :: c :: _ => d.isDigit && c = ':'
  | _ => false

/-- The drive of a path, and the rest. -/
def splitDrive (path : List Char) : Name × List Char :=
  if hasDrive path then (path.take 2, path.drop 2) else (['0', ':'], path)

def components (path : List Char) : List Name := (path.splitOn '/').filter (· ≠ [])

/-- The way from the drives to what a path names. -/
def resolve (path : List Char) : List Name :=
  (splitDrive path).1 :: components (splitDrive path).2

inductive FResult
  | ok | diskErr | noFile | notEmpty
  deriving DecidableEq, Repr

inductive ErrorMessageMode
  | noMessage | messageUnlessMissing | messageAlways
  deriving DecidableEq, Repr

/-- The files that are open, and the deletions that fail, counted from the first. -/
structure Disk where
  isOpen : List Name → Bool
  unlinkFails : ℕ → Bool

/-- The drives with what they hold, the number of deletions that were tried, and the messages. -/
structure State where
  root : Entries Name (List UInt8)
  unlinks : ℕ
  messages : List String

def State.message (text : String) (s : State) : State := { s with messages := text :: s.messages }

/-- `f_unlink` -/
def unlink (d : Disk) (path : List Char) (s : State) : FResult × State :=
  let tried := { s with unlinks := s.unlinks + 1 }
  if d.unlinkFails s.unlinks then (.diskErr, tried)
  else
    match lookup nameKey (resolve path) s.root with
    | none => (.noFile, tried)
    | some (.dir (_ :: _)) => (.notEmpty, tried)
    | some (.dir []) | some (.file _) =>
      (.ok, { tried with root := remove nameKey (resolve path) s.root })

/-- Whether a file of this path exists and is open. -/
def isSameFileOpen (d : Disk) (path : List Char) (s : State) : Bool :=
  match lookup nameKey (resolve path) s.root with
  | some (.file _) => d.isOpen (resolve path)
  | _ => false

def failureText (filePath : List Char) (result : FResult) : String :=
  "Failed to delete " ++ String.ofList filePath ++
    (if result = .notEmpty then " because it is a folder and not empty" else "") ++ "\n"

def internalDelete (d : Disk) (mode : ErrorMessageMode) (filePath : List Char) (s : State) :
    Bool × State :=
  if isSameFileOpen d filePath s then
    (false, s.message ("Cannot delete file " ++ String.ofList filePath ++ " because it is open\n"))
  else
    let (result, s) := unlink d filePath s
    if result ≠ .ok then
      (false,
        if mode = .messageAlways ∨ mode = .messageUnlessMissing ∧ result ≠ .noFile then
          s.message (failureText filePath result)
        else s)
    else (true, s)

/-- What `f_readdir` tells of an entry. -/
structure DirEntry where
  fname : Name
  isDir : Bool

def listEntries (es : Entries Name (List UInt8)) : List DirEntry :=
  es.map fun e => ⟨e.1, match e.2 with | .dir _ => true | .file _ => false⟩

/-- `f_opendir`, with the entries that the handle is going to read. -/
def opendir (path : List Char) (s : State) : Option (List DirEntry) :=
  match lookup nameKey (resolve path) s.root with
  | some (.dir es) => some (listEntries es)
  | _ => none

def addSlash (path : List Char) : List Char :=
  if path = [] ∨ path.getLast? ≠ some '/' then path ++ ['/'] else path

/-- The outcome of `DeleteContents`, with the entries that its handle has not read yet. -/
structure Contents where
  ok : Bool
  remaining : List DirEntry
  filePath : List Char
  state : State

/-- The loop of `DeleteContents` over the entries of its handle, with the path truncated to its
length before each of them. The contents of a directory are read from the same handle. -/
def deleteEntries (d : Disk) (mode : ErrorMessageMode) (pathLength : ℕ) :
    (remaining : List DirEntry) → List Char → State →
      { c : Contents // c.remaining.length ≤ remaining.length }
  | [], filePath, s => ⟨⟨true, [], filePath, s⟩, le_rfl⟩
  | entry :: rest, filePath, s =>
    if nameKey entry.fname = ['.'] ∨ nameKey entry.fname = ['.', '.'] then
      let c := deleteEntries d mode pathLength rest filePath s
      ⟨c.1, c.2.trans (Nat.le_succ _)⟩
    else
      let filePath := filePath ++ entry.fname
      if entry.isDir then
        match opendir filePath s with
        | none => ⟨⟨true, rest, filePath.take pathLength, s⟩, Nat.le_succ _⟩
        | some _ =>
          match deleteEntries d mode (addSlash filePath).length rest (addSlash filePath) s with
          | ⟨inner, hinner⟩ =>
            if inner.ok then
              let path := (inner.filePath.take filePath.length).take pathLength
              let c := deleteEntries d mode pathLength inner.remaining path inner.state
              ⟨c.1, c.2.trans (hinner.trans (Nat.le_succ _))⟩
            else ⟨inner, hinner.trans (Nat.le_succ _)⟩
      else
        match internalDelete d mode filePath s with
        | (false, s) => ⟨⟨true, rest, filePath.take pathLength, s⟩, Nat.le_succ _⟩
        | (true, s) =>
          let c := deleteEntries d mode pathLength rest (filePath.take pathLength) s
          ⟨c.1, c.2.trans (Nat.le_succ _)⟩
  termination_by remaining => remaining.length

def deleteContents (d : Disk) (mode : ErrorMessageMode) (dir : List DirEntry)
    (filePath : List Char) (s : State) : Contents :=
  let c := (deleteEntries d mode (addSlash filePath).length dir (addSlash filePath) s).1
  if c.ok then { c with filePath := c.filePath.take filePath.length } else c

structure Outcome where
  result : Bool
  filePath : List Char
  state : State

def isRoot (path : List Char) : Bool := ((splitDrive path).2.dropWhile (· = '/')).isEmpty

def delete (d : Disk) (filePath : List Char) (mode : ErrorMessageMode) (recursive : Bool)
    (s : State) : Outcome :=
  let simple (filePath : List Char) (s : State) : Outcome :=
    let (result, s) := internalDelete d mode filePath s
    ⟨result, filePath, s⟩
  if recursive then
    if isRoot filePath then
      ⟨false, filePath,
        if mode = .noMessage then s else s.message "Delete root folder is not allowed"⟩
    else
      match opendir filePath s with
      | none => simple filePath s
      | some dir =>
        let c := deleteContents d mode dir filePath s
        if c.ok then simple c.filePath c.state else ⟨false, c.filePath, c.state⟩
  else simple filePath s

end RepRapFirmware.Storage.MassStorage
