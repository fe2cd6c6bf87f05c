import Mathlib
import RepRapFirmware.Library.PositionedFile
import RepRapFirmware.Library.Runs
import RepRapFirmware.Storage.CRC32

/-! Files that are written through a buffer, and when they are the files that are written without
one. The operations of the file system never fail. -/

namespace RepRapFirmware.Storage.WriteBuffering

open CRC32 Library Library.Runs

abbrev Byte := BitVec 8

inductive FileUseMode
  | free
  | readOnly
  | readWrite
  | invalidated
  deriving DecidableEq

structure FileStore where
  usageMode : FileUseMode
  openCount : ℕ
  closeRequested : Bool
  -- What is stored in the write buffer, if there is one.
  writeBuffer : Option (List Byte)
  crc : BitVec 32
  calcCrc : Bool
  file : PositionedFile Byte

/-- What a build and a board fix. -/
structure Setup where
  variant : Variant
  fileWriteBufLen : ℕ
  fileWriteBufLen_pos : 0 < fileWriteBufLen
  -- The address of the write buffer.
  buf : ℕ
  -- What a file gets where it grows without being written.
  medium : ℕ → Byte

variable (m : Setup)

/-- The memory with the data at an address. -/
def memoryWith (s : ℕ) (data : List Byte) : Memory := fun i => data.getD (i - s) 0

def updateCrc (s : ℕ) (data : List Byte) (fs : FileStore) : FileStore :=
  if fs.calcCrc then
    { fs with crc := update m.variant (memoryWith s data) s data.length fs.crc }
  else fs

/-- `Store`, with the number of bytes written. -/
def store (s : ℕ) (data : List Byte) (fs : FileStore) : Bool × ℕ × FileStore :=
  let fs := updateCrc m s data fs
  (true, data.length, { fs with file := fs.file.write data })

/-- The loop of `Write` through the write buffer, over the data that is left. -/
def writeLoop (rest buf : List Byte) (fs : FileStore) : Bool × FileStore :=
  let stored := rest.take (m.fileWriteBufLen - buf.length)
  if m.fileWriteBufLen ≤ (buf ++ stored).length then
    match store m m.buf (buf ++ stored) fs with
    | (false, _, fs) => (false, { fs with writeBuffer := some (buf ++ stored) })
    | (true, bytesWritten, fs) =>
      if bytesWritten ≠ (buf ++ stored).length then
        (rest = [], { fs with writeBuffer := some [] })
      else if rest.drop stored.length = [] then (true, { fs with writeBuffer := some [] })
      else writeLoop (rest.drop stored.length) [] fs
  else if rest.drop stored.length = [] then (true, { fs with writeBuffer := some (buf ++ stored) })
  else writeLoop (rest.drop stored.length) (buf ++ stored) fs
  termination_by 2 * rest.length + if m.fileWriteBufLen ≤ buf.length then 1 else 0
  decreasing_by
    · have hpos := m.fileWriteBufLen_pos
      simp only [stored, List.length_drop, List.length_take, List.length_nil, List.length_append,
        List.drop_eq_nil_iff, not_le] at *
      split <;> split <;> omega
    · simp only [stored, List.length_drop, List.length_take, List.length_append,
        List.drop_eq_nil_iff, not_le] at *
      split <;> split <;> omega

def write (s : ℕ) (data : List Byte) (fs : FileStore) : Bool × FileStore :=
  match fs.usageMode with
  | .free | .readOnly | .invalidated => (false, fs)
  | .readWrite =>
    match fs.writeBuffer with
    | none =>
      let (writeOk, totalBytesWritten, fs) := store m s data fs
      (writeOk && totalBytesWritten = data.length, fs)
    | some buf => writeLoop m data buf fs

def flush (fs : FileStore) : Bool × FileStore :=
  match fs.usageMode with
  | .free | .invalidated => (false, fs)
  | .readOnly => (true, fs)
  | .readWrite =>
    match fs.writeBuffer with
    | none | some [] => (true, fs)
    | some (b :: bs) =>
      match store m m.buf (b :: bs) fs with
      | (false, _, fs) => (false, fs)
      | (true, bytesWritten, fs) =>
        (bytesWritten = (b :: bs).length, { fs with writeBuffer := some [] })

def seek (pos : ℕ) (fs : FileStore) : Bool × FileStore :=
  match fs.usageMode with
  | .free | .invalidated => (false, fs)
  | .readOnly => (true, { fs with file := fs.file.seek m.medium (min pos fs.file.size) })
  | .readWrite => (true, { fs with file := fs.file.seek m.medium pos })

def position (fs : FileStore) : ℕ :=
  if fs.usageMode = .readOnly ∨ fs.usageMode = .readWrite then fs.file.position % 2 ^ 32 else 0

def length (fs : FileStore) : ℕ :=
  match fs.usageMode with
  | .free | .invalidated => 0
  | .readOnly => fs.file.size % 2 ^ 32
  | .readWrite =>
    match fs.writeBuffer with
    | none => fs.file.size % 2 ^ 32
    | some buf => (fs.file.size + buf.length) % 2 ^ 32

def truncate (fs : FileStore) : Bool × FileStore :=
  match fs.usageMode with
  | .free | .readOnly | .invalidated => (false, fs)
  | .readWrite =>
    match flush m fs with
    | (false, fs) => (false, fs)
    | (true, fs) => (true, { fs with file := fs.file.truncate })

/-- The data that was read, or `none` for -1. -/
def read (nBytes : ℕ) (fs : FileStore) : Option (List Byte) × FileStore :=
  match fs.usageMode with
  | .free | .invalidated => (none, fs)
  | .readOnly | .readWrite =>
    (some (fs.file.read nBytes).1, { fs with file := (fs.file.read nBytes).2 })

def forceClose (fs : FileStore) : Bool × FileStore :=
  let (ok, fs) := if fs.usageMode = .readWrite then flush m fs else (true, fs)
  (ok, { fs with writeBuffer := none, usageMode := .free, closeRequested := false, openCount := 0 })

def close (inInterrupt : Bool) (fs : FileStore) : Bool × FileStore :=
  match fs.usageMode with
  | .free => (false, fs)
  | .readOnly | .readWrite =>
    if 1 < fs.openCount then (true, { fs with openCount := fs.openCount - 1 })
    else if inInterrupt then (true, { fs with closeRequested := true })
    else forceClose m fs
  | .invalidated =>
    if 1 < fs.openCount then (true, { fs with openCount := fs.openCount - 1 })
    else (true, { fs with writeBuffer := none, usageMode := .free })

/-! ### Sequences of calls -/

inductive Call
  | write (s : ℕ) (data : List Byte)
  | seek (pos : ℕ)
  | position
  | length
  | read (nBytes : ℕ)
  | truncate
  | flush
  | close (inInterrupt : Bool)

inductive Answer
  | ok (done : Bool)
  | number (n : ℕ)
  | bytes (found : Option (List Byte))
  deriving DecidableEq

def Call.exec (call : Call) (fs : FileStore) : Answer × FileStore :=
  match call with
  | write s data => (.ok (WriteBuffering.write m s data fs).1, (WriteBuffering.write m s data fs).2)
  | seek pos => (.ok (WriteBuffering.seek m pos fs).1, (WriteBuffering.seek m pos fs).2)
  | position => (.number (WriteBuffering.position fs), fs)
  | length => (.number (WriteBuffering.length fs), fs)
  | read nBytes => (.bytes (WriteBuffering.read nBytes fs).1, (WriteBuffering.read nBytes fs).2)
  | truncate => (.ok (WriteBuffering.truncate m fs).1, (WriteBuffering.truncate m fs).2)
  | flush => (.ok (WriteBuffering.flush m fs).1, (WriteBuffering.flush m fs).2)
  | close inInterrupt =>
    (.ok (WriteBuffering.close m inInterrupt fs).1, (WriteBuffering.close m inInterrupt fs).2)

def step (fs : FileStore) (call : Call) : FileStore := (call.exec m fs).2

def answers (fs : FileStore) (calls : List Call) : List Answer :=
  collect (step m) (fun fs call => [(call.exec m fs).1]) fs calls

/-- The file after the calls, closed if it was still open. -/
def closed (fs : FileStore) (calls : List Call) : FileStore :=
    (forceClose m (run (step m) fs calls)).2

/-- A file that was opened for writing. -/
def opened (writeBuffer : Option (List Byte)) (openCount : ℕ) (crc : BitVec 32) (calcCrc : Bool)
    (file : PositionedFile Byte) : FileStore where
  usageMode := .readWrite
  openCount := openCount
  closeRequested := false
  writeBuffer := writeBuffer
  crc := crc
  calcCrc := calcCrc
  file := file

/-- The calls return the same with a write buffer and without one, and leave the same file and the
same CRC. -/
def Transparent (openCount : ℕ) (crc : BitVec 32) (calcCrc : Bool) (file : PositionedFile Byte)
    (calls : List Call) : Prop :=
  let buffered := opened (some []) openCount crc calcCrc file
  let plain := opened none openCount crc calcCrc file
  answers m buffered calls = answers m plain calls ∧
    (closed m buffered calls).file.items = (closed m plain calls).file.items ∧
    (closed m buffered calls).crc = (closed m plain calls).crc

def FileStore.pending (fs : FileStore) : List Byte := fs.writeBuffer.getD []

/-- The call does not depend on bytes that are still in the buffer. -/
def Harmless (fs : FileStore) : Call → Prop
  | .seek _ | .position => fs.pending = []
  | .read nBytes => fs.pending = [] ∨ nBytes = 0 ∨ fs.file.position = fs.file.size
  | .length => fs.pending = [] ∨ fs.file.position = fs.file.size
  | _ => True

instance (fs : FileStore) : ∀ call, Decidable (Harmless fs call)
  | .seek _ | .position => inferInstanceAs (Decidable (fs.pending = []))
  | .read nBytes =>
    inferInstanceAs (Decidable (fs.pending = [] ∨ nBytes = 0 ∨ fs.file.position = fs.file.size))
  | .length => inferInstanceAs (Decidable (fs.pending = [] ∨ fs.file.position = fs.file.size))
  | .write _ _ | .truncate | .flush | .close _ => isTrue trivial

variable {m : Setup} {fs : FileStore}

/-! ### One store -/

/-- The file and the CRC after some bytes have been stored. -/
def FileStore.wrote (data : List Byte) (fs : FileStore) : FileStore :=
  { fs with
    crc := if fs.calcCrc then bitwise fs.crc data else fs.crc
    file := fs.file.write data }

lemma FileStore.wrote_wrote (data data' : List Byte) (fs : FileStore) :
    (fs.wrote data).wrote data' = fs.wrote (data ++ data') := by
  rw [wrote, wrote, wrote, PositionedFile.write_write]
  by_cases hcrc : fs.calcCrc = true
  · simp only [hcrc, if_true, bitwise_append]
  · simp only [hcrc, if_false, Bool.false_eq_true]

@[simp]
lemma FileStore.wrote_nil (fs : FileStore) : fs.wrote [] = fs := by
  have hcrc : (if fs.calcCrc then bitwise fs.crc [] else fs.crc) = fs.crc := by
    split
    · rfl
    · rfl
  rw [wrote, hcrc, PositionedFile.write_nil]

lemma bytesAt_memoryWith (s : ℕ) (data : List Byte) :
    bytesAt (memoryWith s data) s data.length = data := by
  apply List.ext_getElem
  · rw [bytesAt, List.length_map, List.length_range]
  · intro i hi hi'
    simp [bytesAt, memoryWith, hi']

lemma store_eq (m : Setup) (s : ℕ) (data : List Byte) (fs : FileStore) :
    store m s data fs = (true, data.length, fs.wrote data) := by
  rw [store, updateCrc, FileStore.wrote]
  by_cases hcrc : fs.calcCrc = true
  · simp only [hcrc, if_true, update_eq, bytesAt_memoryWith]
  · simp only [hcrc, if_false, Bool.false_eq_true]

/-! ### The loop -/

def FileStore.keeping (pending : List Byte) (fs : FileStore) : FileStore :=
  { fs with writeBuffer := some pending }

lemma take_append_drop_length (n : ℕ) (rest : List Byte) :
    rest.take n ++ rest.drop (rest.take n).length = rest := by
  rw [List.length_take]
  rcases Nat.le_total n rest.length with h | h
  · rw [min_eq_left h, List.take_append_drop]
  · rw [min_eq_right h, List.take_of_length_le h, List.drop_length, List.append_nil]

/-- The loop stores the first bytes, and keeps the others. -/
lemma writeLoop_spec (m : Setup) (rest buf : List Byte) (fs : FileStore)
    (hbuf : buf.length < m.fileWriteBufLen) :
    ∃ written pending, written ++ pending = buf ++ rest ∧ pending.length < m.fileWriteBufLen ∧
      writeLoop m rest buf fs = (true, (fs.wrote written).keeping pending) := by
  induction rest, buf, fs using writeLoop.induct (m := m) with
  | case1 rest buf fs stored hfull n after hstore =>
    rw [store_eq] at hstore
    exact nomatch hstore
  | case2 rest buf fs stored hfull n after hstore hshort =>
    rw [store_eq] at hstore
    cases hstore
    exact absurd rfl hshort
  | case3 rest buf fs stored hfull n after hstore hall hdone =>
    have hsplit := take_append_drop_length (m.fileWriteBufLen - buf.length) rest
    rw [show rest.drop (rest.take (m.fileWriteBufLen - buf.length)).length = [] from hdone,
      List.append_nil] at hsplit
    refine ⟨buf ++ rest, [], List.append_nil _, m.fileWriteBufLen_pos, ?_⟩
    rw [writeLoop, if_pos hfull, store_eq]
    dsimp only
    rw [if_neg fun h => h rfl, if_pos hdone, hsplit]
    rfl
  | case4 rest buf fs stored hfull n after hstore hall hmore ih =>
    have hsplit := take_append_drop_length (m.fileWriteBufLen - buf.length) rest
    obtain ⟨written, pending, happend, hroom, hloop⟩ := ih m.fileWriteBufLen_pos
    rw [store_eq] at hstore
    obtain ⟨-, -, rfl⟩ := hstore
    refine ⟨buf ++ stored ++ written, pending, ?_, hroom, ?_⟩
    · rw [List.append_assoc, happend, List.nil_append, List.append_assoc, hsplit]
    · rw [writeLoop, if_pos hfull, store_eq]
      dsimp only
      rw [if_neg fun h => h rfl, if_neg hmore]
      rw [FileStore.wrote_wrote] at hloop
      exact hloop
  | case5 rest buf fs stored hfull hdone =>
    have hsplit := take_append_drop_length (m.fileWriteBufLen - buf.length) rest
    rw [show rest.drop (rest.take (m.fileWriteBufLen - buf.length)).length = [] from hdone,
      List.append_nil] at hsplit
    have hroom := not_le.mp hfull
    refine ⟨[], buf ++ stored, ?_, hroom, ?_⟩
    · exact congrArg (buf ++ ·) hsplit
    · rw [writeLoop, if_neg hfull, if_pos hdone, FileStore.wrote_nil]
      rfl
  | case6 rest buf fs stored hfull hmore ih =>
    have hsplit := take_append_drop_length (m.fileWriteBufLen - buf.length) rest
    obtain ⟨written, pending, happend, hroom, hloop⟩ := ih (not_le.mp hfull)
    refine ⟨written, pending, ?_, hroom, ?_⟩
    · rw [happend, List.append_assoc, hsplit]
    · rw [writeLoop, if_neg hfull, if_neg hmore]
      exact hloop

/-! ### One call -/

/-- The file with the bytes of the buffer written, and no buffer. -/
def FileStore.unbuffered (fs : FileStore) : FileStore :=
  { fs.wrote fs.pending with writeBuffer := none }

/-- There is room in the buffer, and what it holds will be written. -/
structure Orderly (m : Setup) (fs : FileStore) : Prop where
  room : fs.pending.length < m.fileWriteBufLen
  written : fs.usageMode = .readWrite ∨ fs.pending = []

lemma unbuffered_keeping (written pending : List Byte) (fs : FileStore) :
    ((fs.wrote written).keeping pending).unbuffered =
      { fs.wrote (written ++ pending) with writeBuffer := none } := by
  rw [← FileStore.wrote_wrote]
  rfl

lemma unbuffered_of_empty (h : fs.pending = []) : fs.unbuffered = { fs with writeBuffer := none } :=
    by
  rw [FileStore.unbuffered, h, FileStore.wrote_nil]

/-- The same call to a file with a buffer and to the file without it. -/
structure Matches {α : Type} (m : Setup) (call : FileStore → α × FileStore) (fs : FileStore) :
    Prop where
  answer : (call fs.unbuffered).1 = (call fs).1
  next : (call fs.unbuffered).2 = (call fs).2.unbuffered
  orderly : Orderly m (call fs).2

/-- A file that is not open for writing is the same without its empty buffer. -/
lemma matches_of_empty {α : Type} {call : FileStore → α × FileStore} (hempty : fs.pending = [])
    (hanswer : (call { fs with writeBuffer := none }).1 = (call fs).1)
    (hnext : (call { fs with writeBuffer := none }).2 = { (call fs).2 with writeBuffer := none })
    (hpending : (call fs).2.pending = []) : Matches m call fs := by
  rw [← unbuffered_of_empty hempty] at hanswer hnext
  refine ⟨hanswer, ?_, ?_, Or.inr hpending⟩
  · rw [hnext, unbuffered_of_empty hpending]
  · rw [hpending]
    exact m.fileWriteBufLen_pos

lemma write_matches (m : Setup) (s : ℕ) (data : List Byte) (h : Orderly m fs)
    (hmode : fs.usageMode = .readWrite) : Matches m (write m s data) fs := by
  have hplain : write m s data fs.unbuffered = (true, fs.unbuffered.wrote data) := by
    rw [write, show fs.unbuffered.usageMode = .readWrite from hmode]
    dsimp only
    rw [show fs.unbuffered.writeBuffer = none from rfl]
    dsimp only
    rw [store_eq, decide_eq_true rfl]
    rfl
  have hnext : (write m s data fs).1 = true ∧
      (write m s data fs).2.unbuffered = fs.unbuffered.wrote data ∧
      (write m s data fs).2.pending.length < m.fileWriteBufLen ∧
      (write m s data fs).2.usageMode = .readWrite := by
    rw [write, hmode]
    dsimp only
    cases hbuffer : fs.writeBuffer with
    | none =>
      have hpending : fs.pending = [] := by rw [FileStore.pending, hbuffer, Option.getD_none]
      have hempty : (fs.wrote data).pending = [] := hpending
      dsimp only
      rw [store_eq, decide_eq_true rfl]
      refine ⟨rfl, ?_, ?_, hmode⟩
      · rw [unbuffered_of_empty hempty, unbuffered_of_empty hpending]
        rfl
      · rw [hempty]
        exact m.fileWriteBufLen_pos
    | some buf =>
      have hpending : fs.pending = buf := by rw [FileStore.pending, hbuffer, Option.getD_some]
      obtain ⟨written, pending, happend, hroom, hloop⟩ :=
        writeLoop_spec m data buf fs (hpending ▸ h.room)
      dsimp only
      rw [hloop]
      refine ⟨rfl, ?_, hroom, hmode⟩
      rw [unbuffered_keeping, happend, ← FileStore.wrote_wrote, FileStore.unbuffered, hpending]
      rfl
  obtain ⟨hanswer, hunbuffered, hroom, hmode'⟩ := hnext
  refine ⟨?_, ?_, hroom, Or.inl hmode'⟩
  · rw [hplain, hanswer]
  · rw [hplain, hunbuffered]

/-- After a flush the buffer is empty. -/
lemma flush_eq (m : Setup) (hmode : fs.usageMode = .readWrite) :
    ∃ fs', flush m fs = (true, fs') ∧ fs'.pending = [] ∧ fs'.unbuffered = fs.unbuffered ∧
      fs'.usageMode = .readWrite := by
  rw [flush, hmode]
  dsimp only
  cases hbuffer : fs.writeBuffer with
  | none => exact ⟨fs, rfl, by rw [FileStore.pending, hbuffer, Option.getD_none], rfl, hmode⟩
  | some buf =>
    cases buf with
    | nil => exact ⟨fs, rfl, by rw [FileStore.pending, hbuffer, Option.getD_some], rfl, hmode⟩
    | cons b bs =>
      have hpending : fs.pending = b :: bs := by rw [FileStore.pending, hbuffer, Option.getD_some]
      dsimp only
      rw [store_eq]
      refine ⟨(fs.wrote (b :: bs)).keeping [], Prod.ext (decide_eq_true rfl) rfl, rfl, ?_, hmode⟩
      rw [unbuffered_keeping, List.append_nil, FileStore.unbuffered, hpending]

lemma flush_unbuffered (m : Setup) (hmode : fs.usageMode = .readWrite) :
    flush m fs.unbuffered = (true, fs.unbuffered) := by
  rw [flush, show fs.unbuffered.usageMode = .readWrite from hmode]
  rfl

lemma flush_matches (m : Setup) (hmode : fs.usageMode = .readWrite) : Matches m (flush m) fs := by
  obtain ⟨fs', hflush, hempty, hunbuffered, -⟩ := flush_eq m hmode
  refine ⟨?_, ?_, ?_, ?_⟩
  · rw [flush_unbuffered m hmode, hflush]
  · rw [flush_unbuffered m hmode, hflush, hunbuffered]
  · rw [hflush, hempty]
    exact m.fileWriteBufLen_pos
  · rw [hflush]
    exact Or.inr hempty

lemma truncate_matches (m : Setup) (hmode : fs.usageMode = .readWrite) :
    Matches m (truncate m) fs := by
  obtain ⟨fs', hflush, hempty, hunbuffered, -⟩ := flush_eq m hmode
  have htruncate : truncate m fs = (true, { fs' with file := fs'.file.truncate }) := by
    rw [truncate, hmode]
    dsimp only
    rw [hflush]
  have hplain : truncate m fs.unbuffered =
      (true, { fs.unbuffered with file := fs.unbuffered.file.truncate }) := by
    rw [truncate, show fs.unbuffered.usageMode = .readWrite from hmode]
    dsimp only
    rw [flush_unbuffered m hmode]
  have hempty' : FileStore.pending { fs' with file := fs'.file.truncate } = [] := hempty
  refine ⟨?_, ?_, ?_, ?_⟩
  · rw [hplain, htruncate]
  · rw [hplain, htruncate, unbuffered_of_empty hempty', ← hunbuffered, unbuffered_of_empty hempty]
  · rw [htruncate, hempty']
    exact m.fileWriteBufLen_pos
  · rw [htruncate]
    exact Or.inr hempty'

lemma forceClose_matches (m : Setup) (hmode : fs.usageMode = .readWrite) :
    Matches m (forceClose m) fs := by
  obtain ⟨fs', hflush, hempty, hunbuffered, -⟩ := flush_eq m hmode
  have hempty' : (forceClose m fs).2.pending = [] := rfl
  have hplain : forceClose m fs.unbuffered = (true, { fs.unbuffered with
      writeBuffer := none, usageMode := .free, closeRequested := false, openCount := 0 }) := by
    rw [forceClose, if_pos (show fs.unbuffered.usageMode = .readWrite from hmode),
      flush_unbuffered m hmode]
  have hclose : forceClose m fs = (true, { fs' with
      writeBuffer := none, usageMode := .free, closeRequested := false, openCount := 0 }) := by
    rw [forceClose, if_pos hmode, hflush]
  refine ⟨?_, ?_, ?_, Or.inr hempty'⟩
  · rw [hplain, hclose]
  · rw [unbuffered_of_empty hempty', hplain, hclose, ← hunbuffered, unbuffered_of_empty hempty]
  · rw [hempty']
    exact m.fileWriteBufLen_pos

/-- A call that changes no more than the file, while nothing is pending. -/
lemma matches_of_open {α : Type} {call : FileStore → α × FileStore} (h : Orderly m fs)
    (hanswer : (call fs.unbuffered).1 = (call fs).1)
    (hnext : (call fs.unbuffered).2 = fs.unbuffered) (hsame : (call fs).2 = fs) :
    Matches m call fs :=
  ⟨hanswer, by rw [hnext, hsame], by rwa [hsame]⟩

lemma length_matches (hmode : fs.usageMode = .readWrite)
    (h : fs.pending = [] ∨ fs.file.position = fs.file.size) :
    length fs.unbuffered = length fs := by
  have hbuffered : length fs = (fs.file.size + fs.pending.length) % 2 ^ 32 := by
    rw [length, hmode, FileStore.pending]
    cases fs.writeBuffer with
    | none => rfl
    | some buf => rfl
  have hplain : length fs.unbuffered = (fs.file.write fs.pending).size % 2 ^ 32 := by
    rw [length, show fs.unbuffered.usageMode = .readWrite from hmode]
    rfl
  have hle : fs.file.position ≤ fs.file.size := fs.file.position_le
  rw [hplain, hbuffered, PositionedFile.size_write]
  obtain hempty | hend := h
  · rw [hempty, List.length_nil, Nat.add_zero, Nat.add_zero, max_eq_left hle]
  · rw [hend, max_eq_right (Nat.le_add_right _ _)]

lemma Matches.ok {call : FileStore → Bool × FileStore} (h : Matches m call fs) :
    Matches m (fun fs => (Answer.ok (call fs).1, (call fs).2)) fs :=
  ⟨congrArg Answer.ok h.answer, h.next, h.orderly⟩

lemma read_matches (nBytes : ℕ) (h : Orderly m fs) (hmode : fs.usageMode = .readWrite)
    (hharmless : Harmless fs (.read nBytes)) : Matches m (Call.exec m (.read nBytes)) fs := by
  have hread (fs : FileStore) (hmode : fs.usageMode = .readWrite)
      (hnone : fs.file.read nBytes = ([], fs.file)) :
      Call.exec m (.read nBytes) fs = (.bytes (some []), fs) := by
    obtain ⟨mode, openCount, closeRequested, writeBuffer, crc, calcCrc, file⟩ := fs
    cases hmode
    change file.read nBytes = ([], file) at hnone
    rw [Call.exec, read]
    dsimp only
    rw [hnone]
  have hboth (hnone : fs.file.read nBytes = ([], fs.file))
      (hplain : (fs.file.write fs.pending).read nBytes = ([], fs.file.write fs.pending)) :
      Matches m (Call.exec m (.read nBytes)) fs := by
    apply matches_of_open h
    · rw [hread fs hmode hnone, hread fs.unbuffered hmode hplain]
    · rw [hread fs.unbuffered hmode hplain]
    · rw [hread fs hmode hnone]
  obtain hempty | rfl | hend := hharmless
  · obtain ⟨mode, openCount, closeRequested, writeBuffer, crc, calcCrc, file⟩ := fs
    cases hmode
    exact matches_of_empty hempty rfl rfl hempty
  · exact hboth (PositionedFile.read_zero _) (PositionedFile.read_zero _)
  · apply hboth (PositionedFile.read_end hend nBytes)
    apply PositionedFile.read_end
    rw [PositionedFile.position_write, PositionedFile.size_write, hend,
      max_eq_right (Nat.le_add_right _ _)]

lemma close_matches (inInterrupt : Bool) (h : Orderly m fs) (hmode : fs.usageMode = .readWrite) :
    Matches m (close m inInterrupt) fs := by
  have hclose (fs : FileStore) (hmode : fs.usageMode = .readWrite) : close m inInterrupt fs =
      if 1 < fs.openCount then (true, { fs with openCount := fs.openCount - 1 })
      else if inInterrupt then (true, { fs with closeRequested := true })
      else forceClose m fs := by
    rw [close, hmode]
  have hplain := hclose fs.unbuffered hmode
  by_cases hcount : 1 < fs.openCount
  · rw [if_pos (show 1 < fs.unbuffered.openCount from hcount)] at hplain
    refine ⟨?_, ?_, ?_, ?_⟩
    · rw [hplain, hclose fs hmode, if_pos hcount]
    · rw [hplain, hclose fs hmode, if_pos hcount]
      rfl
    · rw [hclose fs hmode, if_pos hcount]
      exact h.room
    · rw [hclose fs hmode, if_pos hcount]
      exact h.written
  · rw [if_neg (show ¬ 1 < fs.unbuffered.openCount from hcount)] at hplain
    cases inInterrupt with
    | true =>
      rw [if_pos rfl] at hplain
      refine ⟨?_, ?_, ?_, ?_⟩
      · rw [hplain, hclose fs hmode, if_neg hcount, if_pos rfl]
      · rw [hplain, hclose fs hmode, if_neg hcount, if_pos rfl]
        rfl
      · rw [hclose fs hmode, if_neg hcount, if_pos rfl]
        exact h.room
      · rw [hclose fs hmode, if_neg hcount, if_pos rfl]
        exact h.written
    | false =>
      obtain ⟨hanswer, hnext, horderly⟩ := forceClose_matches m hmode
      rw [if_neg Bool.false_ne_true] at hplain
      have hbuffered := hclose fs hmode
      rw [if_neg hcount, if_neg Bool.false_ne_true] at hbuffered
      refine ⟨?_, ?_, ?_⟩
      · rw [hplain, hbuffered, hanswer]
      · rw [hplain, hbuffered, hnext]
      · rwa [hbuffered]

lemma exec_matches_open (call : Call) (h : Orderly m fs) (hmode : fs.usageMode = .readWrite)
    (hharmless : Harmless fs call) : Matches m (call.exec m) fs := by
  cases call with
  | write s data => exact (write_matches m s data h hmode).ok
  | truncate => exact (truncate_matches m hmode).ok
  | flush => exact (flush_matches m hmode).ok
  | close inInterrupt => exact (close_matches inInterrupt h hmode).ok
  | read nBytes => exact read_matches nBytes h hmode hharmless
  | length =>
    exact matches_of_open h (congrArg Answer.number (length_matches hmode hharmless)) rfl rfl
  | position =>
    exact matches_of_open h (by rw [unbuffered_of_empty hharmless]; rfl) rfl rfl
  | seek pos =>
    obtain ⟨mode, openCount, closeRequested, writeBuffer, crc, calcCrc, file⟩ := fs
    cases hmode
    exact matches_of_empty hharmless rfl rfl hharmless

lemma close_matches_shut (inInterrupt : Bool) (hmode : fs.usageMode ≠ .readWrite)
    (hempty : fs.pending = []) : Matches m (close m inInterrupt) fs := by
  obtain ⟨mode, openCount, closeRequested, writeBuffer, crc, calcCrc, file⟩ := fs
  have hbuffer : writeBuffer.getD [] = [] := hempty
  cases mode with
  | readWrite => exact absurd rfl hmode
  | free => exact matches_of_empty hempty rfl rfl hempty
  | readOnly =>
    by_cases hcount : 1 < openCount
    · apply matches_of_empty hempty <;> simp [close, hcount, FileStore.pending, hbuffer]
    · cases inInterrupt
      · apply matches_of_empty hempty <;> simp [close, hcount, forceClose, FileStore.pending]
      · apply matches_of_empty hempty <;> simp [close, hcount, FileStore.pending, hbuffer]
  | invalidated =>
    by_cases hcount : 1 < openCount
    · apply matches_of_empty hempty <;> simp [close, hcount, FileStore.pending, hbuffer]
    · apply matches_of_empty hempty <;> simp [close, hcount, FileStore.pending]

/-- A file that is not open for writing has nothing in the buffer. -/
lemma exec_matches_shut (call : Call) (hmode : fs.usageMode ≠ .readWrite)
    (hempty : fs.pending = []) : Matches m (call.exec m) fs := by
  cases call with
  | close inInterrupt => exact (close_matches_shut inInterrupt hmode hempty).ok
  | _ =>
    obtain ⟨mode, openCount, closeRequested, writeBuffer, crc, calcCrc, file⟩ := fs
    cases mode with
    | readWrite => exact absurd rfl hmode
    | free => exact matches_of_empty hempty rfl rfl hempty
    | readOnly => exact matches_of_empty hempty rfl rfl hempty
    | invalidated => exact matches_of_empty hempty rfl rfl hempty

lemma exec_matches (call : Call) (h : Orderly m fs) (hharmless : Harmless fs call) :
    Matches m (call.exec m) fs := by
  by_cases hmode : fs.usageMode = .readWrite
  · exact exec_matches_open call h hmode hharmless
  · exact exec_matches_shut call hmode (h.written.resolve_left hmode)

/-! ### All calls -/

lemma forceClose_unbuffered (h : Orderly m fs) :
    (forceClose m fs.unbuffered).2 = (forceClose m fs).2 := by
  have hnone : { (forceClose m fs).2 with writeBuffer := none } = (forceClose m fs).2 := rfl
  by_cases hmode : fs.usageMode = .readWrite
  · have hempty : (forceClose m fs).2.pending = [] := rfl
    rw [(forceClose_matches m hmode).next, unbuffered_of_empty hempty, hnone]
  · rw [unbuffered_of_empty (h.written.resolve_left hmode), forceClose, forceClose, if_neg hmode,
      if_neg hmode]

/-- The write buffer makes no difference if no call depends on bytes that are still in it. -/
theorem transparent_of_harmless (m : Setup) (openCount : ℕ) (crc : BitVec 32) (calcCrc : Bool)
    (file : PositionedFile Byte) (calls : List Call)
    (h : Along (step m) Harmless (opened (some []) openCount crc calcCrc file) calls) :
    Transparent m openCount crc calcCrc file calls := by
  have horderly : Orderly m (opened (some []) openCount crc calcCrc file) :=
    ⟨m.fileWriteBufLen_pos, Or.inl rfl⟩
  have hplain : opened none openCount crc calcCrc file =
      (opened (some []) openCount crc calcCrc file).unbuffered := by
    rw [unbuffered_of_empty rfl]
    rfl
  have hstep (fs plain : FileStore) (call : Call) (h : plain = fs.unbuffered ∧ Orderly m fs)
      (hharmless : Harmless fs call) : [(call.exec m fs).1] = [(call.exec m plain).1] ∧
        (step m plain call = (step m fs call).unbuffered ∧ Orderly m (step m fs call)) := by
    obtain ⟨rfl, horderly⟩ := h
    obtain ⟨hanswer, hnext, hnext'⟩ := exec_matches call horderly hharmless
    exact ⟨congrArg (fun answer => [answer]) hanswer.symm, hnext, hnext'⟩
  obtain ⟨hanswers, hend, hfinal⟩ := h.lockstep hstep ⟨hplain, horderly⟩
  have hclosed : closed m (opened none openCount crc calcCrc file) calls =
      closed m (opened (some []) openCount crc calcCrc file) calls := by
    rw [closed, closed, hend, forceClose_unbuffered hfinal]
  refine ⟨hanswers, ?_, ?_⟩
  · rw [hclosed]
  · rw [hclosed]

/-! ### Three bytes -/

def smallBuffer : Setup where
  variant := .bytePerStep
  fileWriteBufLen := 2
  fileWriteBufLen_pos := Nat.two_pos
  buf := 4096
  medium := fun _ => 0xFF

def emptyFile : PositionedFile Byte := ⟨[], 0, Nat.zero_le _⟩

theorem transparent_three_bytes :
    Transparent smallBuffer 1 0xFFFFFFFF true emptyFile
      [.write 100 [1, 2, 3], .length, .flush, .seek 1, .write 100 [4], .close false] :=
  transparent_of_harmless smallBuffer 1 0xFFFFFFFF true emptyFile _ (by decide +kernel)

/-- Bytes that are in the buffer at a seek are written behind it. -/
theorem not_transparent_seek :
    ¬ Transparent smallBuffer 1 0xFFFFFFFF true emptyFile
      [.write 100 [1], .seek 0, .write 100 [2], .close false] := by
  rintro ⟨-, hitems, -⟩
  exact absurd hitems (by decide +kernel)

end RepRapFirmware.Storage.WriteBuffering
