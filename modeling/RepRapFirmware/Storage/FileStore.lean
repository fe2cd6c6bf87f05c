import Mathlib.Data.List.Basic
import Mathlib.Tactic

/-! A file that is being written, with its write buffer. Every call of the file system may fail, or
may store less than it was given. -/

namespace RepRapFirmware.Storage.FileStore

def fileWriteBufLen : ℕ := 8192

/-- The longest file of the file system. -/
def maxFileSize : ℕ := 2 ^ 32 - 1

inductive WriteAnswer
  | done
  | short (n : ℕ)
  | failed (n : ℕ)
  deriving DecidableEq

/-- What the file system answers while a file is being written, call by call. A file that could not
be
closed holds whatever `close` says. -/
structure Faults where
  write : ℕ → WriteAnswer
  sync : ℕ → Bool
  close : Option (List UInt8)

/-- An open file: what was written to it, the space that was allocated, the contents of the write
buffer, and the data that the CRC was calculated of. -/
structure File where
  contents : List UInt8
  allocated : ℕ
  writeBuffer : Option (List UInt8)
  calcCrc : Bool
  crcData : List UInt8
  writes : ℕ
  syncs : ℕ

variable (f : Faults)

/-- `f_write`, with the number of bytes written. -/
def fWrite (data : List UInt8) (fs : File) : Bool × ℕ × File :=
  let room := data.take (maxFileSize - fs.contents.length)
  let stored :=
    match f.write fs.writes with
    | .done => room
    | .short n => room.take n
    | .failed n => room.take n
  let ok :=
    match f.write fs.writes with
    | .failed _ => false
    | _ => true
  (ok, stored.length, { fs with contents := fs.contents ++ stored, writes := fs.writes + 1 })

def store (data : List UInt8) (fs : File) : Bool × ℕ × File :=
  fWrite f data (if fs.calcCrc then { fs with crcData := fs.crcData ++ data } else fs)

/-- The loop of `Write` through the write buffer, over the data that is left. -/
def writeLoop (rest buf : List UInt8) (fs : File) : Bool × File :=
  let stored := rest.take (fileWriteBufLen - buf.length)
  if fileWriteBufLen ≤ (buf ++ stored).length then
    match store f (buf ++ stored) fs with
    | (false, _, fs) => (false, { fs with writeBuffer := some (buf ++ stored) })
    | (true, bytesWritten, fs) =>
      if bytesWritten ≠ (buf ++ stored).length then
        (rest = [], { fs with writeBuffer := some [] })
      else if rest.drop stored.length = [] then (true, { fs with writeBuffer := some [] })
      else writeLoop (rest.drop stored.length) [] fs
  else if rest.drop stored.length = [] then (true, { fs with writeBuffer := some (buf ++ stored) })
  else writeLoop (rest.drop stored.length) (buf ++ stored) fs
  termination_by 2 * rest.length + if fileWriteBufLen ≤ buf.length then 1 else 0
  decreasing_by
    · have hpos : 0 < fileWriteBufLen := by decide
      simp only [stored, List.length_drop, List.length_take, List.length_nil, List.length_append,
        List.drop_eq_nil_iff, not_le] at *
      split <;> split <;> omega
    · simp only [stored, List.length_drop, List.length_take, List.length_append,
        List.drop_eq_nil_iff, not_le] at *
      split <;> split <;> omega

def write (data : List UInt8) (fs : File) : Bool × File :=
  match fs.writeBuffer with
  | none =>
    let (ok, bytesWritten, fs) := store f data fs
    (ok && bytesWritten = data.length, fs)
  | some buf => writeLoop f data buf fs

/-- `f_sync` -/
def sync (fs : File) : Bool × File := (!f.sync fs.syncs, { fs with syncs := fs.syncs + 1 })

def flush (fs : File) : Bool × File :=
  match fs.writeBuffer with
  | none | some [] => sync f fs
  | some (b :: bs) =>
    match store f (b :: bs) fs with
    | (false, _, fs) => (false, fs)
    | (true, bytesWritten, fs) =>
      (bytesWritten = (b :: bs).length, { fs with writeBuffer := some [] })

def size (fs : File) : ℕ := max fs.allocated fs.contents.length

def length (fs : File) : ℕ := size fs + (fs.writeBuffer.getD []).length

/-- `Close`, with what the file holds then. Space that was allocated but not written reads as
zeros. -/
def close (fs : File) : Bool × List UInt8 :=
  let (ok, fs) := flush f fs
  match f.close with
  | none => (ok, fs.contents ++ List.replicate (fs.allocated - fs.contents.length) 0)
  | some torn => (false, torn)

/-! ### Writes that report success lose nothing -/

/-- The file and its write buffer hold exactly the data given to them. -/
structure Holds (fs : File) (data : List UInt8) : Prop where
  bytes : fs.contents ++ fs.writeBuffer.getD [] = data
  crc : fs.calcCrc = true → fs.crcData = fs.contents
  notFull : ∀ buf, fs.writeBuffer = some buf → buf.length < fileWriteBufLen

/-- What writing does not change. -/
structure Same (fs fs' : File) : Prop where
  allocated : fs'.allocated = fs.allocated
  calcCrc : fs'.calcCrc = fs.calcCrc

lemma Same.trans {fs fs' fs'' : File} (h : Same fs fs') (h' : Same fs' fs'') : Same fs fs'' :=
  ⟨h'.allocated.trans h.allocated, h'.calcCrc.trans h.calcCrc⟩

variable {f : Faults} {fs fs' : File} {data buf rest : List UInt8} {ok : Bool} {n : ℕ}

lemma fWrite_eq (h : fWrite f data fs = (ok, n, fs')) :
    fs' = { fs with contents := fs'.contents, writes := fs'.writes } ∧
      (n = data.length → fs'.contents = fs.contents ++ data) := by
  rw [fWrite] at h
  cases h
  refine ⟨rfl, fun hn => congrArg (fs.contents ++ ·) ?_⟩
  split at hn
  · exact (List.take_sublist _ _).eq_of_length hn
  · exact ((List.take_sublist _ _).trans (List.take_sublist _ _)).eq_of_length hn
  · exact ((List.take_sublist _ _).trans (List.take_sublist _ _)).eq_of_length hn

lemma store_spec (hcrc : fs.calcCrc = true → fs.crcData = fs.contents)
    (h : store f data fs = (ok, n, fs')) :
    Same fs fs' ∧ fs'.writeBuffer = fs.writeBuffer ∧ (n = data.length →
      fs'.contents = fs.contents ++ data ∧ (fs'.calcCrc = true → fs'.crcData = fs'.contents)) := by
  rw [store] at h
  obtain ⟨heq, hfull⟩ := fWrite_eq h
  split at heq
  · next hcalc =>
    rw [if_pos hcalc] at hfull
    refine ⟨⟨?_, ?_⟩, ?_, fun hn => ⟨hfull hn, fun _ => ?_⟩⟩
    · rw [heq]
    · rw [heq]
    · rw [heq]
    · have hdata : fs'.crcData = fs.crcData ++ data := by rw [heq]
      rw [hdata, hcrc hcalc, hfull hn]
  · next hcalc =>
    rw [if_neg hcalc] at hfull
    refine ⟨⟨?_, ?_⟩, ?_, fun hn => ⟨hfull hn, fun hc => ?_⟩⟩
    · rw [heq]
    · rw [heq]
    · rw [heq]
    · rw [heq] at hc
      exact absurd hc hcalc

lemma writeLoop_spec (f : Faults) (rest buf : List UInt8) (fs : File)
    (hbytes : fs.contents ++ buf = data) (hcrc : fs.calcCrc = true → fs.crcData = fs.contents)
    (hbuf : buf.length < fileWriteBufLen) (h : writeLoop f rest buf fs = (true, fs')) :
    Holds fs' (data ++ rest) ∧ Same fs fs' := by
  induction rest, buf, fs using writeLoop.induct (f := f) generalizing data with
  | case1 rest buf fs stored hfull n after =>
    rename_i hstore
    rw [writeLoop] at h
    simp only [stored] at hfull hstore
    rw [if_pos hfull, hstore] at h
    cases h
  | case2 rest buf fs stored hfull n after hstore =>
    rename_i hshort
    simp only [stored] at hfull hstore hshort
    rw [writeLoop, if_pos hfull, hstore] at h
    dsimp only at h
    rw [if_pos hshort] at h
    -- the buffer was not full, so that it could only be filled by what is left to write
    have hempty : rest = [] := of_decide_eq_true (Prod.mk.inj h).1
    subst hempty
    simp only [List.take_nil, List.append_nil] at hfull
    omega
  | case3 rest buf fs stored hfull n after hstore hlong =>
    rename_i hlast
    simp only [stored] at hfull hstore hlong hlast
    have hrest := List.prefix_iff_eq_append.mp (List.take_prefix (fileWriteBufLen - buf.length)
      rest)
    obtain ⟨hsame, -, hdone⟩ := store_spec hcrc hstore
    obtain ⟨hcontents, hcrc'⟩ := hdone (not_not.mp hlong)
    rw [writeLoop, if_pos hfull, hstore] at h
    dsimp only at h
    rw [if_neg hlong, if_pos hlast] at h
    rw [hlast, List.append_nil] at hrest
    cases h
    refine ⟨⟨?_, hcrc', ?_⟩, ⟨hsame.allocated, hsame.calcCrc⟩⟩
    · rw [Option.getD_some, List.append_nil, hcontents, hrest, ← hbytes, List.append_assoc]
    · rintro buf' ⟨⟩
      decide
  | case4 rest buf fs stored hfull n after hstore hlong hmore =>
    rename_i ih
    simp only [stored] at hfull hstore hlong hmore ih
    have hrest := List.prefix_iff_eq_append.mp (List.take_prefix (fileWriteBufLen - buf.length)
      rest)
    obtain ⟨hsame, -, hdone⟩ := store_spec hcrc hstore
    obtain ⟨hcontents, hcrc'⟩ := hdone (not_not.mp hlong)
    rw [writeLoop, if_pos hfull, hstore] at h
    dsimp only at h
    rw [if_neg hlong, if_neg hmore] at h
    obtain ⟨hholds, hsame'⟩ := ih rfl hcrc' (by decide) h
    refine ⟨?_, hsame.trans hsame'⟩
    rw [hcontents, List.append_nil, List.append_assoc, List.append_assoc, hrest,
      ← List.append_assoc,
      hbytes] at hholds
    exact hholds
  | case5 rest buf fs stored hroom =>
    rename_i hlast
    simp only [stored] at hroom hlast
    have hrest := List.prefix_iff_eq_append.mp (List.take_prefix (fileWriteBufLen - buf.length)
      rest)
    rw [writeLoop, if_neg hroom, if_pos hlast] at h
    rw [hlast, List.append_nil] at hrest
    cases h
    refine ⟨⟨?_, hcrc, ?_⟩, ⟨rfl, rfl⟩⟩
    · rw [Option.getD_some, hrest, ← hbytes, List.append_assoc]
    · rintro buf' ⟨⟩
      omega
  | case6 rest buf fs stored hroom hmore =>
    rename_i ih
    simp only [stored] at hroom hmore ih
    have hrest := List.prefix_iff_eq_append.mp (List.take_prefix (fileWriteBufLen - buf.length)
      rest)
    rw [writeLoop, if_neg hroom, if_neg hmore] at h
    obtain ⟨hholds, hsame⟩ := ih rfl hcrc (by omega) h
    refine ⟨?_, hsame⟩
    rw [List.append_assoc, List.append_assoc, hrest, ← List.append_assoc, hbytes] at hholds
    exact hholds

lemma write_spec (hfs : Holds fs rest) (h : write f data fs = (true, fs')) :
    Holds fs' (rest ++ data) ∧ Same fs fs' := by
  rw [write] at h
  split at h
  · next hbuf =>
    cases hstore : store f data fs with
    | mk ok r =>
      obtain ⟨hsame, hbuffer, hdone⟩ := store_spec hfs.crc hstore
      rw [hstore] at h
      obtain ⟨hok, rfl⟩ := Prod.mk.inj h
      simp only [Bool.and_eq_true, decide_eq_true_eq] at hok
      obtain ⟨hcontents, hcrc⟩ := hdone hok.2
      refine ⟨⟨?_, hcrc, fun buf hb => ?_⟩, hsame⟩
      · rw [hcontents, hbuffer, hbuf, ← hfs.bytes, hbuf]
        simp
      · rw [hbuffer, hbuf] at hb
        cases hb
  · next buf hbuf =>
    apply writeLoop_spec f data buf fs _ hfs.crc (hfs.notFull buf hbuf) h
    have := hfs.bytes
    rwa [hbuf] at this

/-- After a flush that reports success the file holds all the data, and the write buffer nothing. -/
lemma flush_spec (hfs : Holds fs data) (h : flush f fs = (true, fs')) :
    Holds fs' data ∧ Same fs fs' ∧ fs'.contents = data := by
  have hsync : fs.writeBuffer.getD [] = [] → sync f fs = (true, fs') →
      Holds fs' data ∧ Same fs fs' ∧ fs'.contents = data := by
    intro hnone hs
    have hbytes := hfs.bytes
    rw [hnone, List.append_nil] at hbytes
    rw [sync] at hs
    obtain ⟨-, rfl⟩ := Prod.mk.inj hs
    exact ⟨⟨hfs.bytes, hfs.crc, hfs.notFull⟩, ⟨rfl, rfl⟩, hbytes⟩
  rw [flush] at h
  split at h
  · next hbuf => exact hsync (by rw [hbuf]; rfl) h
  · next hbuf => exact hsync (by rw [hbuf]; rfl) h
  · next b bs hbuf =>
    have hbytes := hfs.bytes
    rw [hbuf, Option.getD_some] at hbytes
    split at h
    · cases h
    · next n after hstore =>
      obtain ⟨hsame, -, hdone⟩ := store_spec hfs.crc hstore
      obtain ⟨hn, rfl⟩ := Prod.mk.inj h
      obtain ⟨hcontents, hcrc⟩ := hdone (of_decide_eq_true hn)
      refine ⟨⟨?_, hcrc, ?_⟩, ⟨hsame.allocated, hsame.calcCrc⟩, hcontents.trans hbytes⟩
      · rw [Option.getD_some, List.append_nil]
        exact hcontents.trans hbytes
      · rintro buf ⟨⟩
        decide

lemma close_spec (hfs : Holds fs data) (hflushed : fs.contents = data) :
    (close f fs).2 = f.close.getD (data ++ List.replicate (fs.allocated - data.length) 0) := by
  have hbytes := hfs.bytes
  rw [hflushed, List.append_right_eq_self] at hbytes
  have hflush : (flush f fs).2.contents = data ∧ (flush f fs).2.allocated = fs.allocated := by
    rw [flush]
    split
    · exact ⟨hflushed, rfl⟩
    · exact ⟨hflushed, rfl⟩
    · next hbuf =>
      rw [hbuf] at hbytes
      cases hbytes
  rw [close]
  cases hclose : f.close with
  | none => rw [Option.getD_none, ← hflush.1, ← hflush.2]
  | some torn => rw [Option.getD_some]

end RepRapFirmware.Storage.FileStore
