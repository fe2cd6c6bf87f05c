import RepRapFirmware.Library.Terminators

/-! A file whose bytes are uploaded in the stream of commands, up to an end marker or up to an
announced size. What the CRC of a file is stands apart: `getCRC32` is any function of its bytes. -/

namespace RepRapFirmware.GCodes.BinaryUpload

open Library.Terminators

/-- What is at the end of an HTML file. -/
def eofString : List Char := "<!-- **EoF** -->".toList

inductive Reply
  | ok | crcDoesNotMatch
  deriving DecidableEq, Repr

structure StringParser where
  fileBeingWritten : List Char
  writingFileSize : ℕ
  eofStringCounter : ℕ
  crc32 : ℕ
  binaryWriting : Bool
  reply : Option Reply

/-- Opening the file truncates it. -/
def openFileToWrite (size fileCRC32 : ℕ) : StringParser where
  fileBeingWritten := []
  writingFileSize := size
  eofStringCounter := 0
  crc32 := fileCRC32
  binaryWriting := true
  reply := none

def write (bytes : List Char) (s : StringParser) : StringParser :=
  { s with fileBeingWritten := s.fileBeingWritten ++ bytes }

section

variable (getCRC32 : List Char → ℕ)

def finishWritingBinary (s : StringParser) : StringParser :=
  { s with
    binaryWriting := false
    reply :=
      if s.crc32 = getCRC32 s.fileBeingWritten ∨ s.crc32 = 0 then some .ok
      else some .crcDoesNotMatch }

/-- Take a byte, and say whether it finishes the upload. -/
def writeBinaryToFile (b : Char) (s : StringParser) : StringParser × Bool :=
  if eofString[s.eofStringCounter]? = some b ∧ s.writingFileSize = 0 then
    let s := { s with eofStringCounter := s.eofStringCounter + 1 }
    if s.eofStringCounter < eofString.length then (s, false)
    else (finishWritingBinary getCRC32 s, true)
  else
    let s := { write (eofString.take s.eofStringCounter) s with eofStringCounter := 0 }
    let s := write [b] s
    if s.writingFileSize = 0 ∨ s.fileBeingWritten.length < s.writingFileSize then (s, false)
    else (finishWritingBinary getCRC32 s, true)

/-- The loop over the bytes at hand, and the bytes it leaves unread. -/
def fillBuffer (s : StringParser) : List Char → StringParser × List Char
  | [] => (s, [])
  | c :: bytes =>
    let (s, finished) := writeBinaryToFile getCRC32 c s
    if finished then (s, bytes) else fillBuffer s bytes

/-! ### An upload of unknown size -/

/-- The parser when it has taken the bytes of a text and goes on. -/
def taken (crc32 : ℕ) (t : List Char) : StringParser where
  fileBeingWritten := t.take (t.length - arrived eofString t)
  writingFileSize := 0
  eofStringCounter := arrived eofString t
  crc32 := crc32
  binaryWriting := true
  reply := none

lemma taken_nil (crc32 : ℕ) : taken crc32 [] = openFileToWrite 0 crc32 := rfl

variable {getCRC32} {crc32 : ℕ} {t : List Char}

/-- What has been written and what has been counted make up the text. -/
lemma written_append (t : List Char) :
    t.take (t.length - arrived eofString t) ++ eofString.take (arrived eofString t) = t := by
  obtain ⟨u, hu⟩ := take_arrived eofString t
  have hlength := congrArg List.length hu
  rw [List.length_append, List.length_take, Nat.min_eq_left (arrived_le eofString t)] at hlength
  have hwritten : t.length - arrived eofString t = u.length := by omega
  rw [hwritten, ← List.prefix_iff_eq_take.mp ⟨_, hu⟩]
  exact hu

lemma writeBinaryToFile_taken (crc32 : ℕ) (t : List Char) (c : Char) :
    writeBinaryToFile getCRC32 c (taken crc32 t) =
      if arrived eofString (t ++ [c]) < eofString.length then (taken crc32 (t ++ [c]), false)
      else (finishWritingBinary getCRC32 (taken crc32 (t ++ [c])), true) := by
  rw [writeBinaryToFile]
  by_cases h : eofString[arrived eofString t]? = some c
  · have hcount : arrived eofString (t ++ [c]) = arrived eofString t + 1 := by
      rw [arrived_concat, advance_of_fits h]
    have hfile : (t ++ [c]).take ((t ++ [c]).length - (arrived eofString t + 1)) =
        t.take (t.length - arrived eofString t) := by
      rw [List.length_append, List.length_singleton, Nat.add_sub_add_right,
        List.take_append_of_le_length (Nat.sub_le _ _)]
    have hnext : taken crc32 (t ++ [c]) =
        { taken crc32 t with eofStringCounter := arrived eofString t + 1 } := by
      simp only [taken, hcount, hfile]
    rw [if_pos ⟨h, rfl⟩, hnext, hcount]
    rfl
  · have hcount : arrived eofString (t ++ [c]) = 0 := by
      rw [arrived_concat, advance_of_not_fits h]
    have hnext : taken crc32 (t ++ [c]) =
        { taken crc32 t with fileBeingWritten := t ++ [c], eofStringCounter := 0 } := by
      simp only [taken, hcount, Nat.sub_zero, List.take_length]
    have hpos : 0 < eofString.length := by decide
    rw [if_neg fun hfits => h hfits.1, hcount, if_pos hpos, hnext]
    simp only [write, taken, written_append]
    exact if_pos (Or.inl trivial)

/-- Bytes with which the terminator is not complete are taken one after the other. -/
lemma fillBuffer_taken {l : List Char} (hno : ¬ eofString <:+: t ++ l) (rest : List Char) :
    fillBuffer getCRC32 (taken crc32 t) (l ++ rest) =
      fillBuffer getCRC32 (taken crc32 (t ++ l)) rest := by
  induction l generalizing t with
  | nil => rw [List.nil_append, List.append_nil]
  | cons c l ih =>
    have hsplit : t ++ c :: l = t ++ [c] ++ l := List.append_cons t c l
    rw [hsplit] at hno ⊢
    have hlt : arrived eofString (t ++ [c]) < eofString.length := by
      apply (arrived_le _ _).lt_of_ne
      intro h
      exact hno ((infix_of_arrived h).isInfix.trans (List.prefix_append _ _).isInfix)
    rw [List.cons_append, fillBuffer, writeBinaryToFile_taken, if_pos hlt]
    exact ih hno

lemma fillBuffer_last {c : Char} (h : arrived eofString (t ++ [c]) = eofString.length)
    (rest : List Char) : fillBuffer getCRC32 (taken crc32 t) (c :: rest) =
      (finishWritingBinary getCRC32 (taken crc32 (t ++ [c])), rest) := by
  rw [fillBuffer, writeBinaryToFile_taken, if_neg h.ge.not_gt]
  rfl

lemma writeBinaryToFile_goes_on {b : Char} {s : StringParser}
    (h : (writeBinaryToFile getCRC32 b s).2 = false) :
    (writeBinaryToFile getCRC32 b s).1.binaryWriting = s.binaryWriting := by
  rw [writeBinaryToFile] at h ⊢
  split at h
  · next hfits =>
    rw [if_pos hfits]
    simp only at h ⊢
    split at h
    · next hlt => rw [if_pos hlt]
    · cases h
  · next hfits =>
    rw [if_neg hfits]
    simp only at h ⊢
    split at h
    · next hlt => rw [if_pos hlt]; rfl
    · cases h

/-- An upload that finishes takes a byte. -/
lemma unread_lt {s : StringParser} {l : List Char} (hwriting : s.binaryWriting = true)
    (hfinished : (fillBuffer getCRC32 s l).1.binaryWriting = false) :
    (fillBuffer getCRC32 s l).2.length < l.length := by
  induction l generalizing s with
  | nil => exact absurd (hwriting.symm.trans hfinished) Bool.noConfusion
  | cons c l ih =>
    rw [fillBuffer] at hfinished ⊢
    cases hb : (writeBinaryToFile getCRC32 c s).2 with
    | true =>
      simp only [hb, if_true]
      exact Nat.lt_succ_self _
    | false =>
      simp only [hb, Bool.false_eq_true, if_false] at hfinished ⊢
      exact (ih ((writeBinaryToFile_goes_on hb).trans hwriting) hfinished).trans
        (Nat.lt_succ_self _)

end

/-! ### The end of the upload -/

/-- The end marker stands in a stream for the first time. -/
def FirstTerminator (stream before behind : List Char) : Prop :=
  stream = before ++ eofString ++ behind ∧ ¬ eofString <:+: before ++ eofString.dropLast

/-- The upload finishes with the last byte of the first end marker, if there is one, and stores the
bytes in front of it. -/
def EndsAtTerminator (getCRC32 : List Char → ℕ) (crc32 : ℕ) (stream : List Char) : Prop :=
  let (s, unread) := fillBuffer getCRC32 (openFileToWrite 0 crc32) stream
  (¬ eofString <:+: stream → s.binaryWriting = true) ∧
    ∀ before behind, FirstTerminator stream before behind →
      s.binaryWriting = false ∧ s.fileBeingWritten = before ∧ unread = behind

lemma lead_unique : '<' ∉ eofString.tail := by decide

lemma eofString_split : eofString = eofString.dropLast ++ ['>'] := rfl

variable {getCRC32 : List Char → ℕ} {crc32 : ℕ} {stream before behind : List Char}

lemma taken_terminator (crc32 : ℕ)
    (h : arrived eofString (before ++ eofString) = eofString.length) :
    (taken crc32 (before ++ eofString)).fileBeingWritten = before := by
  rw [taken, h, List.length_append, Nat.add_sub_cancel]
  exact List.take_left

lemma ends_iff (hfirst : FirstTerminator stream before behind) :
    ((fillBuffer getCRC32 (openFileToWrite 0 crc32) stream).1.binaryWriting = false ∧
      (fillBuffer getCRC32 (openFileToWrite 0 crc32) stream).1.fileBeingWritten = before ∧
      (fillBuffer getCRC32 (openFileToWrite 0 crc32) stream).2 = behind) ↔
      arrived eofString before = 0 := by
  obtain ⟨rfl, hno⟩ := hfirst
  have hstart : fillBuffer getCRC32 (openFileToWrite 0 crc32) (before ++ eofString ++ behind) =
      fillBuffer getCRC32 (taken crc32 (before ++ eofString.dropLast)) ('>' :: behind) := by
    have hsplit : before ++ eofString ++ behind =
        before ++ eofString.dropLast ++ '>' :: behind := by
      conv_lhs => rw [eofString_split]
      rw [← List.append_assoc, List.append_assoc _ ['>'], List.singleton_append]
    rw [hsplit, ← taken_nil]
    exact fillBuffer_taken (t := []) hno _
  have hall : before ++ eofString.dropLast ++ ['>'] = before ++ eofString := by
    rw [List.append_assoc, ← eofString_split]
  have hcount : arrived eofString (before ++ eofString) = eofString.length ↔
      arrived eofString before = 0 := arrived_terminator lead_unique
  rw [hstart, ← hcount]
  constructor
  · rintro ⟨hfinished, -, hunread⟩
    by_contra hne
    have hlt := (arrived_le eofString (before ++ eofString)).lt_of_ne hne
    rw [fillBuffer, writeBinaryToFile_taken, hall, if_pos hlt] at hfinished hunread
    have hless := unread_lt rfl hfinished
    exact hless.ne (congrArg List.length hunread)
  · intro h
    rw [fillBuffer_last (hall ▸ h), hall]
    exact ⟨rfl, taken_terminator crc32 h, rfl⟩

/-- The upload ends where it should exactly when an even number of beginnings of the end marker
stands back to back in front of it: the byte that breaks one off is not looked at again. -/
theorem endsAtTerminator_iff (getCRC32 : List Char → ℕ) (crc32 : ℕ) (stream : List Char) :
    EndsAtTerminator getCRC32 crc32 stream ↔
      ∀ before behind, FirstTerminator stream before behind →
        ∃ fragments, Fragmented eofString before fragments ∧ Even fragments.length := by
  have hcount {before behind : List Char} (hfirst : FirstTerminator stream before behind) :
      arrived eofString before = 0 ↔
        ∃ fragments, Fragmented eofString before fragments ∧ Even fragments.length := by
    have hno : ¬ eofString <:+: before := fun h =>
      hfirst.2 (h.trans (List.prefix_append _ _).isInfix)
    constructor
    · intro h
      obtain ⟨fragments, hfragments⟩ := exists_fragmented eofString before
      exact ⟨fragments, hfragments, (arrived_eq_zero_iff lead_unique hfragments hno).mp h⟩
    · rintro ⟨fragments, hfragments, heven⟩
      exact (arrived_eq_zero_iff lead_unique hfragments hno).mpr heven
  constructor
  · rintro ⟨-, h⟩ before behind hfirst
    exact (hcount hfirst).mp ((ends_iff hfirst).mp (h before behind hfirst))
  · intro h
    refine ⟨fun hno => ?_, fun before behind hfirst =>
      (ends_iff hfirst).mpr ((hcount hfirst).mpr (h before behind hfirst))⟩
    have hall : fillBuffer getCRC32 (taken crc32 []) (stream ++ []) =
        fillBuffer getCRC32 (taken crc32 ([] ++ stream)) [] := fillBuffer_taken (t := []) hno []
    rw [List.append_nil, taken_nil] at hall
    rw [hall]
    rfl

/-- A byte like the first one of the end marker, right in front of it. -/
def hiddenTerminator : List Char := '<' :: eofString

theorem terminator_missed :
    ¬ ∀ (getCRC32 : List Char → ℕ) (crc32 : ℕ) (stream : List Char),
      EndsAtTerminator getCRC32 crc32 stream := by
  intro h
  have hfirst : FirstTerminator hiddenTerminator ['<'] [] := ⟨rfl, by decide⟩
  obtain ⟨hfinished, -⟩ := (h (fun _ => 0) 0 hiddenTerminator).2 ['<'] [] hfirst
  exact absurd hfinished (by decide)

end RepRapFirmware.GCodes.BinaryUpload
