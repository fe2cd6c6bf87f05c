import RepRapFirmware.Library.Json

/-! Writing text to a chain of output buffers. The pool counts the buffers that are free; no other
task takes or returns any while a response is put together. -/

namespace RepRapFirmware.Platform

def outputBufferSize : ℕ := 256

/-- What a board keeps back for encapsulating responses. -/
structure Board where
  reservedOutputBuffers : ℕ

def sam4e : Board := ⟨2⟩

def same70 : Board := ⟨4⟩

/-- A chain with what was written to it, the length of the data in its last buffer, and the buffers
that are free. -/
structure OutputBuffer where
  text : List Char
  lastLength : ℕ
  freeBuffers : ℕ
  hadOverflow : Bool
  last_le : lastLength ≤ outputBufferSize

namespace OutputBuffer

/-- The first buffer of a chain, for which the reserved ones may be used too. -/
def allocate (freeBuffers : ℕ) : Option OutputBuffer :=
  if freeBuffers = 0 then none
  else some ⟨[], 0, freeBuffers - 1, false, Nat.zero_le _⟩

variable (board : Board) {b : OutputBuffer} {c : Char} {s t : List Char}

/-- `cat` of a character, with the number of characters written. -/
def cat (c : Char) (b : OutputBuffer) : ℕ × OutputBuffer :=
  if h : b.lastLength = outputBufferSize then
    if b.freeBuffers > board.reservedOutputBuffers then
      (1, { b with
        text := b.text ++ [c], lastLength := 1, freeBuffers := b.freeBuffers - 1,
        last_le := by decide })
    else (0, { b with hadOverflow := true })
  else
    (1, { b with
      text := b.text ++ [c], lastLength := b.lastLength + 1,
      last_le := Nat.lt_of_le_of_ne b.last_le h })

/-- `catf` of a format that expands to `t`; printing ends with the first failure. -/
def catf : List Char → OutputBuffer → ℕ × OutputBuffer
  | [], b => (0, b)
  | c :: t, b =>
    let (n, b) := cat board c b
    if n = 0 then (0, b)
    else
      let (m, b) := catf t b
      (m + 1, b)

/-- Several calls, one after the other. -/
def catAll : List (List Char) → OutputBuffer → ℕ × OutputBuffer
  | [], b => (0, b)
  | t :: ts, b =>
    let (n, b) := catf board t b
    let (m, b) := catAll ts b
    (n + m, b)

def getBytesLeft (b : OutputBuffer) : ℕ :=
  let bytesLeft := outputBufferSize - b.lastLength
  if b.freeBuffers < board.reservedOutputBuffers then bytesLeft
  else bytesLeft + (b.freeBuffers - board.reservedOutputBuffers) * outputBufferSize

/-- What is written as long as there is room for it. -/
structure Wrote (t : List Char) (b : OutputBuffer) (r : ℕ × OutputBuffer) : Prop where
  written : r.1 = min t.length (b.getBytesLeft board)
  text : r.2.text = b.text ++ t.take (b.getBytesLeft board)
  bytesLeft : r.2.getBytesLeft board = b.getBytesLeft board - t.length
  overflow : r.2.hadOverflow = (b.hadOverflow || decide (b.getBytesLeft board < t.length))

variable {board}

lemma Wrote.nil : Wrote board [] b (0, b) where
  written := (Nat.zero_min _).symm
  text := by simp
  bytesLeft := rfl
  overflow := by simp

lemma getBytesLeft_eq (board : Board) (b : OutputBuffer) : b.getBytesLeft board =
    outputBufferSize - b.lastLength +
      (b.freeBuffers - board.reservedOutputBuffers) * outputBufferSize := by
  simp only [getBytesLeft]
  split
  · have hnone : b.freeBuffers - board.reservedOutputBuffers = 0 := by omega
    rw [hnone, Nat.zero_mul, Nat.add_zero]
  · rfl

/-- A character is written exactly if there is room for it. -/
lemma cat_wrote (board : Board) (c : Char) (b : OutputBuffer) : Wrote board [c] b (cat board c b) :=
    by
  have hb := getBytesLeft_eq board b
  have hlast := b.last_le
  rw [cat]
  split
  · rename_i hfull
    split
    · rename_i hfree
      have hpos : 1 ≤ b.getBytesLeft board := by
        simp only [outputBufferSize] at hb hfull
        omega
      refine ⟨?_, ?_, ?_, ?_⟩
      · exact (Nat.min_eq_left hpos).symm
      · rw [List.take_of_length_le (by simpa using hpos)]
      · rw [getBytesLeft_eq, hb, hfull]
        simp only [outputBufferSize, List.length_singleton]
        omega
      · rw [List.length_singleton, decide_eq_false (Nat.not_lt.mpr hpos), Bool.or_false]
    · rename_i hfree
      have hzero : b.getBytesLeft board = 0 := by
        simp only [outputBufferSize] at hb hfull
        omega
      refine ⟨?_, ?_, ?_, ?_⟩
      · rw [hzero, Nat.min_zero]
      · rw [hzero, List.take_zero, List.append_nil]
      · rw [hzero, Nat.zero_sub]
        exact hzero
      · rw [hzero, List.length_singleton, decide_eq_true Nat.zero_lt_one, Bool.or_true]
  · rename_i hroom
    have hpos : 1 ≤ b.getBytesLeft board := by omega
    refine ⟨?_, ?_, ?_, ?_⟩
    · exact (Nat.min_eq_left hpos).symm
    · rw [List.take_of_length_le (by simpa using hpos)]
    · rw [getBytesLeft_eq, hb, List.length_singleton]
      simp only
      omega
    · rw [List.length_singleton, decide_eq_false (Nat.not_lt.mpr hpos), Bool.or_false]

/-- Two pieces of text one after the other. -/
lemma Wrote.append {r q : ℕ × OutputBuffer} (h : Wrote board s b r) (hq : Wrote board t r.2 q) :
    Wrote board (s ++ t) b (r.1 + q.1, q.2) where
  written := by
    rw [h.written, hq.written, h.bytesLeft, List.length_append]
    omega
  text := by
    rw [hq.text, h.text, h.bytesLeft, List.append_assoc, List.take_append]
  bytesLeft := by
    rw [hq.bytesLeft, h.bytesLeft, List.length_append, Nat.sub_sub]
  overflow := by
    rw [hq.overflow, h.overflow, h.bytesLeft, List.length_append, Bool.or_assoc,
      ← Bool.decide_or]
    congr 2
    apply propext
    omega

/-- If a character does not fit then nothing after it would. -/
lemma Wrote.stopped {r : ℕ × OutputBuffer} (h : Wrote board [c] b r) (hzero : r.1 = 0)
    (t : List Char) : Wrote board (c :: t) b (0, r.2) := by
  have hwritten := h.written
  rw [List.length_singleton] at hwritten
  have hnone : b.getBytesLeft board = 0 := by omega
  refine ⟨?_, ?_, ?_, ?_⟩
  · rw [hnone, Nat.min_zero]
  · rw [h.text, hnone, List.take_zero, List.take_zero]
  · rw [h.bytesLeft, hnone, Nat.zero_sub, Nat.zero_sub]
  · rw [h.overflow, hnone, decide_eq_true (by simp), decide_eq_true (by simp)]

lemma catf_cons (c : Char) (t : List Char) (b : OutputBuffer) : catf board (c :: t) b =
    if (cat board c b).1 = 0 then (0, (cat board c b).2)
    else ((catf board t (cat board c b).2).1 + 1, (catf board t (cat board c b).2).2) := rfl

lemma catf_wrote (board : Board) (t : List Char) (b : OutputBuffer)
    : Wrote board t b (catf board t b) := by
  induction t generalizing b with
  | nil => exact Wrote.nil
  | cons c t ih =>
    have hc := cat_wrote board c b
    have hwritten := hc.written
    rw [List.length_singleton] at hwritten
    rw [catf_cons]
    split
    · next hzero => exact hc.stopped hzero t
    · next hone =>
      have hrest := hc.append (ih (cat board c b).2)
      have hadd : (cat board c b).1 + (catf board t (cat board c b).2).1 =
          (catf board t (cat board c b).2).1 + 1 := by omega
      rw [hadd] at hrest
      exact hrest

lemma catAll_wrote (board : Board) (ts : List (List Char)) (b : OutputBuffer) :
    Wrote board ts.flatten b (catAll board ts b) := by
  induction ts generalizing b with
  | nil => exact Wrote.nil
  | cons t ts ih => exact (catf_wrote board t b).append (ih (catf board t b).2)

end OutputBuffer

end RepRapFirmware.Platform
