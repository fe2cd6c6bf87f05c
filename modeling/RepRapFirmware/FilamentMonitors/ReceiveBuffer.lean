import RepRapFirmware.Library.LineCode
import RepRapFirmware.Library.Ring

/-! The receiver of a filament monitor: the interrupt records when the level of the line changes,
and the words are decoded from these times. -/

namespace RepRapFirmware.FilamentMonitors

open Library

def stepClockRate : ℕ := 750000
def bitsPerSecond : ℕ := 1000
def nominalBitLength : ℕ := stepClockRate / bitsPerSecond
def minBitLength : ℕ := nominalBitLength * 10 / 13
def maxBitLength : ℕ := nominalBitLength * 13 / 10
def errorRecoveryDelayBits : ℕ := 8
def errorRecoveryTime : ℕ := nominalBitLength * errorRecoveryDelayBits
def edgeCaptureBufferSize : ℕ := 64

inductive RxdState
  | waitingForStartBit
  | waitingForEndOfStartBit
  | waitingForNibble
  | errorRecovery1
  | errorRecovery2
  | errorRecovery3
  | errorRecovery4
  deriving DecidableEq

structure Monitor where
  edgeCaptures : ℕ → UInt32
  edgeCaptureReadPointer : ℕ
  edgeCaptureWritePointer : ℕ
  startBitLength : UInt32
  lastBitChangeIndex : ℕ
  valueBeingAssembled : UInt16
  nibblesAssembled : ℕ
  state : RxdState
  overrunErrorCount : ℕ
  polarityErrorCount : ℕ

namespace Monitor

def initReceiveBuffer (now : UInt32) (m : Monitor) : Monitor :=
  { m with
    edgeCaptureReadPointer := 1
    edgeCaptureWritePointer := 1
    edgeCaptures := Function.update m.edgeCaptures 0 now
    state := .waitingForStartBit }

def full (m : Monitor) : Prop :=
  (m.edgeCaptureWritePointer + 1) % edgeCaptureBufferSize = m.edgeCaptureReadPointer

instance (m : Monitor) : Decidable m.full := inferInstanceAs (Decidable (_ = _))

/-- Whether the commanded extrusion is wanted, and the state after the interrupt. -/
def interrupt (readDigital haveIsrStepsCommanded : Bool) (now : UInt32) (m : Monitor) :
    Bool × Monitor :=
  let writePointer := m.edgeCaptureWritePointer
  if m.full then (false, { m with overrunErrorCount := m.overrunErrorCount + 1 })
  -- rises are kept at odd places and falls at even ones
  else if readDigital = (writePointer % 2 == 0) then
    (false, { m with polarityErrorCount := m.polarityErrorCount + 1 })
  else
    (readDigital && m.state = .waitingForStartBit && writePointer = m.edgeCaptureReadPointer &&
        !haveIsrStepsCommanded,
      { m with
        edgeCaptures := Function.update m.edgeCaptures writePointer now
        edgeCaptureWritePointer := (writePointer + 1) % edgeCaptureBufferSize })

/-- The variables of the loop over the bits of a nibble. -/
structure Sampling where
  lastBitChangeIndex : ℕ
  nextBitChangeIndex : ℕ
  samplePoint : UInt32
  currentNibble : UInt8

/-- Whether an edge is recorded at this place that is before the sample point. -/
def changedBefore (m : Monitor) (nibbleStartTime samplePoint : UInt32) (index : ℕ) : Prop :=
  index ≠ m.edgeCaptureWritePointer ∧ m.edgeCaptures index - nibbleStartTime < samplePoint

instance (m : Monitor) (nibbleStartTime samplePoint : UInt32) (index : ℕ) :
    Decidable (m.changedBefore nibbleStartTime samplePoint index) :=
  inferInstanceAs (Decidable (_ ∧ _))

def appendBit (nibble bit : UInt8) : UInt8 := nibble <<< 1 ||| bit

/-- The end of a turn of the loop, where the bit is taken. -/
def takeBit (m : Monitor) (v : Sampling) : Sampling :=
  { v with
    currentNibble := appendBit v.currentNibble (UInt8.ofNat (v.lastBitChangeIndex % 2))
    samplePoint := v.samplePoint + m.startBitLength }

/-- One turn of the loop; it fails where two edges are in one sample period. -/
def sampleBit (m : Monitor) (nibbleStartTime : UInt32) (v : Sampling) : Except Sampling Sampling :=
  if m.changedBefore nibbleStartTime v.samplePoint v.nextBitChangeIndex then
    let w := { v with
      lastBitChangeIndex := v.nextBitChangeIndex
      nextBitChangeIndex := (v.nextBitChangeIndex + 1) % edgeCaptureBufferSize }
    if m.changedBefore nibbleStartTime v.samplePoint w.nextBitChangeIndex then .error w
    else .ok (m.takeBit w)
  else .ok (m.takeBit v)

def sampleBits (m : Monitor) (nibbleStartTime : UInt32) : ℕ → Sampling → Except Sampling Sampling
  | 0, v => .ok v
  | n + 1, v => m.sampleBit nibbleStartTime v >>= m.sampleBits nibbleStartTime n

/-- What a turn of the loop of `PollReceiveBuffer` ends with: the loop goes on, or the function
returns. -/
inductive Turn
  | again
  | incomplete
  | complete (measurement : UInt16)
  | error
  deriving DecidableEq

def skipEdge (m : Monitor) : ℕ := (m.edgeCaptureReadPointer + 1) % edgeCaptureBufferSize

def waitForStartBit (m : Monitor) : Turn × Monitor :=
  if m.edgeCaptureWritePointer = m.edgeCaptureReadPointer then (.incomplete, m)
  else if m.edgeCaptureReadPointer % 2 = 0 then
    (.again, { m with edgeCaptureReadPointer := m.skipEdge })
  else if m.edgeCaptures m.edgeCaptureReadPointer -
      m.edgeCaptures ((m.edgeCaptureReadPointer - 1) % edgeCaptureBufferSize) <
        UInt32.ofNat errorRecoveryTime then
    (.again, { m with edgeCaptureReadPointer := m.skipEdge, state := .errorRecovery1 })
  else (.again, { m with state := .waitingForEndOfStartBit })

def waitForEndOfStartBit (now : UInt32) (m : Monitor) : Turn × Monitor :=
  if 2 ≤ (m.edgeCaptureWritePointer + edgeCaptureBufferSize - m.edgeCaptureReadPointer) %
      edgeCaptureBufferSize then
    let startBitLength := m.edgeCaptures m.skipEdge - m.edgeCaptures m.edgeCaptureReadPointer
    let m := { m with
      lastBitChangeIndex := m.skipEdge
      startBitLength := startBitLength
      edgeCaptureReadPointer := m.skipEdge }
    if UInt32.ofNat minBitLength ≤ startBitLength ∧ startBitLength ≤ UInt32.ofNat maxBitLength then
      (.again, { m with valueBeingAssembled := 0, nibblesAssembled := 0, state :=
      .waitingForNibble })
    else (.again, { m with state := .errorRecovery2 })
  else if UInt32.ofNat maxBitLength < now - m.edgeCaptures m.edgeCaptureReadPointer then
    (.again, { m with edgeCaptureReadPointer := m.skipEdge, state := .errorRecovery2 })
  else (.incomplete, m)

/-- What follows the loop over the bits of a nibble. -/
def endNibble (v : Sampling) (m : Monitor) : Turn × Monitor :=
  let m := { m with lastBitChangeIndex := v.lastBitChangeIndex }
  if (v.currentNibble >>> 1 ^^^ v.currentNibble) &&& 1 = 0 then
    (.again, { m with edgeCaptureReadPointer := v.nextBitChangeIndex, state := .errorRecovery4 })
  else
    let m := { m with
      valueBeingAssembled := m.valueBeingAssembled <<< 4 ||| (v.currentNibble >>> 1).toUInt16
      nibblesAssembled := m.nibblesAssembled + 1 }
    if m.nibblesAssembled = 4 then
      (.complete m.valueBeingAssembled,
        { m with edgeCaptureReadPointer := v.nextBitChangeIndex, state := .waitingForStartBit })
    else (.again, m)

def waitForNibble (now : UInt32) (m : Monitor) : Turn × Monitor :=
  let nibbleStartTime := m.edgeCaptures m.lastBitChangeIndex
  if 13 * m.startBitLength / 2 < now - nibbleStartTime then
    match m.sampleBits nibbleStartTime 5 {
      lastBitChangeIndex := m.lastBitChangeIndex
      nextBitChangeIndex := (m.lastBitChangeIndex + 1) % edgeCaptureBufferSize
      samplePoint := m.startBitLength * 3 / 2
      currentNibble := 0 } with
    | .error v => (.again, { m with
        lastBitChangeIndex := v.lastBitChangeIndex
        edgeCaptureReadPointer := v.nextBitChangeIndex
        state := .errorRecovery3 })
    | .ok v => m.endNibble v
  else (.incomplete, m)

/-- One turn of the loop of `PollReceiveBuffer`, in which the write pointer and the clock are read
at the time `now`. -/
def turn (now : UInt32) (m : Monitor) : Turn × Monitor :=
  match m.state with
  | .waitingForStartBit => m.waitForStartBit
  | .waitingForEndOfStartBit => m.waitForEndOfStartBit now
  | .waitingForNibble => m.waitForNibble now
  | _ => (.error, { m with state := .waitingForStartBit })

/-- How many more turns a call can take after this one. -/
def turnsLeft (m : Monitor) : ℕ :=
  match m.state with
  | .waitingForStartBit => if m.edgeCaptureReadPointer % 2 = 0 then 7 else 6
  | .waitingForEndOfStartBit => 5
  | .waitingForNibble => 1 + (3 - m.nibblesAssembled)
  | _ => 0

end Monitor

/-! ### The times that are recorded -/

/-- The differences of times are right as long as the clock has not gone round. -/
lemma toNat_ticks_sub {t e : ℕ} (h : t ≤ e) :
    (UInt32.ofNat e - UInt32.ofNat t).toNat = (e - t) % 2 ^ 32 := by
  rw [UInt32.toNat_sub, UInt32.toNat_ofNat', UInt32.toNat_ofNat']
  omega

lemma ticks_sub_lt_iff {t e d : ℕ} (h : t ≤ e) (he : e < t + 2 ^ 32) (hd : d < 2 ^ 32) :
    UInt32.ofNat e - UInt32.ofNat t < UInt32.ofNat d ↔ e < t + d := by
  rw [UInt32.lt_iff_toNat_lt, toNat_ticks_sub h, UInt32.toNat_ofNat', Nat.mod_eq_of_lt (a := d) hd,
    Nat.mod_eq_of_lt (by omega)]
  omega

namespace Monitor

/-- The buffer holds the changes `es` of the line from before `read` up to `written`. -/
structure Recorded (m : Monitor) (es : List ℕ) (read written : ℕ) : Prop where
  writePointer : m.edgeCaptureWritePointer = written % 64
  readPointer : m.edgeCaptureReadPointer = read % 64
  pos : 1 ≤ read
  le : read ≤ written
  room : written ≤ read + 63
  length : written ≤ es.length
  slot : ∀ i e, read ≤ i + 1 → i < written → es[i]? = some e →
    m.edgeCaptures (i % 64) = UInt32.ofNat e

variable {m : Monitor} {es : List ℕ} {read written i : ℕ}

lemma Recorded.written_eq_iff (h : m.Recorded es read written) (hle : read ≤ i)
    (hi : i ≤ written) : i % 64 = m.edgeCaptureWritePointer ↔ i = written := by
  have hroom := h.room
  rw [h.writePointer]
  omega

/-- The same buffer is read from a later place on. -/
lemma Recorded.advance (h : m.Recorded es read written) {n : Monitor} {later : ℕ}
    (hedges : n.edgeCaptures = m.edgeCaptures)
    (hwrite : n.edgeCaptureWritePointer = m.edgeCaptureWritePointer)
    (hread : n.edgeCaptureReadPointer = later % 64) (hle : read ≤ later) (hlater : later ≤ written)
    :
    n.Recorded es later written where
  writePointer := by rw [hwrite, h.writePointer]
  readPointer := hread
  pos := h.pos.trans hle
  le := hlater
  room := by
    have hroom := h.room
    omega
  length := h.length
  slot i e hi hwritten he := by
    rw [hedges]
    exact h.slot i e (by omega) hwritten he

lemma recorded_initReceiveBuffer (t₀ : ℕ) (es : List ℕ) (m : Monitor) :
    (m.initReceiveBuffer (UInt32.ofNat t₀)).Recorded (t₀ :: es) 1 1 where
  writePointer := rfl
  readPointer := rfl
  pos := le_rfl
  le := le_rfl
  room := by omega
  length := by simp
  slot i e _ hi he := by
    obtain rfl : i = 0 := by omega
    obtain rfl : t₀ = e := by simpa using he
    simp [initReceiveBuffer]

/-- A change that comes in its turn is recorded, and nothing else happens. -/
lemma interrupt_eq (h : m.Recorded es read written) (hfull : ¬ m.full) {high : Bool}
    (hhigh : high = (written % 2 == 1)) (steps : Bool) (now : UInt32) :
    (m.interrupt high steps now).2 = { m with
      edgeCaptures := Function.update m.edgeCaptures (written % 64) now
      edgeCaptureWritePointer := (written + 1) % 64 } := by
  have hpolarity : high ≠ (m.edgeCaptureWritePointer % 2 == 0) := by
    rw [h.writePointer, hhigh]
    rcases Nat.mod_two_eq_zero_or_one written with hmod | hmod
    · have hplace : written % 64 % 2 = 0 := by omega
      simp [hmod, hplace]
    · have hplace : written % 64 % 2 = 1 := by omega
      simp [hmod, hplace]
  rw [interrupt, if_neg hfull, if_neg hpolarity, h.writePointer]
  simp [edgeCaptureBufferSize]

lemma Recorded.interrupt (h : m.Recorded es read written) (hfull : ¬ m.full) {e : ℕ}
    (he : es[written]? = some e) : Recorded { m with
      edgeCaptures := Function.update m.edgeCaptures (written % 64) (UInt32.ofNat e)
      edgeCaptureWritePointer := (written + 1) % 64 } es read (written + 1) where
  writePointer := rfl
  readPointer := h.readPointer
  pos := h.pos
  le := h.le.trans (Nat.le_succ _)
  room := by
    have hroom := h.room
    have hle := h.le
    rw [full, h.writePointer, h.readPointer, edgeCaptureBufferSize] at hfull
    omega
  length := (List.getElem?_eq_some_iff.mp he).1
  slot i d hi hwritten hd := by
    have hroom := h.room
    have hle := h.le
    rw [full, h.writePointer, h.readPointer, edgeCaptureBufferSize] at hfull
    by_cases hlast : i = written
    · subst hlast
      obtain rfl : e = d := by simpa using he.symm.trans hd
      exact Function.update_self ..
    · rw [← h.slot i d hi (by omega) hd]
      apply Function.update_of_ne
      omega

/-! ### Taking the bits of a nibble -/

lemma changedBefore_iff (h : m.Recorded es read written) {t sample : ℕ} (hle : read ≤ i)
    (hi : i ≤ written) (hes : ∀ e, es[i]? = some e → t ≤ e ∧ e < t + 2 ^ 32)
    (hsample : sample < 2 ^ 32) :
    m.changedBefore (UInt32.ofNat t) (UInt32.ofNat sample) (i % 64) ↔
      i < written ∧ ∃ e, es[i]? = some e ∧ e < t + sample := by
  rw [changedBefore, ne_eq, h.written_eq_iff hle hi]
  by_cases hlast : i = written
  · simp [hlast]
  have hlt : i < written := by omega
  have hlength := h.length
  have he : es[i]? = some es[i] := List.getElem?_eq_getElem _
  obtain ⟨hpast, hfuture⟩ := hes _ he
  rw [h.slot i _ (by omega) hlt he, ticks_sub_lt_iff hpast hfuture hsample, he]
  simp [hlast, hlt]

lemma takeBit_eq {v : Sampling} {L sample : ℕ} {bit : Bool} (hlevel : L % 2 = 1 ↔ bit = true)
    (hlast : v.lastBitChangeIndex = L % 64) (hnext : v.nextBitChangeIndex = (L + 1) % 64)
    (hsample : v.samplePoint = UInt32.ofNat sample) : m.takeBit v = {
      lastBitChangeIndex := L % 64
      nextBitChangeIndex := (L + 1) % 64
      samplePoint := UInt32.ofNat sample + m.startBitLength
      currentNibble := appendBit v.currentNibble bit.toUInt8 } := by
  have hbit : UInt8.ofNat (L % 64 % 2) = bit.toUInt8 := by
    rw [Nat.mod_mod_of_dvd L (by decide : 2 ∣ 64)]
    cases bit with
    | true => rw [hlevel.mpr rfl]; rfl
    | false =>
      have hmod : L % 2 = 0 := by
        rcases Nat.mod_two_eq_zero_or_one L with hmod | hmod
        · exact hmod
        · exact absurd (hlevel.mp hmod) Bool.false_ne_true
      rw [hmod]
      rfl
  rw [takeBit, hlast, hnext, hsample, hbit]

/-- A bit begins with a change or without one, and the next change is not in it. -/
lemma sampleBit_eq (h : m.Recorded es read written) {t₀ t b sample L : ℕ} {level bit : Bool}
    {rest : List ℕ} {v : Sampling} (hle : read ≤ L) (hL : L < written)
    (hlevel : L % 2 = 1 ↔ level = true)
    (hes : es.drop (L + 1) = LineCode.edges b t level [bit] ++ rest)
    (hlast : v.lastBitChangeIndex = L % 64) (hnext : v.nextBitChangeIndex = (L + 1) % 64)
    (hpoint : v.samplePoint = UInt32.ofNat sample) (ht : t₀ ≤ t) (hbefore : t < t₀ + sample)
    (hafter : t₀ + sample ≤ t + b) (hsample : sample < 2 ^ 32)
    (hrest : ∀ e ∈ rest.head?, t + b ≤ e ∧ e < t₀ + 2 ^ 32)
    (hseen : ∀ i e, es[i]? = some e → e ≤ t → i < written) :
    ∃ L', L' = L + (LineCode.edges b t level [bit]).length ∧ L' < written ∧
      (L' % 2 = 1 ↔ bit = true) ∧ m.sampleBit (UInt32.ofNat t₀) v = .ok {
        lastBitChangeIndex := L' % 64
        nextBitChangeIndex := (L' + 1) % 64
        samplePoint := UInt32.ofNat sample + m.startBitLength
        currentNibble := appendBit v.currentNibble bit.toUInt8 } := by
  by_cases hbit : bit = level
  · subst hbit
    have hhead : es[L + 1]? = rest.head? := by
      rw [← List.head?_drop, hes, LineCode.edges_same, LineCode.edges_nil, List.nil_append]
    have hnot : ¬ m.changedBefore (UInt32.ofNat t₀) (UInt32.ofNat sample) ((L + 1) % 64) := by
      rw [changedBefore_iff h (by omega) hL _ hsample]
      · rintro ⟨-, e, he, hlt⟩
        have hbound := (hrest e (hhead ▸ he)).1
        omega
      · intro e he
        have hbound := hrest e (hhead ▸ he)
        omega
    refine ⟨L, by simp, hL, hlevel, ?_⟩
    rw [sampleBit, hnext, hpoint, if_neg hnot, takeBit_eq hlevel hlast hnext hpoint]
  · rw [LineCode.edges_change hbit, LineCode.edges_nil, List.singleton_append] at hes
    have hfirst : es[L + 1]? = some t := by rw [← List.head?_drop, hes, List.head?_cons]
    have hhead : es[L + 2]? = rest.head? := by
      have hdrop := congrArg List.tail hes
      rw [List.tail_drop, List.tail_cons] at hdrop
      rw [← List.head?_drop, hdrop]
    have hrecorded : L + 1 < written := hseen _ t hfirst le_rfl
    have hchanged : m.changedBefore (UInt32.ofNat t₀) (UInt32.ofNat sample) ((L + 1) % 64) := by
      rw [changedBefore_iff h (by omega) hL _ hsample]
      · exact ⟨hrecorded, t, hfirst, hbefore⟩
      · intro e he
        obtain rfl : t = e := by simpa using hfirst.symm.trans he
        omega
    have hnot : ¬ m.changedBefore (UInt32.ofNat t₀) (UInt32.ofNat sample) ((L + 2) % 64) := by
      rw [changedBefore_iff h (by omega) hrecorded _ hsample]
      · rintro ⟨-, e, he, hlt⟩
        have hbound := (hrest e (hhead ▸ he)).1
        omega
      · intro e he
        have hbound := hrest e (hhead ▸ he)
        omega
    have hnegated : (L + 1) % 2 = 1 ↔ bit = true := by
      cases level <;> cases bit <;> simp_all <;> omega
    refine ⟨L + 1, by simp [LineCode.edges_change hbit], hrecorded, hnegated, ?_⟩
    have hwrap : ((L + 1) % 64 + 1) % edgeCaptureBufferSize = (L + 2) % 64 := by
      rw [edgeCaptureBufferSize, Nat.mod_add_mod]
    simp only [sampleBit, hnext, hpoint, hwrap]
    rw [if_pos hchanged, if_neg hnot]
    exact congrArg Except.ok (takeBit_eq hnegated rfl rfl rfl)

lemma sampleBits_eq (h : m.Recorded es read written) {t₀ b : ℕ} (hb : 2 ≤ b)
    (hsmall : 8 * b < 2 ^ 32) (hlength : m.startBitLength = UInt32.ofNat b) {bits : List Bool}
    {j t L : ℕ} {level : Bool} {rest : List ℕ} {v : Sampling} (hle : read ≤ L) (hL : L < written)
    (hlevel : L % 2 = 1 ↔ level = true)
    (hes : es.drop (L + 1) = LineCode.edges b t level bits ++ rest)
    (hlast : v.lastBitChangeIndex = L % 64) (hnext : v.nextBitChangeIndex = (L + 1) % 64)
    (hpoint : v.samplePoint = UInt32.ofNat (b * 3 / 2 + b * j)) (ht : t = t₀ + b * (j + 1))
    (hj : j + bits.length ≤ 5)
    (hrest : ∀ e ∈ rest.head?, t + b * bits.length ≤ e ∧ e < t₀ + 2 ^ 32)
    (hseen : ∀ i e, es[i]? = some e → e ≤ t₀ + b * 5 → i < written) :
    ∃ L' samplePoint, L' = L + (LineCode.edges b t level bits).length ∧ L' < written ∧
      m.sampleBits (UInt32.ofNat t₀) bits.length v = .ok {
        lastBitChangeIndex := L' % 64
        nextBitChangeIndex := (L' + 1) % 64
        samplePoint := samplePoint
        currentNibble := bits.foldl (fun n bit => appendBit n bit.toUInt8) v.currentNibble } := by
  induction bits generalizing j t L level v with
  | nil => exact ⟨L, v.samplePoint, by simp, hL, by rw [← hlast, ← hnext]; rfl⟩
  | cons bit bits ih =>
    have hsplit : LineCode.edges b t level ([bit] ++ bits) = _ := LineCode.edges_append [bit] bits
    rw [List.singleton_append, List.length_singleton, mul_one, List.getLastD_cons,
      List.getLastD_nil] at hsplit
    rw [List.length_cons] at hj
    have hjb : b * j ≤ b * 4 := Nat.mul_le_mul_left b (by omega)
    have hround : b * (j + 1) = b * j + b := by ring
    have htime : t + b * (bits.length + 1) = t + b + b * bits.length := by ring
    have hbits : b * bits.length + b * (j + 1) ≤ b * 5 := by
      rw [← mul_add]
      exact Nat.mul_le_mul_left b (by omega)
    rw [List.length_cons, htime] at hrest
    have hcoming : ∀ e ∈ (LineCode.edges b (t + b) bit bits ++ rest).head?,
        t + b ≤ e ∧ e < t₀ + 2 ^ 32 := by
      intro e he
      cases hedges : LineCode.edges b (t + b) bit bits with
      | nil =>
        rw [hedges, List.nil_append] at he
        have hbound := hrest e he
        omega
      | cons d ds =>
        rw [hedges] at he
        obtain rfl : d = e := by simpa using he
        have hbound := LineCode.bounds_of_mem (hedges ▸ List.mem_cons_self : d ∈ _)
        omega
    obtain ⟨L', hL', hwritten, hlevel', hsample⟩ := sampleBit_eq h hle hL hlevel
      (hes.trans (by rw [hsplit, List.append_assoc])) hlast hnext hpoint
      (by omega) (by omega) (by omega) (by omega) hcoming
      (fun i e he hlt => hseen i e he (by rw [ht] at hlt; omega))
    have hdrop : es.drop (L' + 1) = LineCode.edges b (t + b) bit bits ++ rest := by
      rw [hL', add_right_comm, ← List.drop_drop, hes, hsplit, List.append_assoc,
        List.drop_left]
    obtain ⟨L'', samplePoint, hL'', hwritten', hsamples⟩ := ih (j := j + 1) (by omega) hwritten
      hlevel' hdrop rfl rfl
      (v := ⟨L' % 64, (L' + 1) % 64, UInt32.ofNat (b * 3 / 2 + b * j) + m.startBitLength,
        appendBit v.currentNibble bit.toUInt8⟩)
      (by rw [hlength, ← UInt32.ofNat_add, hround, add_assoc]) (by rw [ht]; ring) (by omega)
      hrest
    refine ⟨L'', samplePoint, ?_, hwritten', ?_⟩
    · rw [hL'', hL', hsplit, List.length_append, add_assoc]
    · rw [List.length_cons, sampleBits, hsample]
      exact hsamples

end Monitor

end RepRapFirmware.FilamentMonitors
