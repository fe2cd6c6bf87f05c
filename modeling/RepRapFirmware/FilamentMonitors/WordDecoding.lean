import RepRapFirmware.FilamentMonitors.ReceiveBuffer
import RepRapFirmware.Library.Runs

/-! What a filament monitor receives of the words that are sent over its line. -/

namespace RepRapFirmware.FilamentMonitors

open Library Library.Runs

def nibbles (word : UInt16) : List ℕ :=
  [word.toNat / 4096, word.toNat / 256 % 16, word.toNat / 16 % 16, word.toNat % 16]

/-- The four bits of a nibble and the stuffing bit. -/
def nibbleBits (nibble : ℕ) : List Bool :=
  [nibble.testBit 3, nibble.testBit 2, nibble.testBit 1, nibble.testBit 0, !nibble.testBit 0]

structure Transmission where
  start : ℕ
  word : UInt16

section

variable (leader : List Bool) (b : ℕ)

/-- The bits of a word, of which the first are the same for every word. -/
def Transmission.bits (tr : Transmission) : List Bool :=
  leader ++ (nibbles tr.word).flatMap nibbleBits

def Transmission.edges (tr : Transmission) : List ℕ :=
  LineCode.edges b tr.start false (tr.bits leader ++ [false])

def wave (trs : List Transmission) : List ℕ := trs.flatMap (Transmission.edges leader b)

/-- The time from which the line is low after a word. -/
def Transmission.lowFrom (tr : Transmission) : ℕ :=
  if (tr.bits leader).getLastD false then tr.start + b * (tr.bits leader).length
  else tr.start + b * ((tr.bits leader).length - 1)

/-- Before each word the line has been low for long enough, and the word starts before the clock
has gone round from a time that is given for the word before it. -/
def Idle (since : Transmission → ℕ) : ℕ → ℕ → List Transmission → Prop
  | _, _, [] => True
  | low, last, tr :: trs =>
    low + errorRecoveryTime ≤ tr.start ∧ tr.start < last + 2 ^ 32 ∧
      Idle since (tr.lowFrom leader b) (since tr) trs

instance Idle.decidable (since : Transmission → ℕ) :
    ∀ low last trs, Decidable (Idle leader b since low last trs)
  | _, _, [] => isTrue trivial
  | _, _, tr :: trs =>
    have := Idle.decidable since (tr.lowFrom leader b) (since tr) trs
    inferInstanceAs (Decidable (_ ∧ _ ∧ Idle leader b since _ _ trs))

end

/-- A monitor and the line, of which the changes still to come are known. -/
structure Line where
  monitor : Monitor
  coming : List ℕ
  high : Bool
  clock : ℕ
  turns : ℕ
  results : List Monitor.Turn

inductive Event
  | interrupt (haveIsrStepsCommanded : Bool)
  | turn (now : ℕ)

namespace Line

def start (leader : List Bool) (b t₀ : ℕ) (trs : List Transmission) (m : Monitor) : Line where
  monitor := m.initReceiveBuffer (UInt32.ofNat t₀)
  coming := wave leader b trs
  high := false
  clock := t₀
  turns := 0
  results := []

/-- The results are those of the calls that have returned, and `turns` counts those of the call
that has not. -/
def step (s : Line) : Event → Line
  | .interrupt haveIsrStepsCommanded =>
    match s.coming with
    | [] => s
    | e :: coming =>
      { s with
        monitor := (s.monitor.interrupt (!s.high) haveIsrStepsCommanded (UInt32.ofNat e)).2
        coming := coming
        high := !s.high
        clock := e }
  | .turn now =>
    let (result, monitor) := s.monitor.turn (UInt32.ofNat now)
    let s := { s with monitor := monitor, clock := now }
    if result = .again then { s with turns := s.turns + 1 }
    else { s with turns := 0, results := s.results ++ [result] }

/-- Every change is recorded before the monitor looks, and finds the buffer not full. -/
def ok (s : Line) : Event → Prop
  | .interrupt _ => s.coming ≠ [] ∧ ¬ s.monitor.full
  | .turn now => s.clock ≤ now ∧ ∀ e ∈ s.coming.head?, now ≤ e

instance (s : Line) : ∀ e, Decidable (s.ok e)
  | .interrupt _ => inferInstanceAs (Decidable (_ ∧ _))
  | .turn _ => inferInstanceAs (Decidable (_ ∧ _))

def words (s : Line) : List UInt16 :=
  s.results.filterMap fun
    | .complete word => some word
    | _ => none

end Line

/-! ### The bits of a word -/

/-- A start bit and a low bit come before the first nibble. -/
def leader : List Bool := [true, false]

/-- The time from which the clock may not go round before the next word: that of the last change,
or of the one before the last nibble where this nibble ends with the last change. -/
def Transmission.clockFrom (b : ℕ) (tr : Transmission) : ℕ :=
  if (tr.bits leader).getLastD false then tr.start + b * 22 else tr.start + b * 16

def assembled (ns : List ℕ) : ℕ := ns.foldl (fun value n => 16 * value + n) 0

lemma assembled_concat (ns : List ℕ) (n : ℕ) : assembled (ns ++ [n]) = 16 * assembled ns + n := by
  rw [assembled, List.foldl_append]
  rfl

lemma assembled_lt {ns : List ℕ} (h : ∀ n ∈ ns, n < 16) : assembled ns < 16 ^ ns.length := by
  induction ns using List.reverseRecOn with
  | nil => exact Nat.one_pos
  | append_singleton ns n ih =>
    have hn : n < 16 := h n (by simp)
    have hns := ih fun k hk => h k (List.mem_append_left _ hk)
    rw [assembled_concat, List.length_append, List.length_singleton, pow_succ]
    omega

lemma assembled_nibbles (word : UInt16) : assembled (nibbles word) = word.toNat := by
  simp only [assembled, nibbles, List.foldl_cons, List.foldl_nil]
  omega

lemma lt_of_mem_nibbles {w : UInt16} {n : ℕ} (h : n ∈ nibbles w) : n < 16 := by
  have hword := w.toNat_lt
  simp only [nibbles, List.mem_cons, List.not_mem_nil, or_false] at h
  omega

/-- The bits of a nibble, as they are sampled, pass the check and give the nibble. -/
lemma sampled_nibbleBits {n : ℕ} (h : n < 16) :
    let sampled := (nibbleBits n).foldl (fun n bit => Monitor.appendBit n bit.toUInt8) 0
    (sampled >>> 1 ^^^ sampled) &&& 1 ≠ 0 ∧ (sampled >>> 1).toUInt16 = UInt16.ofNat n := by
  revert n
  decide

lemma toNat_shiftLeft_or {value : UInt16} {n : ℕ} (hn : n < 16) (hvalue : value.toNat < 4096) :
    (value <<< 4 ||| UInt16.ofNat n).toNat = 16 * value.toNat + n := by
  have hshift : (value <<< 4).toNat = 2 ^ 4 * value.toNat := by
    rw [UInt16.toNat_shiftLeft]
    change value.toNat <<< 4 % 2 ^ 16 = _
    rw [Nat.shiftLeft_eq]
    omega
  rw [UInt16.toNat_or, hshift, UInt16.toNat_ofNat', Nat.mod_eq_of_lt (by omega),
    ← Nat.two_pow_add_eq_or_of_lt (by omega)]

/-! ### Where the decoder is -/

variable {b : ℕ} {es : List ℕ} {m : Monitor} {read written now : ℕ} {todo : List Transmission}

/-- Every change up to the time `now` is recorded, and none after it. -/
def Seen (es : List ℕ) (written now : ℕ) : Prop :=
  ∀ i e, es[i]? = some e → (i < written → e ≤ now) ∧ (written ≤ i → now ≤ e)

/-- The nibbles `ns` of a word are taken, the nibble `n` is next, and `level` is that of the bit
before it, which starts at the place `L`. -/
structure AtNibble (b : ℕ) (es : List ℕ) (m : Monitor) (read written L : ℕ) (level : Bool)
    (ns : List ℕ) (n : ℕ) (left : List ℕ) (tr : Transmission) (trs : List Transmission) :
    Prop where
  state : m.state = .waitingForNibble
  word : nibbles tr.word = ns ++ n :: left
  number : m.nibblesAssembled = ns.length
  value : m.valueBeingAssembled.toNat = assembled ns
  bitLength : m.startBitLength = UInt32.ofNat b
  place : m.lastBitChangeIndex = L % 64
  le : read ≤ L
  lt : L < written
  parity : L % 2 = 1 ↔ level = true
  since : es[L]? = some (tr.start + b * (1 + 5 * ns.length))
  coming : es.drop (L + 1) = LineCode.edges b (tr.start + b * (1 + 5 * ns.length) + b) level
    ((n :: left).flatMap nibbleBits ++ [false]) ++ wave leader b trs
  idle : Idle leader b (Transmission.clockFrom b) (tr.lowFrom leader b) (tr.clockFrom b) trs

inductive Phase (b : ℕ) (es : List ℕ) (m : Monitor) (read written : ℕ) : List Transmission → Prop
  | falling {fall : ℕ} {trs : List Transmission} (state : m.state = .waitingForStartBit)
      (parity : read % 2 = 0) (coming : es.drop read = fall :: wave leader b trs)
      (idle : Idle leader b (Transmission.clockFrom b) fall fall trs) : Phase b es m read written trs
  | low {f l : ℕ} {trs : List Transmission} (state : m.state = .waitingForStartBit)
      (parity : read % 2 = 1) (since : es[read - 1]? = some f) (le : l ≤ f)
      (coming : es.drop read = wave leader b trs)
      (idle : Idle leader b (Transmission.clockFrom b) f l trs) : Phase b es m read written trs
  | startBit {tr : Transmission} {trs : List Transmission}
      (state : m.state = .waitingForEndOfStartBit) (parity : read % 2 = 1) (lt : read < written)
      (coming : es.drop read = wave leader b (tr :: trs))
      (idle : Idle leader b (Transmission.clockFrom b) (tr.lowFrom leader b) (tr.clockFrom b) trs) :
      Phase b es m read written (tr :: trs)
  | nibble {L : ℕ} {level : Bool} {ns left : List ℕ} {n : ℕ} {tr : Transmission}
      {trs : List Transmission} (at_ : AtNibble b es m read written L level ns n left tr trs) :
      Phase b es m read written (tr :: trs)

/-- A word is not yet there, or the clock has gone round since its start bit. -/
def NotYet (b now : ℕ) (todo : List Transmission) : Prop :=
  ∀ tr ∈ todo.head?, now ≤ tr.start + b * 16 + 13 * b / 2 ∨ tr.start + b + 2 ^ 32 ≤ now

/-- What a turn can do. -/
inductive Turned (b : ℕ) (es : List ℕ) (m : Monitor) (written now : ℕ) (todo : List Transmission) :
    Monitor.Turn × Monitor → Prop
  | again {m' : Monitor} {i : ℕ} (recorded : m'.Recorded es i written)
      (phase : Phase b es m' i written todo) (left : m'.turnsLeft < m.turnsLeft) :
      Turned b es m written now todo (.again, m')
  | incomplete (notYet : NotYet b now todo) : Turned b es m written now todo (.incomplete, m)
  | complete {m' : Monitor} {i : ℕ} {tr : Transmission} {trs : List Transmission}
      (next : todo = tr :: trs) (recorded : m'.Recorded es i written)
      (phase : Phase b es m' i written trs) (left : m'.turnsLeft ≤ 7) :
      Turned b es m written now todo (.complete tr.word, m')

lemma edges_transmission (tr : Transmission) : tr.edges leader b = tr.start ::
    (tr.start + b) :: LineCode.edges b (tr.start + b + b) false
      ((nibbles tr.word).flatMap nibbleBits ++ [false]) := by
  rw [Transmission.edges, Transmission.bits, leader, List.append_assoc, List.cons_append,
    LineCode.edges_change (by decide), List.cons_append, LineCode.edges_change (by decide),
    List.nil_append]

lemma wave_cons (tr : Transmission) (trs : List Transmission) :
    wave leader b (tr :: trs) = tr.start :: (tr.start + b) :: (LineCode.edges b
      (tr.start + b + b) false ((nibbles tr.word).flatMap nibbleBits ++ [false]) ++
        wave leader b trs) := by
  rw [wave, List.flatMap_cons, edges_transmission]
  rfl

lemma head_wave {tr : Transmission} {trs : List Transmission} {i : ℕ}
    (h : es.drop i = wave leader b (tr :: trs)) : es[i]? = some tr.start := by
  rw [← List.head?_drop, h, wave_cons, List.head?_cons]

lemma turn_falling {fall : ℕ} (h : m.Recorded es read written) (hstate : m.state = .waitingForStartBit)
    (hparity : read % 2 = 0) (hcoming : es.drop read = fall :: wave leader b todo)
    (hidle : Idle leader b (Transmission.clockFrom b) fall fall todo) (hseen : Seen es written now) :
    Turned b es m written now todo (m.turn (UInt32.ofNat now)) := by
  have hfirst : es[read]? = some fall := by rw [← List.head?_drop, hcoming, List.head?_cons]
  have hplace : read % 64 % 2 = 0 := by omega
  rw [Monitor.turn, hstate]
  change Turned b es m written now todo m.waitForStartBit
  by_cases hempty : m.edgeCaptureWritePointer = m.edgeCaptureReadPointer
  · rw [Monitor.waitForStartBit, if_pos hempty]
    apply Turned.incomplete
    intro tr htr
    rw [h.readPointer, eq_comm, h.written_eq_iff le_rfl h.le] at hempty
    have hbefore := (hseen read fall hfirst).2 hempty.ge
    cases todo with
    | nil => simp at htr
    | cons next trs =>
      obtain rfl : next = tr := by simpa using htr
      have hstart := hidle.1
      omega
  · rw [Monitor.waitForStartBit, if_neg hempty, h.readPointer, if_pos hplace]
    rw [h.readPointer, eq_comm, h.written_eq_iff le_rfl h.le] at hempty
    have hle := h.le
    have hskip : m.skipEdge = (read + 1) % 64 := by
      rw [Monitor.skipEdge, h.readPointer, edgeCaptureBufferSize, Nat.mod_add_mod]
    have hdrop : es.drop (read + 1) = wave leader b todo := by
      rw [← List.tail_drop, hcoming, List.tail_cons]
    apply Turned.again (i := read + 1)
    · exact h.advance rfl rfl hskip (by omega) (by omega)
    · exact Phase.low hstate (by omega) hfirst le_rfl hdrop hidle
    · have hodd : ¬ (read + 1) % 64 % 2 = 0 := by omega
      simp only [Monitor.turnsLeft, hstate, hskip, if_neg hodd, h.readPointer, if_pos hplace]
      omega

lemma turn_low {fall last : ℕ} (h : m.Recorded es read written)
    (hstate : m.state = .waitingForStartBit) (hparity : read % 2 = 1)
    (hsince : es[read - 1]? = some fall) (hlast : last ≤ fall)
    (hcoming : es.drop read = wave leader b todo)
    (hidle : Idle leader b (Transmission.clockFrom b) fall last todo) (hseen : Seen es written now) :
    Turned b es m written now todo (m.turn (UInt32.ofNat now)) := by
  have hpos := h.pos
  have hle := h.le
  have hlength := h.length
  have hplace : ¬ read % 64 % 2 = 0 := by omega
  have hprevious : (read % 64 - 1) % edgeCaptureBufferSize = (read - 1) % 64 := by
    rw [edgeCaptureBufferSize]
    omega
  rw [Monitor.turn, hstate]
  change Turned b es m written now todo m.waitForStartBit
  by_cases hempty : m.edgeCaptureWritePointer = m.edgeCaptureReadPointer
  · rw [Monitor.waitForStartBit, if_pos hempty]
    apply Turned.incomplete
    intro tr htr
    rw [h.readPointer, eq_comm, h.written_eq_iff le_rfl hle] at hempty
    cases todo with
    | nil => simp at htr
    | cons next trs =>
      obtain rfl : next = tr := by simpa using htr
      have hbefore := (hseen read _ (head_wave hcoming)).2 hempty.ge
      omega
  rw [Monitor.waitForStartBit, if_neg hempty, h.readPointer, if_neg hplace, hprevious]
  rw [h.readPointer, eq_comm, h.written_eq_iff le_rfl hle] at hempty
  cases todo with
  | nil =>
    have hend := List.drop_eq_nil_iff.mp hcoming
    omega
  | cons tr trs =>
    obtain ⟨hlow, hclock, hidle⟩ := hidle
    have hstart := head_wave hcoming
    have hrecovery : ¬ m.edgeCaptures (read % 64) - m.edgeCaptures ((read - 1) % 64) <
        UInt32.ofNat errorRecoveryTime := by
      rw [h.slot read _ (by omega) (by omega) hstart, h.slot (read - 1) _ (by omega) (by omega) hsince,
        ticks_sub_lt_iff (by omega) (by omega) (by decide)]
      omega
    rw [if_neg hrecovery]
    apply Turned.again (i := read)
    · exact h.advance rfl rfl rfl le_rfl hle
    · exact Phase.startBit rfl hparity (by omega) hcoming hidle
    · simp only [Monitor.turnsLeft, hstate, h.readPointer, if_neg hplace]
      omega

lemma turn_startBit (hmin : minBitLength ≤ b) (hmax : b ≤ maxBitLength) {tr : Transmission}
    {trs : List Transmission} (h : m.Recorded es read written)
    (hstate : m.state = .waitingForEndOfStartBit) (hparity : read % 2 = 1) (hlt : read < written)
    (hcoming : es.drop read = wave leader b (tr :: trs))
    (hidle : Idle leader b (Transmission.clockFrom b) (tr.lowFrom leader b) (tr.clockFrom b) trs)
    (hseen : Seen es written now) :
    Turned b es m written now (tr :: trs) (m.turn (UInt32.ofNat now)) := by
  have hroom := h.room
  have hlong : maxBitLength < 1000 := by decide
  have hskip : m.skipEdge = (read + 1) % 64 := by
    rw [Monitor.skipEdge, h.readPointer, edgeCaptureBufferSize, Nat.mod_add_mod]
  have hnumber : (m.edgeCaptureWritePointer + edgeCaptureBufferSize - m.edgeCaptureReadPointer) %
      edgeCaptureBufferSize = written - read := by
    rw [h.writePointer, h.readPointer, edgeCaptureBufferSize]
    omega
  have hrise := head_wave hcoming
  rw [wave_cons] at hcoming
  have hdrop := congrArg List.tail hcoming
  rw [List.tail_drop, List.tail_cons] at hdrop
  have hfall : es[read + 1]? = some (tr.start + b) := by
    rw [← List.head?_drop, hdrop, List.head?_cons]
  have hrest := congrArg List.tail hdrop
  rw [List.tail_drop, List.tail_cons] at hrest
  have hpast : tr.start ≤ now := (hseen read _ hrise).1 hlt
  rw [Monitor.turn, hstate]
  change Turned b es m written now (tr :: trs) (m.waitForEndOfStartBit (UInt32.ofNat now))
  rw [Monitor.waitForEndOfStartBit, hnumber, hskip, h.readPointer, h.slot read _ (by omega) hlt hrise]
  by_cases htwo : 2 ≤ written - read
  · have hbit : UInt32.ofNat (tr.start + b) - UInt32.ofNat tr.start = UInt32.ofNat b := by
      apply UInt32.toNat_inj.mp
      rw [toNat_ticks_sub (by omega), UInt32.toNat_ofNat', Nat.add_sub_cancel_left]
    have hvalid : UInt32.ofNat minBitLength ≤ UInt32.ofNat b ∧
        UInt32.ofNat b ≤ UInt32.ofNat maxBitLength := by
      simp only [UInt32.le_iff_toNat_le, UInt32.toNat_ofNat']
      omega
    simp only [if_pos htwo, h.slot (read + 1) _ (by omega) (by omega) hfall, hbit, if_pos hvalid]
    apply Turned.again (i := read + 1)
    · exact h.advance rfl rfl rfl (by omega) (by omega)
    · obtain ⟨n, left, hword⟩ : ∃ n left, nibbles tr.word = n :: left := ⟨_, _, rfl⟩
      refine Phase.nibble (?_ : AtNibble _ _ _ _ _ (read + 1) false [] n left _ _)
      constructor
      · rfl
      · exact hword
      · rfl
      · rfl
      · rfl
      · rfl
      · exact le_rfl
      · omega
      · simp only [Bool.false_eq_true, iff_false]
        omega
      · simpa using hfall
      · rw [hrest, hword, List.length_nil, mul_zero, add_zero, mul_one]
      · exact hidle
    · simp [Monitor.turnsLeft, hstate]
  · have hbefore : now ≤ tr.start + b := (hseen (read + 1) _ hfall).2 (by omega)
    have htimely : ¬ UInt32.ofNat maxBitLength < UInt32.ofNat now - UInt32.ofNat tr.start := by
      rw [UInt32.lt_iff_toNat_lt, toNat_ticks_sub hpast, UInt32.toNat_ofNat']
      omega
    rw [if_neg htwo, if_neg htimely]
    apply Turned.incomplete
    intro other hother
    obtain rfl : tr = other := by simpa using hother
    omega

lemma length_bits (tr : Transmission) : (tr.bits leader).length = 22 := rfl

lemma length_nibbleBits (n : ℕ) : (nibbleBits n).length = 5 := rfl

/-- The last bit of a word is the stuffing bit of its last nibble. -/
lemma getLastD_bits {tr : Transmission} {ns : List ℕ} {n : ℕ} (h : nibbles tr.word = ns ++ [n]) :
    (tr.bits leader).getLastD false = !n.testBit 0 := by
  have hbits : tr.bits leader = (leader ++ ns.flatMap nibbleBits ++ [n.testBit 3, n.testBit 2,
      n.testBit 1, n.testBit 0]) ++ [!n.testBit 0] := by
    simp [Transmission.bits, h, nibbleBits]
  rw [hbits, List.getLastD_concat]

/-- The changes in the bits of a nibble, of which the last is at the start of the stuffing bit. -/
lemma edges_nibbleBits (b t : ℕ) (level : Bool) (n : ℕ) : ∃ ds,
    LineCode.edges b t level (nibbleBits n) = ds ++ [t + b * 4] := by
  have hsplit : LineCode.edges b t level (nibbleBits n) = _ := LineCode.edges_append
    [n.testBit 3, n.testBit 2, n.testBit 1, n.testBit 0] [!n.testBit 0]
  have hchange : (!n.testBit 0) ≠ [n.testBit 3, n.testBit 2, n.testBit 1, n.testBit 0].getLastD level :=
    Bool.not_ne_self _
  rw [LineCode.edges_change hchange] at hsplit
  exact ⟨_, hsplit⟩

/-- The nibble that is last in a word is its fourth. -/
lemma length_of_nibbles {word : UInt16} {ns left : List ℕ} {n : ℕ}
    (h : nibbles word = ns ++ n :: left) : ns.length + left.length = 3 := by
  have hlen := congrArg List.length h
  rw [List.length_append, List.length_cons] at hlen
  change 4 = _ at hlen
  omega

variable {L : ℕ} {level : Bool} {ns left : List ℕ} {n : ℕ} {tr : Transmission}
  {trs : List Transmission}

namespace AtNibble

/-- What comes on the line after the nibble. -/
def rest (b : ℕ) (ns : List ℕ) (n : ℕ) (left : List ℕ) (tr : Transmission)
    (trs : List Transmission) : List ℕ :=
  LineCode.edges b (tr.start + b * (1 + 5 * ns.length) + b + b * 5) (!n.testBit 0)
    (left.flatMap nibbleBits ++ [false]) ++ wave leader b trs

lemma drop_eq (h : AtNibble b es m read written L level ns n left tr trs) : es.drop (L + 1) =
    LineCode.edges b (tr.start + b * (1 + 5 * ns.length) + b) level (nibbleBits n) ++
      rest b ns n left tr trs := by
  rw [h.coming, List.flatMap_cons, List.append_assoc, LineCode.edges_append, rest, List.append_assoc]
  rfl

lemma head_rest (h : AtNibble b es m read written L level ns n left tr trs)
    (hmax : b ≤ maxBitLength) : ∀ e ∈ (rest b ns n left tr trs).head?,
      tr.start + b * (1 + 5 * ns.length) + b + b * 5 ≤ e ∧
        e < tr.start + b * (1 + 5 * ns.length) + 2 ^ 32 := by
  have hlong : maxBitLength < 1000 := by decide
  have hrecovery : errorRecoveryTime = 6000 := rfl
  have hthree := length_of_nibbles h.word
  intro e he
  rw [rest] at he
  cases hedges : LineCode.edges b (tr.start + b * (1 + 5 * ns.length) + b + b * 5) (!n.testBit 0)
      (left.flatMap nibbleBits ++ [false]) with
  | cons d ds =>
    rw [hedges] at he
    obtain rfl : d = e := by simpa using he
    obtain ⟨hle, hlt⟩ := LineCode.bounds_of_mem (hedges ▸ List.mem_cons_self : d ∈ _)
    have hlen : (left.flatMap nibbleBits ++ [false]).length ≤ 16 := by
      rw [List.length_append, List.length_flatMap]
      simp only [length_nibbleBits, List.map_const', List.sum_replicate, smul_eq_mul,
        List.length_singleton]
      omega
    have hbits := Nat.mul_le_mul_left b hlen
    omega
  | nil =>
    cases left with
    | cons k left =>
      have hne : LineCode.edges b (tr.start + b * (1 + 5 * ns.length) + b + b * 5) (!n.testBit 0)
          (nibbleBits k) ≠ [] := by
        obtain ⟨ds, hds⟩ := edges_nibbleBits b (tr.start + b * (1 + 5 * ns.length) + b + b * 5)
          (!n.testBit 0) k
        rw [hds]
        exact List.append_ne_nil_of_right_ne_nil _ (List.cons_ne_nil _ _)
      rw [List.flatMap_cons, List.append_assoc, LineCode.edges_append] at hedges
      exact absurd (List.append_eq_nil_iff.mp hedges).1 hne
    | nil =>
      have hstuffing : (!n.testBit 0) = false := by
        by_contra htrue
        rw [Bool.not_eq_false] at htrue
        rw [htrue] at hedges
        exact absurd hedges (by simp [LineCode.edges])
      have hlast := getLastD_bits h.word
      rw [hstuffing] at hlast
      rw [hedges, List.nil_append] at he
      cases trs with
      | nil => simp [wave] at he
      | cons next trs =>
        rw [wave_cons] at he
        obtain rfl : next.start = e := by simpa using he
        obtain ⟨hlow, hclock, -⟩ := h.idle
        simp only [Transmission.lowFrom, hlast, length_bits] at hlow
        simp only [Transmission.clockFrom, hlast] at hclock
        rw [List.length_nil] at hthree
        have hnumber : ns.length = 3 := by omega
        rw [hnumber]
        simp only [Bool.false_eq_true, if_false] at hlow hclock
        omega

end AtNibble

lemma first_sample (h : b < 1000) : UInt32.ofNat b * 3 / 2 = UInt32.ofNat (b * 3 / 2) := by
  apply UInt32.toNat_inj.mp
  rw [UInt32.toNat_div, UInt32.toNat_mul, UInt32.toNat_ofNat', UInt32.toNat_ofNat']
  change b % 2 ^ 32 * 3 % 2 ^ 32 / 2 = _
  rw [Nat.mod_eq_of_lt (by omega : b < 2 ^ 32), Nat.mod_eq_of_lt (by omega : b * 3 < 2 ^ 32),
    Nat.mod_eq_of_lt (by omega)]

lemma time_of_nibble (h : b < 1000) :
    13 * UInt32.ofNat b / 2 = UInt32.ofNat (13 * b / 2) := by
  apply UInt32.toNat_inj.mp
  rw [UInt32.toNat_div, UInt32.toNat_mul, UInt32.toNat_ofNat', UInt32.toNat_ofNat']
  change 13 * (b % 2 ^ 32) % 2 ^ 32 / 2 = _
  rw [Nat.mod_eq_of_lt (by omega : b < 2 ^ 32), Nat.mod_eq_of_lt (by omega : 13 * b < 2 ^ 32),
    Nat.mod_eq_of_lt (by omega)]

/-- What follows the loop, where it has taken the bits of a nibble. -/
lemma endNibble_turned {samplePoint : UInt32}
    (h : m.Recorded es read written) (at_ : AtNibble b es m read written L level ns n left tr trs)
    {L' : ℕ} (hL' : L' = L + (LineCode.edges b (tr.start + b * (1 + 5 * ns.length) + b) level
      (nibbleBits n)).length) (hwritten : L' < written) :
    Turned b es m written now (tr :: trs) (m.endNibble {
      lastBitChangeIndex := L' % 64
      nextBitChangeIndex := (L' + 1) % 64
      samplePoint := samplePoint
      currentNibble := (nibbleBits n).foldl (fun n bit => Monitor.appendBit n bit.toUInt8) 0 }) := by
  have hle := at_.le
  have hroom := h.room
  have hthree := length_of_nibbles at_.word
  have hn : n < 16 := lt_of_mem_nibbles (w := tr.word) (by rw [at_.word]; simp)
  obtain ⟨hstuffing, hnibble⟩ := sampled_nibbleBits hn
  have hvalue : assembled ns < 16 ^ ns.length := assembled_lt fun k hk =>
    lt_of_mem_nibbles (w := tr.word) (by rw [at_.word]; exact List.mem_append_left _ hk)
  have hshort : 16 ^ ns.length ≤ 16 ^ 3 := Nat.pow_le_pow_right (by decide) (by omega)
  have hassembled : (m.valueBeingAssembled <<< 4 ||| UInt16.ofNat n).toNat =
      assembled (ns ++ [n]) := by
    rw [toNat_shiftLeft_or hn (by rw [at_.value]; omega), at_.value, assembled_concat]
  obtain ⟨ds, hds⟩ := edges_nibbleBits b (tr.start + b * (1 + 5 * ns.length) + b) level n
  have hrest : es.drop (L' + 1) = AtNibble.rest b ns n left tr trs := by
    rw [hL', add_right_comm, ← List.drop_drop, at_.drop_eq, List.drop_left]
  have hlast : es[L']? = some (tr.start + b * (1 + 5 * (ns.length + 1))) := by
    have htime : tr.start + b * (1 + 5 * ns.length) + b + b * 4 =
        tr.start + b * (1 + 5 * (ns.length + 1)) := by ring
    have hget : (es.drop (L + 1))[ds.length]? = some (tr.start + b * (1 + 5 * ns.length) + b +
        b * 4) := by
      rw [at_.drop_eq, hds, List.append_assoc, List.getElem?_append_right le_rfl, Nat.sub_self]
      rfl
    rw [List.getElem?_drop, htime] at hget
    rw [hds, List.length_append, List.length_singleton] at hL'
    rw [← hget, hL']
    congr 1
    omega
  have hparity : L' % 2 = 1 ↔ (!n.testBit 0) = true := by
    rw [hL']
    exact LineCode.parity_edges at_.parity
  rw [Monitor.endNibble]
  simp only [if_neg hstuffing, hnibble, at_.number]
  by_cases hfour : ns.length + 1 = 4
  · obtain rfl : left = [] := List.length_eq_zero_iff.mp (by omega)
    have hword : m.valueBeingAssembled <<< 4 ||| UInt16.ofNat n = tr.word := by
      apply UInt16.toNat_inj.mp
      rw [hassembled, ← at_.word, assembled_nibbles]
    have hthird : ns.length = 3 := by omega
    have hstuffed := getLastD_bits at_.word
    have hidle := at_.idle
    rw [if_pos hfour, hword]
    rw [AtNibble.rest, List.flatMap_nil, List.nil_append, hthird] at hrest
    rw [hthird] at hlast
    rw [Transmission.lowFrom, Transmission.clockFrom, hstuffed, length_bits] at hidle
    apply Turned.complete (i := L' + 1) rfl
    · exact h.advance rfl rfl rfl (by omega) (by omega)
    · cases hlevel : !n.testBit 0 with
      | true =>
        rw [hlevel, LineCode.edges_change (by decide), LineCode.edges_nil, List.singleton_append]
          at hrest
        rw [hlevel] at hidle hparity
        have htime : tr.start + b * (1 + 5 * 3) + b + b * 5 = tr.start + b * 22 := by ring
        apply Phase.falling rfl
        · have hodd := hparity.mpr rfl
          omega
        · exact hrest
        · rw [htime]
          exact hidle
      | false =>
        rw [hlevel, LineCode.edges_same, LineCode.edges_nil, List.nil_append] at hrest
        rw [hlevel] at hidle hparity
        apply Phase.low (f := tr.start + b * (1 + 5 * (3 + 1))) (l := tr.start + b * 16) rfl
        · simp only [Bool.false_eq_true, iff_false] at hparity
          omega
        · exact hlast
        · omega
        · exact hrest
        · exact hidle
    · simp only [Monitor.turnsLeft]
      split_ifs <;> omega
  · cases left with
    | nil =>
      rw [List.length_nil] at hthree
      omega
    | cons k left =>
      have htime : tr.start + b * (1 + 5 * ns.length) + b + b * 5 =
          tr.start + b * (1 + 5 * (ns ++ [n]).length) + b := by
        rw [List.length_append, List.length_singleton]
        ring
      rw [if_neg hfour]
      apply Turned.again (i := read)
      · exact h.advance rfl rfl h.readPointer le_rfl h.le
      · refine Phase.nibble (?_ : AtNibble _ _ _ _ _ L' (!n.testBit 0) (ns ++ [n]) k left _ _)
        constructor
        · exact at_.state
        · rw [at_.word, List.append_assoc, List.singleton_append]
        · rw [List.length_append, List.length_singleton]
        · exact hassembled
        · exact at_.bitLength
        · rfl
        · omega
        · exact hwritten
        · exact hparity
        · rw [List.length_append, List.length_singleton]
          exact hlast
        · rw [hrest, AtNibble.rest, htime]
        · exact at_.idle
      · rw [List.length_cons] at hthree
        simp only [Monitor.turnsLeft, at_.state, at_.number]
        omega

/-- The nibble is taken once its bits have passed, and the decoder is at what comes after it. -/
lemma turn_nibble (hmin : minBitLength ≤ b) (hmax : b ≤ maxBitLength)
    (h : m.Recorded es read written) (at_ : AtNibble b es m read written L level ns n left tr trs)
    (hseen : Seen es written now) :
    Turned b es m written now (tr :: trs) (m.turn (UInt32.ofNat now)) := by
  have hlong : maxBitLength < 1000 := by decide
  have hshort : 2 < minBitLength := by decide
  have hthree := length_of_nibbles at_.word
  have hle := at_.le
  have hn : n < 16 := lt_of_mem_nibbles (w := tr.word) (by rw [at_.word]; simp)
  obtain ⟨T, hT⟩ : ∃ T, T = tr.start + b * (1 + 5 * ns.length) := ⟨_, rfl⟩
  have hsince : es[L]? = some T := hT ▸ at_.since
  have hT' : tr.start + b ≤ T ∧ T ≤ tr.start + b * 16 := by
    rw [hT]
    have hleft := Nat.mul_le_mul_left b (by omega : 1 ≤ 1 + 5 * ns.length)
    have hright := Nat.mul_le_mul_left b (by omega : 1 + 5 * ns.length ≤ 16)
    omega
  have hpast : T ≤ now := (hseen L T hsince).1 at_.lt
  have hstart : m.edgeCaptures m.lastBitChangeIndex = UInt32.ofNat T := by
    rw [at_.place]
    exact h.slot L T (by omega) at_.lt hsince
  have hpassed := time_of_nibble (by omega : b < 1000)
  rw [Monitor.turn, at_.state]
  change Turned b es m written now (tr :: trs) (m.waitForNibble (UInt32.ofNat now))
  simp only [Monitor.waitForNibble, hstart, at_.bitLength, hpassed]
  by_cases hdue : UInt32.ofNat (13 * b / 2) < UInt32.ofNat now - UInt32.ofNat T
  · rw [if_pos hdue]
    rw [UInt32.lt_iff_toNat_lt, toNat_ticks_sub hpast, UInt32.toNat_ofNat',
      Nat.mod_eq_of_lt (by omega : 13 * b / 2 < 2 ^ 32)] at hdue
    have hnow : T + 13 * b / 2 < now := by omega
    obtain ⟨L', samplePoint, hL', hwritten, hsamples⟩ := Monitor.sampleBits_eq h
      (by omega) (by omega) at_.bitLength at_.le at_.lt at_.parity (hT ▸ at_.drop_eq)
      (v := {
        lastBitChangeIndex := m.lastBitChangeIndex
        nextBitChangeIndex := (m.lastBitChangeIndex + 1) % edgeCaptureBufferSize
        samplePoint := UInt32.ofNat b * 3 / 2
        currentNibble := 0 }) (j := 0) at_.place
      (by rw [at_.place, edgeCaptureBufferSize, Nat.mod_add_mod]) (by
        rw [mul_zero, add_zero]
        exact first_sample (by omega)) (by ring) (by rw [length_nibbleBits])
      (by
        rw [length_nibbleBits, hT]
        exact at_.head_rest hmax)
      (fun i e he hlt => by
        by_contra hnot
        have hafter := (hseen i e he).2 (by omega)
        omega)
    rw [length_nibbleBits] at hsamples
    rw [hsamples]
    exact endNibble_turned h at_ (hT ▸ hL') hwritten
  · rw [if_neg hdue]
    rw [UInt32.lt_iff_toNat_lt, toNat_ticks_sub hpast, UInt32.toNat_ofNat',
      Nat.mod_eq_of_lt (by omega : 13 * b / 2 < 2 ^ 32)] at hdue
    apply Turned.incomplete
    intro other hother
    obtain rfl : tr = other := by simpa using hother
    omega

lemma Phase.turned (hmin : minBitLength ≤ b) (hmax : b ≤ maxBitLength)
    (h : m.Recorded es read written) (hphase : Phase b es m read written todo)
    (hseen : Seen es written now) : Turned b es m written now todo (m.turn (UInt32.ofNat now)) := by
  cases hphase with
  | falling state parity coming idle => exact turn_falling h state parity coming idle hseen
  | low state parity since le coming idle => exact turn_low h state parity since le coming idle hseen
  | startBit state parity lt coming idle =>
    exact turn_startBit hmin hmax h state parity lt coming idle hseen
  | nibble at_ => exact turn_nibble hmin hmax h at_ hseen

/-- The decoder is where it was when more changes are recorded. -/
lemma Phase.recorded (hphase : Phase b es m read written todo) (edgeCaptures : ℕ → UInt32)
    (writePointer : ℕ) : Phase b es { m with
      edgeCaptures := edgeCaptures
      edgeCaptureWritePointer := writePointer } read (written + 1) todo := by
  cases hphase with
  | falling state parity coming idle => exact Phase.falling state parity coming idle
  | low state parity since le coming idle => exact Phase.low state parity since le coming idle
  | startBit state parity lt coming idle => exact Phase.startBit state parity (by omega) coming idle
  | nibble at_ =>
    apply Phase.nibble
    exact { at_ with lt := at_.lt.trans (Nat.lt_succ_self _) }

/-! ### The line -/

lemma le_lowFrom {e : ℕ} (h : e ∈ tr.edges leader b) : tr.start ≤ e ∧ e ≤ tr.lowFrom leader b := by
  rw [Transmission.edges, LineCode.edges_append, length_bits] at h
  rw [Transmission.lowFrom, length_bits]
  cases hlast : (tr.bits leader).getLastD false with
  | true =>
    rw [hlast] at h
    simp only [if_true]
    cases List.mem_append.mp h with
    | inl h =>
      have hbound := LineCode.bounds_of_mem h
      rw [length_bits] at hbound
      omega
    | inr h =>
      have hbound := LineCode.bounds_of_mem h
      rw [List.length_singleton] at hbound
      omega
  | false =>
    rw [hlast, LineCode.edges_same, LineCode.edges_nil, List.append_nil] at h
    have hbound := LineCode.bounds_of_mem h
    rw [length_bits] at hbound
    simp only [Bool.false_eq_true, if_false]
    omega

lemma Idle.sorted {since : Transmission → ℕ} {low last : ℕ}
    (h : Idle leader b since low last trs) :
    (∀ e ∈ wave leader b trs, low ≤ e) ∧ (wave leader b trs).Pairwise (· ≤ ·) := by
  induction trs generalizing low last with
  | nil => exact ⟨fun e he => absurd he List.not_mem_nil, List.Pairwise.nil⟩
  | cons tr trs ih =>
    obtain ⟨hlow, -, hidle⟩ := h
    obtain ⟨hafter, hsorted⟩ := ih hidle
    have hown : ∀ e ∈ tr.edges leader b, low ≤ e ∧ e ≤ tr.lowFrom leader b := by
      intro e he
      have hbound := le_lowFrom he
      omega
    constructor
    · intro e he
      cases List.mem_append.mp he with
      | inl he => exact (hown e he).1
      | inr he =>
        have hrise : tr.start ∈ tr.edges leader b := by
          rw [edges_transmission]
          exact List.mem_cons_self
        exact (hown _ hrise).1.trans ((hown _ hrise).2.trans (hafter e he))
    · apply List.pairwise_append.mpr
      exact ⟨LineCode.sorted_edges, hsorted, fun d hd e he => (hown d hd).2.trans (hafter e he)⟩

lemma le_of_sorted (h : es.Pairwise (· ≤ ·)) {i j d e : ℕ} (hd : es[i]? = some d)
    (he : es[j]? = some e) (hij : i ≤ j) : d ≤ e := by
  obtain ⟨hi, rfl⟩ := List.getElem?_eq_some_iff.mp hd
  obtain ⟨hj, rfl⟩ := List.getElem?_eq_some_iff.mp he
  cases Nat.eq_or_lt_of_le hij with
  | inl heq => simp only [heq, le_refl]
  | inr hlt => exact List.pairwise_iff_getElem.mp h i j hi hj hlt

namespace Line

structure Inv (b : ℕ) (es : List ℕ) (sent : List Transmission) (s : Line) (read written : ℕ)
    (todo : List Transmission) : Prop where
  recorded : s.monitor.Recorded es read written
  coming : es.drop written = s.coming
  high : s.high = (written % 2 == 0)
  seen : Seen es written s.clock
  phase : Phase b es s.monitor read written todo
  words : ∃ taken, sent = taken ++ todo ∧ s.words = taken.map Transmission.word
  noError : .error ∉ s.results
  turns : s.turns + s.monitor.turnsLeft ≤ 7

variable {sent : List Transmission} {s : Line}

lemma inv_start {t₀ : ℕ} {ts : List Transmission}
    (h : Idle leader b (Transmission.clockFrom b) t₀ t₀ ts) (m : Monitor) :
    Inv b (t₀ :: wave leader b ts) ts (start leader b t₀ ts m) 1 1 ts where
  recorded := Monitor.recorded_initReceiveBuffer t₀ _ m
  coming := rfl
  high := rfl
  seen := by
    intro i e he
    constructor
    · intro hi
      obtain rfl : i = 0 := by omega
      obtain rfl : t₀ = e := by simpa using he
      exact le_rfl
    · intro hi
      obtain ⟨k, rfl⟩ : ∃ k, i = k + 1 := ⟨i - 1, by omega⟩
      rw [List.getElem?_cons_succ] at he
      exact h.sorted.1 e (List.mem_of_getElem? he)
  phase := Phase.low rfl rfl rfl le_rfl rfl h
  words := ⟨[], rfl, rfl⟩
  noError := List.not_mem_nil
  turns := by
    change 0 + (if 1 % 2 = 0 then 7 else 6) ≤ 7
    decide

lemma Inv.interrupt (h : Inv b es sent s read written todo) (hsorted : es.Pairwise (· ≤ ·))
    {steps : Bool} (hok : s.ok (.interrupt steps)) :
    Inv b es sent (s.step (.interrupt steps)) read (written + 1) todo := by
  obtain ⟨hcoming, hfull⟩ := hok
  obtain ⟨e, coming, hsplit⟩ := List.exists_cons_of_ne_nil hcoming
  have hdrop := h.coming
  rw [hsplit] at hdrop
  have hfirst : es[written]? = some e := by rw [← List.head?_drop, hdrop, List.head?_cons]
  have hflip : (!s.high) = (written % 2 == 1) := by
    rw [h.high]
    rcases Nat.mod_two_eq_zero_or_one written with hmod | hmod <;> simp [hmod]
  simp only [step, hsplit, Monitor.interrupt_eq h.recorded hfull hflip]
  constructor
  · exact h.recorded.interrupt hfull hfirst
  · rw [← List.tail_drop, hdrop, List.tail_cons]
  · rw [hflip]
    rcases Nat.mod_two_eq_zero_or_one written with hmod | hmod <;> simp [hmod, Nat.add_mod]
  · intro i d hd
    exact ⟨fun hi => le_of_sorted hsorted hd hfirst (by omega),
      fun hi => le_of_sorted hsorted hfirst hd (by omega)⟩
  · exact h.phase.recorded _ _
  · exact h.words
  · exact h.noError
  · exact h.turns

lemma Inv.seen_at (h : Inv b es sent s read written todo) (hsorted : es.Pairwise (· ≤ ·))
    (hok : s.ok (.turn now)) : Seen es written now := by
  obtain ⟨hclock, hhead⟩ := hok
  intro i e he
  constructor
  · intro hi
    exact ((h.seen i e he).1 hi).trans hclock
  · intro hi
    obtain ⟨hlt, -⟩ := List.getElem?_eq_some_iff.mp he
    have hfirst : es[written]? = some es[written] := List.getElem?_eq_getElem _
    rw [← h.coming, List.head?_drop] at hhead
    exact (hhead _ hfirst).trans (le_of_sorted hsorted hfirst he hi)

lemma Inv.turn (hmin : minBitLength ≤ b) (hmax : b ≤ maxBitLength)
    (h : Inv b es sent s read written todo) (hsorted : es.Pairwise (· ≤ ·))
    (hok : s.ok (.turn now)) :
    ∃ read todo, Inv b es sent (s.step (.turn now)) read written todo := by
  have hseen := h.seen_at hsorted hok
  have hturned := h.phase.turned hmin hmax h.recorded hseen
  have hturns := h.turns
  rw [step]
  cases hresult : s.monitor.turn (UInt32.ofNat now) with
  | mk result m' =>
    rw [hresult] at hturned
    cases hturned with
    | again recorded phase left =>
      refine ⟨_, todo, recorded, h.coming, h.high, hseen, phase, h.words, h.noError, ?_⟩
      change s.turns + 1 + m'.turnsLeft ≤ 7
      omega
    | incomplete notYet =>
      refine ⟨read, todo, h.recorded, h.coming, h.high, hseen, h.phase, ?_, ?_, ?_⟩
      · simpa [Line.words] using h.words
      · simpa using h.noError
      · change 0 + s.monitor.turnsLeft ≤ 7
        omega
    | complete next recorded phase left =>
      rename_i read' tr trs
      refine ⟨read', trs, recorded, h.coming, h.high, hseen, phase, ?_, ?_, ?_⟩
      · obtain ⟨taken, hsent, hwords⟩ := h.words
        refine ⟨taken ++ [tr], by rw [hsent, next, List.append_assoc]; rfl, ?_⟩
        rw [List.map_append, ← hwords]
        simp [Line.words]
      · simpa using h.noError
      · change 0 + m'.turnsLeft ≤ 7
        omega

lemma Inv.run (hmin : minBitLength ≤ b) (hmax : b ≤ maxBitLength)
    (h : Inv b es sent s read written todo) (hsorted : es.Pairwise (· ≤ ·)) {events : List Event}
    (hok : Along step ok s events) :
    ∃ read written todo, Inv b es sent (run step s events) read written todo := by
  apply run_invariant (P := fun s => ∃ read written todo, Inv b es sent s read written todo)
    ⟨read, written, todo, h⟩ _ hok
  rintro s event ⟨read, written, todo, h⟩ hok
  cases event with
  | interrupt steps => exact ⟨read, written + 1, todo, h.interrupt hsorted hok⟩
  | turn now =>
    obtain ⟨read, todo, h⟩ := h.turn hmin hmax hsorted hok
    exact ⟨read, written, todo, h⟩

end Line

def busyMonitor : Monitor where
  edgeCaptures := fun _ => 7
  edgeCaptureReadPointer := 3
  edgeCaptureWritePointer := 5
  startBitLength := 0
  lastBitChangeIndex := 0
  valueBeingAssembled := 0
  nibblesAssembled := 0
  state := .errorRecovery1
  overrunErrorCount := 0
  polarityErrorCount := 0

def changes (n : ℕ) : List Event := List.replicate n (.interrupt false)

end RepRapFirmware.FilamentMonitors
