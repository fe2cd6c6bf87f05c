import RepRapFirmware.GCodes.GCodeInput
import RepRapFirmware.Library.Runs

/-! The bytes that the ring buffer of an input holds, as a list. -/

namespace RepRapFirmware.GCodes.GCodeInput

open StringParser Library Library.Runs

namespace RegularGCodeInput

def cached (i : RegularGCodeInput) : List UInt8 :=
  Ring.contents gcodeInputBufferSize i.buffer i.readingPointer i.bytesCached

structure InRing (i : RegularGCodeInput) : Prop where
  reading : i.readingPointer < gcodeInputBufferSize
  writing : i.writingPointer < gcodeInputBufferSize

variable {i : RegularGCodeInput}

@[simp] lemma cached_length (i : RegularGCodeInput) : i.cached.length = i.bytesCached :=
  Ring.contents_length _ _ _

@[simp] lemma bytesCached_reset (i : RegularGCodeInput) : i.reset.bytesCached = 0 := by
  simp [bytesCached, reset]

@[simp] lemma cached_reset (i : RegularGCodeInput) : i.reset.cached = [] := by
  simp [cached]

lemma inRing_reset (i : RegularGCodeInput) : InRing i.reset :=
  ⟨Nat.zero_lt_succ 255, Nat.zero_lt_succ 255⟩

lemma next_place {p : ℕ} (h : p < gcodeInputBufferSize) :
    (if p + 1 = gcodeInputBufferSize then 0 else p + 1) = (p + 1) % gcodeInputBufferSize := by
  by_cases hp : p + 1 = gcodeInputBufferSize
  · rw [if_pos hp, hp, Nat.mod_self]
  · rw [if_neg hp, Nat.mod_eq_of_lt (by omega)]

lemma bytesCached_lt (i : RegularGCodeInput) : i.bytesCached < gcodeInputBufferSize :=
  Nat.mod_lt _ (by decide)

lemma space_add_cached (h : InRing i) : i.bufferSpaceLeft + i.bytesCached = 255 := by
  obtain ⟨hr, hw⟩ := h
  simp only [bufferSpaceLeft, bytesCached, gcodeInputBufferSize] at *
  omega

/-- The place behind the last byte in the ring. -/
lemma writing_place (h : InRing i) :
    (i.readingPointer + i.bytesCached) % gcodeInputBufferSize = i.writingPointer := by
  obtain ⟨hr, hw⟩ := h
  simp only [bytesCached, gcodeInputBufferSize] at *
  omega

lemma readByte_spec (h : InRing i) (hc : i.bytesCached ≠ 0) :
    i.cached = i.readByte.1 :: i.readByte.2.cached ∧ InRing i.readByte.2 := by
  obtain ⟨hr, hw⟩ := h
  have hplace : i.readByte.2.readingPointer = (i.readingPointer + 1) % gcodeInputBufferSize :=
    next_place hr
  have hcount : i.bytesCached = i.readByte.2.bytesCached + 1 := by
    unfold bytesCached
    rw [hplace]
    change _ = (i.writingPointer + _ - _) % _ + 1
    simp only [bytesCached, gcodeInputBufferSize] at *
    omega
  constructor
  · rw [cached, hcount, Ring.contents_succ, Nat.mod_eq_of_lt hr, ← Ring.contents_wrap _ (_ + 1),
      ← hplace]
    rfl
  · refine ⟨?_, hw⟩
    rw [hplace]
    exact Nat.mod_lt _ (Nat.zero_lt_succ 255)

lemma store_spec (h : InRing i) (hs : i.bufferSpaceLeft ≠ 0) (c : UInt8) :
    (i.store c).cached = i.cached ++ [c] ∧ InRing (i.store c) := by
  have hspace := space_add_cached h
  have hplace := writing_place h
  obtain ⟨hr, hw⟩ := h
  have hnext : (i.store c).writingPointer = (i.writingPointer + 1) % gcodeInputBufferSize :=
    next_place hw
  have hcount : (i.store c).bytesCached = i.bytesCached + 1 := by
    unfold bytesCached
    rw [hnext]
    change (_ + _ - i.readingPointer) % _ = _
    simp only [bytesCached, bufferSpaceLeft, gcodeInputBufferSize] at *
    omega
  constructor
  · rw [cached, hcount]
    have hlt : i.bytesCached < gcodeInputBufferSize := bytesCached_lt i
    have := Ring.contents_push i.buffer c (r := i.readingPointer) hlt
    rw [hplace] at this
    exact this
  · refine ⟨hr, ?_⟩
    rw [hnext]
    exact Nat.mod_lt _ (Nat.zero_lt_succ 255)

end RegularGCodeInput

open RegularGCodeInput

/-- The only three things that the scanner does to a channel. -/
lemma check_cases (s : Channel) (c : UInt8) :
    (∃ st, (checkForUrgentCommand s c).1 = enter s st ∧
      handled (checkForUrgentCommand s c).2 = false) ∨
    checkForUrgentCommand s c =
      ({ s.resetBuffer with input := s.input.reset }, some .emergencyStop) ∨
    checkForUrgentCommand s c = ({ s with input := s.input.reset }, some .diagnostics) := by
  have hsame : s = enter s s.input.state := rfl
  unfold checkForUrgentCommand
  split
  · exact Or.inl ⟨_, hsame, rfl⟩
  · split
    case h_9 =>
      split
      · exact Or.inr (Or.inl rfl)
      · exact Or.inl ⟨_, rfl, rfl⟩
    case h_10 =>
      split
      · exact Or.inr (Or.inr rfl)
      · exact Or.inl ⟨_, rfl, rfl⟩
    case h_8 =>
      refine Or.inl ⟨_, rfl, ?_⟩
      dsimp only
      split <;> rfl
    case h_1 | h_2 =>
      split
      · exact Or.inl ⟨_, rfl, rfl⟩
      · exact Or.inl ⟨_, hsame, rfl⟩
    all_goals exact Or.inl ⟨_, rfl, rfl⟩

/-! ### The bytes of a device read -/

namespace BufferedStream

/-- The ring holds `before`, and behind it `bytes` are in the buffer, up to its end at most. -/
structure Loaded (i : RegularGCodeInput) (before bytes : List UInt8) : Prop where
  reading : i.readingPointer < gcodeInputBufferSize
  place : (i.readingPointer + before.length) % gcodeInputBufferSize =
    i.writingPointer % gcodeInputBufferSize
  fits : i.writingPointer + bytes.length ≤ gcodeInputBufferSize
  room : before.length + bytes.length < gcodeInputBufferSize
  held : Ring.contents gcodeInputBufferSize i.buffer i.readingPointer before.length = before
  loaded : ∀ j (h : j < bytes.length), i.buffer (i.writingPointer + j) = bytes[j]

variable {i : RegularGCodeInput} {before bytes : List UInt8} {c : UInt8}

lemma Loaded.head (h : Loaded i before (c :: bytes)) : i.buffer i.writingPointer = c :=
  h.loaded 0 (by simp)

lemma Loaded.next (h : Loaded i before (c :: bytes)) :
    Loaded { i with writingPointer := i.writingPointer + 1 } (before ++ [c]) bytes := by
  have hfits := h.fits
  have hroom := h.room
  have hplace := h.place
  simp only [List.length_cons] at hfits hroom
  have hw : (i.readingPointer + before.length) % gcodeInputBufferSize = i.writingPointer := by
    rw [hplace, Nat.mod_eq_of_lt (by omega)]
  refine ⟨h.reading, ?_, ?_, ?_, ?_, ?_⟩
  · rw [List.length_append, List.length_singleton, ← Nat.add_assoc, Nat.add_mod, hplace,
      ← Nat.add_mod]
  · simpa using by omega
  · simpa using by omega
  · rw [List.length_append, List.length_singleton, Ring.contents_concat, h.held, hw, h.head]
  · intro j hj
    have := h.loaded (j + 1) (by simpa using hj)
    simpa [Nat.add_assoc, Nat.add_comm 1 j] using this

lemma Loaded.done (h : Loaded i before []) :
    let i' := if i.writingPointer = gcodeInputBufferSize then { i with writingPointer := 0 } else i
    InRing i' ∧ i'.cached = before := by
  have hr := h.reading
  have hplace := h.place
  have hfits := h.fits
  have hroom := h.room
  have hheld := h.held
  simp only [List.length_nil, Nat.add_zero] at hfits hroom
  by_cases hw : i.writingPointer = gcodeInputBufferSize
  · simp only [hw, if_true, Nat.mod_self] at hplace ⊢
    have hcount : ({ i with writingPointer := 0 } : RegularGCodeInput).bytesCached =
        before.length := by
      simp only [RegularGCodeInput.bytesCached, gcodeInputBufferSize] at *
      omega
    exact ⟨⟨hr, Nat.zero_lt_succ 255⟩, by rw [cached, hcount]; exact hheld⟩
  · simp only [hw, if_false]
    rw [Nat.mod_eq_of_lt (by omega : i.writingPointer < _)] at hplace
    have hcount : i.bytesCached = before.length := by
      simp only [RegularGCodeInput.bytesCached, gcodeInputBufferSize] at *
      omega
    exact ⟨⟨hr, by omega⟩, by rw [cached, hcount]; exact hheld⟩

/-- All the bytes are taken in at once. -/
lemma Loaded.commit (h : Loaded i before bytes) :
    let i' := { i with
      writingPointer := (i.writingPointer + bytes.length) % gcodeInputBufferSize }
    InRing i' ∧ i'.cached = before ++ bytes := by
  induction bytes generalizing i before with
  | nil =>
    have hdone := h.done
    have hfits := h.fits
    simp only [List.length_nil, Nat.add_zero, List.append_nil] at hfits ⊢
    split at hdone
    case isTrue hp => rwa [hp, Nat.mod_self]
    case isFalse hp => rwa [Nat.mod_eq_of_lt (by omega)]
  | cons c bytes ih =>
    have hrest := ih h.next
    rwa [List.append_assoc, Nat.add_right_comm] at hrest

/-- The bytes behind a handled command are all that the ring holds. -/
lemma Loaded.moved (h : Loaded i before (c :: bytes)) (st : GCodeInputState) (wf : Bool) :
    let i' : RegularGCodeInput :=
      { state := st, writingFile := wf, writingPointer := bytes.length, readingPointer := 0
        buffer := memmove i.buffer (i.writingPointer + 1) bytes.length }
    InRing i' ∧ i'.cached = bytes := by
  have hroom := h.room
  simp only [List.length_cons] at hroom
  have hlt : bytes.length < gcodeInputBufferSize := by omega
  refine ⟨⟨Nat.zero_lt_succ 255, hlt⟩, ?_⟩
  have hcount : (bytes.length + gcodeInputBufferSize - 0) % gcodeInputBufferSize = bytes.length :=
      by
    rw [Nat.sub_zero, Nat.add_mod_right, Nat.mod_eq_of_lt hlt]
  rw [cached, RegularGCodeInput.bytesCached, hcount,
    Ring.contents_block _ ((Nat.zero_add _).trans_le hlt.le)]
  apply List.ext_getElem (by simp)
  intro j hj hj'
  have := h.loaded (j + 1) (by simpa using hj')
  simp only [List.getElem_map, List.getElem_range, Nat.zero_add, memmove, hj', if_true]
  simpa [Nat.add_assoc, Nat.add_comm 1 j] using this

lemma Loaded.log_behind (h : Loaded i before (c :: bytes)) :
    (List.range bytes.length).map (fun j =>
      (⟨i.buffer (i.writingPointer + 1 + j), .behind⟩ : Received)) =
        bytes.map (⟨·, .behind⟩) := by
  apply List.ext_getElem (by simp)
  intro j hj hj'
  have hj : j < bytes.length := by simpa using hj
  have := h.loaded (j + 1) (by simpa using hj)
  simp only [List.getElem_map, List.getElem_range]
  rw [Nat.add_assoc, Nat.add_comm 1 j, this]
  simp

lemma loaded_readBytes (h : InRing i) (hspace : bytes.length ≤ i.bufferSpaceLeft)
    (hend : bytes.length ≤ gcodeInputBufferSize - i.writingPointer) :
    Loaded { i with buffer := readBytes i.buffer i.writingPointer bytes } i.cached bytes := by
  have hsum := space_add_cached h
  have hplace := writing_place h
  obtain ⟨hr, hw⟩ := h
  refine ⟨hr, ?_, ?_, ?_, ?_, ?_⟩
  · rw [cached_length, hplace, Nat.mod_eq_of_lt hw]
  · change i.writingPointer + _ ≤ _
    omega
  · rw [cached_length]
    simp only [gcodeInputBufferSize] at *
    omega
  · rw [cached_length]
    apply Ring.contents_congr
    intro j hj
    -- The bytes in use lie before the place where the device writes, or behind it.
    have hout : ¬ (i.writingPointer ≤ (i.readingPointer + j) % gcodeInputBufferSize ∧
        (i.readingPointer + j) % gcodeInputBufferSize < i.writingPointer + bytes.length) := by
      simp only [RegularGCodeInput.bytesCached, gcodeInputBufferSize] at *
      omega
    simp [readBytes, hout]
  · intro j hj
    have hin : i.writingPointer ≤ i.writingPointer + j ∧
        i.writingPointer + j < i.writingPointer + bytes.length := by omega
    simp [readBytes, hj]

end BufferedStream

/-! ### What comes in is what was sent -/

@[simp] lemma discardPartialLine_input (s : Channel) :
    s.discardPartialLine.input = s.input := rfl

lemma check_ring {s : Channel} (h : InRing s.input) (c : UInt8) :
    InRing (checkForUrgentCommand s c).1.input := by
  rcases check_cases s c with ⟨st, hs, -⟩ | hs | hs
  · rw [hs]
    exact ⟨h.reading, h.writing⟩
  · rw [hs]
    exact inRing_reset _
  · rw [hs]
    exact inRing_reset _

lemma inRing_store {i : RegularGCodeInput} (h : InRing i) (c : UInt8) : InRing (i.store c) := by
  refine ⟨h.reading, ?_⟩
  change (if i.writingPointer + 1 = gcodeInputBufferSize then 0 else i.writingPointer + 1) < _
  rw [next_place h.writing]
  exact Nat.mod_lt _ (Nat.zero_lt_succ 255)

lemma putChars_ring {s : Channel} (h : InRing s.input) (cs : List UInt8) :
    InRing (Network.putChars cs s).1.input ∧
      (Network.putChars cs s).2.map Received.byte = cs := by
  induction cs generalizing s with
  | nil => exact ⟨h, rfl⟩
  | cons c cs ih =>
    have hone : InRing (Network.putChar s c).1.input ∧
        (Network.putChar s c).2.map Received.byte = [c] := by
      have hc := check_ring h c
      rw [Network.putChar]
      generalize checkForUrgentCommand s c = checked at hc ⊢
      split
      · exact ⟨h, rfl⟩
      · dsimp only
        split
        · exact ⟨hc, rfl⟩
        · exact ⟨inRing_store hc c, rfl⟩
    rw [Network.putChars]
    generalize Network.putChar s c = first at hone ⊢
    obtain ⟨s', log⟩ := first
    dsimp only at hone ⊢
    have hrest := ih hone.1
    generalize Network.putChars cs s' = rest at hrest ⊢
    refine ⟨hrest.1, ?_⟩
    rw [List.map_append, hone.2, hrest.2]
    rfl

lemma spinLoop_ring {endPointer n : ℕ} {s : Channel} {before bytes : List UInt8}
    (hn : bytes.length = n) (hend : endPointer = s.input.writingPointer + n)
    (h : BufferedStream.Loaded s.input before bytes) :
    InRing (BufferedStream.spinLoop endPointer n s).1.input ∧
      (BufferedStream.spinLoop endPointer n s).2.map Received.byte = bytes := by
  induction n generalizing s before bytes with
  | zero =>
    obtain rfl : bytes = [] := List.length_eq_zero_iff.mp hn
    have hring := h.done.1
    rw [BufferedStream.spinLoop]
    refine ⟨?_, rfl⟩
    split
    case isTrue hp => rwa [if_pos hp] at hring
    case isFalse hp => rwa [if_neg hp] at hring
  | succ n ih =>
    obtain ⟨c, bytes, rfl⟩ : ∃ c bs, bytes = c :: bs := List.exists_cons_of_length_eq_add_one hn
    have hn : bytes.length = n := by simpa using hn
    have hremaining : endPointer - s.input.writingPointer - 1 = bytes.length := by omega
    have hcases := check_cases s c
    rw [BufferedStream.spinLoop, h.head]
    generalize checkForUrgentCommand s c = checked at hcases ⊢
    obtain ⟨s', u⟩ := checked
    dsimp only at hcases ⊢
    by_cases hu : handled u = true
    · have hin : s'.input = s.input.reset := by
        rcases hcases with ⟨st, rfl, hf⟩ | hs | hs
        · simp [hu] at hf
        · rw [Prod.mk.injEq] at hs
          rw [hs.1]
        · rw [Prod.mk.injEq] at hs
          rw [hs.1]
      rw [if_pos hu, hremaining, h.log_behind]
      split
      · have hmoved := (h.moved s.input.reset.state s.input.reset.writingFile).1
        refine ⟨?_, by simp [received, Function.comp_def]⟩
        rw [discardPartialLine_input, hin]
        exact ⟨hmoved.reading, hmoved.writing⟩
      · refine ⟨?_, by simp [received, Function.comp_def]⟩
        rw [discardPartialLine_input, hin]
        exact inRing_reset _
    · obtain ⟨st, rfl⟩ : ∃ st, s' = enter s st := by
        rcases hcases with ⟨st, hst, -⟩ | hs | hs
        · exact ⟨st, hst⟩
        · simp [Prod.mk.injEq] at hs
          simp [hs, handled] at hu
        · simp [Prod.mk.injEq] at hs
          simp [hs, handled] at hu
      rw [if_neg hu]
      have hnext := h.next
      obtain ⟨hr, hb⟩ := ih (s := { enter s st with input := { (enter s st).input with
          writingPointer := s.input.writingPointer + 1 } }) hn
        (by change endPointer = s.input.writingPointer + 1 + n; omega)
        ⟨hnext.reading, hnext.place, hnext.fits, hnext.room, hnext.held, hnext.loaded⟩
      refine ⟨hr, ?_⟩
      rw [List.map_cons, hb]
      rfl

lemma fillLoop_ring {n : ℕ} {s : Channel} (hn : n ≤ s.input.bytesCached) (h : InRing s.input) :
    InRing (fillLoop n s).1.input := by
  induction n generalizing s with
  | zero => exact h
  | succ n ih =>
    obtain ⟨hcached, hring⟩ := readByte_spec h (by omega)
    have hcount : s.input.bytesCached = s.input.readByte.2.bytesCached + 1 := by
      rw [← cached_length, hcached, List.length_cons, cached_length]
    rw [fillLoop]
    generalize s.input.readByte = next at hcount hring ⊢
    obtain ⟨c, i⟩ := next
    dsimp only at hcount hring ⊢
    split
    · split
      · apply ih (s := writeToFile _)
        · change n ≤ i.bytesCached
          omega
        · exact ⟨hring.reading, hring.writing⟩
      · exact hring
    · apply ih (s := Channel.mk _ _ _)
      · change n ≤ i.bytesCached
        omega
      · exact hring

lemma bytesCached_le (k : Kind) (i : RegularGCodeInput) :
    GCodeInput.bytesCached k i ≤ i.bytesCached := by
  cases k with
  | network => exact le_rfl
  | buffered =>
    simp only [GCodeInput.bytesCached, BufferedStream.bytesCached]
    split_ifs <;> omega

/-- The bytes that the event brings: of a string all or nothing, of a device what there is room
for. The closing of the port is marked by a null. -/
def delivered (s : Channel) : {k : Kind} → Event k → List UInt8
  | _, .put buf acquired =>
    if acquired ∧ (Network.terminated buf).length ≤ s.input.bufferSpaceLeft then
      Network.terminated buf else []
  | _, .spin available =>
    if gcodeInputUSBReadThreshold ≤ s.input.bufferSpaceLeft then
      available.take (min s.input.bufferSpaceLeft (gcodeInputBufferSize - s.input.writingPointer))
    else []
  | _, .unplugged available => available ++ [0]
  | _, _ => []

lemma act_ring {k : Kind} {s : Channel} (h : InRing s.input) (e : Event k) :
    InRing (act s e).1.input ∧ (act s e).2.1.map Received.byte = delivered s e := by
  cases e with
  | put buf acquired =>
    simp only [act, Network.put, delivered]
    split
    · exact putChars_ring h _
    · exact ⟨h, rfl⟩
  | spin available =>
    simp only [act, BufferedStream.spin, delivered]
    split
    · have hlen := List.length_take_le (min s.input.bufferSpaceLeft
        (gcodeInputBufferSize - s.input.writingPointer)) available
      exact spinLoop_ring (s := { s with input := { s.input with buffer := _ } }) rfl rfl
        (BufferedStream.loaded_readBytes h (hlen.trans (min_le_left _ _))
          (hlen.trans (min_le_right _ _)))
    · exact ⟨h, rfl⟩
  | unplugged available =>
    simp only [act, BufferedStream.unplugged, delivered]
    refine ⟨?_, by simp [Function.comp_def]⟩
    split
    · exact inRing_reset _
    · exact h
  | fillBuffer =>
    simp only [act, GCodeInput.fillBuffer, delivered]
    split
    · exact ⟨h, rfl⟩
    · have := fillLoop_ring (bytesCached_le k s.input) h
      split <;> exact ⟨this, rfl⟩
  | setFinished f =>
    simp only [act, delivered]
    split <;> exact ⟨h, rfl⟩
  | setWritingFile wf => exact ⟨⟨h.reading, h.writing⟩, rfl⟩
  | configure cnc checksumRequired crcRequired => exact ⟨h, rfl⟩

lemma inRing_run {k : Kind} (buffer : ℕ → UInt8) (es : List (Event k)) :
    InRing (run step (start buffer) es).channel.input := by
  refine invariant (P := fun s : System => InRing s.channel.input) ?_ ?_ es
  · exact ⟨Nat.zero_lt_succ 255, Nat.zero_lt_succ 255⟩
  · intro s e h
    exact (act_ring h e).1

/-- The stream of a run is all that the events brought, in their order. -/
theorem stream_eq {k : Kind} (buffer : ℕ → UInt8) (es : List (Event k)) :
    (run step (start buffer) es).stream.map Received.byte =
      collect step (fun s e => delivered s.channel e) (start buffer) es := by
  have hgen : ∀ (es : List (Event k)) (s : System), InRing s.channel.input →
      (run step s es).stream.map Received.byte =
        s.stream.map Received.byte ++ collect step (fun s e => delivered s.channel e) s es := by
    intro es
    induction es with
    | nil => simp [collect]
    | cons e es ih =>
      intro s h
      obtain ⟨hring, hbytes⟩ := act_ring h e
      rw [run_cons, ih (step s e) hring, collect, ← hbytes, ← List.append_assoc]
      simp [step]
  simpa [start] using hgen es (start buffer) ⟨Nat.zero_lt_succ 255, Nat.zero_lt_succ 255⟩

end RepRapFirmware.GCodes.GCodeInput
