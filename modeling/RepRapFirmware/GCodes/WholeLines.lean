import RepRapFirmware.GCodes.Caching
import RepRapFirmware.Library.Runs

/-! Which lines of the received stream an input hands to its G-code buffer. -/

namespace RepRapFirmware.GCodes.WholeLines

open StringParser GCodeInput RegularGCodeInput Library.Runs

/-! ### The lines of a stream -/

def passedOn (r : Received) : Bool :=
  match r.fate with
  | .heard u => !handled u
  | .data | .behind => true
  | .dropped | .lost | .closed _ => false

def addByte (p : List (List UInt8) × List UInt8) (r : Received) : List (List UInt8) × List UInt8 :=
  if endsLine r.byte then (if passedOn r then p.1 ++ [p.2] else p.1, [])
  else (p.1, p.2 ++ [r.byte])

/-- The complete lines whose end is passed on, and the unfinished line. -/
def splitLines (stream : List Received) : List (List UInt8) × List UInt8 :=
  stream.foldl addByte ([], [])

/-- The complete lines of a stream, apart from those that are handled as urgent commands. -/
def ordinary (stream : List Received) : List (List UInt8) := (splitLines stream).1

lemma splitLines_concat (stream : List Received) (r : Received) :
    splitLines (stream ++ [r]) = addByte (splitLines stream) r := by
  rw [splitLines, List.foldl_append]
  rfl

lemma foldl_addByte (lines : List (List UInt8)) (line : List UInt8) (stream : List Received) :
    stream.foldl addByte (lines, line) =
      (lines ++ (stream.foldl addByte ([], line)).1, (stream.foldl addByte ([], line)).2) := by
  induction stream generalizing lines line with
  | nil => simp
  | cons r stream ih =>
    simp only [List.foldl_cons, addByte]
    split
    · rw [ih, ih (if passedOn r = true then [] ++ [line] else [])]
      split <;> simp
    · rw [ih]

lemma ordinary_append {done rest : List Received} (h : (splitLines done).2 = []) :
    ordinary (done ++ rest) = ordinary done ++ ordinary rest := by
  have hdone : splitLines done = (ordinary done, []) := Prod.ext rfl h
  have := foldl_addByte (ordinary done) [] rest
  rw [← hdone] at this
  rw [ordinary, splitLines, List.foldl_append]
  exact congrArg Prod.fst this

/-- One line of bytes that are passed on. -/
lemma splitLines_line {rest : List Received} {line : List UInt8} {c : UInt8}
    (hbytes : rest.map Received.byte = line ++ [c]) (hline : ∀ b ∈ line, endsLine b = false)
    (hc : endsLine c = true) (hpassed : ∀ r ∈ rest, passedOn r = true) :
    splitLines rest = ([line], []) := by
  have hgrow : ∀ (rs : List Received) (cur : List UInt8),
      (∀ b ∈ rs.map Received.byte, endsLine b = false) →
      rs.foldl addByte ([], cur) = ([], cur ++ rs.map Received.byte) := by
    intro rs
    induction rs with
    | nil => simp
    | cons r rs ih =>
      intro cur hrs
      have hr : endsLine r.byte = false := hrs _ (by simp)
      rw [List.foldl_cons, addByte, hr]
      simp only [Bool.false_eq_true, if_false]
      rw [ih _ (fun b hb => hrs b (by simp [List.mem_cons, List.mem_map.mp hb]))]
      simp
  obtain ⟨rs, r, rfl⟩ : ∃ rs r, rest = rs ++ [r] := by
    rcases List.eq_nil_or_concat rest with rfl | ⟨rs, r, rfl⟩
    · simp at hbytes
    · exact ⟨rs, r, by simp⟩
  rw [List.map_append, List.map_singleton] at hbytes
  obtain ⟨hrs, hr⟩ := List.append_inj' hbytes rfl
  have hr : r.byte = c := by simpa using hr
  rw [splitLines_concat, splitLines, hgrow rs [] (by rw [hrs]; exact hline), hrs, addByte, hr, hc,
    hpassed r (by simp)]
  simp

/-- The lines handed over are complete lines of the stream, and the bytes behind them are still
`pending`. -/
def Whole (stream : List Received) (lines : List (List UInt8)) (pending : List UInt8) : Prop :=
  ∃ done rest, stream = done ++ rest ∧ (splitLines done).2 = [] ∧
    lines.Sublist (ordinary done) ∧ rest.map Received.byte = pending ∧
    ∀ r ∈ rest, passedOn r = true

variable {stream log : List Received} {lines : List (List UInt8)} {pending : List UInt8}
  {r : Received} {c : UInt8}

lemma Whole.receive (h : Whole stream lines pending) (hlog : ∀ r ∈ log, passedOn r = true) :
    Whole (stream ++ log) lines (pending ++ log.map Received.byte) := by
  obtain ⟨done, rest, rfl, hdone, hlines, rfl, hrest⟩ := h
  refine ⟨done, rest ++ log, List.append_assoc _ _ _, hdone, hlines, List.map_append, ?_⟩
  intro r hr
  rcases List.mem_append.mp hr with hr | hr
  · exact hrest r hr
  · exact hlog r hr

/-- What is pending may be thrown away at the end of a line. -/
lemma Whole.discard (h : Whole stream lines pending) (hr : endsLine r.byte = true) :
    Whole (stream ++ log ++ [r]) lines [] := by
  obtain ⟨done, rest, rfl, hdone, hlines, _, _⟩ := h
  refine ⟨_, [], (List.append_nil _).symm, ?_, ?_, rfl, by simp⟩
  · rw [splitLines_concat, addByte, hr]
    simp
  · rw [List.append_assoc, List.append_assoc, ordinary_append hdone]
    exact hlines.trans (List.sublist_append_left _ _)

lemma Whole.takeLine {line : List UInt8} (h : Whole stream lines (line ++ c :: pending))
    (hline : ∀ b ∈ line, endsLine b = false) (hc : endsLine c = true) :
    Whole stream (lines ++ [line]) pending ∧ Whole stream lines pending := by
  obtain ⟨done, rest, rfl, hdone, hlines, hbytes, hrest⟩ := h
  have hbytes : rest.map Received.byte = (line ++ [c]) ++ pending := by simpa using hbytes
  obtain ⟨front, back, rfl, hfront, hback⟩ := List.map_eq_append_iff.mp hbytes
  have hsplit := splitLines_line hfront hline hc (fun r hr => hrest r (by simp [hr]))
  have hback' : ∀ r ∈ back, passedOn r = true := fun r hr => hrest r (by simp [hr])
  have hord : ordinary (done ++ front) = ordinary done ++ [line] := by
    rw [ordinary_append hdone, ordinary, ordinary, hsplit]
  have hend : (splitLines (done ++ front)).2 = [] := by
    have hpair : splitLines done = (ordinary done, []) := Prod.ext rfl hdone
    rw [splitLines, List.foldl_append]
    change (front.foldl addByte (splitLines done)).2 = []
    rw [hpair, foldl_addByte]
    exact congrArg Prod.snd hsplit
  have hstream : done ++ (front ++ back) = done ++ front ++ back := (List.append_assoc _ _ _).symm
  refine ⟨⟨_, back, hstream, hend, ?_, hback, hback'⟩, ⟨_, back, hstream, hend, ?_, hback, hback'⟩⟩
  · rw [hord]
    exact hlines.append (List.Sublist.refl _)
  · rw [hord]
    exact hlines.trans (List.sublist_append_left _ _)

/-! ### The part of a line that the G-code buffer has taken -/

def indent (c : UInt8) : Bool := c = char ' ' ∨ c = char '\t'

/-- The parser is where the characters taken since its last `Init` left it. -/
structure Parsed (s : Channel) : Prop where
  noFile : s.gb.doingFile = false
  noEnd : ∀ c ∈ s.taken, endsLine c = false
  atStart : s.gb.bufferState = .parseNotStarted → s.taken.all indent = true
  atReady : s.gb.bufferState = .ready ∨ s.gb.bufferState = .executing → s.taken = []

/-- Nothing but the indentation of a line was taken. -/
def LeadingOnly (taken : List UInt8) : Prop := taken ≠ [] ∧ taken.all indent = true

instance (taken : List UInt8) : Decidable (LeadingOnly taken) :=
  inferInstanceAs (Decidable (_ ∧ _))

variable {s : Channel}

lemma Parsed.of_taken_nil (hf : s.gb.doingFile = false) (ht : s.taken = []) : Parsed s := by
  refine ⟨hf, ?_, ?_, fun _ => ht⟩ <;> simp [ht]

lemma Parsed.withInput (h : Parsed s) (i : RegularGCodeInput) : Parsed { s with input := i } :=
  ⟨h.noFile, h.noEnd, h.atStart, h.atReady⟩

lemma discardPartialLine_taken (h : s.gb.bufferState = .parseNotStarted) :
    s.discardPartialLine.taken = s.taken := by
  simp [Channel.discardPartialLine, h]

lemma discardPartialLine_doingFile (g : GCodeBuffer) :
    (StringParser.discardPartialLine g).doingFile = g.doingFile := by
  unfold StringParser.discardPartialLine
  split <;> rfl

lemma Parsed.discard (h : Parsed s) (hl : ¬ LeadingOnly s.taken) :
    s.discardPartialLine.taken = [] ∧ Parsed s.discardPartialLine := by
  have ht : s.discardPartialLine.taken = [] := by
    simp only [Channel.discardPartialLine]
    split
    case isTrue => rfl
    case isFalse hstate =>
      by_cases hr : s.gb.bufferState = .ready
      · exact h.atReady (Or.inl hr)
      · have hp : s.gb.bufferState = .parseNotStarted := by tauto
        have hi := h.atStart hp
        by_contra hne
        exact hl ⟨hne, hi⟩
  refine ⟨ht, Parsed.of_taken_nil ?_ ht⟩
  exact (discardPartialLine_doingFile s.gb).trans h.noFile

def Idle (g : GCodeBuffer) : Prop := ¬ (g.bufferState = .ready ∨ g.bufferState = .executing)

lemma idle_put {g : GCodeBuffer} (h : Idle g) (hc : endsLine c = false) : Idle (put g c).1 := by
  rintro (hst | hst)
  · exact h (Or.inl (put_state (by simp) hc hst).1)
  · exact h (Or.inr (put_state (by simp) hc hst).1)

/-- One character within a line leaves the parser where it belongs. -/
lemma Parsed.char (h : Parsed s) (hc : endsLine c = false) (hidle : Idle s.gb)
    (i : RegularGCodeInput) :
    Parsed { input := i, gb := (put s.gb c).1, taken := s.taken ++ [c] } := by
  refine ⟨(put_doingFile _ _).trans h.noFile, ?_, ?_, ?_⟩
  · intro b hb
    rcases List.mem_append.mp hb with hb | hb
    · exact h.noEnd b hb
    · rw [List.mem_singleton.mp hb]
      exact hc
  · intro hst
    obtain ⟨hstart, hblank⟩ := put_state (Or.inl rfl) hc hst
    have hi : indent c = true := by simpa [indent] using hblank rfl
    simp [List.all_append, h.atStart hstart, hi]
  · intro hst
    exact absurd hst (idle_put hidle hc)

/-! ### Bytes that come in -/

/-- An urgent command ends where its line ends. -/
def endsAtLine (r : Received) : Bool :=
  match r.fate with
  | .heard u => !handled u || endsLine r.byte
  | _ => true

/-- The part of a line that the buffer has taken is thrown away, unless it is only indentation. -/
def discards (r : Received) : Bool :=
  match r.fate with
  | .heard (some .diagnostics) | .closed _ => true
  | _ => false

lemma not_writing_of_handled (h : handled (checkForUrgentCommand s c).2 = true) :
    s.input.writingFile = false := by
  by_contra hw
  simp [checkForUrgentCommand, Bool.eq_true_of_not_eq_false hw, handled] at h

lemma Parsed.heard {before : List UInt8} (h : Parsed s)
    (hw : Whole stream lines (s.taken ++ before))
    (hu : handled (checkForUrgentCommand s c).2 = false) :
    Whole (stream ++ [received s c (checkForUrgentCommand s c).2]) lines
        (s.taken ++ (before ++ [c])) ∧
      Parsed (checkForUrgentCommand s c).1 ∧ (checkForUrgentCommand s c).1.taken = s.taken := by
  rcases check_cases s c with ⟨st, hs, -⟩ | hs | hs
  · refine ⟨?_, ?_, ?_⟩
    · rw [← List.append_assoc]
      apply hw.receive
      intro r hr
      rw [List.mem_singleton.mp hr]
      cases hwf : s.input.writingFile <;> simp [received, passedOn, hwf, hu]
    · rw [hs]
      exact h.withInput _
    · rw [hs]
      rfl
  · simp [hs, handled] at hu
  · simp [hs, handled] at hu

lemma Whole.handled {before : List UInt8} (hw : Whole stream lines (s.taken ++ before))
    (hu : handled (checkForUrgentCommand s c).2 = true)
    (hend : endsAtLine (received s c (checkForUrgentCommand s c).2) = true) :
    Whole (stream ++ [received s c (checkForUrgentCommand s c).2]) lines [] ∧
      (checkForUrgentCommand s c).1.input = s.input.reset := by
  constructor
  · have hc : endsLine c = true := by
      simpa [received, not_writing_of_handled hu, endsAtLine, hu] using hend
    have hdiscarded : Whole (stream ++ [] ++ [received s c (checkForUrgentCommand s c).2]) lines []
      :=
      hw.discard hc
    rwa [List.append_nil] at hdiscarded
  · rcases check_cases s c with ⟨st, -, hs⟩ | hs | hs
    · simp [hs] at hu
    · rw [hs]
    · rw [hs]

lemma Parsed.handled (h : Parsed s) (hu : handled (checkForUrgentCommand s c).2 = true)
    (hd : discards (received s c (checkForUrgentCommand s c).2) = true → ¬ LeadingOnly s.taken) :
    (checkForUrgentCommand s c).1.discardPartialLine.taken = [] ∧
      Parsed (checkForUrgentCommand s c).1.discardPartialLine := by
  have hwf := not_writing_of_handled hu
  rcases check_cases s c with ⟨st, -, hs⟩ | hs | hs
  · simp [hs] at hu
  · rw [hs]
    have ht : ({ s.resetBuffer with input := s.input.reset } : Channel).discardPartialLine.taken =
        [] := discardPartialLine_taken rfl
    exact ⟨ht, Parsed.of_taken_nil (discardPartialLine_doingFile _) ht⟩
  · rw [hs] at hd ⊢
    exact (h.withInput s.input.reset).discard (hd (by simp [received, hwf, discards]))

/-- A network input handles an urgent command while the buffer holds no part of a line. -/
lemma Parsed.handled_nil (h : Parsed s) (ht : s.taken = [])
    (hu : GCodeInput.handled (checkForUrgentCommand s c).2 = true) :
    (checkForUrgentCommand s c).1.taken = [] ∧ Parsed (checkForUrgentCommand s c).1 := by
  rcases check_cases s c with ⟨st, -, hs⟩ | hs | hs
  · simp [hs] at hu
  · rw [hs]
    exact ⟨rfl, Parsed.of_taken_nil rfl rfl⟩
  · rw [hs]
    exact ⟨ht, h.withInput _⟩

/-- Bytes behind the one that completed an urgent command. -/
def behind (bytes : List UInt8) : List Received := bytes.map (⟨·, .behind⟩)

lemma Whole.behind (h : Whole stream lines []) (bytes : List UInt8) :
    Whole (stream ++ WholeLines.behind bytes) lines bytes := by
  have hpassed : ∀ r ∈ WholeLines.behind bytes, passedOn r = true := by
    simp [WholeLines.behind, passedOn]
  simpa [WholeLines.behind, Function.comp_def] using h.receive hpassed

/-- A device read keeps the lines whole. -/
lemma spinLoop_holds {endPointer n : ℕ} {before bytes : List UInt8} (hn : bytes.length = n)
    (hend : endPointer = s.input.writingPointer + n)
    (hl : BufferedStream.Loaded s.input before bytes) (h : Parsed s)
    (hw : Whole stream lines (s.taken ++ before))
    (hlog : (BufferedStream.spinLoop endPointer n s).2.all endsAtLine = true)
    (hd : (BufferedStream.spinLoop endPointer n s).2.any discards = true →
      ¬ LeadingOnly s.taken) :
    Whole (stream ++ (BufferedStream.spinLoop endPointer n s).2) lines
        ((BufferedStream.spinLoop endPointer n s).1.taken ++
          (BufferedStream.spinLoop endPointer n s).1.input.cached) ∧
      Parsed (BufferedStream.spinLoop endPointer n s).1 := by
  induction n generalizing s stream before bytes with
  | zero =>
    obtain rfl : bytes = [] := List.length_eq_zero_iff.mp hn
    obtain ⟨-, hcached⟩ := hl.done
    rw [BufferedStream.spinLoop]
    simp only [List.append_nil]
    split
    case isTrue hp =>
      rw [if_pos hp] at hcached
      rw [← hcached] at hw
      exact ⟨hw, h.withInput _⟩
    case isFalse hp =>
      rw [if_neg hp] at hcached
      rw [← hcached] at hw
      exact ⟨hw, h⟩
  | succ n ih =>
    obtain ⟨c, bytes, rfl⟩ : ∃ c bs, bytes = c :: bs := List.exists_cons_of_length_eq_add_one hn
    have hn : bytes.length = n := by simpa using hn
    have hremaining : endPointer - s.input.writingPointer - 1 = bytes.length := by omega
    rw [BufferedStream.spinLoop] at hlog hd ⊢
    rw [hl.head] at hlog hd ⊢
    have hheard := h.heard (c := c) hw
    have hinput' := hw.handled (c := c)
    have hhandled := h.handled (c := c)
    have hinput : handled (checkForUrgentCommand s c).2 = false →
        ∃ st, (checkForUrgentCommand s c).1 = enter s st := by
      intro hu
      rcases check_cases s c with ⟨st, hst, _⟩ | hs | hs
      · exact ⟨st, hst⟩
      · simp [hs, GCodeInput.handled] at hu
      · simp [hs, GCodeInput.handled] at hu
    generalize checkForUrgentCommand s c = checked at hheard hhandled hinput hinput' hlog hd ⊢
    obtain ⟨s', u⟩ := checked
    dsimp only at hheard hhandled hinput hinput' hlog hd ⊢
    by_cases hu : GCodeInput.handled u = true
    · rw [if_pos hu, hremaining, hl.log_behind] at hlog hd ⊢
      have hlog' : (received s c u :: behind bytes).all endsAtLine = true := by
        split at hlog <;> exact hlog
      have hd' : (received s c u :: behind bytes).any discards = true → ¬ LeadingOnly s.taken := by
        split at hd <;> exact hd
      rw [List.all_cons, Bool.and_eq_true] at hlog'
      obtain ⟨hwhole, hin⟩ := hinput' hu hlog'.1
      obtain ⟨ht, hp⟩ := hhandled hu (fun hr => hd' (by simp [hr]))
      have hwhole := hwhole.behind bytes
      rw [List.append_assoc, List.singleton_append] at hwhole
      rw [discardPartialLine_input, hin]
      by_cases hb : bytes.length ≠ 0
      · obtain ⟨-, hcached⟩ := hl.moved s.input.reset.state s.input.reset.writingFile
        rw [if_pos hb]
        refine ⟨?_, hp.withInput _⟩
        rw [ht, List.nil_append]
        exact Eq.substr hcached hwhole
      · obtain rfl : bytes = [] := by simpa using hb
        rw [if_neg hb]
        refine ⟨?_, hp⟩
        rw [ht, discardPartialLine_input, hin, cached_reset]
        exact hwhole
    · rw [if_neg hu] at hlog hd ⊢
      obtain ⟨hwhole, hp, ht⟩ := hheard (by simpa using hu)
      obtain ⟨st, rfl⟩ := hinput (by simpa using hu)
      rw [List.all_cons, Bool.and_eq_true] at hlog
      rw [List.any_cons, Bool.or_eq_true] at hd
      have hnext := hl.next
      obtain ⟨hw', hp'⟩ := ih (s := { enter s st with input := { (enter s st).input with
          writingPointer := s.input.writingPointer + 1 } }) hn
        (by change endPointer = s.input.writingPointer + 1 + n; omega)
        ⟨hnext.reading, hnext.place, hnext.fits, hnext.room, hnext.held, hnext.loaded⟩
        (hp.withInput _) hwhole hlog.2 (fun hr => hd (Or.inr hr))
      refine ⟨?_, hp'⟩
      rw [List.append_assoc, List.singleton_append] at hw'
      exact hw'

/-- The network gives the buffer complete lines only. -/
def Settled (s : Channel) : Prop := ∀ c ∈ s.input.cached.getLast?, endsLine c = true

lemma putChar_holds (hspace : s.input.bufferSpaceLeft ≠ 0) (h : Parsed s) (hr : InRing s.input)
    (ht : s.taken = []) (hw : Whole stream lines s.input.cached)
    (hlog : (Network.putChar s c).2.all endsAtLine = true) :
    Whole (stream ++ (Network.putChar s c).2) lines (Network.putChar s c).1.input.cached ∧
      Parsed (Network.putChar s c).1 ∧ InRing (Network.putChar s c).1.input ∧
      (Network.putChar s c).1.taken = [] ∧ (Network.putChar s c).2.map Received.byte = [c] ∧
      ((Network.putChar s c).1.input.cached = [] ∨
        (Network.putChar s c).1.input.cached = s.input.cached ++ [c]) := by
  have hw' : Whole stream lines (s.taken ++ s.input.cached) := by simpa [ht] using hw
  have hheard := h.heard (c := c) hw'
  have hinput := hw'.handled (c := c)
  have hhandled := h.handled_nil (c := c) ht
  have hcases := check_cases s c
  rw [Network.putChar, if_neg hspace] at hlog ⊢
  generalize checkForUrgentCommand s c = checked at hheard hinput hhandled hcases hlog ⊢
  obtain ⟨s', u⟩ := checked
  dsimp only at hheard hinput hhandled hcases hlog ⊢
  by_cases hu : GCodeInput.handled u = true
  · rw [if_pos hu] at hlog ⊢
    obtain ⟨hwhole, hin⟩ := hinput hu (by simpa using hlog)
    obtain ⟨ht', hp⟩ := hhandled hu
    dsimp only
    rw [hin, cached_reset]
    exact ⟨hwhole, hp, inRing_reset _, ht', rfl, Or.inl rfl⟩
  · rw [if_neg hu]
    obtain ⟨hwhole, hp, ht'⟩ := hheard (by simpa using hu)
    obtain ⟨st, rfl⟩ : ∃ st, s' = enter s st := by
      rcases hcases with ⟨st, hst, -⟩ | hs | hs
      · exact ⟨st, hst⟩
      · simp [Prod.mk.injEq] at hs
        simp [hs, GCodeInput.handled] at hu
      · simp [Prod.mk.injEq] at hs
        simp [hs, GCodeInput.handled] at hu
    obtain ⟨hstore, hring⟩ := store_spec (i := (enter s st).input) ⟨hr.reading, hr.writing⟩ hspace c
    dsimp only
    rw [hstore]
    refine ⟨?_, hp.withInput _, hring, ht, rfl, Or.inr rfl⟩
    change Whole _ _ (s.input.cached ++ [c])
    simpa [ht] using hwhole

lemma putChars_holds {cs : List UInt8} (hspace : cs.length ≤ s.input.bufferSpaceLeft)
    (h : Parsed s) (hr : InRing s.input) (ht : s.taken = [])
    (hw : Whole stream lines s.input.cached)
    (hlog : (Network.putChars cs s).2.all endsAtLine = true) :
    Whole (stream ++ (Network.putChars cs s).2) lines (Network.putChars cs s).1.input.cached ∧
      Parsed (Network.putChars cs s).1 ∧ InRing (Network.putChars cs s).1.input ∧
      (Network.putChars cs s).1.taken = [] ∧ (Network.putChars cs s).2.map Received.byte = cs ∧
      ∀ e ∈ cs.getLast?, endsLine e = true → Settled (Network.putChars cs s).1 := by
  induction cs generalizing s stream with
  | nil => exact ⟨by simpa [Network.putChars] using hw, h, hr, ht, rfl, by simp⟩
  | cons c cs ih =>
    rw [List.length_cons] at hspace
    have hsum := space_add_cached hr
    have hone := putChar_holds (c := c) (by omega) h hr ht hw
    rw [Network.putChars] at hlog ⊢
    generalize Network.putChar s c = first at hone hlog ⊢
    obtain ⟨s', log⟩ := first
    dsimp only at hone hlog ⊢
    have ih := @ih (stream ++ log) s'
    have hnil : cs = [] → (Network.putChars cs s').1 = s' := by
      rintro rfl
      rfl
    generalize Network.putChars cs s' = rest at ih hnil hlog ⊢
    obtain ⟨s'', log'⟩ := rest
    dsimp only at ih hnil hlog ⊢
    rw [List.all_append, Bool.and_eq_true] at hlog
    obtain ⟨hw', hp', hr', ht', hb', hcached⟩ := hone hlog.1
    have hsum' := space_add_cached hr'
    have hroom : cs.length ≤ s'.input.bufferSpaceLeft := by
      have hcount : s'.input.bytesCached ≤ s.input.bytesCached + 1 := by
        rw [← cached_length, ← cached_length]
        rcases hcached with hnil | hpush
        · simp [hnil]
        · simp [hpush]
      omega
    obtain ⟨hw'', hp'', hr'', ht'', hb'', hset⟩ := ih hroom hp' hr' ht' hw' hlog.2
    refine ⟨?_, hp'', hr'', ht'', ?_, ?_⟩
    · rwa [← List.append_assoc]
    · rw [List.map_append, hb', hb'']
      rfl
    · intro e he hend
      cases cs with
      | nil =>
        rw [hnil rfl]
        intro b hb
        rcases hcached with hc | hc
        · simp [hc] at hb
        · obtain rfl : c = e := by simpa using he
          obtain rfl : c = b := by simpa [hc] using hb
          exact hend
      | cons d cs => exact hset e (by simpa [List.getLast?_cons_cons] using he) hend

/-! ### Bytes that are taken out -/

/-- The loop takes whole lines from the front of what is pending. -/
lemma fillLoop_holds {n : ℕ} (hn : n ≤ s.input.bytesCached) (h : Parsed s) (hr : InRing s.input)
    (hidle : Idle s.gb)
    (hw : Whole stream lines (s.taken ++ s.input.cached)) :
    Whole stream (lines ++ (fillLoop n s).2.1)
        ((fillLoop n s).1.taken ++ (fillLoop n s).1.input.cached) ∧
      Parsed (fillLoop n s).1 ∧ InRing (fillLoop n s).1.input ∧
      ((fillLoop n s).2.2 = true → (fillLoop n s).1.taken = []) := by
  induction n generalizing s lines with
  | zero => exact ⟨by simpa [fillLoop] using hw, h, hr, by simp [fillLoop]⟩
  | succ n ih =>
    obtain ⟨hcached, hring⟩ := readByte_spec hr (by omega)
    have hcount : s.input.readByte.2.bytesCached = s.input.bytesCached - 1 := by
      have := congrArg List.length hcached
      simp only [cached_length, List.length_cons] at this
      omega
    rw [hcached] at hw
    rw [fillLoop]
    generalize s.input.readByte = next at hcached hring hcount hw ⊢
    obtain ⟨c, i⟩ := next
    dsimp only at hcached hring hcount hw ⊢
    by_cases hc : endsLine c = true
    · obtain ⟨htaken, hskipped⟩ := hw.takeLine h.noEnd hc
      have hf : (put s.gb c).1.doingFile = false := (put_doingFile _ _).trans h.noFile
      rw [if_pos hc]
      by_cases hcomplete : (put s.gb c).2 = true
      · rw [if_pos hcomplete]
        by_cases hwf : s.input.writingFile = true
        · rw [if_pos hwf]
          have hp : Parsed (writeToFile { input := i, gb := (put s.gb c).1, taken := [] }) :=
            Parsed.of_taken_nil hf rfl
          obtain ⟨hw', hp', hr', hgot'⟩ := ih
            (s := writeToFile { input := i, gb := (put s.gb c).1, taken := [] })
            (by change n ≤ i.bytesCached; omega) hp ⟨hring.reading, hring.writing⟩
            (by simp [Idle, writeToFile]) htaken
          refine ⟨?_, hp', hr', hgot'⟩
          simpa using hw'
        · rw [if_neg hwf]
          exact ⟨htaken, Parsed.of_taken_nil hf rfl, hring, fun _ => rfl⟩
      · rw [if_neg hcomplete]
        have hstate := put_end h.noFile hc (by simpa using hcomplete)
        exact ih (s := { input := i, gb := (put s.gb c).1, taken := [] })
          (by change n ≤ i.bytesCached; omega) (Parsed.of_taken_nil hf rfl) hring
          (by simp [Idle, hstate]) hskipped
    · have hc : endsLine c = false := by simpa using hc
      rw [put_char s.gb hc, hc]
      simp only [Bool.false_eq_true, if_false]
      have hp := h.char hc hidle i
      have hidle' := idle_put hidle hc
      rw [put_char s.gb hc] at hp hidle'
      apply ih (s := { input := i, gb := parseChar (resync (countChar s.gb c) c) c
                       taken := s.taken ++ [c] }) (by change n ≤ i.bytesCached; omega) hp hring
        hidle'
      simpa using hw

lemma fillLoop_settled {n : ℕ} (hn : n = s.input.bytesCached) (hr : InRing s.input)
    (hs : Settled s) (ht : s.input.cached = [] → s.taken = []) :
    (fillLoop n s).1.taken = [] ∧ Settled (fillLoop n s).1 := by
  induction n generalizing s with
  | zero =>
    have : s.input.cached = [] := List.length_eq_zero_iff.mp (by rw [cached_length]; exact hn.symm)
    exact ⟨ht this, hs⟩
  | succ n ih =>
    obtain ⟨hcached, hring⟩ := readByte_spec hr (by omega)
    have hcount : s.input.readByte.2.bytesCached = n := by
      have := congrArg List.length hcached
      simp only [cached_length, List.length_cons] at this
      omega
    rw [fillLoop]
    unfold Settled at hs ih ⊢
    rw [hcached] at hs
    generalize s.input.readByte = next at hcached hring hcount hs ⊢
    obtain ⟨c, i⟩ := next
    dsimp only at hcached hring hcount hs ⊢
    have hi : ∀ b ∈ i.cached.getLast?, endsLine b = true := by
      intro b hb
      apply hs b
      rw [List.getLast?_cons, Option.mem_def.mp hb]
      rfl
    have htake : i.cached = [] → (if endsLine c = true then [] else s.taken ++ [c]) = [] := by
      intro hnil
      have : endsLine c = true := hs c (by rw [hnil]; rfl)
      rw [if_pos this]
    have hends : (put s.gb c).2 = true → endsLine c = true := by
      intro hp
      by_contra hc
      rw [put_char s.gb (by simpa using hc)] at hp
      simp at hp
    by_cases hcomplete : (put s.gb c).2 = true
    · rw [if_pos hcomplete]
      by_cases hwf : s.input.writingFile = true
      · rw [if_pos hwf]
        exact ih (s := writeToFile _) hcount.symm ⟨hring.reading, hring.writing⟩ hi (fun _ => rfl)
      · rw [if_neg hwf]
        exact ⟨if_pos (hends hcomplete), hi⟩
    · rw [if_neg hcomplete]
      exact ih hcount.symm hring hi htake

/-! ### Runs -/

/-- Every urgent command that is handled ends where its line ends; and when an `M122` is handled or
the port is closed, the buffer has not taken the indentation of a line only. -/
def Permitted {k : Kind} (s : System) (e : Event k) : Prop :=
  (act s.channel e).2.1.all endsAtLine = true ∧
    ((act s.channel e).2.1.any discards = true → ¬ LeadingOnly s.channel.taken)

instance {k : Kind} (s : System) (e : Event k) : Decidable (Permitted s e) :=
  inferInstanceAs (Decidable (_ ∧ _))

structure Inv (k : Kind) (s : System) : Prop where
  whole : Whole s.stream s.lines (s.channel.taken ++ s.channel.input.cached)
  parsed : Parsed s.channel
  ring : InRing s.channel.input
  settled : k = .network → s.channel.taken = [] ∧ Settled s.channel

lemma start_cached (buffer : ℕ → UInt8) : (start buffer).channel.input.cached = [] := by
  apply List.length_eq_zero_iff.mp
  rw [cached_length]
  simp [RegularGCodeInput.bytesCached, start]

lemma inv_start (k : Kind) (buffer : ℕ → UInt8) : Inv k (start buffer) := by
  refine ⟨⟨[], [], rfl, rfl, List.Sublist.refl _, ?_, by simp⟩, Parsed.of_taken_nil rfl rfl,
    ⟨Nat.zero_lt_succ 255, Nat.zero_lt_succ 255⟩, fun _ => ⟨rfl, ?_⟩⟩
  · rw [start_cached]
    rfl
  · intro c hc
    rw [start_cached] at hc
    cases hc

lemma inv_put (s : System) (buf : List UInt8) (acquired : Bool) (h : Inv .network s)
    (hp : Permitted s (.put buf acquired)) : Inv .network (step s (.put buf acquired)) := by
  obtain ⟨ht, hset⟩ := h.settled rfl
  obtain ⟨hlog, -⟩ := hp
  simp only [step, act, Network.put] at hlog ⊢
  split
  case isFalse => exact ⟨by simpa using h.whole, h.parsed, h.ring, fun _ => ⟨ht, hset⟩⟩
  case isTrue hacc =>
    rw [if_pos hacc] at hlog
    have hw : Whole s.stream s.lines s.channel.input.cached := by simpa [ht] using h.whole
    obtain ⟨hw', hp', hr', ht', -, hset'⟩ :=
      putChars_holds hacc.2 h.parsed h.ring ht hw hlog
    refine ⟨?_, hp', hr', fun _ => ⟨ht', hset' 0 (by simp [Network.terminated]) rfl⟩⟩
    simpa [ht'] using hw'

lemma inv_spin (s : System) (available : List UInt8) (h : Inv .buffered s)
    (hp : Permitted s (.spin available)) : Inv .buffered (step s (.spin available)) := by
  obtain ⟨hlog, hd⟩ := hp
  have hring := (act_ring h.ring (.spin available)).1
  simp only [step, act, BufferedStream.spin] at hlog hd hring ⊢
  split
  case isFalse => exact ⟨by simpa using h.whole, h.parsed, h.ring, by simp⟩
  case isTrue hspace =>
    rw [if_pos hspace] at hlog hd hring
    have hlen := List.length_take_le (min s.channel.input.bufferSpaceLeft
      (gcodeInputBufferSize - s.channel.input.writingPointer)) available
    have hl := BufferedStream.loaded_readBytes h.ring (hlen.trans (min_le_left _ _))
      (hlen.trans (min_le_right _ _))
    obtain ⟨hw', hp'⟩ := spinLoop_holds (s := { s.channel with input :=
      { s.channel.input with buffer := _ } }) rfl rfl hl (h.parsed.withInput _) h.whole hlog hd
    exact ⟨by simpa using hw', hp', hring, by simp⟩

lemma inv_unplugged (s : System) (available : List UInt8) (h : Inv .buffered s)
    (hp : Permitted s (.unplugged available)) : Inv .buffered (step s (.unplugged available)) := by
  obtain ⟨-, hd⟩ := hp
  obtain ⟨ht, hparsed⟩ := h.parsed.discard (hd (by
    simp [act, BufferedStream.unplugged, discards]))
  simp only [step, act, BufferedStream.unplugged]
  have hcached : (if s.channel.input.bytesCached ≠ 0 then s.channel.input.reset
      else s.channel.input).cached = [] ∧ InRing (if s.channel.input.bytesCached ≠ 0 then
        s.channel.input.reset else s.channel.input) := by
    split
    case isTrue => exact ⟨cached_reset _, inRing_reset _⟩
    case isFalse hz =>
      refine ⟨List.length_eq_zero_iff.mp ?_, h.ring⟩
      rw [cached_length]
      omega
  refine ⟨?_, hparsed.withInput _, ?_, by simp⟩
  · have hdiscarded : Whole (s.stream ++ available.map (⟨·, .lost⟩) ++
        [⟨0, .closed (s.channel.input.bytesCached ≠ 0)⟩]) s.lines [] := h.whole.discard rfl
    simp only [ht, List.append_nil, hcached.1]
    rwa [List.append_assoc] at hdiscarded
  · simpa using hcached.2

lemma inv_fillBuffer {k : Kind} (s : System) (h : Inv k s) : Inv k (step s (.fillBuffer (k :=
    k))) := by
  simp only [step, act, GCodeInput.fillBuffer, List.append_nil]
  split
  case isTrue => exact ⟨by simpa using h.whole, h.parsed, h.ring, h.settled⟩
  case isFalse hidle =>
    obtain ⟨hw', hp', hr', hgot⟩ :=
      fillLoop_holds (bytesCached_le k s.channel.input) h.parsed h.ring hidle h.whole
    have hset : k = .network →
        (fillLoop (GCodeInput.bytesCached k s.channel.input) s.channel).1.taken = [] ∧
          Settled (fillLoop (GCodeInput.bytesCached k s.channel.input) s.channel).1 := by
      rintro rfl
      obtain ⟨ht, hset⟩ := h.settled rfl
      exact fillLoop_settled rfl h.ring hset (fun _ => ht)
    split
    case isTrue hg => exact ⟨hw', Parsed.of_taken_nil hp'.noFile (hgot hg), hr', hset⟩
    case isFalse => exact ⟨hw', hp', hr', hset⟩

lemma inv_setFinished {k : Kind} (s : System) (f : Bool) (h : Inv k s) :
    Inv k (step s (.setFinished (k := k) f)) := by
  simp only [step, act, List.append_nil]
  split
  case isFalse => exact h
  case isTrue hst =>
    have ht := h.parsed.atReady hst
    refine ⟨h.whole, Parsed.of_taken_nil ?_ ht, h.ring, h.settled⟩
    simp only [setFinished]
    split_ifs <;> exact h.parsed.noFile

lemma inv_step {k : Kind} (s : System) (e : Event k) (h : Inv k s) (hp : Permitted s e) :
    Inv k (step s e) := by
  cases e with
  | put buf acquired => exact inv_put s buf acquired h hp
  | spin available => exact inv_spin s available h hp
  | unplugged available => exact inv_unplugged s available h hp
  | fillBuffer => exact inv_fillBuffer s h
  | setFinished f => exact inv_setFinished s f h
  | setWritingFile wf =>
    refine ⟨?_, h.parsed.withInput _, ⟨h.ring.reading, h.ring.writing⟩, h.settled⟩
    simp only [step, act, List.append_nil]
    exact h.whole
  | configure cnc checksumRequired crcRequired =>
    refine ⟨?_, ⟨h.parsed.noFile, h.parsed.noEnd, h.parsed.atStart, h.parsed.atReady⟩, h.ring,
      h.settled⟩
    simp only [step, act, List.append_nil]
    exact h.whole

/-- As long as urgent commands end where their lines end, and no indentation is left behind, every
line that the G-code buffer is handed is a complete line of the received stream, no line is handed
over twice, and none that was handled as an urgent command. -/
theorem lines_whole {k : Kind} (buffer : ℕ → UInt8) (es : List (Event k))
    (h : Along step Permitted (start buffer) es) :
    (run step (start buffer) es).lines.Sublist (ordinary (run step (start buffer) es).stream) := by
  obtain ⟨⟨done, rest, hs, hdone, hlines, -⟩, -⟩ :=
    run_invariant (inv_start k buffer) (fun s e hs hp => inv_step s e hs hp) h
  rw [hs, ordinary_append hdone]
  exact hlines.trans (List.sublist_append_left _ _)

theorem lines_whole_after_M112 :
    [ofChars ['G', '2', '8']].Sublist (ordinary (run step (start fun _ => 0)
      [.spin (ofChars ['G', '1', '\n', 'M', '1', '1', '2', '\n', 'G', '2', '8', '\n']),
        Event.fillBuffer (k := .buffered)]).stream) := by
  have h := lines_whole (fun _ => 0)
    [.spin (ofChars ['G', '1', '\n', 'M', '1', '1', '2', '\n', 'G', '2', '8', '\n']),
      Event.fillBuffer (k := .buffered)] (by decide +kernel)
  have hlines : (run step (start fun _ => 0)
      [.spin (ofChars ['G', '1', '\n', 'M', '1', '1', '2', '\n', 'G', '2', '8', '\n']),
        Event.fillBuffer (k := .buffered)]).lines = [ofChars ['G', '2', '8']] := by decide +kernel
  rwa [hlines] at h

/-- The comment behind an `M122` becomes a line of its own. -/
theorem comment_handed_over :
    ¬ (run step (start fun _ => 0)
        [.spin (ofChars ['M', '1', '2', '2', ';', 'G', '2', '8', '\n']),
          Event.fillBuffer (k := .buffered)]).lines.Sublist
      (ordinary (run step (start fun _ => 0)
        [.spin (ofChars ['M', '1', '2', '2', ';', 'G', '2', '8', '\n']),
          Event.fillBuffer (k := .buffered)]).stream) := by
  decide +kernel

end RepRapFirmware.GCodes.WholeLines
