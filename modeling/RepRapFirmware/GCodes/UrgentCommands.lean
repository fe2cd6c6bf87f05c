import RepRapFirmware.GCodes.GCodeInput
import RepRapFirmware.Library.Runs
import Mathlib.Data.List.TakeWhile

/-! When the scanner for urgent commands sees an `M112`. -/

namespace RepRapFirmware.GCodes.UrgentCommands

open StringParser GCodeInput Library.Runs

/-! ### The scanner alone -/

def isM (c : UInt8) : Bool := c = char 'M' ∨ c = char 'm'

def scan (st : GCodeInputState) (c : UInt8) : GCodeInputState × Option Urgent :=
  match st with
  | .idle => (if blank c then .idle else if isM c then .doingMCode else .doingCode, none)
  | .doingCode => (if endsLine c then .idle else .doingCode, none)
  | .doingMCode => (if c = char '1' then .doingMCode1 else .doingCode, none)
  | .doingMCode1 =>
    (if c = char '0' then .doingMCode10
    else if c = char '1' then .doingMCode11
    else if c = char '2' then .doingMCode12
    else .doingCode, none)
  | .doingMCode10 => (if c = char '8' then .doingMCode108 else .doingCode, none)
  | .doingMCode11 => (if c = char '2' then .doingMCode112 else .doingCode, none)
  | .doingMCode12 => (if c = char '2' then .doingMCode122 else .doingCode, none)
  | .doingMCode108 =>
    (.doingCode, if c < char ' ' ∨ c = char ';' then some .cancelWait else none)
  | .doingMCode112 =>
    if blank c ∨ c = char ';' then (.idle, some .emergencyStop) else (.doingCode, none)
  | .doingMCode122 =>
    if c < char ' ' ∨ c = char ';' then (.idle, some .diagnostics) else (.doingCode, none)

def after (st : GCodeInputState) (r : Received) : GCodeInputState :=
  match r.fate with
  | .heard _ => (scan st r.byte).1
  | .closed true => .idle
  | _ => st

/-- The log of a scanner that was in the state `st` before it. -/
def Follows : GCodeInputState → List Received → Prop
  | _, [] => True
  | st, r :: log =>
    (∀ u, r.fate = .heard u → u = (scan st r.byte).2) ∧ (r.fate = .behind → st = .idle) ∧
      Follows (after st r) log

lemma follows_append (st : GCodeInputState) (log log' : List Received) :
    Follows st (log ++ log') ↔ Follows st log ∧ Follows (log.foldl after st) log' := by
  induction log generalizing st with
  | nil => simp [Follows]
  | cons r log ih => simp [Follows, ih, and_assoc]

lemma check_of_writing {s : Channel} (h : s.input.writingFile = true) (c : UInt8) :
    checkForUrgentCommand s c = (s, none) := by
  simp [checkForUrgentCommand, h]

@[simp] lemma enter_input_state (s : Channel) (st : GCodeInputState) :
    (enter s st).input.state = st := rfl

@[simp] lemma enter_writingFile (s : Channel) (st : GCodeInputState) :
    (enter s st).input.writingFile = s.input.writingFile := rfl

lemma check_of_not_writing {s : Channel} (h : s.input.writingFile = false) (c : UInt8) :
    (checkForUrgentCommand s c).2 = (scan s.input.state c).2 ∧
      (checkForUrgentCommand s c).1.input.state = (scan s.input.state c).1 := by
  cases hst : s.input.state <;>
    simp only [checkForUrgentCommand, h, hst, scan, Bool.false_eq_true, if_false]
  case idle =>
    by_cases hc : char ' ' < c
    · have : blank c = false := by simpa [blank] using hc
      simp [hc, this, isM]
    · have : blank c = true := by simpa [blank] using hc
      simp [hc, this, hst]
  case doingCode =>
    by_cases hc : endsLine c = true
    · have : c = 0 ∨ c = char '\r' ∨ c = char '\n' := by simp [endsLine] at hc; tauto
      simp [hc, this]
    · have : ¬ (c = 0 ∨ c = char '\r' ∨ c = char '\n') := by simp [endsLine] at hc; tauto
      simp [hc, this, hst]
  case doingMCode112 =>
    by_cases hc : c ≤ char ' ' ∨ c = char ';'
    · simp [hc, blank, RegularGCodeInput.reset]
    · simp [hc, blank]
  case doingMCode122 =>
    by_cases hc : c < char ' ' ∨ c = char ';'
    · simp [hc, RegularGCodeInput.reset]
    · simp [hc]
  all_goals simp

@[simp] lemma check_writingFile (s : Channel) (c : UInt8) :
    (checkForUrgentCommand s c).1.input.writingFile = s.input.writingFile := by
  unfold checkForUrgentCommand
  split
  · rfl
  · split <;> (try split) <;> rfl

/-! ### The scanner of a channel -/

/-- The log tells what the scanner saw on the way from `s` to `s'`. -/
def Tracks (s s' : Channel) (log : List Received) : Prop :=
  Follows s.input.state log ∧ s'.input.state = log.foldl after s.input.state

lemma Tracks.refl {s s' : Channel} (h : s'.input.state = s.input.state) : Tracks s s' [] :=
  ⟨trivial, h⟩

lemma Tracks.trans {s s' s'' : Channel} {log log' : List Received} (h : Tracks s s' log)
    (h' : Tracks s' s'' log') : Tracks s s'' (log ++ log') := by
  obtain ⟨hf, hs⟩ := h
  obtain ⟨hf', hs'⟩ := h'
  rw [hs] at hf' hs'
  exact ⟨(follows_append _ _ _).mpr ⟨hf, hf'⟩, by rw [List.foldl_append, hs']⟩

/-- Only the state of the scanner counts. -/
lemma Tracks.of_state_eq {s s' t' : Channel} {log : List Received} (h : Tracks s s' log)
    (ht : t'.input.state = s'.input.state) : Tracks s t' log := ⟨h.1, ht.trans h.2⟩

lemma tracks_unscanned {s s' : Channel} {log : List Received}
    (h : ∀ r ∈ log, r.fate = .behind ∧ s.input.state = .idle ∨ r.fate = .dropped ∨ r.fate = .lost)
    (hs : s'.input.state = s.input.state) : Tracks s s' log := by
  induction log with
  | nil => exact Tracks.refl hs
  | cons r log ih =>
    have ha : after s.input.state r = s.input.state := by
      rcases h r (by simp) with ⟨hr, _⟩ | hr | hr <;> simp [after, hr]
    obtain ⟨hf, hs'⟩ := ih (fun r' hr' => h r' (by simp [hr']))
    refine ⟨⟨?_, ?_, by rwa [ha]⟩, by rw [List.foldl_cons, ha, hs']⟩
    · intro u hu
      rcases h r (by simp) with ⟨hr, _⟩ | hr | hr <;> simp [hr] at hu
    · intro hb
      rcases h r (by simp) with ⟨_, hi⟩ | hr | hr
      · exact hi
      · simp [hr] at hb
      · simp [hr] at hb

lemma scan_of_handled {st : GCodeInputState} {c : UInt8} (h : handled (scan st c).2 = true) :
    (scan st c).1 = .idle := by
  cases st <;> simp only [scan] at h ⊢ <;> (try split_ifs at h ⊢) <;> simp_all [handled]

lemma check_state_of_handled {s : Channel} {c : UInt8}
    (h : handled (checkForUrgentCommand s c).2 = true) :
    (checkForUrgentCommand s c).1.input.state = .idle := by
  cases hw : s.input.writingFile with
  | true => simp [check_of_writing hw, handled] at h
  | false =>
    obtain ⟨hu, hst⟩ := check_of_not_writing hw c
    rw [hu] at h
    rw [hst, scan_of_handled h]

lemma check_tracks (s : Channel) (c : UInt8) :
    Tracks s (checkForUrgentCommand s c).1 [received s c (checkForUrgentCommand s c).2] := by
  cases hw : s.input.writingFile with
  | true => simp [check_of_writing hw, Tracks, Follows, received, hw, after]
  | false =>
    obtain ⟨hu, hst⟩ := check_of_not_writing hw c
    simp [Tracks, Follows, received, hw, after, hu, hst]

lemma putChar_tracks (s : Channel) (c : UInt8) :
    Tracks s (Network.putChar s c).1 (Network.putChar s c).2 := by
  have hc := check_tracks s c
  rw [Network.putChar]
  generalize checkForUrgentCommand s c = checked at hc ⊢
  obtain ⟨s', u⟩ := checked
  dsimp only at hc ⊢
  by_cases hspace : s.input.bufferSpaceLeft = 0
  · rw [if_pos hspace]
    apply tracks_unscanned _ rfl
    simp
  · rw [if_neg hspace]
    by_cases hu : handled u = true
    · rw [if_pos hu]
      exact hc
    · rw [if_neg hu]
      exact hc.of_state_eq rfl

lemma putChars_tracks (cs : List UInt8) (s : Channel) :
    Tracks s (Network.putChars cs s).1 (Network.putChars cs s).2 := by
  induction cs generalizing s with
  | nil => exact Tracks.refl rfl
  | cons c cs ih =>
    have hc := putChar_tracks s c
    rw [Network.putChars]
    generalize Network.putChar s c = first at hc ⊢
    obtain ⟨s', log⟩ := first
    dsimp only at hc ⊢
    have hcs := ih s'
    generalize Network.putChars cs s' = rest at hcs ⊢
    exact hc.trans hcs

lemma spinLoop_tracks (endPointer n : ℕ) (s : Channel) :
    Tracks s (BufferedStream.spinLoop endPointer n s).1
      (BufferedStream.spinLoop endPointer n s).2 := by
  induction n generalizing s with
  | zero =>
    apply Tracks.refl
    simp only [BufferedStream.spinLoop]
    split <;> rfl
  | succ n ih =>
    have hc := check_tracks s (s.input.buffer s.input.writingPointer)
    have hidle := check_state_of_handled (s := s) (c := s.input.buffer s.input.writingPointer)
    rw [BufferedStream.spinLoop]
    generalize checkForUrgentCommand s (s.input.buffer s.input.writingPointer) = checked
      at hc hidle ⊢
    obtain ⟨s', u⟩ := checked
    dsimp only at hc hidle ⊢
    by_cases hu : handled u = true
    · rw [if_pos hu, ← List.singleton_append]
      split
      all_goals
        apply hc.trans
        apply tracks_unscanned _ rfl
        simp [hidle hu]
    · rw [if_neg hu, ← List.singleton_append]
      have hmoved : Tracks s { s' with input := { s'.input with
          writingPointer := s.input.writingPointer + 1 } } _ := hc.of_state_eq rfl
      have hrest := ih { s' with input := { s'.input with
        writingPointer := s.input.writingPointer + 1 } }
      generalize BufferedStream.spinLoop endPointer n _ = rest at hrest ⊢
      exact hmoved.trans hrest

lemma fillLoop_state (n : ℕ) (s : Channel) :
    (fillLoop n s).1.input.state = s.input.state := by
  induction n generalizing s with
  | zero => rfl
  | succ n ih =>
    simp only [fillLoop]
    split
    · split
      · rw [ih]; rfl
      · rfl
    · rw [ih]; rfl

lemma act_tracks {k : Kind} (s : Channel) (e : Event k) : Tracks s (act s e).1 (act s e).2.1 := by
  cases e with
  | put buf acquired =>
    simp only [act, Network.put]
    split
    · exact putChars_tracks _ s
    · exact Tracks.refl rfl
  | spin available =>
    simp only [act, BufferedStream.spin]
    split
    · generalize BufferedStream.readBytes _ _ _ = buffer
      exact spinLoop_tracks _ _ { s with input := { s.input with buffer := buffer } }
    · exact Tracks.refl rfl
  | unplugged available =>
    have hlost : Tracks s s (available.map (⟨·, .lost⟩)) := by
      apply tracks_unscanned _ rfl
      simp
    apply hlost.trans
    simp only [act, BufferedStream.unplugged, Tracks, Follows, after, List.foldl_cons,
      List.foldl_nil]
    split <;> simp_all [RegularGCodeInput.reset]
  | fillBuffer =>
    simp only [act, GCodeInput.fillBuffer]
    split
    · exact Tracks.refl rfl
    · apply Tracks.refl
      split <;> exact fillLoop_state _ s
  | setFinished f =>
    apply Tracks.refl
    simp only [act]
    split <;> rfl
  | setWritingFile wf => exact Tracks.refl rfl
  | configure cnc checksumRequired crcRequired => exact Tracks.refl rfl

/-- Whatever happens, the scanner is where the received stream took it. -/
lemma stream_follows {k : Kind} (buffer : ℕ → UInt8) (es : List (Event k)) :
    Follows .idle (run step (start buffer) es).stream ∧
      (run step (start buffer) es).channel.input.state =
        (run step (start buffer) es).stream.foldl after .idle := by
  refine invariant (P := fun s : System => Follows .idle s.stream ∧
    s.channel.input.state = s.stream.foldl after .idle) ?_ ?_ es
  · exact ⟨trivial, rfl⟩
  · rintro s e ⟨hf, hst⟩
    obtain ⟨hlog, hnext⟩ := act_tracks s.channel e
    rw [hst] at hlog hnext
    refine ⟨(follows_append _ _ _).mpr ⟨hf, hlog⟩, ?_⟩
    rw [step, List.foldl_append]
    exact hnext

/-! ### Lines that end in the middle of a match -/

/-- The complete lines of a text, and the unfinished one. -/
def linesOf (text : List UInt8) : List (List UInt8) × List UInt8 :=
  text.foldl (fun p c => if endsLine c then (p.1 ++ [p.2], []) else (p.1, p.2 ++ [c])) ([], [])

/-- The line is, up to blanks in front, a beginning of an urgent command that the scanner follows.
-/
def cut (line : List UInt8) : Bool :=
  match line.dropWhile blank with
  | [] => false
  | m :: digits => isM m ∧ digits ∈ [[], [char '1'], [char '1', char '0'], [char '1', char '1'],
      [char '1', char '2'], [char '1', char '0', char '8']]

/-- Whether the scanner misses the line behind these lines: an odd number of them, directly before
it, are cut. -/
def hidden (lines : List (List UInt8)) : Bool := lines.foldl (fun h line => !h && cut line) false

/-- A command that starts behind this text is one to the scanner, too. -/
def Clear (text : List UInt8) : Prop :=
  hidden (linesOf text).1 = false ∧ (linesOf text).2.all blank = true

instance (text : List UInt8) : Decidable (Clear text) :=
  inferInstanceAs (Decidable (_ ∧ _))

def reading (line : List UInt8) : GCodeInputState := line.foldl (fun st c => (scan st c).1) .idle

/-- The characters that the scanner has seen behind the `M`. -/
def spelling : GCodeInputState → Option (List UInt8)
  | .idle | .doingCode => none
  | .doingMCode => some []
  | .doingMCode1 => some [char '1']
  | .doingMCode10 => some [char '1', char '0']
  | .doingMCode11 => some [char '1', char '1']
  | .doingMCode12 => some [char '1', char '2']
  | .doingMCode108 => some [char '1', char '0', char '8']
  | .doingMCode112 => some [char '1', char '1', char '2']
  | .doingMCode122 => some [char '1', char '2', char '2']

/-- An unfinished line that the scanner followed from its start. -/
inductive Quiet : List UInt8 → Prop
  | nil : Quiet []
  | concat {line : List UInt8} {c : UInt8} : Quiet line → endsLine c = false →
      handled (scan (reading line) c).2 = false → Quiet (line ++ [c])

lemma reading_concat (line : List UInt8) (c : UInt8) :
    reading (line ++ [c]) = (scan (reading line) c).1 := by
  simp [reading]

lemma spelling_scan {st : GCodeInputState} {c : UInt8} {digits : List UInt8}
    (h : spelling (scan st c).1 = some digits) :
    (st = .idle ∧ blank c = false ∧ isM c = true ∧ digits = []) ∨
      ∃ before, spelling st = some before ∧ digits = before ++ [c] := by
  cases st <;> simp only [scan] at h
  case idle =>
    by_cases hb : blank c = true
    · simp [hb, spelling] at h
    · by_cases hm : isM c = true
      · simp [hb, hm, spelling] at h
        simp_all
      · simp [hb, hm, spelling] at h
  case doingMCode108 => simp [spelling] at h
  all_goals
    right
    split_ifs at h <;> simp_all [spelling]

lemma scan_idle {st : GCodeInputState} {c : UInt8} (he : endsLine c = false)
    (hq : handled (scan st c).2 = false) (h : (scan st c).1 = .idle) :
    st = .idle ∧ blank c = true := by
  cases st <;> simp only [scan] at h hq
  case idle =>
    split_ifs at h
    simp_all
  all_goals
    split_ifs at h hq <;> simp_all [handled]

lemma Quiet.reading_idle {line : List UInt8} (h : Quiet line) (hi : reading line = .idle) :
    line.all blank = true := by
  induction h with
  | nil => rfl
  | @concat line c _ he hq ih =>
    rw [reading_concat] at hi
    obtain ⟨hst, hc⟩ := scan_idle he hq hi
    simp [List.all_append, ih hst, hc]

lemma reading_blank {line : List UInt8} (h : line.all blank = true) : reading line = .idle := by
  induction line using List.reverseRecOn with
  | nil => rfl
  | append_singleton line c ih =>
    rw [List.all_append, Bool.and_eq_true] at h
    have hc : blank c = true := by simpa using h.2
    rw [reading_concat, ih h.1]
    simp [scan, hc]

lemma dropWhile_blank {line : List UInt8} (h : line.all blank = true) :
    line.dropWhile blank = [] := by
  apply List.dropWhile_eq_nil_iff.mpr
  simpa using h

lemma Quiet.spelled {line digits : List UInt8} (h : Quiet line)
    (hs : spelling (reading line) = some digits) :
    ∃ m, isM m = true ∧ line.dropWhile blank = m :: digits := by
  induction h generalizing digits with
  | nil => simp [reading, spelling] at hs
  | @concat line c hline _ _ ih =>
    rw [reading_concat] at hs
    rcases spelling_scan hs with ⟨hst, hc, hm, rfl⟩ | ⟨before, hst, rfl⟩
    · refine ⟨c, hm, ?_⟩
      rw [List.dropWhile_append, dropWhile_blank (hline.reading_idle hst)]
      simp [hc]
    · obtain ⟨m, hm, hd⟩ := ih hst
      refine ⟨m, hm, ?_⟩
      rw [List.dropWhile_append, hd]
      simp

/-- What the scanner makes of a line that spells one of its commands. -/
lemma reading_spelled {line digits : List UInt8} {m : UInt8} (hm : isM m = true)
    (hd : line.dropWhile blank = m :: digits) :
    reading line = digits.foldl (fun st c => (scan st c).1) .doingMCode := by
  have hb : (line.takeWhile blank).all blank = true := List.all_takeWhile
  have hm' : blank m = false := by
    have : m = char 'M' ∨ m = char 'm' := by simpa [isM] using hm
    rcases this with rfl | rfl <;> rfl
  rw [← List.takeWhile_append_dropWhile (p := blank) (l := line), hd, reading, List.foldl_append]
  change List.foldl _ (reading (line.takeWhile blank)) _ = _
  rw [reading_blank hb, List.foldl_cons]
  simp [scan, hm, hm']

lemma Quiet.cut_iff {line : List UInt8} (h : Quiet line) :
    cut line = true ↔ reading line = .doingMCode ∨ reading line = .doingMCode1 ∨
      reading line = .doingMCode10 ∨ reading line = .doingMCode11 ∨
      reading line = .doingMCode12 ∨ reading line = .doingMCode108 := by
  constructor
  · intro hc
    unfold cut at hc
    cases hd : line.dropWhile blank with
    | nil => simp [hd] at hc
    | cons m digits =>
      rw [hd] at hc
      simp only [Bool.decide_and, Bool.and_eq_true, decide_eq_true_eq] at hc
      obtain ⟨hm, hmem⟩ := hc
      rw [reading_spelled hm hd]
      simp only [List.mem_cons, List.not_mem_nil, or_false] at hmem
      rcases hmem with rfl | rfl | rfl | rfl | rfl | rfl <;> decide
  · intro hr
    obtain ⟨digits, hs, hmem⟩ : ∃ digits, spelling (reading line) = some digits ∧
        digits ∈ [[], [char '1'], [char '1', char '0'], [char '1', char '1'],
          [char '1', char '2'], [char '1', char '0', char '8']] := by
      rcases hr with hr | hr | hr | hr | hr | hr <;> rw [hr] <;> exact ⟨_, rfl, by simp⟩
    obtain ⟨m, hm, hd⟩ := h.spelled hs
    simp only [cut, hd]
    simpa [hm] using hmem

/-! ### The received stream -/

def hear (text : List UInt8) (r : Received) : List UInt8 :=
  match r.fate with
  | .heard u => if handled u then [] else text ++ [r.byte]
  | .closed true => []
  | _ => text

/-- What the scanner has looked at since it was last reset. -/
def heardText (stream : List Received) : List UInt8 := stream.foldl hear []

lemma linesOf_concat (text : List UInt8) (c : UInt8) :
    linesOf (text ++ [c]) = if endsLine c then ((linesOf text).1 ++ [(linesOf text).2], [])
      else ((linesOf text).1, (linesOf text).2 ++ [c]) := by
  rw [linesOf, List.foldl_append]
  rfl

lemma hidden_concat (lines : List (List UInt8)) (line : List UInt8) :
    hidden (lines ++ [line]) = (!hidden lines && cut line) := by
  simp [hidden]

lemma blank_of_endsLine {c : UInt8} (h : endsLine c = true) : blank c = true := by
  have : c = 0 ∨ c = char '\n' ∨ c = char '\r' := by simpa [endsLine] using h
  rcases this with rfl | rfl | rfl <;> rfl

/-- Where the scanner is behind a text that it did not act on. -/
def Reads (text : List UInt8) (st : GCodeInputState) : Prop :=
  (hidden (linesOf text).1 = true ∧ st = .doingCode) ∨
    (hidden (linesOf text).1 = false ∧ Quiet (linesOf text).2 ∧ st = reading (linesOf text).2)

lemma reads_nil : Reads [] .idle := Or.inr ⟨rfl, Quiet.nil, rfl⟩

/-- At the end of a line the scanner is idle again, unless the line is cut. -/
lemma Quiet.line_end {line : List UInt8} {c : UInt8} (h : Quiet line) (hc : endsLine c = true)
    (hq : handled (scan (reading line) c).2 = false) :
    (scan (reading line) c).1 = if cut line then .doingCode else .idle := by
  have hb := blank_of_endsLine hc
  have hchars : c = 0 ∨ c = char '\n' ∨ c = char '\r' := by simpa [endsLine] using hc
  by_cases hcut : cut line = true
  · rw [if_pos hcut]
    rcases h.cut_iff.mp hcut with hr | hr | hr | hr | hr | hr <;> rw [hr] <;>
      rcases hchars with rfl | rfl | rfl <;> rfl
  · rw [if_neg hcut]
    cases hr : reading line with
    | idle => simp [scan, hb]
    | doingCode => simp [scan, hc]
    | doingMCode112 => simp [hr, scan, hb, handled] at hq
    | doingMCode122 =>
      rw [hr] at hq
      rcases hchars with rfl | rfl | rfl <;> exact absurd hq (by decide)
    | _ => exact absurd (h.cut_iff.mpr (by simp [hr])) hcut

lemma Reads.concat {text : List UInt8} {st : GCodeInputState} {c : UInt8} (h : Reads text st)
    (hq : handled (scan st c).2 = false) : Reads (text ++ [c]) (scan st c).1 := by
  rw [Reads, linesOf_concat]
  rcases h with ⟨hh, rfl⟩ | ⟨hh, hquiet, rfl⟩
  · by_cases hc : endsLine c = true
    · right
      rw [if_pos hc, hidden_concat, hh]
      refine ⟨rfl, Quiet.nil, ?_⟩
      simp [scan, hc, reading]
    · left
      rw [if_neg hc]
      exact ⟨hh, by simp [scan, hc]⟩
  · by_cases hc : endsLine c = true
    · rw [if_pos hc, hidden_concat, hh, hquiet.line_end hc hq]
      by_cases hcut : cut (linesOf text).2 = true
      · left
        simp [hcut]
      · right
        simp [hcut, Quiet.nil, reading]
    · right
      rw [if_neg hc]
      refine ⟨hh, Quiet.concat hquiet (by simpa using hc) hq, ?_⟩
      rw [reading_concat]

lemma Reads.idle_iff {text : List UInt8} {st : GCodeInputState} (h : Reads text st) :
    st = .idle ↔ Clear text := by
  rcases h with ⟨hh, rfl⟩ | ⟨hh, hquiet, rfl⟩
  · simp [Clear, hh]
  · constructor
    · intro hi
      exact ⟨hh, hquiet.reading_idle hi⟩
    · intro hc
      exact reading_blank hc.2

lemma reads_stream {stream : List Received} (h : Follows .idle stream) :
    Reads (heardText stream) (stream.foldl after .idle) := by
  induction stream using List.reverseRecOn with
  | nil => exact reads_nil
  | append_singleton stream r ih =>
    obtain ⟨hf, hheard, _⟩ := (follows_append _ _ _).mp h
    have ih := ih hf
    rw [heardText, List.foldl_append, List.foldl_append]
    change Reads (hear (heardText stream) r) (after (stream.foldl after .idle) r)
    generalize stream.foldl after .idle = st at ih hheard ⊢
    cases hfate : r.fate with
    | heard u =>
      obtain rfl := hheard u hfate
      simp only [hear, after, hfate]
      by_cases hu : handled (scan st r.byte).2 = true
      · rw [if_pos hu, scan_of_handled hu]
        exact reads_nil
      · rw [if_neg hu]
        exact ih.concat (by simpa using hu)
    | closed wasReset =>
      cases wasReset with
      | true => simpa only [hear, after, hfate] using reads_nil
      | false => simpa only [hear, after, hfate] using ih
    | _ => simpa only [hear, after, hfate] using ih

/-! ### Emergency stops -/

def scanned (r : Received) : Bool :=
  match r.fate with
  | .heard _ => true
  | _ => false

lemma scanned_iff (r : Received) : scanned r = true ↔ ∃ u, r.fate = .heard u := by
  unfold scanned
  cases r.fate <;> simp

/-- The byte came in as part of a command, not as data of a file, and while the port was open. -/
def InCommand (r : Received) : Prop := scanned r = true ∨ r.fate = .behind

/-- Behind `pre` the line is an `M112` command, up to the byte that ends the command. -/
structure IsStop (pre line : List Received) : Prop where
  start : pre = [] ∨ ∃ r ∈ pre.getLast?, endsLine r.byte = true
  text : ∃ m c, isM m = true ∧ (blank c = true ∨ c = char ';') ∧
    line.map Received.byte = [m, char '1', char '1', char '2', c]
  inCommand : ∀ r ∈ line, InCommand r

/-- The scanner stops the machine when it looks at the last byte. -/
def Stops (line : List Received) : Prop :=
  line.getLast?.map Received.fate = some (.heard (some .emergencyStop))

instance (line : List Received) : Decidable (Stops line) := inferInstanceAs (Decidable (_ = _))

lemma spelling_after {st : GCodeInputState} {r : Received} {digits : List UInt8}
    (hr : InCommand r) (hb : r.fate = .behind → st = .idle)
    (h : spelling (after st r) = some digits) :
    (∃ u, r.fate = .heard u) ∧ (st = .idle ∧ digits = [] ∨
      ∃ before, spelling st = some before ∧ digits = before ++ [r.byte]) := by
  rcases hr with hr | hr
  · obtain ⟨u, hu⟩ := (scanned_iff r).mp hr
    refine ⟨⟨u, hu⟩, ?_⟩
    simp only [after, hu] at h
    rcases spelling_scan h with ⟨hst, _, _, hd⟩ | hbefore
    · exact Or.inl ⟨hst, hd⟩
    · exact Or.inr hbefore
  · simp only [after, hr, hb hr, spelling] at h
    simp at h

lemma emergencyStop_scan {st : GCodeInputState} {c : UInt8}
    (h : (scan st c).2 = some .emergencyStop) : st = .doingMCode112 := by
  cases st <;> simp only [scan] at h <;> (try split_ifs at h) <;> simp_all

/-- An `M112` stops the machine exactly where all of it is scanned, and what was scanned before it
is clear. -/
lemma stops_iff {st : GCodeInputState} {pre line post : List Received}
    (hf : Follows st (line ++ post)) (h : IsStop pre line) :
    Stops line ↔ line.all scanned = true ∧ st = .idle := by
  obtain ⟨_, ⟨m, c, hm, hc, hbytes⟩, hin⟩ := h
  obtain ⟨r₀, r₁, r₂, r₃, r₄, rfl⟩ : ∃ r₀ r₁ r₂ r₃ r₄, line = [r₀, r₁, r₂, r₃, r₄] := by
    have : line.length = 5 := by simpa using congrArg List.length hbytes
    match line, this with
    | [r₀, r₁, r₂, r₃, r₄], _ => exact ⟨r₀, r₁, r₂, r₃, r₄, rfl⟩
  simp only [List.map_cons, List.map_nil, List.cons.injEq, and_true] at hbytes
  obtain ⟨rfl, h₁, h₂, h₃, rfl⟩ := hbytes
  obtain ⟨hu₀, hb₀, hu₁, hb₁, hu₂, hb₂, hu₃, hb₃, hu₄, hb₄, -⟩ := hf
  simp only [List.all_cons, List.all_nil, Bool.and_eq_true, scanned_iff, and_true]
  simp only [List.mem_cons, List.not_mem_nil, or_false, forall_eq_or_imp, forall_eq] at hin
  obtain ⟨hr₀, hr₁, hr₂, hr₃, hr₄⟩ := hin
  constructor
  · intro hs
    have hs : r₄.fate = .heard (some .emergencyStop) := by simpa [Stops] using hs
    -- Each state on the way back spells one character less.
    have h112 := emergencyStop_scan (hu₄ _ hs).symm
    obtain ⟨hheard₃, ⟨_, hd⟩ | ⟨d₃, hs₃, hd₃⟩⟩ :=
      spelling_after hr₃ hb₃ (by rw [h112]; rfl)
    · simp at hd
    obtain rfl : d₃ = [char '1', char '1'] := by
      rw [h₃] at hd₃
      simpa using (List.append_left_injective _ (hd₃ : [char '1', char '1'] ++ [char '2'] = _)).symm
    obtain ⟨hheard₂, ⟨_, hd⟩ | ⟨d₂, hs₂, hd₂⟩⟩ := spelling_after hr₂ hb₂ hs₃
    · simp at hd
    obtain rfl : d₂ = [char '1'] := by
      rw [h₂] at hd₂
      simpa using (List.append_left_injective _ (hd₂ : [char '1'] ++ [char '1'] = _)).symm
    obtain ⟨hheard₁, ⟨_, hd⟩ | ⟨d₁, hs₁, hd₁⟩⟩ := spelling_after hr₁ hb₁ hs₂
    · simp at hd
    obtain rfl : d₁ = [] := by simpa using (congrArg List.length hd₁).symm
    obtain ⟨hheard₀, ⟨hidle, _⟩ | ⟨d₀, hs₀, hd₀⟩⟩ := spelling_after hr₀ hb₀ hs₁
    · exact ⟨⟨hheard₀, hheard₁, hheard₂, hheard₃, ⟨_, hs⟩⟩, hidle⟩
    · simp at hd₀
  · rintro ⟨⟨⟨u₀, hf₀⟩, ⟨u₁, hf₁⟩, ⟨u₂, hf₂⟩, ⟨u₃, hf₃⟩, ⟨u₄, hf₄⟩⟩, rfl⟩
    have hmb : blank r₀.byte = false := by
      have : r₀.byte = char 'M' ∨ r₀.byte = char 'm' := by simpa [isM] using hm
      rcases this with h | h <;> rw [h] <;> rfl
    have hstate : after (after (after (after .idle r₀) r₁) r₂) r₃ = .doingMCode112 := by
      simp [after, hf₀, hf₁, hf₂, hf₃, h₁, h₂, h₃, scan, hm, hmb, char]
    have := hu₄ u₄ hf₄
    rw [hstate] at this
    simp [Stops, hf₄, this, scan, hc]

/-- An `M112` line that the input receives as a command stops the machine when its end is scanned,
if and only if the scanner looks at all of it and the text that it has looked at before is clear. -/
theorem emergencyStop_iff {k : Kind} (buffer : ℕ → UInt8) (es : List (Event k))
    (pre line post : List Received)
    (hstream : (run step (start buffer) es).stream = pre ++ line ++ post) (h : IsStop pre line) :
    Stops line ↔ line.all scanned = true ∧ Clear (heardText pre) := by
  obtain ⟨hf, _⟩ := stream_follows buffer es
  rw [hstream, List.append_assoc, follows_append] at hf
  rw [stops_iff hf.2 h, (reads_stream hf.1).idle_iff]

/-- The log of bytes that the scanner looked at and did not act on. -/
def passed (cs : List Char) : List Received := (ofChars cs).map (⟨·, .heard none⟩)

theorem emergencyStop_first : Stops (passed ['M', '1', '1', '2'] ++
    [⟨char '\n', .heard (some .emergencyStop)⟩]) := by
  have h : IsStop [] (passed ['M', '1', '1', '2'] ++
      [⟨char '\n', .heard (some .emergencyStop)⟩]) := by
    refine ⟨Or.inl rfl, ⟨char 'M', char '\n', by decide, by decide, by decide⟩, ?_⟩
    intro r hr
    exact Or.inl (List.all_eq_true.mp (by decide) r hr)
  apply (emergencyStop_iff (fun _ => 0) [.spin (ofChars ['M', '1', '1', '2', '\n', 'G', '1'])]
    [] _ [⟨char 'G', .behind⟩, ⟨char '1', .behind⟩] (by decide +kernel) h).mpr
  exact ⟨by decide, by decide⟩

/-- The scanner takes the end of the line `M108` for a character of it, so that it does not see the
start of the next line. -/
theorem stop_missed_after_M108 : ∃ pre line post,
    (run step (start fun _ => 0) [Event.spin
      (ofChars ['M', '1', '0', '8', '\n', 'M', '1', '1', '2', '\n'])]).stream =
        pre ++ line ++ post ∧ IsStop pre line ∧ ¬ Stops line := by
  refine ⟨passed ['M', '1', '0', '8'] ++ [⟨char '\n', .heard (some .cancelWait)⟩],
    passed ['M', '1', '1', '2', '\n'], [], by decide +kernel, ?_, by decide⟩
  refine ⟨Or.inr ⟨_, rfl, by decide⟩, ⟨char 'M', char '\n', by decide, by decide, by decide⟩, ?_⟩
  intro r hr
  exact Or.inl (List.all_eq_true.mp (by decide) r hr)

end RepRapFirmware.GCodes.UrgentCommands
