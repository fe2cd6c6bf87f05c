import Mathlib.Data.List.TakeWhile
import RepRapFirmware.GCodes.GCodeInput

/-! Which lines are passed on to command decoding, with their checksums. A line is what comes
between two terminators. -/

namespace RepRapFirmware.GCodes.ChecksummedLines

open StringParser GCodeInput

/-! ### Lines and their checksums -/

/-- What the executed commands can change from one line to the next. -/
structure Settings where
  doingFile : Bool
  cnc : Bool
  checksumRequired : Bool
  crcRequired : Bool
  hasPrevious : Bool
  deriving DecidableEq, Repr

inductive Mode
  | code (braces : UInt32)
  | quoted (braces : UInt32)
  | bracketed
  deriving DecidableEq, Repr

def Mode.step (cnc : Bool) : Mode → UInt8 → Mode
  | .code braces, c =>
    if c = char '(' ∧ braces = 0 ∧ cnc then .bracketed
    else if c = char '"' then .quoted braces
    else if c = char '\x7b' then .code (braces + 1)
    else if c = char '\x7d' ∧ braces ≠ 0 then .code (braces - 1)
    else .code braces
  | .quoted braces, c => if c = char '"' then .code braces else .quoted braces
  | .bracketed, c => if c = char ')' then .code 0 else .bracketed

def Mode.isCode : Mode → Bool
  | .code _ => true
  | _ => false

/-- The text before the asterisk and the text behind it. -/
def split (cnc : Bool) : Mode → List UInt8 → Option (List UInt8 × List UInt8)
  | _, [] => none
  | mode, c :: rest =>
    if mode = .code 0 ∧ c = char '*' then some ([], rest)
    else if mode.isCode ∧ c = char ';' then none
    else (split cnc (mode.step cnc c) rest).map fun p => (c :: p.1, p.2)

/-- A CR does nothing in a file, and elsewhere it ends a line. -/
def textOf (line : List UInt8) : List UInt8 := line.filter (· ≠ char '\r')

def isNumbered (text : List UInt8) : Bool := text.head?.any fun c => c = char 'N' ∨ c = char 'n'

/-- What the checksum of a line covers and what follows the asterisk. Only lines with a line number
have checksums. -/
def mark (cnc : Bool) (line : List UInt8) : Option (List UInt8 × List UInt8) :=
  let text := (textOf line).dropWhile isBlank
  if isNumbered text then split cnc (.code 0) text else none

def firstBare (cnc : Bool) : Bool → List UInt8 → Option UInt8
  | _, [] => none
  | true, c :: l => firstBare cnc (c ≠ char ')') l
  | false, c :: l => if c = char '(' ∧ cnc then firstBare cnc true l else some c

/-- The line is a comment, except for its number and comments in parentheses. -/
def isComment (cnc : Bool) (line : List UInt8) : Bool :=
  let text := (textOf line).dropWhile isBlank
  let text := if isNumbered text then ((text.drop 1).dropWhile isDigit).dropWhile isBlank else text
  firstBare cnc false text = some (char ';')

def number (digits : List UInt8) : ℕ := digits.foldl (fun n d => 10 * n + (d - char '0').toNat) 0

def checksum (covered : List UInt8) : UInt8 := covered.foldl (· ^^^ ·) 0

def crc (covered : List UInt8) : UInt16 := covered.foldl updateNormal 0

/-- Comments need no checksum, and neither does a macro. A number of at most three digits is a
checksum, one of five digits is a CRC. -/
def Valid (s : Settings) (line : List UInt8) : Prop :=
  isComment s.cnc line ∨
    match mark s.cnc line with
    | none => ¬ ((s.checksumRequired ∨ s.crcRequired) ∧ ¬ s.hasPrevious)
    | some (covered, after) =>
      let digits := after.takeWhile isDigit
      (1 ≤ digits.length ∧ digits.length ≤ 3 ∧ ¬ s.crcRequired ∧
        number digits = (checksum covered).toNat) ∨
      (digits.length = 5 ∧ number digits = (crc covered).toNat)

/-- A number so long that its digits are counted modulo 256 and its value is taken modulo 2^32, and
with these it passes. -/
def Overlong (s : Settings) (line : List UInt8) : Prop :=
  isComment s.cnc line = false ∧
    match mark s.cnc line with
    | none => False
    | some (covered, after) =>
      let digits := after.takeWhile isDigit
      256 ≤ digits.length ∧
        ((1 ≤ digits.length % 256 ∧ digits.length % 256 ≤ 3 ∧ ¬ s.crcRequired ∧
          number digits % 2 ^ 32 = (checksum covered).toNat) ∨
        (digits.length % 256 = 5 ∧ number digits % 2 ^ 32 = (crc covered).toNat))

instance (s : Settings) (line : List UInt8) : Decidable (Valid s line) := by
  rw [Valid]
  cases mark s.cnc line <;> infer_instance

instance (s : Settings) (line : List UInt8) : Decidable (Overlong s line) := by
  rw [Overlong]
  cases mark s.cnc line <;> infer_instance

/-! ### Passing lines on -/

def configure (s : Settings) (g : GCodeBuffer) : GCodeBuffer :=
  { init g with
    doingFile := s.doingFile
    cnc := s.cnc
    checksumRequired := s.checksumRequired
    crcRequired := s.crcRequired
    hasPrevious := s.hasPrevious }

/-- A parser with the line that it is reading, the line whose characters are in the buffer, and the
lines that have been passed on to command decoding. -/
structure Channel where
  gb : GCodeBuffer
  line : List UInt8
  left : Option (Settings × List UInt8)
  ended : ℕ
  decoded : List (Settings × List UInt8)

variable (settings : ℕ → Settings)

def Channel.here (s : Channel) : Settings × List UInt8 := (settings s.ended, s.line)

/-- The line whose characters are in the buffer when the current one ends. -/
def Channel.leaves (s : Channel) : Option (Settings × List UInt8) :=
  if gcodeLineEnd s.gb ≠ 0 then some (s.here settings) else s.left

/-- The next line begins when the commands of this one, if it has been passed on, are done. -/
def Channel.next (s : Channel) (gb : GCodeBuffer) (decoded : List (Settings × List UInt8)) :
    Channel where
  gb := configure (settings (s.ended + 1)) gb
  line := []
  left := s.leaves settings
  ended := s.ended + 1
  decoded := s.decoded ++ decoded

def Channel.ends (s : Channel) (c : UInt8) : Bool :=
  endsLine c ∧ ¬ (c = char '\r' ∧ s.gb.doingFile)

/-- A character is put. -/
def Channel.put (s : Channel) (c : UInt8) : Channel :=
  let (gb, done) := StringParser.put s.gb c
  if s.ends c then s.next settings gb (if done then [s.here settings] else [])
  else { s with gb := gb, line := s.line ++ [c] }

/-- The file has ended. What `Put` returns is not looked at. -/
def Channel.fileEnded (s : Channel) (isWritingBinary : Bool) : Channel :=
  if isWritingBinary then s.next settings s.gb []
  else if gcodeLineEnd s.gb ≠ 0 then
    s.next settings (StringParser.put s.gb (char '\n')).1 [s.here settings]
  else s

/-- The characters of a string, up to the end of a line that is accepted. -/
def Channel.putString : List UInt8 → Channel → Channel × Bool
  | [], s => (s, false)
  | c :: str, s =>
    if (StringParser.put s.gb c).2 then (s.put settings c, true)
    else Channel.putString str (s.put settings c)

/-- `PutAndDecode` decodes what is in the buffer also if no line has been accepted. -/
def Channel.putAndDecode (s : Channel) (str : List UInt8) : Channel :=
  let (s, done) := Channel.putString settings str
    { s with
      gb := configure (settings s.ended) s.gb
      line := []
      left := s.leaves settings }
  if done then s
  else s.next settings (StringParser.put s.gb (char '\n')).1 (s.leaves settings).toList

inductive Action
  | put (c : UInt8)
  | fileEnded (isWritingBinary : Bool)
  | putAndDecode (str : List UInt8)

def step (s : Channel) : Action → Channel
  | .put c => s.put settings c
  | .fileEnded isWritingBinary => s.fileEnded settings isWritingBinary
  | .putAndDecode str => s.putAndDecode settings str

def start : Channel where
  gb := configure (settings 0) initialBuffer
  line := []
  left := none
  ended := 0
  decoded := []

/-- The conditions under which a step passes on valid lines only. -/
def Meets (s : Channel) : Action → Prop
  | .put c => s.ends c → gcodeLineEnd s.gb ≠ 0 → ¬ Overlong (settings s.ended) s.line
  | .fileEnded isWritingBinary =>
    isWritingBinary ∨ gcodeLineEnd s.gb = 0 ∨ Valid (settings s.ended) s.line
  | .putAndDecode str =>
    let (s, done) := Channel.putString settings str
      { s with
        gb := configure (settings s.ended) s.gb
        line := []
        left := s.leaves settings }
    if done then ∀ l ∈ s.left, ¬ Overlong l.1 l.2
    else ∀ l ∈ s.leaves settings, Valid l.1 l.2

def AllMeet : Channel → List Action → Prop
  | _, [] => True
  | s, a :: actions => Meets settings s a ∧ AllMeet (step settings s a) actions

def run (actions : List Action) : Channel := actions.foldl (step settings) (start settings)

/-! ### What the parser knows of a line -/

section Parsing

variable {g : GCodeBuffer} {b c : UInt8} {cnc : Bool} {mode : Mode} {x : UInt8} {y : UInt16}
  {l : List UInt8}

def modeOf (g : GCodeBuffer) : Option Mode :=
  match g.bufferState with
  | .parsingLineNumber | .parsingWhitespace => if g.braceCount = 0 then some (.code 0) else none
  | .parsingGCode => some (.code g.braceCount)
  | .parsingQuotedString => some (.quoted g.braceCount)
  | .parsingBracketedComment => if g.braceCount = 0 then some .bracketed else none
  | _ => none

/-- The line has a number, and its checksum has not come yet. -/
structure Numbered (cnc : Bool) (mode : Mode) (x : UInt8) (y : UInt16) (g : GCodeBuffer) : Prop
    where
  cnc : g.cnc = cnc
  hadLineNumber : g.hadLineNumber = true
  hadChecksum : g.hadChecksum = false
  mode : modeOf g = some mode
  computedChecksum : g.computedChecksum = x
  crc16 : g.crc16 = y

/-- The checksum is being read. -/
structure Marked (x : UInt8) (y : UInt16) (declared : UInt32) (received : UInt8)
    (g : GCodeBuffer) : Prop where
  hadChecksum : g.hadChecksum = true
  computedChecksum : g.computedChecksum = x
  crc16 : g.crc16 = y
  declaredChecksum : g.declaredChecksum = declared
  checksumCharsReceived : g.checksumCharsReceived = received

lemma store_kept (g : GCodeBuffer) (c : UInt8) : ∃ buffer overflowed,
    storeAndAddToChecksum g c =
      { addToChecksum g c with buffer := buffer, overflowed := overflowed } := by
  rw [storeAndAddToChecksum]
  dsimp only
  split
  · exact ⟨_, _, rfl⟩
  · split
    · exact ⟨_, _, rfl⟩
    · exact ⟨_, _, rfl⟩

lemma addToChecksum_numbered (h : g.hadLineNumber = true) (c : UInt8) :
    addToChecksum g c =
      { g with computedChecksum := g.computedChecksum ^^^ c, crc16 := updateNormal g.crc16 c } := by
  rw [addToChecksum, if_pos h]

lemma store_numbered (h : g.hadLineNumber = true) (c : UInt8) : ∃ buffer overflowed,
    storeAndAddToChecksum g c = { g with
      buffer := buffer
      overflowed := overflowed
      computedChecksum := g.computedChecksum ^^^ c
      crc16 := updateNormal g.crc16 c } := by
  obtain ⟨buffer, overflowed, hstore⟩ := store_kept g c
  rw [addToChecksum_numbered h] at hstore
  exact ⟨buffer, overflowed, hstore⟩

/-- What a character that belongs to the checksum does. -/
def NextNumbered (cnc : Bool) (mode : Mode) (x : UInt8) (y : UInt16) (c : UInt8)
    (g : GCodeBuffer) : Prop :=
  if mode = .code 0 ∧ c = char '*' then
    g.bufferState = .parsingChecksum ∧ Marked x y 0 0 g
  else if mode.isCode ∧ c = char ';' then
    (g.bufferState = .parsingComment ∨ g.bufferState = .discarding) ∧ g.hadChecksum = false
  else Numbered cnc (mode.step cnc c) (x ^^^ c) (updateNormal y c) g

lemma numbered_stored (hline : g.hadLineNumber = true) (hsum : g.hadChecksum = false)
    (hmode : modeOf g = some mode) (c : UInt8) :
    Numbered g.cnc mode (g.computedChecksum ^^^ c) (updateNormal g.crc16 c)
      (storeAndAddToChecksum g c) := by
  obtain ⟨buffer, overflowed, hstore⟩ := store_numbered hline c
  rw [hstore]
  exact ⟨rfl, hline, hsum, hmode, rfl, rfl⟩

lemma parsingGCode_numbered (h : Numbered cnc mode x y g) (hg : g.bufferState = .parsingGCode)
    (c : UInt8) : NextNumbered cnc mode x y c (parsingGCode g c) := by
  obtain ⟨hcnc, hline, hsum, hmode, rfl, rfl⟩ := h
  have hstay : modeOf g = some (.code g.braceCount) := by
    rw [modeOf, hg]
  obtain rfl : Mode.code g.braceCount = mode := Option.some.inj (hstay.symm.trans hmode)
  subst hcnc
  rw [NextNumbered, parsingGCode]
  by_cases hstar : c = char '*'
  · subst hstar
    rw [if_pos rfl]
    by_cases hbraces : g.braceCount = 0
    · rw [if_pos ⟨by rw [hbraces], rfl⟩, if_pos ⟨hline, hbraces⟩]
      exact ⟨rfl, rfl, rfl, rfl, rfl, rfl⟩
    · rw [if_neg (fun h => hbraces (Mode.code.inj h.1)), if_neg (fun h => absurd h.2 (by decide)),
        if_neg (fun h => hbraces h.2)]
      exact numbered_stored hline hsum hstay _
  · rw [if_neg (fun h => hstar h.2), if_neg hstar]
    by_cases hcomment : c = char ';'
    · rw [if_pos ⟨rfl, hcomment⟩, if_pos hcomment]
      split
      · obtain ⟨buffer, overflowed, hstore⟩ := store_kept g c
        rw [hstore]
        refine ⟨Or.inl rfl, ?_⟩
        rw [addToChecksum_numbered hline]
        exact hsum
      · exact ⟨Or.inr rfl, hsum⟩
    · rw [if_neg (fun h => hcomment h.2), if_neg hcomment, Mode.step]
      by_cases hleft : c = char '('
      · rw [if_pos hleft]
        by_cases hbracket : g.braceCount = 0 ∧ g.cnc = true
        · rw [if_pos ⟨hleft, hbracket⟩, if_pos hbracket, addToChecksum_numbered hline]
          refine ⟨rfl, hline, hsum, ?_, rfl, rfl⟩
          rw [modeOf]
          exact if_pos hbracket.1
        · have hquote : c ≠ char '"' := by
            rw [hleft]
            decide
          have hopen : c ≠ char '\x7b' := by
            rw [hleft]
            decide
          have hclose : c ≠ char '\x7d' := by
            rw [hleft]
            decide
          rw [if_neg (fun h => hbracket h.2), if_neg hbracket, if_neg hquote, if_neg hopen,
            if_neg (fun h => hclose h.1)]
          exact numbered_stored hline hsum hstay c
      · rw [if_neg (fun h => hleft h.1), if_neg hleft]
        by_cases hquote : c = char '"'
        · rw [if_pos hquote, if_pos hquote]
          obtain ⟨buffer, overflowed, hstore⟩ := store_numbered hline c
          rw [hstore]
          exact ⟨rfl, hline, hsum, rfl, rfl, rfl⟩
        · rw [if_neg hquote, if_neg hquote]
          by_cases hopen : c = char '\x7b'
          · rw [if_pos hopen, if_pos hopen]
            let deeper := { g with braceCount := g.braceCount + 1, seenExpression := true }
            have hdeeper : modeOf deeper = some (.code (g.braceCount + 1)) := by
              simp only [deeper, modeOf, hg]
            exact numbered_stored (g := deeper) hline hsum hdeeper c
          · rw [if_neg hopen, if_neg hopen]
            by_cases hclose : c = char '\x7d'
            · rw [if_pos hclose]
              by_cases hbraces : g.braceCount ≠ 0
              · rw [if_pos ⟨hclose, hbraces⟩, if_pos hbraces]
                let shallower := { g with braceCount := g.braceCount - 1 }
                have hshallower : modeOf shallower = some (.code (g.braceCount - 1)) := by
                  simp only [shallower, modeOf, hg]
                exact numbered_stored (g := shallower) hline hsum hshallower c
              · rw [if_neg (fun h => hbraces h.2), if_neg hbraces]
                exact numbered_stored hline hsum hstay c
            · rw [if_neg (fun h => hclose h.1), if_neg hclose]
              exact numbered_stored hline hsum hstay c

lemma startGCode_numbered (h : Numbered cnc (.code 0) x y g) (hbraces : g.braceCount = 0)
    (c : UInt8) : NextNumbered cnc (.code 0) x y c (startGCode g c) := by
  rw [startGCode]
  apply parsingGCode_numbered _ rfl
  refine ⟨h.cnc, h.hadLineNumber, h.hadChecksum, ?_, h.computedChecksum, h.crc16⟩
  rw [← hbraces]
  rfl

/-- A digit or a blank is as good in the line number as behind it. -/
lemma nextNumbered_plain (hplain : isDigit c ∨ isBlank c)
    (h : Numbered cnc (.code 0) (x ^^^ c) (updateNormal y c) g) :
    NextNumbered cnc (.code 0) x y c g := by
  have hne (b : UInt8) (hb : (isDigit b || isBlank b) = false) : c ≠ b := by
    rintro rfl
    rw [Bool.or_eq_false_iff] at hb
    simp_all
  rw [NextNumbered, if_neg (fun h => hne _ (by decide) h.2), if_neg (fun h => hne _ (by decide) h.2),
    Mode.step, if_neg (fun h => hne _ (by decide) h.1), if_neg (hne _ (by decide)),
    if_neg (hne _ (by decide)), if_neg (fun h => hne _ (by decide) h.1)]
  exact h

lemma parsingWhitespace_numbered (h : Numbered cnc (.code 0) x y g) (hbraces : g.braceCount = 0)
    (c : UInt8) : NextNumbered cnc (.code 0) x y c (parsingWhitespace g c) := by
  rw [parsingWhitespace]
  split
  · next hblank =>
    apply nextNumbered_plain (Or.inr (decide_eq_true hblank))
    rw [addToChecksum_numbered h.hadLineNumber, ← h.computedChecksum, ← h.crc16]
    exact ⟨h.cnc, h.hadLineNumber, h.hadChecksum, h.mode, rfl, rfl⟩
  · exact startGCode_numbered h hbraces c

lemma parseChar_numbered (h : Numbered cnc mode x y g) (c : UInt8) :
    NextNumbered cnc mode x y c (parseChar g c) := by
  have hmode := h.mode
  cases hg : g.bufferState
  case parsingLineNumber =>
    rw [modeOf, hg] at hmode
    obtain ⟨hbraces, hcode⟩ := Option.ite_none_right_eq_some.mp hmode
    obtain rfl : Mode.code 0 = mode := Option.some.inj hcode
    rw [parseChar, hg]
    dsimp only
    rw [parsingLineNumber]
    split
    · next hdigit =>
      apply nextNumbered_plain (Or.inl hdigit)
      rw [addToChecksum_numbered h.hadLineNumber, ← h.computedChecksum, ← h.crc16]
      exact ⟨h.cnc, h.hadLineNumber, h.hadChecksum, h.mode, rfl, rfl⟩
    · exact parsingWhitespace_numbered (g := { g with bufferState := .parsingWhitespace })
        ⟨h.cnc, h.hadLineNumber, h.hadChecksum, if_pos hbraces, h.computedChecksum, h.crc16⟩
        hbraces c
  case parsingWhitespace =>
    rw [modeOf, hg] at hmode
    obtain ⟨hbraces, hcode⟩ := Option.ite_none_right_eq_some.mp hmode
    obtain rfl : Mode.code 0 = mode := Option.some.inj hcode
    rw [parseChar, hg]
    exact parsingWhitespace_numbered h hbraces c
  case parsingGCode =>
    rw [parseChar, hg]
    exact parsingGCode_numbered h hg c
  case parsingQuotedString =>
    rw [modeOf, hg] at hmode
    obtain rfl : Mode.quoted g.braceCount = mode := Option.some.inj hmode
    rw [parseChar, hg]
    dsimp only
    rw [parsingQuotedString, NextNumbered, if_neg (fun h => absurd h.1 (by simp)),
      if_neg (fun h => absurd h.1 (by simp [Mode.isCode])), Mode.step, ← h.computedChecksum,
      ← h.crc16, ← h.cnc]
    obtain ⟨buffer, overflowed, hstore⟩ := store_numbered h.hadLineNumber c
    rw [hstore]
    dsimp only
    split
    · exact ⟨rfl, h.hadLineNumber, h.hadChecksum, rfl, rfl, rfl⟩
    · exact ⟨rfl, h.hadLineNumber, h.hadChecksum, h.mode, rfl, rfl⟩
  case parsingBracketedComment =>
    rw [modeOf, hg] at hmode
    obtain ⟨hbraces, hcode⟩ := Option.ite_none_right_eq_some.mp hmode
    obtain rfl : Mode.bracketed = mode := Option.some.inj hcode
    rw [parseChar, hg]
    dsimp only
    rw [parsingBracketedComment, NextNumbered, if_neg (fun h => absurd h.1 (by simp)),
      if_neg (fun h => absurd h.1 (by decide)), Mode.step, ← h.computedChecksum, ← h.crc16, ← h.cnc,
      addToChecksum_numbered h.hadLineNumber]
    dsimp only
    split
    · refine ⟨rfl, h.hadLineNumber, h.hadChecksum, ?_, rfl, rfl⟩
      rw [← hbraces]
      rfl
    · exact ⟨rfl, h.hadLineNumber, h.hadChecksum, h.mode, rfl, rfl⟩
  all_goals
    rw [modeOf, hg] at hmode
    exact absurd hmode.symm (Option.some_ne_none mode)

/-! ### Whole lines -/

def feed (g : GCodeBuffer) (c : UInt8) : GCodeBuffer := (StringParser.put g c).1

def feedAll (g : GCodeBuffer) (l : List UInt8) : GCodeBuffer := l.foldl feed g

/-- The character does not end the line. -/
def Within (doingFile : Bool) (c : UInt8) : Prop := endsLine c = true → c = char '\r' ∧ doingFile

/-- A character changes the parser as `parseChar` does, or it makes the line a lost one, or it is a
CR in a file. -/
lemma feed_eq (hc : Within g.doingFile c) : ∃ commandLength,
    feed g c = if c = char '\r' then { g with commandLength := commandLength }
      else if c = 0x7F ∧ g.bufferState ≠ .discarding then
        { g with commandLength := commandLength, buffer := [], bufferState := .discarding }
      else parseChar { g with commandLength := commandLength } c := by
  obtain ⟨commandLength, hcount⟩ : ∃ k, countChar g c = { g with commandLength := k } := by
    rw [countChar]
    split
    · exact ⟨_, rfl⟩
    · exact ⟨g.commandLength, rfl⟩
  refine ⟨commandLength, ?_⟩
  rw [feed, StringParser.put, hcount]
  by_cases hreturn : c = char '\r'
  · rw [if_pos hreturn]
    have hends : endsLine c = true := decide_eq_true (Or.inr (Or.inr hreturn))
    simp only [hreturn, (hc hends).2, and_self, if_true]
  · have hwithin : endsLine c = false := Bool.eq_false_iff.mpr fun h => hreturn (hc h).1
    rw [if_neg (fun h => hreturn h.1), if_neg (by rw [hwithin]; decide), if_neg hreturn, resync]
    split
    · rfl
    · rfl

def Line (doingFile : Bool) (l : List UInt8) : Prop := ∀ c ∈ l, Within doingFile c

lemma textOf_return (l : List UInt8) : textOf (char '\r' :: l) = textOf l :=
  List.filter_cons_of_neg (by decide)

lemma textOf_other (hc : c ≠ char '\r') (l : List UInt8) : textOf (c :: l) = c :: textOf l :=
  List.filter_cons_of_pos (by simpa using hc)

lemma feed_discarding (hc : Within g.doingFile c) (hg : g.bufferState = .discarding) :
    ∃ commandLength, feed g c = { g with commandLength := commandLength } := by
  obtain ⟨commandLength, hfeed⟩ := feed_eq hc
  refine ⟨commandLength, ?_⟩
  rw [hfeed]
  split
  · rfl
  · rw [if_neg (fun h => h.2 hg), parseChar, hg]

/-- The rest of a line is thrown away. -/
lemma feedAll_discarding (hl : Line g.doingFile l) (hg : g.bufferState = .discarding) :
    ∃ commandLength, feedAll g l = { g with commandLength := commandLength } := by
  induction l generalizing g with
  | nil => exact ⟨g.commandLength, rfl⟩
  | cons c l ih =>
    obtain ⟨hc, hl⟩ := List.forall_mem_cons.mp hl
    obtain ⟨commandLength, hfeed⟩ := feed_discarding hc hg
    rw [feedAll, List.foldl_cons, hfeed]
    exact ih hl hg

/-- How a character that is neither a CR nor a sign of a receiver error is taken. -/
lemma feedAll_cons (P : GCodeBuffer → Prop) (hc : Within g.doingFile c) (hl : Line g.doingFile l)
    (hreturn : c = char '\r' → ∀ k, P (feedAll { g with commandLength := k } l))
    (hlost : ∀ g : GCodeBuffer, g.buffer = [] ∧ g.bufferState = .discarding → P g)
    (hparse : c ≠ char '\r' →
      ∀ k, P (feedAll (parseChar { g with commandLength := k } c) l)) :
    P (feedAll g (c :: l)) := by
  obtain ⟨commandLength, hfeed⟩ := feed_eq hc
  rw [feedAll, List.foldl_cons, hfeed]
  split
  · next h => exact hreturn h commandLength
  · next h =>
    split
    · obtain ⟨k, hall⟩ := feedAll_discarding (g := { g with
        commandLength := commandLength, buffer := [], bufferState := .discarding }) hl rfl
      rw [feedAll] at hall
      rw [hall]
      exact hlost _ ⟨rfl, rfl⟩
    · exact hparse h commandLength

lemma line_parseChar (hl : Line g.doingFile l) (c : UInt8) : Line (parseChar g c).doingFile l := by
  rw [(parseChar_fed g c).doingFile]
  exact hl

def value (digits : List UInt8) (d : UInt32) : UInt32 :=
  digits.foldl (fun d c => 10 * d + (c - char '0').toUInt32) d

def received (digits : List UInt8) (n : UInt8) : UInt8 := digits.foldl (fun n _ => n + 1) n

lemma marked_line {declared : UInt32} {count : UInt8} (hl : Line g.doingFile l)
    (hg : g.bufferState = .parsingChecksum) (h : Marked x y declared count g) :
    (feedAll g l).buffer = [] ∨ Marked x y (value ((textOf l).takeWhile isDigit) declared)
      (received ((textOf l).takeWhile isDigit) count) (feedAll g l) := by
  induction l generalizing g declared count with
  | nil => exact Or.inr h
  | cons c l ih =>
    obtain ⟨hc, hrest⟩ := List.forall_mem_cons.mp hl
    apply feedAll_cons (fun g' => g'.buffer = [] ∨
      Marked x y (value ((textOf (c :: l)).takeWhile isDigit) declared)
        (received ((textOf (c :: l)).takeWhile isDigit) count) g') hc hrest
    · rintro rfl k
      rw [textOf_return]
      exact ih hrest hg ⟨h.hadChecksum, h.computedChecksum, h.crc16, h.declaredChecksum,
        h.checksumCharsReceived⟩
    · exact fun g hg => Or.inl hg.1
    · intro hreturn k
      rw [textOf_other hreturn]
      have hparse : parseChar { g with commandLength := k } c =
          parsingChecksum { g with commandLength := k } c := by
        rw [parseChar, hg]
      rw [hparse, parsingChecksum]
      split
      · next hdigit =>
        rw [List.takeWhile_cons_of_pos hdigit]
        apply ih
        · exact hrest
        · exact hg
        · refine ⟨h.hadChecksum, h.computedChecksum, h.crc16, ?_, ?_⟩
          · rw [← h.declaredChecksum]
          · rw [← h.checksumCharsReceived]
      · next hdigit =>
        rw [List.takeWhile_cons_of_neg hdigit]
        obtain ⟨k', hall⟩ := feedAll_discarding
          (g := { g with commandLength := k, bufferState := .discarding }) hrest rfl
        rw [hall]
        exact Or.inr ⟨h.hadChecksum, h.computedChecksum, h.crc16, h.declaredChecksum,
          h.checksumCharsReceived⟩

/-- In a comment nothing is taken for a checksum. -/
lemma comment_line (hl : Line g.doingFile l)
    (hg : g.bufferState = .parsingComment ∨ g.bufferState = .discarding)
    (h : g.hadChecksum = false) : (feedAll g l).hadChecksum = false := by
  induction l generalizing g with
  | nil => exact h
  | cons c l ih =>
    obtain hg | hg := hg
    · obtain ⟨hc, hl'⟩ := List.forall_mem_cons.mp hl
      obtain ⟨k, hfeed⟩ := feed_eq hc
      rw [feedAll, List.foldl_cons, hfeed]
      split
      · exact ih hl' (Or.inl hg) h
      · split
        · exact ih hl' (Or.inr rfl) h
        · have hparse : parseChar { g with commandLength := k } c =
              storeAndAddToChecksum { g with commandLength := k } c := by
            rw [parseChar, hg]
          have hkept : (storeAndAddToChecksum { g with commandLength := k } c).hadChecksum =
              false := by
            obtain ⟨buffer, overflowed, hstore⟩ := store_kept { g with commandLength := k } c
            rw [hstore, addToChecksum]
            split <;> exact h
          rw [hparse]
          apply ih _ (Or.inl _) hkept
          · rw [store_doingFile]
            exact hl'
          · rw [store_bufferState]
            exact hg
    · obtain ⟨k, hall⟩ := feedAll_discarding hl hg
      rw [hall]
      exact h

/-- What the parser has found when a numbered line ends. -/
def Outcome (p : Option (List UInt8 × List UInt8)) (x : UInt8) (y : UInt16) (g : GCodeBuffer) :
    Prop :=
  g.buffer = [] ∨
    match p with
    | none => g.hadChecksum = false
    | some (covered, after) => Marked (covered.foldl (· ^^^ ·) x) (covered.foldl updateNormal y)
        (value (after.takeWhile isDigit) 0) (received (after.takeWhile isDigit) 0) g

lemma Outcome.cons {p : Option (List UInt8 × List UInt8)}
    (h : Outcome p (x ^^^ c) (updateNormal y c) g) :
    Outcome (p.map fun p => (c :: p.1, p.2)) x y g := by
  cases p with
  | none => exact h
  | some p => exact h

lemma Outcome.count {p : Option (List UInt8 × List UInt8)} (h : Outcome p x y g) (k : UInt32) :
    Outcome p x y { g with commandLength := k } := by
  obtain h | h := h
  · exact Or.inl h
  · cases p with
    | none => exact Or.inr h
    | some p =>
      exact Or.inr ⟨h.hadChecksum, h.computedChecksum, h.crc16, h.declaredChecksum,
        h.checksumCharsReceived⟩

lemma numbered_line (hl : Line g.doingFile l) (h : Numbered cnc mode x y g) :
    Outcome (split cnc mode (textOf l)) x y (feedAll g l) := by
  induction l generalizing g mode x y with
  | nil => exact Or.inr h.hadChecksum
  | cons c l ih =>
    obtain ⟨hc, hrest⟩ := List.forall_mem_cons.mp hl
    have hk (k : UInt32) : Numbered cnc mode x y { g with commandLength := k } :=
      ⟨h.cnc, h.hadLineNumber, h.hadChecksum, h.mode, h.computedChecksum, h.crc16⟩
    apply feedAll_cons (Outcome (split cnc mode (textOf (c :: l))) x y) hc hrest
    · rintro rfl k
      rw [textOf_return]
      exact ih hrest (hk k)
    · exact fun g hg => Or.inl hg.1
    · intro hreturn k
      rw [textOf_other hreturn]
      have hnext := parseChar_numbered (hk k) c
      have hl' : Line (parseChar { g with commandLength := k } c).doingFile l :=
        line_parseChar (g := { g with commandLength := k }) hrest c
      rw [NextNumbered] at hnext
      rw [split]
      split at hnext
      · next hmark =>
        rw [if_pos hmark]
        exact marked_line hl' hnext.1 hnext.2
      · next hmark =>
        rw [if_neg hmark]
        split at hnext
        · next hcomment =>
          rw [if_pos hcomment]
          exact Or.inr (comment_line hl' hnext.1 hnext.2)
        · next hcomment =>
          rw [if_neg hcomment]
          exact (ih hl' hnext).cons

/-- The line has no number, and its first character has come. -/
structure Plain (g : GCodeBuffer) : Prop where
  hadLineNumber : g.hadLineNumber = false
  hadChecksum : g.hadChecksum = false
  state : g.bufferState = .parsingGCode ∨ g.bufferState = .parsingQuotedString ∨
    g.bufferState = .parsingBracketedComment ∨ g.bufferState = .parsingComment ∨
    g.bufferState = .discarding

lemma Plain.store (h : Plain g) (c : UInt8) : Plain (storeAndAddToChecksum g c) := by
  obtain ⟨buffer, overflowed, hstore⟩ := store_kept g c
  rw [hstore, addToChecksum, if_neg (by rw [h.hadLineNumber]; decide)]
  exact ⟨h.hadLineNumber, h.hadChecksum, h.state⟩

lemma Plain.addToChecksum (h : Plain g) (c : UInt8) : StringParser.addToChecksum g c = g := by
  rw [StringParser.addToChecksum, if_neg (by rw [h.hadLineNumber]; decide)]

lemma parsingGCode_plain (h : Plain g) (c : UInt8) : Plain (parsingGCode g c) := by
  have hstored := h.store c
  rw [parsingGCode]
  split_ifs with hstar hmark hcomment hwhole hleft hbracket hquote hopen hclose hbraces
  · rw [h.hadLineNumber] at hmark
    exact absurd hmark.1 (by decide)
  · exact hstored
  · exact ⟨hstored.hadLineNumber, hstored.hadChecksum, by simp⟩
  · exact ⟨h.hadLineNumber, h.hadChecksum, by simp⟩
  · rw [h.addToChecksum]
    exact ⟨h.hadLineNumber, h.hadChecksum, by simp⟩
  · exact hstored
  · exact ⟨hstored.hadLineNumber, hstored.hadChecksum, by simp⟩
  · apply Plain.store
    exact ⟨h.hadLineNumber, h.hadChecksum, h.state⟩
  · apply Plain.store
    exact ⟨h.hadLineNumber, h.hadChecksum, h.state⟩
  · exact hstored
  · exact hstored

lemma parseChar_plain (h : Plain g) (c : UInt8) : Plain (parseChar g c) := by
  have hstored := h.store c
  have hadded := h.addToChecksum c
  obtain hg | hg | hg | hg | hg := h.state
  · rw [parseChar, hg]
    exact parsingGCode_plain h c
  · rw [parseChar, hg]
    dsimp only
    rw [parsingQuotedString]
    split
    · exact ⟨hstored.hadLineNumber, hstored.hadChecksum, Or.inl rfl⟩
    · exact hstored
  · rw [parseChar, hg]
    dsimp only
    rw [parsingBracketedComment, hadded]
    split
    · exact ⟨h.hadLineNumber, h.hadChecksum, Or.inl rfl⟩
    · exact h
  · rw [parseChar, hg]
    exact hstored
  · rw [parseChar, hg]
    exact h

lemma plain_line (hl : Line g.doingFile l) (h : Plain g) : (feedAll g l).hadChecksum = false := by
  induction l generalizing g with
  | nil => exact h.hadChecksum
  | cons c l ih =>
    obtain ⟨hc, hrest⟩ := List.forall_mem_cons.mp hl
    obtain ⟨k, hfeed⟩ := feed_eq hc
    have hk : Plain { g with commandLength := k } := ⟨h.hadLineNumber, h.hadChecksum, h.state⟩
    rw [feedAll, List.foldl_cons, hfeed]
    split
    · exact ih hrest hk
    · split
      · exact ih hrest ⟨h.hadLineNumber, h.hadChecksum, by simp⟩
      · exact ih (line_parseChar (g := { g with commandLength := k }) hrest c)
          (parseChar_plain hk c)

/-- No character of the line has come but blanks. -/
structure Fresh (cnc : Bool) (g : GCodeBuffer) : Prop where
  cnc : g.cnc = cnc
  state : g.bufferState = .parseNotStarted
  buffer : g.buffer = []
  hadLineNumber : g.hadLineNumber = false
  hadChecksum : g.hadChecksum = false
  computedChecksum : g.computedChecksum = 0

lemma addToChecksum_buffer (g : GCodeBuffer) (c : UInt8) : (addToChecksum g c).buffer = g.buffer := by
  rw [addToChecksum]
  split <;> rfl

/-- Nothing of the line has been stored. -/
structure Bare (cnc : Bool) (state : GCodeBufferState) (g : GCodeBuffer) : Prop where
  cnc : g.cnc = cnc
  state : g.bufferState = state
  buffer : g.buffer = []
  braceCount : g.braceCount = 0

lemma Bare.added {state : GCodeBufferState} (h : Bare cnc state g) (c : UInt8) :
    Bare cnc state (addToChecksum g c) := by
  rw [addToChecksum]
  split
  · exact ⟨h.cnc, h.state, h.buffer, h.braceCount⟩
  · exact h

/-- The first character that is no blank begins the line number or the command. -/
lemma fresh_step (h : Fresh cnc g) (c : UInt8) :
    ((c = char 'N' ∨ c = char 'n') ∧
      Numbered cnc (.code 0) (0 ^^^ c) (updateNormal 0 c) (parseChar g c) ∧
      Bare cnc .parsingLineNumber (parseChar g c)) ∨
    (¬ (c = char 'N' ∨ c = char 'n') ∧ isBlank c = true ∧ Fresh cnc (parseChar g c)) ∨
    (¬ (c = char 'N' ∨ c = char 'n') ∧ isBlank c = false ∧ Plain (parseChar g c) ∧
      ∃ g', parseChar g c = startGCode g' c ∧ Bare cnc .parseNotStarted g') := by
  have hparse : parseChar g c = parseNotStarted g c := by
    rw [parseChar, h.state]
  have hadded : StringParser.addToChecksum { g with braceCount := 0 } c =
      { g with braceCount := 0 } := by
    rw [StringParser.addToChecksum]
    exact if_neg (by rw [h.hadLineNumber]; decide)
  rw [hparse, parseNotStarted]
  dsimp only
  rw [hadded]
  by_cases hnumber : c = char 'N' ∨ c = char 'n'
  · rw [if_pos hnumber]
    refine Or.inl ⟨hnumber, ⟨h.cnc, rfl, h.hadChecksum, rfl, ?_, rfl⟩, ⟨h.cnc, rfl, ?_, rfl⟩⟩
    · exact congrArg (· ^^^ c) h.computedChecksum
    · exact (addToChecksum_buffer _ c).trans h.buffer
  · rw [if_neg hnumber]
    refine Or.inr ?_
    by_cases hspace : c = char ' '
    · rw [if_pos hspace]
      exact Or.inl ⟨hnumber, decide_eq_true (Or.inl hspace),
        ⟨h.cnc, h.state, h.buffer, h.hadLineNumber, h.hadChecksum, h.computedChecksum⟩⟩
    · rw [if_neg hspace]
      by_cases htab : c = char '\t'
      · rw [if_pos htab]
        exact Or.inl ⟨hnumber, decide_eq_true (Or.inr htab),
          ⟨h.cnc, h.state, h.buffer, h.hadLineNumber, h.hadChecksum, h.computedChecksum⟩⟩
      · rw [if_neg htab]
        refine Or.inr ⟨hnumber, decide_eq_false (not_or.mpr ⟨hspace, htab⟩), ?_, _, rfl,
          ⟨h.cnc, h.state, h.buffer, rfl⟩⟩
        apply parsingGCode_plain
        exact ⟨h.hadLineNumber, h.hadChecksum, Or.inl rfl⟩

lemma fresh_line (hl : Line g.doingFile l) (h : Fresh cnc g) :
    Outcome (mark cnc l) 0 0 (feedAll g l) := by
  induction l generalizing g with
  | nil => exact Or.inl h.buffer
  | cons c l ih =>
    obtain ⟨hc, hrest⟩ := List.forall_mem_cons.mp hl
    have hk (k : UInt32) : Fresh cnc { g with commandLength := k } :=
      ⟨h.cnc, h.state, h.buffer, h.hadLineNumber, h.hadChecksum, h.computedChecksum⟩
    apply feedAll_cons (Outcome (mark cnc (c :: l)) 0 0) hc hrest
    · rintro rfl k
      rw [mark, textOf_return]
      exact ih hrest (hk k)
    · exact fun g hg => Or.inl hg.1
    · intro hreturn k
      have hl' : Line (parseChar { g with commandLength := k } c).doingFile l :=
        line_parseChar (g := { g with commandLength := k }) hrest c
      rw [mark, textOf_other hreturn]
      obtain ⟨hnumber, hnumbered, -⟩ | ⟨-, hblank, hfresh⟩ | ⟨hnumber, hblank, hplain, -⟩ :=
        fresh_step (hk k) c
      · have hblank : isBlank c = false := by
          obtain rfl | rfl := hnumber <;> decide
        have htext : isNumbered (c :: textOf l) = true := decide_eq_true hnumber
        have hmark : split cnc (.code 0) (c :: textOf l) =
            (split cnc (.code 0) (textOf l)).map fun p => (c :: p.1, p.2) := by
          rw [split]
          obtain rfl | rfl := hnumber <;> rfl
        rw [List.dropWhile_cons_of_neg (by rw [hblank]; decide), if_pos htext, hmark]
        exact (numbered_line hl' hnumbered).cons
      · rw [List.dropWhile_cons_of_pos hblank]
        exact ih hl' hfresh
      · have htext : isNumbered (c :: textOf l) ≠ true := fun heq => hnumber (of_decide_eq_true heq)
        rw [List.dropWhile_cons_of_neg (by rw [hblank]; decide), if_neg htext]
        exact Or.inr (plain_line hl' hplain)

/-! ### Comments -/

/-- A character of the line has been stored or thrown away. -/
def Settled (g : GCodeBuffer) : Prop :=
  (g.buffer ≠ [] ∧ (g.bufferState = .parsingGCode ∨ g.bufferState = .parsingQuotedString ∨
    g.bufferState = .parsingBracketedComment)) ∨
  g.bufferState = .parsingChecksum ∨ g.bufferState = .discarding

lemma store_ne_nil (g : GCodeBuffer) (c : UInt8) : (storeAndAddToChecksum g c).buffer ≠ [] := by
  rw [storeAndAddToChecksum]
  have hbuffer := addToChecksum_buffer g c
  split
  · simp
  · next hfull =>
    have hne : g.buffer ≠ [] := by
      rintro hnil
      rw [gcodeLineEnd, hbuffer, hnil] at hfull
      exact hfull (by decide)
    split
    · exact hbuffer ▸ hne
    · exact hbuffer ▸ hne

/-- Only a semicolon or a comment in parentheses at the start leaves it open whether the line is a
comment. -/
lemma parsingGCode_settled (hg : g.bufferState = .parsingGCode)
    (hcomment : c = char ';' → g.buffer ≠ [])
    (hbracket : c = char '(' ∧ g.braceCount = 0 ∧ g.cnc = true → g.buffer ≠ []) :
    Settled (parsingGCode g c) := by
  have hstored : Settled (storeAndAddToChecksum g c) :=
    Or.inl ⟨store_ne_nil g c, Or.inl ((store_bufferState g c).trans hg)⟩
  rw [parsingGCode]
  split_ifs with hstar hmark hsemicolon hwhole hleft hopen hquote hbrace hclose hbraces
  · exact Or.inr (Or.inl rfl)
  · exact hstored
  · exact absurd (List.length_eq_zero_iff.mp hwhole.2) (hcomment hsemicolon)
  · exact Or.inr (Or.inr rfl)
  · refine Or.inl ⟨?_, Or.inr (Or.inr rfl)⟩
    rw [addToChecksum_buffer]
    exact hbracket ⟨hleft, hopen⟩
  · exact hstored
  · exact Or.inl ⟨store_ne_nil g c, Or.inr (Or.inl rfl)⟩
  · exact Or.inl ⟨store_ne_nil _ c, Or.inl ((store_bufferState _ c).trans hg)⟩
  · exact Or.inl ⟨store_ne_nil _ c, Or.inl ((store_bufferState _ c).trans hg)⟩
  · exact hstored
  · exact hstored

lemma parseChar_settled (h : Settled g) (c : UInt8) : Settled (parseChar g c) := by
  obtain ⟨hne, hg | hg | hg⟩ | hg | hg := h
  · rw [parseChar, hg]
    exact parsingGCode_settled hg (fun _ => hne) (fun _ => hne)
  · rw [parseChar, hg]
    dsimp only
    rw [parsingQuotedString]
    split
    · exact Or.inl ⟨store_ne_nil g c, Or.inl rfl⟩
    · exact Or.inl ⟨store_ne_nil g c, Or.inr (Or.inl ((store_bufferState g c).trans hg))⟩
  · have hadded : (addToChecksum g c).buffer ≠ [] := by
      rw [addToChecksum_buffer]
      exact hne
    rw [parseChar, hg]
    dsimp only
    rw [parsingBracketedComment]
    split
    · exact Or.inl ⟨hadded, Or.inl rfl⟩
    · exact Or.inl ⟨hadded, Or.inr (Or.inr ((addToChecksum_bufferState g c).trans hg))⟩
  · rw [parseChar, hg]
    dsimp only
    rw [parsingChecksum]
    split
    · exact Or.inr (Or.inl hg)
    · exact Or.inr (Or.inr rfl)
  · rw [parseChar, hg]
    exact Or.inr (Or.inr hg)

lemma settled_line (hl : Line g.doingFile l) (h : Settled g) :
    (feedAll g l).bufferState ≠ .parsingComment := by
  induction l generalizing g with
  | nil =>
    intro hg
    change g.bufferState = .parsingComment at hg
    rw [Settled, hg] at h
    simp at h
  | cons c l ih =>
    obtain ⟨hc, hrest⟩ := List.forall_mem_cons.mp hl
    obtain ⟨k, hfeed⟩ := feed_eq hc
    rw [feedAll, List.foldl_cons, hfeed]
    split
    · exact ih hrest h
    · split
      · exact ih hrest (Or.inr (Or.inr rfl))
      · exact ih (line_parseChar (g := { g with commandLength := k }) hrest c)
          (parseChar_settled (g := { g with commandLength := k }) h c)

def bareState : Bool → GCodeBufferState
  | true => .parsingBracketedComment
  | false => .parsingGCode

/-- A claim about a comment need not be shown of a lost line. -/
lemma comment_cons {P : Prop} (hc : Within g.doingFile c) (hrest : Line g.doingFile l)
    (hreturn : c = char '\r' →
      ∀ k, (feedAll { g with commandLength := k } l).bufferState = .parsingComment → P)
    (hparse : c ≠ char '\r' → ∀ k,
      (feedAll (parseChar { g with commandLength := k } c) l).bufferState = .parsingComment → P) :
    (feedAll g (c :: l)).bufferState = .parsingComment → P := by
  apply feedAll_cons (fun g' => g'.bufferState = .parsingComment → P) hc hrest hreturn
  · rintro g ⟨-, hg⟩ hcomment
    rw [hg] at hcomment
    exact absurd hcomment (by decide)
  · exact hparse

lemma gcode_comment (h : Bare cnc (bareState false) g) (hl : Line (parsingGCode g c).doingFile l)
    (hbracketed : ∀ {g : GCodeBuffer}, Line g.doingFile l → Bare cnc (bareState true) g →
      (feedAll g l).bufferState = .parsingComment →
        firstBare cnc true (textOf l) = some (char ';')) :
    (feedAll (parsingGCode g c) l).bufferState = .parsingComment →
      firstBare cnc false (c :: textOf l) = some (char ';') := by
  rw [firstBare]
  by_cases hsemicolon : c = char ';'
  · intro _
    rw [hsemicolon]
    exact if_neg (fun h => absurd h.1 (by decide))
  · by_cases hbracket : c = char '(' ∧ cnc = true
    · rw [if_pos hbracket]
      have hparse : parsingGCode g c =
          { addToChecksum g c with bufferState := .parsingBracketedComment } := by
        obtain ⟨rfl, hcnc⟩ := hbracket
        rw [parsingGCode, if_neg (by decide), if_neg (by decide), if_pos rfl]
        exact if_pos ⟨h.braceCount, h.cnc.trans hcnc⟩
      rw [hparse] at hl ⊢
      have hadded := h.added c
      exact hbracketed hl ⟨hadded.cnc, rfl, hadded.buffer, hadded.braceCount⟩
    · rw [if_neg hbracket]
      intro hcomment
      apply absurd hcomment
      apply settled_line hl
      apply parsingGCode_settled h.state
      · exact fun heq => absurd heq hsemicolon
      · rintro ⟨hleft, -, hcnc⟩
        exact absurd (And.intro hleft (h.cnc.symm.trans hcnc)) hbracket

lemma bare_line {inBracket : Bool} (hl : Line g.doingFile l)
    (h : Bare cnc (bareState inBracket) g) :
    (feedAll g l).bufferState = .parsingComment →
      firstBare cnc inBracket (textOf l) = some (char ';') := by
  induction l generalizing g inBracket with
  | nil =>
    intro hcomment
    have hstate := h.state.symm.trans hcomment
    cases inBracket <;> exact absurd hstate (by decide)
  | cons c l ih =>
    obtain ⟨hc, hrest⟩ := List.forall_mem_cons.mp hl
    have hk (k : UInt32) : Bare cnc (bareState inBracket) { g with commandLength := k } :=
      ⟨h.cnc, h.state, h.buffer, h.braceCount⟩
    refine comment_cons hc hrest ?_ ?_
    · rintro rfl k
      rw [textOf_return]
      exact ih hrest (hk k)
    · intro hreturn k
      have hl' : Line (parseChar { g with commandLength := k } c).doingFile l :=
        line_parseChar (g := { g with commandLength := k }) hrest c
      have hadded (k : UInt32) := (hk k).added c
      rw [textOf_other hreturn]
      cases inBracket with
      | true =>
        have hparse : parseChar { g with commandLength := k } c =
            parsingBracketedComment { g with commandLength := k } c := by
          rw [parseChar, h.state, bareState]
        rw [hparse, parsingBracketedComment] at hl' ⊢
        rw [firstBare]
        by_cases hclose : c = char ')'
        · rw [if_pos hclose] at hl' ⊢
          rw [decide_eq_false (not_not.mpr hclose)]
          exact ih hl' ⟨(hadded k).cnc, rfl, (hadded k).buffer, (hadded k).braceCount⟩
        · rw [if_neg hclose] at hl' ⊢
          rw [decide_eq_true hclose]
          exact ih hl' (hadded k)
      | false =>
        have hparse : parseChar { g with commandLength := k } c =
            parsingGCode { g with commandLength := k } c := by
          rw [parseChar, h.state, bareState]
        rw [hparse] at hl' ⊢
        exact gcode_comment (hk k) hl' fun hline hbare => ih hline hbare

lemma startGCode_comment {state : GCodeBufferState} (h : Bare cnc state g)
    (hl : Line (startGCode g c).doingFile l) :
    (feedAll (startGCode g c) l).bufferState = .parsingComment →
      firstBare cnc false (c :: textOf l) = some (char ';') :=
  gcode_comment (g := { g with bufferState := .parsingGCode, commandStart := 0 })
    ⟨h.cnc, rfl, h.buffer, h.braceCount⟩ hl fun hline hbare => bare_line hline hbare

lemma whitespace_comment {state : GCodeBufferState} (h : Bare cnc state g)
    (hl : Line (parsingWhitespace g c).doingFile l)
    (hblanks : ∀ {g : GCodeBuffer}, Line g.doingFile l → Bare cnc state g →
      (feedAll g l).bufferState = .parsingComment →
        firstBare cnc false ((textOf l).dropWhile isBlank) = some (char ';')) :
    (feedAll (parsingWhitespace g c) l).bufferState = .parsingComment →
      firstBare cnc false ((c :: textOf l).dropWhile isBlank) = some (char ';') := by
  rw [parsingWhitespace] at hl ⊢
  split at hl
  · next hblank =>
    have hskip : isBlank c = true := decide_eq_true hblank
    rw [if_pos hblank, List.dropWhile_cons_of_pos hskip]
    exact hblanks hl (h.added c)
  · next hblank =>
    have hskip : ¬ isBlank c = true := fun heq => hblank (of_decide_eq_true heq)
    rw [if_neg hblank, List.dropWhile_cons_of_neg hskip]
    exact startGCode_comment h hl

lemma whitespace_line (hl : Line g.doingFile l) (h : Bare cnc .parsingWhitespace g) :
    (feedAll g l).bufferState = .parsingComment →
      firstBare cnc false ((textOf l).dropWhile isBlank) = some (char ';') := by
  induction l generalizing g with
  | nil => exact fun hcomment => absurd (h.state.symm.trans hcomment) (by decide)
  | cons c l ih =>
    obtain ⟨hc, hrest⟩ := List.forall_mem_cons.mp hl
    have hk (k : UInt32) : Bare cnc .parsingWhitespace { g with commandLength := k } :=
      ⟨h.cnc, h.state, h.buffer, h.braceCount⟩
    refine comment_cons hc hrest ?_ ?_
    · rintro rfl k
      rw [textOf_return]
      exact ih hrest (hk k)
    · intro hreturn k
      have hl' : Line (parseChar { g with commandLength := k } c).doingFile l :=
        line_parseChar (g := { g with commandLength := k }) hrest c
      have hparse : parseChar { g with commandLength := k } c =
          parsingWhitespace { g with commandLength := k } c := by
        rw [parseChar, h.state]
      rw [hparse] at hl' ⊢
      rw [textOf_other hreturn]
      exact whitespace_comment (hk k) hl' fun hline hbare => ih hline hbare

lemma lineNumber_line (hl : Line g.doingFile l) (h : Bare cnc .parsingLineNumber g) :
    (feedAll g l).bufferState = .parsingComment →
      firstBare cnc false (((textOf l).dropWhile isDigit).dropWhile isBlank) = some (char ';') := by
  induction l generalizing g with
  | nil => exact fun hcomment => absurd (h.state.symm.trans hcomment) (by decide)
  | cons c l ih =>
    obtain ⟨hc, hrest⟩ := List.forall_mem_cons.mp hl
    have hk (k : UInt32) : Bare cnc .parsingLineNumber { g with commandLength := k } :=
      ⟨h.cnc, h.state, h.buffer, h.braceCount⟩
    refine comment_cons hc hrest ?_ ?_
    · rintro rfl k
      rw [textOf_return]
      exact ih hrest (hk k)
    · intro hreturn k
      have hl' : Line (parseChar { g with commandLength := k } c).doingFile l :=
        line_parseChar (g := { g with commandLength := k }) hrest c
      have hparse : parseChar { g with commandLength := k } c =
          parsingLineNumber { g with commandLength := k } c := by
        rw [parseChar, h.state]
      have hadded := (hk k).added c
      rw [textOf_other hreturn]
      rw [hparse, parsingLineNumber] at hl' ⊢
      split at hl'
      · next hdigit =>
        rw [if_pos hdigit, List.dropWhile_cons_of_pos hdigit]
        exact ih hl' ⟨hadded.cnc, hadded.state, hadded.buffer, hadded.braceCount⟩
      · next hdigit =>
        rw [if_neg hdigit, List.dropWhile_cons_of_neg hdigit]
        exact whitespace_comment (g := { g with
          commandLength := k, bufferState := .parsingWhitespace })
          ⟨h.cnc, rfl, h.buffer, h.braceCount⟩ hl' fun hline hbare => whitespace_line hline hbare

/-- What the parser takes for a comment is one. -/
lemma fresh_comment (hl : Line g.doingFile l) (h : Fresh cnc g) :
    (feedAll g l).bufferState = .parsingComment → isComment cnc l = true := by
  induction l generalizing g with
  | nil => exact fun hcomment => absurd (h.state.symm.trans hcomment) (by decide)
  | cons c l ih =>
    obtain ⟨hc, hrest⟩ := List.forall_mem_cons.mp hl
    have hk (k : UInt32) : Fresh cnc { g with commandLength := k } :=
      ⟨h.cnc, h.state, h.buffer, h.hadLineNumber, h.hadChecksum, h.computedChecksum⟩
    refine comment_cons hc hrest ?_ ?_
    · rintro rfl k
      rw [isComment, textOf_return]
      exact ih hrest (hk k)
    · intro hreturn k
      have hl' : Line (parseChar { g with commandLength := k } c).doingFile l :=
        line_parseChar (g := { g with commandLength := k }) hrest c
      rw [isComment, textOf_other hreturn]
      obtain ⟨hnumber, -, hbare⟩ | ⟨-, hblank, hfresh⟩ | ⟨hnumber, hblank, -, g', hparse, hbare⟩ :=
        fresh_step (hk k) c
      · have hblank : isBlank c = false := by
          obtain rfl | rfl := hnumber <;> decide
        have htext : isNumbered (c :: textOf l) = true := decide_eq_true hnumber
        rw [List.dropWhile_cons_of_neg (by rw [hblank]; decide), if_pos htext]
        exact fun hcomment => decide_eq_true (lineNumber_line hl' hbare hcomment)
      · rw [List.dropWhile_cons_of_pos hblank]
        exact ih hl' hfresh
      · have htext : isNumbered (c :: textOf l) ≠ true := fun heq => hnumber (of_decide_eq_true heq)
        rw [List.dropWhile_cons_of_neg (by rw [hblank]; decide), if_neg htext]
        rw [hparse] at hl' ⊢
        exact fun hcomment => decide_eq_true (startGCode_comment hbare hl' hcomment)

/-! ### Settings -/

def settingsOf (g : GCodeBuffer) : Settings where
  doingFile := g.doingFile
  cnc := g.cnc
  checksumRequired := g.checksumRequired
  crcRequired := g.crcRequired
  hasPrevious := g.hasPrevious

lemma settingsOf_addToChecksum (g : GCodeBuffer) (c : UInt8) :
    settingsOf (addToChecksum g c) = settingsOf g := by
  rw [addToChecksum]
  split <;> rfl

lemma settingsOf_store (g : GCodeBuffer) (c : UInt8) :
    settingsOf (storeAndAddToChecksum g c) = settingsOf g := by
  obtain ⟨buffer, overflowed, hstore⟩ := store_kept g c
  rw [hstore]
  exact settingsOf_addToChecksum g c

lemma settingsOf_parsingGCode (g : GCodeBuffer) (c : UInt8) :
    settingsOf (parsingGCode g c) = settingsOf g := by
  rw [parsingGCode]
  split_ifs
  · rfl
  · exact settingsOf_store g c
  · exact settingsOf_store g c
  · rfl
  · exact settingsOf_addToChecksum g c
  · exact settingsOf_store g c
  · exact settingsOf_store g c
  · exact settingsOf_store _ c
  · exact settingsOf_store _ c
  · exact settingsOf_store g c
  · exact settingsOf_store g c

lemma settingsOf_parsingWhitespace (g : GCodeBuffer) (c : UInt8) :
    settingsOf (parsingWhitespace g c) = settingsOf g := by
  rw [parsingWhitespace]
  split
  · exact settingsOf_addToChecksum g c
  · exact settingsOf_parsingGCode _ c

lemma settingsOf_parseChar (g : GCodeBuffer) (c : UInt8) :
    settingsOf (parseChar g c) = settingsOf g := by
  rw [parseChar]
  split
  · rw [parseNotStarted]
    split_ifs
    · exact settingsOf_addToChecksum _ c
    · exact settingsOf_addToChecksum _ c
    · exact settingsOf_addToChecksum _ c
    · exact settingsOf_parsingGCode _ c
  · rw [parsingLineNumber]
    split
    · exact settingsOf_addToChecksum g c
    · exact settingsOf_parsingWhitespace _ c
  · exact settingsOf_parsingWhitespace g c
  · exact settingsOf_parsingGCode g c
  · exact settingsOf_store g c
  · rw [parsingBracketedComment]
    split <;> exact settingsOf_addToChecksum g c
  · rw [parsingQuotedString]
    split <;> exact settingsOf_store g c
  · rw [parsingChecksum]
    split <;> rfl
  · rfl
  · rfl
  · rfl

lemma settingsOf_feedAll (hl : Line g.doingFile l) : settingsOf (feedAll g l) = settingsOf g := by
  induction l generalizing g with
  | nil => rfl
  | cons c l ih =>
    obtain ⟨hc, hrest⟩ := List.forall_mem_cons.mp hl
    obtain ⟨k, hfeed⟩ := feed_eq hc
    rw [feedAll, List.foldl_cons, hfeed]
    split
    · exact ih hrest
    · split
      · exact ih hrest
      · exact (ih (line_parseChar (g := { g with commandLength := k }) hrest c)).trans
          (settingsOf_parseChar _ c)

/-! ### Accepting a line -/

/-- What the parser accepts, with its counter of eight bits and its number of 32 bits. -/
def Accepts (s : Settings) (line : List UInt8) : Prop :=
  match mark s.cnc line with
  | none => ¬ ((s.checksumRequired ∨ s.crcRequired) ∧ ¬ s.hasPrevious)
  | some (covered, after) =>
    let digits := after.takeWhile isDigit
    (1 ≤ digits.length % 256 ∧ digits.length % 256 ≤ 3 ∧ ¬ s.crcRequired ∧
      number digits % 2 ^ 32 = (checksum covered).toNat) ∨
    (digits.length % 256 = 5 ∧ number digits % 2 ^ 32 = (crc covered).toNat)

lemma number_concat (digits : List UInt8) (c : UInt8) :
    number (digits ++ [c]) = 10 * number digits + (c - char '0').toNat := by
  rw [number, List.foldl_concat]
  rfl

lemma number_lt {digits : List UInt8} (h : ∀ c ∈ digits, isDigit c = true) :
    number digits < 10 ^ digits.length := by
  induction digits using List.reverseRecOn with
  | nil => decide
  | append_singleton digits c ih =>
    have hdigits := ih fun c hc => h c (List.mem_append_left _ hc)
    have hc : isDigit c = true := h c (List.mem_append_right _ (List.mem_singleton_self c))
    obtain ⟨hlow, hhigh⟩ : char '0' ≤ c ∧ c ≤ char '9' := of_decide_eq_true hc
    have hlow : 48 ≤ c.toNat := hlow
    have hhigh : c.toNat ≤ 57 := hhigh
    have hsub : (c - char '0').toNat = c.toNat - 48 := UInt8.toNat_sub_of_le c (char '0') hlow
    rw [number_concat, List.length_append, List.length_singleton, pow_succ, hsub]
    omega

lemma value_toNat (digits : List UInt8) : (value digits 0).toNat = number digits % 2 ^ 32 := by
  induction digits using List.reverseRecOn with
  | nil => rfl
  | append_singleton digits c ih =>
    have hc : (c - char '0').toUInt32.toNat = (c - char '0').toNat := UInt8.toNat_toUInt32 _
    rw [number_concat, value, List.foldl_concat]
    change (10 * value digits 0 + (c - char '0').toUInt32).toNat = _
    rw [UInt32.toNat_add, UInt32.toNat_mul, ih, hc]
    change (10 * _ % 2 ^ 32 + _) % 2 ^ 32 = _
    omega

lemma received_toNat (digits : List UInt8) : (received digits 0).toNat = digits.length % 256 := by
  induction digits using List.reverseRecOn with
  | nil => rfl
  | append_singleton digits c ih =>
    rw [received, List.foldl_concat, List.length_append, List.length_singleton]
    change (received digits 0 + 1).toNat = _
    rw [UInt8.toNat_add, ih]
    change (_ + 1) % 256 = _
    omega

lemma number_small {digits : List UInt8} (h : ∀ c ∈ digits, isDigit c = true)
    (hlength : digits.length ≤ 5) : number digits % 2 ^ 32 = number digits := by
  apply Nat.mod_eq_of_lt
  exact (number_lt h).trans_le ((Nat.pow_le_pow_right (by decide) hlength).trans (by decide))

/-- Without a comment and without overlong numbers, what is accepted is valid. -/
lemma accepts_cases (s : Settings) (line : List UInt8) :
    (Accepts s line → Valid s line ∨ Overlong s line) ∧
      (Overlong s line → Accepts s line ∧ ¬ Valid s line) := by
  rw [Accepts, Valid, Overlong]
  cases hcomment : isComment s.cnc line with
  | true => exact ⟨fun _ => Or.inl (Or.inl rfl), fun h => absurd h.1 (by decide)⟩
  | false =>
    cases mark s.cnc line with
    | none => exact ⟨fun h => Or.inl (Or.inr h), fun h => h.2.elim⟩
    | some p =>
      obtain ⟨covered, after⟩ := p
      dsimp only
      have hdigits (c : UInt8) (hc : c ∈ after.takeWhile isDigit) : isDigit c = true :=
        List.mem_takeWhile_imp hc
      have hsmall := number_small hdigits
      constructor
      · intro haccepts
        by_cases hlong : 256 ≤ (after.takeWhile isDigit).length
        · exact Or.inr ⟨rfl, hlong, haccepts⟩
        · refine Or.inl (Or.inr ?_)
          have hmod : (after.takeWhile isDigit).length % 256 = (after.takeWhile isDigit).length :=
            Nat.mod_eq_of_lt (not_le.mp hlong)
          rw [hmod] at haccepts
          obtain ⟨hlow, hhigh, hcrc, hnumber⟩ | ⟨hlength, hnumber⟩ := haccepts
          · rw [hsmall (hhigh.trans (by decide))] at hnumber
            exact Or.inl ⟨hlow, hhigh, hcrc, hnumber⟩
          · rw [hsmall hlength.le] at hnumber
            exact Or.inr ⟨hlength, hnumber⟩
      · rintro ⟨-, hlong, haccepts⟩
        refine ⟨haccepts, ?_⟩
        rintro (hfalse | ⟨-, hhigh, -⟩ | ⟨hlength, -⟩)
        · exact absurd hfalse (by decide)
        · omega
        · omega

lemma checks_iff (n : UInt8) (v : UInt32) (x : UInt8) (y : UInt16) (crcRequired : Bool)
    {missing : Bool} :
    ¬ ((true && if n = 1 ∨ n = 2 ∨ n = 3 then crcRequired || x.toUInt32 != v
        else if n = 5 then y.toUInt32 != v else true) = true ∨ (!true && missing) = true) ↔
      (1 ≤ n.toNat ∧ n.toNat ≤ 3 ∧ ¬ crcRequired ∧ v.toNat = x.toNat) ∨
        (n.toNat = 5 ∧ v.toNat = y.toNat) := by
  have hn (k : UInt8) : n = k ↔ n.toNat = k.toNat := UInt8.toNat_inj.symm
  have hfew : (n = 1 ∨ n = 2 ∨ n = 3) ↔ 1 ≤ n.toNat ∧ n.toNat ≤ 3 := by
    rw [hn, hn, hn]
    change n.toNat = 1 ∨ n.toNat = 2 ∨ n.toNat = 3 ↔ _
    omega
  have hfive : n = 5 ↔ n.toNat = 5 := hn 5
  have hx : x.toUInt32 = v ↔ v.toNat = x.toNat := by
    rw [← UInt32.toNat_inj, UInt8.toNat_toUInt32, eq_comm]
  have hy : y.toUInt32 = v ↔ v.toNat = y.toNat := by
    rw [← UInt32.toNat_inj, UInt16.toNat_toUInt32, eq_comm]
  by_cases hshort : 1 ≤ n.toNat ∧ n.toNat ≤ 3
  · have hnot : n.toNat ≠ 5 := by omega
    rw [if_pos (hfew.mpr hshort)]
    simp [hx, hshort, hnot]
  · rw [if_neg (fun h => hshort (hfew.mp h))]
    by_cases hcrc : n.toNat = 5
    · rw [if_pos (hfive.mpr hcrc)]
      simp [hy, hcrc]
    · rw [if_neg (fun h => hcrc (hfive.mp h))]
      simp only [Bool.and_true, true_or, not_true, false_iff, hcrc, false_and, or_false]
      exact fun h => hshort ⟨h.1, h.2.1⟩

/-- When a line that has put something in the buffer is accepted. -/
lemma lineFinished_iff {s : Settings} {line : List UInt8} (hs : settingsOf g = s)
    (h : Outcome (mark s.cnc line) 0 0 g) (hne : g.buffer ≠ []) :
    (lineFinished g).2 = true ↔ g.bufferState = .parsingComment ∨ Accepts s line := by
  have hlength : gcodeLineEnd g ≠ 0 := fun h => hne (List.length_eq_zero_iff.mp h)
  have hfinished : (lineFinished g).2 = true ↔
      ¬ (g.bufferState ≠ .parsingComment ∧ (badChecksum g ∨ missingChecksum g)) := by
    rw [lineFinished]
    generalize (if g.hadLineNumber = true then g.receivedLineNumber else g.lineNumber + 1) = number
    dsimp only
    split
    · next hzero => exact absurd hzero hlength
    · split
      · next hbad => exact iff_of_false Bool.false_ne_true (not_not.mpr hbad)
      · next hgood => exact iff_of_true rfl hgood
  have hchecks : ¬ (badChecksum g ∨ missingChecksum g) ↔ Accepts s line := by
    subst hs
    have h := h.resolve_left hne
    rw [badChecksum, missingChecksum, Accepts]
    cases hmark : mark (settingsOf g).cnc line with
    | none =>
      rw [hmark] at h
      have hsum : g.hadChecksum = false := h
      rw [hsum]
      simp [settingsOf]
    | some p =>
      obtain ⟨covered, after⟩ := p
      rw [hmark] at h
      obtain ⟨hsum, hx, hy, hdeclared, hreceived⟩ := h
      have hcount := received_toNat (after.takeWhile isDigit)
      have hvalue := value_toNat (after.takeWhile isDigit)
      rw [hsum, hx, hy, hdeclared, hreceived]
      dsimp only
      rw [← hcount, ← hvalue]
      exact checks_iff _ _ _ _ _
  rw [hfinished, ← hchecks]
  tauto

end Parsing

/-! ### Runs -/

section Runs

variable {settings} {s : Channel} {c : UInt8}

/-- The parser has read the current line since it was last set up. -/
def Inv (settings : ℕ → Settings) (s : Channel) : Prop :=
  Line (settings s.ended).doingFile s.line ∧
    ∃ g, s.gb = feedAll (configure (settings s.ended) g) s.line

lemma fresh_configure (s : Settings) (g : GCodeBuffer) : Fresh s.cnc (configure s g) :=
  ⟨rfl, rfl, rfl, rfl, rfl, rfl⟩

lemma Inv.settingsOf (h : Inv settings s) :
    ChecksummedLines.settingsOf s.gb = settings s.ended := by
  obtain ⟨hline, g, hg⟩ := h
  rw [hg]
  exact settingsOf_feedAll hline

lemma Inv.outcome (h : Inv settings s) :
    Outcome (mark (settings s.ended).cnc s.line) 0 0 s.gb := by
  obtain ⟨hline, g, hg⟩ := h
  rw [hg]
  exact fresh_line hline (fresh_configure _ g)

lemma Inv.comment (h : Inv settings s) (hstate : s.gb.bufferState = .parsingComment) :
    Valid (settings s.ended) s.line := by
  obtain ⟨hline, g, hg⟩ := h
  rw [hg] at hstate
  exact Or.inl (fresh_comment hline (fresh_configure _ g) hstate)

lemma inv_fresh {s : Channel} (g : GCodeBuffer) (hline : s.line = [])
    (hg : s.gb = configure (settings s.ended) g) : Inv settings s := by
  refine ⟨?_, g, ?_⟩
  · rw [hline]
    exact List.forall_mem_nil _
  · rw [hline, hg]
    rfl

lemma inv_next (s : Channel) (gb : GCodeBuffer) (decoded : List (Settings × List UInt8)) :
    Inv settings (s.next settings gb decoded) :=
  inv_fresh gb rfl rfl

lemma inv_put (h : Inv settings s) (c : UInt8) : Inv settings (s.put settings c) := by
  rw [Channel.put]
  dsimp only
  split
  · exact inv_next _ _ _
  · next hends =>
    have hsettings := h.settingsOf
    obtain ⟨hline, g, hg⟩ := h
    refine ⟨?_, g, ?_⟩
    · intro b hb
      obtain hb | hb := List.mem_append.mp hb
      · exact hline b hb
      · rw [List.mem_singleton.mp hb]
        intro hc
        rw [← hsettings]
        by_contra hnot
        exact hends (decide_eq_true ⟨hc, hnot⟩)
    · rw [feedAll, List.foldl_concat]
      exact congrArg (fun g => (StringParser.put g c).1) hg

/-- Only the end of a line completes it. -/
lemma put_false (hends : s.ends c = false) : (StringParser.put s.gb c).2 = false := by
  have hnot := of_decide_eq_false hends
  rw [StringParser.put]
  split
  · rfl
  · next hreturn =>
    rw [countChar_doingFile] at hreturn
    split
    · next hc => exact absurd ⟨hc, hreturn⟩ hnot
    · rfl

lemma put_iff (h : Inv settings s) (hends : s.ends c = true) (hne : gcodeLineEnd s.gb ≠ 0) :
    (StringParser.put s.gb c).2 = true ↔
      s.gb.bufferState = .parsingComment ∨ Accepts (settings s.ended) s.line := by
  have hends := of_decide_eq_true hends
  obtain ⟨k, hcount⟩ : ∃ k, countChar s.gb c = { s.gb with commandLength := k } := by
    rw [countChar]
    split
    · exact ⟨_, rfl⟩
    · exact ⟨s.gb.commandLength, rfl⟩
  have hbuffer : s.gb.buffer ≠ [] := fun hnil => hne (by rw [gcodeLineEnd, hnil]; rfl)
  rw [StringParser.put, hcount, if_neg hends.2, if_pos hends.1]
  exact lineFinished_iff (g := { s.gb with commandLength := k }) h.settingsOf (h.outcome.count k)
    hbuffer

lemma put_empty (hne : gcodeLineEnd s.gb = 0) (c : UInt8) :
    (StringParser.put s.gb c).2 = false := by
  have hcount : gcodeLineEnd (countChar s.gb c) = 0 := by
    rw [countChar]
    split <;> exact hne
  rw [StringParser.put]
  split
  · rfl
  · split
    · rw [lineFinished]
      generalize countChar s.gb c = g at hcount
      generalize (if g.hadLineNumber = true then g.receivedLineNumber else g.lineNumber + 1) =
        number
      dsimp only
      rw [if_pos (show gcodeLineEnd { g with lineNumber := number } = 0 from hcount)]
    · rfl

/-- A line that is passed on when it ends is valid unless its checksum is an overlong number. -/
lemma put_valid (h : Inv settings s) (hends : s.ends c = true) :
    ((StringParser.put s.gb c).2 = true → Valid (settings s.ended) s.line) ↔
      (gcodeLineEnd s.gb ≠ 0 → ¬ Overlong (settings s.ended) s.line) := by
  obtain ⟨haccepts, hoverlong⟩ := accepts_cases (settings s.ended) s.line
  constructor
  · intro hvalid hne hlong
    obtain ⟨haccepted, hinvalid⟩ := hoverlong hlong
    exact hinvalid (hvalid ((put_iff h hends hne).mpr (Or.inr haccepted)))
  · intro hnot hdone
    have hne : gcodeLineEnd s.gb ≠ 0 := by
      intro hzero
      rw [put_empty hzero] at hdone
      exact absurd hdone (by decide)
    obtain hcomment | haccepted := (put_iff h hends hne).mp hdone
    · exact h.comment hcomment
    · exact (haccepts haccepted).resolve_right (hnot hne)

/-- All lines that have been passed on to command decoding are valid. -/
def AllValid (s : Channel) : Prop := ∀ l ∈ s.decoded, Valid l.1 l.2

lemma allValid_next {gb : GCodeBuffer} {decoded : List (Settings × List UInt8)} :
    AllValid (s.next settings gb decoded) ↔ AllValid s ∧ ∀ l ∈ decoded, Valid l.1 l.2 := by
  exact List.forall_mem_append

lemma allValid_put (h : Inv settings s) :
    AllValid (s.put settings c) ↔ AllValid s ∧ Meets settings s (.put c) := by
  rw [Channel.put, Meets]
  dsimp only
  split
  · next hends =>
    rw [allValid_next, ← put_valid h hends]
    apply and_congr_right
    intro _
    simp only [hends, forall_const]
    split
    · next hdone =>
      simp only [hdone, forall_const, List.mem_singleton, forall_eq]
      rfl
    · next hdone =>
      simp [hdone]
  · next hends =>
    have hvalid : AllValid { s with gb := (StringParser.put s.gb c).1, line := s.line ++ [c] } ↔
        AllValid s := Iff.rfl
    rw [hvalid]
    simp [hends]

lemma allValid_fileEnded (isWritingBinary : Bool) :
    AllValid (s.fileEnded settings isWritingBinary) ↔
      AllValid s ∧ Meets settings s (.fileEnded isWritingBinary) := by
  rw [Channel.fileEnded, Meets]
  cases isWritingBinary with
  | true =>
    rw [if_pos rfl, allValid_next]
    simp
  | false =>
    rw [if_neg (by decide)]
    by_cases hzero : gcodeLineEnd s.gb = 0
    · rw [if_neg (not_not.mpr hzero)]
      simp [hzero]
    · rw [if_pos hzero, allValid_next]
      simp [hzero, Channel.here]

lemma allValid_put_false (hdone : (StringParser.put s.gb c).2 = false) :
    AllValid (s.put settings c) ↔ AllValid s := by
  rw [Channel.put]
  dsimp only
  split
  · rw [allValid_next, hdone]
    simp
  · exact Iff.rfl

lemma allValid_put_true (h : Inv settings s) (hdone : (StringParser.put s.gb c).2 = true) :
    AllValid (s.put settings c) ↔
      AllValid s ∧ ∀ l ∈ (s.put settings c).left, ¬ Overlong l.1 l.2 := by
  have hends : s.ends c = true := by
    by_contra hnot
    rw [put_false (Bool.eq_false_iff.mpr hnot)] at hdone
    exact absurd hdone (by decide)
  have hne : gcodeLineEnd s.gb ≠ 0 := by
    intro hzero
    rw [put_empty hzero] at hdone
    exact absurd hdone (by decide)
  have hleft : (s.put settings c).left = some (s.here settings) := by
    rw [Channel.put]
    dsimp only
    rw [if_pos hends]
    exact if_pos hne
  rw [allValid_put h, hleft, Meets]
  simp [hends, hne, Channel.here]

lemma allValid_putString (str : List UInt8) (h : Inv settings s) :
    Inv settings (Channel.putString settings str s).1 ∧
      (AllValid (Channel.putString settings str s).1 ↔ AllValid s ∧
        ((Channel.putString settings str s).2 = true →
          ∀ l ∈ (Channel.putString settings str s).1.left, ¬ Overlong l.1 l.2)) := by
  induction str generalizing s with
  | nil =>
    refine ⟨h, ?_⟩
    simp [Channel.putString]
  | cons c str ih =>
    rw [Channel.putString]
    split
    · next hdone =>
      refine ⟨inv_put h c, ?_⟩
      rw [allValid_put_true h hdone]
      simp
    · next hdone =>
      obtain ⟨hinv, hvalid⟩ := ih (inv_put h c)
      refine ⟨hinv, ?_⟩
      rw [hvalid, allValid_put_false (Bool.eq_false_iff.mpr hdone)]

lemma allValid_putAndDecode (str : List UInt8) :
    AllValid (s.putAndDecode settings str) ↔
      AllValid s ∧ Meets settings s (.putAndDecode str) := by
  let begun : Channel := { s with
    gb := configure (settings s.ended) s.gb
    line := []
    left := s.leaves settings }
  have hbegun : Inv settings begun := inv_fresh s.gb rfl rfl
  obtain ⟨-, hvalid⟩ := allValid_putString str hbegun
  have hsame : AllValid begun ↔ AllValid s := Iff.rfl
  rw [hsame] at hvalid
  rw [Channel.putAndDecode, Meets]
  change AllValid (if (Channel.putString settings str begun).2 = true then _ else _) ↔
    _ ∧ if (Channel.putString settings str begun).2 = true then _ else _
  split
  · next hdone =>
    rw [hvalid]
    simp only [hdone, forall_const]
    rfl
  · next hdone =>
    rw [allValid_next, hvalid]
    simp only [hdone, Bool.false_eq_true, false_imp_iff, and_true, Option.mem_toList]
    rfl

lemma inv_step (h : Inv settings s) (a : Action) : Inv settings (step settings s a) := by
  cases a with
  | put c => exact inv_put h c
  | fileEnded isWritingBinary =>
    rw [step, Channel.fileEnded]
    split
    · exact inv_next _ _ _
    · split
      · exact inv_next _ _ _
      · exact h
  | putAndDecode str =>
    obtain ⟨hinv, -⟩ := allValid_putString str (s := { s with
      gb := configure (settings s.ended) s.gb
      line := []
      left := s.leaves settings }) (inv_fresh s.gb rfl rfl)
    rw [step, Channel.putAndDecode]
    dsimp only
    split
    · exact hinv
    · exact inv_next _ _ _

lemma allValid_step (h : Inv settings s) (a : Action) :
    AllValid (step settings s a) ↔ AllValid s ∧ Meets settings s a := by
  cases a with
  | put c => exact allValid_put h
  | fileEnded isWritingBinary => exact allValid_fileEnded isWritingBinary
  | putAndDecode str => exact allValid_putAndDecode str

lemma allValid_foldl (h : Inv settings s) (actions : List Action) :
    AllValid (actions.foldl (step settings) s) ↔ AllValid s ∧ AllMeet settings s actions := by
  induction actions generalizing s with
  | nil => exact (and_iff_left trivial).symm
  | cons a actions ih =>
    rw [List.foldl_cons, ih (inv_step h a), allValid_step h a, AllMeet, and_assoc]

/-- Whatever is put into a parser, in whatever portions, and however the input ends: lines with a
wrong or missing checksum stay out of command decoding exactly when every step meets its
condition. -/
theorem only_valid_lines_decoded (settings : ℕ → Settings) (actions : List Action) :
    AllValid (run settings actions) ↔ AllMeet settings (start settings) actions := by
  have hstart : Inv settings (start settings) := inv_fresh initialBuffer rfl rfl
  rw [run, allValid_foldl hstart]
  exact and_iff_right (List.forall_mem_nil _)

/-- The last line of a file, `N1 G28*99`, has no newline. -/
theorem unfinished_line_decoded : ¬ ∀ settings actions, AllValid (run settings actions) := by
  intro h
  have hvalid := h (fun _ => ⟨true, false, true, false, false⟩)
    (([78, 49, 32, 71, 50, 56, 42, 57, 57].map Action.put) ++ [.fileEnded false])
  exact absurd hvalid (by rw [AllValid]; decide)

end Runs

end RepRapFirmware.GCodes.ChecksummedLines
