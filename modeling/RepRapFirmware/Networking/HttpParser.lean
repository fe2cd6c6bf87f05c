import RepRapFirmware.Library.PackedTexts
import RepRapFirmware.Library.StreamParsers

/-! How the characters of an HTTP request are taken apart. Pointers are places of the buffer. -/

namespace RepRapFirmware.Networking.Http

open Library Library.StreamParsers Library.PackedTexts

def webMessageLength : ℕ := 1460
def maxCommandWords : ℕ := 4
def maxQualKeys : ℕ := 5
def maxHeaders : ℕ := 30
def clientMessageSize : ℕ := webMessageLength + 3

def overflowResponse : String := "overflow"
def badEscapeResponse : String := "bad escape"

inductive HttpParseState
  | doingCommandWord
  | doingFilename
  | doingFilenameEsc1
  | doingFilenameEsc2
  | doingQualifierKey
  | doingQualifierValue
  | doingQualifierValueEsc1
  | doingQualifierValueEsc2
  | doingHeaderKey
  | expectingHeaderValue
  | doingHeaderValue
  | doingHeaderContinuation
  deriving DecidableEq

@[ext]
structure KeyValueIndices where
  key : ℕ
  value : ℕ

/-- The part of the buffer that is written, and the arrays of places in it. The last field is not
in the code: a write has gone beyond the end of its array. -/
structure Parser where
  parseState : HttpParseState
  clientMessage : List UInt8
  decodeChar : UInt8
  commandWords : ℕ → ℕ
  numCommandWords : ℕ
  qualifiers : ℕ → KeyValueIndices
  numQualKeys : ℕ
  headers : ℕ → KeyValueIndices
  numHeaderKeys : ℕ
  overrun : Bool

/-- What is done at the end of a request. -/
inductive Reply
  | processMessage
  | reject (response : String)
  deriving DecidableEq

namespace Parser

def clientPointer (p : Parser) : ℕ := p.clientMessage.length

/-- The variables that `Accept` sets; the others are as they were. -/
def accept (p : Parser) : Parser :=
  { p with
    parseState := .doingCommandWord
    clientMessage := []
    numCommandWords := 0
    numQualKeys := 0
    numHeaderKeys := 0
    commandWords := Function.update p.commandWords 0 0
    overrun := false }

def put (c : UInt8) (p : Parser) : Parser :=
  { p with
    clientMessage := p.clientMessage ++ [c]
    overrun := p.overrun || decide (clientMessageSize ≤ p.clientPointer) }

def goto (parseState : HttpParseState) (p : Parser) : Parser := { p with parseState := parseState }

def startCommandWord (p : Parser) : Parser :=
  { p with
    commandWords := Function.update p.commandWords p.numCommandWords p.clientPointer
    overrun := p.overrun || decide (maxCommandWords ≤ p.numCommandWords) }

def startQualifierKey (p : Parser) : Parser :=
  { p with
    qualifiers := Function.update p.qualifiers p.numQualKeys
      { p.qualifiers p.numQualKeys with key := p.clientPointer }
    overrun := p.overrun || decide (maxQualKeys + 1 ≤ p.numQualKeys) }

def startQualifierValue (p : Parser) : Parser :=
  { p with
    qualifiers := Function.update p.qualifiers p.numQualKeys
      { p.qualifiers p.numQualKeys with value := p.clientPointer }
    numQualKeys := p.numQualKeys + 1
    overrun := p.overrun || decide (maxQualKeys + 1 ≤ p.numQualKeys) }

def startHeaderKey (p : Parser) : Parser :=
  { p with
    headers := Function.update p.headers p.numHeaderKeys
      { p.headers p.numHeaderKeys with key := p.clientPointer }
    overrun := p.overrun || decide (maxHeaders ≤ p.numHeaderKeys) }

def startHeaderValue (p : Parser) : Parser :=
  { p with
    headers := Function.update p.headers p.numHeaderKeys
      { p.headers p.numHeaderKeys with value := p.clientPointer }
    numHeaderKeys := p.numHeaderKeys + 1
    overrun := p.overrun || decide (maxHeaders ≤ p.numHeaderKeys) }

def endCommandWord (p : Parser) : Parser :=
  { p.put 0 with numCommandWords := p.numCommandWords + 1 }

/-- The end of the first line. -/
def startHeaders (p : Parser) : Parser :=
  ({ p with numHeaderKeys := 0 }.startHeaderKey).goto .doingHeaderKey

end Parser

def newline : UInt8 := 10
def carriageReturn : UInt8 := 13
def space : UInt8 := 32
def tab : UInt8 := 9
def percent : UInt8 := 37
def ampersand : UInt8 := 38
def plus : UInt8 := 43
def colon : UInt8 := 58
def equals : UInt8 := 61
def questionMark : UInt8 := 63

def isBlank (c : UInt8) : Prop := c = space ∨ c = tab

instance (c : UInt8) : Decidable (isBlank c) := inferInstanceAs (Decidable (_ ∨ _))

/-- The value of a hex digit, of which the letters are capitals. -/
def hexValue (c : UInt8) : Option UInt8 :=
  if 48 ≤ c ∧ c ≤ 57 then some (c - 48)
  else if 65 ≤ c ∧ c ≤ 70 then some (c - (65 - 10))
  else none

/-- The reply and the state at the end, or the state in which more characters are wanted. -/
abbrev Next := (Reply × Parser) ⊕ Parser

namespace Parser

def reject (response : String) (p : Parser) : Next := .inl (.reject response, p)

def doingCommandWord (c : UInt8) (p : Parser) : Next :=
  if c = newline then .inr p.endCommandWord.startHeaders
  else if c = carriageReturn then .inr p
  else if isBlank c then
    let p := p.endCommandWord
    if p.numCommandWords < maxCommandWords then
      let p := p.startCommandWord
      if p.numCommandWords = 1 then .inr (p.goto .doingFilename) else .inr p
    else p.reject "too many command words"
  else .inr (p.put c)

def doingFilename (c : UInt8) (p : Parser) : Next :=
  if c = newline then .inr { p.endCommandWord with numQualKeys := 0 }.startHeaders
  else if c = questionMark then
    .inr ({ p.endCommandWord with numQualKeys := 0 }.startQualifierKey.goto .doingQualifierKey)
  else if c = percent then .inr (p.goto .doingFilenameEsc1)
  else if c = carriageReturn then .inr p
  else if isBlank c then
    let p := p.endCommandWord
    if p.numCommandWords < maxCommandWords then .inr (p.startCommandWord.goto .doingCommandWord)
    else p.reject "too many command words"
  else .inr (p.put c)

def doingQualifierKey (c : UInt8) (p : Parser) : Next :=
  if c = equals then .inr ((p.put 0).startQualifierValue.goto .doingQualifierValue)
  else if c = newline ∨ isBlank c ∨ c = carriageReturn then
    -- a trailing '?' at the end of a request
    if p.numQualKeys = 0 ∧ (p.qualifiers 0).key = p.clientPointer then
      .inr (p.startCommandWord.goto .doingCommandWord)
    else p.reject "bad qualifier key"
  else if c = percent ∨ c = ampersand then p.reject "bad qualifier key"
  else .inr (p.put c)

def doingQualifierValue (c : UInt8) (p : Parser) : Next :=
  if c = newline then .inr (p.put 0).startQualifierKey.startHeaders
  else if isBlank c then
    .inr ((p.put 0).startQualifierKey.startCommandWord.goto .doingCommandWord)
  else if c = carriageReturn then .inr p
  else if c = percent then .inr (p.goto .doingQualifierValueEsc1)
  else if c = ampersand then
    let p := (p.put 0).startQualifierKey
    if p.numQualKeys < maxQualKeys then .inr (p.goto .doingQualifierKey)
    else p.reject "too many keys in qualifier"
  else if c = plus then .inr (p.put space)
  else .inr (p.put c)

def doingEsc1 (next : HttpParseState) (c : UInt8) (p : Parser) : Next :=
  match hexValue c with
  | some digit => .inr ({ p with decodeChar := digit <<< 4 }.goto next)
  | none => p.reject badEscapeResponse

def doingEsc2 (next : HttpParseState) (c : UInt8) (p : Parser) : Next :=
  match hexValue c with
  | some digit => .inr ((p.put (p.decodeChar ||| digit)).goto next)
  | none => p.reject badEscapeResponse

def doingHeaderKey (c : UInt8) (p : Parser) : Next :=
  if c = newline then
    if p.clientPointer = (p.headers p.numHeaderKeys).key then .inl (.processMessage, p)
    else p.reject "unexpected newline"
  else if c = carriageReturn then .inr p
  else if c = colon then
    if p.numHeaderKeys = maxHeaders - 1 then p.reject "too many header key-value pairs"
    else .inr ((p.put 0).startHeaderValue.goto .expectingHeaderValue)
  else .inr (p.put c)

def doingHeaderValue (c : UInt8) (p : Parser) : Next :=
  if c = newline then .inr (p.goto .doingHeaderContinuation)
  else if c = carriageReturn then .inr p
  else .inr (p.put c)

def expectingHeaderValue (c : UInt8) (p : Parser) : Next :=
  if isBlank c then .inr p else (p.goto .doingHeaderValue).doingHeaderValue c

def doingHeaderContinuation (c : UInt8) (p : Parser) : Next :=
  if isBlank c then .inr ((p.put c).goto .doingHeaderValue)
  -- the terminator is written without a step of the pointer in the code
  else if c = newline then .inl (.processMessage, p.put 0)
  else if c = carriageReturn then .inr p
  else if p.clientPointer + 3 ≤ clientMessageSize then
    .inr (((p.put 0).startHeaderKey.put c).goto .doingHeaderKey)
  else p.reject overflowResponse

def inState (c : UInt8) (p : Parser) : Next :=
  match p.parseState with
  | .doingCommandWord => p.doingCommandWord c
  | .doingFilename => p.doingFilename c
  | .doingQualifierKey => p.doingQualifierKey c
  | .doingQualifierValue => p.doingQualifierValue c
  | .doingFilenameEsc1 => p.doingEsc1 .doingFilenameEsc2 c
  | .doingQualifierValueEsc1 => p.doingEsc1 .doingQualifierValueEsc2 c
  | .doingFilenameEsc2 => p.doingEsc2 .doingFilename c
  | .doingQualifierValueEsc2 => p.doingEsc2 .doingQualifierValue c
  | .doingHeaderKey => p.doingHeaderKey c
  | .expectingHeaderValue => p.expectingHeaderValue c
  | .doingHeaderValue => p.doingHeaderValue c
  | .doingHeaderContinuation => p.doingHeaderContinuation c

def charFromClient (p : Parser) (c : UInt8) : Next :=
  match p.inState c with
  | .inl reply => .inl reply
  | .inr p => if p.clientPointer = clientMessageSize then p.reject overflowResponse else .inr p

/-- A text of the buffer, which ends where it contains a zero. -/
def text (p : Parser) (place : ℕ) : List UInt8 := textAt 0 p.clientMessage place

def toLower (c : UInt8) : UInt8 := if 65 ≤ c ∧ c ≤ 90 then c + 32 else c

def stringEqualsIgnoreCase (s₁ s₂ : List UInt8) : Bool := s₁.map toLower == s₂.map toLower

def getKeyValue (key : List UInt8) (p : Parser) : Option ℕ :=
  ((List.range p.numQualKeys).find? fun i =>
    stringEqualsIgnoreCase (p.text (p.qualifiers i).key) key).map fun i => (p.qualifiers i).value

def getHeaderValue (key : List UInt8) (p : Parser) : Option ℕ :=
  ((List.range p.numHeaderKeys).find? fun i =>
    stringEqualsIgnoreCase (p.text (p.headers i).key) key).map fun i => (p.headers i).value

/-! ### No write goes beyond an array -/

/-- What the numbers of words and keys can be in a state of the parser. -/
def counts (words quals : ℕ) : HttpParseState → Prop
  | .doingCommandWord => words < maxCommandWords
  | .doingFilename | .doingFilenameEsc1 | .doingFilenameEsc2 => words = 1
  | .doingQualifierKey => words = 2 ∧ quals < maxQualKeys
  | .doingQualifierValue | .doingQualifierValueEsc1 | .doingQualifierValueEsc2 => words = 2
  | _ => True

/-- The buffer has `room` free places, and nothing has been written beyond an array. -/
structure Safe (room : ℕ) (p : Parser) : Prop where
  overrun : p.overrun = false
  pointer : p.clientPointer + room ≤ clientMessageSize
  quals : p.numQualKeys ≤ maxQualKeys
  headers : p.numHeaderKeys < maxHeaders
  counts : counts p.numCommandWords p.numQualKeys p.parseState

/-- After a character the buffer may be full, before the check for this. -/
def NextSafe : Next → Prop
  | .inl r => r.2.overrun = false
  | .inr p => p.Safe 0

variable {p : Parser} {c : UInt8}

lemma Safe.less (h : p.Safe 1) : p.Safe 0 :=
  ⟨h.overrun, Nat.le_of_succ_le h.pointer, h.quals, h.headers, h.counts⟩

lemma Safe.put (h : p.Safe 1) (c : UInt8) : (p.put c).Safe 0 where
  overrun := by
    have hpointer := h.pointer
    simp only [Parser.put, h.overrun, Bool.false_or, decide_eq_false_iff_not]
    omega
  pointer := by
    have hpointer := h.pointer
    simpa [clientPointer, Parser.put] using hpointer
  quals := h.quals
  headers := h.headers
  counts := h.counts

lemma Safe.goto {room : ℕ} (h : p.Safe room) {s : HttpParseState}
    (hcounts : Parser.counts p.numCommandWords p.numQualKeys s) : (p.goto s).Safe room :=
  ⟨h.overrun, h.pointer, h.quals, h.headers, hcounts⟩

/-- The places of the arrays that are set are in them. -/
lemma Safe.startHeaders {room : ℕ} (h : p.Safe room) (quals : ℕ) (hquals : quals ≤ maxQualKeys) :
    ({ p with numQualKeys := quals }.startHeaders).Safe room where
  overrun := by simp [Parser.startHeaders, startHeaderKey, Parser.goto, h.overrun, maxHeaders]
  pointer := h.pointer
  quals := hquals
  headers := by simp [Parser.startHeaders, startHeaderKey, Parser.goto, maxHeaders]
  counts := trivial

lemma Safe.startQualifierKey {room : ℕ} (h : p.Safe room) : (p.startQualifierKey).Safe room where
  overrun := by
    have hquals := h.quals
    simp only [Parser.startQualifierKey, h.overrun, Bool.false_or, decide_eq_false_iff_not]
    omega
  pointer := h.pointer
  quals := h.quals
  headers := h.headers
  counts := h.counts

lemma Safe.startCommandWord {room : ℕ} (h : p.Safe room) (hwords
    : p.numCommandWords < maxCommandWords) :
    (p.startCommandWord).Safe room where
  overrun := by
    simp only [Parser.startCommandWord, h.overrun, Bool.false_or, decide_eq_false_iff_not]
    omega
  pointer := h.pointer
  quals := h.quals
  headers := h.headers
  counts := h.counts

lemma Safe.startQualifierValue {room : ℕ} (h : p.Safe room) (hquals : p.numQualKeys < maxQualKeys)
    (hstate : p.parseState = .doingQualifierKey) :
    ((p.startQualifierValue).goto .doingQualifierValue).Safe room where
  overrun := by
    simp only [Parser.goto, Parser.startQualifierValue, h.overrun, Bool.false_or,
      decide_eq_false_iff_not]
    omega
  pointer := h.pointer
  quals := hquals
  headers := h.headers
  counts := by
    have hcounts := h.counts
    rw [hstate] at hcounts
    exact hcounts.1

/-- A word has ended, and the state for what follows allows one word more. -/
lemma Safe.endCommandWord (h : p.Safe 1) {s : HttpParseState}
    (hcounts : Parser.counts (p.numCommandWords + 1) p.numQualKeys s) :
    (p.endCommandWord.goto s).Safe 0 :=
  ⟨(h.put 0).overrun, (h.put 0).pointer, h.quals, h.headers, hcounts⟩

lemma doingCommandWord_safe (h : p.Safe 1) (hstate : p.parseState = .doingCommandWord) :
    NextSafe (p.doingCommandWord c) := by
  rw [doingCommandWord]
  split_ifs with hnewline hreturn hblank
  · exact (h.endCommandWord (s := .doingHeaderKey) trivial).startHeaders p.numQualKeys h.quals
  · exact h.less
  · by_cases hmore : p.endCommandWord.numCommandWords < maxCommandWords
    · have hword := (h.endCommandWord (s := .doingCommandWord) hmore).startCommandWord hmore
      simp only [if_pos hmore]
      by_cases hone : p.endCommandWord.startCommandWord.numCommandWords = 1
      · rw [if_pos hone]
        exact hword.goto (s := .doingFilename) hone
      · rw [if_neg hone]
        have hsame : p.endCommandWord.startCommandWord =
            (p.endCommandWord.goto .doingCommandWord).startCommandWord := by
          simp [Parser.endCommandWord, Parser.startCommandWord, Parser.goto, Parser.put,
            clientPointer,
            hstate]
        exact hsame ▸ hword
    · simp only [if_neg hmore]
      exact (h.put 0).overrun
  · exact h.put c

lemma doingFilename_safe (h : p.Safe 1) (hstate : p.parseState = .doingFilename) :
    NextSafe (p.doingFilename c) := by
  have hwords := h.counts
  rw [hstate] at hwords
  have hmore : p.endCommandWord.numCommandWords < maxCommandWords := by
    change p.numCommandWords + 1 < maxCommandWords
    rw [hwords]
    decide
  rw [doingFilename]
  split_ifs with hnewline hquestion hpercent hreturn hblank
  · exact (h.endCommandWord (s := .doingHeaderKey) trivial).startHeaders 0 (Nat.zero_le _)
  · have hkey := (h.endCommandWord (s := .doingHeaderKey) trivial)
    have hzero : Safe 0 { p.endCommandWord.goto .doingHeaderKey with numQualKeys := 0 } :=
      ⟨hkey.overrun, hkey.pointer, Nat.zero_le _, hkey.headers, trivial⟩
    exact hzero.startQualifierKey.goto (s := .doingQualifierKey)
      ⟨congrArg (· + 1) hwords, Nat.zero_lt_succ _⟩
  · exact h.less.goto (s := .doingFilenameEsc1) hwords
  · exact h.less
  · simp only [if_pos hmore]
    exact (h.endCommandWord (s := .doingCommandWord) hmore).startCommandWord hmore
  · exact h.put c

lemma doingQualifierKey_safe (h : p.Safe 1) (hstate : p.parseState = .doingQualifierKey) :
    NextSafe (p.doingQualifierKey c) := by
  have hcounts := h.counts
  rw [hstate] at hcounts
  have hmore : p.numCommandWords < maxCommandWords := by
    rw [hcounts.1]
    decide
  rw [doingQualifierKey]
  split_ifs with hequals hend htrailing hother
  · exact (h.put 0).startQualifierValue hcounts.2 hstate
  · exact (h.less.startCommandWord hmore).goto (s := .doingCommandWord) hmore
  · exact h.overrun
  · exact h.overrun
  · exact h.put c

lemma doingQualifierValue_safe (h : p.Safe 1) (hstate : p.parseState = .doingQualifierValue) :
    NextSafe (p.doingQualifierValue c) := by
  have hwords := h.counts
  rw [hstate] at hwords
  have hmore : p.numCommandWords < maxCommandWords := by
    rw [hwords]
    decide
  have hkey := (h.put 0).startQualifierKey
  rw [doingQualifierValue]
  split_ifs with hnewline hblank hreturn hpercent hampersand hplus
  · exact hkey.startHeaders p.numQualKeys h.quals
  · exact (hkey.startCommandWord hmore).goto (s := .doingCommandWord) hmore
  · exact h.less
  · exact h.less.goto (s := .doingQualifierValueEsc1) hwords
  · by_cases hquals : (p.put 0).startQualifierKey.numQualKeys < maxQualKeys
    · simp only [if_pos hquals]
      exact hkey.goto (s := .doingQualifierKey) ⟨hwords, hquals⟩
    · simp only [if_neg hquals]
      exact hkey.overrun
  · exact h.put space
  · exact h.put c

lemma doingEsc1_safe (h : p.Safe 1) {next : HttpParseState}
    (hcounts : counts p.numCommandWords p.numQualKeys next) : NextSafe (p.doingEsc1 next c) := by
  rw [doingEsc1]
  cases hexValue c with
  | none => exact h.overrun
  | some digit => exact ⟨h.overrun, h.less.pointer, h.quals, h.headers, hcounts⟩

lemma doingEsc2_safe (h : p.Safe 1) {next : HttpParseState}
    (hcounts : counts p.numCommandWords p.numQualKeys next) : NextSafe (p.doingEsc2 next c) := by
  rw [doingEsc2]
  cases hexValue c with
  | none => exact h.overrun
  | some digit => exact (h.put _).goto hcounts

lemma doingHeaderKey_safe (h : p.Safe 1) : NextSafe (p.doingHeaderKey c) := by
  rw [doingHeaderKey]
  split_ifs with hnewline hempty hreturn hcolon hfull
  · exact h.overrun
  · exact h.overrun
  · exact h.less
  · exact h.overrun
  · have hheaders := h.headers
    have hnext : p.numHeaderKeys + 1 < maxHeaders := by
      rw [maxHeaders] at hfull hheaders ⊢
      omega
    constructor
    · simp only [startHeaderValue, goto, (h.put 0).overrun, Bool.false_or, decide_eq_false_iff_not]
      exact Nat.not_le.mpr hheaders
    · exact (h.put 0).pointer
    · exact h.quals
    · exact hnext
    · trivial
  · exact h.put c

lemma doingHeaderValue_safe (h : p.Safe 1) : NextSafe (p.doingHeaderValue c) := by
  rw [doingHeaderValue]
  split_ifs
  · exact h.less.goto trivial
  · exact h.less
  · exact h.put c

lemma doingHeaderContinuation_safe (h : p.Safe 1) : NextSafe (p.doingHeaderContinuation c) := by
  rw [doingHeaderContinuation]
  split_ifs with hblank hnewline hreturn hroom
  · exact (h.put c).goto trivial
  · exact (h.put 0).overrun
  · exact h.less
  · have hheaders := h.headers
    have hput : ((p.put 0).startHeaderKey.goto .doingHeaderKey).Safe 1 := by
      constructor
      · simp only [goto, startHeaderKey, (h.put 0).overrun, Bool.false_or, decide_eq_false_iff_not]
        exact Nat.not_le.mpr hheaders
      · simp only [goto, startHeaderKey, clientPointer, Parser.put, List.length_append,
          List.length_singleton] at hroom ⊢
        omega
      · exact h.quals
      · exact h.headers
      · trivial
    exact (hput.put c).goto trivial
  · exact h.overrun

lemma inState_safe (h : p.Safe 1) : NextSafe (p.inState c) := by
  have hcounts := h.counts
  rw [inState]
  cases hstate : p.parseState with
  | doingCommandWord => exact doingCommandWord_safe h hstate
  | doingFilename => exact doingFilename_safe h hstate
  | doingQualifierKey => exact doingQualifierKey_safe h hstate
  | doingQualifierValue => exact doingQualifierValue_safe h hstate
  | doingFilenameEsc1 => exact doingEsc1_safe h (by rwa [hstate] at hcounts)
  | doingFilenameEsc2 => exact doingEsc2_safe h (by rwa [hstate] at hcounts)
  | doingQualifierValueEsc1 => exact doingEsc1_safe h (by rwa [hstate] at hcounts)
  | doingQualifierValueEsc2 => exact doingEsc2_safe h (by rwa [hstate] at hcounts)
  | doingHeaderKey => exact doingHeaderKey_safe h
  | expectingHeaderValue =>
    change NextSafe (p.expectingHeaderValue c)
    rw [expectingHeaderValue]
    split_ifs
    · exact h.less
    · exact doingHeaderValue_safe (h.goto trivial)
  | doingHeaderValue => exact doingHeaderValue_safe h
  | doingHeaderContinuation => exact doingHeaderContinuation_safe h

lemma safe_accept (p : Parser) : p.accept.Safe 1 where
  overrun := rfl
  pointer := by
    change 0 + 1 ≤ clientMessageSize
    decide
  quals := Nat.zero_le _
  headers := by
    change 0 < maxHeaders
    decide
  counts := by
    change 0 < maxCommandWords
    decide

/-- Whatever is received, no write goes beyond the end of an array. -/
lemma feed_safe (h : p.Safe 1) (cs : List UInt8) :
    match feed charFromClient p cs with
    | .inl (r, _) => r.2.overrun = false
    | .inr p => p.overrun = false := by
  induction cs generalizing p with
  | nil => exact h.overrun
  | cons c cs ih =>
    have hnext := inState_safe (c := c) h
    rw [feed, charFromClient]
    cases hresult : p.inState c with
    | inl r =>
      rw [hresult] at hnext
      exact hnext
    | inr q =>
      rw [hresult] at hnext
      by_cases hfull : q.clientPointer = clientMessageSize
      · simp only [if_pos hfull]
        exact hnext.overrun
      · simp only [if_neg hfull]
        exact ih ⟨hnext.overrun, Nat.lt_of_le_of_ne hnext.pointer hfull, hnext.quals, hnext.headers,
          hnext.counts⟩

end Parser

end RepRapFirmware.Networking.Http
