import RepRapFirmware.Networking.HttpParser

/-! The requests that the parser of HTTP requests takes apart as they were put together. -/

namespace RepRapFirmware.Networking.Http

open Library Library.StreamParsers Library.PackedTexts

/-- A character of a file name or of a value, as it is sent. -/
inductive EncodedByte
  | raw (c : UInt8)
  | escaped (high low : UInt8)
  | plus
  deriving DecidableEq

/-- The value of a hex digit of either case. -/
def hexDigit (c : UInt8) : Option UInt8 :=
  if 97 ≤ c ∧ c ≤ 102 then some (c - (97 - 10)) else hexValue c

namespace EncodedByte

def chars : EncodedByte → List UInt8
  | raw c => [c]
  | escaped high low => [percent, high, low]
  | plus => [Http.plus]

def byte : EncodedByte → UInt8
  | raw c => c
  | escaped high low => (hexDigit high).getD 0 <<< 4 ||| (hexDigit low).getD 0
  | plus => space

/-- The letters among the digits of an escape are capitals. -/
def capital : EncodedByte → Prop
  | escaped high low => (hexValue high).isSome ∧ (hexValue low).isSome
  | _ => True

instance : ∀ e : EncodedByte, Decidable e.capital
  | raw _ => inferInstanceAs (Decidable True)
  | escaped _ _ => inferInstanceAs (Decidable (_ ∧ _))
  | plus => inferInstanceAs (Decidable True)

end EncodedByte

/-- The characters that are stored as they are. -/
def plain : HttpParseState → UInt8 → Prop
  | .doingCommandWord, c => c ∉ [newline, carriageReturn, space, tab]
  | .doingFilename, c => c ∉ [newline, questionMark, percent, carriageReturn, space, tab]
  | .doingQualifierKey, c => c ∉ [equals, newline, space, tab, carriageReturn, percent, ampersand]
  | .doingQualifierValue, c => c ∉ [newline, space, tab, carriageReturn, percent, ampersand, plus]
  | .doingHeaderKey, c => c ∉ [newline, carriageReturn, colon]
  | .doingHeaderValue, c => c ∉ [newline, carriageReturn]
  | _, _ => False

instance : ∀ state c, Decidable (plain state c)
  | .doingCommandWord, _ => inferInstanceAs (Decidable (¬ _))
  | .doingFilename, _ => inferInstanceAs (Decidable (¬ _))
  | .doingQualifierKey, _ => inferInstanceAs (Decidable (¬ _))
  | .doingQualifierValue, _ => inferInstanceAs (Decidable (¬ _))
  | .doingHeaderKey, _ => inferInstanceAs (Decidable (¬ _))
  | .doingHeaderValue, _ => inferInstanceAs (Decidable (¬ _))
  | .doingFilenameEsc1, _ => inferInstanceAs (Decidable False)
  | .doingFilenameEsc2, _ => inferInstanceAs (Decidable False)
  | .doingQualifierValueEsc1, _ => inferInstanceAs (Decidable False)
  | .doingQualifierValueEsc2, _ => inferInstanceAs (Decidable False)
  | .expectingHeaderValue, _ => inferInstanceAs (Decidable False)
  | .doingHeaderContinuation, _ => inferInstanceAs (Decidable False)

/-- Escapes of two hex digits, and a plus for a space in values only. -/
def EncodedByte.valid (state : HttpParseState) : EncodedByte → Prop
  | raw c => plain state c
  | escaped high low => (hexDigit high).isSome ∧ (hexDigit low).isSome
  | plus => state = .doingQualifierValue

instance (state : HttpParseState) : ∀ e : EncodedByte, Decidable (e.valid state)
  | .raw _ => inferInstanceAs (Decidable (plain _ _))
  | .escaped _ _ => inferInstanceAs (Decidable (_ ∧ _))
  | .plus => inferInstanceAs (Decidable (_ = _))

def lineEnd (crlf : Bool) : List UInt8 := if crlf then [carriageReturn, newline] else [newline]

/-- A further line of a header, which starts with a blank. -/
structure Continuation where
  blank : UInt8
  text : List UInt8
  crlf : Bool

structure HeaderLine where
  key : List UInt8
  blanks : List UInt8
  firstLine : List UInt8
  crlf : Bool
  continuations : List Continuation

def Continuation.chars (k : Continuation) : List UInt8 := k.blank :: k.text ++ lineEnd k.crlf

def HeaderLine.value (h : HeaderLine) : List UInt8 :=
  h.firstLine ++ h.continuations.flatMap fun k => k.blank :: k.text

def HeaderLine.chars (h : HeaderLine) : List UInt8 :=
  h.key ++ [colon] ++ h.blanks ++ h.firstLine ++ lineEnd h.crlf ++
    h.continuations.flatMap Continuation.chars

structure Qualifier where
  key : List UInt8
  value : List EncodedByte

def Qualifier.bytes (q : Qualifier) : List UInt8 := q.value.map EncodedByte.byte

def Qualifier.chars (q : Qualifier) : List UInt8 :=
  q.key ++ [equals] ++ q.value.flatMap EncodedByte.chars

/-- A command word after the file name, with the blank before it. -/
structure FurtherWord where
  blank : UInt8
  word : List UInt8

structure Request where
  method : List UInt8
  blank : UInt8
  fileName : List EncodedByte
  qualifiers : List Qualifier
  words : List FurtherWord
  crlf : Bool
  headers : List HeaderLine
  lastCrlf : Bool

def qualifierChars : List Qualifier → List UInt8
  | [] => []
  | q :: qs => questionMark :: q.chars ++ qs.flatMap fun q => ampersand :: q.chars

namespace Request

def chars (r : Request) : List UInt8 :=
  r.method ++ [r.blank] ++ r.fileName.flatMap EncodedByte.chars ++ qualifierChars r.qualifiers ++
    (r.words.flatMap fun w => w.blank :: w.word) ++ lineEnd r.crlf ++
      r.headers.flatMap HeaderLine.chars ++ lineEnd r.lastCrlf

def fileNameBytes (r : Request) : List UInt8 := r.fileName.map EncodedByte.byte

/-- What is stored of a request, text by text. -/
def texts (r : Request) : List (List UInt8) :=
  [r.method, r.fileNameBytes] ++ r.qualifiers.flatMap (fun q => [q.key, q.bytes]) ++
    r.words.map FurtherWord.word ++ r.headers.flatMap fun h => [h.key, h.value]

end Request

structure Continuation.Valid (k : Continuation) : Prop where
  blank : isBlank k.blank
  text : ∀ c ∈ k.text, plain .doingHeaderValue c ∧ c ≠ 0

structure HeaderLine.Valid (h : HeaderLine) : Prop where
  key : ∀ c ∈ h.key, plain .doingHeaderKey c ∧ c ≠ 0
  keyStart : ∃ c cs, h.key = c :: cs ∧ ¬ isBlank c
  blanks : ∀ c ∈ h.blanks, isBlank c
  firstLine : ∀ c ∈ h.firstLine, plain .doingHeaderValue c ∧ c ≠ 0
  firstLineStart : ∀ c ∈ h.firstLine.head?, ¬ isBlank c
  continuations : ∀ k ∈ h.continuations, k.Valid

structure Qualifier.Valid (q : Qualifier) : Prop where
  key : ∀ c ∈ q.key, plain .doingQualifierKey c ∧ c ≠ 0
  value : ∀ e ∈ q.value, e.valid .doingQualifierValue

structure FurtherWord.Valid (w : FurtherWord) : Prop where
  blank : isBlank w.blank
  word : ∀ c ∈ w.word, plain .doingCommandWord c ∧ c ≠ 0

/-- A request that is put together as it should be. Values may contain any bytes, and the other
texts no zeros. -/
structure Request.Valid (r : Request) : Prop where
  method : ∀ c ∈ r.method, plain .doingCommandWord c ∧ c ≠ 0
  blank : isBlank r.blank
  fileName : ∀ e ∈ r.fileName, e.valid .doingFilename ∧ e.byte ≠ 0
  qualifiers : ∀ q ∈ r.qualifiers, q.Valid
  words : ∀ w ∈ r.words, w.Valid
  headers : ∀ h ∈ r.headers, h.Valid

/-- The texts with their terminators fit into the buffer; without headers a place must be left for
one character more, of which the parser makes sure after each character. -/
structure Request.Fits (r : Request) : Prop where
  texts : (packed 0 r.texts).length ≤ clientMessageSize
  noHeaders : r.headers = [] → (packed 0 r.texts).length < clientMessageSize

/-- The limits of the parser are kept to, and its escapes. -/
structure Request.Accepted (r : Request) : Prop where
  fileName : ∀ e ∈ r.fileName, e.capital
  values : ∀ q ∈ r.qualifiers, ∀ e ∈ q.value, e.capital
  qualifiers : r.qualifiers.length ≤ maxQualKeys
  words : 2 + r.words.length ≤ maxCommandWords
  headers : r.headers.length < maxHeaders

/-- The parser has the parts of the request. -/
structure Request.Received (r : Request) (p : Parser) : Prop where
  numCommandWords : p.numCommandWords = 2 + r.words.length
  method : p.text (p.commandWords 0) = r.method
  fileName : p.text (p.commandWords 1) = r.fileNameBytes
  words : ∀ i w, r.words[i]? = some w → p.text (p.commandWords (i + 2)) = w.word
  numQualKeys : p.numQualKeys = r.qualifiers.length
  keys : ∀ i q, r.qualifiers[i]? = some q → p.text (p.qualifiers i).key = q.key
  values : ∀ i q, r.qualifiers[i]? = some q → (p.clientMessage.drop (p.qualifiers i).value).take
    ((p.qualifiers (i + 1)).key - (p.qualifiers i).value - 1) = q.bytes
  numHeaderKeys : p.numHeaderKeys = r.headers.length
  headers : ∀ i h, r.headers[i]? = some h →
    p.text (p.headers i).key = h.key ∧ p.text (p.headers i).value = h.value

/-! ### Single characters -/

def Rejected (r : Reply × Parser) : Prop := ∃ response, r.1 = .reject response

/-- The parser has put the text into the buffer and is in the given state. -/
structure Grown (p : Parser) (text : List UInt8) (state : HttpParseState) (q : Parser) : Prop where
  parseState : q.parseState = state
  clientMessage : q.clientMessage = p.clientMessage ++ text
  commandWords : q.commandWords = p.commandWords
  numCommandWords : q.numCommandWords = p.numCommandWords
  qualifiers : q.qualifiers = p.qualifiers
  numQualKeys : q.numQualKeys = p.numQualKeys
  headers : q.headers = p.headers
  numHeaderKeys : q.numHeaderKeys = p.numHeaderKeys

variable {p q q' : Parser} {c : UInt8} {state state' : HttpParseState} {xs ys : List UInt8}

lemma grown_refl (p : Parser) : Grown p [] p.parseState p :=
  ⟨rfl, (List.append_nil _).symm, rfl, rfl, rfl, rfl, rfl, rfl⟩

lemma Grown.trans (h : Grown p xs state q) (h' : Grown q ys state' q') :
    Grown p (xs ++ ys) state' q' where
  parseState := h'.parseState
  clientMessage := by rw [h'.clientMessage, h.clientMessage, List.append_assoc]
  commandWords := h'.commandWords.trans h.commandWords
  numCommandWords := h'.numCommandWords.trans h.numCommandWords
  qualifiers := h'.qualifiers.trans h.qualifiers
  numQualKeys := h'.numQualKeys.trans h.numQualKeys
  headers := h'.headers.trans h.headers
  numHeaderKeys := h'.numHeaderKeys.trans h.numHeaderKeys

lemma Grown.clientPointer (h : Grown p xs state q) :
    q.clientPointer = p.clientPointer + xs.length := by
  rw [Parser.clientPointer, h.clientMessage, List.length_append]
  rfl

lemma charFromClient_of_inr (h : p.inState c = .inr q) (hroom
    : q.clientPointer < clientMessageSize) :
    p.charFromClient c = .inr q := by
  rw [Parser.charFromClient, h]
  exact if_neg hroom.ne

lemma charFromClient_of_inl {r : Reply × Parser} (h : p.inState c = .inl r) :
    p.charFromClient c = .inl r := by
  rw [Parser.charFromClient, h]

lemma inState_plain (h : plain p.parseState c) : p.inState c = .inr (p.put c) := by
  rw [Parser.inState]
  cases hstate : p.parseState <;> rw [hstate] at h <;>
    first
    | exact absurd h id
    | simp only [plain, List.mem_cons, List.not_mem_nil, or_false, not_or] at h
      simp [Parser.doingCommandWord, Parser.doingFilename, Parser.doingQualifierKey,
        Parser.doingQualifierValue, Parser.doingHeaderKey, Parser.doingHeaderValue, isBlank, h]

lemma grown_put (p : Parser) (c : UInt8) : Grown p [c] p.parseState (p.put c) :=
  ⟨rfl, rfl, rfl, rfl, rfl, rfl, rfl, rfl⟩

lemma reads_plain (h : ∀ c ∈ xs, plain p.parseState c)
    (hroom : p.clientPointer + xs.length < clientMessageSize) :
    Reads Parser.charFromClient Rejected p xs True (Grown p xs p.parseState) := by
  induction xs generalizing p with
  | nil => exact reads_nil (grown_refl p)
  | cons c xs ih =>
    rw [List.forall_mem_cons] at h
    rw [List.length_cons] at hroom
    have hput := grown_put p c
    have hpointer := hput.clientPointer
    rw [List.length_singleton] at hpointer
    have hrest := ih (p := p.put c) h.2 (by omega)
    exact reads_cons_of_inr (charFromClient_of_inr (inState_plain h.1) (by omega))
      (hrest.congr Iff.rfl fun q _ hq => hput.trans hq)

/-- A file name is being received, or a value. -/
def Decoding (state : HttpParseState) : Prop :=
  state = .doingFilename ∨ state = .doingQualifierValue

lemma hexDigit_of_hexValue {digit : UInt8} (h : hexValue c = some digit) : hexDigit c =
    some digit := by
  rw [hexDigit]
  split_ifs with hsmall
  · rw [hexValue] at h
    split_ifs at h with hdecimal hcapital
    · have hle := UInt8.le_trans hsmall.1 hdecimal.2
      exact absurd hle (by decide)
    · have hle := UInt8.le_trans hsmall.1 hcapital.2
      exact absurd hle (by decide)
  · exact h

lemma reads_escape (hstate : Decoding p.parseState) {high low : UInt8}
    (hroom : p.clientPointer + 1 < clientMessageSize) :
    Reads Parser.charFromClient Rejected p [percent, high, low]
      (EncodedByte.escaped high low).capital
      (Grown p [(EncodedByte.escaped high low).byte] p.parseState) := by
  obtain ⟨first, second, hpercent, hfirst, hsecond⟩ : ∃ first second,
      p.inState percent = .inr (p.goto first) ∧
      (∀ q : Parser, q.parseState = first → ∀ c, q.inState c = q.doingEsc1 second c) ∧
      ∀ q : Parser, q.parseState = second → ∀ c, q.inState c = q.doingEsc2 p.parseState c := by
    rcases hstate with hstate | hstate
    · refine ⟨.doingFilenameEsc1, .doingFilenameEsc2, ?_, ?_, ?_⟩
      · rw [Parser.inState, hstate]
        rfl
      · intro q hq c
        rw [Parser.inState, hq]
      · intro q hq c
        rw [Parser.inState, hq, hstate]
    · refine ⟨.doingQualifierValueEsc1, .doingQualifierValueEsc2, ?_, ?_, ?_⟩
      · rw [Parser.inState, hstate]
        rfl
      · intro q hq c
        rw [Parser.inState, hq]
      · intro q hq c
        rw [Parser.inState, hq, hstate]
  have hpointer := Nat.lt_of_succ_lt hroom
  apply reads_cons_of_inr (charFromClient_of_inr hpercent hpointer)
  have hhigh := hfirst (p.goto first) rfl high
  rw [Parser.doingEsc1] at hhigh
  cases hvalue : hexValue high with
  | none =>
    rw [hvalue] at hhigh
    have hstop : ¬ (EncodedByte.escaped high low).capital := by simp [EncodedByte.capital, hvalue]
    rw [eq_false hstop]
    exact reads_cons_of_inl (charFromClient_of_inl hhigh) ⟨_, rfl⟩
  | some digit =>
    rw [hvalue] at hhigh
    apply reads_cons_of_inr (charFromClient_of_inr hhigh hpointer)
    have hlow := hsecond ({ p.goto first with decodeChar := digit <<< 4 }.goto second) rfl low
    rw [Parser.doingEsc2] at hlow
    cases hvalue' : hexValue low with
    | none =>
      rw [hvalue'] at hlow
      have hstop : ¬ (EncodedByte.escaped high low).capital := by simp [EncodedByte.capital,
          hvalue']
      rw [eq_false hstop]
      exact reads_cons_of_inl (charFromClient_of_inl hlow) ⟨_, rfl⟩
    | some digit' =>
      rw [hvalue'] at hlow
      have hgo : (EncodedByte.escaped high low).capital := by
        simp [EncodedByte.capital, hvalue, hvalue']
      have hbyte : (EncodedByte.escaped high low).byte = digit <<< 4 ||| digit' := by
        rw [EncodedByte.byte, hexDigit_of_hexValue hvalue, hexDigit_of_hexValue hvalue']
        rfl
      rw [eq_true hgo, hbyte]
      apply reads_cons_of_inr (charFromClient_of_inr hlow _) (reads_nil _)
      · simpa [Parser.goto, Parser.put, Parser.clientPointer] using hroom
      · exact ⟨rfl, rfl, rfl, rfl, rfl, rfl, rfl, rfl⟩

lemma reads_encodedByte (hstate : Decoding p.parseState) {e : EncodedByte} (he
    : e.valid p.parseState)
    (hroom : p.clientPointer + 1 < clientMessageSize) :
    Reads Parser.charFromClient Rejected p e.chars e.capital (Grown p [e.byte] p.parseState) := by
  cases e with
  | raw c =>
    exact reads_plain (List.forall_mem_singleton.mpr he) hroom
  | escaped high low => exact reads_escape hstate hroom
  | plus =>
    have hstep : p.inState Http.plus = .inr (p.put space) := by
      rw [Parser.inState, he]
      rfl
    apply reads_step (charFromClient_of_inr hstep _) (grown_put p space)
    rw [(grown_put p space).clientPointer]
    exact hroom

lemma reads_encoded (hstate : Decoding p.parseState) {es : List EncodedByte}
    (h : ∀ e ∈ es, e.valid p.parseState) (hroom : p.clientPointer + es.length < clientMessageSize) :
    Reads Parser.charFromClient Rejected p (es.flatMap EncodedByte.chars) (∀ e ∈ es, e.capital)
      (Grown p (es.map EncodedByte.byte) p.parseState) := by
  induction es generalizing p with
  | nil => exact (reads_nil (grown_refl p)).congr (by simp) fun _ _ hq => hq
  | cons e es ih =>
    rw [List.forall_mem_cons] at h
    rw [List.length_cons] at hroom
    rw [List.flatMap_cons, List.forall_mem_cons]
    apply (reads_encodedByte hstate h.1 (by omega)).append
    intro q hq
    have hrest := ih (p := q) (hq.parseState ▸ hstate) (hq.parseState ▸ h.2) (by
      rw [hq.clientPointer, List.length_singleton]
      omega)
    exact hrest.congr Iff.rfl fun q' _ hq' => hq.trans (hq.parseState ▸ hq')

/-! ### How far the parser is -/

/-- The number of command words that have ended, those of the words, qualifiers and headers of
which the places are known, and that of the texts that have ended. -/
structure Counts where
  numWords : ℕ
  words : ℕ
  keys : ℕ
  quals : ℕ
  headerKeys : ℕ
  headerValues : ℕ
  texts : ℕ

namespace Request

def place (r : Request) (n : ℕ) : ℕ := offset 0 r.texts n

lemma place_le {r : Request} {n : ℕ} {text : List UInt8} (hfits : r.Fits)
    (htext : r.texts[n]? = some text) : r.place n + text.length + 1 ≤ clientMessageSize :=
  (offset_le htext).trans hfits.texts

lemma place_succ {r : Request} {n : ℕ} {text : List UInt8} (htext : r.texts[n]? = some text) :
    r.place (n + 1) = r.place n + text.length + 1 := offset_succ htext

/-- The number of a command word among the texts. -/
def wordIndex (r : Request) (i : ℕ) : ℕ := if i < 2 then i else 2 * r.qualifiers.length + i

/-- The number of the first header key among the texts. -/
def headerIndex (r : Request) : ℕ := 2 + 2 * r.qualifiers.length + r.words.length

end Request

/-- The buffer has the first texts of the request and then `text`, and the places are those of the
texts. -/
structure Stage (r : Request) (p : Parser) (state : HttpParseState) (k : Counts)
    (text : List UInt8) : Prop where
  parseState : p.parseState = state
  numCommandWords : p.numCommandWords = k.numWords
  numQualKeys : p.numQualKeys = k.quals
  numHeaderKeys : p.numHeaderKeys = k.headerValues
  clientMessage : p.clientMessage = packed 0 (r.texts.take k.texts) ++ text
  words : ∀ i < k.words, p.commandWords i = r.place (r.wordIndex i)
  keys : ∀ i < k.keys, (p.qualifiers i).key = r.place (2 + 2 * i)
  values : ∀ i < k.quals, (p.qualifiers i).value = r.place (3 + 2 * i)
  headerKeys : ∀ i < k.headerKeys, (p.headers i).key = r.place (r.headerIndex + 2 * i)
  headerValues : ∀ i < k.headerValues, (p.headers i).value = r.place (r.headerIndex + 2 * i + 1)

namespace Stage

variable {r : Request} {k : Counts} {text : List UInt8}

lemma grown (h : Stage r p state k text) (hq : Grown p xs state' q) :
    Stage r q state' k (text ++ xs) where
  parseState := hq.parseState
  numCommandWords := hq.numCommandWords.trans h.numCommandWords
  numQualKeys := hq.numQualKeys.trans h.numQualKeys
  numHeaderKeys := hq.numHeaderKeys.trans h.numHeaderKeys
  clientMessage := by rw [hq.clientMessage, h.clientMessage, List.append_assoc]
  words := by
    rw [hq.commandWords]
    exact h.words
  keys := by
    rw [hq.qualifiers]
    exact h.keys
  values := by
    rw [hq.qualifiers]
    exact h.values
  headerKeys := by
    rw [hq.headers]
    exact h.headerKeys
  headerValues := by
    rw [hq.headers]
    exact h.headerValues

lemma clientPointer (h : Stage r p state k text) : p.clientPointer =
    r.place k.texts + text.length := by
  rw [Parser.clientPointer, h.clientMessage, List.length_append]
  rfl

/-- A text that has not ended yet leaves room for a character. -/
lemma room (h : Stage r p state k text) (hfits : r.Fits) {whole : List UInt8}
    (htext : r.texts[k.texts]? = some whole) (hle : text.length ≤ whole.length) :
    p.clientPointer < clientMessageSize := by
  have hplace := Request.place_le hfits htext
  rw [h.clientPointer]
  omega

/-- Where another text follows there is room for it. -/
lemma room_next (h : Stage r p state k text) (hfits : r.Fits)
    (htext : r.texts[k.texts]? = some text) {next : List UInt8}
    (hnext : r.texts[k.texts + 1]? = some next) :
    p.clientPointer + 1 + next.length < clientMessageSize := by
  have hplace := Request.place_succ htext
  have hafter := Request.place_le hfits hnext
  rw [h.clientPointer]
  omega

lemma goto (h : Stage r p state k text) (next : HttpParseState) : Stage r (p.goto next) next k text
    :=
  { h with parseState := rfl }

lemma put (h : Stage r p state k text) (htext : r.texts[k.texts]? = some text) :
    Stage r (p.put 0) state { k with texts := k.texts + 1 } [] :=
  { h with
    clientMessage := by
      change p.clientMessage ++ [0] = _
      rw [h.clientMessage, packed_take_succ htext, List.append_nil] }

lemma endCommandWord (h : Stage r p state k text) (htext : r.texts[k.texts]? = some text) :
    Stage r p.endCommandWord state
      { k with numWords := k.numWords + 1, texts := k.texts + 1 } [] :=
  { h.put htext with numCommandWords := congrArg (· + 1) h.numCommandWords }

lemma place_eq (h : Stage r p state k []) : p.clientPointer = r.place k.texts := h.clientPointer

lemma startCommandWord (h : Stage r p state k []) (hwords : k.words = k.numWords)
    (hplace : r.wordIndex k.words = k.texts) :
    Stage r p.startCommandWord state { k with words := k.words + 1 } [] :=
  { h with
    words := by
      intro i hi
      change Function.update p.commandWords p.numCommandWords p.clientPointer i = _
      by_cases heq : i = p.numCommandWords
      · subst heq
        rw [Function.update_self, h.place_eq, h.numCommandWords, ← hwords, hplace]
      · rw [Function.update_of_ne heq]
        rw [h.numCommandWords, ← hwords] at heq
        exact h.words i (by simp only at hi; omega) }

lemma startQualifierKey (h : Stage r p state k []) (hkeys : k.keys = k.quals)
    (hplace : 2 + 2 * k.keys = k.texts) :
    Stage r p.startQualifierKey state { k with keys := k.keys + 1 } [] :=
  { h with
    keys := by
      intro i hi
      change (Function.update p.qualifiers p.numQualKeys _ i).key = _
      by_cases heq : i = p.numQualKeys
      · subst heq
        rw [Function.update_self, h.numQualKeys, ← hkeys, hplace]
        exact h.place_eq
      · rw [Function.update_of_ne heq]
        rw [h.numQualKeys, ← hkeys] at heq
        exact h.keys i (by simp only at hi; omega)
    values := by
      intro i hi
      change (Function.update p.qualifiers p.numQualKeys _ i).value = _
      rw [Function.update_of_ne]
      · exact h.values i hi
      · rw [h.numQualKeys]
        exact hi.ne }

lemma startQualifierValue (h : Stage r p state k []) (hplace : 3 + 2 * k.quals = k.texts) :
    Stage r p.startQualifierValue state { k with quals := k.quals + 1 } [] :=
  { h with
    numQualKeys := congrArg (· + 1) h.numQualKeys
    keys := by
      intro i hi
      change (Function.update p.qualifiers p.numQualKeys _ i).key = _
      by_cases heq : i = p.numQualKeys
      · subst heq
        rw [Function.update_self]
        exact h.keys _ hi
      · rw [Function.update_of_ne heq]
        exact h.keys i hi
    values := by
      intro i hi
      change (Function.update p.qualifiers p.numQualKeys _ i).value = _
      by_cases heq : i = p.numQualKeys
      · subst heq
        rw [Function.update_self, h.numQualKeys, hplace]
        exact h.place_eq
      · rw [Function.update_of_ne heq]
        rw [h.numQualKeys] at heq
        exact h.values i (by simp only at hi; omega) }

lemma startHeaderKey (h : Stage r p state k []) (hkeys : k.headerKeys = k.headerValues)
    (hplace : r.headerIndex + 2 * k.headerKeys = k.texts) :
    Stage r p.startHeaderKey state { k with headerKeys := k.headerKeys + 1 } [] :=
  { h with
    headerKeys := by
      intro i hi
      change (Function.update p.headers p.numHeaderKeys _ i).key = _
      by_cases heq : i = p.numHeaderKeys
      · subst heq
        rw [Function.update_self, h.numHeaderKeys, ← hkeys, hplace]
        exact h.place_eq
      · rw [Function.update_of_ne heq]
        rw [h.numHeaderKeys, ← hkeys] at heq
        exact h.headerKeys i (by simp only at hi; omega)
    headerValues := by
      intro i hi
      change (Function.update p.headers p.numHeaderKeys _ i).value = _
      rw [Function.update_of_ne]
      · exact h.headerValues i hi
      · rw [h.numHeaderKeys]
        exact hi.ne }

lemma startHeaderValue (h : Stage r p state k [])
    (hplace : r.headerIndex + 2 * k.headerValues + 1 = k.texts) :
    Stage r p.startHeaderValue state { k with headerValues := k.headerValues + 1 } [] :=
  { h with
    numHeaderKeys := congrArg (· + 1) h.numHeaderKeys
    headerKeys := by
      intro i hi
      change (Function.update p.headers p.numHeaderKeys _ i).key = _
      by_cases heq : i = p.numHeaderKeys
      · subst heq
        rw [Function.update_self]
        exact h.headerKeys _ hi
      · rw [Function.update_of_ne heq]
        exact h.headerKeys i hi
    headerValues := by
      intro i hi
      change (Function.update p.headers p.numHeaderKeys _ i).value = _
      by_cases heq : i = p.numHeaderKeys
      · subst heq
        rw [Function.update_self, h.numHeaderKeys, hplace]
        exact h.place_eq
      · rw [Function.update_of_ne heq]
        rw [h.numHeaderKeys] at heq
        exact h.headerValues i (by simp only at hi; omega) }

end Stage

/-! ### The texts of a request -/

section

variable {α β : Type*} (f g : α → β)

lemma length_flatMap_pair (l : List α) : (l.flatMap fun a => [f a, g a]).length = 2 * l.length := by
  induction l with
  | nil => rfl
  | cons a l ih =>
    rw [List.flatMap_cons, List.length_append, ih, List.length_cons]
    simp only [List.length_cons, List.length_nil]
    ring

lemma getElem?_flatMap_pair (l : List α) (i : ℕ) :
    (l.flatMap fun a => [f a, g a])[2 * i]? = l[i]?.map f ∧
      (l.flatMap fun a => [f a, g a])[2 * i + 1]? = l[i]?.map g := by
  induction l generalizing i with
  | nil => simp
  | cons a l ih =>
    rw [List.flatMap_cons]
    cases i with
    | zero => simp
    | succ i =>
      have hfirst : 2 * (i + 1) = 2 * i + 2 := by ring
      have hsecond : 2 * (i + 1) + 1 = 2 * i + 1 + 2 := by ring
      rw [hsecond, hfirst, List.getElem?_append_right (Nat.le_add_left 2 _),
        List.getElem?_append_right (Nat.le_add_left 2 _)]
      exact ih i

end

namespace Request

variable {r : Request} {i : ℕ}

lemma texts_method (r : Request) : r.texts[0]? = some r.method := rfl

lemma texts_fileName (r : Request) : r.texts[1]? = some r.fileNameBytes := rfl

lemma length_texts (r : Request) : r.texts.length = r.headerIndex + 2 * r.headers.length := by
  simp only [texts, List.length_append, length_flatMap_pair, List.length_map, headerIndex,
    List.length_cons, List.length_nil]

lemma texts_qualifier {q : Qualifier} (h : r.qualifiers[i]? = some q) :
    r.texts[2 + 2 * i]? = some q.key ∧ r.texts[3 + 2 * i]? = some q.bytes := by
  obtain ⟨hi, -⟩ := List.getElem?_eq_some_iff.mp h
  have hpair := getElem?_flatMap_pair Qualifier.key Qualifier.bytes r.qualifiers i
  have hlen := length_flatMap_pair Qualifier.key Qualifier.bytes r.qualifiers
  rw [h] at hpair
  have hsecond : 3 + 2 * i = 2 + (2 * i + 1) := by ring
  rw [texts, hsecond, List.append_assoc, List.append_assoc]
  constructor
  · rw [List.getElem?_append_right (Nat.le_add_right 2 _)]
    change (_ ++ _)[2 + 2 * i - 2]? = _
    rw [Nat.add_sub_cancel_left, List.getElem?_append_left (by omega)]
    exact hpair.1
  · rw [List.getElem?_append_right (Nat.le_add_right 2 _)]
    change (_ ++ _)[2 + (2 * i + 1) - 2]? = _
    rw [Nat.add_sub_cancel_left, List.getElem?_append_left (by omega)]
    exact hpair.2

lemma texts_word {w : FurtherWord} (h : r.words[i]? = some w) :
    r.texts[2 + 2 * r.qualifiers.length + i]? = some w.word := by
  obtain ⟨hi, -⟩ := List.getElem?_eq_some_iff.mp h
  have hfront : ([r.method, r.fileNameBytes] ++
      r.qualifiers.flatMap fun q => [q.key, q.bytes]).length = 2 + 2 * r.qualifiers.length := by
    rw [List.length_append, length_flatMap_pair]
    rfl
  rw [texts, List.append_assoc, List.getElem?_append_right (by omega), hfront,
    Nat.add_sub_cancel_left, List.getElem?_append_left (by rw [List.length_map]; exact hi),
    List.getElem?_map, h]
  rfl

lemma texts_header {h : HeaderLine} (hh : r.headers[i]? = some h) :
    r.texts[r.headerIndex + 2 * i]? = some h.key ∧
      r.texts[r.headerIndex + 2 * i + 1]? = some h.value := by
  have hfront : ([r.method, r.fileNameBytes] ++ (r.qualifiers.flatMap fun q => [q.key, q.bytes]) ++
      r.words.map FurtherWord.word).length = r.headerIndex := by
    rw [List.length_append, List.length_append, length_flatMap_pair, List.length_map]
    rfl
  have hpair := getElem?_flatMap_pair HeaderLine.key HeaderLine.value r.headers i
  rw [hh] at hpair
  rw [texts, add_assoc]
  constructor
  · rw [List.getElem?_append_right (by omega), hfront, Nat.add_sub_cancel_left]
    exact hpair.1
  · rw [List.getElem?_append_right (by omega), hfront, Nat.add_sub_cancel_left]
    exact hpair.2

end Request

/-! ### The first line -/

section

variable {r : Request} {k : Counts} {text : List UInt8} {i j : ℕ}

/-- Without headers the buffer is not full either when all texts are there. -/
lemma Stage.room_start (h : Stage r p state k []) (hfits : r.Fits)
    (hlast : k.texts = r.headerIndex ∨ ∃ next, r.texts[k.texts]? = some next) :
    p.clientPointer < clientMessageSize := by
  by_cases hnext : ∃ next, r.texts[k.texts]? = some next
  · obtain ⟨next, hnext⟩ := hnext
    exact h.room hfits hnext (Nat.zero_le _)
  · have hindex := hlast.resolve_right hnext
    have hempty : r.headers = [] := by
      by_contra hne
      obtain ⟨header, headers, hsplit⟩ := List.exists_cons_of_ne_nil hne
      have hzero : r.headers[0]? = some header := by rw [hsplit]; rfl
      exact hnext ⟨_, hindex ▸ (Request.texts_header hzero).1⟩
    have hlen := r.length_texts
    rw [hempty, List.length_nil, mul_zero, add_zero] at hlen
    rw [h.place_eq, Request.place, offset, hindex, ← hlen, List.take_length]
    exact hfits.noHeaders hempty

lemma reads_text (h : Stage r p state k []) (hfits : r.Fits) (htext : r.texts[k.texts]? = some text)
    (hplain : ∀ c ∈ text, plain state c) :
    Reads Parser.charFromClient Rejected p text True fun q => Stage r q state k text := by
  have hroom : p.clientPointer + text.length < clientMessageSize := by
    have hplace := Request.place_le hfits htext
    rw [h.place_eq]
    omega
  exact (reads_plain (h.parseState ▸ hplain) hroom).congr Iff.rfl fun q _ hq =>
    h.parseState ▸ h.grown hq

lemma stage_accept (r : Request) (p : Parser) :
    Stage r p.accept .doingCommandWord ⟨0, 1, 0, 0, 0, 0, 0⟩ [] where
  parseState := rfl
  numCommandWords := rfl
  numQualKeys := rfl
  numHeaderKeys := rfl
  clientMessage := rfl
  words := by
    intro i hi
    obtain rfl : i = 0 := Nat.lt_one_iff.mp hi
    rfl
  keys := fun i hi => absurd hi (Nat.not_lt_zero i)
  values := fun i hi => absurd hi (Nat.not_lt_zero i)
  headerKeys := fun i hi => absurd hi (Nat.not_lt_zero i)
  headerValues := fun i hi => absurd hi (Nat.not_lt_zero i)

lemma isBlank_ne (h : isBlank c) : c ≠ newline ∧ c ≠ carriageReturn ∧ c ≠ questionMark ∧
    c ≠ percent ∧ c ≠ colon := by
  rcases h with rfl | rfl <;> decide

lemma reads_method (hvalid : r.Valid) (hfits : r.Fits) (p : Parser) :
    Reads Parser.charFromClient Rejected p.accept (r.method ++ [r.blank]) True fun q =>
      Stage r q .doingFilename ⟨1, 2, 0, 0, 0, 0, 1⟩ [] := by
  have hmethod := reads_text (stage_accept r p) hfits r.texts_method fun c hc => (hvalid.method c
    hc).1
  refine (hmethod.append fun q hq => ?_).congr (and_self_iff) fun _ _ hq => hq
  have hnext := ((hq.endCommandWord r.texts_method).startCommandWord rfl rfl).goto .doingFilename
  obtain ⟨hnewline, hreturn, -⟩ := isBlank_ne hvalid.blank
  have hstep : q.inState r.blank = .inr (q.endCommandWord.startCommandWord.goto .doingFilename) :=
      by
    have hone : q.endCommandWord.numCommandWords = 1 := congrArg (· + 1) hq.numCommandWords
    have hmore : q.endCommandWord.numCommandWords < maxCommandWords := by
      rw [hone]
      decide
    rw [Parser.inState, hq.parseState]
    simp only [Parser.doingCommandWord, if_neg hnewline, if_neg hreturn, if_pos hvalid.blank,
      if_pos hmore]
    exact if_pos hone
  exact reads_step (charFromClient_of_inr hstep
    (hnext.room_start hfits (Or.inr ⟨_, r.texts_fileName⟩))) hnext

lemma reads_fileName (hvalid : r.Valid) (hfits : r.Fits)
    (h : Stage r p .doingFilename ⟨1, 2, 0, 0, 0, 0, 1⟩ []) :
    Reads Parser.charFromClient Rejected p (r.fileName.flatMap EncodedByte.chars)
      (∀ e ∈ r.fileName, e.capital) fun q =>
        Stage r q .doingFilename ⟨1, 2, 0, 0, 0, 0, 1⟩ r.fileNameBytes := by
  have hroom : p.clientPointer + r.fileName.length < clientMessageSize := by
    have hplace := Request.place_le hfits r.texts_fileName
    rw [Request.fileNameBytes, List.length_map] at hplace
    rw [h.place_eq]
    exact (Nat.lt_succ_self _).trans_le hplace
  have hdecoding : Decoding p.parseState := Or.inl h.parseState
  exact (reads_encoded hdecoding (fun e he => h.parseState ▸ (hvalid.fileName e he).1) hroom).congr
    Iff.rfl fun q _ hq => h.parseState ▸ h.grown hq

lemma reads_qualifier (hvalid : r.Valid) (hfits : r.Fits) {q : Qualifier}
    (hq : r.qualifiers[i]? = some q)
    (h : Stage r p .doingQualifierKey ⟨2, 2, i + 1, i, 0, 0, 2 + 2 * i⟩ []) :
    Reads Parser.charFromClient Rejected p q.chars (∀ e ∈ q.value, e.capital) fun p' =>
      Stage r p' .doingQualifierValue ⟨2, 2, i + 1, i + 1, 0, 0, 3 + 2 * i⟩ q.bytes := by
  obtain ⟨hkey, hvalue⟩ := Request.texts_qualifier hq
  have hown := hvalid.qualifiers q (List.mem_of_getElem? hq)
  have hread := reads_text h hfits hkey fun c hc => (hown.key c hc).1
  have hequals : ∀ p', Stage r p' .doingQualifierKey ⟨2, 2, i + 1, i, 0, 0, 2 + 2 * i⟩ q.key →
      Reads Parser.charFromClient Rejected p' [equals] True fun p'' =>
        Stage r p'' .doingQualifierValue ⟨2, 2, i + 1, i + 1, 0, 0, 3 + 2 * i⟩ [] := by
    intro p' hp'
    have htexts : 2 + 2 * i + 1 = 3 + 2 * i := by ring
    have hput := hp'.put hkey
    simp only [htexts] at hput
    have hnext := (hput.startQualifierValue rfl).goto .doingQualifierValue
    have hstep : p'.inState equals =
        .inr ((p'.put 0).startQualifierValue.goto .doingQualifierValue) := by
      rw [Parser.inState, hp'.parseState]
      exact if_pos rfl
    exact reads_step (charFromClient_of_inr hstep (hnext.room_start hfits (Or.inr ⟨_,
      hvalue⟩))) hnext
  have hbytes : ∀ p', Stage r p' .doingQualifierValue ⟨2, 2, i + 1, i + 1, 0, 0, 3 + 2 * i⟩ [] →
      Reads Parser.charFromClient Rejected p' (q.value.flatMap EncodedByte.chars)
        (∀ e ∈ q.value, e.capital) fun p'' =>
          Stage r p'' .doingQualifierValue ⟨2, 2, i + 1, i + 1, 0, 0, 3 + 2 * i⟩ q.bytes := by
    intro p' hp'
    have hroom : p'.clientPointer + q.value.length < clientMessageSize := by
      have hplace := Request.place_le hfits hvalue
      rw [Qualifier.bytes, List.length_map] at hplace
      rw [hp'.place_eq]
      exact (Nat.lt_succ_self _).trans_le hplace
    have hdecoding : Decoding p'.parseState := Or.inr hp'.parseState
    exact (reads_encoded hdecoding (fun e he => hp'.parseState ▸ hown.value e he) hroom).congr
      Iff.rfl fun p'' _ hp'' => hp'.parseState ▸ hp'.grown hp''
  exact ((hread.append hequals).append hbytes).congr (by simp) fun _ _ hp' => hp'

/-- The qualifiers after the first ones; where there are too many the last `&` is refused. -/
lemma reads_moreQualifiers (hvalid : r.Valid) (hfits : r.Fits) {qs : List Qualifier}
    (hqs : r.qualifiers.drop (i + 1) = qs) (hi : i < maxQualKeys) {q : Qualifier}
    (hq : r.qualifiers[i]? = some q)
    (h : Stage r p .doingQualifierValue ⟨2, 2, i + 1, i + 1, 0, 0, 3 + 2 * i⟩ q.bytes) :
    Reads Parser.charFromClient Rejected p (qs.flatMap fun q => ampersand :: q.chars)
      ((∀ q ∈ qs, ∀ e ∈ q.value, e.capital) ∧ i + 1 + qs.length ≤ maxQualKeys) fun p' =>
        ∃ q, r.qualifiers[i + qs.length]? = some q ∧ Stage r p' .doingQualifierValue
          ⟨2, 2, i + qs.length + 1, i + qs.length + 1, 0, 0, 3 + 2 * (i + qs.length)⟩ q.bytes := by
  induction qs generalizing p i q with
  | nil =>
    exact (reads_nil ⟨q, hq, h⟩).congr (by simpa using hi) fun _ _ hq => hq
  | cons q' qs ih =>
    have hq' : r.qualifiers[i + 1]? = some q' := by rw [← List.head?_drop, hqs, List.head?_cons]
    obtain ⟨-, hvalue⟩ := Request.texts_qualifier hq
    obtain ⟨hkey', -⟩ := Request.texts_qualifier hq'
    have htexts : 3 + 2 * i + 1 = 2 + 2 * (i + 1) := by ring
    have hput := h.put hvalue
    simp only [htexts] at hput
    have hnext := hput.startQualifierKey rfl rfl
    have hroom := hnext.room_start hfits (Or.inr ⟨_, hkey'⟩)
    have hquals : (p.put 0).startQualifierKey.numQualKeys = i + 1 := h.numQualKeys
    have hstate : p.inState ampersand = p.doingQualifierValue ampersand := by
      rw [Parser.inState, h.parseState]
    rw [List.flatMap_cons, List.cons_append, List.length_cons]
    by_cases hmore : i + 1 < maxQualKeys
    · have hstep : p.inState ampersand =
          .inr ((p.put 0).startQualifierKey.goto .doingQualifierKey) := by
        rw [hstate]
        exact if_pos (hquals.trans_lt hmore)
      have hone := reads_qualifier hvalid hfits hq' (hnext.goto .doingQualifierKey)
      have hrest := reads_cons_of_inr (charFromClient_of_inr hstep hroom) (hone.append fun p' hp' =>
        ih (by rw [← List.tail_drop, hqs, List.tail_cons]) hmore hq' hp')
      refine hrest.congr ?_ fun p' _ hp' => ?_
      · rw [List.forall_mem_cons, and_assoc]
        have hlen : i + 1 + 1 + qs.length = i + 1 + (qs.length + 1) := by ring
        rw [hlen]
      · have hlen : i + (qs.length + 1) = i + 1 + qs.length := by ring
        rw [hlen]
        exact hp'
    · have hstep : p.inState ampersand =
          (p.put 0).startQualifierKey.reject "too many keys in qualifier" := by
        rw [hstate]
        exact if_neg fun hlt => hmore (hquals.symm.trans_lt hlt)
      have hstop : ¬ ((∀ q ∈ q' :: qs, ∀ e ∈ q.value, e.capital) ∧
          i + 1 + (qs.length + 1) ≤ maxQualKeys) := fun hok => hmore (by omega)
      rw [eq_false hstop]
      exact reads_cons_of_inl (charFromClient_of_inl hstep) ⟨_, rfl⟩

/-- The number of qualifier keys that are set where the first line has ended. -/
def Request.keysSet (r : Request) : ℕ :=
  match r.qualifiers with
  | [] => 0
  | _ :: qs => qs.length + 2

lemma Request.keysSet_eq (h : r.qualifiers.length = i + 1) : r.keysSet = i + 2 := by
  rw [Request.keysSet]
  cases hquals : r.qualifiers with
  | nil =>
    rw [hquals] at h
    exact absurd h (Nat.succ_ne_zero i).symm
  | cons q qs =>
    rw [hquals, List.length_cons] at h
    simp only
    omega

/-- A command word has been received, which ends with the next blank or newline. -/
inductive LastWord (r : Request) (p : Parser) : ℕ → Prop
  | fileName (hnone : r.qualifiers = [])
      (stage : Stage r p .doingFilename ⟨1, 2, 0, 0, 0, 0, 1⟩ r.fileNameBytes) : LastWord r p 2
  | value {n : ℕ} {q : Qualifier} (hlength : r.qualifiers.length = n + 1)
      (hq : r.qualifiers[n]? = some q)
      (stage : Stage r p .doingQualifierValue ⟨2, 2, n + 1, n + 1, 0, 0, 3 + 2 * n⟩ q.bytes) :
      LastWord r p 2
  | word {j : ℕ} {w : FurtherWord} (hw : r.words[j]? = some w)
      (stage : Stage r p .doingCommandWord ⟨j + 2, j + 3, r.keysSet, r.qualifiers.length, 0, 0,
        2 + 2 * r.qualifiers.length + j⟩ w.word) : LastWord r p (j + 3)

lemma reads_target (hvalid : r.Valid) (hfits : r.Fits)
    (h : Stage r p .doingFilename ⟨1, 2, 0, 0, 0, 0, 1⟩ r.fileNameBytes) :
    Reads Parser.charFromClient Rejected p (qualifierChars r.qualifiers)
      ((∀ q ∈ r.qualifiers, ∀ e ∈ q.value, e.capital) ∧ r.qualifiers.length ≤ maxQualKeys)
      fun p' => LastWord r p' 2 := by
  cases hquals : r.qualifiers with
  | nil =>
    have hok : (∀ q ∈ ([] : List Qualifier), ∀ e ∈ q.value, e.capital) ∧
        ([] : List Qualifier).length ≤ maxQualKeys := ⟨by simp, by decide⟩
    rw [eq_true hok]
    exact reads_nil (LastWord.fileName hquals h)
  | cons q qs =>
    have hq : r.qualifiers[0]? = some q := by rw [hquals]; rfl
    obtain ⟨hkey, -⟩ := Request.texts_qualifier hq
    have hend := h.endCommandWord r.texts_fileName
    have hzero : Stage r { p.endCommandWord with numQualKeys := 0 } .doingFilename
        ⟨2, 2, 0, 0, 0, 0, 2⟩ [] := { hend with numQualKeys := rfl }
    have hnext := (hzero.startQualifierKey rfl rfl).goto .doingQualifierKey
    have hstep : p.inState questionMark = .inr
        ({ p.endCommandWord with numQualKeys := 0 }.startQualifierKey.goto .doingQualifierKey) := by
      rw [Parser.inState, h.parseState]
      rfl
    have hroom := hnext.room_start hfits (Or.inr ⟨_, hkey⟩)
    have hone := reads_qualifier hvalid hfits hq hnext
    have hdrop : r.qualifiers.drop (0 + 1) = qs := by
      rw [hquals]
      rfl
    have hall := reads_cons_of_inr (charFromClient_of_inr hstep hroom) (hone.append fun p' hp' =>
      reads_moreQualifiers hvalid hfits hdrop (by decide) hq hp')
    refine hall.congr ?_ ?_
    · have hlen : 0 + 1 + qs.length = (q :: qs).length := by
        rw [List.length_cons]
        omega
      rw [List.forall_mem_cons, and_assoc, hlen]
    · rintro p' - ⟨last, hlast, hstage⟩
      rw [zero_add] at hlast hstage
      have hlength : r.qualifiers.length = qs.length + 1 := by rw [hquals, List.length_cons]
      exact LastWord.value hlength hlast hstage

/-- A blank ends a command word and starts another one, as long as there may be one more. -/
lemma lastWord_blank (hfits : r.Fits) (h : LastWord r p (i + 2)) (hc : isBlank c)
    {w : FurtherWord} (hw : r.words[i]? = some w) :
    (i + 2 < maxCommandWords → ∃ q, p.charFromClient c = .inr q ∧ Stage r q .doingCommandWord
      ⟨i + 2, i + 3, r.keysSet, r.qualifiers.length, 0, 0, 2 + 2 * r.qualifiers.length + i⟩ []) ∧
    (¬ i + 2 < maxCommandWords → ∃ reply, p.charFromClient c = .inl reply ∧ Rejected reply) := by
  have htext := Request.texts_word hw
  obtain ⟨hnewline, hreturn, hquestion, hpercent, -⟩ := isBlank_ne hc
  have hindex : r.wordIndex (i + 2) = 2 + 2 * r.qualifiers.length + i := by
    rw [Request.wordIndex, if_neg (by omega)]
    ring
  generalize hj : i + 2 = j at h
  cases h with
  | fileName hnone stage =>
    obtain rfl : i = 0 := by omega
    have hzero : r.qualifiers.length = 0 := List.length_eq_zero_iff.mpr hnone
    have hkeys : r.keysSet = 0 := by rw [Request.keysSet, hnone]
    rw [hzero] at hindex htext
    have hnext := ((stage.endCommandWord r.texts_fileName).startCommandWord rfl hindex).goto
      .doingCommandWord
    have hmore : p.endCommandWord.numCommandWords < maxCommandWords := by
      change p.numCommandWords + 1 < _
      rw [stage.numCommandWords]
      decide
    have hstep : p.inState c = .inr (p.endCommandWord.startCommandWord.goto .doingCommandWord) := by
      rw [Parser.inState, stage.parseState]
      simp only [Parser.doingFilename, if_neg hnewline, if_neg hquestion, if_neg hpercent,
        if_neg hreturn, if_pos hc, if_pos hmore]
    refine ⟨fun _ => ⟨_, charFromClient_of_inr hstep (hnext.room_start hfits (Or.inr ⟨_, htext⟩)),
      ?_⟩,
      fun hno => absurd (by decide) hno⟩
    rw [hkeys, hzero]
    exact hnext
  | value hlength hq stage =>
    rename_i n q
    obtain rfl : i = 0 := by omega
    obtain ⟨-, hvalue⟩ := Request.texts_qualifier hq
    have hput := (stage.put hvalue).startQualifierKey rfl (by simp only; ring)
    have hnext := (hput.startCommandWord rfl (by rw [hindex, hlength]; simp only; ring)).goto
      .doingCommandWord
    have hplace : 3 + 2 * n + 1 = 2 + 2 * (n + 1) + 0 := by ring
    simp only [hplace] at hnext
    have hstep : p.inState c =
        .inr ((p.put 0).startQualifierKey.startCommandWord.goto .doingCommandWord) := by
      rw [Parser.inState, stage.parseState]
      simp only [Parser.doingQualifierValue, if_neg hnewline, if_pos hc]
    rw [r.keysSet_eq hlength, hlength]
    rw [hlength] at htext
    exact ⟨fun _ => ⟨_, charFromClient_of_inr hstep (hnext.room_start hfits (Or.inr ⟨_, htext⟩)),
      hnext⟩,
      fun hno => absurd (by decide) hno⟩
  | word hw' stage =>
    rename_i j w'
    obtain rfl : i = j + 1 := by omega
    have hend := stage.endCommandWord (Request.texts_word hw')
    have hnumber : p.endCommandWord.numCommandWords = j + 1 + 2 :=
      congrArg (· + 1) stage.numCommandWords
    have hstate : p.inState c = p.doingCommandWord c := by rw [Parser.inState, stage.parseState]
    constructor
    · intro hmore
      have hnext := hend.startCommandWord rfl (by rw [hindex]; simp only; ring)
      have hstep : p.inState c = .inr p.endCommandWord.startCommandWord := by
        have hone : ¬ p.endCommandWord.startCommandWord.numCommandWords = 1 := by
          change ¬ p.endCommandWord.numCommandWords = 1
          omega
        rw [hstate]
        simp only [Parser.doingCommandWord, if_neg hnewline, if_neg hreturn, if_pos hc,
          if_pos (hnumber.trans_lt hmore), if_neg hone]
      exact ⟨_, charFromClient_of_inr hstep (hnext.room_start hfits (Or.inr ⟨_, htext⟩)), hnext⟩
    · intro hno
      have hstep : p.inState c = p.endCommandWord.reject "too many command words" := by
        rw [hstate]
        simp only [Parser.doingCommandWord, if_neg hnewline, if_neg hreturn, if_pos hc,
          if_neg fun hlt => hno (hnumber.symm.trans_lt hlt)]
      exact ⟨_, charFromClient_of_inl hstep, _, rfl⟩

/-- A newline ends the first line. -/
lemma lastWord_newline (hfits : r.Fits) (h : LastWord r p (2 + r.words.length)) :
    ∃ q, p.charFromClient newline = .inr q ∧ Stage r q .doingHeaderKey
      ⟨2 + r.words.length, 2 + r.words.length, r.keysSet, r.qualifiers.length, 1, 0, r.headerIndex⟩
        [] := by
  generalize hj : 2 + r.words.length = j at h ⊢
  cases h with
  | fileName hnone stage =>
    have hwords : r.words.length = 0 := by omega
    have hzero : r.qualifiers.length = 0 := List.length_eq_zero_iff.mpr hnone
    have hkeys : r.keysSet = 0 := by rw [Request.keysSet, hnone]
    have hindex : r.headerIndex = 2 := by rw [Request.headerIndex, hzero, hwords]
    have hend := stage.endCommandWord r.texts_fileName
    have hstart : Stage r { p.endCommandWord with numQualKeys := 0, numHeaderKeys :=
      0 } .doingFilename
        ⟨2, 2, 0, 0, 0, 0, 2⟩ [] := { hend with numQualKeys := rfl, numHeaderKeys := rfl }
    have hnext := (hstart.startHeaderKey rfl hindex).goto .doingHeaderKey
    have hstep : p.inState newline = .inr { p.endCommandWord with numQualKeys := 0 }.startHeaders :=
        by
      rw [Parser.inState, stage.parseState]
      rfl
    rw [hkeys, hzero, hindex]
    exact ⟨_, charFromClient_of_inr hstep (hnext.room_start hfits (Or.inl hindex.symm)), hnext⟩
  | value hlength hq stage =>
    rename_i n q
    have hwords : r.words.length = 0 := by omega
    have hindex : r.headerIndex = 3 + 2 * n + 1 := by
      rw [Request.headerIndex, hlength, hwords]
      ring
    obtain ⟨-, hvalue⟩ := Request.texts_qualifier hq
    have hput := (stage.put hvalue).startQualifierKey rfl (by simp only; ring)
    have hstart : Stage r { (p.put 0).startQualifierKey with numHeaderKeys :=
      0 } .doingQualifierValue
        ⟨2, 2, n + 2, n + 1, 0, 0, 3 + 2 * n + 1⟩ [] := { hput with numHeaderKeys := rfl }
    have hnext := (hstart.startHeaderKey rfl hindex).goto .doingHeaderKey
    have hstep : p.inState newline = .inr (p.put 0).startQualifierKey.startHeaders := by
      rw [Parser.inState, stage.parseState]
      rfl
    rw [r.keysSet_eq hlength, hlength, hindex]
    exact ⟨_, charFromClient_of_inr hstep (hnext.room_start hfits (Or.inl hindex.symm)), hnext⟩
  | word hw stage =>
    rename_i j w
    have hindex : r.headerIndex = 2 + 2 * r.qualifiers.length + j + 1 := by
      rw [Request.headerIndex]
      omega
    have hend := stage.endCommandWord (Request.texts_word hw)
    have hstart : Stage r { p.endCommandWord with numHeaderKeys := 0 } .doingCommandWord
        ⟨j + 3, j + 3, r.keysSet, r.qualifiers.length, 0, 0,
          2 + 2 * r.qualifiers.length + j + 1⟩ [] :=
      { hend with numHeaderKeys := rfl }
    have hnext := (hstart.startHeaderKey rfl hindex).goto .doingHeaderKey
    have hstep : p.inState newline = .inr p.endCommandWord.startHeaders := by
      rw [Parser.inState, stage.parseState]
      rfl
    rw [hindex]
    exact ⟨_, charFromClient_of_inr hstep (hnext.room_start hfits (Or.inl hindex.symm)), hnext⟩

/-- A carriage return is ignored. -/
lemma lastWord_return (hfits : r.Fits) (h : LastWord r p j) :
    p.charFromClient carriageReturn = .inr p := by
  cases h with
  | fileName hnone stage =>
    apply charFromClient_of_inr _ (stage.room hfits r.texts_fileName le_rfl)
    rw [Parser.inState, stage.parseState]
    rfl
  | value hlength hq stage =>
    apply charFromClient_of_inr _ (stage.room hfits (Request.texts_qualifier hq).2 le_rfl)
    rw [Parser.inState, stage.parseState]
    rfl
  | word hw stage =>
    apply charFromClient_of_inr _ (stage.room hfits (Request.texts_word hw) le_rfl)
    rw [Parser.inState, stage.parseState]
    rfl

lemma reads_words (hvalid : r.Valid) (hfits : r.Fits) {ws : List FurtherWord}
    (hws : r.words.drop i = ws) (hi : i + 2 ≤ maxCommandWords) (h : LastWord r p (i + 2)) :
    Reads Parser.charFromClient Rejected p (ws.flatMap fun w => w.blank :: w.word)
      (i + 2 + ws.length ≤ maxCommandWords) fun q => LastWord r q (i + 2 + ws.length) := by
  induction ws generalizing p i with
  | nil =>
    rw [eq_true (show i + 2 + ([] : List FurtherWord).length ≤ maxCommandWords from hi)]
    exact reads_nil h
  | cons w ws ih =>
    have hw : r.words[i]? = some w := by rw [← List.head?_drop, hws, List.head?_cons]
    have hown := hvalid.words w (List.mem_of_getElem? hw)
    obtain ⟨hgo, hstop⟩ := lastWord_blank hfits h hown.blank hw
    rw [List.flatMap_cons, List.cons_append, List.length_cons]
    by_cases hmore : i + 2 < maxCommandWords
    · obtain ⟨q, hstep, hstage⟩ := hgo hmore
      have hword := reads_text hstage hfits (Request.texts_word hw) fun c hc => (hown.word c hc).1
      have hall := reads_cons_of_inr hstep (hword.append fun q' hq' =>
        ih (i := i + 1) (by rw [← List.tail_drop, hws,
          List.tail_cons]) hmore (LastWord.word hw hq'))
      have hlen : i + 1 + 2 + ws.length = i + 2 + (ws.length + 1) := by ring
      rw [hlen] at hall
      exact hall.congr (by rw [true_and]) fun _ _ hq => hq
    · obtain ⟨reply, hstep, hrejected⟩ := hstop hmore
      have hno : ¬ i + 2 + (ws.length + 1) ≤ maxCommandWords := by omega
      rw [eq_false hno]
      exact reads_cons_of_inl hstep hrejected

/-- The stage at which the headers start. -/
def Request.headerStart (r : Request) : Counts where
  numWords := 2 + r.words.length
  words := 2 + r.words.length
  keys := r.keysSet
  quals := r.qualifiers.length
  headerKeys := 1
  headerValues := 0
  texts := r.headerIndex

lemma reads_lineEnd (hfits : r.Fits) (h : LastWord r p (2 + r.words.length)) (crlf : Bool) :
    Reads Parser.charFromClient Rejected p (lineEnd crlf) True fun q =>
      Stage r q .doingHeaderKey r.headerStart [] := by
  obtain ⟨q, hstep, hstage⟩ := lastWord_newline hfits h
  have hnewline : Reads Parser.charFromClient Rejected p [newline] True fun q =>
      Stage r q .doingHeaderKey r.headerStart [] := reads_step hstep hstage
  cases crlf with
  | true => exact reads_cons_of_inr (lastWord_return hfits h) hnewline
  | false => exact hnewline

/-! ### Headers -/

/-- The stage in the header with this number, with its key received or also its value. -/
def Request.inHeader (r : Request) (i : ℕ) : Counts :=
  { r.headerStart with
    headerKeys := i + 1
    headerValues := i
    texts := r.headerIndex + 2 * i }

def Request.inHeaderValue (r : Request) (i : ℕ) : Counts :=
  { r.headerStart with
    headerKeys := i + 1
    headerValues := i + 1
    texts := r.headerIndex + 2 * i + 1 }

lemma plain_ne {state : HttpParseState} (h : plain state c)
    (hstate : state = .doingHeaderKey ∨ state = .doingHeaderValue) :
    c ≠ newline ∧ c ≠ carriageReturn := by
  rcases hstate with rfl | rfl <;>
    simp only [plain, List.mem_cons, List.not_mem_nil, or_false, not_or] at h
  · exact ⟨h.1, h.2.1⟩
  · exact h

/-- A line of a header value ends; a carriage return before the newline is ignored. -/
lemma reads_valueEnd {k : Counts} {whole : List UInt8} (hfits : r.Fits)
    (hwhole : r.texts[k.texts]? = some whole) (hle : text.length ≤ whole.length)
    (h : Stage r p .expectingHeaderValue k text ∨ Stage r p .doingHeaderValue k text) (crlf : Bool)
    :
    Reads Parser.charFromClient Rejected p (lineEnd crlf) True fun q =>
      Stage r q .doingHeaderContinuation k text := by
  have hnewline : ∀ q, Stage r q .expectingHeaderValue k text ∨ Stage r q .doingHeaderValue k text →
      Reads Parser.charFromClient Rejected q [newline] True fun q' =>
        Stage r q' .doingHeaderContinuation k text := by
    intro q hq
    have hnext : Stage r (q.goto .doingHeaderContinuation) .doingHeaderContinuation k text :=
      hq.elim (fun h => h.goto _) fun h => h.goto _
    have hroom := hnext.room hfits hwhole hle
    have hstep : q.inState newline = .inr (q.goto .doingHeaderContinuation) := by
      rw [Parser.inState]
      rcases hq with hq | hq <;> rw [hq.parseState] <;> rfl
    exact reads_step (charFromClient_of_inr hstep hroom) hnext
  cases crlf with
  | false => exact hnewline p h
  | true =>
    have hnext : Stage r (p.goto .doingHeaderValue) .doingHeaderValue k text :=
      h.elim (fun h => h.goto _) fun h => h.goto _
    have hstep : p.inState carriageReturn = .inr (p.goto .doingHeaderValue) := by
      rw [Parser.inState]
      rcases h with h | h
      · rw [h.parseState]
        rfl
      · rw [h.parseState]
        have hsame : p.goto .doingHeaderValue = p := by rw [Parser.goto, ← h.parseState]
        rw [hsame]
        rfl
    exact reads_cons_of_inr (charFromClient_of_inr hstep (hnext.room hfits hwhole hle))
      (hnewline _ (Or.inr hnext))

/-- More of a text is received. -/
lemma reads_more {k : Counts} {state : HttpParseState} (hfits : r.Fits)
    (h : Stage r p state k text) (htext : r.texts[k.texts]? = some (text ++ xs ++ ys))
    (hplain : ∀ c ∈ xs, plain state c) :
    Reads Parser.charFromClient Rejected p xs True fun q => Stage r q state k (text ++ xs) := by
  have hroom : p.clientPointer + xs.length < clientMessageSize := by
    have hplace := Request.place_le hfits htext
    rw [List.length_append, List.length_append] at hplace
    rw [h.clientPointer]
    omega
  exact (reads_plain (h.parseState ▸ hplain) hroom).congr Iff.rfl fun q _ hq =>
    h.parseState ▸ h.grown hq

/-- The header with this number comes next, or the blank line. -/
inductive BeforeHeader (r : Request) (p : Parser) : ℕ → Prop
  | first (stage : Stage r p .doingHeaderKey r.headerStart []) : BeforeHeader r p 0
  | later {i : ℕ} {header : HeaderLine} (hheader : r.headers[i]? = some header)
      (stage : Stage r p .doingHeaderContinuation (r.inHeaderValue i) header.value) :
      BeforeHeader r p (i + 1)

lemma beforeHeader_key (hfits : r.Fits) (h : BeforeHeader r p i) {header : HeaderLine}
    (hheader : r.headers[i]? = some header) {cs : List UInt8} (hkey : header.key = c :: cs)
    (hplain : plain .doingHeaderKey c) (hc : ¬ isBlank c) :
    ∃ q, p.charFromClient c = .inr q ∧ Stage r q .doingHeaderKey (r.inHeader i) [c] := by
  obtain ⟨htext, -⟩ := Request.texts_header hheader
  rw [hkey] at htext
  obtain ⟨hnewline, hreturn⟩ := plain_ne hplain (Or.inl rfl)
  cases h with
  | first stage =>
    have hput := stage.grown (grown_put p c)
    rw [stage.parseState, List.nil_append] at hput
    refine ⟨_, charFromClient_of_inr (inState_plain (stage.parseState ▸ hplain)) ?_, hput⟩
    exact hput.room hfits htext (by simp)
  | later hprevious stage =>
    rename_i i previous
    obtain ⟨-, hvalue⟩ := Request.texts_header hprevious
    have htexts : r.headerIndex + 2 * i + 1 + 1 = r.headerIndex + 2 * (i + 1) := by ring
    have hend := stage.put hvalue
    simp only [Request.inHeaderValue, htexts] at hend
    have hstart := hend.startHeaderKey rfl rfl
    have hput := (hstart.grown (grown_put _ c)).goto .doingHeaderKey
    have hroom : p.clientPointer + 3 ≤ clientMessageSize := by
      have hnext := stage.room_next hfits hvalue (by rw [← htext]; exact congrArg _ htexts)
      rw [List.length_cons] at hnext
      omega
    have hstep : p.inState c = .inr (((p.put 0).startHeaderKey.put c).goto .doingHeaderKey) := by
      rw [Parser.inState, stage.parseState]
      simp only [Parser.doingHeaderContinuation, if_neg hc, if_neg hnewline, if_neg hreturn,
        if_pos hroom]
    refine ⟨_, charFromClient_of_inr hstep ?_, hput⟩
    exact hput.room hfits htext (by simp)

lemma headerKey_colon (hfits : r.Fits) {header : HeaderLine} (hheader : r.headers[i]? = some header)
    (h : Stage r p .doingHeaderKey (r.inHeader i) header.key) :
    (i + 1 < maxHeaders → ∃ q, p.charFromClient colon = .inr q ∧
      Stage r q .expectingHeaderValue (r.inHeaderValue i) []) ∧
    (i + 1 = maxHeaders → ∃ reply, p.charFromClient colon = .inl reply ∧ Rejected reply) := by
  obtain ⟨hkey, hvalue⟩ := Request.texts_header hheader
  have hstate : p.inState colon = p.doingHeaderKey colon := by rw [Parser.inState, h.parseState]
  have hnumber : p.numHeaderKeys = i := h.numHeaderKeys
  constructor
  · intro hmore
    have hnext := ((h.put hkey).startHeaderValue rfl).goto .expectingHeaderValue
    have hfull : ¬ p.numHeaderKeys = maxHeaders - 1 := by omega
    have hstep : p.inState colon =
        .inr ((p.put 0).startHeaderValue.goto .expectingHeaderValue) := by
      rw [hstate]
      exact if_neg hfull
    exact ⟨_, charFromClient_of_inr hstep (hnext.room_start hfits (Or.inr ⟨_, hvalue⟩)), hnext⟩
  · intro hlast
    have hfull : p.numHeaderKeys = maxHeaders - 1 := by omega
    have hstep : p.inState colon = p.reject "too many header key-value pairs" := by
      rw [hstate]
      exact if_pos hfull
    exact ⟨_, charFromClient_of_inl hstep, _, rfl⟩

lemma reads_blanks {k : Counts} (hfits : r.Fits) {whole : List UInt8}
    (hwhole : r.texts[k.texts]? = some whole) (h : Stage r p .expectingHeaderValue k [])
    (hxs : ∀ c ∈ xs, isBlank c) :
    Reads Parser.charFromClient Rejected p xs True fun q =>
      Stage r q .expectingHeaderValue k [] := by
  induction xs with
  | nil => exact reads_nil h
  | cons c xs ih =>
    rw [List.forall_mem_cons] at hxs
    have hstep : p.inState c = .inr p := by
      rw [Parser.inState, h.parseState]
      exact if_pos hxs.1
    exact reads_cons_of_inr (charFromClient_of_inr hstep (h.room hfits hwhole (Nat.zero_le _)))
      (ih hxs.2)

lemma reads_firstLine {k : Counts} (hfits : r.Fits) (htext : r.texts[k.texts]? = some (xs ++ ys))
    (h : Stage r p .expectingHeaderValue k []) (hplain : ∀ c ∈ xs, plain .doingHeaderValue c)
    (hstart : ∀ c ∈ xs.head?, ¬ isBlank c) :
    Reads Parser.charFromClient Rejected p xs True fun q =>
      Stage r q .expectingHeaderValue k xs ∨ Stage r q .doingHeaderValue k xs := by
  cases xs with
  | nil => exact reads_nil (Or.inl h)
  | cons c xs =>
    rw [List.forall_mem_cons] at hplain
    obtain ⟨hnewline, hreturn⟩ := plain_ne hplain.1 (Or.inr rfl)
    have hput := (h.goto .doingHeaderValue).grown (grown_put _ c)
    have hstep : p.inState c = .inr ((p.goto .doingHeaderValue).put c) := by
      rw [Parser.inState, h.parseState]
      simp only [Parser.expectingHeaderValue, if_neg (hstart c rfl), Parser.doingHeaderValue,
        if_neg hnewline, if_neg hreturn]
    have hroom := hput.room hfits htext (by simp)
    have hmore := reads_more hfits hput htext hplain.2
    exact reads_cons_of_inr (charFromClient_of_inr hstep hroom)
      (hmore.congr Iff.rfl fun q _ hq => Or.inr hq)

/-- The further lines of a header value. -/
lemma reads_continuations {k : Counts} (hfits : r.Fits) {ks : List Continuation}
    (htext : r.texts[k.texts]? = some (text ++ ks.flatMap fun k => k.blank :: k.text))
    (h : Stage r p .doingHeaderContinuation k text) (hks : ∀ k ∈ ks, k.Valid) :
    Reads Parser.charFromClient Rejected p (ks.flatMap Continuation.chars) True fun q =>
      Stage r q .doingHeaderContinuation k (text ++ ks.flatMap fun k => k.blank :: k.text) := by
  induction ks generalizing p text with
  | nil =>
    apply reads_nil
    simpa using h
  | cons line ks ih =>
    rw [List.forall_mem_cons] at hks
    rw [List.flatMap_cons] at htext
    obtain ⟨hnewline, hreturn, -⟩ := isBlank_ne hks.1.blank
    have hput := (h.grown (grown_put p line.blank)).goto .doingHeaderValue
    have hstep : p.inState line.blank = .inr ((p.put line.blank).goto .doingHeaderValue) := by
      rw [Parser.inState, h.parseState]
      exact if_pos hks.1.blank
    have hall : text ++ (line.blank :: line.text ++ ks.flatMap fun k => k.blank :: k.text) =
        text ++ [line.blank] ++ line.text ++ ks.flatMap fun k => k.blank :: k.text := by simp
    rw [hall] at htext
    have hroom := hput.room hfits htext (by simp)
    have hmore := reads_more hfits hput htext fun c hc => (hks.1.text c hc).1
    have hline := hmore.append fun q hq =>
      reads_valueEnd hfits htext (by simp) (Or.inr hq) line.crlf
    have hlines := reads_cons_of_inr (charFromClient_of_inr hstep hroom) (hline.append fun q hq =>
      ih htext hq hks.2)
    rw [List.flatMap_cons, List.flatMap_cons, hall]
    exact hlines.congr (by simp) fun q _ hq => hq

lemma reads_header (hvalid : r.Valid) (hfits : r.Fits) {header : HeaderLine}
    (hheader : r.headers[i]? = some header) (hi : i < maxHeaders) (h : BeforeHeader r p i) :
    Reads Parser.charFromClient Rejected p header.chars (i + 1 < maxHeaders) fun q =>
      BeforeHeader r q (i + 1) := by
  have hown := hvalid.headers header (List.mem_of_getElem? hheader)
  obtain ⟨hkeyText, hvalueText⟩ := Request.texts_header hheader
  obtain ⟨c, cs, hkey, hc⟩ := hown.keyStart
  have hplain := hown.key
  rw [hkey, List.forall_mem_cons] at hplain
  obtain ⟨q, hstep, hstage⟩ := beforeHeader_key hfits h hheader hkey hplain.1.1 hc
  have hkeyAll : r.texts[(r.inHeader i).texts]? = some ([c] ++ cs ++ []) := by
    rw [List.append_nil, List.singleton_append, ← hkey]
    exact hkeyText
  have hrest := reads_more hfits hstage hkeyAll fun c hc => (hplain.2 c hc).1
  rw [List.singleton_append, ← hkey] at hrest
  obtain ⟨hgo, hstop⟩ : (i + 1 < maxHeaders → ∀ q,
    Stage r q .doingHeaderKey (r.inHeader i) header.key →
      ∃ q', q.charFromClient colon = .inr q' ∧
        Stage r q' .expectingHeaderValue (r.inHeaderValue i) []) ∧
      (i + 1 = maxHeaders → ∀ q, Stage r q .doingHeaderKey (r.inHeader i) header.key →
        ∃ reply, q.charFromClient colon = .inl reply ∧ Rejected reply) :=
    ⟨fun hmore q hq => (headerKey_colon hfits hheader hq).1 hmore,
      fun hlast q hq => (headerKey_colon hfits hheader hq).2 hlast⟩
  have hsplit : header.chars = c :: (cs ++ colon :: (header.blanks ++ header.firstLine ++
      lineEnd header.crlf ++ header.continuations.flatMap Continuation.chars)) := by
    rw [HeaderLine.chars, hkey]
    simp
  rw [hsplit]
  by_cases hmore : i + 1 < maxHeaders
  · rw [eq_true hmore]
    have hvalue : ∀ q, Stage r q .expectingHeaderValue (r.inHeaderValue i) [] →
        Reads Parser.charFromClient Rejected q (header.blanks ++ header.firstLine ++
          lineEnd header.crlf ++ header.continuations.flatMap Continuation.chars) True fun q' =>
            BeforeHeader r q' (i + 1) := by
      intro q hq
      have hblanks := reads_blanks hfits hvalueText hq hown.blanks
      have hfirst := hblanks.append fun q' hq' => reads_firstLine hfits hvalueText hq'
        (fun c hc => (hown.firstLine c hc).1) hown.firstLineStart
      have hline := hfirst.append fun q' hq' =>
        reads_valueEnd hfits hvalueText (by simp [HeaderLine.value]) hq' header.crlf
      have hlines := hline.append fun q' hq' =>
        reads_continuations hfits hvalueText hq' hown.continuations
      exact hlines.congr (by simp) fun q' _ hq' => BeforeHeader.later hheader hq'
    have hcolon : ∀ q, Stage r q .doingHeaderKey (r.inHeader i) header.key →
        Reads Parser.charFromClient Rejected q (colon :: (header.blanks ++ header.firstLine ++
          lineEnd header.crlf ++ header.continuations.flatMap Continuation.chars)) True fun q' =>
            BeforeHeader r q' (i + 1) := by
      intro q hq
      obtain ⟨q', hcolon, hq'⟩ := hgo hmore q hq
      exact reads_cons_of_inr hcolon (hvalue q' hq')
    exact (reads_cons_of_inr hstep (hrest.append hcolon)).congr (by simp) fun q' _ hq' => hq'
  · rw [eq_false hmore]
    have hcolon : ∀ q, Stage r q .doingHeaderKey (r.inHeader i) header.key →
        Reads Parser.charFromClient Rejected q (colon :: (header.blanks ++ header.firstLine ++
          lineEnd header.crlf ++ header.continuations.flatMap Continuation.chars)) False fun q' =>
            BeforeHeader r q' (i + 1) := by
      intro q hq
      obtain ⟨reply, hcolon, hrejected⟩ := hstop (by omega) q hq
      exact reads_cons_of_inl hcolon hrejected
    exact (reads_cons_of_inr hstep (hrest.append hcolon)).congr (by simp) fun q' _ hq' => hq'

/-- Where there are too many headers the colon of the last one that there can be is refused. -/
lemma reads_headers (hvalid : r.Valid) (hfits : r.Fits) {hs : List HeaderLine}
    (hhs : r.headers.drop i = hs) (hi : i < maxHeaders) (h : BeforeHeader r p i) :
    Reads Parser.charFromClient Rejected p (hs.flatMap HeaderLine.chars)
      (i + hs.length < maxHeaders)
      fun q => BeforeHeader r q (i + hs.length) := by
  induction hs generalizing p i with
  | nil =>
    rw [List.length_nil, add_zero, eq_true hi]
    exact reads_nil h
  | cons header hs ih =>
    have hheader : r.headers[i]? = some header := by rw [← List.head?_drop, hhs, List.head?_cons]
    have hdrop : r.headers.drop (i + 1) = hs := by rw [← List.tail_drop, hhs, List.tail_cons]
    have hlen : i + (hs.length + 1) = i + 1 + hs.length := by ring
    have hone := reads_header hvalid hfits hheader hi h
    rw [List.flatMap_cons, List.length_cons, hlen]
    by_cases hmore : i + 1 < maxHeaders
    · exact (hone.append fun q hq => ih hdrop hmore hq).congr (and_iff_right hmore) fun _ _ hq => hq
    · have hno : ¬ i + 1 + hs.length < maxHeaders := by omega
      rw [eq_false hno]
      exact hone.stopped hmore

/-- The blank line is the end of the request. -/
lemma beforeHeader_newline (h : BeforeHeader r p r.headers.length) :
    ∃ q, p.charFromClient newline = .inl (.processMessage, q) ∧ ∃ state keys,
      Stage r q state { r.headerStart with
        headerKeys := keys
        headerValues := r.headers.length
        texts := r.texts.length } [] ∧ r.headers.length ≤ keys := by
  have hlength := r.length_texts
  generalize hi : r.headers.length = i at h hlength ⊢
  cases h with
  | first stage =>
    have hstep : p.inState newline = .inl (.processMessage, p) := by
      have hkey := stage.headerKeys 0 Nat.one_pos
      have hempty : p.clientPointer = (p.headers p.numHeaderKeys).key := by
        rw [stage.numHeaderKeys, stage.place_eq]
        exact hkey.symm
      rw [Parser.inState, stage.parseState]
      exact if_pos hempty
    rw [mul_zero, add_zero] at hlength
    rw [hlength]
    exact ⟨p, charFromClient_of_inl hstep, _, _, stage, Nat.zero_le 1⟩
  | later hheader stage =>
    rename_i i header
    have hstep : p.inState newline = .inl (.processMessage, p.put 0) := by
      rw [Parser.inState, stage.parseState]
      rfl
    have hput := stage.put (Request.texts_header hheader).2
    rw [hlength]
    exact ⟨_, charFromClient_of_inl hstep, _, _, hput, le_rfl⟩

lemma beforeHeader_return (hfits : r.Fits) (h : BeforeHeader r p r.headers.length) :
    p.charFromClient carriageReturn = .inr p := by
  have hlength := r.length_texts
  generalize hi : r.headers.length = i at h hlength
  cases h with
  | first stage =>
    apply charFromClient_of_inr _ (stage.room_start hfits (Or.inl rfl))
    rw [Parser.inState, stage.parseState]
    rfl
  | later hheader stage =>
    apply charFromClient_of_inr _ (stage.room hfits (Request.texts_header hheader).2 le_rfl)
    rw [Parser.inState, stage.parseState]
    rfl

/-! ### Whole requests -/

lemma zero_not_mem_value {header : HeaderLine} (h : header.Valid) : 0 ∉ header.value := by
  rw [HeaderLine.value, List.mem_append, List.mem_flatMap]
  rintro (hfirst | ⟨line, hline, hzero⟩)
  · exact (h.firstLine 0 hfirst).2 rfl
  · have hvalid := h.continuations line hline
    rcases List.mem_cons.mp hzero with hblank | htext
    · exact absurd (hblank ▸ hvalid.blank) (by decide)
    · exact (hvalid.text 0 htext).2 rfl

/-- The places of all texts are known at the end. -/
lemma Stage.received (hvalid : r.Valid) {keys : ℕ} (hkeys : r.headers.length ≤ keys)
    (h : Stage r p state { r.headerStart with
      headerKeys := keys
      headerValues := r.headers.length
      texts := r.texts.length } []) : r.Received p := by
  have hmessage : p.clientMessage = packed 0 r.texts := by
    rw [h.clientMessage, List.append_nil, List.take_length]
  have htext : ∀ {i place text}, r.texts[i]? = some text → 0 ∉ text → place = r.place i →
      p.text place = text := by
    rintro i place text htext hno rfl
    rw [Parser.text, hmessage]
    exact textAt_offset htext hno
  have hkeysSet : r.qualifiers ≠ [] → r.keysSet = r.qualifiers.length + 1 := by
    intro hne
    obtain ⟨q, qs, hsplit⟩ := List.exists_cons_of_ne_nil hne
    have hlength : r.qualifiers.length = qs.length + 1 := by rw [hsplit, List.length_cons]
    rw [r.keysSet_eq hlength, hlength]
  have hkey : ∀ i < r.qualifiers.length + 1, r.qualifiers ≠ [] →
      (p.qualifiers i).key = r.place (2 + 2 * i) := by
    intro i hi hne
    exact h.keys i (hi.trans_eq (hkeysSet hne).symm)
  constructor
  · exact h.numCommandWords
  · apply htext r.texts_method fun hzero => (hvalid.method 0 hzero).2 rfl
    exact h.words 0 (by simp only [Request.headerStart]; omega)
  · apply htext r.texts_fileName _ (h.words 1 (by simp only [Request.headerStart]; omega))
    intro hzero
    obtain ⟨e, he, hbyte⟩ := List.mem_map.mp hzero
    exact (hvalid.fileName e he).2 hbyte
  · intro i w hw
    obtain ⟨hi, -⟩ := List.getElem?_eq_some_iff.mp hw
    have hown := hvalid.words w (List.mem_of_getElem? hw)
    apply htext (Request.texts_word hw) fun hzero => (hown.word 0 hzero).2 rfl
    rw [h.words (i + 2) (by simp only [Request.headerStart]; omega), Request.wordIndex,
      if_neg (by omega)]
    congr 1
    ring
  · exact h.numQualKeys
  · intro i q hq
    obtain ⟨hi, -⟩ := List.getElem?_eq_some_iff.mp hq
    have hown := hvalid.qualifiers q (List.mem_of_getElem? hq)
    apply htext (Request.texts_qualifier hq).1 fun hzero => (hown.key 0 hzero).2 rfl
    exact hkey i (Nat.lt_succ_of_lt hi) (List.ne_nil_of_mem (List.mem_of_getElem? hq))
  · intro i q hq
    obtain ⟨hi, -⟩ := List.getElem?_eq_some_iff.mp hq
    have hnext := hkey (i + 1) (Nat.succ_lt_succ hi) (List.ne_nil_of_mem (List.mem_of_getElem? hq))
    have hindex : 2 + 2 * (i + 1) = 3 + 2 * i + 1 := by ring
    rw [hmessage, hnext, h.values i hi, hindex]
    exact take_drop_offset (Request.texts_qualifier hq).2
  · exact h.numHeaderKeys
  · intro i header hheader
    obtain ⟨hi, -⟩ := List.getElem?_eq_some_iff.mp hheader
    have hown := hvalid.headers header (List.mem_of_getElem? hheader)
    obtain ⟨hkeyText, hvalueText⟩ := Request.texts_header hheader
    refine ⟨htext hkeyText ?_ (h.headerKeys i (hi.trans_le hkeys)),
      htext hvalueText (zero_not_mem_value hown) (h.headerValues i hi)⟩
    exact fun hzero => (hown.key 0 hzero).2 rfl

/-- All up to the blank line. -/
lemma reads_request (hvalid : r.Valid) (hfits : r.Fits) (p : Parser) :
    Reads Parser.charFromClient Rejected p.accept (r.method ++ [r.blank] ++
      r.fileName.flatMap EncodedByte.chars ++ qualifierChars r.qualifiers ++
        (r.words.flatMap fun w => w.blank :: w.word) ++ lineEnd r.crlf ++
          r.headers.flatMap HeaderLine.chars) r.Accepted fun q =>
            BeforeHeader r q r.headers.length := by
  have hname := (reads_method hvalid hfits p).append fun q hq => reads_fileName hvalid hfits hq
  have htarget := hname.append fun q hq => reads_target hvalid hfits hq
  have hwords := htarget.append fun q hq =>
    reads_words (i := 0) hvalid hfits (List.drop_zero ..) (by decide) hq
  rw [zero_add] at hwords
  have hline := hwords.append fun q hq => reads_lineEnd hfits hq r.crlf
  have hheaders := hline.append fun q hq =>
    reads_headers (i := 0) hvalid hfits (List.drop_zero ..) (by decide) (BeforeHeader.first hq)
  rw [zero_add] at hheaders
  apply hheaders.congr _ fun q _ hq => hq
  constructor
  · rintro ⟨⟨⟨⟨⟨-, hfileName⟩, hvalues, hqualifiers⟩, hwords⟩, -⟩, hheaders⟩
    exact ⟨hfileName, hvalues, hqualifiers, hwords, hheaders⟩
  · rintro ⟨hfileName, hvalues, hqualifiers, hwords, hheaders⟩
    exact ⟨⟨⟨⟨⟨trivial, hfileName⟩, hvalues, hqualifiers⟩, hwords⟩, trivial⟩, hheaders⟩

lemma feed_lastLine (hfits : r.Fits) (h : BeforeHeader r p r.headers.length) (crlf : Bool) :
    ∃ q, feed Parser.charFromClient p (lineEnd crlf) = .inl ((.processMessage, q), []) ∧
      p.charFromClient newline = .inl (.processMessage, q) := by
  obtain ⟨q, hstep, -⟩ := beforeHeader_newline h
  refine ⟨q, ?_, hstep⟩
  have hnewline : feed Parser.charFromClient p [newline] = .inl ((.processMessage, q), []) :=
    feed_cons_of_inl hstep
  cases crlf with
  | false => exact hnewline
  | true => exact (feed_cons_of_inr (beforeHeader_return hfits h)).trans hnewline

/-- A request is taken apart as it was put together where its escapes have capitals only and it
keeps to the limits; otherwise it is refused. No input at all leads to a write beyond an array. -/
theorem request_received (hvalid : r.Valid) (hfits : r.Fits) (p : Parser) :
    ((∃ q, feed Parser.charFromClient p.accept r.chars = .inl ((.processMessage, q), []) ∧
      r.Received q) ↔ r.Accepted) ∧
    ∀ cs, match feed Parser.charFromClient p.accept cs with
      | .inl (reply, _) => reply.2.overrun = false
      | .inr q => q.overrun = false := by
  refine ⟨?_, Parser.feed_safe (Parser.safe_accept p)⟩
  rw [Request.chars]
  cases reads_request hvalid hfits p (lineEnd r.lastCrlf) with
  | inl hgo =>
    obtain ⟨hok, q, hfeed, hq⟩ := hgo
    obtain ⟨q', hlast, hstep⟩ := feed_lastLine hfits hq r.lastCrlf
    obtain ⟨q'', hstep', state, keys, hstage, hkeys⟩ := beforeHeader_newline hq
    obtain rfl : q' = q'' := by
      rw [hstep'] at hstep
      injection hstep with hpair
      exact (Prod.mk.inj hpair).2.symm
    rw [hfeed]
    exact iff_of_true ⟨q', hlast, hstage.received hvalid hkeys⟩ hok
  | inr hstop =>
    obtain ⟨hno, reply, left, hfeed, response, hresponse⟩ := hstop
    rw [hfeed]
    apply iff_of_false _ hno
    rintro ⟨q, heq, -⟩
    injection heq with hpair
    rw [(Prod.mk.inj hpair).1] at hresponse
    exact absurd hresponse (by simp)

end

/-- `GET /a%..?k=+ HTTP` with one header of two lines. -/
def getRequest (high low : UInt8) : Request where
  method := [71, 69, 84]
  blank := space
  fileName := [.raw 47, .raw 97, .escaped high low]
  qualifiers := [⟨[107], [.plus]⟩]
  words := [⟨space, [72, 84, 84, 80]⟩]
  crlf := true
  headers := [⟨[65], [space], [66], true, [⟨tab, [67], false⟩]⟩]
  lastCrlf := true

lemma getRequest_valid {high low : UInt8} (h : (hexDigit high).isSome ∧ (hexDigit low).isSome)
    (hbyte : (EncodedByte.escaped high low).byte ≠ 0) : (getRequest high low).Valid where
  method := by
    simp only [getRequest]
    decide +kernel
  blank := Or.inl rfl
  fileName := by
    rw [getRequest]
    simp only [List.forall_mem_cons]
    exact ⟨by decide +kernel, by decide +kernel, ⟨h, hbyte⟩, by simp⟩
  qualifiers := List.forall_mem_singleton.mpr ⟨by decide +kernel, by decide +kernel⟩
  words := List.forall_mem_singleton.mpr ⟨by decide +kernel, by decide +kernel⟩
  headers := List.forall_mem_singleton.mpr
    ⟨by decide +kernel, ⟨65, [], rfl, by decide +kernel⟩, by decide +kernel, by decide +kernel, by decide +kernel,
      List.forall_mem_singleton.mpr ⟨by decide +kernel, by decide +kernel⟩⟩

lemma getRequest_fits (high low : UInt8) : (getRequest high low).Fits where
  texts := by
    change 23 ≤ clientMessageSize
    decide
  noHeaders := nofun

def unused : Parser :=
  ⟨.doingCommandWord, [], 0, fun _ => 0, 0, fun _ => ⟨0, 0⟩, 0, fun _ => ⟨0, 0⟩, 0, false⟩

/-- A capital in the escape, `%2F`. -/
theorem request_received_capital : ∃ q, feed Parser.charFromClient unused.accept
    (getRequest 50 70).chars = .inl ((.processMessage, q), []) ∧ (getRequest 50 70).Received q :=
  (request_received (getRequest_valid (by decide) (by decide)) (getRequest_fits 50 70) unused).1.mpr
    ⟨by decide, by decide, by decide, by decide, by decide⟩

/-- A small letter in the escape, `%2f`. -/
theorem not_request_received : ¬ ∀ (r : Request) (p : Parser), r.Valid → r.Fits →
    r.qualifiers.length ≤ maxQualKeys → 2 + r.words.length ≤ maxCommandWords →
    r.headers.length < maxHeaders → ∃ q, feed Parser.charFromClient p.accept r.chars =
      .inl ((.processMessage, q), []) ∧ r.Received q := by
  intro h
  have hvalid : (getRequest 50 102).Valid := getRequest_valid (by decide) (by decide)
  obtain ⟨q, hfeed, -⟩ := h _ unused hvalid (getRequest_fits 50 102) (by decide) (by decide)
    (by decide)
  have hreject : (feed Parser.charFromClient unused.accept (getRequest 50 102).chars).elim
      (fun stopped => stopped.1.1) (fun _ => .processMessage) = .reject badEscapeResponse := by
    decide +kernel
  rw [hfeed] at hreject
  injection hreject

end RepRapFirmware.Networking.Http
