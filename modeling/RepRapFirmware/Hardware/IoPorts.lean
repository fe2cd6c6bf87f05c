import RepRapFirmware.Library.Ownership
import RepRapFirmware.Library.Runs

/-! Ports and the pins they are assigned to. -/

namespace RepRapFirmware.Hardware

open Library Library.Ownership Library.Runs

inductive PinUsedBy
  | notUsed
  | heater
  | fan
  | endstop
  | zprobe
  | tacho
  | spindle
  | laser
  | gpin
  | gpout
  | filamentMonitor
  | temporaryInput
  | sensor
  | led
  | sdCard
  deriving DecidableEq

inductive PinAccess
  | read
  | readWithPullupInternalUseOnly
  | readNoDebounce
  | readAnalog
  | write0
  | write1
  | pwm
  | servo
  deriving DecidableEq

inductive PinMode
  | notConfigured
  | input
  | inputPullup
  | inputPulldown
  | outputLow
  | outputHigh
  | ain
  | outputPwmLow
  | outputPwmHigh
  deriving DecidableEq

def noLogicalPin : ℕ := 0xFF
def noPinName : List Char := ['n', 'i', 'l']

/-- The pins of a board, with the names of each as one text. -/
structure Board where
  pinTable : List (Option (List Char))
  isLpcPin : ℕ → Bool
  hasAdcChannel : ℕ → Bool
  numNamedPins_le : pinTable.length ≤ 255

/-! ### Pin names -/

def stringEqualsIgnoreCase (s₁ s₂ : List Char) : Bool := s₁.map Char.toLower == s₂.map Char.toLower

/-- The names in a text, each of which ends at a comma or with the text. -/
def aliases : List Char → List (List Char)
  | [] => []
  | ',' :: cs => [] :: aliases cs
  | c :: ',' :: cs => [c] :: aliases cs
  | c :: cs =>
    match aliases cs with
    | [] => [[c]]
    | a :: as => (c :: a) :: as

/-- Whether the pin is inverted by the hardware, where the name is that of a pin. -/
def matchAlias (pn : List Char) : List Char → Option Bool
  | '!' :: q => if pn = q then some true else none
  | q => if pn = q then some false else none

def lookupPinName (board : Board) (pn : List Char) : Option (ℕ × Bool) :=
  if stringEqualsIgnoreCase pn noPinName then some (noLogicalPin, false)
  else board.pinTable.zipIdx.findSome? fun (names, lp) =>
    ((aliases (names.getD [])).findSome? (matchAlias pn)).map fun hwInverted => (lp, hwInverted)

def isFlag (c : Char) : Bool := c = '!' || c = '^' || c = '*'

/-- The name without the address of the board, if this is 0 or missing. -/
def removeBoardAddress (portName : List Char) : Option (List Char) :=
  let flags := portName.takeWhile isFlag
  let rest := portName.dropWhile isFlag
  let digits := rest.takeWhile Char.isDigit
  if digits ≠ [] ∧ (rest.dropWhile Char.isDigit).head? = some '.' then
    let boardAddress : ℕ :=
      digits.foldl (fun address c => (address * 10 + (c.toNat - 48)) % 2 ^ 32) 0
    if boardAddress ≠ 0 then none else some (flags ++ (rest.dropWhile Char.isDigit).tail)
  else some portName

/-- What the flags before the name of a pin say. -/
structure PortFlags where
  inverted : Bool
  access : PinAccess
  alternateConfig : Bool

def readFlags : List Char → PortFlags → PortFlags × List Char
  | '!' :: pn, flags => readFlags pn { flags with inverted := !flags.inverted }
  | '^' :: pn, flags => readFlags pn { flags with
      access := if flags.access = .read then .readWithPullupInternalUseOnly else flags.access }
  | '*' :: pn, flags => readFlags pn { flags with alternateConfig := true }
  | pn, flags => (flags, pn)

/-! ### Ports -/

/-- A port. The purpose of its last allocation is kept for the statements below and is not in the
code. -/
structure IoPort where
  logicalPin : ℕ
  hardwareInvert : Bool
  totalInvert : Bool
  isSharedInput : Bool
  alternateConfig : Bool
  purpose : PinUsedBy

def translatePinAccess : PinAccess → String
  | .read => "digital read"
  | .readWithPullupInternalUseOnly => "digital read (pullup resistor enabled)"
  | .readNoDebounce => "digital read (no debouncing)"
  | .readAnalog => "analog read"
  | .write0 => "write (initially low)"
  | .write1 => "write (initially high)"
  | .pwm => "write PWM"
  | .servo => "servo write"

/-- The ports and the tables that they share. -/
structure Ports (ι : Type*) where
  port : ι → IoPort
  portUsedBy : ℕ → PinUsedBy
  logicalPinModes : ℕ → PinMode

/-- What the part that drives some of the pins answers when it is asked for a mode. -/
abbrev LpcAnswers := ℕ → PinMode → Bool

variable {ι : Type*} [DecidableEq ι] (board : Board)

def IoPort.isValid (p : IoPort) : Prop := p.logicalPin < board.pinTable.length

instance (p : IoPort) : Decidable (p.isValid board) := inferInstanceAs (Decidable (_ < _))

def IoPort.desiredMode (p : IoPort) : PinAccess → PinMode
  | .write0 => if p.totalInvert then .outputHigh else .outputLow
  | .write1 => if p.totalInvert then .outputLow else .outputHigh
  | .pwm | .servo => if p.totalInvert then .outputPwmHigh else .outputPwmLow
  | .readAnalog => .ain
  | .readWithPullupInternalUseOnly => .inputPullup
  | .read | .readNoDebounce => .input

namespace Ports

def init : Ports ι where
  port _ := {
    logicalPin := noLogicalPin
    hardwareInvert := false
    totalInvert := false
    isSharedInput := false
    alternateConfig := false
    purpose := .notUsed }
  portUsedBy _ := .notUsed
  logicalPinModes _ := .notConfigured

def setPort (i : ι) (p : IoPort) (s : Ports ι) : Ports ι :=
  { s with port := Function.update s.port i p }

def setModeOf (lp : ℕ) (mode : PinMode) (s : Ports ι) : Ports ι :=
  { s with logicalPinModes := Function.update s.logicalPinModes lp mode }

def mark (lp : ℕ) (usedBy : PinUsedBy) (s : Ports ι) : Ports ι :=
  { s with portUsedBy := Function.update s.portUsedBy lp usedBy }

def release (i : ι) (s : Ports ι) : Ports ι :=
  let p := s.port i
  let s := if p.isValid board ∧ p.isSharedInput = false then
      (s.mark p.logicalPin .notUsed).setModeOf p.logicalPin .notConfigured
    else s
  s.setPort i { p with logicalPin := noLogicalPin, hardwareInvert := false, totalInvert := false }

def setMode (answers : LpcAnswers) (access : PinAccess) (i : ι) (s : Ports ι) : Bool × Ports ι :=
  let p := s.port i
  let mode := p.desiredMode access
  if ¬ p.isValid board then (false, s)
  else if s.logicalPinModes p.logicalPin = mode then (true, s)
  else if board.isLpcPin p.logicalPin then
    if answers p.logicalPin mode then (true, s.setModeOf p.logicalPin mode) else (false, s)
  else if board.hasAdcChannel p.logicalPin = false ∧ access = .readAnalog then (false, s)
  else (true, s.setModeOf p.logicalPin mode)

/-- The port gets the pin, before its mode is set. -/
def take (lp : ℕ) (hwInvert inverted : Bool) (neededFor : PinUsedBy) (i : ι) (s : Ports ι) :
    Ports ι :=
  s.setPort i { s.port i with
    logicalPin := lp
    hardwareInvert := hwInvert
    isSharedInput := neededFor = .temporaryInput
    totalInvert := if hwInvert then !inverted else inverted
    purpose := neededFor }

/-- The pin is not used, or for a temporary input that a real owner may override. -/
def isFree (lp : ℕ) (neededFor : PinUsedBy) (s : Ports ι) : Prop :=
  s.portUsedBy lp = .notUsed ∨ s.portUsedBy lp = .temporaryInput ∧ neededFor ≠ .temporaryInput

def canShare (lp : ℕ) (neededFor : PinUsedBy) (s : Ports ι) : Prop :=
  neededFor = .temporaryInput ∧
    (s.logicalPinModes lp = .input ∨ s.logicalPinModes lp = .inputPullup)

instance (lp : ℕ) (neededFor : PinUsedBy) (s : Ports ι) : Decidable (s.isFree lp neededFor) :=
  inferInstanceAs (Decidable (_ ∨ _))

instance (lp : ℕ) (neededFor : PinUsedBy) (s : Ports ι) : Decidable (s.canShare lp neededFor) :=
  inferInstanceAs (Decidable (_ ∧ _))

/-- What becomes of a port for which there is a pin. -/
def allocatePin (answers : LpcAnswers) (fullPinName : String) (lp : ℕ) (hwInvert inverted : Bool)
    (neededFor : PinUsedBy) (access : PinAccess) (i : ι) (s : Ports ι) :
    Except String Unit × Ports ι :=
  if s.isFree lp neededFor then
    match setMode board answers access i
        ((s.mark lp neededFor).take lp hwInvert inverted neededFor i) with
    | (true, s) => (.ok (), s)
    | (false, s) =>
      (.error ("Pin '" ++ fullPinName ++ "' does not support mode " ++ translatePinAccess access),
        s.release board i)
  else if s.canShare lp neededFor then (.ok (), s.take lp hwInvert inverted neededFor i)
  else (.error ("Pin '" ++ fullPinName ++ "' is not free"), s)

def allocate (answers : LpcAnswers) (pn : List Char) (neededFor : PinUsedBy) (access : PinAccess)
    (i : ι) (s : Ports ι) : Except String Unit × Ports ι :=
  let s := s.release board i
  let (flags, pn) := readFlags pn
    { inverted := false, access := access, alternateConfig := (s.port i).alternateConfig }
  let s := s.setPort i { s.port i with alternateConfig := flags.alternateConfig }
  match lookupPinName board pn with
  | none => (.error ("Unknown pin name '" ++ String.ofList pn ++ "'"), s)
  | some (lp, hwInvert) =>
    if lp ≠ noLogicalPin then
      s.allocatePin board answers (String.ofList pn) lp hwInvert flags.inverted neededFor
        flags.access i
    else (.ok (), s)

def releaseAll (ports : List ι) (s : Ports ι) : Ports ι :=
    ports.foldl (fun s i => s.release board i) s

/-- The first name of a text, of which 50 characters are kept. -/
def firstName (pinNames : List Char) : List Char := (pinNames.takeWhile (· ≠ '+')).take 50

/-- The loop of `AssignPorts`, with the ports that are done. -/
def assignFrom (answers : ℕ → LpcAnswers) (neededFor : PinUsedBy) (done : List ι) :
    List (ι × PinAccess) → List Char → Ports ι → (ℕ × Option String) × Ports ι
  | [], _, s => ((done.length, none), s)
  | (i, access) :: ports, pinNames, s =>
    match removeBoardAddress (firstName pinNames) with
    | none => ((0, some "Board address of port must be 0"), s.releaseAll board done)
    | some pn =>
      match s.allocate board (answers done.length) pn neededFor access i with
      | (.error message, s) => ((0, some message), s.releaseAll board done)
      | (.ok _, s) =>
        match pinNames.dropWhile (· ≠ '+') with
        | [] => ((done.length + 1, none), s)
        | _ :: pinNames => assignFrom answers neededFor (done ++ [i]) ports pinNames s

def assignPorts (answers : ℕ → LpcAnswers) (pinNames : List Char) (neededFor : PinUsedBy)
    (ports : List (ι × PinAccess)) (s : Ports ι) : (ℕ × Option String) × Ports ι :=
  assignFrom board answers neededFor [] ports pinNames (s.releaseAll board (ports.map Prod.fst))

/-! ### Owners -/

/-- The pin that a port has for itself. -/
def holder (s : Ports ι) (i : ι) : Option ℕ :=
  if (s.port i).isValid board ∧ (s.port i).isSharedInput = false then some (s.port i).logicalPin
  else none

def purpose (s : Ports ι) (i : ι) : PinUsedBy := (s.port i).purpose

/-- What a pin is marked with, apart from temporary inputs. -/
def owner (s : Ports ι) (lp : ℕ) : Option PinUsedBy :=
  if s.portUsedBy lp = .notUsed ∨ s.portUsedBy lp = .temporaryInput then none
  else some (s.portUsedBy lp)

structure Owned (s : Ports ι) : Prop where
  consistent : Consistent (s.holder board) s.purpose s.owner
  real : ∀ i, (s.holder board i).isSome → s.purpose i ≠ .notUsed ∧ s.purpose i ≠ .temporaryInput
  shared : ∀ i, (s.port i).isValid board → (s.port i).isSharedInput = true →
    s.purpose i = .temporaryInput

variable {board} {s s' : Ports ι} {i j : ι} {lp : ℕ}

lemma noLogicalPin_not_valid {p : IoPort} (h : p.logicalPin = noLogicalPin) : ¬ p.isValid board :=
    by
  have hle := board.numNamedPins_le
  rw [IoPort.isValid, h, noLogicalPin]
  omega

omit [DecidableEq ι] in
lemma holder_of_not_valid (h : ¬ (s.port i).isValid board) : s.holder board i = none :=
  if_neg fun hvalid => h hvalid.1

@[simp]
lemma port_setPort_self (p : IoPort) : (s.setPort i p).port i = p := Function.update_self ..

lemma port_setPort_of_ne (p : IoPort) (h : j ≠ i) : (s.setPort i p).port j = s.port j :=
  Function.update_of_ne h ..

/-- A port is given up: what other ports have stays as it is, and the pin is free if it was held. -/
lemma port_release_self : ((s.release board i).port i).logicalPin = noLogicalPin := by
  rw [release, port_setPort_self]

lemma port_release_of_ne (h : j ≠ i) : (s.release board i).port j = s.port j := by
  rw [release, port_setPort_of_ne _ h]
  split_ifs <;> rfl

lemma holder_release : (s.release board i).holder board = Function.update (s.holder board) i none :=
    by
  funext j
  by_cases h : j = i
  · subst h
    rw [Function.update_self]
    exact holder_of_not_valid (noLogicalPin_not_valid port_release_self)
  · rw [Function.update_of_ne h, holder, holder, port_release_of_ne h]

lemma purpose_release : (s.release board i).purpose = s.purpose := by
  funext j
  by_cases h : j = i
  · subst h
    rw [purpose, release, port_setPort_self, purpose]
  · rw [purpose, port_release_of_ne h, purpose]

lemma portUsedBy_release : (s.release board i).portUsedBy =
    match s.holder board i with
    | none => s.portUsedBy
    | some lp => Function.update s.portUsedBy lp .notUsed := by
  by_cases h : (s.port i).isValid board ∧ (s.port i).isSharedInput = false
  · rw [holder, if_pos h, release, if_pos h]
    rfl
  · rw [holder, if_neg h, release, if_neg h]
    rfl

omit [DecidableEq ι] in
lemma owner_mark (usedBy : PinUsedBy) : (s.mark lp usedBy).owner = Function.update s.owner lp
    (if usedBy = .notUsed ∨ usedBy = .temporaryInput then none else some usedBy) := by
  funext q
  by_cases h : q = lp
  · subst h
    simp [owner, mark]
  · simp [owner, mark, h]

omit [DecidableEq ι] in
lemma owner_congr (h : s'.portUsedBy = s.portUsedBy) : s'.owner = s.owner := by
  funext q
  rw [owner, owner, h]

lemma Owned.release (h : s.Owned board) (i : ι) : (s.release board i).Owned board := by
  constructor
  · cases hi : s.holder board i with
    | none =>
      have hused : (s.release board i).portUsedBy = s.portUsedBy := by rw [portUsedBy_release, hi]
      rw [holder_release, purpose_release, owner_congr hused, ← hi, Function.update_eq_self]
      exact h.consistent
    | some lp =>
      have hused : (s.release board i).portUsedBy = (s.mark lp .notUsed).portUsedBy := by
        rw [portUsedBy_release, hi]
        rfl
      rw [holder_release, purpose_release, owner_congr hused, owner_mark]
      exact h.consistent.free hi
  · intro j hj
    rw [holder_release] at hj
    rw [purpose_release]
    by_cases heq : j = i
    · subst heq
      simp at hj
    · rw [Function.update_of_ne heq] at hj
      exact h.real j hj
  · intro j hvalid hshared
    by_cases heq : j = i
    · subst heq
      exact absurd hvalid (noLogicalPin_not_valid port_release_self)
    · rw [port_release_of_ne heq] at hvalid hshared
      rw [purpose_release]
      exact h.shared j hvalid hshared

omit [DecidableEq ι] in
/-- Who owns what depends on the ports and on what the pins are used by. -/
lemma Owned.congr (h : s.Owned board) (hport : s'.port = s.port)
    (hused : s'.portUsedBy = s.portUsedBy) : s'.Owned board := by
  have hholder : s'.holder board = s.holder board := by
    funext j
    rw [holder, holder, hport]
  have hpurpose : s'.purpose = s.purpose := by
    funext j
    rw [purpose, purpose, hport]
  constructor
  · rw [hholder, hpurpose, owner_congr hused]
    exact h.consistent
  · rw [hholder, hpurpose]
    exact h.real
  · rw [hport, hpurpose]
    exact h.shared

omit [DecidableEq ι] in
lemma setMode_port {answers : LpcAnswers} {access : PinAccess} :
    (s.setMode board answers access i).2.port = s.port := by
  rw [setMode]
  split_ifs <;> rfl

omit [DecidableEq ι] in
lemma setMode_portUsedBy {answers : LpcAnswers} {access : PinAccess} :
    (s.setMode board answers access i).2.portUsedBy = s.portUsedBy := by
  rw [setMode]
  split_ifs <;> rfl

section

variable {hwInvert inverted : Bool} {neededFor : PinUsedBy}

lemma port_take_of_ne (h : j ≠ i) : (s.take lp hwInvert inverted neededFor i).port j = s.port j :=
  port_setPort_of_ne _ h

lemma purpose_take : (s.take lp hwInvert inverted neededFor i).purpose =
    Function.update s.purpose i neededFor := by
  funext j
  by_cases h : j = i
  · subst h
    rw [Function.update_self, purpose, take, port_setPort_self]
  · rw [Function.update_of_ne h, purpose, port_take_of_ne h, purpose]

lemma holder_take (hlp : lp < board.pinTable.length) :
    (s.take lp hwInvert inverted neededFor i).holder board =
      Function.update (s.holder board) i (if neededFor = .temporaryInput then none else some lp) :=
        by
  funext j
  by_cases h : j = i
  · subst h
    rw [Function.update_self, holder, take, port_setPort_self]
    by_cases htemporary : neededFor = .temporaryInput
    · simp [htemporary]
    · simp [htemporary, IoPort.isValid, hlp]
  · rw [Function.update_of_ne h, holder, port_take_of_ne h, holder]

/-- A port becomes a temporary input: nobody owns anything else than before. -/
lemma Owned.take_temporary (h : s.Owned board) (hi : s.holder board i = none)
    (hlp : lp < board.pinTable.length) :
    (s.take lp hwInvert inverted .temporaryInput i).Owned board := by
  have hholder : (s.take lp hwInvert inverted .temporaryInput i).holder board = s.holder board := by
    rw [holder_take hlp, if_pos rfl, ← hi, Function.update_eq_self]
  constructor
  · rw [hholder, purpose_take]
    exact h.consistent.repurpose hi _
  · intro j hj
    rw [hholder] at hj
    rw [purpose_take, Function.update_of_ne]
    · exact h.real j hj
    · rintro rfl
      rw [hi] at hj
      exact absurd hj Bool.false_ne_true
  · intro j hvalid hshared
    rw [purpose_take]
    by_cases heq : j = i
    · subst heq
      exact Function.update_self ..
    · rw [port_take_of_ne heq] at hvalid hshared
      rw [Function.update_of_ne heq]
      exact h.shared j hvalid hshared

/-- A port becomes the owner of a pin that has no owner. -/
lemma Owned.take_real (h : s.Owned board) (hi : s.holder board i = none)
    (hlp : lp < board.pinTable.length) (hfree : s.owner lp = none) (hused : neededFor ≠ .notUsed)
    (hreal : neededFor ≠ .temporaryInput) :
    ((s.mark lp neededFor).take lp hwInvert inverted neededFor i).Owned board := by
  have howner : ((s.mark lp neededFor).take lp hwInvert inverted neededFor i).owner =
      Function.update s.owner lp (some neededFor) := by
    have hmark : (s.mark lp neededFor).owner = _ := owner_mark neededFor
    rw [if_neg (not_or.mpr ⟨hused, hreal⟩)] at hmark
    rw [← hmark]
    rfl
  have hholder : ((s.mark lp neededFor).take lp hwInvert inverted neededFor i).holder board =
      Function.update (s.holder board) i (some lp) := by
    rw [holder_take hlp, if_neg hreal]
    rfl
  constructor
  · rw [hholder, howner, purpose_take]
    exact h.consistent.take hi hfree neededFor
  · intro j hj
    rw [hholder] at hj
    rw [purpose_take]
    by_cases heq : j = i
    · subst heq
      rw [Function.update_self]
      exact ⟨hused, hreal⟩
    · rw [Function.update_of_ne heq] at hj ⊢
      exact h.real j hj
  · intro j hvalid hshared
    rw [purpose_take]
    by_cases heq : j = i
    · subst heq
      rw [take, port_setPort_self] at hshared
      exact absurd (of_decide_eq_true hshared) hreal
    · rw [port_take_of_ne heq] at hvalid hshared
      rw [Function.update_of_ne heq]
      exact h.shared j hvalid hshared

omit [DecidableEq ι] in
lemma owner_of_isFree (h : s.isFree lp neededFor) : s.owner lp = none :=
  if_pos (h.imp_right And.left)

/-- What allocating a pin for a port does, whether it succeeds or not. -/
structure Allocated (board : Board) (neededFor : PinUsedBy) (i : ι) (s : Ports ι)
    (r : Except String Unit × Ports ι) : Prop where
  owned : r.2.Owned board
  others : ∀ j, j ≠ i → r.2.port j = s.port j
  failed : r.1.toOption = none → (r.2.port i).logicalPin = noLogicalPin
  temporary : ∀ p, r.2.portUsedBy p = .temporaryInput →
    neededFor = .temporaryInput ∨ s.portUsedBy p = .temporaryInput

lemma release_temporary {p : ℕ} (h : (s.release board i).portUsedBy p = .temporaryInput) :
    s.portUsedBy p = .temporaryInput := by
  rw [portUsedBy_release] at h
  cases hi : s.holder board i with
  | none =>
    rw [hi] at h
    exact h
  | some lp =>
    rw [hi] at h
    by_cases hp : p = lp
    · subst hp
      simp at h
    · simpa [hp] using h

variable (hwInvert inverted) in
lemma allocatePin_allocated (h : s.Owned board) (hi : (s.port i).logicalPin = noLogicalPin)
    (hlp : lp < board.pinTable.length) (hused : neededFor ≠ .notUsed) (answers : LpcAnswers)
    (name : String) (access : PinAccess) : Allocated board neededFor i s
      (s.allocatePin board answers name lp hwInvert inverted neededFor access i) := by
  have hholder : s.holder board i = none := holder_of_not_valid (noLogicalPin_not_valid hi)
  rw [allocatePin]
  by_cases hfree : s.isFree lp neededFor
  · rw [if_pos hfree]
    obtain ⟨t, ht⟩ : ∃ t, t = (s.mark lp neededFor).take lp hwInvert inverted neededFor i := ⟨_,
      rfl⟩
    have howned : t.Owned board := by
      by_cases hreal : neededFor = .temporaryInput
      · subst hreal
        have howner : (s.mark lp .temporaryInput).owner = s.owner := by
          have hnone := owner_of_isFree hfree
          rw [owner_mark, if_pos (Or.inr rfl), ← hnone, Function.update_eq_self]
        have hmarked : (s.mark lp .temporaryInput).Owned board := by
          constructor
          · rw [howner]
            exact h.consistent
          · exact h.real
          · exact h.shared
        rw [ht]
        exact hmarked.take_temporary hholder hlp
      · rw [ht]
        exact h.take_real hholder hlp (owner_of_isFree hfree) hused hreal
    have hothers : ∀ j, j ≠ i → t.port j = s.port j := by
      intro j hj
      rw [ht, port_take_of_ne hj]
      rfl
    have htemporary : ∀ p, t.portUsedBy p = .temporaryInput →
        neededFor = .temporaryInput ∨ s.portUsedBy p = .temporaryInput := by
      intro p hp
      rw [ht] at hp
      change Function.update s.portUsedBy lp neededFor p = _ at hp
      by_cases heq : p = lp
      · subst heq
        rw [Function.update_self] at hp
        exact Or.inl hp
      · rw [Function.update_of_ne heq] at hp
        exact Or.inr hp
    rw [← ht]
    have hport : (t.setMode board answers access i).2.port = t.port := setMode_port
    have husedBy : (t.setMode board answers access i).2.portUsedBy = t.portUsedBy :=
      setMode_portUsedBy
    rcases hmode : t.setMode board answers access i with ⟨done, u⟩
    rw [hmode] at hport husedBy
    have hu : u.Owned board := howned.congr hport husedBy
    cases done with
    | true =>
      refine ⟨hu, fun j hj => ?_, fun hfailed => absurd hfailed (Option.some_ne_none _),
        fun p hp => ?_⟩
      · exact (congrFun hport j).trans (hothers j hj)
      · exact htemporary p ((congrFun husedBy p).symm.trans hp)
    | false =>
      refine ⟨hu.release i, fun j hj => ?_, fun _ => port_release_self, fun p hp => ?_⟩
      · exact (port_release_of_ne hj).trans ((congrFun hport j).trans (hothers j hj))
      · exact htemporary p ((congrFun husedBy p).symm.trans (release_temporary hp))
  · rw [if_neg hfree]
    by_cases hshare : s.canShare lp neededFor
    · rw [if_pos hshare]
      obtain ⟨rfl, -⟩ := hshare
      exact ⟨h.take_temporary hholder hlp, fun j hj => port_take_of_ne hj,
        fun hfailed => absurd hfailed (Option.some_ne_none _), fun p _ => Or.inl rfl⟩
    · rw [if_neg hshare]
      exact ⟨h, fun j _ => rfl, fun _ => hi, fun p hp => Or.inr hp⟩

lemma lookupPinName_lt {pn : List Char} {hwInvert : Bool}
    (h : lookupPinName board pn = some (lp, hwInvert)) (hlp : lp ≠ noLogicalPin) :
    lp < board.pinTable.length := by
  rw [lookupPinName] at h
  split_ifs at h with hnil
  · obtain ⟨rfl, -⟩ := Prod.mk.inj (Option.some.inj h)
    exact absurd rfl hlp
  · obtain ⟨⟨names, place⟩, hmem, hfound⟩ := List.exists_of_findSome?_eq_some h
    obtain ⟨found, -, heq⟩ := Option.map_eq_some_iff.mp hfound
    obtain ⟨rfl, -⟩ := Prod.mk.inj heq
    exact (List.mem_zipIdx' hmem).1

lemma Owned.alternate (h : s.Owned board) (i : ι) (alternateConfig : Bool) :
    (s.setPort i { s.port i with alternateConfig := alternateConfig }).Owned board := by
  have hholder : (s.setPort i { s.port i with alternateConfig := alternateConfig }).holder board =
      s.holder board := by
    funext j
    by_cases heq : j = i
    · subst heq
      rw [holder, port_setPort_self, holder]
      rfl
    · rw [holder, port_setPort_of_ne _ heq, holder]
  have hpurpose : (s.setPort i { s.port i with alternateConfig := alternateConfig }).purpose =
      s.purpose := by
    funext j
    by_cases heq : j = i
    · subst heq
      rw [purpose, port_setPort_self, purpose]
    · rw [purpose, port_setPort_of_ne _ heq, purpose]
  constructor
  · rw [hholder, hpurpose]
    exact h.consistent
  · rw [hholder, hpurpose]
    exact h.real
  · intro j hvalid hshared
    rw [hpurpose]
    apply h.shared j
    all_goals
      by_cases heq : j = i
      · subst heq
        rw [port_setPort_self] at hvalid hshared
        assumption
      · rw [port_setPort_of_ne _ heq] at hvalid hshared
        assumption

lemma allocate_allocated (h : s.Owned board) (hused : neededFor ≠ .notUsed) (answers : LpcAnswers)
    (pn : List Char) (access : PinAccess) (i : ι) :
    Allocated board neededFor i s (s.allocate board answers pn neededFor access i) := by
  rw [allocate]
  rcases readFlags pn ⟨false, access, ((s.release board i).port i).alternateConfig⟩ with ⟨flags, pn⟩
  obtain ⟨t, ht⟩ : ∃ t, t = (s.release board i).setPort i
    { (s.release board i).port i with alternateConfig := flags.alternateConfig } := ⟨_, rfl⟩
  have howned : t.Owned board := ht ▸ (h.release i).alternate i _
  have hfree : (t.port i).logicalPin = noLogicalPin := by
    rw [ht, port_setPort_self]
    exact port_release_self
  have hothers : ∀ j, j ≠ i → t.port j = s.port j := by
    intro j hj
    rw [ht, port_setPort_of_ne _ hj, port_release_of_ne hj]
  have htemporary : ∀ p, t.portUsedBy p = .temporaryInput → s.portUsedBy p = .temporaryInput := by
    intro p hp
    rw [ht] at hp
    exact release_temporary hp
  simp only [← ht]
  cases hlookup : lookupPinName board pn with
  | none => exact ⟨howned, hothers, fun _ => hfree, fun p hp => Or.inr (htemporary p hp)⟩
  | some found =>
    rcases found with ⟨lp, hwInvert⟩
    by_cases hnil : lp = noLogicalPin
    · simp only [hnil, ne_eq, not_true_eq_false, if_false]
      exact ⟨howned, hothers, fun _ => hfree, fun p hp => Or.inr (htemporary p hp)⟩
    · simp only [hnil, ne_eq, not_false_eq_true, if_true]
      have hpin := allocatePin_allocated hwInvert flags.inverted howned
        hfree (lookupPinName_lt hlookup hnil) hused answers (String.ofList pn) flags.access
      exact ⟨hpin.owned, fun j hj => (hpin.others j hj).trans (hothers j hj), hpin.failed,
        fun p hp => (hpin.temporary p hp).imp_right (htemporary p)⟩

lemma releaseAll_spec (h : s.Owned board) (ports : List ι) :
    (s.releaseAll board ports).Owned board ∧
      (∀ j ∉ ports, (s.releaseAll board ports).port j = s.port j) ∧
      (∀ j, j ∈ ports ∨ (s.port j).logicalPin = noLogicalPin →
        ((s.releaseAll board ports).port j).logicalPin = noLogicalPin) ∧
      ∀ p, (s.releaseAll board ports).portUsedBy p = .temporaryInput →
        s.portUsedBy p = .temporaryInput := by
  induction ports generalizing s with
  | nil => exact ⟨h, fun j _ => rfl, fun j hj => hj.resolve_left List.not_mem_nil, fun p hp => hp⟩
  | cons i ports ih =>
    obtain ⟨howned, hothers, hreleased, htemporary⟩ := ih (h.release i)
    refine ⟨howned, fun j hj => ?_, fun j hj => ?_, fun p hp => release_temporary (htemporary p hp)⟩
    · rw [List.mem_cons, not_or] at hj
      exact (hothers j hj.2).trans (port_release_of_ne hj.1)
    · apply hreleased
      by_cases heq : j = i
      · subst heq
        exact Or.inr port_release_self
      · rw [port_release_of_ne heq]
        exact hj.imp_left fun hmem => (List.mem_cons.mp hmem).resolve_left heq

/-- What assigning ports does; where it fails, none of them has a pin. -/
structure Assigned (board : Board) (neededFor : PinUsedBy) (ports : List ι) (s : Ports ι)
    (r : (ℕ × Option String) × Ports ι) : Prop where
  owned : r.2.Owned board
  others : ∀ j ∉ ports, r.2.port j = s.port j
  failed : r.1.1 = 0 → ∀ j ∈ ports, (r.2.port j).logicalPin = noLogicalPin
  temporary : ∀ p, r.2.portUsedBy p = .temporaryInput →
    neededFor = .temporaryInput ∨ s.portUsedBy p = .temporaryInput

/-- The ports that are done may have pins, and those that are not have none. -/
lemma assignFrom_assigned (answers : ℕ → LpcAnswers) (hused : neededFor ≠ .notUsed)
    {ports : List (ι × PinAccess)} {all : List ι} (done : List ι) (pinNames : List Char)
    (h : s.Owned board) (hports : ∀ i ∈ ports.map Prod.fst, i ∈ all) (hdone : ∀ i ∈ done, i ∈ all)
    (hfree : ∀ j ∈ all, j ∉ done → (s.port j).logicalPin = noLogicalPin) :
    Assigned board neededFor all s (s.assignFrom board answers neededFor done ports pinNames) := by
  induction ports generalizing s done pinNames with
  | nil =>
    refine ⟨h, fun j _ => rfl, fun hzero j hj => hfree j hj ?_, fun p hp => Or.inr hp⟩
    rw [List.length_eq_zero_iff.mp hzero]
    exact List.not_mem_nil
  | cons first ports ih =>
    rcases first with ⟨i, access⟩
    rw [List.map_cons, List.forall_mem_cons] at hports
    rw [assignFrom]
    cases removeBoardAddress (firstName pinNames) with
    | none =>
      obtain ⟨howned, hothers, hreleased, htemporary⟩ := releaseAll_spec h done
      refine ⟨howned, fun j hj => hothers j fun hmem => hj (hdone j hmem), fun _ j hj => ?_,
        fun p hp => Or.inr (htemporary p hp)⟩
      exact hreleased j (or_iff_not_imp_left.mpr (hfree j hj))
    | some pn =>
      have hallocated := allocate_allocated h hused (answers done.length) pn access i
      simp only
      rcases hresult : s.allocate board (answers done.length) pn neededFor access i with ⟨r, t⟩
      rw [hresult] at hallocated
      have hnot : ∀ j ∈ all, j ∉ done ++ [i] → (t.port j).logicalPin = noLogicalPin := by
        intro j hj hmem
        rw [List.mem_append, List.mem_singleton, not_or] at hmem
        exact (congrArg IoPort.logicalPin (hallocated.others j hmem.2)).trans (hfree j hj hmem.1)
      cases r with
      | error message =>
        obtain ⟨howned, hothers, hreleased, htemporary⟩ := releaseAll_spec hallocated.owned done
        refine ⟨howned, fun j hj => ?_, fun _ j hj => hreleased j ?_,
          fun p hp => hallocated.temporary p (htemporary p hp)⟩
        · refine (hothers j fun hmem => hj (hdone j hmem)).trans (hallocated.others j ?_)
          rintro rfl
          exact hj hports.1
        · by_cases hji : j = i
          · subst hji
            exact Or.inr (hallocated.failed rfl)
          · refine or_iff_not_imp_left.mpr fun hmem => hnot j hj ?_
            rw [List.mem_append, List.mem_singleton, not_or]
            exact ⟨hmem, hji⟩
      | ok done' =>
        cases pinNames.dropWhile (· ≠ '+') with
        | nil =>
          refine ⟨hallocated.owned, fun j hj => hallocated.others j ?_,
            fun hzero => absurd hzero (Nat.succ_ne_zero _), hallocated.temporary⟩
          rintro rfl
          exact hj hports.1
        | cons plus pinNames =>
          have hrest := ih (done ++ [i]) pinNames hallocated.owned hports.2 (by
              intro k hk
              rw [List.mem_append, List.mem_singleton] at hk
              exact hk.elim (hdone k) fun heq => heq ▸ hports.1) hnot
          refine ⟨hrest.owned, fun j hj => (hrest.others j hj).trans (hallocated.others j ?_),
            hrest.failed, fun p hp => (hrest.temporary p hp).elim Or.inl (hallocated.temporary p)⟩
          rintro rfl
          exact hj hports.1

lemma assignPorts_assigned (h : s.Owned board) (hused : neededFor ≠ .notUsed)
    (answers : ℕ → LpcAnswers) (pinNames : List Char) (ports : List (ι × PinAccess)) :
    Assigned board neededFor (ports.map Prod.fst) s
      (s.assignPorts board answers pinNames neededFor ports) := by
  obtain ⟨howned, hothers, hreleased, htemporary⟩ := releaseAll_spec h (ports.map Prod.fst)
  have hloop := assignFrom_assigned answers hused [] pinNames howned
    (fun i hi => hi) (fun i hi => absurd hi List.not_mem_nil)
    (fun j hj _ => hreleased j (Or.inl hj))
  exact ⟨hloop.owned, fun j hj => (hloop.others j hj).trans (hothers j hj), hloop.failed,
    fun p hp => (hloop.temporary p hp).imp_right (htemporary p)⟩

end

/-! ### Runs -/

inductive Op (ι : Type*)
  | assignPorts (answers : ℕ → LpcAnswers) (pinNames : List Char) (neededFor : PinUsedBy)
      (ports : List (ι × PinAccess))
  | allocate (answers : LpcAnswers) (pn : List Char) (neededFor : PinUsedBy) (access : PinAccess)
      (i : ι)
  | release (i : ι)

def step (board : Board) (s : Ports ι) : Op ι → Ports ι
  | .assignPorts answers pinNames neededFor ports =>
    (s.assignPorts board answers pinNames neededFor ports).2
  | .allocate answers pn neededFor access i => (s.allocate board answers pn neededFor access i).2
  | .release i => s.release board i

/-- A pin is needed for something. -/
def Op.ok : Op ι → Prop
  | .assignPorts _ _ neededFor _ => neededFor ≠ .notUsed
  | .allocate _ _ neededFor _ _ => neededFor ≠ .notUsed
  | .release _ => True

instance : ∀ op : Op ι, Decidable op.ok
  | .assignPorts .. => inferInstanceAs (Decidable (_ ≠ _))
  | .allocate .. => inferInstanceAs (Decidable (_ ≠ _))
  | .release _ => inferInstanceAs (Decidable True)

omit [DecidableEq ι] in
lemma owned_init : (init : Ports ι).Owned board := by
  have hnone : ∀ i, (init : Ports ι).holder board i = none := fun i =>
    holder_of_not_valid (noLogicalPin_not_valid rfl)
  constructor
  · constructor
    · intro i r hi
      exact absurd ((hnone i).symm.trans hi) (Option.some_ne_none r).symm
    · intro i j r hi
      exact absurd ((hnone i).symm.trans hi) (Option.some_ne_none r).symm
    · intro r hr
      exact absurd rfl hr
  · intro i hi
    rw [hnone] at hi
    exact absurd hi Bool.false_ne_true
  · intro i hvalid
    exact absurd hvalid (noLogicalPin_not_valid rfl)

lemma owned_run (board : Board) {ops : List (Op ι)} (h : ∀ op ∈ ops, op.ok) :
    (run (step board) init ops).Owned board := by
  induction ops using List.reverseRecOn with
  | nil => exact owned_init
  | append_singleton ops op ih =>
    have hs := ih fun op hop => h op (List.mem_append_left _ hop)
    have hop := h op (by simp)
    rw [run_concat]
    cases op with
    | assignPorts answers pinNames neededFor ports =>
      exact (assignPorts_assigned hs hop answers pinNames ports).owned
    | allocate answers pn neededFor access i => exact (allocate_allocated hs hop answers pn access
        i).owned
    | release i => exact hs.release i

/-- A port has the pin for itself. -/
def Holds (board : Board) (s : Ports ι) (i : ι) (lp : ℕ) : Prop :=
  (s.port i).isValid board ∧ (s.port i).isSharedInput = false ∧ (s.port i).logicalPin = lp

instance (s : Ports ι) (i : ι) (lp : ℕ) : Decidable (s.Holds board i lp) :=
  inferInstanceAs (Decidable (_ ∧ _))

omit [DecidableEq ι] in
lemma holds_iff : s.Holds board i lp ↔ s.holder board i = some lp := by
  rw [Holds, holder]
  by_cases h : (s.port i).isValid board ∧ (s.port i).isSharedInput = false
  · simp [h]
  · rw [if_neg h]
    exact ⟨fun hholds => absurd ⟨hholds.1, hholds.2.1⟩ h, nofun⟩

omit [DecidableEq ι] in
lemma owner_eq_some {k : PinUsedBy} : s.owner lp = some k ↔
    s.portUsedBy lp = k ∧ k ≠ .notUsed ∧ k ≠ .temporaryInput := by
  rw [owner]
  split_ifs with h
  · constructor
    · exact nofun
    · rintro ⟨rfl, hused, hreal⟩
      exact absurd h (not_or.mpr ⟨hused, hreal⟩)
  · rw [not_or] at h
    constructor
    · intro heq
      obtain rfl := Option.some.inj heq
      exact ⟨rfl, h⟩
    · rintro ⟨rfl, -⟩
      rfl

omit [DecidableEq ι] in
lemma Owned.usedBy (h : s.Owned board) (hi : s.Holds board i lp) :
    s.portUsedBy lp = s.purpose i ∧ s.purpose i ≠ .notUsed ∧ s.purpose i ≠ .temporaryInput :=
  owner_eq_some.mp (h.consistent.marked i lp (holds_iff.mp hi))

omit [DecidableEq ι] in
/-- What a failed assignment leaves behind. -/
lemma Owned.failed (h : s.Owned board) {neededFor : PinUsedBy} {ports : List ι}
    {r : (ℕ × Option String) × Ports ι} (hr : Assigned board neededFor ports s r) (hzero : r.1.1 =
      0)
    (p : ℕ) : (∃ j ∉ ports, s.Holds board j p ∧ r.2.portUsedBy p = s.portUsedBy p) ∨
      r.2.portUsedBy p = .notUsed ∨ r.2.portUsedBy p = .temporaryInput ∧
        (neededFor = .temporaryInput ∨ s.portUsedBy p = .temporaryInput) := by
  cases hp : r.2.owner p with
  | none =>
    right
    rw [owner] at hp
    split_ifs at hp with hfree
    exact hfree.imp_right fun htemporary => ⟨htemporary, hr.temporary p htemporary⟩
  | some k =>
    left
    obtain ⟨j, hj⟩ := hr.owned.consistent.held p (hp ▸ Option.some_ne_none k)
    rw [← holds_iff] at hj
    have hother : j ∉ ports := fun hmem =>
      absurd hj.1 (noLogicalPin_not_valid (hr.failed hzero j hmem))
    have hsame := hr.others j hother
    have hbefore : s.Holds board j p := by
      rw [Holds, ← hsame]
      exact hj
    refine ⟨j, hother, hbefore, ?_⟩
    rw [(hr.owned.usedBy hj).1, (h.usedBy hbefore).1, purpose, purpose, hsame]

end Ports

open Ports in
/-- A pin has at most one owner, and is marked with the purpose of its owner if it has one and with
no purpose otherwise, apart from temporary inputs; and an assignment that fails leaves the pins to
those that had them before. -/
theorem pins_owned (board : Board) {ops : List (Op ι)} (h : ∀ op ∈ ops, op.ok) :
    let s := run (step board) init ops
    (∀ i j lp, s.Holds board i lp → s.Holds board j lp → i = j) ∧
    (∀ i, (s.port i).isValid board → (s.port i).isSharedInput = true →
      s.purpose i = .temporaryInput) ∧
    (∀ i lp, s.Holds board i lp → s.portUsedBy lp = s.purpose i) ∧
    (∀ lp, s.portUsedBy lp ≠ .notUsed → s.portUsedBy lp ≠ .temporaryInput →
      ∃! i, s.Holds board i lp ∧ s.purpose i = s.portUsedBy lp) ∧
    ∀ answers pinNames neededFor ports, neededFor ≠ .notUsed →
      let r := s.assignPorts board answers pinNames neededFor ports
      r.1.1 = 0 →
        (∀ i ∈ ports.map Prod.fst, (r.2.port i).logicalPin = noLogicalPin) ∧
        (∀ j ∉ ports.map Prod.fst, r.2.port j = s.port j) ∧
        ∀ lp, (∃ j ∉ ports.map Prod.fst, s.Holds board j lp ∧
            r.2.portUsedBy lp = s.portUsedBy lp) ∨
          r.2.portUsedBy lp = .notUsed ∨ r.2.portUsedBy lp = .temporaryInput ∧
            (neededFor = .temporaryInput ∨ s.portUsedBy lp = .temporaryInput) := by
  intro s
  have hs : s.Owned board := owned_run board h
  refine ⟨fun i j lp hi hj => ?_, hs.shared, fun i lp hi => (hs.usedBy hi).1,
    fun lp hused hreal => ?_, ?_⟩
  · exact hs.consistent.unique i j lp (holds_iff.mp hi) (holds_iff.mp hj)
  · have howner : s.owner lp = some (s.portUsedBy lp) := owner_eq_some.mpr ⟨rfl, hused, hreal⟩
    obtain ⟨i, hi⟩ := hs.consistent.held lp (howner ▸ Option.some_ne_none _)
    refine ⟨i, ⟨holds_iff.mpr hi, (hs.usedBy (holds_iff.mpr hi)).1.symm⟩, fun j hj => ?_⟩
    exact hs.consistent.unique j i lp (holds_iff.mp hj.1) hi
  · intro answers pinNames neededFor ports hneeded r hzero
    have hr := assignPorts_assigned hs hneeded answers pinNames ports
    exact ⟨hr.failed hzero, hr.others, hs.failed hr hzero⟩

/-- A board with an output and a fan, where the hardware inverts the fan. -/
def smallBoard : Board where
  pinTable := [some ['o', 'u', 't'], none, some ['x', ',', '!', 'f', 'a', 'n']]
  isLpcPin _ := false
  hasAdcChannel _ := false
  numNamedPins_le := by decide

open Ports in
/-- A temporary input is overridden by an endstop, which shares the pin with it from then on. -/
theorem pins_owned_shared :
    let ops : List (Op (Fin 3)) := [
      .allocate (fun _ _ => true) ['o', 'u', 't'] .temporaryInput .read 0,
      .assignPorts (fun _ _ _ => true) ['^', 'o', 'u', 't', '+', '!', 'f', 'a', 'n'] .endstop
        [(1, .read), (2, .read)]]
    let s := run (step smallBoard) init ops
    (s.port 0).isValid smallBoard ∧ s.Holds smallBoard 1 0 ∧ s.Holds smallBoard 2 2 ∧
      s.portUsedBy 0 = s.purpose 1 :=
  ⟨by decide +kernel, by decide +kernel, by decide +kernel,
    (pins_owned smallBoard (by decide)).2.2.1 1 0 (by decide +kernel)⟩

open Ports in
/-- Two ports that are allocated for nothing get the same pin. -/
theorem not_pins_owned_notUsed :
    let ops : List (Op (Fin 2)) := [
      .allocate (fun _ _ => true) ['o', 'u', 't'] .notUsed .write0 0,
      .allocate (fun _ _ => true) ['o', 'u', 't'] .notUsed .write0 1]
    let s := run (step smallBoard) init ops
    ¬ ∀ i j lp, s.Holds smallBoard i lp → s.Holds smallBoard j lp → i = j := by
  intro ops s h
  have h01 := h 0 1 0 (by decide +kernel) (by decide +kernel)
  exact absurd h01 (by decide)

end RepRapFirmware.Hardware
