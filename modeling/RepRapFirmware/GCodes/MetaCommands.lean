import RepRapFirmware.GCodes.StringParser
import RepRapFirmware.Library.Runs

/-! The conditional commands of a G-code file: `CheckMetaCommand` with the functions it calls, the
block states of the file, and `FileEnded`. The file is the list of its lines, and the file position
of a line is its index. Memory for block states does not run out. -/

namespace RepRapFirmware.GCodes.MetaCommands

open StringParser

inductive BlockType
  | plain | ifTrue | ifFalseNoneTrue | ifFalseHadTrue | loop
  deriving DecidableEq, Repr

structure BlockState where
  fpos : ℕ
  iterationsDone : UInt32
  indentLevel : ℕ
  blockType : BlockType
  deriving DecidableEq, Repr

namespace BlockState

def setLoopBlock (b : BlockState) (filePos : ℕ) : BlockState :=
  { b with blockType := .loop, fpos := filePos, iterationsDone := 0 }

/-- `SetPlainBlock`, `SetIfTrueBlock` and so on. -/
def setType (b : BlockState) (type : BlockType) : BlockState :=
  { b with blockType := type, iterationsDone := 0 }

def incrementIterations (b : BlockState) : BlockState :=
  { b with iterationsDone := b.iterationsDone + 1 }

end BlockState

/-- What a line asks for. A plain command is anything that does not change the flow of control. -/
inductive Command (κ γ : Type*)
  | plain (c : γ)
  | ifCommand (condition : κ)
  | elseCommand
  | elifCommand (condition : κ)
  | whileCommand (condition : κ)
  | breakCommand
  | continueCommand
  | skipCommand
  | abortCommand
  | comment
  deriving DecidableEq, Repr

def Command.isComment {κ γ : Type*} : Command κ γ → Bool
  | .comment => true
  | _ => false

/-- The column where the command of a line starts, as the parser counts: a tab moves on at least 1
to the next multiple of 4. -/
def column (leading : List UInt8) : ℕ :=
  leading.foldl (fun n c => if c = char ' ' then n + 1 else (n + 4) / 4 * 4) 0

lemma next_tab_stop (n : ℕ) : (UInt8.ofNat n + 4) &&& ~~~3 = UInt8.ofNat ((n + 4) / 4 * 4) := by
  have hbyte : ∀ x : Fin 256, (UInt8.ofNat x + 4) &&& ~~~3 = UInt8.ofNat ((x + 4) / 4 * 4) := by
    decide +kernel
  have hmod : UInt8.ofNat n = UInt8.ofNat (n % 256) := by
    rw [← UInt8.toNat_inj, UInt8.toNat_ofNat', UInt8.toNat_ofNat', Nat.mod_mod]
  have hstop : UInt8.ofNat ((n + 4) / 4 * 4) = UInt8.ofNat ((n % 256 + 4) / 4 * 4) := by
    rw [← UInt8.toNat_inj, UInt8.toNat_ofNat', UInt8.toNat_ofNat']
    omega
  rw [hmod, hstop]
  exact hbyte ⟨n % 256, Nat.mod_lt _ (by decide)⟩

lemma commandIndent_leading (leading : List UInt8) (g : GCodeBuffer)
    (h : ∀ c ∈ leading, c = char ' ' ∨ c = char '\t') (hg : g.commandIndent = 0) :
    (leading.foldl parseNotStarted g).commandIndent = UInt8.ofNat (column leading) := by
  have hgen : ∀ (leading : List UInt8) (g : GCodeBuffer) (n : ℕ),
      (∀ c ∈ leading, c = char ' ' ∨ c = char '\t') → g.commandIndent = UInt8.ofNat n →
      (leading.foldl parseNotStarted g).commandIndent = UInt8.ofNat
        (leading.foldl (fun n c => if c = char ' ' then n + 1 else (n + 4) / 4 * 4) n) := by
    intro leading
    induction leading with
    | nil => exact fun g n _ hg => hg
    | cons c leading ih =>
      intro g n h hg
      rw [List.foldl_cons, List.foldl_cons]
      apply ih _ _ fun d hd => h d (List.mem_cons_of_mem c hd)
      rcases h c List.mem_cons_self with rfl | rfl
      · have hspace : parseNotStarted g (char ' ') =
            { addToChecksum { g with braceCount := 0 } (char ' ') with
              commandIndent := g.commandIndent + 1, seenLeadingSpace := true } := by
          unfold parseNotStarted
          rw [if_neg (by decide), if_pos rfl]
        rw [hspace, if_pos rfl, hg, UInt8.ofNat_add]
        rfl
      · have htab : parseNotStarted g (char '\t') =
            { addToChecksum { g with braceCount := 0 } (char '\t') with
              commandIndent := (g.commandIndent + 4) &&& ~~~3, seenLeadingTab := true } := by
          unfold parseNotStarted
          rw [if_neg (by decide), if_neg (by decide), if_pos rfl]
        rw [htab, if_neg (by decide), hg]
        exact next_tab_stop n
  exact hgen leading g 0 h hg

structure Line (κ γ : Type*) where
  column : ℕ
  command : Command κ γ
  deriving DecidableEq, Repr

/-- The parser counts with 8 bits. -/
def Line.commandIndent {κ γ : Type*} (l : Line κ γ) : ℕ := l.column % 256

inductive Status
  | running | finished | aborted
  deriving DecidableEq, Repr

/-- A command that was processed: the line, what the condition was found to be if there was one to
evaluate, and whether there was an error. -/
structure Entry (κ γ : Type*) where
  line : ℕ
  commandIndent : ℕ
  command : Command κ γ
  value : Bool
  rejected : Bool
  deriving DecidableEq, Repr

/-- `block` is the current block state, `outer` are the previous ones, and `indentToSkipTo` is
`none` for `NoIndentSkip`, which is greater than any indentation. The rest is history: the plain
commands that were executed, the number of conditions that were evaluated, and what was processed,
the last first. -/
structure State (κ γ : Type*) where
  position : ℕ
  indentToSkipTo : Option ℕ
  block : BlockState
  outer : List BlockState
  status : Status
  executed : List γ
  evaluations : ℕ
  log : List (Entry κ γ)

section
variable {κ γ : Type*} (oracle : ℕ → κ → Bool)

/-- `EndBlock` for each block that the indentation has left, up to a loop. The result says whether
there was one. -/
def endBlocks (commandIndent : ℕ) : BlockState → List BlockState →
    (BlockState × List BlockState) × Bool
  | b, [] => ((b, []), false)
  | b, b' :: outer =>
    if commandIndent < b.indentLevel then
      if b'.blockType = .loop then ((b', outer), true) else endBlocks commandIndent b' outer
    else ((b, b' :: outer), false)

/-- `EndBlock` up to the loop that a `break` or `continue` is in. The outermost block has no
indentation. -/
def endToLoop : BlockState → List BlockState → Option (BlockState × List BlockState)
  | _, [] => none
  | b, b' :: outer =>
    if b.indentLevel = 0 then none
    else if b'.blockType = .loop then some (b', outer) else endToLoop b' outer

/-- The closest enclosing loop. -/
def closestLoop (s : State κ γ) : Option BlockState :=
  (s.block :: s.outer).find? (·.blockType = .loop)

def getIterations (s : State κ γ) : Int32 :=
  (closestLoop s).elim (-1) (·.iterationsDone.toInt32)

def evaluateCondition (s : State κ γ) (condition : κ) : Bool × State κ γ :=
  (oracle s.evaluations condition, { s with evaluations := s.evaluations + 1 })

def setBlock (s : State κ γ) (type : BlockType) : State κ γ :=
  { s with block := s.block.setType type }

def skipBlock (s : State κ γ) : State κ γ := { s with indentToSkipTo := some s.block.indentLevel }

/-- What a command leaves, with what its condition was found to be and whether it was an error. -/
structure Processed (κ γ : Type*) where
  state : State κ γ
  value : Bool
  rejected : Bool

def done (s : State κ γ) (value : Bool) : Processed κ γ := ⟨s, value, false⟩

/-- An exception ends the file: `AbortPrint`. -/
def raise (s : State κ γ) : Processed κ γ := ⟨{ s with status := .aborted }, false, true⟩

def processIfCommand (s : State κ γ) (condition : κ) : Processed κ γ :=
  let (value, s) := evaluateCondition oracle s condition
  done (if value then setBlock s .ifTrue else skipBlock (setBlock s .ifFalseNoneTrue)) value

def processElseCommand (s : State κ γ) (skippedBlockType : BlockType) : Processed κ γ :=
  if skippedBlockType = .ifFalseNoneTrue then done (setBlock s .plain) false
  else if skippedBlockType = .ifFalseHadTrue ∨ s.block.blockType = .ifTrue then
    -- plain, so that there is an error if there is another 'else' part
    done (setBlock (skipBlock s) .plain) false
  else raise s

def processElifCommand (s : State κ γ) (skippedBlockType : BlockType) (condition : κ) :
    Processed κ γ :=
  if skippedBlockType = .ifFalseNoneTrue then
    let (value, s) := evaluateCondition oracle s condition
    done (if value then setBlock s .ifTrue else setBlock (skipBlock s) .ifFalseNoneTrue) value
  else if skippedBlockType = .ifFalseHadTrue ∨ s.block.blockType = .ifTrue then
    done (setBlock (skipBlock s) .ifFalseHadTrue) false
  else raise s

def processWhileCommand (s : State κ γ) (fpos : ℕ) (condition : κ) : Processed κ γ :=
  -- The current block is a loop block first, so that the condition may use 'iterations'.
  let s := { s with block :=
    if s.block.blockType = .loop then s.block.incrementIterations else s.block.setLoopBlock fpos }
  let (value, s) := evaluateCondition oracle s condition
  done (if value then s else skipBlock (setBlock s .plain)) value

def processBreakCommand (s : State κ γ) : Processed κ γ :=
  match endToLoop s.block s.outer with
  | none => raise s
  | some (b, outer) => done (skipBlock (setBlock { s with block := b, outer :=
      outer } .plain)) false

def processContinueCommand (s : State κ γ) : Processed κ γ :=
  match endToLoop s.block s.outer with
  | none => raise s
  | some (b, outer) => done { s with block := b, outer := outer, position := b.fpos } false

def processConditionalGCode (s : State κ γ) (fpos : ℕ) (skippedBlockType : BlockType) :
    Command κ γ → Processed κ γ
  | .plain c => done { s with executed := s.executed ++ [c] } false
  | .ifCommand condition => processIfCommand oracle s condition
  | .elseCommand => processElseCommand s skippedBlockType
  | .elifCommand condition => processElifCommand oracle s skippedBlockType condition
  | .whileCommand condition => processWhileCommand oracle s fpos condition
  | .breakCommand => processBreakCommand s
  | .continueCommand => processContinueCommand s
  | .abortCommand => done { s with status := .aborted } false
  | .skipCommand | .comment => done s false

/-- The rest of `CheckMetaCommand`, once the nested block that is skipped has been dealt with. -/
def leaveBlocks (s : State κ γ) (line commandIndent : ℕ) (skippedBlockType : BlockType)
    (command : Command κ γ) : State κ γ :=
  let ((b, outer), loop) := endBlocks commandIndent s.block s.outer
  if loop then
    -- Go back to the start of the loop and re-evaluate the while-part.
    { s with block := b, outer := outer, position := b.fpos }
  else
    let s := if b.indentLevel < commandIndent then
        { s with block := ⟨0, 0, commandIndent, .plain⟩, outer := b :: outer }
      else { s with block := b, outer := outer }
    let p := processConditionalGCode oracle s line skippedBlockType command
    { p.state with log := ⟨line, commandIndent, command, p.value, p.rejected⟩ :: p.state.log }

def checkMetaCommand (s : State κ γ) (line commandIndent : ℕ) (command : Command κ γ) :
    State κ γ :=
  if command.isComment then s
  else match s.indentToSkipTo with
  | none => leaveBlocks oracle s line commandIndent .plain command
  | some i =>
    if i < commandIndent then s
    else if i = commandIndent then
      leaveBlocks oracle { setBlock s .plain with indentToSkipTo := none } line commandIndent
        s.block.blockType command
    else leaveBlocks oracle { s with indentToSkipTo := none } line commandIndent .plain command

/-- The next line is read and processed, or the end of the file. -/
def step (lines : List (Line κ γ)) (s : State κ γ) : State κ γ :=
  if s.status = .running then
    match lines[s.position]? with
    | some l =>
      checkMetaCommand oracle { s with position := s.position + 1 } s.position l.commandIndent
        l.command
    | none =>
      -- `FileEnded` inserts a dummy 'skip' command to allow the loop processing to complete.
      if 0 ≤ getIterations s then checkMetaCommand oracle s s.position 0 .skipCommand
      else { s with status := .finished }
  else s

end

def start (κ γ : Type*) : State κ γ where
  position := 0
  indentToSkipTo := none
  block := ⟨0, 0, 0, .plain⟩
  outer := []
  status := .running
  executed := []
  evaluations := 0
  log := []

end RepRapFirmware.GCodes.MetaCommands
