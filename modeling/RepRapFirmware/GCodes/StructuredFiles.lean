import RepRapFirmware.GCodes.BlockScopes

/-! What single lines of a well-indented file do. The blocks that a line has left are ended when the
next line comes, and the state between two lines says what that will come to. -/

namespace RepRapFirmware.GCodes.MetaCommands

open Library.StructuredPrograms

section
variable {κ γ δ β : Type*} (S : Scoping κ γ δ) (lines : List (Line κ γ))

/-- After some number of steps, at least `least`, the file is in such a state. -/
def Within (least : ℕ) (s : FileState κ γ δ) (P : FileState κ γ δ → Prop) : Prop :=
  ∃ k, least ≤ k ∧ P ((fileStep S lines)^[k] s)

variable {S lines} {P Q : FileState κ γ δ → Prop} {s s' : FileState κ γ δ} {i j : ℕ}

lemma Within.now (h : P s) : Within S lines 0 s P := ⟨0, le_rfl, h⟩

lemma Within.step (h : Within S lines i (fileStep S lines s) P) :
    Within S lines (i + 1) s P := by
  obtain ⟨k, hk, h⟩ := h
  exact ⟨k + 1, by omega, h⟩

lemma Within.trans (h : Within S lines i s P) (hnext : ∀ s', P s' → Within S lines j s' Q) :
    Within S lines (i + j) s Q := by
  obtain ⟨k, hk, h⟩ := h
  obtain ⟨k', hk', h'⟩ := hnext _ h
  refine ⟨k' + k, by omega, ?_⟩
  rwa [Function.iterate_add_apply]

lemma Within.mono (h : Within S lines i s P) (hji : j ≤ i) (hPQ : ∀ s, P s → Q s) :
    Within S lines j s Q := by
  obtain ⟨k, hk, h⟩ := h
  exact ⟨k, hji.trans hk, hPQ _ h⟩

end

section
variable {κ γ δ : Type*} {S : Scoping κ γ δ} {lines : List (Line κ γ)}
  {s s' : FileState κ γ δ} {t : Trace γ δ} {n m : ℕ} {b b' : BlockState}
  {outer outer' : List BlockState} {l : Line κ γ} {xs : List (Line κ γ)}

lemma fileStep_line {x : δ} (hrun : s.control.status = .running)
    (hl : lines[s.control.position]? = some l)
    (hdata : checkData S s.control l.commandIndent l.command s.data = some x) :
    fileStep S lines s =
      ⟨checkMetaCommand (S.oracle x) { s.control with position := s.control.position + 1 }
        s.control.position l.commandIndent l.command, x⟩ := by
  rw [fileStep, if_pos hrun]
  simp only [nextCommand, hl, hdata, step]
  rw [if_pos hrun]

/-- A line that is a comment, or in a block that is being skipped, changes nothing. -/
lemma fileStep_passes (hrun : s.control.status = .running)
    (hl : lines[s.control.position]? = some l)
    (hpass : l.command.isComment = true ∨ s.control.indentToSkipTo.any (· < l.commandIndent)) :
    fileStep S lines s =
      { s with control := { s.control with position := s.control.position + 1 } } := by
  have hdata : checkData S s.control l.commandIndent l.command s.data = some s.data := by
    rw [checkData, if_pos (by simpa using hpass)]
  rw [fileStep_line hrun hl hdata, checkMetaCommand]
  congr 1
  rcases hpass with hc | hskip
  · rw [if_pos hc]
  · cases hi : s.control.indentToSkipTo with
    | none => simp [hi] at hskip
    | some i =>
      have hlt : i < l.commandIndent := by simpa [hi] using hskip
      simp [hlt]

lemma iterate_passes (hrun : s.control.status = .running) {after : List (Line κ γ)}
    (hplace : Place lines s.control.position (xs ++ after))
    (hpass : ∀ l ∈ xs, l.command.isComment = true ∨
      s.control.indentToSkipTo.any (· < l.commandIndent)) :
    (fileStep S lines)^[xs.length] s =
      { s with control := { s.control with position := s.control.position + xs.length } } := by
  induction xs generalizing s with
  | nil => rfl
  | cons l xs ih =>
    have hstep := fileStep_passes (S := S) hrun hplace.head
      (hpass l List.mem_cons_self)
    have hrest := ih (s := { s with control :=
      { s.control with position := s.control.position + 1 } }) hrun hplace.next
      fun l hl => hpass l (List.mem_cons_of_mem _ hl)
    rw [List.length_cons, Function.iterate_succ_apply, hstep, hrest]
    simp only [add_assoc, add_comm]

/-- The blocks from the current one up to `b` end where a line at column `n` comes. -/
inductive Pops (n : ℕ) (b : BlockState) (outer : List BlockState) :
    BlockState → List BlockState → Prop
  | here : Pops n b outer b outer
  | pop {b₀ b₁ outer₁} : n < b₀.indentLevel → b₀.blockType ≠ .loop → b₁.blockType ≠ .loop →
      Pops n b outer b₁ outer₁ → Pops n b outer b₀ (b₁ :: outer₁)

lemma Pops.endBlocks (h : Pops n b outer b' outer') (hb : b.indentLevel = n) {k : ℕ} (hk : k ≤ n)
    (x : δ) :
    endBlocks k b' outer' = endBlocks k b outer ∧
      endBlocksData S k b' outer' x =
        endBlocksData S k b outer (endBlocksData S n b' outer' x) := by
  induction h generalizing x with
  | here =>
    refine ⟨rfl, ?_⟩
    cases outer with
    | nil => rfl
    | cons b₁ outer₁ => simp [endBlocksData, hb]
  | @pop b₀ b₁ outer₁ hlt _ hloop _ ih =>
    obtain ⟨hends, hdata⟩ := ih (S.endScope outer₁.length x)
    simp [MetaCommands.endBlocks, endBlocksData, hlt, hk.trans_lt hlt, hloop, hends, hdata]

/-- What happened up to now is what the structured program did. -/
structure Agrees (s : FileState κ γ δ) (t : Trace γ δ) : Prop where
  running : s.control.status = .running
  evaluations : s.control.evaluations = t.evaluations
  executed : s.control.executed = t.executed

/-- A line at column `n` will find the block `b`, perhaps once other blocks have ended. -/
structure Settled (S : Scoping κ γ δ) (n : ℕ) (b : BlockState) (outer : List BlockState)
    (s : FileState κ γ δ) (t : Trace γ δ) : Prop where
  agrees : Agrees s t
  indent : b.indentLevel = n
  pops : Pops n b outer s.control.block s.control.outer
  skip : ∀ i ∈ s.control.indentToSkipTo,
    n < i ∨ i = n ∧ s.control.block = b ∧ s.control.outer = outer
  data : endBlocksData S n s.control.block s.control.outer s.data = t.data

/-- The next line is the first of a block at column `n`. -/
structure Entering (n : ℕ) (outer : List BlockState) (s : FileState κ γ δ) (t : Trace γ δ) :
    Prop where
  agrees : Agrees s t
  blocks : s.control.block :: s.control.outer = outer
  deeper : s.control.block.indentLevel < n
  skip : s.control.indentToSkipTo = none
  data : s.data = t.data

lemma endBlocksData_same (hb : b.indentLevel = n) (x : δ) : endBlocksData S n b outer x = x := by
  cases outer with
  | nil => rfl
  | cons b' outer => simp [endBlocksData, hb]

lemma endBlocks_same (h : b.indentLevel ≤ n) : endBlocks n b outer = ((b, outer), false) := by
  cases outer with
  | nil => rfl
  | cons b' outer => rw [endBlocks, if_neg (by omega)]

lemma Settled.clean (hagrees : Agrees s t) (hb : s.control.block.indentLevel = n)
    (hskip : ∀ i ∈ s.control.indentToSkipTo, i = n) (hdata : s.data = t.data) :
    Settled S n s.control.block s.control.outer s t where
  agrees := hagrees
  indent := hb
  pops := .here
  skip i hi := .inr ⟨hskip i hi, rfl, rfl⟩
  data := by rw [endBlocksData_same hb, hdata]

def logged (p : Processed κ γ) (line commandIndent : ℕ) (command : Command κ γ) : State κ γ :=
  { p.state with log := ⟨line, commandIndent, command, p.value, p.rejected⟩ :: p.state.log }

/-- The next command at column `n` will be processed in the block `b`, as one behind a skipped block
of the type `skipped`. -/
structure Arrives (S : Scoping κ γ δ) (n : ℕ) (b : BlockState)
    (outer : List BlockState) (skipped : BlockType) (s : FileState κ γ δ) (t : Trace γ δ) :
    Prop where
  agrees : Agrees s t
  indent : b.indentLevel = n
  control : ∀ oracle position line (command : Command κ γ), command.isComment = false →
    checkMetaCommand oracle { s.control with position := position } line n command =
      logged (processConditionalGCode oracle
        { s.control with
          position := position, indentToSkipTo := none, block := b, outer := outer }
        line skipped command) line n command
  data : ∀ command : Command κ γ, command.isComment = false →
    checkData S s.control n command s.data = commandData S b outer command t.data

lemma Settled.arrives (h : Settled S n b outer s t)
    (hskip : s.control.indentToSkipTo ≠ some n) : Arrives S n b outer .plain s t where
  agrees := h.agrees
  indent := h.indent
  control oracle position line command hc := by
    have hends := (h.pops.endBlocks (S := S) h.indent le_rfl s.data).1
    rw [endBlocks_same h.indent.le] at hends
    rw [checkMetaCommand, hc, if_neg Bool.false_ne_true]
    cases hs : s.control.indentToSkipTo with
    | none => simp [leaveBlocks, hends, h.indent, logged, hs]
    | some i =>
      have hi : n < i := (h.skip i hs).resolve_right fun hi => hskip (hi.1 ▸ hs)
      simp [leaveBlocks, hends, h.indent, logged, hi.not_gt, hi.ne']
  data command hc := by
    have hends := (h.pops.endBlocks (S := S) h.indent le_rfl s.data).1
    rw [endBlocks_same h.indent.le] at hends
    have hany : s.control.indentToSkipTo.any (· < n) = false := by
      rw [Option.any_eq_false]
      intro i hi
      rcases h.skip i hi with h | ⟨h, -⟩ <;> simp <;> omega
    simp [checkData, hc, hany, hends, h.indent, h.data]

lemma Settled.arrives_skipped (h : Settled S n b outer s t)
    (hskip : s.control.indentToSkipTo = some n) :
    Arrives S n (b.setType .plain) outer b.blockType s t where
  agrees := h.agrees
  indent := h.indent
  control oracle position line command hc := by
    obtain ⟨-, rfl, rfl⟩ := (h.skip n hskip).resolve_left (lt_irrefl n)
    have hends : endBlocks n (s.control.block.setType .plain) s.control.outer =
        ((s.control.block.setType .plain, s.control.outer), false) := endBlocks_same h.indent.le
    have hindent : (s.control.block.setType .plain).indentLevel = n := h.indent
    rw [checkMetaCommand, hc, if_neg Bool.false_ne_true]
    simp [leaveBlocks, setBlock, hskip, hends, hindent, logged]
  data command hc := by
    obtain ⟨-, rfl, rfl⟩ := (h.skip n hskip).resolve_left (lt_irrefl n)
    have hdata := h.data
    rw [endBlocksData_same h.indent] at hdata
    have hto : ∀ outer x, endToLoopData S (s.control.block.setType .plain) outer x =
        endToLoopData S s.control.block outer x := by
      intro outer x
      cases outer <;> rfl
    simp only [checkData, hc, hskip, Option.any_some, lt_self_iff_false, decide_false,
      Bool.or_false, Bool.false_eq_true, if_false, endBlocks_same h.indent.le, h.indent,
      endBlocksData_same h.indent, hdata]
    cases command <;> simp [commandData, hto]

lemma Entering.arrives (h : Entering n outer s t) :
    Arrives S n ⟨0, 0, n, .plain⟩ outer .plain s t where
  agrees := h.agrees
  indent := rfl
  control oracle position line command hc := by
    rw [checkMetaCommand, hc, if_neg Bool.false_ne_true]
    simp [h.skip, leaveBlocks, endBlocks_same h.deeper.le, h.deeper, logged, h.blocks]
  data command hc := by
    have hdata : ∀ (b : BlockState) outer, b.indentLevel < n → ∀ x,
        endBlocksData S n b outer x = x := by
      intro b outer hb x
      cases outer with
      | nil => rfl
      | cons b' outer => rw [endBlocksData, if_neg (by omega)]
    simp [checkData, hc, h.skip, endBlocks_same h.deeper.le, h.deeper, h.blocks, h.data,
      hdata _ _ h.deeper]

/-- Commands of a block at column `n` have been processed. -/
def Inside (S : Scoping κ γ δ) (n : ℕ) (outer : List BlockState) (s : FileState κ γ δ)
    (t : Trace γ δ) : Prop :=
  ∃ b, b.blockType ≠ .loop ∧ Settled S n b outer s t

lemma ready_arrives (h : Inside S n outer s t ∨ Entering n outer s t) :
    ∃ b skipped, b.blockType ≠ .loop ∧ Arrives S n b outer skipped s t := by
  rcases h with ⟨b, hb, h⟩ | h
  · by_cases hskip : s.control.indentToSkipTo = some n
    · exact ⟨_, _, by simp [BlockState.setType], h.arrives_skipped hskip⟩
    · exact ⟨_, _, hb, h.arrives hskip⟩
  · exact ⟨_, _, by simp, h.arrives⟩

/-- The file once the command of a line has been processed. -/
lemma Arrives.processed {skipped : BlockType} (h : Arrives S n b outer skipped s t)
    {command : Command κ γ} (hc : command.isComment = false) (hn : n < 256)
    (hl : lines[s.control.position]? = some ⟨n, command⟩) {x : δ}
    (hdata : commandData S b outer command t.data = some x) :
    fileStep S lines s = ⟨logged (processConditionalGCode (S.oracle x)
        { s.control with
          position := s.control.position + 1, indentToSkipTo := none, block := b, outer := outer }
        s.control.position skipped command) s.control.position n command, x⟩ := by
  have hindent : (⟨n, command⟩ : Line κ γ).commandIndent = n := Nat.mod_eq_of_lt hn
  have hcheck := h.data command hc
  rw [← hindent, hdata] at hcheck
  rw [fileStep_line h.agrees.running hl hcheck, hindent, h.control _ _ _ command hc]

/-- The indentations decrease from `n` outwards. -/
def Stacked : ℕ → List BlockState → Prop
  | _, [] => True
  | n, b :: outer => b.indentLevel < n ∧ Stacked b.indentLevel outer

def findLoop : List BlockState → Option (BlockState × List BlockState)
  | [] => none
  | b :: outer => if b.blockType = .loop then some (b, outer) else findLoop outer

def toLoopData (S : Scoping κ γ δ) : List BlockState → δ → δ
  | [], x => x
  | b :: outer, x =>
    if b.blockType = .loop then S.endScope outer.length x
    else toLoopData S outer (S.endScope outer.length x)

lemma Stacked.endToLoop (h : Stacked b.indentLevel outer) (x : δ) :
    endToLoop b outer = findLoop outer ∧ endToLoopData S b outer x = toLoopData S outer x := by
  induction outer generalizing b x with
  | nil => exact ⟨rfl, rfl⟩
  | cons b' outer ih =>
    obtain ⟨hlt, hstacked⟩ := h
    obtain ⟨hloop, hdata⟩ := ih hstacked (S.endScope outer.length x)
    simp [MetaCommands.endToLoop, endToLoopData, findLoop, toLoopData, Nat.ne_zero_of_lt hlt, hloop,
      hdata]

lemma Stacked.findLoop_lt (h : Stacked n outer) (hloop : findLoop outer = some (b, outer')) :
    b.indentLevel < n := by
  induction outer generalizing n with
  | nil => simp [findLoop] at hloop
  | cons b' outer ih =>
    rw [findLoop] at hloop
    split at hloop
    · cases hloop
      exact h.1
    · exact (ih h.2 hloop).trans h.1

/-- The state between two lines, with every block that was left ended. -/
structure Stands (b : BlockState) (outer : List BlockState) (skip : Option ℕ) (p : ℕ)
    (s : FileState κ γ δ) (t : Trace γ δ) : Prop where
  agrees : Agrees s t
  block : s.control.block = b
  outer : s.control.outer = outer
  skip : s.control.indentToSkipTo = skip
  position : s.control.position = p
  data : s.data = t.data

section Commands
variable {skipped : BlockType} {skip : Option ℕ} {p : ℕ}

lemma Stands.settled (h : Stands b outer skip p s t) (hb : b.indentLevel = n)
    (hskip : ∀ i ∈ skip, i = n) : Settled S n b outer s t := by
  obtain ⟨hagrees, rfl, rfl, rfl, -, hdata⟩ := h
  exact Settled.clean hagrees hb hskip hdata

lemma Stands.arrives (h : Stands b outer none p s t) (hb : b.indentLevel = n) :
    Arrives S n b outer .plain s t :=
  (h.settled hb (by simp)).arrives (by simp [h.skip])

lemma Stands.entering (h : Stands b outer none p s t) (hb : b.indentLevel < m) :
    Entering m (b :: outer) s t := by
  obtain ⟨hagrees, rfl, rfl, hskip, -, hdata⟩ := h
  exact ⟨hagrees, rfl, hb, hskip, hdata⟩

lemma Arrives.plain (h : Arrives S n b outer skipped s t) {c : γ} (hn : n < 256)
    (hl : lines[s.control.position]? = some ⟨n, .plain c⟩) {x : δ}
    (hexec : S.exec c outer.length t.data = some x) :
    Stands b outer none (s.control.position + 1) (fileStep S lines s)
      ⟨t.evaluations, t.executed ++ [c], x⟩ := by
  rw [h.processed rfl hn hl hexec]
  exact ⟨⟨h.agrees.running, h.agrees.evaluations, by
    simp [logged, processConditionalGCode, done, h.agrees.executed]⟩, rfl, rfl, rfl, rfl, rfl⟩

lemma Arrives.failed (h : Arrives S n b outer skipped s t) {c : γ} (hn : n < 256)
    (hl : lines[s.control.position]? = some ⟨n, .plain c⟩)
    (hexec : S.exec c outer.length t.data = none) :
    fileStep S lines s =
      { s with control := { s.control with status := .aborted } } := by
  have hindent : (⟨n, .plain c⟩ : Line κ γ).commandIndent = n := Nat.mod_eq_of_lt hn
  have hdata : checkData S s.control n (.plain c) s.data = none := (h.data _ rfl).trans hexec
  rw [fileStep, if_pos h.agrees.running]
  simp only [nextCommand, hl, hindent, hdata]

/-- What an `if` or an `elif` that is reached leaves. -/
lemma Arrives.condition (h : Arrives S n b outer skipped s t) {condition : κ} (hn : n < 256)
    {command : Command κ γ} (hl : lines[s.control.position]? = some ⟨n, command⟩)
    (hcommand : command = .ifCommand condition ∨
      command = .elifCommand condition ∧ skipped = .ifFalseNoneTrue) :
    Stands (b.setType (if S.eval t.evaluations condition t.data then .ifTrue else .ifFalseNoneTrue))
      outer
      (if S.eval t.evaluations condition t.data then none else some n) (s.control.position + 1)
      (fileStep S lines s) { t with evaluations := t.evaluations + 1 } := by
  obtain ⟨hrun, heval, hexec⟩ := h.agrees
  rcases hcommand with rfl | ⟨rfl, rfl⟩ <;> rw [h.processed rfl hn hl rfl] <;>
    cases hvalue : S.eval t.evaluations condition t.data <;>
    constructor <;> try constructor
  all_goals simp [logged, processConditionalGCode, processIfCommand, processElifCommand,
    evaluateCondition, Scoping.oracle, done, setBlock, skipBlock, BlockState.setType, hvalue, hrun,
    heval, hexec, h.indent]

/-- What an `else` or `elif` behind a branch that was taken leaves. -/
lemma Arrives.alternative (h : Arrives S n b outer skipped s t) (hn : n < 256)
    {command : Command κ γ} (hl : lines[s.control.position]? = some ⟨n, command⟩) {type : BlockType}
    (hcommand : command = .elseCommand ∧ type = .plain ∨
      ∃ k, command = .elifCommand k ∧ type = .ifFalseHadTrue)
    (htaken : skipped = .ifFalseHadTrue ∨ skipped = .plain ∧ b.blockType = .ifTrue) :
    Stands (b.setType type) outer (some n) (s.control.position + 1) (fileStep S lines s) t := by
  obtain ⟨hrun, heval, hexec⟩ := h.agrees
  rcases hcommand with ⟨rfl, rfl⟩ | ⟨k, rfl, rfl⟩ <;> rw [h.processed rfl hn hl rfl] <;>
    rcases htaken with rfl | ⟨rfl, htype⟩ <;> constructor <;> try constructor
  all_goals simp [logged, processConditionalGCode, processElseCommand, processElifCommand, done,
    setBlock, skipBlock, BlockState.setType, h.indent, *]

/-- What an `else` behind branches that were not taken leaves. -/
lemma Arrives.otherwise (h : Arrives S n b outer .ifFalseNoneTrue s t) (hn : n < 256)
    (hl : lines[s.control.position]? = some ⟨n, .elseCommand⟩) :
    Stands (b.setType .plain) outer none (s.control.position + 1) (fileStep S lines s) t := by
  obtain ⟨hrun, heval, hexec⟩ := h.agrees
  rw [h.processed rfl hn hl rfl]
  constructor <;> try constructor
  all_goals simp [logged, processConditionalGCode, processElseCommand, done, setBlock,
    BlockState.setType, hrun, heval, hexec]

/-- The block of a loop when its condition is evaluated. -/
def loopBlock (b : BlockState) (position : ℕ) : BlockState :=
  if b.blockType = .loop then b.incrementIterations else b.setLoopBlock position

lemma loopBlock_indent (position : ℕ) : (loopBlock b position).indentLevel = b.indentLevel := by
  rw [loopBlock]
  split <;> rfl

lemma loopBlock_type (position : ℕ) : (loopBlock b position).blockType = .loop := by
  rw [loopBlock]
  split
  · assumption
  · rfl

lemma Arrives.whileCommand (h : Arrives S n b outer skipped s t) {condition : κ}
    (hn : n < 256) (hl : lines[s.control.position]? = some ⟨n, .whileCommand condition⟩) :
    Stands (if S.eval t.evaluations condition t.data then loopBlock b s.control.position
      else (loopBlock b s.control.position).setType .plain) outer
      (if S.eval t.evaluations condition t.data then none else some n) (s.control.position + 1)
      (fileStep S lines s) { t with evaluations := t.evaluations + 1 } := by
  obtain ⟨hrun, heval, hexec⟩ := h.agrees
  have hindent := (loopBlock_indent (b := b) s.control.position).trans h.indent
  rw [loopBlock] at hindent
  rw [h.processed rfl hn hl rfl]
  cases hvalue : S.eval t.evaluations condition t.data <;> constructor <;> try constructor
  all_goals simp [logged, processConditionalGCode, processWhileCommand, evaluateCondition,
    Scoping.oracle, done,
    setBlock, skipBlock, BlockState.setType, hvalue, hrun, heval, hexec, loopBlock, hindent]

end Commands

end

end RepRapFirmware.GCodes.MetaCommands
