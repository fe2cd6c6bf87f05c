import RepRapFirmware.GCodes.MetaCommands

/-! When an `else` or `elif` is an error: what the block states tell,
  and what the commands that were
processed tell. -/

namespace RepRapFirmware.GCodes.MetaCommands

open Library.Runs

variable {κ γ : Type*}

/-- Of the commands at indentation `n` in its block, the last that is not a plain one was an `if` or
`elif` whose condition was found to be true. -/
def afterTrue (n : ℕ) : List (Entry κ γ) → Bool
  | [] => false
  | e :: log =>
    if e.commandIndent < n then false
    else if n < e.commandIndent then afterTrue n log
    else match e.command with
      | .plain _ | .skipCommand => afterTrue n log
      | .ifCommand _ | .elifCommand _ => e.value
      | _ => false

/-- The last command at indentation `n` in its block was an `if` or `elif`, or a plain one after an
`if` or `elif` whose condition was found to be true. -/
def branchOpen (n : ℕ) : List (Entry κ γ) → Bool
  | [] => false
  | e :: log =>
    if e.commandIndent < n then false
    else if n < e.commandIndent then branchOpen n log
    else match e.command with
      | .plain _ | .skipCommand => afterTrue n log
      | .ifCommand _ | .elifCommand _ => true
      | _ => false

section
variable {n : ℕ} {e : Entry κ γ} {log : List (Entry κ γ)}

lemma afterTrue_of_lt (h : e.commandIndent < n) : afterTrue n (e :: log) = false := by
  rw [afterTrue, if_pos h]

lemma branchOpen_of_lt (h : e.commandIndent < n) : branchOpen n (e :: log) = false := by
  rw [branchOpen, if_pos h]

lemma afterTrue_of_gt (h : n < e.commandIndent) : afterTrue n (e :: log) = afterTrue n log := by
  rw [afterTrue, if_neg (by omega), if_pos h]

lemma branchOpen_of_gt (h : n < e.commandIndent) : branchOpen n (e :: log) = branchOpen n log := by
  rw [branchOpen, if_neg (by omega), if_pos h]

end

/-- `else` and `elif`. -/
def Command.isAlternative : Command κ γ → Bool
  | .elseCommand | .elifCommand _ => true
  | _ => false

/-- The log tells which alternatives were errors, and its commands are those of the lines. -/
def Consistent (lines : List (Line κ γ)) : List (Entry κ γ) → Prop
  | [] => True
  | e :: log =>
    (∀ l, lines[e.line]? = some l → l.command = e.command) ∧
      (e.command.isAlternative → e.rejected = !branchOpen e.commandIndent log) ∧
      Consistent lines log

/-- The type of a block that is not being skipped. -/
structure Steady (b : BlockState) (log : List (Entry κ γ)) : Prop where
  ifTrue : b.blockType = .ifTrue ↔ afterTrue b.indentLevel log = true
  same : branchOpen b.indentLevel log = afterTrue b.indentLevel log
  noneTrue : b.blockType ≠ .ifFalseNoneTrue
  hadTrue : b.blockType ≠ .ifFalseHadTrue

/-- The type of a block that is being skipped. -/
structure Skipped (b : BlockState) (log : List (Entry κ γ)) : Prop where
  isOpen : b.blockType = .ifFalseNoneTrue ∨ b.blockType = .ifFalseHadTrue ↔
    branchOpen b.indentLevel log = true
  closed : afterTrue b.indentLevel log = false
  ifTrue : b.blockType ≠ .ifTrue
  loop : b.blockType ≠ .loop

/-- No block has the indentation `n`. -/
def Quiet (n : ℕ) (log : List (Entry κ γ)) : Prop :=
  afterTrue n log = false ∧ branchOpen n log = false

/-- The blocks from the current one outwards: the indentations decrease down to 0, and the loops
are where they say. -/
structure Nested (lines : List (Line κ γ)) (blocks : List BlockState) : Prop where
  sorted : blocks.Pairwise (fun b b' => b'.indentLevel < b.indentLevel)
  outermost : ∀ b ∈ blocks.getLast?, b.indentLevel = 0
  loops : ∀ b ∈ blocks, b.blockType = .loop → ∃ l condition, lines[b.fpos]? = some l ∧
    l.command = .whileCommand condition ∧ l.commandIndent = b.indentLevel

def Gaps (bound : ℕ) (blocks : List BlockState) (log : List (Entry κ γ)) : Prop :=
  ∀ n < bound, (∀ b ∈ blocks, b.indentLevel ≠ n) → Quiet n log

inductive Phase (s : State κ γ) : Prop
  | normal (skip : s.indentToSkipTo = none) (block : Steady s.block s.log)
      (gaps : ∀ bound, Gaps bound (s.block :: s.outer) s.log)
  | skipping (skip : s.indentToSkipTo = some s.block.indentLevel) (block : Skipped s.block s.log)
      (gaps : Gaps s.block.indentLevel (s.block :: s.outer) s.log)
  /-- The `while` line of a loop comes next. -/
  | restarting (skip : s.indentToSkipTo = none) (block : Steady s.block s.log)
      (loop : s.block.blockType = .loop) (position : s.position = s.block.fpos)
      (gaps : Gaps s.block.indentLevel (s.block :: s.outer) s.log)

structure Inv (lines : List (Line κ γ)) (s : State κ γ) : Prop where
  consistent : Consistent lines s.log
  nested : s.status = .running → Nested lines (s.block :: s.outer)
  outer : s.status = .running → ∀ b ∈ s.outer, Steady b s.log
  phase : s.status = .running → Phase s

/-- The state when a command at the given indentation is about to be processed. -/
structure Ready (lines : List (Line κ γ)) (s : State κ γ) (commandIndent : ℕ)
    (skipped : BlockType) : Prop where
  status : s.status = .running
  skip : s.indentToSkipTo = none
  indent : s.block.indentLevel = commandIndent
  consistent : Consistent lines s.log
  nested : Nested lines (s.block :: s.outer)
  outer : ∀ b ∈ s.outer, Steady b s.log
  isOpen : skipped = .ifFalseNoneTrue ∨ skipped = .ifFalseHadTrue ∨ s.block.blockType = .ifTrue ↔
    branchOpen commandIndent s.log = true
  ifTrue : s.block.blockType = .ifTrue ↔ afterTrue commandIndent s.log = true
  noneTrue : s.block.blockType ≠ .ifFalseNoneTrue
  hadTrue : s.block.blockType ≠ .ifFalseHadTrue
  gaps : Gaps commandIndent s.outer s.log

variable {lines : List (Line κ γ)} {s s' : State κ γ} {ci : ℕ} {skipped : BlockType}
  {e : Entry κ γ} {b b' : BlockState} {outer outer' : List BlockState} {log : List (Entry κ γ)}

lemma Steady.deeper (h : Steady b log) (he : b.indentLevel < e.commandIndent) :
    Steady b (e :: log) := by
  refine ⟨?_, ?_, h.noneTrue, h.hadTrue⟩
  · rw [afterTrue_of_gt he]
    exact h.ifTrue
  · rw [afterTrue_of_gt he, branchOpen_of_gt he]
    exact h.same

lemma Steady.of_loop (h : Steady b log) (hb : b.blockType = .loop) :
    afterTrue b.indentLevel log = false ∧ branchOpen b.indentLevel log = false := by
  have hfalse : afterTrue b.indentLevel log = false := by
    rw [← Bool.not_eq_true, ← h.ifTrue, hb]
    simp
  exact ⟨hfalse, h.same.trans hfalse⟩

lemma Nested.suffix {inner : List BlockState} (h : Nested lines (inner ++ b :: outer)) :
    Nested lines (b :: outer) := by
  refine ⟨(List.pairwise_append.mp h.sorted).2.1, fun b' hb' => h.outermost b' ?_,
    fun b' hb' => h.loops b' (List.mem_append_right _ hb')⟩
  rwa [List.getLast?_append_of_ne_nil _ (List.cons_ne_nil _ _)]

lemma Gaps.suffix {inner : List BlockState} {bound : ℕ}
    (hsorted : (inner ++ b :: outer).Pairwise fun b b' => b'.indentLevel < b.indentLevel)
    (h : Gaps bound (inner ++ b :: outer) log) (hb : b.indentLevel ≤ bound) :
    Gaps b.indentLevel (b :: outer) log := by
  intro n hn hne
  apply h n (Nat.lt_of_lt_of_le hn hb)
  intro a ha
  rcases List.mem_append.mp ha with ha | ha
  · have := (List.pairwise_append.mp hsorted).2.2 a ha b List.mem_cons_self
    omega
  · exact hne a ha

/-- A command at an indentation hides all that is deeper. -/
lemma Gaps.push {bound : ℕ} {blocks : List BlockState} (h : Gaps bound blocks log)
    (hb : bound ≤ e.commandIndent) : Gaps bound blocks (e :: log) := by
  intro n hn hne
  obtain ⟨ht, ho⟩ := h n hn hne
  have hlt := Nat.lt_of_lt_of_le hn hb
  exact ⟨(afterTrue_of_gt hlt).trans ht, (branchOpen_of_gt hlt).trans ho⟩

lemma Gaps.push_all {blocks : List BlockState} (h : Gaps e.commandIndent blocks log)
    (hb : ∃ b ∈ blocks, b.indentLevel = e.commandIndent) (bound : ℕ) :
    Gaps bound blocks (e :: log) := by
  intro n _ hne
  rcases Nat.lt_trichotomy n e.commandIndent with hn | hn | hn
  · exact h.push le_rfl n hn hne
  · obtain ⟨b, hmem, hb⟩ := hb
    exact absurd (hb.trans hn.symm) (hne b hmem)
  · exact ⟨afterTrue_of_lt hn, branchOpen_of_lt hn⟩

lemma Nested.replace (h : Nested lines (b :: outer)) (hi : b'.indentLevel = b.indentLevel)
    (hloop : b'.blockType = .loop → ∃ l condition, lines[b'.fpos]? = some l ∧
      l.command = .whileCommand condition ∧ l.commandIndent = b'.indentLevel) :
    Nested lines (b' :: outer) := by
  refine ⟨?_, ?_, ?_⟩
  · have := List.pairwise_cons.mp h.sorted
    exact List.pairwise_cons.mpr ⟨fun a ha => hi ▸ this.1 a ha, this.2⟩
  · intro a ha
    cases outer with
    | nil =>
      obtain rfl : b' = a := by simpa using ha
      exact hi.trans (h.outermost b (by simp))
    | cons c outer => exact h.outermost a (by simpa using ha)
  · intro a ha hla
    rcases List.mem_cons.mp ha with rfl | ha
    · exact hloop hla
    · exact h.loops a (List.mem_cons_of_mem _ ha) hla

lemma Ready.outer_deeper (h : Ready lines s ci skipped) (he : e.commandIndent = ci) :
    ∀ b ∈ s.outer, Steady b (e :: s.log) := by
  intro b hb
  have := (List.pairwise_cons.mp h.nested.sorted).1 b hb
  exact (h.outer b hb).deeper (by rw [he, ← h.indent]; exact this)

lemma Ready.gaps_here (h : Ready lines s ci skipped) (b : BlockState) :
    Gaps ci (b :: s.outer) s.log := by
  intro n hn hne
  exact h.gaps n hn fun a ha => hne a (List.mem_cons_of_mem _ ha)

/-- The current block stays, or is skipped from here. -/
lemma Ready.finish (h : Ready lines s ci skipped) (hlog : s'.log = e :: s.log)
    (he : e.commandIndent = ci) (houter : s'.outer = s.outer)
    (hblock : s'.block.indentLevel = ci) (hcons : Consistent lines (e :: s.log))
    (hloop : s'.block.blockType = .loop → ∃ l condition, lines[s'.block.fpos]? = some l ∧
      l.command = .whileCommand condition ∧ l.commandIndent = ci)
    (hphase : s'.indentToSkipTo = none ∧ Steady s'.block (e :: s.log) ∨
      s'.indentToSkipTo = some ci ∧ Skipped s'.block (e :: s.log)) : Inv lines s' := by
  have hgaps := h.gaps_here s'.block
  rw [← he] at hgaps
  refine ⟨hlog ▸ hcons, fun _ => ?_, fun _ => ?_, fun _ => ?_⟩
  · rw [houter]
    exact h.nested.replace (hblock.trans h.indent.symm) (hblock ▸ hloop)
  · rw [houter, hlog]
    exact h.outer_deeper he
  · rcases hphase with ⟨hskip, hb⟩ | ⟨hskip, hb⟩
    · refine .normal hskip (hlog ▸ hb) fun bound => ?_
      rw [houter, hlog]
      exact hgaps.push_all ⟨_, List.mem_cons_self, hblock.trans he.symm⟩ bound
    · refine .skipping (hblock ▸ hskip) (hlog ▸ hb) ?_
      rw [houter, hlog, hblock, ← he]
      exact hgaps.push le_rfl

lemma endToLoop_some (h : endToLoop b outer = some (b', outer')) :
    b'.blockType = .loop ∧ ∃ inner, inner ≠ [] ∧ b :: outer = inner ++ b' :: outer' := by
  induction outer generalizing b with
  | nil => simp [endToLoop] at h
  | cons c outer ih =>
    rw [endToLoop] at h
    split_ifs at h with h0 hl
    · obtain ⟨rfl, rfl⟩ : c = b' ∧ outer = outer' := by simpa using h
      exact ⟨hl, [b], by simp, rfl⟩
    · obtain ⟨hloop, inner, -, heq⟩ := ih h
      exact ⟨hloop, b :: inner, by simp, by rw [heq]; rfl⟩

/-- What a `break` or `continue` finds. -/
structure Found (lines : List (Line κ γ)) (b : BlockState) (outer : List BlockState)
    (log : List (Entry κ γ)) : Prop where
  loop : b.blockType = .loop
  nested : Nested lines (b :: outer)
  steady : Steady b log
  steadyOuter : ∀ a ∈ outer, Steady a log
  gaps : Gaps b.indentLevel (b :: outer) log

lemma Ready.found (h : Ready lines s ci skipped) (he : e.commandIndent = ci)
    (hfound : endToLoop s.block s.outer = some (b, outer)) : Found lines b outer (e :: s.log) := by
  obtain ⟨hloop, inner, hne, heq⟩ := endToLoop_some hfound
  obtain ⟨a, inner, rfl⟩ := List.exists_cons_of_ne_nil hne
  obtain ⟨rfl, houter⟩ : s.block = a ∧ s.outer = inner ++ b :: outer := by simpa using heq
  have hnested : Nested lines (s.block :: inner ++ b :: outer) := heq ▸ h.nested
  have hdeeper := h.outer_deeper he
  rw [houter] at hdeeper
  have hlt : b.indentLevel < ci := by
    rw [← h.indent]
    exact (List.pairwise_cons.mp h.nested.sorted).1 b (by simp [houter])
  refine ⟨hloop, hnested.suffix, hdeeper b (by simp), fun c hc => hdeeper c (by simp [hc]), ?_⟩
  have hgaps : Gaps ci (inner ++ b :: outer) s.log := houter ▸ h.gaps
  have hsorted := (List.pairwise_cons.mp hnested.sorted).2
  exact (hgaps.suffix hsorted hlt.le).push (he ▸ hlt.le)

lemma Found.break (h : Found lines b outer log) (hs : s.log = log)
    (hcons : Consistent lines log) (hblock : s.block = b.setType .plain) (houter : s.outer = outer)
    (hskip : s.indentToSkipTo = some b.indentLevel) : Inv lines s := by
  obtain ⟨ht, ho⟩ := h.steady.of_loop h.loop
  refine ⟨hs ▸ hcons, fun _ => ?_, fun _ => ?_, fun _ => ?_⟩
  · rw [hblock, houter]
    exact h.nested.replace rfl (by simp [BlockState.setType])
  · rw [houter, hs]
    exact h.steadyOuter
  · apply Phase.skipping
    · rw [hskip, hblock]
      rfl
    · rw [hblock, hs]
      exact ⟨by simp [BlockState.setType, ho], ht, by simp [BlockState.setType],
        by simp [BlockState.setType]⟩
    · rw [hblock, houter, hs]
      intro n hn hne
      exact h.gaps n hn fun a ha => by
        rcases List.mem_cons.mp ha with rfl | ha
        · exact hne (a.setType .plain) List.mem_cons_self
        · exact hne a (List.mem_cons_of_mem _ ha)

lemma Found.restart (h : Found lines b outer log) (hs : s.log = log)
    (hcons : Consistent lines log) (hblock : s.block = b) (houter : s.outer = outer)
    (hskip : s.indentToSkipTo = none) (hpos : s.position = b.fpos) : Inv lines s := by
  refine ⟨hs ▸ hcons, fun _ => ?_, fun _ => ?_, fun _ => ?_⟩
  · rw [hblock, houter]
    exact h.nested
  · rw [houter, hs]
    exact h.steadyOuter
  · refine .restarting hskip ?_ (hblock ▸ h.loop) (hblock ▸ hpos) ?_
    · rw [hblock, hs]
      exact h.steady
    · rw [hblock, houter, hs]
      exact h.gaps

/-! ### The commands -/

/-- The entry of the log for a command that was processed. -/
def entry (line commandIndent : ℕ) (command : Command κ γ) (p : Processed κ γ) : Entry κ γ :=
  ⟨line, commandIndent, command, p.value, p.rejected⟩

section
variable (e : Entry κ γ) (log : List (Entry κ γ))

lemma afterTrue_here : afterTrue e.commandIndent (e :: log) = match e.command with
    | .plain _ | .skipCommand => afterTrue e.commandIndent log
    | .ifCommand _ | .elifCommand _ => e.value
    | _ => false := by
  rw [afterTrue, if_neg (Nat.lt_irrefl _), if_neg (Nat.lt_irrefl _)]

lemma branchOpen_here : branchOpen e.commandIndent (e :: log) = match e.command with
    | .plain _ | .skipCommand => afterTrue e.commandIndent log
    | .ifCommand _ | .elifCommand _ => true
    | _ => false := by
  rw [branchOpen, if_neg (Nat.lt_irrefl _), if_neg (Nat.lt_irrefl _)]

end

lemma inv_stopped (h : s.status ≠ .running) (hcons : Consistent lines s.log) : Inv lines s :=
  ⟨hcons, fun hs => absurd hs h, fun hs => absurd hs h, fun hs => absurd hs h⟩

/-- The line that a command comes from. At the end of the file there is none. -/
def Comes (lines : List (Line κ γ)) (line ci : ℕ) (command : Command κ γ) : Prop :=
  (∃ l, lines[line]? = some l ∧ l.command = command ∧ l.commandIndent = ci) ∨
    lines[line]? = none ∧ command = .skipCommand

lemma Comes.command {line : ℕ} {command : Command κ γ} (h : Comes lines line ci command) :
    ∀ l, lines[line]? = some l → l.command = command := by
  intro l hl
  rcases h with ⟨l', hl', hc, -⟩ | ⟨hn, -⟩
  · obtain rfl : l' = l := by simpa [hl'] using hl
    exact hc
  · simp [hn] at hl

variable (oracle : ℕ → κ → Bool) {line : ℕ}

lemma Ready.plain {command : Command κ γ} (h : Ready lines s ci skipped)
    (hc : Comes lines line ci command) (hplain : (∃ c, command = .plain c) ∨ command = .skipCommand)
    {executed : List γ} :
    Inv lines { s with executed := executed, log := ⟨line, ci, command, false, false⟩ :: s.log } :=
      by
  have ht : afterTrue ci ((⟨line, ci, command, false, false⟩ : Entry κ γ) :: s.log) =
      afterTrue ci s.log := by
    refine (afterTrue_here _ _).trans ?_
    rcases hplain with ⟨c, rfl⟩ | rfl <;> rfl
  have ho : branchOpen ci ((⟨line, ci, command, false, false⟩ : Entry κ γ) :: s.log) =
      afterTrue ci s.log := by
    refine (branchOpen_here _ _).trans ?_
    rcases hplain with ⟨c, rfl⟩ | rfl <;> rfl
  refine h.finish rfl rfl rfl h.indent ⟨hc.command, ?_, h.consistent⟩ ?_ (Or.inl ⟨h.skip, ?_⟩)
  · rcases hplain with ⟨c, rfl⟩ | rfl <;> simp [Command.isAlternative]
  · intro hl
    obtain ⟨l, condition, hl⟩ := h.nested.loops s.block List.mem_cons_self hl
    exact ⟨l, condition, hl.1, hl.2.1, hl.2.2.trans h.indent⟩
  · refine ⟨?_, ?_, h.noneTrue, h.hadTrue⟩
    · rw [h.indent, ht]
      exact h.ifTrue
    · rw [h.indent, ht, ho]

/-- An `if`, or an `elif` whose condition is evaluated. -/
lemma Ready.condition {command : Command κ γ} {value : Bool}
    (h : Ready lines s ci skipped) (hc : Comes lines line ci command)
    (hbranch : (∃ c, command = .ifCommand c) ∨ ∃ c, command = .elifCommand c)
    (hopen : command.isAlternative → branchOpen ci s.log = true) (hs : s'.outer = s.outer)
    (hlog : s'.log = ⟨line, ci, command, value, false⟩ :: s.log)
    (hp : if value then s'.block = s.block.setType .ifTrue ∧ s'.indentToSkipTo = none
      else s'.block = s.block.setType .ifFalseNoneTrue ∧ s'.indentToSkipTo = some ci) :
    Inv lines s' := by
  have ht : afterTrue ci ((⟨line, ci, command, value, false⟩ : Entry κ γ) :: s.log) = value := by
    refine (afterTrue_here _ _).trans ?_
    rcases hbranch with ⟨c, rfl⟩ | ⟨c, rfl⟩ <;> rfl
  have ho : branchOpen ci ((⟨line, ci, command, value, false⟩ : Entry κ γ) :: s.log) = true := by
    refine (branchOpen_here _ _).trans ?_
    rcases hbranch with ⟨c, rfl⟩ | ⟨c, rfl⟩ <;> rfl
  have hcons : Consistent lines (⟨line, ci, command, value, false⟩ :: s.log) :=
    ⟨hc.command, fun ha => by simp [hopen ha], h.consistent⟩
  split at hp
  case isTrue hv =>
    subst hv
    obtain ⟨hblock, hskip⟩ := hp
    have hindent : s'.block.indentLevel = ci := hblock ▸ h.indent
    refine h.finish hlog rfl hs hindent hcons (by simp [hblock, BlockState.setType])
      (Or.inl ⟨hskip, ?_, ?_, ?_, ?_⟩)
    · rw [hindent, ht, hblock]
      exact iff_of_true rfl rfl
    · rw [hindent, ht, ho]
    · simp [hblock, BlockState.setType]
    · simp [hblock, BlockState.setType]
  case isFalse hv =>
    obtain rfl : value = false := by simpa using hv
    obtain ⟨hblock, hskip⟩ := hp
    have hindent : s'.block.indentLevel = ci := hblock ▸ h.indent
    refine h.finish hlog rfl hs hindent hcons (by simp [hblock, BlockState.setType])
      (Or.inr ⟨hskip, ?_, ?_, ?_, ?_⟩)
    · rw [hindent, ho, hblock]
      exact iff_of_true (Or.inl rfl) rfl
    · rw [hindent, ht]
    · simp [hblock, BlockState.setType]
    · simp [hblock, BlockState.setType]

/-- An `elif` or `else` after a true branch is skipped. -/
lemma Ready.skipAlternative {command : Command κ γ} {type : BlockType}
    (h : Ready lines s ci skipped) (hc : Comes lines line ci command)
    (hcommand : command = .elseCommand ∧ type = .plain ∨
      (∃ c, command = .elifCommand c) ∧ type = .ifFalseHadTrue)
    (hopen : branchOpen ci s.log = true) (hs : s'.outer = s.outer)
    (hlog : s'.log = ⟨line, ci, command, false, false⟩ :: s.log)
    (hblock : s'.block = s.block.setType type)
    (hskip : s'.indentToSkipTo = some ci) : Inv lines s' := by
  have ht : afterTrue ci ((⟨line, ci, command, false, false⟩ : Entry κ γ) :: s.log) = false := by
    refine (afterTrue_here _ _).trans ?_
    rcases hcommand with ⟨rfl, -⟩ | ⟨⟨c, rfl⟩, -⟩ <;> rfl
  have ho : branchOpen ci ((⟨line, ci, command, false, false⟩ : Entry κ γ) :: s.log) = true ↔
      type = .ifFalseHadTrue := by
    rw [(branchOpen_here (⟨line, ci, command, false, false⟩ : Entry κ γ) s.log :)]
    rcases hcommand with ⟨rfl, rfl⟩ | ⟨⟨c, rfl⟩, rfl⟩ <;> simp
  have htype : type = .plain ∨ type = .ifFalseHadTrue := by tauto
  have hindent : s'.block.indentLevel = ci := hblock ▸ h.indent
  refine h.finish hlog rfl hs hindent ⟨hc.command, fun _ => by simp [hopen], h.consistent⟩ ?_
    (Or.inr ⟨hskip, ?_, ?_, ?_, ?_⟩)
  · rcases htype with rfl | rfl <;> simp [hblock, BlockState.setType]
  · rw [hindent, ho, hblock]
    rcases htype with rfl | rfl <;> simp [BlockState.setType]
  · rw [hindent, ht]
  · rcases htype with rfl | rfl <;> simp [hblock, BlockState.setType]
  · rcases htype with rfl | rfl <;> simp [hblock, BlockState.setType]

lemma Ready.else (h : Ready lines s ci skipped) (hc : Comes lines line ci .elseCommand) :
    Inv lines { (processElseCommand s skipped).state with
      log := entry line ci .elseCommand (processElseCommand s skipped) :: s.log } := by
  have hisOpen := h.isOpen
  unfold processElseCommand
  split_ifs with hnone hhad
  · -- the 'else' block is a plain one
    have ht := afterTrue_here (⟨line, ci, .elseCommand, false, false⟩ : Entry κ γ) s.log
    have ho := branchOpen_here (⟨line, ci, .elseCommand, false, false⟩ : Entry κ γ) s.log
    have hopen : branchOpen ci s.log = true := hisOpen.mp (Or.inl hnone)
    refine h.finish (e := ⟨line, ci, .elseCommand, false, false⟩) rfl rfl rfl h.indent
      ⟨hc.command, fun _ => by simp [hopen], h.consistent⟩ (by simp [done, setBlock,
        BlockState.setType])
      (Or.inl ⟨h.skip, ?_, ?_, by simp [done, setBlock, BlockState.setType],
        by simp [done, setBlock, BlockState.setType]⟩)
    · rw [show (done (setBlock s .plain) false).state.block.indentLevel = ci from h.indent]
      exact iff_of_false (by simp [done, setBlock, BlockState.setType]) (by rw [ht]; simp)
    · rw [show (done (setBlock s .plain) false).state.block.indentLevel = ci from h.indent]
      exact ho.trans ht.symm
  · have hopen : branchOpen ci s.log = true := hisOpen.mp (Or.inr hhad)
    exact h.skipAlternative hc (Or.inl ⟨rfl, rfl⟩) hopen rfl rfl rfl (congrArg some h.indent)
  · have hclosed : branchOpen ci s.log = false := by
      rw [← Bool.not_eq_true, ← hisOpen]
      tauto
    exact inv_stopped (by simp [raise])
      ⟨hc.command, fun _ => by simp [entry, raise, hclosed], h.consistent⟩

lemma Ready.elif {condition : κ} (h : Ready lines s ci skipped)
    (hc : Comes lines line ci (.elifCommand condition)) :
    Inv lines { (processElifCommand oracle s skipped condition).state with
      log := entry line ci (.elifCommand condition)
        (processElifCommand oracle s skipped condition) :: s.log } := by
  have hisOpen := h.isOpen
  unfold processElifCommand
  split_ifs with hnone hhad
  · have hopen : branchOpen ci s.log = true := hisOpen.mp (Or.inl hnone)
    cases hv : oracle s.evaluations condition
    · refine h.condition hc (Or.inr ⟨condition, rfl⟩) (fun _ => hopen) ?_
        (by simp only [evaluateCondition, done, entry, hv]; rfl) ?_
      · simp [evaluateCondition, done, hv, setBlock, skipBlock]
      · simp [evaluateCondition, done, hv, setBlock, skipBlock, h.indent]
    · refine h.condition hc (Or.inr ⟨condition, rfl⟩) (fun _ => hopen) ?_
        (by simp only [evaluateCondition, done, entry, hv]; rfl) ?_
      · simp [evaluateCondition, done, hv, setBlock]
      · simp [evaluateCondition, done, hv, setBlock, h.skip]
  · have hopen : branchOpen ci s.log = true := hisOpen.mp (Or.inr hhad)
    exact h.skipAlternative hc (Or.inr ⟨⟨condition, rfl⟩, rfl⟩) hopen rfl rfl rfl
      (congrArg some h.indent)
  · have hclosed : branchOpen ci s.log = false := by
      rw [← Bool.not_eq_true, ← hisOpen]
      tauto
    exact inv_stopped (by simp [raise])
      ⟨hc.command, fun _ => by simp [entry, raise, hclosed], h.consistent⟩

lemma Ready.ifCommand {condition : κ} (h : Ready lines s ci skipped)
    (hc : Comes lines line ci (.ifCommand condition)) :
    Inv lines { (processIfCommand oracle s condition).state with
      log := entry line ci (.ifCommand condition) (processIfCommand oracle s condition)
        :: s.log } := by
  unfold processIfCommand
  have hnot : (Command.ifCommand condition : Command κ γ).isAlternative →
      branchOpen ci s.log = true := by simp [Command.isAlternative]
  cases hv : oracle s.evaluations condition
  · refine h.condition hc (Or.inl ⟨condition, rfl⟩) hnot ?_
      (by simp only [evaluateCondition, done, entry, hv]; rfl) ?_
    · simp [evaluateCondition, done, hv, setBlock, skipBlock]
    · simp [evaluateCondition, done, hv, setBlock, skipBlock, BlockState.setType, h.indent]
  · refine h.condition hc (Or.inl ⟨condition, rfl⟩) hnot ?_
      (by simp only [evaluateCondition, done, entry, hv]; rfl) ?_
    · simp [evaluateCondition, done, hv, setBlock]
    · simp [evaluateCondition, done, hv, setBlock, h.skip]

lemma Ready.while {condition : κ} (h : Ready lines s ci skipped)
    (hl : ∃ l, lines[line]? = some l ∧ l.command = .whileCommand condition ∧
      l.commandIndent = ci) :
    Inv lines { (processWhileCommand oracle s line condition).state with
      log := entry line ci (.whileCommand condition)
        (processWhileCommand oracle s line condition) :: s.log } := by
  have hc : Comes lines line ci (.whileCommand condition) := Or.inl hl
  have ht : ∀ value, afterTrue ci ((⟨line, ci, .whileCommand condition, value, false⟩ :
      Entry κ γ) :: s.log) = false := fun value => afterTrue_here _ _
  have ho : ∀ value, branchOpen ci ((⟨line, ci, .whileCommand condition, value, false⟩ :
      Entry κ γ) :: s.log) = false := fun value => branchOpen_here _ _
  have hcons : ∀ value, Consistent lines
      (⟨line, ci, .whileCommand condition, value, false⟩ :: s.log) := fun value =>
    ⟨hc.command, by simp [Command.isAlternative], h.consistent⟩
  -- In both cases the current block is the loop now, at the line where it says.
  have hblock : ∃ b : BlockState, b = (if s.block.blockType = .loop then
        s.block.incrementIterations else s.block.setLoopBlock line) ∧
      b.blockType = .loop ∧ b.indentLevel = ci ∧ ∃ l condition, lines[b.fpos]? = some l ∧
        l.command = .whileCommand condition ∧ l.commandIndent = ci := by
    refine ⟨_, rfl, ?_⟩
    split
    case isTrue hloop =>
      obtain ⟨l, c, hl, hc, hi⟩ := h.nested.loops s.block List.mem_cons_self hloop
      exact ⟨hloop, h.indent, l, c, hl, hc, hi.trans h.indent⟩
    case isFalse =>
      obtain ⟨l, hl⟩ := hl
      exact ⟨rfl, h.indent, l, condition, hl⟩
  obtain ⟨b, hb, hloop, hindent, hat⟩ := hblock
  unfold processWhileCommand
  rw [← hb]
  cases hv : oracle s.evaluations condition
  · simp only [evaluateCondition, done, entry, hv]
    refine h.finish (e := ⟨line, ci, .whileCommand condition, false, false⟩) rfl rfl rfl hindent
      (hcons false) (by simp [skipBlock, setBlock, BlockState.setType])
      (Or.inr ⟨congrArg some hindent, ?_, ?_, by simp [skipBlock, setBlock, BlockState.setType],
        by simp [skipBlock, setBlock, BlockState.setType]⟩)
    · simp [skipBlock, setBlock, BlockState.setType, hindent, ho]
    · simp [skipBlock, setBlock, BlockState.setType, hindent, ht]
  · simp only [evaluateCondition, done, entry, hv]
    refine h.finish (e := ⟨line, ci, .whileCommand condition, true, false⟩) rfl rfl rfl hindent
      (hcons true) (fun _ => hat) (Or.inl ⟨h.skip, ?_, ?_, ?_, ?_⟩)
    · simp [hindent, hloop, ht]
    · simp [hindent, ht, ho]
    · simp [hloop]
    · simp [hloop]

lemma Ready.leave (h : Ready lines s ci skipped) {command : Command κ γ}
    (hc : Comes lines line ci command) (hcommand : command.isAlternative = false)
    {rejected : Bool} : Consistent lines (⟨line, ci, command, false, rejected⟩ :: s.log) :=
  ⟨hc.command, by simp [hcommand], h.consistent⟩

lemma Ready.break (h : Ready lines s ci skipped) (hc : Comes lines line ci .breakCommand) :
    Inv lines { (processBreakCommand s).state with
      log := entry line ci .breakCommand (processBreakCommand s) :: s.log } := by
  unfold processBreakCommand
  split
  case h_1 => exact inv_stopped (by simp [raise]) (h.leave hc rfl)
  case h_2 b outer hfound =>
    exact (h.found (e := ⟨line, ci, .breakCommand, false, false⟩) rfl hfound).break rfl
      (h.leave hc rfl) rfl rfl rfl

lemma Ready.continue (h : Ready lines s ci skipped) (hc : Comes lines line ci .continueCommand) :
    Inv lines { (processContinueCommand s).state with
      log := entry line ci .continueCommand (processContinueCommand s) :: s.log } := by
  unfold processContinueCommand
  split
  case h_1 => exact inv_stopped (by simp [raise]) (h.leave hc rfl)
  case h_2 b outer hfound =>
    exact (h.found (e := ⟨line, ci, .continueCommand, false, false⟩) rfl hfound).restart rfl
      (h.leave hc rfl) rfl rfl h.skip rfl

lemma process_log (s : State κ γ) (line : ℕ) (skipped : BlockType) (command : Command κ γ) :
    (processConditionalGCode oracle s line skipped command).state.log = s.log := by
  cases command with
  | ifCommand condition =>
    cases hv : oracle s.evaluations condition <;>
      simp [processConditionalGCode, processIfCommand, evaluateCondition, done, hv, skipBlock,
        setBlock]
  | elseCommand =>
    simp only [processConditionalGCode, processElseCommand]
    split_ifs <;> rfl
  | elifCommand condition =>
    simp only [processConditionalGCode, processElifCommand]
    cases hv : oracle s.evaluations condition <;> split_ifs <;>
      simp [evaluateCondition, done, hv, skipBlock, setBlock, raise]
  | whileCommand condition =>
    cases hv : oracle s.evaluations condition <;>
      simp [processConditionalGCode, processWhileCommand, evaluateCondition, done, hv, skipBlock,
        setBlock]
  | breakCommand =>
    simp only [processConditionalGCode, processBreakCommand]
    split <;> rfl
  | continueCommand =>
    simp only [processConditionalGCode, processContinueCommand]
    split <;> rfl
  | plain c | abortCommand | skipCommand | comment => rfl

lemma Ready.process {command : Command κ γ} (h : Ready lines s ci skipped)
    (hc : Comes lines line ci command) (hcomment : command.isComment = false) :
    let p := processConditionalGCode oracle s line skipped command
    Inv lines { p.state with log := entry line ci command p :: p.state.log } := by
  dsimp only
  rw [process_log]
  cases command with
  | plain c => exact h.plain hc (Or.inl ⟨c, rfl⟩)
  | ifCommand condition => exact h.ifCommand oracle hc
  | elseCommand => exact h.else hc
  | elifCommand condition => exact h.elif oracle hc
  | whileCommand condition =>
    rcases hc with ⟨l, hl⟩ | ⟨-, hskip⟩
    · exact h.while oracle ⟨l, hl⟩
    · cases hskip
  | breakCommand => exact h.break hc
  | continueCommand => exact h.continue hc
  | skipCommand => exact h.plain hc (Or.inr rfl)
  | abortCommand =>
    exact inv_stopped (by simp [processConditionalGCode, done]) (h.leave hc rfl)
  | comment => cases hcomment

/-! ### The blocks that the indentation leaves -/

lemma endBlocks_spec (ci : ℕ) (b : BlockState) (outer : List BlockState)
    (hbase : ∀ a ∈ (b :: outer).getLast?, a.indentLevel = 0) :
    ∃ inner, b :: outer = inner ++ (endBlocks ci b outer).1.1 :: (endBlocks ci b outer).1.2 ∧
      (∀ a ∈ inner, ci < a.indentLevel) ∧
      ((endBlocks ci b outer).2 = true →
        (endBlocks ci b outer).1.1.blockType = .loop ∧ inner ≠ []) ∧
      ((endBlocks ci b outer).2 = false → (endBlocks ci b outer).1.1.indentLevel ≤ ci) := by
  induction outer generalizing b with
  | nil =>
    refine ⟨[], rfl, by simp, by simp [endBlocks], fun _ => ?_⟩
    have := hbase b (by simp)
    simp [endBlocks, this]
  | cons c outer ih =>
    rw [endBlocks]
    by_cases hlt : ci < b.indentLevel
    · rw [if_pos hlt]
      by_cases hloop : c.blockType = .loop
      · rw [if_pos hloop]
        exact ⟨[b], rfl, by simpa using hlt, fun _ => ⟨hloop, by simp⟩, by simp⟩
      · rw [if_neg hloop]
        obtain ⟨inner, heq, hdeep, hrestart, hstay⟩ := ih c fun a ha => hbase a (by simpa using ha)
        refine ⟨b :: inner, by rw [heq]; rfl, ?_, fun h => ⟨(hrestart h).1, by simp⟩, hstay⟩
        intro a ha
        rcases List.mem_cons.mp ha with rfl | ha
        · exact hlt
        · exact hdeep a ha
    · rw [if_neg hlt]
      exact ⟨[], rfl, by simp, by simp, fun _ => by simpa using hlt⟩

lemma Ready.leaveBlocks {command : Command κ γ} (h : Ready lines s ci skipped)
    (hc : Comes lines line ci command) (hcomment : command.isComment = false) :
    Inv lines (leaveBlocks oracle s line ci skipped command) := by
  have hstay : endBlocks ci s.block s.outer = ((s.block, s.outer), false) := by
    have hind := h.indent
    cases houter : s.outer with
    | nil => rfl
    | cons c outer => rw [endBlocks, if_neg (by omega)]
  have hprocess := h.process oracle hc hcomment
  unfold MetaCommands.leaveBlocks
  rw [hstay]
  have hind : ¬ s.block.indentLevel < ci := by
    rw [h.indent]
    exact Nat.lt_irrefl ci
  dsimp only
  rw [if_neg Bool.false_ne_true, if_neg hind]
  exact hprocess

/-- The current block is not skipped, or is left. -/
structure Leaving (lines : List (Line κ γ)) (s : State κ γ) (ci : ℕ) : Prop where
  status : s.status = .running
  skip : s.indentToSkipTo = none
  consistent : Consistent lines s.log
  nested : Nested lines (s.block :: s.outer)
  outer : ∀ b ∈ s.outer, Steady b s.log
  block : Steady s.block s.log ∨ ci < s.block.indentLevel
  gaps : ∃ bound, Gaps bound (s.block :: s.outer) s.log ∧ ci < bound ∧ s.block.indentLevel ≤ bound

lemma Leaving.steady (h : Leaving lines s ci) {inner : List BlockState}
    (heq : s.block :: s.outer = inner ++ b :: outer) (hb : inner ≠ [] ∨ b.indentLevel ≤ ci) :
    Steady b s.log ∧ ∀ a ∈ outer, Steady a s.log := by
  cases inner with
  | nil =>
    obtain ⟨rfl, rfl⟩ : s.block = b ∧ s.outer = outer := by simpa using heq
    have hle : s.block.indentLevel ≤ ci := by simpa using hb
    exact ⟨h.block.resolve_right (by omega), h.outer⟩
  | cons c inner =>
    obtain ⟨rfl, houter⟩ : s.block = c ∧ s.outer = inner ++ b :: outer := by simpa using heq
    have hsteady := h.outer
    rw [houter] at hsteady
    exact ⟨hsteady b (by simp), fun a ha => hsteady a (by simp [ha])⟩

lemma Leaving.leaveBlocks {command : Command κ γ} (h : Leaving lines s ci)
    (hc : Comes lines line ci command) (hcomment : command.isComment = false) :
    Inv lines (leaveBlocks oracle s line ci .plain command) := by
  obtain ⟨bound, hgaps, hci, hbound⟩ := h.gaps
  obtain ⟨inner, heq, hdeep, hrestart, hstay⟩ :=
    endBlocks_spec ci s.block s.outer h.nested.outermost
  unfold MetaCommands.leaveBlocks
  generalize endBlocks ci s.block s.outer = r at heq hrestart hstay ⊢
  obtain ⟨⟨b, outer⟩, loop⟩ := r
  dsimp only at heq hrestart hstay ⊢
  have hsorted := h.nested.sorted
  have hnested := h.nested
  rw [heq] at hgaps hsorted hnested
  have hle : b.indentLevel ≤ bound := by
    have : b ∈ s.block :: s.outer := by simp [heq]
    rcases List.mem_cons.mp this with rfl | hmem
    · exact hbound
    · have := (List.pairwise_cons.mp h.nested.sorted).1 b hmem
      omega
  cases loop with
  | true =>
    obtain ⟨hloop, hne⟩ := hrestart rfl
    obtain ⟨hb, houter⟩ := h.steady heq (Or.inl hne)
    have hfound : Found lines b outer s.log :=
      ⟨hloop, hnested.suffix, hb, houter, hgaps.suffix hsorted hle⟩
    exact hfound.restart rfl h.consistent rfl rfl h.skip rfl
  | false =>
    have hb := hstay rfl
    obtain ⟨hsteady, houter⟩ := h.steady heq (Or.inr hb)
    rw [if_neg (by simp)]
    by_cases hlt : b.indentLevel < ci
    · rw [if_pos hlt]
      -- the indentation has increased, so there is a new block
      have hfresh : Quiet ci s.log := by
        apply hgaps ci hci
        intro a ha
        rcases List.mem_append.mp ha with ha | ha
        · exact (hdeep a ha).ne'
        · rcases List.mem_cons.mp ha with rfl | ha
          · exact hlt.ne
          · have := (List.pairwise_cons.mp hnested.suffix.sorted).1 a ha
            omega
      refine Ready.process oracle (s := { s with
        block := ⟨0, 0, ci, .plain⟩, outer := b :: outer }) ⟨h.status, h.skip, rfl, h.consistent,
        ?_, ?_, ?_, ?_, by simp, by simp, ?_⟩ hc hcomment
      · refine ⟨List.pairwise_cons.mpr ⟨?_, hnested.suffix.sorted⟩, ?_, ?_⟩
        · intro a ha
          rcases List.mem_cons.mp ha with rfl | ha
          · exact hlt
          · have := (List.pairwise_cons.mp hnested.suffix.sorted).1 a ha
            exact this.trans hlt
        · intro a ha
          exact hnested.suffix.outermost a (by simpa using ha)
        · intro a ha hla
          rcases List.mem_cons.mp ha with rfl | ha
          · cases hla
          · exact hnested.suffix.loops a ha hla
      · intro a ha
        rcases List.mem_cons.mp ha with rfl | ha
        · exact hsteady
        · exact houter a ha
      · simp [hfresh.2]
      · simp [hfresh.1]
      · intro n hn hne
        apply hgaps n (by omega)
        intro a ha
        rcases List.mem_append.mp ha with ha | ha
        · have := hdeep a ha
          omega
        · exact hne a ha
    · rw [if_neg hlt]
      have hind : b.indentLevel = ci := by omega
      refine Ready.process oracle (s := { s with block := b, outer := outer })
        ⟨h.status, h.skip, hind, h.consistent, hnested.suffix, houter, ?_, ?_, hsteady.noneTrue,
          hsteady.hadTrue, ?_⟩ hc hcomment
      · simp only [reduceCtorEq, false_or]
        rw [← hind, hsteady.same]
        exact hsteady.ifTrue
      · rw [← hind]
        exact hsteady.ifTrue
      · have := hgaps.suffix hsorted hle
        rw [hind] at this
        intro n hn hne
        refine this n hn fun a ha => ?_
        rcases List.mem_cons.mp ha with rfl | ha
        · omega
        · exact hne a ha

/-! ### The runs -/

lemma check_normal {command : Command κ γ} {position : ℕ} (h : Inv lines s)
    (hs : s.status = .running) (hskip : s.indentToSkipTo = none) (hblock : Steady s.block s.log)
    (hgaps : ∀ bound, Gaps bound (s.block :: s.outer) s.log) (hc : Comes lines line ci command)
    (hcomment : command.isComment = false) :
    Inv lines (checkMetaCommand oracle { s with position := position } line ci command) := by
  have hleaving : Leaving lines { s with position := position, indentToSkipTo := none } ci :=
    ⟨hs, rfl, h.consistent, h.nested hs, h.outer hs, Or.inl hblock,
      ⟨max (ci + 1) s.block.indentLevel, hgaps _, by omega, le_max_right _ _⟩⟩
  simp only [checkMetaCommand, hcomment, hskip]
  rw [if_neg Bool.false_ne_true]
  exact hleaving.leaveBlocks oracle hc hcomment

lemma check_restarting {command : Command κ γ} {position : ℕ} (h : Inv lines s)
    (hs : s.status = .running) (hskip : s.indentToSkipTo = none) (hblock : Steady s.block s.log)
    (hgaps : Gaps s.block.indentLevel (s.block :: s.outer) s.log) (hind : s.block.indentLevel = ci)
    (hc : Comes lines line ci command) (hcomment : command.isComment = false) :
    Inv lines (checkMetaCommand oracle { s with position := position } line ci command) := by
  have hready : Ready lines { s with position := position, indentToSkipTo := none } ci .plain := by
    refine ⟨hs, rfl, hind, h.consistent, h.nested hs, h.outer hs, ?_, ?_, hblock.noneTrue,
      hblock.hadTrue, ?_⟩
    · simp only [reduceCtorEq, false_or]
      rw [← hind, hblock.same]
      exact hblock.ifTrue
    · rw [← hind]
      exact hblock.ifTrue
    · intro n hn hne
      refine hgaps n (hind ▸ hn) fun a ha => ?_
      rcases List.mem_cons.mp ha with rfl | ha
      · omega
      · exact hne a ha
  simp only [checkMetaCommand, hcomment, hskip]
  rw [if_neg Bool.false_ne_true]
  exact hready.leaveBlocks oracle hc hcomment

lemma check_skipping {command : Command κ γ} {position : ℕ} (h : Inv lines s)
    (hs : s.status = .running) (hskip : s.indentToSkipTo = some s.block.indentLevel)
    (hblock : Skipped s.block s.log) (hgaps : Gaps s.block.indentLevel (s.block :: s.outer) s.log)
    (hc : Comes lines line ci command) (hcomment : command.isComment = false) :
    Inv lines (checkMetaCommand oracle { s with position := position } line ci command) := by
  simp only [checkMetaCommand, hcomment, hskip]
  rw [if_neg Bool.false_ne_true]
  split_ifs with hdeep hsame
  · exact ⟨h.consistent, fun _ => h.nested hs, fun _ => h.outer hs,
      fun _ => .skipping rfl hblock hgaps⟩
  · -- the skipped block ends here, and its type is kept for an 'else' or 'elif'
    refine Ready.leaveBlocks oracle ⟨hs, rfl, hsame, h.consistent,
      (h.nested hs).replace rfl (by simp [setBlock, BlockState.setType]), h.outer hs, ?_, ?_,
      by simp [setBlock, BlockState.setType], by simp [setBlock, BlockState.setType],
        ?_⟩ hc hcomment
    · have hopen := hblock.isOpen
      rw [hsame] at hopen
      simpa [setBlock, BlockState.setType] using hopen
    · have hclosed := hblock.closed
      rw [hsame] at hclosed
      simp [setBlock, BlockState.setType, hclosed]
    · intro n hn hne
      refine hgaps n (hsame ▸ hn) fun a ha => ?_
      rcases List.mem_cons.mp ha with rfl | ha
      · omega
      · exact hne a ha
  · have hleaving : Leaving lines { s with position := position, indentToSkipTo := none } ci :=
      ⟨hs, rfl, h.consistent, h.nested hs, h.outer hs, Or.inr (by dsimp only; omega),
        ⟨s.block.indentLevel, hgaps, by omega, le_rfl⟩⟩
    exact hleaving.leaveBlocks oracle hc hcomment

lemma check_inv {command : Command κ γ} {position : ℕ} (h : Inv lines s) (hs : s.status = .running)
    (hc : Comes lines line ci command)
    (hrestart : s.block.blockType = .loop → s.position = s.block.fpos →
      s.block.indentLevel = ci ∧ command.isComment = false) :
    Inv lines (checkMetaCommand oracle { s with position := position } line ci command) := by
  have hphase := h.phase hs
  cases hcomment : command.isComment with
  | true =>
    simp only [checkMetaCommand, hcomment, if_true]
    refine ⟨h.consistent, fun _ => h.nested hs, fun _ => h.outer hs, fun _ => ?_⟩
    rcases hphase with ⟨hskip, hblock, hgaps⟩ | ⟨hskip, hblock, hgaps⟩ | ⟨-, -, hloop, hpos, -⟩
    · exact .normal hskip hblock hgaps
    · exact .skipping hskip hblock hgaps
    · have := (hrestart hloop hpos).2
      simp [hcomment] at this
  | false =>
    rcases hphase with ⟨hskip, hblock, hgaps⟩ | ⟨hskip, hblock, hgaps⟩ |
      ⟨hskip, hblock, hloop, hpos, hgaps⟩
    · exact check_normal oracle h hs hskip hblock hgaps hc hcomment
    · exact check_skipping oracle h hs hskip hblock hgaps hc hcomment
    · exact check_restarting oracle h hs hskip hblock hgaps (hrestart hloop hpos).1 hc hcomment

lemma step_inv (h : Inv lines s) : Inv lines (step oracle lines s) := by
  rw [step]
  split
  case isFalse => exact h
  case isTrue hs =>
    split
    case h_1 l hl =>
      refine check_inv oracle h hs (Or.inl ⟨l, hl, rfl, rfl⟩) fun hloop hpos => ?_
      obtain ⟨l', condition, hl', hcommand, hind⟩ :=
        (h.nested hs).loops s.block List.mem_cons_self hloop
      obtain rfl : l = l' := by simpa [← hpos, hl] using hl'
      exact ⟨hind.symm, by simp [hcommand, Command.isComment]⟩
    case h_2 hnone =>
      split
      · refine check_inv oracle h hs (Or.inr ⟨hnone, rfl⟩) fun hloop hpos => ?_
        obtain ⟨l', condition, hl', -⟩ := (h.nested hs).loops s.block List.mem_cons_self hloop
        simp [← hpos, hnone] at hl'
      · exact inv_stopped (by simp) h.consistent

lemma start_inv (lines : List (Line κ γ)) : Inv lines (start κ γ) := by
  refine ⟨trivial, fun _ => ⟨by simp [start], by simp [start], by simp [start]⟩,
    fun _ => by simp [start], fun _ => .normal rfl ⟨?_, rfl, ?_, ?_⟩ fun _ _ _ _ => ⟨rfl, rfl⟩⟩
  all_goals simp [start, afterTrue]

/-- The state after `m` steps through the file. -/
def execute (lines : List (Line κ γ)) (m : ℕ) : State κ γ :=
  (step oracle lines)^[m] (start κ γ)

lemma execute_inv (lines : List (Line κ γ)) (m : ℕ) : Inv lines (execute oracle lines m) := by
  induction m with
  | zero => exact start_inv lines
  | succ m ih =>
    rw [execute, Function.iterate_succ_apply']
    exact step_inv oracle ih

/-! ### Errors and conditions -/

/-- In the run, line `i` was processed with the entry `e`, after the commands in `log`. -/
def Visits (lines : List (Line κ γ)) (i : ℕ) (e : Entry κ γ) (log : List (Entry κ γ)) : Prop :=
  e.line = i ∧ ∃ m, e :: log <:+ (execute oracle lines m).log

def Reached (lines : List (Line κ γ)) (i : ℕ) : Prop := ∃ e log, Visits oracle lines i e log

def Rejects (lines : List (Line κ γ)) (i : ℕ) : Prop :=
  ∃ e log, Visits oracle lines i e log ∧ e.rejected = true

/-- Whenever the run came to line `i`, a branch was open at its indentation. -/
def AlwaysOpen (lines : List (Line κ γ)) (i : ℕ) : Prop :=
  ∀ e log, Visits oracle lines i e log → branchOpen e.commandIndent log = true

/-- Line `i` directly follows, at its indentation, the block of an `if` or `elif`. -/
def FollowsBranch (lines : List (Line κ γ)) (i : ℕ) (l : Line κ γ) : Prop :=
  ∃ j < i, ∃ b, lines[j]? = some b ∧ b.column = l.column ∧
    ((∃ c, b.command = .ifCommand c) ∨ ∃ c, b.command = .elifCommand c) ∧
    ∀ k, j < k → k < i → ∀ l', lines[k]? = some l' →
      l.column < l'.column ∨ l'.command.isComment = true

/-- Line `i` is an `else` or `elif` that does not follow a branch. -/
def Misplaced (lines : List (Line κ γ)) (i : ℕ) : Prop :=
  ∃ l, lines[i]? = some l ∧ l.command.isAlternative = true ∧ ¬ FollowsBranch lines i l

lemma Consistent.suffix {before : List (Entry κ γ)} (h : Consistent lines log)
    (hs : before <:+ log) : Consistent lines before := by
  obtain ⟨after, rfl⟩ := hs
  induction after with
  | nil => exact h
  | cons a after ih => exact ih h.2.2

lemma rejects_iff {i : ℕ} (hi : Misplaced lines i) :
    Rejects oracle lines i ↔ ¬ AlwaysOpen oracle lines i := by
  obtain ⟨l, hl, halt, -⟩ := hi
  have hvisit : ∀ e log, Visits oracle lines i e log →
      e.rejected = !branchOpen e.commandIndent log := by
    rintro e log ⟨rfl, m, hs⟩
    obtain ⟨hcommand, hrejected, -⟩ := (execute_inv oracle lines m).consistent.suffix hs
    exact hrejected (hcommand l hl ▸ halt)
  constructor
  · rintro ⟨e, log, hv, hrejected⟩ hopen
    rw [hvisit e log hv, hopen e log hv] at hrejected
    cases hrejected
  · intro h
    by_contra hnever
    apply h
    intro e log hv
    by_contra hclosed
    exact hnever ⟨e, log, hv, by rw [hvisit e log hv]; simpa using hclosed⟩

/-- A misplaced line is an error with both oracles or with neither, unless with one of them only it
always came behind a true branch at its indentation. -/
theorem rejection_agrees_iff (lines : List (Line κ γ)) (oracle oracle' : ℕ → κ → Bool) :
    (∀ i, Misplaced lines i → Reached oracle lines i → Reached oracle' lines i →
      (Rejects oracle lines i ↔ Rejects oracle' lines i)) ↔
    ∀ i, Misplaced lines i → Reached oracle lines i → Reached oracle' lines i →
      (AlwaysOpen oracle lines i ↔ AlwaysOpen oracle' lines i) := by
  refine forall_congr' fun i => forall_congr' fun hi => ?_
  rw [rejects_iff oracle hi, rejects_iff oracle' hi, not_iff_not]

lemma execute_stopped {oracle : ℕ → κ → Bool} {k m : ℕ}
    (h : (execute oracle lines k).status ≠ .running) (hm : k ≤ m) :
    execute oracle lines m = execute oracle lines k := by
  induction m, hm using Nat.le_induction with
  | base => rfl
  | succ m _ ih =>
    rw [execute, Function.iterate_succ_apply', ← execute, ih, step, if_neg h]

/-- A command stands between the block of the `if` and the `else`. -/
def separated : List (Line Unit Unit) :=
  [⟨0, .ifCommand ()⟩, ⟨2, .plain ()⟩, ⟨0, .plain ()⟩, ⟨0, .elseCommand⟩, ⟨2, .plain ()⟩]

theorem else_after_plain :
    ¬ (Misplaced separated 3 → Reached (fun _ _ => true) separated 3 →
      Reached (fun _ _ => false) separated 3 →
      (Rejects (fun _ _ => true) separated 3 ↔ Rejects (fun _ _ => false) separated 3)) := by
  intro h
  have hmisplaced : Misplaced separated 3 := by
    refine ⟨⟨0, .elseCommand⟩, rfl, rfl, ?_⟩
    rintro ⟨j, hj, b, hb, -, hbranch, hbetween⟩
    obtain rfl | hj : j = 0 ∨ 1 ≤ j ∧ j ≤ 2 := by omega
    · rcases hbetween 2 (by decide) (by decide) _ rfl with hlt | hcomment
      · exact absurd hlt (by decide)
      · cases hcomment
    · have hcommand : b.command = .plain () := by
        obtain rfl | rfl : j = 1 ∨ j = 2 := by omega
        all_goals
          obtain rfl := Option.some.inj hb
          rfl
      simp [hcommand] at hbranch
  have hfalse : Visits (fun _ _ => false) separated 3 ⟨3, 0, .elseCommand, false, true⟩
      (execute (fun _ _ => false) separated 3).log := ⟨rfl, 4, List.suffix_rfl⟩
  have htrue : Visits (fun _ _ => true) separated 3 ⟨3, 0, .elseCommand, false, false⟩
      (execute (fun _ _ => true) separated 3).log := ⟨rfl, 4, List.suffix_rfl⟩
  obtain ⟨e, log, ⟨-, m, hs⟩, hrejected⟩ :=
    (h hmisplaced ⟨_, _, htrue⟩ ⟨_, _, hfalse⟩).mpr ⟨_, _, hfalse, rfl⟩
  have haccepted : ∀ m, ∀ e ∈ (execute (fun _ _ => true) separated m).log, e.rejected = false := by
    intro m
    rcases Nat.lt_or_ge m 6 with hm | hm
    · interval_cases m <;> decide
    · rw [execute_stopped (by decide) hm]
      decide
  rw [haccepted m e (hs.subset List.mem_cons_self)] at hrejected
  cases hrejected

end RepRapFirmware.GCodes.MetaCommands
