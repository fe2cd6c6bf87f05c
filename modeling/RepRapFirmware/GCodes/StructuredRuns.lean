import RepRapFirmware.GCodes.StructuredFiles

/-! A well-indented file does what its structured program does. -/

namespace RepRapFirmware.GCodes.MetaCommands

open Library.StructuredPrograms

section Results
variable {κ γ δ β : Type*} {S : Scoping κ γ δ} {lines : List (Line κ γ)}
  {s : FileState κ γ δ} {t : Trace γ δ} {n m p : ℕ} {b : BlockState} {outer : List BlockState}
  {skipped : BlockType} {observe : δ → β} {r : Outcome × Trace γ δ}

/-- The file runs or has stopped, and `observe` shows of the data what the program shows. -/
structure Matches (observe : δ → β) (status : Status) (s : FileState κ γ δ) (t : Trace γ δ) :
    Prop where
  status : s.control.status = status
  executed : s.control.executed = t.executed
  data : observe s.data = observe t.data

/-- The state of the file when a part of the program that ends at `p`, in a block at column `n`, has
come to `r`. -/
def Result (observe : δ → β) (S : Scoping κ γ δ) (n : ℕ) (outer : List BlockState) (p : ℕ)
    (r : Outcome × Trace γ δ) (s : FileState κ γ δ) : Prop :=
  let back : Trace γ δ := { r.2 with data := toLoopData S outer r.2.data }
  match r.1 with
  | .unfinished => Matches observe .running s r.2
  | .normal => s.control.position = p ∧ Inside S n outer s r.2
  | .broken => (findLoop outer).elim (Matches observe .aborted s r.2) fun l =>
      Stands (l.1.setType .plain) l.2 (some l.1.indentLevel) p s back
  | .restarted => (findLoop outer).elim (Matches observe .aborted s r.2) fun l =>
      Stands l.1 l.2 none l.1.fpos s back
  | .failed => Matches observe .aborted s r.2

lemma observe_toLoopData (hobserve : ∀ d x, observe (S.endScope d x) = observe x)
    (outer : List BlockState) (x : δ) : observe (toLoopData S outer x) = observe x := by
  induction outer generalizing x with
  | nil => rfl
  | cons b outer ih =>
    rw [toLoopData]
    split <;> simp [hobserve, ih]

lemma observe_endBlocksData (hobserve : ∀ d x, observe (S.endScope d x) = observe x) (n : ℕ)
    (b : BlockState) (outer : List BlockState) (x : δ) :
    observe (endBlocksData S n b outer x) = observe x := by
  induction outer generalizing b x with
  | nil => rfl
  | cons b' outer ih =>
    rw [endBlocksData]
    split
    · split <;> simp [hobserve, ih]
    · rfl

variable (observe) in
/-- Where a `break` or `continue` leads. -/
lemma Arrives.leave (h : Arrives S n b outer skipped s t) (hn : n < 256)
    (hstacked : Stacked n outer) (hobserve : ∀ d x, observe (S.endScope d x) = observe x)
    {command : Command κ γ} (hl : lines[s.control.position]? = some ⟨n, command⟩)
    (hcommand : command = .breakCommand ∧ r = (.broken, t) ∨
      command = .continueCommand ∧ r = (.restarted, t)) :
    Result observe S n outer (s.control.position + 1) r (fileStep S lines s) := by
  obtain ⟨hrun, heval, hexec⟩ := h.agrees
  obtain ⟨hto, hdata⟩ := Stacked.endToLoop (S := S) (b := b) (h.indent.symm ▸ hstacked) t.data
  rcases hcommand with ⟨rfl, rfl⟩ | ⟨rfl, rfl⟩ <;>
    rw [h.processed rfl hn hl (congrArg some hdata)] <;>
    cases hloop : findLoop outer <;> rw [hloop] at hto
  all_goals simp [Result, hloop, logged, processConditionalGCode, processBreakCommand,
    processContinueCommand, hto, raise, done, setBlock, skipBlock, BlockState.setType]
  all_goals constructor <;> try constructor
  all_goals simp [hrun, heval, hexec, observe_toLoopData hobserve]

variable {after rest xs : List (Line κ γ)} {k : Kind} {code : Code κ γ k}

/-- Comments are passed, and so are lines to the right of the column to which lines are skipped. -/
lemma Stands.pass {skip : Option ℕ} (h : Stands b outer skip p s t)
    (hplace : Place lines p (xs ++ after))
    (hpass : ∀ l ∈ xs, l.command.isComment = true ∨ skip.any (· < l.commandIndent)) :
    Within S lines 0 s fun s' => Stands b outer skip (p + xs.length) s' t := by
  obtain ⟨hagrees, rfl, rfl, rfl, rfl, hdata⟩ := h
  refine ⟨xs.length, by omega, ?_⟩
  rw [iterate_passes hagrees.running hplace hpass]
  exact ⟨⟨hagrees.running, hagrees.evaluations, hagrees.executed⟩, rfl, rfl, rfl, rfl, hdata⟩

/-- The file further on. -/
def FileState.moved (s : FileState κ γ δ) (count : ℕ) : FileState κ γ δ :=
  { s with control := { s.control with position := s.control.position + count } }

lemma Agrees.comments (h : Agrees s t) (hcs : Comments xs)
    (hplace : Place lines s.control.position (xs ++ after)) :
    Within S lines 0 s (· = s.moved xs.length) :=
  ⟨xs.length, by omega, iterate_passes h.running hplace fun l hl => .inl (hcs l hl)⟩

lemma Agrees.moved (h : Agrees s t) (count : ℕ) : Agrees (s.moved count) t :=
  ⟨h.running, h.evaluations, h.executed⟩

lemma Inside.moved (h : Inside S n outer s t) (count : ℕ) : Inside S n outer (s.moved count) t := by
  obtain ⟨b, hb, h⟩ := h
  exact ⟨b, hb, h.agrees.moved count, h.indent, h.pops, h.skip, h.data⟩

lemma Arrives.moved (h : Arrives S n b outer skipped s t) (count : ℕ) :
    Arrives S n b outer skipped (s.moved count) t :=
  ⟨h.agrees.moved count, h.indent, h.control, h.data⟩

/-- A line to the left of the body of a loop leads back to the loop. -/
lemma Inside.back (h : Inside S m (b :: outer) s t) (hb : b.blockType = .loop) {column : ℕ}
    (hcolumn : column < m) {command : Command κ γ} (hc : command.isComment = false)
    (oracle : ℕ → κ → Bool) (position line : ℕ) :
    checkMetaCommand oracle { s.control with position := position } line column command =
        { s.control with
          position := b.fpos, indentToSkipTo := none, block := b, outer := outer } ∧
      checkData S s.control column command s.data = some (S.endScope outer.length t.data) := by
  obtain ⟨b', hb', h⟩ := h
  obtain ⟨hends, hdata⟩ := h.pops.endBlocks (S := S) h.indent hcolumn.le s.data
  have hlt : column < b'.indentLevel := h.indent.symm ▸ hcolumn
  rw [endBlocks, if_pos hlt, if_pos hb] at hends
  rw [h.data, endBlocksData, if_pos hlt, if_pos hb] at hdata
  have hskip : ∀ i ∈ s.control.indentToSkipTo, column < i := by
    intro i hi
    rcases h.skip i hi with h | ⟨rfl, -⟩ <;> omega
  constructor
  · rw [checkMetaCommand, hc, if_neg Bool.false_ne_true]
    cases hs : s.control.indentToSkipTo with
    | none => simp [leaveBlocks, hends, hs]
    | some i => simp [leaveBlocks, hends, (hskip i hs).not_gt, (hskip i hs).ne']
  · have hany : s.control.indentToSkipTo.any (· < column) = false := by
      rw [Option.any_eq_false]
      exact fun i hi => by simpa using (hskip i hi).le
    simp [checkData, hc, hany, hends, hdata]

lemma Inside.closestLoop (h : Inside S m outer s t) :
    closestLoop s.control = outer.find? (·.blockType = .loop) := by
  obtain ⟨b', hb', h⟩ := h
  have hfind : ∀ {b₀ outer₀}, Pops m b' outer b₀ outer₀ →
      (b₀ :: outer₀).find? (·.blockType = .loop) = outer.find? (·.blockType = .loop) := by
    intro b₀ outer₀ hpops
    induction hpops with
    | here => rw [List.find?_cons_of_neg (by simpa using hb')]
    | pop _ hloop _ _ ih => rw [List.find?_cons_of_neg (by simpa using hloop), ih]
  exact hfind h.pops

lemma Inside.step_back (h : Inside S m (b :: outer) s t) (hb : b.blockType = .loop) {column : ℕ}
    (hcolumn : column < m) {command : Command κ γ} (hc : command.isComment = false)
    (hnext : nextCommand lines s.control = some (column, command)) :
    Stands b outer none b.fpos (fileStep S lines s)
      { t with data := S.endScope outer.length t.data } := by
  have hagrees : Agrees s t := h.elim fun _ h => h.2.agrees
  have hback := fun oracle position line => (h.back hb hcolumn hc oracle position line).1
  have hstep : fileStep S lines s =
      ⟨{ s.control with position := b.fpos, indentToSkipTo := none, block := b, outer := outer },
        S.endScope outer.length t.data⟩ := by
    rw [fileStep, if_pos hagrees.running]
    simp only [hnext, (h.back hb hcolumn hc (S.oracle s.data) 0 0).2]
    rw [step, if_pos hagrees.running]
    rw [nextCommand] at hnext
    cases hl : lines[s.control.position]? with
    | some l =>
      simp only [hl, Option.some.injEq, Prod.mk.injEq] at hnext
      obtain ⟨rfl, rfl⟩ := hnext
      simp only [hback]
    | none =>
      simp only [hl] at hnext
      split at hnext
      · obtain ⟨rfl, rfl⟩ : 0 = column ∧ .skipCommand = command := by simpa using hnext
        rw [if_pos ‹_›]
        exact congrArg (FileState.mk · _) (hback _ s.control.position _)
      · cases hnext
  rw [hstep]
  exact ⟨⟨hagrees.running, hagrees.evaluations, hagrees.executed⟩, rfl, rfl, rfl, rfl, rfl⟩

/-- The end of the body of a loop, also at the end of the file as long as the number of iterations
is not taken for a negative one. -/
lemma Inside.returns (h : Inside S m (b :: outer) s t) (hb : b.blockType = .loop)
    (hplace : Place lines s.control.position rest) (hends : Ends m rest) (hm : 0 < m)
    (hcount : Comments rest → b.iterationsDone.toNat < 2 ^ 31) :
    Within S lines 0 s fun s' =>
      Stands b outer none b.fpos s' { t with data := S.endScope outer.length t.data } := by
  have hagrees : Agrees s t := h.elim fun _ h => h.2.agrees
  rcases comments_or_line rest with hcs | ⟨cs, l, ls, rfl, hcs, hl⟩
  · rw [← List.append_nil rest] at hplace
    refine (hagrees.comments hcs hplace).trans (j := 0) ?_
    rintro _ rfl
    have hcount : 0 ≤ b.iterationsDone.toInt32 := by
      have hlt := hcount hcs
      rw [Int32.le_iff_toInt_le]
      have hint : b.iterationsDone.toInt32.toInt = b.iterationsDone.toBitVec.toInt := rfl
      rw [hint, BitVec.toInt_eq_toNat_of_lt (by simpa using by omega)]
      exact Int.natCast_nonneg _
    have hnext : nextCommand lines (s.moved rest.length).control = some (0, .skipCommand) := by
      have hend : lines[(s.moved rest.length).control.position]? = none := hplace.skip.end
      rw [nextCommand, hend, getIterations, (h.moved rest.length).closestLoop,
        List.find?_cons_of_pos (by simpa using hb)]
      exact if_pos hcount
    exact ⟨1, by omega, (h.moved rest.length).step_back hb hm rfl hnext⟩
  · refine (hagrees.comments hcs hplace).trans (j := 0) ?_
    rintro _ rfl
    rw [ends_append hcs, Ends, hl, if_neg Bool.false_ne_true] at hends
    have hline : lines[(s.moved cs.length).control.position]? = some l := hplace.skip.head
    exact ⟨1, by omega, (h.moved cs.length).step_back hb hends hl (by rw [nextCommand, hline])⟩

/-- A part of a program that has not come to an end is still going on after that number of steps. -/
def due (r : Outcome × Trace γ δ) (fuel : ℕ) : ℕ :=
  match r.1 with
  | .unfinished => fuel
  | _ => 0

variable (S lines observe) in
/-- The file comes to what the part of the program comes to. -/
def ComesTo (fuel : ℕ) (s : FileState κ γ δ) (n : ℕ) (outer : List BlockState) (p : ℕ)
    (r : Outcome × Trace γ δ) : Prop :=
  Within S lines (due r fuel) s (Result observe S n outer p r)

variable {fuel : ℕ}

lemma ComesTo.step (h : ComesTo S lines observe fuel (fileStep S lines s) n outer p r) :
    ComesTo S lines observe (fuel + 1) s n outer p r := by
  refine (Within.step h).mono ?_ fun _ h => h
  rw [due, due]
  split <;> omega

lemma ComesTo.later {P : FileState κ γ δ → Prop} (h : Within S lines 0 s P)
    (hnext : ∀ s', P s' → ComesTo S lines observe fuel s' n outer p r) :
    ComesTo S lines observe fuel s n outer p r := by
  have h := h.trans hnext
  rwa [zero_add] at h

/-- A part that did not come to its end is not followed by what comes behind it. -/
lemma Result.passes (h : Result observe S n outer p r s) (hr : r.1 ≠ .normal)
    (hstacked : Stacked n outer) (hplace : Place lines p (xs ++ after)) (hright : RightOf n xs) :
    Within S lines 0 s (Result observe S n outer (p + xs.length) r) := by
  obtain ⟨outcome, t⟩ := r
  cases outcome with
  | normal => exact absurd rfl hr
  | unfinished | restarted | failed => exact .now h
  | broken =>
    cases hloop : findLoop outer with
    | none =>
      refine .now ?_
      simp only [Result, hloop] at h ⊢
      exact h
    | some l =>
      have hlt := hstacked.findLoop_lt hloop
      simp only [Result, hloop] at h
      have hpass := h.pass (S := S) hplace fun l hl =>
        (hright l hl).imp_right fun hn => by simpa using hlt.trans_le hn
      refine hpass.mono le_rfl fun s' hs' => ?_
      simp only [Result, hloop]
      exact hs'

lemma Matches.leave {status : Status} (h : Matches observe status s t)
    (hobserve : ∀ d x, observe (S.endScope d x) = observe x) (depth : ℕ) :
    Matches observe status s { t with data := S.endScope depth t.data } :=
  ⟨h.status, h.executed, h.data.trans (hobserve depth t.data).symm⟩

/-- What a part comes to in the body of a block that is not a loop. -/
lemma Result.up (h : Result observe S m (b :: outer) p r s) (hr : r.1 ≠ .normal)
    (hb : b.blockType ≠ .loop) (hobserve : ∀ d x, observe (S.endScope d x) = observe x) :
    Result observe S n outer p (r.map id ((interpretation S).leave outer.length)) s := by
  obtain ⟨outcome, t⟩ := r
  have hdata : toLoopData S (b :: outer) t.data =
      toLoopData S outer ((interpretation S).leave outer.length t).data := by
    rw [toLoopData, if_neg hb]
    rfl
  cases outcome with
  | normal => exact absurd rfl hr
  | unfinished | failed => exact Matches.leave h hobserve _
  | broken | restarted =>
    simp only [Result, findLoop, if_neg hb, hdata] at h
    simp only [Result, Prod.map]
    cases hloop : findLoop outer with
    | none =>
      rw [hloop] at h
      exact Matches.leave h hobserve _
    | some l =>
      rw [hloop] at h
      exact h

lemma Inside.up (h : Inside S m (b :: outer) s t) (hb : b.blockType ≠ .loop)
    (hn : b.indentLevel = n)
    (hnm : n < m) :
    Settled S n b outer s ((interpretation S).leave outer.length t) ∧
      s.control.indentToSkipTo ≠ some n := by
  obtain ⟨b', hb', h⟩ := h
  have hlt : n < b'.indentLevel := h.indent.symm ▸ hnm
  have hskip : ∀ i ∈ s.control.indentToSkipTo, n < i := by
    intro i hi
    rcases h.skip i hi with h | ⟨rfl, -⟩ <;> omega
  have hpops : ∀ {b₀ outer₀}, Pops m b' (b :: outer) b₀ outer₀ → Pops n b outer b₀ outer₀ := by
    intro b₀ outer₀ hpops
    induction hpops with
    | here => exact .pop hlt hb' hb .here
    | pop hlt hloop hloop' _ ih => exact .pop (hnm.trans hlt) hloop hloop' ih
  refine ⟨⟨⟨h.agrees.running, h.agrees.evaluations, h.agrees.executed⟩, hn, hpops h.pops,
    fun i hi => .inl (hskip i hi), ?_⟩, fun hi => (hskip n hi).false⟩
  rw [(h.pops.endBlocks h.indent hnm.le s.data).2, h.data, endBlocksData, if_pos hlt, if_neg hb,
    endBlocksData_same hn]
  rfl

/-- The body of a branch, with the lines of the other branches behind it. -/
lemma ComesTo.body (h : ComesTo S lines observe fuel s m (b :: outer) p r)
    (hb : b.blockType ≠ .loop) (hn : b.indentLevel = n) (hnm : n < m) (hstacked : Stacked n outer)
    (hobserve : ∀ d x, observe (S.endScope d x) = observe x)
    (hplace : Place lines p (xs ++ after)) (hright : RightOf n xs)
    (hskip : ∀ s' t, s'.control.position = p → Settled S n b outer s' t →
      s'.control.indentToSkipTo ≠ some n → Within S lines 0 s' fun s'' =>
        s''.control.position = p + xs.length ∧ Inside S n outer s'' t) :
    ComesTo S lines observe fuel s n outer (p + xs.length)
      (r.map id ((interpretation S).leave outer.length)) := by
  have hdue : due (r.map id ((interpretation S).leave outer.length)) fuel = due r fuel := rfl
  rw [ComesTo, hdue]
  refine Within.trans (j := 0) h fun s' hs' => ?_
  by_cases hr : r.1 = .normal
  · obtain ⟨outcome, t⟩ := r
    cases hr
    obtain ⟨hp, hinside⟩ := hs'
    obtain ⟨hsettled, hne⟩ := hinside.up hb hn hnm
    exact hskip s' _ hp hsettled hne
  · exact (hs'.up hr hb hobserve).passes hr hstacked hplace hright

lemma ComesTo.follow (h : ComesTo S lines observe fuel s n outer p r)
    (hstacked : Stacked n outer) (hplace : Place lines p (xs ++ after)) (hright : RightOf n xs)
    {next : Trace γ δ → Outcome × Trace γ δ}
    (hnext : ∀ s', s'.control.position = p → Inside S n outer s' r.2 →
      ComesTo S lines observe fuel s' n outer (p + xs.length) (next r.2)) :
    ComesTo S lines observe fuel s n outer (p + xs.length) (follow r next) := by
  by_cases hr : r.1 = .normal
  · obtain ⟨outcome, t⟩ := r
    cases hr
    exact ComesTo.later h fun s' hs' => hnext s' hs'.1 hs'.2
  · have hsame : Library.StructuredPrograms.follow r next = r := by
      obtain ⟨outcome, t⟩ := r
      cases outcome <;> first | exact absurd rfl hr | rfl
    rw [hsame]
    exact Within.trans (j := 0) h fun s' hs' => hs'.passes hr hstacked hplace hright

/-- The body of a loop. -/
lemma ComesTo.followBody {p' : ℕ} (h : ComesTo S lines observe fuel s m (b :: outer) p r)
    (hb : b.blockType = .loop) (hn : b.indentLevel = n) (hm : 0 < m)
    (hobserve : ∀ d x, observe (S.endScope d x) = observe x)
    (hplace : Place lines p rest) (hends : Ends m rest)
    (hcount : Comments rest → b.iterationsDone.toNat < 2 ^ 31)
    {again next : Trace γ δ → Outcome × Trace γ δ}
    (hagain : ∀ s' t, Stands b outer none b.fpos s' t →
      ComesTo S lines observe fuel s' n outer p' (again t))
    (hnext : ∀ s' t, s'.control.position = p → Inside S n outer s' t →
      ComesTo S lines observe fuel s' n outer p' (next t)) :
    ComesTo S lines observe fuel s n outer p'
      (followBody (r.map id ((interpretation S).leave outer.length)) again next) := by
  obtain ⟨outcome, t⟩ := r
  have hfind : findLoop (b :: outer) = some (b, outer) := by rw [findLoop, if_pos hb]
  have hdata : toLoopData S (b :: outer) t.data = S.endScope outer.length t.data := by
    rw [toLoopData, if_pos hb]
  cases outcome with
  | unfinished | failed => exact Within.mono h le_rfl fun _ h => Matches.leave h hobserve _
  | normal =>
    refine ComesTo.later h fun s' hs' => ?_
    obtain ⟨rfl, hinside⟩ := hs'
    exact ComesTo.later (hinside.returns hb hplace hends hm hcount)
      fun s'' hs'' => hagain s'' _ hs''
  | restarted =>
    refine ComesTo.later h fun s' hs' => hagain s' _ ?_
    simp only [Result, hfind, hdata] at hs'
    exact hs'
  | broken =>
    refine ComesTo.later h fun s' hs' => ?_
    simp only [Result, hfind, hdata] at hs'
    exact hnext s' _ hs'.position ⟨_, by simp [BlockState.setType],
      hs'.settled hn fun i hi => (Option.some.inj hi).symm.trans hn⟩

/-- Behind a branch that was taken. -/
def Taken (n : ℕ) (b : BlockState) (s : FileState κ γ δ) : Prop :=
  s.control.indentToSkipTo = some n ∧ b.blockType = .ifFalseHadTrue ∨
    s.control.indentToSkipTo ≠ some n ∧ b.blockType = .ifTrue

lemma Settled.skip_branch (hs : Settled S n b outer s t) (htaken : Taken n b s) (hn : n < 256)
    {cs bs : List (Line κ γ)} (hcs : Comments cs) (hnm : n < m) (hbs : RightOf m bs)
    {command : Command κ γ} {type : BlockType}
    (hcommand : command = .elseCommand ∧ type = .plain ∨
      ∃ k, command = .elifCommand k ∧ type = .ifFalseHadTrue)
    (hplace : Place lines s.control.position (cs ++ ⟨n, command⟩ :: (bs ++ after))) :
    ∃ b : BlockState, b.indentLevel = n ∧ b.blockType = type ∧
      Within S lines 0 s
        (Stands b outer (some n) (s.control.position + cs.length + 1 + bs.length) · t) := by
  have harrives : ∃ b skipped, Arrives S n b outer skipped s t ∧
      (skipped = .ifFalseHadTrue ∨ skipped = .plain ∧ b.blockType = .ifTrue) := by
    rcases htaken with ⟨hskip, htype⟩ | ⟨hskip, htype⟩
    · exact ⟨_, _, hs.arrives_skipped hskip, .inl htype⟩
    · exact ⟨_, _, hs.arrives hskip, .inr ⟨rfl, htype⟩⟩
  obtain ⟨b, skipped, harrives, htaken⟩ := harrives
  refine ⟨b.setType type, harrives.indent, rfl, (hs.agrees.comments hcs hplace).trans (j := 0) ?_⟩
  rintro _ rfl
  have hat : Place lines (s.moved cs.length).control.position _ := hplace.skip
  have hstep := (harrives.moved cs.length).alternative hn hat.head hcommand htaken
  refine (hstep.pass hat.next fun l hl => ?_).step.mono (by omega) fun _ h => h
  exact (hbs l hl).imp_right fun hm => by simpa using hnm.trans_le hm

/-- The other branches are skipped. -/
lemma Laid.skips (h : Laid n code xs) (hk : k = .alternative) (hn : n < 256)
    (hs : Settled S n b outer s t) (htaken : Taken n b s)
    (hplace : Place lines s.control.position (xs ++ after)) :
    Within S lines 0 s fun s' =>
      s'.control.position = s.control.position + xs.length ∧ Inside S n outer s' t := by
  induction h generalizing s b with
  | nothing =>
    refine .now ⟨rfl, b, ?_, hs⟩
    rcases htaken with h | h <;> simp [h.2]
  | @otherwise n m body cs bs hcs hnm hm _ hbody =>
    rw [List.append_assoc, List.cons_append] at hplace
    obtain ⟨b, hb, htype, hskip⟩ := hs.skip_branch htaken hn hcs hnm
      (hbody.rightOf hm) (.inl ⟨rfl, rfl⟩) hplace
    refine hskip.mono le_rfl fun s' hs' => ⟨?_, b, by simp [htype], hs'.settled hb (by simp)⟩
    rw [hs'.position]
    simp only [List.length_append, List.length_cons]
    omega
  | @orElse n m condition body alternative cs bs as hcs hnm hm _ hbody _ _ ih =>
    rw [List.append_assoc, List.cons_append, List.append_assoc] at hplace
    obtain ⟨b, hb, htype, hskip⟩ := hs.skip_branch htaken hn hcs hnm
      (hbody.rightOf hm) (.inr ⟨condition, rfl, rfl⟩) hplace
    refine (hskip.trans (j := 0) fun s' hs' => ?_)
    have hat : Place lines s'.control.position (as ++ after) := by
      rw [hs'.position]
      exact hplace.skip.next.skip
    refine (ih rfl hn (hs'.settled hb (by simp)) (.inl ⟨hs'.skip, htype⟩) hat).mono le_rfl ?_
    rintro s'' ⟨hposition, hinside⟩
    refine ⟨?_, hinside⟩
    rw [hposition, hs'.position]
    simp only [List.length_append, List.length_cons]
    omega
  | _ => cases hk

/-- Loops that end with the file are not repeated too often. -/
def Bounded (fuel : ℕ) (code : Code κ γ k) (after : List (Line κ γ)) : Prop :=
  fuel ≤ 2 ^ 31 ∨ code.EndsOutside ∨ ¬ Comments after

lemma not_comments_append (h : ¬ Comments rest) : ¬ Comments (xs ++ rest) :=
  fun hcs => h fun l hl => hcs l (List.mem_append_right xs hl)

lemma Laid.not_comments {next : Code κ γ .block} (h : Laid n next xs) (hne : next ≠ .done) :
    ¬ Comments xs := by
  intro hcs
  cases h with
  | done => exact hne rfl
  | plain | branch | loop | leaveLoop | restartLoop =>
    exact Bool.false_ne_true (hcs _ (List.mem_append_right _ List.mem_cons_self))

variable (S lines observe) in
/-- What the file comes to in a block, at the alternatives of a branch that was not taken, and where
it returns to a loop. -/
structure Faithful (fuel : ℕ) : Prop where
  block : ∀ {n : ℕ} {outer : List BlockState} {code : Code κ γ .block} {ls after : List (Line κ γ)}
    {s : FileState κ γ δ} {t : Trace γ δ}, Laid n code ls → n < 256 →
    Stacked n outer → Place lines s.control.position (ls ++ after) → Ends n after →
    Inside S n outer s t ∨ Entering n outer s t ∧ code ≠ .done → Bounded fuel code after →
    ComesTo S lines observe fuel s n outer (s.control.position + ls.length)
      (run (interpretation S) fuel code outer.length t)
  alternative : ∀ {n : ℕ} {outer : List BlockState} {b : BlockState} {code : Code κ γ .alternative}
    {ls after : List (Line κ γ)} {s : FileState κ γ δ} {t : Trace γ δ}, Laid n code ls → n < 256 →
    Stacked n outer → Place lines s.control.position (ls ++ after) → Ends (n + 1) after →
    Settled S n b outer s t → s.control.indentToSkipTo = some n → b.blockType = .ifFalseNoneTrue →
    Bounded fuel code after →
    ComesTo S lines observe fuel s n outer (s.control.position + ls.length)
      (run (interpretation S) fuel code outer.length t)
  loop : ∀ {n m : ℕ} {outer : List BlockState} {b : BlockState} {condition : κ}
    {body next : Code κ γ .block} {bs ls after : List (Line κ γ)} {s : FileState κ γ δ}
    {t : Trace γ δ}, b.blockType = .loop → b.indentLevel = n →
    Place lines b.fpos (⟨n, .whileCommand condition⟩ :: (bs ++ (ls ++ after))) →
    n < m → m < 256 → body ≠ .done → Laid m body bs → Laid n next ls → Stacked n outer →
    Ends n after → Stands b outer none b.fpos s t →
    (Comments (ls ++ after) → b.iterationsDone.toNat + 1 + fuel ≤ 2 ^ 31) →
    Bounded fuel (.loop condition body next) after →
    ComesTo S lines observe fuel s n outer (b.fpos + 1 + bs.length + ls.length)
      (run (interpretation S) fuel (.loop condition body next) outer.length t)

lemma run_loop (condition : κ) (body next : Code κ γ .block) (depth : ℕ) (t : Trace γ δ) :
    run (interpretation S) (fuel + 1) (.loop condition body next) depth t =
      if S.eval t.evaluations condition t.data then
        followBody ((run (interpretation S) fuel body (depth + 1)
            { t with evaluations := t.evaluations + 1 }).map id
            ((interpretation S).leave depth))
          (run (interpretation S) fuel (.loop condition body next) depth)
          (run (interpretation S) fuel next depth)
      else run (interpretation S) fuel next depth
        { t with evaluations := t.evaluations + 1 } := rfl

lemma Bounded.pred {code : Code κ γ k} (h : Bounded (fuel + 1) code after) :
    Bounded fuel code after :=
  h.imp_left fun h => by omega

/-- What comes behind a loop, and its body. -/
lemma Bounded.loop {condition : κ} {body next : Code κ γ .block}
    (h : Bounded fuel (.loop condition body next) after) (hnext : Laid n next xs) :
    Bounded fuel next after ∧ (fuel ≤ 2 ^ 31 ∨ ¬ Comments (xs ++ after)) := by
  rcases h with h | h | h
  · exact ⟨.inl h, .inl h⟩
  · by_cases hne : next = .done
    · subst hne
      exact absurd h id
    · refine ⟨.inr (.inl ?_), .inr fun hcs =>
        hnext.not_comments hne fun l hl => hcs l (List.mem_append_left _ hl)⟩
      cases next <;> first | exact absurd rfl hne | exact h
  · exact ⟨.inr (.inr h), .inr (not_comments_append h)⟩

lemma Bounded.branch {condition : κ} {body next : Code κ γ .block} {alternative}
    (h : Bounded fuel (.branch condition body alternative next) after) (hnext : Laid n next xs) :
    Bounded fuel next after ∧ Bounded fuel body (xs ++ after) ∧
      Bounded fuel alternative (xs ++ after) := by
  rcases h with h | h | h
  · exact ⟨.inl h, .inl h, .inl h⟩
  · by_cases hne : next = .done
    · subst hne
      exact ⟨.inr (.inl trivial), .inr (.inl h.1), .inr (.inl h.2)⟩
    · have hcs : ¬ Comments (xs ++ after) := fun hcs =>
        hnext.not_comments hne fun l hl => hcs l (List.mem_append_left _ hl)
      refine ⟨.inr (.inl ?_), .inr (.inr hcs), .inr (.inr hcs)⟩
      cases next <;> first | exact absurd rfl hne | exact h
  · have hcs : ¬ Comments (xs ++ after) := not_comments_append h
    exact ⟨.inr (.inr h), .inr (.inr hcs), .inr (.inr hcs)⟩

/-- The `while` line, and what comes of it. -/
lemma Faithful.whileLine (ih : Faithful S lines observe fuel)
    (hobserve : ∀ d x, observe (S.endScope d x) = observe x)
    (h : Arrives S n b outer skipped s t) (hn : n < 256) {condition : κ}
    {body next : Code κ γ .block} {bs : List (Line κ γ)} {b' : BlockState}
    (hb : b' = loopBlock b s.control.position) (hfpos : b'.fpos = s.control.position)
    (hplace : Place lines s.control.position (⟨n, .whileCommand condition⟩ ::
      (bs ++ (xs ++ after))))
    (hnm : n < m) (hm : m < 256) (hne : body ≠ .done) (hbody : Laid m body bs)
    (hnext : Laid n next xs) (hstacked : Stacked n outer) (hends : Ends n after)
    (hcount : Comments (xs ++ after) → b'.iterationsDone.toNat + 1 + fuel ≤ 2 ^ 31)
    (hbounded : Bounded fuel (.loop condition body next) after) :
    ComesTo S lines observe (fuel + 1) s n outer
      (s.control.position + 1 + bs.length + xs.length)
      (run (interpretation S) (fuel + 1) (.loop condition body next) outer.length t) := by
  apply ComesTo.step
  have hstep := h.whileCommand hn hplace.head
  have hindent : b'.indentLevel = n := by rw [hb, loopBlock_indent, h.indent]
  have htype : b'.blockType = .loop := by rw [hb, loopBlock_type]
  have hat : Place lines (s.control.position + 1) (bs ++ (xs ++ after)) := hplace.next
  rw [← hb] at hstep
  rw [run_loop]
  cases hvalue : S.eval t.evaluations condition t.data with
  | false =>
    rw [hvalue, if_neg Bool.false_ne_true, if_neg Bool.false_ne_true] at hstep
    rw [if_neg Bool.false_ne_true]
    refine ComesTo.later (hstep.pass hat fun l hl => (hbody.rightOf hm l hl).imp_right fun h => by
      simpa using hnm.trans_le h) fun s' hs' => ?_
    have hinside : Inside S n outer s' _ :=
      ⟨_, by simp [BlockState.setType], hs'.settled hindent (by simp)⟩
    have hcomes := ih.block hnext hn hstacked (by rw [hs'.position]; exact hat.skip) hends
      (.inl hinside) (hbounded.loop hnext).1
    rwa [hs'.position] at hcomes
  | true =>
    rw [hvalue, if_pos rfl, if_pos rfl] at hstep
    rw [if_pos rfl]
    have hstack : Stacked m (b' :: outer) := ⟨hindent ▸ hnm, hindent.symm ▸ hstacked⟩
    have hcomes := ih.block hbody hm hstack (by rw [hstep.position]; exact hat)
      (hnext.ends hn hnm (hends.mono hnm.le)) (.inr ⟨hstep.entering (hindent ▸ hnm), hne⟩)
      ((hbounded.loop hnext).2.imp_right .inr)
    rw [hstep.position] at hcomes
    refine hcomes.followBody htype hindent (by omega) hobserve hat.skip
      (hnext.ends hn hnm (hends.mono hnm.le)) (fun hcs => by have := hcount hcs; omega) ?_ ?_
    · intro s' t' hs'
      have hagain := ih.loop htype hindent (by rw [hfpos]; exact hplace) hnm hm hne hbody hnext
        hstacked hends hs' hcount hbounded
      rwa [hfpos] at hagain
    · intro s' t' hposition hinside
      have hbehind := ih.block hnext hn hstacked (by rw [hposition]; exact hat.skip) hends
        (.inl hinside) (hbounded.loop hnext).1
      rwa [hposition] at hbehind

lemma Bounded.append {code : Code κ γ k} (h : Bounded fuel code after) (xs : List (Line κ γ)) :
    Bounded fuel code (xs ++ after) :=
  h.imp_right fun h => h.imp_right not_comments_append

/-- The line of an `if` or `elif` that is reached, and what comes of it. -/
lemma Faithful.conditionLine (ih : Faithful S lines observe fuel)
    (hobserve : ∀ d x, observe (S.endScope d x) = observe x)
    (h : Arrives S n b outer skipped s t) (hn : n < 256) {condition : κ}
    {command : Command κ γ} (hcommand : command = .ifCommand condition ∨
      command = .elifCommand condition ∧ skipped = .ifFalseNoneTrue)
    {body : Code κ γ .block} {alternative : Code κ γ .alternative} {bs : List (Line κ γ)}
    (hplace : Place lines s.control.position (⟨n, command⟩ :: (bs ++ (xs ++ after))))
    (hnm : n < m) (hm : m < 256) (hne : body ≠ .done) (hbody : Laid m body bs)
    (halternative : Laid n alternative xs) (hstacked : Stacked n outer) (hends : Ends (n + 1) after)
    (hbounded : Bounded fuel body after ∧ Bounded fuel alternative after) :
    ComesTo S lines observe fuel (fileStep S lines s) n outer
      (s.control.position + 1 + bs.length + xs.length)
      (if S.eval t.evaluations condition t.data then
        (run (interpretation S) fuel body (outer.length + 1)
          { t with evaluations := t.evaluations + 1 }).map id
          ((interpretation S).leave outer.length)
      else run (interpretation S) fuel alternative outer.length
        { t with evaluations := t.evaluations + 1 }) := by
  have hstep := h.condition hn hplace.head hcommand
  have hat : Place lines (s.control.position + 1) (bs ++ (xs ++ after)) := hplace.next
  have hindent : ∀ type, (b.setType type).indentLevel = n := fun _ => h.indent
  cases hvalue : S.eval t.evaluations condition t.data with
  | false =>
    rw [hvalue, if_neg Bool.false_ne_true, if_neg Bool.false_ne_true] at hstep
    rw [if_neg Bool.false_ne_true]
    refine ComesTo.later (hstep.pass hat fun l hl => (hbody.rightOf hm l hl).imp_right fun h => by
      simpa using hnm.trans_le h) fun s' hs' => ?_
    have hcomes := ih.alternative halternative hn hstacked (by rw [hs'.position]; exact hat.skip)
      hends (hs'.settled (hindent _) (by simp)) hs'.skip rfl hbounded.2
    rwa [hs'.position] at hcomes
  | true =>
    rw [hvalue, if_pos rfl, if_pos rfl] at hstep
    rw [if_pos rfl]
    have hstack : Stacked m (b.setType .ifTrue :: outer) :=
      ⟨(hindent _).symm ▸ hnm, (hindent _).symm ▸ hstacked⟩
    have hcomes := ih.block hbody hm hstack (by rw [hstep.position]; exact hat)
      (halternative.ends hn hnm (hends.mono hnm))
      (.inr ⟨hstep.entering ((hindent _).symm ▸ hnm), hne⟩)
      (hbounded.1.append xs)
    rw [hstep.position] at hcomes
    refine hcomes.body (by simp [BlockState.setType]) (hindent _) hnm hstacked hobserve hat.skip
      (halternative.rightOf hn) fun s' t' hposition hsettled hskip => ?_
    have hrest : Place lines s'.control.position (xs ++ after) := by
      rw [hposition]
      exact hat.skip
    have hskips := halternative.skips rfl hn hsettled (.inr ⟨hskip, rfl⟩) hrest
    rwa [hposition] at hskips

lemma run_branch (condition : κ) (body next : Code κ γ .block) (alternative : Code κ γ .alternative)
    (depth : ℕ) (t : Trace γ δ) :
    run (interpretation S) (fuel + 1) (.branch condition body alternative next) depth t =
      follow
        (if S.eval t.evaluations condition t.data then
          (run (interpretation S) fuel body (depth + 1)
            { t with evaluations := t.evaluations + 1 }).map id
            ((interpretation S).leave depth)
        else run (interpretation S) fuel alternative depth
          { t with evaluations := t.evaluations + 1 })
        (run (interpretation S) fuel next depth) := rfl

lemma Settled.matches (h : Settled S n b outer s t)
    (hobserve : ∀ d x, observe (S.endScope d x) = observe x) : Matches observe .running s t :=
  ⟨h.agrees.running, h.agrees.executed, by rw [← h.data, observe_endBlocksData hobserve]⟩

lemma faithful_zero (hobserve : ∀ d x, observe (S.endScope d x) = observe x) :
    Faithful S lines observe 0 where
  block _ _ _ _ _ h _ := by
    rcases h with ⟨b, -, h⟩ | ⟨h, -⟩
    · exact .now (h.matches hobserve)
    · exact .now ⟨h.agrees.running, h.agrees.executed, congrArg observe h.data⟩
  alternative _ _ _ _ _ h _ _ _ := .now (h.matches hobserve)
  loop _ _ _ _ _ _ _ _ _ _ h _ _ :=
    .now ⟨h.agrees.running, h.agrees.executed, congrArg observe h.data⟩

lemma Arrives.comes {cs : List (Line κ γ)} {q : ℕ} (h : Arrives S n b outer skipped s t)
    (hcs : Comments cs) (hplace : Place lines s.control.position (cs ++ xs))
    (hcomes : Place lines (s.moved cs.length).control.position xs →
      Arrives S n b outer skipped (s.moved cs.length) t →
      ComesTo S lines observe fuel (s.moved cs.length) n outer q r)
    (hq : q = p) : ComesTo S lines observe fuel s n outer p r := by
  refine ComesTo.later (h.agrees.comments hcs hplace) ?_
  rintro _ rfl
  exact hq ▸ hcomes hplace.skip (h.moved cs.length)

lemma ready_shows (h : Inside S n outer s t ∨ Entering n outer s t)
    (hobserve : ∀ d x, observe (S.endScope d x) = observe x) : observe s.data = observe t.data := by
  rcases h with ⟨b, -, h⟩ | h
  · exact (h.matches hobserve).data
  · exact congrArg observe h.data

lemma Faithful.block_succ (ih : Faithful S lines observe fuel)
    (hobserve : ∀ d x, observe (S.endScope d x) = observe x) {code : Code κ γ .block}
    (h : Laid n code xs) (hn : n < 256) (hstacked : Stacked n outer)
    (hplace : Place lines s.control.position (xs ++ after)) (hends : Ends n after)
    (hready : Inside S n outer s t ∨ Entering n outer s t ∧ code ≠ .done)
    (hbounded : Bounded (fuel + 1) code after) :
    ComesTo S lines observe (fuel + 1) s n outer (s.control.position + xs.length)
      (run (interpretation S) (fuel + 1) code outer.length t) := by
  obtain ⟨b, skipped, hb, harrives⟩ :=
    ready_arrives (hready.imp_right And.left)
  have hshows := ready_shows (hready.imp_right And.left) hobserve
  cases h with
  | done hcs =>
    have hinside := hready.resolve_right fun h => h.2 rfl
    refine (harrives.agrees.comments hcs hplace).mono le_rfl ?_
    rintro _ rfl
    exact ⟨rfl, hinside.moved _⟩
  | @plain _ c next cs ls hcs hnext =>
    rw [List.append_assoc, List.cons_append] at hplace
    refine harrives.comes hcs hplace (fun hat harrives => ComesTo.step ?_)
      (q := s.control.position + cs.length + 1 + ls.length) (by simp; omega)
    cases hexec : S.exec c outer.length t.data with
    | none =>
      have hrun : run (interpretation S) (fuel + 1) (.plain c next) outer.length t =
          (.failed, t) := by
        simp [run, interpretation, hexec]
      rw [hrun, harrives.failed hn hat.head hexec]
      exact .now ⟨rfl, harrives.agrees.executed, hshows⟩
    | some x =>
      have hrun : run (interpretation S) (fuel + 1) (.plain c next) outer.length t =
          run (interpretation S) fuel next outer.length
            ⟨t.evaluations, t.executed ++ [c], x⟩ := by
        simp [run, interpretation, hexec]
      have hstep := harrives.plain hn hat.head hexec
      rw [hrun]
      have hcomes := ih.block hnext hn hstacked (by rw [hstep.position]; exact hat.next) hends
        (.inl ⟨b, hb, hstep.settled harrives.indent (by simp)⟩) hbounded.pred
      rwa [hstep.position] at hcomes
  | @branch _ m condition body alternative next cs bs as ls hcs hnm hm hne hbody halternative
      hnext =>
    have hbounds := hbounded.pred.branch hnext
    simp only [List.append_assoc, List.cons_append] at hplace
    refine harrives.comes hcs hplace (fun hat harrives => ComesTo.step ?_)
      (q := s.control.position + cs.length + 1 + bs.length + as.length + ls.length)
      (by simp; omega)
    rw [run_branch]
    have hline := ih.conditionLine hobserve harrives hn (.inl rfl) hat hnm hm hne hbody halternative
      hstacked (hnext.ends hn n.lt_succ_self (hends.mono n.le_succ)) hbounds.2
    refine hline.follow hstacked hat.next.skip.skip (hnext.rightOf hn)
      fun s' hposition hinside => ?_
    have hcomes := ih.block hnext hn hstacked (by rw [hposition]; exact hat.next.skip.skip) hends
      (.inl hinside) hbounds.1
    rwa [hposition] at hcomes
  | @loop _ m condition body next cs bs ls hcs hnm hm hne hbody hnext =>
    simp only [List.append_assoc, List.cons_append] at hplace
    refine harrives.comes hcs hplace (fun hat harrives => ?_)
      (q := s.control.position + cs.length + 1 + bs.length + ls.length) (by simp; omega)
    refine ih.whileLine hobserve harrives hn rfl ?_ hat hnm hm hne hbody hnext hstacked hends ?_
      hbounded.pred
    · rw [loopBlock, if_neg hb]
      rfl
    · intro hcs
      rw [loopBlock, if_neg hb]
      have hle := (hbounded.loop hnext).2.resolve_right fun h => h hcs
      have hzero : (b.setLoopBlock (s.moved cs.length).control.position).iterationsDone.toNat = 0 :=
        rfl
      omega
  | @leaveLoop _ next cs ls hcs hnext =>
    rw [List.append_assoc, List.cons_append] at hplace
    refine harrives.comes hcs hplace (fun hat harrives => ComesTo.step ?_)
      (q := s.control.position + cs.length + 1 + ls.length) (by simp; omega)
    have hleave := harrives.leave observe hn hstacked hobserve hat.head
      (.inl ⟨rfl, rfl⟩)
    exact hleave.passes (by simp) hstacked hat.next (hnext.rightOf hn)
  | @restartLoop _ next cs ls hcs hnext =>
    rw [List.append_assoc, List.cons_append] at hplace
    refine harrives.comes hcs hplace (fun hat harrives => ComesTo.step ?_)
      (q := s.control.position + cs.length + 1 + ls.length) (by simp; omega)
    have hleave := harrives.leave observe hn hstacked hobserve hat.head
      (.inr ⟨rfl, rfl⟩)
    exact hleave.passes (by simp) hstacked hat.next (hnext.rightOf hn)

lemma Faithful.alternative_succ (ih : Faithful S lines observe fuel)
    (hobserve : ∀ d x, observe (S.endScope d x) = observe x) {code : Code κ γ .alternative}
    (h : Laid n code xs) (hn : n < 256) (hstacked : Stacked n outer)
    (hplace : Place lines s.control.position (xs ++ after)) (hends : Ends (n + 1) after)
    (hs : Settled S n b outer s t) (hskip : s.control.indentToSkipTo = some n)
    (htype : b.blockType = .ifFalseNoneTrue) (hbounded : Bounded (fuel + 1) code after) :
    ComesTo S lines observe (fuel + 1) s n outer (s.control.position + xs.length)
      (run (interpretation S) (fuel + 1) code outer.length t) := by
  have harrives := hs.arrives_skipped hskip
  rw [htype] at harrives
  cases h with
  | nothing => exact .now ⟨rfl, b, by simp [htype], hs⟩
  | @otherwise _ m body cs bs hcs hnm hm hne hbody =>
    simp only [List.append_assoc, List.cons_append] at hplace
    refine harrives.comes hcs hplace (fun hat harrives => ComesTo.step ?_)
      (q := s.control.position + cs.length + 1 + bs.length + 0) (by simp; omega)
    have hstep := harrives.otherwise hn hat.head
    have hindent : ((b.setType .plain).setType .plain).indentLevel = n := harrives.indent
    have hstack : Stacked m ((b.setType .plain).setType .plain :: outer) :=
      ⟨hindent.symm ▸ hnm, hindent.symm ▸ hstacked⟩
    have hcomes := ih.block hbody hm hstack (by rw [hstep.position]; exact hat.next)
      (hends.mono hnm) (.inr ⟨hstep.entering (hindent.symm ▸ hnm), hne⟩) hbounded.pred
    rw [hstep.position] at hcomes
    refine hcomes.body (by simp [BlockState.setType]) hindent hnm hstacked hobserve
      (show Place lines _ ([] ++ after) from hat.next.skip) nofun
      fun s' t' hposition hsettled _ => ?_
    exact .now ⟨hposition, _, by simp [BlockState.setType], hsettled⟩
  | @orElse _ m condition body alternative cs bs as hcs hnm hm hne hbody halternative =>
    simp only [List.append_assoc, List.cons_append] at hplace
    refine harrives.comes hcs hplace (fun hat harrives => ComesTo.step ?_)
      (q := s.control.position + cs.length + 1 + bs.length + as.length) (by simp; omega)
    have hbounds : Bounded fuel body after ∧ Bounded fuel alternative after := by
      rcases hbounded.pred with h | h | h
      · exact ⟨.inl h, .inl h⟩
      · exact ⟨.inr (.inl h.1), .inr (.inl h.2)⟩
      · exact ⟨.inr (.inr h), .inr (.inr h)⟩
    exact ih.conditionLine hobserve harrives hn (.inr ⟨rfl, rfl⟩) hat hnm hm hne hbody halternative
      hstacked hends hbounds

lemma faithful (hobserve : ∀ d x, observe (S.endScope d x) = observe x) (fuel : ℕ) :
    Faithful S lines observe fuel := by
  induction fuel with
  | zero => exact faithful_zero hobserve
  | succ fuel ih =>
    constructor
    · intro n outer code ls after s t h hn hstacked hplace hends hready hbounded
      exact ih.block_succ hobserve h hn hstacked hplace hends hready hbounded
    · intro n outer b code ls after s t h hn hstacked hplace hends hs hskip htype hbounded
      exact ih.alternative_succ hobserve h hn hstacked hplace hends hs hskip htype hbounded
    · intro n m outer b condition body next bs ls after s t htype hindent hplace hnm hm hne hbody
        hnext hstacked hends hs hcount hbounded
      have hn : n < 256 := hnm.trans hm
      have hloop : loopBlock b s.control.position = b.incrementIterations := by
        rw [loopBlock, if_pos htype]
      have hcomes := ih.whileLine hobserve (hs.arrives hindent) hn hloop.symm hs.position.symm
        (by rw [hs.position]; exact hplace) hnm hm hne hbody hnext hstacked hends ?_ hbounded.pred
      · rwa [hs.position] at hcomes
      · intro hcs
        have hle := hcount hcs
        have hadd : b.incrementIterations.iterationsDone.toNat = b.iterationsDone.toNat + 1 := by
          rw [BlockState.incrementIterations, UInt32.toNat_add, UInt32.toNat_one]
          omega
        omega

variable (κ) in
def FileState.start (x : δ) : FileState κ γ δ := ⟨MetaCommands.start κ γ, x⟩

def statusOf : Outcome → Status
  | .unfinished => .running
  | .normal => .finished
  | .broken | .restarted | .failed => .aborted

lemma Inside.finishes (h : Inside S n [] s t) (hend : lines[s.control.position]? = none) :
    fileStep S lines s = { s with control := { s.control with status := .finished } } := by
  have hrun : s.control.status = .running := h.elim fun _ h => h.2.agrees.running
  have hit : ¬ 0 ≤ getIterations s.control := by
    rw [getIterations, h.closestLoop]
    decide
  rw [fileStep, if_pos hrun]
  simp only [nextCommand, hend, if_neg hit, step]
  rw [if_pos hrun]

variable (observe) in
/-- A file that is laid out like a program does what the program does. -/
theorem file_runs_program {code : Code κ γ .block} (h : Laid 0 code lines)
    (hobserve : ∀ d x, observe (S.endScope d x) = observe x)
    (hfuel : fuel ≤ 2 ^ 31 ∨ code.EndsOutside) (x : δ) :
    ∃ k, ((run (interpretation S) fuel code 0 ⟨0, [], x⟩).1 = .unfinished → fuel ≤ k) ∧
      Matches observe (statusOf (run (interpretation S) fuel code 0 ⟨0, [], x⟩).1)
        ((fileStep S lines)^[k] (.start κ x))
        (run (interpretation S) fuel code 0 ⟨0, [], x⟩).2 := by
  have hinside : Inside S 0 [] (FileState.start (γ := γ) κ x) ⟨0, [], x⟩ :=
    ⟨(start κ γ).block, by simp [start],
      Settled.clean (s := .start κ x) ⟨rfl, rfl, rfl⟩ rfl (by simp [FileState.start, start]) rfl⟩
  have hplace : Place lines (FileState.start (γ := γ) κ x).control.position (lines ++ []) := by
    rw [List.append_nil]
    rfl
  have hcomes := (faithful hobserve fuel).block h (by decide) (show Stacked 0 [] from trivial)
    hplace trivial (.inl hinside) (hfuel.imp_right .inl)
  rw [ComesTo] at hcomes
  generalize run (interpretation S) fuel code 0 ⟨0, [], x⟩ = r at hcomes ⊢
  obtain ⟨outcome, t⟩ := r
  cases outcome with
  | unfinished =>
    obtain ⟨k, hk, hmatches⟩ := hcomes
    exact ⟨k, fun _ => hk, hmatches⟩
  | broken | restarted | failed =>
    obtain ⟨k, hk, hmatches⟩ := hcomes
    exact ⟨k, nofun, hmatches⟩
  | normal =>
    obtain ⟨k, hk, hposition, hinside⟩ := hcomes
    refine ⟨k + 1, nofun, ?_⟩
    have hend : lines[((fileStep S lines)^[k] (.start κ x)).control.position]? = none := by
      rw [hposition]
      exact hplace.skip.end
    have hfinishes := hinside.finishes hend
    obtain ⟨b, -, hsettled⟩ := hinside
    have hmatches := hsettled.matches hobserve
    rw [Function.iterate_succ_apply', hfinishes]
    exact ⟨rfl, hmatches.executed, hmatches.data⟩

end Results

section Plain
variable {κ γ : Type*} {oracle : ℕ → κ → Bool} {lines : List (Line κ γ)} {fuel : ℕ}

variable (γ) in
def plainScoping (oracle : ℕ → κ → Bool) : Scoping κ γ Unit where
  eval evaluations condition _ := oracle evaluations condition
  exec _ _ x := some x
  endScope _ x := x

lemma fileStep_plain (s : FileState κ γ Unit) :
    (fileStep (plainScoping γ oracle) lines s).control = step oracle lines s.control := by
  have hcommand : ∀ b outer (command : Command κ γ) x,
      commandData (plainScoping γ oracle) b outer command x = some () := by
    intro b outer command x
    cases command <;> rfl
  have hdata : ∀ control commandIndent (command : Command κ γ) x,
      checkData (plainScoping γ oracle) control commandIndent command x = some () := by
    intro control commandIndent command x
    simp only [checkData, hcommand, ite_self]
  rw [fileStep]
  split
  · cases nextCommand lines s.control with
    | none => rfl
    | some next => simp only [hdata]; rfl
  · rw [step, if_neg ‹_›]

lemma iterate_plain (k : ℕ) (s : FileState κ γ Unit) :
    ((fileStep (plainScoping γ oracle) lines)^[k] s).control =
      (step oracle lines)^[k] s.control := by
  have hsemi : Function.Semiconj FileState.control (fileStep (plainScoping γ oracle) lines)
      (step oracle lines) := fileStep_plain
  exact (hsemi.iterate_right k).eq s

theorem conditional_commands_structured {code : Code κ γ .block} (h : Laid 0 code lines)
    (hfuel : fuel ≤ 2 ^ 31 ∨ code.EndsOutside) :
    ∃ k, ((run (interpretation (plainScoping γ oracle)) fuel code 0 ⟨0, [], ()⟩).1 = .unfinished →
        fuel ≤ k) ∧
      ((step oracle lines)^[k] (start κ γ)).status =
        statusOf (run (interpretation (plainScoping γ oracle)) fuel code 0 ⟨0, [], ()⟩).1 ∧
      ((step oracle lines)^[k] (start κ γ)).executed =
        (run (interpretation (plainScoping γ oracle)) fuel code 0 ⟨0, [], ()⟩).2.executed := by
  obtain ⟨k, hk, hmatches⟩ := file_runs_program (S := plainScoping γ oracle) id h
    (fun _ _ => rfl) hfuel ()
  have hcontrol : ((fileStep (plainScoping γ oracle) lines)^[k] (.start κ ())).control =
      (step oracle lines)^[k] (start κ γ) := iterate_plain k _
  refine ⟨k, hk, ?_, ?_⟩
  · rw [← hmatches.status, hcontrol]
  · rw [← hmatches.executed, hcontrol]

/-- A loop that is left at the second `break` that is reached. -/
theorem conditional_commands_structured_break :
    ∃ k, ((step (fun i _ => decide (i ≠ 1))
        [⟨0, .whileCommand ()⟩, ⟨2, .plain 1⟩, ⟨2, .ifCommand ()⟩, ⟨4, .breakCommand⟩,
          ⟨0, .plain 2⟩])^[k] (start Unit ℕ)).executed = [1, 1, 2] := by
  obtain ⟨k, -, -, hexecuted⟩ := @conditional_commands_structured _ _ (fun i _ => decide (i ≠ 1))
    _ 9 (.loop () (.plain 1 (.branch () (.leaveLoop .done) .nothing .done)) (.plain 2 .done))
    (.loop (r := []) (m := 2) nofun (by decide) (by decide) nofun
      (.plain (r := []) nofun (.branch (r := []) (m := 4) nofun (by decide) (by decide) nofun
        (.leaveLoop (r := []) nofun (.done (r := []) nofun)) .nothing (.done (r := []) nofun)))
      (.plain (r := []) nofun (.done (r := []) nofun)))
    (.inl (by decide))
  exact ⟨k, hexecuted⟩

end Plain

end RepRapFirmware.GCodes.MetaCommands
