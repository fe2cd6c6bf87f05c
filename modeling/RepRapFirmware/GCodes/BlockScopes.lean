import RepRapFirmware.GCodes.MetaCommands
import RepRapFirmware.Library.StructuredPrograms

/-! The commands of a G-code file together with the data whose scope is a block: `EndBlock` ends the
scope of what was made in the block. Well-indented files, and how the file is read and processed. -/

namespace RepRapFirmware.GCodes.MetaCommands

open Library.StructuredPrograms

/-- What a condition is found to be, what a plain command does to the data in a nesting of blocks,
if it is not an error, and what `EndScope` leaves of the data. -/
structure Scoping (κ γ δ : Type*) where
  eval : ℕ → κ → δ → Bool
  exec : γ → ℕ → δ → Option δ
  endScope : ℕ → δ → δ

def Scoping.oracle {κ γ δ : Type*} (S : Scoping κ γ δ) (x : δ) : ℕ → κ → Bool :=
  fun evaluations condition => S.eval evaluations condition x

structure FileState (κ γ δ : Type*) where
  control : State κ γ
  data : δ

section Step
variable {κ γ δ : Type*} (S : Scoping κ γ δ)

/-- What the calls of `EndBlock` in `endBlocks` do to the data. -/
def endBlocksData (commandIndent : ℕ) : BlockState → List BlockState → δ → δ
  | _, [], x => x
  | b, b' :: outer, x =>
    if commandIndent < b.indentLevel then
      if b'.blockType = .loop then S.endScope outer.length x
      else endBlocksData commandIndent b' outer (S.endScope outer.length x)
    else x

/-- What the calls of `EndBlock` in `endToLoop` do to the data. -/
def endToLoopData : BlockState → List BlockState → δ → δ
  | _, [], x => x
  | b, b' :: outer, x =>
    if b.indentLevel = 0 then x
    else if b'.blockType = .loop then S.endScope outer.length x
    else endToLoopData b' outer (S.endScope outer.length x)

def commandData (b : BlockState) (outer : List BlockState) : Command κ γ → δ → Option δ
  | .plain c, x => S.exec c outer.length x
  | .breakCommand, x | .continueCommand, x => some (endToLoopData S b outer x)
  | _, x => some x

/-- What `checkMetaCommand` does to the data. -/
def checkData (s : State κ γ) (commandIndent : ℕ) (command : Command κ γ) (x : δ) : Option δ :=
  if command.isComment || s.indentToSkipTo.any (· < commandIndent) then some x
  else
    let x := endBlocksData S commandIndent s.block s.outer x
    let ((b, outer), loop) := endBlocks commandIndent s.block s.outer
    if loop then some x
    else if b.indentLevel < commandIndent then
      commandData S ⟨0, 0, commandIndent, .plain⟩ (b :: outer) command x
    else commandData S b outer command x

/-- The indentation and the command of the next line, or of the dummy command at the end of the
file. -/
def nextCommand (lines : List (Line κ γ)) (s : State κ γ) : Option (ℕ × Command κ γ) :=
  match lines[s.position]? with
  | some l => some (l.commandIndent, l.command)
  | none => if 0 ≤ getIterations s then some (0, .skipCommand) else none

/-- An error in a plain command ends the file as well. -/
def fileStep (lines : List (Line κ γ)) (s : FileState κ γ δ) : FileState κ γ δ :=
  if s.control.status = .running then
    match nextCommand lines s.control with
    | none => { s with control := step (S.oracle s.data) lines s.control }
    | some (commandIndent, command) =>
      match checkData S s.control commandIndent command s.data with
      | some x => ⟨step (S.oracle x) lines s.control, x⟩
      | none => { s with control := { s.control with status := .aborted } }
  else s

/-- What a structured program has come to. -/
structure Trace (γ δ : Type*) where
  evaluations : ℕ
  executed : List γ
  data : δ

def interpretation : Interpretation κ γ (Trace γ δ) where
  exec c depth t := (S.exec c depth t.data).map fun x => ⟨t.evaluations, t.executed ++ [c], x⟩
  eval condition t :=
    (S.eval t.evaluations condition t.data, { t with evaluations := t.evaluations + 1 })
  enter t := t
  leave depth t := { t with data := S.endScope depth t.data }

end Step

section Layout
variable {κ γ : Type*}

def Comments (ls : List (Line κ γ)) : Prop := ∀ l ∈ ls, l.command.isComment = true

/-- The lines of a program whose blocks are at column `n`. A body is not empty and stands further to
the right; comments stand anywhere between the lines. -/
inductive Laid : ℕ → {k : Kind} → Code κ γ k → List (Line κ γ) → Prop
  | done {n r} : Comments r → Laid n .done r
  | plain {n c next r ls} : Comments r → Laid n next ls →
      Laid n (.plain c next) (r ++ ⟨n, .plain c⟩ :: ls)
  | branch {n m condition body alternative next r bs as ls} : Comments r →
      n < m → m < 256 → body ≠ .done → Laid m body bs → Laid n alternative as → Laid n next ls →
      Laid n (.branch condition body alternative next)
        (r ++ ⟨n, .ifCommand condition⟩ :: (bs ++ (as ++ ls)))
  | loop {n m condition body next r bs ls} : Comments r →
      n < m → m < 256 → body ≠ .done → Laid m body bs → Laid n next ls →
      Laid n (.loop condition body next) (r ++ ⟨n, .whileCommand condition⟩ :: (bs ++ ls))
  | leaveLoop {n next r ls} : Comments r → Laid n next ls →
      Laid n (.leaveLoop next) (r ++ ⟨n, .breakCommand⟩ :: ls)
  | restartLoop {n next r ls} : Comments r → Laid n next ls →
      Laid n (.restartLoop next) (r ++ ⟨n, .continueCommand⟩ :: ls)
  | nothing {n} : Laid n .nothing []
  | otherwise {n m body r bs} : Comments r → n < m → m < 256 → body ≠ .done →
      Laid m body bs → Laid n (.otherwise body) (r ++ ⟨n, .elseCommand⟩ :: bs)
  | orElse {n m condition body alternative r bs as} : Comments r →
      n < m → m < 256 → body ≠ .done → Laid m body bs → Laid n alternative as →
      Laid n (.orElse condition body alternative)
        (r ++ ⟨n, .elifCommand condition⟩ :: (bs ++ as))

variable {lines ls ls' after cs : List (Line κ γ)} {l : Line κ γ} {n m : ℕ} {k : Kind}
  {code : Code κ γ k}

/-- The lines are at least at column `n`. -/
def RightOf (n : ℕ) (ls : List (Line κ γ)) : Prop :=
  ∀ l ∈ ls, l.command.isComment = true ∨ n ≤ l.commandIndent

lemma RightOf.append (h : RightOf n ls) (h' : RightOf n ls') : RightOf n (ls ++ ls') := by
  intro l hl
  rcases List.mem_append.mp hl with hl | hl
  · exact h l hl
  · exact h' l hl

lemma RightOf.mono (h : RightOf m ls) (hnm : n ≤ m) : RightOf n ls :=
  fun l hl => (h l hl).imp_right hnm.trans

lemma Comments.rightOf (h : Comments cs) (n : ℕ) : RightOf n cs := fun l hl => .inl (h l hl)

lemma rightOf_cons {command : Command κ γ} (hn : n < 256) (h : RightOf n ls) :
    RightOf n (⟨n, command⟩ :: ls) := by
  intro l hl
  rcases List.mem_cons.mp hl with rfl | hl
  · exact .inr (Nat.mod_eq_of_lt hn).ge
  · exact h l hl

lemma Laid.rightOf (h : Laid n code ls) (hn : n < 256) : RightOf n ls := by
  induction h with
  | done hcs => exact hcs.rightOf _
  | plain hcs _ ih | leaveLoop hcs _ ih | restartLoop hcs _ ih =>
    exact (hcs.rightOf _).append (rightOf_cons hn (ih hn))
  | branch hcs hnm hm _ _ _ _ ihb iha ih =>
    exact (hcs.rightOf _).append
      (rightOf_cons hn (((ihb hm).mono hnm.le).append ((iha hn).append (ih hn))))
  | loop hcs hnm hm _ _ _ ihb ih | orElse hcs hnm hm _ _ _ ihb ih =>
    exact (hcs.rightOf _).append (rightOf_cons hn (((ihb hm).mono hnm.le).append (ih hn)))
  | nothing => exact nofun
  | otherwise hcs hnm hm _ _ ihb =>
    exact (hcs.rightOf _).append (rightOf_cons hn ((ihb hm).mono hnm.le))

/-- The first line that is not a comment is to the left of column `n`. -/
def Ends (n : ℕ) : List (Line κ γ) → Prop
  | [] => True
  | l :: ls => if l.command.isComment then Ends n ls else l.commandIndent < n

lemma Ends.mono (h : Ends n ls) (hnm : n ≤ m) : Ends m ls := by
  induction ls with
  | nil => trivial
  | cons l ls ih =>
    rw [Ends] at h ⊢
    split at h
    · rw [if_pos (by assumption)]
      exact ih h
    · rw [if_neg (by assumption)]
      omega

lemma ends_append (hcs : Comments cs) : Ends n (cs ++ ls) ↔ Ends n ls := by
  induction cs with
  | nil => rfl
  | cons c cs ih =>
    rw [List.cons_append, Ends, if_pos (hcs c List.mem_cons_self)]
    exact ih fun l hl => hcs l (List.mem_cons_of_mem c hl)

lemma ends_command {command : Command κ γ} (hcs : Comments cs) (hn : n < 256) (hnm : n < m)
    (hc : command.isComment = false) (after : List (Line κ γ)) :
    Ends m (cs ++ ⟨n, command⟩ :: ls ++ after) := by
  rw [List.append_assoc, ends_append hcs, List.cons_append, Ends, hc, if_neg Bool.false_ne_true]
  exact (Nat.mod_eq_of_lt hn).trans_lt hnm

/-- What follows a body starts further to the left. -/
lemma Laid.ends (h : Laid n code ls) (hn : n < 256) (hnm : n < m) (hafter : Ends m after) :
    Ends m (ls ++ after) := by
  cases h with
  | done hcs => exact (ends_append hcs).mpr hafter
  | nothing => exact hafter
  | plain hcs | branch hcs | loop hcs | leaveLoop hcs | restartLoop hcs | otherwise hcs
  | orElse hcs => exact ends_command hcs hn hnm rfl after

/-- Blocks are not nested deeper than there are columns. -/
lemma Laid.nesting (h : Laid n code ls) (hn : n < 256) : n + code.nesting ≤ 255 := by
  induction h with
  | done | nothing => exact Nat.le_of_lt_succ hn
  | plain _ _ ih | leaveLoop _ _ ih | restartLoop _ _ ih => exact ih hn
  | branch _ hnm hm _ _ _ _ ihb iha ih =>
    have := ihb hm
    have := iha hn
    have := ih hn
    simp only [Code.nesting]
    omega
  | loop _ hnm hm _ _ _ ihb ih | orElse _ hnm hm _ _ _ ihb ih =>
    have := ihb hm
    have := ih hn
    simp only [Code.nesting]
    omega
  | otherwise _ hnm hm _ _ ihb =>
    have := ihb hm
    simp only [Code.nesting]
    omega

/-- Either only comments are left, or the next line comes behind some comments. -/
lemma comments_or_line (ls : List (Line κ γ)) :
    Comments ls ∨
      ∃ cs l rest, ls = cs ++ l :: rest ∧ Comments cs ∧ l.command.isComment = false := by
  induction ls with
  | nil => exact .inl nofun
  | cons l ls ih =>
    cases hl : l.command.isComment with
    | false => exact .inr ⟨[], l, ls, rfl, nofun, hl⟩
    | true =>
      rcases ih with h | ⟨cs, l', rest, rfl, hcs, hl'⟩
      · exact .inl (List.forall_mem_cons.mpr ⟨hl, h⟩)
      · exact .inr ⟨l :: cs, l', rest, rfl, List.forall_mem_cons.mpr ⟨hl, hcs⟩, hl'⟩

/-- The lines that stand at a place of the file. -/
def Place (lines : List (Line κ γ)) (p : ℕ) (ls : List (Line κ γ)) : Prop := lines.drop p = ls

lemma Place.skip {p : ℕ} (h : Place lines p (ls ++ ls')) : Place lines (p + ls.length) ls' := by
  rw [Place, ← List.drop_drop, show lines.drop p = ls ++ ls' from h, List.drop_left]

lemma Place.next {p : ℕ} (h : Place lines p (l :: ls)) : Place lines (p + 1) ls :=
  show Place lines (p + [l].length) ls from Place.skip h

lemma Place.head {p : ℕ} (h : Place lines p (l :: ls)) : lines[p]? = some l := by
  rw [← List.head?_drop, show lines.drop p = l :: ls from h, List.head?_cons]

lemma Place.end {p : ℕ} (h : Place lines p []) : lines[p]? = none := by
  rw [← List.head?_drop, show lines.drop p = [] from h, List.head?_nil]

end Layout

/-- The column of a line is what the parser counts of its leading blanks and tabs. -/
theorem commandIndent_line {κ γ : Type*} (leading : List UInt8) (g : StringParser.GCodeBuffer)
    (command : Command κ γ)
    (h : ∀ c ∈ leading, c = StringParser.char ' ' ∨ c = StringParser.char '\t') :
    (leading.foldl StringParser.parseNotStarted (StringParser.init g)).commandIndent.toNat =
      (Line.mk (column leading) command).commandIndent := by
  rw [commandIndent_leading leading (StringParser.init g) h rfl]
  exact UInt8.toNat_ofNat'

theorem commandIndent_line_tabs :
    ([9, 9, 32].foldl StringParser.parseNotStarted (StringParser.init
      ⟨.ready, [], 0, 0, 7, 0, 0, 0, 0, 0, 0, false, false, false, false, false, false, false, 0,
        false, false, false, false, false⟩)).commandIndent.toNat = 9 :=
  commandIndent_line (κ := Unit) (γ := Unit) [9, 9, 32] _ .comment (by decide +kernel)

end RepRapFirmware.GCodes.MetaCommands
