import Mathlib.Tactic

/-! Structured programs over any commands, conditions and states: branches with alternatives, loops
that can be left or restarted from inside, and data that ends with the block it was made in. -/

namespace RepRapFirmware.Library.StructuredPrograms

inductive Kind
  | block | alternative

inductive Code (κ γ : Type*) : Kind → Type _
  | done : Code κ γ .block
  | plain (c : γ) (next : Code κ γ .block) : Code κ γ .block
  | branch (condition : κ) (body : Code κ γ .block) (alternative : Code κ γ .alternative)
      (next : Code κ γ .block) : Code κ γ .block
  | loop (condition : κ) (body next : Code κ γ .block) : Code κ γ .block
  | leaveLoop (next : Code κ γ .block) : Code κ γ .block
  | restartLoop (next : Code κ γ .block) : Code κ γ .block
  | nothing : Code κ γ .alternative
  | otherwise (body : Code κ γ .block) : Code κ γ .alternative
  | orElse (condition : κ) (body : Code κ γ .block) (alternative : Code κ γ .alternative) :
      Code κ γ .alternative

/-- What commands and conditions do to a state, and what becomes of it where a block that is nested
in `depth` others begins and ends. A command can fail. -/
structure Interpretation (κ γ σ : Type*) where
  exec : γ → ℕ → σ → Option σ
  eval : κ → σ → Bool × σ
  enter : σ → σ
  leave : ℕ → σ → σ

inductive Outcome
  | unfinished | normal | broken | restarted | failed

variable {κ γ σ τ : Type*}

/-- What a part of a program comes to, followed by what comes behind it. -/
def follow (r : Outcome × σ) (next : σ → Outcome × σ) : Outcome × σ :=
  match r.1 with
  | .normal => next r.2
  | _ => r

/-- What the body of a loop comes to, followed by the loop again or by what comes behind it. -/
def followBody (r : Outcome × σ) (again next : σ → Outcome × σ) : Outcome × σ :=
  match r.1 with
  | .normal | .restarted => again r.2
  | .broken => next r.2
  | _ => r

variable (M : Interpretation κ γ σ)

/-- The fuel bounds the depth of the evaluation. -/
def run : ℕ → {k : Kind} → Code κ γ k → ℕ → σ → Outcome × σ
  | 0, _, _, _, s => (.unfinished, s)
  | _ + 1, _, .done, _, s | _ + 1, _, .nothing, _, s => (.normal, s)
  | fuel + 1, _, .plain c next, depth, s =>
    (M.exec c depth s).elim (.failed, s) (run fuel next depth)
  | fuel + 1, _, .branch condition body alternative next, depth, s =>
    let (value, s) := M.eval condition s
    follow
      (if value then (run fuel body (depth + 1) (M.enter s)).map id (M.leave depth)
      else run fuel alternative depth s)
      (run fuel next depth)
  | fuel + 1, _, .loop condition body next, depth, s =>
    let (value, s) := M.eval condition s
    if value then
      followBody ((run fuel body (depth + 1) (M.enter s)).map id (M.leave depth))
        (run fuel (.loop condition body next) depth) (run fuel next depth)
    else run fuel next depth s
  | _ + 1, _, .leaveLoop _, _, s => (.broken, s)
  | _ + 1, _, .restartLoop _, _, s => (.restarted, s)
  | fuel + 1, _, .otherwise body, depth, s =>
    (run fuel body (depth + 1) (M.enter s)).map id (M.leave depth)
  | fuel + 1, _, .orElse condition body alternative, depth, s =>
    let (value, s) := M.eval condition s
    if value then (run fuel body (depth + 1) (M.enter s)).map id (M.leave depth)
    else run fuel alternative depth s

/-- The last command of a block at its own level is not a loop and has none at the end of a body. -/
def Code.EndsOutside : {k : Kind} → Code κ γ k → Prop
  | _, .done | _, .nothing => True
  | _, .plain _ next | _, .leaveLoop next | _, .restartLoop next => next.EndsOutside
  | _, .branch _ body alternative .done => body.EndsOutside ∧ alternative.EndsOutside
  | _, .loop _ _ .done => False
  | _, .branch _ _ _ next | _, .loop _ _ next => next.EndsOutside
  | _, .otherwise body => body.EndsOutside
  | _, .orElse _ body alternative => body.EndsOutside ∧ alternative.EndsOutside

def Code.nesting : {k : Kind} → Code κ γ k → ℕ
  | _, .done | _, .nothing => 0
  | _, .plain _ next | _, .leaveLoop next | _, .restartLoop next => next.nesting
  | _, .branch _ body alternative next =>
    max (body.nesting + 1) (max alternative.nesting next.nesting)
  | _, .loop _ body next => max (body.nesting + 1) next.nesting
  | _, .otherwise body => body.nesting + 1
  | _, .orElse _ body alternative => max (body.nesting + 1) alternative.nesting

/-- The two interpretations keep a relation that may depend on the depth, down to a `bound`. -/
structure Related (M : Interpretation κ γ σ) (N : Interpretation κ γ τ) (R : ℕ → σ → τ → Prop)
    (bound : ℕ) : Prop where
  exec : ∀ c depth s t, R depth s t → Option.Rel (R depth) (M.exec c depth s) (N.exec c depth t)
  eval : ∀ k depth s t, R depth s t →
    (M.eval k s).1 = (N.eval k t).1 ∧ R depth (M.eval k s).2 (N.eval k t).2
  enter : ∀ depth s t, R depth s t → R (depth + 1) (M.enter s) (N.enter t)
  leave : ∀ depth s t, depth < bound → R (depth + 1) s t →
    R depth (M.leave depth s) (N.leave depth t)

def Alike (R : σ → τ → Prop) (r : Outcome × σ) (r' : Outcome × τ) : Prop :=
  r.1 = r'.1 ∧ R r.2 r'.2

variable {M} {N : Interpretation κ γ τ} {R : ℕ → σ → τ → Prop} {bound : ℕ}

lemma Alike.follow {P : σ → τ → Prop} {r : Outcome × σ} {r' : Outcome × τ} {next next'}
    (h : Alike P r r') (hnext : ∀ s t, P s t → Alike P (next s) (next' t)) :
    Alike P (follow r next) (follow r' next') := by
  obtain ⟨outcome, s⟩ := r
  obtain ⟨_, t⟩ := r'
  obtain ⟨rfl, hP⟩ := h
  cases outcome with
  | normal => exact hnext s t hP
  | _ => exact ⟨rfl, hP⟩

lemma Alike.followBody {P : σ → τ → Prop} {r : Outcome × σ} {r' : Outcome × τ}
    {again again' next next'} (h : Alike P r r')
    (hagain : ∀ s t, P s t → Alike P (again s) (again' t))
    (hnext : ∀ s t, P s t → Alike P (next s) (next' t)) :
    Alike P (followBody r again next) (followBody r' again' next') := by
  obtain ⟨outcome, s⟩ := r
  obtain ⟨_, t⟩ := r'
  obtain ⟨rfl, hP⟩ := h
  cases outcome with
  | normal | restarted => exact hagain s t hP
  | broken => exact hnext s t hP
  | _ => exact ⟨rfl, hP⟩

/-- Two interpretations that keep a relation give the same outcomes and related states. -/
theorem run_alike (h : Related M N R bound) (fuel : ℕ) {k : Kind} (code : Code κ γ k) (depth : ℕ)
    (hdepth : depth + code.nesting ≤ bound) (s : σ) (t : τ) (hR : R depth s t) :
    Alike (R depth) (run M fuel code depth s) (run N fuel code depth t) := by
  induction fuel generalizing k depth s t with
  | zero => exact ⟨rfl, hR⟩
  | succ fuel ih =>
    have hbody : ∀ (body : Code κ γ .block) s t, depth + (body.nesting + 1) ≤ bound → R depth s t →
        Alike (R depth) ((run M fuel body (depth + 1) (M.enter s)).map id (M.leave depth))
          ((run N fuel body (depth + 1) (N.enter t)).map id (N.leave depth)) := by
      intro body s t hle hR
      obtain ⟨houtcome, hstate⟩ := ih body (depth + 1) (by omega) _ _ (h.enter depth s t hR)
      exact ⟨houtcome, h.leave depth _ _ (by omega) hstate⟩
    have hcond : ∀ condition (body : Code κ γ .block) (alternative : Code κ γ .alternative),
        depth + (body.nesting + 1) ≤ bound → depth + alternative.nesting ≤ bound →
        Alike (R depth)
          (if (M.eval condition s).1 then
            (run M fuel body (depth + 1) (M.enter (M.eval condition s).2)).map id (M.leave depth)
          else run M fuel alternative depth (M.eval condition s).2)
          (if (N.eval condition t).1 then
            (run N fuel body (depth + 1) (N.enter (N.eval condition t).2)).map id (N.leave depth)
          else run N fuel alternative depth (N.eval condition t).2) := by
      intro condition body alternative hle hle'
      obtain ⟨hvalue, hR⟩ := h.eval condition depth s t hR
      rw [hvalue]
      split
      · exact hbody body _ _ hle hR
      · exact ih alternative depth hle' _ _ hR
    cases code with
    | done | leaveLoop | restartLoop | nothing => exact ⟨rfl, hR⟩
    | plain c next =>
      have hexec := h.exec c depth s t hR
      simp only [run]
      generalize M.exec c depth s = made at hexec ⊢
      generalize N.exec c depth t = made' at hexec ⊢
      cases hexec with
      | none => exact ⟨rfl, hR⟩
      | some hR => exact ih next depth hdepth _ _ hR
    | branch condition body alternative next =>
      simp only [Code.nesting] at hdepth
      exact (hcond condition body alternative (by omega) (by omega)).follow
        (ih next depth (by omega))
    | loop condition body next =>
      have hnext := hdepth
      simp only [Code.nesting] at hnext
      obtain ⟨hvalue, hR⟩ := h.eval condition depth s t hR
      simp only [run, hvalue]
      split
      · exact (hbody body _ _ (by omega) hR).followBody (ih _ depth hdepth)
          (ih next depth (by omega))
      · exact ih next depth (by omega) _ _ hR
    | otherwise body => exact hbody body s t hdepth hR
    | orElse condition body alternative =>
      simp only [Code.nesting] at hdepth
      exact hcond condition body alternative (by omega) (by omega)

end RepRapFirmware.Library.StructuredPrograms
