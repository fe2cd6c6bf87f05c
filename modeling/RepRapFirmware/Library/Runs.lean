import Mathlib.Data.List.Basic
import Mathlib.Tactic

/-! Runs of a machine given by a step function, properties of every step and of every
state of a run, and the induction rules that lift a fact about one step to a run. -/

namespace RepRapFirmware.Library.Runs

variable {σ α τ β : Type*} (step : σ → α → σ)

def run (s : σ) (as : List α) : σ := as.foldl step s

@[simp] lemma run_nil (s : σ) : run step s [] = s := rfl

@[simp] lemma run_cons (s : σ) (a : α) (as : List α) :
    run step s (a :: as) = run step (step s a) as := rfl

lemma run_append (s : σ) (as bs : List α) :
    run step s (as ++ bs) = run step (run step s as) bs := List.foldl_append

lemma run_concat (s : σ) (as : List α) (a : α) :
    run step s (as ++ [a]) = step (run step s as) a := by
  rw [run_append, run_cons, run_nil]

/-- `ok` holds of every step of the run, at the state before the step. -/
def Along (ok : σ → α → Prop) : σ → List α → Prop
  | _, [] => True
  | s, a :: as => ok s a ∧ Along ok (step s a) as

instance Along.decidable (ok : σ → α → Prop) [∀ s a, Decidable (ok s a)] :
    ∀ s as, Decidable (Along step ok s as)
  | _, [] => isTrue trivial
  | s, a :: as =>
    have := Along.decidable ok (step s a) as
    inferInstanceAs (Decidable (ok s a ∧ Along step ok (step s a) as))

/-- `P` holds in every state of the run, the first and the last included. -/
def Always (P : σ → Prop) (s : σ) (as : List α) : Prop :=
  ∀ bs, bs <+: as → P (run step s bs)

variable {step} {ok ok' : σ → α → Prop} {P : σ → Prop} {s : σ}

lemma along_append (as bs : List α) :
    Along step ok s (as ++ bs) ↔ Along step ok s as ∧ Along step ok (run step s as) bs := by
  induction as generalizing s with
  | nil => simp [Along]
  | cons a as ih => simp [Along, ih, and_assoc]

lemma Along.mono {as : List α} (h : Along step ok s as) (himp : ∀ s a, ok s a → ok' s a) :
    Along step ok' s as := by
  induction as generalizing s with
  | nil => trivial
  | cons a as ih => exact ⟨himp _ _ h.1, ih h.2⟩

lemma Along.and {as : List α} (h : Along step ok s as) (h' : Along step ok' s as) :
    Along step (fun s a => ok s a ∧ ok' s a) s as := by
  induction as generalizing s with
  | nil => trivial
  | cons a as ih => exact ⟨⟨h.1, h'.1⟩, ih h.2 h'.2⟩

lemma along_of_forall (h : ∀ s a, ok s a) (as : List α) : Along step ok s as := by
  induction as generalizing s with
  | nil => trivial
  | cons a as ih => exact ⟨h _ _, ih⟩

/-- An invariant kept by every permitted step holds at the end of a permitted run. -/
lemma run_invariant (hs : P s) (hstep : ∀ s a, P s → ok s a → P (step s a)) {as : List α}
    (h : Along step ok s as) : P (run step s as) := by
  induction as generalizing s with
  | nil => exact hs
  | cons a as ih => exact ih (hstep _ _ hs h.1) h.2

lemma invariant (hs : P s) (hstep : ∀ s a, P s → P (step s a)) (as : List α) :
    P (run step s as) :=
  run_invariant hs (fun s a h (_ : True) => hstep s a h) (along_of_forall (fun _ _ => trivial) as)

lemma Along.upTo {as bs : List α} (h : Along step ok s as) (hp : bs <+: as) :
    Along step ok s bs := by
  obtain ⟨cs, rfl⟩ := hp
  exact ((along_append bs cs).mp h).1

lemma Along.always (hs : P s) (hstep : ∀ s a, P s → ok s a → P (step s a)) {as : List α}
    (h : Along step ok s as) : Always step P s as :=
  fun _ hp => run_invariant hs hstep (h.upTo hp)

/-- What an invariant gives at the state before each step holds along the whole run. -/
lemma Along.of_invariant (hs : P s) (hstep : ∀ s a, P s → ok s a → P (step s a))
    (himp : ∀ s a, P s → ok s a → ok' s a) {as : List α} (h : Along step ok s as) :
    Along step ok' s as := by
  induction as generalizing s with
  | nil => trivial
  | cons a as ih => exact ⟨himp _ _ hs h.1, ih (hstep _ _ hs h.1) h.2⟩

lemma Always.head {a : α} {as : List α} (h : Always step P s (a :: as)) :
    Always step P (step s a) as :=
  fun bs hp => by simpa using h (a :: bs) (List.cons_prefix_cons.mpr ⟨rfl, hp⟩)

/-- What always holds, holds after every step. -/
lemma Always.along {as : List α} (h : Always step P s as) :
    Along step (fun s a => P (step s a)) s as := by
  induction as generalizing s with
  | nil => trivial
  | cons a as ih => exact ⟨by simpa using h [a] (by simp), ih h.head⟩

/-- Where `ok` is exactly what one step needs to keep `P`, it is exactly what a run needs. The
exactness may use an invariant `I` of all steps. -/
lemma always_iff_along {I : σ → Prop} (hI : I s) (hinv : ∀ s a, I s → I (step s a)) (hs : P s)
    (hexact : ∀ s a, I s → P s → (P (step s a) ↔ ok s a)) (as : List α) :
    Always step P s as ↔ Along step ok s as := by
  constructor
  · intro h
    induction as generalizing s with
    | nil => trivial
    | cons a as ih =>
      have hnext : P (step s a) := by simpa using h [a] (by simp)
      exact ⟨(hexact s a hI hs).mp hnext, ih (hinv s a hI) hnext h.head⟩
  · intro h bs hp
    exact (run_invariant (P := fun s => I s ∧ P s) ⟨hI, hs⟩
      (fun s a hk hok => ⟨hinv s a hk.1, (hexact s a hk.1 hk.2).mpr hok⟩) (h.upTo hp)).2

/-- As `always_iff_along`, for a property that only follows from what permitted steps keep. -/
lemma always_iff_along_of_kept {K : σ → Prop} (hs : K s) (himp : ∀ s, K s → P s)
    (hstep : ∀ s a, K s → ok s a → K (step s a))
    (hneeded : ∀ s a, K s → P (step s a) → ok s a) (as : List α) :
    Always step P s as ↔ Along step ok s as := by
  constructor
  · intro h
    induction as generalizing s with
    | nil => trivial
    | cons a as ih =>
      have hok : ok s a := hneeded s a hs (by simpa using h [a] (by simp))
      exact ⟨hok, ih (hstep s a hs hok) h.head⟩
  · exact fun h bs hp => himp _ (run_invariant hs hstep (h.upTo hp))

/-- Something holds at the end of a run exactly when a step brought it about and the ones behind
that step kept it. -/
lemma since {Q : σ → Prop} {brings : σ → α → Prop} {keeps : α → Prop} (hs : ¬ Q s)
    (hstep : ∀ s a, Q (step s a) ↔ brings s a ∨ Q s ∧ keeps a) (as : List α) :
    Q (run step s as) ↔ ∃ bs a cs, as = bs ++ a :: cs ∧ brings (run step s bs) a ∧
      ∀ c ∈ cs, keeps c := by
  induction as using List.reverseRecOn with
  | nil =>
    refine iff_of_false hs ?_
    rintro ⟨bs, a, cs, h, -⟩
    simp at h
  | append_singleton as x ih =>
    rw [run_concat, hstep, ih]
    constructor
    · rintro (hbrings | ⟨⟨bs, a, cs, rfl, hbrings, hkeeps⟩, hx⟩)
      · exact ⟨as, x, [], rfl, hbrings, nofun⟩
      · refine ⟨bs, a, cs ++ [x], by simp, hbrings, fun c hc => ?_⟩
        obtain hc | hc := List.mem_append.mp hc
        · exact hkeeps c hc
        · exact List.mem_singleton.mp hc ▸ hx
    · rintro ⟨bs, a, cs, h, hbrings, hkeeps⟩
      obtain rfl | ⟨cs, c, rfl⟩ := cs.eq_nil_or_concat'
      · obtain ⟨rfl, hxa⟩ := List.append_inj' h rfl
        exact .inl (List.singleton_inj.mp hxa ▸ hbrings)
      · rw [← List.cons_append, ← List.append_assoc] at h
        obtain ⟨rfl, hxc⟩ := List.append_inj' h rfl
        refine .inr ⟨⟨bs, a, cs, rfl, hbrings, fun c hc => ?_⟩, ?_⟩
        · exact hkeeps c (List.mem_append_left _ hc)
        · obtain rfl := List.singleton_inj.mp hxc
          exact hkeeps x (List.mem_append_right _ (List.mem_singleton_self x))

/-- What the steps of a run log, from the first to the last. -/
def collect (step : σ → α → σ) (log : σ → α → List β) : σ → List α → List β
  | _, [] => []
  | s, a :: as => log s a ++ collect step log (step s a) as

/-- A queue that every step serves at the front and fills at the back is first in, first out. -/
lemma Along.fifo {joins leaves : σ → α → List β} {q : σ → List β} (hs : P s)
    (hstep : ∀ s a, P s → ok s a → P (step s a))
    (hqueue : ∀ s a, P s → ok s a → q s ++ joins s a = leaves s a ++ q (step s a))
    {as : List α} (h : Along step ok s as) : q s ++ collect step joins s as =
      collect step leaves s as ++ q (run step s as) := by
  induction as generalizing s with
  | nil => simp [collect]
  | cons a as ih =>
    calc q s ++ (joins s a ++ collect step joins (step s a) as)
        = leaves s a ++ (q (step s a) ++ collect step joins (step s a) as) := by
          rw [← List.append_assoc, hqueue s a hs h.1, List.append_assoc]
      _ = leaves s a ++ collect step leaves (step s a) as ++ q (run step (step s a) as) := by
          rw [ih (hstep _ _ hs h.1) h.2, List.append_assoc]

/-- Two machines whose steps log the same and keep a relation log the same along a run. -/
lemma Along.lockstep {step' : τ → α → τ} {log : σ → α → List β} {log' : τ → α → List β}
    {R : σ → τ → Prop}
    (hstep : ∀ s t a, R s t → ok s a → log s a = log' t a ∧ R (step s a) (step' t a)) {t : τ}
    (hrel : R s t) {as : List α} (h : Along step ok s as) :
    collect step log s as = collect step' log' t as ∧ R (run step s as) (run step' t as) := by
  induction as generalizing s t with
  | nil => exact ⟨rfl, hrel⟩
  | cons a as ih =>
    obtain ⟨hlog, hnext⟩ := hstep s t a hrel h.1
    obtain ⟨hlogs, hend⟩ := ih hnext h.2
    exact ⟨congrArg₂ (· ++ ·) hlog hlogs, hend⟩

end RepRapFirmware.Library.Runs
