import RepRapFirmware.Library.Runs
import RepRapFirmware.Movement.AxisShaper

/-! Configuring the input shaper: when the amplitudes sum to one, when moves are prepared far
enough ahead, and when a failed command does no harm. -/

namespace RepRapFirmware.Movement.InputShaping

open RepRapFirmware.Library.Runs RepRapFirmware.Library.Buffers

variable {m : MathLibrary} {s : AxisShaper} {c : M593} {ds : List ℕ}

/-! ### What a good shaper is -/

structure Consistent (s : AxisShaper) : Prop where
  sum : ∑ i ∈ Finset.range s.numImpulses, s.coefficients i = 1
  prepared : ∀ i, i + 1 < s.numImpulses →
    s.delays (i + 1) + absoluteMinimumPreparedTime ≤ s.delays i + s.prepareAdvanceTime

/-- A shaper that leaves every move as it is. -/
structure Disabled (s : AxisShaper) : Prop where
  type : s.type = .none
  numImpulses : s.numImpulses = 1
  coefficient : s.coefficients 0 = 1
  delay : s.delays 0 = 0

/-- Delays that the measured longest interval does justice to: none lies before the first one, and
the first one is short or has one of twice its length behind it. -/
def Spaced : List ℕ → Prop
  | [] => True
  | d :: rest =>
    (d ≤ usualMinimumPreparedTime - absoluteMinimumPreparedTime ∨ ∃ x ∈ rest, 2 * d ≤ x) ∧
      ∀ x ∈ d :: rest, d ≤ x ∧ x + absoluteMinimumPreparedTime < 2 ^ 32

/-! ### Summing -/

lemma tally_sum (s : AxisShaper) (k : ℕ) :
    (tally s k).1 = ∑ i ∈ Finset.range k, s.coefficients i := by
  induction k with
  | zero => rfl
  | succ k ih => rw [Finset.sum_range_succ, ← ih]; rfl

/-- The time from the second impulse on, as the code computes it. -/
def measured (s : AxisShaper) (i : ℕ) : ℕ := (s.delays (i + 1) + 2 ^ 32 - s.delays 1) % 2 ^ 32

lemma tally_succ_longest (s : AxisShaper) (k : ℕ) :
    (tally s (k + 1)).2 = max (tally s k).2 (measured s k) := by
  have hstep : (tally s (k + 1)).2 =
      if measured s k > (tally s k).2 then measured s k else (tally s k).2 := rfl
  rw [hstep]
  split <;> omega

lemma measured_le_longest (s : AxisShaper) {i k : ℕ} (h : i < k) :
    measured s i ≤ (tally s k).2 := by
  induction k with
  | zero => exact absurd h (Nat.not_lt_zero i)
  | succ k ih =>
    rw [tally_succ_longest]
    obtain hi | rfl := Nat.lt_succ_iff_lt_or_eq.mp h
    · exact le_max_of_le_left (ih hi)
    · exact le_max_right _ _

lemma longest_le (s : AxisShaper) {k b : ℕ} (h : ∀ i < k, measured s i ≤ b) :
    (tally s k).2 ≤ b := by
  induction k with
  | zero => exact Nat.zero_le b
  | succ k ih =>
    rw [tally_succ_longest]
    exact max_le (ih fun i hi => h i (Nat.lt_succ_of_lt hi)) (h k (Nat.lt_succ_self k))

/-! ### The derived values -/

lemma derive_sum (h : s.numImpulses ≠ 0) :
    ∑ i ∈ Finset.range (derive s).numImpulses, (derive s).coefficients i = 1 := by
  obtain ⟨k, hk⟩ := Nat.exists_eq_succ_of_ne_zero h
  have hcoefficients : (derive s).coefficients =
      Function.update s.coefficients k (1 - ∑ i ∈ Finset.range k, s.coefficients i) := by
    rw [← tally_sum, derive, hk]
    rfl
  have hnum : (derive s).numImpulses = k + 1 := hk
  rw [hnum, hcoefficients, Finset.sum_range_succ, Function.update_self]
  have hsame : ∑ i ∈ Finset.range k, Function.update s.coefficients k
      (1 - ∑ i ∈ Finset.range k, s.coefficients i) i = ∑ i ∈ Finset.range k, s.coefficients i := by
    apply Finset.sum_congr rfl
    intro i hi
    exact Function.update_of_ne (Finset.mem_range.mp hi).ne _ _
  rw [hsame]
  ring

lemma measured_eq {i : ℕ} (hle : s.delays 1 ≤ s.delays (i + 1))
    (hlt : s.delays (i + 1) + absoluteMinimumPreparedTime < 2 ^ 32) :
    measured s i = s.delays (i + 1) - s.delays 1 := by
  rw [measured]
  omega

lemma derive_prepared (hzero : s.delays 0 = 0)
    (hlater : ∀ i, i + 1 < s.numImpulses → s.delays 1 ≤ s.delays (i + 1) ∧
      s.delays (i + 1) + absoluteMinimumPreparedTime < 2 ^ 32)
    (hfirst : 1 < s.numImpulses →
      s.delays 1 ≤ usualMinimumPreparedTime - absoluteMinimumPreparedTime ∨
        ∃ i, i + 1 < s.numImpulses ∧ 2 * s.delays 1 ≤ s.delays (i + 1))
    {i : ℕ} (hi : i + 1 < s.numImpulses) :
    s.delays (i + 1) + absoluteMinimumPreparedTime ≤ s.delays i + (derive s).prepareAdvanceTime :=
      by
  have hmeasured : ∀ j, j + 1 < s.numImpulses →
      s.delays (j + 1) - s.delays 1 ≤ (tally s (s.numImpulses - 1)).2 := by
    intro j hj
    rw [← measured_eq (hlater j hj).1 (hlater j hj).2]
    exact measured_le_longest s (by omega)
  have hbound : (tally s (s.numImpulses - 1)).2 + absoluteMinimumPreparedTime < 2 ^ 32 := by
    have hlongest : (tally s (s.numImpulses - 1)).2 ≤ 2 ^ 32 - 1 - absoluteMinimumPreparedTime := by
      apply longest_le
      intro j hj
      have hd := hlater j (by omega)
      rw [measured_eq hd.1 hd.2]
      omega
    have : absoluteMinimumPreparedTime = 18750 := rfl
    omega
  have hadvance : (derive s).prepareAdvanceTime = max
      ((tally s (s.numImpulses - 1)).2 + absoluteMinimumPreparedTime) usualMinimumPreparedTime := by
    rw [← Nat.mod_eq_of_lt hbound]
    rfl
  have hminimum : absoluteMinimumPreparedTime ≤ usualMinimumPreparedTime := by decide
  rw [hadvance]
  cases i with
  | zero =>
    obtain hshort | ⟨j, hj, hdouble⟩ := hfirst (by omega)
    · simp only [zero_add]
      omega
    · have hj' := hmeasured j hj
      simp only [zero_add]
      omega
  | succ i =>
    have hi' := hmeasured (i + 1) hi
    have hd := (hlater i (by omega)).1
    omega

lemma withImpulses_consistent {p : Impulses} (hzero : s.delays 0 = 0) (h : Spaced p.delays) :
    Consistent (withImpulses s p) := by
  refine ⟨derive_sum (Nat.succ_ne_zero _), ?_⟩
  obtain ⟨amplitudes, ds, same⟩ := p
  cases ds with
  | nil =>
    intro i hi
    exact absurd hi (by simp [withImpulses, derive])
  | cons d rest =>
    have hdelay : ∀ i (hi : i < (d :: rest).length),
        store s.delays 1 (d :: rest) (i + 1) = (d :: rest)[i] := by
      intro i hi
      rw [Nat.add_comm i 1]
      exact store_add s.delays 1 hi
    have hone : store s.delays 1 (d :: rest) 1 = d := hdelay 0 (Nat.succ_pos _)
    have hfront : store s.delays 1 (d :: rest) 0 = s.delays 0 := store_of_lt Nat.one_pos
    intro i hi
    apply derive_prepared (s := { s with
      coefficients := store s.coefficients 0 amplitudes
      delays := store s.delays 1 (d :: rest)
      numImpulses := (d :: rest).length + 1 })
    · exact hfront.trans hzero
    · intro j hj
      have hj' : j < (d :: rest).length := by simpa using hj
      simp only [hone, hdelay j hj']
      exact h.2 _ (List.getElem_mem hj')
    · intro _
      simp only [hone]
      apply h.1.imp_right
      rintro ⟨x, hx, hdouble⟩
      obtain ⟨j, hj, rfl⟩ := List.mem_iff_getElem.mp (List.mem_cons_of_mem d hx)
      exact ⟨j, by simpa using hj, by rwa [hdelay j hj]⟩
    · exact hi

/-- The shapers with regular intervals are well spaced, whatever their damped period. -/
lemma named_spaced {frequency zeta : ℚ} {type : InputShaperType}
    (htype : type ∈ [.none, .mzv, .zvd, .zvdd, .zvddd])
    (h : dampedPeriod m frequency zeta < 2 ^ 30) :
    Spaced (namedImpulses m type frequency zeta).delays := by
  have hthree : u32 (3 * dampedPeriod m frequency zeta) = 3 * dampedPeriod m frequency zeta :=
    Nat.mod_eq_of_lt (by omega)
  have htwo : u32 (2 * dampedPeriod m frequency zeta) = 2 * dampedPeriod m frequency zeta :=
    Nat.mod_eq_of_lt (by omega)
  have hmzv : u32 (2 * (3 * dampedPeriod m frequency zeta / 8)) =
      2 * (3 * dampedPeriod m frequency zeta / 8) := Nat.mod_eq_of_lt (by omega)
  have hmargin : absoluteMinimumPreparedTime = 18750 := rfl
  simp only [List.mem_cons, List.not_mem_nil, or_false] at htype
  rcases htype with rfl | rfl | rfl | rfl | rfl <;>
    simp only [namedImpulses, mzv, zvd, zvdd, zvddd, Spaced, hthree, htwo, hmzv, List.mem_cons,
      List.not_mem_nil, or_false, forall_eq_or_imp, forall_eq, exists_eq_or_imp, exists_eq_left]
      <;> omega

/-! ### The commands that do no harm -/

/-- Whether the impulses a command asks for are read without a mistake and are well spaced, and
whether the expansion boards take them. -/
def SoundImpulses (m : MathLibrary) (type : InputShaperType) (frequency zeta : ℚ) (c : M593) :
    Prop :=
  match type with
  | .none => True
  | .custom =>
    ∃ h ∈ c.H, h.thrown = Option.none ∧ c.refusal = Option.none ∧
      match c.T with
      | Option.none =>
        Spaced (defaultDelays (dampedPeriod m frequency zeta) h.stored.length)
      | some t => t.thrown = Option.none ∧ h.stored.length = (padded t.stored).length ∧
        Spaced ((padded t.stored).map toClocks)
  | type => c.refusal = Option.none ∧ Spaced (namedImpulses m type frequency zeta).delays

/-- The commands after which the shaper is as it should be. A command that is refused for its
damping
or its shaper type must repeat the frequency and the damping in force, or find the shaper
disabled. -/
def Sound (m : MathLibrary) (s : AxisShaper) (c : M593) : Prop :=
  c.seenAny && !c.locked ∨
    match tryGetLimitedFValue "F" c.F s.frequency false 4 400 with
    | .error _ => True
    | .ok (frequency, seen) =>
      match tryGetLimitedFValue "S" c.S s.zeta seen 0 0.99 with
      | .error _ => frequency = s.frequency ∨ Disabled s
      | .ok (zeta, seen) =>
        match c.P with
        | .malformed _ => (frequency = s.frequency ∧ zeta = s.zeta) ∨ Disabled s
        | .given shaperName =>
          match InputShaperType.lookup shaperName with
          | Option.none => (frequency = s.frequency ∧ zeta = s.zeta) ∨ Disabled s
          | some newType => SoundImpulses m newType frequency zeta c
        | .absent => seen → SoundImpulses m (enable s.type) frequency zeta c

/-- What a command must do: the amplitudes sum to one, so that a move commands the steps it is asked
for, moves are prepared far enough ahead, and a failure leaves the shaper as it was or disabled. -/
structure Handled (m : MathLibrary) (s : AxisShaper) (c : M593) : Prop where
  consistent : Consistent (configure m s c).1
  steps : ∀ steps, commandedSteps (configure m s c).1 steps = steps
  failure : (configure m s c).2.failed = true →
    (configure m s c).1 = s ∨ Disabled (configure m s c).1

lemma Consistent.commandedSteps (h : Consistent s) (steps : ℚ) : commandedSteps s steps = steps :=
    by
  have hsum : InputShaping.commandedSteps s steps =
      ∑ i ∈ Finset.range s.numImpulses, s.coefficients i * steps := rfl
  rw [hsum, ← Finset.sum_mul, h.sum, one_mul]

lemma Disabled.of_user (h : Disabled s) (frequency zeta : ℚ) :
    Disabled { s with frequency := frequency, zeta := zeta } :=
  ⟨h.type, h.numImpulses, h.coefficient, h.delay⟩

lemma setImpulses_custom (htype : s.type = .custom)
    (h : SoundImpulses m .custom s.frequency s.zeta c) :
    Consistent (setImpulses m s c).1 ∧ (setImpulses m s c).2 = .ok := by
  obtain ⟨list, hlist, hread, haccept, htimes⟩ := h
  have hH : c.H = some list := hlist
  have hboards : updateRemoteInputShaping c = .ok := by rw [updateRemoteInputShaping, haccept]
  have hzero : Function.update s.delays 0 0 0 = 0 := Function.update_self ..
  simp only [setImpulses, htype, configureCustom, hH, hread]
  cases hT : c.T with
  | none =>
    rw [hT] at htimes
    exact ⟨withImpulses_consistent hzero htimes, hboards⟩
  | some t =>
    rw [hT] at htimes
    obtain ⟨htread, hcount, hspaced⟩ := htimes
    simp only [htread, hcount, dite_true]
    exact ⟨withImpulses_consistent hzero hspaced, hboards⟩

lemma setImpulses_named (htype : s.type ≠ .custom)
    (h : Spaced (namedImpulses m s.type s.frequency s.zeta).delays) :
    Consistent (setImpulses m s c).1 ∧ (setImpulses m s c).2 = updateRemoteInputShaping c := by
  have hzero : Function.update s.delays 0 0 0 = 0 := Function.update_self ..
  rw [setImpulses]
  split
  · next heq => exact absurd heq htype
  · exact ⟨withImpulses_consistent hzero h, rfl⟩

lemma setImpulses_none (htype : s.type = .none) : Disabled (setImpulses m s c).1 := by
  simp only [setImpulses, htype]
  refine ⟨rfl, rfl, ?_, ?_⟩
  · simp [withImpulses, derive, namedImpulses, tally]
  · simp [withImpulses, derive, namedImpulses, store]

lemma setImpulses_sound (h : SoundImpulses m s.type s.frequency s.zeta c) :
    Consistent (setImpulses m s c).1 ∧
      ((setImpulses m s c).2.failed = true → Disabled (setImpulses m s c).1) := by
  have hnamed : s.type ≠ .custom → c.refusal = Option.none →
      Spaced (namedImpulses m s.type s.frequency s.zeta).delays →
      Consistent (setImpulses m s c).1 ∧
        ((setImpulses m s c).2.failed = true → Disabled (setImpulses m s c).1) := by
    intro htype haccept hspaced
    obtain ⟨hconsistent, houtcome⟩ := setImpulses_named (c := c) htype hspaced
    refine ⟨hconsistent, fun hfailed => ?_⟩
    rw [houtcome, updateRemoteInputShaping, haccept] at hfailed
    cases hfailed
  cases htype : s.type with
  | custom =>
    obtain ⟨hconsistent, houtcome⟩ := setImpulses_custom htype (htype ▸ h)
    refine ⟨hconsistent, fun hfailed => ?_⟩
    rw [houtcome] at hfailed
    cases hfailed
  | none =>
    have hspaced : Spaced (namedImpulses m s.type s.frequency s.zeta).delays := by
      rw [htype]
      trivial
    exact ⟨(setImpulses_named (by rw [htype]; exact InputShaperType.noConfusion) hspaced).1,
      fun _ => setImpulses_none htype⟩
  | ei2 | ei3 | mzv | zvd | zvdd | zvddd =>
    apply hnamed
    · rw [htype]
      exact InputShaperType.noConfusion
    · rw [htype] at h
      exact h.1
    · rw [htype] at h ⊢
      exact h.2

/-! ### One command and all of them -/

lemma configure_sound (hs : Consistent s) (h : Sound m s c) :
    Consistent (configure m s c).1 ∧ ((configure m s c).2.failed = true →
      (configure m s c).1 = s ∨ Disabled (configure m s c).1) := by
  rw [configure]
  by_cases hlock : (c.seenAny && !c.locked) = true
  · rw [if_pos hlock]
    exact ⟨hs, fun hfailed => absurd hfailed Bool.false_ne_true⟩
  · rw [if_neg hlock]
    replace h := h.resolve_left hlock
    cases hF : tryGetLimitedFValue "F" c.F s.frequency false 4 400 with
    | error message => exact ⟨hs, fun _ => .inl rfl⟩
    | ok found =>
      obtain ⟨frequency, seen⟩ := found
      simp only [hF] at h
      cases hS : tryGetLimitedFValue "S" c.S s.zeta seen 0 0.99 with
      | error message =>
        simp only [hS] at h ⊢
        refine ⟨⟨hs.sum, hs.prepared⟩, fun _ => ?_⟩
        obtain rfl | hdisabled := h
        · exact .inl rfl
        · exact .inr (hdisabled.of_user frequency s.zeta)
      | ok found =>
        obtain ⟨zeta, seen⟩ := found
        simp only [hS] at h ⊢
        have hrefused : ((frequency = s.frequency ∧ zeta = s.zeta) ∨ Disabled s) →
            { s with frequency := frequency, zeta := zeta } = s ∨
              Disabled { s with frequency := frequency, zeta := zeta } := by
          rintro (⟨rfl, rfl⟩ | hdisabled)
          · exact .inl rfl
          · exact .inr (hdisabled.of_user frequency zeta)
        have hset : ∀ type, SoundImpulses m type frequency zeta c →
            Consistent (setImpulses m { s with type, frequency, zeta } c).1 ∧
              ((setImpulses m { s with type, frequency, zeta } c).2.failed = true →
                (setImpulses m { s with type, frequency, zeta } c).1 = s ∨
                  Disabled (setImpulses m { s with type, frequency, zeta } c).1) := by
          intro type hsound
          have := @setImpulses_sound m { s with type, frequency, zeta } c hsound
          exact ⟨this.1, fun hfailed => .inr (this.2 hfailed)⟩
        cases hP : c.P with
        | malformed message =>
          simp only [hP] at h ⊢
          exact ⟨⟨hs.sum, hs.prepared⟩, fun _ => hrefused h⟩
        | given shaperName =>
          simp only [hP] at h ⊢
          cases hlookup : InputShaperType.lookup shaperName with
          | none =>
            simp only [hlookup] at h ⊢
            exact ⟨⟨hs.sum, hs.prepared⟩, fun _ => hrefused h⟩
          | some newType =>
            simp only [hlookup] at h ⊢
            exact hset newType h
        | absent =>
          simp only [hP] at h ⊢
          cases seen with
          | false => exact ⟨⟨hs.sum, hs.prepared⟩, fun hfailed => absurd hfailed Bool.false_ne_true⟩
          | true => exact hset (enable s.type) (h rfl)

lemma Sound.handled (hs : Consistent s) (h : Sound m s c) : Handled m s c :=
  ⟨(configure_sound hs h).1, (configure_sound hs h).1.commandedSteps, (configure_sound hs h).2⟩

lemma consistent_initial : Consistent .initial := by
  refine ⟨?_, ?_⟩
  · simp [AxisShaper.initial]
  · intro i hi
    exact absurd hi (by simp [AxisShaper.initial])

/-- A run of commands from the start. -/
def step (m : MathLibrary) (s : AxisShaper) (c : M593) : AxisShaper := (configure m s c).1

theorem shaper_consistent (m : MathLibrary) (cs : List M593)
    (h : Along (step m) (Sound m) .initial cs) : Along (step m) (Handled m) .initial cs :=
  h.of_invariant consistent_initial (fun _ _ hs hc => (hc.handled hs).consistent)
    fun _ _ hs hc => hc.handled hs

/-- A library with a root of 23 binary digits and the first terms of the exponential series. -/
def seriesLibrary : MathLibrary where
  fastSqrtf := fun x => Nat.sqrt ⌊x * 2 ^ 46⌋₊ / 2 ^ 23
  sqrtf := fun x => Nat.sqrt ⌊x * 2 ^ 46⌋₊ / 2 ^ 23
  expf := fun x => ((List.range 20).map fun i => x ^ i / i.factorial).sum
  pi := 3.1415926

/-- An undamped shaper is chosen, a frequency is out of range, a name is unknown. -/
theorem shaper_consistent_refusals :
    Along (step seriesLibrary) (Handled seriesLibrary) .initial
      [{ F := .given 50, S := .given 0, P := .given "zvd" }, { F := .given 500 },
        { P := .given "none such" }] := by
  apply shaper_consistent
  refine ⟨.inr ?_, .inr ?_, .inr ?_, trivial⟩
  · have hspaced : Spaced (namedImpulses seriesLibrary .zvd 50 0).delays :=
      named_spaced (by decide) (by decide +kernel)
    have hF : tryGetLimitedFValue "F" (.given 50) AxisShaper.initial.frequency false 4 400 =
        .ok (50, true) := by norm_num [tryGetLimitedFValue]
    have hS : tryGetLimitedFValue "S" (.given 0) AxisShaper.initial.zeta true 0 0.99 =
        .ok (0, true) := by norm_num [tryGetLimitedFValue]
    simp only [hF, hS]
    exact ⟨rfl, hspaced⟩
  · have hF : ∀ v, tryGetLimitedFValue "F" (.given 500) v false 4 400 =
        .error "parameter 'F' too high" := by
      intro v
      norm_num [tryGetLimitedFValue]
      rfl
    simp only [hF]
  · exact .inl ⟨rfl, rfl⟩

def twoAmplitudes : M593 where
  P := .given "custom"
  H := some ⟨[0.3, 0.3], Option.none, by decide, fun _ => List.cons_ne_nil _ _⟩
  T := some ⟨[0.01], Option.none, by decide, fun _ => List.cons_ne_nil _ _⟩

/-- A single delay is taken for four, so that two amplitudes are refused after they are stored. -/
theorem refused_amplitudes_kept :
    ¬ ∀ (m : MathLibrary) (cs : List M593), Along (step m) (Handled m) .initial cs := by
  intro h
  have hsum := (h seriesLibrary [twoAmplitudes]).1.consistent.sum
  have hnum : (configure seriesLibrary .initial twoAmplitudes).1.numImpulses = 1 := rfl
  have hcoefficient : (configure seriesLibrary .initial twoAmplitudes).1.coefficients 0 = 0.3 := rfl
  rw [hnum, Finset.sum_range_one, hcoefficient] at hsum
  norm_num at hsum

end RepRapFirmware.Movement.InputShaping
