import RepRapFirmware.GCodes.SyncWith

/-! Where the two channels let each other go on. -/

namespace RepRapFirmware.GCodes.SyncWith

open Library.Runs

/-- At the outermost level where the two differ, the first one has a line further on. -/
def Beyond : List ℕ → List ℕ → Prop
  | p :: ps, q :: qs => Beyond ps qs ∨ (ps = qs ∧ q < p ∧ p ≠ noFilePosition)
  | _, _ => False

/-- At the outermost level where the two differ, the first one has not read a line yet. -/
def Entering : List ℕ → List ℕ → Prop
  | p :: ps, q :: qs => Entering ps qs ∨ (ps = qs ∧ q < p ∧ p = noFilePosition)
  | _, _ => False

instance : ∀ ps qs, Decidable (Beyond ps qs)
  | [], [] | [], _ :: _ | _ :: _, [] => isFalse id
  | p :: ps, q :: qs =>
    have := instDecidableBeyond ps qs
    inferInstanceAs (Decidable (Beyond ps qs ∨ (ps = qs ∧ q < p ∧ p ≠ noFilePosition)))

instance : ∀ ps qs, Decidable (Entering ps qs)
  | [], [] | [], _ :: _ | _ :: _, [] => isFalse id
  | p :: ps, q :: qs =>
    have := instDecidableEntering ps qs
    inferInstanceAs (Decidable (Entering ps qs ∨ (ps = qs ∧ q < p ∧ p = noFilePosition)))

def Past (gb other : GCodeBuffer) : Prop :=
  Beyond (common gb.position other.position) (common other.position gb.position)

def HasEntered (gb other : GCodeBuffer) : Prop :=
  Entering (common gb.position other.position) (common other.position gb.position)

instance (gb other : GCodeBuffer) : Decidable (Past gb other) :=
    inferInstanceAs (Decidable (Beyond ..))

instance (gb other : GCodeBuffer) : Decidable (HasEntered gb other) :=
  inferInstanceAs (Decidable (Entering ..))

/-- The channel waits in `SyncWith` at the position, and its moves have come to an end. -/
def StoppedAt (s : State) (c : Channel) (p : List ℕ) : Prop :=
  (s.gb c).syncState ≠ .running ∧ (s.gb c).position = p ∧ s.moving c = false

/-- The channel executes no file, or it is on its way and has been let through the position or is
past it. -/
def Gone (s : State) (c : Channel) (gb : GCodeBuffer) : Prop :=
  (s.gb c).isLive = false ∨ (s.gb c).syncState = .running ∧
    ((s.gb c).passed = some gb.position ∨ Past (s.gb c) gb)

instance (s : State) (c : Channel) (p : List ℕ) : Decidable (StoppedAt s c p) :=
  inferInstanceAs (Decidable (_ ∧ _))

instance (s : State) (c : Channel) (gb : GCodeBuffer) : Decidable (Gone s c gb) :=
  inferInstanceAs (Decidable (_ ∨ _))

/-- A call that lets the channel go on finds the other one stopped at the same sync point, past it
or without a file. -/
def LetsGo (s : State) : Event → Prop
  | .sync c locked => (s.gb c).isLive = true → (doSync s c locked).2.synced = true →
    StoppedAt s c.other (s.gb c).position ∨ Gone s c.other (s.gb c)
  | _ => True

def FetchesAtSyncPoint (s : State) : Event → Prop
  | .sync c locked => (s.gb c).isLive = true → (doSync s c locked).2.fetched = true →
    StoppedAt s c.other (s.gb c).position
  | _ => True

def FetchesSafely (s : State) : Event → Prop
  | .sync c locked => (s.gb c).isLive = true → (doSync s c locked).2.fetched = true →
    StoppedAt s c.other (s.gb c).position ∨ Gone s c.other (s.gb c)
  | _ => True

/-- A channel that arrives where it waits while the other one is waiting is at the same sync point,
and a channel that is on its way has read a line where the two differ. -/
def Orderly (s : State) : Event → Prop
  | .sync c _ =>
    ((s.gb c).syncState = .running → (s.gb c.other).syncState ≠ .running →
      (s.gb c.other).position = (s.gb c).position) ∧
    ((s.gb c.other).syncState = .running → ¬ HasEntered (s.gb c.other) (s.gb c))
  | _ => True

instance (s : State) : ∀ e, Decidable (LetsGo s e)
  | .sync c _ => inferInstanceAs (Decidable ((s.gb c).isLive = true → _ → _))
  | .execute .. | .standstill _ | .fork | .endFile _ => isTrue trivial

instance (s : State) : ∀ e, Decidable (FetchesAtSyncPoint s e)
  | .sync c _ => inferInstanceAs (Decidable ((s.gb c).isLive = true → _ → _))
  | .execute .. | .standstill _ | .fork | .endFile _ => isTrue trivial

instance (s : State) : ∀ e, Decidable (Orderly s e)
  | .sync _ _ => inferInstanceAs (Decidable (_ ∧ _))
  | .execute .. | .standstill _ | .fork | .endFile _ => isTrue trivial

/-! ### Positions -/

lemma laterLoop_spec {ps qs : List ℕ} {oursIsLater : Bool} (hlen : ps.length = qs.length)
    (h : laterLoop ps qs oursIsLater = true) :
    Beyond ps qs ∨ Entering ps qs ∨ (ps = qs ∧ oursIsLater = true) := by
  induction ps generalizing qs oursIsLater with
  | nil =>
    cases qs with
    | nil => exact Or.inr (Or.inr ⟨rfl, h⟩)
    | cons q qs => cases hlen
  | cons p ps ih =>
    cases qs with
    | nil => cases hlen
    | cons q qs =>
      rcases ih (Nat.succ.inj hlen) h with hbeyond | hentering | ⟨heq, hlater⟩
      · exact Or.inl (Or.inl hbeyond)
      · exact Or.inr (Or.inl (Or.inl hentering))
      · by_cases hgt : p > q
        · by_cases hno : p = noFilePosition
          · exact Or.inr (Or.inl (Or.inr ⟨heq, hgt, hno⟩))
          · exact Or.inl (Or.inr ⟨heq, hgt, hno⟩)
        · rw [if_neg hgt] at hlater
          by_cases hlt : p < q
          · rw [if_pos hlt] at hlater
            cases hlater
          · rw [if_neg hlt] at hlater
            have hpq : p = q := by omega
            exact Or.inr (Or.inr ⟨by rw [heq, hpq], hlater⟩)

lemma common_length (ps qs : List ℕ) : (common ps qs).length = (common qs ps).length := by
  simp only [common, List.length_drop]
  omega

lemma isLive_of_depth {gb : GCodeBuffer} (h : gb.getStackDepth = 0) :
    gb.isLive = gb.latest.fileIsLive := by
  have hprevious : gb.previous = [] := List.length_eq_zero_iff.mp h
  simp [GCodeBuffer.isLive, GCodeBuffer.originalMachineState, hprevious]

lemma isLaterThan_spec {gb other : GCodeBuffer} (h : isLaterThan gb other = true) :
    gb.isLive = false ∨ Past gb other ∨ HasEntered gb other := by
  rw [isLaterThan] at h
  split at h
  · next hnone => exact Or.inl ((isLive_of_depth hnone.1).trans hnone.2)
  · rcases laterLoop_spec (common_length _ _) h with hbeyond | hentering | ⟨-, hfalse⟩
    · exact Or.inr (Or.inl hbeyond)
    · exact Or.inr (Or.inr hentering)
    · cases hfalse

/-! ### One call -/

/-- What a call can do: it finds that the other channel has skipped the sync point, it waits for it,
it meets it and goes on or waits for it to notice, or it goes on or waits after the other one has
gone on. -/
inductive Syncs (thisGb otherGb : GCodeBuffer) : GCodeBuffer × Outcome → Prop
  | skipped (this : thisGb.syncState ≠ .synced) (other : otherGb.syncState = .running)
      (later : isLaterThan otherGb thisGb = true) : Syncs _ _ (letGo thisGb, ⟨true, true⟩)
  | waits (this : thisGb.syncState ≠ .synced) (other : otherGb.syncState = .running) :
      Syncs _ _ ({ thisGb with syncState := .syncing }, ⟨false, false⟩)
  | meets (fetched : Bool) (other : otherGb.syncState ≠ .running) :
      Syncs _ _ (letGo thisGb, ⟨true, fetched⟩)
  | arrives (fetched : Bool) (other : otherGb.syncState ≠ .running) :
      Syncs _ _ ({ thisGb with syncState := .synced }, ⟨false, fetched⟩)
  | leaves (this : thisGb.syncState = .synced) (other : otherGb.syncState = .running) :
      Syncs _ _ (letGo thisGb, ⟨true, false⟩)
  | stays (this : thisGb.syncState = .synced) (other : otherGb.syncState = .running) :
      Syncs _ _ (thisGb, ⟨false, false⟩)

lemma whenSynced_cases {thisGb otherGb : GCodeBuffer} (fetched : Bool)
    (h : otherGb.syncState ≠ .running) :
    Syncs thisGb otherGb (whenSynced { thisGb with syncState := .synced } otherGb fetched) := by
  rw [whenSynced]
  cases hother : otherGb.syncState with
  | running => exact absurd hother h
  | syncing => exact .arrives fetched h
  | synced =>
    simp only
    split
    · exact .meets fetched h
    · split
      · exact .meets fetched h
      · exact .arrives fetched h

lemma whenSyncing_cases {thisGb otherGb : GCodeBuffer} (h : thisGb.syncState ≠ .synced) :
    Syncs thisGb otherGb (whenSyncing { thisGb with syncState := .syncing } otherGb) := by
  rw [whenSyncing]
  split
  · next hother =>
    split
    · next hlater => exact .skipped h hother hlater
    · exact .waits h hother
  · next hother => exact whenSynced_cases true hother

lemma syncWith_cases (thisGb otherGb : GCodeBuffer) :
    Syncs thisGb otherGb (syncWith thisGb otherGb) := by
  rw [syncWith]
  cases hthis : thisGb.syncState with
  | running => exact whenSyncing_cases (by rw [hthis]; exact SyncState.noConfusion)
  | syncing =>
    have heta : thisGb = { thisGb with syncState := .syncing } := by rw [← hthis]
    have hcases : Syncs thisGb otherGb
        (whenSyncing { thisGb with syncState := .syncing } otherGb) :=
      whenSyncing_cases (by rw [hthis]; exact SyncState.noConfusion)
    rwa [← heta] at hcases
  | synced =>
    by_cases hother : otherGb.syncState = .running
    · simp only [whenSynced, hother]
      split
      · exact .leaves hthis hother
      · exact .stays hthis hother
    · have heta : thisGb = { thisGb with syncState := .synced } := by rw [← hthis]
      have hcases : Syncs thisGb otherGb
          (whenSynced { thisGb with syncState := .synced } otherGb false) :=
        whenSynced_cases false hother
      rwa [← heta] at hcases

/-! ### Both channels -/

structure Inv (s : State) : Prop where
  rest : ∀ c, (s.gb c).syncState ≠ .running → s.moving c = false
  same : (s.gb .file).syncState ≠ .running → (s.gb .file2).syncState ≠ .running →
    (s.gb .file).position = (s.gb .file2).position
  left : ∀ c, (s.gb c).syncState = .synced → (s.gb c.other).syncState = .running →
    (s.gb c.other).isLive = false ∨ (s.gb c.other).passed = some (s.gb c).position
  forked : (s.gb .file2).isLive = true → ∀ c, (s.gb c).executeAllCommands = false
  unforked : (s.gb .file).executeAllCommands = true → (s.gb .file2).syncState = .running

lemma inv_start : Inv start := by
  refine ⟨?_, ?_, ?_, ?_, ?_⟩
  · intro c _
    rfl
  · intro h
    exact absurd rfl h
  · intro c h
    cases h
  · intro h
    cases h
  · intro _
    rfl

@[simp] lemma other_other (c : Channel) : c.other.other = c := by cases c <;> rfl

lemma other_ne (c : Channel) : c.other ≠ c := by cases c <;> exact Channel.noConfusion

variable {s : State} {c : Channel}

lemma Inv.same_other (h : Inv s) (c : Channel) (hc : (s.gb c).syncState ≠ .running)
    (hother : (s.gb c.other).syncState ≠ .running) :
    (s.gb c.other).position = (s.gb c).position := by
  cases c with
  | file => exact (h.same hc hother).symm
  | file2 => exact h.same hother hc

lemma Inv.stoppedAt (h : Inv s) (hc : (s.gb c.other).syncState ≠ .running)
    (hp : (s.gb c.other).position = (s.gb c).position) :
    StoppedAt s c.other (s.gb c).position := ⟨hc, hp, h.rest _ hc⟩

/-- A reader that executes everything is alone. -/
lemma Inv.alone (h : Inv s) (hlive : (s.gb c).isLive = true)
    (hall : (s.gb c).executeAllCommands = true) : c = .file ∧ (s.gb .file2).isLive = false := by
  have hnone : (s.gb .file2).isLive = false := by
    cases hfile2 : (s.gb .file2).isLive with
    | false => rfl
    | true =>
      have hforked := h.forked hfile2 c
      rw [hall] at hforked
      cases hforked
  refine ⟨?_, hnone⟩
  cases c with
  | file => rfl
  | file2 =>
    rw [hnone] at hlive
    cases hlive

lemma self_or_other (c d : Channel) : d = c ∨ d = c.other := by
  cases c <;> cases d <;> simp [Channel.other]

/-- A step of one channel. -/
lemma Inv.update (h : Inv s) {s' : State} {gb : GCodeBuffer} (hself : s'.gb c = gb)
    (hkept : s'.gb c.other = s.gb c.other) (hlive : gb.isLive = true → (s.gb c).isLive = true)
    (hall : gb.executeAllCommands = (s.gb c).executeAllCommands)
    (hrest : gb.syncState ≠ .running → s'.moving c = false)
    (hmoving : (s.gb c.other).syncState ≠ .running → s'.moving c.other = false)
    (hsame : gb.syncState ≠ .running → (s.gb c.other).syncState ≠ .running →
      (s.gb c.other).position = gb.position)
    (hleft : gb.syncState = .synced → (s.gb c.other).syncState = .running →
      (s.gb c.other).isLive = false ∨ (s.gb c.other).passed = some gb.position)
    (hother : (s.gb c.other).syncState = .synced → gb.syncState = .running →
      gb.isLive = false ∨ gb.passed = some (s.gb c.other).position)
    (hunforked : (s.gb .file).executeAllCommands = true → c = .file2 →
      gb.syncState = .running) : Inv s' := by
  subst hself
  have hflag : ∀ d, (s'.gb d).executeAllCommands = (s.gb d).executeAllCommands := by
    intro d
    rcases self_or_other c d with rfl | rfl
    · exact hall
    · rw [hkept]
  refine ⟨?_, ?_, ?_, ?_, ?_⟩
  · intro d hd
    rcases self_or_other c d with rfl | rfl
    · exact hrest hd
    · rw [hkept] at hd
      exact hmoving hd
  · intro hfile hfile2
    cases c with
    | file =>
      simp only [Channel.other] at hkept hsame
      rw [hkept] at hfile2 ⊢
      exact (hsame hfile hfile2).symm
    | file2 =>
      simp only [Channel.other] at hkept hsame
      rw [hkept] at hfile ⊢
      exact hsame hfile2 hfile
  · intro d hd hd'
    rcases self_or_other c d with rfl | rfl
    · rw [hkept] at hd' ⊢
      exact hleft hd hd'
    · rw [other_other] at hd' ⊢
      rw [hkept] at hd ⊢
      exact hother hd hd'
  · intro hfile2 d
    have hlive2 : (s.gb .file2).isLive = true := by
      rcases self_or_other c .file2 with hc | hc
      · rw [hc] at hfile2 ⊢
        exact hlive hfile2
      · rw [hc, hkept] at hfile2
        rw [hc]
        exact hfile2
    rw [hflag]
    exact h.forked hlive2 d
  · intro hfile
    rw [hflag] at hfile
    rcases self_or_other c .file2 with hc | hc
    · rw [hc]
      exact hunforked hfile hc.symm
    · have hrunning := h.unforked hfile
      rw [hc] at hrunning ⊢
      rw [hkept]
      exact hrunning

lemma Inv.sync (h : Inv s) (hlive : (s.gb c).isLive = true) {locked : Bool}
    (hc : Orderly s (.sync c locked)) : Inv (doSync s c locked).1 := by
  have hunforked : ∀ gb : GCodeBuffer, (s.gb .file).executeAllCommands = true → c = .file2 →
      gb.syncState = .running := by
    intro gb hall hfile2
    subst hfile2
    have hforked := h.forked hlive .file
    rw [hall] at hforked
    cases hforked
  have hself : ∀ gb : GCodeBuffer, Function.update s.gb c gb c = gb :=
    fun gb => Function.update_self ..
  have hkept : ∀ gb : GCodeBuffer, Function.update s.gb c gb c.other = s.gb c.other :=
    fun gb => Function.update_of_ne (other_ne c) _ _
  have harrive : (s.gb c.other).syncState ≠ .running →
      (s.gb c.other).position = (s.gb c).position := by
    intro hother
    by_cases hthis : (s.gb c).syncState = .running
    · exact hc.1 hthis hother
    · exact h.same_other c hthis hother
  have hmeet : (s.gb c.other).syncState = .synced →
      some (s.gb c).position = some (s.gb c.other).position := by
    intro hother
    rw [harrive (by rw [hother]; exact SyncState.noConfusion)]
  rw [doSync]
  split
  · next hall =>
    split
    · obtain ⟨rfl, hnone⟩ := h.alone hlive hall
      have hrunning := h.unforked hall
      refine h.update (c := .file) (hself _)
        (hkept { s.gb .file with passed := some (s.gb .file).position }) id rfl (h.rest .file)
        (h.rest _) ?_ ?_ ?_ (hunforked _)
      · intro _ hother
        exact absurd hrunning hother
      · intro _ _
        exact Or.inl hnone
      · intro hother _
        cases hrunning.symm.trans hother
    · exact h
  · split
    · next hstill =>
      have hrest : s.moving c = false := by
        have := (Bool.and_eq_true_iff.mp hstill).2
        simpa using this
      have hcases := syncWith_cases (s.gb c) (s.gb c.other)
      generalize syncWith (s.gb c) (s.gb c.other) = r at hcases
      cases hcases with
      | skipped hthis hother hlater =>
        refine h.update (hself _) (hkept _) id rfl (fun _ => hrest) (h.rest _)
          ?_ ?_ ?_ (hunforked _)
        · intro hne
          exact absurd rfl hne
        · intro hne
          cases hne
        · intro hne
          rw [hother] at hne
          cases hne
      | waits hthis hother =>
        refine h.update (hself _) (hkept _) id rfl (fun _ => hrest) (h.rest _)
          ?_ ?_ ?_ (hunforked _)
        · intro _ hne
          exact absurd hother hne
        · intro hne
          cases hne
        · intro hne
          rw [hother] at hne
          cases hne
      | meets fetched hother =>
        refine h.update (hself _) (hkept _) id rfl (fun _ => hrest) (h.rest _)
          ?_ ?_ ?_ (hunforked _)
        · intro hne
          exact absurd rfl hne
        · intro hne
          cases hne
        · intro hsynced _
          exact Or.inr (hmeet hsynced)
      | arrives fetched hother =>
        refine h.update (hself _) (hkept _) id rfl (fun _ => hrest) (h.rest _)
          ?_ ?_ ?_ (hunforked _)
        · intro _ _
          exact harrive hother
        · intro _ hne
          exact absurd hne hother
        · intro _ hne
          cases hne
      | leaves hthis hother =>
        refine h.update (hself _) (hkept _) id rfl (fun _ => hrest) (h.rest _)
          ?_ ?_ ?_ (hunforked _)
        · intro hne
          exact absurd rfl hne
        · intro hne
          cases hne
        · intro hne
          rw [hother] at hne
          cases hne
      | stays hthis hother =>
        refine h.update (hself _) (hkept _) id rfl (fun _ => hrest) (h.rest _)
          ?_ ?_ ?_ (hunforked _)
        · exact fun _ hne => absurd hother hne
        · exact h.left c
        · intro hne
          rw [hother] at hne
          cases hne
    · exact h

lemma Inv.execute (h : Inv s) (latest : GCodeMachineState) (previous : List GCodeMachineState)
    (moves : Channel → Bool) : Inv (step s (.execute c latest previous moves)) := by
  rw [step]
  split
  · next hguard =>
    obtain ⟨hlive, hlive', hrunning⟩ := hguard
    have hrun : (s.gb c).syncState = .running := hrunning
    have hself : ∀ gb : GCodeBuffer, Function.update s.gb c gb c = gb :=
      fun gb => Function.update_self ..
    refine h.update (hself _) (Function.update_of_ne (other_ne c) _ _) (fun _ => hlive) rfl
      ?_ ?_ ?_ ?_ ?_ ?_
    · intro hne
      exact absurd hrun hne
    · intro hwaits
      have hstill := h.rest _ hwaits
      have hnone : (s.gb c).executeAllCommands = false := by
        cases hall : (s.gb c).executeAllCommands with
        | false => rfl
        | true =>
          obtain ⟨rfl, -⟩ := h.alone hlive hall
          exact absurd (h.unforked hall) hwaits
      simp [hstill, other_ne, GCodeBuffer.executingAll, hnone]
    · intro hne
      exact absurd hrun hne
    · intro hsynced
      rw [hrun] at hsynced
      cases hsynced
    · intro hsynced _
      have hleft := h.left c.other hsynced
      rw [other_other] at hleft
      rcases hleft hrun with hdead | hpassed
      · rw [hlive] at hdead
        cases hdead
      · exact Or.inr hpassed
    · intro _ _
      exact hrun
  · exact h

lemma Inv.endFile (h : Inv s) (c : Channel) : Inv (step s (.endFile c)) := by
  rw [step]
  apply h.update (c := c) (Function.update_self ..) (Function.update_of_ne (other_ne c) _ _)
  · intro hlive
    cases hlive
  · rfl
  · intro hne
    exact absurd rfl hne
  · exact h.rest _
  · intro hne
    exact absurd rfl hne
  · intro hsynced
    cases hsynced
  · intro _ _
    exact Or.inl rfl
  · intro _ _
    rfl

lemma Inv.fork (h : Inv s) : Inv (step s .fork) := by
  rw [step]
  split
  · next hguard =>
    obtain ⟨-, hall, hrunning⟩ := hguard
    have hrunning2 := h.unforked hall
    refine ⟨?_, ?_, ?_, ?_, ?_⟩
    · intro c hc
      cases c with
      | file => exact absurd hrunning hc
      | file2 => exact absurd hrunning2 hc
    · intro hfile
      exact absurd hrunning hfile
    · intro c hc
      cases c with
      | file =>
        have hsynced : (s.gb .file).syncState = .synced := hc
        rw [hrunning] at hsynced
        cases hsynced
      | file2 =>
        have hsynced : (s.gb .file2).syncState = .synced := hc
        rw [hrunning2] at hsynced
        cases hsynced
    · intro _ c
      cases c <;> rfl
    · intro hnone
      cases hnone
  · exact h

lemma Inv.step (h : Inv s) {e : Event} (he : Orderly s e) : Inv (step s e) := by
  cases e with
  | execute c latest previous moves => exact h.execute latest previous moves
  | standstill c =>
    refine ⟨?_, h.same, h.left, h.forked, h.unforked⟩
    intro d hd
    by_cases hdc : d = c
    · subst hdc
      exact Function.update_self ..
    · exact (Function.update_of_ne hdc _ _).trans (h.rest d hd)
  | sync c locked =>
    rw [SyncWith.step]
    split
    · next hlive => exact h.sync hlive he
    · exact h
  | fork => exact h.fork
  | endFile c => exact h.endFile c

/-! ### What a call finds -/

/-- The other channel is stopped where this one is, or it is past it or has no file. -/
lemma Inv.call (h : Inv s) {locked : Bool} (he : Orderly s (.sync c locked))
    (hlive : (s.gb c).isLive = true)
    (hreport : (doSync s c locked).2.synced = true ∨ (doSync s c locked).2.fetched = true) :
    StoppedAt s c.other (s.gb c).position ∨ Gone s c.other (s.gb c) := by
  have hstopped : (s.gb c.other).syncState ≠ .running →
      StoppedAt s c.other (s.gb c).position := by
    intro hother
    apply h.stoppedAt hother
    by_cases hthis : (s.gb c).syncState = .running
    · exact he.1 hthis hother
    · exact h.same_other c hthis hother
  rw [doSync] at hreport
  by_cases hall : (s.gb c).executingAll = true
  · obtain ⟨rfl, hnone⟩ := h.alone hlive hall
    exact Or.inr (Or.inl hnone)
  · rw [if_neg hall] at hreport
    split at hreport
    · have hcases := syncWith_cases (s.gb c) (s.gb c.other)
      generalize syncWith (s.gb c) (s.gb c.other) = r at hcases hreport
      cases hcases with
      | skipped hthis hother hlater =>
        rcases isLaterThan_spec hlater with hdead | hpast | hentered
        · exact Or.inr (Or.inl hdead)
        · exact Or.inr (Or.inr ⟨hother, Or.inr hpast⟩)
        · exact absurd hentered (he.2 hother)
      | waits hthis hother => simp at hreport
      | meets fetched hother => exact Or.inl (hstopped hother)
      | arrives fetched hother => exact Or.inl (hstopped hother)
      | leaves hthis hother =>
        rcases h.left c hthis hother with hdead | hpassed
        · exact Or.inr (Or.inl hdead)
        · exact Or.inr (Or.inr ⟨hother, Or.inl hpassed⟩)
      | stays hthis hother => simp at hreport
    · simp at hreport

/-- The job is forked, both channels read on, and the File2 channel stops further on. -/
def forkedRun : List Event :=
  let line (fpos queue : ℕ) : GCodeMachineState := ⟨fpos, true, queue⟩
  [.execute .file (line 10 0) [] (fun _ => false), .fork,
    .execute .file2 (line 20 1) [] (fun c => c == .file2),
    .execute .file (line 30 1) [] (fun _ => false)]

end RepRapFirmware.GCodes.SyncWith
