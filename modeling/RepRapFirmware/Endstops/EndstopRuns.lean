import Mathlib
import RepRapFirmware.Endstops.EndstopStops
import RepRapFirmware.Library.Runs

/-! All the checks of the endstops in one move. -/

namespace RepRapFirmware.Endstops

open RepRapFirmware.Library.Runs

/-! ### The effect of the stops on the drives -/

namespace Stop

/-- What the stop was to do has been done. -/
def Done (maxAxesPlusExtruders : ℕ) (drives : ℕ → Drive) : Stop → Prop
  | .all => ∀ drive < maxAxesPlusExtruders, (drives drive).moving = false
  | .axis a => (drives a).moving = false
  | .driver a _ d => d ∉ (drives a).driversCurrentlyUsed

variable {n : ℕ} {executingMove : Bool} {drives drives' : ℕ → Drive} {stop : Stop}

/-- Drives are only ever stopped. -/
structure Quieter (drives drives' : ℕ → Drive) : Prop where
  moving : ∀ drive, (drives drive).moving = false → (drives' drive).moving = false
  drivers : ∀ drive,
    (drives' drive).driversCurrentlyUsed ⊆ (drives drive).driversCurrentlyUsed

lemma Quieter.refl (drives : ℕ → Drive) : Quieter drives drives :=
  ⟨fun _ h => h, fun _ => Finset.Subset.refl _⟩

lemma Quieter.trans {drives'' : ℕ → Drive} (h : Quieter drives drives')
    (h' : Quieter drives' drives'') : Quieter drives drives'' :=
  ⟨fun drive hstopped => h'.moving drive (h.moving drive hstopped),
    fun drive => (h'.drivers drive).trans (h.drivers drive)⟩

lemma Quieter.done (h : Quieter drives drives') (hdone : stop.Done n drives) :
    stop.Done n drives' := by
  cases stop with
  | all => exact fun drive hdrive => h.moving drive (hdone drive hdrive)
  | axis a => exact h.moving a hdone
  | driver a p d => exact fun hused => hdone (h.drivers a hused)

lemma quieter_update {drive : ℕ} {d : Drive} (hmoving : (drives drive).moving = false →
    d.moving = false) (hdrivers : d.driversCurrentlyUsed ⊆ (drives drive).driversCurrentlyUsed) :
    Quieter drives (Function.update drives drive d) := by
  constructor <;> intro drive'
  · by_cases hsame : drive' = drive
    · subst hsame
      rw [Function.update_self]
      exact hmoving
    · rw [Function.update_of_ne hsame]
      exact id
  · by_cases hsame : drive' = drive
    · subst hsame
      rw [Function.update_self]
      exact hdrivers
    · rw [Function.update_of_ne hsame]

lemma quieter_stopAxisOrExtruder (drives : ℕ → Drive) (drive : ℕ) :
    Quieter drives (MoveState.stopAxisOrExtruder drives drive) :=
  quieter_update (fun _ => rfl) (Finset.Subset.refl _)

lemma stopAllDrivers_spec (n : ℕ) (drives : ℕ → Drive) :
    Quieter drives (MoveState.stopAllDrivers n drives) ∧
      Stop.all.Done n (MoveState.stopAllDrivers n drives) := by
  induction n with
  | zero => exact ⟨Quieter.refl drives, fun drive hdrive => absurd hdrive (Nat.not_lt_zero drive)⟩
  | succ n ih =>
    have hnext : MoveState.stopAllDrivers (n + 1) drives =
        MoveState.stopAxisOrExtruder (MoveState.stopAllDrivers n drives) n := by
      simp only [MoveState.stopAllDrivers, List.range_succ, List.foldl_append, List.foldl_cons,
        List.foldl_nil]
    obtain ⟨hquieter, hdone⟩ := ih
    have hlast := quieter_stopAxisOrExtruder (MoveState.stopAllDrivers n drives) n
    rw [hnext]
    refine ⟨hquieter.trans hlast, fun drive hdrive => ?_⟩
    rcases Nat.lt_succ_iff_lt_or_eq.mp hdrive with hbefore | rfl
    · exact hlast.moving drive (hdone drive hbefore)
    · rw [MoveState.stopAxisOrExtruder, Function.update_self]

lemma apply_spec (n : ℕ) (executingMove : Bool) (drives : ℕ → Drive) (stop : Stop) :
    Quieter drives (stop.apply n executingMove drives) ∧
      stop.Done n (stop.apply n executingMove drives) := by
  cases stop with
  | all => exact stopAllDrivers_spec n drives
  | axis a =>
    refine ⟨quieter_stopAxisOrExtruder drives a, ?_⟩
    change (Function.update drives a _ a).moving = false
    rw [Function.update_self]
  | driver a p d =>
    refine ⟨quieter_update id (Finset.erase_subset _ _), ?_⟩
    change d ∉ (Function.update drives a _ a).driversCurrentlyUsed
    rw [Function.update_self]
    exact Finset.notMem_erase d _

lemma foldl_apply_spec (stops : List Stop) (drives : ℕ → Drive) :
    Quieter drives (stops.foldl (Stop.apply n executingMove) drives) ∧
      ∀ stop ∈ stops, stop.Done n (stops.foldl (Stop.apply n executingMove) drives) := by
  induction stops generalizing drives with
  | nil => exact ⟨Quieter.refl drives, fun _ h => absurd h List.not_mem_nil⟩
  | cons stop stops ih =>
    obtain ⟨hquieter, hdone⟩ := apply_spec n executingMove drives stop
    obtain ⟨hquieter', hdone'⟩ := ih (stop.apply n executingMove drives)
    exact ⟨hquieter.trans hquieter', List.forall_mem_cons.mpr ⟨hquieter'.done hdone, hdone'⟩⟩

end Stop

/-! ### The start of a move -/

/-- The ways to activate endstops for a move. -/
inductive Enabling
  | axes (axisEndstops : AxisEndstops) (which : Finset ℕ) (forHoming : Bool)
  | zProbe (probe : Option ZProbe)

def Enabling.manager (cfg : Configuration) : Enabling → Option EndstopsManager
  | .axes axisEndstops which forHoming =>
    EndstopsManager.enableAxisEndstops cfg axisEndstops which forHoming
  | .zProbe probe => some (EndstopsManager.enableZProbe probe)

section Start

variable {cfg : Configuration}

lemma primeAxis_getAxis (e : EndstopOrZProbe) : (e.primeAxis cfg).getAxis = e.getAxis := by
  cases e <;> rfl

lemma primeAxis_counted (e : EndstopOrZProbe) : (e.primeAxis cfg).Counted cfg := by
  cases e with
  | switch e =>
    refine ⟨fun i hi => Finset.mem_range.mp hi, ?_⟩
    change (if e.numPortsUsed ≠ (cfg.axisDrivers e.axis).numDrivers then 1 else e.numPortsUsed) =
      if e.numPortsUsed = (cfg.axisDrivers e.axis).numDrivers then
        (Finset.range e.numPortsUsed).card else 1
    rw [Finset.card_range, ite_not]
  | zProbeEndstop e => trivial
  | zProbe e => trivial

lemma enableAxes_spec {axisEndstops : AxisEndstops} {axes : List ℕ}
    {active enabled : List EndstopOrZProbe}
    (h : EndstopsManager.enableAxes cfg axisEndstops axes active = some enabled)
    (hnodup : axes.Nodup) (hcounted : ∀ e ∈ active, e.Counted cfg)
    (hdistinct : active.Pairwise OtherAxis)
    (hnew : ∀ axis ∈ axes, ∀ e ∈ active, e.getAxis ≠ some axis) :
    (∀ e ∈ enabled, e.Counted cfg) ∧ enabled.Pairwise OtherAxis := by
  induction axes generalizing active with
  | nil =>
    obtain rfl := Option.some.inj h
    exact ⟨hcounted, hdistinct⟩
  | cons axis axes ih =>
    rw [EndstopsManager.enableAxes] at h
    rw [List.nodup_cons] at hnodup
    split at h
    · exact nomatch h
    · next e he =>
      have haxis : (e.primeAxis cfg).getAxis = some axis :=
        (primeAxis_getAxis e).trans (axisEndstops.haxis axis e he)
      apply ih h hnodup.2
      · exact List.forall_mem_cons.mpr ⟨primeAxis_counted e, hcounted⟩
      · refine List.pairwise_cons.mpr ⟨fun e' he' a ha => ?_, hdistinct⟩
        obtain rfl := Option.some.inj (haxis.symm.trans ha)
        exact hnew axis List.mem_cons_self e' he'
      · intro axis' hmem e' he'
        rcases List.mem_cons.mp he' with rfl | hold
        · rw [haxis]
          rintro hsame
          obtain rfl := Option.some.inj hsame
          exact hnodup.1 hmem
        · exact hnew axis' (List.mem_cons_of_mem axis hmem) e' hold

lemma Enabling.spec {enabling : Enabling} {m : EndstopsManager}
    (h : enabling.manager cfg = some m) :
    (∀ e ∈ m.activeEndstops, e.Counted cfg) ∧ m.activeEndstops.Pairwise OtherAxis := by
  cases enabling with
  | axes axisEndstops which forHoming =>
    obtain ⟨active, henabled, rfl⟩ := Option.map_eq_some_iff.mp h
    exact enableAxes_spec henabled (Finset.sort_nodup which (· ≤ ·))
      (fun _ he => absurd he List.not_mem_nil) .nil fun _ _ _ he => absurd he List.not_mem_nil
  | zProbe probe =>
    obtain rfl := Option.some.inj h
    cases probe with
    | none => exact ⟨fun _ he => absurd he List.not_mem_nil, .nil⟩
    | some probe =>
      refine ⟨fun e he => ?_, List.pairwise_singleton _ _⟩
      obtain rfl := List.mem_singleton.mp he
      trivial

end Start

/-! ### The checks of a move -/

/-- The endstop stops everything when it is triggered. -/
def EndstopOrZProbe.DemandsAll : EndstopOrZProbe → Prop
  | .switch e => e.stopAll = true
  | .zProbeEndstop e => e.stopAll = true
  | .zProbe _ => True

def EndstopOrZProbe.Triggered (inp : Inputs) : EndstopOrZProbe → Prop
  | .switch e => e.triggeredPorts inp ≠ []
  | .zProbeEndstop e => inp.zProbeStopped e.zProbeNumber = some true
  | .zProbe e => inp.zProbeStopped e.number = some (!e.probingAway)

lemma stopsAll_iff {cfg : Configuration} {inp : Inputs} (e : EndstopOrZProbe) :
    e.stopsAll cfg inp ↔ e.DemandsAll ∧ e.Triggered inp := by
  cases e with
  | switch e =>
    rw [EndstopOrZProbe.stopsAll, EndstopOrZProbe.checkTriggered, SwitchEndstop.checkTriggered,
      EndstopOrZProbe.DemandsAll, EndstopOrZProbe.Triggered]
    cases e.triggeredPorts inp with
    | nil => exact ⟨(fun h => by cases h), fun h => absurd rfl h.2⟩
    | cons port ports =>
      simp only [List.head?_cons]
      by_cases hall : e.stopAll = true
      · rw [if_pos hall]
        exact ⟨fun _ => ⟨hall, List.cons_ne_nil _ _⟩, fun _ => rfl⟩
      · rw [if_neg hall]
        refine ⟨fun h => ?_, fun h => absurd h.1 hall⟩
        split at h <;> cases h
  | zProbeEndstop e =>
    rw [EndstopOrZProbe.stopsAll, EndstopOrZProbe.checkTriggered, ZProbeEndstop.checkTriggered,
      EndstopOrZProbe.DemandsAll, EndstopOrZProbe.Triggered]
    by_cases hstopped : inp.zProbeStopped e.zProbeNumber = some true
    · rw [if_pos hstopped]
      cases e.stopAll <;> simp [hstopped]
    · rw [if_neg hstopped]
      exact ⟨(fun h => by cases h), fun h => absurd h.2 hstopped⟩
  | zProbe e =>
    rw [EndstopOrZProbe.stopsAll, EndstopOrZProbe.checkTriggered, ZProbe.checkTriggered,
      EndstopOrZProbe.DemandsAll, EndstopOrZProbe.Triggered]
    cases inp.zProbeStopped e.number with
    | none => exact ⟨(fun h => by cases h), (fun h => by cases h.2)⟩
    | some stopped =>
      cases stopped <;> cases e.probingAway <;> simp [EndstopHitDetails.init]

/-- The first check comes before the move is executed. -/
structure Check where
  executingMove : Bool
  inp : Inputs

def MoveState.check (cfg : Configuration) (maxAxesPlusExtruders : ℕ) (s : MoveState) (c : Check) :
    MoveState :=
  s.checkEndstops cfg maxAxesPlusExtruders c.executingMove c.inp

def MoveState.start (m : EndstopsManager) (drives : ℕ → Drive) : MoveState := ⟨m, drives, [], []⟩

/-- The invariant of the checks: what has been stopped is not stopped again by an endstop that is
still active. -/
structure Consistent (cfg : Configuration) (s : MoveState) : Prop where
  counted : ∀ e ∈ s.manager.activeEndstops, e.Counted cfg
  distinct : s.manager.activeEndstops.Pairwise OtherAxis
  once : s.stops.Pairwise Stop.Allows
  fresh : ∀ stop ∈ s.stops, ∀ e ∈ s.manager.activeEndstops, ∀ later, e.May later →
    stop.Allows later

/-- What a check has to do, as the state changes from `s` to `s'`. -/
structure Checked (cfg : Configuration) (n : ℕ) (c : Check) (s s' : MoveState) : Prop where
  /-- An endstop that is triggered and stops everything. -/
  all : (∃ e ∈ s.manager.activeEndstops, e.DemandsAll ∧ e.Triggered c.inp) →
    s'.manager.activeEndstops = [] ∧ s'.stops = s.stops ++ [.all] ∧
      ∀ drive < n, (s'.drives drive).moving = false
  /-- Otherwise the endstops stop what they are due to stop, and are active no longer if that is
  the axis. -/
  each : (∀ e ∈ s.manager.activeEndstops, ¬ (e.DemandsAll ∧ e.Triggered c.inp)) →
    ∃ new, s'.stops = s.stops ++ new ∧ (∀ stop ∈ new, stop.Done n s'.drives) ∧
      (∀ stop ∈ new, ∃ e ∈ s.manager.activeEndstops, stop ∈ e.hits cfg c.inp) ∧
      (∀ e, .switch e ∈ s.manager.activeEndstops → ∀ port ∈ e.triggeredPorts c.inp,
        e.driverStop cfg port ∈ new ∨ .axis e.axis ∈ new ∧
          (e.numPortsUsed ≠ (cfg.axisDrivers e.axis).numDrivers ∨
            ∀ other ∈ e.portsLeftToTrigger, other ≠ port → e.driverStop cfg other ∈ new)) ∧
      (∀ e, .zProbeEndstop e ∈ s.manager.activeEndstops →
        c.inp.zProbeStopped e.zProbeNumber = some true → .axis e.axis ∈ new) ∧
      (∀ axis, .axis axis ∈ new → ∀ e ∈ s'.manager.activeEndstops, e.getAxis ≠ some axis)

section Checks

variable {cfg : Configuration} {n : ℕ} {c : Check} {s : MoveState}

lemma start_consistent {enabling : Enabling} {m : EndstopsManager}
    (h : enabling.manager cfg = some m) (drives : ℕ → Drive) :
    Consistent cfg (.start m drives) := by
  obtain ⟨hcounted, hdistinct⟩ := Enabling.spec h
  exact ⟨hcounted, hdistinct, .nil, fun _ hstop => absurd hstop List.not_mem_nil⟩

instance : Std.Symm OtherAxis := ⟨fun _ _ => OtherAxis.symm⟩

/-- An endstop that is left may do nothing that has been done in the check. -/
lemma rest_allows {e e' : EndstopOrZProbe} {stop later : Stop} (hconsistent : Consistent cfg s)
    (he : e ∈ s.manager.activeEndstops) (hrest : e.rest c.inp = some e') (hlater : e'.May later)
    (hstop : ∃ e₂ ∈ s.manager.activeEndstops, stop ∈ e₂.hits cfg c.inp) : stop.Allows later := by
  obtain ⟨e₂, he₂, hhit⟩ := hstop
  obtain ⟨-, hmay⟩ := rest_may cfg hrest
  obtain ⟨hmayEarlier, hallows⟩ := hmay later hlater
  by_cases hsame : e₂ = e
  · subst hsame
    exact hallows stop hhit
  · have hother : OtherAxis e₂ e := hconsistent.distinct.forall he₂ he hsame
    obtain ⟨hmayStop, hne⟩ := mem_hits hhit
    exact hother.allows hne hmayStop hmayEarlier

lemma check_all (hconsistent : Consistent cfg s)
    (h : ∃ e ∈ s.manager.activeEndstops, e.stopsAll cfg c.inp) :
    Consistent cfg (s.check cfg n c) ∧ Checked cfg n c s (s.check cfg n c) := by
  obtain ⟨hit, manager, hnone, hcheck⟩ :=
    MoveState.checkEndstops_all n c.executingMove h
  have hempty : ∀ e, e ∉ manager.activeEndstops := fun e he => by
    rw [hnone] at he
    exact absurd he List.not_mem_nil
  rw [MoveState.check, hcheck]
  obtain ⟨e, he, hstops⟩ := h
  refine ⟨⟨?_, ?_, ?_, ?_⟩, ⟨fun _ => ⟨hnone, rfl, ?_⟩, fun hcalm => ?_⟩⟩
  · exact fun e he => absurd he (hempty e)
  · change manager.activeEndstops.Pairwise OtherAxis
    rw [hnone]
    exact .nil
  · change (s.stops ++ [Stop.all]).Pairwise Stop.Allows
    rw [List.pairwise_append]
    refine ⟨hconsistent.once, List.pairwise_singleton _ _, fun stop hstop later hlater => ?_⟩
    obtain rfl := List.mem_singleton.mp hlater
    exact hconsistent.fresh stop hstop e he .all trivial
  · exact fun _ _ e he => absurd he (hempty e)
  · exact (Stop.stopAllDrivers_spec n s.drives).2
  · exact absurd ((stopsAll_iff e).mp hstops) (hcalm e he)

lemma reacts_consistent {s' : MoveState} {new : List Stop} (hconsistent : Consistent cfg s)
    (h : Reacts cfg c.inp n c.executingMove s s' new) : Consistent cfg s' := by
  have hleft : ∀ e' ∈ s'.manager.activeEndstops,
      ∃ e ∈ s.manager.activeEndstops, e.rest c.inp = some e' := by
    intro e' he'
    rw [h.active] at he'
    exact List.mem_filterMap.mp he'
  have hdue : ∀ stop ∈ new, ∃ e ∈ s.manager.activeEndstops, stop ∈ e.hits cfg c.inp :=
    fun stop hstop => List.mem_flatMap.mp (h.due.mem_iff.mp hstop)
  constructor
  · intro e' he'
    obtain ⟨e, he, hrest⟩ := hleft e' he'
    exact rest_counted (hconsistent.counted e he) hrest
  · rw [h.active]
    apply hconsistent.distinct.filterMap
    intro e₁ e₂ hother e₁' hrest₁ e₂' hrest₂
    rw [OtherAxis, (rest_may cfg hrest₁).1, (rest_may cfg hrest₂).1]
    exact hother
  · rw [h.stops, List.pairwise_append]
    refine ⟨hconsistent.once, h.once, fun stop hstop later hlater => ?_⟩
    obtain ⟨e, he, hhit⟩ := hdue later hlater
    exact hconsistent.fresh stop hstop e he later (mem_hits hhit).1
  · intro stop hstop e' he' later hlater
    obtain ⟨e, he, hrest⟩ := hleft e' he'
    rw [h.stops] at hstop
    rcases List.mem_append.mp hstop with hearlier | hnew
    · exact hconsistent.fresh stop hearlier e he later
        ((rest_may cfg hrest).2 later hlater).1
    · exact rest_allows hconsistent he hrest hlater (hdue stop hnew)

/-- A triggered switch stops its driver, or the axis as the last one or if the ports and drivers do
not match. -/
lemma switch_hits {e : SwitchEndstop} {inp : Inputs} (hcounted : e.Counted cfg) {port : ℕ}
    (hport : port ∈ e.triggeredPorts inp) : e.driverStop cfg port ∈ e.hits cfg inp ∨
      .axis e.axis ∈ e.hits cfg inp ∧
        (e.numPortsUsed ≠ (cfg.axisDrivers e.axis).numDrivers ∨ ∀ other ∈ e.portsLeftToTrigger,
          other ≠ port → e.driverStop cfg other ∈ e.hits cfg inp) := by
  rw [SwitchEndstop.hits]
  by_cases hfew : (e.triggeredPorts inp).length < e.numPortsLeftToTrigger
  · rw [if_pos hfew]
    exact .inl (List.mem_map_of_mem hport)
  rw [if_neg hfew, if_neg (List.ne_nil_of_mem hport)]
  set first := (e.triggeredPorts inp).take (e.numPortsLeftToTrigger - 1) with hfirst
  by_cases hbefore : port ∈ first
  · exact .inl (List.mem_append_left _ (List.mem_map_of_mem hbefore))
  refine .inr ⟨List.mem_append_right _ (List.mem_singleton_self _), ?_⟩
  by_cases hmatch : e.numPortsUsed = (cfg.axisDrivers e.axis).numDrivers
  · have hcount := hcounted.count
    rw [if_pos hmatch] at hcount
    have hsubset : (e.triggeredPorts inp).toFinset ⊆ e.portsLeftToTrigger :=
      fun i hi => (e.mem_triggeredPorts inp (List.mem_toFinset.mp hi)).2.1
    have hlength := List.toFinset_card_of_nodup (e.triggeredPorts_nodup inp)
    -- all the ports that are left are triggered
    have hall : (e.triggeredPorts inp).toFinset = e.portsLeftToTrigger :=
      Finset.eq_of_subset_of_card_le hsubset (by omega)
    have hequal : (e.triggeredPorts inp).length = e.numPortsLeftToTrigger := by
      rw [← hlength, hall, hcount]
    refine .inr fun other hother hne => ?_
    rw [← hall, List.mem_toFinset] at hother
    apply List.mem_append_left
    apply List.mem_map_of_mem
    by_contra hlast
    have hpos : 0 < (e.triggeredPorts inp).length := List.length_pos_of_mem hport
    obtain ⟨last, hdrop⟩ :
        ∃ last, (e.triggeredPorts inp).drop (e.numPortsLeftToTrigger - 1) = [last] := by
      apply List.length_eq_one_iff.mp
      rw [List.length_drop]
      omega
    have hend : ∀ i ∈ e.triggeredPorts inp, i ∉ first → i = last := by
      intro i hi hnot
      rw [← List.take_append_drop (e.numPortsLeftToTrigger - 1) (e.triggeredPorts inp)] at hi
      rw [← hfirst, hdrop] at hi
      exact List.mem_singleton.mp ((List.mem_append.mp hi).resolve_left hnot)
    exact hne ((hend other hother hlast).trans (hend port hport hbefore).symm)
  · exact .inl hmatch

lemma check_each (hconsistent : Consistent cfg s)
    (h : ∀ e ∈ s.manager.activeEndstops, ¬ e.stopsAll cfg c.inp) :
    Consistent cfg (s.check cfg n c) ∧ Checked cfg n c s (s.check cfg n c) := by
  obtain ⟨new, hreacts⟩ := MoveState.checkEndstops_reacts n
    c.executingMove hconsistent.counted hconsistent.distinct h
  have hconsistent' := reacts_consistent hconsistent hreacts
  have hdue : ∀ {e stop}, e ∈ s.manager.activeEndstops → stop ∈ e.hits cfg c.inp → stop ∈ new :=
    fun he hstop => hreacts.due.mem_iff.mpr (List.mem_flatMap.mpr ⟨_, he, hstop⟩)
  refine ⟨hconsistent', ⟨fun ⟨e, he, hstops⟩ => absurd ((stopsAll_iff e).mpr hstops) (h e he),
    fun _ => ?_⟩⟩
  refine ⟨new, hreacts.stops, ?_, ?_, ?_, ?_, ?_⟩
  · rw [MoveState.check, hreacts.drives]
    exact (Stop.foldl_apply_spec new s.drives).2
  · exact fun stop hstop => List.mem_flatMap.mp (hreacts.due.mem_iff.mp hstop)
  · intro e he port hport
    have hcounted : e.Counted cfg := hconsistent.counted (.switch e) he
    rcases switch_hits hcounted hport with hdriver | ⟨haxis, hlast⟩
    · exact .inl (hdue he hdriver)
    · exact .inr ⟨hdue he haxis, hlast.imp_right fun hothers other hother hne =>
        hdue he (hothers other hother hne)⟩
  · intro e he hstopped
    apply hdue he
    rw [EndstopOrZProbe.hits, if_pos hstopped]
    exact List.mem_singleton_self _
  · intro axis haxis e he hsame
    have hmem : Stop.axis axis ∈ (s.check cfg n c).stops := by
      rw [MoveState.check, hreacts.stops]
      exact List.mem_append_right _ haxis
    exact hconsistent'.fresh _ hmem e he (.axis axis) hsame rfl

lemma check_spec (hconsistent : Consistent cfg s) (c : Check) :
    Consistent cfg (s.check cfg n c) ∧ Checked cfg n c s (s.check cfg n c) := by
  by_cases h : ∃ e ∈ s.manager.activeEndstops, e.stopsAll cfg c.inp
  · exact check_all hconsistent h
  · exact check_each hconsistent fun e he hstops => h ⟨e, he, hstops⟩

/-- Every check of a move stops what it has to stop, and in the whole move nothing is stopped
twice. -/
theorem endstop_hits_once (cfg : Configuration) (n : ℕ) {enabling : Enabling}
    {m : EndstopsManager} (h : enabling.manager cfg = some m) (drives : ℕ → Drive)
    (checks : List Check) :
    Along (MoveState.check cfg n) (fun s c => Checked cfg n c s (s.check cfg n c))
        (.start m drives) checks ∧
      (run (MoveState.check cfg n) (.start m drives) checks).stops.Pairwise Stop.Allows := by
  have hstart := start_consistent h drives
  constructor
  · have halong : Along (MoveState.check cfg n) (fun _ _ => True) (.start m drives) checks :=
      along_of_forall (fun _ _ => trivial) checks
    exact halong.of_invariant hstart
      (fun s c hconsistent _ => (check_spec hconsistent c).1)
      fun s c hconsistent _ => (check_spec hconsistent c).2
  · exact (invariant hstart (fun s c hconsistent => (check_spec hconsistent c).1) checks).once

/-- Two switches on an axis with two drivers. -/
def switchPair : SwitchEndstop := ⟨0, false, 2, ∅, 0, false, by decide⟩

def pairEndstops : AxisEndstops where
  endstop axis := if axis = 0 then some (.switch switchPair) else none
  haxis axis e h := by
    split at h
    · next hzero =>
      obtain rfl := Option.some.inj h
      rw [hzero]
      rfl
    · exact nomatch h

def pairConfiguration : Configuration := ⟨fun _ => ⟨2, id⟩, fun axis => [axis]⟩

/-- One switch triggers, then both. -/
def pairChecks : List Check :=
  [⟨true, ⟨fun _ port => port == 1, fun _ => none⟩⟩, ⟨true, ⟨fun _ _ => true, fun _ => none⟩⟩]

theorem endstop_hits_once_pair :
    Along (MoveState.check pairConfiguration 1)
        (fun s c => Checked pairConfiguration 1 c s (s.check pairConfiguration 1 c))
        (.start ⟨[.switch (switchPair.primeAxis pairConfiguration)], true⟩
          fun _ => ⟨true, {0, 1}, ∅⟩) pairChecks ∧
      (run (MoveState.check pairConfiguration 1)
        (.start ⟨[.switch (switchPair.primeAxis pairConfiguration)], true⟩
          fun _ => ⟨true, {0, 1}, ∅⟩) pairChecks).stops.Pairwise Stop.Allows := by
  have henabled : (Enabling.axes pairEndstops {0} true).manager pairConfiguration =
      some ⟨[.switch (switchPair.primeAxis pairConfiguration)], true⟩ := by
    rw [Enabling.manager, EndstopsManager.enableAxisEndstops, Finset.sort_singleton]
    rfl
  exact endstop_hits_once pairConfiguration 1 henabled _ _

end Checks

end RepRapFirmware.Endstops
