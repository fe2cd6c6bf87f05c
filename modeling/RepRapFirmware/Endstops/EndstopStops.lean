import Mathlib
import RepRapFirmware.Endstops.EndstopsManager

/-! What the endstops stop in one check, and that they do it once in a move. -/

namespace RepRapFirmware.Endstops

/-! ### One endstop in one check -/

namespace SwitchEndstop

variable (cfg : Configuration) (inp : Inputs) (e : SwitchEndstop)

def driverStop (i : ℕ) : Stop := .driver e.axis i ((cfg.axisDrivers e.axis).driverNumbers i)

/-- The stops that the endstop is due: of the drivers of its triggered switches, or of the axis in
place of the last one that is left. -/
def hits : List Stop :=
  if (e.triggeredPorts inp).length < e.numPortsLeftToTrigger then
    (e.triggeredPorts inp).map (e.driverStop cfg)
  else if e.triggeredPorts inp = [] then []
  else ((e.triggeredPorts inp).take (e.numPortsLeftToTrigger - 1)).map (e.driverStop cfg) ++
    [.axis e.axis]

/-- What is left of the endstop, if it has not stopped its axis. -/
def rest : Option SwitchEndstop :=
  if (e.triggeredPorts inp).length < e.numPortsLeftToTrigger ∨ e.triggeredPorts inp = [] then
    some { e with
      portsLeftToTrigger := e.portsLeftToTrigger \ (e.triggeredPorts inp).toFinset
      numPortsLeftToTrigger := e.numPortsLeftToTrigger - (e.triggeredPorts inp).length }
  else none

/-- The counter is that of the ports left, or one if ports and drivers do not match. -/
structure Counted : Prop where
  ports : ∀ i ∈ e.portsLeftToTrigger, i < e.numPortsUsed
  count : e.numPortsLeftToTrigger =
    if e.numPortsUsed = (cfg.axisDrivers e.axis).numDrivers then e.portsLeftToTrigger.card else 1

end SwitchEndstop

namespace EndstopOrZProbe

variable (cfg : Configuration) (inp : Inputs)

def hits : EndstopOrZProbe → List Stop
  | .switch e => e.hits cfg inp
  | .zProbeEndstop e => if inp.zProbeStopped e.zProbeNumber = some true then [.axis e.axis] else []
  | .zProbe _ => []

def rest : EndstopOrZProbe → Option EndstopOrZProbe
  | .switch e => (e.rest inp).map .switch
  | .zProbeEndstop e =>
    if inp.zProbeStopped e.zProbeNumber = some true then none else some (.zProbeEndstop e)
  | .zProbe e => some (.zProbe e)

def Counted : EndstopOrZProbe → Prop
  | .switch e => e.Counted cfg
  | .zProbeEndstop _ => True
  | .zProbe _ => True

/-- The endstop is triggered and stops everything. -/
def stopsAll (e : EndstopOrZProbe) : Prop := (e.checkTriggered cfg inp).action = .stopAll

instance (e : EndstopOrZProbe) : Decidable (e.stopsAll cfg inp) :=
  inferInstanceAs (Decidable (_ = _))

end EndstopOrZProbe

namespace Stop

def onAxis : Stop → Option ℕ
  | .all => none
  | .axis a => some a
  | .driver a _ _ => some a

/-- Whether another stop may follow: none follows when everything has been stopped, none of the same
axis when that has been stopped, and none by the same port. -/
def Allows : Stop → Stop → Prop
  | .all, _ => False
  | .axis a, later => later.onAxis ≠ some a
  | .driver a p _, later => ∀ d, later ≠ .driver a p d

end Stop

/-- The endstop may cause the stop, in this check or later. -/
def EndstopOrZProbe.May (e : EndstopOrZProbe) : Stop → Prop
  | .all => True
  | .axis a => e.getAxis = some a
  | .driver a p _ => ∃ sw, e = .switch sw ∧ sw.axis = a ∧ p ∈ sw.portsLeftToTrigger

/-- No two endstops are on the same axis. -/
def OtherAxis (e e' : EndstopOrZProbe) : Prop := ∀ a, e.getAxis = some a → e'.getAxis ≠ some a

section OneStep

variable {cfg : Configuration} {inp : Inputs}

namespace SwitchEndstop

variable {e : SwitchEndstop}

/-- The endstop after it has stopped the driver of port `i`. -/
def driverStopped (e : SwitchEndstop) (i : ℕ) : SwitchEndstop :=
  { e with
    portsLeftToTrigger := e.portsLeftToTrigger.erase i
    numPortsLeftToTrigger := e.numPortsLeftToTrigger - 1 }

lemma triggeredPorts_nodup (e : SwitchEndstop) (inp : Inputs) : (e.triggeredPorts inp).Nodup :=
  List.nodup_range.filter _

lemma triggeredPorts_driverStopped {i : ℕ} {ports : List ℕ}
    (h : e.triggeredPorts inp = i :: ports) : (e.driverStopped i).triggeredPorts inp = ports := by
  have hfilter : (e.driverStopped i).triggeredPorts inp =
      (e.triggeredPorts inp).filter (fun j => decide (j ≠ i)) := by
    rw [triggeredPorts, triggeredPorts, List.filter_filter]
    apply List.filter_congr
    intro j _
    change (decide (j ∈ e.portsLeftToTrigger.erase i) && inp.port e.axis j) = _
    simp only [Finset.mem_erase, Bool.decide_and, Bool.and_assoc]
  have hnodup := e.triggeredPorts_nodup inp
  rw [h, List.nodup_cons] at hnodup
  rw [hfilter, h, List.filter_cons_of_neg (by simp), List.filter_eq_self]
  intro j hj
  simp only [decide_eq_true_eq]
  rintro rfl
  exact hnodup.1 hj

lemma Counted.pos (h : e.Counted cfg) (htriggered : e.triggeredPorts inp ≠ []) :
    1 ≤ e.numPortsLeftToTrigger := by
  obtain ⟨i, hi⟩ := List.exists_mem_of_ne_nil _ htriggered
  rw [h.count]
  split
  · exact Finset.card_pos.mpr ⟨i, (e.mem_triggeredPorts inp hi).2.1⟩
  · exact le_rfl

lemma Counted.driverStopped {i : ℕ} (h : e.Counted cfg) (hi : i ∈ e.portsLeftToTrigger)
    (hmany : e.numPortsLeftToTrigger ≠ 1) : (e.driverStopped i).Counted cfg := by
  have hcount := h.count
  refine ⟨fun j hj => h.ports j (Finset.mem_of_mem_erase hj), ?_⟩
  change e.numPortsLeftToTrigger - 1 = if e.numPortsUsed = (cfg.axisDrivers e.axis).numDrivers then
    (e.portsLeftToTrigger.erase i).card else 1
  split at hcount
  · next hmatch => rw [if_pos hmatch, Finset.card_erase_of_mem hi, hcount]
  · exact absurd hcount hmany

lemma hits_driverStopped (cfg : Configuration) {i : ℕ} {ports : List ℕ}
    (h : e.triggeredPorts inp = i :: ports)
    (hmany : 2 ≤ e.numPortsLeftToTrigger) :
    e.hits cfg inp = e.driverStop cfg i :: (e.driverStopped i).hits cfg inp ∧
      e.rest inp = (e.driverStopped i).rest inp := by
  have hlater := triggeredPorts_driverStopped h
  obtain ⟨left, hleft⟩ := Nat.exists_eq_add_of_le hmany
  have hleft' : (e.driverStopped i).numPortsLeftToTrigger = left + 1 := by
    change e.numPortsLeftToTrigger - 1 = left + 1
    omega
  constructor
  · rw [hits, hits, h, hlater, hleft', hleft, List.length_cons]
    by_cases hfew : ports.length < left + 1
    · rw [if_pos (by omega), if_pos hfew, List.map_cons]
      rfl
    · have hports : ports ≠ [] := by
        rintro rfl
        exact hfew (Nat.succ_pos left)
      rw [if_neg (by omega), if_neg (List.cons_ne_nil _ _), if_neg hfew, if_neg hports,
        show 2 + left - 1 = left + 1 by omega, List.take_succ_cons, List.map_cons]
      rfl
  · rw [rest, rest, h, hlater, hleft', hleft, List.length_cons]
    by_cases hfew : ports.length < left + 1
    · rw [if_pos (.inl (by omega)), if_pos (.inl hfew)]
      congr 1
      simp only [driverStopped, mk.injEq, true_and, and_true]
      constructor
      · ext j
        simp only [Finset.mem_sdiff, Finset.mem_erase, List.mem_toFinset, List.mem_cons]
        tauto
      · omega
    · have hports : ports ≠ [] := by
        rintro rfl
        exact hfew (Nat.succ_pos left)
      have hmore : ¬ (ports.length + 1 < 2 + left ∨ i :: ports = []) :=
        not_or.mpr ⟨by omega, List.cons_ne_nil _ _⟩
      rw [if_neg hmore, if_neg (not_or.mpr ⟨hfew, hports⟩)]

end SwitchEndstop

/-- What an endstop that is checked comes to, if it does not stop everything: it is not triggered,
it stops its axis and has finished, or it stops a driver and goes on. -/
inductive Outcome (cfg : Configuration) (inp : Inputs) (e : EndstopOrZProbe) :
    EndstopHitDetails → Prop
  | idle (hits : e.hits cfg inp = []) (rest : e.rest inp = some e) (hd : EndstopHitDetails)
      (haction : hd.action = .none) : Outcome cfg inp e hd
  | axis (axis : ℕ) (hits : e.hits cfg inp = [.axis axis]) (rest : e.rest inp = none)
      (hd : EndstopHitDetails) (haction : hd.action = .stopAxis) (haxis : hd.axis = some axis)
      (done : (e.acknowledge hd).1 = true) : Outcome cfg inp e hd
  | driver (axis port driver : ℕ) (later : EndstopOrZProbe)
      (hits : e.hits cfg inp = .driver axis port driver :: later.hits cfg inp)
      (rest : e.rest inp = later.rest inp) (counted : later.Counted cfg)
      (calm : ¬ later.stopsAll cfg inp) (sameAxis : later.getAxis = e.getAxis)
      (once : ∀ stop, later.May stop → (Stop.driver axis port driver).Allows stop)
      (hd : EndstopHitDetails) (haction : hd.action = .stopDriver) (haxis : hd.axis = some axis)
      (hport : hd.internalUse = port) (hdriver : hd.driver = driver)
      (notDone : e.acknowledge hd = (false, later)) : Outcome cfg inp e hd

lemma outcome {e : EndstopOrZProbe} (hcounted : e.Counted cfg) (hcalm : ¬ e.stopsAll cfg inp) :
    Outcome cfg inp e (e.checkTriggered cfg inp) := by
  rw [EndstopOrZProbe.stopsAll] at hcalm
  cases e with
  | switch e =>
    have hcounted' : e.Counted cfg := hcounted
    rw [EndstopOrZProbe.checkTriggered] at hcalm ⊢
    rw [SwitchEndstop.checkTriggered] at hcalm ⊢
    cases hports : e.triggeredPorts inp with
    | nil =>
      apply Outcome.idle
      · change e.hits cfg inp = []
        rw [SwitchEndstop.hits, hports]
        split <;> rfl
      · change (e.rest inp).map EndstopOrZProbe.switch = some (.switch e)
        rw [SwitchEndstop.rest, hports, if_pos (.inr rfl)]
        simp
      · rfl
    | cons i ports =>
      have hmem : i ∈ e.triggeredPorts inp := by rw [hports]; exact List.mem_cons_self
      have htriggered : e.triggeredPorts inp ≠ [] := by
        rw [hports]
        exact List.cons_ne_nil _ _
      have hpos := hcounted'.pos htriggered
      rw [hports] at hcalm
      simp only [List.head?_cons] at hcalm ⊢
      have hone : e.stopAll = false := by
        by_contra hall
        rw [Bool.not_eq_false] at hall
        rw [if_pos hall] at hcalm
        exact hcalm rfl
      rw [if_neg (by rw [hone]; exact Bool.false_ne_true)]
      split
      · next hlast =>
        apply Outcome.axis e.axis
        · change e.hits cfg inp = [.axis e.axis]
          rw [SwitchEndstop.hits, hports, hlast, if_neg (by simp), if_neg (List.cons_ne_nil _ _)]
          rfl
        · change (e.rest inp).map EndstopOrZProbe.switch = none
          rw [SwitchEndstop.rest, hports, hlast, if_neg (by simp)]
          rfl
        · rfl
        · rfl
        · rfl
      · next hmany =>
        obtain ⟨hrange, hleft, -⟩ := e.mem_triggeredPorts inp hmem
        have hsmall : i % 16 = i := Nat.mod_eq_of_lt (hrange.trans_le e.hports)
        obtain ⟨hhits, hrest⟩ := SwitchEndstop.hits_driverStopped cfg hports
          (show 2 ≤ e.numPortsLeftToTrigger by omega)
        apply Outcome.driver e.axis i ((cfg.axisDrivers e.axis).driverNumbers i)
          (.switch (e.driverStopped i))
        · exact hhits
        · exact congrArg (Option.map EndstopOrZProbe.switch) hrest
        · exact hcounted'.driverStopped hleft hmany
        · rw [EndstopOrZProbe.stopsAll, EndstopOrZProbe.checkTriggered,
            SwitchEndstop.checkTriggered]
          split
          · exact fun h => by cases h
          · rw [if_neg (by change ¬ e.stopAll = true; rw [hone]; exact Bool.false_ne_true)]
            split <;> exact fun h => by cases h
        · rfl
        · rintro stop hstop d rfl
          obtain ⟨sw, hsw, -, hp⟩ := hstop
          obtain rfl := EndstopOrZProbe.switch.inj hsw
          exact Finset.notMem_erase i e.portsLeftToTrigger hp
        · rfl
        · rfl
        · exact hsmall
        · rfl
        · change (false, EndstopOrZProbe.switch (e.driverStopped (i % 16))) = _
          rw [hsmall]
  | zProbeEndstop e =>
    rw [EndstopOrZProbe.checkTriggered, ZProbeEndstop.checkTriggered] at hcalm ⊢
    by_cases hstopped : inp.zProbeStopped e.zProbeNumber = some true
    · rw [if_pos hstopped] at hcalm ⊢
      cases hall : e.stopAll with
      | true =>
        rw [hall] at hcalm
        exact absurd rfl hcalm
      | false =>
        apply Outcome.axis e.axis
        · exact if_pos hstopped
        · exact if_pos hstopped
        · rfl
        · rfl
        · rfl
    · rw [if_neg hstopped]
      apply Outcome.idle
      · exact if_neg hstopped
      · exact if_neg hstopped
      · rfl
  | zProbe e =>
    rw [EndstopOrZProbe.checkTriggered, ZProbe.checkTriggered] at hcalm ⊢
    split at hcalm
    · exact absurd rfl hcalm
    · next hstopped =>
      rw [if_neg hstopped]
      exact .idle rfl rfl _ rfl

end OneStep

/-! ### One check -/

section Stops

variable {cfg : Configuration} {inp : Inputs} {e e' : EndstopOrZProbe} {stop later : Stop}

lemma May.onAxis (h : e.May stop) : stop.onAxis = none ∨ stop.onAxis = e.getAxis := by
  cases stop with
  | all => exact .inl rfl
  | axis a => exact .inr (Eq.symm h)
  | driver a p d =>
    obtain ⟨sw, rfl, rfl, -⟩ := h
    exact .inr rfl

lemma OtherAxis.symm (h : OtherAxis e e') : OtherAxis e' e := fun a ha' ha => h a ha ha'

/-- An endstop of another axis may go on. -/
lemma OtherAxis.allows (h : OtherAxis e e') (hne : stop ≠ .all) (hstop : e.May stop)
    (hlater : e'.May later) : stop.Allows later := by
  have hdiffer : ∀ a, stop.onAxis = some a → later.onAxis ≠ some a := by
    intro a ha hlaterAxis
    rcases May.onAxis hstop with hnone | hsame
    · rw [hnone] at ha
      exact nomatch ha
    · rcases May.onAxis hlater with hnone | hsame'
      · rw [hnone] at hlaterAxis
        exact nomatch hlaterAxis
      · exact h a (hsame.symm.trans ha) (hsame'.symm.trans hlaterAxis)
  cases stop with
  | all => exact absurd rfl hne
  | axis a => exact hdiffer a rfl
  | driver a p d =>
    rintro d' rfl
    exact hdiffer a rfl rfl

lemma others_distinct {before after : List EndstopOrZProbe}
    (h : (before ++ e :: after).Pairwise OtherAxis) :
    (before ++ after).Pairwise OtherAxis ∧ ∀ e' ∈ before ++ after, OtherAxis e e' := by
  have hsub : List.Sublist (before ++ after) (before ++ e :: after) :=
    (List.sublist_cons_self e after).append_left before
  refine ⟨h.sublist hsub, fun e' he' => ?_⟩
  rw [List.pairwise_append, List.pairwise_cons] at h
  obtain ⟨-, ⟨hafter, -⟩, hbefore⟩ := h
  rcases List.mem_append.mp he' with hmem | hmem
  · exact (hbefore e' hmem e List.mem_cons_self).symm
  · exact hafter e' hmem

/-- Only the axes of the endstops matter. -/
lemma others_replaced {before after : List EndstopOrZProbe}
    (h : (before ++ e :: after).Pairwise OtherAxis) (haxis : e'.getAxis = e.getAxis) :
    (before ++ e' :: after).Pairwise OtherAxis := by
  have hiff : ∀ es : List EndstopOrZProbe, es.Pairwise OtherAxis ↔
      (es.map EndstopOrZProbe.getAxis).Pairwise fun a b => ∀ axis, a = some axis → b ≠ some axis :=
    fun es => Iff.symm (List.pairwise_map (f := EndstopOrZProbe.getAxis))
  rw [hiff, List.map_append, List.map_cons] at h ⊢
  rw [haxis]
  exact h

lemma mem_hits (h : stop ∈ e.hits cfg inp) : e.May stop ∧ stop ≠ .all := by
  cases e with
  | switch e =>
    have hdriver : ∀ i ∈ e.triggeredPorts inp,
        (EndstopOrZProbe.switch e).May (e.driverStop cfg i) ∧ e.driverStop cfg i ≠ .all :=
      fun i hi => ⟨⟨e, rfl, rfl, (e.mem_triggeredPorts inp hi).2.1⟩, (nomatch ·)⟩
    rw [EndstopOrZProbe.hits, SwitchEndstop.hits] at h
    split at h
    · obtain ⟨i, hi, rfl⟩ := List.mem_map.mp h
      exact hdriver i hi
    · split at h
      · exact absurd h List.not_mem_nil
      · rcases List.mem_append.mp h with h | h
        · obtain ⟨i, hi, rfl⟩ := List.mem_map.mp h
          exact hdriver i (List.mem_of_mem_take hi)
        · obtain rfl := List.mem_singleton.mp h
          exact ⟨rfl, (nomatch ·)⟩
  | zProbeEndstop e =>
    rw [EndstopOrZProbe.hits] at h
    split at h
    · obtain rfl := List.mem_singleton.mp h
      exact ⟨rfl, (nomatch ·)⟩
    · exact absurd h List.not_mem_nil
  | zProbe e => exact absurd h List.not_mem_nil

/-- What is left of an endstop after a check may do less than before, and nothing that it did. -/
lemma rest_may (cfg : Configuration) (h : e.rest inp = some e') : e'.getAxis = e.getAxis ∧
    (∀ later, e'.May later → e.May later ∧ ∀ stop ∈ e.hits cfg inp, stop.Allows later) := by
  cases e with
  | switch e =>
    rw [EndstopOrZProbe.rest, SwitchEndstop.rest] at h
    split at h
    · next hfew =>
      obtain rfl := Option.some.inj h
      refine ⟨rfl, fun later hlater => ⟨?_, fun stop hstop => ?_⟩⟩
      · cases later with
        | all => trivial
        | axis a => exact hlater
        | driver a p d =>
          obtain ⟨sw, hsw, rfl, hp⟩ := hlater
          obtain rfl := EndstopOrZProbe.switch.inj hsw
          exact ⟨e, rfl, rfl, (Finset.mem_sdiff.mp hp).1⟩
      · obtain ⟨i, hi, rfl⟩ : ∃ i ∈ e.triggeredPorts inp, e.driverStop cfg i = stop := by
          rw [EndstopOrZProbe.hits, SwitchEndstop.hits] at hstop
          split at hstop
          · exact List.mem_map.mp hstop
          · next hmany =>
            rw [if_pos (hfew.resolve_left hmany)] at hstop
            exact absurd hstop List.not_mem_nil
        rintro d rfl
        obtain ⟨sw, hsw, -, hp⟩ := hlater
        obtain rfl := EndstopOrZProbe.switch.inj hsw
        exact (Finset.mem_sdiff.mp hp).2 (List.mem_toFinset.mpr hi)
    · exact nomatch h
  | zProbeEndstop e =>
    rw [EndstopOrZProbe.rest] at h
    split at h
    · exact nomatch h
    · next hstopped =>
      obtain rfl := Option.some.inj h
      refine ⟨rfl, fun later hlater => ⟨hlater, fun stop hstop => ?_⟩⟩
      rw [EndstopOrZProbe.hits, if_neg hstopped] at hstop
      exact absurd hstop List.not_mem_nil
  | zProbe e =>
    obtain rfl := Option.some.inj h
    exact ⟨rfl, fun later hlater => ⟨hlater, fun stop hstop => absurd hstop List.not_mem_nil⟩⟩

lemma rest_counted (hcounted : e.Counted cfg) (h : e.rest inp = some e') : e'.Counted cfg := by
  cases e with
  | switch e =>
    have hcounted' : e.Counted cfg := hcounted
    rw [EndstopOrZProbe.rest, SwitchEndstop.rest] at h
    split at h
    · next hfew =>
      obtain rfl := Option.some.inj h
      refine ⟨fun i hi => hcounted'.ports i (Finset.mem_sdiff.mp hi).1, ?_⟩
      have hcount := hcounted'.count
      change e.numPortsLeftToTrigger - (e.triggeredPorts inp).length =
        if e.numPortsUsed = (cfg.axisDrivers e.axis).numDrivers then
          (e.portsLeftToTrigger \ (e.triggeredPorts inp).toFinset).card else 1
      split at hcount
      · next hmatch =>
        have hsubset : (e.triggeredPorts inp).toFinset ⊆ e.portsLeftToTrigger :=
          fun i hi => (e.mem_triggeredPorts inp (List.mem_toFinset.mp hi)).2.1
        rw [if_pos hmatch, Finset.card_sdiff_of_subset hsubset, hcount,
          List.toFinset_card_of_nodup (e.triggeredPorts_nodup inp)]
      · next hmismatch =>
        rw [if_neg hmismatch, hcount]
        rcases hfew with hfew | hnone
        · omega
        · rw [hnone]
          rfl
    · exact nomatch h
  | zProbeEndstop e =>
    rw [EndstopOrZProbe.rest] at h
    split at h
    · exact nomatch h
    · obtain rfl := Option.some.inj h
      trivial
  | zProbe e =>
    obtain rfl := Option.some.inj h
    trivial

end Stops

/-- What a stop does to the drives. -/
def Stop.apply (maxAxesPlusExtruders : ℕ) (executingMove : Bool) (drives : ℕ → Drive) :
    Stop → ℕ → Drive
  | .all => MoveState.stopAllDrivers maxAxesPlusExtruders drives
  | .axis a => MoveState.stopAxisOrExtruder drives a
  | .driver a _ d => MoveState.stopDriver executingMove drives a d

section OneCheck

variable {cfg : Configuration} {inp : Inputs} {n : ℕ} {executingMove : Bool}

namespace EndstopsManager

variable {check : EndstopOrZProbe → EndstopHitDetails} {es : List EndstopOrZProbe}

lemma scan_all (index : ℕ) (found : EndstopHitDetails × ℕ)
    (h : ∃ e ∈ es, (check e).action = .stopAll) :
    (scan check es index found).1.action = .stopAll := by
  induction es generalizing index found with
  | nil =>
    obtain ⟨e, he, -⟩ := h
    exact absurd he List.not_mem_nil
  | cons e es ih =>
    rw [scan]
    by_cases hall : (check e).action = .stopAll
    · rw [if_pos hall]
      exact hall
    · rw [if_neg hall]
      obtain ⟨e', he', hstop⟩ := h
      rcases List.mem_cons.mp he' with rfl | hmem
      · exact absurd hstop hall
      · split <;> exact ih _ _ ⟨e', hmem, hstop⟩

lemma scan_calm (check : EndstopOrZProbe → EndstopHitDetails) (index : ℕ) (found
    : EndstopHitDetails × ℕ)
    (h : ∀ e ∈ es, (check e).action ≠ .stopAll) (hfound : found.1.action ≠ .stopAll) :
    (scan check es index found).1.action ≠ .stopAll ∧
      ((scan check es index found).1.action = .none →
        found.1.action = .none ∧ ∀ e ∈ es, (check e).action = .none) := by
  induction es generalizing index found with
  | nil => exact ⟨hfound, fun hnone => ⟨hnone, fun _ he => absurd he List.not_mem_nil⟩⟩
  | cons e es ih =>
    have hhead := h e List.mem_cons_self
    have htail : ∀ e' ∈ es, (check e').action ≠ .stopAll :=
      fun e' he' => h e' (List.mem_cons_of_mem e he')
    rw [scan]
    rw [if_neg hhead]
    split
    · next hmore =>
      obtain ⟨hcalm, hnone⟩ := ih (index + 1) (check e, index) htail hhead
      refine ⟨hcalm, fun hresult => ?_⟩
      rw [(hnone hresult).1] at hmore
      exact absurd hmore (Nat.not_lt_zero _)
    · next hless =>
      obtain ⟨hcalm, hnone⟩ := ih (index + 1) found htail hfound
      refine ⟨hcalm, fun hresult => ?_⟩
      obtain ⟨hzero, hrest⟩ := hnone hresult
      refine ⟨hzero, List.forall_mem_cons.mpr ⟨?_, hrest⟩⟩
      rw [hzero] at hless
      cases haction : (check e).action with
      | none => rfl
      | stopDriver => simp [haction, EndstopHitAction.toNat] at hless
      | stopAxis => simp [haction, EndstopHitAction.toNat] at hless
      | stopAll => exact absurd haction hhead

variable {m : EndstopsManager}

lemma checkEndstops_all (h : ∃ e ∈ m.activeEndstops, e.stopsAll cfg inp) :
    (m.checkEndstops cfg inp).1.action = .stopAll ∧
      (m.checkEndstops cfg inp).2.activeEndstops = [] := by
  have hscan := scan_all 0 (.init, 0) h
  rw [checkEndstops]
  generalize scan (EndstopOrZProbe.checkTriggered cfg inp) m.activeEndstops 0 (.init, 0) =
    r at hscan
  obtain ⟨ret, actioned⟩ := r
  have hret : ret.action = .stopAll := hscan
  simp only [hret]
  exact ⟨(settled_action m ret).trans hret, trivial⟩

lemma checkEndstops_calm (h : ∀ e ∈ m.activeEndstops, ¬ e.stopsAll cfg inp) :
    (m.checkEndstops cfg inp).1.action ≠ .stopAll ∧
      ((m.checkEndstops cfg inp).1.action = .none → (m.checkEndstops cfg inp).2 = m ∧
        ∀ e ∈ m.activeEndstops, (e.checkTriggered cfg inp).action = .none) := by
  obtain ⟨hcalm, hnone⟩ := scan_calm (EndstopOrZProbe.checkTriggered cfg inp) 0 (.init, 0)
    h (fun h => by cases h)
  rw [checkEndstops]
  generalize scan (EndstopOrZProbe.checkTriggered cfg inp) m.activeEndstops 0 (.init, 0) = r
    at hcalm hnone
  obtain ⟨ret, actioned⟩ := r
  simp only at hcalm hnone ⊢
  split
  · next haction => exact absurd haction hcalm
  · next haction => exact ⟨hcalm, fun _ => ⟨rfl, (hnone haction).2⟩⟩
  all_goals
    next haction =>
      refine ⟨?_, fun hnone' => ?_⟩
      · rw [settled_action]
        exact hcalm
      · rw [settled_action, haction] at hnone'
        cases hnone'

lemma settled_eq (m : EndstopsManager) (hd : EndstopHitDetails) :
    (m.settled hd).axis = hd.axis ∧ (m.settled hd).internalUse = hd.internalUse ∧
      (m.settled hd).driver = hd.driver := by
  rw [settled]
  split <;> exact ⟨rfl, rfl, rfl⟩

end EndstopsManager

/-- What a check without an endstop that stops everything comes to. -/
structure Reacts (cfg : Configuration) (inp : Inputs) (n : ℕ) (executingMove : Bool)
    (s s' : MoveState) (new : List Stop) : Prop where
  stops : s'.stops = s.stops ++ new
  due : new.Perm (s.manager.activeEndstops.flatMap (EndstopOrZProbe.hits cfg inp))
  active : s'.manager.activeEndstops =
    s.manager.activeEndstops.filterMap (EndstopOrZProbe.rest inp)
  drives : s'.drives = new.foldl (Stop.apply n executingMove) s.drives
  once : new.Pairwise Stop.Allows

lemma reacts_step {s s₁ s' : MoveState} {before after : List EndstopOrZProbe}
    (middle : List EndstopOrZProbe) {e : EndstopOrZProbe} {stop : Stop} {new : List Stop}
    (hactive : s.manager.activeEndstops = before ++ e :: after)
    (hactive' : s₁.manager.activeEndstops = before ++ middle ++ after)
    (hhits : e.hits cfg inp = stop :: middle.flatMap (EndstopOrZProbe.hits cfg inp))
    (hrest : (e.rest inp).toList = middle.filterMap (EndstopOrZProbe.rest inp))
    (hstops : s₁.stops = s.stops ++ [stop])
    (hdrives : s₁.drives = stop.apply n executingMove s.drives)
    (hallows : ∀ e' ∈ before ++ middle ++ after, ∀ later, e'.May later → stop.Allows later)
    (h : Reacts cfg inp n executingMove s₁ s' new) :
    Reacts cfg inp n executingMove s s' (stop :: new) := by
  refine ⟨?_, ?_, ?_, ?_, List.pairwise_cons.mpr ⟨fun later hlater => ?_, h.once⟩⟩
  · rw [h.stops, hstops, List.append_assoc, List.singleton_append]
  · rw [hactive, List.flatMap_append, List.flatMap_cons, hhits]
    have hdue := h.due
    rw [hactive', List.flatMap_append, List.flatMap_append, List.append_assoc] at hdue
    rw [List.cons_append]
    exact (hdue.cons stop).trans List.perm_middle.symm
  · rw [h.active, hactive, hactive', List.filterMap_append, List.filterMap_append,
      List.filterMap_append, ← hrest, List.append_assoc]
    congr 1
    rw [List.filterMap_cons]
    cases e.rest inp <;> rfl
  · rw [h.drives, hdrives, List.foldl_cons]
  · obtain ⟨e', he', hmem⟩ := List.mem_flatMap.mp (h.due.mem_iff.mp hlater)
    exact hallows e' (hactive' ▸ he') later (mem_hits hmem).1

namespace MoveState

lemma checkEndstops_all (n : ℕ) (executingMove : Bool) {s : MoveState}
    (h : ∃ e ∈ s.manager.activeEndstops, e.stopsAll cfg inp) :
    ∃ hit manager, manager.activeEndstops = [] ∧
      s.checkEndstops cfg n executingMove inp =
        hitAll n executingMove hit { s with manager := manager } := by
  obtain ⟨haction, hactive⟩ := EndstopsManager.checkEndstops_all h
  refine ⟨(s.manager.checkEndstops cfg inp).1, (s.manager.checkEndstops cfg inp).2, hactive, ?_⟩
  rw [checkEndstops]
  split
  · rfl
  all_goals
    next hother =>
      rw [haction] at hother
      cases hother

lemma checkEndstops_reacts (n : ℕ) (executingMove : Bool) {s : MoveState}
    (hcounted : ∀ e ∈ s.manager.activeEndstops, e.Counted cfg)
    (hdistinct : s.manager.activeEndstops.Pairwise OtherAxis)
    (hcalm : ∀ e ∈ s.manager.activeEndstops, ¬ e.stopsAll cfg inp) :
    ∃ new, Reacts cfg inp n executingMove s (s.checkEndstops cfg n executingMove inp) new := by
  induction hweight : EndstopsManager.totalWeight s.manager.activeEndstops using
    Nat.strong_induction_on generalizing s with
  | h w ih =>
    obtain ⟨hnotAll, hnone⟩ := EndstopsManager.checkEndstops_calm hcalm
    rw [checkEndstops]
    split
    · next haction => exact absurd haction hnotAll
    · next haction =>
      have hacts := EndstopsManager.checkEndstops_acts cfg inp s.manager (.inl haction)
      have hless := EndstopsManager.checkEndstops_weight cfg inp s.manager (.inl haction)
      generalize s.manager.checkEndstops cfg inp = r at haction hacts hless
      obtain ⟨before, after, e, what, hactive, hwhat⟩ := hacts
      have hmem : e ∈ s.manager.activeEndstops := by rw [hactive]; simp
      have houtcome := outcome (hcounted e hmem) (hcalm e hmem)
      rw [← hwhat] at houtcome
      rw [EndstopsManager.settled_action] at haction
      obtain ⟨haxis, -, -⟩ := EndstopsManager.settled_eq s.manager what
      rw [hactive] at hdistinct
      obtain ⟨hdistinct', hdiffer⟩ := others_distinct hdistinct
      cases houtcome with
      | idle _ _ _ hother => rw [hother] at haction; cases haction
      | driver _ _ _ _ _ _ _ _ _ _ _ hother => rw [hother] at haction; cases haction
      | axis a hhits hrest _ _ ha hdone =>
        simp only [hdone, if_true, haxis, ha, Option.getD_some] at hless ⊢
        have hmay := (mem_hits (hhits ▸ List.mem_cons_self)).1
        have hothers : ∀ e' ∈ before ++ after, e' ∈ s.manager.activeEndstops := by
          intro e' he'
          rw [hactive]
          simp only [List.mem_append, List.mem_cons] at he' ⊢
          tauto
        obtain ⟨new, hnew⟩ := ih _ (hweight ▸ hless)
          (s := hitAxis executingMove a { s with manager :=
            { s.manager with activeEndstops := before ++ after } })
          (fun e' he' => hcounted e' (hothers e' he')) hdistinct'
          (fun e' he' => hcalm e' (hothers e' he')) rfl
        refine ⟨_, reacts_step [] hactive ?_ hhits ?_ rfl rfl ?_ hnew⟩
        · rw [List.append_nil]
          rfl
        · rw [hrest]
          rfl
        · rw [List.append_nil]
          intro e' he' stop hstop
          exact (hdiffer e' he').allows (fun h => by cases h) hmay hstop
    · next haction =>
      have hacts := EndstopsManager.checkEndstops_acts cfg inp s.manager (.inr haction)
      have hless := EndstopsManager.checkEndstops_weight cfg inp s.manager (.inr haction)
      generalize s.manager.checkEndstops cfg inp = r at haction hacts hless
      obtain ⟨before, after, e, what, hactive, hwhat⟩ := hacts
      have hmem : e ∈ s.manager.activeEndstops := by rw [hactive]; simp
      have houtcome := outcome (hcounted e hmem) (hcalm e hmem)
      rw [← hwhat] at houtcome
      rw [EndstopsManager.settled_action] at haction
      obtain ⟨haxis, hport, hdriver⟩ := EndstopsManager.settled_eq s.manager what
      rw [hactive] at hdistinct
      obtain ⟨-, hdiffer⟩ := others_distinct hdistinct
      cases houtcome with
      | idle _ _ _ hother => rw [hother] at haction; cases haction
      | axis _ _ _ _ hother => rw [hother] at haction; cases haction
      | driver a p d later hhits hrest hlater hcalmLater hsameAxis honce _ _ ha hp hd hnotDone =>
        simp only [hnotDone, Bool.false_eq_true, if_false, haxis, ha, Option.getD_some, hport, hp,
          hdriver, hd] at hless ⊢
        have hmay := (mem_hits (hhits ▸ List.mem_cons_self)).1
        have hothers : ∀ e' ∈ before ++ later :: after, e' = later ∨
            e' ∈ s.manager.activeEndstops := by
          intro e' he'
          rw [hactive]
          simp only [List.mem_append, List.mem_cons] at he' ⊢
          tauto
        obtain ⟨new, hnew⟩ := ih _ (hweight ▸ hless)
          (s := hitDriver executingMove a p d { s with manager :=
            { s.manager with activeEndstops := before ++ later :: after } })
          (fun e' he' => (hothers e' he').elim (fun h => h ▸ hlater) (hcounted e'))
          (others_replaced hdistinct hsameAxis)
          (fun e' he' => (hothers e' he').elim (fun h => h ▸ hcalmLater) (hcalm e')) rfl
        refine ⟨_, reacts_step [later] hactive ?_ ?_ ?_ rfl rfl ?_ hnew⟩
        · rw [List.append_assoc]
          rfl
        · rw [hhits, List.flatMap_singleton]
        · rw [hrest, List.filterMap_cons]
          cases later.rest inp <;> rfl
        · intro e' he' stop hstop
          rcases (by simpa [or_left_comm] using he' : e' = later ∨ e' ∈ before ++ after) with
            rfl | hother
          · exact honce stop hstop
          · exact (hdiffer e' hother).allows (fun h => by cases h) hmay hstop
    · next haction =>
      obtain ⟨hsame, hidle⟩ := hnone haction
      have hnothing : ∀ e ∈ s.manager.activeEndstops,
          e.hits cfg inp = [] ∧ e.rest inp = some e := by
        intro e he
        have houtcome := outcome (hcounted e he) (hcalm e he)
        have haction' := hidle e he
        generalize e.checkTriggered cfg inp = hd at houtcome haction'
        cases houtcome with
        | idle hhits hrest => exact ⟨hhits, hrest⟩
        | axis _ _ _ _ hother => rw [hother] at haction'; cases haction'
        | driver _ _ _ _ _ _ _ _ _ _ _ hother => rw [hother] at haction'; cases haction'
      refine ⟨[], ?_, ?_, ?_, rfl, .nil⟩
      · exact (List.append_nil _).symm
      · rw [List.flatMap_eq_nil_iff.mpr fun e he => (hnothing e he).1]
      · rw [hsame, List.filterMap_congr fun e he => (hnothing e he).2, List.filterMap_some]

end MoveState

end OneCheck

end RepRapFirmware.Endstops
