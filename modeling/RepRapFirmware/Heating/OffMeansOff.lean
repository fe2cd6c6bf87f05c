import RepRapFirmware.Heating.LocalHeater
import RepRapFirmware.Library.Runs

/-! The power at the ports of a heater that is off, switched off, or without good readings. -/

namespace RepRapFirmware.Heating

open LocalHeater RepRapFirmware.Library.Runs
open Host.LpcHeater (HeaterMode)

/-- The modes up to suspended. -/
def Inactive (m : HeaterMode) : Prop := m.code ≤ HeaterMode.suspended.code

instance (m : HeaterMode) : Decidable (Inactive m) := inferInstanceAs (Decidable (_ ≤ _))

/-- The modes up to off. -/
def Resting (m : HeaterMode) : Prop := m.code ≤ HeaterMode.off.code

instance (m : HeaterMode) : Decidable (Resting m) := inferInstanceAs (Decidable (_ ≤ _))

lemma Resting.inactive {m : HeaterMode} (h : Resting m) : Inactive m := by
  revert h
  cases m <;> decide

structure OffMeansOff (h : LocalHeater) : Prop where
  off : Inactive h.mode → h.portPower = 0
  switchedOff : h.switchedOff = true → h.portPower = 0
  badReadings : h.maxBadTemperatureCount < h.badReadings → h.portPower = 0

/-- An operation on the heater. -/
inductive Action
  | spin (c : Cycle)
  | setActiveOrStandby (setActive isBedOrChamber : Bool) (now : UInt32)
  | setTemperature (t : ℚ) (activeNotStandby isBedOrChamber : Bool) (pid : Bool → PidParameters)
      (now : UInt32)
  | switchOff
  | suspend (sus : Bool) (now : UInt32)
  | resetFault
  | startAutoTune (r : TuningRequest) (sensors : Sensors) (now : UInt32)
  | setModel (p : FopDt)
  | clearModelAndMonitors
  | declareHeater (defaults : FopDt) (limit : ℚ)
  | configureMonitor (index : Fin 3) (m : HeaterMonitor)
  | setFanFeedForwardPwm (pwm correction : ℚ)
  | setExtrusionFeedForward (pwmBoost tempBoost : ℚ)

def step (h : LocalHeater) : Action → LocalHeater
  | .spin c => h.spin c
  | .setActiveOrStandby setActive isBedOrChamber now =>
    h.setActiveOrStandby setActive isBedOrChamber now
  | .setTemperature t activeNotStandby isBedOrChamber pid now =>
    h.setTemperature t activeNotStandby isBedOrChamber pid now
  | .switchOff => h.switchOff
  | .suspend sus now => h.suspend sus now
  | .resetFault => h.resetFault
  | .startAutoTune r sensors now => (h.startAutoTune r sensors now).getD h
  | .setModel p => h.setModelByUser p
  | .clearModelAndMonitors => h.clearModelAndMonitors
  | .declareHeater defaults limit => h.declareHeater defaults limit
  | .configureMonitor index m => h.configureMonitor index m
  | .setFanFeedForwardPwm pwm correction => h.setFanFeedForwardPwm pwm correction
  | .setExtrusionFeedForward pwmBoost tempBoost => h.setExtrusionFeedForward pwmBoost tempBoost

/-- The heater is not switched off in a mode above off while its model is disabled, and its fault is
not reset in the middle of bad readings while there is power at the ports. -/
def Permitted (h : LocalHeater) : Action → Prop
  | .switchOff => h.model.enabled = true ∨ Resting h.mode
  | .resetFault => h.portPower = 0 ∨ h.badTemperatureCount = 0
  | _ => True

/-- What permitted operations keep. -/
structure Sound (h : LocalHeater) : Prop where
  off : Inactive h.mode → h.portPower = 0
  switchedOff : h.switchedOff = true → Resting h.mode
  counted : h.portPower ≠ 0 → h.badReadings ≤ h.badTemperatureCount.toNat ∧
    h.badTemperatureCount.toNat ≤ h.maxBadTemperatureCount

lemma Sound.offMeansOff {h : LocalHeater} (hs : Sound h) : OffMeansOff h := by
  refine ⟨hs.off, fun hoff => hs.off (hs.switchedOff hoff).inactive, ?_⟩
  intro hbad
  by_contra hpower
  obtain ⟨hcount, hmax⟩ := hs.counted hpower
  omega

/-- What most operations leave alone. -/
structure Frame (h h' : LocalHeater) : Prop where
  enabled : h'.model.enabled = h.model.enabled
  count : h'.badTemperatureCount = h.badTemperatureCount
  readings : h'.badReadings = h.badReadings
  limit : h'.maxBadTemperatureCount = h.maxBadTemperatureCount
  power : h'.portPower = h.portPower

/-- The heater goes on as it was or becomes active. -/
lemma Sound.frame {h h' : LocalHeater} (hs : Sound h) (hframe : Frame h h')
    (hmode : Inactive h'.mode → Inactive h.mode)
    (hoff : h'.switchedOff = true → Resting h'.mode) : Sound h' := by
  refine ⟨fun hinactive => ?_, hoff, ?_⟩
  · rw [hframe.power]
    exact hs.off (hmode hinactive)
  · rw [hframe.power, hframe.count, hframe.readings, hframe.limit]
    exact hs.counted

/-! ### The control cycle -/

/-- In a control cycle with a good reading and an enabled model, until the power is written. -/
structure Working (h : LocalHeater) : Prop where
  enabled : h.model.enabled = true
  count : h.badTemperatureCount = 0
  readings : h.badReadings = 0
  switchedOff : h.switchedOff = true → Resting h.mode

/-- The power has been calculated. -/
structure Settled (h : LocalHeater) : Prop extends Working h where
  power : Inactive h.mode → h.lastPwm = 0

lemma Settled.active {h : LocalHeater} (hw : Working h) (hactive : ¬ Inactive h.mode) : Settled h :=
  ⟨hw, fun hinactive => absurd hinactive hactive⟩

section Cycle

variable {h : LocalHeater}

lemma switchOff_resting (henabled : h.model.enabled = true) : Resting h.switchOff.mode := by
  rw [LocalHeater.switchOff]
  simp only [henabled, true_and]
  split
  · decide
  · next hlow => exact UInt8.not_lt.mp hlow

lemma switchOff_portPower (henabled : h.model.enabled = true) : h.switchOff.portPower = 0 :=
  if_pos henabled

lemma Working.switchOff (hw : Working h) : Settled h.switchOff :=
  ⟨⟨hw.enabled, hw.count, hw.readings, fun _ => switchOff_resting hw.enabled⟩, fun _ => rfl⟩

lemma Working.raiseHeaterFault (hw : Working h) : Settled h.raiseHeaterFault :=
  ⟨⟨hw.enabled, hw.count, hw.readings, fun _ => show Resting .fault by decide⟩, fun _ => rfl⟩

/-- A heater that controls the temperature has not been switched off. -/
lemma Working.withMode (hw : Working h) (hactive : ¬ Resting h.mode) (mode : HeaterMode) :
    Working { h with mode := mode } :=
  ⟨hw.enabled, hw.count, hw.readings, fun hoff => absurd (hw.switchedOff hoff) hactive⟩

lemma newMode_active (target : ℚ) (h : LocalHeater) : ¬ Inactive (h.newMode target) := by
  rw [newMode]
  split_ifs <;> decide

lemma updateHeaterMode_spec (now : UInt32) (target : ℚ) (h : LocalHeater) :
    Frame h (h.updateHeaterMode now target) ∧ ¬ Inactive (h.updateHeaterMode now target).mode ∧
      (h.updateHeaterMode now target).switchedOff = h.switchedOff := by
  rw [updateHeaterMode]
  split
  · split
    · exact ⟨⟨rfl, rfl, rfl, rfl, rfl⟩, show ¬ Inactive .heating by decide, rfl⟩
    · exact ⟨⟨rfl, rfl, rfl, rfl, rfl⟩, newMode_active target h, rfl⟩
  · next hsame =>
    exact ⟨⟨rfl, rfl, rfl, rfl, rfl⟩, not_not.mp hsame ▸ newMode_active target h, rfl⟩

lemma Working.updateHeaterMode (now : UInt32) (target : ℚ) (hw : Working h)
    (hactive : ¬ Resting h.mode) : Working (h.updateHeaterMode now target) := by
  obtain ⟨hframe, -, hoff⟩ := updateHeaterMode_spec now target h
  refine ⟨hframe.enabled ▸ hw.enabled, hframe.count ▸ hw.count, hframe.readings ▸ hw.readings, ?_⟩
  intro hswitched
  exact absurd (hw.switchedOff (hoff ▸ hswitched)) hactive

lemma Working.countHeatingFault (hw : Working h) : Working h.countHeatingFault := by
  have hcounted : Working { h with heatingFaultCount := h.heatingFaultCount + 1 } := { hw with }
  simp only [LocalHeater.countHeatingFault]
  split
  · exact hcounted.raiseHeaterFault.toWorking
  · exact hcounted

lemma Working.forgiveHeatingFault (hw : Working h) : Working h.forgiveHeatingFault := by
  rw [LocalHeater.forgiveHeatingFault]
  split
  · exact { hw with }
  · exact hw

lemma Working.checkHeating (now : UInt32) (gotDerivative : Bool) (hw : Working h) :
    Working (h.checkHeating now gotDerivative) := by
  simp only [LocalHeater.checkHeating]
  split
  · exact { hw with }
  · split
    · split
      · split
        · exact hw.countHeatingFault
        · apply Working.forgiveHeatingFault
          exact { hw with }
      · exact hw
    · exact hw

lemma Working.heatingChecks (now : UInt32) (gotDerivative : Bool) (target : ℚ) (hw : Working h) :
    Working (h.heatingChecks now gotDerivative target) := by
  simp only [LocalHeater.heatingChecks]
  split
  · next hmode =>
    split
    · exact { hw.withMode (by rw [hmode]; decide) .stable with }
    · exact hw.checkHeating now gotDerivative
  · split
    · exact hw.countHeatingFault
    · exact hw.forgiveHeatingFault
  · next hmode =>
    split
    · exact { hw.withMode (by rw [hmode]; decide) .stable with }
    · exact hw
  · exact hw

/-- A model that is accepted is enabled, so that the heater is not reset. -/
lemma setModel_eq (p : FopDt) (h : LocalHeater) : h.setModel p =
    match p.setParameters with
    | .ok model => { h with model := model }
    | .error _ => h := by
  rw [LocalHeater.setModel, FopDt.setParameters]
  cases p.parameterError with
  | some err => rfl
  | none => rfl

lemma Working.setModel (p : FopDt) (hw : Working h) : Working (h.setModel p) := by
  rw [setModel_eq, FopDt.setParameters]
  cases p.parameterError with
  | some err => exact hw
  | none => exact ⟨rfl, hw.count, hw.readings, hw.switchedOff⟩

/-- A step of the auto tuning leaves no power calculated when it ends the tuning. -/
lemma Working.doTuningStep (now : UInt32) (decision : TuningDecision) (hw : Working h)
    (hactive : ¬ Inactive h.mode) : Settled (h.doTuningStep now decision) := by
  have hon : ¬ Resting h.mode := fun hresting => hactive hresting.inactive
  cases decision with
  | wait => exact .active hw hactive
  | proceed =>
    simp only [LocalHeater.doTuningStep]
    split
    · exact .active { hw.withMode hon .tuning1 with } (show ¬ Inactive .tuning1 by decide)
    · exact .active { hw.withMode hon .tuning2 with } (show ¬ Inactive .tuning2 by decide)
    · exact .active { hw.withMode hon .tuning3 with } (show ¬ Inactive .tuning3 by decide)
    · exact .active { hw.withMode hon .tuning2 with } (show ¬ Inactive .tuning2 by decide)
    · exact hw.switchOff
  | finish model =>
    simp only [LocalHeater.doTuningStep]
    split
    · next p _ =>
      apply Working.switchOff
      exact hw.setModel p
    · exact .active hw hactive
    · exact hw.switchOff

lemma control_eq (derivative error : ℚ) (h : LocalHeater) :
    ∃ i p, h.control derivative error = { h with iAccumulator := i, lastPwm := p } := by
  have hcalculated : ∃ i p, (if h.model.usePid then h.pidPwm derivative error
      else { h with lastPwm := if error > 0 then h.model.maxPwm else 0 }) =
        { h with iAccumulator := i, lastPwm := p } := by
    split
    · simp only [pidPwm]
      split
      · split <;> exact ⟨_, _, rfl⟩
      · split <;> exact ⟨_, _, rfl⟩
    · exact ⟨_, _, rfl⟩
  obtain ⟨i, p, heq⟩ := hcalculated
  rw [LocalHeater.control, heq]
  simp only
  split <;> exact ⟨_, _, rfl⟩

lemma Working.calculatePwm (c : Cycle) (derivative error : ℚ) (hw : Working h) :
    Settled (h.calculatePwm c derivative error) := by
  rw [LocalHeater.calculatePwm]
  split
  · next htuning =>
    apply hw.doTuningStep
    revert htuning
    cases h.mode <;> decide
  · split
    · exact ⟨{ hw with }, fun _ => rfl⟩
    · next hcontrolled =>
      obtain ⟨i, p, heq⟩ := control_eq derivative error h
      rw [heq]
      exact .active { hw with } hcontrolled

lemma Settled.protect (hsettled : Settled h) (action : HeaterMonitorAction) :
    Settled (h.protect action) := by
  have hw : Working { h with lastPwm := 0 } := { hsettled.toWorking with }
  cases action with
  | generateFault => exact hw.raiseHeaterFault
  | permanentSwitchOff => exact hw.switchOff
  | temporarySwitchOff => exact ⟨hw, fun _ => rfl⟩
  | shutDown => exact hw.switchOff

lemma Settled.checkMonitors (sensors : Sensors) (hsettled : Settled h) :
    Settled (h.checkMonitors sensors) := by
  have hfold : ∀ (rs : List (Bool × HeaterMonitor)) (h : LocalHeater), Settled h →
      Settled (rs.foldl (fun h r => h.protect r.2.action) h) := by
    intro rs
    induction rs with
    | nil => exact fun h hs => hs
    | cons r rs ih => exact fun h hs => ih _ (hs.protect r.2.action)
  apply hfold
  exact ⟨{ hsettled.toWorking with }, hsettled.power⟩

lemma Working.runModel (c : Cycle) (derivative : Option ℚ) (hw : Working h) :
    Settled (h.runModel c derivative) := by
  rw [LocalHeater.runModel]
  apply Settled.checkMonitors
  apply Working.calculatePwm
  apply Working.heatingChecks
  split
  · next hboost =>
    have hon : ¬ Resting h.mode := by
      have hpid := hboost.1
      revert hpid
      cases h.mode <;> decide
    exact { hw.updateHeaterMode c.now h.boostedTarget hon with }
  · exact hw

lemma Settled.writePower (hsettled : Settled h) : Sound h.writePower := by
  refine ⟨hsettled.power, hsettled.switchedOff, fun _ => ?_⟩
  change h.badReadings ≤ h.badTemperatureCount.toNat ∧
    h.badTemperatureCount.toNat ≤ h.maxBadTemperatureCount
  rw [hsettled.readings, hsettled.count]
  exact ⟨Nat.zero_le _, Nat.zero_le _⟩

/-- A good reading starts the count of the bad ones anew, and the power is written in any mode. -/
lemma Sound.spinGood (c : Cycle) (temperature : ℚ) (hs : Sound h)
    : Sound (h.spinGood c temperature) := by
  simp only [LocalHeater.spinGood]
  split
  · next henabled =>
    apply Settled.writePower
    apply Working.runModel
    exact ⟨henabled, rfl, rfl, hs.switchedOff⟩
  · exact ⟨fun _ => rfl, hs.switchedOff, fun hpower => absurd rfl hpower⟩

lemma Sound.raiseHeaterFault (h : LocalHeater) : Sound h.raiseHeaterFault :=
  ⟨fun _ => rfl, fun _ => show Resting .fault by decide, fun hpower => absurd rfl hpower⟩

/-- With power at the ports a bad reading is counted, until there are too many. -/
lemma Sound.spinBad (hs : Sound h) : Sound h.spinBad := by
  simp only [LocalHeater.spinBad]
  split
  · next hactive =>
    split
    · exact Sound.raiseHeaterFault _
    · next hfew =>
      refine ⟨hs.off, hs.switchedOff, fun hpower => ?_⟩
      obtain ⟨hcount, hmax⟩ := hs.counted hpower
      have hlimit := h.maxBadTemperatureCount.isLt
      have hnext : (h.badTemperatureCount + 1).toNat = h.badTemperatureCount.toNat + 1 := by
        rw [UInt8.toNat_add]
        apply Nat.mod_eq_of_lt
        change h.badTemperatureCount.toNat + 1 < 256
        omega
      change h.badReadings + 1 ≤ (h.badTemperatureCount + 1).toNat ∧ _
      change ¬ (h.badTemperatureCount + 1).toNat > h.maxBadTemperatureCount at hfew
      rw [hnext] at hfew
      change _ ∧ (h.badTemperatureCount + 1).toNat ≤ h.maxBadTemperatureCount
      rw [hnext]
      omega
  · next hinactive =>
    have hoff : h.portPower = 0 := hs.off (UInt8.not_lt.mp hinactive)
    exact ⟨hs.off, hs.switchedOff, fun hpower => absurd hoff hpower⟩

lemma Sound.spin (c : Cycle) (hs : Sound h) : Sound (h.spin c) := by
  rw [LocalHeater.spin]
  split
  · exact hs.spinBad
  · exact hs.spinGood c _

end Cycle

/-! ### The other operations -/

section Operations

variable {h h' : LocalHeater}

/-- A heater that has been switched on is active, or was. -/
lemma Sound.switchOn {now : UInt32} (hs : Sound h) (hon : h.switchOn now = some h') : Sound h' := by
  rw [LocalHeater.switchOn] at hon
  split at hon
  · cases hon
  · split at hon
    · cases hon
    · cases hon
      obtain ⟨hframe, hactive, -⟩ := updateHeaterMode_spec now h.boostedTarget h
      exact hs.frame ⟨hframe.enabled, hframe.count, hframe.readings, hframe.limit, hframe.power⟩
        (fun hinactive => absurd hinactive hactive) (fun hoff => absurd hoff Bool.false_ne_true)

lemma Sound.switchOn_getD (now : UInt32) (hs : Sound h) : Sound ((h.switchOn now).getD h) := by
  cases hon : h.switchOn now with
  | none => exact hs
  | some h' => exact hs.switchOn hon

lemma Sound.setActiveOrStandby (setActive isBedOrChamber : Bool) (now : UInt32) (hs : Sound h) :
    Sound (h.setActiveOrStandby setActive isBedOrChamber now) := by
  rw [LocalHeater.setActiveOrStandby]
  split
  · apply Sound.switchOn_getD
    exact { hs with }
  · exact hs

lemma Sound.setTemperature (t : ℚ) (activeNotStandby isBedOrChamber : Bool)
    (pid : Bool → PidParameters) (now : UInt32) (hs : Sound h) :
    Sound (h.setTemperature t activeNotStandby isBedOrChamber pid now) := by
  have hset : Sound (if activeNotStandby then { h with activeTemperature := t }
      else { h with standbyTemperature := t }) := by
    split <;> exact { hs with }
  rw [LocalHeater.setTemperature]
  generalize (if activeNotStandby then { h with activeTemperature := t }
      else { h with standbyTemperature := t }) = h1 at hset
  split
  · exact hs
  · simp only
    split
    · have hbed : Sound { h1 with isBedOrChamber := isBedOrChamber } := { hset with }
      split
      · exact hbed
      · next h2 hon => exact { hbed.switchOn hon with }
    · exact hset

/-- With its model enabled, or in a mode not above off, the heater ends without power. -/
lemma Sound.switchOff (hs : Sound h) (hok : h.model.enabled = true ∨ Resting h.mode) :
    Sound h.switchOff := by
  have hspec : h.switchOff.portPower = 0 ∧ Resting h.switchOff.mode := by
    cases henabled : h.model.enabled with
    | true => exact ⟨switchOff_portPower henabled, switchOff_resting henabled⟩
    | false =>
      have hresting : Resting h.mode := by
        rw [henabled] at hok
        exact hok.resolve_left Bool.false_ne_true
      have hsame : h.switchOff.portPower = h.portPower ∧ h.switchOff.mode = h.mode := by
        simp [LocalHeater.switchOff, henabled]
      rw [hsame.1, hsame.2]
      exact ⟨hs.off hresting.inactive, hresting⟩
  exact ⟨fun _ => hspec.1, fun _ => hspec.2, fun hpower => absurd hspec.1 hpower⟩

lemma Sound.suspend (sus : Bool) (now : UInt32) (hs : Sound h) : Sound (h.suspend sus now) := by
  rw [LocalHeater.suspend]
  split
  · split
    · next hcontrolled =>
      have hon : ¬ Resting h.mode := by
        rcases hcontrolled with hmode | hmode | hmode <;> rw [hmode] <;> decide
      exact ⟨fun _ => rfl, fun hoff => absurd (hs.switchedOff hoff) hon,
        fun hpower => absurd rfl hpower⟩
    · exact hs
  · split
    · exact hs.switchOn_getD now
    · exact hs

lemma Sound.resetFault (hs : Sound h) (hok : h.portPower = 0 ∨ h.badTemperatureCount = 0) :
    Sound h.resetFault := by
  have hreset : Sound { h with badTemperatureCount := 0 } := by
    refine ⟨hs.off, hs.switchedOff, fun hpower => ?_⟩
    have hcount := hs.counted hpower
    rw [hok.resolve_left hpower] at hcount
    exact hcount
  simp only [LocalHeater.resetFault]
  split
  · next hfault =>
    have hoff : h.portPower = 0 := hs.off (by rw [hfault]; decide)
    apply Sound.switchOff
    · exact ⟨fun _ => hoff, fun _ => show Resting .off by decide, fun hpower => absurd hoff hpower⟩
    · exact .inr (show Resting .off by decide)
  · exact hreset

lemma Sound.startAutoTune (r : TuningRequest) (sensors : Sensors) (now : UInt32) (hs : Sound h) :
    Sound ((h.startAutoTune r sensors now).getD h) := by
  have hcleared : ¬ (false = true) := Bool.false_ne_true
  rw [LocalHeater.startAutoTune]
  split
  · exact hs
  · split
    · exact hs
    · split
      · exact hs
      · split
        · exact hs
        · simp only
          split
          · exact hs
          · split
            · exact hs.frame ⟨rfl, rfl, rfl, rfl, rfl⟩
                (fun hinactive => absurd hinactive (show ¬ Inactive .tuning1 by decide))
                (fun hoff => absurd hoff hcleared)
            · exact hs.frame ⟨rfl, rfl, rfl, rfl, rfl⟩
                (fun hinactive => absurd hinactive (show ¬ Inactive .tuning0 by decide))
                (fun hoff => absurd hoff hcleared)

lemma Sound.setModelByUser (p : FopDt) (hs : Sound h) : Sound (h.setModelByUser p) := by
  rw [LocalHeater.setModelByUser, setModel_eq, FopDt.setParameters]
  cases p.parameterError with
  | some err => exact hs
  | none => exact { hs with }

lemma Sound.clearModelAndMonitors (hs : Sound h) : Sound h.clearModelAndMonitors := by
  rw [LocalHeater.clearModelAndMonitors]
  split
  · exact { hs with }
  · exact hs

lemma Sound.declareHeater (defaults : FopDt) (limit : ℚ) (hs : Sound h) :
    Sound (h.declareHeater defaults limit) := by
  have hmodel : Sound (if h.modelSetByUser then h
      else { h with model := { defaults with enabled := true } }) := by
    split
    · exact hs
    · exact { hs with }
  rw [LocalHeater.declareHeater]
  generalize (if h.modelSetByUser then h
      else { h with model := { defaults with enabled := true } }) = h1 at hmodel ⊢
  rw [setFirstMonitor]
  split
  · exact { hmodel with }
  · exact hmodel

lemma Sound.setFanFeedForwardPwm (pwm correction : ℚ) (hs : Sound h) :
    Sound (h.setFanFeedForwardPwm pwm correction) := by
  rw [LocalHeater.setFanFeedForwardPwm]
  split
  · exact { hs with }
  · exact hs

lemma Sound.setExtrusionFeedForward (pwmBoost tempBoost : ℚ) (hs : Sound h) :
    Sound (h.setExtrusionFeedForward pwmBoost tempBoost) := by
  simp only [LocalHeater.setExtrusionFeedForward]
  split
  · exact { hs with }
  · exact { hs with }

end Operations

lemma Sound.step {h : LocalHeater} (a : Action) (hs : Sound h) (hok : Permitted h a) :
    Sound (step h a) := by
  cases a with
  | spin c => exact hs.spin c
  | setActiveOrStandby setActive isBedOrChamber now =>
    exact hs.setActiveOrStandby setActive isBedOrChamber now
  | setTemperature t activeNotStandby isBedOrChamber pid now =>
    exact hs.setTemperature t activeNotStandby isBedOrChamber pid now
  | switchOff => exact hs.switchOff hok
  | suspend sus now => exact hs.suspend sus now
  | resetFault => exact hs.resetFault hok
  | startAutoTune r sensors now => exact hs.startAutoTune r sensors now
  | setModel p => exact hs.setModelByUser p
  | clearModelAndMonitors => exact hs.clearModelAndMonitors
  | declareHeater defaults limit => exact hs.declareHeater defaults limit
  | configureMonitor => exact { hs with }
  | setFanFeedForwardPwm pwm correction => exact hs.setFanFeedForwardPwm pwm correction
  | setExtrusionFeedForward pwmBoost tempBoost =>
    exact hs.setExtrusionFeedForward pwmBoost tempBoost

lemma create_sound (defaults : FopDt) (sensorNumber : ℤ) (maxTempExcursion maxHeatingFaultTime : ℚ)
    (maxBadTemperatureCount : Fin 51) : Sound
      (.create defaults sensorNumber maxTempExcursion maxHeatingFaultTime maxBadTemperatureCount) :=
  ⟨fun _ => rfl, fun hoff => absurd hoff Bool.false_ne_true, fun hpower => absurd rfl hpower⟩

/-- A bed heater without PID control, on while it is too cold. -/
def bedModel : FopDt where
  heatingRate := 1
  basicCoolingRate := 1
  fanCoolingRate := 0
  coolingRateExponent := 1
  deadTime := 10
  maxPwm := 1
  usePid := false
  inverted := false
  enabled := true
  getNetHeatingRate := fun _ _ _ => 1
  estimateRequiredPwm := fun _ _ => 0
  getPidParameters := fun _ => ⟨0, 0, 0⟩

/-- The bed is heated until it reads 20 degrees for the first time. -/
def heatUp : List Action :=
  [.setModel bedModel, .setActiveOrStandby true true 0,
    .setTemperature 60 true true (fun _ => ⟨0, 0, 0⟩) 0, .spin ⟨fun _ => some 20, 0, .wait⟩]

end RepRapFirmware.Heating
