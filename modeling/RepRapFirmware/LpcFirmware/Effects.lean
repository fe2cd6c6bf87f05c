import Mathlib
import RepRapFirmware.LpcFirmware.MainLoop
import RepRapFirmware.LpcFirmware.Outputs

/-! What the functions of the thermal module leave alone, and the ways in which an action of the
LPC can treat its heater. -/

namespace RepRapFirmware.LpcFirmware.Effects

open Shared.LpcProtocol Thermal Gpio Pwm Outputs Function

def heaterLine (s : Thermal.State) : Output := output s.board heaterPin

def Off (s : Thermal.State) : Prop := heaterLine s = .level false

instance (s : Thermal.State) : Decidable (Off s) :=
  inferInstanceAs (Decidable (heaterLine s = .level false))

/-- The parts of the configuration without which the heater may not be switched on. -/
def Complete (c : Config) : Prop :=
  c.thermistorConfigured ∧ c.heaterConfigured ∧ c.modelConfigured

instance (c : Config) : Decidable (Complete c) := instDecidableAnd

section Apply

variable (pwm : Float32) (duty : UInt16) (e : ThermalError) (s : Thermal.State)

def heaterDuty : UInt16 :=
  ((if s.linkTimeoutLatched then 0.0 else clamp pwm 0.0 1.0) * 65535.0 + 0.5).toUInt16

lemma applyHeater_eq : applyHeater pwm s = setHeaterPwm (heaterDuty pwm s) s := by
  rw [applyHeater, heaterDuty]
  have hl : ∀ d, (setHeaterPwm d s).linkTimeoutLatched = s.linkTimeoutLatched := fun _ => rfl
  rw [hl]
  cases s.linkTimeoutLatched <;> rfl

@[simp] lemma applyHeater_config : (applyHeater pwm s).config = s.config := by
  rw [applyHeater_eq]; rfl

@[simp] lemma applyHeater_loop : (applyHeater pwm s).loop = s.loop := by
  rw [applyHeater_eq]; rfl

@[simp] lemma applyHeater_state : (applyHeater pwm s).state = s.state := by
  rw [applyHeater_eq]; rfl

@[simp] lemma applyHeater_error : (applyHeater pwm s).error = s.error := by
  rw [applyHeater_eq]; rfl

@[simp] lemma applyHeater_latch :
    (applyHeater pwm s).linkTimeoutLatched = s.linkTimeoutLatched := by
  rw [applyHeater_eq]; rfl

@[simp] lemma applyHeater_millis : (applyHeater pwm s).millisTicks = s.millisTicks := by
  rw [applyHeater_eq]; rfl

@[simp] lemma applyHeater_heartbeat :
    (applyHeater pwm s).lastHostHeartbeat = s.lastHostHeartbeat := by
  rw [applyHeater_eq]; rfl

lemma heaterDuty_zero : heaterDuty 0.0 s = 0 := by
  rw [heaterDuty]
  cases s.linkTimeoutLatched <;> decide +kernel

lemma heaterLine_setHeaterPwm_zero : heaterLine (setHeaterPwm 0 s) = .level false := by
  have hf : find heaterPin = some ⟨Pins.heater, 0x064, 0x4000C000, 0x0000FFFF, 7, 1, 2, false⟩ :=
    rfl
  have hset : Pwm.set s.board heaterPin 0 s.config.heaterFrequency =
      some (setConstant s.board ⟨Pins.heater, 0x064, 0x4000C000, 0x0000FFFF, 7, 1, 2, false⟩ false)
        := by
    simp [Pwm.set, hf]
  rw [heaterLine, setHeaterPwm]
  rw [hset]
  exact output_setConstant (mem_of_find hf) false

lemma off_applyHeater : Off (applyHeater 0.0 s) := by
  rw [applyHeater_eq, heaterDuty_zero]
  exact heaterLine_setHeaterPwm_zero s

@[simp] lemma setFault_config : (setFault e s).config = s.config := applyHeater_config 0.0 s

@[simp] lemma setFault_loop : (setFault e s).loop = s.loop := applyHeater_loop 0.0 s

@[simp] lemma setFault_state : (setFault e s).state = .fault := rfl

@[simp] lemma setFault_error : (setFault e s).error = e := rfl

@[simp] lemma setFault_latch : (setFault e s).linkTimeoutLatched = s.linkTimeoutLatched :=
  applyHeater_latch 0.0 s

@[simp] lemma setFault_millis : (setFault e s).millisTicks = s.millisTicks :=
  applyHeater_millis 0.0 s

@[simp] lemma setFault_heartbeat : (setFault e s).lastHostHeartbeat = s.lastHostHeartbeat :=
  applyHeater_heartbeat 0.0 s

lemma off_setFault : Off (setFault e s) := off_applyHeater s

end Apply

section Active

variable {s s' : Thermal.State}

lemma active_congr (h : s'.state = s.state) : active s' = active s := by
  rw [active, active, h]

lemma active_iff : active s ↔ s.state = .cooling ∨ s.state = .stable ∨ s.state = .heating := by
  rw [active]
  cases s.state <;> decide

lemma not_active_of_fault (h : s.state = .fault) : ¬ active s := by simp [active_iff, h]

lemma not_active_of_off (h : s.state = .off) : ¬ active s := by simp [active_iff, h]

end Active

/-- How an action may treat the heater; only a commanded one may start it. -/
inductive Change (commanded : Prop) (s s' : Thermal.State) : Prop
  | kept (state : s'.state = s.state) (line : heaterLine s' = heaterLine s)
      (latch : s'.linkTimeoutLatched = s.linkTimeoutLatched)
      (config : active s → Complete s.config → Complete s'.config)
  | stopped (inactive : ¬ active s') (off : Off s')
      (latch : s'.linkTimeoutLatched → s'.state = .fault ∨ s.linkTimeoutLatched ∧ s.state ≠ .fault)
  | regulated (before : active s) (after : active s') (config : s'.config = s.config)
      (latch : s'.linkTimeoutLatched = s.linkTimeoutLatched)
  | started (command : commanded) (fault : s.state ≠ .fault) (alive : linkAlive s)
      (complete : Complete s.config) (limit : ¬ s.config.upperLimit ≥ 1000.0) (after : active s')
      (config : s'.config = s.config) (latch : s'.linkTimeoutLatched = s.linkTimeoutLatched)

section Change

variable {commanded : Prop} {s t : Thermal.State}

lemma Change.refl : Change commanded s s := .kept rfl rfl rfl fun _ h => h

/-- An action that leaves the board and the configured flags alone. -/
lemma Change.of_board (state : t.state = s.state) (board : t.board = s.board)
    (latch : t.linkTimeoutLatched = s.linkTimeoutLatched)
    (config : active s → Complete s.config → Complete t.config) : Change commanded s t :=
  .kept state (by rw [heaterLine, heaterLine, board]) latch config

/-- A loop variable or an error that is set first does not matter. -/
lemma Change.after {u : Thermal.State} (h : Change commanded t u) (state : t.state = s.state)
    (board : t.board = s.board) (latch : t.linkTimeoutLatched = s.linkTimeoutLatched)
    (config : t.config = s.config) (alive : linkAlive t = linkAlive s) : Change commanded s u := by
  cases h with
  | kept h1 h2 h3 h4 =>
    refine .kept (h1.trans state) (h2.trans (by rw [heaterLine, heaterLine, board]))
      (h3.trans latch) ?_
    rwa [active_congr state, config] at h4
  | stopped h1 h2 h3 => exact .stopped h1 h2 (by rwa [state, latch] at h3)
  | regulated h1 h2 h3 h4 =>
    exact .regulated (by rwa [active_congr state] at h1) h2 (h3.trans config) (h4.trans latch)
  | started h0 h1 h2 h3 h4 h5 h6 h7 =>
    rw [state] at h1
    rw [alive] at h2
    rw [config] at h3 h4
    exact .started h0 h1 h2 h3 h4 h5 (h6.trans config) (h7.trans latch)

lemma change_setFault (e : ThermalError) : Change commanded s (setFault e t) :=
  .stopped (not_active_of_fault rfl) (off_setFault e t) fun _ => .inl rfl

lemma change_rejectConfiguration (e : ThermalError) (state : t.state = s.state)
    (board : t.board = s.board) (latch : t.linkTimeoutLatched = s.linkTimeoutLatched) :
    Change commanded s (rejectConfiguration e t) := by
  rw [rejectConfiguration]
  split_ifs with ha
  · exact change_setFault e
  · rw [active_congr state] at ha
    exact .of_board state board latch fun h _ => absurd h ha

lemma change_rejectModelUpdate (state : t.state = s.state) (board : t.board = s.board)
    (latch : t.linkTimeoutLatched = s.linkTimeoutLatched) :
    Change commanded s (rejectModelUpdate t) := by
  rw [rejectModelUpdate]
  dsimp only
  split_ifs with ha
  · exact change_setFault _
  · have hs : ¬ active s := fun h => ha ((active_congr state).trans h)
    exact .of_board state board latch fun h _ => absurd h hs

end Change

section Control

/-- What the control loop always keeps. -/
structure Kept (s t : Thermal.State) : Prop where
  config : t.config = s.config
  latch : t.linkTimeoutLatched = s.linkTimeoutLatched
  millis : t.millisTicks = s.millisTicks
  heartbeat : t.lastHostHeartbeat = s.lastHostHeartbeat

/-- The heater goes on heating. -/
structure Steady (s t : Thermal.State) : Prop extends Kept s t where
  after : active t

variable {commanded : Prop} {s t u : Thermal.State}

lemma Kept.refl : Kept s s := ⟨rfl, rfl, rfl, rfl⟩

lemma Kept.trans (h : Kept s t) (h' : Kept t u) : Kept s u :=
  ⟨h'.config.trans h.config, h'.latch.trans h.latch, h'.millis.trans h.millis,
    h'.heartbeat.trans h.heartbeat⟩

lemma kept_applyHeater (pwm : Float32) (s : Thermal.State) : Kept s (applyHeater pwm s) :=
  ⟨applyHeater_config pwm s, applyHeater_latch pwm s, applyHeater_millis pwm s,
    applyHeater_heartbeat pwm s⟩

lemma kept_setFault (e : ThermalError) (s : Thermal.State) : Kept s (setFault e s) :=
  ⟨setFault_config e s, setFault_latch e s, setFault_millis e s, setFault_heartbeat e s⟩

lemma Steady.refl (h : active s) : Steady s s := ⟨.refl, h⟩

lemma Steady.trans (h : Steady s t) (h' : Steady t u) : Steady s u :=
  ⟨h.toKept.trans h'.toKept, h'.after⟩

lemma Steady.change (h : active s) (h' : Steady s t) : Change commanded s t :=
  .regulated h h'.after h'.config h'.latch

lemma steady_updateHeaterState (target : Float32) (s : Thermal.State) :
    Steady s (updateHeaterState target s) := by
  have hactive : ∀ {n : HeaterState} {t : Thermal.State}, t.state = n →
      n = .heating ∨ n = .cooling ∨ n = .stable → active t := by
    rintro n t rfl (h | h | h) <;> simp [active_iff, h]
  rw [updateHeaterState]
  dsimp only
  split_ifs with h1 h2 h3 h4 h5
  all_goals
    refine ⟨⟨rfl, rfl, rfl, rfl⟩, hactive rfl ?_⟩
    simp_all

lemma steady_followBoost (target : Float32) (h : active s) : Steady s (followBoost target s) := by
  rw [followBoost]
  split_ifs
  · obtain ⟨⟨h1, h2, h3, h4⟩, h5⟩ := steady_updateHeaterState target s
    exact ⟨⟨h1, h2, h3, h4⟩, h5⟩
  · exact .refl h

lemma steady_checkStable (tempError : Float32) (h : active s) :
    Steady s (checkStable tempError s).1 := by
  rw [checkStable]
  dsimp only
  split_ifs <;> exact ⟨⟨rfl, rfl, rfl, rfl⟩, h⟩

lemma steady_checkCooling (tempError target : Float32) (h : active s) :
    Steady s (checkCooling tempError target s).1 := by
  rw [checkCooling]
  split_ifs
  · exact ⟨⟨rfl, rfl, rfl, rfl⟩, active_iff.mpr (.inr (.inl rfl))⟩
  · exact .refl h

lemma steady_applyHeater (pwm : Float32) (l l' : Loop) (dirty : Bool) (h : active s) :
    Steady s { applyHeater pwm { s with loop := l } with loop := l', statusDirty := dirty } :=
  ⟨⟨applyHeater_config pwm _, applyHeater_latch pwm _, applyHeater_millis pwm _,
    applyHeater_heartbeat pwm _⟩, (active_congr (applyHeater_state pwm _)).trans h⟩

/-- The control loop ends with a fault or goes on heating. -/
def Regulates (s t : Thermal.State) : Prop :=
  (∃ e u, t = setFault e u ∧ Kept s u) ∨ Steady s t

lemma Regulates.kept (h : Regulates s t) : Kept s t := by
  obtain ⟨e, u, rfl, hu⟩ | h := h
  · exact hu.trans (kept_setFault e u)
  · exact h.toKept

lemma Regulates.change (hs : active s) (h : Regulates s t) : Change commanded s t := by
  obtain ⟨e, u, rfl, -⟩ | h := h
  · exact change_setFault e
  · exact h.change hs

variable [Libm]

lemma steady_checkRise (now : UInt32) (h : active s) : Steady s (checkRise now s).1 := by
  rw [checkRise]
  dsimp only
  split_ifs <;> exact ⟨⟨rfl, rfl, rfl, rfl⟩, h⟩

lemma steady_checkHeating (tempError : Float32) (gotDerivative : Bool) (now : UInt32)
    (h : active s) : Steady s (checkHeating tempError gotDerivative now s).1 := by
  rw [checkHeating]
  split_ifs
  · exact ⟨⟨rfl, rfl, rfl, rfl⟩, active_iff.mpr (.inr (.inl rfl))⟩
  · exact ⟨⟨rfl, rfl, rfl, rfl⟩, h⟩
  · exact steady_checkRise now h
  · exact .refl h

lemma steady_checkProgress (tempError target : Float32) (gotDerivative : Bool) (h : active s) :
    Steady s (checkProgress tempError target gotDerivative s).1 := by
  rw [checkProgress]
  split
  · exact steady_checkHeating _ _ _ h
  · exact steady_checkStable _ h
  · exact steady_checkCooling _ _ h
  · exact .refl h

lemma regulates_drive (tempError target : Float32) (derivative : Derivative) (ht : Steady s t) :
    Regulates s (drive tempError target derivative t) := by
  rw [drive]
  split
  extract_lets
  split_ifs
  · exact .inl ⟨_, _, rfl, ht.toKept.trans ⟨rfl, rfl, rfl, rfl⟩⟩
  · exact .inr (ht.trans (steady_applyHeater _ _ _ _ ht.after))

lemma regulates_regulate (derivative : Derivative) (h : active s) :
    Regulates s (regulate derivative s) := by
  have hfollowed := steady_followBoost (adjustedTarget s) h
  have hchecked := hfollowed.trans (steady_checkProgress
    (adjustedTarget s - (followBoost (adjustedTarget s) s).loop.temperature) (adjustedTarget s)
    derivative.2 hfollowed.after)
  rw [regulate]
  split
  · next checked error heq =>
    rw [heq] at hchecked
    exact .inl ⟨error, checked, rfl, hchecked.toKept⟩
  · next checked heq =>
    rw [heq] at hchecked
    exact regulates_drive _ _ _ hchecked

lemma kept_respond (goodTemperature : Bool) (derivative : Derivative) (s : Thermal.State) :
    Kept s (respond goodTemperature derivative s) := by
  rw [respond]
  split_ifs with hactive
  · exact (kept_applyHeater 0.0 s).trans ⟨rfl, rfl, rfl, rfl⟩
  · exact kept_setFault _ s
  · exact kept_setFault _ s
  · exact ⟨rfl, rfl, rfl, rfl⟩
  · exact kept_setFault _ s
  · exact kept_setFault _ s
  · exact (regulates_regulate derivative (by simpa using hactive)).kept

lemma change_respond (goodTemperature : Bool) (derivative : Derivative) (s : Thermal.State) :
    Change commanded s (respond goodTemperature derivative s) := by
  rw [respond]
  split_ifs with hactive
  · refine .stopped ?_ (off_applyHeater s) fun hl => ?_
    · rw [active_congr (s := s) (by simp)]
      simpa using hactive
    · have hl' : s.linkTimeoutLatched := by simpa using hl
      by_cases hf : s.state = .fault
      · exact .inl (by simpa using hf)
      · exact .inr ⟨hl', hf⟩
  all_goals first
    | exact change_setFault _
    | exact .of_board rfl rfl rfl fun _ h => h
    | exact (regulates_regulate derivative (by simpa using hactive)).change (by simpa using hactive)

/-- The loop variables and the derivative once the sample of a control cycle is recorded. -/
def recorded (adc : Adc) (s : Thermal.State) : Loop × Derivative :=
  recordSample ((sample adc s).2 = .none) (sample adc s).1

lemma control_eq (adc : Adc) (s : Thermal.State) : Thermal.control adc s =
    respond ((sample adc s).2 = .none) (recorded adc s).2
      { s with
        error := if s.state = .fault then s.error else (sample adc s).2
        loop := (recorded adc s).1 } := by
  by_cases h : s.state = .fault <;> simp [Thermal.control, sampleTemperature, recorded, h]

lemma change_control (adc : Adc) (s : Thermal.State) :
    Change commanded s (Thermal.control adc s) := by
  rw [control_eq]
  exact (change_respond _ _ _).after rfl rfl rfl rfl rfl

lemma kept_control (adc : Adc) (s : Thermal.State) : Kept s (Thermal.control adc s) := by
  rw [control_eq]
  obtain ⟨h1, h2, h3, h4⟩ := kept_respond ((sample adc s).2 = .none) (recorded adc s).2
    { s with
      error := if s.state = .fault then s.error else (sample adc s).2
      loop := (recorded adc s).1 }
  exact ⟨h1, h2, h3, h4⟩

end Control

section Handlers

variable {commanded : Prop} (payload : Payload) (length : UInt8) (s : Thermal.State)

lemma change_configureModelA : Change commanded s (configureModelA payload length s) := by
  rw [configureModelA]
  split_ifs
  · exact change_rejectModelUpdate rfl rfl rfl
  · exact .of_board rfl rfl rfl fun _ h => h

lemma change_configureModelB : Change commanded s (configureModelB payload length s) := by
  rw [configureModelB]
  split_ifs
  · exact change_rejectModelUpdate rfl rfl rfl
  · exact change_rejectModelUpdate rfl rfl rfl
  · exact .of_board rfl rfl rfl fun _ h => h

lemma change_configureModelC : Change commanded s (configureModelC payload length s) := by
  rw [configureModelC]
  extract_lets
  split_ifs
  · exact change_rejectModelUpdate rfl rfl rfl
  · exact change_rejectModelUpdate rfl rfl rfl
  · exact change_rejectModelUpdate rfl rfl rfl
  · exact .of_board rfl rfl rfl fun _ h => ⟨h.1, h.2.1, rfl⟩
  · exact change_rejectModelUpdate rfl rfl rfl

lemma change_configureHeater : Change commanded s (configureHeater payload length s) := by
  rw [configureHeater]
  extract_lets
  split_ifs
  · exact .refl
  · exact change_rejectConfiguration _ rfl rfl rfl
  · exact .of_board rfl rfl rfl fun _ h => ⟨h.1, rfl, h.2.2⟩

lemma change_configureFeedForward :
    Change commanded s (configureFeedForward payload length s) := by
  rw [configureFeedForward]
  extract_lets
  split_ifs
  · exact .refl
  · exact change_setFault _
  all_goals exact .of_board rfl rfl rfl fun _ h => h

lemma stopped_applyHeater {t u : Thermal.State} (state : t.state = s.state)
    (latch : t.linkTimeoutLatched = s.linkTimeoutLatched) (other : HeaterState)
    (hother : other = .off ∨ other = .suspended) (board : u.board = (applyHeater 0.0 t).board)
    (hu : u.state = if t.state ≠ .fault then other else t.state)
    (hl : u.linkTimeoutLatched = t.linkTimeoutLatched) : Change commanded s u := by
  have hline : heaterLine u = heaterLine (applyHeater 0.0 t) := by
    rw [heaterLine, heaterLine, board]
  by_cases hf : s.state = .fault
  · have huf : u.state = .fault := by simp [hu, state, hf]
    exact .stopped (not_active_of_fault huf) (hline.trans (off_applyHeater t)) fun _ => .inl huf
  · refine .stopped ?_ (hline.trans (off_applyHeater t)) fun h => .inr ⟨?_, hf⟩
    · rcases hother with rfl | rfl <;> simp [active_iff, hu, state, hf]
    · rw [← latch, ← hl, h]

lemma change_commandOff : Change commanded s (commandOff s) :=
  stopped_applyHeater s (t := s) rfl rfl .off (.inl rfl) rfl (by simp [commandOff])
    (by simp [commandOff])

lemma change_commandSuspend : Change commanded s (commandSuspend s) :=
  stopped_applyHeater s (t := s) rfl rfl .suspended (.inr rfl) rfl (by simp [commandSuspend])
    (by simp [commandSuspend])

lemma change_resetConfiguration (t : Thermal.State) : Change commanded s (resetConfiguration t) :=
  .stopped (not_active_of_off (by simp [resetConfiguration]))
    (off_applyHeater _) (by simp [resetConfiguration])

variable [Libm]

lemma change_configureThermistor :
    Change commanded s (configureThermistor payload length s) := by
  rw [configureThermistor]
  extract_lets
  split_ifs
  · exact .refl
  · exact change_rejectConfiguration _ rfl rfl rfl
  · exact .of_board rfl rfl rfl fun _ h => ⟨rfl, h.2.1, h.2.2⟩

def Ready (s : Thermal.State) : Prop := linkAlive s ∧ Complete s.config ∧ s.state ≠ .fault

instance : Decidable (Ready s) := instDecidableAnd

variable {s} (adc : Adc) (target : Float32)

lemma checkReady_of_not_ready (h : ¬ Ready s) : checkReady adc s = (s, true) := by
  have hrefused : (!linkAlive s || !s.config.thermistorConfigured || !s.config.heaterConfigured
      || !s.config.modelConfigured || decide (s.state = .fault)) = true := by
    by_contra hall
    simp only [Bool.not_eq_true, Bool.or_eq_false_iff, Bool.not_eq_false', decide_eq_false_iff_not]
      at hall
    exact h ⟨hall.1.1.1.1, ⟨hall.1.1.1.2, hall.1.1.2, hall.1.2⟩, hall.2⟩
  simp only [checkReady, hrefused, if_true]

lemma checkReady_of_ready (h : Ready s) :
    checkReady adc s = ((sampleTemperature adc s).1, !(sampleTemperature adc s).2) := by
  obtain ⟨h1, ⟨h2, h3, h4⟩, h5⟩ := h
  simp [checkReady, h1, h2, h3, h4, h5]

lemma commandOn_of_not_ready (h : ¬ Ready s) :
    commandOn target adc s = if s.state ≠ .fault then setFault (refusal s) s else s := by
  simp only [commandOn, checkReady_of_not_ready adc h]

lemma change_commandOn (hc : commanded) : Change commanded s (commandOn target adc s) := by
  by_cases h : Ready s
  · unfold commandOn
    rw [checkReady_of_ready adc h]
    cases hgood : (sampleTemperature adc s).2 with
    | false =>
      have hstate : (sampleTemperature adc s).1.state ≠ .fault := h.2.2
      simp only [Bool.not_false, hstate, ne_eq, not_false_eq_true, if_true]
      exact change_setFault _
    | true =>
      simp only [Bool.not_true]
      split_ifs with hlimit
      · exact change_setFault _
      · have hlimit' : ¬ s.config.upperLimit ≥ 1000.0 := by
          intro hge
          exact hlimit (by simp [sampleTemperature, hge])
        obtain ⟨⟨h2, h3, -, -⟩, h1⟩ := steady_updateHeaterState
          (adjustedTarget { (sampleTemperature adc s).1 with
            loop := { (sampleTemperature adc s).1.loop with targetTemperature := target } })
          { (sampleTemperature adc s).1 with
            loop := { (sampleTemperature adc s).1.loop with targetTemperature := target } }
        exact .started hc h.2.2 h.1 h.2.1 hlimit' h1 h2 h3
  · rw [commandOn_of_not_ready adc target h]
    split_ifs
    · exact change_setFault _
    · exact .refl

/-- The command resetFault is accepted. -/
def Clearable (adc : Adc) (s : Thermal.State) : Prop :=
  linkAlive s ∧ (sample adc s).2 = .none

instance : Decidable (Clearable adc s) :=
  instDecidableAnd

lemma commandResetFault_of_clearable (h : Clearable adc s) : ∃ b l, commandResetFault adc s =
    { s with
      linkTimeoutLatched := false, state := .off, error := .none, statusDirty := true
      loop := l, board := b } ∧ output b heaterPin = .level false := by
  have hoff := off_applyHeater { (sampleTemperature adc s).1 with linkTimeoutLatched := false }
  refine ⟨_, { clearBoosts (sample adc s).1 with badReadings := 0 }, ?_, hoff⟩
  simp [commandResetFault, h.1, h.2, sampleTemperature, applyHeater_eq, setHeaterPwm]

lemma commandResetFault_of_dead (h : ¬ linkAlive s) :
    commandResetFault adc s = { s with statusDirty := true } := by
  simp [commandResetFault, h]

lemma commandResetFault_of_bad (h : linkAlive s) (hbad : (sample adc s).2 ≠ .none) :
    commandResetFault adc s =
      { s with loop := (sample adc s).1, error := (sample adc s).2, statusDirty := true } := by
  simp [commandResetFault, h, hbad, sampleTemperature]

lemma change_commandResetFault : Change commanded s (commandResetFault adc s) := by
  by_cases halive : linkAlive s
  · by_cases hgood : (sample adc s).2 = .none
    · obtain ⟨b, l, heq, hoff⟩ := commandResetFault_of_clearable adc ⟨halive, hgood⟩
      rw [heq]
      exact .stopped (not_active_of_off rfl) hoff (by simp)
    · rw [commandResetFault_of_bad adc halive hgood]
      exact .of_board rfl rfl rfl fun _ h => h
  · rw [commandResetFault_of_dead adc halive]
    exact .of_board rfl rfl rfl fun _ h => h

/-- The frame commands `c`. -/
def Commands (c : HeaterCommand) (frame : Frame) : Prop :=
  MessageType.ofCode frame.type = some .heaterCommand ∧ frame.length = 3 ∧
    HeaterCommand.ofCode (getElem frame.payload 0 byte0) = some c

instance (c : HeaterCommand) (frame : Frame) : Decidable (Commands c frame) :=
  instDecidableAnd

lemma change_handleFrame (frame : Frame) :
    Change (Commands .on frame) s (Thermal.handleFrame frame adc s) := by
  rw [Thermal.handleFrame]
  split
  · exact change_configureThermistor _ _ s
  · exact change_configureModelA _ _ s
  · exact change_configureModelB _ _ s
  · exact change_configureModelC _ _ s
  · exact change_configureHeater _ _ s
  · next htype =>
    rw [command]
    split_ifs with hlength
    · exact .refl
    · split
      · exact change_commandOff s
      · next hon => exact change_commandOn adc _ ⟨htype, not_not.mp hlength, hon⟩
      · exact change_commandSuspend s
      · exact change_commandResetFault adc
      · exact .of_board rfl rfl rfl fun _ h => h
  · exact change_configureFeedForward _ _ s
  · exact .refl

end Handlers

section MainLoop

open MainLoop

variable {commanded : Prop} (s : MainLoop.State)

lemma change_tick (s : Thermal.State) : Change commanded s (tick s) := by
  rw [tick]
  split_ifs
  · exact change_setFault _
  · exact .of_board rfl rfl rfl fun _ h => h

lemma Change.of_registers {s t : Thermal.State} (state : t.state = s.state)
    (board : SameRegisters heaterPin s.board t.board)
    (latch : t.linkTimeoutLatched = s.linkTimeoutLatched) (config : t.config = s.config) :
    Change commanded s t :=
  .kept state board.output latch fun _ h => config ▸ h

lemma sameRegisters_onBoard {f : Board → Option Board}
    (h : ∀ b b', f b = some b' → SameRegisters heaterPin b b') :
    SameRegisters heaterPin s.thermal.board (onBoard f s).thermal.board :=
  sameRegisters_getD fun b' hb => h _ b' hb

lemma sameRegisters_handleGpioConfig (frame : Frame) :
    SameRegisters heaterPin s.thermal.board (handleGpioConfig frame s).thermal.board := by
  rw [handleGpioConfig]
  split_ifs with h
  · exact sameRegisters_onBoard s fun _ _ hb => sameRegisters_configure h.2.symm hb
  · exact .refl _ _

lemma sameRegisters_handleGpioWrite (frame : Frame) :
    SameRegisters heaterPin s.thermal.board (handleGpioWrite frame s).thermal.board := by
  rw [handleGpioWrite]
  split_ifs with h
  · exact sameRegisters_onBoard s fun _ _ hb => sameRegisters_write h.2.symm hb
  · exact .refl _ _

lemma sameRegisters_handlePwmWrite (frame : Frame) :
    SameRegisters heaterPin s.thermal.board (handlePwmWrite frame s).thermal.board := by
  rw [handlePwmWrite]
  split_ifs with h
  · exact sameRegisters_onBoard s fun _ _ hb => sameRegisters_set h.2.symm hb
  · exact .refl _ _

lemma change_handleGpioConfig (frame : Frame) :
    Change commanded s.thermal (handleGpioConfig frame s).thermal := by
  refine .of_registers ?_ (sameRegisters_handleGpioConfig s frame) ?_ ?_ <;>
    unfold handleGpioConfig <;> split_ifs <;> rfl

lemma change_handleGpioWrite (frame : Frame) :
    Change commanded s.thermal (handleGpioWrite frame s).thermal := by
  refine .of_registers ?_ (sameRegisters_handleGpioWrite s frame) ?_ ?_ <;>
    unfold handleGpioWrite <;> split_ifs <;> rfl

lemma change_handlePwmWrite (frame : Frame) :
    Change commanded s.thermal (handlePwmWrite frame s).thermal := by
  refine .of_registers ?_ (sameRegisters_handlePwmWrite s frame) ?_ ?_ <;>
    unfold handlePwmWrite <;> split_ifs <;> rfl

lemma change_handleConfigurationReset (frame : Frame) :
    Change commanded s.thermal (handleConfigurationReset frame s).thermal := by
  rw [handleConfigurationReset]
  split_ifs
  · exact change_resetConfiguration _ _
  · exact .refl

lemma change_handlePing (frame : Frame) :
    Change commanded s.thermal (handlePing frame s).1.thermal := by
  rw [handlePing]
  split_ifs
  · exact .of_board rfl rfl rfl fun _ h => h
  · exact .refl

lemma handleConfigurationComplete_thermal (frame : Frame) :
    (handleConfigurationComplete frame s).thermal = s.thermal := by
  rw [handleConfigurationComplete]
  split_ifs <;> rfl

lemma change_pollPin : Change commanded s.thermal (pollPin s).1.thermal := by
  rw [pollPin]
  split_ifs
  · exact .refl
  · split
    · exact .refl
    · next pin value b hpoll =>
      rw [poll] at hpoll
      obtain ⟨i, -, heq⟩ := Option.map_eq_some_iff.mp hpoll
      obtain ⟨-, -, rfl⟩ := heq
      exact .of_registers rfl (.of_timer (fun _ _ => rfl) rfl rfl rfl) rfl rfl

lemma change_sendStatus : Change commanded s.thermal (sendStatus s).1.thermal := by
  rw [sendStatus]
  split_ifs
  · exact .refl
  · split
    · exact .refl
    · next t payload htake =>
      rw [takeStatus] at htake
      split_ifs at htake
      cases htake
      exact .of_board rfl rfl rfl fun _ h => h

/-- The action is the arrival of a frame that commands `c`. -/
def Commanded (c : HeaterCommand) : Action → Prop
  | .frame frame _ => Commands c frame
  | _ => False

instance (c : HeaterCommand) (a : Action) : Decidable (Commanded c a) :=
  match a with
  | .frame frame _ => inferInstanceAs (Decidable (Commands c frame))
  | .tick | .spin _ | .poll | .status | .lines _ | .reset _ => instDecidableFalse

variable [Libm]

lemma change_frame (frame : Frame) (adc : Adc) :
    Change (Commands .on frame) s.thermal (MainLoop.handleFrame frame adc s).1.thermal := by
  rw [MainLoop.handleFrame]
  split
  · exact change_handlePing s frame
  · exact change_handleConfigurationReset s frame
  · rw [handleConfigurationComplete_thermal]
    exact .refl
  · exact change_handleGpioConfig s frame
  · exact change_handleGpioWrite s frame
  · exact change_handlePwmWrite s frame
  · exact change_handleFrame adc frame

lemma change_step (a : Action) :
    Change (Commanded .on a) s.thermal (MainLoop.step s a).thermal := by
  cases a with
  | tick => exact change_tick s.thermal
  | spin adc =>
    simp only [MainLoop.step, act, spin]
    split_ifs
    · exact (change_control adc _).after rfl rfl rfl rfl rfl
    · exact .refl
  | frame frame adc => exact change_frame s frame adc
  | poll => exact change_pollPin s
  | status => exact change_sendStatus s
  | lines line => exact .of_registers rfl (.of_timer (fun _ _ => rfl) rfl rfl rfl) rfl rfl
  | reset hardware => exact change_resetConfiguration _ _

end MainLoop

end RepRapFirmware.LpcFirmware.Effects
