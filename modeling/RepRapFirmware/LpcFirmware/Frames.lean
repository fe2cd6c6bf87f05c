import Mathlib
import RepRapFirmware.LpcFirmware.Effects

/-! What an action of the LPC does to the clock, to the model in force and to the upper
temperature limit. -/

namespace RepRapFirmware.LpcFirmware.Frames

open Shared.LpcProtocol Shared.Payload Thermal Gpio Effects

/-- A model is only in force once it has passed its check. -/
def ModelOk (c : Config) : Prop := c.modelConfigured → modelReady c.model

/-- The configuration that a heaterConfig frame asks for can be used. -/
def AcceptsHeater (payload : Payload) : Prop :=
  readU16 payload 0 ≠ 0 ∧
    ¬ ofInt16 (readI16 payload 2) * 0.1 ≤ ofInt16 (readI16 payload 4) * 0.1

instance (payload : Payload) : Decidable (AcceptsHeater payload) :=
  instDecidableAnd

/-- The upper limit that a frame puts in force, if it sets one. -/
def frameLimit (frame : Frame) : Option Float32 :=
  if MessageType.ofCode frame.type = some .heaterConfig ∧ frame.length = 11 ∧
      AcceptsHeater frame.payload then some (ofInt16 (readI16 frame.payload 2) * 0.1)
  else if MessageType.ofCode frame.type = some .configurationReset ∧ frame.length = 0 then
    some 2000.0
  else none

structure Handled (limit : Option Float32) (s t : Thermal.State) : Prop where
  millis : t.millisTicks = s.millisTicks
  heartbeat : t.lastHostHeartbeat = s.lastHostHeartbeat
  model : ModelOk s.config → ModelOk t.config
  upperLimit : t.config.upperLimit = limit.getD s.config.upperLimit

section Handlers

variable (payload : Payload) (length : UInt8) (s : Thermal.State) {t : Thermal.State}

lemma Handled.of_kept (h : Kept s t) : Handled none s t :=
  ⟨h.millis, h.heartbeat, by rw [h.config]; exact id, by rw [h.config]; rfl⟩

lemma Handled.trans_kept {limit : Option Float32} {u : Thermal.State} {s : Thermal.State}
    (h : Handled limit s t) (h' : Kept t u) : Handled limit s u :=
  ⟨h'.millis.trans h.millis, h'.heartbeat.trans h.heartbeat, by rw [h'.config]; exact h.model,
    by rw [h'.config]; exact h.upperLimit⟩

variable {s}

lemma handled_rejectConfiguration (e : ThermalError) (h : Handled none s t) :
    Handled none s (rejectConfiguration e t) := by
  rw [rejectConfiguration]
  split_ifs
  · exact h.trans_kept (kept_setFault e t)
  · exact h.trans_kept ⟨rfl, rfl, rfl, rfl⟩

lemma handled_rejectModelUpdate (h : Handled none s t) :
    Handled none s (rejectModelUpdate t) := by
  have hdropped : Handled none s
      { t with config := { t.config with pendingModelParts := 0 } } :=
    ⟨h.millis, h.heartbeat, h.model, h.upperLimit⟩
  rw [rejectModelUpdate]
  extract_lets
  split_ifs
  · exact hdropped.trans_kept (kept_setFault _ _)
  · exact hdropped

variable (s)

lemma handled_refl : Handled none s s := ⟨rfl, rfl, id, rfl⟩

lemma handled_configureModelA : Handled none s (configureModelA payload length s) := by
  rw [configureModelA]
  split_ifs
  · exact handled_rejectModelUpdate (handled_refl s)
  · exact ⟨rfl, rfl, id, rfl⟩

lemma handled_configureModelB : Handled none s (configureModelB payload length s) := by
  rw [configureModelB]
  split_ifs
  · exact handled_rejectModelUpdate (handled_refl s)
  · exact handled_rejectModelUpdate (handled_refl s)
  · exact ⟨rfl, rfl, id, rfl⟩

lemma handled_configureModelC : Handled none s (configureModelC payload length s) := by
  rw [configureModelC]
  extract_lets
  split_ifs with _ _ _ hready
  · exact handled_rejectModelUpdate (handled_refl s)
  · exact handled_rejectModelUpdate (handled_refl s)
  · exact handled_rejectModelUpdate ⟨rfl, rfl, id, rfl⟩
  · exact ⟨rfl, rfl, fun _ _ => hready, rfl⟩
  · exact handled_rejectModelUpdate ⟨rfl, rfl, id, rfl⟩

lemma handled_configureHeater : Handled
    (if length = 11 ∧ AcceptsHeater payload then some (ofInt16 (readI16 payload 2) * 0.1) else none)
    s (configureHeater payload length s) := by
  rw [configureHeater]
  extract_lets frequency upper lower
  by_cases hlength : length = 11
  · by_cases haccepts : AcceptsHeater payload
    · have hgood : ¬ (frequency = 0 || upper ≤ lower) = true := by
        simp only [Bool.or_eq_true, decide_eq_true_iff, not_or]
        exact haccepts
      rw [if_neg (not_not.mpr hlength), if_neg hgood, if_pos ⟨hlength, haccepts⟩]
      exact ⟨rfl, rfl, id, rfl⟩
    · have hbad : (frequency = 0 || upper ≤ lower) = true := by
        by_contra hgood
        simp only [Bool.or_eq_true, decide_eq_true_iff, not_or] at hgood
        exact haccepts hgood
      rw [if_neg (not_not.mpr hlength), if_pos hbad, if_neg fun h => haccepts h.2]
      exact handled_rejectConfiguration _ ⟨rfl, rfl, id, rfl⟩
  · rw [if_pos hlength, if_neg fun h => hlength h.1]
    exact handled_refl s

lemma handled_configureFeedForward :
    Handled none s (configureFeedForward payload length s) := by
  rw [configureFeedForward]
  extract_lets
  split_ifs
  · exact handled_refl s
  · exact .of_kept s (kept_setFault _ s)
  all_goals exact ⟨rfl, rfl, id, rfl⟩

variable [Libm]

lemma handled_configureThermistor :
    Handled none s (configureThermistor payload length s) := by
  rw [configureThermistor]
  extract_lets
  split_ifs
  · exact handled_refl s
  · exact handled_rejectConfiguration _ ⟨rfl, rfl, id, rfl⟩
  · exact ⟨rfl, rfl, id, rfl⟩

lemma kept_sampleTemperature (adc : Adc) : Kept s (sampleTemperature adc s).1 :=
  ⟨rfl, rfl, rfl, rfl⟩

lemma kept_checkReady (adc : Adc) : Kept s (checkReady adc s).1 := by
  rw [checkReady]
  split_ifs
  · exact .refl
  · exact kept_sampleTemperature s adc

lemma kept_commandOn (target : Float32) (adc : Adc) : Kept s (commandOn target adc s) := by
  have hchecked := kept_checkReady s adc
  rw [commandOn]
  split
  · next checked heq =>
    rw [heq] at hchecked
    split_ifs
    · exact hchecked.trans (kept_setFault _ _)
    · exact hchecked
  · next checked heq =>
    rw [heq] at hchecked
    extract_lets
    split_ifs
    · exact hchecked.trans (kept_setFault _ _)
    · obtain ⟨h1, h2, h3, h4⟩ := (steady_updateHeaterState
        (adjustedTarget { checked with loop := { checked.loop with targetTemperature := target } })
        { checked with loop := { checked.loop with targetTemperature := target } }).toKept
      exact hchecked.trans ⟨h1, h2, h3, h4⟩

lemma handled_commandResetFault (adc : Adc) : Handled none s (commandResetFault adc s) := by
  by_cases halive : linkAlive s
  · by_cases hgood : (sample adc s).2 = .none
    · obtain ⟨b, l, heq, -⟩ := commandResetFault_of_clearable adc ⟨halive, hgood⟩
      rw [heq]
      exact ⟨rfl, rfl, id, rfl⟩
    · rw [commandResetFault_of_bad adc halive hgood]
      exact ⟨rfl, rfl, id, rfl⟩
  · rw [commandResetFault_of_dead adc halive]
    exact ⟨rfl, rfl, id, rfl⟩

lemma handled_command (adc : Adc) : Handled none s (command payload length adc s) := by
  rw [command]
  split_ifs
  · exact handled_refl s
  · split
    · exact .of_kept s ((kept_applyHeater 0.0 s).trans ⟨rfl, rfl, rfl, rfl⟩)
    · exact .of_kept s (kept_commandOn s _ adc)
    · exact .of_kept s ((kept_applyHeater 0.0 s).trans ⟨rfl, rfl, rfl, rfl⟩)
    · exact handled_commandResetFault s adc
    · exact ⟨rfl, rfl, id, rfl⟩

lemma handled_handleFrame (frame : Frame) (adc : Adc)
    (h : MessageType.ofCode frame.type ≠ some .configurationReset) :
    Handled (frameLimit frame) s (Thermal.handleFrame frame adc s) := by
  have hlimit : MessageType.ofCode frame.type ≠ some .heaterConfig → frameLimit frame = none := by
    intro hne
    simp [frameLimit, h, hne]
  rw [Thermal.handleFrame]
  split
  · next ht => simpa [hlimit, ht] using handled_configureThermistor _ _ s
  · next ht => simpa [hlimit, ht] using handled_configureModelA _ _ s
  · next ht => simpa [hlimit, ht] using handled_configureModelB _ _ s
  · next ht => simpa [hlimit, ht] using handled_configureModelC _ _ s
  · next ht => simpa [frameLimit, ht] using handled_configureHeater _ _ s
  · next ht => simpa [hlimit, ht] using handled_command _ _ s adc
  · next ht => simpa [hlimit, ht] using handled_configureFeedForward _ _ s
  · next hthermistor _ _ _ hheater _ _ =>
    rw [hlimit hheater]
    exact handled_refl s

end Handlers

section MainLoop

open MainLoop

lemma resetConfiguration_millis (s : Thermal.State) :
    (resetConfiguration s).millisTicks = s.millisTicks := applyHeater_millis _ _

lemma resetConfiguration_heartbeat (s : Thermal.State) :
    (resetConfiguration s).lastHostHeartbeat = s.lastHostHeartbeat := applyHeater_heartbeat _ _

lemma powerUp_millis (hardware : Board) : (powerUp hardware).thermal.millisTicks = 0 :=
  resetConfiguration_millis _

lemma powerUp_heartbeat (hardware : Board) : (powerUp hardware).thermal.lastHostHeartbeat = 0 :=
  resetConfiguration_heartbeat _

/-- The frame is a ping that the LPC takes as a sign of life. -/
def Pings (frame : Frame) : Prop :=
  MessageType.ofCode frame.type = some .ping ∧ frame.length = 1 ∧
    getElem frame.payload 0 byte0 = version

instance (frame : Frame) : Decidable (Pings frame) :=
  instDecidableAnd

variable (s : MainLoop.State)

lemma handled_onBoard (f : Board → Option Board) : Handled none s.thermal (onBoard f s).thermal :=
  ⟨rfl, rfl, id, rfl⟩

lemma handled_handleConfigurationReset (frame : Frame) :
    Handled (if frame.length = 0 then some 2000.0 else none) s.thermal
      (handleConfigurationReset frame s).thermal := by
  rw [handleConfigurationReset]
  split_ifs
  · exact ⟨resetConfiguration_millis _, resetConfiguration_heartbeat _,
      fun _ h => by simp [resetConfiguration, resetConfig] at h,
      congrArg Config.upperLimit (applyHeater_config _ _)⟩
  · exact handled_refl s.thermal

lemma handlePing_of_pings {frame : Frame} (h : Pings frame) :
    (handlePing frame s).1.thermal = hostHeartbeat s.thermal := by
  simp [handlePing, h.2.1, h.2.2]

lemma handled_pollPin : Handled none s.thermal (pollPin s).1.thermal := by
  rw [pollPin]
  split_ifs
  · exact handled_refl _
  · split
    · exact handled_refl _
    · exact ⟨rfl, rfl, id, rfl⟩

lemma handled_sendStatus : Handled none s.thermal (sendStatus s).1.thermal := by
  rw [sendStatus]
  split_ifs
  · exact handled_refl _
  · split
    · exact handled_refl _
    · next t payload htake =>
      rw [takeStatus] at htake
      split_ifs at htake
      cases htake
      exact ⟨rfl, rfl, id, rfl⟩

lemma kept_tick (s : Thermal.State) : Kept { s with
    millisTicks := s.millisTicks + 1, linkTimeoutLatched := (tick s).linkTimeoutLatched }
    (tick s) := by
  rw [tick]
  split_ifs
  · exact ⟨setFault_config _ _, rfl, setFault_millis _ _, setFault_heartbeat _ _⟩
  · exact ⟨rfl, rfl, rfl, rfl⟩

lemma frameLimit_of_pings {frame : Frame} (h : Pings frame) : frameLimit frame = none := by
  simp [frameLimit, h.1]

lemma modelOk_powerUp (hardware : Board) : ModelOk (powerUp hardware).thermal.config := by
  intro h
  simp [powerUp, thermalInit, resetConfiguration, resetConfig] at h

variable [Libm]

lemma handled_frame {frame : Frame} (adc : Adc) (h : ¬ Pings frame) :
    Handled (frameLimit frame) s.thermal (MainLoop.handleFrame frame adc s).1.thermal := by
  have hlimit : MessageType.ofCode frame.type ≠ some .heaterConfig →
      MessageType.ofCode frame.type ≠ some .configurationReset → frameLimit frame = none := by
    intro h1 h2
    simp [frameLimit, h1, h2]
  rw [MainLoop.handleFrame]
  split
  · next ht =>
    have hping : ¬ (frame.length = 1 ∧ frame.payload[0] = version) := fun hp => h ⟨ht, hp⟩
    simpa [hlimit, ht, handlePing, hping] using handled_refl s.thermal
  · next ht => simpa [frameLimit, ht] using handled_handleConfigurationReset s frame
  · next ht =>
    rw [handleConfigurationComplete_thermal]
    simpa [hlimit, ht] using handled_refl s.thermal
  · next ht =>
    rw [hlimit (by simp [ht]) (by simp [ht])]
    rw [handleGpioConfig]
    split_ifs
    · exact handled_onBoard _ _
    · exact handled_refl _
  · next ht =>
    rw [hlimit (by simp [ht]) (by simp [ht])]
    rw [handleGpioWrite]
    split_ifs
    · exact handled_onBoard _ _
    · exact handled_refl _
  · next ht =>
    rw [hlimit (by simp [ht]) (by simp [ht])]
    rw [handlePwmWrite]
    split_ifs
    · exact handled_onBoard _ _
    · exact handled_refl _
  · next _ hreset _ _ _ _ => exact handled_handleFrame s.thermal frame adc hreset

lemma handled_spin (adc : Adc) (s : Thermal.State) : Handled none s (spin adc s) := by
  rw [spin]
  split_ifs
  · obtain ⟨h1, h2, h3, h4⟩ := kept_control adc { s with lastSampleTime := s.millisTicks }
    exact .of_kept _ ⟨h1, h2, h3, h4⟩
  · exact handled_refl _

/-- The upper limit that an action puts in force, if it sets one. -/
def newLimit : Action → Option Float32
  | .frame frame _ => frameLimit frame
  | .reset _ => some 2000.0
  | _ => none

lemma upperLimit_step (a : Action) : (MainLoop.step s a).thermal.config.upperLimit =
    (newLimit a).getD s.thermal.config.upperLimit := by
  cases a with
  | tick => exact congrArg Config.upperLimit (kept_tick s.thermal).config
  | spin adc => exact (handled_spin adc s.thermal).upperLimit
  | frame frame adc =>
    by_cases h : Pings frame
    · simp [MainLoop.step, act, MainLoop.handleFrame, h.1, handlePing_of_pings s h, hostHeartbeat,
        newLimit, frameLimit_of_pings h]
    · exact (handled_frame s adc h).upperLimit
  | poll => exact (handled_pollPin s).upperLimit
  | status => exact (handled_sendStatus s).upperLimit
  | lines line => rfl
  | reset hardware => exact congrArg Config.upperLimit (applyHeater_config _ _)

lemma modelOk_step (a : Action) (h : ModelOk s.thermal.config) :
    ModelOk (MainLoop.step s a).thermal.config := by
  cases a with
  | tick => exact (kept_tick s.thermal).config ▸ h
  | spin adc => exact (handled_spin adc s.thermal).model h
  | frame frame adc =>
    by_cases hp : Pings frame
    · have hs : (MainLoop.step s (.frame frame adc)).thermal = hostHeartbeat s.thermal := by
        simp [MainLoop.step, act, MainLoop.handleFrame, hp.1, handlePing_of_pings s hp]
      rw [hs]
      exact h
    · exact (handled_frame s adc hp).model h
  | poll => exact (handled_pollPin s).model h
  | status => exact (handled_sendStatus s).model h
  | lines line => exact h
  | reset hardware => exact modelOk_powerUp hardware

/-- The number of ticks since the last sign of life of the host, or since power-up. -/
def silence (n : ℕ) : Action → ℕ
  | .tick => n + 1
  | .frame frame _ => if Pings frame then 0 else n
  | .reset _ => 0
  | _ => n

lemma clock_step {n : ℕ} (a : Action)
    (h : s.thermal.millisTicks = s.thermal.lastHostHeartbeat + UInt32.ofNat n) :
    (MainLoop.step s a).thermal.millisTicks =
      (MainLoop.step s a).thermal.lastHostHeartbeat + UInt32.ofNat (silence n a) := by
  cases a with
  | tick =>
    rw [show (MainLoop.step s .tick).thermal = tick s.thermal from rfl,
      (kept_tick s.thermal).millis,
      (kept_tick s.thermal).heartbeat, h]
    rw [silence, UInt32.ofNat_add, UInt32.add_assoc]
    rfl
  | spin adc =>
    have hs := handled_spin adc s.thermal
    exact hs.millis.trans (h.trans (by rw [← hs.heartbeat]; rfl))
  | frame frame adc =>
    by_cases hp : Pings frame
    · simp [MainLoop.step, act, MainLoop.handleFrame, hp.1, handlePing_of_pings s hp, hostHeartbeat,
        silence, hp]
    · have hs := handled_frame s adc hp
      have hn : silence n (.frame frame adc) = n := if_neg hp
      rw [hn]
      exact hs.millis.trans (h.trans (by rw [← hs.heartbeat]; rfl))
  | poll =>
    have hs := handled_pollPin s
    exact hs.millis.trans (h.trans (by rw [← hs.heartbeat]; rfl))
  | status =>
    have hs := handled_sendStatus s
    exact hs.millis.trans (h.trans (by rw [← hs.heartbeat]; rfl))
  | lines line => exact h
  | reset hardware =>
    exact (powerUp_millis hardware).trans (powerUp_heartbeat hardware).symm

end MainLoop

end RepRapFirmware.LpcFirmware.Frames
