import RepRapFirmware.LpcFirmware.FaultLatch

/-! What neither touches the ring buffer of the samples nor the fan PWM: everything but the taking
of a sample, feed-forward and the resets. -/

namespace RepRapFirmware.LpcFirmware.SteadyLoop

open Shared.LpcProtocol Thermal Effects Gpio Function

structure Steady (l l' : Loop) : Prop where
  index : l'.previousIndex = l.previousIndex
  mask : l'.goodTemperatureMask = l.goodTemperatureMask
  fan : l'.fanPwm = l.fanPwm

section Parts

variable {l l' l'' : Loop} (s : Thermal.State) (adc : Adc) (tempError target : Float32)

lemma Steady.refl : Steady l l := ⟨rfl, rfl, rfl⟩

lemma Steady.trans (h : Steady l l') (h' : Steady l' l'') : Steady l l'' :=
  ⟨h'.index.trans h.index, h'.mask.trans h.mask, h'.fan.trans h.fan⟩

lemma Steady.of_eq (h : l' = l) : Steady l l' := h ▸ .refl

lemma steady_updateHeaterState : Steady s.loop (updateHeaterState target s).loop := by
  rw [updateHeaterState]
  dsimp only
  split_ifs <;> exact ⟨rfl, rfl, rfl⟩

lemma steady_followBoost : Steady s.loop (followBoost target s).loop := by
  rw [followBoost]
  split_ifs
  · obtain ⟨hindex, hmask, hfan⟩ := steady_updateHeaterState s target
    exact ⟨hindex, hmask, hfan⟩
  · exact .refl

lemma steady_checkStable : Steady s.loop (checkStable tempError s).1.loop := by
  rw [checkStable]
  dsimp only
  split_ifs <;> exact ⟨rfl, rfl, rfl⟩

lemma steady_checkCooling : Steady s.loop (checkCooling tempError target s).1.loop := by
  rw [checkCooling]
  split_ifs <;> exact ⟨rfl, rfl, rfl⟩

lemma steady_commandOff : Steady s.loop (commandOff s).loop := by
  simp only [commandOff, clearBoosts, applyHeater_loop]
  exact ⟨rfl, rfl, rfl⟩

lemma steady_commandSuspend : Steady s.loop (commandSuspend s).loop := by
  simp only [commandSuspend, applyHeater_loop]
  exact ⟨rfl, rfl, rfl⟩

variable {s} in
lemma Steady.setFault (h : Steady l s.loop) (e : ThermalError) :
    Steady l (setFault e s).loop := by
  rwa [setFault_loop]

variable {s} in
lemma Steady.rejectConfiguration (h : Steady l s.loop) (e : ThermalError) :
    Steady l (rejectConfiguration e s).loop := by
  rw [Thermal.rejectConfiguration]
  split_ifs
  · exact h.setFault e
  · exact h

variable {s} in
lemma Steady.rejectModelUpdate (h : Steady l s.loop) :
    Steady l (rejectModelUpdate s).loop := by
  rw [Thermal.rejectModelUpdate]
  dsimp only
  split_ifs
  · apply Steady.setFault
    exact h
  · exact h

variable (payload : Payload) (length : UInt8)

lemma steady_configureModelA : Steady s.loop (configureModelA payload length s).loop := by
  rw [configureModelA]
  split_ifs
  · apply Steady.rejectModelUpdate
    exact .refl
  · exact .refl

lemma steady_configureModelB : Steady s.loop (configureModelB payload length s).loop := by
  rw [configureModelB]
  split_ifs
  · apply Steady.rejectModelUpdate
    exact .refl
  · apply Steady.rejectModelUpdate
    exact .refl
  · exact .refl

lemma steady_configureModelC : Steady s.loop (configureModelC payload length s).loop := by
  rw [configureModelC]
  dsimp only
  split_ifs
  · apply Steady.rejectModelUpdate
    exact .refl
  · apply Steady.rejectModelUpdate
    exact .refl
  · apply Steady.rejectModelUpdate
    exact .refl
  · exact .refl
  · apply Steady.rejectModelUpdate
    exact .refl

lemma steady_configureHeater : Steady s.loop (configureHeater payload length s).loop := by
  rw [configureHeater]
  extract_lets
  split_ifs
  · exact .refl
  · apply Steady.rejectConfiguration
    exact .refl
  · exact .refl

variable [Libm]

lemma steady_sample : Steady s.loop (sample adc s).1 := by
  rw [sample]
  split
  · exact .refl
  · split
    · exact .refl
    · extract_lets
      split_ifs
      · exact ⟨rfl, rfl, rfl⟩
      · split
        dsimp only
        split_ifs <;> exact ⟨rfl, rfl, rfl⟩

lemma steady_checkRise (now : UInt32) : Steady s.loop (checkRise now s).1.loop := by
  rw [checkRise]
  dsimp only
  split_ifs <;> exact ⟨rfl, rfl, rfl⟩

lemma steady_checkHeating (gotDerivative : Bool) (now : UInt32) :
    Steady s.loop (checkHeating tempError gotDerivative now s).1.loop := by
  rw [checkHeating]
  split_ifs
  · exact ⟨rfl, rfl, rfl⟩
  · exact ⟨rfl, rfl, rfl⟩
  · exact steady_checkRise s now
  · exact .refl

lemma steady_checkProgress (gotDerivative : Bool) :
    Steady s.loop (checkProgress tempError target gotDerivative s).1.loop := by
  rw [checkProgress]
  split
  · exact steady_checkHeating s tempError gotDerivative _
  · exact steady_checkStable s tempError
  · exact steady_checkCooling s tempError target
  · exact .refl

lemma steady_drive (derivative : Derivative) :
    Steady s.loop (drive tempError target derivative s).loop := by
  rw [drive]
  split
  dsimp only
  split_ifs
  · apply Steady.setFault
    exact ⟨rfl, rfl, rfl⟩
  all_goals
    simp only [applyHeater_loop]
    exact ⟨rfl, rfl, rfl⟩

lemma steady_regulate (derivative : Derivative) :
    Steady s.loop (regulate derivative s).loop := by
  have hfollowed := steady_followBoost s (adjustedTarget s)
  have hchecked := hfollowed.trans (steady_checkProgress (followBoost (adjustedTarget s) s)
    (adjustedTarget s - (followBoost (adjustedTarget s) s).loop.temperature) (adjustedTarget s)
    derivative.2)
  rw [regulate]
  split
  · next checked error heq =>
    rw [heq] at hchecked
    exact hchecked.setFault error
  · next checked heq =>
    rw [heq] at hchecked
    exact hchecked.trans (steady_drive checked _ _ derivative)

lemma steady_respond (goodTemperature : Bool) (derivative : Derivative) :
    Steady s.loop (respond goodTemperature derivative s).loop := by
  rw [respond]
  split_ifs
  · simp only [applyHeater_loop]
    exact ⟨rfl, rfl, rfl⟩
  · exact Steady.refl.setFault _
  · exact Steady.refl.setFault _
  · exact .refl
  · exact Steady.refl.setFault _
  · exact Steady.refl.setFault _
  · exact steady_regulate s derivative

lemma steady_configureThermistor :
    Steady s.loop (configureThermistor payload length s).loop := by
  rw [configureThermistor]
  dsimp only
  split_ifs
  · exact .refl
  · apply Steady.rejectConfiguration
    exact .refl
  · exact ⟨rfl, rfl, rfl⟩

lemma steady_checkReady : Steady s.loop (checkReady adc s).1.loop := by
  by_cases h : Ready s
  · rw [checkReady_of_ready adc h]
    exact steady_sample s adc
  · rw [checkReady_of_not_ready adc h]
    exact .refl

lemma steady_commandOn : Steady s.loop (commandOn target adc s).loop := by
  have hchecked := steady_checkReady s adc
  rw [commandOn]
  split
  · next checked heq =>
    rw [heq] at hchecked
    split_ifs
    · exact hchecked.setFault _
    · exact hchecked
  · next checked heq =>
    rw [heq] at hchecked
    dsimp only
    split_ifs
    · exact hchecked.setFault _
    · obtain ⟨hindex, hmask, hfan⟩ := steady_updateHeaterState
        { checked with loop := { checked.loop with targetTemperature := target } }
        (adjustedTarget { checked with loop := { checked.loop with targetTemperature := target } })
      exact hchecked.trans ⟨hindex, hmask, hfan⟩

lemma steady_commandResetFault : Steady s.loop (commandResetFault adc s).loop := by
  have hsample := steady_sample s adc
  rw [commandResetFault]
  split_ifs
  · exact .refl
  · dsimp only
    split_ifs
    · simp only [applyHeater_loop, clearBoosts]
      exact ⟨hsample.index, hsample.mask, hsample.fan⟩
    · exact hsample

lemma steady_command : Steady s.loop (command payload length adc s).loop := by
  rw [command]
  dsimp only
  split_ifs
  · exact .refl
  · split
    · exact steady_commandOff s
    · exact steady_commandOn s adc _
    · exact steady_commandSuspend s
    · exact steady_commandResetFault s adc
    · exact .refl

end Parts

section Steps

variable {s : MainLoop.State} {frame : Frame} {adc : Adc}

lemma steady_tick (s : Thermal.State) : Steady s.loop (tick s).loop := by
  rw [tick]
  dsimp only
  split_ifs
  · apply Steady.setFault
    exact .refl
  · exact .refl

lemma steady_pollPin : Steady s.thermal.loop (MainLoop.pollPin s).1.thermal.loop := by
  rw [MainLoop.pollPin]
  split_ifs
  · exact .refl
  · split <;> exact .refl

lemma steady_sendStatus : Steady s.thermal.loop (MainLoop.sendStatus s).1.thermal.loop := by
  rw [MainLoop.sendStatus]
  split_ifs
  · exact .refl
  · split
    · exact .refl
    · next t payload htake =>
      rw [takeStatus] at htake
      split_ifs at htake
      cases htake
      exact .refl

variable [Libm]

lemma steady_frame
    (hreset : ¬ (MessageType.ofCode frame.type = some .configurationReset ∧ frame.length = 0))
    (hfeed : MessageType.ofCode frame.type ≠ some .heaterFeedForward) :
    Steady s.thermal.loop (MainLoop.handleFrame frame adc s).1.thermal.loop := by
  rw [MainLoop.handleFrame]
  split
  · rw [MainLoop.handlePing]
    split_ifs <;> exact .refl
  · next htype =>
    rw [MainLoop.handleConfigurationReset, if_neg fun hlength => hreset ⟨htype, hlength⟩]
    exact .refl
  · rw [handleConfigurationComplete_thermal]
    exact .refl
  · rw [MainLoop.handleGpioConfig]
    split_ifs <;> exact .refl
  · rw [MainLoop.handleGpioWrite]
    split_ifs <;> exact .refl
  · rw [MainLoop.handlePwmWrite]
    split_ifs <;> exact .refl
  · rw [Thermal.handleFrame]
    split
    · exact steady_configureThermistor _ _ _
    · exact steady_configureModelA _ _ _
    · exact steady_configureModelB _ _ _
    · exact steady_configureModelC _ _ _
    · exact steady_configureHeater _ _ _
    · exact steady_command _ _ _ _
    · next htype => exact absurd htype hfeed
    · exact .refl

lemma steady_control (adc : Adc) (s : Thermal.State) :
    Steady (recorded adc s).1 (control adc s).loop := by
  rw [control_eq]
  exact steady_respond { s with
    error := if s.state = .fault then s.error else (sample adc s).2
    loop := (recorded adc s).1 } _ _

end Steps

end RepRapFirmware.LpcFirmware.SteadyLoop
