import RepRapFirmware.LpcFirmware.FaultLatch

/-! The heater is only ever powered by an active, completely configured module whose link has not
timed out. -/

namespace RepRapFirmware.LpcFirmware.HeaterSafety

open Library.Runs Shared.LpcProtocol Thermal Gpio Outputs Effects Frames FaultLatch

/-- What holds between any two actions. -/
structure Safe (s : Thermal.State) : Prop where
  complete : active s → Complete s.config
  model : ModelOk s.config
  latch : s.linkTimeoutLatched → s.state = .fault
  idle : ¬ active s → Off s

lemma safe_powerUp (hardware : Board) : Safe (MainLoop.powerUp hardware).thermal := by
  have hinactive : ¬ active (MainLoop.powerUp hardware).thermal :=
    not_active_of_off (applyHeater_state _ _)
  refine ⟨fun h => absurd h hinactive, modelOk_powerUp hardware, fun h => ?_,
    fun _ => off_applyHeater _⟩
  rw [show (MainLoop.powerUp hardware).thermal.linkTimeoutLatched = false from
    applyHeater_latch _ _] at h
  exact absurd h (by decide)

lemma Safe.change {commanded : Prop} {s t : Thermal.State} (h : Safe s) (hm : ModelOk t.config)
    (hc : Change commanded s t) : Safe t := by
  cases hc with
  | kept state line latch config =>
    refine ⟨fun ha => ?_, hm, fun hl => ?_, fun hi => ?_⟩
    · rw [active_congr state] at ha
      exact config ha (h.complete ha)
    · rw [state]
      exact h.latch (latch ▸ hl)
    · rw [active_congr state] at hi
      exact line.trans (h.idle hi)
  | stopped inactive off latch =>
    refine ⟨fun ha => absurd ha inactive, hm, fun hl => ?_, fun _ => off⟩
    obtain hf | ⟨hs, hf⟩ := latch hl
    · exact hf
    · exact absurd (h.latch hs) hf
  | regulated before after config latch =>
    refine ⟨fun _ => config ▸ h.complete before, hm, fun hl => ?_, fun hi => absurd after hi⟩
    exact absurd before (not_active_of_fault (h.latch (latch ▸ hl)))
  | started _ fault _ complete _ after config latch =>
    refine ⟨fun _ => config ▸ complete, hm, fun hl => ?_, fun hi => absurd after hi⟩
    exact absurd (h.latch (latch ▸ hl)) fault

/-- The heater is active and completely configured, and its link has not timed out. -/
def Powered (s : Thermal.State) : Prop :=
  active s ∧ s.config.thermistorConfigured ∧ s.config.heaterConfigured ∧
    s.config.modelConfigured ∧ modelReady s.config.model ∧ ¬ s.linkTimeoutLatched

lemma Safe.powered {s : Thermal.State} (h : Safe s) (hduty : ¬ Off s) : Powered s := by
  have hactive : active s := by
    by_contra hi
    exact hduty (h.idle hi)
  obtain ⟨h1, h2, h3⟩ := h.complete hactive
  exact ⟨hactive, h1, h2, h3, h.model h3, fun hl => not_active_of_fault (h.latch hl) hactive⟩

variable [Libm]

lemma safe_step (s : MainLoop.State) (a : MainLoop.Action) (h : Safe s.thermal) :
    Safe (MainLoop.step s a).thermal :=
  h.change (modelOk_step s a h.model) (change_step s a)

/-- Frames of these types write pins. -/
def WritesPins (frame : Frame) : Prop :=
  MessageType.ofCode frame.type = some .gpioConfig ∨
    MessageType.ofCode frame.type = some .gpioWrite ∨
      MessageType.ofCode frame.type = some .pwmWrite

/-- The action leaves a fault only by ending it, and writes the heater's pin only for the
thermal module. -/
def Guarded (s : MainLoop.State) (a : MainLoop.Action) : Prop :=
  (s.thermal.state = .fault → (MainLoop.step s a).thermal.state ≠ .fault → Clears s a) ∧
    ∀ frame adc, a = .frame frame adc → WritesPins frame →
      SameRegisters heaterPin s.thermal.board (MainLoop.step s a).thermal.board

lemma guarded_step (s : MainLoop.State) (a : MainLoop.Action) : Guarded s a := by
  refine ⟨fun hf hne => ?_, ?_⟩
  · by_contra hc
    exact hne (latched_step a ⟨hf, rfl⟩ hc).state
  · rintro frame adc rfl (ht | ht | ht) <;>
      simp only [MainLoop.step, MainLoop.act, MainLoop.handleFrame, ht]
    · exact sameRegisters_handleGpioConfig s frame
    · exact sameRegisters_handleGpioWrite s frame
    · exact sameRegisters_handlePwmWrite s frame

/-- In every run from power-up, a heater that is not off is always safeguarded, and every action
is guarded. -/
theorem heater_safe (hardware : Board) (as : List MainLoop.Action) :
    Always MainLoop.step (fun s : MainLoop.State => ¬ Off s.thermal → Powered s.thermal)
        (MainLoop.powerUp hardware) as ∧
      Along MainLoop.step Guarded (MainLoop.powerUp hardware) as := by
  have hsafe : ∀ bs, Safe (run MainLoop.step (MainLoop.powerUp hardware) bs).thermal :=
    invariant (P := fun s : MainLoop.State => Safe s.thermal) (safe_powerUp hardware) safe_step
  exact ⟨fun bs _ => (hsafe bs).powered, along_of_forall guarded_step as⟩

end RepRapFirmware.LpcFirmware.HeaterSafety
