import Mathlib
import RepRapFirmware.LpcFirmware.Frames

/-! A latched fault: what can end it, and which frames replace the error it reports. -/

namespace RepRapFirmware.LpcFirmware.FaultLatch

open Library.Runs Shared.LpcProtocol Shared.Payload Thermal Gpio Effects Frames

/-- The parameters of a thermistorConfig frame can be used. -/
def AcceptsThermistor (payload : Payload) : Prop :=
  (readFloat payload 0).isFinite ∧ (readFloat payload 4).isFinite ∧ (readFloat payload 8).isFinite ∧
    (readFloat payload 12).isFinite ∧ readFloat payload 0 > 0.0 ∧ readFloat payload 4 > 0.0 ∧
      readFloat payload 12 > 0.0

instance (payload : Payload) : Decidable (AcceptsThermistor payload) :=
  instDecidableAnd

/-- The values of a heaterFeedForward frame are finite. -/
def AcceptsFeedForward (payload : Payload) : Prop :=
  (readFloat payload 0).isFinite ∧ (readFloat payload 4).isFinite ∧ (readFloat payload 8).isFinite

instance (payload : Payload) : Decidable (AcceptsFeedForward payload) :=
  instDecidableAnd

/-- The module is in the fault state and reports `e`. -/
structure Latched (e : ThermalError) (s : Thermal.State) : Prop where
  state : s.state = .fault
  error : s.error = e

section Handlers

variable {e : ThermalError} {s : Thermal.State} (payload : Payload) (length : UInt8)

lemma latched_applyHeater (h : Latched e s) : Latched e (applyHeater 0.0 s) :=
  ⟨(applyHeater_state 0.0 s).trans h.state, (applyHeater_error 0.0 s).trans h.error⟩

lemma latched_rejectConfiguration {t : Thermal.State} (e : ThermalError) (h : t.state = .fault) :
    Latched .notConfigured (rejectConfiguration e t) := by
  rw [rejectConfiguration, if_neg (not_active_of_fault h)]
  exact ⟨h, rfl⟩

lemma latched_rejectModelUpdate (h : Latched e s) : Latched e (rejectModelUpdate s) := by
  rw [rejectModelUpdate]
  extract_lets
  split_ifs with hactive
  · exact absurd hactive (not_active_of_fault h.state)
  · exact ⟨h.state, h.error⟩

lemma latched_configureModelA (h : Latched e s) : Latched e (configureModelA payload length s) := by
  rw [configureModelA]
  split_ifs
  · exact latched_rejectModelUpdate h
  · exact ⟨h.state, h.error⟩

lemma latched_configureModelB (h : Latched e s) : Latched e (configureModelB payload length s) := by
  rw [configureModelB]
  split_ifs
  · exact latched_rejectModelUpdate h
  · exact latched_rejectModelUpdate h
  · exact ⟨h.state, h.error⟩

lemma latched_configureModelC (h : Latched e s) : Latched e (configureModelC payload length s) := by
  rw [configureModelC]
  extract_lets
  split_ifs
  · exact latched_rejectModelUpdate h
  · exact latched_rejectModelUpdate h
  · exact latched_rejectModelUpdate ⟨h.state, h.error⟩
  · exact ⟨h.state, h.error⟩
  · exact latched_rejectModelUpdate ⟨h.state, h.error⟩

lemma latched_configureHeater (h : Latched e s) :
    Latched ((if length = 11 ∧ ¬ AcceptsHeater payload then some .notConfigured else none).getD e)
      (configureHeater payload length s) := by
  rw [configureHeater]
  extract_lets frequency upper lower
  have hbad : (frequency = 0 || upper ≤ lower) = true ↔ ¬ AcceptsHeater payload := by
    simp only [AcceptsHeater, Bool.or_eq_true, decide_eq_true_iff, not_and_or, not_not, ne_eq,
      frequency, upper, lower]
  by_cases hlength : length = 11
  · rw [if_neg (not_not.mpr hlength)]
    by_cases haccepts : AcceptsHeater payload
    · rw [if_neg (show ¬ (length = 11 ∧ ¬ AcceptsHeater payload) from fun h' => h'.2 haccepts),
        if_neg fun h' => hbad.mp h' haccepts]
      exact ⟨h.state, h.error⟩
    · rw [if_pos (show length = 11 ∧ _ from ⟨hlength, haccepts⟩), if_pos (hbad.mpr haccepts)]
      exact latched_rejectConfiguration _ h.state
  · rw [if_neg fun h' : length = 11 ∧ _ => hlength h'.1, if_pos hlength]
    exact h

lemma latched_configureFeedForward (h : Latched e s) :
    Latched ((if length = 12 ∧ ¬ AcceptsFeedForward payload then some .controlFault else none).getD
      e)
      (configureFeedForward payload length s) := by
  have hstable : s.state ≠ .stable := by simp [h.state]
  rw [configureFeedForward]
  extract_lets fanPwm pwmBoost temperatureBoost clamped l boosted
  have hbad : (!fanPwm.isFinite || !pwmBoost.isFinite || !temperatureBoost.isFinite) = true ↔
      ¬ AcceptsFeedForward payload := by
    simp only [AcceptsFeedForward, Bool.or_eq_true, Bool.not_eq_true', not_and_or,
      Bool.not_eq_true, or_assoc, fanPwm, pwmBoost, temperatureBoost]
  by_cases hlength : length = 12
  · rw [if_neg (not_not.mpr hlength)]
    by_cases haccepts : AcceptsFeedForward payload
    · rw [if_neg (show ¬ (length = 12 ∧ ¬ AcceptsFeedForward payload) from fun h' => h'.2 haccepts),
        if_neg fun h' => hbad.mp h' haccepts]
      exact ⟨h.state, h.error⟩
    · rw [if_pos (show length = 12 ∧ _ from ⟨hlength, haccepts⟩), if_pos (hbad.mpr haccepts)]
      exact ⟨setFault_state _ _, setFault_error _ _⟩
  · rw [if_neg fun h' : length = 12 ∧ _ => hlength h'.1, if_pos hlength]
    exact h

lemma latched_commandOff (h : Latched e s) : Latched e (commandOff s) := by
  have ha := latched_applyHeater h
  refine ⟨?_, ha.error⟩
  simp [commandOff, h.state]

lemma latched_commandSuspend (h : Latched e s) : Latched e (commandSuspend s) := by
  have ha := latched_applyHeater h
  refine ⟨?_, ha.error⟩
  simp [commandSuspend, h.state]

lemma latched_tick (h : Latched e s) : Latched e (tick s) := by
  have ha : active { s with millisTicks := s.millisTicks + 1 } = false :=
    Bool.eq_false_iff.mpr (not_active_of_fault h.state)
  simp only [tick, ha, Bool.false_and, Bool.false_eq_true, if_false]
  exact ⟨h.state, h.error⟩

lemma latched_pollPin {m : MainLoop.State} (h : Latched e m.thermal)
    : Latched e (MainLoop.pollPin m).1.thermal := by
  rw [MainLoop.pollPin]
  split_ifs
  · exact h
  · split
    · exact h
    · exact ⟨h.state, h.error⟩

lemma latched_sendStatus {m : MainLoop.State} (h : Latched e m.thermal) :
    Latched e (MainLoop.sendStatus m).1.thermal := by
  rw [MainLoop.sendStatus]
  split_ifs
  · exact h
  · split
    · exact h
    · next t payload htake =>
      rw [takeStatus] at htake
      split_ifs at htake
      cases htake
      exact ⟨h.state, h.error⟩

variable [Libm] (adc : Adc)

lemma latched_configureThermistor (h : Latched e s) :
    Latched ((if length = 16 ∧ ¬ AcceptsThermistor payload then some .notConfigured else none).getD
      e)
      (configureThermistor payload length s) := by
  rw [configureThermistor]
  extract_lets r25 beta shC pullupR read
  have hbad : (!r25.isFinite || !beta.isFinite || !shC.isFinite || !pullupR.isFinite
      || ¬ r25 > 0.0 || ¬ beta > 0.0 || ¬ pullupR > 0.0) = true ↔ ¬ AcceptsThermistor payload := by
    simp only [AcceptsThermistor, Bool.or_eq_true, Bool.not_eq_true', decide_eq_true_iff,
      not_and_or, Bool.not_eq_true, or_assoc, r25, beta, shC, pullupR]
  by_cases hlength : length = 16
  · rw [if_neg (not_not.mpr hlength)]
    by_cases haccepts : AcceptsThermistor payload
    · rw [if_neg (show ¬ (length = 16 ∧ ¬ AcceptsThermistor payload) from fun h' => h'.2 haccepts),
        if_neg fun h' => hbad.mp h' haccepts]
      exact ⟨h.state, h.error⟩
    · rw [if_pos (show length = 16 ∧ _ from ⟨hlength, haccepts⟩), if_pos (hbad.mpr haccepts)]
      exact latched_rejectConfiguration _ h.state
  · rw [if_neg fun h' : length = 16 ∧ _ => hlength h'.1, if_pos hlength]
    exact h

lemma latched_commandOn (target : Float32) (h : Latched e s) :
    Latched e (commandOn target adc s) := by
  rw [commandOn_of_not_ready adc target fun hr => hr.2.2 h.state, if_neg (not_not.mpr h.state)]
  exact h

lemma latched_commandResetFault (h : Latched e s) (hc : ¬ Clearable adc s) :
    Latched ((if linkAlive s ∧ (sample adc s).2 ≠ .none then some (sample adc s).2 else none).getD
      e)
      (commandResetFault adc s) := by
  by_cases halive : linkAlive s
  · have hbad : (sample adc s).2 ≠ .none := fun hgood => hc ⟨halive, hgood⟩
    rw [commandResetFault_of_bad adc halive hbad, if_pos ⟨halive, hbad⟩]
    exact ⟨h.state, rfl⟩
  · rw [commandResetFault_of_dead adc halive, if_neg fun h' => halive h'.1]
    exact ⟨h.state, h.error⟩

lemma latched_spin (h : Latched e s) : Latched e (spin adc s) := by
  have hcontrol : ∀ t, Latched e t → Latched e (Thermal.control adc t) := by
    intro t ht
    have ha : ∀ l, active { t with error := t.error, loop := l } = false :=
      fun l => Bool.eq_false_iff.mpr (not_active_of_fault ht.state)
    rw [control_eq, if_pos ht.state]
    simp only [respond, ha, Bool.not_false, if_true]
    exact ⟨(latched_applyHeater (s := { t with loop := (recorded adc t).1 }) ⟨ht.state,
      ht.error⟩).1,
      (latched_applyHeater (s := { t with loop := (recorded adc t).1 }) ⟨ht.state, ht.error⟩).2⟩
  rw [spin]
  split_ifs
  · exact hcontrol _ ⟨h.state, h.error⟩
  · exact h

end Handlers

section Frames

variable [Libm]

/-- The action ends a fault: an accepted resetFault, a configurationReset or a restart. -/
def Clears (s : MainLoop.State) : MainLoop.Action → Prop
  | .frame frame adc =>
    Commands .resetFault frame ∧ Clearable adc s.thermal ∨
      MessageType.ofCode frame.type = some .configurationReset ∧ frame.length = 0
  | .reset _ => True
  | _ => False

instance (s : MainLoop.State) (a : MainLoop.Action) : Decidable (Clears s a) :=
  match a with
  | .frame _ _ => instDecidableOr
  | .reset _ => instDecidableTrue
  | .tick | .spin _ | .poll | .status | .lines _ => instDecidableFalse

/-- The error that a frame puts in the place of a latched one. -/
def overwritten (frame : Frame) (adc : Adc) (s : Thermal.State) : Option ThermalError :=
  match MessageType.ofCode frame.type with
  | some .thermistorConfig =>
    if frame.length = 16 ∧ ¬ AcceptsThermistor frame.payload then some .notConfigured else none
  | some .heaterConfig =>
    if frame.length = 11 ∧ ¬ AcceptsHeater frame.payload then some .notConfigured else none
  | some .heaterFeedForward =>
    if frame.length = 12 ∧ ¬ AcceptsFeedForward frame.payload then some .controlFault else none
  | some .heaterCommand =>
    if frame.length = 3 ∧ HeaterCommand.ofCode (getElem frame.payload 0 byte0) = some .resetFault ∧
      linkAlive s ∧ (sample adc s).2 ≠ .none then some (sample adc s).2 else none
  | _ => none

variable {e : ThermalError} {s : Thermal.State}

lemma latched_command (payload : Payload) (length : UInt8) (adc : Adc) (h : Latched e s)
    (hc : ¬ (length = 3 ∧ HeaterCommand.ofCode (getElem payload 0 byte0) = some .resetFault ∧
      Clearable adc s)) :
    Latched ((if length = 3 ∧ HeaterCommand.ofCode (getElem payload 0 byte0) = some .resetFault ∧
        linkAlive s ∧ (sample adc s).2 ≠ .none then some (sample adc s).2 else none).getD e)
      (command payload length adc s) := by
  rw [command]
  by_cases hlength : length = 3
  · rw [if_neg (not_not.mpr hlength)]
    cases hcommand : HeaterCommand.ofCode payload[0] with
    | none => simpa using ⟨h.state, h.error⟩
    | some c =>
      cases c with
      | off => simpa using latched_commandOff h
      | on => simpa using latched_commandOn adc _ h
      | suspend => simpa using latched_commandSuspend h
      | resetFault =>
        simpa [hlength] using
          latched_commandResetFault adc h fun hclear => hc ⟨hlength, hcommand, hclear⟩
  · rw [if_neg fun h' : length = 3 ∧ _ => hlength h'.1, if_pos hlength]
    exact h

lemma latched_handleFrame (frame : Frame) (adc : Adc) (h : Latched e s)
    (hc : ¬ (Commands .resetFault frame ∧ Clearable adc s)) :
    Latched ((overwritten frame adc s).getD e) (Thermal.handleFrame frame adc s) := by
  rw [Thermal.handleFrame, overwritten]
  cases ht : MessageType.ofCode frame.type with
  | none => exact h
  | some t =>
    cases t <;> dsimp only
    case thermistorConfig => exact latched_configureThermistor _ _ h
    case heaterModelA => exact latched_configureModelA _ _ h
    case heaterModelB => exact latched_configureModelB _ _ h
    case heaterModelC => exact latched_configureModelC _ _ h
    case heaterConfig => exact latched_configureHeater _ _ h
    case heaterCommand =>
      exact latched_command _ _ adc h fun h' => hc ⟨⟨ht, h'.1, h'.2.1⟩, h'.2.2⟩
    case heaterFeedForward => exact latched_configureFeedForward _ _ h
    all_goals exact h

/-- The error that an action puts in the place of a latched one. -/
def replaced (s : MainLoop.State) : MainLoop.Action → Option ThermalError
  | .frame frame adc => overwritten frame adc s.thermal
  | _ => none

variable {s : MainLoop.State}

lemma latched_frame (frame : Frame) (adc : Adc) (h : Latched e s.thermal)
    (hc : ¬ Clears s (.frame frame adc)) :
    Latched ((overwritten frame adc s.thermal).getD e)
      (MainLoop.handleFrame frame adc s).1.thermal := by
  simp only [Clears, not_or] at hc
  have hthermal := latched_handleFrame frame adc h hc.1
  cases ht : MessageType.ofCode frame.type with
  | none => simpa [MainLoop.handleFrame, ht] using hthermal
  | some t =>
    cases t
    case ping =>
      simp only [MainLoop.handleFrame, overwritten, ht, MainLoop.handlePing]
      split_ifs <;> exact ⟨h.state, h.error⟩
    case configurationReset =>
      have hlength : frame.length ≠ 0 := fun h0 => hc.2 ⟨ht, h0⟩
      simpa [MainLoop.handleFrame, overwritten, ht, MainLoop.handleConfigurationReset, hlength]
        using h
    case configurationComplete =>
      simpa [MainLoop.handleFrame, overwritten, ht, handleConfigurationComplete_thermal] using h
    case gpioConfig =>
      simp only [MainLoop.handleFrame, overwritten, ht, MainLoop.handleGpioConfig]
      split_ifs <;> exact ⟨h.state, h.error⟩
    case gpioWrite =>
      simp only [MainLoop.handleFrame, overwritten, ht, MainLoop.handleGpioWrite]
      split_ifs <;> exact ⟨h.state, h.error⟩
    case pwmWrite =>
      simp only [MainLoop.handleFrame, overwritten, ht, MainLoop.handlePwmWrite]
      split_ifs <;> exact ⟨h.state, h.error⟩
    all_goals simpa only [MainLoop.handleFrame, ht] using hthermal

/-- An action that does not end a fault keeps it, and reports the error it puts in its place. -/
lemma latched_step (a : MainLoop.Action) (h : Latched e s.thermal) (hc : ¬ Clears s a) :
    Latched ((replaced s a).getD e) (MainLoop.step s a).thermal := by
  cases a with
  | tick => exact latched_tick h
  | spin adc => exact latched_spin adc h
  | frame frame adc => exact latched_frame frame adc h hc
  | poll => exact latched_pollPin h
  | status => exact latched_sendStatus h
  | lines line => exact ⟨h.state, h.error⟩
  | reset hardware => exact absurd trivial hc

lemma replaced_of_clears {a : MainLoop.Action} (hc : Clears s a) : replaced s a = none := by
  cases a with
  | frame frame adc =>
    rcases hc with ⟨⟨ht, -, hcommand⟩, -, hgood⟩ | ⟨ht, -⟩
    · simp [replaced, overwritten, ht, hgood]
    · simp [replaced, overwritten, ht]
  | _ => rfl

/-- Whatever happens in a fault, its first error stays until the fault is cleared. -/
def KeepsFirstFault (s : MainLoop.State) (as : List MainLoop.Action) : Prop :=
  ∀ bs cs, bs ++ cs <+: as → (run MainLoop.step s bs).thermal.state = .fault →
    Along MainLoop.step (fun s a => ¬ Clears s a) (run MainLoop.step s bs) cs →
      Latched (run MainLoop.step s bs).thermal.error (run MainLoop.step s (bs ++ cs)).thermal

/-- The action does not replace a latched error by another one. -/
def SparesError (s : MainLoop.State) (a : MainLoop.Action) : Prop :=
  s.thermal.state = .fault → ∀ e, replaced s a = some e → e = s.thermal.error

lemma latched_run {e : ThermalError} {cs : List MainLoop.Action} (h : Latched e s.thermal)
    (hc : Along MainLoop.step (fun s a => ¬ Clears s a) s cs)
    (hs : Along MainLoop.step SparesError s cs) : Latched e (run MainLoop.step s cs).thermal := by
  refine run_invariant (P := fun s => Latched e s.thermal) h (fun s a hl hok => ?_) (hc.and hs)
  have hstep := latched_step a hl hok.1
  cases hr : replaced s a with
  | none => simpa [hr] using hstep
  | some e' =>
    have he : e' = e := (hok.2 hl.state e' hr).trans hl.error
    simpa [hr, he] using hstep

/-- The first error of every fault of a run is kept exactly where no action of the run replaces
the error of a fault that it does not clear. -/
theorem first_fault_iff (s : MainLoop.State) (as : List MainLoop.Action) :
    KeepsFirstFault s as ↔ Along MainLoop.step SparesError s as := by
  constructor
  · intro h
    induction as generalizing s with
    | nil => trivial
    | cons a as ih =>
      refine ⟨fun hf e he => ?_, ih _ fun bs cs hp hfault hc => ?_⟩
      · by_cases hc : Clears s a
        · rw [replaced_of_clears hc] at he
          cases he
        · have hkept := h [] [a] (by simp) hf ⟨hc, trivial⟩
          have hstep := latched_step a ⟨hf, rfl⟩ hc
          rw [he] at hstep
          exact hstep.error.symm.trans hkept.error
      · exact h (a :: bs) cs (List.cons_prefix_cons.mpr ⟨rfl, hp⟩) hfault hc
  · intro h bs cs hp hfault hc
    have hbs := ((along_append bs cs).mp (h.upTo hp)).2
    rw [run_append]
    exact latched_run ⟨hfault, rfl⟩ hc hbs

end Frames

section Example

/-- A C library that is right where the runs below use it: the logarithm of 1. -/
abbrev unitLibm : Libm := ⟨fun _ => 0.0, fun _ _ => 0.0⟩

def restingBoard : Board :=
  ⟨fun _ => 0, fun _ => false, fun _ => false, fun _ => false, 0, fun _ => 0,
    fun _ => ⟨.disabled, false⟩⟩

/-- Every conversion is done at once and reads `value`. -/
def steadyAdc (value : UInt32) : Adc := fun _ _ => ((1 : UInt32) <<< 31) ||| (value <<< 6)

def commandFrame (c : HeaterCommand) (target : List UInt8) : Frame :=
  Frame.ofBytes .heaterCommand (c.code :: target)

/-- A thermistor of 1 ohm at 25 degrees and beta 4000, pulled up by 1 ohm. -/
def thermistorFrame : Frame :=
  Frame.ofBytes .thermistorConfig
    [0x00, 0x00, 0x80, 0x3F, 0x00, 0x00, 0x7A, 0x45, 0x00, 0x00, 0x00, 0x00, 0x00, 0x00, 0x80, 0x3F]

def refusedStart : MainLoop.Action := .frame (commandFrame .on [0, 0]) (steadyAdc 512)

/-- The thermistor is configured and found shorted by a resetFault. -/
def shortedReset : List MainLoop.Action :=
  [.frame thermistorFrame (steadyAdc 0), .frame (commandFrame .resetFault [0, 0]) (steadyAdc 0)]

theorem first_fault_replaced :
    ¬ @KeepsFirstFault unitLibm (MainLoop.powerUp restingBoard)
      (refusedStart :: shortedReset) := by
  intro h
  have hlatched := h [refusedStart] shortedReset (by simp) (by decide +kernel) (by decide +kernel)
  exact absurd hlatched.error (by decide +kernel)

end Example

end RepRapFirmware.LpcFirmware.FaultLatch
