import RepRapFirmware.LpcFirmware.Configuration

/-! While the heater rests, the LPC's configuration follows the frames it receives and nothing
else. -/

namespace RepRapFirmware.LpcFirmware.Reception

open Library.Runs Shared.LpcProtocol Thermal Gpio Pwm Outputs Effects PinViews Function
open RepRapFirmware.LpcFirmware.Configuration

section Step

open MainLoop

variable {s : MainLoop.State}

lemma settings_handleConfigurationReset {f : Frame} (hlength : f.length = 0) :
    settings (handleConfigurationReset f s) = defaults := by
  have hviews : view (handleConfigurationReset f s).thermal.board =
      update (fun _ => disabledView) 4 heaterOffView := by
    rw [handleConfigurationReset, if_pos hlength]
    exact (view_applyHeater _).trans (congrArg (update · 4 heaterOffView) (funext (view_init _)))
  rw [settings, snapshot, hviews]
  simp only [handleConfigurationReset, if_pos hlength, resetConfiguration, applyHeater_config,
    applyHeater_loop, applyHeater_state, applyHeater_latch]
  rfl

variable (f : Frame) (adc : Adc)

/-- The frame is no command, and asks no pin but the NTC's to be analog. -/
structure Configures (f : Frame) : Prop where
  type : MessageType.ofCode f.type ≠ some .heaterCommand
  analog : AnalogNtc f

lemma settings_handleGpioConfig (ht : MessageType.ofCode f.type = some .gpioConfig)
    (hf : Configures f) : settings (handleGpioConfig f s) =
      { settings s with views := receivePins f (settings s).views } := by
  rw [settings, snapshot, views_handleGpioConfig s f ht hf.analog, handleGpioConfig]
  split_ifs <;> rfl

lemma settings_handleGpioWrite (ht : MessageType.ofCode f.type = some .gpioWrite) :
    settings (handleGpioWrite f s) =
      { settings s with views := receivePins f (settings s).views } := by
  rw [settings, snapshot, views_handleGpioWrite s f ht, handleGpioWrite]
  split_ifs <;> rfl

lemma settings_handlePwmWrite (ht : MessageType.ofCode f.type = some .pwmWrite) :
    settings (handlePwmWrite f s) =
      { settings s with views := receivePins f (settings s).views } := by
  rw [settings, snapshot, views_handlePwmWrite s f ht, handlePwmWrite]
  split_ifs <;> rfl

lemma index_ne_heater {p : UInt8} {i : Fin 8} (hp : findPin p = some i) (hne : p ≠ Pins.heater) :
    i ≠ 4 := by
  rintro rfl
  exact hne ((id_of_findPin hp).symm.trans (by decide))

/-- No pin frame reaches the heater. -/
lemma receivePins_heater (v : Views) : receivePins f v 4 = v 4 := by
  rw [receivePins]
  cases MessageType.ofCode f.type with
  | none => rfl
  | some t =>
    cases t <;> dsimp only
    case gpioConfig =>
      split_ifs with hguard
      · cases hp : findPin f.payload[0] with
        | none => rfl
        | some i => exact update_of_ne (index_ne_heater hp hguard.2).symm _ _
      · rfl
    case gpioWrite =>
      split_ifs with hguard
      · cases hp : findPin f.payload[0] with
        | none => rfl
        | some i => exact update_of_ne (index_ne_heater hp hguard.2).symm _ _
      · rfl
    case pwmWrite =>
      split_ifs with hguard
      · cases find f.payload[0] with
        | none => rfl
        | some c =>
          cases hp : findPin f.payload[0] with
          | none => rfl
          | some i => exact update_of_ne (index_ne_heater hp hguard.2).symm _ _
      · rfl

lemma resting_defaults : Resting defaults := ⟨.inl rfl, by simp [defaults]⟩

lemma resting_receiveModelC {c : Settings} (h : Resting c) (payload : Payload) :
    Resting (receiveModelC payload c) := by
  rw [receiveModelC]
  split
  · split_ifs <;> exact ⟨h.state, h.heater⟩
  · exact ⟨h.state, h.heater⟩

lemma feedForwardOf_recordSample (good : Bool) (l : Loop) :
    feedForwardOf (recordSample good l).1 = feedForwardOf l := by
  rw [recordSample]
  dsimp only
  split_ifs <;> rfl

/-- The action is one of the LPC's own, or the arrival of a frame. -/
def received : Action → Option Frame
  | .frame f _ => some f
  | _ => none

lemma views_states {b : Board} {states : Fin 8 → PinState}
    (h : ∀ i, (states i).mode = (b.states i).mode) : view { b with states := states } = view b := by
  funext i
  have hs : SameRegisters (pins.get i).id b { b with states := states } :=
    .of_timer (fun _ _ => rfl) rfl rfl rfl
  rw [view, hs.output, h i, view]

lemma receiveModelC_views (payload : Payload) (c : Settings) :
    (receiveModelC payload c).views = c.views := by
  rw [receiveModelC]
  split
  · split_ifs <;> rfl
  · rfl

variable [Libm]

lemma receive_views (c : Settings) (h : MessageType.ofCode f.type ≠ some .configurationReset) :
    (receive f c).views = receivePins f c.views := by
  rw [receive, receivePins]
  cases ht : MessageType.ofCode f.type with
  | none => rfl
  | some t =>
    cases t <;> dsimp only
    case configurationReset => exact absurd ht h
    case heaterModelC =>
      split_ifs
      · exact receiveModelC_views f.payload c
      · rfl
    all_goals split_ifs <;> rfl

lemma settings_tick (h : Resting (settings s)) :
    settings (step s .tick) = settings s := by
  have hactive : active { s.thermal with millisTicks := s.thermal.millisTicks + 1 } = false :=
    not_active_of_resting (n := s.needsConfiguration) ⟨h.state, h.heater⟩
  simp only [step, act, tick, hactive, Bool.false_and, Bool.false_eq_true, if_false]
  rfl

lemma settings_poll : settings (step s .poll) = settings s := by
  rw [step, act, pollPin]
  split_ifs
  · rfl
  · split
    · rfl
    · next hpoll =>
      obtain ⟨i, -, heq⟩ := Option.map_eq_some_iff.mp hpoll
      obtain ⟨-, -, rfl⟩ := heq
      rw [settings, snapshot, views_states fun j => ?_]
      · rfl
      · by_cases hj : j = i
        · rw [hj, update_self]
        · rw [update_of_ne hj]

lemma settings_status : settings (step s .status) = settings s := by
  rw [step, act, sendStatus]
  split_ifs
  · rfl
  · split
    · rfl
    · next htake =>
      rw [takeStatus] at htake
      split_ifs at htake
      cases htake
      rfl

lemma settings_lines (line : UInt8 → Bool) : settings (step s (.lines line)) = settings s := by
  have hview : view { s.thermal.board with line := line } = view s.thermal.board := by
    funext i
    have hs : SameRegisters (pins.get i).id s.thermal.board { s.thermal.board with line := line } :=
      .of_timer (fun _ _ => rfl) rfl rfl rfl
    rw [view, hs.output, view]
  rw [step, act, settings, snapshot, hview]
  rfl

lemma settings_frame (h : Resting (settings s)) (hf : Configures f) :
    settings (step s (.frame f adc)) = receive f (settings s) := by
  rw [step, act, MainLoop.handleFrame, receive]
  cases ht : MessageType.ofCode f.type with
  | none => simp [Thermal.handleFrame, ht]
  | some t =>
    cases t <;> dsimp only
    case ping =>
      rw [handlePing]
      split_ifs <;> rfl
    case configurationReset =>
      by_cases hlength : f.length = 0
      · rw [if_pos hlength, settings_handleConfigurationReset hlength]
      · rw [if_neg hlength, handleConfigurationReset, if_neg hlength]
    case configurationComplete =>
      rw [handleConfigurationComplete]
      split_ifs <;> rfl
    case gpioConfig => exact settings_handleGpioConfig f ht hf
    case gpioWrite => exact settings_handleGpioWrite f ht
    case pwmWrite => exact settings_handlePwmWrite f ht
    case thermistorConfig =>
      simp only [Thermal.handleFrame, ht]
      exact snapshot_configureThermistor _ _ h
    case heaterModelA =>
      simp only [Thermal.handleFrame, ht]
      exact snapshot_configureModelA _ _ h
    case heaterModelB =>
      simp only [Thermal.handleFrame, ht]
      exact snapshot_configureModelB _ _ h
    case heaterModelC =>
      simp only [Thermal.handleFrame, ht]
      exact snapshot_configureModelC _ _ h
    case heaterConfig =>
      simp only [Thermal.handleFrame, ht]
      exact snapshot_configureHeater _ _ h
    case heaterFeedForward =>
      simp only [Thermal.handleFrame, ht]
      exact snapshot_configureFeedForward _ _ h
    case heaterCommand => exact absurd ht hf.type
    all_goals simp [Thermal.handleFrame, ht]

lemma resting_receive {c : Settings} (h : Resting c) : Resting (receive f c) := by
  have hpins : Resting { c with views := receivePins f c.views } :=
    ⟨h.state, (receivePins_heater f c.views).trans h.heater⟩
  rw [receive]
  split
  · split_ifs
    · exact resting_defaults
    · exact h
  · split_ifs
    · exact ⟨h.state, h.heater⟩
    · exact h
  · exact hpins
  · exact hpins
  · exact hpins
  · split_ifs
    · exact ⟨h.state, h.heater⟩
    · exact h
  · exact ⟨h.state, h.heater⟩
  · exact ⟨h.state, h.heater⟩
  · split_ifs
    · exact resting_receiveModelC h f.payload
    · exact ⟨h.state, h.heater⟩
  · split_ifs
    · exact h
    · exact ⟨h.state, h.heater⟩
    · exact ⟨h.state, h.heater⟩
  · split_ifs
    · exact h
    · exact ⟨h.state, h.heater⟩
    · exact ⟨.inr rfl, h.heater⟩
  · exact h

lemma feedForwardOf_sample (adc : Adc) (t : Thermal.State) :
    feedForwardOf (sample adc t).1 = feedForwardOf t.loop := by
  rw [sample]
  split_ifs
  · rfl
  · split
    · rfl
    · dsimp only
      split_ifs <;> rfl

lemma snapshot_control {t : Thermal.State} {n : Bool} (h : Resting (snapshot t n)) :
    snapshot (Thermal.control adc t) n = snapshot t n := by
  have hrest : ∀ e l, Resting (snapshot { t with error := e, loop := l } n) :=
    fun _ _ => ⟨h.state, h.heater⟩
  have hloop : feedForwardOf (recorded adc t).1 = feedForwardOf t.loop := by
    rw [recorded, feedForwardOf_recordSample, feedForwardOf_sample]
  rw [control_eq, respond]
  simp only [not_active_of_resting (hrest _ _), Bool.not_false, if_true]
  have happly := snapshot_applyHeater (hrest (if t.state = .fault then t.error
    else (sample adc t).2) (recorded adc t).1)
  simp only [snapshot, Settings.mk.injEq, hloop] at happly ⊢
  exact happly

/-- What the LPC does of itself keeps the configuration of a resting heater. -/
lemma settings_internal (h : Resting (settings s)) {a : Action} (ha : received a = none)
    (hreset : ∀ hardware, a ≠ .reset hardware) : settings (step s a) = settings s := by
  cases a with
  | tick => exact settings_tick h
  | spin adc =>
    rw [step, act, spin]
    split_ifs
    · exact snapshot_control adc ⟨h.state, h.heater⟩
    · rfl
  | frame f adc => cases ha
  | poll => exact settings_poll
  | status => exact settings_status
  | lines line => exact settings_lines line
  | reset hardware => exact absurd rfl (hreset hardware)

def receiveAll (c : Settings) (frames : List Frame) : Settings :=
  frames.foldl (fun c f => receive f c) c

@[simp] lemma receiveAll_cons (c : Settings) (f : Frame) (frames : List Frame) :
    receiveAll c (f :: frames) = receiveAll (receive f c) frames := rfl

lemma receiveAll_append (c : Settings) (frames frames' : List Frame) :
    receiveAll c (frames ++ frames') = receiveAll (receiveAll c frames) frames' :=
  List.foldl_append

lemma resting_receiveAll {c : Settings} (h : Resting c) (frames : List Frame) :
    Resting (receiveAll c frames) := by
  induction frames generalizing c with
  | nil => exact h
  | cons f frames ih => exact ih (resting_receive f h)

lemma settings_run (h : Resting (settings s)) {as : List Action}
    (hrunning : ∀ a ∈ as, ∀ hardware, a ≠ .reset hardware)
    (hframes : ∀ f ∈ as.filterMap received, Configures f) :
    settings (run step s as) = receiveAll (settings s) (as.filterMap received) := by
  induction as generalizing s with
  | nil => rfl
  | cons a as ih =>
    have hrest := fun b hb => hrunning b (List.mem_cons_of_mem a hb)
    cases ha : received a with
    | none =>
      rw [List.filterMap_cons_none ha] at hframes ⊢
      have hsame := settings_internal h ha (hrunning a List.mem_cons_self)
      rw [run_cons, ih (hsame ▸ h) hrest hframes, hsame]
    | some f =>
      rw [List.filterMap_cons_some ha] at hframes ⊢
      obtain ⟨adc, rfl⟩ : ∃ adc, a = .frame f adc := by
        cases a <;> simp only [received, reduceCtorEq, Option.some.injEq] at ha
        exact ⟨_, by rw [ha]⟩
      have hsame := settings_frame f adc h (hframes f List.mem_cons_self)
      rw [run_cons, ih (hsame ▸ resting_receive f h) hrest
        (fun g hg => hframes g (List.mem_cons_of_mem f hg)), hsame]
      rfl

/-- A run without a restart in which just `frames` arrive, in this order. -/
structure Delivery (frames : List Frame) where
  actions : List Action
  arrivals : actions.filterMap received = frames
  running : ∀ a ∈ actions, ∀ hardware, a ≠ .reset hardware

def Resets (f : Frame) : Prop :=
  MessageType.ofCode f.type = some .configurationReset ∧ f.length = 0

/-- What the LPC's configuration was before a reset does not matter. -/
lemma settings_run_reset {f : Frame} (hf : Resets f) {frames : List Frame} {as : List Action}
    (harrivals : as.filterMap received = f :: frames)
    (hrunning : ∀ a ∈ as, ∀ hardware, a ≠ .reset hardware)
    (hframes : ∀ g ∈ frames, Configures g) :
    settings (run step s as) = receiveAll defaults frames := by
  induction as generalizing s with
  | nil => cases harrivals
  | cons a as ih =>
    have hrest := fun b hb => hrunning b (List.mem_cons_of_mem a hb)
    cases ha : received a with
    | none =>
      rw [List.filterMap_cons_none ha] at harrivals
      exact ih harrivals hrest
    | some g =>
      rw [List.filterMap_cons_some ha] at harrivals
      obtain ⟨rfl, rfl⟩ := List.cons.inj harrivals
      have hdefaults : settings (step s a) = defaults := by
        cases a <;> simp only [received, reduceCtorEq, Option.some.injEq] at ha
        rw [step, act, MainLoop.handleFrame, ha, hf.1]
        exact settings_handleConfigurationReset hf.2
      rw [run_cons, settings_run (hdefaults ▸ resting_defaults) hrest hframes, hdefaults]

end Step

end RepRapFirmware.LpcFirmware.Reception
