import Mathlib
import RepRapFirmware.LpcFirmware.Reception
import RepRapFirmware.Host.LpcInterface

/-! The replay of the host's caches. Its first frame resets the LPC, so the LPC's past does not
matter. -/

namespace RepRapFirmware.Host.Replay

open Library.Runs Shared.LpcProtocol Shared.Payload LpcInterface
open LpcFirmware LpcFirmware.Thermal LpcFirmware.Gpio LpcFirmware.Outputs LpcFirmware.Effects
open LpcFirmware.Configuration LpcFirmware.Reception LpcFirmware.FaultLatch

-- One proof for the pins that are given as numerals.
local instance neZero8 : NeZero 8 := ⟨by decide⟩

section Pins

variable {i : Fin 7} {m : GpioMode}

/-- The LPC's own pins leave out the host's view of the heater. -/
def lpcIndex (i : Fin 7) : Fin 8 := (4 : Fin 8).succAbove i

lemma lpcIndex_injective : Function.Injective lpcIndex := Fin.succAbove_right_injective

lemma findPin_lpcPinIds (i : Fin 7) : findPin (lpcPinIds.get i) = some (lpcIndex i) := by
  revert i
  decide

lemma lpcPinIds_ne_heater (i : Fin 7) : lpcPinIds.get i ≠ Pins.heater := by
  revert i
  decide

lemma ofCode_code (h : Allowed i m) : GpioMode.ofCode m.code = m := by
  cases m with
  | unnamed code => exact h.elim
  | _ => rfl

lemma ntc_of_analog (h : Capable i PinCapability.ain) : lpcPinIds.get i = Pins.hotendNtc := by
  revert i
  decide

end Pins

section Frames

variable (h : LpcInterface.State) {f : Frame} {t : MessageType} {payload : List UInt8}

lemma mem_send (hf : f ∈ send h t payload) : f = Frame.ofBytes t payload := by
  rw [send] at hf
  split_ifs at hf
  · cases hf
  · exact List.mem_singleton.mp hf

lemma configures_ofBytes (ht : t ≠ .heaterCommand) (hconfig : t ≠ .gpioConfig) :
    Configures (Frame.ofBytes t payload) := by
  refine ⟨fun h => ht ?_, fun h => absurd ?_ hconfig⟩
  all_goals exact Option.some.inj (type_ofBytes.symm.trans h)

lemma configures_gpioConfig {m : GpioMode} {i : Fin 7} (hm : Allowed i m) (value : UInt8) :
    Configures (Frame.ofBytes .gpioConfig [lpcPinIds.get i, m.code, value]) := by
  refine ⟨?_, fun _ hanalog => ?_⟩
  · rw [type_ofBytes]
    decide
  · rw [payload_ofBytes] at hanalog ⊢
    have hm' : m = .analog := (ofCode_code hm).symm.trans hanalog
    subst hm'
    exact ntc_of_analog hm

lemma configures_replayPin (i : Fin 7) (hf : f ∈ replayPin h i) : Configures f := by
  rw [replayPin] at hf
  split_ifs at hf with _ hpwm
  · rcases List.mem_append.mp hf with hf | hf
    · rw [mem_send h hf]
      exact configures_gpioConfig (h.allowed i) _
    · rw [mem_send h hf]
      exact configures_ofBytes (by decide) (by decide)
  · rw [List.append_nil] at hf
    rw [mem_send h hf]
    exact configures_gpioConfig (h.allowed i) _
  · cases hf

lemma configures_replayHeater (hf : f ∈ replayHeater h) : Configures f := by
  have hsend : ∀ {t payload}, t ≠ .heaterCommand → t ≠ .gpioConfig → f ∈ send h t payload →
      Configures f := by
    intro t payload ht hconfig hf
    rw [mem_send h hf]
    exact configures_ofBytes ht hconfig
  simp only [replayHeater, List.mem_append, List.mem_ite_nil_right] at hf
  rcases hf with ((⟨-, hf⟩ | ⟨-, (hf | hf) | hf⟩) | ⟨-, hf⟩) | ⟨-, hf⟩
  all_goals exact hsend (by decide) (by decide) hf

lemma configures_replay (hf : f ∈ replayConfiguration h) : Configures f := by
  simp only [replayConfiguration, List.mem_append, List.mem_flatMap] at hf
  rcases hf with ((hf | ⟨i, -, hf⟩) | hf) | hf
  · rw [mem_send h hf]
    exact configures_ofBytes (by decide) (by decide)
  · exact configures_replayPin h i hf
  · exact configures_replayHeater h hf
  · rw [mem_send h hf]
    exact configures_ofBytes (by decide) (by decide)

end Frames

lemma resets_reset : Resets (Frame.ofBytes .configurationReset []) := ⟨type_ofBytes, rfl⟩

lemma off_of_resting {s : MainLoop.State} (hs : Resting (settings s)) : Off s.thermal :=
  congrArg View.output hs.heater

section Restored

variable {h : LpcInterface.State}

/-- The frames of a replay after the first one. -/
def replayRest (h : LpcInterface.State) : List Frame :=
  (List.finRange 7).flatMap (replayPin h) ++ replayHeater h ++ send h .configurationComplete []

lemma replayConfiguration_eq (hsent : h.firmwareUpdateActive = false) :
    replayConfiguration h = Frame.ofBytes .configurationReset [] :: replayRest h := by
  have hreset : send h .configurationReset [] = [Frame.ofBytes .configurationReset []] := by
    rw [send, if_neg (by simp [hsent])]
  simp only [replayConfiguration, replayRest, hreset, List.append_assoc, List.cons_append,
    List.nil_append]

variable [Libm]

/-- The configuration that a replay restores. -/
def restored (h : LpcInterface.State) : Settings := receiveAll defaults (replayConfiguration h)

lemma receive_complete (c : Settings) : receive (Frame.ofBytes .configurationComplete []) c =
    { c with needsConfiguration := false } := by
  simp only [receive, type_ofBytes]
  rfl

lemma receive_reset {f : Frame} (hf : Resets f) (c : Settings) : receive f c = defaults := by
  simp only [receive, hf.1, hf.2, if_true]

lemma settings_replay (hsent : h.firmwareUpdateActive = false) {s : MainLoop.State}
    (d : Delivery (replayConfiguration h)) :
    settings (run MainLoop.step s d.actions) = restored h := by
  have hrest : ∀ f ∈ replayRest h, Configures f := by
    intro f hf
    apply configures_replay h
    rw [replayConfiguration_eq hsent]
    exact List.mem_cons_of_mem _ hf
  rw [settings_run_reset resets_reset (d.arrivals.trans (replayConfiguration_eq hsent)) d.running
    hrest, restored, replayConfiguration_eq hsent, receiveAll_cons, receive_reset resets_reset]

lemma resting_restored (h : LpcInterface.State) : Resting (restored h) :=
  resting_receiveAll resting_defaults _

lemma restored_complete (hsent : h.firmwareUpdateActive = false) :
    (restored h).needsConfiguration = false := by
  have hcomplete : send h .configurationComplete [] =
      [Frame.ofBytes .configurationComplete []] := by
    rw [send, if_neg (by simp [hsent])]
  rw [restored, replayConfiguration, receiveAll_append, hcomplete, receiveAll_cons,
    receive_complete]
  rfl

/-- After a replay the LPC's configuration is the one that a freshly started LPC gets from it,
whatever the LPC did before. -/
theorem replay_forgets_past (hardware hardware' : Board) (past : List MainLoop.Action)
    (h : LpcInterface.State) (hsent : h.firmwareUpdateActive = false)
    (replayed fresh : Delivery (replayConfiguration h)) :
    let s := run MainLoop.step (MainLoop.powerUp hardware) (past ++ replayed.actions)
    settings s = settings (run MainLoop.step (MainLoop.powerUp hardware') fresh.actions) ∧
      s.needsConfiguration = false ∧ Off s.thermal ∧ ¬ active s.thermal := by
  intro s
  have hs : settings s = restored h := by
    rw [show s = _ from run_append MainLoop.step _ past replayed.actions, settings_replay hsent]
  have hrest : Resting (settings s) := hs ▸ resting_restored h
  refine ⟨by rw [hs, settings_replay hsent], ?_, off_of_resting hrest, ?_⟩
  · exact (congrArg Settings.needsConfiguration hs).trans (restored_complete hsent)
  · rw [not_active_of_resting hrest]
    decide

end Restored

section Example

/-- The frames arrive one after the other. -/
def deliver (frames : List Frame) (adc : Adc) : Delivery frames where
  actions := frames.map (.frame · adc)
  arrivals := by induction frames <;> simp_all [received]
  running := by simp

/-- A host that has just been started and has configured nothing, at its first pong. -/
def restarted : LpcInterface.State :=
  (handlePong (MainLoop.pong (MainLoop.powerUp restingBoard)) LpcInterface.init.1).1

def restart : Delivery (replayConfiguration restarted) := deliver _ (steadyAdc 512)

theorem replay_forgets_thermistor :
    @settings (@run _ _ (@MainLoop.step unitLibm) (MainLoop.powerUp restingBoard)
        ([.frame thermistorFrame (steadyAdc 512)] ++ restart.actions)) =
      settings (@run _ _ (@MainLoop.step unitLibm) (MainLoop.powerUp restingBoard)
        restart.actions) :=
  (@replay_forgets_past unitLibm restingBoard restingBoard _ restarted rfl restart restart).1

/-- The parameters agree, those of unconfigured parts included. -/
structure SameParameters (c c' : Config) : Prop where
  thermistor : (c.r25, c.beta, c.shC, c.pullupR, c.shA, c.shB, c.thermistorConfigured) =
    (c'.r25, c'.beta, c'.shC, c'.pullupR, c'.shA, c'.shB, c'.thermistorConfigured)
  model : (c.model, c.modelConfigured) = (c'.model, c'.modelConfigured)
  heater : limitsOf c = limitsOf c' ∧ c.heaterConfigured = c'.heaterConfigured

theorem replay_leaves_thermistor :
    ¬ SameParameters
      (@run _ _ (@MainLoop.step unitLibm) (MainLoop.powerUp restingBoard)
        ([.frame thermistorFrame (steadyAdc 512)] ++ restart.actions)).thermal.config
      (@run _ _ (@MainLoop.step unitLibm) (MainLoop.powerUp restingBoard)
        restart.actions).thermal.config := by
  intro h
  have hr25 := congrArg Prod.fst h.thermistor
  exact absurd hr25 (by decide +kernel)

end Example

end RepRapFirmware.Host.Replay
