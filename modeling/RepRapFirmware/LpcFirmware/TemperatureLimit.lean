import Mathlib
import RepRapFirmware.Library.FloatOrder
import RepRapFirmware.LpcFirmware.HeaterSafety

/-! The upper temperature limit of an active heater, and the frame that can lift it. -/

namespace RepRapFirmware.LpcFirmware.TemperatureLimit

open Library.Runs Library.FloatOrder Shared.LpcProtocol Shared.Payload Thermal Gpio Effects Frames
  FaultLatch

/-- The frame asks for a heater configuration with an upper limit that is none. -/
def LiftsLimit : MainLoop.Action → Prop
  | .frame frame _ =>
    MessageType.ofCode frame.type = some .heaterConfig ∧ frame.length = 11 ∧
      AcceptsHeater frame.payload ∧ 1000.0 ≤ ofInt16 (readI16 frame.payload 2) * 0.1
  | _ => False

instance (a : MainLoop.Action) : Decidable (LiftsLimit a) :=
  match a with
  | .frame _ _ => instDecidableAnd
  | .tick | .spin _ | .poll | .status | .lines _ | .reset _ => instDecidableFalse

def Limited (s : MainLoop.State) : Prop :=
  active s.thermal → s.thermal.config.upperLimit < 1000.0

instance (s : MainLoop.State) : Decidable (Limited s) :=
  inferInstanceAs (Decidable (active s.thermal → s.thermal.config.upperLimit < 1000.0))

lemma thousand : (1000.0 : Float32).toModel.unpack =
    .finite .positive 16384000 (-14) (by decide) := by rfl

lemma decimal_lt_or_le (n : Int16) : ofInt16 n * 0.1 < 1000.0 ∨ 1000.0 ≤ ofInt16 n * 0.1 := by
  have htenth : (0.1 : Float32).toModel.unpack =
      .finite .positive 13421773 (-27) (by decide) := by rfl
  exact lt_or_le (isNumber_mul (isNumber_ofInt16 n) htenth) thousand

/-- The upper limit is a number. -/
def Comparable (s : MainLoop.State) : Prop :=
  s.thermal.config.upperLimit < 1000.0 ∨ 1000.0 ≤ s.thermal.config.upperLimit

section Steps

variable [Libm]

/-- An action that sets the limit does so for a heater configuration, or switches the heater
off. -/
lemma newLimit_cases {s : MainLoop.State} {a : MainLoop.Action} {x : Float32}
    (h : newLimit a = some x) :
    (∃ frame adc, a = .frame frame adc ∧ MessageType.ofCode frame.type = some .heaterConfig ∧
      frame.length = 11 ∧ AcceptsHeater frame.payload ∧
        x = ofInt16 (readI16 frame.payload 2) * 0.1) ∨
      x = 2000.0 ∧ ¬ active (MainLoop.step s a).thermal := by
  cases a with
  | frame frame adc =>
    simp only [newLimit, frameLimit] at h
    split_ifs at h with hheater hreset
    · cases h
      exact .inl ⟨frame, adc, rfl, hheater.1, hheater.2.1, hheater.2.2, rfl⟩
    · cases h
      refine .inr ⟨rfl, not_active_of_off ?_⟩
      simp only [MainLoop.step, MainLoop.act, MainLoop.handleFrame, hreset.1,
        MainLoop.handleConfigurationReset, hreset.2, if_true]
      exact applyHeater_state _ _
  | reset hardware =>
    cases h
    exact .inr ⟨rfl, not_active_of_off (applyHeater_state _ _)⟩
  | _ => cases h

lemma comparable_step (s : MainLoop.State) (a : MainLoop.Action) (h : Comparable s) :
    Comparable (MainLoop.step s a) := by
  rw [Comparable]
  rw [upperLimit_step s a]
  cases hn : newLimit a with
  | none => exact h
  | some x =>
    obtain ⟨frame, -, -, -, -, -, rfl⟩ | ⟨rfl, -⟩ := newLimit_cases (s := s) hn
    · exact decimal_lt_or_le _
    · exact .inr (show (1000.0 : Float32) ≤ 2000.0 by decide +kernel)

lemma state_of_heaterConfig {s : MainLoop.State} {frame : Frame} (adc : Adc)
    (ht : MessageType.ofCode frame.type = some .heaterConfig) (hl : frame.length = 11)
    (ha : AcceptsHeater frame.payload) :
    (MainLoop.step s (.frame frame adc)).thermal.state = s.thermal.state := by
  have hgood : ¬ (readU16 frame.payload 0 = 0 ||
      ofInt16 (readI16 frame.payload 2) * 0.1 ≤ ofInt16 (readI16 frame.payload 4) * 0.1) = true :=
        by
    simp only [Bool.or_eq_true, decide_eq_true_iff, not_or]
    exact ha
  simp only [MainLoop.step, MainLoop.act, MainLoop.handleFrame, ht, Thermal.handleFrame,
    configureHeater, hl]
  rw [if_neg (by simp), if_neg hgood]

lemma limited_step_iff (s : MainLoop.State) (a : MainLoop.Action) (hcomp : Comparable s)
    (h : Limited s) : Limited (MainLoop.step s a) ↔ ¬ (active s.thermal ∧ LiftsLimit a) := by
  constructor
  · rintro hnext ⟨hactive, hlifts⟩
    cases a with
    | frame frame adc =>
      obtain ⟨ht, hl, ha, hle⟩ := hlifts
      have hlt := hnext ((active_congr (state_of_heaterConfig adc ht hl ha)).trans hactive)
      have hx : newLimit (.frame frame adc) = some (ofInt16 (readI16 frame.payload 2) * 0.1) :=
        if_pos ⟨ht, hl, ha⟩
      rw [upperLimit_step, hx] at hlt
      exact not_le_of_lt thousand hlt hle
    | _ => exact hlifts
  · intro hspared hactive'
    rw [upperLimit_step s a]
    cases hn : newLimit a with
    | some x =>
      obtain ⟨frame, adc, rfl, ht, hl, ha, rfl⟩ | ⟨-, hinactive⟩ := newLimit_cases (s := s) hn
      · have hactive : active s.thermal :=
          (active_congr (state_of_heaterConfig adc ht hl ha)).symm.trans hactive'
        exact (decimal_lt_or_le _).resolve_right fun hle => hspared ⟨hactive, ht, hl, ha, hle⟩
      · exact absurd hactive' hinactive
    | none =>
      cases change_step s a with
      | kept state => exact h ((active_congr state).symm.trans hactive')
      | stopped inactive => exact absurd hactive' inactive
      | regulated before => exact h before
      | started _ _ _ _ limit => exact hcomp.resolve_right limit

/-- In a run from power-up an active heater always has a real upper limit exactly where no heater
configuration that has none arrives while the heater is active. -/
theorem limit_present_iff (hardware : Board) (as : List MainLoop.Action) :
    Always MainLoop.step Limited (MainLoop.powerUp hardware) as ↔
      Along MainLoop.step (fun s a => ¬ (active s.thermal ∧ LiftsLimit a))
        (MainLoop.powerUp hardware) as := by
  have hlimit : (MainLoop.powerUp hardware).thermal.config.upperLimit = 2000.0 :=
    congrArg Config.upperLimit (applyHeater_config _ _)
  have hinactive : ¬ active (MainLoop.powerUp hardware).thermal :=
    not_active_of_off (applyHeater_state _ _)
  refine always_iff_along (I := Comparable) (.inr ?_) comparable_step
    (fun h => absurd h hinactive) limited_step_iff as
  rw [hlimit]
  decide +kernel

end Steps

section Example

def heaterModelFrames : List Frame := [
  Frame.ofBytes .heaterModelA
    [0x00, 0x00, 0x00, 0x40, 0x00, 0x00, 0x00, 0x3F, 0x00, 0x00, 0x00, 0x3F, 0x00, 0x00, 0xA0,
      0x3F],
  Frame.ofBytes .heaterModelB
    [0x00, 0x00, 0xA0, 0x40, 0x00, 0x00, 0x80, 0x3F, 0x00, 0x00, 0x00, 0x00, 0x00, 0x00, 0x00,
      0x00],
  Frame.ofBytes .heaterModelC [0x00, 0x00, 0x00, 0x00, 0x00]]

/-- A heater configuration of 250 Hz with an upper limit in tenths of a degree. -/
def heaterFrame (low high : UInt8) : Frame :=
  Frame.ofBytes .heaterConfig
    [0xFA, 0x00, low, high, 0x55, 0xF5, 0xDC, 0x05, 0x32, 0x00, 0x03]

/-- Configure thermistor, model and heater, the latter with a limit of 290 degrees. -/
def configureHeating : List MainLoop.Action :=
  (thermistorFrame :: heaterModelFrames ++ [heaterFrame 0x54 0x0B]).map (.frame · (steadyAdc 512))

/-- Heat to 200 degrees, from 25. -/
def startHeating : MainLoop.Action := .frame (commandFrame .on [0x20, 0x4E]) (steadyAdc 512)

/-- The host sends a limit of 2000 degrees once the monitors are deleted. -/
theorem limit_lifted : ¬ @Always _ _ (@MainLoop.step unitLibm) Limited
    (MainLoop.powerUp restingBoard)
    (configureHeating ++ [startHeating, .frame (heaterFrame 0x20 0x4E) (steadyAdc 512)]) := by
  intro h
  exact absurd (h _ (List.prefix_refl _)) (by decide +kernel)

end Example

end RepRapFirmware.LpcFirmware.TemperatureLimit
