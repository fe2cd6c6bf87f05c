import Mathlib
import RepRapFirmware.LpcFirmware.PinViews

/-! The configuration of the LPC as a machine of its own, which takes one frame after the other. A
parameter whose flag is not set is not part of it. -/

namespace RepRapFirmware.LpcFirmware.Configuration

open Library.Runs Shared.LpcProtocol Shared.Payload Thermal Gpio Pwm Outputs Effects Frames
open FaultLatch PinViews Function

structure Thermistor where
  r25 : Float32
  beta : Float32
  shC : Float32
  pullupR : Float32
  shA : Float32
  shB : Float32

structure Rates where
  heatingRate : Float32
  basicCoolingRate : Float32
  fanCoolingRate : Float32
  coolingRateExponent : Float32

structure Dynamics where
  deadTime : Float32
  maxPwm : Float32
  overrideKp : Float32
  overrideRecipTi : Float32

/-- The parts of a model update that have arrived. -/
inductive Pending
  | empty
  | partA (r : Rates)
  | partB (r : Rates) (d : Dynamics)

structure Limits where
  heaterFrequency : UInt16
  maxBadReadings : UInt8
  upperLimit : Float32
  lowerLimit : Float32
  maxTempExcursion : Float32
  maxFaultTime : Float32

structure FeedForward where
  fanPwm : Float32
  extrusionPwmBoost : Float32
  extrusionTemperatureBoost : Float32

structure Settings where
  views : Views
  thermistor : Option Thermistor
  model : Option Model
  pending : Pending
  heaterConfigured : Bool
  limits : Limits
  feedForward : FeedForward
  state : HeaterState
  linkTimeoutLatched : Bool
  needsConfiguration : Bool

def thermistorOf (c : Config) : Option Thermistor :=
  if c.thermistorConfigured then some ⟨c.r25, c.beta, c.shC, c.pullupR, c.shA, c.shB⟩ else none

def modelOf (c : Config) : Option Model := if c.modelConfigured then some c.model else none

def ratesOf (m : Model) : Rates :=
  ⟨m.heatingRate, m.basicCoolingRate, m.fanCoolingRate, m.coolingRateExponent⟩

def dynamicsOf (m : Model) : Dynamics :=
  ⟨m.deadTime, m.maxPwm, m.overrideKp, m.overrideRecipTi⟩

def pendingOf (c : Config) : Pending :=
  if c.pendingModelParts = 0x01 then .partA (ratesOf c.pendingModel)
  else if c.pendingModelParts = 0x03 then
    .partB (ratesOf c.pendingModel) (dynamicsOf c.pendingModel)
  else .empty

def limitsOf (c : Config) : Limits :=
  ⟨c.heaterFrequency, c.maxBadReadings, c.upperLimit, c.lowerLimit, c.maxTempExcursion,
    c.maxFaultTime⟩

def feedForwardOf (l : Loop) : FeedForward :=
  ⟨l.fanPwm, l.extrusionPwmBoost, l.extrusionTemperatureBoost⟩

def snapshot (t : Thermal.State) (needsConfiguration : Bool) : Settings where
  views := view t.board
  thermistor := thermistorOf t.config
  model := modelOf t.config
  pending := pendingOf t.config
  heaterConfigured := t.config.heaterConfigured
  limits := limitsOf t.config
  feedForward := feedForwardOf t.loop
  state := t.state
  linkTimeoutLatched := t.linkTimeoutLatched
  needsConfiguration := needsConfiguration

def settings (s : MainLoop.State) : Settings := snapshot s.thermal s.needsConfiguration

def heaterOffView : View := ⟨.pwm, .level false⟩

def defaults : Settings where
  views := update (fun _ => disabledView) 4 heaterOffView
  thermistor := none
  model := none
  pending := .empty
  heaterConfigured := false
  limits := ⟨250, 3, 2000.0, absoluteZero, 15.0, 5.0⟩
  feedForward := ⟨0.0, 0.0, 0.0⟩
  state := .off
  linkTimeoutLatched := false
  needsConfiguration := true

structure Resting (c : Settings) : Prop where
  state : c.state = .off ∨ c.state = .fault
  heater : c.views 4 = heaterOffView

def receivePins (f : Frame) (v : Views) : Views :=
  match MessageType.ofCode f.type with
  | some .gpioConfig =>
    if f.length = 3 ∧ getElem f.payload 0 byte0 ≠ Pins.heater then
      match findPin (getElem f.payload 0 byte0) with
      | none => v
      | some i => v.configure i (GpioMode.ofCode (getElem f.payload 1 byte1))
          (getElem f.payload 2 byte2 ≠ 0)
    else v
  | some .gpioWrite =>
    if f.length = 2 ∧ getElem f.payload 0 byte0 ≠ Pins.heater then
      match findPin (getElem f.payload 0 byte0) with
      | none => v
      | some i => v.write i (getElem f.payload 1 byte1 ≠ 0)
    else v
  | some .pwmWrite =>
    if f.length = 5 ∧ getElem f.payload 0 byte0 ≠ Pins.heater then
      match find (getElem f.payload 0 byte0), findPin (getElem f.payload 0 byte0) with
      | some c, some i => v.setPwm i c (readU16 f.payload 1) (readU16 f.payload 3)
      | _, _ => v
    else v
  | _ => v

def receivedRates (payload : Payload) : Rates :=
  ⟨readFloat payload 0, readFloat payload 4, readFloat payload 8, readFloat payload 12⟩

def receivedDynamics (payload : Payload) : Dynamics :=
  ⟨readFloat payload 0, readFloat payload 4, readFloat payload 8, readFloat payload 12⟩

def completeModel (r : Rates) (d : Dynamics) (payload : Payload) : Model :=
  ⟨r.heatingRate, r.basicCoolingRate, r.fanCoolingRate, r.coolingRateExponent, d.deadTime, d.maxPwm,
    d.overrideKp, d.overrideRecipTi, readFloat payload 0, getElem payload 4 byte4 &&& 0x01 ≠ 0,
    getElem payload 4 byte4 &&& 0x02 ≠ 0, getElem payload 4 byte4 &&& 0x04 ≠ 0⟩

def receiveModelB (payload : Payload) : Pending → Pending
  | .partA r => .partB r (receivedDynamics payload)
  | _ => .empty

def receiveModelC (payload : Payload) (c : Settings) : Settings :=
  match c.pending with
  | .partB r d =>
    if getElem payload 4 byte4 &&& ~~~0x07 = 0 ∧ modelReady (completeModel r d payload) then
      { c with model := some (completeModel r d payload), pending := .empty }
    else { c with pending := .empty }
  | _ => { c with pending := .empty }

def receivedLimits (payload : Payload) : Limits where
  heaterFrequency := readU16 payload 0
  maxBadReadings := getElem payload 10 byte10
  upperLimit := ofInt16 (readI16 payload 2) * 0.1
  lowerLimit := ofInt16 (readI16 payload 4) * 0.1
  maxTempExcursion := (readU16 payload 6).toFloat32 * 0.01
  maxFaultTime := (readU16 payload 8).toFloat32 * 0.1

def receivedThermistor [Libm] (payload : Payload) : Option Thermistor :=
  if AcceptsThermistor payload then
    let lnR25 := Libm.logf (readFloat payload 0)
    let shB := 1.0 / readFloat payload 4
    let shC := readFloat payload 8
    some ⟨readFloat payload 0, readFloat payload 4, shC, readFloat payload 12,
      1.0 / (25.0 - absoluteZero) - shB * lnR25 - shC * lnR25 * lnR25 * lnR25, shB⟩
  else none

/-- What a frame that is no command does to the configuration of a resting heater. -/
def receive [Libm] (f : Frame) (c : Settings) : Settings :=
  match MessageType.ofCode f.type with
  | some .configurationReset => if f.length = 0 then defaults else c
  | some .configurationComplete => if f.length = 0 then { c with needsConfiguration :=
      false } else c
  | some .gpioConfig => { c with views := receivePins f c.views }
  | some .gpioWrite => { c with views := receivePins f c.views }
  | some .pwmWrite => { c with views := receivePins f c.views }
  | some .thermistorConfig =>
    if f.length = 16 then { c with thermistor := receivedThermistor f.payload } else c
  | some .heaterModelA =>
    { c with pending := if f.length = 16 then .partA (receivedRates f.payload) else .empty }
  | some .heaterModelB =>
    { c with pending := if f.length = 16 then receiveModelB f.payload c.pending else .empty }
  | some .heaterModelC =>
    if f.length = 5 then receiveModelC f.payload c else { c with pending := .empty }
  | some .heaterConfig =>
    if f.length ≠ 11 then c
    else if AcceptsHeater f.payload then
      { c with heaterConfigured := true, limits := receivedLimits f.payload }
    else { c with heaterConfigured := false }
  | some .heaterFeedForward =>
    if f.length ≠ 12 then c
    else if AcceptsFeedForward f.payload then
      { c with feedForward :=
        { c.feedForward with extrusionTemperatureBoost := readFloat f.payload 8 } }
    else { c with state := .fault }
  | _ => c

section Views

variable (s : MainLoop.State) (f : Frame)

/-- Only the NTC's pin is asked to be analog. -/
def AnalogNtc (f : Frame) : Prop :=
  MessageType.ofCode f.type = some .gpioConfig →
    GpioMode.ofCode (getElem f.payload 1 byte1) = .analog →
      getElem f.payload 0 byte0 = Pins.hotendNtc

lemma views_handleGpioConfig (ht : MessageType.ofCode f.type = some .gpioConfig)
    (ha : AnalogNtc f) : view (MainLoop.handleGpioConfig f s).thermal.board =
      receivePins f (view s.thermal.board) := by
  rw [MainLoop.handleGpioConfig, receivePins]
  simp only [ht]
  split_ifs with hguard
  · cases hp : findPin f.payload[0] with
    | none => simp [MainLoop.onBoard, configure, hp]
    | some i =>
      refine view_configure_eq hp (fun hm => ?_) _
      rw [ha ht hm] at hp
      exact Option.some.inj (hp.symm.trans (by decide))
  · rfl

lemma views_handleGpioWrite (ht : MessageType.ofCode f.type = some .gpioWrite) :
    view (MainLoop.handleGpioWrite f s).thermal.board =
      receivePins f (view s.thermal.board) := by
  rw [MainLoop.handleGpioWrite, receivePins]
  simp only [ht]
  split_ifs with hguard
  · cases hp : findPin f.payload[0] with
    | none => simp [MainLoop.onBoard, Gpio.write, hp]
    | some i => exact view_write_eq hp _
  · rfl

lemma findPin_of_find {p : UInt8} {c : Channel} (hc : find p = some c) :
    ∃ i, findPin p = some i := by
  obtain ⟨i, hi, -⟩ := channel_pin c (mem_of_find hc)
  exact ⟨i, by rw [← pin_of_find hc, hi]⟩

lemma views_handlePwmWrite (ht : MessageType.ofCode f.type = some .pwmWrite) :
    view (MainLoop.handlePwmWrite f s).thermal.board =
      receivePins f (view s.thermal.board) := by
  rw [MainLoop.handlePwmWrite, receivePins]
  simp only [ht]
  split_ifs with hguard
  · cases hc : find f.payload[0] with
    | none => simp [MainLoop.onBoard, Pwm.set, hc]
    | some c =>
      obtain ⟨i, hp⟩ := findPin_of_find hc
      simp only [hp]
      exact view_set_eq hc hp _ _
  · rfl

end Views

section Resting

variable {s t : Thermal.State} {n : Bool}

lemma not_active_of_resting (h : Resting (snapshot s n)) : active s = false := by
  apply Bool.eq_false_iff.mpr
  rcases h.state with hs | hs
  · exact not_active_of_off hs
  · exact not_active_of_fault hs

lemma Resting.config (h : Resting (snapshot s n)) (c : Config) :
    Resting (snapshot { s with config := c } n) := ⟨h.state, h.heater⟩

lemma view_applyHeater (s : Thermal.State) :
    view (applyHeater 0.0 s).board = update (view s.board) 4 heaterOffView := by
  obtain ⟨c, hc⟩ : ∃ c, find heaterPin = some c := ⟨_, rfl⟩
  rw [applyHeater_eq, heaterDuty_zero, setHeaterPwm, view_set_eq hc (show findPin _ =
    some 4 by decide)]
  rfl

lemma snapshot_applyHeater (h : Resting (snapshot s n)) :
    snapshot (applyHeater 0.0 s) n = snapshot s n := by
  have hview : view (applyHeater 0.0 s).board = view s.board := by
    rw [view_applyHeater]
    exact update_eq_self_iff.mpr h.heater.symm
  simp only [snapshot, applyHeater_config, applyHeater_loop, applyHeater_state, applyHeater_latch,
    hview]

lemma snapshot_setFault (e : ThermalError) (h : Resting (snapshot s n)) :
    snapshot (setFault e s) n = { snapshot s n with state := .fault } := by
  have hsame := snapshot_applyHeater h
  simp only [snapshot, Settings.mk.injEq] at hsame ⊢
  simp only [setFault, hsame, and_self]

lemma snapshot_rejectConfiguration (e : ThermalError) (h : Resting (snapshot s n)) :
    snapshot (rejectConfiguration e s) n = snapshot s n := by
  rw [rejectConfiguration, not_active_of_resting h]
  rfl

lemma snapshot_rejectModelUpdate (h : Resting (snapshot s n)) :
    snapshot (rejectModelUpdate s) n = { snapshot s n with pending := .empty } := by
  have hactive : active { s with config := { s.config with pendingModelParts := 0 } } = false :=
    not_active_of_resting (n := n) ⟨h.state, h.heater⟩
  rw [rejectModelUpdate]
  simp only [hactive, Bool.false_eq_true, if_false]
  rfl

end Resting

section Handlers

variable {s : Thermal.State} {n : Bool} (payload : Payload) (length : UInt8)

lemma snapshot_configureModelA (h : Resting (snapshot s n)) :
    snapshot (configureModelA payload length s) n =
      { snapshot s n with
        pending := if length = 16 then .partA (receivedRates payload) else .empty } := by
  rw [configureModelA]
  by_cases hlength : length = 16
  · rw [if_neg (not_not.mpr hlength), if_pos hlength]
    rfl
  · rw [if_pos hlength, if_neg hlength]
    exact snapshot_rejectModelUpdate h

lemma receiveModelB_of_not_first {c : Config} (h : c.pendingModelParts ≠ 0x01) :
    receiveModelB payload (pendingOf c) = .empty := by
  rw [pendingOf, if_neg h]
  split_ifs <;> rfl

lemma snapshot_configureModelB (h : Resting (snapshot s n)) :
    snapshot (configureModelB payload length s) n =
      { snapshot s n with
        pending := if length = 16 then receiveModelB payload (snapshot s n).pending
          else .empty } := by
  rw [configureModelB]
  by_cases hlength : length = 16
  · rw [if_neg (not_not.mpr hlength), if_pos hlength]
    by_cases hparts : s.config.pendingModelParts = 0x01
    · have hpending : (snapshot s n).pending = .partA (ratesOf s.config.pendingModel) := by
        rw [snapshot, pendingOf, if_pos hparts]
      rw [if_neg (not_not.mpr hparts), hpending]
      rfl
    · rw [if_pos hparts, snapshot_rejectModelUpdate h]
      exact congrArg (fun p => { snapshot s n with pending := p })
        (receiveModelB_of_not_first payload hparts).symm
  · rw [if_pos hlength, if_neg hlength]
    exact snapshot_rejectModelUpdate h

/-- The model that a heaterModelC frame completes. -/
def completed (c : Config) : Model :=
  completeModel (ratesOf c.pendingModel) (dynamicsOf c.pendingModel) payload

def AcceptsModel (c : Config) : Prop :=
  getElem payload 4 byte4 &&& ~~~0x07 = 0 ∧ modelReady (completed payload c)

lemma configureModelC_of_accepted (hparts : s.config.pendingModelParts = 0x03)
    (h : AcceptsModel payload s.config) : configureModelC payload 5 s =
      { s with config := { s.config with
        pendingModel := completed payload s.config
        model := completed payload s.config
        modelConfigured := true
        pendingModelParts := 0 } } := by
  obtain ⟨hflags, hready⟩ := h
  rw [configureModelC, if_neg (not_not.mpr rfl), if_neg (not_not.mpr hparts)]
  dsimp only
  rw [if_neg (not_not.mpr hflags), if_pos (by exact hready)]
  rfl

lemma configureModelC_of_refused (hparts : s.config.pendingModelParts = 0x03)
    (h : ¬ AcceptsModel payload s.config) : ∃ m, configureModelC payload 5 s =
      rejectModelUpdate { s with config := { s.config with pendingModel := m } } := by
  rw [configureModelC, if_neg (not_not.mpr rfl), if_neg (not_not.mpr hparts)]
  dsimp only
  by_cases hflags : payload[4] &&& ~~~0x07 = 0
  · have hready : ¬ modelReady (completed payload s.config) = true := fun hr => h ⟨hflags, hr⟩
    rw [if_neg (not_not.mpr hflags), if_neg (by exact hready)]
    exact ⟨_, rfl⟩
  · rw [if_pos hflags]
    exact ⟨_, rfl⟩

lemma snapshot_completeModel (h : Resting (snapshot s n)) :
    snapshot (configureModelC payload 5 s) n = receiveModelC payload (snapshot s n) := by
  by_cases hparts : s.config.pendingModelParts = 0x03
  · have hreceive : receiveModelC payload (snapshot s n) =
        if payload[4] &&& ~~~0x07 = 0 ∧ modelReady (completed payload s.config) then
          { snapshot s n with model := some (completed payload s.config), pending := .empty }
        else { snapshot s n with pending := .empty } := by
      rw [receiveModelC, snapshot, pendingOf, hparts]
      rfl
    rw [hreceive]
    by_cases haccepts : AcceptsModel payload s.config
    · rw [if_pos (show _ = _ ∧ _ from haccepts),
        configureModelC_of_accepted payload hparts haccepts]
      rfl
    · obtain ⟨m, hm⟩ := configureModelC_of_refused payload hparts haccepts
      rw [if_neg (show ¬ (_ = _ ∧ _) from haccepts), hm, snapshot_rejectModelUpdate (h.config _)]
      rfl
  · have hreceive : receiveModelC payload (snapshot s n) =
        { snapshot s n with pending := .empty } := by
      rw [receiveModelC, snapshot, pendingOf]
      split_ifs <;> rfl
    rw [configureModelC, if_neg (not_not.mpr rfl), if_pos hparts, hreceive,
      snapshot_rejectModelUpdate h]

lemma snapshot_configureModelC (h : Resting (snapshot s n)) :
    snapshot (configureModelC payload length s) n =
      if length = 5 then receiveModelC payload (snapshot s n)
      else { snapshot s n with pending := .empty } := by
  by_cases hlength : length = 5
  · rw [hlength, if_pos rfl, snapshot_completeModel payload h]
  · rw [configureModelC, if_pos hlength, if_neg hlength, snapshot_rejectModelUpdate h]

lemma snapshot_configureHeater (h : Resting (snapshot s n)) :
    snapshot (configureHeater payload length s) n =
      if length ≠ 11 then snapshot s n
      else if AcceptsHeater payload then
        { snapshot s n with heaterConfigured := true, limits := receivedLimits payload }
      else { snapshot s n with heaterConfigured := false } := by
  rw [configureHeater]
  extract_lets frequency upper lower
  have hbad : (frequency = 0 || upper ≤ lower) = true ↔ ¬ AcceptsHeater payload := by
    simp only [AcceptsHeater, Bool.or_eq_true, decide_eq_true_iff, not_and_or, not_not, ne_eq,
      frequency, upper, lower]
  by_cases hlength : length = 11
  · rw [if_neg (not_not.mpr hlength), if_neg (not_not.mpr hlength)]
    by_cases haccepts : AcceptsHeater payload
    · rw [if_neg fun h' => hbad.mp h' haccepts, if_pos haccepts]
      rfl
    · rw [if_pos (hbad.mpr haccepts), if_neg haccepts,
        snapshot_rejectConfiguration _ (h.config _)]
      rfl
  · rw [if_pos hlength, if_pos hlength]

lemma snapshot_configureFeedForward (h : Resting (snapshot s n)) :
    snapshot (configureFeedForward payload length s) n =
      if length ≠ 12 then snapshot s n
      else if AcceptsFeedForward payload then
        { snapshot s n with feedForward :=
          { (snapshot s n).feedForward with
            extrusionTemperatureBoost := readFloat payload 8 } }
      else { snapshot s n with state := .fault } := by
  have hstable : s.state ≠ .stable := by
    rcases h.state with hs | hs <;> exact fun h' => HeaterState.noConfusion (hs.symm.trans h')
  rw [configureFeedForward]
  extract_lets fanPwm pwmBoost temperatureBoost clamped l _ _ _ boosted
  have hboosted : boosted = s.loop := if_neg hstable
  have hbad : (!fanPwm.isFinite || !pwmBoost.isFinite || !temperatureBoost.isFinite) = true ↔
      ¬ AcceptsFeedForward payload := by
    simp only [AcceptsFeedForward, Bool.or_eq_true, Bool.not_eq_true', not_and_or,
      Bool.not_eq_true, or_assoc, fanPwm, pwmBoost, temperatureBoost]
  by_cases hlength : length = 12
  · rw [if_neg (not_not.mpr hlength), if_neg (not_not.mpr hlength)]
    by_cases haccepts : AcceptsFeedForward payload
    · rw [if_neg fun h' => hbad.mp h' haccepts, if_pos haccepts, hboosted]
      rfl
    · rw [if_pos (hbad.mpr haccepts), if_neg haccepts, snapshot_setFault _ h]
  · rw [if_pos hlength, if_pos hlength]

variable [Libm]

lemma snapshot_configureThermistor (h : Resting (snapshot s n)) :
    snapshot (configureThermistor payload length s) n =
      if length = 16 then { snapshot s n with thermistor := receivedThermistor payload }
      else snapshot s n := by
  rw [configureThermistor]
  extract_lets r25 beta shC pullupR read
  have hbad : (!r25.isFinite || !beta.isFinite || !shC.isFinite || !pullupR.isFinite
      || ¬ r25 > 0.0 || ¬ beta > 0.0 || ¬ pullupR > 0.0) = true ↔ ¬ AcceptsThermistor payload := by
    simp only [AcceptsThermistor, Bool.or_eq_true, Bool.not_eq_true', decide_eq_true_iff,
      not_and_or, Bool.not_eq_true, or_assoc, r25, beta, shC, pullupR]
  by_cases hlength : length = 16
  · rw [if_neg (not_not.mpr hlength), if_pos hlength]
    by_cases haccepts : AcceptsThermistor payload
    · rw [if_neg fun h' => hbad.mp h' haccepts, receivedThermistor, if_pos haccepts]
      rfl
    · rw [if_pos (hbad.mpr haccepts), receivedThermistor, if_neg haccepts,
        snapshot_rejectConfiguration _ (h.config _)]
      rfl
  · rw [if_pos hlength, if_neg hlength]

end Handlers

end RepRapFirmware.LpcFirmware.Configuration
