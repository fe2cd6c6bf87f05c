import Mathlib
import RepRapFirmware.LpcFirmware.Effects

/-! The model of the heater is updated by three frames. A copy collects what they carry, and the
last of them puts it in place of the model. -/

namespace RepRapFirmware.LpcFirmware.ModelUpdate

open Shared.LpcProtocol Shared.Payload Thermal Effects MainLoop Library.Runs

/-- The model that three payloads carry. -/
def carried (a b third : Payload) : Model where
  heatingRate := readFloat a 0
  basicCoolingRate := readFloat a 4
  fanCoolingRate := readFloat a 8
  coolingRateExponent := readFloat a 12
  deadTime := readFloat b 0
  maxPwm := readFloat b 4
  overrideKp := readFloat b 8
  overrideRecipTi := readFloat b 12
  overrideTd := readFloat third 0
  usePid := getElem third 4 byte4 &&& 0x01 ≠ 0
  inverted := getElem third 4 byte4 &&& 0x02 ≠ 0
  pidOverridden := getElem third 4 byte4 &&& 0x04 ≠ 0

/-- The action is the arrival of a frame of some type and length. -/
def Arrives (type : MessageType) (length : UInt8) (payload : Payload) : Action → Prop
  | .frame frame _ =>
    MessageType.ofCode frame.type = some type ∧ frame.length = length ∧ frame.payload = payload
  | _ => False

def IsPart (frame : Frame) : Prop :=
  MessageType.ofCode frame.type = some .heaterModelA ∨
    MessageType.ofCode frame.type = some .heaterModelB ∨
    MessageType.ofCode frame.type = some .heaterModelC

/-- The action breaks an update off that is on the way. -/
def Breaks : Action → Prop
  | .frame frame _ => IsPart frame ∨
      MessageType.ofCode frame.type = some .configurationReset ∧ frame.length = 0
  | .reset _ => True
  | _ => False

/-- Parts A and B have arrived in order, and what came between them and since has not broken the
update off. -/
def Pending (a b : Payload) (history : List Action) : Prop :=
  ∃ before partA between partB behind,
    history = before ++ partA :: (between ++ partB :: behind) ∧
      Arrives .heaterModelA 16 a partA ∧ Arrives .heaterModelB 16 b partB ∧
      (∀ x ∈ between, ¬ Breaks x) ∧ ∀ x ∈ behind, ¬ Breaks x

/-- The action is a valid part C that completes the update to a model. -/
def Completes (history : List Action) (x : Action) (model : Model) : Prop :=
  ∃ a b third, Pending a b history ∧ Arrives .heaterModelC 5 third x ∧
    getElem third 4 byte4 &&& ~~~0x07 = 0 ∧ model = carried a b third ∧ modelReady model = true

/-! ### The update that is on the way -/

inductive Staging
  | none
  | partA (a : Payload)
  | partB (a b : Payload)

def Staging.withB (g : Staging) (payload : Payload) (length : UInt8) : Staging :=
  match g with
  | .partA a => if length = 16 then .partB a payload else .none
  | _ => .none

def stage (g : Staging) : Action → Staging
  | .frame frame _ =>
    match MessageType.ofCode frame.type with
    | some .heaterModelA => if frame.length = 16 then .partA frame.payload else .none
    | some .heaterModelB => g.withB frame.payload frame.length
    | some .heaterModelC => .none
    | some .configurationReset => if frame.length = 0 then .none else g
    | _ => g
  | .reset _ => .none
  | _ => g

/-- A part A is waiting since it arrived, if nothing has broken the update off. -/
lemma stage_partA (g : Staging) (x : Action) (a : Payload) :
    stage g x = .partA a ↔ Arrives .heaterModelA 16 a x ∨ g = .partA a ∧ ¬ Breaks x := by
  cases x with
  | frame frame adc =>
    simp only [stage, Arrives, Breaks, IsPart, Staging.withB]
    generalize MessageType.ofCode frame.type = type
    cases type with
    | none => simp
    | some type => cases type <;> simp <;> grind
  | reset => simp [stage, Arrives, Breaks]
  | tick => simp [stage, Arrives, Breaks]
  | spin => simp [stage, Arrives, Breaks]
  | poll => simp [stage, Arrives, Breaks]
  | status => simp [stage, Arrives, Breaks]
  | lines => simp [stage, Arrives, Breaks]

lemma stage_partB (g : Staging) (x : Action) (a b : Payload) :
    stage g x = .partB a b ↔
      g = .partA a ∧ Arrives .heaterModelB 16 b x ∨ g = .partB a b ∧ ¬ Breaks x := by
  cases x with
  | frame frame adc =>
    simp only [stage, Arrives, Breaks, IsPart, Staging.withB]
    generalize MessageType.ofCode frame.type = type
    cases type with
    | none => simp
    | some type => cases type <;> simp <;> grind
  | reset => simp [stage, Arrives, Breaks]
  | tick => simp [stage, Arrives, Breaks]
  | spin => simp [stage, Arrives, Breaks]
  | poll => simp [stage, Arrives, Breaks]
  | status => simp [stage, Arrives, Breaks]
  | lines => simp [stage, Arrives, Breaks]

/-- Both parts are waiting exactly where they have arrived in order. -/
lemma pending_iff (a b : Payload) (history : List Action) :
    run stage .none history = .partB a b ↔ Pending a b history := by
  have hpartA (front : List Action) : run stage .none front = .partA a ↔
      ∃ before partA between, front = before ++ partA :: between ∧
        Arrives .heaterModelA 16 a partA ∧ ∀ x ∈ between, ¬ Breaks x :=
    since (Q := fun g => g = .partA a) Staging.noConfusion (fun g x => stage_partA g x a) front
  have hpartB : run stage .none history = .partB a b ↔
      ∃ front partB behind, history = front ++ partB :: behind ∧
        (run stage .none front = .partA a ∧ Arrives .heaterModelB 16 b partB) ∧
        ∀ x ∈ behind, ¬ Breaks x :=
    since (Q := fun g => g = .partB a b) Staging.noConfusion (fun g x => stage_partB g x a b)
      history
  rw [hpartB]
  constructor
  · rintro ⟨front, partB, behind, rfl, ⟨hfront, hb⟩, hbehind⟩
    obtain ⟨before, partA, between, rfl, ha, hbetween⟩ := (hpartA front).mp hfront
    exact ⟨before, partA, between, partB, behind, by simp, ha, hb, hbetween, hbehind⟩
  · rintro ⟨before, partA, between, partB, behind, rfl, ha, hb, hbetween, hbehind⟩
    refine ⟨before ++ partA :: between, partB, behind, by simp, ⟨?_, hb⟩, hbehind⟩
    exact (hpartA _).mpr ⟨before, partA, between, rfl, ha, hbetween⟩

/-! ### What the LPC keeps of it -/

/-- The copy of the model holds what the parts on the way have carried. -/
inductive Holds (c : Config) : Staging → Prop
  | none (parts : c.pendingModelParts = 0) : Holds c .none
  | partA (a : Payload) (m : Model) (parts : c.pendingModelParts = 1)
      (model : c.pendingModel = { m with
        heatingRate := readFloat a 0
        basicCoolingRate := readFloat a 4
        fanCoolingRate := readFloat a 8
        coolingRateExponent := readFloat a 12 }) : Holds c (.partA a)
  | partB (a b : Payload) (m : Model) (parts : c.pendingModelParts = 3)
      (model : c.pendingModel = { m with
        heatingRate := readFloat a 0
        basicCoolingRate := readFloat a 4
        fanCoolingRate := readFloat a 8
        coolingRateExponent := readFloat a 12
        deadTime := readFloat b 0
        maxPwm := readFloat b 4
        overrideKp := readFloat b 8
        overrideRecipTi := readFloat b 12 }) : Holds c (.partB a b)

/-- Nothing has been done to the model and to its update. -/
structure SameUpdate (c c' : Config) : Prop where
  model : c'.model = c.model
  pendingModel : c'.pendingModel = c.pendingModel
  parts : c'.pendingModelParts = c.pendingModelParts

lemma Holds.congr {c c' : Config} {g : Staging} (h : Holds c g) (hc : SameUpdate c c') :
    Holds c' g := by
  cases h with
  | none parts => exact .none (hc.parts.trans parts)
  | partA a m parts model => exact .partA a m (hc.parts.trans parts) (hc.pendingModel.trans model)
  | partB a b m parts model =>
    exact .partB a b m (hc.parts.trans parts) (hc.pendingModel.trans model)

lemma SameUpdate.of_eq {c c' : Config} (h : c' = c) : SameUpdate c c' := ⟨by rw [h], by rw [h],
  by rw [h]⟩

section Handlers

variable (payload : Payload) (length : UInt8) (adc : Adc) (s : Thermal.State)

lemma rejectModelUpdate_config :
    (rejectModelUpdate s).config = { s.config with pendingModelParts := 0 } := by
  rw [rejectModelUpdate]
  dsimp only
  split_ifs
  · exact setFault_config _ _
  · rfl

lemma rejectConfiguration_config (e : ThermalError) :
    (rejectConfiguration e s).config = s.config := by
  rw [rejectConfiguration]
  split_ifs
  · exact setFault_config _ _
  · rfl

lemma configureHeater_update : SameUpdate s.config (configureHeater payload length s).config := by
  rw [configureHeater]
  extract_lets
  split_ifs
  · exact .of_eq rfl
  · rw [rejectConfiguration_config]
    exact ⟨rfl, rfl, rfl⟩
  · exact ⟨rfl, rfl, rfl⟩

lemma configureFeedForward_config : (configureFeedForward payload length s).config = s.config := by
  rw [configureFeedForward]
  extract_lets
  split_ifs
  · rfl
  · exact setFault_config _ _
  · rfl

variable [Libm]

lemma configureThermistor_update :
    SameUpdate s.config (configureThermistor payload length s).config := by
  rw [configureThermistor]
  extract_lets
  split_ifs
  · exact .of_eq rfl
  · rw [rejectConfiguration_config]
    exact ⟨rfl, rfl, rfl⟩
  · exact ⟨rfl, rfl, rfl⟩

lemma checkReady_config : (checkReady adc s).1.config = s.config := by
  by_cases h : Ready s
  · rw [checkReady_of_ready adc h]
    rfl
  · rw [checkReady_of_not_ready adc h]

lemma commandOn_config (target : Float32) : (commandOn target adc s).config = s.config := by
  have hchecked := checkReady_config adc s
  rw [commandOn]
  split
  · next checked heq =>
    rw [heq] at hchecked
    split_ifs
    · rw [setFault_config, hchecked]
    · exact hchecked
  · next checked heq =>
    rw [heq] at hchecked
    extract_lets
    split_ifs
    · rw [setFault_config, hchecked]
    · exact (steady_updateHeaterState _ _).config.trans hchecked

lemma commandResetFault_config : (commandResetFault adc s).config = s.config := by
  rw [commandResetFault]
  split_ifs
  · rfl
  · dsimp only
    split_ifs
    · exact applyHeater_config _ _
    · rfl

lemma command_config : (command payload length adc s).config = s.config := by
  rw [command]
  extract_lets
  split_ifs
  · rfl
  · split
    · exact applyHeater_config _ _
    · exact commandOn_config _ _ _
    · exact applyHeater_config _ _
    · exact commandResetFault_config _ _
    · rfl

end Handlers

section Parts

variable {c : Config} {g : Staging} {payload : Payload} {length : UInt8} {s : Thermal.State}

lemma configureModelA_model : (configureModelA payload length s).config.model = s.config.model := by
  rw [configureModelA]
  split_ifs
  · rw [rejectModelUpdate_config]
  · rfl

lemma holds_configureModelA : Holds (configureModelA payload length s).config
    (if length = 16 then .partA payload else .none) := by
  rw [configureModelA]
  by_cases h : length = 16
  · rw [if_neg (not_not.mpr h), if_pos h]
    exact .partA payload s.config.model rfl rfl
  · rw [if_pos h, if_neg h, rejectModelUpdate_config]
    exact .none rfl

lemma configureModelB_model : (configureModelB payload length s).config.model = s.config.model := by
  rw [configureModelB]
  split_ifs
  · rw [rejectModelUpdate_config]
  · rw [rejectModelUpdate_config]
  · rfl

lemma configureModelB_rejected (h : length ≠ 16 ∨ s.config.pendingModelParts ≠ 1) :
    Holds (configureModelB payload length s).config .none := by
  rw [configureModelB]
  split_ifs with h1 h2
  · rw [rejectModelUpdate_config]
    exact .none rfl
  · rw [rejectModelUpdate_config]
    exact .none rfl
  · exact absurd h (not_or.mpr ⟨h1, h2⟩)

lemma holds_configureModelB (h : Holds s.config g) :
    Holds (configureModelB payload length s).config (g.withB payload length) := by
  cases h with
  | none parts => exact configureModelB_rejected (.inr (by rw [parts]; decide))
  | partB a b m parts model => exact configureModelB_rejected (.inr (by rw [parts]; decide))
  | partA a m parts model =>
    by_cases hlength : length = 16
    · rw [Staging.withB, if_pos hlength]
      rw [configureModelB, if_neg (not_not.mpr hlength), if_neg (not_not.mpr parts), model]
      exact .partB a payload m rfl rfl
    · rw [Staging.withB, if_neg hlength]
      exact configureModelB_rejected (.inl hlength)

lemma configureModelC_parts :
    (configureModelC payload length s).config.pendingModelParts = 0 := by
  rw [configureModelC]
  extract_lets
  split_ifs
  all_goals first | rw [rejectModelUpdate_config] | rfl

/-- The copy of the model with what a part C carries. -/
def completed (m : Model) (third : Payload) : Model :=
  { m with
    overrideTd := readFloat third 0
    usePid := getElem third 4 byte4 &&& 0x01 ≠ 0
    inverted := getElem third 4 byte4 &&& 0x02 ≠ 0
    pidOverridden := getElem third 4 byte4 &&& 0x04 ≠ 0 }

lemma configureModelC_accepted (hlength : length = 5) (hparts : s.config.pendingModelParts = 3)
    (hflags : getElem payload 4 byte4 &&& ~~~0x07 = 0)
    (hready : modelReady (completed s.config.pendingModel payload) = true) :
    (configureModelC payload length s).config.model =
      completed s.config.pendingModel payload := by
  rw [configureModelC, if_neg (not_not.mpr hlength), if_neg (not_not.mpr hparts)]
  dsimp only
  rw [if_neg (not_not.mpr hflags)]
  exact congrArg (fun u : Thermal.State => u.config.model) (if_pos hready)

lemma configureModelC_refused (h : ¬ (length = 5 ∧ s.config.pendingModelParts = 3 ∧
      getElem payload 4 byte4 &&& ~~~0x07 = 0 ∧
      modelReady (completed s.config.pendingModel payload) = true)) :
    (configureModelC payload length s).config.model = s.config.model := by
  rw [configureModelC]
  dsimp only
  split_ifs with h1 h2 h3 h4
  · rw [rejectModelUpdate_config]
  · rw [rejectModelUpdate_config]
  · rw [rejectModelUpdate_config]
  · exact absurd ⟨not_not.mp h1, not_not.mp h2, not_not.mp h3, h4⟩ h
  · rw [rejectModelUpdate_config]

variable (payload) in
/-- What the LPC holds decides what a part C does to its model. -/
lemma Holds.completed (h : Holds s.config g) (hparts : s.config.pendingModelParts = 3) :
    ∃ a b, g = .partB a b ∧
      ModelUpdate.completed s.config.pendingModel payload = carried a b payload := by
  cases h with
  | none parts => exact absurd (parts.symm.trans hparts) (by decide)
  | partA a m parts => exact absurd (parts.symm.trans hparts) (by decide)
  | partB a b m parts model => exact ⟨a, b, rfl, by rw [model]; rfl⟩

lemma Holds.parts_of_partB {a b : Payload} (h : Holds c (.partB a b)) :
    c.pendingModelParts = 3 := by
  cases h with
  | partB _ _ m parts model => exact parts

end Parts

section Steps

variable [Libm] {g : Staging} {s : MainLoop.State} {frame : Frame} {adc : Adc}

variable (adc) in
/-- The other frames do nothing to the model and to its update. -/
lemma frame_update (hpart : ¬ IsPart frame)
    (hreset : ¬ (MessageType.ofCode frame.type = some .configurationReset ∧ frame.length = 0)) :
    SameUpdate s.thermal.config (MainLoop.handleFrame frame adc s).1.thermal.config := by
  rw [MainLoop.handleFrame]
  split
  · rw [handlePing]
    split_ifs <;> exact .of_eq rfl
  · next htype =>
    rw [handleConfigurationReset, if_neg fun h => hreset ⟨htype, h⟩]
    exact .of_eq rfl
  · rw [handleConfigurationComplete_thermal]
    exact .of_eq rfl
  · rw [handleGpioConfig]
    split_ifs <;> exact .of_eq rfl
  · rw [handleGpioWrite]
    split_ifs <;> exact .of_eq rfl
  · rw [handlePwmWrite]
    split_ifs <;> exact .of_eq rfl
  · rw [Thermal.handleFrame]
    split
    · exact configureThermistor_update _ _ _
    · next h => exact absurd (.inl h) hpart
    · next h => exact absurd (.inr (.inl h)) hpart
    · next h => exact absurd (.inr (.inr h)) hpart
    · exact configureHeater_update _ _ _
    · exact .of_eq (command_config _ _ _ _)
    · exact .of_eq (configureFeedForward_config _ _ _)
    · exact .of_eq rfl

lemma other_update {x : Action} (hframe : ∀ frame adc, x ≠ .frame frame adc)
    (hreset : ∀ hardware, x ≠ .reset hardware) :
    SameUpdate s.thermal.config (MainLoop.step s x).thermal.config := by
  cases x with
  | tick =>
    simp only [MainLoop.step, act, tick]
    split_ifs
    · exact .of_eq (setFault_config _ _)
    · exact .of_eq rfl
  | spin adc =>
    simp only [MainLoop.step, act, spin]
    split_ifs
    · exact .of_eq (kept_control adc _).config
    · exact .of_eq rfl
  | frame frame adc => exact absurd rfl (hframe frame adc)
  | poll =>
    simp only [MainLoop.step, act, pollPin]
    split_ifs
    · exact .of_eq rfl
    · split <;> exact .of_eq rfl
  | status =>
    simp only [MainLoop.step, act, sendStatus]
    split_ifs
    · exact .of_eq rfl
    · split
      · exact .of_eq rfl
      · next t payload htake =>
        rw [takeStatus] at htake
        split_ifs at htake
        cases htake
        exact .of_eq rfl
  | lines line => exact .of_eq rfl
  | reset hardware => exact absurd rfl (hreset hardware)

/-- The action is a part C that completes the update to a model. -/
def Finishes (g : Staging) (x : Action) (m : Model) : Prop :=
  ∃ a b third, g = .partB a b ∧ Arrives .heaterModelC 5 third x ∧
    getElem third 4 byte4 &&& ~~~0x07 = 0 ∧ m = carried a b third ∧ modelReady m = true

lemma handleFrame_partC (h : MessageType.ofCode frame.type = some .heaterModelC) :
    (MainLoop.handleFrame frame adc s).1.thermal =
      configureModelC frame.payload frame.length s.thermal := by
  simp only [MainLoop.handleFrame, Thermal.handleFrame, h]

lemma handleFrame_partB (h : MessageType.ofCode frame.type = some .heaterModelB) :
    (MainLoop.handleFrame frame adc s).1.thermal =
      configureModelB frame.payload frame.length s.thermal := by
  simp only [MainLoop.handleFrame, Thermal.handleFrame, h]

lemma handleFrame_partA (h : MessageType.ofCode frame.type = some .heaterModelA) :
    (MainLoop.handleFrame frame adc s).1.thermal =
      configureModelA frame.payload frame.length s.thermal := by
  simp only [MainLoop.handleFrame, Thermal.handleFrame, h]

lemma handleFrame_reset (h : MessageType.ofCode frame.type = some .configurationReset)
    (hlength : frame.length = 0) :
    (MainLoop.handleFrame frame adc s).1.thermal.config = resetConfig s.thermal.config := by
  simp only [MainLoop.handleFrame, h, handleConfigurationReset, hlength, if_true]
  exact applyHeater_config _ _

/-- The step of the LPC and the step of the update that is on the way go together. -/
lemma holds_step (h : Holds s.thermal.config g) (x : Action) :
    Holds (MainLoop.step s x).thermal.config (stage g x) := by
  cases x with
  | frame frame adc =>
    rw [MainLoop.step, act, stage]
    by_cases hreset : MessageType.ofCode frame.type = some .configurationReset ∧ frame.length = 0
    · rw [handleFrame_reset hreset.1 hreset.2, hreset.1]
      simp only [hreset.2, if_true]
      exact .none rfl
    by_cases hA : MessageType.ofCode frame.type = some .heaterModelA
    · rw [handleFrame_partA hA, hA]
      exact holds_configureModelA
    by_cases hB : MessageType.ofCode frame.type = some .heaterModelB
    · rw [handleFrame_partB hB, hB]
      exact holds_configureModelB h
    by_cases hC : MessageType.ofCode frame.type = some .heaterModelC
    · rw [handleFrame_partC hC, hC]
      exact .none configureModelC_parts
    · have hsame := h.congr (frame_update adc
        (not_or.mpr ⟨hA, not_or.mpr ⟨hB, hC⟩⟩) hreset)
      split
      · exact absurd ‹_› hA
      · exact absurd ‹_› hB
      · exact absurd ‹_› hC
      · next htype => rwa [if_neg fun hlength => hreset ⟨htype, hlength⟩]
      · exact hsame
  | reset hardware =>
    refine .none ?_
    exact congrArg Config.pendingModelParts (applyHeater_config _ _)
  | tick => exact h.congr (other_update (x := .tick) (by simp) (by simp))
  | spin adc => exact h.congr (other_update (x := .spin adc) (by simp) (by simp))
  | poll => exact h.congr (other_update (x := .poll) (by simp) (by simp))
  | status => exact h.congr (other_update (x := .status) (by simp) (by simp))
  | lines line => exact h.congr (other_update (x := .lines line) (by simp) (by simp))

lemma model_finished (h : Holds s.thermal.config g) {x : Action} {m : Model}
    (hx : Finishes g x m) : (MainLoop.step s x).thermal.config.model = m := by
  obtain ⟨a, b, c, rfl, harrives, hflags, rfl, hready⟩ := hx
  cases x with
  | frame frame adc =>
    obtain ⟨htype, hlength, rfl⟩ := harrives
    obtain ⟨a', b', heq, hcarried⟩ := h.completed frame.payload h.parts_of_partB
    cases heq
    rw [MainLoop.step, act, handleFrame_partC htype, configureModelC_accepted hlength
      h.parts_of_partB hflags (hcarried ▸ hready), hcarried]
  | _ => exact harrives.elim

lemma model_kept (h : Holds s.thermal.config g) {x : Action} (hx : ∀ m, ¬ Finishes g x m)
    (hreset : ∀ hardware, x ≠ .reset hardware) :
    (MainLoop.step s x).thermal.config.model = s.thermal.config.model := by
  cases x with
  | frame frame adc =>
    rw [MainLoop.step, act]
    by_cases hreset : MessageType.ofCode frame.type = some .configurationReset ∧ frame.length = 0
    · rw [handleFrame_reset hreset.1 hreset.2]
      rfl
    by_cases hA : MessageType.ofCode frame.type = some .heaterModelA
    · rw [handleFrame_partA hA, configureModelA_model]
    by_cases hB : MessageType.ofCode frame.type = some .heaterModelB
    · rw [handleFrame_partB hB, configureModelB_model]
    by_cases hC : MessageType.ofCode frame.type = some .heaterModelC
    · rw [handleFrame_partC hC]
      apply configureModelC_refused
      rintro ⟨hlength, hparts, hflags, hready⟩
      obtain ⟨a, b, rfl, hcarried⟩ := h.completed frame.payload hparts
      rw [hcarried] at hready
      exact hx _ ⟨a, b, frame.payload, rfl, ⟨hC, hlength, rfl⟩, hflags, rfl, hready⟩
    · exact (frame_update adc (not_or.mpr ⟨hA, not_or.mpr ⟨hB, hC⟩⟩) hreset).model
  | reset hardware => exact absurd rfl (hreset hardware)
  | tick => exact (other_update (x := .tick) (by simp) (by simp)).model
  | spin adc => exact (other_update (x := .spin adc) (by simp) (by simp)).model
  | poll => exact (other_update (x := .poll) (by simp) (by simp)).model
  | status => exact (other_update (x := .status) (by simp) (by simp)).model
  | lines line => exact (other_update (x := .lines line) (by simp) (by simp)).model

end Steps

/-! ### Runs -/

lemma holds_powerUp (hardware : Gpio.Board) : Holds (powerUp hardware).thermal.config .none := by
  refine .none ?_
  exact congrArg Config.pendingModelParts (applyHeater_config _ _)

lemma finishes_iff (history : List Action) (x : Action) (m : Model) :
    Finishes (run stage .none history) x m ↔ Completes history x m := by
  simp only [Finishes, Completes, pending_iff]

variable [Libm]

lemma holds_run {s : MainLoop.State} {g : Staging} (h : Holds s.thermal.config g)
    (history : List Action) :
    Holds (run MainLoop.step s history).thermal.config (run stage g history) := by
  induction history generalizing s g with
  | nil => exact h
  | cons x history ih => exact ih (holds_step h x)

/-- Only a valid part C behind parts A and B changes the model, and all of it at once. -/
theorem model_atomic (hardware : Gpio.Board) (history : List Action) (x : Action) :
    let s := run MainLoop.step (powerUp hardware) history
    (∀ m, Completes history x m → (MainLoop.step s x).thermal.config.model = m) ∧
      ((∀ m, ¬ Completes history x m) → (∀ hardware, x ≠ .reset hardware) →
        (MainLoop.step s x).thermal.config.model = s.thermal.config.model) := by
  have hholds := holds_run (holds_powerUp hardware) history
  constructor
  · intro m hm
    exact model_finished hholds ((finishes_iff _ _ _).mpr hm)
  · intro hno hreset
    exact model_kept hholds (fun m hm => hno m ((finishes_iff _ _ _).mp hm)) hreset

def partA : Frame :=
  Frame.ofBytes .heaterModelA (putFloat 2.0 ++ putFloat 0.5 ++ putFloat 0.25 ++ putFloat 1.5)

def partB : Frame :=
  Frame.ofBytes .heaterModelB (putFloat 5.5 ++ putFloat 1.0 ++ putFloat 0.0 ++ putFloat 0.0)

def partC : Frame := Frame.ofBytes .heaterModelC (putFloat 0.0 ++ [1])

/-- A ping may come between the parts. -/
example (adc : Adc) : Completes [.frame partA adc, .tick, .frame (Frame.ofBytes .ping [4]) adc,
      .frame partB adc] (.frame partC adc)
    (carried partA.payload partB.payload partC.payload) := by
  refine ⟨partA.payload, partB.payload, partC.payload, ⟨[], .frame partA adc,
    [.tick, .frame (Frame.ofBytes .ping [4]) adc], .frame partB adc, [], rfl,
    ⟨rfl, rfl, rfl⟩, ⟨rfl, rfl, rfl⟩, ?_, nofun⟩, ⟨rfl, rfl, rfl⟩, by decide +kernel, rfl,
    by decide +kernel⟩
  intro x hx
  obtain rfl | hx := List.mem_cons.mp hx
  · exact id
  · obtain rfl := List.mem_singleton.mp hx
    simp only [Breaks, IsPart]
    decide +kernel

end RepRapFirmware.LpcFirmware.ModelUpdate
