import RepRapFirmware.LpcFirmware.FaultLatch

/-! The pins of the LPC as a machine of their own. What a frame does to the mode and the output of
every pin depends on the frame and on these alone. -/

namespace RepRapFirmware.LpcFirmware.PinViews

open Shared.LpcProtocol Shared.Payload Gpio Pwm Outputs Function

abbrev Views := Fin 8 → View

def writeOutput (value : Bool) : Output → Output
  | .level _ => .level value
  | o => o

def configuredView (mode : GpioMode) (value : Bool) : View := ⟨mode, drivenOutput mode value⟩

def writtenView (value : Bool) (v : View) : View :=
  if v.mode ≠ .output then v else ⟨.output, writeOutput value v.output⟩

def pwmView (c : Channel) (duty frequency : UInt16) (v : View) : View :=
  if duty = 0 then ⟨.pwm, .level false⟩
  else if frequency = 0 then v
  else if duty = 65535 then ⟨.pwm, .level true⟩
  else if period c frequency < 2 ∨ c.maxPeriod < period c frequency then v
  else ⟨v.mode, .wave (timingOf c duty frequency)⟩

namespace Views

variable (v : Views) (i : Fin 8)

def configure (mode : GpioMode) (value : Bool) : Views := update v i (configuredView mode value)

def write (value : Bool) : Views := update v i (writtenView value (v i))

def setPwm (c : Channel) (duty frequency : UInt16) : Views :=
  update v i (pwmView c duty frequency (v i))

end Views

variable {b : Board} {p : UInt8} {i : Fin 8}

/-- The analog function leaves the NTC's pin undriven. -/
lemma output_configureAnalog : output (configureAnalog b Pins.hotendNtc 7) Pins.hotendNtc =
    .undriven := by
  have hfunction : (configureAnalog b Pins.hotendNtc 7).iocon (pins.get 7).ioconOffset &&& 7 = 2 :=
      by
    simp only [configureAnalog, update_self]
    exact select_function (by decide) (by decide)
  have hpin : findPin Pins.hotendNtc = some 7 := by decide
  have hother : (2 : UInt32) ≠ (pins.get 7).gpioFunction := by decide
  have hchannel : find Pins.hotendNtc = none := by decide
  simp only [output, hpin, hfunction, hother, if_false, hchannel]

lemma view_configure_eq (hp : findPin p = some i) {mode : GpioMode}
    (ha : mode = .analog → i = 7) (value : Bool) :
    view ((configure b p mode value).getD b) = Views.configure (view b) i mode value := by
  funext j
  by_cases hj : j = i
  · subst hj
    rw [Views.configure, update_self]
    by_cases hm : mode = .analog
    · obtain rfl := ha hm
      have hid : p = Pins.hotendNtc := (id_of_findPin hp).symm
      subst hid hm
      rw [view, mode_configure hp, if_pos rfl]
      simp only [configure, hp, Option.map_some, Option.getD_some, if_true]
      exact congrArg _ output_configureAnalog
    · exact view_configure hp hm value
  · rw [view_configure_other hp hj, Views.configure, update_of_ne hj]

lemma output_writeRaw (hp : findPin p = some i) (value : Bool) :
    output (writeRaw b p value) p = writeOutput value (output b p) := by
  simp only [output, hp, writeRaw, update_self]
  split_ifs
  · rfl
  · rfl
  · cases find p with
    | none => rfl
    | some c =>
      by_cases hc : b.iocon (pins.get i).ioconOffset &&& 7 = c.pinFunction
      · simp only [hc, if_true]
        rfl
      · simp only [hc, if_false]
        rfl

lemma view_write_eq (hp : findPin p = some i) (value : Bool) :
    view ((Gpio.write b p value).getD b) = Views.write (view b) i value := by
  rw [Gpio.write, Views.write, writtenView]
  simp only [hp]
  by_cases hm : (b.states i).mode = .output
  · have hv : (view b i).mode = .output := hm
    rw [if_neg (not_not.mpr hm), if_neg (not_not.mpr hv), Option.getD_some]
    funext j
    by_cases hj : j = i
    · subst hj
      rw [update_self, view, id_of_findPin hp, output_writeRaw hp, view, id_of_findPin hp]
      exact congrArg (fun m => View.mk m _) hm
    · rw [update_of_ne hj]
      have hs : SameRegisters (pins.get j).id b (writeRaw b p value) :=
        .of_timer (fun _ _ => rfl) rfl (update_of_ne (id_ne hp hj) _ _) rfl
      exact congrArg (View.mk _) hs.output
  · have hv : (view b i).mode ≠ .output := hm
    rw [if_pos hm, if_pos hv, Option.getD_none, update_eq_self]

lemma find_spec {c : Channel} (hc : find p = some c) (hp : findPin p = some i) :
    findPin c.pin = some i := by rw [pin_of_find hc, hp]

lemma view_setConstant {c : Channel} (hc : find p = some c) (hp : findPin p = some i)
    (high : Bool) : view (setConstant b c high) = update (view b) i ⟨.pwm, .level high⟩ := by
  funext j
  by_cases hj : j = i
  · subst hj
    have hid : (pins.get j).id = c.pin := by rw [id_of_findPin hp, pin_of_find hc]
    rw [update_self, view, mode_setConstant (find_spec hc hp), if_pos rfl, hid,
      output_setConstant (mem_of_find hc)]
  · have hq : (pins.get j).id ≠ c.pin := by
      rw [pin_of_find hc]
      exact id_ne hp hj
    rw [update_of_ne hj, view, mode_setConstant (find_spec hc hp), if_neg hj,
      (sameRegisters_setConstant (mem_of_find hc) hq high).output, view]

lemma view_setTimed {c : Channel} (hc : find p = some c) (hp : findPin p = some i)
    (duty frequency : UInt16) : view (setTimed b c duty frequency) =
      update (view b) i ⟨(view b i).mode, .wave (timingOf c duty frequency)⟩ := by
  have hstates : (setTimed b c duty frequency).states = b.states := (setTimed_timer_foldl _ _).2
  funext j
  by_cases hj : j = i
  · subst hj
    rw [update_self, view, hstates, id_of_findPin hp, output_setTimed hc, view]
  · have hq : (pins.get j).id ≠ c.pin := by
      rw [pin_of_find hc]
      exact id_ne hp hj
    rw [update_of_ne hj, view, hstates,
      (sameRegisters_setTimed (mem_of_find hc) hq duty frequency).output, view]

lemma view_set_eq {c : Channel} (hc : find p = some c) (hp : findPin p = some i)
    (duty frequency : UInt16) : view ((Pwm.set b p duty frequency).getD b) =
      Views.setPwm (view b) i c duty frequency := by
  rw [Pwm.set, Views.setPwm, pwmView]
  simp only [hc]
  split_ifs
  · rw [Option.getD_some, view_setConstant hc hp]
  · rw [Option.getD_none, update_eq_self]
  · rw [Option.getD_some, view_setConstant hc hp]
  · rw [Option.getD_none, update_eq_self]
  · rw [Option.getD_some, view_setTimed hc hp]

end RepRapFirmware.LpcFirmware.PinViews
