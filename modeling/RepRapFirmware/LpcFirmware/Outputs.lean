import RepRapFirmware.LpcFirmware.Pwm

/-! What a pin puts out, read off the registers, and what each pin operation does to it: an
operation on one pin leaves every other pin's output alone. -/

namespace RepRapFirmware.LpcFirmware.Outputs

open Shared.LpcProtocol Gpio Pwm Function

/-- The registers of a timer that shape the waveform of its PWM channel. -/
structure Timing where
  control : UInt32
  prescale : UInt32
  matchValue : UInt32
  period : UInt32
  matchControl : UInt32
  pwmControl : UInt32
  deriving DecidableEq

inductive Output
  | undriven
  | level (high : Bool)
  | wave (timing : Timing)
  deriving DecidableEq

def register (b : Board) (c : Channel) (offset : UInt32) : UInt32 := b.timer (c.timerBase + offset)

def timing (b : Board) (c : Channel) : Timing :=
  ⟨register b c 0x004, register b c 0x00C, register b c (0x018 + 4 * c.matchChannel),
    register b c 0x024, register b c 0x014, register b c 0x074⟩

/-- The function field of the I/O configuration routes the pin to its port or to its timer. -/
def output (b : Board) (pin : UInt8) : Output :=
  match findPin pin with
  | none => .undriven
  | some i =>
    let function := b.iocon (pins.get i).ioconOffset &&& 7
    if function = (pins.get i).gpioFunction then
      if b.direction pin then .level (b.data pin) else .undriven
    else match find pin with
      | none => .undriven
      | some c => if function = c.pinFunction then .wave (timing b c) else .undriven

/-- The mode that the LPC keeps for a pin and what the pin puts out. -/
structure View where
  mode : GpioMode
  output : Output
  deriving DecidableEq

def view (b : Board) (i : Fin 8) : View := ⟨(b.states i).mode, output b (pins.get i).id⟩

section Tables

lemma findPin_id (i : Fin 8) : findPin (pins.get i).id = some i := by
  revert i
  decide

lemma id_of_findPin {pin : UInt8} {i : Fin 8} (h : findPin pin = some i) :
    (pins.get i).id = pin := by
  simpa using List.find?_some h

lemma findPin_injective {p q : UInt8} {i : Fin 8} (hp : findPin p = some i)
    (hq : findPin q = some i) : p = q := by
  rw [← id_of_findPin hp, id_of_findPin hq]

lemma ioconOffset_injective : ∀ i j : Fin 8,
    (pins.get i).ioconOffset = (pins.get j).ioconOffset → i = j := by decide

lemma pin_of_find {pin : UInt8} {c : Channel} (h : find pin = some c) : c.pin = pin := by
  simpa using List.find?_some h

lemma mem_of_find {pin : UInt8} {c : Channel} (h : find pin = some c) : c ∈ channels :=
  List.mem_of_find?_eq_some h

/-- A channel's entry in the pin table: the same I/O configuration register, a different
function. -/
lemma channel_pin : ∀ c ∈ channels, ∃ i, findPin c.pin = some i ∧
    (pins.get i).ioconOffset = c.ioconOffset ∧ c.pinFunction ≠ (pins.get i).gpioFunction ∧
    c.pinFunction &&& 7 = c.pinFunction := by decide

lemma gpioFunction_bits : ∀ i : Fin 8,
    (pins.get i).gpioFunction &&& 7 = (pins.get i).gpioFunction := by decide

def offsets (c : Channel) : List UInt32 :=
  [0x004, 0x00C, 0x018 + 4 * c.matchChannel, 0x024, 0x014, 0x074]

lemma registers_disjoint : ∀ c ∈ channels, ∀ c' ∈ channels, c.pin ≠ c'.pin →
    ∀ o ∈ offsets c, ∀ o' ∈ offsets c', c.timerBase + o ≠ c'.timerBase + o' := by
  have hall : (channels.all fun c => channels.all fun c' => c.pin == c'.pin ||
      (offsets c).all fun o => (offsets c').all fun o' =>
        c.timerBase + o != c'.timerBase + o') = true := by decide
  intro c hc c' hc' hpin o ho o' ho'
  have hpair := List.all_eq_true.mp (List.all_eq_true.mp hall c hc) c' hc'
  rw [beq_eq_false_iff_ne.mpr hpin, Bool.false_or] at hpair
  exact bne_iff_ne.mp (List.all_eq_true.mp (List.all_eq_true.mp hpair o ho) o' ho')

end Tables

section Functions

lemma select_function {x a f : UInt32} (ha : a &&& 7 = 0) (hf : f &&& 7 = f) :
    ((x &&& a) ||| f) &&& 7 = f := by
  apply UInt32.eq_of_toBitVec_eq
  ext i hi
  have h1 := congrArg (fun u : UInt32 => u.toBitVec[i]) ha
  have h2 := congrArg (fun u : UInt32 => u.toBitVec[i]) hf
  simp only [UInt32.toBitVec_and, UInt32.toBitVec_or, BitVec.getElem_and, BitVec.getElem_or] at *
  cases x.toBitVec[i] <;> cases ha : a.toBitVec[i] <;> simp_all

lemma or_function {y a : UInt32} (ha : a &&& 7 = 0) : (y ||| a) &&& 7 = y &&& 7 := by
  apply UInt32.eq_of_toBitVec_eq
  ext i hi
  have h1 := congrArg (fun u : UInt32 => u.toBitVec[i]) ha
  simp only [UInt32.toBitVec_and, UInt32.toBitVec_or, BitVec.getElem_and, BitVec.getElem_or] at *
  cases y.toBitVec[i] <;> cases ha : a.toBitVec[i] <;> simp_all

lemma digitalIocon_function (i : Fin 8) (mode : GpioMode) (x : UInt32) :
    digitalIocon (pins.get i) mode x &&& 7 = (pins.get i).gpioFunction := by
  have hs := select_function (x := x) (a := ~~~((0x07 : UInt32) ||| ((0x03 : UInt32) <<< 3)))
    (by decide) (gpioFunction_bits i)
  have h7 : ((1 : UInt32) <<< 7) &&& 7 = 0 := by decide
  have h3 : ((0x02 : UInt32) <<< 3) &&& 7 = 0 := by decide
  rw [digitalIocon]
  split_ifs <;> simp only [or_function h3, or_function h7, hs]

end Functions

section Fields

variable (b : Board) (pin : UInt8) (i j : Fin 8) (mode : GpioMode) (value : Bool)

@[simp] lemma configureDigital_iocon : (configureDigital b pin i mode value).iocon =
    update b.iocon (pins.get i).ioconOffset
      (digitalIocon (pins.get i) mode (b.iocon (pins.get i).ioconOffset)) := by
  rw [configureDigital]
  by_cases h : mode = .output ∨ mode = .pwm <;> simp [h]

@[simp] lemma configureDigital_direction : (configureDigital b pin i mode value).direction =
    update b.direction pin (mode = .output ∨ mode = .pwm) := by
  rw [configureDigital]
  by_cases h : mode = .output ∨ mode = .pwm <;> simp [h, writeRaw]

@[simp] lemma configureDigital_data : (configureDigital b pin i mode value).data =
    if mode = .output ∨ mode = .pwm then update b.data pin value else b.data := by
  rw [configureDigital]
  by_cases h : mode = .output ∨ mode = .pwm <;> simp [h, writeRaw]

@[simp] lemma configureDigital_timer : (configureDigital b pin i mode value).timer = b.timer := by
  rw [configureDigital]
  by_cases h : mode = .output ∨ mode = .pwm <;> simp [h, writeRaw]

lemma configureDigital_mode : ((configureDigital b pin i mode value).states j).mode =
    if j = i then mode else (b.states j).mode := by
  rw [configureDigital]
  by_cases hj : j = i <;> by_cases h : mode = .output ∨ mode = .pwm <;> simp [h, hj, writeRaw]

lemma configureAnalog_mode : ((configureAnalog b pin i).states j).mode =
    if j = i then .analog else (b.states j).mode := by
  by_cases hj : j = i <;> simp [configureAnalog, hj]

end Fields

section Locality

variable {b b' b'' : Board} {p q : UInt8}

/-- The registers of a pin and of its PWM channel are the same on both boards. -/
structure SameRegisters (q : UInt8) (b b' : Board) : Prop where
  iocon : ∀ i, findPin q = some i →
    b'.iocon (pins.get i).ioconOffset = b.iocon (pins.get i).ioconOffset
  direction : b'.direction q = b.direction q
  data : b'.data q = b.data q
  timing : ∀ c, find q = some c → timing b' c = timing b c

lemma SameRegisters.refl (q : UInt8) (b : Board) : SameRegisters q b b :=
  ⟨fun _ _ => rfl, rfl, rfl, fun _ _ => rfl⟩

lemma SameRegisters.trans (h : SameRegisters q b b') (h' : SameRegisters q b' b'') :
    SameRegisters q b b'' :=
  ⟨fun i hi => (h'.iocon i hi).trans (h.iocon i hi), h'.direction.trans h.direction,
    h'.data.trans h.data, fun c hc => (h'.timing c hc).trans (h.timing c hc)⟩

lemma SameRegisters.of_timer (hi : ∀ i, findPin q = some i →
      b'.iocon (pins.get i).ioconOffset = b.iocon (pins.get i).ioconOffset)
    (hd : b'.direction q = b.direction q) (hl : b'.data q = b.data q)
    (ht : b'.timer = b.timer) : SameRegisters q b b' :=
  ⟨hi, hd, hl, fun c _ => by simp only [Outputs.timing, register, ht]⟩

/-- The output of a pin depends on its own registers only. -/
lemma SameRegisters.output (h : SameRegisters q b b') : output b' q = output b q := by
  rw [Outputs.output, Outputs.output]
  cases hq : findPin q with
  | none => rfl
  | some i =>
    dsimp only
    rw [h.iocon i hq, h.direction, h.data]
    cases hc : find q with
    | none => rfl
    | some c => simp only [h.timing c hc]

lemma sameRegisters_getD {f : Board → Option Board}
    (h : ∀ b', f b = some b' → SameRegisters q b b') : SameRegisters q b ((f b).getD b) := by
  cases hf : f b with
  | none => exact .refl q b
  | some b' => exact h b' hf

lemma ioconOffset_ne (hpq : q ≠ p) {i j : Fin 8} (hp : findPin p = some i)
    (hq : findPin q = some j) : (pins.get j).ioconOffset ≠ (pins.get i).ioconOffset := by
  intro he
  obtain rfl := ioconOffset_injective _ _ he
  exact hpq (findPin_injective hq hp)

lemma sameRegisters_configure (hpq : q ≠ p) {mode : GpioMode} {value : Bool}
    (h : configure b p mode value = some b') : SameRegisters q b b' := by
  rw [configure] at h
  obtain ⟨i, hp, rfl⟩ := Option.map_eq_some_iff.mp h
  split_ifs with ha
  · refine .of_timer (fun j hq => ?_) ?_ rfl rfl
    · simp [configureAnalog, update_of_ne (ioconOffset_ne hpq hp hq)]
    · simp [configureAnalog, update_of_ne hpq]
  · refine .of_timer (fun j hq => ?_) ?_ ?_ (by simp)
    · simp [update_of_ne (ioconOffset_ne hpq hp hq)]
    · simp [update_of_ne hpq]
    · rw [configureDigital_data]
      split_ifs <;> simp [update_of_ne hpq]

lemma sameRegisters_write (hpq : q ≠ p) {value : Bool} (h : write b p value = some b') :
    SameRegisters q b b' := by
  rw [write] at h
  split at h
  · cases h
  · split_ifs at h
    cases h
    exact .of_timer (fun _ _ => rfl) rfl (by simp [writeRaw, update_of_ne hpq]) rfl

lemma register_setTimer_other {c c' : Channel} (hc : c ∈ channels) (hc' : c' ∈ channels)
    (hne : c.pin ≠ c'.pin) {o o' value : UInt32} (ho : o ∈ offsets c) (ho' : o' ∈ offsets c') :
    register (setTimer b c o value) c' o' = register b c' o' :=
  update_of_ne (registers_disjoint c hc c' hc' hne o ho o' ho').symm _ _

lemma timing_setTimer_other {c c' : Channel} (hc : c ∈ channels) (hc' : c' ∈ channels)
    (hne : c.pin ≠ c'.pin) {o value : UInt32} (ho : o ∈ offsets c) :
    timing (setTimer b c o value) c' = timing b c' := by
  have hr : ∀ o' ∈ offsets c', register (setTimer b c o value) c' o' = register b c' o' :=
    fun o' ho' => register_setTimer_other hc hc' hne ho ho'
  simp only [offsets, List.forall_mem_cons] at hr
  obtain ⟨h1, h2, h3, h4, h5, h6, -⟩ := hr
  simp only [timing, h1, h2, h3, h4, h5, h6]

lemma sameRegisters_setTimer {c : Channel} (hc : c ∈ channels) (hq : q ≠ c.pin) {o value : UInt32}
    (ho : o ∈ offsets c) : SameRegisters q b (setTimer b c o value) :=
  ⟨fun _ _ => rfl, rfl, rfl, fun _ hc' =>
    timing_setTimer_other hc (mem_of_find hc') (by rw [pin_of_find hc']; exact hq.symm) ho⟩

lemma sameRegisters_setConstant {c : Channel} (hc : c ∈ channels) (hq : q ≠ c.pin) (high : Bool) :
    SameRegisters q b (setConstant b c high) :=
  (sameRegisters_setTimer hc hq (o := 0x004) (by simp [offsets])).trans
    (sameRegisters_getD (f := fun b => configure b c.pin .pwm high)
      fun _ h => sameRegisters_configure hq h)

lemma sameRegisters_foldl_setTimer {c : Channel} (hc : c ∈ channels) (hq : q ≠ c.pin)
    (writes : List (UInt32 × UInt32)) (hw : ∀ w ∈ writes, w.1 ∈ offsets c) (b : Board) :
    SameRegisters q b (writes.foldl (fun b r => setTimer b c r.1 r.2) b) := by
  induction writes generalizing b with
  | nil => exact .refl q b
  | cons w writes ih =>
    rw [List.foldl_cons]
    exact (sameRegisters_setTimer hc hq (hw w List.mem_cons_self)).trans
      (ih (fun w' h => hw w' (List.mem_cons_of_mem _ h)) _)

lemma sameRegisters_setTimed {c : Channel} (hc : c ∈ channels) (hq : q ≠ c.pin)
    (duty frequency : UInt16) : SameRegisters q b (setTimed b c duty frequency) := by
  obtain ⟨i, hp, ho, -, -⟩ := channel_pin c hc
  rw [setTimed]
  refine SameRegisters.trans ?_ (sameRegisters_foldl_setTimer hc hq _ (by simp [offsets]) _)
  refine .of_timer (fun j hj => update_of_ne ?_ _ _) rfl rfl rfl
  rw [← ho]
  exact ioconOffset_ne hq hp hj

lemma sameRegisters_set (hpq : q ≠ p) {duty frequency : UInt16}
    (h : Pwm.set b p duty frequency = some b') : SameRegisters q b b' := by
  rw [Pwm.set] at h
  split at h
  · cases h
  · next c hc =>
    have hq : q ≠ c.pin := by rw [pin_of_find hc]; exact hpq
    split_ifs at h <;> cases h
    · exact sameRegisters_setConstant (mem_of_find hc) hq _
    · exact sameRegisters_setConstant (mem_of_find hc) hq _
    · exact sameRegisters_setTimed (mem_of_find hc) hq _ _

end Locality

section Own

variable {b : Board} {p : UInt8} {i : Fin 8}

def drivenOutput (mode : GpioMode) (value : Bool) : Output :=
  if mode = .output ∨ mode = .pwm then .level value else .undriven

lemma output_gpio (hp : findPin p = some i)
    (hf : b.iocon (pins.get i).ioconOffset &&& 7 = (pins.get i).gpioFunction) :
    output b p = if b.direction p then .level (b.data p) else .undriven := by
  simp only [output, hp, hf, if_true]

lemma output_configureDigital (hp : findPin p = some i) (mode : GpioMode) (value : Bool) :
    output (configureDigital b p i mode value) p = drivenOutput mode value := by
  rw [output_gpio hp (by simp [digitalIocon_function])]
  by_cases h : mode = .output ∨ mode = .pwm <;> simp [drivenOutput, h]

lemma output_configure (hp : findPin p = some i) {mode : GpioMode} (hm : mode ≠ .analog)
    (value : Bool) : output ((configure b p mode value).getD b) p = drivenOutput mode value := by
  simp [configure, hp, hm, output_configureDigital hp]

lemma mode_configure (hp : findPin p = some i) (mode : GpioMode) (value : Bool) (j : Fin 8) :
    (((configure b p mode value).getD b).states j).mode =
      if j = i then mode else (b.states j).mode := by
  by_cases ha : mode = .analog
  · simp [configure, hp, ha, configureAnalog_mode]
  · simp [configure, hp, ha, configureDigital_mode]

lemma output_setConstant {c : Channel} (hc : c ∈ channels) (high : Bool) :
    output (setConstant b c high) c.pin = .level high := by
  obtain ⟨i, hp, -⟩ := channel_pin c hc
  have hm : GpioMode.pwm ≠ .analog := by decide
  exact output_configure (b := setTimer b c 0x004 0) hp hm high

lemma mode_setConstant {c : Channel} (hp : findPin c.pin = some i) (high : Bool) (j : Fin 8) :
    ((setConstant b c high).states j).mode = if j = i then .pwm else (b.states j).mode :=
  mode_configure (b := setTimer b c 0x004 0) hp .pwm high j

def timingOf (c : Channel) (duty frequency : UInt16) : Timing where
  control := 0x01
  prescale := UInt32.ofNat (divider c frequency - 1)
  matchValue := UInt32.ofNat (matchValue c duty frequency)
  period := UInt32.ofNat (period c frequency)
  matchControl := (1 : UInt32) <<< 10
  pwmControl := ((1 : UInt32) <<< 3) ||| ((1 : UInt32) <<< c.matchChannel)

lemma setTimed_timer_foldl {c : Channel} (writes : List (UInt32 × UInt32)) (b : Board) :
    (writes.foldl (fun b r => setTimer b c r.1 r.2) b).iocon = b.iocon ∧
      (writes.foldl (fun b r => setTimer b c r.1 r.2) b).states = b.states := by
  induction writes generalizing b with
  | nil => exact ⟨rfl, rfl⟩
  | cons w writes ih => exact ih (setTimer b c w.1 w.2)

lemma timing_setTimed (duty frequency : UInt16) : ∀ c ∈ channels,
    timing (setTimed b c duty frequency) c = timingOf c duty frequency := by
  simp only [channels, List.forall_mem_cons]
  refine ⟨?_, ?_, ?_, by simp⟩ <;>
    simp [timing, timingOf, setTimed, register, setTimer]

lemma output_setTimed {c : Channel} (hc : find p = some c) (duty frequency : UInt16) :
    output (setTimed b c duty frequency) p = .wave (timingOf c duty frequency) := by
  have hm := mem_of_find hc
  obtain ⟨i, hp, ho, hne, hbits⟩ := channel_pin c hm
  have hfunction : (setTimed b c duty frequency).iocon (pins.get i).ioconOffset &&& 7 =
      c.pinFunction := by
    have hs := select_function (x := b.iocon c.ioconOffset) (a := ~~~0x07) (by decide) hbits
    rw [setTimed]
    rw [(setTimed_timer_foldl _ _).1, ho]
    simp only [update_self]
    split_ifs
    · rw [or_function (by decide), hs]
    · exact hs
  rw [← pin_of_find hc]
  simp only [output, hp, hfunction, hne, if_false]
  rw [pin_of_find hc, hc]
  simp only [if_true, timing_setTimed duty frequency c hm]

end Own

section Views

variable {b : Board} {p : UInt8} {i j : Fin 8}

lemma id_ne (hp : findPin p = some i) (hj : j ≠ i) : (pins.get j).id ≠ p := by
  intro he
  exact hj (Option.some.inj ((findPin_id j).symm.trans (he ▸ hp)))

lemma view_configure (hp : findPin p = some i) {mode : GpioMode} (hm : mode ≠ .analog)
    (value : Bool) :
    view ((configure b p mode value).getD b) i = ⟨mode, drivenOutput mode value⟩ := by
  have hmode := mode_configure (b := b) hp mode value i
  rw [if_pos rfl] at hmode
  rw [view, hmode, id_of_findPin hp, output_configure hp hm]

lemma view_configure_other (hp : findPin p = some i) (hj : j ≠ i) (mode : GpioMode)
    (value : Bool) : view ((configure b p mode value).getD b) j = view b j := by
  have ho : output ((configure b p mode value).getD b) (pins.get j).id = output b (pins.get j).id :=
    (sameRegisters_getD (f := fun b => configure b p mode value)
      fun _ h => sameRegisters_configure (id_ne hp hj) h).output
  rw [view, view, ho, mode_configure hp, if_neg hj]

def disabledView : View := ⟨.disabled, .undriven⟩

lemma view_initPin (b : Board) (i j : Fin 8) :
    view (initPin b i) j = if j = i then disabledView else view b j := by
  have hp := findPin_id i
  by_cases hj : j = i
  · subst hj
    rw [if_pos rfl]
    exact view_configure hp (by decide) false
  · rw [if_neg hj, initPin, view_configure_other hp hj]
    have ho : output { b with states := update b.states i ⟨.disabled, false⟩ } (pins.get j).id =
        output b (pins.get j).id := (SameRegisters.refl _ _).output
    simp only [view, update_of_ne hj, ho]

lemma view_initPins (is : List (Fin 8)) (b : Board) (j : Fin 8) :
    view (is.foldl initPin b) j = if j ∈ is then disabledView else view b j := by
  induction is generalizing b with
  | nil => simp
  | cons i is ih =>
    rw [List.foldl_cons, ih, view_initPin]
    by_cases hj : j = i <;> by_cases his : j ∈ is <;> simp [hj, his]

lemma view_init (b : Board) (j : Fin 8) : view (Gpio.init b) j = disabledView := by
  rw [Gpio.init]
  rw [view_initPins, if_pos (List.mem_finRange j)]

end Views

end RepRapFirmware.LpcFirmware.Outputs
