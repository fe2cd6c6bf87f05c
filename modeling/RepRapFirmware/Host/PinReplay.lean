import RepRapFirmware.Host.Replay

/-! What a replay makes of one pin, and when it makes the same of it as the frame that the host sent
when it changed the pin's entry. -/

namespace RepRapFirmware.Host.PinReplay

open Shared.LpcProtocol Shared.Payload LpcInterface Replay Function
open LpcFirmware LpcFirmware.Gpio LpcFirmware.Pwm LpcFirmware.Outputs LpcFirmware.PinViews
open LpcFirmware.Configuration LpcFirmware.Reception

section Period

variable {c : Channel} {frequency : UInt16}

lemma divider_of_fast (h : coreClock ≤ frequency.toNat * c.maxPeriod) : divider c frequency = 1 :=
  if_pos h

/-- The divider is the least that keeps the period within the timer's range. -/
lemma divider_of_slow (hf : 0 < frequency.toNat) (hmax : 0 < c.maxPeriod)
    (h : ¬ coreClock ≤ frequency.toNat * c.maxPeriod) :
    coreClock ≤ divider c frequency * (frequency.toNat * c.maxPeriod) ∧
      divider c frequency * (frequency.toNat * c.maxPeriod) < 2 * coreClock := by
  have hpos : 0 < frequency.toNat * c.maxPeriod := Nat.mul_pos hf hmax
  rw [divider, if_neg h]
  generalize frequency.toNat * c.maxPeriod = clock at *
  have hmod := Nat.div_add_mod (coreClock + clock - 1) clock
  have hlt := Nat.mod_lt (coreClock + clock - 1) hpos
  rw [Nat.mul_comm] at hmod
  generalize (coreClock + clock - 1) / clock * clock = product at *
  constructor <;> omega

/-- Every frequency but 0 gives a period that the timer can count. -/
lemma period_valid (hc : c ∈ channels) (hf : frequency ≠ 0) :
    ¬ (period c frequency < 2 ∨ c.maxPeriod < period c frequency) := by
  have hmax : 0xFFFF ≤ c.maxPeriod := by
    have hall : ∀ c ∈ channels, 0xFFFF ≤ c.maxPeriod := by decide
    exact hall c hc
  have hpos : 0 < frequency.toNat := Nat.pos_of_ne_zero fun h => hf (UInt16.toNat_inj.mp h)
  have hlt : frequency.toNat < 65536 := frequency.toNat_lt
  rw [period, Nat.div_div_eq_div_mul, not_or, not_lt, not_lt]
  by_cases h : coreClock ≤ frequency.toNat * c.maxPeriod
  · rw [divider_of_fast h, one_mul]
    refine ⟨(Nat.le_div_iff_mul_le hpos).mpr ?_, Nat.div_le_of_le_mul h⟩
    rw [coreClock]
    omega
  · obtain ⟨hlow, hhigh⟩ := divider_of_slow hpos (by omega) h
    rw [← Nat.mul_assoc] at hlow hhigh
    have hstep := Nat.mul_le_mul_left (divider c frequency * frequency.toNat) hmax
    rw [coreClock] at hlow hhigh ⊢
    have hproduct : 0 < divider c frequency * frequency.toNat := by
      by_contra h0
      rw [Nat.eq_zero_of_not_pos h0] at hlow
      omega
    refine ⟨(Nat.le_div_iff_mul_le hproduct).mpr ?_, Nat.div_le_of_le_mul hlow⟩
    omega

end Period

/-- The PWM channel of a pin, if it has one. -/
def channel (i : Fin 7) : Option Channel := find (lpcPinIds.get i)

def pwmChange (i : Fin 7) (duty frequency : UInt16) (v : View) : View :=
  match channel i with
  | none => v
  | some c => pwmView c duty frequency v

/-- What a replay makes of a pin with the entry `c`. -/
def replayedView (i : Fin 7) (c : PinCache) : View :=
  if c.mode = .pwm ∧ c.pwmFrequency ≠ 0 then
    pwmChange i c.pwmValue c.pwmFrequency (configuredView c.mode c.value)
  else configuredView c.mode c.value

/-- A replay of the PWM entry leaves the pin at the level that its mode gave it. -/
def Restorable (c : PinCache) : Prop :=
  c.pwmFrequency = 0 ∨ c.pwmValue = 0 ∧ c.value = false ∨ c.pwmValue = 65535 ∧ c.value = true

/-- A write of PWM is in line with the entry `c` that it changes. -/
def PwmInLine (c : PinCache) (duty frequency : UInt16) : Prop :=
  if c.mode = .pwm then
    frequency ≠ 0 ∨ duty = 0 ∧ c.value = false ∨ duty ≠ 0 ∧ Restorable c
  else frequency = 0 ∧ duty ≠ 0

section Entry

variable {i : Fin 7} {c : PinCache} {ch : Channel}

lemma channel_of_pwm (h : Allowed i .pwm) : ∃ ch, channel i = some ch := by
  have hall : ∀ i, Capable i PinCapability.pwm → (channel i).isSome := by decide
  exact Option.isSome_iff_exists.mp (hall i h)

lemma mem_of_channel (h : channel i = some ch) : ch ∈ channels := mem_of_find h

lemma pwmView_of_frequency (hc : ch ∈ channels) {frequency : UInt16} (hf : frequency ≠ 0)
    (duty : UInt16) (v : View) : pwmView ch duty frequency v =
      if duty = 0 then ⟨.pwm, .level false⟩ else if duty = 65535 then ⟨.pwm, .level true⟩
      else ⟨v.mode, .wave (timingOf ch duty frequency)⟩ := by
  rw [pwmView, if_neg hf, if_neg (period_valid hc hf)]

/-- A PWM entry with a frequency hides the level. -/
lemma replayedView_of_frequency (hm : c.mode = .pwm) (hf : c.pwmFrequency ≠ 0)
    (hch : channel i = some ch) : replayedView i c =
      if c.pwmValue = 0 then ⟨.pwm, .level false⟩
      else if c.pwmValue = 65535 then ⟨.pwm, .level true⟩
      else ⟨.pwm, .wave (timingOf ch c.pwmValue c.pwmFrequency)⟩ := by
  rw [replayedView, if_pos ⟨hm, hf⟩, pwmChange, hch, hm]
  exact pwmView_of_frequency (mem_of_channel hch) hf c.pwmValue _

lemma replayedView_of_not_pwm (hm : c.mode ≠ .pwm) :
    replayedView i c = configuredView c.mode c.value := by
  rw [replayedView, if_neg fun h => hm h.1]

lemma replayedView_of_no_frequency (hf : c.pwmFrequency = 0) :
    replayedView i c = configuredView c.mode c.value := by
  rw [replayedView, if_neg fun h => h.2 hf]

lemma configuredView_pwm (value : Bool) : configuredView .pwm value = ⟨.pwm, .level value⟩ := rfl

lemma restorable_iff (h : Allowed i c.mode) (hm : c.mode = .pwm) :
    replayedView i c = ⟨.pwm, .level c.value⟩ ↔ Restorable c := by
  obtain ⟨ch, hch⟩ := channel_of_pwm (hm ▸ h)
  by_cases hf : c.pwmFrequency = 0
  · rw [replayedView_of_no_frequency hf, hm]
    exact ⟨fun _ => .inl hf, fun _ => rfl⟩
  · rw [replayedView_of_frequency hm hf hch, Restorable]
    split_ifs with h0 h1
    · cases hv : c.value <;> simp [hf, h0]
    · cases hv : c.value <;> simp [hf, h1]
    · simp [hf, h0, h1]

lemma mode_replayedView (h : Allowed i c.mode) : (replayedView i c).mode = c.mode := by
  by_cases hm : c.mode = .pwm
  · obtain ⟨ch, hch⟩ := channel_of_pwm (hm ▸ h)
    by_cases hf : c.pwmFrequency = 0
    · rw [replayedView_of_no_frequency hf]
      rfl
    · rw [replayedView_of_frequency hm hf hch, hm]
      split_ifs <;> rfl
  · rw [replayedView_of_not_pwm hm]
    rfl

/-- The frame of `SetPinMode` does what a replay does. -/
lemma configured_iff {m : GpioMode} (h : Allowed i m) (v : Option Bool) :
    configuredView m (v.getD c.value) = replayedView i (setMode c m v) ↔
      (m = .pwm → Restorable (setMode c m v)) := by
  by_cases hm : m = .pwm
  · subst hm
    rw [configuredView_pwm, eq_comm]
    exact (restorable_iff (c := setMode c .pwm v) h rfl).trans
      ⟨fun hr _ => hr, fun hr => hr rfl⟩
  · rw [replayedView_of_not_pwm (show (setMode c m v).mode ≠ .pwm from hm)]
    exact ⟨fun _ h' => absurd h' hm, fun _ => rfl⟩

lemma drivenOutput_of_mode {m : GpioMode} (ho : m ≠ .output) (hp : m ≠ .pwm) (value : Bool) :
    drivenOutput m value = .undriven := by
  rw [drivenOutput, if_neg fun h => h.elim ho hp]

/-- The level in the entry of an input does not matter. -/
lemma replayedView_of_read (h : Allowed i c.mode) (hr : Capable i PinCapability.read)
    (value received : Bool) :
    replayedView i { c with value := value, stateReceived := received } = replayedView i c := by
  have hno : ∀ i, Capable i PinCapability.read →
      ¬ Capable i PinCapability.write ∧ ¬ Capable i PinCapability.pwm := by decide
  have ho : c.mode ≠ .output := fun hm => (hno i hr).1 (hm ▸ h :)
  have hp : c.mode ≠ .pwm := fun hm => (hno i hr).2 (hm ▸ h :)
  rw [replayedView_of_not_pwm hp, replayedView_of_not_pwm
    (c := { c with value := value, stateReceived := received }) hp]
  exact congrArg (View.mk c.mode) ((drivenOutput_of_mode ho hp _).trans
    (drivenOutput_of_mode ho hp _).symm)

/-- The frame of `WritePin` does what a replay does. -/
lemma written_iff (h : Allowed i c.mode) (high : Bool) :
    writtenView high (replayedView i c) = replayedView i { c with value := high } ↔
      (c.mode = .pwm → c.pwmFrequency = 0 → high = c.value) := by
  by_cases ho : c.mode = .output
  · have hp : c.mode ≠ .pwm := by simp [ho]
    have hc : replayedView i { c with value := high } = configuredView c.mode high :=
      replayedView_of_not_pwm (c := { c with value := high }) hp
    rw [replayedView_of_not_pwm hp, hc, writtenView, ho]
    simp [configuredView, drivenOutput, writeOutput]
  · rw [writtenView, if_pos (by rwa [mode_replayedView h])]
    by_cases hp : c.mode = .pwm
    · obtain ⟨ch, hch⟩ := channel_of_pwm (hp ▸ h)
      by_cases hf : c.pwmFrequency = 0
      · rw [replayedView_of_no_frequency hf,
          replayedView_of_no_frequency (c := { c with value := high }) hf]
        simp [configuredView, drivenOutput, hp, hf, eq_comm]
      · rw [replayedView_of_frequency hp hf hch,
          replayedView_of_frequency (c := { c with value := high }) hp hf hch]
        simp [hf]
    · rw [replayedView_of_not_pwm hp, replayedView_of_not_pwm (c := { c with value := high }) hp]
      simp [configuredView, drivenOutput_of_mode ho hp, hp]

lemma drivenOutput_ne_wave (m : GpioMode) (value : Bool) (t : Timing) :
    drivenOutput m value ≠ .wave t := by
  rw [drivenOutput]
  split_ifs <;> exact Output.noConfusion

/-- The frame of `WritePwm` does what a replay does. -/
lemma pwm_iff (h : Allowed i c.mode) (duty frequency : UInt16) :
    pwmChange i duty frequency (replayedView i c) =
        replayedView i { c with pwmValue := duty, pwmFrequency := frequency } ↔
      ((channel i).isSome → PwmInLine c duty frequency) := by
  have hmode := mode_replayedView h
  cases hch : channel i with
  | none =>
    have hm : c.mode ≠ .pwm := by
      intro hm
      obtain ⟨ch, hch'⟩ := channel_of_pwm (hm ▸ h)
      exact Option.some_ne_none ch (hch'.symm.trans hch)
    rw [pwmChange, hch, replayedView_of_not_pwm hm,
      replayedView_of_not_pwm (c := { c with pwmValue := duty, pwmFrequency := frequency }) hm]
    simp
  | some ch =>
    rw [pwmChange, hch, PwmInLine]
    dsimp only
    by_cases hm : c.mode = .pwm
    · rw [if_pos hm]
      by_cases hf : frequency = 0
      · rw [replayedView_of_no_frequency
          (c := { c with pwmValue := duty, pwmFrequency := frequency }) hf, pwmView, hm]
        by_cases hd : duty = 0
        · cases hv : c.value <;> simp [hd, hf, configuredView_pwm]
        · rw [if_neg hd, if_pos hf, configuredView_pwm, restorable_iff h hm]
          simp [hd, hf]
      · rw [replayedView_of_frequency
          (c := { c with pwmValue := duty, pwmFrequency := frequency }) hm hf hch,
          pwmView_of_frequency (mem_of_channel hch) hf, hmode, hm]
        simp [hf]
    · rw [if_neg hm, replayedView_of_not_pwm hm,
        replayedView_of_not_pwm (c := { c with pwmValue := duty, pwmFrequency := frequency }) hm]
      by_cases hd : duty = 0
      · simp [pwmView, configuredView, hd, Ne.symm hm]
      · by_cases hf : frequency = 0
        · simp [pwmView, hd, hf]
        · rw [pwmView_of_frequency (mem_of_channel hch) hf, if_neg hd]
          split_ifs
          · simp [configuredView, hf, Ne.symm hm]
          · simp [configuredView, hf, (drivenOutput_ne_wave _ _ _).symm]

end Entry

section Frames

variable {i : Fin 7} (v : Views)

lemma readU16_putU16 (b : UInt8) (duty frequency : UInt16) (t : MessageType) :
    readU16 (Frame.ofBytes t (b :: (putU16 duty ++ putU16 frequency))).payload 1 = duty ∧
      readU16 (Frame.ofBytes t (b :: (putU16 duty ++ putU16 frequency))).payload 3 = frequency := by
  simp only [readU16, ofBytes_get]
  exact ⟨bytes_of_u16 duty, bytes_of_u16 frequency⟩

lemma flag_ne_zero (value : Bool) :
    decide ((if value = true then (1 : UInt8) else 0) ≠ 0) = value := by
  cases value <;> decide

lemma receivePins_gpioConfig {m : GpioMode} (hm : Allowed i m) (value : Bool) :
    receivePins (Frame.ofBytes .gpioConfig
      [lpcPinIds.get i, m.code, if value then 1 else 0]) v = v.configure (lpcIndex i) m value := by
  simp only [receivePins, type_ofBytes, payload_ofBytes, List.getD_cons_zero, List.getD_cons_succ]
  rw [if_pos ⟨rfl, lpcPinIds_ne_heater i⟩, findPin_lpcPinIds]
  dsimp only
  rw [ofCode_code hm, flag_ne_zero]

lemma receivePins_gpioWrite (value : Bool) :
    receivePins (Frame.ofBytes .gpioWrite [lpcPinIds.get i, if value then 1 else 0]) v =
      v.write (lpcIndex i) value := by
  simp only [receivePins, type_ofBytes, payload_ofBytes, List.getD_cons_zero, List.getD_cons_succ]
  rw [if_pos ⟨rfl, lpcPinIds_ne_heater i⟩, findPin_lpcPinIds]
  dsimp only
  rw [flag_ne_zero]

lemma receivePins_pwmWrite (duty frequency : UInt16) :
    receivePins (Frame.ofBytes .pwmWrite
        (lpcPinIds.get i :: (putU16 duty ++ putU16 frequency))) v =
      update v (lpcIndex i) (pwmChange i duty frequency (v (lpcIndex i))) := by
  obtain ⟨hduty, hfrequency⟩ := readU16_putU16 (lpcPinIds.get i) duty frequency .pwmWrite
  simp only [receivePins, type_ofBytes, hduty, hfrequency, payload_ofBytes, List.getD_cons_zero]
  rw [if_pos ⟨rfl, lpcPinIds_ne_heater i⟩, findPin_lpcPinIds, pwmChange, channel]
  cases find (lpcPinIds.get i) with
  | none => exact (update_eq_self _ _).symm
  | some c => rfl

lemma receivePins_ofBytes_other {t : MessageType} (hc : t ≠ .gpioConfig) (hw : t ≠ .gpioWrite)
    (hp : t ≠ .pwmWrite) (payload : List UInt8) :
    receivePins (Frame.ofBytes t payload) v = v := by
  rw [receivePins, type_ofBytes]
  cases t <;> first | rfl | contradiction

lemma views_defaults (i : Fin 7) : defaults.views (lpcIndex i) = disabledView := by
  simp [defaults, lpcIndex]

end Frames

section Replay

variable [Thermal.Libm] {h : LpcInterface.State}

lemma receiveAll_send (hsent : h.firmwareUpdateActive = false) (t : MessageType)
    (payload : List UInt8) (c : Settings) :
    receiveAll c (send h t payload) = receive (Frame.ofBytes t payload) c := by
  rw [send, if_neg (by simp [hsent])]
  rfl

lemma receive_views_ofBytes (c : Settings) {t : MessageType} (ht : t ≠ .configurationReset)
    (payload : List UInt8) : (receive (Frame.ofBytes t payload) c).views =
      receivePins (Frame.ofBytes t payload) c.views := by
  apply receive_views
  rw [type_ofBytes]
  exact fun h => ht (Option.some.inj h)

lemma views_sendGpioConfig (hsent : h.firmwareUpdateActive = false) (i : Fin 7) (c : Settings) :
    (receiveAll c (sendGpioConfig h i)).views =
      c.views.configure (lpcIndex i) (h.pins i).mode (h.pins i).value := by
  rw [sendGpioConfig, receiveAll_send hsent, receive_views_ofBytes c (by decide),
    gpioConfigPayload, receivePins_gpioConfig _ (h.allowed i)]

lemma views_sendPwm (hsent : h.firmwareUpdateActive = false) (i : Fin 7) (c : Settings) :
    (receiveAll c (sendPwm h i)).views = update c.views (lpcIndex i)
      (pwmChange i (h.pins i).pwmValue (h.pins i).pwmFrequency (c.views (lpcIndex i))) := by
  rw [sendPwm, receiveAll_send hsent, receive_views_ofBytes c (by decide), pwmPayload,
    receivePins_pwmWrite]

lemma views_replayPin (hsent : h.firmwareUpdateActive = false) (i : Fin 7) (c : Settings) :
    (receiveAll c (replayPin h i)).views = if (h.pins i).mode = .disabled then c.views
      else update c.views (lpcIndex i) (replayedView i (h.pins i)) := by
  rw [replayPin]
  by_cases hd : (h.pins i).mode = .disabled
  · rw [if_neg (not_not.mpr hd), if_pos hd]
    rfl
  · rw [if_pos hd, if_neg hd, replayedView, receiveAll_append]
    by_cases hp : (h.pins i).mode = .pwm ∧ (h.pins i).pwmFrequency ≠ 0
    · rw [if_pos hp, if_pos hp, views_sendPwm hsent, views_sendGpioConfig hsent, Views.configure,
        update_idem, update_self]
    · rw [if_neg hp, if_neg hp]
      exact views_sendGpioConfig hsent i c

lemma views_replayPins (hsent : h.firmwareUpdateActive = false) (is : List (Fin 7)) (i : Fin 7)
    (c : Settings) : (receiveAll c (is.flatMap (replayPin h))).views (lpcIndex i) =
      if i ∈ is ∧ (h.pins i).mode ≠ .disabled then replayedView i (h.pins i)
      else c.views (lpcIndex i) := by
  induction is generalizing c with
  | nil => simp [receiveAll]
  | cons j is ih =>
    rw [List.flatMap_cons, receiveAll_append, ih, views_replayPin hsent]
    by_cases hj : i = j
    · subst hj
      by_cases hd : (h.pins i).mode = .disabled <;> simp [hd]
    · have hne : lpcIndex i ≠ lpcIndex j := fun h => hj (lpcIndex_injective h)
      by_cases hd : (h.pins j).mode = .disabled <;> simp [hd, hj, update_of_ne hne]

/-- The frames change no pin. -/
def SparesPins (frames : List Frame) : Prop := ∀ c, (receiveAll c frames).views = c.views

lemma SparesPins.append {frames frames' : List Frame} (h : SparesPins frames)
    (h' : SparesPins frames') : SparesPins (frames ++ frames') := by
  intro c
  rw [receiveAll_append, h', h]

lemma SparesPins.ite {frames : List Frame} (h : SparesPins frames) (b : Bool) :
    SparesPins (if b then frames else []) := by
  cases b with
  | false => exact fun _ => rfl
  | true => exact h

lemma sparesPins_send (hsent : h.firmwareUpdateActive = false) {t : MessageType}
    (hr : t ≠ .configurationReset) (hc : t ≠ .gpioConfig) (hw : t ≠ .gpioWrite)
    (hp : t ≠ .pwmWrite) (payload : List UInt8) : SparesPins (send h t payload) := by
  intro c
  rw [receiveAll_send hsent, receive_views_ofBytes c hr, receivePins_ofBytes_other _ hc hw hp]

lemma sparesPins_replayHeater (hsent : h.firmwareUpdateActive = false) :
    SparesPins (replayHeater h) := by
  have hother := fun t hr hc hw hp => sparesPins_send (h := h) hsent (t := t) hr hc hw hp
  refine (((hother _ ?_ ?_ ?_ ?_ _).ite _).append ((((hother _ ?_ ?_ ?_ ?_ _).append
    (hother _ ?_ ?_ ?_ ?_ _)).append (hother _ ?_ ?_ ?_ ?_ _)).ite _)).append
      ((hother _ ?_ ?_ ?_ ?_ _).ite _) |>.append ((hother _ ?_ ?_ ?_ ?_ _).ite _)
  all_goals decide

/-- What a replay makes of a pin depends on the pin's entry alone. -/
lemma views_restored (hsent : h.firmwareUpdateActive = false) (i : Fin 7) :
    (restored h).views (lpcIndex i) = replayedView i (h.pins i) := by
  rw [restored, replayConfiguration, receiveAll_append, receiveAll_append, receiveAll_append,
    sparesPins_send hsent (by decide) (by decide) (by decide) (by decide),
    sparesPins_replayHeater hsent, views_replayPins hsent, receiveAll_send hsent,
    receive_reset resets_reset, views_defaults]
  by_cases hd : (h.pins i).mode = .disabled
  · simp [hd, replayedView]
    rfl
  · simp [hd]

end Replay

end RepRapFirmware.Host.PinReplay
