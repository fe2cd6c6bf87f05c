import RepRapFirmware.Host.PinReplay

/-! The pins of the LPC while the host, online, changes them one at a time, and the configuration
that a replay of the host's tables would give them instead. -/

namespace RepRapFirmware.Host.PinUpdates

open Library.Runs Shared.LpcProtocol Shared.Payload LpcInterface Replay PinReplay Function
open LpcFirmware LpcFirmware.Thermal LpcFirmware.Gpio LpcFirmware.Outputs LpcFirmware.PinViews
open LpcFirmware.Configuration LpcFirmware.Reception

/-- The host, the LPC, and the frames on their way to it. -/
structure Link where
  host : LpcInterface.State
  lpc : MainLoop.State
  toLpc : List Frame

/-- The LPC does something of itself. -/
def Own (a : MainLoop.Action) : Prop := received a = none ∧ ∀ hardware, a ≠ .reset hardware

inductive Action
  | setPinMode (pin : UInt8) (mode : PinMode)
  | writePin (pin : UInt8) (high : Bool)
  | writePwm (pin : UInt8) (duty : Float32) (frequency : UInt16)
  -- The LPC reports the level of an input; only a pin that can be read is ever one.
  | reported (i : Fin 7) (readable : Capable i PinCapability.read) (value : Bool)
  | deliver (adc : Adc)
  | own (a : MainLoop.Action) (h : Own a)

def Link.call (l : Link) (r : LpcInterface.State × List Frame) : Link := ⟨r.1, l.lpc,
    l.toLpc ++ r.2⟩

structure Inv (l : Link) : Prop where
  online : l.host.online
  sending : l.host.firmwareUpdateActive = false
  resting : Resting (settings l.lpc)
  configures : ∀ f ∈ l.toLpc, Configures f

/-- From `l` to `l'` the host made `c` the entry of pin `i`, and sent one frame. -/
def Changes (l l' : Link) (i : Fin 7) (c : PinCache) (t : MessageType) (payload : List UInt8) :
    Prop :=
  ∃ host : LpcInterface.State, host.pins = update l.host.pins i c ∧
    host.online = l.host.online ∧ host.firmwareUpdateActive = l.host.firmwareUpdateActive ∧
      l' = ⟨host, l.lpc, l.toLpc ++ send host t payload⟩

section Host

variable {l : Link}

/-- A call changes one entry and one pin. -/
lemma agree_update {v : Views} {pins : Fin 7 → PinCache}
    (h : ∀ j, v (lpcIndex j) = replayedView j (pins j)) (i : Fin 7) (x : View) (c : PinCache) :
    (∀ j, update v (lpcIndex i) x (lpcIndex j) = replayedView j (update pins i c j)) ↔
      x = replayedView i c := by
  constructor
  · intro hall
    simpa using hall i
  · rintro rfl j
    by_cases hj : j = i
    · subst hj
      simp
    · rw [update_of_ne fun hi => hj (lpcIndex_injective hi), update_of_ne hj, h j]

lemma pins_setPin (h : LpcInterface.State) (i : Fin 7) (c : PinCache) (hc : Allowed i c.mode) :
    (setPin i c hc h).pins = update h.pins i c := rfl

lemma setPinMode_of_accepted (h : LpcInterface.State) {pin : UInt8} {mode : PinMode} {i : Fin 7}
    {capability : UInt8} {m : GpioMode} {v : Option Bool} (hi : pinIndex pin = some i)
    (hm : modeChange mode = some (capability, m, v)) (hc : Capable i capability) :
    setPinMode h pin mode =
      let changed := setPin i (setMode (h.pins i) m v) (allowed_of_modeChange hm hc) h
      (changed, if changed.online then sendGpioConfig changed i else [], true) := by
  simp only [setPinMode, hi]
  split
  · next hm' => cases hm'.symm.trans hm
  · next hm' =>
    cases hm'.symm.trans hm
    rw [dif_pos hc]

lemma setPinMode_of_refused (h : LpcInterface.State) {pin : UInt8} {mode : PinMode}
    (hno : ∀ i capability m v, pinIndex pin = some i → modeChange mode = some (capability, m, v) →
      ¬ Capable i capability) : setPinMode h pin mode = (h, [], false) := by
  rw [setPinMode]
  split
  · rfl
  · next i hi =>
    split
    · rfl
    · next capability m v hm => rw [dif_neg (hno i capability m v hi hm)]

lemma find_lpcPinIds (i : Fin 7) :
    (List.finRange 7).find? (fun j => lpcPinIds.get j = lpcPinIds.get i) = some i := by
  revert i
  decide

lemma Changes.inv {l' : Link} {i : Fin 7} {c : PinCache} {t : MessageType}
    {payload : List UInt8} (hc : Changes l l' i c t payload) (hI : Inv l)
    (hframe : Configures (Frame.ofBytes t payload)) : Inv l' := by
  obtain ⟨host, -, honline, hsending, rfl⟩ := hc
  refine ⟨honline.trans hI.online, hsending.trans hI.sending, hI.resting, fun f hf => ?_⟩
  rcases List.mem_append.mp hf with hf | hf
  · exact hI.configures f hf
  · rwa [mem_send host hf]

end Host

section Updates

variable [Libm]

namespace Link

variable (l : Link)

def step (l : Link) : Action → Link
  | .setPinMode pin mode =>
    let r := LpcInterface.setPinMode l.host pin mode
    l.call (r.1, r.2.1)
  | .writePin pin high => l.call (LpcInterface.writePin l.host pin high)
  | .writePwm pin duty frequency => l.call (LpcInterface.writePwm l.host pin duty frequency)
  | .reported i _ value =>
    let frame := Frame.ofBytes .gpioState [lpcPinIds.get i, if value then 1 else 0]
    { l with host := handleGpioState frame l.host }
  | .deliver adc =>
    match l.toLpc with
    | [] => l
    | f :: frames => ⟨l.host, MainLoop.step l.lpc (.frame f adc), frames⟩
  | .own a _ => { l with lpc := MainLoop.step l.lpc a }

/-- Once the frames on their way are delivered, the pins are as a replay to a reset LPC would make
them. -/
def Agrees : Prop :=
  ∀ (d : Delivery l.toLpc) (hardware : Board) (replay : Delivery (replayConfiguration l.host)) i,
    view (run MainLoop.step l.lpc d.actions).thermal.board (lpcIndex i) =
      view (run MainLoop.step (MainLoop.powerUp hardware) replay.actions).thermal.board (lpcIndex i)

end Link

/-- A host that is online, and an LPC that has processed its replay. -/
structure Start where
  host : LpcInterface.State
  online : host.online
  sending : host.firmwareUpdateActive = false
  hardware : Board
  past : List MainLoop.Action
  replay : Delivery (replayConfiguration host)

def Start.link (s : Start) : Link :=
  ⟨s.host, run MainLoop.step (MainLoop.powerUp s.hardware) (s.past ++ s.replay.actions), []⟩

/-- The call keeps the pin's entry in line with what its frame makes of the pin. -/
def InLine (l : Link) : Action → Prop
  | .setPinMode pin mode => ∀ i, pinIndex pin = some i → Capable i PinCapability.pwm →
      mode = .outputPwmLow ∨ mode = .outputPwmHigh →
        Restorable { l.host.pins i with value := mode = .outputPwmHigh }
  | .writePin pin high => ∀ i, pinIndex pin = some i → (l.host.pins i).mode = .pwm →
      (l.host.pins i).pwmFrequency = 0 → high = (l.host.pins i).value
  | .writePwm pin duty frequency => ∀ i, pinIndex pin = some i → (channel i).isSome →
      PwmInLine (l.host.pins i) (dutyOf duty) frequency
  | _ => True

/-- The pins once the frames on their way are delivered. -/
def pending (l : Link) : Views := (receiveAll (settings l.lpc) l.toLpc).views

section Agreement

variable {l : Link}

lemma settings_pending (hI : Inv l) (d : Delivery l.toLpc) :
    settings (run MainLoop.step l.lpc d.actions) = receiveAll (settings l.lpc) l.toLpc := by
  rw [settings_run hI.resting d.running (by rw [d.arrivals]; exact hI.configures), d.arrivals]

lemma agrees_iff (hI : Inv l) :
    l.Agrees ↔ ∀ i, pending l (lpcIndex i) = replayedView i (l.host.pins i) := by
  have hpending : ∀ d : Delivery l.toLpc,
      view (run MainLoop.step l.lpc d.actions).thermal.board = pending l :=
    fun d => congrArg Settings.views (settings_pending hI d)
  have hreplay : ∀ (b : Board) (r : Delivery (replayConfiguration l.host)) (i : Fin 7),
      view (run MainLoop.step (MainLoop.powerUp b) r.actions).thermal.board (lpcIndex i) =
        replayedView i (l.host.pins i) := by
    intro b r i
    have hviews : view (run MainLoop.step (MainLoop.powerUp b) r.actions).thermal.board =
        (restored l.host).views := congrArg Settings.views (settings_replay hI.sending r)
    rw [hviews, views_restored hI.sending]
  constructor
  · intro h i
    have hi := h (Replay.deliver _ fun _ _ => 0) l.lpc.thermal.board
      (Replay.deliver _ fun _ _ => 0) i
    rwa [hpending, hreplay] at hi
  · intro h d b r i
    rw [hpending, hreplay]
    exact h i

end Agreement

section Calls

variable {l l' : Link} {i : Fin 7} {c : PinCache} {t : MessageType} {payload : List UInt8}

/-- The call keeps the link in agreement where its frame does what a replay of the new entry does.
-/
lemma Changes.agrees (hc : Changes l l' i c t payload) (hI : Inv l) (hI' : Inv l') (h : l.Agrees)
    (ht : t ≠ .configurationReset) {x : View} (hviews : receivePins (Frame.ofBytes t payload)
      (pending l) = update (pending l) (lpcIndex i) x) : l'.Agrees ↔ x = replayedView i c := by
  obtain ⟨host, hpins, -, -, rfl⟩ := hc
  have hpending : pending ⟨host, l.lpc, l.toLpc ++ send host t payload⟩ =
      update (pending l) (lpcIndex i) x := by
    rw [pending, receiveAll_append, receiveAll_send hI'.sending, receive_views_ofBytes _ ht]
    exact hviews
  rw [agrees_iff hI', hpending, hpins]
  exact agree_update ((agrees_iff hI).mp h) i x c

lemma changes_setPinMode (hI : Inv l) {pin : UInt8} {mode : PinMode} {capability : UInt8}
    {m : GpioMode} {v : Option Bool} (hi : pinIndex pin = some i)
    (hm : modeChange mode = some (capability, m, v)) (hc : Capable i capability) :
    Changes l (l.step (.setPinMode pin mode)) i (setMode (l.host.pins i) m v) .gpioConfig
      [lpcPinIds.get i, m.code, if v.getD (l.host.pins i).value then 1 else 0] := by
  refine ⟨setPin i (setMode (l.host.pins i) m v) (allowed_of_modeChange hm hc) l.host, rfl, rfl,
    rfl, ?_⟩
  have honline : (setPin i (setMode (l.host.pins i) m v) (allowed_of_modeChange hm hc)
      l.host).online = true := hI.online
  rw [Link.step, setPinMode_of_accepted l.host hi hm hc]
  simp only [honline, if_true, sendGpioConfig, gpioConfigPayload, pins_setPin, update_self]
  rfl

lemma step_setPinMode_refused {pin : UInt8} {mode : PinMode} (hno : ∀ i capability m v,
    pinIndex pin = some i → modeChange mode = some (capability, m, v) → ¬ Capable i capability) :
    l.step (.setPinMode pin mode) = l := by
  rw [Link.step, setPinMode_of_refused l.host hno, Link.call, List.append_nil]

lemma changes_writePin (hI : Inv l) {pin : UInt8} (hi : pinIndex pin = some i) (high : Bool) :
    Changes l (l.step (.writePin pin high)) i { l.host.pins i with value := high } .gpioWrite
      [lpcPinIds.get i, if high then 1 else 0] := by
  refine ⟨setPin i { l.host.pins i with value := high } (l.host.allowed i) l.host, rfl, rfl, rfl,
    ?_⟩
  have honline : (setPin i { l.host.pins i with value := high } (l.host.allowed i)
      l.host).online = true := hI.online
  rw [Link.step, LpcInterface.writePin]
  simp only [hi, honline, if_true, Link.call]

lemma changes_writePwm (hI : Inv l) {pin : UInt8} (hi : pinIndex pin = some i) (duty : Float32)
    (frequency : UInt16) :
    Changes l (l.step (.writePwm pin duty frequency)) i
      { l.host.pins i with pwmValue := dutyOf duty, pwmFrequency := frequency } .pwmWrite
      (lpcPinIds.get i :: (putU16 (dutyOf duty) ++ putU16 frequency)) := by
  refine ⟨setPin i { l.host.pins i with pwmValue := dutyOf duty, pwmFrequency := frequency }
    (l.host.allowed i) l.host, rfl, rfl, rfl, ?_⟩
  have honline : (setPin i { l.host.pins i with pwmValue := dutyOf duty, pwmFrequency := frequency }
    (l.host.allowed i) l.host).online = true := hI.online
  rw [Link.step, LpcInterface.writePwm]
  simp only [hi, honline, if_true, sendPwm, pwmPayload, pins_setPin, update_self, Link.call]

lemma step_write_refused {pin : UInt8} (hi : pinIndex pin = none) (high : Bool) (duty : Float32)
    (frequency : UInt16) :
    l.step (.writePin pin high) = l ∧ l.step (.writePwm pin duty frequency) = l := by
  simp only [Link.step, LpcInterface.writePin, LpcInterface.writePwm, hi, Link.call,
    List.append_nil, and_self]

/-- A report changes the level in the host's entry of an input. -/
lemma step_reported (hc : Capable i PinCapability.read) (value : Bool) :
    ∃ host : LpcInterface.State, host.pins = update l.host.pins i
        { l.host.pins i with value := value, stateReceived := true } ∧
      host.online = l.host.online ∧ host.firmwareUpdateActive = l.host.firmwareUpdateActive ∧
        l.step (.reported i hc value) = { l with host := host } := by
  refine ⟨setPin i { l.host.pins i with value := value, stateReceived := true } (l.host.allowed i)
    l.host, rfl, rfl, rfl, ?_⟩
  rw [Link.step, handleGpioState]
  simp only [payload_ofBytes, List.getD_cons_zero, List.getD_cons_succ, find_lpcPinIds,
    flag_ne_zero]
  rfl

lemma inv_step (hI : Inv l) (a : Action) : Inv (l.step a) := by
  cases a with
  | setPinMode pin mode =>
    by_cases hno : ∀ i capability m v, pinIndex pin = some i →
        modeChange mode = some (capability, m, v) → ¬ Capable i capability
    · rwa [step_setPinMode_refused hno]
    · push Not at hno
      obtain ⟨i, capability, m, v, hi, hm, hc⟩ := hno
      exact (changes_setPinMode hI hi hm hc).inv hI
        (configures_gpioConfig (allowed_of_modeChange hm hc) _)
  | writePin pin high =>
    cases hi : pinIndex pin with
    | none => rwa [(step_write_refused hi high 0 0).1]
    | some i => exact (changes_writePin hI hi high).inv hI (configures_ofBytes (by decide)
        (by decide))
  | writePwm pin duty frequency =>
    cases hi : pinIndex pin with
    | none => rwa [(step_write_refused hi false duty frequency).2]
    | some i =>
      exact (changes_writePwm hI hi duty frequency).inv hI
        (configures_ofBytes (by decide) (by decide))
  | reported i readable value =>
    obtain ⟨host, -, honline, hsending, hstep⟩ := step_reported (l := l) readable value
    rw [hstep]
    exact ⟨honline.trans hI.online, hsending.trans hI.sending, hI.resting, hI.configures⟩
  | deliver adc =>
    rw [Link.step]
    cases hl : l.toLpc with
    | nil => exact hI
    | cons f frames =>
      have hf := hI.configures f (hl ▸ List.mem_cons_self)
      refine ⟨hI.online, hI.sending, ?_,
        fun g hg => hI.configures g (hl ▸ List.mem_cons_of_mem f hg)⟩
      rw [settings_frame f adc hI.resting hf]
      exact resting_receive f hI.resting
  | own a ha =>
    refine ⟨hI.online, hI.sending, ?_, hI.configures⟩
    exact (settings_internal hI.resting ha.1 ha.2).symm ▸ hI.resting

lemma agrees_setPinMode (hI : Inv l) (h : l.Agrees) (pin : UInt8) (mode : PinMode) :
    (l.step (.setPinMode pin mode)).Agrees ↔ InLine l (.setPinMode pin mode) := by
  by_cases hno : ∀ i capability m v, pinIndex pin = some i →
      modeChange mode = some (capability, m, v) → ¬ Capable i capability
  · rw [step_setPinMode_refused hno]
    refine ⟨fun _ i hi hc hmode => ?_, fun _ => h⟩
    rcases hmode with rfl | rfl
    · exact absurd hc (hno i _ _ _ hi rfl)
    · exact absurd hc (hno i _ _ _ hi rfl)
  · push Not at hno
    obtain ⟨i, capability, m, v, hi, hm, hc⟩ := hno
    have hallowed := allowed_of_modeChange hm hc
    rw [(changes_setPinMode hI hi hm hc).agrees hI (inv_step hI _) h (by decide)
      (receivePins_gpioConfig _ hallowed _), configured_iff hallowed]
    constructor
    · rintro hline j hj - (rfl | rfl) <;> obtain rfl := Option.some.inj (hi.symm.trans hj) <;>
        obtain ⟨rfl, rfl, rfl⟩ := hm <;> exact hline rfl
    · rintro hline rfl
      cases mode <;> simp only [modeChange, reduceCtorEq, Option.some.injEq, Prod.mk.injEq,
        and_false,
        false_and] at hm
      · obtain ⟨rfl, -, rfl⟩ := hm
        exact hline i hi hc (.inl rfl)
      · obtain ⟨rfl, -, rfl⟩ := hm
        exact hline i hi hc (.inr rfl)

lemma agrees_step (hI : Inv l) (h : l.Agrees) (a : Action) : (l.step a).Agrees ↔ InLine l a := by
  cases a with
  | setPinMode pin mode => exact agrees_setPinMode hI h pin mode
  | writePin pin high =>
    cases hi : pinIndex pin with
    | none =>
      rw [(step_write_refused hi high 0 0).1]
      exact ⟨fun _ i hi' => by simp [hi] at hi', fun _ => h⟩
    | some i =>
      rw [(changes_writePin hI hi high).agrees hI (inv_step hI _) h (by decide)
        (receivePins_gpioWrite _ high), (agrees_iff hI).mp h, written_iff (l.host.allowed i)]
      refine ⟨fun hline j hj => ?_, fun hline => hline i hi⟩
      obtain rfl := Option.some.inj (hi.symm.trans hj)
      exact hline
  | writePwm pin duty frequency =>
    cases hi : pinIndex pin with
    | none =>
      rw [(step_write_refused hi false duty frequency).2]
      exact ⟨fun _ i hi' => by simp [hi] at hi', fun _ => h⟩
    | some i =>
      rw [(changes_writePwm hI hi duty frequency).agrees hI (inv_step hI _) h (by decide)
        (receivePins_pwmWrite _ _ _), (agrees_iff hI).mp h, pwm_iff (l.host.allowed i)]
      refine ⟨fun hline j hj => ?_, fun hline => hline i hi⟩
      obtain rfl := Option.some.inj (hi.symm.trans hj)
      exact hline
  | reported i readable value =>
    obtain ⟨host, hpins, -, -, hstep⟩ := step_reported (l := l) readable value
    have hsame : pending (l.step (.reported i readable value)) = update (pending l) (lpcIndex i)
        (pending l (lpcIndex i)) := by
      rw [hstep, update_eq_self]
      rfl
    have hhost : (l.step (.reported i readable value)).host = host := by rw [hstep]
    rw [agrees_iff (inv_step hI _), hsame, hhost, hpins, agree_update ((agrees_iff hI).mp h),
      replayedView_of_read (l.host.allowed i) readable]
    exact ⟨fun _ => trivial, fun _ => (agrees_iff hI).mp h i⟩
  | deliver adc =>
    have hsame : pending (l.step (.deliver adc)) = pending l := by
      rw [Link.step]
      cases hl : l.toLpc with
      | nil => rfl
      | cons f frames =>
        have hf := hI.configures f (hl ▸ List.mem_cons_self)
        simp only [pending, hl, receiveAll_cons, settings_frame f adc hI.resting hf]
    have hhost : (l.step (.deliver adc)).host = l.host := by
      rw [Link.step]
      split <;> rfl
    rw [agrees_iff (inv_step hI _), hsame, hhost]
    exact ⟨fun _ => trivial, fun _ => (agrees_iff hI).mp h⟩
  | own a ha =>
    have hsame : pending (l.step (.own a ha)) = pending l := by
      simp only [pending, Link.step, settings_internal hI.resting ha.1 ha.2]
    rw [agrees_iff (inv_step hI _), hsame]
    exact ⟨fun _ => trivial, fun _ => (agrees_iff hI).mp h⟩

lemma inv_start (s : Start) : Inv s.link := by
  refine ⟨s.online, s.sending, ?_, by simp [Start.link]⟩
  rw [Start.link, run_append, settings_replay s.sending]
  exact resting_restored s.host

lemma agrees_start (s : Start) : s.link.Agrees := by
  apply (agrees_iff (inv_start s)).mpr
  intro i
  have hpending : pending s.link = (restored s.host).views := by
    rw [pending, Start.link, run_append, settings_replay s.sending]
    rfl
  rw [hpending, views_restored s.sending]
  rfl

/-- The pins agree with a replay throughout exactly where every call keeps its entry in line. -/
theorem updates_agree_iff (s : Start) (as : List Action) :
    Always Link.step Link.Agrees s.link as ↔ Along Link.step InLine s.link as :=
  always_iff_along (inv_start s) (fun _ a hI => inv_step hI a) (agrees_start s)
    (fun _ a hI h => agrees_step hI h a) as

end Calls

end Updates

section Example

open FaultLatch

def hotendFan : UInt8 := UInt8.ofNat (firstLpcPin + 4)

def restartedLink : Start := ⟨restarted, rfl, rfl, restingBoard, [], restart⟩

/-- The fan runs at half speed and is then set up anew, with its output high. -/
def setUpAnew : List Action :=
  [.setPinMode hotendFan .outputPwmLow, .writePwm hotendFan 0.5 250,
    .setPinMode hotendFan .outputPwmHigh]

theorem stale_pwm_returns :
    ¬ @Link.Agrees unitLibm
      (@run _ _ (@Link.step unitLibm) (@Start.link unitLibm restartedLink) setUpAnew) := by
  intro h
  have hview := h (Replay.deliver _ (steadyAdc 512)) restingBoard
    (Replay.deliver _ (steadyAdc 512)) 4
  exact absurd hview (by decide +kernel)

end Example

end RepRapFirmware.Host.PinUpdates
