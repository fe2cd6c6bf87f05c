import Mathlib
import RepRapFirmware.Host.LpcHeater
import RepRapFirmware.LpcFirmware.Reception
import RepRapFirmware.LpcFirmware.SteadyLoop
import RepRapFirmware.LpcFirmware.TemperatureLimit

/-! The fan PWM that the host reports to the heater of the LPC, and the one that the LPC takes into
account. -/

namespace RepRapFirmware.Host.FeedForward

open Library.Runs Shared.LpcProtocol Shared.Payload LpcHeater
open LpcFirmware LpcFirmware.Thermal LpcFirmware.Gpio LpcFirmware.Effects LpcFirmware.FaultLatch
open LpcFirmware.SteadyLoop LpcFirmware.Configuration LpcFirmware.Reception

/-- What the heater of the host has of feed-forward. -/
structure Heater where
  lastFanPwm : Float32
  extrusionPwmBoost : Float32
  extrusionTemperatureBoost : Float32

def feedForwardPayload (t : Heater) : Vector UInt8 12 :=
  ⟨(putFloat t.lastFanPwm ++ putFloat t.extrusionPwmBoost ++
    putFloat t.extrusionTemperatureBoost).toArray, rfl⟩

/-- `ConfigureHeaterFeedForward`, as `SendFeedForward` calls it -/
def sendFeedForward (t : Heater) (h : LpcInterface.State) : LpcInterface.State × List Frame :=
  let configured := { h with heater := { h.heater with
    feedForwardPayload := feedForwardPayload t
    feedForwardConfigured := true } }
  (configured, if configured.online then
    LpcInterface.send configured .heaterFeedForward (feedForwardPayload t).toList else [])

/-- Host and LPC with the frames on their way. The last fields are history, which no function
reads: how often the host's fan PWM has changed; how often it had when the cached message was made,
with which each frame to the LPC is stamped; and the stamp of the last feed-forward message that
the LPC has handled with its heater stable, as long as its configuration is not reset. -/
structure System where
  host : LpcInterface.State
  heater : Heater
  lpc : MainLoop.State
  toLpc : List (Frame × ℕ)
  toHost : List Frame
  reports : ℕ
  cached : ℕ
  heard : Option ℕ

def IsFeedForward (f : Frame) : Prop := MessageType.ofCode f.type = some .heaterFeedForward

instance (f : Frame) : Decidable (IsFeedForward f) := inferInstanceAs (Decidable (_ = _))

def IsReset (f : Frame) : Prop :=
  MessageType.ofCode f.type = some .configurationReset ∧ f.length = 0

instance (f : Frame) : Decidable (IsReset f) := inferInstanceAs (Decidable (_ ∧ _))

inductive Action
  -- The host's clock, the end of its `Spin`, and one frame that it takes from the link.
  | tick | keepAlive | receive
  | setFanFeedForwardPwm (pwm : Float32)
  | setExtrusionFeedForward (pwmBoost tempBoost : Float32)
  | resetHeater | switchOff
  -- `SwitchOn` sends the model and the configuration first.
  | switchOn (setup : List Frame) (h : ∀ f ∈ setup, ¬ IsFeedForward f) (target : Float32)
  -- Any other frame that the host sends.
  | send (frame : Frame) (h : ¬ IsFeedForward frame)
  -- The LPC takes one frame from the link, or does something of itself.
  | process (adc : Adc)
  | own (a : MainLoop.Action) (h : ∀ frame adc, a ≠ .frame frame adc)

/-- The frame is a feed-forward message that the LPC handles with its heater stable. -/
def Taken (lpc : MainLoop.State) (f : Frame) : Prop :=
  IsFeedForward f ∧ f.length = 12 ∧ AcceptsFeedForward f.payload ∧ lpc.thermal.state = .stable

instance (lpc : MainLoop.State) (f : Frame) : Decidable (Taken lpc f) :=
  inferInstanceAs (Decidable (_ ∧ _))

def post (s : System) (fs : List Frame) : System :=
  { s with toLpc := s.toLpc ++ fs.map (·, s.cached) }

/-- The host's heater sends its feed-forward values. -/
def feedForward (s : System) : System :=
  let r := sendFeedForward s.heater s.host
  post { s with host := r.1, cached := s.reports } r.2

section Step

variable [Libm]

def step (s : System) : Action → System
  | .tick => { s with host := { s.host with millis := s.host.millis + 1 } }
  | .keepAlive =>
    let r := LpcInterface.keepAlive s.host
    post { s with host := r.1 } r.2
  | .receive =>
    match s.toHost with
    | [] => s
    | f :: fs =>
      let r := LpcInterface.handleFrame f s.host
      post { s with host := r.1, toHost := fs } r.2
  | .setFanFeedForwardPwm pwm =>
    if pwm != s.heater.lastFanPwm then
      feedForward { s with
        heater := { s.heater with lastFanPwm := pwm }
        reports := s.reports + 1 }
    else s
  | .setExtrusionFeedForward pwmBoost tempBoost =>
    feedForward { s with heater :=
      ⟨s.heater.lastFanPwm, pwmBoost, tempBoost⟩ }
  | .resetHeater => { s with heater := ⟨0.0, 0.0, 0.0⟩, reports := s.reports + 1 }
  | .switchOff =>
    post { s with heater := ⟨s.heater.lastFanPwm, 0.0, 0.0⟩ }
      (LpcInterface.commandHeater s.host .off 0.0)
  | .switchOn setup _ target =>
    match LpcInterface.getThermalStatus s.host with
    | none => s
    | some status =>
      if status.state = .fault then s
      else
        let fed := feedForward (post s setup)
        post fed (LpcInterface.commandHeater fed.host .on target)
  | .send frame _ => post s [frame]
  | .process adc =>
    match s.toLpc with
    | [] => s
    | (f, stamp) :: fs =>
      let r := MainLoop.act s.lpc (.frame f adc)
      { s with
        lpc := r.1
        toLpc := fs
        toHost := s.toHost ++ r.2
        heard := if IsReset f then none else if Taken s.lpc f then some stamp else s.heard }
  | .own a _ =>
    let r := MainLoop.act s.lpc a
    { s with
      lpc := r.1
      toHost := s.toHost ++ r.2
      heard := match a with
        | .reset _ => none
        | _ => s.heard }

end Step

/-- Host and LPC have been started. -/
def start (hardware : Board) : System :=
  let r := LpcInterface.init
  post ⟨r.1, ⟨0.0, 0.0, 0.0⟩, MainLoop.powerUp hardware, [], [], 0, 0, none⟩ r.2

/-- The numbers are the same, or compare equal. -/
def Agrees (x y : Float32) : Prop := x = y ∨ (x == y) = true

instance (x y : Float32) : Decidable (Agrees x y) := inferInstanceAs (Decidable (_ ∨ _))

/-- The LPC's fan PWM is what the host reported last. -/
def Converged (s : System) : Prop :=
  Agrees (clamp s.heater.lastFanPwm 0.0 1.0) s.lpc.thermal.loop.fanPwm

instance (s : System) : Decidable (Converged s) := inferInstanceAs (Decidable (Agrees _ _))

/-- No frame is on its way. -/
def Quiescent (s : System) : Prop := s.toLpc = [] ∧ s.toHost = []

instance (s : System) : Decidable (Quiescent s) := inferInstanceAs (Decidable (_ ∧ _))

/-! ### The message that the host has cached -/

/-- The frame carries the host's present fan PWM. -/
def Carries (t : Heater) (f : Frame) : Prop :=
  ∃ t' : Heater, t'.lastFanPwm = t.lastFanPwm ∧
    f = Frame.ofBytes .heaterFeedForward (feedForwardPayload t').toList

structure Inv (s : System) : Prop where
  cached_le : s.cached ≤ s.reports
  stamps : ∀ m ∈ s.toLpc, m.2 ≤ s.cached
  payload : s.host.heater.feedForwardConfigured = true → s.cached = s.reports →
    ∃ t : Heater, t.lastFanPwm = s.heater.lastFanPwm ∧
      s.host.heater.feedForwardPayload = feedForwardPayload t
  carries : ∀ m ∈ s.toLpc, IsFeedForward m.1 → m.2 = s.reports → Carries s.heater m.1
  heard_le : ∀ n, s.heard = some n → n ≤ s.cached
  converged : s.heard = some s.reports → Converged s

/-! ### What the host sends -/

section Sent

variable {t : Heater} {h : LpcInterface.State} {f : Frame} {type : MessageType}
  {payload : List UInt8}

lemma carries_payload (t : Heater) :
    Carries t (Frame.ofBytes .heaterFeedForward (feedForwardPayload t).toList) := ⟨t, rfl, rfl⟩

lemma Carries.fan (hf : Carries t f) : readFloat f.payload 0 = t.lastFanPwm := by
  obtain ⟨t', hfan, rfl⟩ := hf
  rw [← hfan]
  exact readFloat_putFloat _ t'.lastFanPwm _

lemma mem_send (hf : f ∈ LpcInterface.send h type payload) : f = Frame.ofBytes type payload := by
  rw [LpcInterface.send] at hf
  split_ifs at hf
  · exact absurd hf List.not_mem_nil
  · exact List.mem_singleton.mp hf

lemma not_feedForward_send (htype : type ≠ .heaterFeedForward)
    (hf : f ∈ LpcInterface.send h type payload) : ¬ IsFeedForward f := by
  rw [mem_send hf, IsFeedForward, type_ofBytes]
  exact fun heq => htype (Option.some.inj heq)

/-- Of the frames that are replayed only the cached message carries feed-forward. -/
lemma feedForward_replay (hf : f ∈ LpcInterface.replayConfiguration h) (hfeed : IsFeedForward f) :
    h.heater.feedForwardConfigured = true ∧
      f = Frame.ofBytes .heaterFeedForward h.heater.feedForwardPayload.toList := by
  have hother {type : MessageType} {payload : List UInt8} (htype : type ≠ .heaterFeedForward)
      (hmem : f ∈ LpcInterface.send h type payload) : False :=
    not_feedForward_send htype hmem hfeed
  rw [LpcInterface.replayConfiguration] at hf
  simp only [List.mem_append] at hf
  obtain ((hf | hf) | hf) | hf := hf
  · exact (hother (by decide) hf).elim
  · obtain ⟨i, -, hf⟩ := List.mem_flatMap.mp hf
    rw [LpcInterface.replayPin] at hf
    split_ifs at hf
    · obtain hf | hf := List.mem_append.mp hf
      · exact (hother (by decide) hf).elim
      · exact (hother (by decide) hf).elim
    · rw [List.append_nil] at hf
      exact (hother (by decide) hf).elim
    · exact absurd hf List.not_mem_nil
  · rw [LpcInterface.replayHeater] at hf
    simp only [List.mem_append] at hf
    obtain ((hf | hf) | hf) | hf := hf
    · split_ifs at hf
      · exact (hother (by decide) hf).elim
      · exact absurd hf List.not_mem_nil
    · split_ifs at hf
      · simp only [List.mem_append] at hf
        obtain (hf | hf) | hf := hf
        · exact (hother (by decide) hf).elim
        · exact (hother (by decide) hf).elim
        · exact (hother (by decide) hf).elim
      · exact absurd hf List.not_mem_nil
    · split_ifs at hf
      · exact (hother (by decide) hf).elim
      · exact absurd hf List.not_mem_nil
    · split_ifs at hf with hconfigured
      · exact ⟨hconfigured, mem_send hf⟩
      · exact absurd hf List.not_mem_nil
  · exact (hother (by decide) hf).elim

/-- What the host takes from the link leaves its cached message alone, and only a replay sends
it. -/
lemma handleFrame_feedForward (g : Frame) :
    (LpcInterface.handleFrame g h).1.heater = h.heater ∧
      ∀ f ∈ (LpcInterface.handleFrame g h).2, IsFeedForward f →
        h.heater.feedForwardConfigured = true ∧
          f = Frame.ofBytes .heaterFeedForward h.heater.feedForwardPayload.toList := by
  rw [LpcInterface.handleFrame]
  split
  · rw [LpcInterface.handlePong]
    split_ifs with hbad
    · exact ⟨rfl, List.forall_mem_nil _⟩
    · extract_lets reconnected dropped connected
      have hheater : connected.heater = h.heater := by
        change (if reconnected then LpcInterface.setOffline h else h).heater = h.heater
        split_ifs <;> rfl
      refine ⟨hheater, fun f hf hfeed => ?_⟩
      by_cases hreconnected : reconnected = true
      · rw [if_pos hreconnected] at hf
        rw [← hheater]
        exact feedForward_replay hf hfeed
      · rw [if_neg hreconnected] at hf
        exact absurd hf List.not_mem_nil
  · refine ⟨?_, List.forall_mem_nil _⟩
    dsimp only
    rw [LpcInterface.handleGpioState]
    split_ifs
    · rfl
    · split <;> rfl
  · refine ⟨?_, List.forall_mem_nil _⟩
    dsimp only
    rw [LpcInterface.handleThermalStatus]
    split <;> rfl
  · exact ⟨rfl, List.forall_mem_nil _⟩

lemma keepAlive_feedForward : (LpcInterface.keepAlive h).1.heater = h.heater ∧
    ∀ f ∈ (LpcInterface.keepAlive h).2, ¬ IsFeedForward f := by
  rw [LpcInterface.keepAlive]
  split_ifs
  · exact ⟨rfl, fun f hf => not_feedForward_send (by decide) hf⟩
  · exact ⟨rfl, fun f hf => not_feedForward_send (by decide) hf⟩
  · exact ⟨rfl, List.forall_mem_nil _⟩
  · exact ⟨rfl, List.forall_mem_nil _⟩

lemma commandHeater_feedForward (command : HeaterCommand) (target : Float32) :
    ∀ f ∈ LpcInterface.commandHeater h command target, ¬ IsFeedForward f := by
  rw [LpcInterface.commandHeater]
  split_ifs
  · exact fun f hf => not_feedForward_send (by decide) hf
  · exact List.forall_mem_nil _

lemma sendFeedForward_carries : ∀ f ∈ (sendFeedForward t h).2, Carries t f := by
  rw [sendFeedForward]
  split_ifs
  · intro f hf
    rw [mem_send hf]
    exact carries_payload t
  · exact List.forall_mem_nil _

end Sent

/-! ### What the LPC makes of a message -/

section Handled

lemma accepts_iff (payload : Payload) : AcceptsFeedForward payload ↔
    ¬ (!(readFloat payload 0).isFinite || !(readFloat payload 4).isFinite
      || !(readFloat payload 8).isFinite) = true := by
  simp only [AcceptsFeedForward, Bool.or_eq_true, Bool.not_eq_true', not_or, Bool.not_eq_false,
    and_assoc]

variable [Libm] {lpc : MainLoop.State} {f : Frame} {adc : Adc}

lemma handleFrame_feed (hf : IsFeedForward f) :
    (MainLoop.handleFrame f adc lpc).1.thermal =
      configureFeedForward f.payload f.length lpc.thermal := by
  rw [IsFeedForward] at hf
  rw [MainLoop.handleFrame, hf]
  dsimp only
  rw [Thermal.handleFrame, hf]

variable (adc) in
lemma fan_taken (h : Taken lpc f) :
    Agrees (clamp (readFloat f.payload 0) 0.0 1.0)
      (MainLoop.handleFrame f adc lpc).1.thermal.loop.fanPwm := by
  obtain ⟨hfeed, hlength, haccepts, hstable⟩ := h
  rw [handleFrame_feed hfeed, configureFeedForward, if_neg (not_not.mpr hlength)]
  dsimp only
  rw [if_neg ((accepts_iff _).mp haccepts), if_pos hstable]
  split_ifs with hchanged
  · exact .inl rfl
  · exact .inr (by simpa [bne] using hchanged)

variable (adc) in
lemma fan_kept (hreset : ¬ IsReset f) (htaken : ¬ Taken lpc f) :
    (MainLoop.handleFrame f adc lpc).1.thermal.loop.fanPwm = lpc.thermal.loop.fanPwm := by
  by_cases hfeed : IsFeedForward f
  · rw [handleFrame_feed hfeed, configureFeedForward]
    by_cases hlength : f.length = 12
    · rw [if_neg (not_not.mpr hlength)]
      by_cases haccepts : AcceptsFeedForward f.payload
      · have hstable : lpc.thermal.state ≠ .stable := fun h =>
          htaken ⟨hfeed, hlength, haccepts, h⟩
        dsimp only
        rw [if_neg ((accepts_iff _).mp haccepts), if_neg hstable]
      · dsimp only
        rw [if_pos (not_not.mp (mt (accepts_iff _).mpr haccepts)), setFault_loop]
    · rw [if_pos hlength]
  · exact (steady_frame hreset hfeed).fan

lemma fan_own {a : MainLoop.Action} (hframe : ∀ frame adc, a ≠ .frame frame adc)
    (hreset : ∀ hardware, a ≠ .reset hardware) :
    (MainLoop.act lpc a).1.thermal.loop.fanPwm = lpc.thermal.loop.fanPwm := by
  cases a with
  | tick => exact (steady_tick lpc.thermal).fan
  | spin adc =>
    change (Thermal.spin adc lpc.thermal).loop.fanPwm = _
    rw [Thermal.spin]
    split_ifs
    · have hrecorded (t : Thermal.State) :
          feedForwardOf (Effects.recorded adc t).1 = feedForwardOf t.loop := by
        rw [Effects.recorded, feedForwardOf_recordSample, feedForwardOf_sample]
      rw [(steady_control adc _).fan]
      exact congrArg Configuration.FeedForward.fanPwm (hrecorded _)
    · rfl
  | frame frame adc => exact absurd rfl (hframe frame adc)
  | poll => exact steady_pollPin.fan
  | status => exact steady_sendStatus.fan
  | lines line => rfl
  | reset hardware => exact absurd rfl (hreset hardware)

end Handled

/-! ### Runs -/

section Runs

variable {s : System} {fs : List Frame}

/-- The frames can be sent with the stamp of the cached message. -/
def Sendable (s : System) (fs : List Frame) : Prop :=
  ∀ f ∈ fs, IsFeedForward f → s.cached = s.reports → Carries s.heater f

lemma sendable_of_other (h : ∀ f ∈ fs, ¬ IsFeedForward f) : Sendable s fs :=
  fun f hf hfeed => absurd hfeed (h f hf)

lemma Inv.post (h : Inv s) (hfs : Sendable s fs) : Inv (post s fs) where
  cached_le := h.cached_le
  stamps := by
    intro m hm
    obtain hm | hm := List.mem_append.mp hm
    · exact h.stamps m hm
    · obtain ⟨f, -, rfl⟩ := List.mem_map.mp hm
      exact le_rfl
  payload := h.payload
  carries := by
    intro m hm hfeed hstamp
    obtain hm | hm := List.mem_append.mp hm
    · exact h.carries m hm hfeed hstamp
    · obtain ⟨f, hf, rfl⟩ := List.mem_map.mp hm
      exact hfs f hf hfeed hstamp
  heard_le := h.heard_le
  converged := h.converged

lemma Inv.withHost (h : Inv s) {host : LpcInterface.State} {toHost : List Frame}
    (hheater : host.heater = s.host.heater) : Inv { s with host := host, toHost := toHost } where
  cached_le := h.cached_le
  stamps := h.stamps
  payload := by
    change host.heater.feedForwardConfigured = true → _ → ∃ t : Heater, _ ∧
      host.heater.feedForwardPayload = _
    rw [hheater]
    exact h.payload
  carries := h.carries
  heard_le := h.heard_le
  converged := h.converged

/-- A new report makes everything on its way old. -/
lemma Inv.report (h : Inv s) (t : Heater) :
    Inv { s with heater := t, reports := s.reports + 1 } where
  cached_le := Nat.le_succ_of_le h.cached_le
  stamps := h.stamps
  payload := fun _ hcached => absurd h.cached_le (by change s.cached = s.reports + 1 at hcached; omega)
  carries := by
    intro m hm _ hstamp
    have hle := (h.stamps m hm).trans h.cached_le
    change m.2 = s.reports + 1 at hstamp
    omega
  heard_le := h.heard_le
  converged := by
    intro hheard
    have hle := (h.heard_le _ hheard).trans h.cached_le
    change s.reports + 1 ≤ s.reports at hle
    omega

lemma Inv.withBoosts (h : Inv s) {t : Heater} (ht : t.lastFanPwm = s.heater.lastFanPwm) :
    Inv { s with heater := t } where
  cached_le := h.cached_le
  stamps := h.stamps
  payload := by
    intro hconfigured hcached
    obtain ⟨t', hfan, hpayload⟩ := h.payload hconfigured hcached
    exact ⟨t', hfan.trans ht.symm, hpayload⟩
  carries := by
    intro m hm hfeed hstamp
    obtain ⟨t', hfan, hframe⟩ := h.carries m hm hfeed hstamp
    exact ⟨t', hfan.trans ht.symm, hframe⟩
  heard_le := h.heard_le
  converged := by
    intro hheard
    have hconverged := h.converged hheard
    rw [Converged] at hconverged ⊢
    rwa [ht]

lemma Inv.feedForward (h : Inv s) : Inv (feedForward s) := by
  apply Inv.post
  · exact {
      cached_le := le_rfl
      stamps := fun m hm => (h.stamps m hm).trans h.cached_le
      payload := fun _ _ => ⟨s.heater, rfl, rfl⟩
      carries := h.carries
      heard_le := fun n hn => (h.heard_le n hn).trans h.cached_le
      converged := h.converged }
  · exact fun f hf _ _ => sendFeedForward_carries f hf

variable [Libm]

lemma Inv.receive (h : Inv s) : Inv (step s .receive) := by
  rw [step]
  split
  · exact h
  · next g gs htoHost =>
    obtain ⟨hheater, hsent⟩ := handleFrame_feedForward (h := s.host) g
    apply (h.withHost hheater).post
    intro f hf hfeed hcached
    obtain ⟨hconfigured, rfl⟩ := hsent f hf hfeed
    obtain ⟨t, hfan, hpayload⟩ := h.payload hconfigured hcached
    rw [hpayload]
    exact ⟨t, hfan, rfl⟩

lemma Inv.process (h : Inv s) (adc : Adc) : Inv (step s (.process adc)) := by
  rw [step]
  split
  · exact h
  · next f stamp fs htoLpc =>
    have hmem : (f, stamp) ∈ s.toLpc := htoLpc ▸ List.mem_cons_self
    have hrest {m : Frame × ℕ} (hm : m ∈ fs) : m ∈ s.toLpc :=
      htoLpc ▸ List.mem_cons_of_mem _ hm
    refine ⟨h.cached_le, fun m hm => h.stamps m (hrest hm), h.payload,
      fun m hm => h.carries m (hrest hm), ?_, ?_⟩
    · intro n hn
      dsimp only at hn
      split_ifs at hn with hreset htaken
      · exact Option.some.inj hn ▸ h.stamps _ hmem
      · exact h.heard_le n hn
    · intro hheard
      dsimp only at hheard
      split_ifs at hheard with hreset htaken
      · have hcarries := h.carries _ hmem htaken.1 (Option.some.inj hheard)
        have hagrees := fan_taken adc htaken
        rw [hcarries.fan] at hagrees
        exact hagrees
      · have hconverged := h.converged hheard
        rw [Converged] at hconverged ⊢
        rwa [← fan_kept adc hreset htaken] at hconverged

lemma Inv.own (h : Inv s) (a : MainLoop.Action) (ha : ∀ frame adc, a ≠ .frame frame adc) :
    Inv (step s (.own a ha)) := by
  refine ⟨h.cached_le, h.stamps, h.payload, h.carries, ?_, ?_⟩
  · intro n hn
    cases a with
    | reset hardware => exact absurd hn (Option.some_ne_none n).symm
    | _ => exact h.heard_le n hn
  · intro hheard
    have hreset : ∀ hardware, a ≠ .reset hardware := by
      rintro hardware rfl
      exact absurd hheard (Option.some_ne_none _).symm
    have hconverged : Converged s := by
      cases a with
      | reset hardware => exact absurd rfl (hreset hardware)
      | _ => exact h.converged hheard
    rw [Converged] at hconverged ⊢
    rwa [← fan_own ha hreset] at hconverged

lemma Inv.step (h : Inv s) (a : Action) : Inv (step s a) := by
  cases a with
  | tick => exact h.withHost rfl
  | keepAlive =>
    obtain ⟨hheater, hsent⟩ := keepAlive_feedForward (h := s.host)
    exact (h.withHost hheater).post (sendable_of_other hsent)
  | receive => exact h.receive
  | setFanFeedForwardPwm pwm =>
    rw [FeedForward.step]
    split_ifs
    · exact (h.report _).feedForward
    · exact h
  | setExtrusionFeedForward pwmBoost tempBoost =>
    apply Inv.feedForward
    exact h.withBoosts rfl
  | resetHeater => exact h.report _
  | switchOff =>
    apply Inv.post
    · exact h.withBoosts rfl
    · exact sendable_of_other (commandHeater_feedForward _ _)
  | switchOn setup hsetup target =>
    rw [FeedForward.step]
    split
    · exact h
    · split_ifs
      · exact h
      · exact (h.post (sendable_of_other hsetup)).feedForward.post
          (sendable_of_other (commandHeater_feedForward _ _))
  | send frame hframe => exact h.post (sendable_of_other (List.forall_mem_singleton.mpr hframe))
  | process adc => exact h.process adc
  | own a ha => exact h.own a ha

omit [Libm] in
lemma inv_start (hardware : Board) : Inv (start hardware) := by
  have hblank : Inv ⟨LpcInterface.init.1, ⟨0.0, 0.0, 0.0⟩, MainLoop.powerUp hardware, [], [], 0, 0,
      none⟩ := ⟨le_rfl, List.forall_mem_nil _, nofun, List.forall_mem_nil _, nofun, nofun⟩
  apply hblank.post
  apply sendable_of_other
  intro f hf
  have hping : f ∈ LpcInterface.send LpcInterface.blank .ping [version] := hf
  exact not_feedForward_send (by decide) hping

end Runs

section Example

open FaultLatch TemperatureLimit

lemma status_own (frame : Frame) (adc : Adc) :
    MainLoop.Action.status ≠ .frame frame adc := by
  simp

/-- The host and the LPC connect, and the host gets a status. -/
def connected : List Action :=
  [.process (steadyAdc 512), .receive, .process (steadyAdc 512), .process (steadyAdc 512),
    .send thermistorFrame (by decide), .process (steadyAdc 512),
    .own .status status_own, .receive]

/-- The fan is set to one half while the heater is off, and the heater is switched on. -/
def fanBeforeHeater : List Action :=
  [.setFanFeedForwardPwm 0.5, .process (steadyAdc 512), .keepAlive,
    .switchOn (heaterModelFrames ++ [heaterFrame 0x54 0x0B]) (by decide) 25.0] ++
  List.replicate 6 (.process (steadyAdc 512)) ++ [.own .status status_own, .receive]

/-- The next change of the fan is heard. -/
def fanChanged : List Action :=
  connected ++ fanBeforeHeater ++ [.setFanFeedForwardPwm 0.25, .process (steadyAdc 512)]

end Example

end RepRapFirmware.Host.FeedForward
