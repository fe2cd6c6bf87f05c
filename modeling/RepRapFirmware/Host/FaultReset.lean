import Mathlib
import RepRapFirmware.Host.LpcHeater
import RepRapFirmware.Library.Stamps
import RepRapFirmware.LpcFirmware.TemperatureLimit

/-! A reset of the heater's fault, and the thermal statuses that the LPC produced before it
processed the reset. -/

namespace RepRapFirmware.Host.FaultReset

open Library.Runs Library.Stamps Shared.LpcProtocol Shared.Payload LpcHeater
open LpcFirmware LpcFirmware.Thermal LpcFirmware.Gpio

/-- Host and LPC with the frames on their way. The last fields are history, which no function
reads: how many resets the host has sent; the last one that the LPC has processed, with which each
of its frames is stamped; the stamp of the status that the host has cached; and whether the host
still waits for a status that is stamped with the last reset. -/
structure System where
  host : LpcInterface.State
  heater : LpcHeater.State
  lpc : MainLoop.State
  toLpc : List (Frame × ℕ)
  toHost : List (Frame × ℕ)
  resets : ℕ
  processed : ℕ
  cached : ℕ
  awaited : Bool

inductive Action
  -- The host's clock, the end of its `Spin`, and one frame that it takes from the link.
  | tick | keepAlive | receive
  -- `Spin`, `ResetFault` and `SwitchOff` of the heater.
  | spinHeater | resetFault | switchOff
  -- `SwitchOn` and `Suspend` leave the heater in this mode.
  | activate (mode : HeaterMode) (h : mode = .heating ∨ mode = .suspended)
  -- Any other frame that the host sends.
  | send (frame : Frame)
  -- The LPC takes one frame from the link, or does something of itself.
  | process (adc : Adc)
  | own (a : MainLoop.Action) (h : ∀ frame adc, a ≠ .frame frame adc)
  -- A frame is damaged on its way.
  | loseToLpc | loseToHost

instance decidableSpinHeater : ∀ a : Action, Decidable (a = .spinHeater)
  | .spinHeater => isTrue rfl
  | .tick | .keepAlive | .receive | .resetFault | .switchOff | .activate .. | .send _ | .process _
  | .own .. | .loseToLpc | .loseToHost => isFalse nofun

def IsReset (f : Frame) : Prop :=
  MessageType.ofCode f.type = some .heaterCommand ∧ f.length = 3 ∧
    HeaterCommand.ofCode (getElem f.payload 0 byte0) = some .resetFault

instance (f : Frame) : Decidable (IsReset f) := inferInstanceAs (Decidable (_ ∧ _))

/-- The status that the host takes from a frame. -/
def statusOf (f : Frame) : Option LpcInterface.ThermalStatus :=
  if MessageType.ofCode f.type = some .thermalStatus then LpcInterface.readStatus f else none

def post (s : System) (f : Frame) : System :=
  let stamp := if IsReset f then s.resets + 1 else s.resets
  { s with
    toLpc := s.toLpc ++ [(f, stamp)]
    resets := stamp
    awaited := IsReset f || s.awaited }

def postAll (s : System) (fs : List Frame) : System := fs.foldl post s

def answer (s : System) (r : MainLoop.State × List Frame) : System :=
  { s with lpc := r.1, toHost := s.toHost ++ r.2.map (·, s.processed) }

/-- The history of the host's taking a frame. -/
def note (f : Frame) (stamp : ℕ) (s : System) : System :=
  if (statusOf f).isSome then
    { s with cached := stamp, awaited := s.awaited && stamp < s.resets }
  else s

section Step

variable [Libm]

def step (s : System) : Action → System
  | .tick => { s with host := { s.host with millis := s.host.millis + 1 } }
  | .keepAlive =>
    let r := LpcInterface.keepAlive s.host
    postAll { s with host := r.1 } r.2
  | .receive =>
    match s.toHost with
    | [] => s
    | (f, stamp) :: fs =>
      let r := LpcInterface.handleFrame f s.host
      postAll (note f stamp { s with host := r.1, toHost := fs }) r.2
  | .spinHeater =>
    let r := LpcHeater.spin s.host s.heater
    postAll { s with heater := r.heater } r.sent
  | .resetFault =>
    match LpcHeater.resetFault s.host s.heater with
    | .error _ => s
    | .ok r => postAll { s with heater := r.1 } r.2
  | .switchOff =>
    let r := LpcHeater.switchOff s.host s.heater
    postAll { s with heater := r.1 } r.2
  | .activate mode _ => { s with heater := { s.heater with mode := mode } }
  | .send f => post s f
  | .process adc =>
    match s.toLpc with
    | [] => s
    | (f, stamp) :: fs =>
      answer { s with toLpc := fs, processed := if IsReset f then stamp else s.processed }
        (MainLoop.act s.lpc (.frame f adc))
  | .own a _ => answer s (MainLoop.act s.lpc a)
  | .loseToLpc => { s with toLpc := s.toLpc.tail }
  | .loseToHost => { s with toHost := s.toHost.tail }

end Step

/-- Host and LPC have been started. -/
def start (hardware : Board) : System :=
  let r := LpcInterface.init
  postAll ⟨r.1, LpcHeater.new r.1, MainLoop.powerUp hardware, [], [], 0, 0, 0, false⟩ r.2

/-- The heater enters the fault mode for a status that the LPC produced before it processed the
last reset. -/
def UndoesReset (s : System) (a : Action) : Prop :=
  a = .spinHeater ∧ (blamed s.host s.heater).isSome ∧ s.cached < s.resets

instance (s : System) (a : Action) : Decidable (UndoesReset s a) :=
  inferInstanceAs (Decidable (_ ∧ _))

/-- The heater is not spun before the host has a status that the LPC produced after the last reset,
unless the status it has is too old to be followed, reports no fault, or finds the heater in the
fault mode. -/
def Waits (s : System) (a : Action) : Prop :=
  a = .spinHeater → s.awaited → ∀ status, LpcInterface.getThermalStatus s.host = some status →
    status.state = .fault → (checkGeneration s.host s.heater).heater.mode = .fault

/-- The stamps from the status that the host has cached to the next command that it sends. -/
def stamps (s : System) : List ℕ :=
  s.cached :: (s.toHost.map Prod.snd ++ s.processed :: (s.toLpc.map Prod.snd ++ [s.resets]))

structure Inv (s : System) : Prop where
  order : InOrder (stamps s)
  awaited : s.awaited ↔ s.cached < s.resets

section Invariant

variable {s : System}

lemma Inv.cached_le (hI : Inv s) : s.cached ≤ s.resets :=
  hI.order.le_head (by simp)

lemma Inv.own (hI : Inv s) (host : LpcInterface.State) (heater : LpcHeater.State) :
    Inv { s with host := host, heater := heater } := ⟨hI.order, hI.awaited⟩

lemma inv_post (hI : Inv s) (f : Frame) : Inv (post s f) := by
  constructor
  · have horder : InOrder ((s.cached :: (s.toHost.map Prod.snd ++ s.processed ::
        s.toLpc.map Prod.snd)) ++ [s.resets]) := by
      simpa [stamps] using hI.order
    have hstamped := horder.stamp (u := (post s f).resets) (by simp only [post]; split_ifs <;> simp)
    simpa [stamps, post] using hstamped
  · have hle := hI.cached_le
    have hawaited := hI.awaited
    by_cases hf : IsReset f
    · simp only [post, hf, if_true, decide_true, Bool.true_or, true_iff]
      omega
    · simpa only [post, hf, if_false, decide_false, Bool.false_or] using hawaited

lemma inv_postAll (hI : Inv s) (fs : List Frame) : Inv (postAll s fs) := by
  induction fs generalizing s with
  | nil => exact hI
  | cons f fs ih => exact ih (inv_post hI f)

lemma inv_answer (hI : Inv s) (r : MainLoop.State × List Frame) : Inv (answer s r) := by
  refine ⟨?_, hI.awaited⟩
  have horder : InOrder ((s.cached :: s.toHost.map Prod.snd) ++ s.processed ::
      (s.toLpc.map Prod.snd ++ [s.resets])) := hI.order
  have hrelayed := horder.relay r.2.length
  simpa [stamps, answer, Function.comp_def] using hrelayed

lemma inv_note {f : Frame} {stamp : ℕ} {fs : List (Frame × ℕ)} (hI : Inv s)
    (hl : s.toHost = (f, stamp) :: fs) (host : LpcInterface.State) :
    Inv (note f stamp { s with host := host, toHost := fs }) := by
  have horder := hI.order
  rw [stamps, hl] at horder
  have hlast : stamp ≤ s.resets :=
    (horder.sublist (List.sublist_cons_self _ _)).le_head (by simp)
  have hfirst : s.cached ≤ stamp := horder.le_head (by simp)
  have hawaited := hI.awaited
  rw [note]
  split_ifs
  · refine ⟨horder.sublist (List.sublist_cons_self _ _), ?_⟩
    simp only [Bool.and_eq_true, decide_eq_true_eq, hawaited]
    omega
  · exact ⟨horder.sublist ((List.sublist_cons_self _ _).cons_cons _), hawaited⟩

lemma inv_processed {f : Frame} {stamp : ℕ} {fs : List (Frame × ℕ)} (hI : Inv s)
    (hl : s.toLpc = (f, stamp) :: fs) :
    Inv { s with toLpc := fs, processed := if IsReset f then stamp else s.processed } := by
  refine ⟨?_, hI.awaited⟩
  have horder := hI.order
  rw [stamps, hl] at horder
  refine horder.sublist (List.Sublist.cons_cons _ ((List.Sublist.refl _).append ?_))
  split_ifs
  · exact List.sublist_cons_self _ _
  · exact (List.sublist_cons_self _ _).cons_cons _

variable [Libm]

lemma inv_step (s : System) (a : Action) (hI : Inv s) : Inv (step s a) := by
  cases a with
  | tick => exact hI.own _ _
  | keepAlive => exact inv_postAll (hI.own _ s.heater) _
  | receive =>
    rw [step]
    cases hl : s.toHost with
    | nil => exact hI
    | cons m fs => exact inv_postAll (inv_note hI hl _) _
  | spinHeater => exact inv_postAll (hI.own s.host _) _
  | resetFault =>
    rw [step]
    split
    · exact hI
    · exact inv_postAll (hI.own s.host _) _
  | switchOff => exact inv_postAll (hI.own s.host _) _
  | activate mode _ => exact hI.own _ _
  | send f => exact inv_post hI f
  | process adc =>
    rw [step]
    cases hl : s.toLpc with
    | nil => exact hI
    | cons m fs => exact inv_answer (inv_processed hI hl) _
  | own a _ => exact inv_answer hI _
  | loseToLpc =>
    refine ⟨hI.order.sublist ?_, hI.awaited⟩
    exact ((List.Sublist.refl _).append
      (((s.toLpc.tail_sublist.map _).append (List.Sublist.refl _)).cons_cons _)).cons_cons _
  | loseToHost =>
    refine ⟨hI.order.sublist ?_, hI.awaited⟩
    exact ((s.toHost.tail_sublist.map _).append (List.Sublist.refl _)).cons_cons _

omit [Libm]

lemma inv_start (hardware : Board) : Inv (start hardware) :=
  inv_postAll ⟨by simp [InOrder, stamps], by simp⟩ _

end Invariant

section Resets

variable {s : System} {a : Action}

lemma waits_iff (hI : Inv s) : ¬ UndoesReset s a ↔ Waits s a := by
  constructor
  · rintro h rfl hawaited status hstatus hfault
    by_contra hmode
    refine h ⟨rfl, ?_, hI.awaited.mp hawaited⟩
    simp [blamed, hmode, hstatus, hfault]
  · rintro h ⟨rfl, hblamed, hstale⟩
    obtain ⟨status, hstatus⟩ := Option.isSome_iff_exists.mp hblamed
    rw [blamed] at hstatus
    split_ifs at hstatus with hmode
    obtain ⟨hstatus, hfault⟩ := Option.filter_eq_some_iff.mp hstatus
    exact hmode (h rfl (hI.awaited.mpr hstale) status hstatus (of_decide_eq_true hfault))

end Resets

section Accepted

/-- Once the LPC has processed a reset, it is in no fault: it accepts the reset, and raises no new
fault. -/
def Accepts [Libm] (s : System) (a : Action) : Prop :=
  (step s a).processed ≠ 0 → (step s a).lpc.thermal.state ≠ .fault

instance [Libm] (s : System) (a : Action) : Decidable (Accepts s a) :=
  inferInstanceAs (Decidable (_ → _))

/-- What the LPC reports once it has accepted a reset. -/
structure Fresh (s : System) : Prop where
  lpc : s.processed ≠ 0 → s.lpc.thermal.state ≠ .fault
  toHost : ∀ m ∈ s.toHost, m.2 ≠ 0 → ∀ status ∈ statusOf m.1, status.state ≠ .fault
  cached : s.cached ≠ 0 → s.host.thermalStatus.state ≠ .fault

lemma ofCode_code (s : HeaterState) : LpcInterface.HeaterState.ofCode s.code = some s := by
  cases s <;> rfl

lemma statusOf_other {t : MessageType} (ht : t ≠ .thermalStatus) (payload : List UInt8) :
    statusOf (Frame.ofBytes t payload) = none := by
  rw [statusOf, if_neg]
  intro htype
  exact ht (Option.some.inj (type_ofBytes.symm.trans htype))

lemma state_of_readStatus {f : Frame} {status : LpcInterface.ThermalStatus}
    (h : LpcInterface.readStatus f = some status) :
    LpcInterface.HeaterState.ofCode f.payload[6] = some status.state := by
  rw [LpcInterface.readStatus] at h
  split_ifs at h
  split at h
  · next hstate _ =>
    rw [hstate, ← Option.some.inj h]
  · cases h

lemma state_of_statusOf {payload : List UInt8} {state : HeaterState}
    (hstate : payload.getD 6 0 = state.code) :
    ∀ status ∈ statusOf (Frame.ofBytes .thermalStatus payload), status.state = state := by
  intro status hs
  have hbyte : (Frame.ofBytes .thermalStatus payload).payload[6] = state.code :=
    (payload_ofBytes (by decide)).trans hstate
  rw [statusOf, if_pos type_ofBytes] at hs
  have hread := state_of_readStatus hs
  rw [hbyte, ofCode_code] at hread
  exact (Option.some.inj hread).symm

variable {s : System}

lemma forall_status_other {t : MessageType} (ht : t ≠ .thermalStatus) {payload : List UInt8}
    {P : LpcInterface.ThermalStatus → Prop} :
    ∀ f ∈ [Frame.ofBytes t payload], ∀ status ∈ statusOf f, P status := by
  intro f hf status hs
  rw [List.mem_singleton.mp hf, statusOf_other ht] at hs
  cases hs

/-- The LPC reports the state that it is in. -/
lemma state_of_answer [Libm] (s : MainLoop.State) (a : MainLoop.Action) :
    ∀ f ∈ (MainLoop.act s a).2, ∀ status ∈ statusOf f,
      status.state = (MainLoop.act s a).1.thermal.state := by
  cases a with
  | tick | spin | lines | reset => exact List.forall_mem_nil _
  | frame frame adc =>
    simp only [MainLoop.act, MainLoop.handleFrame]
    split
    · rw [MainLoop.handlePing]
      split_ifs
      · exact forall_status_other (by decide)
      · exact List.forall_mem_nil _
    all_goals exact List.forall_mem_nil _
  | poll =>
    rw [MainLoop.act, MainLoop.pollPin]
    split_ifs
    · exact List.forall_mem_nil _
    · cases Gpio.poll s.thermal.board with
      | none => exact List.forall_mem_nil _
      | some r => exact forall_status_other (by decide)
  | status =>
    rw [MainLoop.act, MainLoop.sendStatus]
    split_ifs
    · exact List.forall_mem_nil _
    · cases htake : takeStatus s.thermal with
      | none => exact List.forall_mem_nil _
      | some r =>
        rw [takeStatus] at htake
        split_ifs at htake
        cases htake
        intro f hf
        rw [List.mem_singleton.mp hf]
        exact state_of_statusOf rfl

lemma Fresh.own (hF : Fresh s) (host : LpcInterface.State)
    (hhost : host.thermalStatus = s.host.thermalStatus) (heater : LpcHeater.State) :
    Fresh { s with host := host, heater := heater } :=
  ⟨hF.lpc, hF.toHost, fun h => hhost ▸ hF.cached h⟩

lemma fresh_postAll (hF : Fresh s) (fs : List Frame) : Fresh (postAll s fs) := by
  induction fs generalizing s with
  | nil => exact hF
  | cons f fs ih => exact ih ⟨hF.lpc, hF.toHost, hF.cached⟩

lemma fresh_answer [Libm]
    (htoHost : ∀ m ∈ s.toHost, m.2 ≠ 0 → ∀ status ∈ statusOf m.1, status.state ≠ .fault)
    (hcached : s.cached ≠ 0 → s.host.thermalStatus.state ≠ .fault) {m : MainLoop.State}
    (a : MainLoop.Action)
    (haccepts : s.processed ≠ 0 → (MainLoop.act m a).1.thermal.state ≠ .fault) :
    Fresh (answer s (MainLoop.act m a)) := by
  refine ⟨haccepts, fun x hx hstamp status hs => ?_, hcached⟩
  rcases List.mem_append.mp hx with hx | hx
  · exact htoHost x hx hstamp status hs
  · obtain ⟨f, hf, rfl⟩ := List.mem_map.mp hx
    rw [state_of_answer m a f hf status hs]
    exact haccepts hstamp

lemma thermalStatus_handlePong (f : Frame) (h : LpcInterface.State) :
    (LpcInterface.handlePong f h).1.thermalStatus = h.thermalStatus := by
  rw [LpcInterface.handlePong]
  split_ifs
  · rfl
  · dsimp only
    split_ifs <;> rfl

lemma thermalStatus_handleGpioState (f : Frame) (h : LpcInterface.State) :
    (LpcInterface.handleGpioState f h).thermalStatus = h.thermalStatus := by
  rw [LpcInterface.handleGpioState]
  split_ifs
  · rfl
  · split <;> rfl

/-- The host's cached status is the last one that it has taken. -/
lemma thermalStatus_handleFrame (f : Frame) (h : LpcInterface.State) :
    (LpcInterface.handleFrame f h).1.thermalStatus = (statusOf f).getD h.thermalStatus := by
  rw [LpcInterface.handleFrame, statusOf]
  split
  · next ht => simpa [ht] using thermalStatus_handlePong f h
  · next ht => simpa [ht] using thermalStatus_handleGpioState f h
  · next ht =>
    simp only [ht, if_true, LpcInterface.handleThermalStatus]
    cases LpcInterface.readStatus f <;> rfl
  · next ht => rw [if_neg ht]; rfl

lemma thermalStatus_keepAlive (h : LpcInterface.State) :
    (LpcInterface.keepAlive h).1.thermalStatus = h.thermalStatus := by
  rw [LpcInterface.keepAlive]
  split_ifs <;> rfl

lemma fresh_note {f : Frame} {stamp : ℕ} {fs : List (Frame × ℕ)} (hF : Fresh s)
    (hl : s.toHost = (f, stamp) :: fs) : Fresh (note f stamp
      { s with host := (LpcInterface.handleFrame f s.host).1, toHost := fs }) := by
  have hrest : ∀ m ∈ fs, m.2 ≠ 0 → ∀ status ∈ statusOf m.1, status.state ≠ .fault :=
    fun m hm => hF.toHost m (hl ▸ List.mem_cons_of_mem _ hm)
  have hthermal := thermalStatus_handleFrame f s.host
  rw [note]
  split_ifs with hsome
  · obtain ⟨status, hs⟩ := Option.isSome_iff_exists.mp hsome
    refine ⟨hF.lpc, hrest, fun hstamp => ?_⟩
    rw [hs, Option.getD_some] at hthermal
    have hstate := hF.toHost (f, stamp) (hl ▸ List.mem_cons_self) hstamp status hs
    rwa [← hthermal] at hstate
  · refine ⟨hF.lpc, hrest, fun hstamp => ?_⟩
    rw [Option.not_isSome_iff_eq_none.mp hsome, Option.getD_none] at hthermal
    exact hthermal ▸ hF.cached hstamp

lemma fresh_step [Libm] (s : System) (a : Action) (hF : Fresh s) (h : Accepts s a) :
    Fresh (step s a) := by
  cases a with
  | tick => exact hF.own { s.host with millis := s.host.millis + 1 } rfl s.heater
  | keepAlive => exact fresh_postAll (hF.own _ (thermalStatus_keepAlive s.host) s.heater) _
  | receive =>
    rw [step]
    cases hl : s.toHost with
    | nil => exact hF
    | cons m fs => exact fresh_postAll (fresh_note hF hl) _
  | spinHeater => exact fresh_postAll (hF.own s.host rfl _) _
  | resetFault =>
    rw [step]
    split
    · exact hF
    · exact fresh_postAll (hF.own s.host rfl _) _
  | switchOff => exact fresh_postAll (hF.own s.host rfl _) _
  | activate mode _ => exact hF.own s.host rfl _
  | send f => exact fresh_postAll hF [f]
  | process adc =>
    rw [Accepts, step] at h
    rw [step]
    cases hl : s.toLpc with
    | nil => exact hF
    | cons m fs =>
      rw [hl] at h
      let processing : System :=
        { s with toLpc := fs, processed := if IsReset m.1 then m.2 else s.processed }
      exact fresh_answer (s := processing) hF.toHost hF.cached _ h
  | own a _ => exact fresh_answer hF.toHost hF.cached a h
  | loseToLpc => exact ⟨hF.lpc, hF.toHost, hF.cached⟩
  | loseToHost =>
    exact ⟨hF.lpc, fun m hm => hF.toHost m (List.mem_of_mem_tail hm), hF.cached⟩

lemma fresh_start (hardware : Board) : Fresh (start hardware) :=
  fresh_postAll ⟨absurd rfl, List.forall_mem_nil _, absurd rfl⟩ _

end Accepted

section Runs

variable [Libm]

/-- Where the LPC accepts the resets and raises no new fault, and the heater waits after each
reset, no status puts the heater back into the fault mode. -/
lemma no_status_blamed {hardware : Board} {as : List Action}
    (haccepts : Along step Accepts (start hardware) as)
    (hwaits : Along step Waits (start hardware) as) :
    Along step (fun s a => a = .spinHeater → s.resets ≠ 0 → blamed s.host s.heater = none)
      (start hardware) as := by
  refine (haccepts.and hwaits).of_invariant (P := fun s => Inv s ∧ Fresh s)
    ⟨inv_start hardware, fresh_start hardware⟩
    (fun s a hk hok => ⟨inv_step s a hk.1, fresh_step s a hk.2 hok.1⟩) ?_
  rintro s a ⟨hI, hF⟩ ⟨-, hwait⟩ rfl hresets
  by_contra hblamed
  have hsome : (blamed s.host s.heater).isSome := Option.isSome_iff_ne_none.mpr hblamed
  obtain ⟨status, hstatus⟩ := Option.isSome_iff_exists.mp hsome
  refine (waits_iff hI).mpr hwait ⟨rfl, hsome, ?_⟩
  have hcached : s.cached = 0 := by
    by_contra hc
    exact hF.cached hc (fault_of_blamed hstatus)
  rw [hcached]
  exact Nat.pos_of_ne_zero hresets

end Runs

section Example

open FaultLatch TemperatureLimit

/-- The host and the LPC connect, and the host configures the heater. -/
def connected : List Action :=
  [.process (steadyAdc 512), .receive, .process (steadyAdc 512), .process (steadyAdc 512)] ++
    (thermistorFrame :: heaterModelFrames ++ [heaterFrame 0x54 0x0B]).flatMap
      (fun f => [.send f, .process (steadyAdc 512)])

/-- The thermistor is shorted when the heater is switched on, and in order when the fault is
reset. The heater is spun before the LPC has processed the reset. -/
def hastyReset : List Action :=
  [.send (commandFrame .on [0x20, 0x4E]), .process (steadyAdc 0),
    .own .status (fun _ _ => nofun), .receive, .spinHeater, .resetFault, .spinHeater,
    .process (steadyAdc 512), .process (steadyAdc 512)]

end Example

end RepRapFirmware.Host.FaultReset
