import RepRapFirmware.LpcFirmware.TemperatureLimit

/-! The heater outlives the host by no more than the link timeout, as long as the wrapping
millisecond counter does not make an old ping look like a recent one. -/

namespace RepRapFirmware.LpcFirmware.HostWatchdog

open Library.Runs Shared.LpcProtocol Thermal Gpio Effects Frames FaultLatch HeaterSafety

/-- The LPC with the true number of ticks since the last sign of life of the host. -/
structure Watched where
  lpc : MainLoop.State
  silence : ℕ

def powerUp (hardware : Board) : Watched := ⟨MainLoop.powerUp hardware, 0⟩

/-- The heater is on for no longer than the link timeout after the last sign of life. -/
def Prompt (w : Watched) : Prop := ¬ Off w.lpc.thermal → w.silence ≤ linkTimeoutMillis.toNat

instance (w : Watched) : Decidable (Prompt w) :=
  inferInstanceAs (Decidable (¬ Off w.lpc.thermal → w.silence ≤ linkTimeoutMillis.toNat))

/-- A command `on` that could be followed comes within the timeout. -/
def Timely (w : Watched) (a : MainLoop.Action) : Prop :=
  Commanded .on a → Ready w.lpc.thermal → w.silence ≤ linkTimeoutMillis.toNat

instance (w : Watched) (a : MainLoop.Action) : Decidable (Timely w a) :=
  inferInstanceAs (Decidable (Commanded .on a → Ready w.lpc.thermal →
    w.silence ≤ linkTimeoutMillis.toNat))

structure Synchronised (w : Watched) : Prop where
  safe : Safe w.lpc.thermal
  clock : w.lpc.thermal.millisTicks =
    w.lpc.thermal.lastHostHeartbeat + UInt32.ofNat w.silence
  recent : active w.lpc.thermal → w.silence ≤ linkTimeoutMillis.toNat

lemma synchronised_powerUp (hardware : Board) : Synchronised (powerUp hardware) :=
  ⟨safe_powerUp hardware, (powerUp_millis hardware).trans (powerUp_heartbeat hardware).symm,
    fun _ => Nat.zero_le _⟩

/-- A tick that leaves the heater active finds the true silence within the timeout. -/
lemma recent_tick {s : Thermal.State} {n : ℕ} (hn : n ≤ linkTimeoutMillis.toNat)
    (hclock : s.millisTicks = s.lastHostHeartbeat + UInt32.ofNat n) (h : active (tick s)) :
    n + 1 ≤ linkTimeoutMillis.toNat := by
  have hnat : linkTimeoutMillis.toNat = 2500 := rfl
  by_contra hlate
  obtain rfl : n = 2500 := by omega
  have hage : s.millisTicks + 1 - s.lastHostHeartbeat = 2501 := by
    rw [hclock]
    have h2500 : UInt32.ofNat 2500 + 1 = 2501 := rfl
    grind
  by_cases hactive : active { s with millisTicks := s.millisTicks + 1 }
  · have hfault : (tick s).state = .fault := by
      simp [tick, hactive, hage, show linkTimeoutMillis < 2501 by decide]
    exact not_active_of_fault hfault h
  · have hsame : (tick s).state = s.state := by simp [tick, hactive]
    exact hactive ((active_congr hsame).symm.trans h)

lemma silence_le {n : ℕ} {a : MainLoop.Action} (h : a ≠ .tick) : Frames.silence n a ≤ n := by
  cases a with
  | tick => exact absurd rfl h
  | frame frame adc =>
    simp only [Frames.silence]
    split_ifs <;> omega
  | reset hardware => exact Nat.zero_le n
  | _ => exact le_rfl

section Steps

variable [Libm]

def watch (w : Watched) (a : MainLoop.Action) : Watched :=
  ⟨MainLoop.step w.lpc a, Frames.silence w.silence a⟩

@[simp] lemma run_watch_lpc (w : Watched) (as : List MainLoop.Action) :
    (run watch w as).lpc = run MainLoop.step w.lpc as := by
  induction as generalizing w with
  | nil => rfl
  | cons a as ih => exact ih (watch w a)

lemma synchronised_watch (w : Watched) (a : MainLoop.Action) (h : Synchronised w)
    (ht : Timely w a) : Synchronised (watch w a) := by
  refine ⟨safe_step w.lpc a h.safe, clock_step w.lpc a h.clock, fun hactive => ?_⟩
  by_cases htick : a = .tick
  · subst htick
    refine recent_tick (h.recent ?_) h.clock hactive
    have hchange : Change False w.lpc.thermal (tick w.lpc.thermal) := change_tick _
    cases hchange with
    | kept state => exact (active_congr state).symm.trans hactive
    | stopped inactive => exact absurd hactive inactive
    | regulated before => exact before
    | started command => exact command.elim
  · refine (silence_le htick).trans ?_
    cases change_step w.lpc a with
    | kept state => exact h.recent ((active_congr state).symm.trans hactive)
    | stopped inactive => exact absurd hactive inactive
    | regulated before => exact h.recent before
    | started command fault alive complete => exact ht command ⟨alive, complete, fault⟩

/-- Once the link timeout is latched, the heater stays off until the fault is cleared. -/
def StaysOff (s : MainLoop.State) (as : List MainLoop.Action) : Prop :=
  ∀ bs cs, bs ++ cs <+: as → (run MainLoop.step s bs).thermal.linkTimeoutLatched →
    Along MainLoop.step (fun s a => ¬ Clears s a) (run MainLoop.step s bs) cs →
      Off (run MainLoop.step s (bs ++ cs)).thermal

lemma off_run {s : MainLoop.State} {cs : List MainLoop.Action} (h : Safe s.thermal)
    (hl : s.thermal.linkTimeoutLatched)
    (hc : Along MainLoop.step (fun s a => ¬ Clears s a) s cs) :
    Off (run MainLoop.step s cs).thermal := by
  have hend := run_invariant
    (P := fun s : MainLoop.State => Safe s.thermal ∧ s.thermal.state = .fault) ⟨h, h.latch hl⟩
    (fun s a hs hok => ⟨safe_step s a hs.1, (latched_step a ⟨hs.2, rfl⟩ hok).state⟩) hc
  exact hend.1.idle (not_active_of_fault hend.2)

lemma staysOff (hardware : Board) (as : List MainLoop.Action) :
    StaysOff (MainLoop.powerUp hardware) as := by
  intro bs cs _ hl hc
  rw [run_append]
  exact off_run (invariant (P := fun s : MainLoop.State => Safe s.thermal)
    (safe_powerUp hardware) safe_step bs) hl hc

/-- The host watchdog, in every run in which each command `on` is timely. -/
theorem host_watchdog (hardware : Board) (as : List MainLoop.Action)
    (h : Along watch Timely (powerUp hardware) as) :
    Always watch Prompt (powerUp hardware) as ∧ StaysOff (MainLoop.powerUp hardware) as := by
  refine ⟨fun bs hp hon => ?_, staysOff hardware as⟩
  have hsync := run_invariant (synchronised_powerUp hardware) synchronised_watch (h.upTo hp)
  refine hsync.recent ?_
  by_contra hi
  exact hon (hsync.safe.idle hi)

/-- `n` milliseconds go by and nothing else. -/
def later (n : ℕ) (w : Watched) : Watched :=
  ⟨{ w.lpc with thermal := { w.lpc.thermal with
    millisTicks := w.lpc.thermal.millisTicks + UInt32.ofNat n } }, w.silence + n⟩

omit [Libm] in
lemma later_later (m n : ℕ) (w : Watched) : later n (later m w) = later (m + n) w := by
  simp only [later, UInt32.ofNat_add, UInt32.add_assoc, Nat.add_assoc]

lemma watch_tick {w : Watched} (h : ¬ active w.lpc.thermal) : watch w .tick = later 1 w := by
  have hactive : ¬ active { w.lpc.thermal with
    millisTicks := w.lpc.thermal.millisTicks + 1 } := h
  simp only [watch, MainLoop.step, MainLoop.act, tick, hactive, Bool.false_and, Bool.false_eq_true,
    if_false, Frames.silence]
  rfl

/-- An inactive module only counts the ticks. -/
lemma run_ticks {w : Watched} (h : ¬ active w.lpc.thermal) (n : ℕ) :
    run watch w (List.replicate n .tick) = later n w := by
  induction n generalizing w with
  | zero => simp [later]
  | succ n ih =>
    rw [List.replicate_succ, run_cons, watch_tick h, ih (w := later 1 w) h, later_later, add_comm]

end Steps

section Example

open TemperatureLimit

def heatOnce : List MainLoop.Action := [startHeating, .spin (steadyAdc 512), .tick]

theorem host_watchdog_heats : @Always _ _ (@watch unitLibm) Prompt (powerUp restingBoard)
      (configureHeating ++ List.replicate 250 .tick ++ heatOnce) ∧
    @StaysOff unitLibm (MainLoop.powerUp restingBoard)
      (configureHeating ++ List.replicate 250 .tick ++ heatOnce) :=
  @host_watchdog unitLibm restingBoard _ (by decide +kernel)

/-- The host configures the heater and is silent until the counter has wrapped and a quarter of
a second more. The command `on` then heats. -/
theorem watchdog_misses_wrap : ¬ @Always _ _ (@watch unitLibm) Prompt (powerUp restingBoard)
    (configureHeating ++ List.replicate (2 ^ 32 + 250) .tick ++ heatOnce) := by
  intro h
  have hend := h _ (List.prefix_refl _)
  rw [run_append, run_append, @run_ticks unitLibm _ (by decide +kernel)] at hend
  exact absurd hend (by decide +kernel)

end Example

end RepRapFirmware.LpcFirmware.HostWatchdog
