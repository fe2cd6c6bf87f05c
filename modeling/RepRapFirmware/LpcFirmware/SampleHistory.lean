import RepRapFirmware.LpcFirmware.SteadyLoop

/-! Which samples the control loop takes a derivative of. The samples since the last configuration
reset are numbered from 0, and each slot of the ring buffer is traced to the sample that is in it. -/

namespace RepRapFirmware.LpcFirmware.SampleHistory

open Shared.LpcProtocol Thermal Effects Gpio SteadyLoop Library.Runs Function

/-- The LPC, whether the samples since the last configuration reset were good (the latest first),
and the numbers of the samples in the slots of the ring buffer. -/
structure Traced where
  lpc : MainLoop.State
  samples : List Bool
  written : Fin 4 → Option ℕ

def start (hardware : Board) : Traced := ⟨MainLoop.powerUp hardware, [], fun _ => none⟩

/-- The next pass of the loop takes a sample. -/
def Due (s : Thermal.State) : Prop := s.millisTicks - s.lastSampleTime ≥ sampleIntervalMillis

instance (s : Thermal.State) : Decidable (Due s) :=
  inferInstanceAs (Decidable (s.millisTicks - s.lastSampleTime ≥ sampleIntervalMillis))

def IsReset (frame : Frame) : Prop :=
  MessageType.ofCode frame.type = some .configurationReset ∧ frame.length = 0

instance (frame : Frame) : Decidable (IsReset frame) := instDecidableAnd

section

variable [Libm]

def Good (adc : Adc) (s : Thermal.State) : Prop := (sample adc s).2 = .none

instance (adc : Adc) (s : Thermal.State) : Decidable (Good adc s) :=
  inferInstanceAs (Decidable ((sample adc s).2 = .none))

def trace (w : Traced) (a : MainLoop.Action) : Traced :=
  let lpc := MainLoop.step w.lpc a
  match a with
  | .spin adc =>
    if Due w.lpc.thermal then
      if Good adc w.lpc.thermal then
        ⟨lpc, true :: w.samples,
          update w.written (ringSlot w.lpc.thermal.loop) (some w.samples.length)⟩
      else ⟨lpc, false :: w.samples, w.written⟩
    else { w with lpc := lpc }
  | .frame frame _ => if IsReset frame then ⟨lpc, [], fun _ => none⟩ else { w with lpc := lpc }
  | .reset _ => ⟨lpc, [], fun _ => none⟩
  | _ => { w with lpc := lpc }

/-- Where the control loop finds that it has a derivative, it has subtracted the good sample of four
sample periods before. -/
def RightSlot (w : Traced) : MainLoop.Action → Prop
  | .spin adc => Due w.lpc.thermal → (recorded adc w.lpc.thermal).2.2 = true →
      4 ≤ w.samples.length ∧
        w.written (ringSlot w.lpc.thermal.loop) = some (w.samples.length - 4)
  | _ => True

/-- The four samples before are good wherever a good sample is taken, the one three periods before
it was good, and the temperature in the slot is not far away. -/
def FourGood (w : Traced) : MainLoop.Action → Prop
  | .spin adc => Due w.lpc.thermal → Good adc w.lpc.thermal →
      w.lpc.thermal.loop.goodTemperatureMask &&& 0x04 ≠ 0 →
      ((sample adc w.lpc.thermal).1.temperature -
        w.lpc.thermal.loop.previousTemperatures (ringSlot w.lpc.thermal.loop)).abs ≤ 10.0 →
      w.lpc.thermal.loop.goodTemperatureMask &&& 0x0F = 0x0F
  | _ => True

instance (w : Traced) (a : MainLoop.Action) : Decidable (RightSlot w a) :=
  match a with
  | .spin adc => inferInstanceAs (Decidable (Due w.lpc.thermal →
      (recorded adc w.lpc.thermal).2.2 = true → 4 ≤ w.samples.length ∧
        w.written (ringSlot w.lpc.thermal.loop) = some (w.samples.length - 4)))
  | .tick | .frame _ _ | .poll | .status | .lines _ | .reset _ => instDecidableTrue

end

/-! ### The good samples -/

/-- The numbers of the good samples, the latest first. -/
def numbers : List Bool → List ℕ
  | [] => []
  | true :: samples => samples.length :: numbers samples
  | false :: samples => numbers samples

lemma numbers_lt {samples : List Bool} {k n : ℕ} (h : (numbers samples)[k]? = some n) :
    n + k < samples.length := by
  induction samples generalizing k with
  | nil => simp [numbers] at h
  | cons good samples ih =>
    rw [List.length_cons]
    cases good with
    | false => exact (ih h).trans (Nat.lt_succ_self _)
    | true =>
      cases k with
      | zero =>
        obtain rfl := Option.some.inj h
        exact Nat.lt_succ_self _
      | succ k =>
        have hlt := ih (k := k) h
        omega

/-- The good sample before `k` others is the one that many periods before exactly when they are
all the samples since then. -/
lemma numbers_eq_iff {samples : List Bool} {k : ℕ} (hk : k < samples.length) :
    (numbers samples)[k]? = some (samples.length - (k + 1)) ↔
      ∀ j ≤ k, samples.getD j false = true := by
  induction samples generalizing k with
  | nil => exact absurd hk (Nat.not_lt_zero k)
  | cons good samples ih =>
    rw [List.length_cons] at hk ⊢
    cases good with
    | false =>
      refine iff_of_false (fun h => ?_) fun h => absurd (h 0 (Nat.zero_le k)) Bool.false_ne_true
      have hlt := @numbers_lt samples _ _ h
      omega
    | true =>
      cases k with
      | zero =>
        refine iff_of_true rfl fun j hj => ?_
        obtain rfl := Nat.le_zero.mp hj
        rfl
      | succ k =>
        have hlength : samples.length + 1 - (k + 1 + 1) = samples.length - (k + 1) := by omega
        rw [hlength]
        apply (ih (Nat.lt_of_succ_lt_succ hk)).trans
        constructor
        · intro h j hj
          cases j with
          | zero => rfl
          | succ j => exact h j (Nat.le_of_succ_le_succ hj)
        · intro h j hj
          exact h (j + 1) (Nat.succ_le_succ hj)

/-! ### What leaves the ring buffer alone -/

structure SameRing (l l' : Loop) : Prop where
  index : l'.previousIndex = l.previousIndex
  mask : l'.goodTemperatureMask = l.goodTemperatureMask

section Ring

variable {l l' : Loop} {s : MainLoop.State} {frame : Frame} {adc : Adc}

lemma SameRing.of_steady (h : Steady l l') : SameRing l l' := ⟨h.index, h.mask⟩

lemma ring_configureFeedForward (payload : Payload) (length : UInt8) (s : Thermal.State) :
    SameRing s.loop (configureFeedForward payload length s).loop := by
  rw [configureFeedForward]
  dsimp only
  split_ifs
  · exact ⟨rfl, rfl⟩
  · rw [setFault_loop]
    exact ⟨rfl, rfl⟩
  all_goals exact ⟨rfl, rfl⟩

lemma ring_frame [Libm] (h : ¬ IsReset frame) :
    SameRing s.thermal.loop (MainLoop.handleFrame frame adc s).1.thermal.loop := by
  by_cases hfeed : MessageType.ofCode frame.type = some .heaterFeedForward
  · rw [MainLoop.handleFrame, hfeed]
    dsimp only
    rw [Thermal.handleFrame, hfeed]
    exact ring_configureFeedForward _ _ _
  · exact .of_steady (steady_frame h hfeed)

end Ring

/-! ### The trace of a run -/

/-- The mask and the slots are those of the samples since the last configuration reset. -/
structure Recorded (w : Traced) : Prop where
  mask : ∀ j < 8, w.lpc.thermal.loop.goodTemperatureMask.toBitVec.getLsbD j =
    w.samples.getD j false
  index : w.lpc.thermal.loop.previousIndex.toNat < 4
  slots : ∀ i < 4, ∀ slot : Fin 4,
    (slot : ℕ) = (w.lpc.thermal.loop.previousIndex.toNat + 3 - i) % 4 →
      w.written slot = (numbers w.samples)[i]?

section Trace

variable {w : Traced} {l l' : Loop}

lemma Recorded.congr (h : Recorded w) {lpc : MainLoop.State}
    (hring : SameRing w.lpc.thermal.loop lpc.thermal.loop) : Recorded { w with lpc := lpc } := by
  refine ⟨?_, ?_, ?_⟩
  · rw [hring.mask]
    exact h.mask
  · rw [hring.index]
    exact h.index
  · rw [hring.index]
    exact h.slots

/-- After a reset there are no samples. -/
lemma recorded_reset {lpc : MainLoop.State} (hloop : lpc.thermal.loop = resetLoop l) :
    Recorded ⟨lpc, [], fun _ => none⟩ := by
  refine ⟨fun j hj => ?_, ?_, fun i hi slot hslot => rfl⟩
  · rw [hloop]
    exact BitVec.getLsbD_zero
  · rw [hloop]
    exact Nat.succ_pos 3

lemma recorded_start (hardware : Board) : Recorded (start hardware) :=
  recorded_reset (applyHeater_loop _ _)

lemma index_next (index : UInt8) : ((index + 1) &&& 3).toNat = (index.toNat + 1) % 4 := by
  have hall : ∀ b : BitVec 8, ((b + 1) &&& 3).toNat = (b.toNat + 1) % 4 := by decide
  exact hall index.toBitVec

lemma mask_shifted (mask : UInt8) {j : ℕ} (hj : j < 8) :
    (mask <<< 1).toBitVec.getLsbD j = if j = 0 then false else mask.toBitVec.getLsbD (j - 1) := by
  have hall : ∀ b : BitVec 8, ∀ j < 8, (b <<< 1).getLsbD j =
      if j = 0 then false else b.getLsbD (j - 1) := by
    intro b j hj
    cases j with
    | zero => simp
    | succ j =>
      simp [hj]
      rfl
  exact hall mask.toBitVec j hj

lemma mask_good (mask : UInt8) {j : ℕ} (hj : j < 8) :
    (mask <<< 1 ||| 1).toBitVec.getLsbD j =
      if j = 0 then true else mask.toBitVec.getLsbD (j - 1) := by
  have hor : (mask <<< 1 ||| 1).toBitVec.getLsbD j =
      ((mask <<< 1).toBitVec.getLsbD j || (1 : BitVec 8).getLsbD j) := BitVec.getLsbD_or
  have hone : ∀ j < 8, (1 : BitVec 8).getLsbD j = decide (j = 0) := by decide
  rw [hor, mask_shifted mask hj, hone j hj]
  by_cases h : j = 0
  · simp [h]
  · simp [h]

lemma available_iff (mask : UInt8) : (mask <<< 1) &&& 0x08 ≠ 0 ↔ mask &&& 0x04 ≠ 0 := by
  have hall : ∀ b : BitVec 8, (b <<< 1) &&& 8 = 0 ↔ b &&& 4 = 0 := by decide
  have hmask := hall mask.toBitVec
  exact not_congr (UInt8.toBitVec_inj.symm.trans (hmask.trans UInt8.toBitVec_inj))

lemma fourGood_iff (mask : UInt8) :
    mask &&& 0x0F = 0x0F ↔ ∀ j ≤ 3, mask.toBitVec.getLsbD j = true := by
  have hall : ∀ b : BitVec 8, b &&& 15 = 15 ↔ ∀ j < 4, b.getLsbD j = true := by decide
  refine (UInt8.toBitVec_inj.symm.trans (hall mask.toBitVec)).trans ?_
  exact forall_congr' fun j => by rw [Nat.lt_succ_iff]

lemma getD_cons (good : Bool) (samples : List Bool) (j : ℕ) : (good :: samples).getD j false =
    if j = 0 then good else samples.getD (j - 1) false := by
  cases j with
  | zero => rfl
  | succ j => rfl

lemma Recorded.good (h : Recorded w) {lpc : MainLoop.State}
    (hindex : lpc.thermal.loop.previousIndex = (w.lpc.thermal.loop.previousIndex + 1) &&& 3)
    (hmask : lpc.thermal.loop.goodTemperatureMask =
      w.lpc.thermal.loop.goodTemperatureMask <<< 1 ||| 1) :
    Recorded ⟨lpc, true :: w.samples,
      update w.written (ringSlot w.lpc.thermal.loop) (some w.samples.length)⟩ := by
  have hlt := h.index
  refine ⟨fun j hj => ?_, ?_, fun i hi slot hslot => ?_⟩
  · simp only
    rw [hmask, mask_good _ hj, getD_cons, ← h.mask (j - 1) (by omega)]
  · simp only
    rw [hindex, index_next]
    exact Nat.mod_lt _ (by decide)
  · simp only at hslot ⊢
    rw [hindex, index_next] at hslot
    cases i with
    | zero =>
      have heq : slot = ringSlot w.lpc.thermal.loop := by
        apply Fin.ext
        rw [hslot]
        simp only [ringSlot]
        omega
      rw [heq, update_self]
      rfl
    | succ i =>
      have hne : slot ≠ ringSlot w.lpc.thermal.loop := by
        intro heq
        rw [heq] at hslot
        simp only [ringSlot] at hslot
        omega
      rw [update_of_ne hne]
      exact h.slots i (by omega) slot (by rw [hslot]; omega)

lemma Recorded.bad (h : Recorded w) {lpc : MainLoop.State}
    (hindex : lpc.thermal.loop.previousIndex = w.lpc.thermal.loop.previousIndex)
    (hmask : lpc.thermal.loop.goodTemperatureMask =
      w.lpc.thermal.loop.goodTemperatureMask <<< 1) :
    Recorded ⟨lpc, false :: w.samples, w.written⟩ := by
  refine ⟨fun j hj => ?_, hindex ▸ h.index, fun i hi slot hslot => ?_⟩
  · simp only
    rw [hmask, mask_shifted _ hj, getD_cons, ← h.mask (j - 1) (by omega)]
  · simp only at hslot ⊢
    rw [hindex] at hslot
    exact h.slots i hi slot hslot

/-- The slot of the next sample has the sample of four periods before exactly when the last four
samples were good. -/
lemma Recorded.right_iff (h : Recorded w) : 4 ≤ w.samples.length ∧
      w.written (ringSlot w.lpc.thermal.loop) = some (w.samples.length - 4) ↔
    w.lpc.thermal.loop.goodTemperatureMask &&& 0x0F = 0x0F := by
  have hslot : w.written (ringSlot w.lpc.thermal.loop) = (numbers w.samples)[3]? :=
    h.slots 3 (by decide) _ (by simp only [ringSlot]; omega)
  have hall : w.lpc.thermal.loop.goodTemperatureMask &&& 0x0F = 0x0F ↔
      ∀ j ≤ 3, w.samples.getD j false = true := by
    rw [fourGood_iff]
    refine forall_congr' fun j => forall_congr' fun hj => ?_
    rw [h.mask j (by omega)]
  rw [hslot, hall]
  constructor
  · rintro ⟨hlength, hnumber⟩
    exact (numbers_eq_iff hlength).mp hnumber
  · intro hgood
    have hlength : 4 ≤ w.samples.length := by
      by_contra hlt
      have hthird := hgood 3 le_rfl
      rw [List.getD, List.getElem?_eq_none (by omega)] at hthird
      exact Bool.false_ne_true hthird
    exact ⟨hlength, (numbers_eq_iff hlength).mpr hgood⟩

lemma recordSample_bad (l : Loop) : (recordSample false l).1.previousIndex = l.previousIndex ∧
    (recordSample false l).1.goodTemperatureMask = l.goodTemperatureMask <<< 1 ∧
    (recordSample false l).2.2 = false := by
  rw [recordSample]
  dsimp only
  rw [if_neg Bool.false_ne_true]
  refine ⟨?_, ?_, rfl⟩
  · dsimp only
    split <;> rfl
  · dsimp only
    split <;> rfl

variable [Libm] {adc : Adc}

lemma sample_previousTemperatures (adc : Adc) (s : Thermal.State) :
    (sample adc s).1.previousTemperatures = s.loop.previousTemperatures := by
  rw [sample]
  split
  · rfl
  · split
    · rfl
    · extract_lets
      split_ifs
      · rfl
      · split
        dsimp only
        split_ifs <;> rfl

lemma recorded_good {s : Thermal.State} (h : Good adc s) :
    recorded adc s = recordSample true (sample adc s).1 :=
  congrArg (fun good => recordSample good (sample adc s).1) (decide_eq_true h)

lemma recorded_bad {s : Thermal.State} (h : ¬ Good adc s) :
    recorded adc s = recordSample false (sample adc s).1 :=
  congrArg (fun good => recordSample good (sample adc s).1) (decide_eq_false h)

variable (adc) in
lemma spin_due (hdue : Due w.lpc.thermal) : SameRing (recorded adc w.lpc.thermal).1
    (MainLoop.step w.lpc (.spin adc)).thermal.loop := by
  have hspin : (MainLoop.step w.lpc (.spin adc)).thermal =
      control adc { w.lpc.thermal with lastSampleTime := w.lpc.thermal.millisTicks } :=
    if_pos hdue
  rw [hspin]
  exact .of_steady <| steady_control adc { w.lpc.thermal with lastSampleTime := w.lpc.thermal.millisTicks }

lemma Recorded.spin (h : Recorded w) (adc : Adc) : Recorded (trace w (.spin adc)) := by
  have hsample := steady_sample w.lpc.thermal adc
  rw [trace]
  split_ifs with hdue hgood
  · have hspin := spin_due adc hdue
    rw [recorded_good hgood] at hspin
    apply h.good
    · rw [hspin.index, ← hsample.index]
      rfl
    · rw [hspin.mask, ← hsample.mask]
      rfl
  · have hspin := spin_due adc hdue
    rw [recorded_bad hgood] at hspin
    obtain ⟨hindex, hmask, -⟩ := recordSample_bad (sample adc w.lpc.thermal).1
    apply h.bad
    · rw [hspin.index, hindex, hsample.index]
    · rw [hspin.mask, hmask, hsample.mask]
  · apply h.congr
    have hspin : (MainLoop.step w.lpc (.spin adc)).thermal = w.lpc.thermal := if_neg hdue
    exact .of_steady (.of_eq (congrArg State.loop hspin))

lemma Recorded.step (h : Recorded w) (a : MainLoop.Action) : Recorded (trace w a) := by
  cases a with
  | spin adc => exact h.spin adc
  | frame frame adc =>
    rw [trace]
    split_ifs with hreset
    · apply recorded_reset (l := w.lpc.thermal.loop)
      simp only [MainLoop.step, MainLoop.act, MainLoop.handleFrame, hreset.1,
        MainLoop.handleConfigurationReset, hreset.2, if_true]
      exact applyHeater_loop _ _
    · exact h.congr (ring_frame hreset)
  | reset hardware => exact recorded_start hardware
  | tick => exact h.congr (.of_steady (steady_tick _))
  | poll => exact h.congr (.of_steady steady_pollPin)
  | status => exact h.congr (.of_steady steady_sendStatus)
  | lines line => exact h.congr (.of_steady .refl)

/-! ### The derivative -/

lemma derivative_iff (adc : Adc) (s : Thermal.State) : (recorded adc s).2.2 = true ↔
    Good adc s ∧ s.loop.goodTemperatureMask &&& 0x04 ≠ 0 ∧
      ((sample adc s).1.temperature - s.loop.previousTemperatures (ringSlot s.loop)).abs ≤
        10.0 := by
  have hsample := steady_sample s adc
  have hslot : ringSlot (sample adc s).1 = ringSlot s.loop := by
    simp only [ringSlot, hsample.index]
  by_cases hgood : Good adc s
  · rw [recorded_good hgood, recordSample, ← available_iff, ← hsample.mask, ← hslot,
      ← sample_previousTemperatures adc s]
    dsimp only
    rw [if_pos rfl]
    dsimp only
    split_ifs with havailable
    · simp only [decide_eq_true_eq] at havailable ⊢
      exact ⟨fun h => ⟨hgood, havailable, h⟩, fun h => h.2.2⟩
    · exact iff_of_false id fun h => havailable h.2.1
  · rw [recorded_bad hgood, (recordSample_bad _).2.2]
    exact iff_of_false Bool.false_ne_true fun h => hgood h.1

lemma Recorded.rightSlot_iff (h : Recorded w) (a : MainLoop.Action) :
    RightSlot w a ↔ FourGood w a := by
  cases a with
  | spin adc =>
    simp only [RightSlot, FourGood, derivative_iff, h.right_iff, and_imp]
  | _ => exact Iff.rfl

/-- In every run of the LPC the derivative is that of the sample of four periods before exactly as
long as every sample it is taken of follows four good ones. -/
theorem derivative_right_iff (hardware : Board) (as : List MainLoop.Action) :
    Along trace RightSlot (start hardware) as ↔ Along trace FourGood (start hardware) as := by
  constructor
  · exact Along.of_invariant (recorded_start hardware) (fun w a h _ => h.step a)
      fun w a h => (h.rightSlot_iff a).mp
  · exact Along.of_invariant (recorded_start hardware) (fun w a h _ => h.step a)
      fun w a h => (h.rightSlot_iff a).mpr

end Trace

section Example

open FaultLatch Shared.Payload

/-- The logarithms of 1 and 2. -/
@[reducible] def twoLibm : Libm := ⟨fun x => if x = 2.0 then 0.6931472 else 0.0, fun _ _ => 0.0⟩

/-- A thermistor of 1 ohm at 25 degrees and beta 3000, pulled up by 2 ohm. -/
def coldFrame : Frame :=
  Frame.ofBytes .thermistorConfig (putFloat 1.0 ++ putFloat 3000.0 ++ putFloat 0.0 ++ putFloat 2.0)

/-- Four samples of 6 degrees. -/
def coldStart : List MainLoop.Action :=
  .frame coldFrame (steadyAdc 512) ::
    (List.replicate 4 (List.replicate 250 .tick ++ [.spin (steadyAdc 512)])).flatten

/-- With the fourth sample after a reset a derivative is taken of a slot that is still empty: the
mask has been shifted already when its bit is tested. -/
theorem derivative_of_empty_slot :
    ¬ ∀ (libm : Libm) (hardware : Board) (as : List MainLoop.Action),
      @Along _ _ (@trace libm) (@RightSlot libm) (start hardware) as := by
  intro h
  exact absurd (h twoLibm restingBoard coldStart) (by decide +kernel)

end Example

end RepRapFirmware.LpcFirmware.SampleHistory
