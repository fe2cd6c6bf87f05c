import Mathlib
import RepRapFirmware.Library.Runs
import RepRapFirmware.Tools.Tool

/-! Which tools refuse to extrude while one of their heaters is in the fault state. -/

namespace RepRapFirmware.Tools

open Heating RepRapFirmware.Host RepRapFirmware.Library.Runs

inductive Action
  | createTool (p : ToolParameters) (defaults : FopDt)
  | deleteTool (link : LpcInterface.State) (toolNumber : ℕ)
  | raiseHeaterFault (link : LpcInterface.State) (error : Shared.LpcProtocol.ThermalError)
      (heater : ℤ)
  | clearTemperatureFault (link : LpcInterface.State) (wasDudHeater : ℤ)

def step (l : Limits) (s : State) : Action → State
  | .createTool p defaults => createTool l p defaults s
  | .deleteTool link toolNumber => deleteTool l link toolNumber s
  | .raiseHeaterFault link error heater => raiseHeaterFault l link error heater s
  | .clearTemperatureFault link wasDudHeater => clearTemperatureFault l link wasDudHeater s

/-- The heater exists and is in the fault state. -/
def Faulty (l : Limits) (s : State) (heater : ℤ) : Prop :=
  ∃ h, findHeater l s heater = some h ∧ h.mode = .fault

/-- A tool with a faulty heater is flagged, and its extruders are not driven. -/
def FaultyToolsFlagged (l : Limits) (s : State) : Prop :=
  ∀ t ∈ s.toolList, (∃ h ∈ t.heaters, Faulty l s h) →
    t.heaterFault = true ∧ ∀ temps extrude, t.canDriveExtruder temps extrude = false

/-- No tool is created with a heater that is in the fault state. The fault of a heater is only
cleared if every tool that uses it has no other heater in the fault state, and if the heater can be
reset where it is in the fault state itself. -/
def Permitted (l : Limits) (s : State) : Action → Prop
  | .createTool p _ => Tool.createError l p = none → ∀ h ∈ p.heaters, ¬ Faulty l s h
  | .clearTemperatureFault link wasDudHeater =>
    ∀ t ∈ s.toolList, wasDudHeater ∈ t.heaters → ∀ h ∈ t.heaters, Faulty l s h →
      h = wasDudHeater ∧ ∀ heater, findHeater l s h = some heater → heater.canReset link = true
  | _ => True

/-! ### Heaters -/

lemma setAsToolHeater_mode (defaults : FopDt) (h : Heater) :
    (h.setAsToolHeater defaults).mode = h.mode := by
  cases h with
  | lpcHeater h => rfl
  | localHeater h =>
    change (h.declareHeater defaults 285).mode = h.mode
    rw [LocalHeater.declareHeater, LocalHeater.setFirstMonitor]
    split <;> split <;> rfl

/-- Switching a heater off neither raises nor clears a fault. -/
lemma switchOff_fault (link : LpcInterface.State) (h : Heater) :
    (h.switchOff link).mode = .fault ↔ h.mode = .fault := by
  cases h with
  | localHeater h =>
    change (if h.model.enabled = true ∧ h.mode.code > LpcHeater.HeaterMode.off.code then .off
      else h.mode) = LpcHeater.HeaterMode.fault ↔ h.mode = .fault
    cases h.mode <;> cases h.model.enabled <;> decide
  | lpcHeater h =>
    change (if h.mode ≠ .fault then { h with mode := .off } else h).mode = .fault ↔ h.mode = .fault
    split
    · next hmode => exact ⟨fun hoff => (nomatch hoff), fun hfault => absurd hfault hmode⟩
    · exact Iff.rfl

/-- Only a reset that is refused leaves a fault. -/
lemma resetFault_fault (link : LpcInterface.State) (h : Heater) :
    (h.resetFault link).mode = .fault ↔ h.mode = .fault ∧ h.canReset link = false := by
  cases h with
  | localHeater h =>
    have hreset : h.resetFault.mode ≠ .fault := by
      simp only [LocalHeater.resetFault]
      split
      · intro hfault
        have hoff : LpcHeater.HeaterMode.off = .fault :=
          (switchOff_fault link (.localHeater _)).mp hfault
        cases hoff
      · next hmode => exact hmode
    exact ⟨fun hfault => absurd hfault hreset,
      fun hrefused => absurd hrefused.2 Bool.true_eq_false.mp⟩
  | lpcHeater h =>
    rw [Heater.resetFault, Heater.canReset, LpcHeater.resetFault]
    cases link.online with
    | true => simp [Heater.mode]
    | false => simp [Heater.mode]

section Faulty

variable {l : Limits} {s : State} {f : Heater → Heater} {n : ℤ}

lemma updateHeater_toolList : (updateHeater l n f s).toolList = s.toolList := by
  rw [updateHeater]
  split <;> rfl

lemma faulty_updateHeater (h : ℤ) : Faulty l (updateHeater l n f s) h ↔
    if h = n then ∃ x, findHeater l s n = some x ∧ (f x).mode = .fault else Faulty l s h := by
  rw [updateHeater]
  split
  · next hnone =>
    split
    · next heq => simp [Faulty, heq, hnone]
    · exact Iff.rfl
  · next x hsome =>
    have hexists : ¬ (n < 0 ∨ n ≥ l.maxHeaters) := by
      intro hout
      rw [findHeater, if_pos hout] at hsome
      cases hsome
    split
    · next heq =>
      have hheater : s.heaters n = some x := by
        rw [← hsome, findHeater, if_neg hexists]
      simp [Faulty, findHeater, heq, hexists, hheater]
    · next hne => simp [Faulty, findHeater, Function.update_of_ne hne]

/-- An update that neither raises nor clears faults. -/
lemma faulty_updateHeater_of_iff (hf : ∀ x, (f x).mode = .fault ↔ x.mode = .fault) (h : ℤ) :
    Faulty l (updateHeater l n f s) h ↔ Faulty l s h := by
  rw [faulty_updateHeater]
  split
  · next heq => simp [Faulty, heq, hf]
  · exact Iff.rfl

lemma foldl_updateHeater (hf : ∀ x, (f x).mode = .fault ↔ x.mode = .fault) (ns : List ℤ)
    (s : State) : (ns.foldl (fun s n => updateHeater l n f s) s).toolList = s.toolList ∧
      ∀ h, Faulty l (ns.foldl (fun s n => updateHeater l n f s) s) h ↔ Faulty l s h := by
  induction ns generalizing s with
  | nil => exact ⟨rfl, fun _ => Iff.rfl⟩
  | cons n ns ih =>
    obtain ⟨htools, hfaulty⟩ := ih (updateHeater l n f s)
    refine ⟨htools.trans updateHeater_toolList, fun h => ?_⟩
    exact (hfaulty h).trans (faulty_updateHeater_of_iff hf h)

end Faulty

/-! ### Steps -/

lemma Tool.mem_addTool {t tool : Tool} {ts : List Tool} :
    t ∈ tool.addTool ts ↔ t = tool ∨ t ∈ ts := by
  induction ts with
  | nil => simp [addTool]
  | cons u us ih =>
    rw [addTool]
    split
    · rw [List.mem_cons, ih, List.mem_cons]
      tauto
    · exact List.mem_cons

lemma Tool.canDriveExtruder_of_fault {t : Tool} (h : t.heaterFault = true) (temps : Temperatures)
    (extrude : Bool) : t.canDriveExtruder temps extrude = false := by
  rw [canDriveExtruder, h]
  rfl

section Steps

variable {l : Limits} {s : State}

lemma createTool_flagged (p : ToolParameters) (defaults : FopDt) (h : FaultyToolsFlagged l s) :
    FaultyToolsFlagged l (createTool l p defaults s) ↔
      (Tool.createError l p = none → ∀ h ∈ p.heaters, ¬ Faulty l s h) := by
  rw [createTool, Tool.create]
  cases Tool.createError l p with
  | some err => exact ⟨fun _ hnone => (nomatch hnone), fun _ => h⟩
  | none =>
    obtain ⟨htools, hfaulty⟩ := foldl_updateHeater (l := l) (s := s)
      (fun x => by rw [setAsToolHeater_mode defaults x]) p.heaters
    constructor
    · intro hnext _ n hn hfault
      have hflag := (hnext _ (Tool.mem_addTool.mpr (.inl rfl)) ⟨n, hn, (hfaulty n).mpr hfault⟩).1
      exact Bool.false_ne_true hflag
    · rintro hok t ht ⟨n, hn, hfault⟩
      have hfault' : Faulty l s n := (hfaulty n).mp hfault
      rcases Tool.mem_addTool.mp ht with rfl | hold
      · exact absurd hfault' (hok rfl n hn)
      · rw [htools] at hold
        exact h t hold ⟨n, hn, hfault'⟩

lemma deleteTool_flagged (link : LpcInterface.State) (toolNumber : ℕ)
    (h : FaultyToolsFlagged l s) : FaultyToolsFlagged l (deleteTool l link toolNumber s) := by
  rw [deleteTool]
  split
  · exact h
  · next tool _ =>
    obtain ⟨htools, hfaulty⟩ := foldl_updateHeater (l := l) (switchOff_fault link) tool.heaters
      { s with toolList := s.toolList.eraseP (fun t => t.myNumber = toolNumber) }
    rintro t ht ⟨n, hn, hfault⟩
    rw [htools] at ht
    exact h t (List.mem_of_mem_eraseP ht) ⟨n, hn, (hfaulty n).mp hfault⟩

/-- Every tool that uses the heater is flagged with its fault. -/
lemma raiseHeaterFault_flagged (link : LpcInterface.State)
    (error : Shared.LpcProtocol.ThermalError) (heater : ℤ) (h : FaultyToolsFlagged l s) :
    FaultyToolsFlagged l (raiseHeaterFault l link error heater s) := by
  rw [raiseHeaterFault]
  split
  · exact h
  · next x hx =>
    have hfaulty : ∀ n, Faulty l (updateHeater l heater (·.raiseFault link error) s) n →
        n = heater ∨ Faulty l s n := by
      intro n hfault
      rw [faulty_updateHeater] at hfault
      split at hfault
      · next heq => exact .inl heq
      · exact .inr hfault
    simp only
    split
    · rintro t ht ⟨n, hn, hfault⟩
      obtain ⟨u, hu, rfl⟩ := List.mem_map.mp ht
      rw [updateHeater_toolList] at hu
      have hkept : (u.setTemperatureFault heater).heaters = u.heaters := by
        rw [Tool.setTemperatureFault]
        split <;> rfl
      have hflag : (u.setTemperatureFault heater).heaterFault = true := by
        rw [hkept] at hn
        rw [Tool.setTemperatureFault]
        split
        · rfl
        · next hother =>
          rcases hfaulty n hfault with rfl | hold
          · exact absurd hn hother
          · exact (h u hu ⟨n, hn, hold⟩).1
      exact ⟨hflag, Tool.canDriveExtruder_of_fault hflag⟩
    · next hquiet =>
      have hold : x.mode = .fault := by
        cases x with
        | localHeater x =>
          have hmode : x.mode = .fault := by simpa [Heater.flagsTools] using hquiet
          exact hmode
        | lpcHeater x => exact absurd rfl hquiet
      rintro t ht ⟨n, hn, hfault⟩
      rw [updateHeater_toolList] at ht
      apply h t ht
      refine ⟨n, hn, ?_⟩
      rcases hfaulty n hfault with rfl | hsame
      · exact ⟨x, hx, hold⟩
      · exact hsame

lemma clearTemperatureFault_flagged (link : LpcInterface.State) (wasDudHeater : ℤ)
    (h : FaultyToolsFlagged l s) :
    FaultyToolsFlagged l (clearTemperatureFault l link wasDudHeater s) ↔
      ∀ t ∈ s.toolList, wasDudHeater ∈ t.heaters → ∀ n ∈ t.heaters, Faulty l s n →
        n = wasDudHeater ∧ ∀ x, findHeater l s n = some x → x.canReset link = true := by
  have hfaulty : ∀ n, Faulty l (clearTemperatureFault l link wasDudHeater s) n ↔
      Faulty l s n ∧ ¬ (n = wasDudHeater ∧
        ∀ x, findHeater l s n = some x → x.canReset link = true) := by
    intro n
    change Faulty l (updateHeater l wasDudHeater (·.resetFault link) s) n ↔ _
    rw [faulty_updateHeater]
    split
    · next heq =>
      subst heq
      simp only [resetFault_fault, Faulty]
      constructor
      · rintro ⟨x, hx, hfault, hrefused⟩
        refine ⟨⟨x, hx, hfault⟩, fun hreset => ?_⟩
        rw [hreset.2 x hx] at hrefused
        cases hrefused
      · rintro ⟨⟨x, hx, hfault⟩, hreset⟩
        refine ⟨x, hx, hfault, Bool.eq_false_of_not_eq_true fun hcan => hreset ⟨trivial, ?_⟩⟩
        intro y hy
        rw [Option.some.inj (hy.symm.trans hx)]
        exact hcan
    · next hne => exact ⟨fun hfault => ⟨hfault, fun heq => hne heq.1⟩, And.left⟩
  have htools : ∀ t, t ∈ (clearTemperatureFault l link wasDudHeater s).toolList ↔
      ∃ u ∈ s.toolList, u.resetTemperatureFault wasDudHeater = t := by
    intro t
    simp only [clearTemperatureFault, updateHeater_toolList, List.mem_map]
  have hkept : ∀ u : Tool, (u.resetTemperatureFault wasDudHeater).heaters = u.heaters := by
    intro u
    rw [Tool.resetTemperatureFault]
    split <;> rfl
  constructor
  · intro hnext t ht hused n hn hfault
    by_contra hrefused
    have hflag := (hnext _ ((htools _).mpr ⟨t, ht, rfl⟩)
      ⟨n, (hkept t).symm ▸ hn, (hfaulty n).mpr ⟨hfault, hrefused⟩⟩).1
    rw [Tool.resetTemperatureFault, if_pos hused] at hflag
    exact Bool.false_ne_true hflag
  · rintro hok t ht ⟨n, hn, hfault⟩
    obtain ⟨u, hu, rfl⟩ := (htools t).mp ht
    rw [hkept] at hn
    obtain ⟨hold, hleft⟩ := (hfaulty n).mp hfault
    have hother : wasDudHeater ∉ u.heaters := fun hused => hleft (hok u hu hused n hn hold)
    rw [Tool.resetTemperatureFault, if_neg hother]
    exact h u hu ⟨n, hn, hold⟩

lemma step_flagged (a : Action) (h : FaultyToolsFlagged l s) :
    FaultyToolsFlagged l (step l s a) ↔ Permitted l s a := by
  cases a with
  | createTool p defaults => exact createTool_flagged p defaults h
  | deleteTool link toolNumber => exact iff_of_true (deleteTool_flagged link toolNumber h) trivial
  | raiseHeaterFault link error heater =>
    exact iff_of_true (raiseHeaterFault_flagged link error heater h) trivial
  | clearTemperatureFault link wasDudHeater =>
    exact clearTemperatureFault_flagged link wasDudHeater h

end Steps

/-- Every tool with a faulty heater is flagged throughout a run that begins without tools, exactly
if the run creates and clears nothing against the condition. -/
theorem faulty_tools_flagged (l : Limits) (heaters : ℤ → Option Heater) (as : List Action) :
    Always (step l) (FaultyToolsFlagged l) ⟨[], heaters⟩ as ↔
      Along (step l) (Permitted l) ⟨[], heaters⟩ as := by
  apply always_iff_along (I := fun _ => True) trivial (fun _ _ _ => trivial)
  · exact fun t ht => absurd ht List.not_mem_nil
  · exact fun s a _ h => step_flagged a h

/-- The limits of the board, with one extruder configured. -/
def daVinciJr : Limits where
  maxExtrudersPerTool := 1
  maxHeatersPerTool := 1
  maxHeaters := 1
  maxSpindles := 1
  numExtruders := 1
  spindleConfigured := fun _ => false

/-- The tool is defined after the fault of its heater. -/
theorem late_tool_not_flagged : ¬ ∀ (l : Limits) (heaters : ℤ → Option Heater) (as : List Action),
    Always (step l) (FaultyToolsFlagged l) ⟨[], heaters⟩ as := by
  intro h
  have hflag := h daVinciJr (fun _ => some (.lpcHeater ⟨.off, 0⟩))
    [.raiseHeaterFault LpcInterface.blank .overTemperature 0, .createTool ⟨0, [0], [0], []⟩
      { heatingRate := 1, basicCoolingRate := 1, fanCoolingRate := 0, coolingRateExponent := 1,
        deadTime := 10, maxPwm := 1, usePid := true, inverted := false, enabled := true,
        getNetHeatingRate := fun _ _ _ => 1, estimateRequiredPwm := fun _ _ => 0,
        getPidParameters := fun _ => ⟨0, 0, 0⟩ }] _ (List.prefix_refl _)
    ⟨0, [0], [0], false⟩ (List.mem_singleton.mpr rfl) ⟨0, List.mem_singleton.mpr rfl, _, rfl, rfl⟩
  exact Bool.false_ne_true hflag.1

end RepRapFirmware.Tools
