import RepRapFirmware.Heating.LocalHeater

/-! The list of tools, and the flag of each tool for a fault of its heaters. -/

namespace RepRapFirmware.Tools

open Heating RepRapFirmware.Host
open Host.LpcHeater (HeaterMode)

/-- The limits that depend on the board, and the numbers of what is configured. -/
structure Limits where
  maxExtrudersPerTool : ℕ
  maxHeatersPerTool : ℕ
  maxHeaters : ℤ
  maxSpindles : ℤ
  numExtruders : ℤ
  spindleConfigured : ℤ → Bool

inductive Heater
  | localHeater (h : LocalHeater)
  | lpcHeater (h : LpcHeater.State)

namespace Heater

def mode : Heater → HeaterMode
  | .localHeater h => h.mode
  | .lpcHeater h => h.mode

/-- Declaring the heater to be that of a tool. The model of an LPC heater is not followed here. -/
def setAsToolHeater (defaults : FopDt) : Heater → Heater
  | .localHeater h => .localHeater (h.declareHeater defaults 285)
  | .lpcHeater h => .lpcHeater h

def switchOff (link : LpcInterface.State) : Heater → Heater
  | .localHeater h => .localHeater h.switchOff
  | .lpcHeater h => .lpcHeater (LpcHeater.switchOff link h).1

/-- A reset that is refused leaves the heater as it was. -/
def resetFault (link : LpcInterface.State) : Heater → Heater
  | .localHeater h => .localHeater h.resetFault
  | .lpcHeater h =>
    match LpcHeater.resetFault link h with
    | .ok (h', _) => .lpcHeater h'
    | .error _ => .lpcHeater h

/-- Whether the reset of a fault has an effect. -/
def canReset (link : LpcInterface.State) : Heater → Bool
  | .localHeater _ => true
  | .lpcHeater _ => link.online

def raiseFault (link : LpcInterface.State) (error : Shared.LpcProtocol.ThermalError) : Heater →
    Heater
  | .localHeater h => .localHeater h.raiseHeaterFault
  | .lpcHeater h => .lpcHeater (LpcHeater.raiseFault link h error).heater

/-- A local heater that is already in the fault state does not flag the tools again. -/
def flagsTools : Heater → Bool
  | .localHeater h => h.mode ≠ .fault
  | .lpcHeater _ => true

end Heater

structure Tool where
  myNumber : ℕ
  drives : List ℤ
  heaters : List ℤ
  heaterFault : Bool

/-- The parameters of `M563`. -/
structure ToolParameters where
  toolNumber : ℕ
  drives : List ℤ
  heaters : List ℤ
  spindles : List ℤ

namespace Tool

/-- `none` stands for no error. -/
def createError (l : Limits) (p : ToolParameters) : Option String :=
  if p.drives.length > l.maxExtrudersPerTool then some "too many drives"
  else if p.heaters.length > l.maxHeatersPerTool then some "too many heaters"
  else if ∃ d ∈ p.drives, d < 0 ∨ d ≥ l.numExtruders then some "bad drive number"
  else if ∃ h ∈ p.heaters, h < 0 ∨ h ≥ l.maxHeaters then some "bad heater number"
  else
    match p.spindles with
    | [] => none
    | spindle :: _ =>
      if spindle > -1 then
        if spindle ≥ l.maxSpindles then some "bad spindle number"
        else if l.spindleConfigured spindle then none
        else some "unconfigured spindle"
      else none

def create (l : Limits) (p : ToolParameters) : Except String Tool :=
  match createError l p with
  | some err => .error err
  | none => .ok
    { myNumber := p.toolNumber
      drives := p.drives
      heaters := p.heaters
      heaterFault := false }

def setTemperatureFault (dudHeater : ℤ) (t : Tool) : Tool :=
  if dudHeater ∈ t.heaters then { t with heaterFault := true } else t

def resetTemperatureFault (wasDudHeater : ℤ) (t : Tool) : Tool :=
  if wasDudHeater ∈ t.heaters then { t with heaterFault := false } else t

/-- What the check of the temperatures before an extrusion uses. -/
structure Temperatures where
  getHeaterTemperature : ℤ → ℚ
  extrusionMinTemp : ℚ
  retractionMinTemp : ℚ

def allHeatersAtHighTemperature (temps : Temperatures) (forExtrusion : Bool) (t : Tool) : Bool :=
  t.heaters.all fun h => !decide (temps.getHeaterTemperature h <
    if forExtrusion then temps.extrusionMinTemp else temps.retractionMinTemp)

def canDriveExtruder (temps : Temperatures) (extrude : Bool) (t : Tool) : Bool :=
  !t.heaterFault && t.allHeatersAtHighTemperature temps extrude

/-- The list is kept in the order of the tool numbers. -/
def addTool (tool : Tool) : List Tool → List Tool
  | [] => [tool]
  | t :: ts => if t.myNumber < tool.myNumber then t :: addTool tool ts else tool :: t :: ts

end Tool

/-- The tools and the heaters. -/
structure State where
  toolList : List Tool
  heaters : ℤ → Option Heater

def findHeater (l : Limits) (s : State) (heater : ℤ) : Option Heater :=
  if heater < 0 ∨ heater ≥ l.maxHeaters then none else s.heaters heater

def updateHeater (l : Limits) (heater : ℤ) (f : Heater → Heater) (s : State) : State :=
  match findHeater l s heater with
  | none => s
  | some h => { s with heaters := Function.update s.heaters heater (some (f h)) }

/-- A tool is created and added, if its parameters are accepted. -/
def createTool (l : Limits) (p : ToolParameters) (defaults : FopDt) (s : State) : State :=
  match Tool.create l p with
  | .error _ => s
  | .ok tool =>
    let s := tool.heaters.foldl (fun s h => updateHeater l h (·.setAsToolHeater defaults) s) s
    { s with toolList := tool.addTool s.toolList }

/-- The heaters of a tool that is deleted are switched off. -/
def deleteTool (l : Limits) (link : LpcInterface.State) (toolNumber : ℕ) (s : State) : State :=
  match s.toolList.find? (fun t => t.myNumber = toolNumber) with
  | none => s
  | some tool =>
    let s := { s with toolList := s.toolList.eraseP (fun t => t.myNumber = toolNumber) }
    tool.heaters.foldl (fun s h => updateHeater l h (·.switchOff link) s) s

def flagTemperatureFault (dudHeater : ℤ) (s : State) : State :=
  { s with toolList := s.toolList.map (Tool.setTemperatureFault dudHeater) }

def raiseHeaterFault (l : Limits) (link : LpcInterface.State)
    (error : Shared.LpcProtocol.ThermalError) (heater : ℤ) (s : State) : State :=
  match findHeater l s heater with
  | none => s
  | some h =>
    let s := updateHeater l heater (·.raiseFault link error) s
    if h.flagsTools then flagTemperatureFault heater s else s

def clearTemperatureFault (l : Limits) (link : LpcInterface.State) (wasDudHeater : ℤ) (s : State) :
    State :=
  let s := updateHeater l wasDudHeater (·.resetFault link) s
  { s with toolList := s.toolList.map (Tool.resetTemperatureFault wasDudHeater) }

end RepRapFirmware.Tools
