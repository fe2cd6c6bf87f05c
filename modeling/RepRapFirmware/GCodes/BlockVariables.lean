import RepRapFirmware.GCodes.StructuredRuns

/-! The local variables of a G-code file: `VariableSet`, with the nesting of the block in which a
variable was made for its scope, and the `var` and `set` commands. Names are those that `varName`
holds. -/

namespace RepRapFirmware.GCodes.MetaCommands

open Library.StructuredPrograms

structure Variable (ν : Type*) where
  name : String
  val : ν
  scope : ℤ

/-- The last variable that was inserted is the first. -/
abbrev VariableSet (ν : Type*) := List (Variable ν)

namespace VariableSet
variable {ν : Type*}

def isMatch (str : String) (wantParameter : Bool) (v : Variable ν) : Bool :=
  v.name == str && wantParameter == (v.scope == -1)

def lookup (vset : VariableSet ν) (str : String) (wantParameter : Bool) : Option ν :=
  (vset.find? (isMatch str wantParameter)).map (·.val)

def insertNew (vset : VariableSet ν) (str : String) (pVal : ν) (pScope : ℤ) : VariableSet ν :=
  ⟨str, pVal, pScope⟩ :: vset

/-- `Assign` to the variable that `Lookup` finds. -/
def assign (str : String) (ev : ν) : VariableSet ν → VariableSet ν
  | [] => []
  | v :: vset =>
    if isMatch str false v then { v with val := ev } :: vset else v :: assign str ev vset

/-- The parameter has 8 bits. -/
def endScope (vset : VariableSet ν) (blockNesting : ℕ) : VariableSet ν :=
  vset.filter fun v => v.scope ≤ (blockNesting % 256 : ℕ)

end VariableSet

/-- What an expression is evaluated in. -/
structure Reading (ν ω : Type*) where
  var : String → Option ν
  param : String → Option ν
  world : ω

/-- For an assignment to an element of an array, the expression gives the array with the element. -/
inductive VarCommand (ε γ : Type*)
  | var (name : String) (e : ε)
  | set (name : String) (e : ε)
  | other (c : γ)

/-- What conditions and expressions are found to be, and what other commands do. Expressions have no
side effects, and conditions are no errors. -/
structure Meaning (κ ε γ ν ω : Type*) where
  condition : ℕ → κ → Reading ν ω → Bool
  expression : ε → Reading ν ω → Option ν
  command : γ → Reading ν ω → Option ω

variable {κ ε γ ν ω : Type*} (M : Meaning κ ε γ ν ω)

namespace Meaning

/-- `VariableSet` and the rest of the machine. -/
abbrev Data (ν ω : Type*) := VariableSet ν × ω

def reading (x : Data ν ω) : Reading ν ω :=
  ⟨fun name => x.1.lookup name false, fun name => x.1.lookup name true, x.2⟩

def exec (blockNesting : ℕ) (x : Data ν ω) : VarCommand ε γ → Option (Data ν ω)
  | .var name e =>
    -- an existing variable is not reassigned by a 'var' statement
    if (x.1.lookup name false).isSome then none
    else (M.expression e (reading x)).map fun ev => (x.1.insertNew name ev blockNesting, x.2)
  | .set name e =>
    if (x.1.lookup name false).isSome then
      (M.expression e (reading x)).map fun ev => (x.1.assign name ev, x.2)
    else none
  | .other c => (M.command c (reading x)).map fun w => (x.1, w)

def scoping : Scoping κ (VarCommand ε γ) (Data ν ω) where
  eval evaluations condition x := M.condition evaluations condition (reading x)
  exec c blockNesting x := M.exec blockNesting x c
  endScope blockNesting x := (x.1.endScope blockNesting, x.2)

end Meaning

/-- A program in which every block has variables of its own, those of the innermost block first. -/
structure Lexical (ε γ ν ω : Type*) where
  evaluations : ℕ
  executed : List (VarCommand ε γ)
  scopes : List (List (String × ν))
  world : ω

namespace Lexical

def find (scopes : List (List (String × ν))) (name : String) : Option ν :=
  (scopes.flatten.find? (·.1 == name)).map (·.2)

def declare (name : String) (ev : ν) : List (List (String × ν)) → List (List (String × ν))
  | [] => []
  | ds :: scopes => ((name, ev) :: ds) :: scopes

/-- The variable in the innermost block that has one of the name. -/
def update (name : String) (ev : ν) : List (List (String × ν)) → List (List (String × ν))
  | [] => []
  | ds :: scopes =>
    if ds.any (·.1 == name) then ds.replaceF (fun d => if d.1 == name then some (d.1, ev) else none)
      :: scopes
    else ds :: update name ev scopes

def reading (params : String → Option ν) (t : Lexical ε γ ν ω) : Reading ν ω :=
  ⟨find t.scopes, params, t.world⟩

def exec (params : String → Option ν) (t : Lexical ε γ ν ω) :
    VarCommand ε γ → Option (List (List (String × ν)) × ω)
  | .var name e =>
    if (find t.scopes name).isSome then none
    else (M.expression e (reading params t)).map fun ev => (declare name ev t.scopes, t.world)
  | .set name e =>
    if (find t.scopes name).isSome then
      (M.expression e (reading params t)).map fun ev => (update name ev t.scopes, t.world)
    else none
  | .other c => (M.command c (reading params t)).map fun w => (t.scopes, w)

def interpretation (params : String → Option ν) :
    Interpretation κ (VarCommand ε γ) (Lexical ε γ ν ω) where
  exec c _ t := (exec M params t c).map fun x => ⟨t.evaluations, t.executed ++ [c], x.1, x.2⟩
  eval condition t := (M.condition t.evaluations condition (reading params t),
    { t with evaluations := t.evaluations + 1 })
  enter t := { t with scopes := [] :: t.scopes }
  leave _ t := { t with scopes := t.scopes.tail }

end Lexical

section Relation
variable {M} {ds : List (String × ν)} {scopes : List (List (String × ν))}
  {params : List (String × ν)} {name : String} {ev : ν} {depth : ℕ}

/-- The variables of the blocks, with their scopes. -/
def declared : List (List (String × ν)) → VariableSet ν
  | [] => []
  | ds :: scopes => ds.map (fun d => ⟨d.1, d.2, scopes.length⟩) ++ declared scopes

def parameters (params : List (String × ν)) : VariableSet ν := params.map fun p => ⟨p.1, p.2, -1⟩

def parameter (params : List (String × ν)) (name : String) : Option ν :=
  (params.find? (·.1 == name)).map (·.2)

lemma declared_scope {v : Variable ν} (h : v ∈ declared scopes) :
    0 ≤ v.scope ∧ v.scope < scopes.length := by
  induction scopes with
  | nil => cases h
  | cons ds scopes ih =>
    rw [List.length_cons]
    rcases List.mem_append.mp h with h | h
    · obtain ⟨d, -, rfl⟩ := List.mem_map.mp h
      simp
    · have := ih h
      omega

lemma lookup_map (scope : ℤ) (wantParameter : Bool) (ds : List (String × ν))
    (h : wantParameter = (scope == -1)) :
    (VariableSet.lookup (ds.map fun d => ⟨d.1, d.2, scope⟩) name wantParameter) =
      (ds.find? (·.1 == name)).map (·.2) := by
  subst h
  simp [VariableSet.lookup, VariableSet.isMatch, List.find?_map, Function.comp_def]

lemma lookup_append (vset vset' : VariableSet ν) (wantParameter : Bool) :
    VariableSet.lookup (vset ++ vset') name wantParameter =
      (vset.lookup name wantParameter).or (vset'.lookup name wantParameter) := by
  simp [VariableSet.lookup, List.find?_append, Option.map_or]

lemma lookup_none (vset : VariableSet ν) (wantParameter : Bool)
    (h : ∀ v ∈ vset, wantParameter = !(v.scope == -1)) : vset.lookup name wantParameter = none := by
  rw [VariableSet.lookup, List.find?_eq_none.mpr, Option.map_none]
  intro v hv
  simp [VariableSet.isMatch, h v hv]

lemma lookup_var (scopes : List (List (String × ν))) (params : List (String × ν)) (name : String) :
    VariableSet.lookup (declared scopes ++ parameters params) name false =
      Lexical.find scopes name := by
  rw [lookup_append, lookup_none (parameters params), Option.or_none]
  · induction scopes with
    | nil => rfl
    | cons ds scopes ih =>
      have hne : ((scopes.length : ℤ) == -1) = false := by simp
      rw [declared, lookup_append, lookup_map _ _ _ hne.symm, ih]
      simp [Lexical.find, List.find?_append, Option.map_or]
  · intro v hv
    obtain ⟨p, -, rfl⟩ := List.mem_map.mp hv
    rfl

lemma lookup_param (scopes : List (List (String × ν))) (params : List (String × ν))
    (name : String) :
    VariableSet.lookup (declared scopes ++ parameters params) name true =
      parameter params name := by
  rw [lookup_append, lookup_none (declared scopes), Option.none_or]
  · exact lookup_map _ _ _ rfl
  · intro v hv
    have := declared_scope hv
    simp
    omega

lemma assign_map {scope : ℤ} (hscope : scope ≠ -1) (ds : List (String × ν)) (vset : VariableSet ν) :
    VariableSet.assign name ev ((ds.map fun d => ⟨d.1, d.2, scope⟩) ++ vset) =
      if ds.any (·.1 == name) then
        ((ds.replaceF fun d => if d.1 == name then some (d.1, ev) else none).map
          fun d => ⟨d.1, d.2, scope⟩) ++ vset
      else (ds.map fun d => ⟨d.1, d.2, scope⟩) ++ VariableSet.assign name ev vset := by
  induction ds with
  | nil => rfl
  | cons d ds ih =>
    rw [List.map_cons, List.cons_append, VariableSet.assign, ih]
    cases hname : d.1 == name with
    | true => simp [VariableSet.isMatch, List.replaceF, hname, hscope]
    | false =>
      simp only [VariableSet.isMatch, List.replaceF, List.any_cons, hname, Bool.false_and,
        Bool.false_or, Bool.false_eq_true, if_false]
      split <;> rfl

lemma update_length (scopes : List (List (String × ν))) :
    (Lexical.update name ev scopes).length = scopes.length := by
  induction scopes with
  | nil => rfl
  | cons ds scopes ih =>
    rw [Lexical.update]
    split <;> simp [ih]

lemma assign_declared (vset : VariableSet ν) (h : (Lexical.find scopes name).isSome) :
    VariableSet.assign name ev (declared scopes ++ vset) =
      declared (Lexical.update name ev scopes) ++ vset := by
  induction scopes with
  | nil => cases h
  | cons ds scopes ih =>
    have hne : (scopes.length : ℤ) ≠ -1 := by omega
    rw [declared, List.append_assoc, assign_map hne, Lexical.update]
    split
    · simp [declared]
    · have hfind : (Lexical.find scopes name).isSome := by
        simp_all [Lexical.find, List.find?_append]
      simp [declared, ih hfind, update_length]

lemma endScope_declared (hdepth : scopes.length = depth + 1) (hlt : depth < 255) :
    VariableSet.endScope (declared (ds :: scopes) ++ parameters params) depth =
      declared scopes ++ parameters params := by
  rw [VariableSet.endScope, declared, List.filter_append, List.filter_append,
    Nat.mod_eq_of_lt (by omega), List.filter_eq_nil_iff.mpr, List.filter_eq_self.mpr,
    List.filter_eq_self.mpr, List.nil_append]
  · intro v hv
    obtain ⟨p, -, rfl⟩ := List.mem_map.mp hv
    simp
  · intro v hv
    have := declared_scope hv
    simp
    omega
  · intro v hv
    obtain ⟨d, -, rfl⟩ := List.mem_map.mp hv
    simp [hdepth]

/-- The variables are those of the blocks that are open, and the parameters. -/
structure Scoped (params : List (String × ν)) (depth : ℕ)
    (s : Trace (VarCommand ε γ) (Meaning.Data ν ω)) (t : Lexical ε γ ν ω) : Prop where
  evaluations : s.evaluations = t.evaluations
  executed : s.executed = t.executed
  vars : s.data = (declared t.scopes ++ parameters params, t.world)
  depth : t.scopes.length = depth + 1

lemma Scoped.reading {s : Trace (VarCommand ε γ) (Meaning.Data ν ω)} {t : Lexical ε γ ν ω}
    (h : Scoped params depth s t) :
    Meaning.reading s.data = Lexical.reading (parameter params) t := by
  simp only [Meaning.reading, Lexical.reading, h.vars, lookup_var, lookup_param]

/-- Blocks that end take their variables with them. -/
lemma scoped_related (M : Meaning κ ε γ ν ω) (params : List (String × ν)) :
    Related (interpretation M.scoping) (Lexical.interpretation M (parameter params))
      (Scoped params) 255 where
  eval k depth s t h := by
    refine ⟨?_, congrArg (· + 1) h.evaluations, h.executed, h.vars, h.depth⟩
    simp only [interpretation, Meaning.scoping, Lexical.interpretation, h.reading, h.evaluations]
  enter depth s t h :=
    ⟨h.evaluations, h.executed, h.vars, by simp [Lexical.interpretation, h.depth]⟩
  leave depth s t hlt h := by
    have hlength := h.depth
    have hvars := h.vars
    cases hscopes : t.scopes with
    | nil => simp [hscopes] at hlength
    | cons ds scopes =>
      rw [hscopes] at hlength hvars
      have hdepth : scopes.length = depth + 1 := Nat.succ.inj hlength
      refine ⟨h.evaluations, h.executed, ?_,
        by simpa [Lexical.interpretation, hscopes] using hdepth⟩
      simp [interpretation, Meaning.scoping, Lexical.interpretation, hscopes, hvars,
        endScope_declared hdepth hlt]
  exec c depth s t h := by
    obtain ⟨ds, scopes, hscopes⟩ := List.exists_cons_of_length_eq_add_one h.depth
    have hlookup : ∀ name, s.data.1.lookup name false = Lexical.find t.scopes name := by
      simp [h.vars, lookup_var]
    have hlength := h.depth
    cases c with
    | var name e =>
      simp only [interpretation, Meaning.scoping, Meaning.exec, Lexical.interpretation,
        Lexical.exec, hlookup, h.reading]
      split
      · exact .none
      · cases M.expression e (Lexical.reading (parameter params) t) with
        | none => exact .none
        | some ev =>
          rw [hscopes] at hlength
          have hdepth : scopes.length = depth := Nat.succ.inj hlength
          exact .some ⟨h.evaluations, by rw [h.executed], by
            simp [h.vars, hscopes, VariableSet.insertNew, Lexical.declare, declared, hdepth], by
            simp [hscopes, Lexical.declare, hdepth]⟩
    | set name e =>
      simp only [interpretation, Meaning.scoping, Meaning.exec, Lexical.interpretation,
        Lexical.exec, hlookup, h.reading]
      split
      · cases M.expression e (Lexical.reading (parameter params) t) with
        | none => exact .none
        | some ev =>
          exact .some ⟨h.evaluations, by rw [h.executed], by
            simp [h.vars, assign_declared _ ‹_›], by simp [update_length, hlength]⟩
      · exact .none
    | other c =>
      simp only [interpretation, Meaning.scoping, Meaning.exec, Lexical.interpretation,
        Lexical.exec, h.reading]
      cases M.command c (Lexical.reading (parameter params) t) with
      | none => exact .none
      | some w => exact .some ⟨h.evaluations, by rw [h.executed], by simp [h.vars], hlength⟩

end Relation

/-- A file is run as a program in which variables belong to the blocks they were made in. -/
theorem variables_have_block_scope {lines : List (Line κ (VarCommand ε γ))}
    {code : Code κ (VarCommand ε γ) .block} (h : Laid 0 code lines) (params : List (String × ν))
    (w : ω) {fuel : ℕ} (hfuel : fuel ≤ 2 ^ 31 ∨ code.EndsOutside) :
    let r := run (Lexical.interpretation M (parameter params)) fuel code 0 ⟨0, [], [[]], w⟩
    ∃ k, (r.1 = .unfinished → fuel ≤ k) ∧
      let s := (fileStep M.scoping lines)^[k] (.start κ (parameters params, w))
      s.control.status = statusOf r.1 ∧ s.control.executed = r.2.executed ∧
        s.data.2 = r.2.world := by
  have hnesting := h.nesting (by decide)
  obtain ⟨houtcome, hscoped⟩ := run_alike (scoped_related M params) fuel code 0 hnesting
    ⟨0, [], parameters params, w⟩ ⟨0, [], [[]], w⟩ ⟨rfl, rfl, rfl, rfl⟩
  obtain ⟨k, hk, hmatches⟩ := file_runs_program (S := M.scoping) Prod.snd h
    (fun _ _ => rfl) hfuel (parameters params, w)
  rw [houtcome] at hk hmatches
  refine ⟨k, hk, hmatches.status, hmatches.executed.trans hscoped.executed, ?_⟩
  rw [hmatches.data, hscoped.vars]

/-- A variable of the body of a loop is made again in each iteration. -/
theorem variables_have_block_scope_loop :
    ∃ k, ((fileStep (κ := Unit) (Meaning.scoping ⟨fun _ _ r => (r.var "x").any (· < 3),
        fun (e : Option String × ℕ) r => (e.1.elim (some 0) r.var).map (· + e.2),
        fun name r => (r.var name).map (r.world ++ [·])⟩)
        [⟨0, .plain (.var "x" (none, 1))⟩, ⟨0, .whileCommand ()⟩,
          ⟨2, .plain (.var "y" (some "x", 0))⟩, ⟨2, .plain (.set "x" (some "y", 1))⟩,
          ⟨0, .plain (.other "x")⟩])^[k] (.start Unit (parameters [], []))).data.2 = [3] := by
  obtain ⟨k, -, -, -, hworld⟩ := variables_have_block_scope
    ⟨fun _ _ r => (r.var "x").any (· < 3),
      fun (e : Option String × ℕ) r => (e.1.elim (some 0) r.var).map (· + e.2),
      fun name r => (r.var name).map (r.world ++ [·])⟩
    (show Laid 0 (.plain (.var "x" (none, 1)) (.loop () (.plain (.var "y" (some "x", 0))
      (.plain (.set "x" (some "y", 1)) .done)) (.plain (.other "x") .done))) _ from
    .plain (r := []) nofun (.loop (r := []) (m := 2) nofun (by decide) (by decide) nofun
      (.plain (r := []) nofun (.plain (r := []) nofun (.done (r := []) nofun)))
      (.plain (r := []) nofun (.done (r := []) nofun)))) [] [] (.inl (show 9 ≤ 2 ^ 31 by decide))
  exact ⟨k, hworld⟩

end RepRapFirmware.GCodes.MetaCommands
