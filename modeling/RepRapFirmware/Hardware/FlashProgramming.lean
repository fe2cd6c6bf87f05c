import Mathlib.Data.List.GetD
import Mathlib.Tactic
import RepRapFirmware.Hardware.UuencodedBlocks

/-! Programming the flash memory of the LPC through its boot ROM. The boot ROM is no part of the
firmware: it is a parameter, with what its documentation says of the commands. -/

namespace RepRapFirmware.Hardware.FlashProgramming

open LpcIspUpdater (transferSize)

def flashSize : ℕ := 64 * 1024

def ramTop : BitVec 32 := 0x10002000

def ramBuffer : ℕ := 0x10000300

def sectorSize : ℕ := 4096

def numSectors : ℕ := flashSize / sectorSize

def crpNone : BitVec 32 := 0xFFFFFFFF

def crpOffset : ℕ := 0x2FC

def isCrpProtected (value : BitVec 32) : Bool :=
  value = 0x12345678 ∨ value = 0x87654321 ∨ value = 0x43218765 ∨ value = 0x4E697370

/-! ### The boot ROM -/

/-- `data` stands for a block that is sent with `SendUuencodedBlock`. -/
inductive Command
  | synchronize
  | unlock (code : ℕ)
  | readPartId
  | prepare (first last : ℕ)
  | erase (first last : ℕ)
  | write (address length : ℕ)
  | data (block : List (BitVec 8))
  | copy (flash ram length : ℕ)
  | compare (flash ram length : ℕ)
  deriving DecidableEq, Repr

/-- The answer to a command is the expected one, it is lost, or there is none because the command
has not been carried out or only in part. -/
inductive Outcome
  | done | lost | refused | interrupted (part : ℕ)
  deriving DecidableEq, Repr

def Outcome.executed : Outcome → Bool
  | .done | .lost => true
  | .refused | .interrupted _ => false

def Command.changesFlash : Command → Bool
  | .erase .. | .copy .. => true
  | _ => false

structure BootRom (σ : Type) where
  flash : σ → ℕ → BitVec 8
  ram : σ → List (BitVec 8)
  exec : Command → Outcome → σ → σ
  flash_other : ∀ c o s, c.changesFlash = false → flash (exec c o s) = flash s
  flash_refused : ∀ c s, flash (exec c .refused s) = flash s
  flash_erase : ∀ first last o s a, o.executed = true → flash (exec (.erase first last) o s) a =
    if first * sectorSize ≤ a ∧ a < (last + 1) * sectorSize then 0xFF else flash s a
  /-- Programming turns ones into zeros. -/
  flash_copy : ∀ address length o s a, o.executed = true →
    flash (exec (.copy address ramBuffer length) o s) a =
      if address ≤ a ∧ a < address + length then
        flash s a &&& (ram s).getD (a - address) 0xFF
      else flash s a
  flash_elsewhere : ∀ address ram length o s a, ¬ (address ≤ a ∧ a < address + length) →
    flash (exec (.copy address ram length) o s) a = flash s a
  ram_data : ∀ block s, ram (exec (.data block) .done s) = block
  ram_other : ∀ c o s, (∀ block, c ≠ .data block) → ram (exec c o s) = ram s

/-! ### The updater -/

variable {σ : Type} (rom : BootRom σ)

/-- What happens to the commands and to the reads of the file, in their order. -/
structure Environment where
  outcome : ℕ → Outcome
  readSucceeds : ℕ → Bool

structure State (σ : Type) where
  rom : σ
  sent : List Command
  reads : ℕ

inductive Step
  | read
  | command (c : Command)
  deriving DecidableEq

def attempt (env : Environment) (step : Step) (s : State σ) : Bool × State σ :=
  match step with
  | .read => (env.readSucceeds s.reads, { s with reads := s.reads + 1 })
  | .command c =>
    let outcome := env.outcome s.sent.length
    (outcome = .done, { s with rom := rom.exec c outcome s.rom, sent := s.sent ++ [c] })

/-- Steps are made until one fails. -/
def run (env : Environment) : List Step → State σ → Bool × State σ
  | [], s => (true, s)
  | step :: rest, s =>
    let (ok, s) := attempt rom env step s
    if ok then run env rest s else (false, s)

/-- The data of a block, padded as the buffer is. -/
def blockData (image : List (BitVec 8)) (flashOffset : ℕ) : List (BitVec 8) :=
  let bytesToRead :=
    if image.length - flashOffset < transferSize then image.length - flashOffset else transferSize
  let data := (image.drop flashOffset).take bytesToRead
  data ++ List.replicate (transferSize - data.length) 0xFF

def programBlock (image : List (BitVec 8)) (flashOffset : ℕ) : List Step :=
  let sector := flashOffset / sectorSize
  [.read, .command (.write ramBuffer transferSize), .command (.data (blockData image flashOffset)),
    .command (.prepare sector sector), .command (.copy flashOffset ramBuffer transferSize)] ++
  if flashOffset = 0 then [] else [.command (.compare flashOffset ramBuffer transferSize)]

/-- The values of the loop variable. -/
def offsets (first last : ℕ) : List ℕ :=
  List.range' first ((last - first + (transferSize - 1)) / transferSize) transferSize

def programRange (image : List (BitVec 8)) (first last : ℕ) : List Step :=
  (offsets first last).flatMap (programBlock image)

/-- The 32-bit word at a place of the image. -/
def word (image : List (BitVec 8)) (offset : ℕ) : BitVec 32 :=
  let byte (i : ℕ) : BitVec 32 := (image.getD (offset + i) 0xFF).setWidth 32
  byte 0 ||| byte 1 <<< 8 ||| byte 2 <<< 16 ||| byte 3 <<< 24

def vectors (image : List (BitVec 8)) : List (BitVec 32) :=
  (List.range 8).map fun i => word image (4 * i)

def vectorSum (image : List (BitVec 8)) : BitVec 32 := (vectors image).foldl (· + ·) 0

/-- `ValidateFirmware`, with whether its two reads succeed. -/
def validateFirmware (readsVectors readsCrp : Bool) (image : List (BitVec 8)) : Bool :=
  let length := image.length
  if length < 32 ∨ length > flashSize then false
  else if ¬ readsVectors then false
  else
    let resetVector := word image 4
    if word image 0 ≠ ramTop ∨ resetVector &&& 1 = 0 ∨ (resetVector &&& ~~~1).toNat ≥ length ∨
        vectorSum image ≠ 0 then false
    else if length > crpOffset then
      if readsCrp ∧ crpOffset + 4 ≤ length then !isCrpProtected (word image crpOffset) else false
    else !isCrpProtected crpNone

def programLength (image : List (BitVec 8)) : ℕ :=
  (image.length + transferSize - 1) / transferSize * transferSize

/-- `Update`, once the image has been accepted. -/
def update (image : List (BitVec 8)) : List Step :=
  [.command .synchronize, .command (.unlock 23130), .command .readPartId,
    .command (.prepare 0 (numSectors - 1)), .command (.erase 0 (numSectors - 1))] ++
  (if programLength image > sectorSize then
    programRange image sectorSize (programLength image)
  else []) ++
  (if programLength image > transferSize then
    programRange image transferSize
      (if programLength image < sectorSize then programLength image else sectorSize)
  else []) ++
  programBlock image 0

def start (s : σ) : State σ := ⟨s, [], 0⟩

/-! ### Runs of steps -/

section Runs

variable {env : Environment} {steps pre post : List Step} {step : Step} {s : State σ}

/-- A step that succeeds. -/
def succeed (s : State σ) : Step → State σ
  | .read => { s with reads := s.reads + 1 }
  | .command c => { s with rom := rom.exec c .done s.rom, sent := s.sent ++ [c] }

def perform (steps : List Step) (s : State σ) : State σ := steps.foldl (succeed rom) s

/-- A step that does not. -/
def Fails (env : Environment) (step : Step) (s s' : State σ) : Prop :=
  match step with
  | .read => s' = { s with reads := s.reads + 1 }
  | .command c => ∃ o, o = env.outcome s.sent.length ∧
    s' = { s with rom := rom.exec c o s.rom, sent := s.sent ++ [c] }

lemma attempt_cases (env : Environment) (step : Step) (s : State σ) :
    attempt rom env step s = (true, succeed rom s step) ∨
      ∃ s', attempt rom env step s = (false, s') ∧ Fails rom env step s s' := by
  cases step with
  | read =>
    cases h : env.readSucceeds s.reads with
    | true =>
      rw [attempt, h]
      exact Or.inl rfl
    | false =>
      rw [attempt, h]
      exact Or.inr ⟨_, rfl, rfl⟩
  | command c =>
    by_cases h : env.outcome s.sent.length = .done
    · rw [attempt, h]
      exact Or.inl rfl
    · refine Or.inr ⟨_, ?_, _, rfl, rfl⟩
      rw [attempt, decide_eq_false h]

/-- Either all steps succeed, or those before the first one that fails. -/
lemma run_cases (env : Environment) (steps : List Step) (s : State σ) :
    run rom env steps s = (true, perform rom steps s) ∨
      ∃ pre step post s', steps = pre ++ step :: post ∧
        Fails rom env step (perform rom pre s) s' ∧
        run rom env steps s = (false, s') := by
  induction steps generalizing s with
  | nil => exact Or.inl rfl
  | cons step rest ih =>
    obtain hsucceeds | ⟨s', hattempt, hfails⟩ := attempt_cases rom env step s
    · obtain hall | ⟨pre, later, post, s', hsplit, hfails, hrun⟩ := ih (succeed rom s step)
      · refine Or.inl ?_
        rw [run, hsucceeds]
        exact hall
      · refine Or.inr ⟨step :: pre, later, post, s', ?_, hfails, ?_⟩
        · rw [hsplit, List.cons_append]
        · rw [run, hsucceeds]
          exact hrun
    · refine Or.inr ⟨[], step, rest, s', rfl, hfails, ?_⟩
      rw [run, hattempt]
      rfl

def commands (steps : List Step) : List Command :=
  steps.filterMap fun
    | .read => none
    | .command c => some c

lemma perform_append (pre post : List Step) (s : State σ) :
    perform rom (pre ++ post) s = perform rom post (perform rom pre s) := List.foldl_append

lemma perform_sent (steps : List Step) (s : State σ) :
    (perform rom steps s).sent = s.sent ++ commands steps := by
  induction steps generalizing s with
  | nil => exact (List.append_nil _).symm
  | cons step steps ih =>
    rw [perform, List.foldl_cons]
    refine (ih _).trans ?_
    cases step with
    | read => rfl
    | command c => exact (List.append_assoc _ _ _)

lemma Fails.sent {s' : State σ} (h : Fails rom env step s s') :
    s'.sent = s.sent ++ commands [step] := by
  cases step with
  | read =>
    rw [show s' = { s with reads := s.reads + 1 } from h]
    exact (List.append_nil _).symm
  | command c =>
    obtain ⟨o, -, rfl⟩ := h
    rfl

/-- The place of a step in a row of groups. -/
lemma split_flatMap {α : Type} {f : α → List Step} {l : List α}
    (h : pre ++ step :: post = l.flatMap f) : ∃ before x after first last,
      l = before ++ x :: after ∧ pre = before.flatMap f ++ first ∧ f x = first ++ step :: last := by
  induction l generalizing pre with
  | nil => exact absurd h (by simp)
  | cons x l ih =>
    rw [List.flatMap_cons] at h
    have hlater {rest : List Step} (hpre : pre = f x ++ rest)
        (hrest : rest ++ step :: post = l.flatMap f) : ∃ before y after first last,
          x :: l = before ++ y :: after ∧ pre = before.flatMap f ++ first ∧
            f y = first ++ step :: last := by
      obtain ⟨before, y, after, first, last, hl, hpre', hy⟩ := ih hrest
      refine ⟨x :: before, y, after, first, last, ?_, ?_, hy⟩
      · rw [hl, List.cons_append]
      · rw [hpre, hpre', List.flatMap_cons, List.append_assoc]
    obtain ⟨rest, hx, hrest⟩ | ⟨rest, hpre, hrest⟩ := List.append_eq_append_iff.mp h
    · cases rest with
      | nil =>
        have hpre : pre = f x ++ [] := by
          rw [hx, List.append_nil, List.append_nil]
        exact hlater hpre hrest
      | cons first rest =>
        obtain ⟨rfl, -⟩ := List.cons.inj hrest
        exact ⟨[], x, l, pre, rest, rfl, rfl, hx⟩
    · exact hlater hpre hrest.symm

end Runs

/-! ### The flash memory -/

section Flash

variable {step : Step} {steps : List Step} {s s' : State σ}
  {image : List (BitVec 8)} {offset a : ℕ}

def Happens (step : Step) (s s' : State σ) : Prop :=
  s' = succeed rom s step ∨ ∃ env, Fails rom env step s s'

def Harmless : Step → Prop
  | .read => True
  | .command c => c.changesFlash = false

lemma flash_harmless (h : Harmless step) (hhappens : Happens rom step s s') :
    rom.flash s'.rom = rom.flash s.rom := by
  cases step with
  | read =>
    obtain rfl | ⟨env, hfails⟩ := hhappens
    · rfl
    · rw [show s' = { s with reads := s.reads + 1 } from hfails]
  | command c =>
    obtain rfl | ⟨env, o, -, rfl⟩ := hhappens
    · exact rom.flash_other c .done s.rom h
    · exact rom.flash_other c o s.rom h

lemma perform_harmless (h : ∀ step ∈ steps, Harmless step) :
    rom.flash (perform rom steps s).rom = rom.flash s.rom := by
  induction steps generalizing s with
  | nil => rfl
  | cons step steps ih =>
    obtain ⟨hstep, hsteps⟩ := List.forall_mem_cons.mp h
    exact (ih hsteps).trans (flash_harmless rom hstep (Or.inl rfl))

def copyOf (offset : ℕ) : Command := .copy offset ramBuffer transferSize

/-- The steps of a block before its copy. -/
def prelude (image : List (BitVec 8)) (offset : ℕ) : List Step :=
  let sector := offset / sectorSize
  [.read, .command (.write ramBuffer transferSize), .command (.data (blockData image offset)),
    .command (.prepare sector sector)]

def comparison (offset : ℕ) : List Step :=
  if offset = 0 then [] else [.command (.compare offset ramBuffer transferSize)]

lemma programBlock_eq (image : List (BitVec 8)) (offset : ℕ) : programBlock image offset =
    prelude image offset ++ .command (copyOf offset) :: comparison offset := rfl

lemma prelude_harmless (image : List (BitVec 8)) (offset : ℕ) :
    ∀ step ∈ prelude image offset, Harmless step := by
  simp [prelude, Harmless, Command.changesFlash]

lemma comparison_harmless (offset : ℕ) : ∀ step ∈ comparison offset, Harmless step := by
  rw [comparison]
  split <;> simp [Harmless, Command.changesFlash]

/-- Outside the block nothing changes, whatever becomes of a step. -/
lemma flash_elsewhere (hstep : step ∈ programBlock image offset)
    (ha : ¬ (offset ≤ a ∧ a < offset + transferSize)) (hhappens : Happens rom step s s') :
    rom.flash s'.rom a = rom.flash s.rom a := by
  rw [programBlock_eq, List.mem_append, List.mem_cons] at hstep
  obtain hstep | rfl | hstep := hstep
  · rw [flash_harmless rom (prelude_harmless image offset step hstep) hhappens]
  · obtain rfl | ⟨env, o, -, rfl⟩ := hhappens
    · exact rom.flash_elsewhere offset ramBuffer transferSize .done s.rom a ha
    · exact rom.flash_elsewhere offset ramBuffer transferSize o s.rom a ha
  · rw [flash_harmless rom (comparison_harmless offset step hstep) hhappens]

lemma perform_elsewhere (hsteps : ∀ step ∈ steps, step ∈ programBlock image offset)
    (ha : ¬ (offset ≤ a ∧ a < offset + transferSize)) :
    rom.flash (perform rom steps s).rom a = rom.flash s.rom a := by
  induction steps generalizing s with
  | nil => rfl
  | cons step steps ih =>
    obtain ⟨hstep, hsteps⟩ := List.forall_mem_cons.mp hsteps
    exact (ih hsteps).trans (flash_elsewhere rom hstep ha (Or.inl rfl))

lemma blockData_getD (image : List (BitVec 8)) (offset j : ℕ) (hj : j < transferSize) :
    (blockData image offset).getD j 0xFF = image.getD (offset + j) 0xFF := by
  have hlength : (if image.length - offset < transferSize then image.length - offset
      else transferSize) = min (image.length - offset) transferSize := by
    split <;> omega
  rw [blockData, hlength]
  by_cases hin : offset + j < image.length
  · have hj' : j < min (image.length - offset) transferSize := by omega
    rw [List.getD_append, List.getD_eq_getElem?_getD, List.getD_eq_getElem?_getD,
      List.getElem?_take_of_lt hj', List.getElem?_drop]
    rw [List.length_take, List.length_drop]
    omega
  · have hdata : ((image.drop offset).take (min (image.length - offset) transferSize)).length ≤ j := by
      rw [List.length_take, List.length_drop]
      omega
    rw [List.getD_append_right _ _ _ _ hdata, List.getD_eq_default image _ (not_lt.mp hin)]
    rw [List.getD_eq_getElem?_getD, List.getElem?_replicate]
    split <;> rfl

lemma perform_block (image : List (BitVec 8)) (offset : ℕ) (s : State σ) (a : ℕ) :
    rom.flash (perform rom (programBlock image offset) s).rom a =
      if offset ≤ a ∧ a < offset + transferSize then
        rom.flash s.rom a &&& image.getD a 0xFF
      else rom.flash s.rom a := by
  rw [programBlock_eq, perform_append]
  change rom.flash (perform rom (comparison offset) _).rom a = _
  rw [perform_harmless rom (comparison_harmless offset)]
  have hram : rom.ram (perform rom (prelude image offset) s).rom = blockData image offset := by
    refine (rom.ram_other (.prepare (offset / sectorSize) (offset / sectorSize)) .done _ ?_).trans
      (rom.ram_data (blockData image offset) _)
    simp
  have hcopy := rom.flash_copy offset transferSize .done (perform rom (prelude image offset) s).rom a
    rfl
  rw [perform_harmless rom (prelude_harmless image offset), hram] at hcopy
  refine hcopy.trans ?_
  split
  · next ha =>
    have hj : a - offset < transferSize := by omega
    rw [blockData_getD image offset _ hj, Nat.add_sub_cancel' ha.1]
  · rfl

lemma within_iff (h : transferSize ∣ offset) (a : ℕ) :
    (offset ≤ a ∧ a < offset + transferSize) ↔ a / transferSize * transferSize = offset := by
  obtain ⟨k, rfl⟩ := h
  have hsize : 0 < transferSize := by decide
  rw [Nat.mul_comm transferSize k]
  constructor
  · rintro ⟨hlow, hhigh⟩
    have hdiv : a / transferSize = k := by
      apply Nat.div_eq_of_lt_le hlow
      rw [Nat.add_mul, Nat.one_mul]
      exact hhigh
    rw [hdiv]
  · intro h
    rw [← h]
    exact ⟨Nat.div_mul_le_self a transferSize, Nat.lt_div_mul_add hsize⟩

/-- The blocks that have been programmed hold the image, and the others are erased. -/
lemma perform_blocks {l : List ℕ} (hnodup : l.Nodup) (haligned : ∀ o ∈ l, transferSize ∣ o)
    (herased : ∀ a < flashSize, rom.flash s.rom a = 0xFF) (ha : a < flashSize) :
    rom.flash (perform rom (l.flatMap (programBlock image)) s).rom a =
      if a / transferSize * transferSize ∈ l then image.getD a 0xFF else 0xFF := by
  induction l using List.reverseRecOn with
  | nil => exact herased a ha
  | append_singleton l o ih =>
    have hl := ih (List.nodup_append.mp hnodup).1 fun o ho =>
      haligned o (List.mem_append_left _ ho)
    have hnew : o ∉ l := fun ho =>
      (List.nodup_append.mp hnodup).2.2 o ho o (List.mem_singleton_self o) rfl
    have ho := within_iff (haligned o (List.mem_append_right _ (List.mem_singleton_self o))) a
    rw [List.flatMap_append, perform_append, List.flatMap_singleton, perform_block, hl]
    by_cases heq : a / transferSize * transferSize = o
    · rw [if_pos (ho.mpr heq), heq, if_neg hnew, if_pos (List.mem_append_right _
        (List.mem_singleton_self o))]
      exact BitVec.allOnes_and
    · rw [if_neg (fun h => heq (ho.mp h))]
      simp only [List.mem_append, List.mem_singleton, heq, or_false]

end Flash

/-! ### The order of the blocks -/

section Order

variable {image : List (BitVec 8)} {a b c : ℕ}

def order (image : List (BitVec 8)) : List ℕ :=
  (if programLength image > sectorSize then offsets sectorSize (programLength image) else []) ++
  (if programLength image > transferSize then
    offsets transferSize
      (if programLength image < sectorSize then programLength image else sectorSize)
  else []) ++ [0]

def eraseAll : Command := .erase 0 (numSectors - 1)

def setup : List Step :=
  [.command .synchronize, .command (.unlock 23130), .command .readPartId,
    .command (.prepare 0 (numSectors - 1)), .command eraseAll]

lemma update_eq (image : List (BitVec 8)) :
    update image = setup ++ (order image).flatMap (programBlock image) := by
  rw [update, order, List.flatMap_append, List.flatMap_append, List.flatMap_singleton]
  have hif (p : Prop) [Decidable p] (l : List ℕ) : (if p then l.flatMap (programBlock image) else []) =
      (if p then l else []).flatMap (programBlock image) := by
    split <;> rfl
  rw [← hif, ← hif]
  simp only [List.append_assoc]
  rfl

lemma offsets_append (hab : a ≤ b) (hbc : b ≤ c) (hdvd : transferSize ∣ b - a) :
    offsets a b ++ offsets b c = offsets a c := by
  obtain ⟨k, hk⟩ := hdvd
  have hb : b = a + transferSize * k := by omega
  subst hb
  have hfirst : (a + transferSize * k - a + (transferSize - 1)) / transferSize = k := by
    rw [transferSize]
    omega
  have hall : (c - a + (transferSize - 1)) / transferSize =
      k + (c - (a + transferSize * k) + (transferSize - 1)) / transferSize := by
    rw [transferSize] at hbc ⊢
    omega
  rw [offsets, offsets, offsets, hfirst, hall]
  exact List.range'_append

lemma programLength_bounds (h : 0 < image.length ∧ image.length ≤ flashSize) :
    ∃ n, programLength image = transferSize * n ∧ 0 < n ∧ n ≤ 128 := by
  refine ⟨(image.length + transferSize - 1) / transferSize, Nat.mul_comm _ _, ?_, ?_⟩
  · rw [transferSize]
    omega
  · rw [flashSize] at h
    rw [transferSize]
    omega

/-- The blocks that are programmed are those of the image, each of them once. -/
lemma order_perm (h : 0 < image.length ∧ image.length ≤ flashSize) :
    (order image).Perm (offsets 0 (programLength image)) := by
  obtain ⟨n, hn, hpos, -⟩ := programLength_bounds h
  have hzero : [0] = offsets 0 transferSize := rfl
  have hle : transferSize ≤ programLength image := by
    rw [hn]
    exact Nat.le_mul_of_pos_right _ hpos
  rw [order, hzero]
  by_cases hlong : programLength image > sectorSize
  · have hmore : programLength image > transferSize := lt_trans (by decide) hlong
    rw [if_pos hlong, if_pos hmore, if_neg (not_lt.mpr hlong.le),
      ← offsets_append (b := sectorSize) (Nat.zero_le _) hlong.le (by decide),
      ← offsets_append (b := transferSize) (Nat.zero_le _) (show transferSize ≤ sectorSize by decide)
        (by decide)]
    rw [List.append_assoc]
    exact List.perm_append_comm.trans (List.perm_append_comm.append_right _)
  · rw [if_neg hlong, List.nil_append]
    have hshort : (if programLength image < sectorSize then programLength image else sectorSize) =
        programLength image := by
      split <;> omega
    rw [hshort]
    by_cases hmore : programLength image > transferSize
    · rw [if_pos hmore, ← offsets_append (b := transferSize) (Nat.zero_le _) hle (by decide)]
      exact List.perm_append_comm
    · have heq : programLength image = transferSize := by omega
      rw [if_neg hmore, heq]
      exact List.Perm.refl _

lemma mem_offsets (hdvd : transferSize ∣ c) : a ∈ offsets 0 c ↔ transferSize ∣ a ∧ a < c := by
  obtain ⟨n, rfl⟩ := hdvd
  have hcount : (transferSize * n - 0 + (transferSize - 1)) / transferSize = n := by
    rw [transferSize]
    omega
  rw [offsets, hcount, List.mem_range']
  constructor
  · rintro ⟨i, hi, rfl⟩
    rw [Nat.zero_add]
    exact ⟨Nat.dvd_mul_right _ _, (Nat.mul_lt_mul_left (by decide)).mpr hi⟩
  · rintro ⟨⟨i, rfl⟩, hi⟩
    exact ⟨i, (Nat.mul_lt_mul_left (by decide)).mp hi, (Nat.zero_add _).symm⟩

lemma offsets_nodup (a b : ℕ) : (offsets a b).Nodup := List.nodup_range' transferSize (by decide)

lemma order_aligned (h : 0 < image.length ∧ image.length ≤ flashSize) {o : ℕ}
    (ho : o ∈ order image) : transferSize ∣ o := by
  obtain ⟨n, hn, -, -⟩ := programLength_bounds h
  exact ((mem_offsets (Dvd.intro n hn.symm)).mp ((order_perm h).mem_iff.mp ho)).1

lemma order_nodup (h : 0 < image.length ∧ image.length ≤ flashSize) : (order image).Nodup :=
  (order_perm h).nodup_iff.mpr (offsets_nodup _ _)

/-- Block 0 comes last. -/
lemma order_last (image : List (BitVec 8)) : ∃ l, order image = l ++ [0] := ⟨_, rfl⟩

def copied (sent : List Command) : List ℕ :=
  sent.filterMap fun
    | .copy address _ _ => some address
    | _ => none

lemma copied_block (image : List (BitVec 8)) (offset : ℕ) :
    copied (commands (programBlock image offset)) = [offset] := by
  rw [programBlock]
  split <;> rfl

lemma commands_append (l l' : List Step) : commands (l ++ l') = commands l ++ commands l' :=
  List.filterMap_append

lemma copied_append (l l' : List Command) : copied (l ++ l') = copied l ++ copied l' :=
  List.filterMap_append

lemma copied_blocks (l : List ℕ) : copied (commands (l.flatMap (programBlock image))) = l := by
  induction l with
  | nil => rfl
  | cons o l ih =>
    rw [List.flatMap_cons, commands_append, copied_append, copied_block, ih]
    rfl

lemma copied_update (image : List (BitVec 8)) :
    copied (commands (update image)) = order image := by
  rw [update_eq, commands_append, copied_append, copied_blocks]
  rfl

end Order

section Update

variable {image : List (BitVec 8)} {env : Environment} {s s' : State σ} {step : Step}
  {pre post : List Step} {a : ℕ}

/-- The erased flash memory. -/
lemma perform_setup (s : State σ) (ha : a < flashSize) :
    rom.flash (perform rom setup s).rom a = 0xFF := by
  refine (rom.flash_erase 0 (numSectors - 1) .done _ a rfl).trans (if_pos ⟨Nat.zero_le _, ?_⟩)
  exact ha

/-- Where the update has stopped. -/
lemma failure_cases (hsplit : update image = pre ++ step :: post) :
    (∃ later, setup = pre ++ step :: later) ∨
    ∃ before o after first last, order image = before ++ o :: after ∧
      programBlock image o = first ++ step :: last ∧
      pre = setup ++ (before.flatMap (programBlock image) ++ first) := by
  rw [update_eq] at hsplit
  have hblocks {rest : List Step} (hpre : pre = setup ++ rest)
      (hrest : rest ++ step :: post = (order image).flatMap (programBlock image)) :
      ∃ before o after first last, order image = before ++ o :: after ∧
        programBlock image o = first ++ step :: last ∧
        pre = setup ++ (before.flatMap (programBlock image) ++ first) := by
    obtain ⟨before, o, after, first, last, horder, hfirst, hblock⟩ := split_flatMap hrest
    exact ⟨before, o, after, first, last, horder, hblock, hfirst ▸ hpre⟩
  obtain ⟨rest, hpre, hrest⟩ | ⟨rest, hpre, hrest⟩ := List.append_eq_append_iff.mp hsplit
  · exact Or.inr (hblocks hpre hrest.symm)
  · cases rest with
    | nil =>
      have hempty : pre = setup ++ [] := by
        rw [hpre, List.append_nil, List.append_nil]
      exact Or.inr (hblocks hempty hrest)
    | cons later rest =>
      obtain ⟨rfl, -⟩ := List.cons.inj hrest
      exact Or.inl ⟨rest, hpre⟩

/-- Until the flash memory is erased it stays as it was. -/
lemma flash_before_erase (hsetup : ∃ later, setup = pre ++ step :: later)
    (hfails : Fails rom env step (perform rom pre s) s')
    (herase : eraseAll ∉ commands (pre ++ [step])) : rom.flash s'.rom = rom.flash s.rom := by
  have hharmless (step' : Step) (hstep : step' ∈ pre ++ [step]) : Harmless step' := by
    obtain ⟨later, hlater⟩ := hsetup
    have hmem : step' ∈ setup := by
      rw [hlater, ← List.singleton_append, ← List.append_assoc]
      exact List.mem_append_left _ hstep
    have hne : step' ≠ .command eraseAll := by
      rintro rfl
      exact herase (List.mem_filterMap.mpr ⟨_, hstep, rfl⟩)
    simp only [setup, List.mem_cons, List.not_mem_nil, or_false, hne] at hmem
    obtain rfl | rfl | rfl | rfl := hmem <;> rfl
  have hstep := hharmless step (List.mem_append_right _ (List.mem_singleton_self step))
  rw [flash_harmless rom hstep (Or.inr ⟨env, hfails⟩)]
  exact perform_harmless rom fun step hstep => hharmless step (List.mem_append_left _ hstep)

/-- What is not in a block of the image is padding. -/
lemma getD_of_not_mem (h : 0 < image.length ∧ image.length ≤ flashSize)
    (ha : a / transferSize * transferSize ∉ order image) : image.getD a 0xFF = 0xFF := by
  apply List.getD_eq_default
  by_contra hlt
  rw [not_le] at hlt
  obtain ⟨n, hn, -, -⟩ := programLength_bounds h
  apply ha
  rw [(order_perm h).mem_iff, mem_offsets (Dvd.intro n hn.symm)]
  refine ⟨Nat.dvd_mul_left _ _, ?_⟩
  have hle := Nat.div_mul_le_self a transferSize
  have hlength : image.length ≤ programLength image := by
    rw [programLength, transferSize]
    omega
  omega

/-- The memory when the blocks before one have been programmed. -/
lemma perform_before {before after : List ℕ} {o : ℕ}
    (h : 0 < image.length ∧ image.length ≤ flashSize) (horder : order image = before ++ o :: after)
    (ha : a < flashSize) :
    rom.flash (perform rom (setup ++ before.flatMap (programBlock image)) s).rom a =
      if a / transferSize * transferSize ∈ before then image.getD a 0xFF else 0xFF := by
  have hnodup := order_nodup h
  rw [horder, List.nodup_append] at hnodup
  rw [perform_append]
  apply perform_blocks rom hnodup.1
  · intro o ho
    apply order_aligned h
    rw [horder]
    exact List.mem_append_left _ ho
  · exact fun a ha => perform_setup rom s ha
  · exact ha

lemma failed_elsewhere {o : ℕ} {first last : List Step}
    (hblock : programBlock image o = first ++ step :: last)
    (hfails : Fails rom env step (perform rom first s) s')
    (ha : ¬ (o ≤ a ∧ a < o + transferSize)) : rom.flash s'.rom a = rom.flash s.rom a := by
  have hstep : step ∈ programBlock image o := by
    rw [hblock]
    exact List.mem_append_right _ List.mem_cons_self
  have hfirst : ∀ step' ∈ first, step' ∈ programBlock image o := by
    intro step' hstep'
    rw [hblock]
    exact List.mem_append_left _ hstep'
  rw [flash_elsewhere rom hstep ha (Or.inr ⟨env, hfails⟩)]
  exact perform_elsewhere rom hfirst ha

/-- Up to its copy a block stays as it was. -/
lemma failed_before_copy {o : ℕ} {first last : List Step}
    (hblock : programBlock image o = first ++ step :: last)
    (hfails : Fails rom env step (perform rom first s) s')
    (hcopy : copyOf o ∉ commands (first ++ [step])) : rom.flash s'.rom = rom.flash s.rom := by
  have hharmless (step' : Step) (hstep : step' ∈ first ++ [step]) : Harmless step' := by
    have hmem : step' ∈ programBlock image o := by
      rw [hblock, ← List.singleton_append, ← List.append_assoc]
      exact List.mem_append_left _ hstep
    rw [programBlock_eq, List.mem_append, List.mem_cons] at hmem
    obtain hmem | rfl | hmem := hmem
    · exact prelude_harmless image o step' hmem
    · have hmem : copyOf o ∈ commands (first ++ [step]) := List.mem_filterMap.mpr ⟨_, hstep, rfl⟩
      exact absurd hmem hcopy
    · exact comparison_harmless o step' hmem
  have hstep := hharmless step (List.mem_append_right _ (List.mem_singleton_self step))
  rw [flash_harmless rom hstep (Or.inr ⟨env, hfails⟩)]
  exact perform_harmless rom fun step hstep => hharmless step (List.mem_append_left _ hstep)

/-- A block that is not the last one is not block 0, and block 0 is not among those before. -/
lemma zero_not_mem_before {before after : List ℕ} {o : ℕ}
    (h : 0 < image.length ∧ image.length ≤ flashSize)
    (horder : order image = before ++ o :: after) : 0 ∉ before := by
  intro hzero
  obtain ⟨l, hl⟩ := order_last image
  have hnodup := order_nodup h
  have hlast : (before ++ o :: after).getLast? = some 0 := by
    rw [← horder, hl, List.getLast?_concat]
  have hafter : 0 ∈ o :: after := by
    rw [List.getLast?_append_of_ne_nil _ (List.cons_ne_nil o after)] at hlast
    exact List.mem_of_getLast? hlast
  rw [horder] at hnodup
  exact (List.nodup_append.mp hnodup).2.2 0 hzero 0 hafter rfl

lemma after_zero {before after : List ℕ} (h : 0 < image.length ∧ image.length ≤ flashSize)
    (horder : order image = before ++ 0 :: after) : after = [] := by
  obtain ⟨l, hl⟩ := order_last image
  have hlast : before ++ 0 :: after = l ++ [0] := by
    rw [← horder, hl]
  by_contra hne
  obtain ⟨init, x, rfl⟩ := (List.eq_nil_or_concat after).resolve_left hne
  rw [List.concat_eq_append, ← List.cons_append, ← List.append_assoc] at hlast
  have hx : x = 0 := (List.cons.inj (List.append_inj' hlast rfl).2).1
  have hnodup := order_nodup h
  rw [horder, List.nodup_append, List.nodup_cons] at hnodup
  apply hnodup.2.1.1
  rw [hx, List.concat_eq_append]
  exact List.mem_append_right _ (List.mem_singleton_self 0)

lemma validate_spec {readsVectors readsCrp : Bool}
    (h : validateFirmware readsVectors readsCrp image = true) :
    (0 < image.length ∧ image.length ≤ flashSize) ∧ vectorSum image = 0 ∧
      isCrpProtected (word image crpOffset) = false := by
  rw [validateFirmware] at h
  dsimp only at h
  split_ifs at h with hlength hreads hvectors hlong hcrp
  · rw [not_or] at hlength
    simp only [not_or, not_not] at hvectors
    exact ⟨by omega, hvectors.2.2.2, by simpa using h⟩
  · rw [not_or] at hlength
    simp only [not_or, not_not] at hvectors
    refine ⟨by omega, hvectors.2.2.2, ?_⟩
    have hbyte (i : ℕ) : image.getD (crpOffset + i) 0xFF = 0xFF :=
      List.getD_eq_default _ _ (by omega)
    rw [word]
    simp only [hbyte]
    decide

/-- The outcome of a command that fails is the one of its first place. -/
lemma Fails.outcome {c : Command} (hfails : Fails rom env (.command c) s s') (hnew : c ∉ s.sent) :
    s'.rom = rom.exec c (env.outcome (s'.sent.idxOf c)) s.rom := by
  obtain ⟨o, rfl, rfl⟩ := hfails
  have hplace : (s.sent ++ [c]).idxOf c = s.sent.length := by
    rw [List.idxOf_append_of_notMem hnew, List.idxOf_cons_self, Nat.add_zero]
  change rom.exec c _ s.rom = rom.exec c (env.outcome ((s.sent ++ [c]).idxOf c)) s.rom
  rw [hplace]

/-- The command that has been sent last is the one that fails. -/
lemma last_fails {l first last : List Step} {c : Command}
    (hsplit : l ++ [.command c] = first ++ step :: last) (hnew : c ∉ commands l)
    (hmem : c ∈ commands (first ++ [step])) : step = .command c ∧ first = l := by
  obtain rfl | ⟨init, x, rfl⟩ := List.eq_nil_or_concat last
  · obtain ⟨hfirst, hstep⟩ := List.append_inj' hsplit rfl
    exact ⟨(List.cons.inj hstep).1.symm, hfirst.symm⟩
  · rw [List.concat_eq_append, ← List.cons_append, ← List.append_assoc] at hsplit
    have hl : l = first ++ [step] ++ init := by
      rw [List.append_assoc, List.singleton_append]
      exact (List.append_inj' hsplit rfl).1
    rw [hl, commands_append] at hnew
    exact absurd (List.mem_append_left _ hmem) hnew

lemma failed_sent {s : σ} (hfails : Fails rom env step (perform rom pre (start s)) s') :
    s'.sent = commands (pre ++ [step]) := by
  rw [hfails.sent, perform_sent, commands_append]
  rfl

lemma sent_pre (pre : List Step) (s : σ) : (perform rom pre (start s)).sent = commands pre := by
  rw [perform_sent]
  rfl

/-- A failure of the erase. -/
lemma failed_setup {s : σ} (hsetup : ∃ later, setup = pre ++ step :: later)
    (hfails : Fails rom env step (perform rom pre (start s)) s') :
    copyOf 0 ∉ s'.sent ∧ (eraseAll ∈ s'.sent →
      (env.outcome (s'.sent.idxOf eraseAll)).executed = true → ∀ a < flashSize,
        rom.flash s'.rom a = 0xFF) := by
  obtain ⟨later, hlater⟩ := hsetup
  rw [failed_sent rom hfails]
  constructor
  · intro hmem
    have hall : copyOf 0 ∈ commands setup := by
      rw [hlater, ← List.singleton_append, ← List.append_assoc, commands_append]
      exact List.mem_append_left _ hmem
    exact absurd hall (by decide)
  · intro hmem hexecuted a ha
    obtain ⟨rfl, rfl⟩ := last_fails (l := setup.dropLast) hlater (by decide) hmem
    have hnew : eraseAll ∉ (perform rom setup.dropLast (start s)).sent := by
      rw [sent_pre]
      decide
    rw [hfails.outcome rom hnew, eraseAll, rom.flash_erase]
    · exact if_pos ⟨Nat.zero_le _, ha⟩
    · rw [failed_sent rom hfails]
      exact hexecuted

lemma mem_copied {o : ℕ} {sent : List Command} (h : copyOf o ∈ sent) : o ∈ copied sent :=
  List.mem_filterMap.mpr ⟨_, h, rfl⟩

/-- The blocks that are copied when the update fails in block `o`. -/
lemma copy_sent {before : List ℕ} {o : ℕ} {first last : List Step} (hzero : 0 ∉ before)
    (hblock : programBlock image o = first ++ step :: last)
    (hmem : copyOf 0 ∈ commands (setup ++ (before.flatMap (programBlock image) ++ first) ++ [step])) :
    o = 0 ∧ copyOf 0 ∈ commands (first ++ [step]) := by
  have hsetup : copyOf 0 ∉ commands setup := by decide
  have hbefore : copyOf 0 ∉ commands (before.flatMap (programBlock image)) := by
    intro h
    have hcopied := mem_copied h
    rw [copied_blocks] at hcopied
    exact hzero hcopied
  rw [List.append_assoc, List.append_assoc, commands_append, commands_append] at hmem
  have hlast : copyOf 0 ∈ commands (first ++ [step]) := by
    obtain h | h := List.mem_append.mp hmem
    · exact absurd h hsetup
    · exact (List.mem_append.mp h).resolve_left hbefore
  refine ⟨?_, hlast⟩
  have hall : copyOf 0 ∈ commands (programBlock image o) := by
    rw [hblock, ← List.singleton_append, ← List.append_assoc, commands_append]
    exact List.mem_append_left _ hlast
  have hcopied := mem_copied hall
  rw [copied_block, List.mem_singleton] at hcopied
  exact hcopied.symm

/-- A failure while block `o` is programmed. -/
lemma failed_block {s : σ} {before after : List ℕ} {o : ℕ} {first last : List Step}
    (h : 0 < image.length ∧ image.length ≤ flashSize) (horder : order image = before ++ o :: after)
    (hblock : programBlock image o = first ++ step :: last)
    (hpre : pre = setup ++ (before.flatMap (programBlock image) ++ first))
    (hfails : Fails rom env step (perform rom pre (start s)) s') :
    eraseAll ∈ s'.sent ∧
    ((copyOf 0 ∈ s'.sent → env.outcome (s'.sent.idxOf (copyOf 0)) = .refused) →
      ∀ a < transferSize, rom.flash s'.rom a = 0xFF) ∧
    (copyOf 0 ∈ s'.sent → ∀ a, transferSize ≤ a → a < flashSize →
      rom.flash s'.rom a = image.getD a 0xFF) := by
  have hzero := zero_not_mem_before h horder
  have hsent := failed_sent rom hfails
  have haligned : transferSize ∣ o := by
    apply order_aligned h
    rw [horder]
    exact List.mem_append_right _ List.mem_cons_self
  have hstopped : Fails rom env step
      (perform rom first (perform rom (setup ++ before.flatMap (programBlock image)) (start s))) s' := by
    rw [← perform_append, List.append_assoc, ← hpre]
    exact hfails
  have hmemory (a : ℕ) (ha : a < flashSize) := perform_before rom (s := start s) h horder ha
  refine ⟨?_, ?_, ?_⟩
  · rw [hsent, hpre, List.append_assoc, commands_append]
    exact List.mem_append_left _ (by decide)
  · intro hrefused a ha
    have ha' : a < flashSize := lt_trans ha (by decide)
    have herased := hmemory a ha'
    rw [Nat.div_eq_of_lt ha, Nat.zero_mul, if_neg hzero] at herased
    by_cases ho : o = 0
    · subst ho
      by_cases hcopy : copyOf 0 ∈ s'.sent
      · have hlast : copyOf 0 ∈ commands (first ++ [step]) := by
          rw [hsent, hpre] at hcopy
          exact (copy_sent hzero hblock hcopy).2
        have hnew : copyOf 0 ∉ commands (prelude image 0) := by simp [prelude, commands, copyOf]
        obtain ⟨rfl, rfl⟩ := last_fails hblock hnew hlast
        have hsent' : copyOf 0 ∉ (perform rom pre (start s)).sent := by
          rw [sent_pre, hpre, ← List.append_assoc, commands_append]
          intro hmem
          obtain hmem | hmem := List.mem_append.mp hmem
          · have hcopied := mem_copied hmem
            rw [commands_append, copied_append, copied_blocks] at hcopied
            exact hzero ((List.mem_append.mp hcopied).resolve_left (by decide))
          · exact hnew hmem
        have hflash : rom.flash s'.rom = rom.flash (perform rom pre (start s)).rom := by
          rw [hfails.outcome rom hsent', hrefused hcopy, rom.flash_refused]
        rw [hflash, hpre, ← List.append_assoc, perform_append,
          perform_harmless rom (prelude_harmless image 0)]
        exact herased
      · have hcopy' : copyOf 0 ∉ commands (first ++ [step]) := by
          intro hmem
          apply hcopy
          rw [hsent, hpre, List.append_assoc, List.append_assoc, commands_append, commands_append]
          exact List.mem_append_right _ (List.mem_append_right _ hmem)
        rw [failed_before_copy rom hblock hstopped hcopy']
        exact herased
    · have hout : ¬ (o ≤ a ∧ a < o + transferSize) := by
        have hle := Nat.le_of_dvd (Nat.pos_of_ne_zero ho) haligned
        omega
      rw [failed_elsewhere rom hblock hstopped hout]
      exact herased
  · intro hcopy a hlow ha
    rw [hsent, hpre] at hcopy
    obtain ⟨rfl, -⟩ := copy_sent hzero hblock hcopy
    have hout : ¬ (0 ≤ a ∧ a < 0 + transferSize) := by omega
    rw [failed_elsewhere rom hblock hstopped hout, hmemory a ha]
    split
    · rfl
    · next hblockOf =>
      symm
      apply getD_of_not_mem h
      rw [horder, after_zero h horder, List.mem_append, List.mem_singleton, not_or]
      refine ⟨hblockOf, ?_⟩
      have hpos : 0 < a / transferSize := Nat.div_pos hlow (by decide)
      have hpos' : 0 < a / transferSize * transferSize := Nat.mul_pos hpos (by decide)
      exact hpos'.ne'

/-- What was copied before the update failed. -/
lemma copied_failed (hsplit : update image = pre ++ step :: post)
    {s : σ} (hfails : Fails rom env step (perform rom pre (start s)) s') : copied s'.sent <+: order image := by
  have hall : pre ++ [step] ++ post = update image := by
    rw [hsplit, List.append_assoc, List.singleton_append]
  refine ⟨copied (commands post), ?_⟩
  rw [failed_sent rom hfails, ← copied_append, ← commands_append, hall, copied_update]

/-- Every block of an accepted image is programmed once, block 0 last. A failure before the erase
changes nothing, and after it block 0 stays erased unless what fails is its own copy: then the other
blocks are all in place. -/
theorem update_failsafe (env : Environment) (image : List (BitVec 8)) (readsVectors readsCrp : Bool)
    (h : validateFirmware readsVectors readsCrp image = true) (s : σ) :
    let r := run rom env (update image) (start s)
    (order image).Perm (offsets 0 (programLength image)) ∧ (order image).getLast? = some 0 ∧
    copied r.2.sent <+: order image ∧
    vectorSum image = 0 ∧ isCrpProtected (word image crpOffset) = false ∧
    (r.1 = true → copied r.2.sent = order image ∧
      ∀ a < flashSize, rom.flash r.2.rom a = image.getD a 0xFF) ∧
    (r.1 = false →
      (eraseAll ∉ r.2.sent → rom.flash r.2.rom = rom.flash s) ∧
      (eraseAll ∈ r.2.sent → (env.outcome (r.2.sent.idxOf eraseAll)).executed = true →
        (copyOf 0 ∈ r.2.sent → env.outcome (r.2.sent.idxOf (copyOf 0)) = .refused) →
        ∀ a < transferSize, rom.flash r.2.rom a = 0xFF) ∧
      (copyOf 0 ∈ r.2.sent → ∀ a, transferSize ≤ a → a < flashSize →
        rom.flash r.2.rom a = image.getD a 0xFF)) := by
  obtain ⟨hlength, hsum, hcrp⟩ := validate_spec h
  have hlast : (order image).getLast? = some 0 := by
    obtain ⟨l, hl⟩ := order_last image
    rw [hl, List.getLast?_concat]
  refine ⟨order_perm hlength, hlast, ?_⟩
  obtain hrun | ⟨pre, step, post, s', hsplit, hfails, hrun⟩ := run_cases rom env (update image) (start s)
  · rw [hrun]
    have hcopied : copied (perform rom (update image) (start s)).sent = order image := by
      rw [sent_pre, copied_update]
    refine ⟨?_, hsum, hcrp, fun _ => ⟨hcopied, ?_⟩, fun hfalse => absurd hfalse.symm Bool.false_ne_true⟩
    · rw [hcopied]
    · intro a ha
      rw [update_eq, perform_append, perform_blocks rom (order_nodup hlength)
        (fun o ho => order_aligned hlength ho) (fun a ha => perform_setup rom (start s) ha) ha]
      split
      · rfl
      · next hout => exact (getD_of_not_mem hlength hout).symm
  · rw [hrun]
    refine ⟨copied_failed rom hsplit hfails, hsum, hcrp, fun htrue => absurd htrue Bool.false_ne_true,
      fun _ => ?_⟩
    obtain hsetup | ⟨before, o, after, first, last, horder, hblock, hpre⟩ := failure_cases hsplit
    · obtain ⟨hcopy, herased⟩ := failed_setup rom hsetup hfails
      refine ⟨?_, ?_, fun hmem => absurd hmem hcopy⟩
      · intro herase
        rw [failed_sent rom hfails] at herase
        exact flash_before_erase rom hsetup hfails herase
      · intro herase hexecuted _ a ha
        exact herased herase hexecuted a (lt_trans ha (by decide))
    · obtain ⟨herase, hzero, hrest⟩ := failed_block rom hlength horder hblock hpre hfails
      exact ⟨fun hnot => absurd herase hnot, fun _ _ => hzero, hrest⟩

end Update

/-! ### A boot ROM -/

/-- What is left undone when a copy is interrupted is the end of it. -/
def plainExec (c : Command) (o : Outcome) (s : (ℕ → BitVec 8) × List (BitVec 8)) :
    (ℕ → BitVec 8) × List (BitVec 8) :=
  match c with
  | .erase first last =>
    if o.executed then
      (fun a => if first * sectorSize ≤ a ∧ a < (last + 1) * sectorSize then 0xFF else s.1 a, s.2)
    else s
  | .copy address ram length =>
    let count := match o with
      | .done | .lost => length
      | .refused => 0
      | .interrupted part => min part length
    (fun a => if address ≤ a ∧ a < address + count ∧ ram = ramBuffer then
      s.1 a &&& s.2.getD (a - address) 0xFF else s.1 a, s.2)
  | .data block => (s.1, if o.executed then block else s.2)
  | _ => s

def plainRom : BootRom ((ℕ → BitVec 8) × List (BitVec 8)) where
  flash s := s.1
  ram s := s.2
  exec := plainExec
  flash_other c o s h := by
    cases c with
    | erase first last => exact absurd h.symm Bool.false_ne_true
    | copy address ram length => exact absurd h.symm Bool.false_ne_true
    | _ => rfl
  flash_refused c s := by
    cases c with
    | copy address ram length =>
      funext a
      refine if_neg ?_
      rintro ⟨hlow, hhigh, -⟩
      exact absurd hhigh (not_lt.mpr hlow)
    | _ => rfl
  flash_erase first last o s a ho := by
    rw [plainExec, if_pos ho]
  flash_copy address length o s a ho := by
    cases o with
    | done => simp [plainExec]
    | lost => simp [plainExec]
    | refused => exact absurd ho (by decide)
    | interrupted part => exact absurd ho Bool.false_ne_true
  flash_elsewhere address ram length o s a h := by
    refine if_neg ?_
    rintro ⟨hlow, hhigh, -⟩
    apply h
    refine ⟨hlow, lt_of_lt_of_le hhigh ?_⟩
    cases o with
    | done => exact le_refl _
    | lost => exact le_refl _
    | refused => exact Nat.le_add_right _ _
    | interrupted part => exact Nat.add_le_add_left (min_le_right _ _) _
  ram_data block s := rfl
  ram_other c o s h := by
    cases c with
    | erase first last =>
      rw [plainExec]
      split <;> rfl
    | data block => exact absurd rfl (h block)
    | _ => rfl

/-- The vectors of a small image: the stack, the reset vector and what makes the sum zero. -/
def smallImage : List (BitVec 8) :=
  [0x00, 0x20, 0x00, 0x10, 0x11, 0, 0, 0] ++ List.replicate 20 0 ++ [0xEF, 0xDF, 0xFF, 0xEF]

def fails (place : ℕ) (o : Outcome) : Environment :=
  ⟨fun i => if i = place then o else .done, fun _ => true⟩

theorem update_failsafe_small : validateFirmware true true smallImage = true ∧
    (let r := run plainRom (fails 7 .refused) (update smallImage) (start (fun _ => 0, []))
    r.1 = false ∧ eraseAll ∈ r.2.sent ∧ ∀ a < transferSize, plainRom.flash r.2.rom a = 0xFF) := by
  have hvalid : validateFirmware true true smallImage = true := by decide +kernel
  have hspec := update_failsafe plainRom (fails 7 .refused) smallImage true true hvalid (fun _ => 0, [])
  have hfails : (run plainRom (fails 7 .refused) (update smallImage) (start (fun _ => 0, []))).1 = false
    := by decide +kernel
  have herase : eraseAll ∈
      (run plainRom (fails 7 .refused) (update smallImage) (start (fun _ => 0, []))).2.sent := by
    decide +kernel
  refine ⟨hvalid, hfails, herase, ?_⟩
  exact (hspec.2.2.2.2.2.2 hfails).2.1 herase (by decide +kernel) (by decide +kernel)

/-- When the boot ROM does not answer at all the old firmware stays, and when the reply to the last
copy is lost the new one is in place. -/
theorem update_leaves_block_zero : validateFirmware true true smallImage = true ∧
    (let silent := run plainRom (fails 0 .lost) (update smallImage) (start (fun _ => 0, []))
    silent.1 = false ∧ plainRom.flash silent.2.rom 0 = 0) ∧
    (let unanswered := run plainRom (fails 8 .lost) (update smallImage) (start (fun _ => 0, []))
    unanswered.1 = false ∧ plainRom.flash unanswered.2.rom 4 = 0x11) := by
  decide +kernel

end RepRapFirmware.Hardware.FlashProgramming
