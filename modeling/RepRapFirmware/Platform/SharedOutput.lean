import RepRapFirmware.Library.Runs
import Mathlib.Data.Finset.Card
import Mathlib.Tactic.DeriveFintype
import Mathlib.Logic.Function.Basic

/-! One chain of output buffers that several destinations refer to. The position up to which a
  buffer
has been read is stored in the buffer, not with the destination. -/

namespace RepRapFirmware.Platform.SharedOutput

open Library.Runs

inductive Destination
  | aux
  | aux2
  | usb
  deriving DecidableEq

instance : Fintype Destination := ⟨{.aux, .aux2, .usb}, fun d => by cases d <;> decide⟩

/-- The buffers of the chain by their place in it, the first item of every destination's output
stack
as long as it is one of them, and what every destination has output. -/
structure State where
  bytesRead : ℕ → ℕ
  references : ℕ → ℕ
  inPool : ℕ → Bool
  items : Destination → Option ℕ
  output : Destination → List Char

variable (chain : List (List Char))

def data (i : ℕ) : List Char := chain.getD i []

def text : List Char := chain.flatten

/-- The chain after `Message` has raised its references and queued it for the destinations, or has
released it if there are none. -/
def message (dests : Finset Destination) : State where
  bytesRead := fun _ => 0
  references := fun _ => 1 + (dests.card - 1)
  inPool := fun _ => decide (dests = ∅)
  items := fun d => if d ∈ dests ∧ chain ≠ [] then some 0 else none
  output := fun _ => []

def next (i : ℕ) : Option ℕ := if i + 1 < chain.length then some (i + 1) else none

namespace State

def bytesLeft (s : State) (i : ℕ) : ℕ := (data chain i).length - s.bytesRead i

/-- `Release` -/
def release (s : State) (i : ℕ) : State :=
  if 1 < s.references i then
    { s with
      references := Function.update s.references i (s.references i - 1)
      bytesRead := Function.update s.bytesRead i 0 }
  else { s with inPool := Function.update s.inPool i true }

def releaseFirstItem (d : Destination) (s : State) : State :=
  match s.items d with
  | none => s
  | some i => { s.release i with items := Function.update s.items d (next chain i) }

/-- `ReleaseAll` of what is left of the chain -/
def releaseAll (d : Destination) (s : State) : State := (releaseFirstItem chain d)^[chain.length] s

/-- One turn of writing: as much of the buffer as can be written, and the release of the buffer when
there is nothing left in it. -/
def write (d : Destination) (canWrite : ℕ) (s : State) : State :=
  match s.items d with
  | none => s
  | some i =>
    let bytesToWrite := min canWrite (s.bytesLeft chain i)
    let s := { s with
      output := Function.update s.output d
        (s.output d ++ ((data chain i).drop (s.bytesRead i)).take bytesToWrite)
      bytesRead := Function.update s.bytesRead i (s.bytesRead i + bytesToWrite) }
    if s.bytesLeft chain i = 0 then s.releaseFirstItem chain d else s

/-- `AuxDevice::Flush` -/
def flushAux (d : Destination) (isEnabled : Bool) (canWrite : ℕ) (s : State) : State :=
  if isEnabled then s.write chain d canWrite else s.releaseAll chain d

/-- The loop of `FlushMessages`. `expired` buffers are too old to wait for when one cannot be
written
completely. -/
def usbLoop (expired : ℕ) (canWrite : ℕ → ℕ) : ℕ → State → State
  | 0, s => s
  | turns + 1, s =>
    match s.items .usb with
    | none => s
    | some i =>
      let bytesLeft := s.bytesLeft chain i - min (canWrite i) (s.bytesLeft chain i)
      let s := s.write chain .usb (canWrite i)
      if bytesLeft ≠ 0 then (releaseFirstItem chain .usb)^[expired] s
      else usbLoop expired canWrite turns s

def flushMessages (isConnected : Bool) (expired : ℕ) (canWrite : ℕ → ℕ) (s : State) : State :=
  if isConnected then s.usbLoop chain expired canWrite chain.length else s.releaseAll chain .usb

end State

/-- What may happen to the chain between two points at which another destination may run. -/
inductive Event
  | write (d : Destination) (canWrite : ℕ)
  | drop (d : Destination)
  | timeout (expired : ℕ)
  deriving DecidableEq

def step (s : State) : Event → State
  | .write d canWrite => s.write chain d canWrite
  | .drop d => s.releaseAll chain d
  | .timeout expired => (State.releaseFirstItem chain .usb)^[expired] s

/-- A call writes, buffer by buffer, until one cannot be written completely. -/
lemma usbLoop_eq_run (expired : ℕ) (canWrite : ℕ → ℕ) (turns : ℕ) (s : State) :
    ∃ events, s.usbLoop chain expired canWrite turns = run (step chain) s events ∧
      ∀ e ∈ events, (∃ n, e = .write .usb n) ∨ e = .timeout expired := by
  induction turns generalizing s with
  | zero => exact ⟨[], rfl, fun e he => absurd he List.not_mem_nil⟩
  | succ turns ih =>
    rw [State.usbLoop]
    cases hitem : s.items .usb with
    | none => exact ⟨[], rfl, fun e he => absurd he List.not_mem_nil⟩
    | some i =>
      simp only
      split
      · refine ⟨[.write .usb (canWrite i), .timeout expired], rfl, fun e he => ?_⟩
        rcases List.mem_pair.mp he with rfl | rfl
        · exact .inl ⟨_, rfl⟩
        · exact .inr rfl
      · obtain ⟨events, hrun, hevents⟩ := ih (s.write chain .usb (canWrite i))
        refine ⟨.write .usb (canWrite i) :: events, hrun, List.forall_mem_cons.mpr ⟨?_, hevents⟩⟩
        exact .inl ⟨_, rfl⟩

theorem flushMessages_eq_run (isConnected : Bool) (expired : ℕ) (canWrite : ℕ → ℕ) (s : State) :
    ∃ events, s.flushMessages chain isConnected expired canWrite = run (step chain) s events ∧
      ∀ e ∈ events, (∃ n, e = .write .usb n) ∨ e = .timeout expired ∨ e = .drop .usb := by
  rw [State.flushMessages]
  split
  · obtain ⟨events, hrun, hevents⟩ := usbLoop_eq_run chain expired canWrite chain.length s
    exact ⟨events, hrun, fun e he => (hevents e he).imp_right .inl⟩
  · refine ⟨[.drop .usb], rfl, fun e he => ?_⟩
    exact .inr (.inr (List.mem_singleton.mp he))

theorem flushAux_eq_step (d : Destination) (isEnabled : Bool) (canWrite : ℕ) (s : State) :
    s.flushAux chain d isEnabled canWrite =
      step chain s (if isEnabled then .write d canWrite else .drop d) := by
  cases isEnabled <;> rfl

/-! ### What is to come out of it -/

/-- The place in the chain that a destination has reached. -/
def State.position (s : State) (d : Destination) : ℕ := (s.items d).getD chain.length

def textBefore (i : ℕ) : List Char := (chain.take i).flatten

/-- How much of its buffer a destination has output. -/
def State.sent (s : State) (d : Destination) : ℕ :=
  (s.output d).length - (textBefore chain (s.position chain d)).length

/-- Every destination has output the text up to where it is, and the buffers that all have passed
are
back in the pool. -/
structure InOrder (dests : Finset Destination) (s : State) : Prop where
  output : ∀ d ∈ dests, s.output d <+: text chain
  whole : ∀ d ∈ dests, s.items d = none → s.output d = text chain
  inPool : ∀ i < chain.length, s.inPool i = true ↔ ∀ d ∈ dests, i < s.position chain d

structure Complete (dests : Finset Destination) (s : State) : Prop where
  output : ∀ d ∈ dests, s.output d = text chain
  inPool : ∀ i < chain.length, s.inPool i = true

/-- The destination writes nothing from a buffer that another destination has output a part of, and
it
is neither closed nor too slow. -/
def Undisturbed (s : State) : Event → Prop
  | .write d canWrite =>
    canWrite = 0 ∨ s.items d = none ∨
      ∀ other, other ≠ d → s.items other = s.items d → s.sent chain other = 0
  | .drop d => s.items d = none
  | .timeout expired => expired = 0 ∨ s.items .usb = none

instance (s : State) (e : Event) : Decidable (Undisturbed chain s e) := by
  cases e with
  | write d canWrite => exact inferInstanceAs (Decidable (_ ∨ _ ∨ _))
  | drop d => exact inferInstanceAs (Decidable (_ = _))
  | timeout expired => exact inferInstanceAs (Decidable (_ ∨ _))

def Serves (d : Destination) : Event → Bool
  | .write d' canWrite => d' = d && decide (0 < canWrite)
  | _ => false

variable {chain} {dests : Finset Destination} {s : State} {d d' : Destination} {i j n : ℕ}

/-! ### The text up to a buffer -/

lemma textBefore_succ (hi : i < chain.length) :
    textBefore chain (i + 1) = textBefore chain i ++ data chain i := by
  rw [textBefore, List.take_add_one, List.flatten_append, data, List.getD_eq_getElem?_getD,
    List.getElem?_eq_getElem hi, Option.getD_some, Option.toList_some, List.flatten_singleton]
  rfl

lemma textBefore_length (chain : List (List Char)) : textBefore chain chain.length = text chain :=
    by
  rw [textBefore, List.take_length]
  rfl

lemma textBefore_le (chain : List (List Char)) (i : ℕ) : textBefore chain i <+: text chain :=
  (List.take_prefix i chain).flatten

lemma position_of_some (hd : s.items d = some i) : s.position chain d = i := by
  rw [State.position, hd, Option.getD_some]

lemma position_of_none (hd : s.items d = none) : s.position chain d = chain.length := by
  rw [State.position, hd, Option.getD_none]

/-! ### What every undisturbed step keeps -/

/-- The destinations that have not passed the buffer. -/
def State.waiting (s : State) (chain : List (List Char)) (dests : Finset Destination) (i : ℕ) :
    Finset Destination := dests.filter fun d => s.position chain d ≤ i

structure Inv (chain : List (List Char)) (dests : Finset Destination) (s : State) : Prop where
  inside : ∀ d i, s.items d = some i → d ∈ dests ∧ i < chain.length
  output : ∀ d ∈ dests, s.output d = textBefore chain (s.position chain d) ++
    (data chain (s.position chain d)).take (s.sent chain d)
  partly : ∀ d i, s.items d = some i → s.sent chain d = 0 ∨ s.sent chain d < (data chain i).length
  /-- A buffer that a destination has output a part of is read up to there. -/
  read : ∀ d i, s.items d = some i → 0 < s.sent chain d → s.bytesRead i = s.sent chain d ∧
    ∀ d' ≠ d, s.items d' = some i → s.sent chain d' = 0
  unread : ∀ i, (s.waiting chain dests i).Nonempty →
    (∀ d, s.items d = some i → s.sent chain d = 0) → s.bytesRead i = 0
  counted : ∀ i < chain.length, (s.waiting chain dests i).Nonempty →
    s.references i = (s.waiting chain dests i).card ∧ s.inPool i = false
  released : ∀ i < chain.length, s.waiting chain dests i = ∅ → s.inPool i = true

lemma mem_waiting : d ∈ s.waiting chain dests i ↔ d ∈ dests ∧ s.position chain d ≤ i := by
  rw [State.waiting, Finset.mem_filter]

lemma Inv.mem_waiting_of_some (h : Inv chain dests s) (hd : s.items d = some i) :
    d ∈ s.waiting chain dests i :=
  mem_waiting.mpr ⟨(h.inside d i hd).1, (position_of_some hd).le⟩

lemma Inv.inOrder (h : Inv chain dests s) : InOrder chain dests s := by
  refine ⟨fun d hd => ?_, fun d hd hnone => ?_, fun i hi => ?_⟩
  · rw [h.output d hd]
    rcases Nat.lt_or_ge (s.position chain d) chain.length with hlt | hge
    · have hstep : textBefore chain (s.position chain d) ++
          (data chain (s.position chain d)).take (s.sent chain d) <+:
            textBefore chain (s.position chain d + 1) := by
        rw [textBefore_succ hlt]
        exact (List.prefix_append_right_inj _).mpr (List.take_prefix _ _)
      exact hstep.trans (textBefore_le chain _)
    · have hempty : data chain (s.position chain d) = [] := by
        rw [data, List.getD_eq_getElem?_getD, List.getElem?_eq_none hge, Option.getD_none]
      rw [hempty, List.take_nil, List.append_nil]
      exact textBefore_le chain _
  · have hempty : data chain chain.length = [] := by
      rw [data, List.getD_eq_getElem?_getD, List.getElem?_eq_none le_rfl, Option.getD_none]
    rw [h.output d hd, position_of_none hnone, hempty, List.take_nil, List.append_nil,
      textBefore_length]
  · constructor
    · intro hpool d hd
      by_contra hle
      have hwaiting : (s.waiting chain dests i).Nonempty := ⟨d, mem_waiting.mpr ⟨hd, not_lt.mp hle⟩⟩
      rw [(h.counted i hi hwaiting).2] at hpool
      exact Bool.false_ne_true hpool
    · intro hall
      apply h.released i hi
      apply Finset.eq_empty_of_forall_notMem
      intro d hd
      obtain ⟨hmem, hle⟩ := mem_waiting.mp hd
      exact absurd (hall d hmem) (not_lt.mpr hle)

/-- The read position is where the destination is in the buffer, if no other has begun it. -/
lemma Inv.bytesRead_eq (h : Inv chain dests s) (hd : s.items d = some i)
    (hothers : ∀ d' ≠ d, s.items d' = some i → s.sent chain d' = 0) :
    s.bytesRead i = s.sent chain d := by
  rcases Nat.eq_zero_or_pos (s.sent chain d) with hzero | hpos
  · rw [hzero]
    apply h.unread i ⟨d, h.mem_waiting_of_some hd⟩
    intro d' hd'
    by_cases hsame : d' = d
    · rw [hsame, hzero]
    · exact hothers d' hsame hd'
  · exact (h.read d i hd hpos).1

lemma Inv.sent_le (h : Inv chain dests s) (hd : s.items d = some i) :
    s.sent chain d ≤ (data chain i).length := by
  rcases h.partly d i hd with hzero | hlt
  · rw [hzero]
    exact Nat.zero_le _
  · exact hlt.le

lemma sent_of_output {k : ℕ} (hk : k ≤ (data chain (s.position chain d)).length)
    (houtput : s.output d = textBefore chain (s.position chain d) ++
      (data chain (s.position chain d)).take k) : s.sent chain d = k := by
  rw [State.sent, houtput, List.length_append, List.length_take_of_le hk, Nat.add_sub_cancel_left]

/-- The state before a buffer is released that has been written completely. -/
def State.written (s : State) (chain : List (List Char)) (d : Destination) (i w : ℕ) : State :=
  { s with
    output := Function.update s.output d
      (s.output d ++ ((data chain i).drop (s.bytesRead i)).take w)
    bytesRead := Function.update s.bytesRead i (s.bytesRead i + w) }

lemma write_eq (hd : s.items d = some i) : s.write chain d n =
    if (data chain i).length - (s.bytesRead i + min n (s.bytesLeft chain i)) = 0 then
      (s.written chain d i (min n (s.bytesLeft chain i))).releaseFirstItem chain d
    else s.written chain d i (min n (s.bytesLeft chain i)) := by
  rw [State.write, hd]
  simp only [State.bytesLeft, Function.update_self]
  rfl

/-- What a part of a buffer that is output does to what is known. -/
lemma Inv.written_output (h : Inv chain dests s) (hd : s.items d = some i)
    (hread : s.bytesRead i = s.sent chain d) {w : ℕ}
    (hw : s.sent chain d + w ≤ (data chain i).length) :
    (s.written chain d i w).output d =
        textBefore chain i ++ (data chain i).take (s.sent chain d + w) ∧
      (s.written chain d i w).sent chain d = s.sent chain d + w := by
  have hposition : (s.written chain d i w).position chain d = i := position_of_some hd
  have houtput : (s.written chain d i w).output d =
      textBefore chain i ++ (data chain i).take (s.sent chain d + w) := by
    have hbefore := h.output d (h.inside d i hd).1
    rw [position_of_some hd] at hbefore
    rw [State.written]
    simp only [Function.update_self]
    rw [hbefore, hread, List.append_assoc, List.take_add]
  refine ⟨houtput, sent_of_output ?_ ?_⟩
  · rw [hposition]
    exact hw
  · rw [hposition]
    exact houtput

lemma sent_written_of_ne (hne : d' ≠ d) (w : ℕ) :
    (s.written chain d i w).sent chain d' = s.sent chain d' := by
  rw [State.sent, State.sent, State.written]
  simp only [Function.update_of_ne hne]
  rfl

lemma written_inv (h : Inv chain dests s) (hd : s.items d = some i)
    (hothers : ∀ d' ≠ d, s.items d' = some i → s.sent chain d' = 0) {w : ℕ}
    (hw : s.sent chain d + w < (data chain i).length) :
    Inv chain dests (s.written chain d i w) := by
  have hread := h.bytesRead_eq hd hothers
  obtain ⟨houtput, hsent⟩ := h.written_output hd hread hw.le
  have hbytes : (s.written chain d i w).bytesRead i = s.sent chain d + w := by
    rw [State.written]
    simp only [Function.update_self, hread]
  have hbytes' {j : ℕ} (hj : j ≠ i) : (s.written chain d i w).bytesRead j = s.bytesRead j :=
    Function.update_of_ne hj _ _
  -- another destination that has begun a buffer is at another one
  have hapart {d' : Destination} {j : ℕ} (hne : d' ≠ d) (hd' : s.items d' = some j)
      (hpos : 0 < s.sent chain d') : j ≠ i := by
    rintro rfl
    exact absurd (hothers d' hne hd') hpos.ne'
  refine ⟨h.inside, fun d' hmem => ?_, fun d' j hd' => ?_, fun d' j hd' hpos => ?_,
    fun j hwaiting hnone => ?_, h.counted, h.released⟩
  · by_cases hsame : d' = d
    · subst hsame
      have hposition : (s.written chain d' i w).position chain d' = i := position_of_some hd
      rw [hposition, hsent, houtput]
    · rw [sent_written_of_ne hsame]
      change Function.update s.output d _ d' = _
      rw [Function.update_of_ne hsame]
      exact h.output d' hmem
  · by_cases hsame : d' = d
    · subst hsame
      obtain rfl : i = j := Option.some.inj (hd.symm.trans hd')
      rw [hsent]
      exact .inr hw
    · rw [sent_written_of_ne hsame]
      exact h.partly d' j hd'
  · by_cases hsame : d' = d
    · subst hsame
      obtain rfl : i = j := Option.some.inj (hd.symm.trans hd')
      refine ⟨hbytes.trans hsent.symm, fun d₂ hne hd₂ => ?_⟩
      rw [sent_written_of_ne hne]
      exact hothers d₂ hne hd₂
    · rw [sent_written_of_ne hsame] at hpos ⊢
      have hji := hapart hsame hd' hpos
      obtain ⟨hbytesRead, halone⟩ := h.read d' j hd' hpos
      refine ⟨(hbytes' hji).trans hbytesRead, fun d₂ hne hd₂ => ?_⟩
      have hd₂d : d₂ ≠ d := by
        rintro rfl
        exact hji (Option.some.inj (hd₂.symm.trans hd))
      rw [sent_written_of_ne hd₂d]
      exact halone d₂ hne hd₂
  · by_cases hji : j = i
    · subst hji
      rw [hbytes, ← hsent]
      exact hnone d hd
    · rw [hbytes' hji]
      apply h.unread j hwaiting
      intro d' hd'
      have hd'd : d' ≠ d := by
        rintro rfl
        exact hji (Option.some.inj (hd'.symm.trans hd))
      rw [← sent_written_of_ne hd'd w]
      exact hnone d' hd'

/-- The buffer is released by a destination that has reached its end. -/
def State.passed (s : State) (chain : List (List Char)) (d : Destination) (i : ℕ) : State :=
  { s.release i with items := Function.update s.items d (next chain i) }

lemma releaseFirstItem_eq (hd : s.items d = some i) :
    s.releaseFirstItem chain d = s.passed chain d i := by
  rw [State.releaseFirstItem, hd]
  rfl

@[simp] lemma release_output (s : State) (i : ℕ) : (s.release i).output = s.output := by
  rw [State.release]
  split <;> rfl

@[simp] lemma release_items (s : State) (i : ℕ) : (s.release i).items = s.items := by
  rw [State.release]
  split <;> rfl

lemma passed_items_self (s : State) (d : Destination) (i : ℕ) :
    (s.passed chain d i).items d = next chain i := Function.update_self _ _ _

lemma passed_items_of_ne (s : State) (i : ℕ) (hne : d' ≠ d) :
    (s.passed chain d i).items d' = s.items d' := Function.update_of_ne hne _ _

lemma position_passed_self (s : State) (d : Destination) (hi : i < chain.length) :
    (s.passed chain d i).position chain d = i + 1 := by
  rw [State.position, passed_items_self, next]
  split
  · rfl
  · rw [Option.getD_none]
    omega

lemma position_passed_of_ne (s : State) (i : ℕ) (hne : d' ≠ d) :
    (s.passed chain d i).position chain d' = s.position chain d' := by
  rw [State.position, State.position, passed_items_of_ne s i hne]

lemma passed_output (s : State) (d : Destination) (i : ℕ) :
    (s.passed chain d i).output = s.output := release_output s i

lemma sent_passed_of_ne (s : State) (i : ℕ) (hne : d' ≠ d) :
    (s.passed chain d i).sent chain d' = s.sent chain d' := by
  rw [State.sent, State.sent, position_passed_of_ne s i hne, passed_output]

lemma waiting_passed_self (hd : s.items d = some i) (hi : i < chain.length) :
    (s.passed chain d i).waiting chain dests i = (s.waiting chain dests i).erase d := by
  ext d'
  rw [Finset.mem_erase, mem_waiting, mem_waiting]
  by_cases hsame : d' = d
  · subst hsame
    rw [position_passed_self s d' hi]
    simp
  · rw [position_passed_of_ne s i hsame]
    simp [hsame]

lemma waiting_passed_of_ne (hd : s.items d = some i) (hi : i < chain.length) (hj : j ≠ i) :
    (s.passed chain d i).waiting chain dests j = s.waiting chain dests j := by
  ext d'
  rw [mem_waiting, mem_waiting]
  by_cases hsame : d' = d
  · subst hsame
    rw [position_passed_self s d' hi, position_of_some hd]
    have hiff : i + 1 ≤ j ↔ i ≤ j := by omega
    rw [hiff]
  · rw [position_passed_of_ne s i hsame]

/-- The state of a buffer that a destination passes: the others start at its beginning. -/
lemma Inv.passed_buffers (hcounted : (s.waiting chain dests i).Nonempty →
      s.references i = (s.waiting chain dests i).card ∧ s.inPool i = false)
    (hd : d ∈ s.waiting chain dests i) :
    (((s.waiting chain dests i).erase d).Nonempty → (s.passed chain d i).bytesRead i = 0 ∧
      (s.passed chain d i).references i = ((s.waiting chain dests i).erase d).card ∧
        (s.passed chain d i).inPool i = false) ∧
    ((s.waiting chain dests i).erase d = ∅ → (s.passed chain d i).inPool i = true) := by
  obtain ⟨hreferences, hpool⟩ := hcounted ⟨d, hd⟩
  have hcard := Finset.card_erase_of_mem hd
  constructor
  · intro hothers
    have hmany : 1 < s.references i := by
      have hpos := hothers.card_pos
      omega
    have hrelease : s.release i = { s with
        references := Function.update s.references i (s.references i - 1)
        bytesRead := Function.update s.bytesRead i 0 } := if_pos hmany
    rw [State.passed, hrelease]
    refine ⟨Function.update_self _ _ _, ?_, hpool⟩
    change Function.update s.references i _ i = _
    rw [Function.update_self, hcard, hreferences]
  · intro hnone
    have hlast : ¬ 1 < s.references i := by
      have hzero := Finset.card_eq_zero.mpr hnone
      omega
    have hrelease : s.release i = { s with inPool := Function.update s.inPool i true } :=
      if_neg hlast
    rw [State.passed, hrelease]
    exact Function.update_self _ _ _

lemma passed_buffers_of_ne (s : State) (d : Destination) (hj : j ≠ i) :
    (s.passed chain d i).bytesRead j = s.bytesRead j ∧
      (s.passed chain d i).references j = s.references j ∧
        (s.passed chain d i).inPool j = s.inPool j := by
  rw [State.passed, State.release]
  split
  · exact ⟨Function.update_of_ne hj _ _, Function.update_of_ne hj _ _, rfl⟩
  · exact ⟨rfl, rfl, Function.update_of_ne hj _ _⟩

lemma passed_inv (h : Inv chain dests s) (hd : s.items d = some i)
    (hothers : ∀ d' ≠ d, s.items d' = some i → s.sent chain d' = 0) {w : ℕ}
    (hw : s.sent chain d + w = (data chain i).length) :
    Inv chain dests ((s.written chain d i w).passed chain d i) := by
  obtain ⟨hmem, hi⟩ := h.inside d i hd
  have hread := h.bytesRead_eq hd hothers
  obtain ⟨houtput, -⟩ := h.written_output hd hread hw.le
  rw [hw, List.take_length, ← textBefore_succ hi] at houtput
  set u := s.written chain d i w with hu
  have hud : u.items d = some i := hd
  have hwaiting (j : ℕ) : u.waiting chain dests j = s.waiting chain dests j := rfl
  have hbytes {j : ℕ} (hj : j ≠ i) : u.bytesRead j = s.bytesRead j := Function.update_of_ne hj _ _
  have hsent : (u.passed chain d i).sent chain d = 0 := by
    rw [State.sent, position_passed_self u d hi, passed_output, houtput, Nat.sub_self]
  have hsent' {d' : Destination} (hne : d' ≠ d) :
      (u.passed chain d i).sent chain d' = s.sent chain d' := by
    rw [sent_passed_of_ne u i hne, hu, sent_written_of_ne hne]
  obtain ⟨hleft, hlast⟩ := Inv.passed_buffers (h.counted i hi) (h.mem_waiting_of_some hd)
    (s := u) (d := d)
  refine ⟨fun d' j hd' => ?_, fun d' hmem' => ?_, fun d' j hd' => ?_, fun d' j hd' hpos => ?_,
    fun j hnonempty hnone => ?_, fun j hj hnonempty => ?_, fun j hj hnone => ?_⟩
  · by_cases hsame : d' = d
    · subst hsame
      rw [passed_items_self, next] at hd'
      split at hd'
      · next hlt =>
        obtain rfl : i + 1 = j := Option.some.inj hd'
        exact ⟨hmem, hlt⟩
      · exact nomatch hd'
    · rw [passed_items_of_ne u i hsame] at hd'
      exact h.inside d' j hd'
  · by_cases hsame : d' = d
    · subst hsame
      rw [hsent, position_passed_self u d' hi, passed_output, houtput, List.take_zero,
        List.append_nil]
    · rw [hsent' hsame, position_passed_of_ne u i hsame, passed_output]
      have hsame' : u.output d' = s.output d' := Function.update_of_ne hsame _ _
      rw [hsame']
      exact h.output d' hmem'
  · by_cases hsame : d' = d
    · subst hsame
      exact .inl hsent
    · rw [passed_items_of_ne u i hsame] at hd'
      rw [hsent' hsame]
      exact h.partly d' j hd'
  · have hsame : d' ≠ d := by
      rintro rfl
      rw [hsent] at hpos
      exact absurd hpos (lt_irrefl 0)
    rw [passed_items_of_ne u i hsame] at hd'
    rw [hsent' hsame] at hpos ⊢
    have hji : j ≠ i := by
      rintro rfl
      exact absurd (hothers d' hsame hd') hpos.ne'
    obtain ⟨hbytesRead, halone⟩ := h.read d' j hd' hpos
    refine ⟨?_, fun d₂ hne hd₂ => ?_⟩
    · rw [(passed_buffers_of_ne u d hji).1, hbytes hji, hbytesRead]
    · by_cases hd₂d : d₂ = d
      · rw [hd₂d, hsent]
      · rw [passed_items_of_ne u i hd₂d] at hd₂
        rw [hsent' hd₂d]
        exact halone d₂ hne hd₂
  · by_cases hji : j = i
    · subst hji
      rw [waiting_passed_self hud hi] at hnonempty
      exact (hleft hnonempty).1
    · rw [waiting_passed_of_ne hud hi hji] at hnonempty
      rw [(passed_buffers_of_ne u d hji).1, hbytes hji]
      apply h.unread j hnonempty
      intro d' hd'
      have hne : d' ≠ d := by
        rintro rfl
        exact hji (Option.some.inj (hd'.symm.trans hd))
      rw [← hsent' hne]
      apply hnone d'
      rw [passed_items_of_ne u i hne]
      exact hd'
  · by_cases hji : j = i
    · subst hji
      rw [waiting_passed_self hud hi] at hnonempty ⊢
      exact (hleft hnonempty).2
    · rw [waiting_passed_of_ne hud hi hji] at hnonempty ⊢
      rw [(passed_buffers_of_ne u d hji).2.1, (passed_buffers_of_ne u d hji).2.2]
      exact h.counted j hj hnonempty
  · by_cases hji : j = i
    · subst hji
      rw [waiting_passed_self hud hi] at hnone
      exact hlast hnone
    · rw [waiting_passed_of_ne hud hi hji] at hnone
      rw [(passed_buffers_of_ne u d hji).2.2]
      exact h.released j hj hnone

lemma message_inv (chain : List (List Char)) (dests : Finset Destination) :
    Inv chain dests (message chain dests) := by
  have hposition {d : Destination} (hd : d ∈ dests) :
      (message chain dests).position chain d = 0 := by
    by_cases hchain : chain = []
    · subst hchain
      exact position_of_none (if_neg fun h => h.2 rfl)
    · exact position_of_some (if_pos ⟨hd, hchain⟩)
  have hsent (d : Destination) : (message chain dests).sent chain d = 0 := Nat.zero_sub _
  have hwaiting (i : ℕ) : (message chain dests).waiting chain dests i = dests := by
    apply Finset.filter_true_of_mem
    intro d hd
    rw [hposition hd]
    exact Nat.zero_le i
  refine ⟨fun d i hd => ?_, fun d hd => ?_, fun d i _ => .inl (hsent d), fun d i _ hpos => ?_,
    fun i _ _ => rfl, fun i _ hnonempty => ?_, fun i _ hnone => ?_⟩
  · change (if d ∈ dests ∧ chain ≠ [] then some 0 else none) = some i at hd
    split at hd
    · next h =>
      cases hd
      exact ⟨h.1, List.length_pos_of_ne_nil h.2⟩
    · exact nomatch hd
  · rw [hposition hd, hsent]
    rfl
  · exact absurd (hsent d) hpos.ne'
  · rw [hwaiting] at hnonempty ⊢
    have hcard := hnonempty.card_pos
    exact ⟨by change 1 + (dests.card - 1) = _; omega, decide_eq_false hnonempty.ne_empty⟩
  · rw [hwaiting] at hnone
    exact decide_eq_true hnone

lemma written_zero (s : State) (d : Destination) (i : ℕ) : s.written chain d i 0 = s := by
  rw [State.written, List.take_zero, List.append_nil, Nat.add_zero, Function.update_eq_self,
    Function.update_eq_self]

lemma write_inv (h : Inv chain dests s) (hundisturbed : Undisturbed chain s (.write d n)) :
    Inv chain dests (s.write chain d n) := by
  cases hd : s.items d with
  | none =>
    rw [State.write, hd]
    exact h
  | some i =>
    by_cases hothers : ∀ d' ≠ d, s.items d' = some i → s.sent chain d' = 0
    · have hread := h.bytesRead_eq hd hothers
      have hle := h.sent_le hd
      rw [write_eq hd]
      split
      · next hall =>
        rw [releaseFirstItem_eq (s := s.written chain d i _) hd]
        rw [State.bytesLeft, hread] at hall ⊢
        exact passed_inv h hd hothers (by omega)
      · next hpart =>
        rw [State.bytesLeft, hread] at hpart ⊢
        exact written_inv h hd hothers (by omega)
    · -- nothing can be written, and what is left is for the one that has begun the buffer
      obtain hzero | hnone | hno := hundisturbed
      · push Not at hothers
        obtain ⟨d', hne, hd', hbegun⟩ := hothers
        have hread := (h.read d' i hd' (Nat.pos_of_ne_zero hbegun)).1
        have hmore := (h.partly d' i hd').resolve_left hbegun
        rw [write_eq hd, hzero, Nat.zero_min, Nat.add_zero, if_neg (by omega), written_zero]
        exact h
      · exact nomatch hnone.symm.trans hd
      · exact absurd (fun d' hne hd' => hno d' hne (hd'.trans hd.symm)) hothers

lemma releaseFirstItem_none (hd : s.items d = none) : s.releaseFirstItem chain d = s := by
  rw [State.releaseFirstItem, hd]

lemma iterate_releaseFirstItem_none (hd : s.items d = none) (k : ℕ) :
    (State.releaseFirstItem chain d)^[k] s = s :=
  Function.iterate_fixed (releaseFirstItem_none hd) k

theorem step_inv (h : Inv chain dests s) {e : Event} (hundisturbed : Undisturbed chain s e) :
    Inv chain dests (step chain s e) := by
  cases e with
  | write d n => exact write_inv h hundisturbed
  | drop d =>
    rw [step, State.releaseAll, iterate_releaseFirstItem_none hundisturbed]
    exact h
  | timeout expired =>
    rw [step]
    obtain hzero | hnone := hundisturbed
    · rw [hzero]
      exact h
    · rw [iterate_releaseFirstItem_none hnone]
      exact h

/-! ### Every turn brings a destination on -/

/-- The characters and buffers that a destination has before it. -/
def State.left (s : State) (chain : List (List Char)) (d : Destination) : ℕ :=
  (text chain).length - (s.output d).length + (chain.length - s.position chain d)

lemma write_left_of_ne (hne : d' ≠ d) (n : ℕ) :
    (s.write chain d n).left chain d' = s.left chain d' := by
  cases hd : s.items d with
  | none => rw [State.write, hd]
  | some i =>
    have hwritten (w : ℕ) : (s.written chain d i w).left chain d' = s.left chain d' := by
      have houtput : (s.written chain d i w).output d' = s.output d' :=
        Function.update_of_ne hne _ _
      rw [State.left, State.left, houtput]
      rfl
    rw [write_eq hd]
    split
    · rw [releaseFirstItem_eq (s := s.written chain d i _) hd, State.left, passed_output,
        position_passed_of_ne _ i hne, ← State.left, hwritten]
    · exact hwritten _

lemma Inv.left_of_none (h : Inv chain dests s) (hmem : d ∈ dests) (hd : s.items d = none) :
    s.left chain d = 0 := by
  rw [State.left, h.inOrder.whole d hmem hd, position_of_none hd, Nat.sub_self, Nat.sub_self]

/-- Where something can be written, something is, or the buffer is released. -/
lemma write_left (h : Inv chain dests s) (hmem : d ∈ dests)
    (hundisturbed : Undisturbed chain s (.write d n)) :
    (s.write chain d n).left chain d ≤ s.left chain d - if 0 < n then 1 else 0 := by
  cases hd : s.items d with
  | none =>
    have hsame : s.write chain d n = s := by rw [State.write, hd]
    rw [hsame, h.left_of_none hmem hd]
    exact Nat.zero_le _
  | some i =>
    have hi := (h.inside d i hd).2
    have hprefix := ((write_inv h hundisturbed).inOrder.output d hmem).length_le
    have hlength (w : ℕ) : ((s.written chain d i w).output d).length =
        (s.output d).length + min w ((data chain i).length - s.bytesRead i) := by
      rw [State.written]
      simp only [Function.update_self]
      rw [List.length_append, List.length_take, List.length_drop]
    rw [write_eq hd] at hprefix ⊢
    split at hprefix
    · next hall =>
      rw [if_pos hall, releaseFirstItem_eq (s := s.written chain d i _) hd, State.left, State.left,
        passed_output, position_passed_self _ d hi, position_of_some hd, hlength]
      split <;> omega
    · next hpart =>
      rw [hlength] at hprefix
      have hposition (w : ℕ) : (s.written chain d i w).position chain d = i := position_of_some hd
      rw [if_neg hpart, State.left, State.left, hlength, hposition, position_of_some hd]
      rw [State.bytesLeft] at hpart hprefix ⊢
      split <;> omega

lemma step_left (h : Inv chain dests s) (hmem : d ∈ dests) {e : Event}
    (hundisturbed : Undisturbed chain s e) :
    (step chain s e).left chain d ≤ s.left chain d - if Serves d e then 1 else 0 := by
  have hidle {d' : Destination} (hnone : s.items d' = none) (k : ℕ) :
      ((State.releaseFirstItem chain d')^[k] s).left chain d ≤ s.left chain d - 0 := by
    rw [iterate_releaseFirstItem_none hnone]
    exact le_rfl
  cases e with
  | write d' n =>
    by_cases hsame : d' = d
    · subst hsame
      have hserves : Serves d' (.write d' n) = decide (0 < n) := by simp [Serves]
      have hleft := write_left h hmem hundisturbed
      simp only [hserves, decide_eq_true_eq]
      exact hleft
    · have hserves : Serves d (.write d' n) = false := by simp [Serves, hsame]
      rw [hserves, step, write_left_of_ne (Ne.symm hsame)]
      exact le_rfl
  | drop d' => exact hidle hundisturbed _
  | timeout expired =>
    obtain hzero | hnone := hundisturbed
    · rw [step, hzero]
      exact le_rfl
    · exact hidle hnone _

lemma run_left (events : List Event) (h : Inv chain dests s) (hmem : d ∈ dests)
    (hrun : Along (step chain) (Undisturbed chain) s events) :
    (run (step chain) s events).left chain d ≤ s.left chain d - events.countP (Serves d) := by
  induction events generalizing s with
  | nil => exact le_rfl
  | cons e events ih =>
    have hstep := step_left h hmem hrun.1
    have hrest := ih (step_inv h hrun.1) hrun.2
    rw [run_cons, List.countP_cons]
    omega

/-- In every run in which no destination writes from a buffer that another one has begun, each
outputs
the text in order; and once each has been served often enough,
  all have output the whole text and the
chain is back in the pool. -/
theorem shared_output_complete (chain : List (List Char)) (dests : Finset Destination)
    (events : List Event)
    (h : Along (step chain) (Undisturbed chain) (message chain dests) events) :
    Always (step chain) (InOrder chain dests) (message chain dests) events ∧
      ((∀ d ∈ dests, (text chain).length + chain.length ≤ events.countP (Serves d)) →
        Complete chain dests (run (step chain) (message chain dests) events)) := by
  have hstart := message_inv chain dests
  constructor
  · intro before hbefore
    exact (run_invariant hstart (fun _ _ hs he => step_inv hs he) (h.upTo hbefore)).inOrder
  · intro hserved
    have hend := run_invariant hstart (fun _ _ hs he => step_inv hs he) h
    have hnone : ∀ d ∈ dests, (run (step chain) (message chain dests) events).items d = none := by
      intro d hd
      have hleft := run_left events hstart hd h
      have hfull : (message chain dests).left chain d ≤ (text chain).length + chain.length := by
        rw [State.left]
        omega
      have hcount := hserved d hd
      by_contra hsome
      obtain ⟨i, hi⟩ := Option.ne_none_iff_exists'.mp hsome
      have hinside := (hend.inside d i hi).2
      rw [State.left, position_of_some hi] at hleft
      omega
    refine ⟨fun d hd => hend.inOrder.whole d hd (hnone d hd), fun i hi => ?_⟩
    rw [hend.inOrder.inPool i hi]
    intro d hd
    rw [position_of_none (hnone d hd)]
    exact hi

/-- A chain that two destinations output one after the other, each buffer in parts. -/
def alternating : List Event :=
  [.write .usb 1, .write .aux 0, .write .usb 1, .write .aux 2, .write .aux 3, .write .usb 3,
    .write .usb 1, .write .usb 1, .write .usb 1, .write .aux 1, .write .aux 1, .write .aux 1]

theorem shared_output_complete_alternating :
    Along (step [['a', 'b'], ['c']]) (Undisturbed [['a', 'b'], ['c']])
        (message [['a', 'b'], ['c']] {.aux, .usb}) alternating ∧
      Complete [['a', 'b'], ['c']] {.aux, .usb} (run (step [['a', 'b'], ['c']])
        (message [['a', 'b'], ['c']] {.aux, .usb}) alternating) :=
  ⟨by decide, (shared_output_complete [['a', 'b'], ['c']] {.aux, .usb} alternating (by decide)).2
    (by decide)⟩

theorem shared_output_torn : ¬ ∀ (chain : List (List Char)) (dests : Finset Destination)
    (events : List Event), (∀ e ∈ events, ∃ d n, e = .write d n) →
      Always (step chain) (InOrder chain dests) (message chain dests) events := by
  intro h
  have hwrites : ∀ e ∈ [Event.write .aux 1, .write .usb 1], ∃ d n, e = .write d n := by
    intro e he
    rcases List.mem_pair.mp he with rfl | rfl
    · exact ⟨_, _, rfl⟩
    · exact ⟨_, _, rfl⟩
  have hout := (h [['a', 'b']] {.aux, .usb} [.write .aux 1, .write .usb 1] hwrites _
    List.prefix_rfl).output .usb (by decide)
  have htorn : (run (step [['a', 'b']]) (message [['a', 'b']] {.aux, .usb})
      [.write .aux 1, .write .usb 1]).output .usb = ['b'] := by decide
  rw [htorn] at hout
  exact absurd hout (by decide)

end RepRapFirmware.Platform.SharedOutput
