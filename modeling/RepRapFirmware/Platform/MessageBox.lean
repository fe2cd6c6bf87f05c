import RepRapFirmware.Library.Runs

/-! The list of message boxes and the channels that wait for them. The real time, the serial
numbers and the history are not in the source: the millisecond counter is the real time without
its high part, and a serial number counts the boxes created before. -/

namespace RepRapFirmware.Platform.MessageBoxes

open Library.Runs

def maxMessageBoxes : ℕ := 8

structure MessageBoxLimits where
  canCancel : Bool
  shouldAbort : Bool
  deriving DecidableEq

def MessageBoxLimits.default : MessageBoxLimits := ⟨false, true⟩

/-- A channel that waits for the acknowledgement of a box. -/
structure Wait where
  channel : ℕ
  msgBoxSeq : UInt32
  serial : ℕ
  deriving DecidableEq

structure MessageBox where
  limits : MessageBoxLimits
  mode : ℕ
  seq : UInt32
  timeout : UInt32
  serial : ℕ
  channel : Option ℕ
  requested : UInt32
  deriving DecidableEq

def MessageBox.isBlocking (mb : MessageBox) : Bool := mb.mode ≥ 2

structure Report where
  wait : Wait
  cancelled : Bool
  shouldAbort : Bool
  deriving DecidableEq

structure State where
  nextSeq : UInt32
  mboxList : List MessageBox
  startTime : UInt32
  numMessages : ℕ
  numAutoCancelledMessages : UInt32
  waiting : List Wait
  now : ℕ
  created : ℕ
  headSince : ℕ
  removed : List MessageBox
  reports : List Report

def initial : State := ⟨0, [], 0, 0, 0, [], 0, 0, 0, [], []⟩

def millis (s : State) : UInt32 := UInt32.ofNat s.now

/-- The test of `MessageAcknowledged` on a waiting channel. -/
def Matches (seq : UInt32) (w : Wait) : Prop := seq = w.msgBoxSeq ∨ seq = 0 ∨ w.msgBoxSeq = 0

instance (seq : UInt32) (w : Wait) : Decidable (Matches seq w) :=
  inferInstanceAs (Decidable (_ ∨ _))

/-- All channels are asked in turn whether they wait for the box. -/
def messageBoxClosed (cancelled shouldAbort : Bool) (seq : UInt32) (s : State) : State :=
  { s with
    waiting := s.waiting.filter fun w => ¬ Matches seq w
    reports := s.reports ++
      (s.waiting.filter fun w => Matches seq w).map (⟨·, cancelled, shouldAbort⟩) }

def timeOut (mb : MessageBox) (s : State) : State :=
  let s := if mb.isBlocking then messageBoxClosed mb.limits.canCancel mb.limits.shouldAbort mb.seq s
    else s
  { s with numMessages := s.numMessages - 1, removed := s.removed ++ [mb] }

def shorten (mb : MessageBox) : MessageBox :=
  if ¬ mb.isBlocking ∧ mb.timeout > 1000 then { mb with timeout := 1000 } else mb

/-- The first loop of `Create` over the boxes that are left in the list. -/
def makeRoom (s : State) : List MessageBox → State
  | [] => s
  | mb :: rest =>
    if ¬ mb.isBlocking ∧ s.numMessages ≥ maxMessageBoxes then
      let s := timeOut mb s
      makeRoom { s with numAutoCancelledMessages := s.numAutoCancelledMessages + 1 } rest
    else makeRoom { s with mboxList := s.mboxList ++ [shorten mb] } rest

/-- The oldest message goes even though it is blocking. -/
def displace (s : State) : State :=
  if s.numMessages ≥ maxMessageBoxes then
    match s.mboxList with
    | [] => s
    | mb :: rest =>
      let s := timeOut mb { s with mboxList := rest }
      { s with numAutoCancelledMessages := s.numAutoCancelledMessages + 1 }
  else s

structure Request where
  mode : ℕ
  timeout : UInt32
  limits : Option MessageBoxLimits
  channel : Option ℕ

/-- The limits, with the flag that some modes imply. -/
def Request.boxLimits (r : Request) : MessageBoxLimits :=
  let limits := r.limits.getD .default
  if r.mode = 3 then { limits with canCancel := true }
  else if r.mode < 3 then { limits with canCancel := false }
  else limits

def Request.boxTimeout (r : Request) : UInt32 :=
  if r.mode ≤ 1 ∨ r.boxLimits.canCancel then r.timeout else 0

/-- The timeout of the request is in milliseconds. The start time is the same variable for all
boxes, so the time of the box at the head starts again. -/
def create (r : Request) (s : State) : State :=
  let s := displace (makeRoom { s with mboxList := [] } s.mboxList)
  let mbox : MessageBox := ⟨r.boxLimits, r.mode, s.nextSeq + 1, r.boxTimeout, s.created, r.channel,
    r.boxTimeout⟩
  { s with
    nextSeq := s.nextSeq + 1
    mboxList := s.mboxList ++ [mbox]
    startTime := millis s
    numMessages := s.numMessages + 1
    created := s.created + 1 }

/-- A command that shows a box; after a blocking one its channel waits, where its state could be
stacked. -/
def doMessageBox (r : Request) (s : State) : State :=
  let created := create r s
  match r.channel with
  | some channel =>
    if r.mode ≥ 2 then
      { created with waiting := created.waiting ++ [⟨channel, created.nextSeq, s.created⟩] }
    else created
  | none => created

def Acks (ackSeq : UInt32) (mb : MessageBox) : Prop := ackSeq = 0 ∨ mb.seq = ackSeq

instance (ackSeq : UInt32) (mb : MessageBox) : Decidable (Acks ackSeq mb) :=
  inferInstanceAs (Decidable (_ ∨ _))

/-- The box that the walk stops at and the list without it. -/
def unlink (ackSeq : UInt32) : List MessageBox → Option (MessageBox × List MessageBox)
  | [] => none
  | mb :: rest =>
    if Acks ackSeq mb then some (mb, rest)
    else (unlink ackSeq rest).map fun found => (found.1, mb :: found.2)

/-- Whether the box was blocking and whether to abort, where there was one. -/
def acknowledge (ackSeq : UInt32) (s : State) : State × Option (Bool × Bool) :=
  match unlink ackSeq s.mboxList with
  | none => (s, none)
  | some (mb, rest) =>
    let atHead := s.mboxList.head?.any fun mb => Acks ackSeq mb
    ({ s with
        mboxList := rest
        startTime := if atHead then millis s else s.startTime
        numMessages := s.numMessages - 1
        removed := s.removed ++ [mb] }, some (mb.isBlocking, mb.limits.shouldAbort))

def acknowledgeMessage (seq : UInt32) (cancelled : Bool) (s : State) : State :=
  match acknowledge seq s with
  | (s, some (wasBlocking, shouldAbort)) =>
    if wasBlocking then messageBoxClosed cancelled shouldAbort seq s else s
  | (s, none) => s

def Due (s : State) (mb : MessageBox) : Prop :=
  mb.timeout ≠ 0 ∧ millis s - s.startTime ≥ mb.timeout

instance (s : State) (mb : MessageBox) : Decidable (Due s mb) := inferInstanceAs (Decidable (_ ∧ _))

def checkTimeout (s : State) : State × Bool :=
  match s.mboxList with
  | [] => (s, false)
  | mb :: rest =>
    if Due s mb then ({ timeOut mb { s with mboxList := rest } with startTime := millis s }, true)
    else (s, false)

inductive Call
  | doMessageBox (r : Request)
  | acknowledgeMessage (seq : UInt32) (cancelled : Bool)
  | checkTimeout

def call (s : State) : Call → State
  | .doMessageBox r => doMessageBox r s
  | .acknowledgeMessage seq cancelled => acknowledgeMessage seq cancelled s
  | .checkTimeout => (checkTimeout s).1

def later (ms : ℕ) (s : State) : State := { s with now := s.now + ms }

def headSerial (s : State) : Option ℕ := s.mboxList.head?.map (·.serial)

/-- Some milliseconds, and then a call. -/
def step (s : State) (c : ℕ × Call) : State :=
  let next := call (later c.1 s) c.2
  if headSerial next = headSerial s then next else { next with headSince := (later c.1 s).now }

/-! ### What holds between the calls -/

/-- The channel that waits for a box. -/
def MessageBox.wait? (mb : MessageBox) : Option Wait :=
  if mb.isBlocking then mb.channel.map (⟨·, mb.seq, mb.serial⟩) else none

def waits (boxes : List MessageBox) : List Wait := boxes.filterMap MessageBox.wait?

def serials (boxes : List MessageBox) : List ℕ := boxes.map (·.serial)

/-- A box has the timeout that was asked for, or one second. -/
def Timed (mb : MessageBox) : Prop :=
  mb.timeout = mb.requested ∨ ¬ mb.isBlocking ∧ mb.requested > 1000 ∧ mb.timeout = 1000

/-- The counter, the order of the boxes, and that each box is in the list or was removed once. -/
structure Listed (s : State) : Prop where
  counted : s.numMessages = s.mboxList.length
  bounded : s.mboxList.length ≤ maxMessageBoxes
  ordered : (serials s.mboxList).Pairwise (· < ·)
  once : (serials s.removed ++ serials s.mboxList).Perm (List.range s.created)
  timed : ∀ mb ∈ s.mboxList, Timed mb

/-- Each closing of a box that a channel waits for has been reported to it once, and nothing
else has. -/
def Reported (s : State) : Prop := (s.reports.map (·.wait)).Perm (waits s.removed)

/-- No channel is lost: it waits or has got a report. -/
def Accounted (s : State) : Prop :=
  (s.reports.map (·.wait) ++ s.waiting).Perm (waits s.removed ++ waits s.mboxList)

structure Core (s : State) : Prop extends Listed s where
  accounted : Accounted s

variable {s t : State} {mb : MessageBox} {pre post l : List MessageBox} {seq : UInt32} {w : Wait}

lemma waits_append (l l' : List MessageBox) : waits (l ++ l') = waits l ++ waits l' :=
  List.filterMap_append

lemma serials_append (l l' : List MessageBox) : serials (l ++ l') = serials l ++ serials l' :=
  List.map_append

lemma waits_singleton (mb : MessageBox) : waits [mb] = mb.wait?.toList := by
  cases h : mb.wait? <;> simp [waits, h]

lemma wait?_of_not_blocking (h : ¬ mb.isBlocking) : mb.wait? = none := if_neg h

lemma wait?_eq_some (h : mb.wait? = some w) : w.serial = mb.serial ∧ w.msgBoxSeq = mb.seq := by
  rw [MessageBox.wait?] at h
  split_ifs at h
  obtain ⟨c, -, rfl⟩ := Option.map_eq_some_iff.mp h
  exact ⟨rfl, rfl⟩

lemma shorten_spec (mb : MessageBox) : (shorten mb).serial = mb.serial ∧
    (shorten mb).wait? = mb.wait? ∧ (Timed mb → Timed (shorten mb)) := by
  rw [shorten]
  split_ifs with h
  · refine ⟨rfl, rfl, fun ht => .inr ⟨h.1, ?_, rfl⟩⟩
    rcases ht with heq | ⟨-, -, hshort⟩
    · exact heq ▸ h.2
    · rw [hshort] at h
      exact absurd h.2 (by decide)
  · exact ⟨rfl, rfl, id⟩

lemma accounted_closed (cancelled shouldAbort : Bool) (seq : UInt32) (h : Accounted s) :
    Accounted (messageBoxClosed cancelled shouldAbort seq s) := by
  rw [Accounted] at h ⊢
  have hsplit := List.filter_append_perm (fun w => decide (Matches seq w)) s.waiting
  have hmap : (s.reports ++ (s.waiting.filter fun w => Matches seq w).map
      (⟨·, cancelled, shouldAbort⟩ : Wait → Report)).map (·.wait) =
      s.reports.map (·.wait) ++ s.waiting.filter fun w => Matches seq w := by
    rw [List.map_append, List.map_map]
    exact congrArg _ (List.map_id _)
  simp only [messageBoxClosed, hmap, List.append_assoc]
  simp only [decide_not] at hsplit ⊢
  exact (hsplit.append_left _).trans h

/-- A box leaves the list. -/
lemma Core.remove (h : Core s) (hl : s.mboxList = pre ++ mb :: post) :
    Core { s with
      mboxList := pre ++ post
      numMessages := s.numMessages - 1
      removed := s.removed ++ [mb] } := by
  obtain ⟨⟨hcounted, hbounded, hordered, honce, htimed⟩, haccounted⟩ := h
  rw [Accounted] at haccounted
  rw [hl] at hcounted hbounded hordered honce htimed haccounted
  have hlength : (pre ++ mb :: post).length = (pre ++ post).length + 1 := by simp; omega
  have hsub : (pre ++ post).Sublist (pre ++ mb :: post) :=
    (List.sublist_cons_self mb post).append_left pre
  refine ⟨⟨?_, ?_, ?_, ?_, ?_⟩, ?_⟩
  · show s.numMessages - 1 = (pre ++ post).length
    omega
  · exact hsub.length_le.trans hbounded
  · exact hordered.sublist (hsub.map _)
  · refine List.Perm.trans ?_ honce
    simp only [serials, List.map_append, List.map_cons, List.map_nil, List.append_assoc,
      List.cons_append, List.nil_append]
    exact List.Perm.append_left _ List.perm_middle.symm
  · exact fun b hb => htimed b (hsub.subset hb)
  · refine haccounted.trans ?_
    simp only [waits, List.filterMap_append, List.append_assoc]
    apply List.Perm.append_left
    cases hw : mb.wait? with
    | none => simp [hw]
    | some w => simp [hw]

lemma Core.shorten (h : Core s) (hl : s.mboxList = pre ++ mb :: post) :
    Core { s with mboxList := pre ++ shorten mb :: post } := by
  obtain ⟨⟨hcounted, hbounded, hordered, honce, htimed⟩, haccounted⟩ := h
  obtain ⟨hserial, hwait, htime⟩ := shorten_spec mb
  have hserials : serials (pre ++ MessageBoxes.shorten mb :: post) = serials (pre ++ mb :: post) :=
      by
    simp [serials, hserial]
  have hwaits : waits (pre ++ MessageBoxes.shorten mb :: post) = waits (pre ++ mb :: post) := by
    simp [waits, List.filterMap_cons, hwait]
  rw [Accounted] at haccounted
  rw [hl] at hcounted hbounded hordered honce htimed haccounted
  refine ⟨⟨?_, ?_, ?_, ?_, ?_⟩, ?_⟩
  · simpa using hcounted
  · simpa using hbounded
  · exact hserials ▸ hordered
  · exact hserials ▸ honce
  · intro b hb
    rcases List.mem_append.mp hb with hb | hb | ⟨_, hb⟩
    · exact htimed b (List.mem_append_left _ hb)
    · exact htime (htimed mb (List.mem_append_right _ List.mem_cons_self))
    · exact htimed b (List.mem_append_right _ (List.mem_cons_of_mem mb hb))
  · rw [Accounted]
    exact hwaits ▸ haccounted

lemma core_closed (cancelled shouldAbort : Bool) (seq : UInt32) (h : Core s) :
    Core (messageBoxClosed cancelled shouldAbort seq s) :=
  ⟨⟨h.counted, h.bounded, h.ordered, h.once, h.timed⟩,
    accounted_closed cancelled shouldAbort seq h.accounted⟩

lemma Core.timeOut (h : Core s) (hl : s.mboxList = pre ++ mb :: post) :
    Core (timeOut mb { s with mboxList := pre ++ post }) := by
  rw [MessageBoxes.timeOut]
  split_ifs
  · exact core_closed _ _ _ (h.remove hl)
  · exact h.remove hl

/-- The parts of the state that `Create` leaves alone while it makes room. -/
structure SameTimes (s t : State) : Prop where
  now : t.now = s.now
  created : t.created = s.created
  headSince : t.headSince = s.headSince

/-- The parts of the state that the first loop of `Create` leaves alone. -/
structure SameElse (s t : State) : Prop where
  nextSeq : t.nextSeq = s.nextSeq
  startTime : t.startTime = s.startTime
  waiting : t.waiting = s.waiting
  now : t.now = s.now
  created : t.created = s.created
  headSince : t.headSince = s.headSince
  reports : t.reports = s.reports
  removed : waits t.removed = waits s.removed

lemma SameElse.rfl : SameElse s s := ⟨.refl _, .refl _, .refl _, .refl _, .refl _, .refl _, .refl _,
    .refl _⟩

lemma makeRoom_spec (l : List MessageBox) (s : State)
    (h : Core { s with mboxList := s.mboxList ++ l }) (hn : s.numMessages ≤ maxMessageBoxes) :
    Core (makeRoom s l) ∧ SameElse s (makeRoom s l) ∧
      (makeRoom s l).numMessages ≤ s.numMessages ∧
      ((∀ mb ∈ l, mb.isBlocking = true) → (makeRoom s l).numMessages = s.numMessages) ∧
      ((makeRoom s l).numMessages ≥ maxMessageBoxes → (∀ mb ∈ l, mb.isBlocking = true) ∧
        (makeRoom s l).mboxList = s.mboxList ++ l) := by
  induction l generalizing s with
  | nil =>
    rw [List.append_nil] at h
    exact ⟨h, .rfl, le_rfl, fun _ => rfl, fun _ => ⟨nofun, (List.append_nil _).symm⟩⟩
  | cons mb l ih =>
    by_cases hgoes : ¬ mb.isBlocking ∧ s.numMessages ≥ maxMessageBoxes
    · have hout : MessageBoxes.timeOut mb s =
          { s with numMessages := s.numMessages - 1, removed := s.removed ++ [mb] } := by
        rw [MessageBoxes.timeOut, if_neg hgoes.1]
      have hcore := h.remove rfl
      rw [makeRoom, if_pos hgoes, hout]
      dsimp only
      obtain ⟨hcore', hsame, hle, -, -⟩ := ih
        { s with
          numMessages := s.numMessages - 1
          removed := s.removed ++ [mb]
          numAutoCancelledMessages := s.numAutoCancelledMessages + 1 } ⟨⟨hcore.counted,
            hcore.bounded,
          hcore.ordered, hcore.once, hcore.timed⟩, hcore.accounted⟩ (by simp only; omega)
      simp only at hle
      refine ⟨hcore', ⟨hsame.nextSeq, hsame.startTime, hsame.waiting, hsame.now, hsame.created,
        hsame.headSince, hsame.reports, ?_⟩, by omega,
        fun hall => absurd (hall mb List.mem_cons_self) hgoes.1, fun hge => ?_⟩
      · rw [hsame.removed, waits_append, waits_singleton, wait?_of_not_blocking hgoes.1]
        exact List.append_nil _
      · simp only [maxMessageBoxes] at hge hgoes hn
        omega
    · have hcore := h.shorten rfl
      rw [makeRoom, if_neg hgoes]
      obtain ⟨hcore', hsame, hle, hall, hfull⟩ :=
        ih { s with mboxList := s.mboxList ++ [MessageBoxes.shorten mb] } (by simpa using hcore) hn
      refine ⟨hcore', ⟨hsame.nextSeq, hsame.startTime, hsame.waiting, hsame.now, hsame.created,
        hsame.headSince, hsame.reports, hsame.removed⟩, hle,
        fun hblocking => hall fun b hb => hblocking b (List.mem_cons_of_mem mb hb), fun hge => ?_⟩
      have hblocking : mb.isBlocking = true := by
        by_contra hnot
        exact hgoes ⟨hnot, hge.le.trans hle⟩
      obtain ⟨hall, hlist⟩ := hfull hge
      have hsame : MessageBoxes.shorten mb = mb := if_neg fun hnot => hnot.1 hblocking
      refine ⟨fun b hb => ?_, by rw [hlist, hsame, List.append_assoc]; rfl⟩
      rcases List.mem_cons.mp hb with rfl | hb
      · exact hblocking
      · exact hall b hb

/-! ### Who is told about a box that is closed -/

lemma serial_injective (h : (serials l).Pairwise (· < ·)) {b b' : MessageBox} (hb : b ∈ l)
    (hb' : b' ∈ l) (heq : b.serial = b'.serial) : b = b' := by
  have hnodup : (serials l).Nodup := h.imp fun hlt => hlt.ne
  exact List.inj_on_of_nodup_map hnodup hb hb' heq

/-- The box's own channel is told, and it is the only one exactly where no other channel waits
under the number that is handed on. -/
lemma closed_exact (h : Core s) (hr : Reported s) (hl : s.mboxList = pre ++ mb :: post)
    (hseq : seq = mb.seq ∨ seq = 0) :
    ((s.reports.map (·.wait)) ++ s.waiting.filter fun w => Matches seq w).Perm
        (waits (s.removed ++ [mb])) ↔
      ∀ w ∈ s.waiting, w.serial ≠ mb.serial → ¬ Matches seq w := by
  have hwaiting : s.waiting.Perm (waits s.mboxList) :=
    (List.perm_append_left_iff _).mp (h.accounted.trans (hr.symm.append_right _))
  have hserial : (waits s.mboxList).Pairwise fun a b => a.serial ≠ b.serial := by
    have hordered := h.ordered
    rw [serials, List.pairwise_map] at hordered
    rw [waits, List.pairwise_filterMap]
    refine hordered.imp fun hlt a ha b hb => ?_
    rw [(wait?_eq_some ha).1, (wait?_eq_some hb).1]
    exact hlt.ne
  have hcancel : ((s.reports.map (·.wait)) ++ s.waiting.filter fun w => Matches seq w).Perm
      (waits (s.removed ++ [mb])) ↔
        (s.waiting.filter fun w => Matches seq w).Perm mb.wait?.toList := by
    rw [waits_append, waits_singleton]
    exact ⟨fun hp => (List.perm_append_left_iff _).mp ((hr.symm.append_right _).trans hp),
      fun hp => (hr.append_right _).trans (hp.append_left _)⟩
  rw [hcancel]
  constructor
  · intro hp w hw hother hmatch
    have hmem : w ∈ mb.wait?.toList :=
      hp.subset (List.mem_filter.mpr ⟨hw, decide_eq_true hmatch⟩)
    exact hother (wait?_eq_some (Option.mem_toList.mp hmem)).1
  · intro honly
    have hnodup : s.waiting.Nodup := by
      rw [hwaiting.nodup_iff]
      exact hserial.imp fun hne heq => hne (congrArg _ heq)
    have hown : mb.wait?.toList.Nodup := by cases mb.wait? <;> simp
    rw [List.perm_ext_iff_of_nodup (hnodup.filter _) hown]
    intro w
    rw [List.mem_filter, decide_eq_true_eq, Option.mem_toList]
    constructor
    · rintro ⟨hw, hmatch⟩
      obtain ⟨b, hb, hbw⟩ := List.mem_filterMap.mp (hwaiting.subset hw)
      have hsame : b.serial = mb.serial := by
        rw [← (wait?_eq_some hbw).1]
        by_contra hother
        exact honly w hw hother hmatch
      obtain rfl : b = mb := serial_injective h.ordered hb (by rw [hl]; simp) hsame
      exact hbw
    · intro hw
      refine ⟨hwaiting.symm.subset (List.mem_filterMap.mpr ⟨mb, by rw [hl]; simp, hw⟩), ?_⟩
      rw [Matches, (wait?_eq_some hw).2]
      exact hseq.imp_right .inl

/-- The blocking box that a call closes, and the number that is handed on to the channels. -/
def closing (s : State) : Call → Option (MessageBox × UInt32)
  | .doMessageBox _ =>
    if s.mboxList.length ≥ maxMessageBoxes ∧ ∀ mb ∈ s.mboxList, mb.isBlocking then
      s.mboxList.head?.map fun mb => (mb, mb.seq)
    else none
  | .acknowledgeMessage seq _ =>
    ((s.mboxList.find? fun mb => Acks seq mb).filter (·.isBlocking)).map fun mb => (mb, seq)
  | .checkTimeout =>
    (s.mboxList.head?.filter fun mb => mb.isBlocking ∧ Due s mb).map fun mb => (mb, mb.seq)

/-- No channel that waits for another box would take the number for its own. -/
def Unconfused (s : State) (c : Call) : Prop :=
  ∀ found ∈ closing s c, ∀ w ∈ s.waiting, w.serial ≠ found.1.serial → ¬ Matches found.2 w

/-- What a call does to the list and to the reports. -/
structure Kept (s : State) (c : Call) (next : State) : Prop where
  core : Core next
  reported : Reported s → (Reported next ↔ Unconfused s c)

lemma reported_of_none {c : Call} (hc : closing s c = none) (hreports : t.reports = s.reports)
    (hremoved : waits t.removed = waits s.removed) (hr : Reported s) :
    Reported t ↔ Unconfused s c := by
  refine iff_of_true ?_ fun found hf => by rw [hc] at hf; cases hf
  rw [Reported, hreports, hremoved]
  exact hr

lemma reported_of_closing {c : Call} (cancelled shouldAbort : Bool) (h : Core s)
    (hl : s.mboxList = pre ++ mb :: post) (hseq : seq = mb.seq ∨ seq = 0)
    (hc : closing s c = some (mb, seq))
    (hreports : t.reports = (messageBoxClosed cancelled shouldAbort seq s).reports)
    (hremoved : waits t.removed = waits (s.removed ++ [mb])) (hr : Reported s) : Reported t ↔
    Unconfused s c := by
  have hmap : t.reports.map (·.wait) =
      s.reports.map (·.wait) ++ s.waiting.filter fun w => Matches seq w := by
    rw [hreports, messageBoxClosed, List.map_append, List.map_map]
    exact congrArg _ (List.map_id _)
  rw [Reported, hmap, hremoved, closed_exact h hr hl hseq, Unconfused, hc]
  simp

lemma unlink_spec (ackSeq : UInt32) (l : List MessageBox) :
    (unlink ackSeq l = none ∧ l.find? (fun mb => Acks ackSeq mb) = none) ∨
      ∃ pre mb post, l = pre ++ mb :: post ∧ unlink ackSeq l = some (mb, pre ++ post) ∧
        l.find? (fun mb => Acks ackSeq mb) = some mb ∧ Acks ackSeq mb ∧
        (pre = [] ↔ (l.head?.any fun mb => Acks ackSeq mb) = true) := by
  induction l with
  | nil => exact .inl ⟨rfl, rfl⟩
  | cons b l ih =>
    by_cases hb : Acks ackSeq b
    · exact .inr ⟨[], b, l, rfl, by rw [unlink, if_pos hb]; rfl, by simp [hb], hb, by simp [hb]⟩
    · have hunlink : unlink ackSeq (b :: l) =
          (unlink ackSeq l).map fun found => (found.1, b :: found.2) := by
        rw [unlink, if_neg hb]
      have hfind : (b :: l).find? (fun mb => decide (Acks ackSeq mb)) =
          l.find? fun mb => Acks ackSeq mb := List.find?_cons_of_neg (by simpa using hb)
      rcases ih with ⟨hnone, hmissing⟩ | ⟨pre, mb, post, rfl, hsome, hfound, hacks, -⟩
      · exact .inl ⟨by rw [hunlink, hnone]; rfl, by rw [hfind, hmissing]⟩
      · refine .inr ⟨b :: pre, mb, post, rfl, by rw [hunlink, hsome]; rfl, by rw [hfind, hfound],
          hacks, ?_⟩
        simp [hb]

lemma acknowledgeMessage_kept (h : Core s) (seq : UInt32) (cancelled : Bool) :
    Kept s (.acknowledgeMessage seq cancelled) (acknowledgeMessage seq cancelled s) := by
  rw [acknowledgeMessage, acknowledge]
  rcases unlink_spec seq s.mboxList with ⟨hnone, hmissing⟩ | ⟨pre, mb, post, hl, hsome, hfound,
    hacks, -⟩
  · rw [hnone]
    exact ⟨h, reported_of_none (by rw [closing, hmissing]; rfl) rfl rfl⟩
  · have hremoved := h.remove hl
    rw [hsome]
    dsimp only
    by_cases hb : mb.isBlocking = true
    · rw [if_pos hb]
      refine ⟨core_closed _ _ _ ⟨⟨hremoved.counted, hremoved.bounded, hremoved.ordered,
        hremoved.once, hremoved.timed⟩, hremoved.accounted⟩, reported_of_closing cancelled
        mb.limits.shouldAbort h hl ?_ ?_ rfl rfl⟩
      · exact hacks.symm.imp_left Eq.symm
      · rw [closing, hfound, Option.filter_some_pos hb]
        rfl
    · rw [if_neg hb]
      refine ⟨⟨⟨hremoved.counted, hremoved.bounded, hremoved.ordered, hremoved.once,
        hremoved.timed⟩, hremoved.accounted⟩, reported_of_none ?_ rfl ?_⟩
      · rw [closing, hfound, Option.filter_some_neg (by simpa using hb)]
        rfl
      · rw [waits_append, waits_singleton, wait?_of_not_blocking hb]
        exact List.append_nil _

lemma timeOut_kept {c : Call} (h : Core s) (hl : s.mboxList = mb :: post)
    (hc : closing s c = if mb.isBlocking then some (mb, mb.seq) else none) :
    Kept s c (timeOut mb { s with mboxList := post }) := by
  have hfront : s.mboxList = [] ++ mb :: post := hl
  refine ⟨h.timeOut hfront, ?_⟩
  rw [timeOut]
  by_cases hb : mb.isBlocking = true
  · rw [if_pos hb] at hc ⊢
    exact reported_of_closing mb.limits.canCancel mb.limits.shouldAbort h hfront (.inl rfl) hc rfl
      rfl
  · rw [if_neg hb] at hc ⊢
    refine reported_of_none hc rfl ?_
    rw [waits_append, waits_singleton, wait?_of_not_blocking hb]
    exact List.append_nil _

lemma checkTimeout_kept (h : Core s) : Kept s .checkTimeout (checkTimeout s).1 := by
  rw [checkTimeout]
  cases hl : s.mboxList with
  | nil => exact ⟨h, reported_of_none (by rw [closing, hl]; rfl) rfl rfl⟩
  | cons mb rest =>
    dsimp only
    by_cases hdue : Due s mb
    · rw [if_pos hdue]
      have hkept := timeOut_kept (c := .checkTimeout) h hl (by
        rw [closing, hl, List.head?_cons]
        by_cases hb : mb.isBlocking = true <;> simp [hb, hdue, Option.filter])
      exact ⟨⟨⟨hkept.core.counted, hkept.core.bounded, hkept.core.ordered, hkept.core.once,
        hkept.core.timed⟩, hkept.core.accounted⟩, hkept.reported⟩
    · rw [if_neg hdue]
      refine ⟨h, reported_of_none ?_ rfl rfl⟩
      rw [closing, hl, List.head?_cons]
      simp [hdue, Option.filter]

/-- The box that a request adds to a list with room for it. -/
def Request.box (r : Request) (s : State) : MessageBox :=
  ⟨r.boxLimits, r.mode, s.nextSeq + 1, r.boxTimeout, s.created, r.channel, r.boxTimeout⟩

def addBox (r : Request) (s : State) : State :=
  { s with
    nextSeq := s.nextSeq + 1
    mboxList := s.mboxList ++ [r.box s]
    startTime := millis s
    numMessages := s.numMessages + 1
    created := s.created + 1
    waiting := s.waiting ++ (r.box s).wait?.toList }

lemma Core.addBox (h : Core s) (r : Request) (hroom : s.mboxList.length < maxMessageBoxes) :
    Core (addBox r s) := by
  obtain ⟨⟨hcounted, hbounded, hordered, honce, htimed⟩, haccounted⟩ := h
  refine ⟨⟨?_, ?_, ?_, ?_, ?_⟩, ?_⟩
  · show s.numMessages + 1 = (s.mboxList ++ [r.box s]).length
    rw [hcounted, List.length_append, List.length_singleton]
  · show (s.mboxList ++ [r.box s]).length ≤ maxMessageBoxes
    rw [List.length_append, List.length_singleton]
    exact hroom
  · show (serials (s.mboxList ++ [r.box s])).Pairwise (· < ·)
    rw [serials_append, List.pairwise_append]
    refine ⟨hordered, List.pairwise_singleton .., fun a ha b hb => ?_⟩
    have hmem := honce.subset (List.mem_append_right _ ha)
    obtain rfl : b = s.created := by simpa [serials, Request.box] using hb
    exact List.mem_range.mp hmem
  · show (serials s.removed ++ serials (s.mboxList ++ [r.box s])).Perm (List.range (s.created + 1))
    rw [serials_append, ← List.append_assoc, List.range_succ]
    exact honce.append_right _
  · intro b hb
    rcases List.mem_append.mp hb with hb | hb
    · exact htimed b hb
    · obtain rfl := List.mem_singleton.mp hb
      exact .inl rfl
  · show (s.reports.map (·.wait) ++ (s.waiting ++ (r.box s).wait?.toList)).Perm
      (waits s.removed ++ waits (s.mboxList ++ [r.box s]))
    rw [waits_append, waits_singleton, ← List.append_assoc, ← List.append_assoc]
    exact haccounted.append_right _

lemma doMessageBox_eq (r : Request) (s : State)
    (hcreated : (displace (makeRoom { s with mboxList := [] } s.mboxList)).created = s.created) :
    doMessageBox r s = addBox r (displace (makeRoom { s with mboxList := [] } s.mboxList)) := by
  rw [doMessageBox, create, addBox]
  generalize displace _ = room at *
  have hwait : (r.box room).wait? =
      if r.mode ≥ 2 then r.channel.map (⟨·, room.nextSeq + 1, room.created⟩) else none := by
    simp [Request.box, MessageBox.wait?, MessageBox.isBlocking]
  rw [hwait]
  cases hc : r.channel with
  | none => simp [Request.box, hc]
  | some channel =>
    by_cases hmode : r.mode ≥ 2 <;> simp [hmode, Request.box, hcreated, hc]

lemma displace_kept (r : Request) (h : Core s) :
    Kept s (.doMessageBox r) (displace (makeRoom { s with mboxList := [] } s.mboxList)) ∧
      SameTimes s (displace (makeRoom { s with mboxList := [] } s.mboxList)) ∧
      (displace (makeRoom { s with mboxList :=
      [] } s.mboxList)).mboxList.length < maxMessageBoxes := by
  obtain ⟨hcore, hsame, -, hall, hfull⟩ := makeRoom_spec s.mboxList { s with mboxList := [] } h
    (h.counted.trans_le h.bounded)
  generalize makeRoom { s with mboxList := [] } s.mboxList = room at *
  have htimes : SameTimes s room := ⟨hsame.now, hsame.created, hsame.headSince⟩
  have hcounted := h.counted
  have hcounted' := hcore.counted
  have hbounded := h.bounded
  by_cases hge : room.numMessages ≥ maxMessageBoxes
  · obtain ⟨hblocking, hlist⟩ := hfull hge
    have hlist : room.mboxList = s.mboxList := hlist
    cases hl : s.mboxList with
    | nil =>
      rw [hlist, hl] at hcounted'
      simp only [List.length_nil, maxMessageBoxes] at hcounted' hge
      omega
    | cons mb rest =>
      have hlength : s.mboxList.length ≥ maxMessageBoxes := by rwa [← hlist, ← hcounted']
      have hmb : mb.isBlocking = true := hblocking mb (by rw [hl]; exact List.mem_cons_self)
      have hdisplace : displace room =
          { timeOut mb { room with mboxList := rest } with
            numAutoCancelledMessages :=
              (timeOut mb { room with mboxList := rest }).numAutoCancelledMessages + 1 } := by
        rw [displace, if_pos hge, hlist, hl]
      have hout : timeOut mb { room with mboxList := rest } =
          { messageBoxClosed mb.limits.canCancel mb.limits.shouldAbort mb.seq
              { room with mboxList := rest } with
            numMessages := room.numMessages - 1
            removed := room.removed ++ [mb] } := by
        rw [timeOut, if_pos hmb]
        rfl
      have hfront : s.mboxList = [] ++ mb :: rest := hl
      have hcore' := hcore.timeOut (hlist.trans hfront)
      rw [hdisplace]
      refine ⟨⟨⟨⟨hcore'.counted, hcore'.bounded, hcore'.ordered, hcore'.once, hcore'.timed⟩,
        hcore'.accounted⟩, reported_of_closing mb.limits.canCancel mb.limits.shouldAbort h
        hfront (.inl rfl) ?_ ?_ ?_⟩, ?_, ?_⟩
      · rw [closing, if_pos ⟨hlength, hblocking⟩, hl]
        rfl
      · rw [hout]
        show room.reports ++ _ = s.reports ++ _
        rw [hsame.reports, hsame.waiting]
      · rw [hout]
        show waits (room.removed ++ [mb]) = _
        rw [waits_append, waits_append, hsame.removed]
      · rw [hout]
        exact ⟨htimes.now, htimes.created, htimes.headSince⟩
      · rw [hout]
        show rest.length < maxMessageBoxes
        rw [hl, List.length_cons] at hbounded
        omega
  · rw [displace, if_neg hge]
    refine ⟨⟨hcore, reported_of_none ?_ hsame.reports hsame.removed⟩, htimes, by omega⟩
    rw [closing, if_neg]
    rintro ⟨hlength, hblocking⟩
    have hcount := hall hblocking
    simp only at hcount
    omega

lemma doMessageBox_kept (r : Request) (h : Core s) :
    Kept s (.doMessageBox r) (doMessageBox r s) ∧ (doMessageBox r s).now = s.now ∧
      (doMessageBox r s).startTime = millis s ∧ (doMessageBox r s).headSince = s.headSince := by
  obtain ⟨hkept, htimes, hroom⟩ := displace_kept r h
  rw [doMessageBox_eq r s htimes.created]
  generalize displace _ = room at *
  refine ⟨⟨hkept.core.addBox r hroom, hkept.reported⟩, htimes.now, ?_, htimes.headSince⟩
  show UInt32.ofNat room.now = _
  rw [htimes.now]
  rfl

lemma call_kept (h : Core s) (c : Call) : Kept s c (call s c) := by
  cases c with
  | doMessageBox r => exact (doMessageBox_kept r h).1
  | acknowledgeMessage seq cancelled => exact acknowledgeMessage_kept h seq cancelled
  | checkTimeout => exact checkTimeout_kept h

/-! ### When a box is timed out -/

/-- The head has been the head since the start time at the latest, and the start time is one of
the times that have been. -/
structure Started (s : State) : Prop where
  past : s.headSince ≤ s.now
  since : ∃ since, s.startTime = UInt32.ofNat since ∧ since ≤ s.now ∧
    (s.mboxList ≠ [] → s.headSince ≤ since)

/-- The counter may have wrapped, but it never shows more than the time that has passed. -/
lemma elapsed_le {since now : ℕ} (h : since ≤ now) :
    (UInt32.ofNat now - UInt32.ofNat since).toNat ≤ now - since := by
  rw [UInt32.toNat_sub, UInt32.toNat_ofNat', UInt32.toNat_ofNat']
  omega

lemma Due.elapsed (hs : Started s) (hne : s.mboxList ≠ []) (hdue : Due s mb) :
    s.headSince + mb.timeout.toNat ≤ s.now := by
  obtain ⟨-, since, hstart, hle, hhead⟩ := hs
  have htime : mb.timeout.toNat ≤ (millis s - s.startTime).toNat := UInt32.le_iff_toNat_le.mp hdue.2
  have hpassed := elapsed_le hle
  have hsince := hhead hne
  rw [millis, hstart] at htime
  omega

lemma timeOut_times (mb : MessageBox) (s : State) :
    (timeOut mb s).now = s.now ∧ (timeOut mb s).headSince = s.headSince := by
  rw [timeOut]
  split_ifs <;> exact ⟨rfl, rfl⟩

/-- The start time is set whenever the head changes. -/
lemma call_times (h : Core s) (c : Call) :
    (call s c).now = s.now ∧ (call s c).headSince = s.headSince ∧
      ((call s c).startTime = millis s ∨
        (call s c).startTime = s.startTime ∧ headSerial (call s c) = headSerial s) := by
  cases c with
  | doMessageBox r =>
    obtain ⟨-, hnow, hstart, hhead⟩ := doMessageBox_kept r h
    exact ⟨hnow, hhead, .inl hstart⟩
  | acknowledgeMessage seq cancelled =>
    rw [call, acknowledgeMessage, acknowledge]
    rcases unlink_spec seq s.mboxList with ⟨hnone, -⟩ | ⟨pre, mb, post, hl, hsome, -, -, hfirst⟩
    · rw [hnone]
      exact ⟨rfl, rfl, .inr ⟨rfl, rfl⟩⟩
    · rw [hsome]
      dsimp only
      cases pre with
      | nil =>
        rw [if_pos (hfirst.mp rfl)]
        split_ifs <;> exact ⟨rfl, rfl, .inl rfl⟩
      | cons b pre =>
        rw [if_neg fun hany => List.cons_ne_nil b pre (hfirst.mpr hany)]
        have hsame : ((b :: pre) ++ post).head?.map (·.serial) = headSerial s := by
          rw [headSerial, hl]
          rfl
        split_ifs <;> exact ⟨rfl, rfl, .inr ⟨rfl, hsame⟩⟩
  | checkTimeout =>
    rw [call, checkTimeout]
    cases hl : s.mboxList with
    | nil => exact ⟨rfl, rfl, .inr ⟨rfl, rfl⟩⟩
    | cons mb rest =>
      obtain ⟨hnow, hhead⟩ := timeOut_times mb { s with mboxList := rest }
      dsimp only
      split_ifs
      · exact ⟨hnow, hhead, .inl rfl⟩
      · exact ⟨rfl, rfl, .inr ⟨rfl, rfl⟩⟩

lemma Core.later (h : Core s) (ms : ℕ) : Core (later ms s) :=
  ⟨⟨h.counted, h.bounded, h.ordered, h.once, h.timed⟩, h.accounted⟩

lemma Started.later (hs : Started s) (ms : ℕ) : Started (later ms s) := by
  obtain ⟨hpast, since, hstart, hle, hhead⟩ := hs
  exact ⟨hpast.trans (Nat.le_add_right ..), since, hstart, hle.trans (Nat.le_add_right ..), hhead⟩

lemma Started.step (h : Core s) (hs : Started s) (c : ℕ × Call) : Started (step s c) := by
  obtain ⟨hpast, since, hstart, hle, hhead⟩ := hs.later c.1
  obtain ⟨hnow, hsince, htime⟩ := call_times (h.later c.1) c.2
  have hserial : headSerial (MessageBoxes.later c.1 s) = headSerial s := rfl
  rw [MessageBoxes.step]
  generalize MessageBoxes.later c.1 s = t at *
  split_ifs with hsame
  · refine ⟨by rw [hsince, hnow]; exact hpast, ?_⟩
    rcases htime with hnew | ⟨hold, -⟩
    · exact ⟨t.now, hnew, hnow.ge, fun _ => by rw [hsince]; exact hpast⟩
    · refine ⟨since, hold.trans hstart, by rw [hnow]; exact hle, fun hne => ?_⟩
      rw [hsince]
      apply hhead
      rintro hempty
      rw [← hserial, headSerial, headSerial, hempty] at hsame
      exact hne (by simpa using hsame)
  · refine ⟨hnow.ge, ?_⟩
    rcases htime with hnew | ⟨-, heq⟩
    · exact ⟨t.now, hnew, hnow.ge, fun _ => le_rfl⟩
    · exact absurd (heq.trans hserial) hsame

/-- A box that `CheckTimeout` closes was at the head for as long as its timeout says. -/
def Elapsed (s : State) : Prop :=
  (checkTimeout s).2 = true → ∃ mb ∈ s.mboxList.head?,
    (checkTimeout s).1.removed = s.removed ++ [mb] ∧ s.headSince + mb.timeout.toNat ≤ s.now

lemma Started.elapsed (hs : Started s) : Elapsed s := by
  intro hclosed
  rw [checkTimeout] at hclosed ⊢
  cases hl : s.mboxList with
  | nil => simp [hl] at hclosed
  | cons mb rest =>
    rw [hl] at hclosed
    dsimp only at hclosed ⊢
    split_ifs at hclosed ⊢ with hdue
    refine ⟨mb, rfl, ?_, Due.elapsed hs (by rw [hl]; exact List.cons_ne_nil mb rest) hdue⟩
    rw [timeOut]
    split_ifs <;> rfl

lemma Core.step (h : Core s) (c : ℕ × Call) : Core (step s c) := by
  have hnext := (call_kept (h.later c.1) c.2).core
  rw [MessageBoxes.step]
  split_ifs
  · exact hnext
  · exact ⟨⟨hnext.counted, hnext.bounded, hnext.ordered, hnext.once, hnext.timed⟩, hnext.accounted⟩

lemma reported_step (h : Core s) (hr : Reported s) (c : ℕ × Call) :
    Reported (step s c) ↔ Unconfused (later c.1 s) c.2 := by
  have hnext := (call_kept (h.later c.1) c.2).reported hr
  rw [MessageBoxes.step]
  split_ifs
  · exact hnext
  · exact hnext

/-- The discipline of the list, the reports and the times of a run. -/
structure Disciplined (cs : List (ℕ × Call)) : Prop where
  listed : Always step Listed initial cs
  reported : Always step Reported initial cs
  elapsed : Along step (fun s c => c.2 = .checkTimeout → Elapsed (later c.1 s)) initial cs

lemma core_initial : Core initial :=
  ⟨⟨rfl, Nat.zero_le _, .nil, .refl _, nofun⟩, .refl _⟩

lemma started_initial : Started initial := ⟨le_rfl, 0, rfl, le_rfl, fun h => absurd rfl h⟩

/-- The list, its counter, the order and the timeouts are right in every run; the reports are
right exactly where no call confuses the channels. -/
theorem disciplined_iff (cs : List (ℕ × Call)) : Disciplined cs ↔
    Along step (fun s c => Unconfused (later c.1 s) c.2) initial cs := by
  have hreports : Always step Reported initial cs ↔
      Along step (fun s c => Unconfused (later c.1 s) c.2) initial cs := always_iff_along
    core_initial (fun s c h => h.step c) (List.Perm.refl _)
      (fun s c h hr => reported_step h hr c) cs
  have hkept : ∀ s c, Core s ∧ Started s → Core (step s c) ∧ Started (step s c) :=
    fun s c h => ⟨h.1.step c, h.2.step h.1 c⟩
  refine ⟨fun h => hreports.mp h.reported, fun h => ⟨fun bs _ => ?_, hreports.mpr h, ?_⟩⟩
  · exact (invariant ⟨core_initial, started_initial⟩ hkept bs).1.toListed
  · have hall : Along step (fun _ _ => True) initial cs := along_of_forall (fun _ _ => trivial) cs
    exact hall.of_invariant
      ⟨core_initial, started_initial⟩ (fun s c hs _ => hkept s c hs)
      fun s c hs _ (_ : c.2 = .checkTimeout) => (hs.2.later c.1).elapsed

instance : Decidable (Reported s) := inferInstanceAs (Decidable (List.Perm _ _))

/-- Two channels wait, and an acknowledgement without a number closes the first box. -/
theorem not_disciplined : ¬ Disciplined [(0, .doMessageBox ⟨2, 0, none, some 0⟩),
    (0, .doMessageBox ⟨2, 0, none, some 1⟩), (0, .acknowledgeMessage 0 false)] := by
  intro h
  exact absurd (h.reported _ (List.prefix_refl _)) (by decide)

end RepRapFirmware.Platform.MessageBoxes
