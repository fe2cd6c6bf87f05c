import RepRapFirmware.Library.Runs

/-! The queue of events. The event that is being processed stays at its head; an event's serial
number counts the events queued before it. -/

namespace RepRapFirmware.Platform.Events

open Library.Runs

/-- In the order of the source, the highest priority first. -/
inductive EventType
  | mainBoardPowerFail | expansionReconnect | expansionTimeout | heaterFault | driverError
  | filamentError | driverStall | driverWarning | mcuTemperatureWarning | overvoltage | undervoltage
  deriving DecidableEq, Repr

def EventType.code : EventType → ℕ
  | .mainBoardPowerFail => 0
  | .expansionReconnect => 1
  | .expansionTimeout => 2
  | .heaterFault => 3
  | .driverError => 4
  | .filamentError => 5
  | .driverStall => 6
  | .driverWarning => 7
  | .mcuTemperatureWarning => 8
  | .overvoltage => 9
  | .undervoltage => 10

structure Event where
  param : UInt16
  type : EventType
  boardAddress : UInt8
  deviceNumber : UInt8
  isBeingProcessed : Bool
  serial : ℕ
  deriving DecidableEq

structure State where
  eventsPending : List Event
  eventsQueued : UInt32
  eventsProcessed : UInt32
  added : ℕ

def initial : State := ⟨[], 0, 0, 0⟩

/-- Boards are only told apart where the firmware is built for CAN expansion. -/
def similar (canExpansion : Bool) (a b : Event) : Bool :=
  a.type = b.type ∧ a.deviceNumber = b.deviceNumber ∧ b.param = a.param ∧
    (canExpansion → a.boardAddress = b.boardAddress)

/-- The loop of `AddEventV` along the list, with the insertion at its end; nothing where the
event is released. -/
def addTo (canExpansion : Bool) (new : Event) : List Event → Option (List Event)
  | [] => some [new]
  | e :: rest =>
    if new.type.code ≥ e.type.code ∨ e.isBeingProcessed then
      if similar canExpansion new e then none else (addTo canExpansion new rest).map (e :: ·)
    else some (new :: e :: rest)

def addEvent (canExpansion : Bool) (s : State) (et : EventType) (param : UInt16)
    (boardAddress deviceNumber : UInt8) : State × Bool :=
  match addTo canExpansion ⟨param, et, boardAddress, deviceNumber, false,
    s.added⟩ s.eventsPending with
  | none => (s, false)
  | some pending =>
    ({ s with
        eventsPending := pending
        eventsQueued := s.eventsQueued + 1
        added := s.added + 1 }, true)

def startProcessing (s : State) : State × Bool :=
  match s.eventsPending with
  | [] => (s, false)
  | ev :: rest => ({ s with eventsPending := { ev with isBeingProcessed := true } :: rest }, true)

/-- The device, the board and the parameter, where an event is being processed. -/
def getParameters (s : State) : Option (UInt8 × UInt8 × UInt16) :=
  match s.eventsPending with
  | [] => none
  | ep :: _ =>
    if ep.isBeingProcessed then some (ep.deviceNumber, ep.boardAddress, ep.param) else none

def finishedProcessing (s : State) : State :=
  match s.eventsPending with
  | [] => s
  | ev :: rest =>
    if ev.isBeingProcessed then
      { s with eventsPending := rest, eventsProcessed := s.eventsProcessed + 1 }
    else s

inductive Call
  | addEvent (et : EventType) (param : UInt16) (boardAddress deviceNumber : UInt8)
  | startProcessing
  | getParameters
  | finishedProcessing

def step (canExpansion : Bool) (s : State) : Call → State
  | .addEvent et param ba devNum => (addEvent canExpansion s et param ba devNum).1
  | .startProcessing => (startProcessing s).1
  | .getParameters => s
  | .finishedProcessing => finishedProcessing s

/-- The serial number of the event that a call queues, as `AddEvent` reports it. -/
def queued (canExpansion : Bool) (s : State) : Call → List ℕ
  | .addEvent et param ba devNum =>
    if (addEvent canExpansion s et param ba devNum).2 then [s.added] else []
  | _ => []

/-- The event that a call takes off the queue. -/
def finished (s : State) : Call → List Event
  | .finishedProcessing => s.eventsPending.head?.toList.filter (·.isBeingProcessed)
  | _ => []

/-! ### What holds between the calls -/

/-- Higher priority, or queued earlier at the same priority. -/
def Before (a b : Event) : Prop :=
  a.type.code < b.type.code ∨ a.type = b.type ∧ a.serial < b.serial

structure Orderly (canExpansion : Bool) (s : State) : Prop where
  alone : ∀ e ∈ s.eventsPending.tail, e.isBeingProcessed = false
  sorted : (s.eventsPending.filter (!·.isBeingProcessed)).Pairwise Before
  distinct : s.eventsPending.Pairwise fun a b => similar canExpansion a b = false
  fresh : ∀ e ∈ s.eventsPending, e.serial < s.added

variable {can : Bool} {s : State} {new e : Event} {pending pre post rest : List Event}

lemma EventType.code_injective : Function.Injective EventType.code := by
  intro a b h
  cases a <;> cases b <;> first | rfl | exact absurd h (by decide)

lemma similar_comm (a b : Event) : similar can a b = similar can b a := by
  simp only [similar, eq_comm (a := a.type), eq_comm (a := a.deviceNumber),
    eq_comm (a := a.param), eq_comm (a := a.boardAddress)]

/-- The walk stops at a similar event, or where the new one belongs. -/
lemma addTo_cases (can : Bool) (new : Event) (l : List Event) :
    (∃ e ∈ l, similar can new e = true ∧ addTo can new l = none) ∨
      ∃ pre post, l = pre ++ post ∧ addTo can new l = some (pre ++ new :: post) ∧
        (∀ e ∈ pre, (e.type.code ≤ new.type.code ∨ e.isBeingProcessed = true) ∧
          similar can new e = false) ∧
        ∀ e ∈ post.head?, new.type.code < e.type.code ∧ e.isBeingProcessed = false := by
  induction l with
  | nil => exact .inr ⟨[], [], rfl, rfl, nofun, nofun⟩
  | cons e l ih =>
    by_cases hpass : new.type.code ≥ e.type.code ∨ e.isBeingProcessed
    · by_cases hsimilar : similar can new e = true
      · exact .inl ⟨e, List.mem_cons_self, hsimilar, by rw [addTo, if_pos hpass, if_pos hsimilar]⟩
      · have hadd : addTo can new (e :: l) = (addTo can new l).map (e :: ·) := by
          rw [addTo, if_pos hpass, if_neg hsimilar]
        rcases ih with ⟨e', hmem, hs, hnone⟩ | ⟨pre, post, rfl, hsome, hpre, hpost⟩
        · exact .inl ⟨e', List.mem_cons_of_mem e hmem, hs, by rw [hadd, hnone]; rfl⟩
        · refine .inr ⟨e :: pre, post, rfl, by rw [hadd, hsome]; rfl, ?_, hpost⟩
          rintro e' (_ | ⟨_, hmem⟩)
          · exact ⟨hpass, by simpa using hsimilar⟩
          · exact hpre e' hmem
    · refine .inr ⟨[], e :: l, rfl, by rw [addTo, if_neg hpass]; rfl, nofun, ?_⟩
      rintro e' ⟨rfl⟩
      simpa using hpass

/-- What `AddEvent` does to the state: nothing, or one event more at its place. -/
lemma addEvent_cases (can : Bool) (s : State) (et : EventType) (param : UInt16) (ba devNum : UInt8)
    :
    let new : Event := ⟨param, et, ba, devNum, false, s.added⟩
    (∃ e ∈ s.eventsPending, similar can new e = true ∧
      addEvent can s et param ba devNum = (s, false)) ∨
      ∃ pre post, s.eventsPending = pre ++ post ∧
        addEvent can s et param ba devNum =
          ({ s with
              eventsPending := pre ++ new :: post
              eventsQueued := s.eventsQueued + 1
              added := s.added + 1 }, true) ∧
        (∀ e ∈ pre, (e.type.code ≤ new.type.code ∨ e.isBeingProcessed = true) ∧
          similar can new e = false) ∧
        ∀ e ∈ post.head?, new.type.code < e.type.code ∧ e.isBeingProcessed = false := by
  intro new
  rcases addTo_cases can new s.eventsPending with ⟨e, hmem, hs, hnone⟩ | ⟨pre, post, hl, hsome, h⟩
  · exact .inl ⟨e, hmem, hs, by rw [addEvent, hnone]⟩
  · exact .inr ⟨pre, post, hl, by rw [addEvent, hsome], h⟩

lemma orderly_initial (can : Bool) : Orderly can initial := ⟨nofun, .nil, .nil, nofun⟩

/-- Behind the place of a new event everything waits and has lower priority. -/
lemma Orderly.behind (h : Orderly can s) (hl : s.eventsPending = pre ++ post)
    (hpost : ∀ e ∈ post.head?, new.type.code < e.type.code ∧ e.isBeingProcessed = false) :
    ∀ e ∈ post, new.type.code < e.type.code ∧ e.isBeingProcessed = false := by
  cases post with
  | nil => nofun
  | cons p post =>
    obtain ⟨hcode, hwaits⟩ := hpost p rfl
    rintro e (_ | ⟨_, hmem⟩)
    · exact ⟨hcode, hwaits⟩
    · have htail : e ∈ s.eventsPending.tail := by
        rw [hl]
        cases pre with
        | nil => exact hmem
        | cons x pre => exact List.mem_append_right _ (List.mem_cons_of_mem p hmem)
      have hfalse := h.alone e htail
      have hsorted := h.sorted
      rw [hl, List.filter_append, List.filter_cons_of_pos (by simp [hwaits]),
        List.pairwise_append] at hsorted
      have hbefore := List.rel_of_pairwise_cons hsorted.2.1
        (List.mem_filter.mpr ⟨hmem, by simp [hfalse]⟩)
      refine ⟨?_, hfalse⟩
      rcases hbefore with hlt | ⟨heq, -⟩
      · exact hcode.trans hlt
      · rwa [← heq]

lemma Orderly.insert (h : Orderly can s) (hl : s.eventsPending = pre ++ post)
    (hnew : new.isBeingProcessed = false) (hserial : new.serial = s.added)
    (hpre : ∀ e ∈ pre, (e.type.code ≤ new.type.code ∨ e.isBeingProcessed = true) ∧
      similar can new e = false)
    (hpost : ∀ e ∈ post.head?, new.type.code < e.type.code ∧ e.isBeingProcessed = false) :
    Orderly can { s with
      eventsPending := pre ++ new :: post
      eventsQueued := s.eventsQueued + 1
      added := s.added + 1 } := by
  have hbehind := h.behind hl hpost
  have hfresh := h.fresh
  have hsorted := h.sorted
  have hdistinct := h.distinct
  rw [hl] at hfresh hsorted hdistinct
  rw [List.filter_append, List.pairwise_append] at hsorted
  rw [List.pairwise_append] at hdistinct
  constructor
  · intro e hmem
    cases pre with
    | nil => exact (hbehind e hmem).2
    | cons x pre =>
      have hrest : ∀ e ∈ pre ++ post, e.isBeingProcessed = false := by
        have halone := h.alone
        rwa [hl] at halone
      rcases List.mem_append.mp hmem with hmem | hmem | ⟨_, hmem⟩
      · exact hrest e (List.mem_append_left _ hmem)
      · exact hnew
      · exact hrest e (List.mem_append_right _ hmem)
  · rw [List.filter_append, List.filter_cons_of_pos (by simp [hnew]), List.pairwise_append,
      List.pairwise_cons]
    refine ⟨hsorted.1, ⟨fun e hmem => .inl (hbehind e (List.mem_filter.mp hmem).1).1, hsorted.2.1⟩,
      ?_⟩
    rintro a ha b (_ | ⟨_, hb⟩)
    · obtain ⟨hmem, hwaits⟩ := List.mem_filter.mp ha
      rcases (hpre a hmem).1 with hle | hprocessed
      · rcases lt_or_eq_of_le hle with hlt | heq
        · exact .inl hlt
        · have hearlier := hfresh a (List.mem_append_left _ hmem)
          exact .inr ⟨EventType.code_injective heq, hserial ▸ hearlier⟩
      · simp [hprocessed] at hwaits
    · exact hsorted.2.2 a ha b hb
  · rw [List.pairwise_append, List.pairwise_cons]
    refine ⟨hdistinct.1, ⟨fun e hmem => ?_, hdistinct.2.1⟩, ?_⟩
    · have hcode := (hbehind e hmem).1
      have htype : new.type ≠ e.type := fun heq => by rw [heq] at hcode; omega
      simp [similar, htype]
    · rintro a ha b (_ | ⟨_, hb⟩)
      · rw [similar_comm]
        exact (hpre a ha).2
      · exact hdistinct.2.2 a ha b hb
  · intro e hmem
    show e.serial < s.added + 1
    rcases List.mem_append.mp hmem with hmem | hmem | ⟨_, hmem⟩
    · exact Nat.lt_succ_of_lt (hfresh e (List.mem_append_left _ hmem))
    · omega
    · exact Nat.lt_succ_of_lt (hfresh e (List.mem_append_right _ hmem))

lemma Orderly.startProcessing (h : Orderly can s) : Orderly can (startProcessing s).1 := by
  rw [Events.startProcessing]
  cases hl : s.eventsPending with
  | nil => exact h
  | cons ev rest =>
    obtain ⟨halone, hsorted, hdistinct, hfresh⟩ := h
    rw [hl] at halone hsorted hdistinct hfresh
    refine ⟨halone, ?_, ?_, ?_⟩
    · show ((_ :: rest).filter _).Pairwise Before
      rw [List.filter_cons_of_neg (by simp)]
      exact hsorted.sublist ((List.sublist_cons_self ev rest).filter _)
    · exact List.pairwise_cons.mpr (List.pairwise_cons.mp hdistinct)
    · rintro e (_ | ⟨_, hmem⟩)
      · exact hfresh ev List.mem_cons_self
      · exact hfresh e (List.mem_cons_of_mem ev hmem)

lemma Orderly.finishedProcessing (h : Orderly can s) : Orderly can (finishedProcessing s) := by
  rw [Events.finishedProcessing]
  cases hl : s.eventsPending with
  | nil => exact h
  | cons ev rest =>
    by_cases hprocessed : ev.isBeingProcessed
    · obtain ⟨halone, hsorted, hdistinct, hfresh⟩ := h
      rw [hl] at halone hsorted hdistinct hfresh
      simp only [hprocessed, if_true]
      refine ⟨fun e hmem => halone e (List.mem_of_mem_tail hmem), ?_, hdistinct.of_cons,
        fun e hmem => hfresh e (List.mem_cons_of_mem ev hmem)⟩
      exact hsorted.sublist ((List.sublist_cons_self ev rest).filter _)
    · simp only [hprocessed]
      exact h

lemma Orderly.step (h : Orderly can s) (c : Call) : Orderly can (step can s c) := by
  cases c with
  | addEvent et param ba devNum =>
    rw [Events.step]
    rcases addEvent_cases can s et param ba devNum with ⟨e, -, -, hsame⟩ | ⟨pre, post, hl, hadd,
      hpre, hpost⟩
    · rw [hsame]
      exact h
    · rw [hadd]
      exact h.insert hl rfl rfl hpre hpost
  | startProcessing => exact h.startProcessing
  | getParameters => exact h
  | finishedProcessing => exact h.finishedProcessing

/-! ### Every event is processed once -/

def serials (l : List Event) : List ℕ := l.map (·.serial)

lemma step_accounts (s : State) (c : Call) :
    (serials (finished s c) ++ serials (step can s c).eventsPending).Perm
      (serials s.eventsPending ++ queued can s c) := by
  cases c with
  | addEvent et param ba devNum =>
    rw [Events.step, queued]
    rcases addEvent_cases can s et param ba devNum with ⟨e, -, -, hsame⟩ | ⟨pre, post, hl, hadd, -⟩
    · rw [hsame]
      simp [serials, finished]
    · rw [hadd, hl]
      simp only [serials, finished, List.map_nil, List.nil_append, List.map_append, List.map_cons,
        if_true, List.append_assoc]
      exact List.Perm.append_left _ (List.perm_append_singleton s.added _).symm
  | startProcessing =>
    rw [Events.step, startProcessing]
    cases hl : s.eventsPending <;> simp [queued, finished, serials, hl]
  | getParameters => simp [Events.step, queued, finished, serials]
  | finishedProcessing =>
    rw [Events.step, finishedProcessing]
    cases hl : s.eventsPending with
    | nil => simp [queued, finished, serials, hl]
    | cons ev rest =>
      by_cases hprocessed : ev.isBeingProcessed <;> simp [queued, finished, serials, hl, hprocessed]

lemma run_accounts (s : State) (calls : List Call) :
    (serials (collect (step can) finished s calls) ++
        serials (run (step can) s calls).eventsPending).Perm
      (serials s.eventsPending ++ collect (step can) (queued can) s calls) := by
  induction calls generalizing s with
  | nil => simp [collect, serials]
  | cons c calls ih =>
    have hrest := (ih (step can s c)).append_left (serials (finished s c))
    have hfirst := (@step_accounts can s c).append_right
      (collect (step can) (queued can) (step can s c) calls)
    simp only [collect, run_cons, serials, List.map_append, List.append_assoc] at hrest hfirst ⊢
    exact hrest.trans hfirst

/-- The serial numbers of the queued events are handed out in order. -/
lemma queued_range (s : State) (calls : List Call) :
    List.range s.added ++ collect (step can) (queued can) s calls =
      List.range (run (step can) s calls).added := by
  induction calls generalizing s with
  | nil => simp [collect]
  | cons c calls ih =>
    have hstep : List.range s.added ++ queued can s c = List.range (step can s c).added := by
      cases c with
      | addEvent et param ba devNum =>
        rw [Events.step, queued]
        rcases addEvent_cases can s et param ba devNum with ⟨e, -, -, hsame⟩ | ⟨pre, post, -, hadd,
          -⟩
        · rw [hsame]
          simp
        · rw [hadd]
          exact List.range_succ.symm
      | startProcessing =>
        rw [Events.step, startProcessing]
        cases s.eventsPending <;> simp [queued]
      | getParameters => simp [Events.step, queued]
      | finishedProcessing =>
        rw [Events.step, finishedProcessing]
        cases s.eventsPending with
        | nil => simp [queued]
        | cons ev rest => cases hp : ev.isBeingProcessed <;> simp [queued, hp]
    rw [collect, ← List.append_assoc, hstep, ih, run_cons]

lemma finished_processed (s : State) (calls : List Call) :
    ∀ e ∈ collect (step can) finished s calls, e.isBeingProcessed = true := by
  induction calls generalizing s with
  | nil => nofun
  | cons c calls ih =>
    intro e hmem
    rcases List.mem_append.mp hmem with hmem | hmem
    · cases c with
      | finishedProcessing => exact (List.mem_filter.mp hmem).2
      | _ => cases hmem
    · exact ih _ e hmem

/-- Nothing but calls that process the queue. -/
def drain (n : ℕ) : List Call := (List.replicate n [Call.startProcessing,
    .finishedProcessing]).flatten

lemma drained (s : State) (n : ℕ) (hn : s.eventsPending.length = n) :
    (run (step can) s (drain n)).eventsPending = [] ∧
      serials (collect (step can) finished s (drain n)) = serials s.eventsPending := by
  induction n generalizing s with
  | zero =>
    rw [List.length_eq_zero_iff] at hn
    simp [drain, collect, hn, serials]
  | succ n ih =>
    obtain ⟨ev, rest, hl⟩ := List.exists_cons_of_length_eq_add_one hn
    have hstart : step can s .startProcessing =
        { s with eventsPending := { ev with isBeingProcessed := true } :: rest } := by
      rw [Events.step, startProcessing, hl]
    have hfinish : step can (step can s .startProcessing) .finishedProcessing =
        { s with eventsPending := rest, eventsProcessed := s.eventsProcessed + 1 } := by
      rw [hstart]
      rfl
    have hlog : finished (step can s .startProcessing) .finishedProcessing =
        [{ ev with isBeingProcessed := true }] := by
      rw [hstart]
      rfl
    obtain ⟨hempty, hserials⟩ := ih { s with
      eventsPending := rest
      eventsProcessed := s.eventsProcessed + 1 } (by simpa [hl] using hn)
    have hdrain : drain (n + 1) = .startProcessing :: .finishedProcessing :: drain n := rfl
    rw [hdrain, run_cons, run_cons, collect, collect, hfinish, hlog, hl]
    refine ⟨hempty, ?_⟩
    rw [serials, List.map_append, List.map_append, ← serials, ← serials, ← serials, hserials]
    rfl

lemma addEvent_keeps_head (et : EventType) (param : UInt16) (ba devNum : UInt8)
    (hhead : s.eventsPending.head? = some e) (he : e.isBeingProcessed = true) :
    (step can s (.addEvent et param ba devNum)).eventsPending.head? = some e := by
  rw [Events.step]
  rcases addEvent_cases can s et param ba devNum with ⟨_, -, -, hsame⟩ | ⟨pre, post, hl, hadd, -,
    hpost⟩
  · rw [hsame]
    exact hhead
  · rw [hadd]
    cases pre with
    | nil =>
      rw [hl] at hhead
      have hfalse := (hpost e hhead).2
      rw [he] at hfalse
      exact absurd hfalse (by decide)
    | cons x pre =>
      rw [hl] at hhead
      exact hhead

/-- After any calls only the head may be in progress, the others wait by priority and, within a
type, in the order of their arrival, and no two are similar. Each event that was queued has been
processed once or is pending once; calls that only process the queue process all of it in its
order. Adding an event leaves the one in progress where it is. -/
theorem queue_discipline (can : Bool) (calls : List Call) :
    let s := run (step can) initial calls
    Orderly can s ∧
      (collect (step can) (queued can) initial calls).Nodup ∧
      (serials (collect (step can) finished initial calls) ++ serials s.eventsPending).Perm
        (collect (step can) (queued can) initial calls) ∧
      (∀ e ∈ collect (step can) finished initial calls, e.isBeingProcessed = true) ∧
      ((run (step can) s (drain s.eventsPending.length)).eventsPending = [] ∧
        serials (collect (step can) finished s (drain s.eventsPending.length)) =
          serials s.eventsPending) ∧
      ∀ e, s.eventsPending.head? = some e → e.isBeingProcessed = true →
        getParameters s = some (e.deviceNumber, e.boardAddress, e.param) ∧
        ∀ et param ba devNum,
          (step can s (.addEvent et param ba devNum)).eventsPending.head? = some e := by
  intro s
  refine ⟨invariant (orderly_initial can) (fun _ c h => h.step c) calls, ?_, ?_,
    finished_processed initial calls, drained s _ rfl, fun e hhead he => ⟨?_, ?_⟩⟩
  · have hrange := @queued_range can initial calls
    rw [initial, List.range_zero, List.nil_append] at hrange
    rw [initial, hrange]
    exact List.nodup_range
  · exact @run_accounts can initial calls
  · obtain ⟨rest, hl⟩ := List.head?_eq_some_iff.mp hhead
    rw [getParameters, hl]
    exact if_pos he
  · exact fun et param ba devNum => addEvent_keeps_head et param ba devNum hhead he

end RepRapFirmware.Platform.Events
