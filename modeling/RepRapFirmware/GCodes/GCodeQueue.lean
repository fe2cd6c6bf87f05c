import Mathlib.Data.List.FinRange
import Mathlib.Data.List.TakeWhile
import Mathlib.Tactic
import RepRapFirmware.Library.LinkedLists

/-! The queue of commands that wait for a move. Its items are the cells of two linked lists. The
bytes of a command are those that its length counts. -/

namespace RepRapFirmware.GCodes.GCodeQueues

open Library.LinkedLists

def maxQueuedCodes : ℕ := 16

def bufferSizePerQueueItem : ℕ := 64

abbrev Item := Fin maxQueuedCodes

/-- The command in the buffer of a channel. -/
structure GCodeBuffer where
  isBinary : Bool
  data : List UInt8
  deriving DecidableEq

structure QueuedCode where
  next : Option Item
  isBinary : Bool
  data : List UInt8
  executeAtMove : UInt32

namespace QueuedCode

def assignFrom (code : QueuedCode) (gb : GCodeBuffer) : QueuedCode :=
  { code with isBinary := gb.isBinary, data := gb.data.take bufferSizePerQueueItem }

/-- What the buffer is given. A binary command is made of words of four bytes. -/
def assignTo (code : QueuedCode) : GCodeBuffer where
  isBinary := code.isBinary
  data := if code.isBinary then code.data.take (code.data.length / 4 * 4) else code.data

/-- What is delivered, and the move that it waits for. -/
structure Command where
  code : GCodeBuffer
  executeAtMove : UInt32
  deriving DecidableEq

def command (code : QueuedCode) : Command := ⟨code.assignTo, code.executeAtMove⟩

/-- What an item makes of a command. -/
def kept (gb : GCodeBuffer) : GCodeBuffer :=
  (assignFrom ⟨none, false, [], 0⟩ gb).assignTo

/-- A command that is short enough and is made of whole words is delivered as it was. -/
lemma kept_eq {gb : GCodeBuffer} (hlength : gb.data.length ≤ bufferSizePerQueueItem)
    (hwords : gb.isBinary → 4 ∣ gb.data.length) : kept gb = gb := by
  obtain ⟨isBinary, data⟩ := gb
  rw [kept, assignTo, assignFrom]
  dsimp only at hlength hwords ⊢
  rw [List.take_of_length_le hlength]
  split
  · next hbinary => rw [Nat.div_mul_cancel (hwords hbinary), List.take_length]
  · rfl

end QueuedCode

structure GCodeQueue where
  freeItems : Option Item
  queuedItems : Option Item
  items : Item → QueuedCode

namespace GCodeQueue

def setItem (q : GCodeQueue) (i : Item) (code : QueuedCode) : GCodeQueue :=
  { q with items := Function.update q.items i code }

def setNext (q : GCodeQueue) (i : Item) (next : Option Item) : GCodeQueue :=
  q.setItem i { q.items i with next := next }

/-- A new item in front of the free ones, as the constructor makes them. -/
def newItem (q : GCodeQueue) (i : Item) : GCodeQueue :=
  { q.setNext i q.freeItems with freeItems := some i }

def init : GCodeQueue :=
  (List.finRange maxQueuedCodes).foldl newItem ⟨none, none, fun _ => ⟨none, false, [], 0⟩⟩

def findLast (q : GCodeQueue) : ℕ → Item → Item
  | 0, last => last
  | fuel + 1, last =>
    match (q.items last).next with
    | none => last
    | some next => findLast q fuel next

def queueCode (q : GCodeQueue) (gb : GCodeBuffer) (scheduledMoves : UInt32) : Bool × GCodeQueue :=
  match q.freeItems with
  | none => (false, q)
  | some code =>
    let q := { q with freeItems := (q.items code).next }
    let q := q.setItem code
      { (q.items code).assignFrom gb with executeAtMove := scheduledMoves, next := none }
    match q.queuedItems with
    | none => (true, { q with queuedItems := some code })
    | some first => (true, q.setNext (findLast q maxQueuedCodes first) (some code))

def isIdle (q : GCodeQueue) (completedMoves : UInt32) : Bool :=
  match q.queuedItems with
  | none => true
  | some code => (q.items code).executeAtMove > completedMoves

/-- What is put in the buffer, if anything is. -/
def fillBuffer (q : GCodeQueue) (completedMoves : UInt32) : Option GCodeBuffer × GCodeQueue :=
  match q.queuedItems with
  | none => (none, q)
  | some code =>
    if (q.items code).executeAtMove > completedMoves then (none, q)
    else
      let gb := (q.items code).assignTo
      let q := { q with queuedItems := (q.items code).next }
      (some gb, { q.setNext code q.freeItems with freeItems := some code })

def purgeLoop (scheduledMoves : UInt32) :
    ℕ → GCodeQueue → Option Item → Option Item → GCodeQueue
  | 0, q, _, _ => q
  | fuel + 1, q, item, lastItem =>
    match item with
    | none => q
    | some item =>
      if (q.items item).executeAtMove > scheduledMoves then
        let nextItem := (q.items item).next
        let q := { q.setNext item q.freeItems with freeItems := some item }
        let q :=
          match lastItem with
          | none => { q with queuedItems := nextItem }
          | some last => q.setNext last nextItem
        purgeLoop scheduledMoves fuel q nextItem lastItem
      else purgeLoop scheduledMoves fuel q (q.items item).next (some item)

def purgeEntries (q : GCodeQueue) (scheduledMoves : UInt32) : GCodeQueue :=
  purgeLoop scheduledMoves maxQueuedCodes q q.queuedItems none

def clearLoop : ℕ → GCodeQueue → GCodeQueue
  | 0, q => q
  | fuel + 1, q =>
    match q.queuedItems with
    | none => q
    | some item =>
      let q := { q with queuedItems := (q.items item).next }
      clearLoop fuel { q.setNext item q.freeItems with freeItems := some item }

def clear (q : GCodeQueue) : GCodeQueue := clearLoop maxQueuedCodes q

/-! ### The two lists -/

inductive Head
  | freeItems | queuedItems
  deriving DecidableEq

def link (q : GCodeQueue) : Links Head Item
  | .inl .freeItems => q.freeItems
  | .inl .queuedItems => q.queuedItems
  | .inr i => (q.items i).next

/-- The items that follow a head. -/
def listed (q : GCodeQueue) (head : Head) : List Item :=
  (follow q.link (fun _ => true) (maxQueuedCodes + 1) (.inl head)).getD []

/-- The items of the two lists are all that there are. -/
structure Partition (q : GCodeQueue) (free queued : List Item) : Prop where
  freeLinked : Linked q.link (.inl .freeItems) free none
  queuedLinked : Linked q.link (.inl .queuedItems) queued none
  all : (free ++ queued).Perm (List.finRange maxQueuedCodes)

variable {q q' : GCodeQueue} {free queued rest : List Item} {i j : Item} {p : Option Item}

lemma link_setItem (q : GCodeQueue) (i : Item) (code : QueuedCode) :
    (q.setItem i code).link = Function.update q.link (.inr i) code.next := by
  funext place
  rcases place with (_ | _) | j
  · rfl
  · rfl
  · by_cases hj : j = i
    · subst hj
      rw [Function.update_self]
      simp [link, setItem]
    · rw [Function.update_of_ne (fun heq => hj (Sum.inr.inj heq))]
      simp [link, setItem, hj]

lemma link_setNext (q : GCodeQueue) (i : Item) (p : Option Item) :
    (q.setNext i p).link = Function.update q.link (.inr i) p := link_setItem q i _

lemma link_setFree (q : GCodeQueue) (p : Option Item) :
    { q with freeItems := p }.link = Function.update q.link (.inl .freeItems) p := by
  funext place
  rcases place with (_ | _) | j <;> rfl

lemma link_setQueued (q : GCodeQueue) (p : Option Item) :
    { q with queuedItems := p }.link = Function.update q.link (.inl .queuedItems) p := by
  funext place
  rcases place with (_ | _) | j <;> rfl

/-- The items hold the same commands, but for `except`. -/
def SameCommands (q q' : GCodeQueue) (except : Item → Prop) : Prop :=
  ∀ i, ¬ except i → (q'.items i).command = (q.items i).command

lemma SameCommands.trans {q'' : GCodeQueue} {except : Item → Prop} (h : SameCommands q q' except)
    (h' : SameCommands q' q'' except) : SameCommands q q'' except :=
  fun i hi => (h' i hi).trans (h i hi)

lemma sameCommands_setNext (q : GCodeQueue) (i : Item) (p : Option Item) (except : Item → Prop) :
    SameCommands q (q.setNext i p) except := by
  intro j _
  by_cases hj : j = i
  · subst hj
    simp [setNext, setItem, QueuedCode.command, QueuedCode.assignTo]
  · simp [setNext, setItem, hj]

lemma Partition.nodup (h : Partition q free queued) : (free ++ queued).Nodup :=
  h.all.nodup_iff.mpr (List.nodup_finRange _)

lemma endPlace_ne_free (l : List Item) :
    endPlace (.inl Head.queuedItems) l ≠ .inl Head.freeItems := by
  rcases endPlace_cases (.inl Head.queuedItems : Head ⊕ Item) l with ⟨heq, -⟩ | ⟨j, -, heq⟩
  · rw [heq]
    decide
  · rw [heq]
    exact Sum.inr_ne_inl

lemma endPlace_outside {l l' : List Item} (h : l.Disjoint l') :
    Outside (endPlace (.inl Head.queuedItems) l) l' := by
  rcases endPlace_cases (.inl Head.queuedItems : Head ⊕ Item) l with ⟨heq, -⟩ | ⟨j, hj, heq⟩
  · rw [heq]
    exact outside_inl _ _
  · rw [heq]
    exact outside_inr.mpr (h hj)

/-- A queued item becomes the first free one. -/
lemma Partition.release {kept : List Item} (h : Partition q free (kept ++ i :: rest))
    (hlink : q'.link = insertAt
      (removeAt q.link (endPlace (.inl .queuedItems) kept) i) (.inl .freeItems) i) :
    Partition q' (i :: free) (kept ++ rest) := by
  have hnodup := h.nodup
  rw [List.nodup_append'] at hnodup
  obtain ⟨hfree, hqueued, hdisjoint⟩ := hnodup
  have hi : i ∉ free := fun hi => hdisjoint hi (by simp)
  have hrest : i ∉ kept ++ rest := by
    have hmiddle := hqueued
    rw [List.nodup_middle, List.nodup_cons] at hmiddle
    exact hmiddle.1
  have hkept : kept.Disjoint free := fun j hj hj' => hdisjoint hj' (List.mem_append_left _ hj)
  refine ⟨?_, ?_, ?_⟩
  · rw [hlink]
    have hframe : Linked (removeAt q.link (endPlace (.inl .queuedItems) kept) i) (.inl .freeItems)
        ([] ++ free) none :=
      h.freeLinked.removeAt_frame (endPlace_ne_free kept).symm (endPlace_outside hkept)
    exact hframe.insertAt (outside_inl _ _) hfree hi Sum.inl_ne_inr
  · rw [hlink]
    have hremoved := h.queuedLinked.removeAt (outside_inl _ _) hqueued
    exact hremoved.insertAt_frame (by decide) Sum.inl_ne_inr (outside_inl _ _) hrest
  · refine List.Perm.trans ?_ h.all
    rw [List.cons_append, ← List.append_assoc, ← List.append_assoc]
    exact List.perm_middle.symm

/-- The first free item becomes the last queued one. -/
lemma Partition.enqueue (h : Partition q (i :: free) queued)
    (hlink : q'.link = insertAt (removeAt q.link (.inl .freeItems) i)
      (endPlace (.inl .queuedItems) queued) i) :
    Partition q' free (queued ++ [i]) := by
  have hnodup := h.nodup
  rw [List.nodup_append'] at hnodup
  obtain ⟨hfree, hqueued, hdisjoint⟩ := hnodup
  have hi : i ∉ queued := hdisjoint List.mem_cons_self
  have hrest : i ∉ free := (List.nodup_cons.mp hfree).1
  have hqueuedFree : queued.Disjoint free := fun j hj hj' =>
    hdisjoint (List.mem_cons_of_mem i hj') hj
  refine ⟨?_, ?_, ?_⟩
  · rw [hlink]
    have hlinked : Linked q.link (.inl .freeItems) ([] ++ i :: free) none := h.freeLinked
    have hremoved := hlinked.removeAt (outside_inl _ _) hfree
    exact hremoved.insertAt_frame (endPlace_ne_free queued).symm Sum.inl_ne_inr
      (endPlace_outside hqueuedFree) hrest
  · rw [hlink]
    have hframe := h.queuedLinked.removeAt_frame (i := i) (q := .inl .freeItems) (by decide)
      (outside_inl _ _)
    rw [← List.append_nil queued] at hframe hqueued
    have hi : i ∉ queued ++ [] := by rwa [List.append_nil]
    exact hframe.insertAt (outside_inl _ _) hqueued hi Sum.inl_ne_inr
  · refine List.Perm.trans ?_ h.all
    rw [← List.append_assoc, List.cons_append]
    exact List.perm_append_comm

/-! ### The operations -/

lemma init_partition : Partition init (List.finRange maxQueuedCodes).reverse [] := by
  have hlist (l : List Item) (hnodup : l.Nodup) :
      Linked (l.foldl newItem ⟨none, none, fun _ => ⟨none, false, [], 0⟩⟩).link
        (.inl .freeItems) l.reverse none ∧
      (l.foldl newItem ⟨none, none, fun _ => ⟨none, false, [], 0⟩⟩).queuedItems = none := by
    induction l using List.reverseRecOn with
    | nil => exact ⟨rfl, rfl⟩
    | append_singleton l i ih =>
      rw [List.nodup_append'] at hnodup
      obtain ⟨hl, -, hdisjoint⟩ := hnodup
      obtain ⟨hlinked, hnone⟩ := ih hl
      rw [List.foldl_append, List.reverse_append, List.reverse_singleton, List.foldl_cons,
        List.foldl_nil]
      refine ⟨?_, hnone⟩
      rw [newItem, link_setFree, link_setNext]
      have hi : i ∉ l.reverse := fun hi =>
        hdisjoint (List.mem_reverse.mp hi) (List.mem_singleton_self i)
      rw [← List.nil_append l.reverse] at hlinked
      exact hlinked.insertAt (outside_inl _ _) (List.nodup_reverse.mpr hl) hi Sum.inl_ne_inr
  obtain ⟨hfree, hqueued⟩ := hlist _ (List.nodup_finRange maxQueuedCodes)
  refine ⟨hfree, hqueued, ?_⟩
  rw [List.append_nil]
  exact List.reverse_perm _

lemma Partition.length_le (h : Partition q free queued) : queued.length ≤ maxQueuedCodes := by
  have hlength := h.all.length_eq
  rw [List.length_append, List.length_finRange] at hlength
  omega

lemma Partition.listed_queued (h : Partition q free queued) : q.listed .queuedItems = queued := by
  rw [listed, follow_eq h.queuedLinked (Nat.lt_succ_of_le h.length_le),
    List.takeWhile_eq_self_iff.mpr fun _ _ => rfl, Option.getD_some]

lemma Partition.listed_free (h : Partition q free queued) : q.listed .freeItems = free := by
  have hlength := h.all.length_eq
  rw [List.length_append, List.length_finRange] at hlength
  rw [listed, follow_eq h.freeLinked (by omega), List.takeWhile_eq_self_iff.mpr fun _ _ => rfl,
    Option.getD_some]

lemma findLast_eq {l : List Item} (h : Linked q.link (.inr i) l none) {fuel : ℕ}
    (hfuel : l.length ≤ fuel) :
    (.inr (findLast q fuel i) : Head ⊕ Item) = endPlace (.inr i) l := by
  induction l generalizing i fuel with
  | nil =>
    have hnone : (q.items i).next = none := h
    cases fuel with
    | zero => rfl
    | succ fuel =>
      rw [findLast, hnone]
      rfl
  | cons j l ih =>
    obtain ⟨fuel, rfl⟩ := Nat.exists_eq_succ_of_ne_zero (Nat.ne_of_gt
      ((Nat.succ_pos l.length).trans_le hfuel))
    have hnext : (q.items i).next = some j := h.1
    rw [findLast, hnext]
    exact ih h.2 (Nat.le_of_succ_le_succ hfuel)

lemma queueCode_full (h : Partition q [] queued) (gb : GCodeBuffer) (scheduledMoves : UInt32) :
    q.queueCode gb scheduledMoves = (false, q) := by
  have hnone : q.freeItems = none := h.freeLinked
  rw [queueCode, hnone]

lemma queueCode_spec (h : Partition q (i :: free) queued) (gb : GCodeBuffer)
    (scheduledMoves : UInt32) : ∃ q', q.queueCode gb scheduledMoves = (true, q') ∧
      Partition q' free (queued ++ [i]) ∧ SameCommands q q' (· = i) ∧
      (q'.items i).command = ⟨QueuedCode.kept gb, scheduledMoves⟩ := by
  have hfirst : q.freeItems = some i := h.freeLinked.1
  have hnodup := h.nodup
  rw [List.nodup_append'] at hnodup
  have hi : i ∉ queued := hnodup.2.2 List.mem_cons_self
  -- The item is taken from the free ones and is given the command.
  let q₁ : GCodeQueue := { q with freeItems := (q.items i).next }
  let code : QueuedCode :=
    { (q₁.items i).assignFrom gb with executeAtMove := scheduledMoves, next := none }
  let q₂ := q₁.setItem i code
  have hlink₁ : q₁.link = removeAt q.link (.inl .freeItems) i := link_setFree q _
  have hlink₂ : q₂.link = Function.update (removeAt q.link (.inl .freeItems) i) (.inr i) none := by
    rw [← hlink₁]
    exact link_setItem q₁ i code
  have hend : removeAt q.link (.inl .freeItems) i (endPlace (.inl .queuedItems) queued) = none :=
    (Function.update_of_ne (endPlace_ne_free queued) _ _).trans h.queuedLinked.end_eq
  have hsame₂ : SameCommands q q₂ (· = i) := by
    intro j hj
    exact congrArg QueuedCode.command (Function.update_of_ne hj _ _)
  have hcommand₂ : (q₂.items i).command =
      ⟨QueuedCode.kept gb, scheduledMoves⟩ := by
    have hitem : q₂.items i = code := by
      simp only [q₂, setItem, Function.update_self]
    rw [hitem]
    rfl
  have hlinked₂ : Linked q₂.link (.inl .queuedItems) queued none := by
    rw [hlink₂]
    exact (h.queuedLinked.removeAt_frame (by decide) (outside_inl _ _)).frame Sum.inl_ne_inr
      (outside_inr.mpr hi)
  rw [queueCode, hfirst]
  cases queued with
  | nil =>
    have hnone : q₂.queuedItems = none := hlinked₂
    refine ⟨{ q₂ with queuedItems := some i }, ?_, ?_, hsame₂, hcommand₂⟩
    · change (match q₂.queuedItems with
        | none => (true, { q₂ with queuedItems := some i })
        | some first => (true, q₂.setNext (findLast q₂ maxQueuedCodes first) (some i))) = _
      rw [hnone]
    · apply h.enqueue
      rw [link_setQueued, hlink₂, insertAt, hend]
      rfl
  | cons x queued =>
    have hsome : q₂.queuedItems = some x := hlinked₂.1
    refine ⟨q₂.setNext (findLast q₂ maxQueuedCodes x) (some i), ?_, ?_, ?_, ?_⟩
    · change (match q₂.queuedItems with
        | none => (true, { q₂ with queuedItems := some i })
        | some first => (true, q₂.setNext (findLast q₂ maxQueuedCodes first) (some i))) = _
      rw [hsome]
    · apply h.enqueue
      have hlast := findLast_eq hlinked₂.2 (Nat.le_of_succ_le h.length_le)
      rw [link_setNext, hlink₂, insertAt, hend, hlast]
      rfl
    · exact hsame₂.trans (sameCommands_setNext q₂ _ _ _)
    · exact (sameCommands_setNext q₂ _ _ (fun _ => False) i id).trans hcommand₂

lemma fillBuffer_waits (completedMoves : UInt32)
    (h : ∀ i ∈ q.queuedItems, (q.items i).executeAtMove > completedMoves) :
    q.fillBuffer completedMoves = (none, q) := by
  rw [fillBuffer]
  split
  · rfl
  · next code hcode => rw [if_pos (h code hcode)]

lemma fillBuffer_spec (h : Partition q free (i :: queued)) {completedMoves : UInt32}
    (hreached : (q.items i).executeAtMove ≤ completedMoves) :
    ∃ q', q.fillBuffer completedMoves = (some (q.items i).assignTo, q') ∧
      Partition q' (i :: free) queued ∧ SameCommands q q' fun _ => False := by
  have hfirst : q.queuedItems = some i := h.queuedLinked.1
  rw [fillBuffer, hfirst]
  dsimp only
  rw [if_neg (UInt32.not_lt.mpr hreached)]
  refine ⟨_, rfl, ?_, ?_⟩
  · rw [← List.nil_append (i :: queued)] at h
    apply h.release
    rw [link_setFree, link_setNext, link_setQueued]
    rfl
  · exact sameCommands_setNext _ i _ _

lemma linked_head {l : List Item} {place : Head ⊕ Item} (h : Linked q.link place l none) :
    q.link place = l.head? := by
  cases l with
  | nil => exact h
  | cons i l => exact h.1

/-- Writing the link of what is behind the item last is the same as taking it out first. -/
lemma removed_then_inserted {link : Links Head Item} {place : Head ⊕ Item}
    (hfree : place ≠ .inl .freeItems) (hi : place ≠ .inr i) :
    Function.update (insertAt link (.inl .freeItems) i) place (link (.inr i)) =
      insertAt (removeAt link place i) (.inl .freeItems) i := by
  have hhead : removeAt link place i (.inl .freeItems) = link (.inl .freeItems) :=
    Function.update_of_ne hfree.symm _ _
  rw [insertAt, insertAt, hhead, removeAt, Function.update_comm hfree.symm,
    Function.update_comm hi.symm]

/-- The pointer in front of the item at hand is written. -/
def writeBehind (q : GCodeQueue) (lastItem nextItem : Option Item) : GCodeQueue :=
  match lastItem with
  | none => { q with queuedItems := nextItem }
  | some last => q.setNext last nextItem

lemma link_writeBehind (q : GCodeQueue) (kept : List Item) :
    (q.writeBehind kept.getLast? p).link =
      Function.update q.link (endPlace (.inl .queuedItems) kept) p := by
  induction kept using List.reverseRecOn with
  | nil => exact link_setQueued q p
  | append_singleton kept i _ =>
    rw [List.getLast?_concat, endPlace_append]
    exact link_setNext q i p

lemma sameCommands_writeBehind (q : GCodeQueue) (lastItem : Option Item) :
    SameCommands q (q.writeBehind lastItem p) fun _ => False := by
  cases lastItem with
  | none => exact fun _ _ => rfl
  | some last => exact sameCommands_setNext q last p _

lemma SameCommands.executeAtMove (h : SameCommands q q' fun _ => False) (i : Item) :
    (q'.items i).executeAtMove = (q.items i).executeAtMove :=
  congrArg QueuedCode.Command.executeAtMove (h i id)

lemma purgeLoop_spec {scheduledMoves : UInt32} {kept : List Item}
    (h : Partition q free (kept ++ rest)) {fuel : ℕ} (hfuel : rest.length ≤ fuel) :
    ∃ free', Partition (purgeLoop scheduledMoves fuel q rest.head? kept.getLast?) free'
        (kept ++ rest.filter fun i => (q.items i).executeAtMove ≤ scheduledMoves) ∧
      SameCommands q (purgeLoop scheduledMoves fuel q rest.head? kept.getLast?)
        fun _ => False := by
  induction rest generalizing q free kept fuel with
  | nil =>
    have hloop : purgeLoop scheduledMoves fuel q none kept.getLast? = q := by
      cases fuel <;> rfl
    rw [List.head?_nil, hloop]
    exact ⟨free, h, fun _ _ => rfl⟩
  | cons i rest ih =>
    obtain ⟨fuel, rfl⟩ := Nat.exists_eq_succ_of_ne_zero (Nat.ne_of_gt
      ((Nat.succ_pos rest.length).trans_le hfuel))
    have hfuel := Nat.le_of_succ_le_succ hfuel
    have hbehind : Linked q.link (.inr i) rest none := (linked_append.mp h.queuedLinked).2.2
    have hnext : (q.items i).next = rest.head? := linked_head hbehind
    have hi : i ∉ kept := by
      have hnodup := (List.nodup_append'.mp h.nodup).2.1
      rw [List.nodup_middle, List.nodup_cons, List.mem_append, not_or] at hnodup
      exact hnodup.1.1
    rw [List.head?_cons, purgeLoop]
    dsimp only
    by_cases hbeyond : (q.items i).executeAtMove > scheduledMoves
    · rw [if_pos hbeyond, List.filter_cons_of_neg (by simpa using hbeyond)]
      let q₁ : GCodeQueue := { q.setNext i q.freeItems with freeItems := some i }
      let q₂ := q₁.writeBehind kept.getLast? rest.head?
      have hplace : endPlace (.inl .queuedItems) kept ≠ (.inr i : Head ⊕ Item) :=
        endPlace_outside (List.disjoint_singleton.mpr hi) i (List.mem_singleton_self i)
      have hlink : q₂.link = insertAt
          (removeAt q.link (endPlace (.inl .queuedItems) kept) i) (.inl .freeItems) i := by
        rw [link_writeBehind, link_setFree, link_setNext, ← linked_head hbehind]
        exact removed_then_inserted (endPlace_ne_free kept) hplace
      have hsame : SameCommands q q₂ fun _ => False :=
        (sameCommands_setNext q i _ _).trans (sameCommands_writeBehind q₁ _)
      obtain ⟨free', hpartition, hsame'⟩ := ih (h.release hlink) hfuel
      simp only [hsame.executeAtMove] at hpartition
      rw [hnext]
      exact ⟨free', hpartition, hsame.trans hsame'⟩
    · rw [if_neg hbeyond, List.filter_cons_of_pos (by simpa using hbeyond), hnext]
      rw [List.append_cons] at h ⊢
      have hlast := ih h hfuel
      rw [List.getLast?_concat] at hlast
      exact hlast

lemma clearLoop_spec (h : Partition q free queued) {fuel : ℕ} (hfuel : queued.length ≤ fuel) :
    ∃ free', Partition (clearLoop fuel q) free' [] ∧
      SameCommands q (clearLoop fuel q) fun _ => False := by
  induction queued generalizing q free fuel with
  | nil =>
    have hnone : q.queuedItems = none := h.queuedLinked
    refine ⟨free, ?_, ?_⟩
    · cases fuel with
      | zero => exact h
      | succ fuel =>
        rw [clearLoop, hnone]
        exact h
    · intro i _
      cases fuel with
      | zero => rfl
      | succ fuel => rw [clearLoop, hnone]
  | cons i queued ih =>
    obtain ⟨fuel, rfl⟩ := Nat.exists_eq_succ_of_ne_zero (Nat.ne_of_gt
      ((Nat.succ_pos queued.length).trans_le hfuel))
    have hfirst : q.queuedItems = some i := h.queuedLinked.1
    rw [clearLoop, hfirst]
    let q₁ : GCodeQueue := { q with queuedItems := (q.items i).next }
    let q₂ : GCodeQueue := { q₁.setNext i q₁.freeItems with freeItems := some i }
    have hreleased : Partition q₂ (i :: free) queued := by
      rw [← List.nil_append (i :: queued)] at h
      apply h.release
      rw [link_setFree, link_setNext, link_setQueued]
      rfl
    obtain ⟨free', hpartition, hsame⟩ := ih hreleased (Nat.le_of_succ_le_succ hfuel)
    have hsame₂ : SameCommands q q₂ fun _ => False := sameCommands_setNext q₁ i _ _
    exact ⟨free', hpartition, hsame₂.trans hsame⟩

lemma purgeEntries_spec (h : Partition q free queued) (scheduledMoves : UInt32) :
    ∃ free', Partition (q.purgeEntries scheduledMoves) free'
        (queued.filter fun i => (q.items i).executeAtMove ≤ scheduledMoves) ∧
      SameCommands q (q.purgeEntries scheduledMoves) fun _ => False := by
  rw [purgeEntries, show q.queuedItems = queued.head? from linked_head h.queuedLinked]
  rw [← List.nil_append queued] at h
  exact purgeLoop_spec h h.length_le

lemma clear_spec (h : Partition q free queued) :
    ∃ free', Partition q.clear free' [] ∧ SameCommands q q.clear fun _ => False :=
  clearLoop_spec h h.length_le

lemma empty_of_isIdle (h : Partition q free queued) {completedMoves : UInt32}
    (hidle : q.isIdle completedMoves = true)
    (hreached : ∀ i ∈ queued, (q.items i).executeAtMove ≤ completedMoves) : queued = [] := by
  cases queued with
  | nil => rfl
  | cons i queued =>
    have hfirst : q.queuedItems = some i := h.queuedLinked.1
    rw [isIdle, hfirst] at hidle
    exact absurd (of_decide_eq_true hidle) (UInt32.not_lt.mpr (hreached i List.mem_cons_self))

end GCodeQueue

end RepRapFirmware.GCodes.GCodeQueues
