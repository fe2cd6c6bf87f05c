import RepRapFirmware.Library.Ring

/-! A ring buffer with one producer and one consumer, each of which may run between any two steps of
the other. -/

namespace RepRapFirmware.RRFLibraries.RingBuffers

open RepRapFirmware.Library.Ring

/-- `count` items that are copied between the slots from `slot` on and the caller's buffer from
`offset` on. -/
structure Memcpy where
  slot : UInt32
  offset : UInt32
  count : UInt32

/-- What a block operation does after it has captured the indices. -/
structure Transfer where
  toCopy : UInt32
  memcpys : List Memcpy
  newIndex : UInt32

def putItem (capacity getIndex putIndex : UInt32) : Option Transfer :=
  let newPutIndex := (putIndex + 1) &&& capacity
  if newPutIndex ≠ getIndex then some ⟨1, [⟨putIndex, 0, 1⟩], newPutIndex⟩ else none

def getItem (capacity getIndex putIndex : UInt32) : Option Transfer :=
  if getIndex ≠ putIndex then some ⟨1, [⟨getIndex, 0, 1⟩], (getIndex + 1) &&& capacity⟩ else none

def spaceLeft (capacity getIndex putIndex : UInt32) : UInt32 :=
  (getIndex + capacity - putIndex) &&& capacity

def itemsPresent (capacity getIndex putIndex : UInt32) : UInt32 :=
    (putIndex - getIndex) &&& capacity

def putBlock (capacity getIndex putIndex buflen : UInt32) : Option Transfer :=
  let room := spaceLeft capacity getIndex putIndex
  let toCopy := if buflen < room then buflen else room
  if toCopy ≠ 0 then
    if getIndex ≤ putIndex then
      let toCopyFirst := capacity + 1 - putIndex
      if toCopy < toCopyFirst then some ⟨toCopy, [⟨putIndex, 0, toCopy⟩], putIndex + toCopy⟩
      else
        let toCopyNext := toCopy - toCopyFirst
        some ⟨toCopy, [⟨putIndex, 0, toCopyFirst⟩, ⟨0, toCopyFirst, toCopyNext⟩], 0 + toCopyNext⟩
    else some ⟨toCopy, [⟨putIndex, 0, toCopy⟩], putIndex + toCopy⟩
  else none

def getBlock (capacity getIndex putIndex buflen : UInt32) : Option Transfer :=
  let held := itemsPresent capacity getIndex putIndex
  let toCopy := if buflen < held then buflen else held
  if toCopy ≠ 0 then
    if getIndex > putIndex then
      let toCopyFirst := capacity + 1 - getIndex
      if toCopy < toCopyFirst then some ⟨toCopy, [⟨getIndex, 0, toCopy⟩], getIndex + toCopy⟩
      else
        let toCopyNext := toCopy - toCopyFirst
        some ⟨toCopy, [⟨getIndex, 0, toCopyFirst⟩, ⟨0, toCopyFirst, toCopyNext⟩], 0 + toCopyNext⟩
    else some ⟨toCopy, [⟨getIndex, 0, toCopy⟩], getIndex + toCopy⟩
  else none

/-- The single items of a copy: a slot, and the place in the caller's buffer. -/
def Memcpy.copies (c : Memcpy) : List (ℕ × ℕ) :=
  (List.range c.count.toNat).map fun i => (c.slot.toNat + i, c.offset.toNat + i)

/-- A caller's buffer, with as many items as a `size_t` can count. -/
structure Block (α : Type*) where
  items : List α
  hlen : items.length < 2 ^ 32

def Block.buflen {α : Type*} (b : Block α) : UInt32 := UInt32.ofNat b.items.length

/-- An operation that has captured the indices and not yet published its own. -/
structure Call (α : Type*) where
  buffer : List α
  toCopy : UInt32
  copies : List (ℕ × ℕ)
  newIndex : UInt32

def Call.start {α : Type*} (buffer : List α) (t : Transfer) : Call α :=
  ⟨buffer, t.toCopy, t.memcpys.flatMap Memcpy.copies, t.newIndex⟩

structure RingBuffer (α : Type*) where
  capacity : UInt32
  putIndex : UInt32
  getIndex : UInt32
  data : ℕ → α
  /-- The number of slots that `data` has. -/
  allocated : ℕ

/-- The buffer with the operations that are going on, the items that were reported as stored and the
items that were delivered. -/
structure State (α : Type*) where
  ring : RingBuffer α
  putting : Option (Call α)
  getting : Option (Call α)
  stored : List α
  delivered : List α

/-- The start of an operation, one step of it, or its end. -/
inductive Event (α : Type*)
  | putItem (val : α)
  | putBlock (buffer : Block α)
  | putNext
  | getItem (val : α)
  | getBlock (buffer : Block α)
  | getNext

section Model

variable {α : Type*}

/-- `Init` -/
def init (numSlots : UInt32) (data : ℕ → α) : State α where
  ring :=
    { capacity := if 1 < numSlots then numSlots - 1 else 0
      putIndex := 0
      getIndex := 0
      data := data
      allocated := if 1 < numSlots then numSlots.toNat else 0 }
  putting := none
  getting := none
  stored := []
  delivered := []

namespace State

def startPut (s : State α) (buffer : List α) (t : Option Transfer) : State α :=
  if s.putting.isSome then s else { s with putting := t.map (Call.start buffer) }

def startGet (s : State α) (buffer : List α) (t : Option Transfer) : State α :=
  if s.getting.isSome then s else { s with getting := t.map (Call.start buffer) }

/-- Copies an item into the ring, or publishes the new index. There is no result if a slot is
outside
the ring or a place outside the caller's buffer. -/
def putNext (s : State α) : Option (State α) :=
  match s.putting with
  | none => some s
  | some c =>
    match c.copies with
    | [] =>
      some { s with
        ring := { s.ring with putIndex := c.newIndex }
        putting := none
        stored := s.stored ++ c.buffer.take c.toCopy.toNat }
    | (slot, offset) :: copies =>
      if slot < s.ring.allocated then
        c.buffer[offset]?.map fun item =>
          { s with
            ring := { s.ring with data := Function.update s.ring.data slot item }
            putting := some { c with copies := copies } }
      else none

def getNext (s : State α) : Option (State α) :=
  match s.getting with
  | none => some s
  | some c =>
    match c.copies with
    | [] =>
      some { s with
        ring := { s.ring with getIndex := c.newIndex }
        getting := none
        delivered := s.delivered ++ c.buffer.take c.toCopy.toNat }
    | (slot, offset) :: copies =>
      if slot < s.ring.allocated ∧ offset < c.buffer.length then
        some { s with
          getting := some { c with buffer := c.buffer.set offset (s.ring.data slot), copies :=
            copies } }
      else none

end State

def step (s : State α) : Event α → Option (State α)
  | .putItem val => some (s.startPut [val] (putItem s.ring.capacity s.ring.getIndex
      s.ring.putIndex))
  | .putBlock b =>
    some (s.startPut b.items (putBlock s.ring.capacity s.ring.getIndex s.ring.putIndex b.buflen))
  | .putNext => s.putNext
  | .getItem val => some (s.startGet [val] (getItem s.ring.capacity s.ring.getIndex
      s.ring.putIndex))
  | .getBlock b =>
    some (s.startGet b.items (getBlock s.ring.capacity s.ring.getIndex s.ring.putIndex b.buflen))
  | .getNext => s.getNext

def RingBuffer.items (r : RingBuffer α) : List α :=
  contents (r.capacity.toNat + 1) r.data r.getIndex.toNat
    (itemsPresent r.capacity r.getIndex r.putIndex).toNat

/-! ### The bounded queue -/

/-- A queue whose operations decide at their start how many items they move, and move them at their
end. Each has a number of steps to go. -/
structure Fifo (α : Type*) where
  capacity : ℕ
  queue : List α
  putting : Option (ℕ × List α)
  getting : Option (ℕ × ℕ)
  stored : List α
  delivered : List α

namespace Fifo

def empty (capacity : ℕ) : Fifo α := ⟨capacity, [], none, none, [], []⟩

def put (q : Fifo α) (offered : List α) : Fifo α :=
  let n := min offered.length (q.capacity - q.queue.length)
  if q.putting.isSome then q
  else { q with putting := if n = 0 then none else some (n, offered.take n) }

def get (q : Fifo α) (asked : ℕ) : Fifo α :=
  let n := min asked q.queue.length
  if q.getting.isSome then q
  else { q with getting := if n = 0 then none else some (n, n) }

def step (q : Fifo α) : Event α → Fifo α
  | .putItem val => q.put [val]
  | .putBlock b => q.put b.items
  | .putNext =>
    match q.putting with
    | none => q
    | some (0, items) =>
      { q with queue := q.queue ++ items, putting := none, stored := q.stored ++ items }
    | some (left + 1, items) => { q with putting := some (left, items) }
  | .getItem _ => q.get 1
  | .getBlock b => q.get b.items.length
  | .getNext =>
    match q.getting with
    | none => q
    | some (0, n) =>
      { q with queue := q.queue.drop n, getting := none, delivered :=
        q.delivered ++ q.queue.take n }
    | some (left + 1, n) => { q with getting := some (left, n) }

end Fifo

def State.toFifo (s : State α) : Fifo α where
  capacity := s.ring.capacity.toNat
  queue := s.ring.items
  putting := s.putting.map fun c => (c.copies.length, c.buffer.take c.toCopy.toNat)
  getting := s.getting.map fun c => (c.copies.length, c.toCopy.toNat)
  stored := s.stored
  delivered := s.delivered

end Model

/-! ### The arithmetic of the indices -/

/-- A capacity of one less than a power of two, and indices of slots. -/
structure Indices (capacity getIndex putIndex : UInt32) : Prop where
  power : ∃ k, capacity.toNat + 1 = 2 ^ k ∧ k < 32
  get_le : getIndex.toNat ≤ capacity.toNat
  put_le : putIndex.toNat ≤ capacity.toNat

section Indices

variable {capacity getIndex putIndex buflen : UInt32} {t : Transfer}

lemma Indices.small (h : Indices capacity getIndex putIndex) : capacity.toNat < 2 ^ 31 := by
  obtain ⟨k, hk, hlt⟩ := h.power
  have hle : 2 ^ k ≤ 2 ^ 31 := Nat.pow_le_pow_right Nat.two_pos (Nat.le_of_lt_succ hlt)
  omega

lemma Indices.and_capacity (h : Indices capacity getIndex putIndex) (x : UInt32) :
    (x &&& capacity).toNat = x.toNat % (capacity.toNat + 1) := by
  obtain ⟨k, hk, -⟩ := h.power
  have hcap : capacity.toNat = 2 ^ k - 1 := by omega
  rw [UInt32.toNat_and, hk, hcap, Nat.and_two_pow_sub_one_eq_mod]

lemma Indices.held (h : Indices capacity getIndex putIndex) :
    (itemsPresent capacity getIndex putIndex).toNat =
      if getIndex.toNat ≤ putIndex.toNat then putIndex.toNat - getIndex.toNat
      else putIndex.toNat + (capacity.toNat + 1) - getIndex.toNat := by
  have hget := h.get_le
  have hput := h.put_le
  have hsmall := h.small
  rw [itemsPresent, h.and_capacity]
  split
  · next hle =>
    rw [UInt32.toNat_sub_of_le _ _ (UInt32.le_iff_toNat_le.mpr hle), Nat.mod_eq_of_lt (by omega)]
  · next hlt =>
    obtain ⟨k, hk, hlt'⟩ := h.power
    obtain ⟨m, hm⟩ : capacity.toNat + 1 ∣ 2 ^ 32 := by
      rw [hk]
      exact Nat.pow_dvd_pow 2 (Nat.le_of_lt hlt')
    have hpos : m ≠ 0 := by
      rintro rfl
      simp at hm
    obtain ⟨m, rfl⟩ := Nat.exists_eq_succ_of_ne_zero hpos
    have hsub : (putIndex - getIndex).toNat =
        (capacity.toNat + 1) * m + (putIndex.toNat + (capacity.toNat + 1) - getIndex.toNat) := by
      rw [UInt32.toNat_sub, hm, Nat.mod_eq_of_lt] <;> rw [Nat.mul_succ] at * <;> omega
    rw [hsub, Nat.mul_add_mod, Nat.mod_eq_of_lt (by omega)]

lemma Indices.held_le (h : Indices capacity getIndex putIndex) :
    (itemsPresent capacity getIndex putIndex).toNat ≤ capacity.toNat := by
  have hget := h.get_le
  have hput := h.put_le
  rw [h.held]
  split <;> omega

lemma Indices.room (h : Indices capacity getIndex putIndex) :
    (spaceLeft capacity getIndex putIndex).toNat =
      capacity.toNat - (itemsPresent capacity getIndex putIndex).toNat := by
  have hget := h.get_le
  have hput := h.put_le
  have hsmall := h.small
  have hsum : (getIndex + capacity).toNat = getIndex.toNat + capacity.toNat := by
    rw [UInt32.toNat_add, Nat.mod_eq_of_lt (by omega)]
  have hdiff : (getIndex + capacity - putIndex).toNat =
      getIndex.toNat + capacity.toNat - putIndex.toNat := by
    rw [UInt32.toNat_sub_of_le, hsum]
    rw [UInt32.le_iff_toNat_le, hsum]
    omega
  rw [spaceLeft, h.and_capacity, hdiff, h.held]
  split
  · next hle =>
    rw [Nat.mod_eq_of_lt (by omega)]
    omega
  · next hlt =>
    rw [Nat.mod_eq_sub_mod (by omega), Nat.mod_eq_of_lt (by omega)]
    omega

/-- The slots before an index and the one before the other index are the same. -/
lemma Indices.putIndex_eq (h : Indices capacity getIndex putIndex) :
    putIndex.toNat = (getIndex.toNat + (itemsPresent capacity getIndex putIndex).toNat) %
      (capacity.toNat + 1) := by
  have hget := h.get_le
  have hput := h.put_le
  rw [h.held]
  split
  · rw [Nat.mod_eq_of_lt (by omega)]
    omega
  · rw [Nat.mod_eq_sub_mod (by omega), Nat.mod_eq_of_lt (by omega)]
    omega

/-! ### What the operations decide -/

/-- The transfer moves `n` items at the slots from `i` on, around the ring. -/
structure Moves (N i n : ℕ) (t : Transfer) : Prop where
  count : t.toCopy.toNat = n
  copies : t.memcpys.flatMap Memcpy.copies = (List.range n).map fun j => ((i + j) % N, j)
  newIndex : t.newIndex.toNat = (i + n) % N

variable {i toCopy : UInt32}

lemma moves_straight (hcap : capacity.toNat < 2 ^ 31)
    (h : i.toNat + toCopy.toNat ≤ capacity.toNat) :
    Moves (capacity.toNat + 1) i.toNat toCopy.toNat ⟨toCopy, [⟨i, 0, toCopy⟩], i + toCopy⟩ := by
  refine ⟨rfl, ?_, ?_⟩
  · rw [List.flatMap_singleton, Memcpy.copies]
    apply List.map_congr_left
    intro j hj
    have hj' : j < toCopy.toNat := List.mem_range.mp hj
    rw [Nat.mod_eq_of_lt (by omega), UInt32.toNat_zero, Nat.zero_add]
  · rw [UInt32.toNat_add, Nat.mod_eq_of_lt (by omega), Nat.mod_eq_of_lt (by omega)]

lemma toNat_first (hcap : capacity.toNat < 2 ^ 31) (hi : i.toNat ≤ capacity.toNat) :
    (capacity + 1 - i).toNat = capacity.toNat + 1 - i.toNat := by
  have hslots : (capacity + 1).toNat = capacity.toNat + 1 := by
    rw [UInt32.toNat_add, UInt32.toNat_one, Nat.mod_eq_of_lt (by omega)]
  rw [UInt32.toNat_sub_of_le, hslots]
  rw [UInt32.le_iff_toNat_le, hslots]
  omega

lemma moves_wrapped (hcap : capacity.toNat < 2 ^ 31) (hi : i.toNat ≤ capacity.toNat)
    (hle : toCopy.toNat ≤ capacity.toNat) (h : ¬ toCopy < capacity + 1 - i) :
    Moves (capacity.toNat + 1) i.toNat toCopy.toNat
      ⟨toCopy, [⟨i, 0, capacity + 1 - i⟩, ⟨0, capacity + 1 - i, toCopy - (capacity + 1 - i)⟩],
        0 + (toCopy - (capacity + 1 - i))⟩ := by
  have hfirst := toNat_first hcap hi
  rw [UInt32.lt_iff_toNat_lt, hfirst, not_lt] at h
  have hnext : (toCopy - (capacity + 1 - i)).toNat =
      toCopy.toNat - (capacity.toNat + 1 - i.toNat) := by
    rw [UInt32.toNat_sub_of_le, hfirst]
    rw [UInt32.le_iff_toNat_le, hfirst]
    exact h
  refine ⟨rfl, ?_, ?_⟩
  · have hsplit : toCopy.toNat = (capacity.toNat + 1 - i.toNat) +
        (toCopy.toNat - (capacity.toNat + 1 - i.toNat)) := by omega
    simp only [List.flatMap_cons, List.flatMap_nil, List.append_nil, Memcpy.copies, hfirst, hnext]
    conv_rhs => rw [hsplit, List.range_add, List.map_append, List.map_map]
    congr 1
    · apply List.map_congr_left
      intro j hj
      have hj' : j < capacity.toNat + 1 - i.toNat := List.mem_range.mp hj
      rw [Nat.mod_eq_of_lt (by omega), UInt32.toNat_zero, Nat.zero_add]
    · apply List.map_congr_left
      intro j hj
      have hj' := List.mem_range.mp hj
      have hround : i.toNat + (capacity.toNat + 1 - i.toNat + j) = j + (capacity.toNat + 1) := by
        omega
      rw [Function.comp_apply, hround, Nat.add_mod_right, Nat.mod_eq_of_lt (by omega),
        UInt32.toNat_zero, Nat.zero_add]
  · rw [UInt32.zero_add, hnext, Nat.mod_eq_sub_mod (by omega), Nat.mod_eq_of_lt (by omega)]
    omega

/-- What an operation decides that may move up to `n` items. -/
def Decides (N i n : ℕ) (r : Option Transfer) : Prop :=
  (n = 0 ∧ r = none) ∨ (0 < n ∧ ∃ t, r = some t ∧ Moves N i n t)

lemma toNat_min (a b : UInt32) : (if a < b then a else b).toNat = min a.toNat b.toNat := by
  split
  · next h =>
    rw [UInt32.lt_iff_toNat_lt] at h
    omega
  · next h =>
    rw [UInt32.lt_iff_toNat_lt] at h
    omega

lemma putBlock_decides (h : Indices capacity getIndex putIndex) (buflen : UInt32) :
    Decides (capacity.toNat + 1) putIndex.toNat
      (min buflen.toNat (capacity.toNat - (itemsPresent capacity getIndex putIndex).toNat))
      (putBlock capacity getIndex putIndex buflen) := by
  have hput := h.put_le
  have hget := h.get_le
  have hheld := h.held
  have hroom := h.room
  rw [← hroom, ← toNat_min, putBlock]
  simp only
  have hle : (if buflen < spaceLeft capacity getIndex putIndex then buflen
      else spaceLeft capacity getIndex putIndex).toNat ≤
        (spaceLeft capacity getIndex putIndex).toNat := by
    rw [toNat_min]
    exact min_le_right _ _
  generalize (if buflen < spaceLeft capacity getIndex putIndex then buflen
    else spaceLeft capacity getIndex putIndex) = toCopy at hle
  by_cases hzero : toCopy = 0
  · refine .inl ⟨by rw [hzero]; rfl, ?_⟩
    rw [if_neg (not_not.mpr hzero)]
  · refine .inr ⟨Nat.pos_of_ne_zero fun h0 => hzero (UInt32.toNat_inj.mp h0), ?_⟩
    rw [if_pos hzero]
    by_cases hwrap : getIndex ≤ putIndex
    · rw [if_pos hwrap]
      rw [UInt32.le_iff_toNat_le] at hwrap
      rw [if_pos hwrap] at hheld
      by_cases hfirst : toCopy < capacity + 1 - putIndex
      · rw [if_pos hfirst]
        refine ⟨_, rfl, moves_straight h.small ?_⟩
        rw [UInt32.lt_iff_toNat_lt, toNat_first h.small hput] at hfirst
        omega
      · rw [if_neg hfirst]
        exact ⟨_, rfl, moves_wrapped h.small hput (by omega) hfirst⟩
    · rw [if_neg hwrap]
      rw [UInt32.le_iff_toNat_le] at hwrap
      rw [if_neg hwrap] at hheld
      exact ⟨_, rfl, moves_straight h.small (by omega)⟩

lemma getBlock_decides (h : Indices capacity getIndex putIndex) (buflen : UInt32) :
    Decides (capacity.toNat + 1) getIndex.toNat
      (min buflen.toNat (itemsPresent capacity getIndex putIndex).toNat)
      (getBlock capacity getIndex putIndex buflen) := by
  have hput := h.put_le
  have hget := h.get_le
  have hheld := h.held
  have hheldLe := h.held_le
  rw [← toNat_min, getBlock]
  simp only
  have hle : (if buflen < itemsPresent capacity getIndex putIndex then buflen
      else itemsPresent capacity getIndex putIndex).toNat ≤
        (itemsPresent capacity getIndex putIndex).toNat := by
    rw [toNat_min]
    exact min_le_right _ _
  generalize (if buflen < itemsPresent capacity getIndex putIndex then buflen
    else itemsPresent capacity getIndex putIndex) = toCopy at hle
  by_cases hzero : toCopy = 0
  · refine .inl ⟨by rw [hzero]; rfl, ?_⟩
    rw [if_neg (not_not.mpr hzero)]
  · refine .inr ⟨Nat.pos_of_ne_zero fun h0 => hzero (UInt32.toNat_inj.mp h0), ?_⟩
    rw [if_pos hzero]
    by_cases hwrap : getIndex > putIndex
    · rw [if_pos hwrap]
      by_cases hfirst : toCopy < capacity + 1 - getIndex
      · rw [if_pos hfirst]
        refine ⟨_, rfl, moves_straight h.small ?_⟩
        rw [UInt32.lt_iff_toNat_lt, toNat_first h.small hget] at hfirst
        omega
      · rw [if_neg hfirst]
        exact ⟨_, rfl, moves_wrapped h.small hget (by omega) hfirst⟩
    · rw [if_neg hwrap]
      rw [gt_iff_lt, UInt32.lt_iff_toNat_lt, not_lt] at hwrap
      rw [if_pos hwrap] at hheld
      exact ⟨_, rfl, moves_straight h.small (by omega)⟩

lemma moves_one (h : Indices capacity getIndex putIndex) (hi : i.toNat ≤ capacity.toNat) :
    Moves (capacity.toNat + 1) i.toNat 1 ⟨1, [⟨i, 0, 1⟩], (i + 1) &&& capacity⟩ := by
  have hsmall := h.small
  refine ⟨rfl, ?_, ?_⟩
  · simp [Memcpy.copies, Nat.mod_eq_of_lt (Nat.lt_succ_of_le hi)]
  · have hlt : i.toNat + 1 < 2 ^ 32 := by omega
    rw [h.and_capacity, UInt32.toNat_add, UInt32.toNat_one, Nat.mod_eq_of_lt hlt]

lemma putItem_decides (h : Indices capacity getIndex putIndex) :
    Decides (capacity.toNat + 1) putIndex.toNat
      (min 1 (capacity.toNat - (itemsPresent capacity getIndex putIndex).toNat))
      (putItem capacity getIndex putIndex) := by
  have hput := h.put_le
  have hget := h.get_le
  have hheld := h.held
  have hheldLe := h.held_le
  have hmove := moves_one h hput
  have hnext := hmove.newIndex
  simp only at hnext
  have hfull : (putIndex + 1) &&& capacity = getIndex ↔
      (itemsPresent capacity getIndex putIndex).toNat = capacity.toNat := by
    rw [← UInt32.toNat_inj, hnext, hheld]
    rcases Nat.lt_or_ge putIndex.toNat capacity.toNat with hlt | hge
    · rw [Nat.mod_eq_of_lt (by omega)]
      split <;> omega
    · have hlast : putIndex.toNat + 1 = capacity.toNat + 1 := by omega
      rw [hlast, Nat.mod_self]
      split <;> omega
  rw [putItem]
  by_cases hcase : (putIndex + 1) &&& capacity = getIndex
  · refine .inl ⟨?_, if_neg (not_not.mpr hcase)⟩
    rw [hfull.mp hcase, Nat.sub_self, Nat.min_zero]
  · have hroom : min 1 (capacity.toNat - (itemsPresent capacity getIndex putIndex).toNat) = 1 := by
      have hne := mt hfull.mpr hcase
      omega
    rw [hroom]
    exact .inr ⟨Nat.one_pos, _, if_pos hcase, hmove⟩

lemma getItem_decides (h : Indices capacity getIndex putIndex) :
    Decides (capacity.toNat + 1) getIndex.toNat
      (min 1 (itemsPresent capacity getIndex putIndex).toNat)
      (getItem capacity getIndex putIndex) := by
  have hput := h.put_le
  have hget := h.get_le
  have hheld := h.held
  have hempty : getIndex = putIndex ↔ (itemsPresent capacity getIndex putIndex).toNat = 0 := by
    rw [← UInt32.toNat_inj, hheld]
    split <;> omega
  rw [getItem]
  by_cases hcase : getIndex = putIndex
  · refine .inl ⟨?_, if_neg (not_not.mpr hcase)⟩
    rw [hempty.mp hcase, Nat.min_zero]
  · have hone : min 1 (itemsPresent capacity getIndex putIndex).toNat = 1 := by
      have hne := mt hempty.mpr hcase
      omega
    rw [hone]
    exact .inr ⟨Nat.one_pos, _, if_pos hcase, moves_one h hget⟩

/-- The index of the other side tells how many items there are. -/
lemma Indices.held_eq {m : ℕ} (h : Indices capacity getIndex putIndex) (hm : m ≤ capacity.toNat)
    (hput : putIndex.toNat = (getIndex.toNat + m) % (capacity.toNat + 1)) :
    (itemsPresent capacity getIndex putIndex).toNat = m := by
  have heq := h.putIndex_eq.symm.trans hput
  have hle := h.held_le
  rcases Nat.lt_trichotomy (itemsPresent capacity getIndex putIndex).toNat m with hlt | rfl | hgt
  · exact absurd heq (place_ne hlt (by omega))
  · rfl
  · exact absurd heq.symm (place_ne hgt (by omega))

end Indices

/-! ### The two sides -/

section Refinement

variable {α : Type*} {s s' : State α} {c : Call α}

namespace RingBuffer

/-- The number of slots. -/
abbrev slots (r : RingBuffer α) : ℕ := r.capacity.toNat + 1

/-- The number of items between the indices. -/
abbrev held (r : RingBuffer α) : ℕ := (itemsPresent r.capacity r.getIndex r.putIndex).toNat

/-- The producer has copied its first `d` items, to the slots behind the ones in use. -/
structure Putting (r : RingBuffer α) (c : Call α) (d left : ℕ) : Prop where
  count : d + left = c.toCopy.toNat
  fits : c.toCopy.toNat + r.held ≤ r.capacity.toNat
  inside : c.toCopy.toNat ≤ c.buffer.length
  copies : c.copies = (List.range' d left).map fun j => ((r.putIndex.toNat + j) % r.slots, j)
  newIndex : c.newIndex.toNat = (r.putIndex.toNat + c.toCopy.toNat) % r.slots
  copied : contents r.slots r.data r.putIndex.toNat d = c.buffer.take d

/-- The consumer has copied the first `d` items. -/
structure Getting (r : RingBuffer α) (c : Call α) (d left : ℕ) : Prop where
  count : d + left = c.toCopy.toNat
  fits : c.toCopy.toNat ≤ r.held
  inside : c.toCopy.toNat ≤ c.buffer.length
  copies : c.copies = (List.range' d left).map fun j => ((r.getIndex.toNat + j) % r.slots, j)
  newIndex : c.newIndex.toNat = (r.getIndex.toNat + c.toCopy.toNat) % r.slots
  copied : c.buffer.take d = contents r.slots r.data r.getIndex.toNat d

end RingBuffer

structure Inv (s : State α) : Prop where
  indices : Indices s.ring.capacity s.ring.getIndex s.ring.putIndex
  allocated : 0 < s.ring.capacity.toNat → s.ring.allocated = s.ring.slots
  putting : ∀ c, s.putting = some c → ∃ d left, s.ring.Putting c d left
  getting : ∀ c, s.getting = some c → ∃ d left, s.ring.Getting c d left
  stored : s.stored = s.delivered ++ s.ring.items

lemma length_items (r : RingBuffer α) : r.items.length = r.held := contents_length _ _ _

lemma startPut_spec (h : Inv s) {offered : List α} {t : Option Transfer}
    (ht : Decides s.ring.slots s.ring.putIndex.toNat
      (min offered.length (s.ring.capacity.toNat - s.ring.held)) t) :
    Inv (s.startPut offered t) ∧ (s.startPut offered t).toFifo = s.toFifo.put offered := by
  have hqueue : s.toFifo.queue.length = s.ring.held := length_items s.ring
  have hbusy : s.toFifo.putting.isSome = s.putting.isSome := Option.isSome_map
  rw [State.startPut, Fifo.put, hqueue, hbusy]
  by_cases hsome : s.putting.isSome = true
  · rw [if_pos hsome, if_pos hsome]
    exact ⟨h, rfl⟩
  · rw [if_neg hsome, if_neg hsome]
    obtain ⟨hzero, rfl⟩ | ⟨hpos, t, rfl, hmoves⟩ := ht
    · have hzero' : min offered.length (s.toFifo.capacity - s.ring.held) = 0 := hzero
      rw [if_pos hzero']
      exact ⟨⟨h.indices, h.allocated, fun c hc => (nomatch hc), h.getting, h.stored⟩, rfl⟩
    · have hpos' : min offered.length (s.toFifo.capacity - s.ring.held) ≠ 0 := hpos.ne'
      have hcount := hmoves.count
      rw [if_neg hpos']
      refine ⟨⟨h.indices, h.allocated, ?_, h.getting, h.stored⟩, ?_⟩
      · rintro c ⟨⟩
        refine ⟨0, t.toCopy.toNat, Nat.zero_add _, ?_, ?_, ?_, ?_, rfl⟩
        · change t.toCopy.toNat + s.ring.held ≤ s.ring.capacity.toNat
          omega
        · change t.toCopy.toNat ≤ offered.length
          omega
        · change t.memcpys.flatMap Memcpy.copies = _
          rw [hmoves.copies, hcount, List.range_eq_range']
        · change t.newIndex.toNat = (s.ring.putIndex.toNat + t.toCopy.toNat) % s.ring.slots
          rw [hmoves.newIndex, hcount]
      · have hlength : (Call.start offered t).copies.length =
            min offered.length (s.toFifo.capacity - s.ring.held) := by
          change (t.memcpys.flatMap Memcpy.copies).length = _
          rw [hmoves.copies, List.length_map, List.length_range]
          rfl
        simp only [State.toFifo, Option.map_some, hlength]
        congr 3
        change offered.take t.toCopy.toNat = _
        rw [hcount]

lemma startGet_spec (h : Inv s) {buffer : List α} {t : Option Transfer}
    (ht : Decides s.ring.slots s.ring.getIndex.toNat (min buffer.length s.ring.held) t) :
    Inv (s.startGet buffer t) ∧ (s.startGet buffer t).toFifo = s.toFifo.get buffer.length := by
  have hqueue : s.toFifo.queue.length = s.ring.held := length_items s.ring
  have hbusy : s.toFifo.getting.isSome = s.getting.isSome := Option.isSome_map
  rw [State.startGet, Fifo.get, hqueue, hbusy]
  by_cases hsome : s.getting.isSome = true
  · rw [if_pos hsome, if_pos hsome]
    exact ⟨h, rfl⟩
  · rw [if_neg hsome, if_neg hsome]
    obtain ⟨hzero, rfl⟩ | ⟨hpos, t, rfl, hmoves⟩ := ht
    · rw [if_pos hzero]
      exact ⟨⟨h.indices, h.allocated, h.putting, fun c hc => (nomatch hc), h.stored⟩, rfl⟩
    · have hcount := hmoves.count
      rw [if_neg hpos.ne']
      refine ⟨⟨h.indices, h.allocated, h.putting, ?_, h.stored⟩, ?_⟩
      · rintro c ⟨⟩
        refine ⟨0, t.toCopy.toNat, Nat.zero_add _, ?_, ?_, ?_, ?_, rfl⟩
        · change t.toCopy.toNat ≤ s.ring.held
          omega
        · change t.toCopy.toNat ≤ buffer.length
          omega
        · change t.memcpys.flatMap Memcpy.copies = _
          rw [hmoves.copies, hcount, List.range_eq_range']
        · change t.newIndex.toNat = (s.ring.getIndex.toNat + t.toCopy.toNat) % s.ring.slots
          rw [hmoves.newIndex, hcount]
      · have hlength : (Call.start buffer t).copies.length = min buffer.length s.ring.held := by
          change (t.memcpys.flatMap Memcpy.copies).length = _
          rw [hmoves.copies, List.length_map, List.length_range]
        simp only [State.toFifo, Option.map_some, hlength]
        congr 3

/-- The slot that is written is behind the items, so that they stay. -/
lemma contents_written {r : RingBuffer α} (h : Indices r.capacity r.getIndex r.putIndex) {d m : ℕ}
    (hd : d + r.held < r.slots) (hm : m ≤ r.held) (item : α) :
    contents r.slots (Function.update r.data ((r.putIndex.toNat + d) % r.slots) item)
      r.getIndex.toNat m = contents r.slots r.data r.getIndex.toNat m := by
  apply contents_congr
  intro i hi
  have hslot : (r.putIndex.toNat + d) % r.slots =
      (r.getIndex.toNat + (r.held + d)) % r.slots := by
    rw [h.putIndex_eq, Nat.mod_add_mod, Nat.add_assoc]
  rw [Function.update_of_ne]
  rw [hslot]
  exact place_ne (by omega) (by omega)

lemma take_succ_of_getElem? {l : List α} {d : ℕ} {item : α} (h : l[d]? = some item) :
    l.take (d + 1) = l.take d ++ [item] := by
  rw [List.take_add_one, h]
  rfl

lemma putNext_spec (h : Inv s) : ∃ s', s.putNext = some s' ∧ Inv s' ∧
    s'.toFifo = s.toFifo.step .putNext := by
  rw [State.putNext, Fifo.step]
  cases hputting : s.putting with
  | none =>
    refine ⟨s, rfl, h, ?_⟩
    have hidle : s.toFifo.putting = none := by rw [State.toFifo, hputting]; rfl
    rw [hidle]
  | some c =>
    obtain ⟨d, left, hp⟩ := h.putting c hputting
    have hfits := hp.fits
    have hcount := hp.count
    cases left with
    | zero =>
      have hcopies : c.copies = [] := hp.copies
      have hbusy : s.toFifo.putting = some (0, c.buffer.take c.toCopy.toNat) := by
        rw [State.toFifo, hputting, Option.map_some, hcopies]
        rfl
      obtain rfl : d = c.toCopy.toNat := hcount
      rw [hbusy]
      simp only [hcopies]
      -- the new index is that many slots behind the items
      have hindices : Indices s.ring.capacity s.ring.getIndex c.newIndex := by
        refine ⟨h.indices.power, h.indices.get_le, ?_⟩
        rw [hp.newIndex]
        exact Nat.le_of_lt_succ (Nat.mod_lt _ (Nat.succ_pos _))
      have hheld : (itemsPresent s.ring.capacity s.ring.getIndex c.newIndex).toNat =
          s.ring.held + c.toCopy.toNat := by
        apply hindices.held_eq (by omega)
        rw [hp.newIndex, h.indices.putIndex_eq, Nat.mod_add_mod, Nat.add_assoc]
      have hitems : RingBuffer.items { s.ring with putIndex := c.newIndex } =
          s.ring.items ++ c.buffer.take c.toCopy.toNat := by
        rw [RingBuffer.items, hheld, contents_add, ← hp.copied, ← contents_wrap _ (_ + _)]
        have hput := h.indices.putIndex_eq
        rw [← hput]
        rfl
      refine ⟨_, rfl, ⟨hindices, h.allocated,
        fun c' hc' => absurd hc'.symm (Option.some_ne_none c'),
        fun c' hc' => ?_, ?_⟩, ?_⟩
      · obtain ⟨d', left', hg⟩ := h.getting c' hc'
        refine ⟨d', left', hg.count, ?_, hg.inside, hg.copies, hg.newIndex, hg.copied⟩
        change c'.toCopy.toNat ≤ (itemsPresent s.ring.capacity s.ring.getIndex c.newIndex).toNat
        rw [hheld]
        exact Nat.le_add_right_of_le hg.fits
      · change s.stored ++ _ = s.delivered ++ RingBuffer.items { s.ring with putIndex :=
          c.newIndex }
        rw [hitems, h.stored, List.append_assoc]
      · rw [State.toFifo, hitems]
        rfl
    | succ left =>
      have hcopies : c.copies = ((s.ring.putIndex.toNat + d) % s.ring.slots, d) ::
          (List.range' (d + 1) left).map
            fun j => ((s.ring.putIndex.toNat + j) % s.ring.slots, j) := hp.copies
      have hinside := hp.inside
      have hslot : (s.ring.putIndex.toNat + d) % s.ring.slots < s.ring.allocated := by
        rw [h.allocated (by omega)]
        exact Nat.mod_lt _ (Nat.succ_pos _)
      obtain ⟨item, hitem⟩ : ∃ item, c.buffer[d]? = some item :=
        ⟨_, List.getElem?_eq_getElem (by omega)⟩
      have hbusy : s.toFifo.putting = some (left + 1, c.buffer.take c.toCopy.toNat) := by
        rw [State.toFifo, hputting, Option.map_some, hcopies, List.length_cons, List.length_map,
          List.length_range']
      rw [hbusy]
      simp only [hcopies, if_pos hslot, hitem, Option.map_some]
      have hslots : s.ring.slots = s.ring.capacity.toNat + 1 := rfl
      have hbehind : d + s.ring.held < s.ring.slots := by omega
      have hnext : d + 1 + left = c.toCopy.toNat := by omega
      have hwritten {m : ℕ} (hm : m ≤ s.ring.held) := contents_written h.indices hbehind hm item
      have hitems : RingBuffer.items { s.ring with
          data := Function.update s.ring.data ((s.ring.putIndex.toNat + d) % s.ring.slots) item } =
            s.ring.items := hwritten le_rfl
      refine ⟨_, rfl, ⟨h.indices, h.allocated, ?_, fun c' hc' => ?_, ?_⟩, ?_⟩
      · rintro c' ⟨⟩
        refine ⟨d + 1, left, hnext, hp.fits, hp.inside, rfl, hp.newIndex, ?_⟩
        rw [take_succ_of_getElem? hitem, ← hp.copied]
        exact contents_push s.ring.data item (Nat.lt_of_le_of_lt (Nat.le_add_right _ _) hbehind)
      · obtain ⟨d', left', hg⟩ := h.getting c' hc'
        refine ⟨d', left', hg.count, hg.fits, hg.inside, hg.copies, hg.newIndex, ?_⟩
        have hcount' := hg.count
        have hfits' := hg.fits
        exact hg.copied.trans (hwritten (by omega)).symm
      · change s.stored = s.delivered ++ RingBuffer.items { s.ring with data := _ }
        rw [hitems, h.stored]
      · rw [State.toFifo, hitems]
        simp only [Option.map_some, List.length_map, List.length_range']
        rfl

lemma getNext_spec (h : Inv s) : ∃ s', s.getNext = some s' ∧ Inv s' ∧
    s'.toFifo = s.toFifo.step .getNext := by
  rw [State.getNext, Fifo.step]
  cases hgetting : s.getting with
  | none =>
    refine ⟨s, rfl, h, ?_⟩
    have hidle : s.toFifo.getting = none := by rw [State.toFifo, hgetting]; rfl
    rw [hidle]
  | some c =>
    obtain ⟨d, left, hg⟩ := h.getting c hgetting
    have hfits := hg.fits
    have hcount := hg.count
    have hheldLe : s.ring.held ≤ s.ring.capacity.toNat := h.indices.held_le
    cases left with
    | zero =>
      have hcopies : c.copies = [] := hg.copies
      have hbusy : s.toFifo.getting = some (0, c.toCopy.toNat) := by
        rw [State.toFifo, hgetting, Option.map_some, hcopies]
        rfl
      obtain rfl : d = c.toCopy.toNat := hcount
      rw [hbusy]
      simp only [hcopies]
      have hindices : Indices s.ring.capacity c.newIndex s.ring.putIndex := by
        refine ⟨h.indices.power, ?_, h.indices.put_le⟩
        rw [hg.newIndex]
        exact Nat.le_of_lt_succ (Nat.mod_lt _ (Nat.succ_pos _))
      obtain ⟨rest, hrest⟩ := Nat.exists_eq_add_of_le hfits
      have hheld : (itemsPresent s.ring.capacity c.newIndex s.ring.putIndex).toNat = rest := by
        apply hindices.held_eq (by omega)
        rw [hg.newIndex, h.indices.putIndex_eq, Nat.mod_add_mod, Nat.add_assoc, ← hrest]
      have hsplit : s.ring.items = c.buffer.take c.toCopy.toNat ++
          RingBuffer.items { s.ring with getIndex := c.newIndex } := by
        rw [RingBuffer.items, RingBuffer.items, hheld, hg.copied, hg.newIndex, contents_wrap,
          ← contents_add, ← hrest]
      have hlength : (c.buffer.take c.toCopy.toNat).length = c.toCopy.toNat :=
        List.length_take_of_le hg.inside
      refine ⟨_, rfl, ⟨hindices, h.allocated, fun c' hc' => ?_,
        fun c' hc' => absurd hc'.symm (Option.some_ne_none c'), ?_⟩, ?_⟩
      · obtain ⟨d', left', hp⟩ := h.putting c' hc'
        refine ⟨d', left', hp.count, ?_, hp.inside, hp.copies, hp.newIndex, hp.copied⟩
        change c'.toCopy.toNat + (itemsPresent s.ring.capacity c.newIndex s.ring.putIndex).toNat ≤
          s.ring.capacity.toNat
        have hfits' := hp.fits
        rw [hheld]
        omega
      · change s.stored = s.delivered ++ _ ++ RingBuffer.items { s.ring with getIndex :=
          c.newIndex }
        rw [h.stored, hsplit, List.append_assoc]
      · have hqueue : s.toFifo.queue = s.ring.items := rfl
        rw [hqueue, hsplit, List.drop_left' hlength, List.take_left' hlength]
        rfl
    | succ left =>
      have hcopies : c.copies = ((s.ring.getIndex.toNat + d) % s.ring.slots, d) ::
          (List.range' (d + 1) left).map
            fun j => ((s.ring.getIndex.toNat + j) % s.ring.slots, j) := hg.copies
      have hinside := hg.inside
      have hslot : (s.ring.getIndex.toNat + d) % s.ring.slots < s.ring.allocated := by
        rw [h.allocated (by omega)]
        exact Nat.mod_lt _ (Nat.succ_pos _)
      have hplace : d < c.buffer.length := by omega
      have hnext : d + 1 + left = c.toCopy.toNat := by omega
      have hbusy : s.toFifo.getting = some (left + 1, c.toCopy.toNat) := by
        rw [State.toFifo, hgetting, Option.map_some, hcopies, List.length_cons, List.length_map,
          List.length_range']
      rw [hbusy]
      simp only [hcopies, if_pos (And.intro hslot hplace)]
      refine ⟨_, rfl, ⟨h.indices, h.allocated, h.putting, ?_, h.stored⟩, ?_⟩
      · rintro c' ⟨⟩
        refine ⟨d + 1, left, hnext, hg.fits, ?_, rfl, hg.newIndex, ?_⟩
        · change c.toCopy.toNat ≤ (c.buffer.set d _).length
          rw [List.length_set]
          exact hinside
        · change (c.buffer.set d _).take (d + 1) =
            contents _ s.ring.data s.ring.getIndex.toNat (d + 1)
          rw [take_succ_of_getElem? (List.getElem?_set_self hplace), List.take_set_of_le le_rfl,
            hg.copied, contents_concat]
      · rw [State.toFifo]
        simp only [Option.map_some, List.length_map, List.length_range']
        rfl

/-- The ring buffer does what the queue does, and no copy is outside of a buffer. -/
theorem step_refines (h : Inv s) (e : Event α) : ∃ s', step s e = some s' ∧ Inv s' ∧
    s'.toFifo = s.toFifo.step e := by
  have hbuflen (b : Block α) : b.buflen.toNat = b.items.length :=
    UInt32.toNat_ofNat_of_lt b.hlen
  cases e with
  | putItem val => exact ⟨_, rfl, startPut_spec h (putItem_decides h.indices)⟩
  | putBlock b =>
    have hdecides := putBlock_decides h.indices b.buflen
    rw [hbuflen b] at hdecides
    exact ⟨_, rfl, startPut_spec h hdecides⟩
  | putNext => exact putNext_spec h
  | getItem val => exact ⟨_, rfl, startGet_spec h (getItem_decides h.indices)⟩
  | getBlock b =>
    have hdecides := getBlock_decides h.indices b.buflen
    rw [hbuflen b] at hdecides
    exact ⟨_, rfl, startGet_spec h hdecides⟩
  | getNext => exact getNext_spec h

lemma run_refines (events : List (Event α)) (h : Inv s) : ∃ s', events.foldlM step s = some s' ∧
    Inv s' ∧ s'.toFifo = events.foldl Fifo.step s.toFifo := by
  induction events generalizing s with
  | nil => exact ⟨s, rfl, h, rfl⟩
  | cons e events ih =>
    obtain ⟨s₁, hstep, h₁, hfifo₁⟩ := step_refines h e
    obtain ⟨s', hrun, h', hfifo⟩ := ih h₁
    refine ⟨s', ?_, h', ?_⟩
    · rw [List.foldlM_cons, hstep]
      exact hrun
    · rw [List.foldl_cons, ← hfifo₁, hfifo]

lemma foldl_step_capacity (events : List (Event α)) (q : Fifo α) :
    (events.foldl Fifo.step q).capacity = q.capacity := by
  induction events generalizing q with
  | nil => rfl
  | cons e events ih =>
    rw [List.foldl_cons, ih]
    cases e <;> simp only [Fifo.step, Fifo.put, Fifo.get] <;> split <;> rfl

lemma toNat_capacity (numSlots : UInt32) :
    (if 1 < numSlots then numSlots - 1 else 0).toNat = numSlots.toNat - 1 := by
  split
  · next hlt =>
    rw [UInt32.toNat_sub_of_le, UInt32.toNat_one]
    exact UInt32.le_of_lt hlt
  · next hle =>
    rw [UInt32.lt_iff_toNat_lt, UInt32.toNat_one] at hle
    rw [UInt32.toNat_zero]
    omega

lemma init_inv {numSlots : UInt32} (hpower : ∃ k, numSlots.toNat = 2 ^ k) (data : ℕ → α) :
    Inv (init numSlots data) := by
  have hcapacity := toNat_capacity numSlots
  refine ⟨⟨?_, Nat.zero_le _, Nat.zero_le _⟩, fun hpos => ?_, fun c hc => (nomatch hc),
    fun c hc => (nomatch hc), ?_⟩
  · obtain ⟨k, hk⟩ := hpower
    refine ⟨k, ?_, ?_⟩
    · change (if 1 < numSlots then numSlots - 1 else 0).toNat + 1 = 2 ^ k
      rw [hcapacity, hk, Nat.sub_add_cancel (Nat.one_le_two_pow)]
    · apply (Nat.pow_lt_pow_iff_right (a := 2) (by decide)).mp
      exact hk ▸ numSlots.toNat_lt
  · change 0 < (if 1 < numSlots then numSlots - 1 else 0).toNat at hpos
    change (if 1 < numSlots then numSlots.toNat else 0) =
      (if 1 < numSlots then numSlots - 1 else 0).toNat + 1
    rw [hcapacity] at hpos ⊢
    have hlt : 1 < numSlots := by
      rw [UInt32.lt_iff_toNat_lt, UInt32.toNat_one]
      omega
    rw [if_pos hlt]
    omega
  · change [] = [] ++ contents _ data 0 (itemsPresent _ 0 0).toNat
    have hempty : (itemsPresent (init numSlots data).ring.capacity 0 0).toNat = 0 := by
      rw [itemsPresent, UInt32.sub_self, UInt32.zero_and]
      rfl
    exact (congrArg (contents _ data 0) hempty).symm

/-- Every interleaving of a producer and a consumer does what a bounded queue does: what was
delivered
and what is in the buffer is what was stored, and there is room for it. -/
theorem ringBuffer_refines_fifo (numSlots : UInt32) (hpower : ∃ k, numSlots.toNat = 2 ^ k)
    (data : ℕ → α) (events : List (Event α)) :
    ∃ s, events.foldlM step (init numSlots data) = some s ∧
      s.toFifo = events.foldl Fifo.step (Fifo.empty (numSlots.toNat - 1)) ∧
      s.stored = s.delivered ++ s.ring.items ∧ s.ring.items.length ≤ numSlots.toNat - 1 := by
  have hinit := init_inv hpower data
  have hempty : (init numSlots data).toFifo = Fifo.empty (numSlots.toNat - 1) := by
    have hitems : (init numSlots data).ring.items = [] := hinit.stored.symm
    rw [State.toFifo, hitems, Fifo.empty, ← toNat_capacity]
    rfl
  obtain ⟨s, hrun, hs, hfifo⟩ := run_refines events hinit
  rw [hempty] at hfifo
  refine ⟨s, hrun, hfifo, hs.stored, ?_⟩
  have hcapacity : s.ring.capacity.toNat = numSlots.toNat - 1 := by
    have hsame := congrArg Fifo.capacity hfifo
    rw [foldl_step_capacity] at hsame
    exact hsame
  rw [length_items, ← hcapacity]
  exact hs.indices.held_le

/-- A block is fetched while another one is being stored around the end of the ring. -/
def crossing : List (Event ℕ) :=
  [.putBlock ⟨[1, 2, 3], by decide⟩, .putNext, .putNext, .putNext, .putNext,
    .getBlock ⟨[0, 0], by decide⟩, .getNext, .getNext, .getNext, .putBlock ⟨[4, 5, 6], by decide⟩,
    .putNext, .getBlock ⟨[0, 0, 0], by decide⟩, .putNext, .getNext, .putNext, .getNext, .getItem 0,
    .getNext]

theorem ringBuffer_refines_fifo_crossing : ∃ s, crossing.foldlM step (init 4 fun _ => 0) = some s ∧
    s.toFifo = crossing.foldl Fifo.step (Fifo.empty 3) ∧
    s.stored = s.delivered ++ s.ring.items ∧ s.ring.items.length ≤ 3 :=
  ringBuffer_refines_fifo 4 ⟨2, rfl⟩ (fun _ => 0) crossing

end Refinement

end RepRapFirmware.RRFLibraries.RingBuffers
