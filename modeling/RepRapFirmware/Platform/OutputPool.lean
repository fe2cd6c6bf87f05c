import RepRapFirmware.Library.LinkedList
import RepRapFirmware.Platform.OutputBuffer

/-! The pool of output buffers, with the pointers that make chains of them. A loop that follows
pointers is given as many turns as there are buffers; where they do not suffice, or a null pointer
is followed, there is no result. -/

namespace RepRapFirmware.Platform.OutputPool

open Library.LinkedList

structure OutputBuffer (n : ℕ) where
  next : Option (Fin n)
  last : Fin n
  data : List Char
  bytesRead : ℕ
  isReferenced : Bool
  hadOverflow : Bool
  references : ℕ

structure Pool (n : ℕ) where
  buffers : Fin n → OutputBuffer n
  freeOutputBuffers : Option (Fin n)
  usedOutputBuffers : ℕ
  maxUsedOutputBuffers : ℕ

variable {n : ℕ}

namespace Pool

def next (p : Pool n) (i : Fin n) : Option (Fin n) := (p.buffers i).next

def modify (p : Pool n) (i : Fin n) (f : OutputBuffer n → OutputBuffer n) : Pool n :=
  { p with buffers := Function.update p.buffers i (f (p.buffers i)) }

def setNext (p : Pool n) (i : Fin n) (next : Option (Fin n)) : Pool n :=
  p.modify i fun b => { b with next := next }

def setLast (p : Pool n) (i last : Fin n) : Pool n := p.modify i fun b => { b with last := last }

/-- A buffer is put in front of the free ones. -/
def prepend (p : Pool n) (buf : Fin n) : Pool n :=
  { p.setNext buf p.freeOutputBuffers with freeOutputBuffers := some buf }

def init : Pool n :=
  (List.finRange n).foldl prepend ⟨fun i => ⟨none, i, [], 0, false, false, 0⟩, none, 0, 0⟩

/-- A loop that sets the last pointers of the items from `item` on up to `stop`. -/
def updateLast (newLast : Fin n) (stop : Option (Fin n)) : ℕ → Fin n → Pool n → Option (Pool n)
  | 0, _, _ => none
  | turns + 1, item, p =>
    let p := p.setLast item newLast
    if p.next item = stop then some p
    else
      match p.next item with
      | none => none
      | some item => updateLast newLast stop turns item p

def allocate (reserved : ℕ) (allowReserved : Bool) (p : Pool n) : Option (Fin n) × Pool n :=
  match p.freeOutputBuffers with
  | none => (none, p)
  | some buf =>
    if allowReserved ∨ n - p.usedOutputBuffers > reserved then
      let taken := { p with
        freeOutputBuffers := p.next buf
        usedOutputBuffers := p.usedOutputBuffers + 1
        maxUsedOutputBuffers := max p.maxUsedOutputBuffers (p.usedOutputBuffers + 1) }
      (some buf, taken.modify buf fun b => { b with
        next := none
        last := buf
        data := []
        bytesRead := 0
        references := 1
        isReferenced := false
        hadOverflow := false })
    else (none, p)

/-- `Release` returns the next item of the chain. -/
def release (buf : Fin n) (p : Pool n) : Option (Fin n) × Pool n :=
  let nextBuffer := p.next buf
  if (p.buffers buf).references > 1 then
    (nextBuffer, p.modify buf fun b => { b with references := b.references - 1, bytesRead := 0 })
  else
    (nextBuffer, { p.prepend buf with usedOutputBuffers := p.usedOutputBuffers - 1 })

def releaseAll : ℕ → Option (Fin n) → Pool n → Option (Pool n)
  | _, none, p => some p
  | 0, some _, _ => none
  | turns + 1, some buf, p =>
    let (nextBuffer, p) := p.release buf
    releaseAll turns nextBuffer p

def clear (this : Fin n) (p : Pool n) : Option (Pool n) :=
  let cleared : Option (Pool n) :=
    match p.next this with
    | none => some p
    | some next => (releaseAll n (some next) p).map fun p => (p.setNext this none).setLast this this
  cleared.map fun p => p.modify this fun b => { b with data := [] }

/-- `copy` of a character -/
def copy (this : Fin n) (c : Char) (p : Pool n) : Option (Pool n) :=
  (p.clear this).map fun p => p.modify this fun b => { b with data := [c] }

def append (this : Fin n) (other : Option (Fin n)) (p : Pool n) : Option (Pool n) :=
  match other with
  | none => some p
  | some other =>
    let linked := p.setNext (p.buffers this).last (some other)
    let newLast := (linked.buffers other).last
    let noted :=
      if (linked.buffers other).hadOverflow then
        linked.modify this fun b => { b with hadOverflow := true }
      else linked
    updateLast newLast (some other) n this noted

/-- A new buffer at the end of the chain. -/
def extend (this nextBuffer : Fin n) (p : Pool n) : Option (Pool n) :=
  let linked := p.setNext (p.buffers this).last (some nextBuffer)
  updateLast nextBuffer (some nextBuffer) n this linked

/-- `cat` of a character, with the number of characters written -/
def catChar (reserved : ℕ) (this : Fin n) (c : Char) (p : Pool n) : Option (ℕ × Pool n) :=
  let last := (p.buffers this).last
  if (p.buffers last).data.length = outputBufferSize then
    match p.allocate reserved false with
    | (none, p) => some (0, p.modify this fun b => { b with hadOverflow := true })
    | (some nextBuffer, p) => do
      let p := p.modify nextBuffer fun b => { b with references := (p.buffers this).references }
      let p ← p.copy nextBuffer c
      let p ← p.extend this nextBuffer
      return (1, p)
  else some (1, p.modify last fun b => { b with data := b.data ++ [c] })

/-- The loop of `cat`: what is left of the text, and how much of it has been copied. -/
def catLoop (reserved : ℕ) (this : Fin n) : ℕ → List Char → ℕ → Pool n → Option (ℕ × Pool n)
  | _, [], copied, p => some (copied, p)
  | 0, _ :: _, _, _ => none
  | turns + 1, src, copied, p =>
    let last := (p.buffers this).last
    let room :=
      if (p.buffers last).data.length = outputBufferSize then
        match p.allocate reserved false with
        | (none, p) => some (false, p.modify this fun b => { b with hadOverflow := true })
        | (some nextBuffer, p) =>
          let p := p.modify nextBuffer fun b => { b with references := (p.buffers this).references }
          (p.extend this nextBuffer).map (true, ·)
      else some (true, p)
    match room with
    | none => none
    | some (false, p) => some (copied, p)
    | some (true, p) =>
      let last := (p.buffers this).last
      let copyLength := min src.length (outputBufferSize - (p.buffers last).data.length)
      let p := p.modify last fun b => { b with data := b.data ++ src.take copyLength }
      catLoop reserved this turns (src.drop copyLength) (copied + copyLength) p

def cat (reserved : ℕ) (this : Fin n) (src : List Char) (p : Pool n) : Option (ℕ × Pool n) :=
  catLoop reserved this src.length src 0 p

def getBytesLeft (reserved : ℕ) (writingBuffer : Fin n) (p : Pool n) : ℕ :=
  let freeBuffers := n - p.usedOutputBuffers
  let bytesLeft := outputBufferSize - (p.buffers (p.buffers writingBuffer).last).data.length
  if freeBuffers < reserved then bytesLeft
  else bytesLeft + (freeBuffers - reserved) * outputBufferSize

/-- The two last entries of a chain. -/
def lastItems : ℕ → Fin n → Fin n → Pool n → Option (Fin n × Fin n)
  | 0, _, _, _ => none
  | turns + 1, previousItem, lastItem, p =>
    match p.next lastItem with
    | none => some (previousItem, lastItem)
    | some item => lastItems turns lastItem item p

/-- The loop of `Truncate`, with the bytes that are released and the last item that is left. -/
def truncateLoop (buffer : Fin n) (bytesNeeded : ℕ) :
    ℕ → ℕ → Pool n → Option (ℕ × Fin n × Pool n)
  | 0, _, _ => none
  | turns + 1, releasedBytes, p => do
    let (previousItem, _) ← lastItems n buffer (← p.next buffer) p
    let p ← releaseAll n (p.next previousItem) p
    let p := p.setNext previousItem none
    let releasedBytes := releasedBytes + outputBufferSize
    if previousItem ≠ buffer ∧ releasedBytes < bytesNeeded then
      truncateLoop buffer bytesNeeded turns releasedBytes p
    else return (releasedBytes, previousItem, p)

def truncate (buffer : Option (Fin n)) (bytesNeeded : ℕ) (p : Pool n) : Option (ℕ × Pool n) :=
  match buffer with
  | none => some (0, p)
  | some buffer =>
    if p.next buffer = none ∨ (p.buffers buffer).isReferenced then some (0, p)
    else do
      let (releasedBytes, previousItem, p) ← truncateLoop buffer bytesNeeded n 0 p
      let p ← updateLast previousItem none n buffer p
      return (releasedBytes, p)

/-- `Read`: the data from the read position on. -/
def read (this : Fin n) (len : ℕ) (p : Pool n) : List Char × Pool n :=
  (((p.buffers this).data.drop (p.buffers this).bytesRead).take len,
    p.modify this fun b => { b with bytesRead := b.bytesRead + len })

end Pool

/-! ### Runs -/

/-- The pool and the chains that somebody has a pointer to. -/
structure System (n : ℕ) where
  pool : Pool n
  held : List (Fin n)

inductive Action (n : ℕ)
  | allocate (allowReserved : Bool)
  | catChar (this : Fin n) (c : Char)
  | cat (this : Fin n) (src : List Char)
  | append (this : Fin n) (other : Option (Fin n))
  | release (buf : Fin n)
  | releaseAll (buf : Fin n)
  | truncate (buffer : Option (Fin n)) (bytesNeeded : ℕ)
  | clear (this : Fin n)
  | read (this : Fin n) (len : ℕ)

/-- The buffers that the caller names are first in different chains that it has. -/
def Allowed (s : System n) : Action n → Prop
  | .allocate _ => True
  | .catChar this _ | .cat this _ | .release this | .releaseAll this | .clear this
  | .read this _ => this ∈ s.held
  | .append this other => this ∈ s.held ∧ ∀ i ∈ other, i ∈ s.held ∧ i ≠ this
  | .truncate buffer _ => ∀ i ∈ buffer, i ∈ s.held

instance (s : System n) (a : Action n) : Decidable (Allowed s a) := by
  cases a <;> rw [Allowed] <;> infer_instance

def perform (reserved : ℕ) (s : System n) : Action n → Option (System n)
  | .allocate allowReserved =>
    let (buf, p) := s.pool.allocate reserved allowReserved
    some ⟨p, buf.toList ++ s.held⟩
  | .catChar this c => (s.pool.catChar reserved this c).map fun r => ⟨r.2, s.held⟩
  | .cat this src => (s.pool.cat reserved this src).map fun r => ⟨r.2, s.held⟩
  | .append this other =>
    (s.pool.append this other).map fun p => ⟨p, other.elim s.held s.held.erase⟩
  | .release buf =>
    let (nextBuffer, p) := s.pool.release buf
    some ⟨p, nextBuffer.toList ++ s.held.erase buf⟩
  | .releaseAll buf => (Pool.releaseAll n (some buf) s.pool).map fun p => ⟨p, s.held.erase buf⟩
  | .truncate buffer bytesNeeded =>
    (s.pool.truncate buffer bytesNeeded).map fun r => ⟨r.2, s.held⟩
  | .clear this => (s.pool.clear this).map fun p => ⟨p, s.held⟩
  | .read this len => some ⟨(s.pool.read this len).2, s.held⟩

/-- A call that is not allowed is not made. -/
def step (reserved : ℕ) (s : System n) (a : Action n) : Option (System n) :=
  if Allowed s a then perform reserved s a else some s

def start (n : ℕ) : System n := ⟨.init, []⟩

/-! ### What the pool is made of -/

section Shape

variable {p p' : Pool n} {c d free free' : List (Fin n)} {x y i j : Fin n}
  {cs cs' rest : List (List (Fin n) × Fin n)}

/-- The items of a chain, with what their last pointers are. -/
structure IsChain (p : Pool n) (c : List (Fin n)) (x : Fin n) : Prop where
  nonempty : c ≠ []
  chain : Chain p.next c.head? c
  last : ∀ i ∈ c, (p.buffers i).last = x
  owned : ∀ i ∈ c, (p.buffers i).references = 1 ∧ (p.buffers i).isReferenced = false

def items (cs : List (List (Fin n) × Fin n)) : List (Fin n) := (cs.map Prod.fst).flatten

structure Integrity (p : Pool n) (cs : List (List (Fin n) × Fin n)) (free : List (Fin n)) : Prop
    where
  partition : (items cs ++ free).Perm (List.finRange n)
  freeChain : Chain p.next p.freeOutputBuffers free
  chains : ∀ q ∈ cs, IsChain p q.1 q.2
  used : p.usedOutputBuffers + free.length = n
  fits : ∀ i, (p.buffers i).data.length ≤ outputBufferSize

lemma IsChain.congr (h : IsChain p c x) (hkept : ∀ i ∈ c, p'.buffers i = p.buffers i) :
    IsChain p' c x where
  nonempty := h.nonempty
  chain := h.chain.congr fun i hi => congrArg OutputBuffer.next (hkept i hi)
  last := fun i hi => (congrArg OutputBuffer.last (hkept i hi)).trans (h.last i hi)
  owned := fun i hi => (hkept i hi).symm ▸ h.owned i hi

@[simp] lemma items_nil : items ([] : List (List (Fin n) × Fin n)) = [] := rfl

@[simp] lemma items_cons (q : List (Fin n) × Fin n) (cs : List (List (Fin n) × Fin n)) :
    items (q :: cs) = q.1 ++ items cs := rfl

@[simp] lemma items_append (cs cs' : List (List (Fin n) × Fin n)) :
    items (cs ++ cs') = items cs ++ items cs' := by
  simp [items]

lemma mem_items {q : List (Fin n) × Fin n} (hq : q ∈ cs) (hi : i ∈ q.1) : i ∈ items cs :=
  List.mem_flatten.mpr ⟨q.1, List.mem_map_of_mem hq, hi⟩

lemma Integrity.nodup (h : Integrity p cs free) : (items cs ++ free).Nodup :=
  h.partition.nodup_iff.mpr (List.nodup_finRange n)

lemma Integrity.perm (h : Integrity p cs free) (hcs : cs.Perm cs') : Integrity p cs' free where
  partition := (((hcs.map Prod.fst).flatten.append_right free).symm).trans h.partition
  freeChain := h.freeChain
  chains := fun q hq => h.chains q (hcs.mem_iff.mpr hq)
  used := h.used
  fits := h.fits

/-- Some chains and the free list are changed among themselves. -/
lemma Integrity.amend (h : Integrity p (cs ++ rest) free)
    (hperm : (items cs' ++ free').Perm (items cs ++ free))
    (hkept : ∀ i ∉ items cs ++ free, p'.buffers i = p.buffers i)
    (hfree : Chain p'.next p'.freeOutputBuffers free')
    (hchains : ∀ q ∈ cs', IsChain p' q.1 q.2)
    (hused : p'.usedOutputBuffers + free'.length = n)
    (hfits : ∀ i ∈ items cs ++ free, (p'.buffers i).data.length ≤ outputBufferSize) :
    Integrity p' (cs' ++ rest) free' where
  partition := by
    have hpartition := h.partition
    rw [items_append] at hpartition ⊢
    have hnew : (items cs' ++ items rest ++ free').Perm (items cs' ++ free' ++ items rest) := by
      rw [List.append_assoc, List.append_assoc]
      exact List.perm_append_comm.append_left _
    have hold : (items cs ++ items rest ++ free).Perm (items cs ++ free ++ items rest) := by
      rw [List.append_assoc, List.append_assoc]
      exact List.perm_append_comm.append_left _
    exact hnew.trans ((hperm.append_right _).trans (hold.symm.trans hpartition))
  freeChain := hfree
  chains := by
    intro q hq
    obtain hq | hq := List.mem_append.mp hq
    · exact hchains q hq
    · apply (h.chains q (List.mem_append_right cs hq)).congr
      intro i hi
      apply hkept
      intro hmem
      have hnodup := h.nodup
      rw [items_append, List.append_assoc, List.nodup_append] at hnodup
      have hrest : i ∈ items rest := mem_items hq hi
      obtain hmem | hmem := List.mem_append.mp hmem
      · exact hnodup.2.2 i hmem i (List.mem_append_left _ hrest) rfl
      · exact (List.nodup_append.mp hnodup.2.1).2.2 i hrest i hmem rfl
  used := hused
  fits := by
    intro i
    by_cases hi : i ∈ items cs ++ free
    · exact hfits i hi
    · rw [hkept i hi]
      exact h.fits i

/-- Buffers that keep their links keep the shape. -/
structure SameShape (p p' : Pool n) : Prop where
  next : p'.next = p.next
  last : ∀ i, (p'.buffers i).last = (p.buffers i).last
  references : ∀ i, (p'.buffers i).references = (p.buffers i).references
  isReferenced : ∀ i, (p'.buffers i).isReferenced = (p.buffers i).isReferenced
  free : p'.freeOutputBuffers = p.freeOutputBuffers
  used : p'.usedOutputBuffers = p.usedOutputBuffers

lemma Integrity.same (h : Integrity p cs free) (hs : SameShape p p')
    (hfits : ∀ i, (p'.buffers i).data.length ≤ outputBufferSize) : Integrity p' cs free where
  partition := h.partition
  freeChain := by
    rw [hs.next, hs.free]
    exact h.freeChain
  chains := by
    intro q hq
    have hq' := h.chains q hq
    refine ⟨hq'.nonempty, ?_, ?_, ?_⟩
    · rw [hs.next]
      exact hq'.chain
    · intro i hi
      rw [hs.last]
      exact hq'.last i hi
    · intro i hi
      rw [hs.references, hs.isReferenced]
      exact hq'.owned i hi
  used := by
    rw [hs.used]
    exact h.used
  fits := hfits

lemma modify_self (p : Pool n) (i : Fin n) (f : OutputBuffer n → OutputBuffer n) :
    (p.modify i f).buffers i = f (p.buffers i) := Function.update_self _ _ _

lemma modify_of_ne (p : Pool n) (f : OutputBuffer n → OutputBuffer n) (h : j ≠ i) :
    (p.modify i f).buffers j = p.buffers j := Function.update_of_ne h _ _

/-- What the function does not touch stays the same everywhere. -/
lemma modify_kept {β : Type} {f : OutputBuffer n → OutputBuffer n} {g : OutputBuffer n → β}
    (hg : ∀ b, g (f b) = g b) (p : Pool n) (i j : Fin n) :
    g ((p.modify i f).buffers j) = g (p.buffers j) := by
  by_cases hj : j = i
  · subst hj
    rw [modify_self, hg]
  · rw [modify_of_ne p f hj]

/-- The function neither touches the links nor the references of a buffer. -/
structure KeepsLinks (f : OutputBuffer n → OutputBuffer n) : Prop where
  next : ∀ b, (f b).next = b.next
  last : ∀ b, (f b).last = b.last
  references : ∀ b, (f b).references = b.references
  isReferenced : ∀ b, (f b).isReferenced = b.isReferenced

lemma sameShape_modify {f : OutputBuffer n → OutputBuffer n} (hf : KeepsLinks f) (p : Pool n)
    (i : Fin n) : SameShape p (p.modify i f) := by
  exact ⟨funext (modify_kept hf.next p i), modify_kept hf.last p i, modify_kept hf.references p i,
    modify_kept hf.isReferenced p i, rfl, rfl⟩

lemma Integrity.modify {f : OutputBuffer n → OutputBuffer n} (h : Integrity p cs free)
    (hf : KeepsLinks f) (hfits : (f (p.buffers i)).data.length ≤ outputBufferSize) :
    Integrity (p.modify i f) cs free := by
  apply h.same (sameShape_modify hf p i)
  intro j
  by_cases hj : j = i
  · subst hj
    rw [modify_self]
    exact hfits
  · rw [modify_of_ne p f hj]
    exact h.fits j

/-! ### Loops over a chain -/

/-- All last pointers of some items set. -/
def withLast (p : Pool n) (c : List (Fin n)) (x : Fin n) : Pool n :=
  { p with buffers := fun i => if i ∈ c then { p.buffers i with last := x } else p.buffers i }

lemma next_setLast (p : Pool n) (i x : Fin n) : (p.setLast i x).next = p.next := by
  funext j
  by_cases hj : j = i
  · subst hj
    rw [Pool.next, Pool.setLast, modify_self]
    rfl
  · rw [Pool.next, Pool.setLast, modify_of_ne p _ hj]
    rfl

lemma next_withLast (p : Pool n) (c : List (Fin n)) (x : Fin n) :
    (withLast p c x).next = p.next := by
  funext j
  simp only [Pool.next, withLast]
  split_ifs <;> rfl

lemma withLast_setLast (p : Pool n) (i x : Fin n) (c : List (Fin n)) :
    withLast (p.setLast i x) c x = withLast p (i :: c) x := by
  have hbuffers (j : Fin n) :
      (withLast (p.setLast i x) c x).buffers j = (withLast p (i :: c) x).buffers j := by
    by_cases hj : j = i
    · subst hj
      simp [withLast, Pool.setLast, modify_self]
    · simp [withLast, Pool.setLast, modify_of_ne p _ hj, hj]
  exact congrArg (fun b => { p with buffers := b }) (funext hbuffers)

lemma updateLast_eq {stop : Option (Fin n)} {turns : ℕ}
    (h : Chain p.next (some i) (i :: c ++ d)) (hstop : d.head? = stop) (hturns : c.length < turns)
    (x : Fin n) : Pool.updateLast x stop turns i p = some (withLast p (i :: c) x) := by
  induction c generalizing i p turns with
  | nil =>
    obtain ⟨turns, rfl⟩ := Nat.exists_eq_succ_of_ne_zero (Nat.ne_of_gt hturns)
    have hnext : p.next i = stop := hstop ▸ Chain.head_eq h.2
    rw [Pool.updateLast, next_setLast, if_pos hnext, ← withLast_setLast]
    simp [withLast]
  | cons j c ih =>
    obtain ⟨turns, rfl⟩ := Nat.exists_eq_succ_of_ne_zero (Nat.ne_zero_of_lt hturns)
    have hchain : Chain p.next (p.next i) (j :: c ++ d) := h.2
    have hnext : p.next i = some j := hchain.head_eq
    have hnot : p.next i ≠ stop := by
      intro heq
      have hj : d.head? = some j := by rw [hstop, ← heq, hnext]
      have hmem : j ∈ d := List.mem_of_mem_head? hj
      have hnodup := hchain.nodup
      rw [List.cons_append, List.nodup_cons] at hnodup
      exact hnodup.1 (List.mem_append_right c hmem)
    rw [hnext] at hchain
    rw [Pool.updateLast, next_setLast, if_neg hnot, hnext]
    dsimp only
    rw [ih _ (Nat.lt_of_succ_lt_succ hturns), withLast_setLast]
    rw [next_setLast]
    exact hchain

end Shape

/-! ### The operations on a chain -/

section Operations

variable {p p' : Pool n} {c d free free' : List (Fin n)} {x y i j : Fin n}
  {cs cs' rest : List (List (Fin n) × Fin n)}

lemma next_setNext (p : Pool n) (i : Fin n) (q : Option (Fin n)) :
    (p.setNext i q).next = Function.update p.next i q := by
  funext j
  by_cases hj : j = i
  · subst hj
    rw [Function.update_self, Pool.next, Pool.setNext, modify_self]
  · rw [Function.update_of_ne hj, Pool.next, Pool.setNext, modify_of_ne p _ hj]
    rfl

/-- What is not a link stays the same. -/
lemma prepend_kept {β : Type} {g : OutputBuffer n → β}
    (hg : ∀ b q, g { b with next := q } = g b) (p : Pool n) (i j : Fin n) :
    g ((p.prepend i).buffers j) = g (p.buffers j) :=
  modify_kept (fun b => hg b p.freeOutputBuffers) p i j

lemma setNext_of_ne (p : Pool n) (q : Option (Fin n)) (h : j ≠ i) :
    (p.setNext i q).buffers j = p.buffers j :=
  modify_of_ne p (fun b => { b with next := q }) h

lemma prepend_of_ne (p : Pool n) (h : j ≠ i) : (p.prepend i).buffers j = p.buffers j :=
  setNext_of_ne p p.freeOutputBuffers h

lemma prepend_chain (h : Chain p.next p.freeOutputBuffers free) (hi : i ∉ free) :
    Chain (p.prepend i).next (p.prepend i).freeOutputBuffers (i :: free) := by
  have hnext : (p.prepend i).next = Function.update p.next i p.freeOutputBuffers :=
    next_setNext p i _
  refine ⟨rfl, ?_⟩
  rw [hnext, Function.update_self]
  exact h.update hi _

lemma init_integrity : Integrity (Pool.init : Pool n) [] (List.finRange n).reverse := by
  let start : Pool n := ⟨fun i => ⟨none, i, [], 0, false, false, 0⟩, none, 0, 0⟩
  have hlist (l : List (Fin n)) (hnodup : l.Nodup) :
      Chain (l.foldl Pool.prepend start).next (l.foldl Pool.prepend start).freeOutputBuffers
        l.reverse ∧
      (l.foldl Pool.prepend start).usedOutputBuffers = 0 ∧
      ∀ i, ((l.foldl Pool.prepend start).buffers i).data = [] := by
    induction l using List.reverseRecOn with
    | nil => exact ⟨rfl, rfl, fun _ => rfl⟩
    | append_singleton l i ih =>
      rw [List.nodup_append'] at hnodup
      obtain ⟨hl, -, hdisjoint⟩ := hnodup
      obtain ⟨hchain, hused, hdata⟩ := ih hl
      rw [List.foldl_concat, List.reverse_concat]
      have hi : i ∉ l.reverse := fun hi =>
        hdisjoint (List.mem_reverse.mp hi) (List.mem_singleton_self i)
      refine ⟨prepend_chain hchain hi, hused, fun j => Eq.trans ?_ (hdata j)⟩
      exact prepend_kept (g := OutputBuffer.data) (fun _ _ => rfl) _ i j
  obtain ⟨hchain, hused, hdata⟩ := hlist _ (List.nodup_finRange n)
  refine ⟨List.reverse_perm _, hchain, List.forall_mem_nil _, ?_, fun i => ?_⟩
  · rw [List.length_reverse, List.length_finRange]
    exact (congrArg (· + n) hused).trans (Nat.zero_add n)
  · exact (congrArg List.length (hdata i)).trans_le (Nat.zero_le _)

/-- The first free buffer becomes a chain of its own. -/
lemma allocate_spec (h : Integrity p cs (i :: free)) {reserved : ℕ} {allowReserved : Bool}
    (hroom : allowReserved ∨ n - p.usedOutputBuffers > reserved) :
    ∃ p', p.allocate reserved allowReserved = (some i, p') ∧
      Integrity p' (([i], i) :: cs) free ∧ (∀ j ≠ i, p'.buffers j = p.buffers j) ∧
      (p'.buffers i).data = [] ∧ p'.usedOutputBuffers = p.usedOutputBuffers + 1 := by
  have hfirst : p.freeOutputBuffers = some i := h.freeChain.1
  have hfree : i ∉ free := (List.nodup_cons.mp (List.nodup_append'.mp h.nodup).2.1).1
  rw [Pool.allocate, hfirst]
  dsimp only
  rw [if_pos hroom]
  let f (b : OutputBuffer n) : OutputBuffer n := { b with
    next := none
    last := i
    data := []
    bytesRead := 0
    references := 1
    isReferenced := false
    hadOverflow := false }
  let taken : Pool n := { p with
    freeOutputBuffers := p.next i
    usedOutputBuffers := p.usedOutputBuffers + 1
    maxUsedOutputBuffers := max p.maxUsedOutputBuffers (p.usedOutputBuffers + 1) }
  have hi : (taken.modify i f).buffers i = f (p.buffers i) := modify_self taken i f
  have hothers (j : Fin n) (hj : j ≠ i) : (taken.modify i f).buffers j = p.buffers j :=
    modify_of_ne taken f hj
  refine ⟨taken.modify i f, rfl, ?_, hothers, congrArg OutputBuffer.data hi, rfl⟩
  rw [← List.nil_append cs] at h
  change Integrity _ ([([i], i)] ++ cs) free
  apply h.amend
  · simp
  · intro j hj
    apply hothers
    rintro rfl
    exact hj (by simp)
  · have hchain : Chain p.next (p.next i) free := h.freeChain.2
    apply hchain.congr
    intro j hj
    exact congrArg OutputBuffer.next (hothers j fun heq => hfree (heq ▸ hj))
  · intro q hq
    rw [List.mem_singleton.mp hq]
    refine ⟨List.cons_ne_nil _ _, ⟨rfl, congrArg OutputBuffer.next hi⟩, ?_, ?_⟩
    · intro j hj
      rw [List.mem_singleton.mp hj]
      exact congrArg OutputBuffer.last hi
    · intro j hj
      rw [List.mem_singleton.mp hj, hi]
      exact ⟨rfl, rfl⟩
  · have hused := h.used
    rw [List.length_cons] at hused
    change p.usedOutputBuffers + 1 + free.length = n
    omega
  · intro j _
    by_cases hj : j = i
    · rw [hj, hi]
      exact Nat.zero_le _
    · rw [hothers j hj]
      exact h.fits j

lemma allocate_full {reserved : ℕ}
    (hfull : ¬ n - p.usedOutputBuffers > reserved) : p.allocate reserved false = (none, p) := by
  rw [Pool.allocate]
  split
  · rfl
  · rw [if_neg]
    simpa using hfull

/-- What joins two chains: the last item of the first is made to point to the other, and the last
pointers of the first are set. -/
lemma Integrity.join (h : Integrity p ((c, x) :: (d, y) :: rest) free)
    (hx : c.getLast? = some x) (hnext : p'.next = Function.update p.next x d.head?)
    (hlast : ∀ i, (p'.buffers i).last = if i ∈ c then y else (p.buffers i).last)
    (hothers : ∀ i ∉ c, p'.buffers i = p.buffers i)
    (howned : ∀ i, (p'.buffers i).references = (p.buffers i).references ∧
      (p'.buffers i).isReferenced = (p.buffers i).isReferenced)
    (hfree : p'.freeOutputBuffers = p.freeOutputBuffers)
    (hused : p'.usedOutputBuffers = p.usedOutputBuffers)
    (hfits : ∀ i ∈ c, (p'.buffers i).data.length ≤ outputBufferSize) :
    Integrity p' ((c ++ d, y) :: rest) free := by
  have hc := h.chains (c, x) List.mem_cons_self
  have hd := h.chains (d, y) (List.mem_cons_of_mem _ List.mem_cons_self)
  have hnodup := h.nodup
  rw [items_cons, items_cons] at hnodup
  have hxc : x ∈ c := List.mem_of_getLast? hx
  have hcd : ∀ i ∈ c, i ∉ d := by
    intro i hi hid
    rw [List.append_assoc, List.nodup_append] at hnodup
    exact hnodup.2.2 i hi i (by simp [hid]) rfl
  have hcfree : ∀ i ∈ c, i ∉ free := by
    intro i hi hid
    rw [List.append_assoc, List.nodup_append] at hnodup
    exact hnodup.2.2 i hi i (by simp [hid]) rfl
  have hsplit : ((c, x) :: (d, y) :: rest) = [(c, x), (d, y)] ++ rest := rfl
  rw [hsplit] at h
  change Integrity _ ([(c ++ d, y)] ++ rest) free
  apply h.amend
  · simp
  · intro i hi
    apply hothers
    exact fun hic => hi (by simp [hic])
  · rw [hfree, hnext]
    apply h.freeChain.congr
    intro i hi
    apply Function.update_of_ne
    rintro rfl
    exact hcfree i hxc hi
  · intro q hq
    rw [List.mem_singleton.mp hq]
    refine ⟨List.append_ne_nil_of_left_ne_nil hc.nonempty d, ?_, ?_, ?_⟩
    · obtain ⟨l, rfl⟩ : ∃ l, c = l ++ [x] := List.getLast?_eq_some_iff.mp hx
      rw [hnext]
      have hjoined := hc.chain.join hd.chain (hcd x hxc)
      have hhead : (l ++ [x] ++ d).head? = (l ++ [x]).head? := by
        cases l <;> rfl
      rw [hhead, List.append_assoc, List.singleton_append]
      exact hjoined
    · intro i hi
      rw [hlast]
      split
      · rfl
      · next hic => exact hd.last i ((List.mem_append.mp hi).resolve_left hic)
    · intro i hi
      rw [(howned i).1, (howned i).2]
      obtain hi | hi := List.mem_append.mp hi
      · exact hc.owned i hi
      · exact hd.owned i hi
  · rw [hused]
    exact h.used
  · intro i _
    by_cases hic : i ∈ c
    · exact hfits i hic
    · rw [hothers i hic]
      exact h.fits i

lemma withLast_kept {β : Type} {g : OutputBuffer n → β}
    (hg : ∀ b x, g { b with last := x } = g b) (p : Pool n) (c : List (Fin n)) (x i : Fin n) :
    g ((withLast p c x).buffers i) = g (p.buffers i) := by
  simp only [withLast]
  split
  · exact hg _ _
  · rfl

lemma setNext_kept {β : Type} {g : OutputBuffer n → β}
    (hg : ∀ b q, g { b with next := q } = g b) (p : Pool n) (i : Fin n) (q : Option (Fin n))
    (j : Fin n) : g ((p.setNext i q).buffers j) = g (p.buffers j) :=
  modify_kept (fun b => hg b q) p i j

/-- The pool in which two chains have been joined. -/
def joined (p : Pool n) (c : List (Fin n)) (x : Fin n) (d : Option (Fin n)) (y : Fin n) : Pool n :=
  withLast (p.setNext x d) c y

lemma joined_kept {β : Type} {g : OutputBuffer n → β} (hnext : ∀ b q, g { b with next := q } = g b)
    (hlast : ∀ b x, g { b with last := x } = g b) (p : Pool n) (c : List (Fin n)) (x : Fin n)
    (d : Option (Fin n)) (y i : Fin n) :
    g ((joined p c x d y).buffers i) = g (p.buffers i) :=
  (withLast_kept hlast _ c y i).trans (setNext_kept hnext p x d i)

lemma joined_integrity (h : Integrity p ((c, x) :: (d, y) :: rest) free)
    (hx : c.getLast? = some x) :
    Integrity (joined p c x d.head? y) ((c ++ d, y) :: rest) free := by
  apply h.join hx
  · rw [joined, next_withLast, next_setNext]
  · intro i
    simp only [joined, withLast]
    split
    · rfl
    · exact setNext_kept (g := OutputBuffer.last) (fun _ _ => rfl) p x _ i
  · intro i hi
    have hne : i ≠ x := by
      rintro rfl
      exact hi (List.mem_of_getLast? hx)
    simp only [joined, withLast, if_neg hi]
    exact modify_of_ne p _ hne
  · intro i
    exact ⟨joined_kept (g := OutputBuffer.references) (fun _ _ => rfl) (fun _ _ => rfl) p c x _ y i,
      joined_kept (g := OutputBuffer.isReferenced) (fun _ _ => rfl) (fun _ _ => rfl) p c x _ y i⟩
  · rfl
  · rfl
  · intro i _
    rw [joined_kept (g := OutputBuffer.data) (fun _ _ => rfl) (fun _ _ => rfl)]
    exact h.fits i

/-- The loop over the first of two chains that have just been linked. -/
lemma updateLast_joined (h : Integrity p ((c, x) :: (d, y) :: rest) free)
    (hx : c.getLast? = some x) (hi : c.head? = some i) (hd : d.head? = some j)
    (hnext : p'.next = Function.update p.next x (some j)) :
    Pool.updateLast y (some j) n i p' = some (withLast p' c y) := by
  have hc := h.chains (c, x) List.mem_cons_self
  have hd' := h.chains (d, y) (List.mem_cons_of_mem _ List.mem_cons_self)
  have hnodup := h.nodup
  rw [items_cons, items_cons, List.append_assoc, List.append_assoc, List.nodup_append] at hnodup
  obtain ⟨l, rfl⟩ : ∃ l, c = l ++ [x] := List.getLast?_eq_some_iff.mp hx
  have hxd : x ∉ d := fun hxd => hnodup.2.2 x (by simp) x (by simp [hxd]) rfl
  have hlinked := hc.chain.join hd'.chain hxd
  rw [← hd] at hnext
  rw [← hnext, hi] at hlinked
  have hlength : (l ++ [x] ++ d).length ≤ n := by
    have hall := h.partition.length_eq
    simp only [items_cons, List.length_append, List.length_finRange] at hall ⊢
    omega
  obtain ⟨c', hc'⟩ : ∃ c', l ++ [x] = i :: c' := by
    obtain ⟨c', hc'⟩ := List.head?_eq_some_iff.mp hi
    exact ⟨c', hc'⟩
  have hchain : Chain p'.next (some i) (i :: c' ++ d) := by
    rw [← hc', List.append_assoc]
    exact hlinked
  rw [hc'] at hlength ⊢
  apply updateLast_eq hchain hd
  rw [List.length_append, List.length_cons] at hlength
  obtain ⟨d', hd''⟩ := List.head?_eq_some_iff.mp hd
  rw [hd'', List.length_cons] at hlength
  omega

lemma extend_spec (h : Integrity p ((c, x) :: ([j], j) :: rest) free)
    (hx : c.getLast? = some x) (hi : c.head? = some i) :
    p.extend i j = some (joined p c x (some j) j) ∧
      Integrity (joined p c x (some j) j) ((c ++ [j], j) :: rest) free := by
  have hlast : (p.buffers i).last = x :=
    (h.chains (c, x) List.mem_cons_self).last i (List.mem_of_mem_head? hi)
  refine ⟨?_, joined_integrity h hx⟩
  rw [Pool.extend, hlast]
  exact updateLast_joined h hx hi rfl (next_setNext p x (some j))

lemma append_spec (h : Integrity p ((c, x) :: (d, y) :: rest) free) (hx : c.getLast? = some x)
    (hi : c.head? = some i) (hj : d.head? = some j) :
    ∃ p', p.append i (some j) = some p' ∧ Integrity p' ((c ++ d, y) :: rest) free := by
  have hlast : (p.buffers i).last = x :=
    (h.chains (c, x) List.mem_cons_self).last i (List.mem_of_mem_head? hi)
  have hlast' : (p.buffers j).last = y :=
    (h.chains (d, y) (List.mem_cons_of_mem _ List.mem_cons_self)).last j (List.mem_of_mem_head? hj)
  have hnewLast : ((p.setNext x (some j)).buffers j).last = y :=
    (setNext_kept (g := OutputBuffer.last) (fun _ _ => rfl) p x _ j).trans hlast'
  have hjoined := joined_integrity h hx
  rw [hj] at hjoined
  rw [Pool.append, hlast, hnewLast]
  split
  · let f (b : OutputBuffer n) : OutputBuffer n := { b with hadOverflow := true }
    have hf : KeepsLinks f := ⟨fun _ => rfl, fun _ => rfl, fun _ => rfl, fun _ => rfl⟩
    have hnoted := sameShape_modify hf (p.setNext x (some j)) i
    have hnext : ((p.setNext x (some j)).modify i f).next = Function.update p.next x (some j) :=
      hnoted.next.trans (next_setNext p x (some j))
    refine ⟨_, updateLast_joined h hx hi hj hnext, hjoined.same ⟨?_, ?_, ?_, ?_, rfl, rfl⟩ ?_⟩
    · rw [next_withLast, joined, next_withLast]
      exact hnoted.next
    · intro k
      simp only [joined, withLast]
      split
      · rfl
      · exact hnoted.last k
    · intro k
      rw [withLast_kept (g := OutputBuffer.references) (fun _ _ => rfl), joined,
        withLast_kept (g := OutputBuffer.references) (fun _ _ => rfl)]
      exact hnoted.references k
    · intro k
      rw [withLast_kept (g := OutputBuffer.isReferenced) (fun _ _ => rfl), joined,
        withLast_kept (g := OutputBuffer.isReferenced) (fun _ _ => rfl)]
      exact hnoted.isReferenced k
    · intro k
      rw [withLast_kept (g := OutputBuffer.data) (fun _ _ => rfl),
        modify_kept (f := f) (g := OutputBuffer.data) (fun _ => rfl),
        setNext_kept (g := OutputBuffer.data) (fun _ _ => rfl)]
      exact h.fits k
  · exact ⟨_, updateLast_joined h hx hi hj (next_setNext p x (some j)), hjoined⟩

/-- What is left of a chain without its first item. -/
def remaining : List (Fin n) → Fin n → List (List (Fin n) × Fin n)
  | [], _ => []
  | c, x => [(c, x)]

lemma items_remaining (c : List (Fin n)) (x : Fin n) : items (remaining c x) = c := by
  cases c with
  | nil => rfl
  | cons i c => exact List.append_nil _

lemma release_spec (h : Integrity p ((i :: c, x) :: rest) free) :
    ∃ p', p.release i = (c.head?, p') ∧ Integrity p' (remaining c x ++ rest) (i :: free) ∧
      ∀ j ≠ i, p'.buffers j = p.buffers j := by
  have hc := h.chains (i :: c, x) List.mem_cons_self
  have hnodup := h.nodup
  rw [items_cons, List.append_assoc, List.cons_append, List.nodup_cons] at hnodup
  have hfree : i ∉ free := fun hi => hnodup.1 (by simp [hi])
  have hic : i ∉ c := fun hi => hnodup.1 (by simp [hi])
  have hnext : p.next i = c.head? := Chain.head_eq hc.chain.2
  have hreferences : ¬ (p.buffers i).references > 1 := by
    rw [(hc.owned i List.mem_cons_self).1]
    omega
  have hothers (j : Fin n) (hj : j ≠ i) : (p.prepend i).buffers j = p.buffers j :=
    prepend_of_ne p hj
  rw [Pool.release, if_neg hreferences, hnext]
  refine ⟨_, rfl, ?_, hothers⟩
  have hsplit : (i :: c, x) :: rest = [(i :: c, x)] ++ rest := rfl
  rw [hsplit] at h
  apply h.amend
  · rw [items_remaining, items_cons, items_nil, List.append_nil]
    exact List.perm_middle
  · intro j hj
    apply hothers
    rintro rfl
    exact hj (by simp)
  · exact prepend_chain h.freeChain hfree
  · intro q hq
    cases c with
    | nil => exact absurd hq List.not_mem_nil
    | cons k c =>
      rw [List.mem_singleton.mp hq]
      have hk : p.next i = some k := hnext
      have hchain : Chain p.next (some k) (k :: c) := hk ▸ hc.chain.2
      have htail : IsChain p (k :: c) x := by
        refine ⟨List.cons_ne_nil _ _, hchain, ?_, ?_⟩
        · exact fun j hj => hc.last j (List.mem_cons_of_mem _ hj)
        · exact fun j hj => hc.owned j (List.mem_cons_of_mem _ hj)
      apply htail.congr
      intro j hj
      apply hothers
      rintro rfl
      exact hic hj
  · have hused := h.used
    have hlength := h.partition.length_eq
    simp only [items_append, items_cons, List.length_append, List.length_cons,
      List.length_finRange] at hlength
    change p.usedOutputBuffers - 1 + (free.length + 1) = n
    omega
  · intro j _
    have hdata : ((p.prepend i).buffers j).data = (p.buffers j).data :=
      prepend_kept (g := OutputBuffer.data) (fun _ _ => rfl) p i j
    exact (congrArg List.length hdata).trans_le (h.fits j)

lemma releaseAll_spec {turns : ℕ} (h : Integrity p (remaining c x ++ rest) free)
    (hturns : c.length ≤ turns) :
    ∃ p', Pool.releaseAll turns c.head? p = some p' ∧
      Integrity p' rest (c.reverse ++ free) ∧ ∀ j ∉ c, p'.buffers j = p.buffers j := by
  induction c generalizing p free turns with
  | nil =>
    refine ⟨p, ?_, h, fun _ _ => rfl⟩
    cases turns <;> rfl
  | cons i c ih =>
    obtain ⟨turns, rfl⟩ := Nat.exists_eq_succ_of_ne_zero (Nat.ne_of_gt
      ((Nat.succ_pos c.length).trans_le hturns))
    obtain ⟨p₁, hrelease, hintegrity, hothers⟩ := release_spec h
    obtain ⟨p₂, hall, hintegrity', hothers'⟩ := ih hintegrity (Nat.le_of_succ_le_succ hturns)
    refine ⟨p₂, ?_, ?_, fun j hj => ?_⟩
    · rw [List.head?_cons, Pool.releaseAll, hrelease]
      exact hall
    · rw [List.reverse_cons, List.append_assoc]
      exact hintegrity'
    · rw [List.mem_cons, not_or] at hj
      rw [hothers' j hj.2, hothers j hj.1]

/-! ### Emptying a chain -/

lemma Integrity.length_le (h : Integrity p ((c, x) :: rest) free) : c.length ≤ n := by
  have hall := h.partition.length_eq
  simp only [items_cons, List.length_append, List.length_finRange] at hall
  omega

lemma withLast_integrity (h : Integrity p ((c, x) :: rest) free) (y : Fin n) :
    Integrity (withLast p c y) ((c, y) :: rest) free := by
  have hc := h.chains (c, x) List.mem_cons_self
  have hsplit : (c, x) :: rest = [(c, x)] ++ rest := rfl
  rw [hsplit] at h
  change Integrity _ ([(c, y)] ++ rest) free
  apply h.amend
  · exact List.Perm.refl _
  · intro k hk
    have hkc : k ∉ c := fun hkc => hk (by simp [hkc])
    simp only [withLast, if_neg hkc]
  · rw [next_withLast]
    exact h.freeChain
  · intro q hq
    rw [List.mem_singleton.mp hq]
    refine ⟨hc.nonempty, ?_, ?_, ?_⟩
    · rw [next_withLast]
      exact hc.chain
    · intro k hk
      simp only [withLast, if_pos hk]
    · intro k hk
      rw [withLast_kept (g := OutputBuffer.references) (fun _ _ => rfl),
        withLast_kept (g := OutputBuffer.isReferenced) (fun _ _ => rfl)]
      exact hc.owned k hk
  · exact h.used
  · intro k _
    rw [withLast_kept (g := OutputBuffer.data) (fun _ _ => rfl)]
    exact h.fits k

/-- A chain becomes two when the pointer of its first item is cleared. -/
lemma cut_integrity (h : Integrity p ((i :: c, x) :: rest) free) :
    Integrity (p.setNext i none) (([i], x) :: (remaining c x ++ rest)) free := by
  have hc := h.chains (i :: c, x) List.mem_cons_self
  have hnodup := h.nodup
  rw [items_cons, List.append_assoc, List.cons_append, List.nodup_cons] at hnodup
  have hic : i ∉ c := fun hi => hnodup.1 (by simp [hi])
  have hfree : i ∉ free := fun hi => hnodup.1 (by simp [hi])
  have hkept {β : Type} {g : OutputBuffer n → β} (hg : ∀ b q, g { b with next := q } = g b)
      (j : Fin n) : g ((p.setNext i none).buffers j) = g (p.buffers j) :=
    setNext_kept hg p i none j
  have hothers (j : Fin n) (hj : j ≠ i) : (p.setNext i none).buffers j = p.buffers j :=
    setNext_of_ne p none hj
  have hchain : Chain p.next c.head? c := by
    have hnext : p.next i = c.head? := Chain.head_eq hc.chain.2
    exact hnext ▸ hc.chain.2
  have hsplit : (i :: c, x) :: rest = [(i :: c, x)] ++ rest := rfl
  rw [hsplit] at h
  rw [← List.cons_append]
  apply h.amend
  · rw [items_cons, items_remaining, items_cons, items_nil, List.append_nil]
    rfl
  · intro j hj
    apply hothers
    rintro rfl
    exact hj (by simp)
  · rw [next_setNext]
    exact h.freeChain.update hfree _
  · intro q hq
    obtain rfl | hq := List.mem_cons.mp hq
    · refine ⟨List.cons_ne_nil _ _, ⟨rfl, ?_⟩, ?_, ?_⟩
      · rw [next_setNext, Function.update_self]
        rfl
      · intro j hj
        rw [hkept (g := OutputBuffer.last) (fun _ _ => rfl)]
        exact hc.last j (List.mem_singleton.mp hj ▸ List.mem_cons_self)
      · intro j hj
        rw [hkept (g := OutputBuffer.references) (fun _ _ => rfl),
          hkept (g := OutputBuffer.isReferenced) (fun _ _ => rfl)]
        exact hc.owned j (List.mem_singleton.mp hj ▸ List.mem_cons_self)
    · cases c with
      | nil => exact absurd hq List.not_mem_nil
      | cons k c =>
        rw [List.mem_singleton.mp hq]
        have htail : IsChain p (k :: c) x := by
          refine ⟨List.cons_ne_nil _ _, hchain, ?_, ?_⟩
          · exact fun j hj => hc.last j (List.mem_cons_of_mem _ hj)
          · exact fun j hj => hc.owned j (List.mem_cons_of_mem _ hj)
        apply htail.congr
        intro j hj
        apply hothers
        rintro rfl
        exact hic hj
  · exact h.used
  · intro j _
    rw [hkept (g := OutputBuffer.data) (fun _ _ => rfl)]
    exact h.fits j

lemma modify_comm (p : Pool n) (hij : i ≠ j) (f g : OutputBuffer n → OutputBuffer n) :
    (p.modify i f).modify j g = (p.modify j g).modify i f := by
  have hj : (p.modify i f).buffers j = p.buffers j := modify_of_ne p f hij.symm
  have hi : (p.modify j g).buffers i = p.buffers i := modify_of_ne p g hij
  have hbuffers : ((p.modify i f).modify j g).buffers = ((p.modify j g).modify i f).buffers := by
    have hleft : ((p.modify i f).modify j g).buffers =
        Function.update (p.modify i f).buffers j (g (p.buffers j)) := by
      rw [← hj]
      rfl
    have hright : ((p.modify j g).modify i f).buffers =
        Function.update (p.modify j g).buffers i (f (p.buffers i)) := by
      rw [← hi]
      rfl
    rw [hleft, hright]
    exact Function.update_comm hij _ _ _
  exact congrArg (fun b => { p with buffers := b }) hbuffers

lemma release_of_ne (p : Pool n) (hij : i ≠ j) : (p.release j).2.buffers i = p.buffers i := by
  rw [Pool.release]
  dsimp only
  split
  · exact modify_of_ne p (fun b => { b with references := b.references - 1, bytesRead := 0 }) hij
  · exact prepend_of_ne p hij

/-- The pointer to the items that are released plays no part in it. -/
lemma release_setNext (p : Pool n) (hij : i ≠ j) (q : Option (Fin n)) :
    (p.setNext i q).release j = ((p.release j).1, (p.release j).2.setNext i q) := by
  have hj : (p.setNext i q).buffers j = p.buffers j := setNext_of_ne p q hij.symm
  have hnext : (p.setNext i q).next j = p.next j := congrArg OutputBuffer.next hj
  rw [Pool.release, Pool.release, hj, hnext]
  split
  · congr 1
    exact modify_comm p hij _ _
  · congr 1
    have hcomm : (p.setNext i q).setNext j p.freeOutputBuffers =
        (p.setNext j p.freeOutputBuffers).setNext i q := modify_comm p hij _ _
    exact congrArg (fun r : Pool n => { r with
      freeOutputBuffers := some j
      usedOutputBuffers := p.usedOutputBuffers - 1 }) hcomm

lemma releaseAll_setNext {turns : ℕ} {b : Option (Fin n)} (h : Chain p.next b c) (hi : i ∉ c)
    (q : Option (Fin n)) :
    Pool.releaseAll turns b (p.setNext i q) =
      (Pool.releaseAll turns b p).map fun p => p.setNext i q := by
  induction c generalizing p b turns with
  | nil =>
    rw [show b = none from h]
    cases turns <;> rfl
  | cons k c ih =>
    rw [h.1]
    cases turns with
    | zero => rfl
    | succ turns =>
      rw [List.mem_cons, not_or] at hi
      rw [Pool.releaseAll, Pool.releaseAll, release_setNext p hi.1]
      have hk : k ∉ c := (List.nodup_cons.mp h.nodup).1
      apply ih _ hi.2
      have hnext : (p.release k).1 = p.next k := by
        rw [Pool.release]
        split <;> rfl
      rw [hnext]
      apply h.2.congr
      intro j hj
      have hne : j ≠ k := by
        rintro rfl
        exact hk hj
      exact congrArg OutputBuffer.next (release_of_ne p hne)

lemma clear_spec (h : Integrity p ((c, x) :: rest) free) (hx : c.getLast? = some x)
    (hi : c.head? = some i) :
    ∃ free' p', p.clear i = some p' ∧ Integrity p' (([i], i) :: rest) free' := by
  obtain ⟨c, rfl⟩ := List.head?_eq_some_iff.mp hi
  have hchain := (h.chains (i :: c, x) List.mem_cons_self).chain
  let f (b : OutputBuffer n) : OutputBuffer n := { b with data := [] }
  have hf : KeepsLinks f := ⟨fun _ => rfl, fun _ => rfl, fun _ => rfl, fun _ => rfl⟩
  cases c with
  | nil =>
    obtain rfl : i = x := Option.some.inj hx
    have hnext : p.next i = none := hchain.2
    rw [Pool.clear, hnext]
    exact ⟨free, _, rfl, h.modify hf (Nat.zero_le _)⟩
  | cons k c =>
    have hnext : p.next i = some k := hchain.2.1
    have hlength := h.length_le
    rw [List.length_cons, List.length_cons] at hlength
    have hcut : Integrity (p.setNext i none) (remaining (k :: c) x ++ ([i], x) :: rest) free :=
      (cut_integrity h).perm List.perm_middle.symm
    obtain ⟨q, hall, hintegrity, -⟩ := releaseAll_spec (c := k :: c) (x := x) hcut
      (show (k :: c).length ≤ n by rw [List.length_cons]; omega)
    have hi : i ∉ k :: c := (List.nodup_cons.mp hchain.nodup).1
    have hchain' : Chain p.next (some k) (k :: c) := hnext ▸ hchain.2
    rw [List.head?_cons, releaseAll_setNext hchain' hi] at hall
    obtain ⟨p₁, hrelease, rfl⟩ := Option.map_eq_some_iff.mp hall
    have hlast : (p₁.setNext i none).setLast i i = withLast (p₁.setNext i none) [i] i := by
      rw [← withLast_setLast]
      simp [withLast]
    rw [Pool.clear, hnext]
    simp only [hrelease, Option.map_some, hlast]
    exact ⟨_, _, rfl, (withLast_integrity hintegrity i).modify hf (Nat.zero_le _)⟩

/-! ### Truncating a chain -/

lemma lastItems_spec {turns : ℕ} (h : Chain p.next (some j) (j :: c)) (hturns : c.length < turns) :
    ∃ l a z, i :: j :: c = l ++ [a, z] ∧ Pool.lastItems turns i j p = some (a, z) := by
  induction c generalizing i j turns with
  | nil =>
    obtain ⟨turns, rfl⟩ := Nat.exists_eq_succ_of_ne_zero (Nat.ne_of_gt hturns)
    have hnone : p.next j = none := h.2
    rw [Pool.lastItems, hnone]
    exact ⟨[], i, j, rfl, rfl⟩
  | cons k c ih =>
    obtain ⟨turns, rfl⟩ := Nat.exists_eq_succ_of_ne_zero (Nat.ne_zero_of_lt hturns)
    have hchain : Chain p.next (p.next j) (k :: c) := h.2
    have hk : p.next j = some k := hchain.head_eq
    rw [hk] at hchain
    obtain ⟨l, a, z, hsplit, hlast⟩ := ih (i := j) hchain (Nat.lt_of_succ_lt_succ hturns)
    rw [Pool.lastItems, hk, hsplit]
    exact ⟨i :: l, a, z, rfl, hlast⟩

/-- The last item of a chain is released and the pointer to it is cleared. The last pointers stay as
they were. -/
lemma dropLast_spec {l : List (Fin n)} {a z : Fin n}
    (h : Integrity p ((l ++ [a, z], x) :: rest) free) :
    ∃ p', Pool.releaseAll n (p.next a) p = some p' ∧
      Integrity (p'.setNext a none) ((l ++ [a], x) :: rest) (z :: free) := by
  have hc := h.chains (l ++ [a, z], x) List.mem_cons_self
  have hnodup := h.nodup
  rw [items_cons, List.append_assoc, List.nodup_append] at hnodup
  have hnodupChain := hc.chain.nodup
  have haz : a ≠ z := by
    rintro rfl
    rw [List.nodup_append] at hnodupChain
    exact (List.nodup_cons.mp hnodupChain.2.1).1 (List.mem_singleton_self a)
  have hzl : z ∉ l := by
    intro hz
    rw [List.nodup_append] at hnodupChain
    exact hnodupChain.2.2 z hz z (by simp) rfl
  have hoff {k : Fin n} (hk : k ∈ l ++ [a, z]) : k ∉ free := fun hfree =>
    hnodup.2.2 k hk k (List.mem_append_right _ hfree) rfl
  have hafter : Chain p.next (some a) [a, z] := hc.chain.suffix
  have hz : p.next a = some z := hafter.2.1
  have hznone : p.next z = none := hafter.2.2
  have hreferences : ¬ (p.buffers z).references > 1 := by
    rw [(hc.owned z (by simp)).1]
    omega
  let p₁ : Pool n := { p.prepend z with usedOutputBuffers := p.usedOutputBuffers - 1 }
  have hrelease : p.release z = (none, p₁) := by
    rw [Pool.release, if_neg hreferences, hznone]
  have hnext : (p₁.setNext a none).next =
      Function.update (Function.update p.next z p.freeOutputBuffers) a none := by
    rw [next_setNext]
    exact congrArg (fun f => Function.update f a none) (next_setNext p z _)
  have hkept {β : Type} {g : OutputBuffer n → β} (hg : ∀ b q, g { b with next := q } = g b)
      (k : Fin n) : g ((p₁.setNext a none).buffers k) = g (p.buffers k) :=
    (setNext_kept hg p₁ a none k).trans (prepend_kept hg p z k)
  have hall (turns : ℕ) (hturns : 0 < turns) : Pool.releaseAll turns (some z) p = some p₁ := by
    obtain ⟨turns, rfl⟩ := Nat.exists_eq_succ_of_ne_zero (Nat.ne_of_gt hturns)
    rw [Pool.releaseAll, hrelease]
    cases turns <;> rfl
  refine ⟨p₁, ?_, ?_⟩
  · rw [hz]
    exact hall n (Fin.pos z)
  · have hsplit : (l ++ [a, z], x) :: rest = [(l ++ [a, z], x)] ++ rest := rfl
    rw [hsplit] at h
    change Integrity _ ([(l ++ [a], x)] ++ rest) (z :: free)
    apply h.amend
    · simp
    · intro k hk
      have hka : k ≠ a := by
        rintro rfl
        exact hk (by simp)
      have hkz : k ≠ z := by
        rintro rfl
        exact hk (by simp)
      exact (setNext_of_ne p₁ none hka).trans (prepend_of_ne p hkz)
    · refine ⟨rfl, ?_⟩
      rw [hnext, Function.update_of_ne haz.symm, Function.update_self]
      exact (h.freeChain.update (hoff (by simp)) _).update (hoff (by simp)) _
    · intro q hq
      rw [List.mem_singleton.mp hq]
      refine ⟨List.append_ne_nil_of_right_ne_nil l (List.cons_ne_nil _ _), ?_, ?_, ?_⟩
      · have hhead : (l ++ [a, z]).head? = (l ++ [a]).head? := by
          cases l <;> rfl
        have hcut := hc.chain
        rw [hhead] at hcut
        have hcut : Chain _ (l ++ [a]).head? (l ++ [a]) := hcut.cut
        have hz' : z ∉ l ++ [a] := by
          simp [hzl, haz.symm]
        rw [hnext, Function.update_comm haz.symm]
        exact hcut.update hz' _
      · intro k hk
        rw [hkept (g := OutputBuffer.last) (fun _ _ => rfl)]
        apply hc.last
        obtain hk | hk := List.mem_append.mp hk
        · exact List.mem_append_left _ hk
        · exact List.mem_append_right _ (List.mem_singleton.mp hk ▸ List.mem_cons_self)
      · intro k hk
        rw [hkept (g := OutputBuffer.references) (fun _ _ => rfl),
          hkept (g := OutputBuffer.isReferenced) (fun _ _ => rfl)]
        apply hc.owned
        obtain hk | hk := List.mem_append.mp hk
        · exact List.mem_append_left _ hk
        · exact List.mem_append_right _ (List.mem_singleton.mp hk ▸ List.mem_cons_self)
    · have hused := h.used
      have hlength := h.partition.length_eq
      simp only [items_append, items_cons, List.length_append, List.length_cons,
        List.length_finRange] at hlength
      change p.usedOutputBuffers - 1 + (free.length + 1) = n
      omega
    · intro k _
      rw [hkept (g := OutputBuffer.data) (fun _ _ => rfl)]
      exact h.fits k

lemma truncateLoop_spec {l : List (Fin n)} {turns : ℕ} (bytesNeeded releasedBytes : ℕ)
    (h : Integrity p ((i :: j :: l, x) :: rest) free) (hturns : l.length < turns) :
    ∃ released a c free' p',
      Pool.truncateLoop i bytesNeeded turns releasedBytes p = some (released, a, p') ∧
      Integrity p' ((c, x) :: rest) free' ∧ c.head? = some i ∧ c.getLast? = some a := by
  induction turns generalizing p l j free releasedBytes with
  | zero => exact absurd hturns (Nat.not_lt_zero _)
  | succ turns ih =>
    have hchain := (h.chains (i :: j :: l, x) List.mem_cons_self).chain
    have hnext : p.next i = some j := hchain.2.1
    have hlast : Chain p.next (some j) (j :: l) := hnext ▸ hchain.2
    have hlength := h.length_le
    rw [List.length_cons, List.length_cons] at hlength
    obtain ⟨b, a, z, hsplit, hitems⟩ := lastItems_spec (i := i) hlast
      (show l.length < n by omega)
    rw [hsplit] at h
    obtain ⟨p₁, hrelease, hcut⟩ := dropLast_spec h
    rw [Pool.truncateLoop, hnext]
    simp only [Option.bind_eq_bind, Option.bind_some, hitems, hrelease]
    split
    · next hmore =>
      -- The chain that is left has two items at least.
      obtain ⟨k, l', hkept⟩ : ∃ k l', b ++ [a] = i :: k :: l' := by
        cases b with
        | nil =>
          obtain ⟨rfl, -⟩ := List.cons.inj hsplit
          exact absurd rfl hmore.1
        | cons k b =>
          obtain ⟨rfl, hrest⟩ := List.cons.inj hsplit
          cases b with
          | nil => exact ⟨a, [], rfl⟩
          | cons k' b => exact ⟨k', b ++ [a], rfl⟩
      have hshorter : l'.length < turns := by
        have hlong := congrArg List.length hsplit
        have hshort := congrArg List.length hkept
        simp only [List.length_append, List.length_cons, List.length_nil] at hlong hshort
        omega
      rw [hkept] at hcut
      exact ih _ hcut hshorter
    · refine ⟨_, a, b ++ [a], z :: free, _, rfl, hcut, ?_, List.getLast?_concat⟩
      cases b with
      | nil =>
        obtain ⟨rfl, -⟩ := List.cons.inj hsplit
        rfl
      | cons k b =>
        obtain ⟨rfl, -⟩ := List.cons.inj hsplit
        rfl

lemma truncate_spec (h : Integrity p ((c, x) :: rest) free) (hx : c.getLast? = some x)
    (hi : c.head? = some i) (bytesNeeded : ℕ) :
    ∃ released c' x' free' p', p.truncate (some i) bytesNeeded = some (released, p') ∧
      Integrity p' ((c', x') :: rest) free' ∧ c'.getLast? = some x' ∧ c'.head? = some i := by
  rw [Pool.truncate]
  split
  · exact ⟨0, c, x, free, p, rfl, h, hx, hi⟩
  · next hlong =>
    rw [not_or] at hlong
    obtain ⟨l, rfl⟩ := List.head?_eq_some_iff.mp hi
    have hchain := (h.chains (i :: l, x) List.mem_cons_self).chain
    cases l with
    | nil => exact absurd hchain.2 hlong.1
    | cons j l =>
      have hlength := h.length_le
      rw [List.length_cons, List.length_cons] at hlength
      obtain ⟨released, a, c, free', p₁, hloop, hintegrity, hhead, hlast⟩ :=
        truncateLoop_spec bytesNeeded 0 h (show l.length < n by omega)
      obtain ⟨c, rfl⟩ := List.head?_eq_some_iff.mp hhead
      have hleft : Chain p₁.next (some i) (i :: c ++ []) := by
        rw [List.append_nil]
        exact (hintegrity.chains _ List.mem_cons_self).chain
      have hlength := hintegrity.length_le
      rw [List.length_cons] at hlength
      have hupdate : Pool.updateLast a none n i p₁ = some (withLast p₁ (i :: c) a) :=
        updateLast_eq hleft rfl (by omega) a
      simp only [hloop, Option.bind_eq_bind, Option.bind_some, hupdate]
      exact ⟨released, i :: c, a, free', _, rfl, withLast_integrity hintegrity a, hlast, rfl⟩

/-! ### Writing to a chain -/

/-- What the items of a chain hold. -/
def text (p : Pool n) (c : List (Fin n)) : List Char := c.flatMap fun i => (p.buffers i).data

lemma text_congr (h : ∀ i ∈ c, (p'.buffers i).data = (p.buffers i).data) :
    text p' c = text p c := by
  rw [text, text]
  exact List.flatMap_congr h

/-- What a loop of `cat` leaves: as much of the text is copied as there are bytes left. -/
def Copied (reserved : ℕ) (i : Fin n) (src : List Char) (copied : ℕ) (p : Pool n)
    (c : List (Fin n)) (rest : List (List (Fin n) × Fin n)) (r : Option (ℕ × Pool n)) : Prop :=
  ∃ c' x' free' p', r = some (copied + min src.length (p.getBytesLeft reserved i), p') ∧
    Integrity p' ((c', x') :: rest) free' ∧ c'.getLast? = some x' ∧ c'.head? = some i ∧
    text p' c' = text p c ++ src.take (p.getBytesLeft reserved i) ∧
    ∀ j ∈ items rest, (p'.buffers j).data = (p.buffers j).data

variable {reserved copied : ℕ} {src : List Char} {r : Option (ℕ × Pool n)}

lemma getBytesLeft_eq (hlast : (p.buffers i).last = x) :
    p.getBytesLeft reserved i = outputBufferSize - (p.buffers x).data.length +
      (n - p.usedOutputBuffers - reserved) * outputBufferSize := by
  rw [Pool.getBytesLeft, hlast]
  split
  · next hfew =>
    rw [Nat.sub_eq_zero_of_le hfew.le, Nat.zero_mul, Nat.add_zero]
  · rfl

/-- Characters behind those of a buffer. -/
def write (p : Pool n) (x : Fin n) (s : List Char) : Pool n :=
  p.modify x fun b => { b with data := b.data ++ s }

lemma keepsLinks_write (s : List Char) :
    KeepsLinks fun b : OutputBuffer n => { b with data := b.data ++ s } :=
  ⟨fun _ => rfl, fun _ => rfl, fun _ => rfl, fun _ => rfl⟩

lemma text_write (hx : c.getLast? = some x) (hnodup : c.Nodup) (s : List Char) :
    text (write p x s) c = text p c ++ s := by
  obtain ⟨l, rfl⟩ : ∃ l, c = l ++ [x] := List.getLast?_eq_some_iff.mp hx
  have hl : text (write p x s) l = text p l := by
    apply text_congr
    intro j hj
    have hne : j ≠ x := by
      rintro rfl
      exact (List.nodup_append.mp hnodup).2.2 j hj j (List.mem_singleton_self j) rfl
    exact congrArg OutputBuffer.data (modify_of_ne p _ hne)
  have hx' : ((write p x s).buffers x).data = (p.buffers x).data ++ s :=
    congrArg OutputBuffer.data (modify_self p x _)
  rw [text, List.flatMap_append, text, List.flatMap_append]
  change text (write p x s) l ++ _ = text p l ++ _ ++ s
  rw [hl, List.flatMap_singleton, hx', List.flatMap_singleton, List.append_assoc]

/-- Some characters are copied to the last item, and then the rest. -/
lemma Copied.write (h : Integrity p ((c, x) :: rest) free) (hx : c.getLast? = some x)
    (hi : c.head? = some i) {k : ℕ} (hk : k ≤ src.length)
    (hroom : k ≤ outputBufferSize - (p.buffers x).data.length)
    (hcopied : Copied reserved i (src.drop k) (copied + k) (write p x (src.take k)) c rest r) :
    Copied reserved i src copied p c rest r := by
  have hc := h.chains (c, x) List.mem_cons_self
  have hlast : (p.buffers i).last = x := hc.last i (List.mem_of_mem_head? hi)
  have hlast' : ((OutputPool.write p x (src.take k)).buffers i).last = x :=
    ((sameShape_modify (keepsLinks_write _) p x).last i).trans hlast
  have hdata : ((OutputPool.write p x (src.take k)).buffers x).data =
      (p.buffers x).data ++ src.take k :=
    congrArg OutputBuffer.data (modify_self p x _)
  have hleft : (OutputPool.write p x (src.take k)).getBytesLeft reserved i =
      p.getBytesLeft reserved i - k := by
    rw [getBytesLeft_eq hlast, getBytesLeft_eq hlast', hdata, List.length_append,
      List.length_take_of_le hk]
    change _ + (n - p.usedOutputBuffers - reserved) * _ = _
    omega
  have hle : k ≤ p.getBytesLeft reserved i := by
    rw [getBytesLeft_eq hlast]
    exact hroom.trans (Nat.le_add_right _ _)
  obtain ⟨c', x', free', p', hr, hintegrity, hx', hi', htext, hothers⟩ := hcopied
  rw [hleft] at hr htext
  refine ⟨c', x', free', p', ?_, hintegrity, hx', hi', ?_, fun j hj => ?_⟩
  · rw [hr, List.length_drop]
    congr 2
    omega
  · rw [htext, text_write hx hc.chain.nodup, List.append_assoc]
    congr 1
    rw [← List.take_add, Nat.add_sub_cancel' hle]
  · rw [hothers j hj]
    have hne : j ≠ x := by
      rintro rfl
      have hnodup := h.nodup
      rw [items_cons, List.append_assoc, List.nodup_append] at hnodup
      exact hnodup.2.2 j (List.mem_of_getLast? hx) j (List.mem_append_left _ hj) rfl
    exact congrArg OutputBuffer.data (modify_of_ne p _ hne)

lemma modify_eq_self {f : OutputBuffer n → OutputBuffer n} (h : f (p.buffers i) = p.buffers i) :
    p.modify i f = p := by
  rw [Pool.modify, h, Function.update_eq_self]

/-- A new buffer for a chain that is full: it already has the references of the chain. -/
lemma allocate_for {f : Fin n} (h : Integrity p ((c, x) :: rest) (f :: free))
    (hi : c.head? = some i) (hroom : n - p.usedOutputBuffers > reserved) :
    ∃ p', p.allocate reserved false = (some f, p') ∧
      (p'.modify f fun b => { b with references := (p'.buffers i).references }) = p' ∧
      Integrity p' ((c, x) :: ([f], f) :: rest) free ∧ (∀ j ≠ f, p'.buffers j = p.buffers j) ∧
      (p'.buffers f).data = [] ∧ p'.usedOutputBuffers = p.usedOutputBuffers + 1 := by
  obtain ⟨p', hallocate, hintegrity, hothers, hdata, hused⟩ := allocate_spec h (Or.inr hroom)
  have hswapped := hintegrity.perm (List.Perm.swap (c, x) ([f], f) rest)
  refine ⟨p', hallocate, modify_eq_self ?_, hswapped, hothers, hdata, hused⟩
  have hi' : (p'.buffers i).references = 1 :=
    ((hswapped.chains (c, x) List.mem_cons_self).owned i (List.mem_of_mem_head? hi)).1
  have hf : (p'.buffers f).references = 1 :=
    ((hintegrity.chains ([f], f) List.mem_cons_self).owned f (List.mem_singleton_self f)).1
  rw [hi', ← hf]

lemma Copied.nothing (h : Integrity p ((c, x) :: rest) free) (hx : c.getLast? = some x)
    (hi : c.head? = some i) : Copied reserved i [] copied p c rest (some (copied, p)) := by
  refine ⟨c, x, free, p, ?_, h, hx, hi, ?_, fun _ _ => rfl⟩
  · rw [List.length_nil, Nat.zero_min, Nat.add_zero]
  · rw [List.take_nil, List.append_nil]

/-- There is no room and no buffer to be had. -/
lemma Copied.full (h : Integrity p ((c, x) :: rest) free) (hx : c.getLast? = some x)
    (hi : c.head? = some i) (hfull : (p.buffers x).data.length = outputBufferSize)
    (hroom : ¬ n - p.usedOutputBuffers > reserved) :
    Copied reserved i src copied p c rest
      (some (copied, p.modify i fun b => { b with hadOverflow := true })) := by
  have hc := h.chains (c, x) List.mem_cons_self
  have hlast : (p.buffers i).last = x := hc.last i (List.mem_of_mem_head? hi)
  have hleft : p.getBytesLeft reserved i = 0 := by
    rw [getBytesLeft_eq hlast, hfull, Nat.sub_self, Nat.sub_eq_zero_of_le (Nat.le_of_not_lt hroom),
      Nat.zero_mul]
  have hdata (j : Fin n) : ((p.modify i fun b => { b with hadOverflow := true }).buffers j).data =
      (p.buffers j).data :=
    modify_kept (f := fun b => { b with hadOverflow := true }) (g := OutputBuffer.data)
      (fun _ => rfl) p i j
  refine ⟨c, x, free, _, ?_, h.modify ?_ (h.fits i), hx, hi, ?_, fun j _ => hdata j⟩
  · rw [hleft, Nat.min_zero, Nat.add_zero]
  · exact ⟨fun _ => rfl, fun _ => rfl, fun _ => rfl, fun _ => rfl⟩
  · rw [hleft, List.take_zero, List.append_nil]
    exact text_congr fun j _ => hdata j

/-- A full chain gets another buffer. -/
lemma Copied.grow {f : Fin n} {p₁ : Pool n} (h : Integrity p₁ ((c, x) :: ([f], f) :: rest) free)
    (hi : c.head? = some i) (hlast : (p.buffers i).last = x)
    (hfull : (p.buffers x).data.length = outputBufferSize)
    (hroom : n - p.usedOutputBuffers > reserved) (hothers : ∀ j ≠ f, p₁.buffers j = p.buffers j)
    (hdata : (p₁.buffers f).data = []) (hused : p₁.usedOutputBuffers = p.usedOutputBuffers + 1)
    (hcopied : Copied reserved i src copied (joined p₁ c x (some f) f) (c ++ [f]) rest r) :
    Copied reserved i src copied p c rest r := by
  have hkept (j : Fin n) : ((joined p₁ c x (some f) f).buffers j).data = (p₁.buffers j).data :=
    joined_kept (g := OutputBuffer.data) (fun _ _ => rfl) (fun _ _ => rfl) p₁ c x (some f) f j
  have hlast' : ((joined p₁ c x (some f) f).buffers i).last = f := by
    simp only [joined, withLast, if_pos (List.mem_of_mem_head? hi)]
  have hleft : (joined p₁ c x (some f) f).getBytesLeft reserved i = p.getBytesLeft reserved i := by
    have hused' : (joined p₁ c x (some f) f).usedOutputBuffers = p.usedOutputBuffers + 1 := hused
    have hone : n - p.usedOutputBuffers - reserved =
        n - (p.usedOutputBuffers + 1) - reserved + 1 := by
      omega
    rw [getBytesLeft_eq hlast, getBytesLeft_eq hlast', hkept, hdata, hfull, hused', hone,
      Nat.add_mul, Nat.one_mul, Nat.sub_self, Nat.zero_add, List.length_nil, Nat.sub_zero,
      Nat.add_comm]
  have hne {j : Fin n} (hj : j ∈ c ∨ j ∈ items rest) : j ≠ f := by
    rintro rfl
    have hnodup := h.nodup
    rw [items_cons, items_cons, List.append_assoc, List.nodup_append] at hnodup
    obtain hj | hj := hj
    · exact hnodup.2.2 j hj j (by simp) rfl
    · have hinner := hnodup.2.1
      rw [List.append_assoc, List.singleton_append, List.nodup_cons] at hinner
      exact hinner.1 (List.mem_append_left _ hj)
  have htext : text (joined p₁ c x (some f) f) (c ++ [f]) = text p c := by
    have hc : text (joined p₁ c x (some f) f) c = text p c := by
      apply text_congr
      intro j hj
      rw [hkept, hothers j (hne (Or.inl hj))]
    rw [text, List.flatMap_append, List.flatMap_singleton, hkept, hdata, List.append_nil]
    exact hc
  obtain ⟨c', x', free', p', hr, hintegrity, hx', hi', htext', hothers'⟩ := hcopied
  rw [hleft] at hr htext'
  rw [htext] at htext'
  refine ⟨c', x', free', p', hr, hintegrity, hx', hi', htext', fun j hj => ?_⟩
  rw [hothers' j hj, hkept, hothers j (hne (Or.inr hj))]

lemma Copied.step {turns : ℕ} (h : Integrity p ((c, x) :: rest) free) (hx : c.getLast? = some x)
    (hi : c.head? = some i) (hspace : (p.buffers x).data.length ≠ outputBufferSize)
    (hsrc : src ≠ []) (hturns : src.length ≤ turns + 1)
    (ih : ∀ {p : Pool n} {src copied}, Integrity p ((c, x) :: rest) free → src.length ≤ turns →
      Copied reserved i src copied p c rest (p.catLoop reserved i turns src copied)) :
    let copyLength := min src.length (outputBufferSize - (p.buffers x).data.length)
    Copied reserved i src copied p c rest
      ((OutputPool.write p x (src.take copyLength)).catLoop reserved i turns (src.drop copyLength)
        (copied + copyLength)) := by
  intro copyLength
  have hfits := h.fits x
  have hpos : 0 < copyLength := lt_min (List.length_pos_iff.mpr hsrc) (by omega)
  have hroom : copyLength ≤ outputBufferSize - (p.buffers x).data.length := Nat.min_le_right _ _
  apply Copied.write h hx hi (Nat.min_le_left _ _) hroom
  apply ih
  · apply h.modify (keepsLinks_write _)
    change ((p.buffers x).data ++ src.take copyLength).length ≤ _
    rw [List.length_append, List.length_take_of_le (Nat.min_le_left _ _)]
    omega
  · rw [List.length_drop]
    omega

lemma catLoop_spec {turns : ℕ} (h : Integrity p ((c, x) :: rest) free) (hx : c.getLast? = some x)
    (hi : c.head? = some i) (hturns : src.length ≤ turns) :
    Copied reserved i src copied p c rest (p.catLoop reserved i turns src copied) := by
  induction turns generalizing p c x free src copied with
  | zero =>
    rw [List.length_eq_zero_iff.mp (Nat.le_zero.mp hturns)]
    exact Copied.nothing h hx hi
  | succ turns ih =>
    cases src with
    | nil => exact Copied.nothing h hx hi
    | cons a src =>
      have hlast : (p.buffers i).last = x :=
        (h.chains (c, x) List.mem_cons_self).last i (List.mem_of_mem_head? hi)
      rw [Pool.catLoop, hlast]
      swap
      · exact List.cons_ne_nil a src
      by_cases hfull : (p.buffers x).data.length = outputBufferSize
      · by_cases hroom : n - p.usedOutputBuffers > reserved
        · have hused := h.used
          obtain ⟨f, free, rfl⟩ : ∃ f l, free = f :: l :=
            List.exists_cons_of_length_pos (by omega)
          obtain ⟨p₁, hallocate, hsame, hintegrity, hothers, hdata, hused'⟩ :=
            allocate_for h hi hroom
          obtain ⟨hextend, hjoined⟩ := extend_spec hintegrity hx hi
          have hhead : (c ++ [f]).head? = some i := by
            rw [List.head?_append, hi]
            rfl
          have hlast' : ((joined p₁ c x (some f) f).buffers i).last = f := by
            simp only [joined, withLast, if_pos (List.mem_of_mem_head? hi)]
          have hempty : ((joined p₁ c x (some f) f).buffers f).data = [] :=
            (joined_kept (g := OutputBuffer.data) (fun _ _ => rfl) (fun _ _ => rfl) p₁ c x (some f)
              f f).trans hdata
          simp only [if_pos hfull, hallocate, hsame, hextend, Option.map_some, hlast']
          apply Copied.grow hintegrity hi hlast hfull hroom hothers hdata hused'
          apply Copied.step hjoined List.getLast?_concat hhead
          · rw [hempty]
            decide
          · exact List.cons_ne_nil _ _
          · exact hturns
          · exact fun h hturns => ih h List.getLast?_concat hhead hturns
        · simp only [if_pos hfull, allocate_full hroom]
          exact Copied.full h hx hi hfull hroom
      · simp only [if_neg hfull, hlast]
        exact Copied.step h hx hi hfull (List.cons_ne_nil _ _) hturns fun h hturns =>
          ih h hx hi hturns

lemma modify_congr {f g : OutputBuffer n → OutputBuffer n} (h : f (p.buffers i) = g (p.buffers i)) :
    p.modify i f = p.modify i g := by
  rw [Pool.modify, h]
  rfl

/-- A character is copied to a buffer that has just been allocated. -/
lemma copy_fresh {f : Fin n} (hnext : p.next f = none) (hdata : (p.buffers f).data = [])
    (a : Char) : p.copy f a = some (OutputPool.write p f [a]) := by
  have hempty : (p.modify f fun b => { b with data := [] }) = p := by
    apply modify_eq_self
    rw [← hdata]
  rw [Pool.copy, Pool.clear, hnext]
  dsimp only
  rw [Option.map_some, hempty, Option.map_some]
  congr 1
  apply modify_congr
  rw [hdata]
  rfl

lemma joined_write (p : Pool n) (c : List (Fin n)) (x f y : Fin n) (d : Option (Fin n))
    (s : List Char) :
    joined (OutputPool.write p f s) c x d y = OutputPool.write (joined p c x d y) f s := by
  have hbuffers (j : Fin n) : (joined (OutputPool.write p f s) c x d y).buffers j =
      (OutputPool.write (joined p c x d y) f s).buffers j := by
    simp only [joined, withLast, OutputPool.write, Pool.setNext, Pool.modify, Function.update_apply]
    by_cases hf : j = f
    · subst hf
      by_cases hx : j = x
      · subst hx
        by_cases hc : j ∈ c <;> simp [hc]
      · by_cases hc : j ∈ c <;> simp [hc, hx]
    · by_cases hx : j = x
      · subst hx
        by_cases hc : j ∈ c <;> simp [hc, hf]
      · by_cases hc : j ∈ c <;> simp [hc, hx, hf]
  exact congrArg (fun b => { p with buffers := b }) (funext hbuffers)

lemma catChar_spec (h : Integrity p ((c, x) :: rest) free) (hx : c.getLast? = some x)
    (hi : c.head? = some i) (a : Char) :
    Copied reserved i [a] 0 p c rest (p.catChar reserved i a) := by
  have hlast : (p.buffers i).last = x :=
    (h.chains (c, x) List.mem_cons_self).last i (List.mem_of_mem_head? hi)
  -- The character is written to the last item, which has room for it.
  have hwrite {p : Pool n} {c : List (Fin n)} {x : Fin n} {free : List (Fin n)}
      (h : Integrity p ((c, x) :: rest) free) (hx : c.getLast? = some x) (hi : c.head? = some i)
      (hroom : 1 ≤ outputBufferSize - (p.buffers x).data.length) :
      Copied reserved i [a] 0 p c rest (some (1, OutputPool.write p x [a])) := by
    apply Copied.write h hx hi (k := 1) le_rfl hroom
    have hwritten : Integrity (OutputPool.write p x [a]) ((c, x) :: rest) free := by
      apply h.modify (keepsLinks_write _)
      change ((p.buffers x).data ++ [a]).length ≤ _
      rw [List.length_append, List.length_singleton]
      omega
    exact Copied.nothing hwritten hx hi
  rw [Pool.catChar, hlast]
  by_cases hfull : (p.buffers x).data.length = outputBufferSize
  · by_cases hroom : n - p.usedOutputBuffers > reserved
    · have hused := h.used
      obtain ⟨f, free, rfl⟩ : ∃ f l, free = f :: l :=
        List.exists_cons_of_length_pos (by omega)
      obtain ⟨p₁, hallocate, hsame, hintegrity, hothers, hdata, hused'⟩ := allocate_for h hi hroom
      have hf := (hintegrity.chains ([f], f) (List.mem_cons_of_mem _ List.mem_cons_self)).chain
      have hwritten : Integrity (OutputPool.write p₁ f [a]) ((c, x) :: ([f], f) :: rest) free := by
        apply hintegrity.modify (keepsLinks_write _)
        change ((p₁.buffers f).data ++ [a]).length ≤ _
        rw [hdata, List.nil_append, List.length_singleton]
        decide
      obtain ⟨hextend, -⟩ := extend_spec hwritten hx hi
      obtain ⟨-, hjoined⟩ := extend_spec hintegrity hx hi
      have hhead : (c ++ [f]).head? = some i := by
        rw [List.head?_append, hi]
        rfl
      have hempty : ((joined p₁ c x (some f) f).buffers f).data = [] :=
        (joined_kept (g := OutputBuffer.data) (fun _ _ => rfl) (fun _ _ => rfl) p₁ c x (some f)
          f f).trans hdata
      rw [if_pos hfull, hallocate]
      simp only [hsame, copy_fresh hf.2 hdata, Option.bind_eq_bind, Option.bind_some, hextend,
        joined_write]
      apply Copied.grow hintegrity hi hlast hfull hroom hothers hdata hused'
      apply hwrite hjoined List.getLast?_concat hhead
      rw [hempty]
      decide
    · simp only [if_pos hfull, allocate_full hroom]
      exact Copied.full h hx hi hfull hroom
  · rw [if_neg hfull]
    apply hwrite h hx hi
    have hfits := h.fits x
    omega

lemma cat_spec (reserved : ℕ) (src : List Char) (h : Integrity p ((c, x) :: rest) free)
    (hx : c.getLast? = some x) (hi : c.head? = some i) :
    Copied reserved i src 0 p c rest (p.cat reserved i src) :=
  catLoop_spec h hx hi le_rfl

end Operations

/-! ### Every run -/

section Run

variable {s s' : System n} {cs rest : List (List (Fin n) × Fin n)} {c d free : List (Fin n)}
  {x y this other : Fin n} {reserved : ℕ}

/-- The chains of the pool are those that are held, and their last pointers are right. -/
structure Inv (s : System n) (cs : List (List (Fin n) × Fin n)) (free : List (Fin n)) : Prop where
  integrity : Integrity s.pool cs free
  last : ∀ q ∈ cs, q.1.getLast? = some q.2
  held : (cs.map fun q => q.1.head?).Perm (s.held.map some)

lemma Inv.perm {cs' : List (List (Fin n) × Fin n)} (h : Inv s cs free) (hcs : cs.Perm cs') :
    Inv s cs' free where
  integrity := h.integrity.perm hcs
  last := fun q hq => h.last q (hcs.mem_iff.mpr hq)
  held := (hcs.map _).symm.trans h.held

/-- A held pointer is the head of a chain. -/
lemma Inv.exists_chain (h : Inv s cs free) (hthis : this ∈ s.held) :
    ∃ c x rest, Inv s ((c, x) :: rest) free ∧ c.head? = some this ∧ c.getLast? = some x ∧
      (rest.map fun q => q.1.head?).Perm ((s.held.erase this).map some) := by
  have hmem : some this ∈ cs.map fun q => q.1.head? :=
    h.held.mem_iff.mpr (List.mem_map_of_mem hthis)
  obtain ⟨q, hq, hhead⟩ := List.mem_map.mp hmem
  obtain ⟨before, after, rfl⟩ := List.append_of_mem hq
  have hfirst := h.perm List.perm_middle
  refine ⟨q.1, q.2, before ++ after, hfirst, hhead, h.last q hq, ?_⟩
  have hheld := hfirst.held
  rw [List.map_cons, hhead] at hheld
  have herase := (List.perm_cons_erase hthis).map some
  rw [List.map_cons] at herase
  exact (hheld.trans herase).cons_inv

/-- A chain is changed and its head stays. -/
lemma Inv.change {p : Pool n} {c' free' : List (Fin n)} {x' : Fin n} {held : List (Fin n)}
    (h : Inv s ((c, x) :: rest) free) (hthis : c.head? = some this)
    (hintegrity : Integrity p ((c', x') :: rest) free') (hx : c'.getLast? = some x')
    (hhead : c'.head? = some this) (hheld : held = s.held) :
    Inv ⟨p, held⟩ ((c', x') :: rest) free' where
  integrity := hintegrity
  last := by
    intro q hq
    obtain rfl | hq := List.mem_cons.mp hq
    · exact hx
    · exact h.last q (List.mem_cons_of_mem _ hq)
  held := by
    have hheld' := h.held
    rw [List.map_cons, hthis] at hheld'
    rw [List.map_cons, hhead, hheld]
    exact hheld'

lemma inv_start : Inv (start n) [] (List.finRange n).reverse where
  integrity := init_integrity
  last := List.forall_mem_nil _
  held := List.Perm.refl _

lemma inv_allocate (h : Inv s cs free) (allowReserved : Bool) :
    ∃ s' cs' free', perform reserved s (.allocate allowReserved) = some s' ∧ Inv s' cs' free' := by
  have hused := h.integrity.used
  rw [perform]
  cases free with
  | nil =>
    have hnone : s.pool.freeOutputBuffers = none := h.integrity.freeChain
    have hallocate : s.pool.allocate reserved allowReserved = (none, s.pool) := by
      rw [Pool.allocate, hnone]
    rw [hallocate]
    exact ⟨s, cs, [], rfl, h⟩
  | cons i free =>
    by_cases hroom : allowReserved ∨ n - s.pool.usedOutputBuffers > reserved
    · obtain ⟨p, hallocate, hintegrity, -⟩ := allocate_spec h.integrity hroom
      rw [hallocate]
      refine ⟨_, _, _, rfl, hintegrity, ?_, ?_⟩
      · intro q hq
        obtain rfl | hq := List.mem_cons.mp hq
        · rfl
        · exact h.last q hq
      · exact h.held.cons (some i)
    · have hfirst : s.pool.freeOutputBuffers = some i := h.integrity.freeChain.1
      have hallocate : s.pool.allocate reserved allowReserved = (none, s.pool) := by
        rw [Pool.allocate, hfirst]
        exact if_neg hroom
      rw [hallocate]
      exact ⟨s, cs, _, rfl, h⟩

lemma Copied.inv {src : List Char} {r : Option (ℕ × Pool n)} (h : Inv s ((c, x) :: rest) free)
    (hthis : c.head? = some this) (hcopied : Copied reserved this src 0 s.pool c rest r) :
    ∃ s' cs' free', (r.map fun r => (⟨r.2, s.held⟩ : System n)) = some s' ∧ Inv s' cs' free' := by
  obtain ⟨c', x', free', p', rfl, hintegrity, hx, hhead, -⟩ := hcopied
  exact ⟨_, _, _, rfl, h.change hthis hintegrity hx hhead rfl⟩

lemma inv_append (h : Inv s cs free) (hthis : this ∈ s.held) (hother : other ∈ s.held)
    (hne : other ≠ this) :
    ∃ s' cs' free', perform reserved s (.append this (some other)) = some s' ∧
      Inv s' cs' free' := by
  obtain ⟨d, y, rest, hinv, hd, hy, hheld⟩ := h.exists_chain hother
  have hmem : some this ∈ rest.map fun q => q.1.head? :=
    hheld.mem_iff.mpr (List.mem_map_of_mem ((List.mem_erase_of_ne hne.symm).mpr hthis))
  obtain ⟨q, hq, hhead⟩ := List.mem_map.mp hmem
  obtain ⟨before, after, rfl⟩ := List.append_of_mem hq
  have hlast := hinv.last q (List.mem_cons_of_mem _ hq)
  have hfirst := hinv.perm ((List.Perm.cons _ List.perm_middle).trans (List.Perm.swap _ _ _))
  obtain ⟨p, happend, hintegrity⟩ := append_spec hfirst.integrity hlast hhead hd
  rw [perform, happend]
  refine ⟨_, _, _, rfl, hintegrity, ?_, ?_⟩
  · intro r hr
    obtain rfl | hr := List.mem_cons.mp hr
    · rw [List.getLast?_append, hy]
      rfl
    · exact hfirst.last r (List.mem_cons_of_mem _ (List.mem_cons_of_mem _ hr))
  · have hheads : (q.1 ++ d).head? = q.1.head? := by
      rw [List.head?_append, hhead]
      rfl
    have hmiddle : (before ++ q :: after).Perm (q :: (before ++ after)) := List.perm_middle
    have hmoved := hmiddle.map fun q => q.1.head?
    rw [List.map_cons, hheads]
    rw [List.map_cons] at hmoved
    exact hmoved.symm.trans hheld

lemma inv_release (h : Inv s cs free) (hthis : this ∈ s.held) :
    ∃ s' cs' free', perform reserved s (.release this) = some s' ∧ Inv s' cs' free' := by
  obtain ⟨c, x, rest, hinv, hhead, hx, hheld⟩ := h.exists_chain hthis
  obtain ⟨c, rfl⟩ := List.head?_eq_some_iff.mp hhead
  obtain ⟨p, hrelease, hintegrity, -⟩ := release_spec hinv.integrity
  rw [perform, hrelease]
  refine ⟨_, _, _, rfl, hintegrity, ?_, ?_⟩
  · intro q hq
    obtain hq | hq := List.mem_append.mp hq
    · cases c with
      | nil => exact absurd hq List.not_mem_nil
      | cons k c =>
        rw [List.mem_singleton.mp hq, ← hx]
        exact List.getLast?_cons_cons.symm
    · exact hinv.last q (List.mem_cons_of_mem _ hq)
  · cases c with
    | nil => exact hheld
    | cons k c => exact hheld.cons (some k)

lemma inv_releaseAll (h : Inv s cs free) (hthis : this ∈ s.held) :
    ∃ s' cs' free', perform reserved s (.releaseAll this) = some s' ∧ Inv s' cs' free' := by
  obtain ⟨c, x, rest, hinv, hhead, hx, hheld⟩ := h.exists_chain hthis
  have hremaining : remaining c x ++ rest = (c, x) :: rest := by
    cases c with
    | nil => exact absurd hhead (by simp)
    | cons k c => rfl
  have hintegrity := hinv.integrity
  have hlength := hintegrity.length_le
  rw [← hremaining] at hintegrity
  obtain ⟨p, hrelease, hintegrity', -⟩ := releaseAll_spec hintegrity hlength
  rw [hhead] at hrelease
  rw [perform, hrelease]
  exact ⟨_, _, _, rfl, hintegrity', fun q hq => hinv.last q (List.mem_cons_of_mem _ hq), hheld⟩

lemma inv_perform (h : Inv s cs free) {a : Action n} (ha : Allowed s a) :
    ∃ s' cs' free', perform reserved s a = some s' ∧ Inv s' cs' free' := by
  cases a with
  | allocate allowReserved => exact inv_allocate h allowReserved
  | catChar this a =>
    obtain ⟨c, x, rest, hinv, hhead, hx, -⟩ := h.exists_chain ha
    exact (catChar_spec hinv.integrity hx hhead a).inv hinv hhead
  | cat this src =>
    obtain ⟨c, x, rest, hinv, hhead, hx, -⟩ := h.exists_chain ha
    exact (cat_spec reserved src hinv.integrity hx hhead).inv hinv hhead
  | append this other =>
    cases other with
    | none => exact ⟨s, cs, free, rfl, h⟩
    | some other => exact inv_append h ha.1 (ha.2 other rfl).1 (ha.2 other rfl).2
  | release this => exact inv_release h ha
  | releaseAll this => exact inv_releaseAll h ha
  | truncate buffer bytesNeeded =>
    cases buffer with
    | none => exact ⟨s, cs, free, rfl, h⟩
    | some buffer =>
      obtain ⟨c, x, rest, hinv, hhead, hx, -⟩ := h.exists_chain (ha buffer rfl)
      obtain ⟨released, c', x', free', p, htruncate, hintegrity, hx', hhead'⟩ :=
        truncate_spec hinv.integrity hx hhead bytesNeeded
      rw [perform, htruncate]
      exact ⟨_, _, _, rfl, hinv.change hhead hintegrity hx' hhead' rfl⟩
  | clear this =>
    obtain ⟨c, x, rest, hinv, hhead, hx, -⟩ := h.exists_chain ha
    obtain ⟨free', p, hclear, hintegrity⟩ := clear_spec hinv.integrity hx hhead
    rw [perform, hclear]
    exact ⟨_, _, _, rfl, hinv.change hhead hintegrity rfl rfl rfl⟩
  | read this len =>
    have hread : KeepsLinks fun b : OutputBuffer n => { b with bytesRead := b.bytesRead + len } :=
      ⟨fun _ => rfl, fun _ => rfl, fun _ => rfl, fun _ => rfl⟩
    exact ⟨_, cs, free, rfl, h.integrity.modify hread (h.integrity.fits this), h.last, h.held⟩

lemma inv_step (reserved : ℕ) (h : Inv s cs free) (a : Action n) :
    ∃ s' cs' free', step reserved s a = some s' ∧ Inv s' cs' free' := by
  rw [step]
  split
  · next ha => exact inv_perform h ha
  · exact ⟨s, cs, free, rfl, h⟩

lemma inv_run (reserved : ℕ) (h : Inv s cs free) (actions : List (Action n)) :
    ∃ s' cs' free', actions.foldlM (step reserved) s = some s' ∧ Inv s' cs' free' := by
  induction actions generalizing s cs free with
  | nil => exact ⟨s, cs, free, rfl, h⟩
  | cons a actions ih =>
    obtain ⟨s₁, cs₁, free₁, hstep, h₁⟩ := inv_step reserved h a
    obtain ⟨s', cs', free', hrun, h'⟩ := ih h₁
    refine ⟨s', cs', free', ?_, h'⟩
    rw [List.foldlM_cons, hstep]
    exact hrun

/-- What a call of `cat` does to a chain, and to the others. -/
lemma Inv.cat (reserved : ℕ) (h : Inv s ((c, x) :: rest) free) (hthis : c.head? = some this) (src : List Char) :
    ∃ p c', s.pool.cat reserved this src =
        some (min src.length (s.pool.getBytesLeft reserved this), p) ∧
      Chain p.next (some this) c' ∧
      text p c' = text s.pool c ++
        src.take (min src.length (s.pool.getBytesLeft reserved this)) ∧
      ∀ q ∈ rest, Chain p.next q.1.head? q.1 ∧ text p q.1 = text s.pool q.1 := by
  have hx : c.getLast? = some x := h.last (c, x) List.mem_cons_self
  obtain ⟨c', x', free', p, hcat, hintegrity, -, hhead, htext, hothers⟩ :=
    cat_spec reserved src h.integrity hx hthis
  refine ⟨p, c', ?_, ?_, ?_, fun q hq => ⟨?_, ?_⟩⟩
  · rw [hcat, Nat.zero_add]
  · rw [← hhead]
    exact (hintegrity.chains (c', x') List.mem_cons_self).chain
  · rw [htext, List.take_eq_take_min, Nat.min_comm]
  · exact (hintegrity.chains q (List.mem_cons_of_mem _ hq)).chain
  · exact text_congr fun i hi => hothers i (mem_items hq hi)

/-- After every run each buffer is free or in one of the chains that are held, all last pointers
name the end of their chain, and `cat` stores as much as there are bytes left. -/
theorem pool_run (n reserved : ℕ) (actions : List (Action n)) :
    ∃ s, actions.foldlM (step reserved) (start n) = some s ∧
      ∃ (chains : List (List (Fin n))) (free : List (Fin n)),
        (chains.flatten ++ free).Perm (List.finRange n) ∧
        (chains.map List.head?).Perm (s.held.map some) ∧
        Chain s.pool.next s.pool.freeOutputBuffers free ∧
        s.pool.usedOutputBuffers + free.length = n ∧
        ∀ c ∈ chains, Chain s.pool.next c.head? c ∧
          (∀ i ∈ c, c.getLast? = some (s.pool.buffers i).last) ∧
          ∀ this ∈ c.head?, ∀ src : List Char,
            let stored := min src.length (s.pool.getBytesLeft reserved this)
            ∃ p c', s.pool.cat reserved this src = some (stored, p) ∧
              Chain p.next (some this) c' ∧ text p c' = text s.pool c ++ src.take stored ∧
              ∀ d ∈ chains, d ≠ c → Chain p.next d.head? d ∧ text p d = text s.pool d := by
  obtain ⟨s, cs, free, hrun, h⟩ := inv_run reserved (inv_start (n := n)) actions
  refine ⟨s, hrun, cs.map Prod.fst, free, h.integrity.partition, ?_, h.integrity.freeChain,
    h.integrity.used, ?_⟩
  · rw [List.map_map]
    exact h.held
  · intro c hc
    obtain ⟨q, hq, rfl⟩ := List.mem_map.mp hc
    have hchain := h.integrity.chains q hq
    refine ⟨hchain.chain, fun i hi => ?_, ?_⟩
    · rw [h.last q hq, hchain.last i hi]
    · intro this hthis src
      obtain ⟨before, after, rfl⟩ := List.append_of_mem hq
      obtain ⟨p, c', hcat, hchain', htext, hothers⟩ :=
        (h.perm List.perm_middle).cat reserved hthis src
      refine ⟨p, c', hcat, hchain', htext, fun d hd hne => ?_⟩
      obtain ⟨r, hr, rfl⟩ := List.mem_map.mp hd
      apply hothers
      rw [List.mem_append, List.mem_cons] at hr
      rw [List.mem_append]
      obtain hr | rfl | hr := hr
      · exact Or.inl hr
      · exact absurd rfl hne
      · exact Or.inr hr

example : (([.allocate true, .allocate true, .append 2 (some 1), .release 2] :
    List (Action 3)).foldlM (step 0) (start 3)).map (fun s => (s.held, s.pool.usedOutputBuffers)) =
      some ([1], 1) := by
  decide

end Run

end RepRapFirmware.Platform.OutputPool
