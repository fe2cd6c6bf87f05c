import RepRapFirmware.GCodes.FileGCodeInput

/-! The read-ahead buffer belongs to one file at a time, and whoever reads through it gets the bytes
of its own file. -/

namespace RepRapFirmware.GCodes.FileGCodeInput

open StringParser GCodeInput RegularGCodeInput BufferedStream Library.Runs

def cachedOf (s : State) (f : ℕ) : List UInt8 :=
  if s.lastFileRead = some f then s.input.cached else []

/-- Up to its position a file was read: what lies before `base`, what was delivered since, and what
the input still holds. -/
structure Exact (s : State) (f : ℕ) : Prop where
  le : s.base f ≤ (s.files f).content.length
  bytes : (s.files f).content.take (s.files f).position =
    (s.files f).content.take (s.base f) ++ (s.delivered f ++ cachedOf s f)

structure Reads (s : State) : Prop where
  ring : InRing s.input
  exact : ∀ f, Exact s f

/-- What the readers of the input do not touch. -/
structure Same (s s' : State) : Prop where
  gb : s'.gb = s.gb
  stack : s'.stack = s.stack
  taken : s'.taken = s.taken
  padded : s'.padded = s.padded
  base : s'.base = s.base
  delivered : s'.delivered = s.delivered
  content : ∀ f, (s'.files f).content = (s.files f).content

variable {s s' : State} {f g : ℕ}

lemma Same.trans {s'' : State} (h : Same s s') (h' : Same s' s'') : Same s s'' :=
  ⟨h'.gb.trans h.gb, h'.stack.trans h.stack, h'.taken.trans h.taken, h'.padded.trans h.padded,
    h'.base.trans h.base, h'.delivered.trans h.delivered,
    fun f => (h'.content f).trans (h.content f)⟩

lemma setFile_same (f : ℕ) (file : FileStore) (h : file.content = (s.files f).content) :
    Same s (setFile s f file) := by
  refine ⟨rfl, rfl, rfl, rfl, rfl, rfl, fun g => ?_⟩
  by_cases hg : g = f
  · subst hg
    simp [setFile, h]
  · simp [setFile, hg]

@[simp] lemma setFile_files_self (s : State) (f : ℕ) (file : FileStore) :
    (setFile s f file).files f = file := by
  simp [setFile]

lemma setFile_files_of_ne (s : State) (file : FileStore) (h : g ≠ f) :
    (setFile s f file).files g = s.files g := by
  simp [setFile, h]

lemma cachedOf_self (h : s.lastFileRead = some f) : cachedOf s f = s.input.cached := if_pos h

lemma cachedOf_of_ne (h : s.lastFileRead ≠ some f) : cachedOf s f = [] := if_neg h

lemma Exact.congr (h : Exact s f) (hfile : s'.files f = s.files f) (hbase : s'.base f = s.base f)
    (hdel : s'.delivered f = s.delivered f) (hcached : cachedOf s' f = cachedOf s f) :
    Exact s' f := by
  constructor
  · rw [hfile, hbase]
    exact h.le
  · rw [hfile, hbase, hdel, hcached]
    exact h.bytes

/-- The position is where the reading started, moved on by all that was read since. -/
lemma Exact.position (h : Exact s f) :
    (s.files f).position = s.base f + (s.delivered f).length + (cachedOf s f).length := by
  have hlen := congrArg List.length h.bytes
  simp only [List.length_take, List.length_append] at hlen
  have := (s.files f).inside
  have := h.le
  omega

lemma Exact.take (h : Exact s f) :
    (s.files f).content.take (s.base f + (s.delivered f).length) =
      (s.files f).content.take (s.base f) ++ s.delivered f := by
  have hle := h.le
  have hpos := h.position
  have htake := congrArg (List.take (s.base f + (s.delivered f).length)) h.bytes
  rw [List.take_take, Nat.min_eq_left (by omega), ← List.append_assoc] at htake
  rw [htake]
  apply List.take_left'
  simp [hle]

lemma Exact.inOrder (h : Exact s f) :
    s.delivered f <+: (s.files f).content.drop (s.base f) := by
  have htake := h.take
  rw [List.take_add, List.append_cancel_left_eq] at htake
  rw [← htake]
  exact List.take_prefix _ _

/-! ### Changing the file -/

lemma giveBack_same (s : State) (g : ℕ) : Same s
    (if 0 < s.input.bytesCached then
      setFile s g ((s.files g).seek ((s.files g).position - s.input.bytesCached)) else s) := by
  split
  · exact setFile_same _ _ rfl
  · exact ⟨rfl, rfl, rfl, rfl, rfl, rfl, fun _ => rfl⟩

lemma switchTo_same (s : State) (f : ℕ) : Same s (switchTo s f) := by
  unfold switchTo
  split
  case h_1 g _ =>
    split
    · exact ⟨rfl, rfl, rfl, rfl, rfl, rfl, fun _ => rfl⟩
    · obtain ⟨h₁, h₂, h₃, h₄, h₅, h₆, h₇⟩ := giveBack_same s g
      exact ⟨h₁, h₂, h₃, h₄, h₅, h₆, h₇⟩
  case h_2 => exact ⟨rfl, rfl, rfl, rfl, rfl, rfl, fun _ => rfl⟩

lemma switchTo_last (s : State) (f : ℕ) : (switchTo s f).lastFileRead = some f := by
  unfold switchTo
  split
  case h_1 g hg =>
    split
    case isTrue heq => rw [hg, heq]
    case isFalse => rfl
  case h_2 => rfl

/-- A file whose cached bytes were given back. -/
lemma giveBack_exact (h : Exact s g) (hg : s.lastFileRead = some g) (hs : Same s s')
    (hcached : cachedOf s' g = [])
    (hpos : (s'.files g).position = (s.files g).position - s.input.bytesCached) :
    Exact s' g := by
  have htake := h.take
  have hle := h.le
  have hat := h.position
  rw [cachedOf_self hg, cached_length] at hat
  rw [← hs.content, ← hs.base] at hle
  refine ⟨hle, ?_⟩
  rw [hcached, List.append_nil, hs.content, hs.base, hs.delivered, ← htake, hpos]
  congr 1
  omega

lemma cachedOf_reset (s : State) (l : Option ℕ) (f : ℕ) :
    cachedOf { s with input := s.input.reset, lastFileRead := l } f = [] := by
  simp [cachedOf]

lemma switchTo_reads (h : Reads s) (f : ℕ) : Reads (switchTo s f) := by
  have hsame := switchTo_same s f
  unfold switchTo at hsame ⊢
  split at hsame
  case h_2 hnone =>
    refine ⟨inRing_reset _, fun e => (h.exact e).congr rfl rfl rfl ?_⟩
    rw [cachedOf_reset, cachedOf_of_ne (by simp [hnone])]
  case h_1 g hg =>
    split at hsame
    case isTrue heq =>
      simpa [hg, heq] using h
    case isFalse hne =>
      dsimp only at hsame ⊢
      rw [if_neg hne]
      refine ⟨inRing_reset _, fun e => ?_⟩
      by_cases heg : e = g
      · subst heg
        apply giveBack_exact (h.exact e) hg hsame (cachedOf_reset _ _ _)
        split
        case isTrue =>
          have := (s.files e).inside
          change ((setFile s e _).files e).position = _
          rw [setFile_files_self]
          simp only [FileStore.seek]
          omega
        case isFalse hz =>
          change (s.files e).position = _
          omega
      · refine (h.exact e).congr ?_ (congrFun hsame.base e) (congrFun hsame.delivered e) ?_
        · dsimp only
          split
          · exact setFile_files_of_ne s _ heg
          · rfl
        · rw [cachedOf_reset, cachedOf_of_ne (by simpa [hg] using Ne.symm heg)]

/-! ### Reading ahead -/

/-- The pointers of an empty ring are moved to its start. -/
lemma rewound {i : RegularGCodeInput} (h : InRing i) :
    let i' := if i.readingPointer = i.writingPointer then
      { i with readingPointer := 0, writingPointer := 0 } else i
    InRing i' ∧ i'.cached = i.cached := by
  dsimp only
  split
  case isFalse => exact ⟨h, rfl⟩
  case isTrue heq =>
    have hold : i.bytesCached = 0 := by simp [RegularGCodeInput.bytesCached, heq]
    refine ⟨⟨Nat.zero_lt_succ 255, Nat.zero_lt_succ 255⟩, ?_⟩
    rw [cached, cached, hold]
    simp [RegularGCodeInput.bytesCached]

namespace FileStore

lemma take_read (file : FileStore) (n : ℕ) :
    file.content.take (file.read n).2.position =
      file.content.take file.position ++ (file.read n).1 := by
  simp only [read, List.take_add]
  congr 1
  rw [List.length_take, List.take_eq_take_iff, Nat.min_assoc, Nat.min_self]

lemma read_nil (file : FileStore) {n : ℕ} (hn : n ≠ 0) (h : (file.read n).1 = []) :
    file.position = file.content.length := by
  have := file.inside
  have hlen := congrArg List.length h
  simp only [read, List.length_take, List.length_drop, List.length_nil] at hlen
  omega

end FileStore

lemma Reads.fetch (h : Reads s) (hf : s.lastFileRead = some f) {i : RegularGCodeInput}
    (hring : InRing i) {n : ℕ} (hcached : i.cached = s.input.cached ++ ((s.files f).read n).1) :
    Reads { setFile s f ((s.files f).read n).2 with input := i } := by
  refine ⟨hring, fun e => ?_⟩
  by_cases he : e = f
  · subst he
    obtain ⟨hle, hbytes⟩ := h.exact e
    rw [cachedOf_self hf] at hbytes
    constructor
    · change s.base e ≤ ((setFile s e _).files e).content.length
      rwa [setFile_files_self]
    · change ((setFile s e _).files e).content.take ((setFile s e _).files e).position =
        ((setFile s e _).files e).content.take (s.base e) ++ (s.delivered e ++ cachedOf _ e)
      rw [setFile_files_self, cachedOf_self (by exact hf), hcached,
        ← List.append_assoc (s.delivered e), ← List.append_assoc]
      exact ((s.files e).take_read n).trans (congrArg (· ++ _) hbytes)
  · refine (h.exact e).congr (setFile_files_of_ne s _ he) rfl rfl ?_
    have hne : some f ≠ some e := by simpa using Ne.symm he
    rw [cachedOf_of_ne (hf.trans_ne hne)]
    exact cachedOf_of_ne (hf.trans_ne hne)

structure Filled (s : State) (f : ℕ) (r : State × Bool) : Prop where
  same : Same s r.1
  reads : Reads r.1
  last : r.1.lastFileRead = some f
  data : r.2 = true → r.1.input.bytesCached ≠ 0
  noData : r.2 = false → r.1.input.bytesCached = 0 ∧
    (r.1.files f).position = (r.1.files f).content.length

lemma readFromFile_filled (h : Reads s) (f : ℕ) : Filled s f (readFromFile s f) := by
  have hsame := switchTo_same s f
  have hlast := switchTo_last s f
  have hreads := switchTo_reads h f
  unfold readFromFile
  generalize switchTo s f = t at hsame hlast hreads ⊢
  dsimp only
  split
  case isFalse hmany =>
    refine ⟨hsame, hreads, hlast, fun hd => ?_, fun hd => ?_⟩
    · simpa [Nat.pos_iff_ne_zero] using hd
    · simp only [gcodeInputFileReadThreshold, decide_eq_false_iff_not] at hmany hd
      omega
  case isTrue hfew =>
    obtain ⟨hring, hcached⟩ := rewound hreads.ring
    generalize (if t.input.readingPointer = t.input.writingPointer then
      { t.input with readingPointer := 0, writingPointer := 0 } else t.input) = i at *
    have hcount := congrArg List.length hcached
    have hspace := space_add_cached hring
    have hwriting := hring.writing
    rw [cached_length, cached_length] at hcount
    generalize hn : min i.bufferSpaceLeft (gcodeInputBufferSize - i.writingPointer) = n
    have hlen : ((t.files f).read n).1.length ≤ n := List.length_take_le _ _
    have hloaded : Loaded { i with
        buffer := readBytes i.buffer i.writingPointer ((t.files f).read n).1 } i.cached
          ((t.files f).read n).1 :=
      loaded_readBytes hring (hlen.trans (by omega)) (hlen.trans (by omega))
    obtain ⟨hring', hcached'⟩ := hloaded.commit
    rw [hcached] at hcached'
    have hcount' := congrArg List.length hcached'
    rw [cached_length, List.length_append, cached_length] at hcount'
    have hfile := setFile_same (s := t) f ((t.files f).read n).2 rfl
    refine ⟨hsame.trans ⟨hfile.gb, hfile.stack, hfile.taken, hfile.padded, hfile.base,
      hfile.delivered, hfile.content⟩, hreads.fetch hlast hring' hcached', hlast, fun hd => ?_,
      fun hd => ?_⟩
    · refine ne_of_eq_of_ne hcount' ?_
      simp only [Bool.or_eq_true, decide_eq_true_eq] at hd
      omega
    · simp only [Bool.or_eq_false_iff, decide_eq_false_iff_not] at hd
      refine ⟨hcount'.trans (by omega), ?_⟩
      have hnone : ((t.files f).read n).1 = [] := List.length_eq_zero_iff.mp (by omega)
      have hend := (t.files f).read_nil (by
        simp only [gcodeInputFileReadThreshold, gcodeInputBufferSize] at *
        omega) hnone
      change ((setFile t f _).files f).position = ((setFile t f _).files f).content.length
      rw [setFile_files_self]
      simp only [FileStore.read] at hnone ⊢
      rw [hnone, List.length_nil, Nat.add_zero]
      exact hend

/-- One byte is handed out. -/
lemma readByte_reads (h : Reads s) (hf : s.lastFileRead = some f)
    (hc : s.input.bytesCached ≠ 0) : Reads (readByte s f).2 := by
  obtain ⟨hcached, hring⟩ := readByte_spec h.ring hc
  refine ⟨hring, fun e => ?_⟩
  by_cases he : e = f
  · subst he
    obtain ⟨hle, hbytes⟩ := h.exact e
    refine ⟨hle, ?_⟩
    rw [cachedOf_self hf, hcached] at hbytes
    change _ = _ ++ (Function.update s.delivered e (s.delivered e ++ _) e ++ _)
    rw [Function.update_self, cachedOf_self (s := (readByte s e).2) hf, List.append_assoc]
    exact hbytes
  · refine (h.exact e).congr rfl rfl (Function.update_of_ne he _ _) ?_
    have hne : some f ≠ some e := by simpa using Ne.symm he
    rw [cachedOf_of_ne (hf.trans_ne hne)]
    exact cachedOf_of_ne (hf.trans_ne hne)

end RepRapFirmware.GCodes.FileGCodeInput
