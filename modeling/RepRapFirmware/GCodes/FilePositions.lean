import RepRapFirmware.GCodes.FileReading

/-! The bytes of a file come in lines, and the position that is reported for a command leads back to
the start of its line. -/

namespace RepRapFirmware.GCodes.FileGCodeInput

open StringParser GCodeInput RegularGCodeInput Library.Runs

def EndsLine (cs : List UInt8) : Prop := ∃ c, cs.getLast? = some c ∧ endsLine c = true

/-- All of the file was delivered. -/
def AtEnd (s : State) (f : ℕ) : Prop :=
  s.base f + (s.delivered f).length = (s.files f).content.length

/-- What was delivered of the file since it was positioned are whole lines. -/
def Between (s : State) (f : ℕ) : Prop :=
  s.delivered f = [] ∨ EndsLine (s.delivered f) ∨ AtEnd s f

/-- What was delivered are whole lines, and then the characters of the line in the buffer. -/
def Within (s : State) (f : ℕ) : Prop :=
  ∃ done, s.delivered f = done ++ s.taken ∧ (done = [] ∨ EndsLine done ∨ s.taken = [] ∧ AtEnd s f)

def Counted (s : State) : Prop :=
  s.gb.commandLength = UInt32.ofNat (s.taken.countP (· ≠ 0))

structure Inv (s : State) : Prop where
  reads : Reads s
  nodup : s.stack.Nodup
  doingFile : s.gb.doingFile = !s.stack.isEmpty
  counted : Counted s
  outer : ∀ f ∈ s.stack.tail, Between s f
  top : ∀ f ∈ s.stack.head?, if s.padded then AtEnd s f else Within s f
  ended : executing s → s.padded = false → EndsLine s.taken
  idle : ¬ executing s → s.padded = false

variable {s s' : State} {f g : ℕ}

lemma endsLine_append (cs : List UInt8) {c : UInt8} (h : endsLine c = true)
    : EndsLine (cs ++ [c]) :=
  ⟨c, by simp, h⟩

lemma EndsLine.append_left {cs : List UInt8} (h : EndsLine cs) (ds : List UInt8) :
    EndsLine (ds ++ cs) := by
  obtain ⟨c, hc, he⟩ := h
  exact ⟨c, by simp [List.getLast?_append, hc], he⟩

lemma Within.between (h : Within s f) (ht : EndsLine s.taken ∨ s.taken = []) : Between s f := by
  obtain ⟨done, hd, hdone⟩ := h
  rcases ht with ht | ht
  · exact Or.inr (Or.inl (hd ▸ ht.append_left done))
  · rw [ht, List.append_nil] at hd
    rcases hdone with hdone | hdone | ⟨-, hend⟩
    · exact Or.inl (hd.trans hdone)
    · exact Or.inr (Or.inl (hd ▸ hdone))
    · exact Or.inr (Or.inr hend)

lemma Between.within (h : Between s f) (ht : s.taken = []) : Within s f := by
  refine ⟨s.delivered f, by simp [ht], ?_⟩
  rcases h with h | h | h
  · exact Or.inl h
  · exact Or.inr (Or.inl h)
  · exact Or.inr (Or.inr ⟨ht, h⟩)

/-! ### A change that leaves the history of a file alone -/

structure Kept (s s' : State) (f : ℕ) : Prop where
  base : s'.base f = s.base f
  delivered : s'.delivered f = s.delivered f
  content : (s'.files f).content = (s.files f).content

lemma Same.kept (h : Same s s') (f : ℕ) : Kept s s' f :=
  ⟨congrFun h.base f, congrFun h.delivered f, h.content f⟩

lemma Kept.trans {s'' : State} (h : Kept s s' f) (h' : Kept s' s'' f) : Kept s s'' f :=
  ⟨h'.base.trans h.base, h'.delivered.trans h.delivered, h'.content.trans h.content⟩

lemma Kept.atEnd (h : Kept s s' f) (ha : AtEnd s f) : AtEnd s' f := by
  rw [AtEnd, h.base, h.delivered, h.content]
  exact ha

lemma Kept.between (h : Kept s s' f) (hb : Between s f) : Between s' f := by
  rw [Between, h.delivered]
  exact hb.imp_right (Or.imp_right h.atEnd)

lemma Kept.within (h : Kept s s' f) (ht : s'.taken = s.taken) (hw : Within s f) : Within s' f := by
  obtain ⟨done, hd, hdone⟩ := hw
  refine ⟨done, by rw [h.delivered, ht, hd], ?_⟩
  rw [ht]
  exact hdone.imp_right (Or.imp_right (And.imp_right h.atEnd))

/-- The files of the stack are left alone, and so is the buffer. -/
lemma Inv.of_kept (h : Inv s) (hreads : Reads s') (hgb : s'.gb = s.gb) (hstack : s'.stack = s.stack)
    (htaken : s'.taken = s.taken) (hpadded : s'.padded = s.padded)
    (hkept : ∀ f ∈ s.stack, Kept s s' f) : Inv s' := by
  have hexec : executing s' ↔ executing s := by rw [executing, executing, hgb]
  refine ⟨hreads, hstack ▸ h.nodup, ?_, ?_, ?_, ?_, ?_, ?_⟩
  · rw [hgb, hstack]
    exact h.doingFile
  · rw [Counted, hgb, htaken]
    exact h.counted
  · rw [hstack]
    exact fun f hf => (hkept f (List.mem_of_mem_tail hf)).between (h.outer f hf)
  · rw [hstack, hpadded]
    intro f hf
    have hk := hkept f (List.mem_of_mem_head? hf)
    have htop := h.top f hf
    split
    case isTrue hp => exact hk.atEnd (by simpa [hp] using htop)
    case isFalse hp => exact hk.within htaken (by simpa [hp] using htop)
  · rw [hexec, hpadded, htaken]
    exact h.ended
  · rw [hexec, hpadded]
    exact h.idle

lemma Inv.of_same (h : Inv s) (hreads : Reads s') (hs : Same s s') : Inv s' :=
  h.of_kept hreads hs.gb hs.stack hs.taken hs.padded fun f _ => hs.kept f

/-- Between two commands, and while a command is executed, the innermost file is between lines. -/
lemma Inv.top_between (h : Inv s) (he : executing s ∨ s.taken = []) (hf : f ∈ s.stack.head?) :
    Between s f := by
  have htop := h.top f hf
  split at htop
  · exact Or.inr (Or.inr htop)
  · rename_i hp
    have hp : s.padded = false := by simpa using hp
    exact htop.between (he.imp (fun he => h.ended he hp) id)

/-- The buffer starts anew on a stack whose files are all between lines. -/
lemma inv_initBuffer (hreads : Reads s) (hnodup : s.stack.Nodup)
    (hdoing : s.gb.doingFile = !s.stack.isEmpty) (hbetween : ∀ f ∈ s.stack, Between s f) :
    Inv (initBuffer s) := by
  have hkept : ∀ f, Kept s (initBuffer s) f := fun f => ⟨rfl, rfl, rfl⟩
  have hexec : ¬ executing (initBuffer s) := by simp [executing, initBuffer]
  refine ⟨⟨hreads.ring, fun f => (hreads.exact f).congr rfl rfl rfl rfl⟩, hnodup, hdoing, rfl, ?_,
    ?_, fun he => absurd he hexec, fun _ => rfl⟩
  · exact fun f hf => (hkept f).between (hbetween f (List.mem_of_mem_tail hf))
  · intro f hf
    exact ((hkept f).between (hbetween f (List.mem_of_mem_head? hf))).within rfl

/-! ### Feeding the buffer -/

structure Put (s : State) (c : UInt8) (r : State × Bool) : Prop where
  eq : r.1 = { s with gb := r.1.gb, taken := r.1.taken }
  doingFile : r.1.gb.doingFile = true
  counted : Counted r.1
  notExecuting : ¬ executing r.1
  taken : r.1.taken = s.taken ++ [c] ∨ r.2 = false ∧ r.1.taken = [] ∧ endsLine c = true
  complete : r.2 = true → endsLine c = true
  lineFeed : c = char '\n' → r.2 = false → r.1.taken = []

lemma counted_append {n : UInt32} {g : GCodeBuffer} {taken : List UInt8} {c : UInt8}
    (h : g.commandLength = UInt32.ofNat (taken.countP (· ≠ 0)))
    (hn : n = (countChar g c).commandLength) :
    n = UInt32.ofNat ((taken ++ [c]).countP (· ≠ 0)) := by
  rw [hn, countChar, List.countP_append]
  by_cases hc : c = 0
  · simp [hc, h]
  · simp [hc, h, UInt32.ofNat_add]

lemma putChar_put (hdoing : s.gb.doingFile = true) (hcounted : Counted s) (he : ¬ executing s)
    (c : UInt8) : Put s c (putChar s c) := by
  have hlen := put_commandLength (c := c) hdoing
  have hfile := put_doingFile s.gb c
  have hends := put_complete (g := s.gb) (c := c)
  rw [executing, not_or] at he
  have hexec := put_executing (c := c) he.1 he.2
  unfold putChar
  generalize StringParser.put s.gb c = r at hlen hfile hends hexec ⊢
  obtain ⟨g, complete⟩ := r
  dsimp only at hlen hfile hends hexec ⊢
  refine ⟨rfl, hfile.trans hdoing, ?_, by simpa [executing] using hexec, ?_,
    fun h => (hends h).1, ?_⟩
  · by_cases hd : complete = false ∧ endsLine c ∧ c ≠ char '\r'
    · rw [if_pos hd] at hlen
      have hdrop : ¬ complete = true ∧ endsLine c = true ∧ c ≠ char '\r' := by simpa using hd
      simp only [Counted, hlen, if_pos hdrop]
      rfl
    · rw [if_neg hd] at hlen
      have hkeep : ¬ (¬ complete = true ∧ endsLine c = true ∧ c ≠ char '\r') := by simpa using hd
      simp only [Counted, if_neg hkeep]
      exact counted_append hcounted hlen
  · dsimp only
    split
    case isTrue hd => exact Or.inr ⟨by simpa using hd.1, rfl, hd.2.1⟩
    case isFalse => exact Or.inl rfl
  · rintro rfl rfl
    have hdrop : ¬ false = true ∧ endsLine (char '\n') = true ∧ char '\n' ≠ char '\r' :=
      ⟨by simp, by decide, by decide⟩
    rw [if_pos hdrop]

lemma Reads.congr (h : Reads s) (hinput : s'.input = s.input) (hlast : s'.lastFileRead =
    s.lastFileRead)
    (hfiles : s'.files = s.files) (hbase : s'.base = s.base) (hdel : s'.delivered = s.delivered) :
    Reads s' := by
  refine ⟨hinput ▸ h.ring, fun f => (h.exact f).congr (congrFun hfiles f) (congrFun hbase f)
    (congrFun hdel f) ?_⟩
  rw [cachedOf, cachedOf, hlast, hinput]

/-- What holds while the bytes of the innermost file are fed to the buffer. -/
structure Feeding (s : State) (f : ℕ) : Prop where
  inv : Inv s
  top : s.stack.head? = some f
  last : s.lastFileRead = some f
  notExecuting : ¬ executing s

lemma Feeding.within (h : Feeding s f) : Within s f := by
  have htop := h.inv.top f h.top
  rwa [if_neg (by simp [h.inv.idle h.notExecuting])] at htop

lemma Feeding.doingFile (h : Feeding s f) : s.gb.doingFile = true := by
  obtain ⟨fs, hs⟩ := List.head?_eq_some_iff.mp h.top
  simp [h.inv.doingFile, hs]

/-- A file with bytes in the input was not delivered completely. -/
lemma not_atEnd (h : Exact s f) (hf : s.lastFileRead = some f) (hc : s.input.bytesCached ≠ 0) :
    ¬ AtEnd s f := by
  have hpos := h.position
  have := (s.files f).inside
  rw [cachedOf_self hf, cached_length] at hpos
  rw [AtEnd]
  omega

lemma not_mem_tail (h : s.stack.Nodup) (hf : s.stack.head? = some f) : f ∉ s.stack.tail := by
  obtain ⟨fs, hs⟩ := List.head?_eq_some_iff.mp hf
  rw [hs] at h ⊢
  exact (List.nodup_cons.mp h).1

lemma readByte_kept (h : g ≠ f) : Kept s (readByte s f).2 g :=
  ⟨rfl, Function.update_of_ne h _ _, rfl⟩

/-- One byte of the file goes to the buffer. -/
lemma Feeding.next (h : Feeding s f) (hc : s.input.bytesCached ≠ 0) :
    let r := putChar (readByte s f).2 (readByte s f).1
    Feeding r.1 f ∧ r.1.input = s.input.readByte.2 ∧ (r.2 = true → EndsLine r.1.taken) := by
  have hinv := h.inv
  obtain ⟨done, hd, hdone⟩ := h.within
  have hdone : done = [] ∨ EndsLine done :=
    hdone.imp_right (Or.resolve_right · fun he =>
      not_atEnd (hinv.reads.exact f) h.last hc he.2)
  have hreads := readByte_reads hinv.reads h.last hc
  have hdel : (readByte s f).2.delivered f = done ++ (s.taken ++ [(readByte s f).1]) := by
    change Function.update s.delivered f (s.delivered f ++ _) f = _
    rw [Function.update_self, hd, List.append_assoc]
    rfl
  obtain ⟨heq, hdoing, hcounted, hexec, htaken, hcomplete, -⟩ :=
    putChar_put (s := (readByte s f).2) h.doingFile hinv.counted h.notExecuting (readByte s f).1
  have hkept : ∀ g, Kept (readByte s f).2 (putChar (readByte s f).2 (readByte s f).1).1 g := by
    intro g
    rw [heq]
    exact ⟨rfl, rfl, rfl⟩
  have hstack : (putChar (readByte s f).2 (readByte s f).1).1.stack = s.stack := by
    rw [heq]
    rfl
  have hpadded : (putChar (readByte s f).2 (readByte s f).1).1.padded = s.padded := by
    rw [heq]
    rfl
  have hinput : (putChar (readByte s f).2 (readByte s f).1).1.input = s.input.readByte.2 := by
    rw [heq]
    rfl
  have hlast : (putChar (readByte s f).2 (readByte s f).1).1.lastFileRead = s.lastFileRead := by
    rw [heq]
    rfl
  have hreads' : Reads (putChar (readByte s f).2 (readByte s f).1).1 := by
    rw [heq]
    exact hreads.congr rfl rfl rfl rfl rfl
  generalize putChar (readByte s f).2 (readByte s f).1 = r at *
  refine ⟨⟨⟨hreads', hstack ▸ hinv.nodup, ?_, hcounted, ?_, ?_, fun he => absurd he hexec,
    fun _ => hpadded.trans (hinv.idle h.notExecuting)⟩, hstack ▸ h.top, hlast.trans h.last, hexec⟩,
    hinput, ?_⟩
  · rw [hdoing, hstack, ← hinv.doingFile, h.doingFile]
  · rw [hstack]
    intro g hg
    have hne : g ≠ f := fun hgf => not_mem_tail hinv.nodup h.top (hgf ▸ hg)
    exact ((readByte_kept hne).trans (hkept g)).between (hinv.outer g hg)
  · rw [hstack, h.top, hpadded]
    rintro g ⟨⟩
    rw [if_neg (by simp [hinv.idle h.notExecuting])]
    rcases htaken with htaken | ⟨-, htaken, hends⟩
    · exact ⟨done, by rw [(hkept f).delivered, hdel, htaken]; rfl, hdone.imp_right Or.inl⟩
    · refine ⟨_, by rw [(hkept f).delivered, hdel, htaken, List.append_nil], Or.inr (Or.inl ?_)⟩
      exact (endsLine_append _ hends).append_left done
  · intro hr
    rcases htaken with htaken | ⟨hf, -⟩
    · rw [htaken]
      exact endsLine_append _ (hcomplete hr)
    · simp [hr] at hf

lemma fillBuffer_feeding {n : ℕ} (h : Feeding s f) (hn : n ≤ s.input.bytesCached) :
    Feeding (fillBuffer f n s).1 f ∧
      ((fillBuffer f n s).2 = true → EndsLine (fillBuffer f n s).1.taken) := by
  induction n generalizing s with
  | zero => exact ⟨h, fun hr => absurd hr (by simp [fillBuffer])⟩
  | succ n ih =>
    have hcached := (readByte_spec h.inv.reads.ring (by omega)).1
    have hcount := congrArg List.length hcached
    rw [cached_length, List.length_cons, cached_length] at hcount
    obtain ⟨hnext, hinput, hends⟩ := h.next (by omega)
    rw [fillBuffer]
    dsimp only
    split
    case isTrue hr => exact ⟨hnext, fun _ => hends hr⟩
    case isFalse => exact ih hnext (by rw [hinput]; omega)

/-- The command of a line that was completed is executed next. -/
lemma Feeding.decode (h : Feeding s f) (hends : EndsLine s.taken) : Inv (decodeCommand s) := by
  have hinv := h.inv
  have hexec : executing (decodeCommand s) := Or.inl rfl
  refine ⟨hinv.reads.congr rfl rfl rfl rfl rfl, hinv.nodup, hinv.doingFile, hinv.counted,
    fun g hg => hinv.outer g hg, fun g hg => ?_, fun _ _ => hends, fun he => absurd hexec he⟩
  exact hinv.top g hg

/-- At the end of the file a line that is not empty gets its line feed. -/
lemma Feeding.fileEnded (h : Feeding s f) (hend : AtEnd s f) :
    Inv (if (putChar s (char '\n')).2 then
        decodeCommand { (putChar s (char '\n')).1 with padded := true }
      else (putChar s (char '\n')).1) := by
  have hinv := h.inv
  obtain ⟨heq, hdoing, hcounted, hexec, -, -, hfeed⟩ :=
    putChar_put h.doingFile hinv.counted h.notExecuting (char '\n')
  have hkept : ∀ g, Kept s (putChar s (char '\n')).1 g := by
    intro g
    rw [heq]
    exact ⟨rfl, rfl, rfl⟩
  have hstack : (putChar s (char '\n')).1.stack = s.stack := by
    rw [heq]
  have hpadded : (putChar s (char '\n')).1.padded = false :=
    (congrArg State.padded heq).trans (hinv.idle h.notExecuting)
  have hreads : Reads (putChar s (char '\n')).1 := by
    rw [heq]
    exact hinv.reads.congr rfl rfl rfl rfl rfl
  have hfile : (putChar s (char '\n')).1.gb.doingFile = !s.stack.isEmpty := by
    rw [hdoing, ← hinv.doingFile, h.doingFile]
  generalize putChar s (char '\n') = r at *
  have houter : ∀ g ∈ s.stack.tail, Between r.1 g := fun g hg => (hkept g).between (hinv.outer g hg)
  split
  case isTrue hr =>
    refine ⟨hreads.congr rfl rfl rfl rfl rfl, hstack ▸ hinv.nodup, hstack ▸ hfile, hcounted,
      fun g hg => ?_, ?_, fun _ hp => absurd hp (by simp [decodeCommand]),
      fun he => absurd (Or.inl rfl) he⟩
    · exact houter g (hstack ▸ hg)
    · change ∀ g ∈ r.1.stack.head?, _
      rw [hstack, h.top]
      rintro g ⟨⟩
      exact (hkept f).atEnd hend
  case isFalse hr =>
    refine ⟨hreads, hstack ▸ hinv.nodup, hstack ▸ hfile, hcounted, hstack ▸ houter, ?_,
      fun he => absurd he hexec, fun _ => hpadded⟩
    rw [hstack, h.top, hpadded]
    rintro g ⟨⟩
    rw [if_neg (by simp)]
    exact Between.within (Or.inr (Or.inr ((hkept f).atEnd hend))) (hfeed rfl (by simpa using hr))

/-! ### The steps -/

lemma Feeding.of_filled (h : Inv s) (hf : s.stack.head? = some f) (he : ¬ executing s)
    {r : State × Bool} (hr : Filled s f r) : Feeding r.1 f := by
  refine ⟨h.of_same hr.reads hr.same, by rw [hr.same.stack, hf], hr.last, ?_⟩
  rwa [executing, hr.same.gb]

lemma doFilePrint_inv (h : Inv s) (hf : s.stack.head? = some f) (he : ¬ executing s) :
    Inv (doFilePrint s f) := by
  have hr := readFromFile_filled h.reads f
  have hfeed := Feeding.of_filled h hf he hr
  unfold doFilePrint
  generalize readFromFile s f = r at hr hfeed ⊢
  dsimp only
  split
  case isTrue =>
    obtain ⟨hfed, hends⟩ := fillBuffer_feeding hfeed le_rfl
    split
    case isTrue hc => exact hfed.decode (hends hc)
    case isFalse => exact hfed.inv
  case isFalse hdata =>
    obtain ⟨hempty, hpos⟩ := hr.noData (by simpa using hdata)
    have hend : AtEnd r.1 f := by
      have := (hr.reads.exact f).position
      rw [cachedOf_self hr.last, cached_length, hempty, Nat.add_zero, hpos] at this
      exact this.symm
    split
    · exact hfeed.fileEnded hend
    · exact hfeed.inv

lemma setFinished_inv (h : Inv s) (he : executing s) (f : Bool) :
    Inv (step s (.setFinished f)) := by
  have hbetween : ∀ g ∈ s.stack, Between s g := by
    intro g hg
    cases hs : s.stack with
    | nil => simp [hs] at hg
    | cons a as =>
      rw [hs, List.mem_cons] at hg
      rcases hg with rfl | hg
      · exact h.top_between (Or.inl he) (by simp [hs])
      · exact h.outer g (by simpa [hs] using hg)
  simp only [step, if_pos he]
  split
  case isTrue hstart =>
    refine inv_initBuffer (h.reads.congr rfl rfl rfl rfl rfl) h.nodup ?_ hbetween
    have : (setFinished s.gb f).doingFile = s.gb.doingFile := by
      unfold setFinished
      split_ifs <;> rfl
    exact this.trans h.doingFile
  case isFalse hstart =>
    -- The length of the command and the characters of the line stay.
    have hgb : (setFinished s.gb f).doingFile = s.gb.doingFile ∧
        (setFinished s.gb f).commandLength = s.gb.commandLength ∧
        ((setFinished s.gb f).bufferState = .ready ∨
          (setFinished s.gb f).bufferState = .executing) := by
      unfold setFinished at hstart ⊢
      split_ifs at hstart ⊢ <;> simp_all
    obtain ⟨hdoing, hlen, hexec⟩ := hgb
    exact ⟨h.reads.congr rfl rfl rfl rfl rfl, h.nodup, hdoing.trans h.doingFile,
      hlen.trans h.counted, h.outer, h.top, fun _ => h.ended he, fun hn => absurd hexec hn⟩

lemma resetFile_same (s : State) (f : ℕ) : Same s (resetFile s f) := by
  unfold resetFile
  split <;> exact ⟨rfl, rfl, rfl, rfl, rfl, rfl, fun _ => rfl⟩

@[simp] lemma resetFile_files (s : State) (f : ℕ) : (resetFile s f).files = s.files := by
  unfold resetFile
  split <;> rfl

lemma resetFile_ring (h : InRing s.input) (f : ℕ) : InRing (resetFile s f).input := by
  unfold resetFile
  split
  · exact inRing_reset _
  · exact h

lemma resetFile_cached (s : State) (f g : ℕ) :
    cachedOf (resetFile s f) g = if g = f then [] else cachedOf s g := by
  unfold resetFile
  split
  case isTrue hl =>
    split
    case isTrue => rfl
    case isFalse hg =>
      rw [cachedOf_of_ne (s := s) (by simpa [hl] using Ne.symm hg)]
      rfl
  case isFalse hl =>
    split
    case isTrue hg => exact cachedOf_of_ne (hg ▸ hl)
    case isFalse => rfl

@[simp] lemma markBase_base (s : State) (f : ℕ) :
    (markBase s f).base f = (s.files f).position :=
  Function.update_self _ _ _

@[simp] lemma markBase_delivered (s : State) (f : ℕ) : (markBase s f).delivered f = [] :=
  Function.update_self _ _ _

lemma markBase_kept (s : State) (h : g ≠ f) : Kept s (markBase s f) g :=
  ⟨Function.update_of_ne h _ _, Function.update_of_ne h _ _, rfl⟩

/-- The file `f` was positioned anew, and the buffer and the other files were left alone. -/
structure Moved (s s' : State) (f : ℕ) : Prop where
  reads : Reads s'
  gb : s'.gb = s.gb
  stack : s'.stack = s.stack
  taken : s'.taken = s.taken
  padded : s'.padded = s.padded
  kept : ∀ g, g ≠ f → Kept s s' g
  between : Between s' f

lemma moved_markBase (h : Reads s) (hs : Same s s') (hring : InRing s'.input)
    (hcached : ∀ g, cachedOf s' g = if g = f then [] else cachedOf s g)
    (hfiles : ∀ g, g ≠ f → s'.files g = s.files g) : Moved s (markBase s' f) f := by
  refine ⟨⟨hring, fun g => ?_⟩, hs.gb, hs.stack, hs.taken, hs.padded,
    fun g hg => (hs.kept g).trans (markBase_kept s' hg), Or.inl (markBase_delivered s' f)⟩
  have hg := hcached g
  split at hg
  case isTrue heq =>
    subst heq
    refine ⟨by rw [markBase_base]; exact (s'.files g).inside, ?_⟩
    have hnone : cachedOf (markBase s' g) g = [] := hg
    rw [markBase_base, markBase_delivered, hnone]
    exact (List.append_nil _).symm
  case isFalse hne =>
    have hk := (hs.kept g).trans (markBase_kept s' hne)
    exact (h.exact g).congr (hfiles g hne) hk.base hk.delivered hg

lemma seekFile_moved (h : Reads s) (f : ℕ) (pos : UInt32) : Moved s (seekFile s f pos) f := by
  have hfile := setFile_same (s := resetFile s f) f
    (((resetFile s f).files f).seek pos.toNat) rfl
  refine moved_markBase h ((resetFile_same s f).trans hfile) (resetFile_ring h.ring f)
    (resetFile_cached s f) fun g hg => ?_
  rw [setFile_files_of_ne _ _ hg, resetFile_files]

lemma closeFile_moved (h : Reads s) (f : ℕ) : Moved s (markBase (resetFile s f) f) f :=
  moved_markBase h (resetFile_same s f) (resetFile_ring h.ring f) (resetFile_cached s f)
    fun g _ => by rw [resetFile_files]

/-- A file that nothing refers to takes on a new content. -/
lemma openFile_moved (h : Reads s) (hlast : s.lastFileRead ≠ some f) (file : FileStore) :
    Moved s (markBase (resetFile (setFile s f file) f) f) f := by
  have hreset : resetFile (setFile s f file) f = setFile s f file := if_neg hlast
  rw [hreset]
  refine ⟨⟨h.ring, fun g => ?_⟩, rfl, rfl, rfl, rfl, fun g hg => ?_,
    Or.inl (markBase_delivered _ f)⟩
  · by_cases hg : g = f
    · subst hg
      refine ⟨by rw [markBase_base]; exact ((setFile s g file).files g).inside, ?_⟩
      have hnone : cachedOf (markBase (setFile s g file) g) g = [] := cachedOf_of_ne hlast
      rw [markBase_base, markBase_delivered, hnone]
      exact (List.append_nil _).symm
    · have hk := markBase_kept (setFile s f file) hg
      exact (h.exact g).congr (setFile_files_of_ne s file hg) hk.base hk.delivered rfl
  · have hfile : Kept s (setFile s f file) g :=
      ⟨rfl, rfl, by rw [setFile_files_of_ne s file hg]⟩
    exact hfile.trans (markBase_kept _ hg)

lemma Moved.inv (hm : Moved s s' f) (h : Inv s) (hf : f ∉ s.stack) : Inv s' :=
  h.of_kept hm.reads hm.gb hm.stack hm.taken hm.padded fun g hg =>
    hm.kept g fun hgf => hf (hgf ▸ hg)

/-- After a file was positioned, the buffer starts anew with a stack of files between lines. -/
lemma Moved.initBuffer (hm : Moved s s' f) {stack : List ℕ} (hnodup : stack.Nodup)
    (hbetween : ∀ g ∈ stack, g ≠ f → Between s g) : Inv (initBuffer (setStack s' stack)) := by
  apply inv_initBuffer (s := setStack s' stack)
  · exact hm.reads.congr rfl rfl rfl rfl rfl
  · exact hnodup
  · rfl
  · intro g hg
    by_cases hgf : g = f
    · exact hgf ▸ hm.between
    · exact (hm.kept g hgf).between (hbetween g hg hgf)

lemma readOther_inv {n : ℕ} (h : Inv s) (hf : f ∉ s.stack) (hlast : s.lastFileRead = some f)
    (hn : n ≤ s.input.bytesCached) : Inv (readOther f n s) := by
  induction n generalizing s with
  | zero => exact h
  | succ n ih =>
    have hcount := congrArg List.length (readByte_spec h.reads.ring (by omega)).1
    rw [cached_length, List.length_cons, cached_length] at hcount
    apply ih
    · exact h.of_kept (readByte_reads h.reads hlast (by omega)) rfl rfl rfl rfl fun g hg =>
        readByte_kept fun hgf => hf (hgf ▸ hg)
    · exact hf
    · exact hlast
    · change n ≤ s.input.readByte.2.bytesCached
      omega

lemma setStack_self (h : s.gb.doingFile = !s.stack.isEmpty) : setStack s s.stack = s := by
  rw [setStack, ← h]

lemma step_inv (s : State) (e : Event) (h : Inv s) : Inv (step s e) := by
  cases e with
  | doFilePrint =>
    simp only [step]
    split
    · exact h
    case h_2 f fs hs =>
      split
      · exact h
      case isFalse he => exact doFilePrint_inv h (by simp [hs]) he
  | setFinished f =>
    by_cases he : executing s
    · exact setFinished_inv h he f
    · simpa [step, he] using h
  | restartFrom pos =>
    simp only [step]
    split
    · exact h
    case h_2 f fs hs =>
      have hm := seekFile_moved h.reads f pos
      have hstack : setStack (seekFile s f pos) s.stack = seekFile s f pos := by
        rw [← hm.stack]
        exact setStack_self (by rw [hm.gb, hm.stack, h.doingFile])
      have := hm.initBuffer h.nodup fun g hg hgf => h.outer g (by
        rw [hs] at hg ⊢
        exact List.mem_of_ne_of_mem hgf hg)
      rwa [hstack] at this
  | openFile f content size =>
    simp only [step]
    split
    · exact h
    case isFalse hn =>
      obtain ⟨hmem, hlast, hidle⟩ : f ∉ s.stack ∧ s.lastFileRead ≠ some f ∧
          (executing s ∨ s.taken = []) := by tauto
      have hm := openFile_moved h.reads hlast ⟨content, 0, Nat.zero_le _, size⟩
      rw [openFile]
      have hstack : (resetFile (setFile s f ⟨content, 0, Nat.zero_le _, size⟩) f).stack =
          s.stack := hm.stack
      rw [hstack]
      apply hm.initBuffer (List.nodup_cons.mpr ⟨hmem, h.nodup⟩)
      intro g hg hgf
      have hg := List.mem_of_ne_of_mem hgf hg
      cases hs : s.stack with
      | nil => simp [hs] at hg
      | cons a as =>
        rw [hs, List.mem_cons] at hg
        rcases hg with rfl | hg
        · exact h.top_between hidle (by simp [hs])
        · exact h.outer g (by simpa [hs] using hg)
  | closeFile =>
    simp only [step]
    split
    · exact h
    case h_2 f fs hs =>
      have hm := closeFile_moved h.reads f
      rw [closeFile]
      exact hm.initBuffer (h.nodup.sublist (List.tail_sublist _)) fun g hg _ => h.outer g hg
  | readOther f n =>
    simp only [step]
    split
    · exact h
    case isFalse hf =>
      have hr := readFromFile_filled h.reads f
      exact readOther_inv (h.of_same hr.reads hr.same) (by rwa [hr.same.stack]) hr.last
        (min_le_right _ _)
  | restartOther f pos =>
    simp only [step]
    split
    · exact h
    case isFalse hf => exact (seekFile_moved h.reads f pos).inv h hf
  | closeOther f =>
    simp only [step]
    split
    · exact h
    case isFalse hf => exact (closeFile_moved h.reads f).inv h hf

lemma start_inv (files : ℕ → FileStore) (buffer : ℕ → UInt8) : Inv (start files buffer) := by
  refine ⟨⟨⟨Nat.zero_lt_succ 255, Nat.zero_lt_succ 255⟩, fun f => ⟨(files f).inside, ?_⟩⟩,
    List.nodup_nil, rfl, rfl, ?_, ?_, fun he => absurd he (by simp [executing, start,
      initialBuffer]), fun _ => rfl⟩
  · exact (List.append_nil _).symm
  · exact fun f hf => absurd hf (List.not_mem_nil)
  · rintro f ⟨⟩

/-! ### The position of a command -/

lemma getFilePosition_eq (h : Inv s) (hf : s.stack.head? = some f) (hp : s.padded = false)
    (ht : s.taken ≠ []) (hz : 0 ∉ s.taken) :
    ∃ done, s.delivered f = done ++ s.taken ∧ (done = [] ∨ EndsLine done) ∧
      getFilePosition s f = UInt32.ofNat (s.base f + done.length) + s.gb.commandStart := by
  have htop := h.top f hf
  rw [if_neg (by simp [hp])] at htop
  obtain ⟨done, hd, hdone⟩ := htop
  refine ⟨done, hd, hdone.imp_right (Or.resolve_right · fun he => ht he.1), ?_⟩
  have hcount : s.taken.countP (· ≠ 0) = s.taken.length := by
    rw [List.countP_eq_length]
    intro c hc
    simpa using fun h0 : c = 0 => hz (h0 ▸ hc)
  have hcached : fileBytesCached s f = (cachedOf s f).length := by
    unfold fileBytesCached cachedOf
    split <;> simp
  have hlen : s.gb.commandLength = UInt32.ofNat s.taken.length := by
    rw [← hcount]
    exact h.counted
  rw [getFilePosition, (h.reads.exact f).position, hcached, hd, hlen, List.length_append,
    ← Nat.add_assoc, UInt32.ofNat_add (_ + _) (cachedOf s f).length, UInt32.add_sub_cancel,
    UInt32.ofNat_add (_ + _) s.taken.length, UInt32.add_sub_cancel]

/-- The file is positioned anew, or closed, or another file takes its place. -/
def repositions (s : State) (f : ℕ) : Event → Prop
  | .restartFrom _ | .closeFile => s.stack.head? = some f
  | .openFile g _ _ | .restartOther g _ | .closeOther g => g = f
  | .doFilePrint | .setFinished _ | .readOther _ _ => False

instance (s : State) (f : ℕ) : DecidablePred (repositions s f) := fun e => by
  cases e <;> unfold repositions <;> infer_instance

structure Based (s s' : State) (f : ℕ) : Prop where
  base : s'.base f = s.base f
  content : (s'.files f).content = (s.files f).content

lemma Kept.based (h : Kept s s' f) : Based s s' f := ⟨h.base, h.content⟩

lemma Based.trans {s'' : State} (h : Based s s' f) (h' : Based s' s'' f) : Based s s'' f :=
  ⟨h'.base.trans h.base, h'.content.trans h.content⟩

lemma fillBuffer_based (f n : ℕ) (s : State) :
    (fillBuffer f n s).1.base = s.base ∧ (fillBuffer f n s).1.files = s.files := by
  induction n generalizing s with
  | zero => exact ⟨rfl, rfl⟩
  | succ n ih =>
    rw [fillBuffer]
    dsimp only
    split
    · exact ⟨rfl, rfl⟩
    · exact ih _

lemma readOther_based (f n : ℕ) (s : State) :
    (readOther f n s).base = s.base ∧ (readOther f n s).files = s.files := by
  induction n generalizing s with
  | zero => exact ⟨rfl, rfl⟩
  | succ n ih => exact ih _

lemma doFilePrint_based (h : Inv s) (f g : ℕ) : Based s (doFilePrint s f) g := by
  have hr := (readFromFile_filled h.reads f).same.kept g
  unfold doFilePrint
  generalize readFromFile s f = r at hr ⊢
  refine hr.based.trans ?_
  dsimp only
  split
  · obtain ⟨hb, hf⟩ := fillBuffer_based f r.1.input.bytesCached r.1
    split <;> exact ⟨congrFun hb g, congrArg (FileStore.content <| · g) hf⟩
  · split
    · split <;> exact ⟨rfl, rfl⟩
    · exact ⟨rfl, rfl⟩

lemma step_based {e : Event} (h : Inv s) (he : ¬ repositions s f e) : Based s (step s e) f := by
  cases e with
  | doFilePrint =>
    simp only [step]
    split
    · exact ⟨rfl, rfl⟩
    · split
      · exact ⟨rfl, rfl⟩
      · exact doFilePrint_based h _ f
  | setFinished b =>
    simp only [step]
    split_ifs <;> exact ⟨rfl, rfl⟩
  | restartFrom pos =>
    simp only [step]
    split
    · exact ⟨rfl, rfl⟩
    case h_2 g gs hs =>
      have hne : f ≠ g := fun hfg => he (by simp [repositions, hs, hfg])
      exact ((seekFile_moved h.reads g pos).kept f hne).based.trans ⟨rfl, rfl⟩
  | openFile g content size =>
    simp only [step]
    split
    · exact ⟨rfl, rfl⟩
    case isFalse hn =>
      have hlast : s.lastFileRead ≠ some g := by tauto
      exact ((openFile_moved h.reads hlast _).kept f (Ne.symm he)).based.trans ⟨rfl, rfl⟩
  | closeFile =>
    simp only [step]
    split
    · exact ⟨rfl, rfl⟩
    case h_2 g gs hs =>
      have hne : f ≠ g := fun hfg => he (by simp [repositions, hs, hfg])
      exact ((closeFile_moved h.reads g).kept f hne).based.trans ⟨rfl, rfl⟩
  | readOther g n =>
    simp only [step]
    split
    · exact ⟨rfl, rfl⟩
    · obtain ⟨hb, hf⟩ := readOther_based g (min n (readFromFile s g).1.input.bytesCached)
        (readFromFile s g).1
      exact ((readFromFile_filled h.reads g).same.kept f).based.trans
        ⟨congrFun hb f, congrArg (FileStore.content <| · f) hf⟩
  | restartOther g pos =>
    simp only [step]
    split
    · exact ⟨rfl, rfl⟩
    · exact ((seekFile_moved h.reads g pos).kept f (Ne.symm he)).based
  | closeOther g =>
    simp only [step]
    split
    · exact ⟨rfl, rfl⟩
    · exact ((closeFile_moved h.reads g).kept f (Ne.symm he)).based

lemma run_based (h : Inv s) {es : List Event}
    (he : Along step (fun s e => ¬ repositions s f e) s es) : Based s (run step s es) f := by
  have hstep : ∀ t e, Inv t ∧ Based s t f → ¬ repositions t f e →
      Inv (step t e) ∧ Based s (step t e) f := by
    intro t e ht hne
    exact ⟨step_inv t e ht.1, ht.2.trans (step_based ht.1 hne)⟩
  exact (run_invariant ⟨h, rfl, rfl⟩ hstep he).2

lemma restartFrom_based (hf : s.stack.head? = some f) (pos : UInt32) :
    (step s (.restartFrom pos)).base f = min pos.toNat (s.files f).content.length ∧
      ((step s (.restartFrom pos)).files f).content = (s.files f).content := by
  obtain ⟨fs, hs⟩ := List.head?_eq_some_iff.mp hf
  simp only [step, hs]
  change (markBase _ f).base f = _ ∧ ((setFile _ f _).files f).content = _
  rw [markBase_base, setFile_files_self, resetFile_files]
  exact ⟨rfl, rfl⟩

lemma run_inv (files : ℕ → FileStore) (buffer : ℕ → UInt8) (es : List Event) :
    Inv (run step (start files buffer) es) :=
  invariant (start_inv files buffer) step_inv es

/-- The offset of a line: the reading started there, or a line ends before it. -/
def LineStart (s : State) (f offset : ℕ) : Prop :=
  offset = s.base f ∨ EndsLine ((s.files f).content.take offset)

def noFile : FileStore := ⟨[], 0, le_rfl, by decide⟩

/-- The line feed that is appended to the last line counts as if it were in the file. -/
example : getFilePosition (run step (start (fun _ => noFile) fun _ => 0)
    [.openFile 0 (ofChars ['G', '1', '\n', 'M', '5']) (by decide), .doFilePrint,
      .setFinished true, .doFilePrint, .doFilePrint]) 0 = 2 := by
  decide +kernel

end RepRapFirmware.GCodes.FileGCodeInput
