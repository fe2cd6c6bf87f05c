import RepRapFirmware.Storage.FileInfoParser

/-! The lines that reading a file chunk by chunk hands on, against the lines of the file. -/

namespace RepRapFirmware.Storage.FileInfo

open RepRapFirmware.Library.Buffers RepRapFirmware.Library.TextLines

variable {h : Bool} {lim n : ℕ} {p : Char} {a c d l rest : List Char} {file : List Char}
  {s : FileInfoParser}

/-! ### Scanning bytes -/

abbrev keeps (h : Bool) (p : Char) (line : List Char) : Bool := !passedOver h p line

/-- Bytes that begin with a complete line that starts a command. -/
def AtCommand (rest : List Char) : Prop :=
  ∃ line t after, Free isEol line ∧ isEol t = true ∧ after ≠ [] ∧ rest = line ++ t :: after ∧
    startsCommand line = true

/-- The last bytes that are scanned: a part of a line, at most its line end included. -/
def Unfinished (rest : List Char) : Prop :=
  ∃ line ending, Free isEol line ∧ ending.length ≤ 1 ∧ rest = line ++ ending

structure Scanned (h : Bool) (lim : ℕ) (p : Char) (d : List Char) (r : Scan) (c rest : List Char) :
    Prop where
  split : d = c ++ rest
  terminated : Terminated isEol c
  handed : r.handed = (completeLines isEol c).filter (keeps h p)
  noCommand : h = true → ∀ line ∈ completeLines isEol c, startsCommand line = false
  outcome : (h = true ∧ r.stopped = true ∧ r.rest = rest ∧ AtCommand rest) ∨
    (r.stopped = false ∧ completeLines isEol d.dropLast = completeLines isEol c ∧ Unfinished rest ∧
      (gCodeReadSize ≤ lim - rest.length → r.rest = rest ∧ r.atLineStart = true))

lemma completeLines_unfinished {ends line : List Char} (hends : ∀ c ∈ ends, isEol c = true)
    (hline : Free isEol line) : completeLines isEol (ends ++ line) = [] := by
  rw [(terminated_of_forall hends).completeLines_append, completeLines_ends hends,
    completeLines_free hline]
  rfl

/-- Where the bytes run out in a line, no line is complete before their last byte. -/
lemma completeLines_dropLast {ends line ending : List Char} (hends : ∀ c ∈ ends, isEol c = true)
    (hline : Free isEol line) (hlen : ending.length ≤ 1) :
    completeLines isEol (ends ++ (line ++ ending)).dropLast = [] := by
  match ending, hlen with
  | [t], _ =>
    rw [← List.append_assoc, List.dropLast_concat]
    exact completeLines_unfinished hends hline
  | [], _ =>
    rw [List.append_nil]
    cases line using List.reverseRecOn with
    | nil =>
      rw [List.append_nil]
      exact completeLines_ends fun c hc => hends c (List.dropLast_subset _ hc)
    | append_singleton line t =>
      rw [← List.append_assoc, List.dropLast_concat]
      exact completeLines_unfinished hends fun c hc => hline c (List.mem_append_left _ hc)

/-- A complete line in front of bytes that are scanned. -/
lemma Scanned.cons {ends line : List Char} {t : Char} {r : Scan}
    (hends : ∀ c ∈ ends, isEol c = true) (hline : Free isEol line) (ht : isEol t = true)
    (hne : line ≠ []) (hd : d ≠ []) (hgo : (h && startsCommand line) = false)
    (hr : Scanned h lim p d r c rest) :
    Scanned h lim p (ends ++ (line ++ t :: d))
      (r.hand (if passedOver h p line then [] else [line])) (ends ++ (line ++ t :: c)) rest := by
  have hlines : ∀ x, completeLines isEol (ends ++ (line ++ t :: x)) =
      line :: completeLines isEol x := by
    intro x
    rw [(terminated_of_forall hends).completeLines_append, completeLines_ends hends,
      completeLines_append hline ht, nonblank, if_neg (by simpa using hne)]
    rfl
  refine ⟨?_, ?_, ?_, ?_, ?_⟩
  · rw [hr.split]
    simp
  · exact (terminated_of_forall hends).append (.line hline ht hr.terminated)
  · rw [hlines, List.filter_cons, Scan.hand, hr.handed, keeps]
    cases passedOver h p line <;> rfl
  · intro hh x hx
    rw [hlines] at hx
    obtain rfl | hx := List.mem_cons.mp hx
    · simpa [hh] using hgo
    · exact hr.noCommand hh x hx
  · obtain hstop | ⟨hstopped, hcomplete, hrest⟩ := hr.outcome
    · exact .inl hstop
    · refine .inr ⟨hstopped, ?_, hrest⟩
      have hdrop : (ends ++ (line ++ t :: d)).dropLast = ends ++ (line ++ t :: d.dropLast) := by
        rw [List.dropLast_append_of_ne_nil (by simp), List.dropLast_append_of_ne_nil (by simp),
          List.dropLast_cons_of_ne_nil hd]
      rw [hdrop, hlines, hlines, hcomplete]

lemma scanBuffer_spec (hn : d.length < n) :
    ∃ c rest, Scanned h lim p d (scanBuffer h lim p n d) c rest := by
  induction n generalizing d with
  | zero => exact absurd hn (Nat.not_lt_zero _)
  | succ n ih =>
    have hends := ends_takeWhile isEol d
    have hline := free_takeWhile isEol (d.dropWhile isEol)
    have hstart : d.dropWhile isEol = (d.dropWhile isEol).takeWhile (fun c => !isEol c) ++
        (d.dropWhile isEol).dropWhile fun c => !isEol c := List.takeWhile_append_dropWhile.symm
    have hd : d = d.takeWhile isEol ++ ((d.dropWhile isEol).takeWhile (fun c => !isEol c) ++
        (d.dropWhile isEol).dropWhile fun c => !isEol c) := by
      rw [← hstart, List.takeWhile_append_dropWhile]
    have hhead : ∀ t b, ((d.dropWhile isEol).dropWhile fun c => !isEol c) = t :: b →
        isEol t = true := fun t b => head_dropWhile_free
    rw [scanBuffer]
    generalize (d.dropWhile isEol).takeWhile (fun c => !isEol c) = line at *
    generalize ((d.dropWhile isEol).dropWhile fun c => !isEol c) = ending at *
    have hfirst : ∀ t b, d.dropWhile isEol = t :: b → isEol t = false :=
      fun t b => head_dropWhile_ends
    generalize d.takeWhile isEol = ends at *
    generalize d.dropWhile isEol = lineStart at *
    subst hstart
    subst hd
    by_cases hlen : ending.length ≤ 1
    · rw [if_pos hlen]
      refine ⟨ends, line ++ ending, rfl, terminated_of_forall hends, ?_, ?_, .inr ⟨?_, ?_, ?_, ?_⟩⟩
      · rw [completeLines_ends hends]
        split <;> rfl
      · intro _ x hx
        rw [completeLines_ends hends] at hx
        exact absurd hx List.not_mem_nil
      · split <;> rfl
      · rw [completeLines_dropLast hends hline hlen, completeLines_ends hends]
      · exact ⟨line, ending, hline, hlen, rfl⟩
      · intro hfits
        rw [if_pos hfits]
        exact ⟨rfl, rfl⟩
    · rw [if_neg hlen]
      match ending, hlen with
      | t :: u :: after, _ =>
        have ht := hhead t _ rfl
        have hne : line ≠ [] := by
          rintro rfl
          exact Bool.false_ne_true ((hfirst t _ rfl).symm.trans ht)
        by_cases hstop : (h && startsCommand line) = true
        · rw [if_pos hstop]
          obtain ⟨hh, hcommand⟩ := Bool.and_eq_true_iff.mp hstop
          refine ⟨ends, line ++ t :: u :: after, rfl, terminated_of_forall hends, ?_, ?_,
            .inl ⟨hh, rfl, rfl, line, t, u :: after, hline, ht, List.cons_ne_nil _ _, rfl,
              hcommand⟩⟩
          · rw [completeLines_ends hends]
            rfl
          · intro _ x hx
            rw [completeLines_ends hends] at hx
            exact absurd hx List.not_mem_nil
        · rw [if_neg hstop]
          have hshort : (u :: after).length < n := by
            simp only [List.length_append, List.length_cons] at hn ⊢
            omega
          obtain ⟨c, rest, hr⟩ := ih hshort
          exact ⟨_, rest, hr.cons hends hline ht hne (List.cons_ne_nil _ _) (by simpa using hstop)⟩
      | [], hlen => exact absurd (Nat.zero_le 1) hlen
      | [t], hlen => exact absurd le_rfl hlen

/-! ### Reading a chunk -/

/-- The part of the file from the place on where the next scan starts. -/
def pending (file : List Char) (s : FileInfoParser) : List Char :=
  slice s.buf s.scanStartOffset gCodeOverlapSize ++
    (file.drop s.position).drop (s.scanStartOffset - gCodeOverlapSize)

/-- That part without the rest of a line that is skipped. -/
def togo (file : List Char) (s : FileInfoParser) : List Char :=
  if s.atLineStart then pending file s else skipLine isEol (pending file s)

/-- The lines that end before the last byte of the next chunk. -/
def chunkLines (file : List Char) (s : FileInfoParser) : List (List Char) :=
  completeLines isEol (toScan s (readChunk file s)).dropLast

/-- The byte behind the data of the next chunk. -/
def behind (file : List Char) (s : FileInfoParser) : Char :=
  (readChunk file s).buf (readChunk file s).bufLim

structure Ready (file : List Char) (s : FileInfoParser) : Prop where
  position : s.position ≤ file.length
  offset : s.scanStartOffset ≤ gCodeOverlapSize + gCodeReadSize
  pending : pending file s <:+ file

/-- The phase has no part in what is to be read and what has been handed on. -/
lemma withParseState (file : List Char) (s : FileInfoParser) (p : FileParseState) :
    (Ready file s → Ready file { s with parseState := p }) ∧
      togo file { s with parseState := p } = togo file s ∧
      { s with parseState := p }.headerSize = s.headerSize ∧
      { s with parseState := p }.handed = s.handed :=
  ⟨fun hr => ⟨hr.position, hr.offset, hr.pending⟩, rfl, rfl, rfl⟩

lemma readChunk_more (hmore : gCodeReadSize < file.length - s.position)
    (hoffset : s.scanStartOffset ≤ gCodeOverlapSize + gCodeReadSize) :
    (readChunk file s).reachedEnd = false ∧
      (readChunk file s).bufLim = gCodeOverlapSize + gCodeReadSize ∧
      slice (readChunk file s).buf s.scanStartOffset (readChunk file s).bufLim ++
        file.drop (s.position + gCodeReadSize) = pending file s := by
  have hlen : ((file.drop s.position).take gCodeReadSize).length = gCodeReadSize := by
    rw [List.length_take, List.length_drop]
    omega
  have hchunk : readChunk file s = ⟨store s.buf gCodeOverlapSize
      ((file.drop s.position).take gCodeReadSize), gCodeOverlapSize + gCodeReadSize, false⟩ := by
    rw [readChunk, if_neg (by omega), hlen]
  refine ⟨by rw [hchunk], by rw [hchunk], ?_⟩
  rw [hchunk, pending]
  simp only
  nth_rewrite 2 [← hlen]
  rw [slice_store_through, List.append_assoc, ← List.drop_drop]
  congr 1
  calc ((file.drop s.position).take gCodeReadSize).drop (s.scanStartOffset - gCodeOverlapSize) ++
        (file.drop s.position).drop gCodeReadSize
      = ((file.drop s.position).take gCodeReadSize ++
          (file.drop s.position).drop gCodeReadSize).drop (s.scanStartOffset - gCodeOverlapSize) :=
        (List.drop_append_of_le_length (by omega)).symm
    _ = (file.drop s.position).drop (s.scanStartOffset - gCodeOverlapSize) := by
        rw [List.take_append_drop]

lemma readChunk_last (hlast : file.length - s.position ≤ gCodeReadSize) :
    (readChunk file s).reachedEnd = true ∧
      (slice (readChunk file s).buf s.scanStartOffset (readChunk file s).bufLim =
          pending file s ++ ['\n'] ∨
        slice (readChunk file s).buf s.scanStartOffset (readChunk file s).bufLim = [] ∧
          pending file s = []) := by
  have htake : (file.drop s.position).take gCodeReadSize = file.drop s.position :=
    List.take_of_length_le (by rw [List.length_drop]; exact hlast)
  have hchunk : readChunk file s = ⟨store s.buf gCodeOverlapSize (file.drop s.position ++ ['\n']),
      gCodeOverlapSize + (file.drop s.position ++ ['\n']).length, true⟩ := by
    rw [readChunk, if_pos hlast, htake, store_store, List.length_append, List.length_singleton,
      Nat.add_assoc]
  rw [hchunk]
  refine ⟨rfl, ?_⟩
  simp only
  rw [slice_store_through, pending]
  by_cases hin : s.scanStartOffset - gCodeOverlapSize ≤ (file.drop s.position).length
  · left
    rw [List.drop_append_of_le_length hin, List.append_assoc]
  · right
    have hlen : (file.drop s.position ++ ['\n']).length = (file.drop s.position).length + 1 := by
      rw [List.length_append, List.length_singleton]
    rw [slice_of_le (by omega), List.drop_of_length_le (by omega),
      List.drop_of_length_le (by omega)]
    exact ⟨rfl, rfl⟩

lemma toScan_found {ch : Chunk} {data : List Char}
    (hdata : slice ch.buf s.scanStartOffset ch.bufLim = data)
    (hfound : foundLineStart s ch = true) (tail : List Char) :
    (if s.atLineStart then data ++ tail else skipLine isEol (data ++ tail)) =
      toScan s ch ++ tail := by
  rw [foundLineStart, hdata] at hfound
  rw [toScan, hdata]
  cases hstart : s.atLineStart with
  | true => rfl
  | false =>
    rw [hstart, Bool.false_or] at hfound
    obtain hfree | ⟨a, t, b, ha, ht, rfl⟩ := split_first isEol data
    · obtain ⟨c, hc, heol⟩ := List.any_eq_true.mp hfound
      exact absurd ((hfree c hc).symm.trans heol) Bool.false_ne_true
    · have hskip : skipLine isEol (a ++ t :: b) = b := skipLine_append ha ht b
      rw [List.append_assoc, List.cons_append]
      change skipLine isEol (a ++ t :: (b ++ tail)) = skipLine isEol (a ++ t :: b) ++ tail
      rw [skipLine_append ha ht, hskip]

lemma toScan_notFound {ch : Chunk} {data : List Char}
    (hdata : slice ch.buf s.scanStartOffset ch.bufLim = data)
    (hfound : foundLineStart s ch = false) (tail : List Char) :
    toScan s ch = [] ∧ (if s.atLineStart then data ++ tail else skipLine isEol (data ++ tail)) =
      skipLine isEol tail := by
  rw [foundLineStart, hdata] at hfound
  obtain ⟨hstart, hany⟩ := Bool.or_eq_false_iff.mp hfound
  have hfree : Free isEol data := by
    intro c hc
    exact Bool.not_eq_true _ ▸ List.any_eq_false.mp hany c hc
  rw [toScan, hdata, hstart]
  exact ⟨skipLine_free hfree, skipLine_free_append hfree tail⟩

lemma scanChunk_nil {ch : Chunk} (hd : toScan s ch = []) :
    scanChunk h s ch = ⟨[], false, foundLineStart s ch, []⟩ := by
  rw [scanChunk, hd]
  rfl

lemma scanChunk_cons {ch : Chunk} (hd : toScan s ch ≠ []) :
    ∃ c rest, Scanned h ch.bufLim (ch.buf ch.bufLim) (toScan s ch) (scanChunk h s ch) c rest := by
  rw [scanChunk, if_neg (by simpa using hd)]
  exact scanBuffer_spec (Nat.lt_succ_self _)

/-! ### One chunk -/

/-- Text that begins with a complete line that starts a command. -/
def BeginsWithCommand (rest : List Char) : Prop :=
  ∃ line t after, Free isEol line ∧ isEol t = true ∧ rest = line ++ t :: after ∧
    startsCommand line = true

/-- What a chunk takes from the text to come: complete lines, of which some may be passed over. -/
structure Takes (h : Bool) (file : List Char) (s : FileInfoParser) (c : List Char) : Prop where
  terminated : Terminated isEol c
  handed : (readAndProcessFileChunk file h s).1.handed =
    s.handed ++ (completeLines isEol c).filter (keeps h (behind file s))
  noCommand : h = true → ∀ line ∈ completeLines isEol c, startsCommand line = false

/-- A chunk of the header that stops at a command, whose place is the size of the header. -/
def StopsAt (h : Bool) (file : List Char) (s : FileInfoParser) (c : List Char) : Prop :=
  h = true ∧ (readAndProcessFileChunk file h s).2 = true ∧
    ∃ rest, togo file s = c ++ rest ∧ BeginsWithCommand rest ∧
      (readAndProcessFileChunk file h s).1.headerSize = u32 (file.length - rest.length)

/-- The last chunk when no command stops it: its lines are the complete lines of the text. -/
structure Ends (h : Bool) (file : List Char) (s : FileInfoParser) (c : List Char) : Prop where
  last : (readAndProcessFileChunk file h s).2 = true
  lines : completeLines isEol c = chunkLines file s
  togo : completeLines isEol (togo file s) = completeLines isEol c

/-- A chunk that is read to its end and leaves the text after the lines it takes. -/
structure Continues (h : Bool) (file : List Char) (s : FileInfoParser) (c : List Char) : Prop where
  far : gCodeReadSize < file.length - s.position
  more : (readAndProcessFileChunk file h s).2 = false
  lines : completeLines isEol c = chunkLines file s
  togo : togo file s = c ++ togo file (readAndProcessFileChunk file h s).1
  position : (readAndProcessFileChunk file h s).1.position = s.position + gCodeReadSize
  ready : Ready file (readAndProcessFileChunk file h s).1

lemma AtCommand.begins (hr : AtCommand rest) : BeginsWithCommand rest := by
  obtain ⟨line, t, after, hline, ht, -, hrest, hcommand⟩ := hr
  exact ⟨line, t, after, hline, ht, hrest, hcommand⟩

lemma BeginsWithCommand.append (hr : BeginsWithCommand rest) (l : List Char) :
    BeginsWithCommand (rest ++ l) := by
  obtain ⟨line, t, after, hline, ht, rfl, hcommand⟩ := hr
  exact ⟨line, t, after ++ l, hline, ht, by simp, hcommand⟩

/-- A last chunk ends with a line end of its own, so that a command is found in the text itself. -/
lemma AtCommand.of_append {t : Char} (hr : AtCommand rest) (heq : d ++ [t] = c ++ rest) :
    ∃ rest', d = c ++ rest' ∧ rest.length = rest'.length + 1 ∧ BeginsWithCommand rest' := by
  obtain ⟨line, e, after, hline, he, hafter, rfl, hcommand⟩ := hr
  obtain ⟨after, t', rfl⟩ : ∃ l x, after = l ++ [x] :=
    ⟨_, _, (List.dropLast_append_getLast hafter).symm⟩
  have heq' : d ++ [t] = (c ++ (line ++ e :: after)) ++ [t'] := by rw [heq]; simp
  obtain ⟨rfl, -⟩ := List.append_inj' heq' rfl
  refine ⟨line ++ e :: after, rfl, ?_, line, e, after, hline, he, rfl, hcommand⟩
  simp only [List.length_append, List.length_cons, List.length_nil]
  omega

lemma togo_suffix (hr : Ready file s) : togo file s <:+ file := by
  rw [togo]
  split
  · exact hr.pending
  · exact (List.drop_suffix _ _).trans ((List.dropWhile_suffix _).trans hr.pending)

/-- A buffer into which the carried bytes have been copied in front of the next chunk. -/
lemma pending_carried {s' : FileInfoParser} {buf : ℕ → Char} {carried : List Char}
    (hlen : carried.length ≤ gCodeOverlapSize)
    (hbuf : s'.buf = store buf (gCodeOverlapSize - carried.length) carried)
    (hoffset : s'.scanStartOffset = gCodeOverlapSize - carried.length) :
    pending file s' = carried ++ file.drop s'.position := by
  have hend : gCodeOverlapSize - carried.length + carried.length = gCodeOverlapSize :=
    Nat.sub_add_cancel hlen
  have hcarried : slice s'.buf s'.scanStartOffset gCodeOverlapSize = carried := by
    rw [hbuf, hoffset]
    nth_rewrite 3 [← hend]
    exact slice_store _ _ _
  rw [pending, hcarried, hoffset, Nat.sub_eq_zero_of_le (Nat.sub_le _ _), List.drop_zero]

/-- The parser after a chunk that is not the last one and in which no command stops it. -/
lemma chunk_after (hmore : gCodeReadSize < file.length - s.position)
    (hend : (readChunk file s).reachedEnd = false)
    (hstopped : (scanChunk h s (readChunk file s)).stopped = false)
    (hlen : (scanChunk h s (readChunk file s)).rest.length ≤ gCodeOverlapSize) :
    (readAndProcessFileChunk file h s).2 = false ∧
      (readAndProcessFileChunk file h s).1.position = s.position + gCodeReadSize ∧
      (readAndProcessFileChunk file h s).1.scanStartOffset ≤ gCodeOverlapSize ∧
      pending file (readAndProcessFileChunk file h s).1 =
        (scanChunk h s (readChunk file s)).rest ++ file.drop (s.position + gCodeReadSize) := by
  have htake : ((file.drop s.position).take gCodeReadSize).length = gCodeReadSize := by
    rw [List.length_take, List.length_drop]
    omega
  have hflag : ((readChunk file s).reachedEnd || (scanChunk h s (readChunk file s)).stopped) =
      false := by
    rw [hend, hstopped]
    rfl
  have hposition : (readAndProcessFileChunk file h s).1.position = s.position + gCodeReadSize := by
    rw [← htake]
    rfl
  have hoffset : (readAndProcessFileChunk file h s).1.scanStartOffset =
      gCodeOverlapSize - (scanChunk h s (readChunk file s)).rest.length := by
    rw [readAndProcessFileChunk]
    simp only [hflag, Bool.false_eq_true, if_false]
  refine ⟨hflag, hposition, by omega, ?_⟩
  rw [← hposition]
  apply pending_carried hlen _ hoffset
  · exact (readChunk file s).buf
  · rw [readAndProcessFileChunk]
    simp only [hflag, Bool.false_eq_true, if_false]

lemma Unfinished.length_le (hr : Unfinished rest)
    (hshort : ∀ x, x <:+: rest → Free isEol x → x.length < gCodeOverlapSize) :
    rest.length ≤ gCodeOverlapSize := by
  obtain ⟨line, ending, hline, hlen, rfl⟩ := hr
  have := hshort line (List.infix_append [] line ending) hline
  rw [List.length_append]
  omega

lemma length_toScan_le (s : FileInfoParser) (ch : Chunk) :
    (toScan s ch).length ≤ ch.bufLim - s.scanStartOffset := by
  rw [toScan]
  split
  · rw [length_slice]
  · have hdrop := (List.drop_sublist 1 _).length_le.trans (List.dropWhile_sublist (fun c => !isEol
      c)
      (l := slice ch.buf s.scanStartOffset ch.bufLim)).length_le
    rwa [length_slice] at hdrop

/-- Where the returned pointer points to in the file. -/
lemma headerSize_stopped (hstopped : (scanChunk true s (readChunk file s)).stopped = true) :
    (readAndProcessFileChunk file true s).1.headerSize = u32 (u32 (s.position + 2 ^ 32 -
      gCodeOverlapSize) + ((readChunk file s).bufLim -
        (scanChunk true s (readChunk file s)).rest.length)) := by
  rw [readAndProcessFileChunk]
  simp only [hstopped, Bool.or_true, Bool.and_true, if_true]

lemma u32_place {position lim len place : ℕ} (hlen : len ≤ lim)
    (hplace : place + gCodeOverlapSize + len = position + lim) :
    u32 (u32 (position + 2 ^ 32 - gCodeOverlapSize) + (lim - len)) = u32 place := by
  have hO : gCodeOverlapSize = 100 := rfl
  rw [u32, u32, u32]
  omega

lemma chunk_more (hr : Ready file s) (hshort : ∀ line ∈ lines isEol file,
      line.length < gCodeOverlapSize) (hmore : gCodeReadSize < file.length - s.position) :
    ∃ c, Takes h file s c ∧ (StopsAt h file s c ∨ Continues h file s c) := by
  obtain ⟨hend, hlim, hdata⟩ := readChunk_more hmore hr.offset
  have hposition : s.position + gCodeReadSize ≤ file.length := by omega
  by_cases hd : toScan s (readChunk file s) = []
  · have hscan : scanChunk h s (readChunk file s) = ⟨[], false, foundLineStart s _, []⟩ :=
      scanChunk_nil hd
    obtain ⟨hmoreflag, hpos, hoffset, hpending⟩ := chunk_after (h := h) hmore hend
      (by rw [hscan]) (by rw [hscan]; exact Nat.zero_le _)
    rw [hscan, List.nil_append] at hpending
    have hstart : (readAndProcessFileChunk file h s).1.atLineStart =
        foundLineStart s (readChunk file s) := congrArg Scan.atLineStart hscan
    refine ⟨[], ⟨.nil, congrArg (s.handed ++ Scan.handed ·) hscan, fun _ _ hx => nomatch hx⟩, .inr
      ⟨hmore, hmoreflag, by rw [chunkLines, hd]; rfl, ?_, hpos, ?_⟩⟩
    · rw [togo, ← hdata, togo, hstart, hpending, List.nil_append]
      cases hfound : foundLineStart s (readChunk file s) with
      | true =>
        rw [toScan_found rfl hfound, hd]
        rfl
      | false => exact (toScan_notFound rfl hfound _).2
    · refine ⟨by omega, by omega, ?_⟩
      rw [hpending]
      exact List.drop_suffix _ _
  · have hfound : foundLineStart s (readChunk file s) = true := by
      by_contra hnot
      exact hd (toScan_notFound rfl (by simpa using hnot) []).1
    have htogo : togo file s = toScan s (readChunk file s) ++ file.drop (s.position +
        gCodeReadSize) := by
      rw [togo, ← hdata]
      exact toScan_found rfl hfound _
    obtain ⟨c, rest, hscan⟩ := scanChunk_cons (h := h) hd
    have hsuffix : rest ++ file.drop (s.position + gCodeReadSize) <:+ file := by
      have htail : rest ++ file.drop (s.position + gCodeReadSize) <:+ togo file s := by
        rw [htogo, hscan.split, List.append_assoc]
        exact List.suffix_append _ _
      exact htail.trans (togo_suffix hr)
    have htakes : Takes h file s c :=
      ⟨hscan.terminated, congrArg (s.handed ++ ·) hscan.handed, hscan.noCommand⟩
    refine ⟨c, htakes, ?_⟩
    obtain ⟨hh, hstopped, hrest, hcommand⟩ | ⟨hstopped, hlines, hunfinished, hfits⟩ := hscan.outcome
    · left
      subst hh
      refine ⟨rfl, ?_, rest ++ file.drop (s.position + gCodeReadSize), ?_,
        hcommand.begins.append _, ?_⟩
      · change ((readChunk file s).reachedEnd || (scanChunk true s (readChunk file s)).stopped) =
          true
        rw [hend, hstopped]
        rfl
      · rw [htogo, hscan.split, List.append_assoc]
      · have hscanned := length_toScan_le s (readChunk file s)
        have hinFile := hsuffix.length_le
        rw [hscan.split, List.length_append, hlim] at hscanned
        rw [List.length_append, List.length_drop] at hinFile
        rw [headerSize_stopped hstopped, hrest, hlim]
        apply u32_place
        · omega
        · rw [List.length_append, List.length_drop]
          omega
    · right
      have hlen : rest.length ≤ gCodeOverlapSize := by
        apply hunfinished.length_le
        intro x hx hfree
        have hin : x <:+: file :=
          hx.trans ((List.prefix_append rest _).isInfix.trans hsuffix.isInfix)
        exact length_lt_of_infix (by decide) hshort hin hfree
      obtain ⟨hscanned, hatStart⟩ := hfits (by rw [hlim]; omega)
      obtain ⟨hmoreflag, hpos, hoffset, hpending⟩ := chunk_after (h := h) hmore hend hstopped
        (by rw [hscanned]; exact hlen)
      rw [hscanned] at hpending
      have hnext : (readAndProcessFileChunk file h s).1.atLineStart = true := hatStart
      refine ⟨hmore, hmoreflag, hlines.symm, ?_, hpos, ⟨by omega, by omega, ?_⟩⟩
      · rw [htogo, togo, hnext, if_pos rfl, hpending, hscan.split, List.append_assoc]
      · rw [hpending]
        exact hsuffix

lemma bufLim_last (hlast : file.length - s.position ≤ gCodeReadSize) :
    (readChunk file s).bufLim = gCodeOverlapSize + (file.length - s.position) + 1 := by
  have htake : (file.drop s.position).take gCodeReadSize = file.drop s.position :=
    List.take_of_length_le (by rw [List.length_drop]; exact hlast)
  rw [readChunk, if_pos hlast, htake, List.length_drop]

lemma toScan_last (hlast : file.length - s.position ≤ gCodeReadSize) :
    toScan s (readChunk file s) = togo file s ++ ['\n'] ∨
      toScan s (readChunk file s) = [] ∧ togo file s = [] := by
  obtain ⟨-, hdata | ⟨hdata, hpending⟩⟩ := readChunk_last hlast
  · rw [toScan, hdata, togo]
    cases s.atLineStart with
    | true => exact .inl rfl
    | false =>
      obtain hfree | ⟨a, t, b, ha, ht, heq⟩ := split_first isEol (pending file s)
      · right
        have hskip : skipLine isEol (pending file s ++ ['\n']) = [] := skipLine_append hfree rfl []
        exact ⟨hskip, skipLine_free hfree⟩
      · left
        have hskip : skipLine isEol (a ++ t :: (b ++ ['\n'])) = b ++ ['\n'] :=
          skipLine_append ha ht _
        simp only [heq, Bool.false_eq_true, if_false, List.append_assoc, List.cons_append]
        rw [skipLine_append ha ht]
        exact hskip
  · right
    rw [toScan, hdata, togo, hpending]
    cases s.atLineStart <;> exact ⟨rfl, rfl⟩

/-- The last chunk: its lines are the complete lines of the text to come. -/
lemma chunk_last (hr : Ready file s) (hlast : file.length - s.position ≤ gCodeReadSize) :
    ∃ c, Takes h file s c ∧ (StopsAt h file s c ∨ Ends h file s c) := by
  have hflag : (readAndProcessFileChunk file h s).2 = true := by
    change ((readChunk file s).reachedEnd || (scanChunk h s (readChunk file s)).stopped) = true
    rw [(readChunk_last hlast).1]
    rfl
  by_cases hd : toScan s (readChunk file s) = []
  · have hscan : scanChunk h s (readChunk file s) = ⟨[], false, foundLineStart s _, []⟩ :=
      scanChunk_nil hd
    have htogo : togo file s = [] := by
      obtain hscanned | ⟨-, htogo⟩ := toScan_last hlast
      · rw [hd] at hscanned
        exact absurd hscanned.symm (by simp)
      · exact htogo
    refine ⟨[], ⟨.nil, congrArg (s.handed ++ Scan.handed ·) hscan, fun _ _ hx => nomatch hx⟩, .inr
      ⟨hflag, by rw [chunkLines, hd]; rfl, by rw [htogo]⟩⟩
  · obtain ⟨c, rest, hscan⟩ := scanChunk_cons (h := h) hd
    have hscanned : toScan s (readChunk file s) = togo file s ++ ['\n'] :=
      (toScan_last hlast).resolve_right fun hnil => hd hnil.1
    refine ⟨c, ⟨hscan.terminated, congrArg (s.handed ++ ·) hscan.handed, hscan.noCommand⟩, ?_⟩
    obtain ⟨hh, hstopped, hrest, hcommand⟩ | ⟨-, hlines, -, -⟩ := hscan.outcome
    · left
      subst hh
      obtain ⟨rest', hsplit, hlength, hbegins⟩ :=
        hcommand.of_append (hscanned.symm.trans hscan.split)
      refine ⟨rfl, hflag, rest', hsplit, hbegins, ?_⟩
      have hlen := length_toScan_le s (readChunk file s)
      have hinFile := (togo_suffix hr).length_le
      have hlim := bufLim_last hlast
      have hposition := hr.position
      rw [hscan.split, List.length_append] at hlen
      rw [hsplit, List.length_append] at hinFile
      rw [headerSize_stopped hstopped, hrest]
      apply u32_place
      · omega
      · omega
    · right
      refine ⟨hflag, hlines.symm, ?_⟩
      rw [hscanned, List.dropLast_concat] at hlines
      exact hlines

/-! ### The phases -/

/-- The lines of the header: the complete lines in front of the first one that starts a command. -/
def headerLines (text : List Char) : List (List Char) :=
  (completeLines isEol text).takeWhile fun line => !startsCommand line

lemma headerLines_append (hc : Terminated isEol c)
    (hno : ∀ line ∈ completeLines isEol c, startsCommand line = false) (l : List Char) :
    headerLines (c ++ l) = completeLines isEol c ++ headerLines l := by
  rw [headerLines, hc.completeLines_append, List.takeWhile_append_of_pos fun x hx => by
    simp [hno x hx], headerLines]

lemma headerLines_command (hr : BeginsWithCommand rest) : headerLines rest = [] := by
  obtain ⟨line, t, after, hline, ht, rfl, hcommand⟩ := hr
  have hne : line.isEmpty = false := by
    cases line with
    | nil => cases hcommand
    | cons => rfl
  rw [headerLines, completeLines_append hline ht, nonblank, hne]
  simp [hcommand]

lemma filter_keeps_header (p : Char) (l : List (List Char)) : l.filter (keeps true p) = l := by
  rw [List.filter_eq_self]
  intro line _
  simp [keeps, passedOver]

lemma chunk (hr : Ready file s) (hshort : ∀ line ∈ lines isEol file,
      line.length < gCodeOverlapSize) :
    ∃ c, Takes h file s c ∧ (StopsAt h file s c ∨ Ends h file s c ∨ Continues h file s c) := by
  obtain hlast | hmore := le_or_gt (file.length - s.position) gCodeReadSize
  · obtain ⟨c, htakes, hstops | hends⟩ := chunk_last (h := h) hr hlast
    · exact ⟨c, htakes, .inl hstops⟩
    · exact ⟨c, htakes, .inr (.inl hends)⟩
  · obtain ⟨c, htakes, hstops | hcontinues⟩ := chunk_more (h := h) hr hshort hmore
    · exact ⟨c, htakes, .inl hstops⟩
    · exact ⟨c, htakes, .inr (.inr hcontinues)⟩

lemma step_header_end (hphase : s.parseState = .parsingHeader)
    (hend : (readAndProcessFileChunk file true s).2 = true) :
    step file s = { (readAndProcessFileChunk file true s).1 with parseState := .seeking } := by
  rw [step, hphase]
  simp only [hend, if_true]

lemma step_header_more (hphase : s.parseState = .parsingHeader)
    (hmore : (readAndProcessFileChunk file true s).2 = false) :
    step file s = (readAndProcessFileChunk file true s).1 := by
  rw [step, hphase]
  simp only [hmore, Bool.false_eq_true, if_false]

lemma step_footer_end (hphase : s.parseState = .parsingFooter)
    (hend : (readAndProcessFileChunk file false s).2 = true) :
    step file s = { (readAndProcessFileChunk file false s).1 with parseState := .notParsing } := by
  rw [step, hphase]
  simp only [hend, if_true]

lemma step_footer_more (hphase : s.parseState = .parsingFooter)
    (hmore : (readAndProcessFileChunk file false s).2 = false) :
    step file s = (readAndProcessFileChunk file false s).1 := by
  rw [step, hphase]
  simp only [hmore, Bool.false_eq_true, if_false]

/-- The rounds of a phase from one state on. -/
structure Phase (file : List Char) (during after : FileParseState) (s : FileInfoParser) (n : ℕ) :
    Prop where
  during : ∀ i < n, ((step file)^[i] s).parseState = during
  after : ((step file)^[n] s).parseState = after

lemma Phase.single {during after : FileParseState} (hphase : s.parseState = during)
    (hafter : (step file s).parseState = after) : Phase file during after s 1 := by
  refine ⟨fun i hi => ?_, hafter⟩
  obtain rfl : i = 0 := by omega
  exact hphase

lemma Phase.cons {during after : FileParseState} {n : ℕ} (hphase : s.parseState = during)
    (hn : Phase file during after (step file s) n) : Phase file during after s (n + 1) := by
  refine ⟨fun i hi => ?_, ?_⟩
  · cases i with
    | zero => exact hphase
    | succ i =>
      rw [Function.iterate_succ_apply]
      exact hn.during i (by omega)
  · rw [Function.iterate_succ_apply]
    exact hn.after

/-- The rounds that the text to come takes at most. -/
def roundsLeft (file : List Char) (s : FileInfoParser) : ℕ :=
  (file.length - s.position) / gCodeReadSize + 1

lemma Continues.roundsLeft {c : List Char} (hc : Continues h file s c) :
    roundsLeft file s = roundsLeft file (readAndProcessFileChunk file h s).1 + 1 := by
  have hR : gCodeReadSize = 2048 := rfl
  have hfar := hc.far
  rw [FileInfo.roundsLeft, FileInfo.roundsLeft, hc.position, hR] at *
  omega

lemma Continues.shorter {c : List Char} (hc : Continues h file s c) :
    file.length - (readAndProcessFileChunk file h s).1.position < file.length - s.position := by
  have hR : gCodeReadSize = 2048 := rfl
  have hfar := hc.far
  have hposition := hc.position
  omega

/-- Where the header of a text at the end of the file ends: at the first command, if it has one. -/
def HeaderEnds (file text : List Char) (headerSize : ℕ) : Prop :=
  completeLines isEol text = headerLines text ∨
    ∃ header rest, text = header ++ rest ∧ completeLines isEol header = headerLines text ∧
      BeginsWithCommand rest ∧ headerSize = u32 (file.length - rest.length)

lemma HeaderEnds.append {text : List Char} {size : ℕ} (hc : Terminated isEol c)
    (hno : ∀ line ∈ completeLines isEol c, startsCommand line = false)
    (hends : HeaderEnds file text size) : HeaderEnds file (c ++ text) size := by
  rw [HeaderEnds, headerLines_append hc hno]
  obtain hall | ⟨header, rest, rfl, hlines, hbegins, hsize⟩ := hends
  · left
    rw [hc.completeLines_append, hall]
  · right
    refine ⟨c ++ header, rest, by rw [List.append_assoc], ?_, hbegins, hsize⟩
    rw [hc.completeLines_append, hlines]

/-- The header phase hands on the lines of the header and ends. -/
lemma header_phase (hr : Ready file s) (hshort : ∀ line ∈ lines isEol file,
      line.length < gCodeOverlapSize) (hphase : s.parseState = .parsingHeader) :
    ∃ n ≤ roundsLeft file s, Phase file .parsingHeader .seeking s n ∧
      ((step file)^[n] s).handed = s.handed ++ headerLines (togo file s) ∧
      HeaderEnds file (togo file s) ((step file)^[n] s).headerSize := by
  induction hleft : file.length - s.position using Nat.strong_induction_on generalizing s with
  | _ left ih =>
    obtain ⟨c, htakes, hcase⟩ := chunk (h := true) hr hshort
    have hhanded := htakes.handed
    rw [filter_keeps_header] at hhanded
    have hno := htakes.noCommand rfl
    obtain ⟨-, hend, rest, htogo, hcommand, hsize⟩ | hends | hmore := hcase
    · have hstep := step_header_end hphase hend
      have hall : headerLines (togo file s) = completeLines isEol c := by
        rw [htogo, headerLines_append htakes.terminated hno, headerLines_command hcommand,
          List.append_nil]
      refine ⟨1, Nat.succ_pos _, .single hphase (by rw [hstep]), ?_, .inr ⟨c, rest, htogo,
        hall.symm,
        hcommand, ?_⟩⟩
      · rw [Function.iterate_one, hstep, hall]
        exact hhanded
      · rw [Function.iterate_one, hstep]
        exact hsize
    · have hstep := step_header_end hphase hends.last
      have hall : headerLines (togo file s) = completeLines isEol c := by
        rw [headerLines, hends.togo, List.takeWhile_eq_self_iff]
        intro line hline
        simp [hno line hline]
      refine ⟨1, Nat.succ_pos _, .single hphase (by rw [hstep]), ?_, .inl ?_⟩
      · rw [Function.iterate_one, hstep, hall]
        exact hhanded
      · rw [hends.togo, hall]
    · have hstep := step_header_more hphase hmore.more
      obtain ⟨n, hn, hphase', hrest, hends⟩ := ih _ (hleft ▸ hmore.shorter) hmore.ready hphase rfl
      refine ⟨n + 1, by rw [hmore.roundsLeft]; omega, .cons hphase (by rwa [hstep]), ?_, ?_⟩
      · rw [Function.iterate_succ_apply, hstep, hrest, hhanded, hmore.togo,
          headerLines_append htakes.terminated hno, List.append_assoc]
      · rw [Function.iterate_succ_apply, hstep, hmore.togo]
        exact hends.append htakes.terminated hno

/-- No line of the next chunk is passed over because of the byte behind its data. -/
def Clean (file : List Char) (s : FileInfoParser) : Prop :=
  ∀ line ∈ chunkLines file s, passedOver false (behind file s) line = false

lemma filter_append_eq_iff {β : Type} {q : β → Bool} {l f g : List β} (hsub : f.Sublist g) :
    l.filter q ++ f = l ++ g ↔ (∀ x ∈ l, q x = true) ∧ f = g := by
  constructor
  · intro heq
    have hlen := congrArg List.length heq
    rw [List.length_append, List.length_append] at hlen
    have hfilter := List.length_filter_le q l
    have hle := hsub.length_le
    have hfg : f = g := hsub.eq_of_length (by omega)
    have hl : l.filter q = l := List.filter_sublist.eq_of_length (by omega)
    exact ⟨List.filter_eq_self.mp hl, hfg⟩
  · rintro ⟨hall, rfl⟩
    rw [List.filter_eq_self.mpr hall]

/-- The footer phase ends. It hands on some of the lines to come, and all of them exactly when the
last line has a line end and no line is passed over. -/
lemma footer_phase (hr : Ready file s) (hshort : ∀ line ∈ lines isEol file,
      line.length < gCodeOverlapSize) (hphase : s.parseState = .parsingFooter) :
    ∃ n ≤ roundsLeft file s, Phase file .parsingFooter .notParsing s n ∧
      ((step file)^[n] s).headerSize = s.headerSize ∧
      ∃ f, f.Sublist (lines isEol (togo file s)) ∧ ((step file)^[n] s).handed = s.handed ++ f ∧
        (f = lines isEol (togo file s) ↔
          openLine isEol (togo file s) = [] ∧ ∀ i < n, Clean file ((step file)^[i] s)) := by
  induction hleft : file.length - s.position using Nat.strong_induction_on generalizing s with
  | _ left ih =>
    obtain ⟨c, htakes, hcase⟩ := chunk (h := false) hr hshort
    have hclean : completeLines isEol c = chunkLines file s → (Clean file s ↔
        ∀ x ∈ completeLines isEol c, keeps false (behind file s) x = true) := by
      intro hlines
      simp [Clean, hlines, keeps]
    have hheader : (readAndProcessFileChunk file false s).1.headerSize = s.headerSize := by
      rw [readAndProcessFileChunk]
      simp only [Bool.and_false, Bool.false_eq_true, if_false]
    obtain ⟨hfalse, -⟩ | hends | hmore := hcase
    · exact absurd hfalse Bool.false_ne_true
    · have hstep := step_footer_end hphase hends.last
      refine ⟨1, Nat.succ_pos _, .single hphase (by rw [hstep]),
        by rw [Function.iterate_one, hstep]; exact hheader,
          (completeLines isEol c).filter (keeps false (behind file s)), ?_, ?_, ?_⟩
      · rw [lines_eq, hends.togo]
        exact List.filter_sublist.trans (List.sublist_append_left _ _)
      · rw [Function.iterate_one, hstep]
        exact htakes.handed
      · have hiff := filter_append_eq_iff (q := keeps false (behind file s))
          (l := completeLines isEol c) (List.nil_sublist (openLine isEol (togo file s)))
        rw [List.append_nil] at hiff
        rw [lines_eq, hends.togo, hiff, ← hclean hends.lines]
        constructor
        · rintro ⟨hthis, hopen⟩
          refine ⟨hopen.symm, fun i hi => ?_⟩
          obtain rfl : i = 0 := by omega
          exact hthis
        · rintro ⟨hopen, hall⟩
          exact ⟨hall 0 Nat.one_pos, hopen.symm⟩
    · have hstep := step_footer_more hphase hmore.more
      obtain ⟨n, hn, hphase', hsize, f, hsub, hrest, hiff⟩ :=
        ih _ (hleft ▸ hmore.shorter) hmore.ready hphase rfl
      refine ⟨n + 1, by rw [hmore.roundsLeft]; omega, .cons hphase (by rwa [hstep]),
        by rw [Function.iterate_succ_apply, hstep, hsize, hheader],
          (completeLines isEol c).filter (keeps false (behind file s)) ++ f, ?_, ?_, ?_⟩
      · rw [hmore.togo, htakes.terminated.lines_append]
        exact List.filter_sublist.append hsub
      · rw [Function.iterate_succ_apply, hstep, hrest, htakes.handed, List.append_assoc]
      · rw [hmore.togo, htakes.terminated.lines_append, filter_append_eq_iff hsub, hiff,
          htakes.terminated.openLine_append, ← hclean hmore.lines]
        constructor
        · rintro ⟨hthis, hopen, hall⟩
          refine ⟨hopen, fun i hi => ?_⟩
          cases i with
          | zero => exact hthis
          | succ i =>
            rw [Function.iterate_succ_apply, hstep]
            exact hall i (by omega)
        · rintro ⟨hopen, hall⟩
          refine ⟨hall 0 (Nat.succ_pos n), hopen, fun i hi => ?_⟩
          have hnext := hall (i + 1) (by omega)
          rwa [Function.iterate_succ_apply, hstep] at hnext

/-! ### A whole file -/

/-- Where the footer region starts. -/
def footerStart (length headerSize : ℕ) : ℕ :=
  if length - length % gCodeReadSize > u32 (headerSize + gCodeFooterSize) then
    length - length % gCodeReadSize - gCodeFooterSize
  else headerSize

lemma ready_of_offset (file : List Char) (s : FileInfoParser) (hposition : s.position ≤ file.length)
    (hoffset : gCodeOverlapSize ≤ s.scanStartOffset)
    (hle : s.scanStartOffset ≤ gCodeOverlapSize + gCodeReadSize) :
    Ready file s ∧
      pending file s = file.drop (s.position + (s.scanStartOffset - gCodeOverlapSize)) := by
  have hpending : pending file s =
      file.drop (s.position + (s.scanStartOffset - gCodeOverlapSize)) := by
    rw [pending, slice_of_le hoffset, List.nil_append, List.drop_drop]
  refine ⟨⟨hposition, hle, ?_⟩, hpending⟩
  rw [hpending]
  exact List.drop_suffix _ _

lemma ready_start (file : List Char) (s : FileInfoParser) :
    Ready file (start s) ∧ togo file (start s) = file := by
  obtain ⟨hready, hpending⟩ := ready_of_offset file (start s) (Nat.zero_le _) le_rfl
    (Nat.le_add_right _ _)
  refine ⟨hready, ?_⟩
  have htogo : togo file (start s) = pending file (start s) := rfl
  rw [htogo, hpending]
  simp [start]

/-- A parser that is about to skip the line it is in, at some place of the file. -/
lemma ready_at {place : ℕ} (hposition : s.position =
    min (place - place % gCodeReadSize) file.length)
    (hoffset : s.scanStartOffset = place % gCodeReadSize + gCodeOverlapSize)
    (hstart : s.atLineStart = false) :
    Ready file s ∧ togo file s = skipLine isEol (file.drop place) := by
  have hmod : place % gCodeReadSize < gCodeReadSize := Nat.mod_lt _ (by decide)
  have hsum := Nat.mod_le place gCodeReadSize
  have hmin := Nat.min_le_right (place - place % gCodeReadSize) file.length
  obtain ⟨hready, hpending⟩ := ready_of_offset file s (by omega) (by omega)
    (by omega)
  refine ⟨hready, ?_⟩
  rw [togo, hstart, hpending, hposition, hoffset, Nat.add_sub_cancel]
  simp only [Bool.false_eq_true, if_false]
  obtain hle | hgt := le_or_gt (place - place % gCodeReadSize) file.length
  · rw [Nat.min_eq_left hle, Nat.sub_add_cancel hsum]
  · rw [Nat.min_eq_right hgt.le, List.drop_of_length_le (by omega),
      List.drop_of_length_le (by omega)]

lemma ready_findEndComments (file : List Char) (s : FileInfoParser) :
    Ready file (findEndComments file s) ∧ togo file (findEndComments file s) =
      skipLine isEol (file.drop (footerStart file.length s.headerSize)) := by
  by_cases hlong : file.length - file.length % gCodeReadSize > u32 (s.headerSize + gCodeFooterSize)
  · have hmultiple :
        (file.length - file.length % gCodeReadSize - gCodeFooterSize) % gCodeReadSize = 0 := by
      have hR : gCodeReadSize = 2048 := rfl
      have hF : gCodeFooterSize = 409600 := rfl
      rw [hR, hF]
      omega
    rw [footerStart, if_pos hlong, findEndComments]
    simp only [if_pos hlong]
    apply ready_at
    · rw [hmultiple, Nat.sub_zero]
    · rw [hmultiple, Nat.zero_add]
    · rfl
  · rw [footerStart, if_neg hlong, findEndComments]
    simp only [if_neg hlong]
    exact ready_at rfl rfl rfl

/-- The parser after some rounds with a file. -/
def after (file : List Char) (s : FileInfoParser) (i : ℕ) : FileInfoParser :=
  (step file)^[i] (start s)

/-- Whether no line without a line end begins after the start of the footer region. -/
def LastLineEnds (file : List Char) (start : ℕ) : Prop :=
  openLine isEol (skipLine isEol (file.drop start)) = []

lemma iterate_notParsing (file : List Char) (hphase : s.parseState = .notParsing) (n : ℕ) :
    (step file)^[n] s = s := by
  have hstep : step file s = s := by rw [step, hphase]
  exact Function.iterate_fixed hstep n

lemma findEndComments_keeps (file : List Char) (s : FileInfoParser) :
    (findEndComments file s).headerSize = s.headerSize ∧
      (findEndComments file s).handed = s.handed := by
  rw [findEndComments]
  split <;> exact ⟨rfl, rfl⟩

/-- The state between the phases: the parser is about to skip to the first line of the footer. -/
lemma step_seeking (hphase : s.parseState = .seeking) :
    ∃ footer, step file s = footer ∧ footer.parseState = .parsingFooter ∧ Ready file footer ∧
      togo file footer = skipLine isEol (file.drop (footerStart file.length s.headerSize)) ∧
      footer.headerSize = s.headerSize ∧ footer.handed = s.handed := by
  obtain ⟨hready, htogo⟩ := ready_findEndComments file s
  obtain ⟨hsize, hhanded⟩ := findEndComments_keeps file s
  have hstep : step file s = { findEndComments file s with parseState := .parsingFooter } := by
    rw [step, hphase]
  obtain ⟨hready', htogo', hsize', hhanded'⟩ :=
    withParseState file (findEndComments file s) .parsingFooter
  exact ⟨_, hstep, rfl, hready' hready, htogo'.trans htogo, hsize'.trans hsize,
    hhanded'.trans hhanded⟩

def blank : FileInfoParser where
  buf := fun _ => '\x00'
  scanStartOffset := 0
  atLineStart := false
  position := 0
  headerSize := 0
  parseState := .notParsing
  handed := []

/-- A comment in front of a command and one behind it. -/
def twoComments : List Char := ";H\nG1\n;TIME:5\n".toList

def noLastEnd : List Char := "G1\n;TIME:5".toList

end RepRapFirmware.Storage.FileInfo
