import RepRapFirmware.Library.TextLines

/-! The lines of a file, read one by one into a buffer that may be too short for them. -/

namespace RepRapFirmware.Storage.ReadLine

open RepRapFirmware.Library.TextLines

def isLineEnd (c : Char) : Bool := c = '\r' ∨ c = '\n'

/-- A file that is open for reading. -/
structure FileStore where
  contents : List Char
  position : ℕ

def read (nBytes : ℕ) (f : FileStore) : List Char × FileStore :=
  let extBuf := (f.contents.drop f.position).take nBytes
  (extBuf, { f with position := f.position + extBuf.length })

/-- `Seek`; a file that is open for reading does not grow. -/
def seek (pos : ℕ) (f : FileStore) : FileStore := { f with position := min pos f.contents.length }

/-- What is before the terminator in the buffer, or `none` for -1. -/
def readLine (nBytes : ℕ) (f : FileStore) : Option (List Char) × FileStore :=
  let lineStart := f.position
  let (buf, f) := read nBytes f
  let r := buf.length
  if r = 0 then (none, f)
  else
    let i := (buf.takeWhile fun c => !isLineEnd c).length
    if i + 1 < r ∧ buf[i]? = some '\r' ∧ buf[i + 1]? = some '\n' then
      (some (buf.take i), seek (lineStart + i + 2) f)
    else if i < r then (some (buf.take i), seek (lineStart + i + 1) f)
    else if i = nBytes then (some (buf.take (i - 1)), seek (lineStart + (i - 1)) f)
    else (some (buf.take i), f)

/-- What each of the calls from a state of the file on returns. -/
def lineRead (nBytes : ℕ) (f : FileStore) : ℕ → Option (List Char)
  | 0 => (readLine nBytes f).1
  | k + 1 => lineRead nBytes (readLine nBytes f).2 k

/-! ### The lines of a file -/

inductive Ending
  | none
  | cr
  | lf
  | crlf
  deriving DecidableEq

def Ending.chars : Ending → List Char
  | none => []
  | cr => ['\r']
  | lf => ['\n']
  | crlf => ['\r', '\n']

/-- The line end that some text begins with. -/
def endingAt : List Char → Ending
  | '\r' :: '\n' :: _ => .crlf
  | '\r' :: _ => .cr
  | '\n' :: _ => .lf
  | _ => .none

def firstLine (file : List Char) : List Char := file.takeWhile fun c => !isLineEnd c

def firstEnding (file : List Char) : Ending := endingAt (file.drop (firstLine file).length)

def afterFirst (file : List Char) : List Char :=
  file.drop ((firstLine file).length + (firstEnding file).chars.length)

/-- What may follow a line and its ending. -/
def Follows (line : List Char) (ending : Ending) (after : List Char) : Prop :=
  match ending with
  | .none => line ≠ [] ∧ after = []
  | .cr => after.head? ≠ some '\n'
  | .lf => True
  | .crlf => True

variable {n : ℕ} {file line piece after rest : List Char} {ending : Ending} {f f' : FileStore}
  {rs : List (List Char)}

lemma endingAt_of_isLineEnd {c : Char} (hc : isLineEnd c = true) (l : List Char) :
    ∃ ending after, c :: l = Ending.chars ending ++ after ∧ endingAt (c :: l) = ending ∧
      ∀ line, Follows line ending after := by
  have hc' : c = '\r' ∨ c = '\n' := of_decide_eq_true hc
  rcases hc' with rfl | rfl
  · match l with
    | [] => exact ⟨.cr, [], rfl, rfl, fun _ => by simp [Follows]⟩
    | d :: l =>
      by_cases hd : d = '\n'
      · subst hd
        exact ⟨.crlf, l, rfl, rfl, fun _ => trivial⟩
      · refine ⟨.cr, d :: l, rfl, ?_, fun _ => by simpa [Follows] using hd⟩
        rw [endingAt]
        rintro l' ⟨⟩
        exact hd rfl
  · exact ⟨.lf, l, rfl, rfl, fun _ => trivial⟩

lemma endingAt_chars (hfollows : Follows line ending after) :
    endingAt (ending.chars ++ after) = ending := by
  cases ending with
  | none =>
    rw [hfollows.2]
    rfl
  | cr =>
    cases after with
    | nil => rfl
    | cons d l =>
      have hd : d ≠ '\n' := by simpa [Follows] using hfollows
      change endingAt ('\r' :: d :: l) = .cr
      rw [endingAt]
      rintro l' ⟨⟩
      exact hd rfl
  | lf => rfl
  | crlf => rfl

/-- A file that is not empty begins with a line, its ending and what follows. -/
lemma exists_first (hfile : file ≠ []) : ∃ line ending after, Free isLineEnd line ∧
    Follows line ending after ∧ file = line ++ (Ending.chars ending ++ after) := by
  obtain hfree | ⟨line, c, l, hfree, hc, rfl⟩ := split_first isLineEnd file
  · exact ⟨file, .none, [], hfree, ⟨hfile, rfl⟩, (List.append_nil file).symm⟩
  · obtain ⟨ending, after, hsplit, -, hfollows⟩ := endingAt_of_isLineEnd hc l
    exact ⟨line, ending, after, hfree, hfollows line, congrArg (line ++ ·) hsplit⟩

lemma chars_stop (hfollows : Follows line ending after) :
    ∀ c ∈ (ending.chars ++ after).head?, isLineEnd c = true := by
  cases ending with
  | none =>
    rw [hfollows.2]
    exact fun c hc => nomatch hc
  | cr => rintro c ⟨⟩; rfl
  | lf => rintro c ⟨⟩; rfl
  | crlf => rintro c ⟨⟩; rfl

lemma takeWhile_line (hfree : Free isLineEnd line)
    (hstop : ∀ c ∈ rest.head?, isLineEnd c = true) :
    (line ++ rest).takeWhile (fun c => !isLineEnd c) = line := by
  rw [List.takeWhile_append_of_pos fun c hc => by simp [hfree c hc]]
  cases rest with
  | nil => exact List.append_nil line
  | cons c l => simp [hstop c rfl]

lemma firstLine_append (hfree : Free isLineEnd line) (hfollows : Follows line ending after) :
    firstLine (line ++ (ending.chars ++ after)) = line :=
  takeWhile_line hfree (chars_stop hfollows)

lemma firstEnding_append (hfree : Free isLineEnd line) (hfollows : Follows line ending after) :
    firstEnding (line ++ (ending.chars ++ after)) = ending := by
  rw [firstEnding, firstLine_append hfree hfollows, List.drop_left, endingAt_chars hfollows]

lemma afterFirst_append (hfree : Free isLineEnd line) (hfollows : Follows line ending after) :
    afterFirst (line ++ (ending.chars ++ after)) = after := by
  rw [afterFirst, firstLine_append hfree hfollows, firstEnding_append hfree hfollows,
    ← List.append_assoc, ← List.length_append, List.drop_left]

lemma Follows.length_pos (hfollows : Follows line ending after) :
    0 < line.length + ending.chars.length := by
  cases ending with
  | none => exact Nat.add_pos_left (List.length_pos_of_ne_nil hfollows.1) _
  | cr => exact Nat.succ_pos _
  | lf => exact Nat.succ_pos _
  | crlf => exact Nat.succ_pos _

lemma length_afterFirst (hfile : file ≠ []) : (afterFirst file).length < file.length := by
  obtain ⟨line, ending, after, hfree, hfollows, rfl⟩ := exists_first hfile
  have hpos := hfollows.length_pos
  rw [afterFirst_append hfree hfollows, List.length_append, List.length_append]
  omega

/-- The lines of a file with their endings: CR LF is one line end, and so is a CR or LF alone. The
last line may have no line end, but then it is not empty. -/
def endedLines (file : List Char) : List (List Char × Ending) :=
  if _hfile : file = [] then []
  else (firstLine file, firstEnding file) :: endedLines (afterFirst file)
  termination_by file.length
  decreasing_by exact length_afterFirst _hfile

lemma endedLines_append (hfree : Free isLineEnd line) (hfollows : Follows line ending after) :
    endedLines (line ++ (ending.chars ++ after)) = (line, ending) :: endedLines after := by
  have hpos := hfollows.length_pos
  have hfile : line ++ (ending.chars ++ after) ≠ [] := by
    apply List.ne_nil_of_length_pos
    rw [List.length_append, List.length_append]
    omega
  rw [endedLines, dif_neg hfile, firstLine_append hfree hfollows,
    firstEnding_append hfree hfollows, afterFirst_append hfree hfollows]

/-- A line as it is delivered: in one piece if the buffer holds it with its terminator, else in
consecutive pieces that the buffer holds. -/
def Delivers (nBytes : ℕ) (line : List Char) (pieces : List (List Char)) : Prop :=
  (line.length < nBytes ∧ pieces = [line]) ∨
    (nBytes ≤ line.length ∧ pieces.flatten = line ∧ ∀ p ∈ pieces, p ≠ [] ∧ p.length < nBytes)

/-- Successive calls from the start deliver the lines of the file in order, and then nothing more.
-/
def SplitsIntoLines (nBytes : ℕ) (file : List Char) : Prop :=
  ∃ pieces : List (List (List Char)),
    List.Forall₂ (Delivers nBytes) ((endedLines file).map Prod.fst) pieces ∧
      ∀ k, lineRead nBytes ⟨file, 0⟩ k = pieces.flatten[k]?

/-! ### What one call does -/

def FileStore.unread (f : FileStore) : List Char := f.contents.drop f.position

lemma unread_seek (f : FileStore) (k p : ℕ) :
    (seek (f.position + k) { f with position := p }).unread = f.unread.drop k := by
  rw [FileStore.unread, FileStore.unread, seek, List.drop_drop]
  rcases Nat.le_total (f.position + k) f.contents.length with hle | hle
  · rw [min_eq_left hle]
  · rw [min_eq_right hle, List.drop_length, List.drop_eq_nil_of_le hle]

lemma readLine_nil (hunread : f.unread = []) : readLine n f = (none, f) := by
  have hbuf : (f.contents.drop f.position).take n = [] := by
    rw [FileStore.unread] at hunread
    rw [hunread, List.take_nil]
  simp only [readLine, read, hbuf, List.length_nil, if_true, Nat.add_zero]

lemma takeWhile_free (hfree : Free isLineEnd line) :
    line.takeWhile (fun c => !isLineEnd c) = line := by
  have hstop : ∀ c ∈ ([] : List Char).head?, isLineEnd c = true := fun c hc => nomatch hc
  have h := takeWhile_line hfree hstop
  rwa [List.append_nil] at h

/-- The line does not end within the buffer. -/
lemma readLine_long (hn : 2 ≤ n) (hfree : Free isLineEnd line) (hlong : n ≤ line.length)
    (hunread : f.unread = line ++ rest) :
    ∃ f', readLine n f = (some (line.take (n - 1)), f') ∧
      f'.unread = line.drop (n - 1) ++ rest := by
  have hbuf : (f.contents.drop f.position).take n = line.take n := by
    rw [FileStore.unread] at hunread
    rw [hunread, List.take_append_of_le_length hlong]
  have hlength : (line.take n).length = n := List.length_take_of_le hlong
  have htake : (line.take n).takeWhile (fun c => !isLineEnd c) = line.take n :=
    takeWhile_free fun c hc => hfree c (List.mem_of_mem_take hc)
  have hcut : (line.take n).take (n - 1) = line.take (n - 1) := by
    rw [List.take_take, min_eq_left (Nat.sub_le n 1)]
  refine ⟨seek (f.position + (n - 1)) { f with position := f.position + n }, ?_, ?_⟩
  · simp only [readLine, read, hbuf, htake, hlength]
    rw [if_neg (by omega), if_neg (by omega), if_neg (lt_irrefl n), if_true, hcut]
  · rw [unread_seek, hunread, List.drop_append_of_le_length (by omega)]

/-- The buffer holds the line and its terminator. -/
lemma readLine_buf {tail : List Char} (hne : line ++ tail ≠ []) (hshort : line.length < n)
    (hfree : Free isLineEnd line) (hstop : ∀ c ∈ tail.head?, isLineEnd c = true)
    (hbuf : f.unread.take n = line ++ tail) :
    readLine n f = (some line,
      if 1 < tail.length ∧ tail[0]? = some '\r' ∧ tail[1]? = some '\n' then
        seek (f.position + (line.length + 2)) { f with position :=
          f.position + (line ++ tail).length }
      else if tail ≠ [] then
        seek (f.position + (line.length + 1)) { f with position :=
          f.position + (line ++ tail).length }
      else { f with position := f.position + line.length }) := by
  rw [FileStore.unread] at hbuf
  have hpos : (line ++ tail).length ≠ 0 := by simpa using hne
  have hget (j : ℕ) : (line ++ tail)[line.length + j]? = tail[j]? := by
    rw [List.getElem?_append_right (Nat.le_add_right _ _), Nat.add_sub_cancel_left]
  have hget0 : (line ++ tail)[line.length]? = tail[0]? := hget 0
  have hlt : line.length + 1 < (line ++ tail).length ↔ 1 < tail.length := by
    rw [List.length_append]
    omega
  have hlt0 : line.length < (line ++ tail).length ↔ tail ≠ [] := by
    rw [List.length_append, ← List.length_pos_iff]
    omega
  simp only [readLine, read, hbuf, takeWhile_line hfree hstop, hget, hget0, hlt, hlt0, if_neg hpos,
    List.take_left, if_neg hshort.ne, Nat.add_assoc]
  split_ifs with hcrlf hend
  · rfl
  · rfl
  · rw [not_not.mp hend, List.append_nil]

/-- The line ends within the buffer, or with the file. -/
lemma readLine_short (hfree : Free isLineEnd line) (hfollows : Follows line ending after)
    (hshort : line.length < n) (hunread : f.unread = line ++ (ending.chars ++ after)) :
    ∃ f', readLine n f = (some line, f') ∧ f'.unread =
      if ending = .crlf ∧ line.length + 1 = n then '\n' :: after else after := by
  obtain ⟨k, rfl⟩ : ∃ k, n = line.length + (k + 1) := ⟨n - line.length - 1, by omega⟩
  have hbuf : f.unread.take (line.length + (k + 1)) =
      line ++ (ending.chars ++ after).take (k + 1) := by
    rw [hunread, List.take_append, List.take_of_length_le (Nat.le_add_right _ _),
      Nat.add_sub_cancel_left]
  have hstop : ∀ c ∈ ((ending.chars ++ after).take (k + 1)).head?, isLineEnd c = true := by
    intro c hc
    rw [List.head?_take, if_neg (Nat.succ_ne_zero k)] at hc
    exact chars_stop hfollows c hc
  have hdrop (j : ℕ) : (line ++ (ending.chars ++ after)).drop (line.length + j) =
      (ending.chars ++ after).drop j := by
    rw [List.drop_append, List.drop_eq_nil_of_le (Nat.le_add_right _ _), Nat.add_sub_cancel_left,
      List.nil_append]
  have hended (h : ending ≠ .none) : (ending.chars ++ after).take (k + 1) ≠ [] := by
    cases ending with
    | none => exact absurd rfl h
    | cr => exact List.cons_ne_nil _ _
    | lf => exact List.cons_ne_nil _ _
    | crlf => exact List.cons_ne_nil _ _
  have hne : line ++ (ending.chars ++ after).take (k + 1) ≠ [] := by
    by_cases h : ending = .none
    · subst h
      exact List.append_ne_nil_of_left_ne_nil hfollows.1 _
    · exact List.append_ne_nil_of_right_ne_nil _ (hended h)
  refine ⟨_, readLine_buf hne hshort hfree hstop hbuf, ?_⟩
  cases ending with
  | none =>
    rw [if_neg (fun h => by simpa [hfollows.2, Ending.chars] using h.1),
      if_neg (fun h => h (by simp [hfollows.2, Ending.chars])), if_neg (fun h => nomatch h.1)]
    rw [FileStore.unread, ← List.drop_drop]
    change f.unread.drop _ = _
    rw [hunread, List.drop_left]
    rfl
  | cr =>
    have hnext : (Ending.cr.chars ++ after).take (k + 1) = '\r' :: after.take k := rfl
    rw [if_neg, if_pos (hended (nomatch ·)), if_neg (fun h => nomatch h.1),
      unread_seek, hunread, hdrop]
    · rfl
    · rintro ⟨-, -, hlf⟩
      rw [hnext, List.getElem?_cons_succ, List.getElem?_take] at hlf
      split at hlf
      · exact hfollows (List.head?_eq_getElem? ▸ hlf)
      · exact nomatch hlf
  | lf =>
    rw [if_neg (fun h => nomatch h.2.1), if_pos (hended (nomatch ·)), if_neg (fun h => nomatch h.1),
      unread_seek, hunread, hdrop]
    rfl
  | crlf =>
    cases k with
    | zero =>
      rw [if_neg (fun h => nomatch h.2.2), if_pos (hended (nomatch ·)), if_pos ⟨rfl, rfl⟩,
        unread_seek, hunread, hdrop]
      rfl
    | succ k =>
      rw [if_pos ⟨Nat.succ_lt_succ (Nat.succ_pos _), rfl, rfl⟩, if_neg (fun h => by omega),
        unread_seek, hunread, hdrop]
      rfl

/-- What is left after a call, and what the call has delivered, was there before it. -/
lemma readLine_advance (hn : 2 ≤ n) (h : readLine n f = (some piece, f')) :
    piece.length + f'.unread.length ≤ f.unread.length := by
  by_cases hunread : f.unread = []
  · rw [readLine_nil hunread] at h
    exact absurd (congrArg Prod.fst h).symm (Option.some_ne_none piece)
  · obtain ⟨line, ending, after, hfree, hfollows, hsplit⟩ := exists_first hunread
    rcases Nat.lt_or_ge line.length n with hshort | hlong
    · obtain ⟨f₁, hread, hrest⟩ := readLine_short hfree hfollows hshort hsplit
      obtain ⟨rfl, rfl⟩ := Prod.mk.inj (hread.symm.trans h) |>.imp Option.some.inj id
      rw [hsplit, hrest, List.length_append, List.length_append]
      split
      · next hcut =>
        rw [hcut.1, List.length_cons]
        change _ ≤ line.length + (2 + after.length)
        omega
      · omega
    · obtain ⟨f₁, hread, hrest⟩ := readLine_long hn hfree hlong hsplit
      obtain ⟨rfl, rfl⟩ := Prod.mk.inj (hread.symm.trans h) |>.imp Option.some.inj id
      simp only [hsplit, hrest, List.length_append, List.length_take, List.length_drop]
      omega

/-! ### Successive calls -/

/-- The pieces in which a line is read. -/
def piecesRead (n : ℕ) (line : List Char) (ending : Ending) : List (List Char) :=
  if _hlong : 2 ≤ n ∧ n ≤ line.length then
    line.take (n - 1) :: piecesRead n (line.drop (n - 1)) ending
  else if ending = .crlf ∧ line.length + 1 = n then [line, []]
  else [line]
  termination_by line.length
  decreasing_by
    rw [List.length_drop]
    omega

lemma piecesRead_long (hn : 2 ≤ n) (hlong : n ≤ line.length) :
    piecesRead n line ending = line.take (n - 1) :: piecesRead n (line.drop (n - 1)) ending := by
  rw [piecesRead, dif_pos ⟨hn, hlong⟩]

lemma piecesRead_short (hshort : line.length < n) : piecesRead n line ending =
    if ending = .crlf ∧ line.length + 1 = n then [line, []] else [line] := by
  rw [piecesRead, dif_neg (fun h => by omega)]

/-- The rest of a line that is too long is shorter, and it is not empty. -/
lemma length_drop_long (hn : 2 ≤ n) (hlong : n ≤ line.length) :
    (line.drop (n - 1)).length < line.length ∧ line.drop (n - 1) ≠ [] := by
  constructor
  · rw [List.length_drop]
    omega
  · apply List.ne_nil_of_length_pos
    rw [List.length_drop]
    omega

/-- Induction on a line by the pieces that are taken off. -/
theorem pieces_induction (hn : 2 ≤ n) {P : List Char → Prop} (hshort : ∀ l, l.length < n → P l)
    (hlong : ∀ l, n ≤ l.length → P (l.drop (n - 1)) → P l) (line : List Char) : P line := by
  induction hlength : line.length using Nat.strong_induction_on generalizing line with
  | _ m ih =>
    rcases Nat.lt_or_ge line.length n with hlt | hle
    · exact hshort line hlt
    · exact hlong line hle (ih _ (hlength ▸ (length_drop_long hn hle).1) _ rfl)

def Reads (n : ℕ) (f : FileStore) (rs : List (List Char)) : Prop := ∀ k, lineRead n f k = rs[k]?

lemma Reads.nil (hunread : f.unread = []) : Reads n f [] := by
  intro k
  induction k with
  | zero => rw [lineRead, readLine_nil hunread, List.getElem?_nil]
  | succ k ih =>
    rw [lineRead, readLine_nil hunread, ih, List.getElem?_nil, List.getElem?_nil]

lemma Reads.cons (hread : readLine n f = (some piece, f')) (hnext : Reads n f' rs) :
    Reads n f (piece :: rs) := by
  intro k
  cases k with
  | zero => rw [lineRead, hread, List.getElem?_cons_zero]
  | succ k => rw [lineRead, hread, List.getElem?_cons_succ, hnext k]

lemma Follows.drop (hn : 2 ≤ n) (hlong : n ≤ line.length) (hfollows : Follows line ending after) :
    Follows (line.drop (n - 1)) ending after := by
  cases ending with
  | none => exact ⟨(length_drop_long hn hlong).2, hfollows.2⟩
  | cr => exact hfollows
  | lf => exact trivial
  | crlf => exact trivial

lemma reads_line (hn : 2 ≤ n) (hnext : ∀ g : FileStore, g.unread = after → Reads n g rs)
    (hfree : Free isLineEnd line) (hfollows : Follows line ending after)
    (hunread : f.unread = line ++ (ending.chars ++ after)) :
    Reads n f (piecesRead n line ending ++ rs) := by
  induction line using pieces_induction hn generalizing f with
  | hshort line hshort =>
    obtain ⟨f', hread, hunread'⟩ := readLine_short hfree hfollows hshort hunread
    rw [piecesRead_short hshort]
    by_cases hcut : ending = .crlf ∧ line.length + 1 = n
    · rw [if_pos hcut] at hunread' ⊢
      -- the LF that was left is a line of its own to the next call
      have hempty : ([] : List Char).length < n := by
        rw [List.length_nil]
        omega
      have hfree' : Free isLineEnd [] := fun c hc => absurd hc List.not_mem_nil
      have hfollows' : Follows [] .lf after := trivial
      obtain ⟨f'', hread', hunread''⟩ := readLine_short hfree' hfollows' hempty hunread'
      rw [if_neg (nomatch ·.1)] at hunread''
      exact Reads.cons hread (Reads.cons hread' (hnext f'' hunread''))
    · rw [if_neg hcut] at hunread' ⊢
      exact Reads.cons hread (hnext f' hunread')
  | hlong line hlong ih =>
    obtain ⟨f', hread, hunread'⟩ := readLine_long hn hfree hlong hunread
    rw [piecesRead_long hn hlong]
    apply Reads.cons hread
    exact ih (fun c hc => hfree c (List.mem_of_mem_drop hc)) (hfollows.drop hn hlong) hunread'

theorem reads_file (hn : 2 ≤ n) (file : List Char) (hunread : f.unread = file) :
    Reads n f ((endedLines file).flatMap fun l => piecesRead n l.1 l.2) := by
  induction hlength : file.length using Nat.strong_induction_on generalizing f file with
  | _ m ih =>
    by_cases hfile : file = []
    · subst hfile
      rw [endedLines, dif_pos rfl]
      exact Reads.nil hunread
    · obtain ⟨line, ending, after, hfree, hfollows, hsplit⟩ := exists_first hfile
      have hlt := length_afterFirst hfile
      rw [hsplit, afterFirst_append hfree hfollows, ← hsplit, hlength] at hlt
      rw [hsplit, endedLines_append hfree hfollows, List.flatMap_cons]
      exact reads_line hn (fun g hg => ih after.length hlt after hg rfl) hfree hfollows
        (hunread.trans hsplit)

/-! ### Extra empty lines -/

/-- The buffer ends between the CR and the LF of the line. -/
def Cut (n : ℕ) (line : List Char) (ending : Ending) : Prop :=
  ending = .crlf ∧ line ≠ [] ∧ (n - 1) ∣ line.length

instance (n : ℕ) (line : List Char) (ending : Ending) : Decidable (Cut n line ending) :=
  inferInstanceAs (Decidable (_ ∧ _ ∧ _))

lemma flatten_piecesRead (hn : 2 ≤ n) : (piecesRead n line ending).flatten = line := by
  induction line using pieces_induction hn with
  | hshort line hshort =>
    rw [piecesRead_short hshort]
    split
    · rw [List.flatten_cons, List.flatten_cons, List.flatten_nil, List.append_nil, List.append_nil]
    · exact List.flatten_singleton
  | hlong line hlong ih =>
    rw [piecesRead_long hn hlong, List.flatten_cons, ih, List.take_append_drop]

lemma length_of_mem_piecesRead (hn : 2 ≤ n) (hmem : piece ∈ piecesRead n line ending) :
    piece.length < n := by
  induction line using pieces_induction hn with
  | hshort line hshort =>
    rw [piecesRead_short hshort] at hmem
    split at hmem
    · rw [List.mem_pair] at hmem
      rcases hmem with rfl | rfl
      · exact hshort
      · rw [List.length_nil]
        omega
    · rw [List.mem_singleton] at hmem
      exact hmem ▸ hshort
  | hlong line hlong ih =>
    rw [piecesRead_long hn hlong, List.mem_cons] at hmem
    rcases hmem with rfl | hmem
    · rw [List.length_take]
      omega
    · exact ih hmem

lemma cut_short (hn : 2 ≤ n) (hshort : line.length < n) :
    Cut n line ending ↔ ending = .crlf ∧ line.length + 1 = n := by
  refine and_congr_right fun _ => ⟨fun ⟨hne, hdvd⟩ => ?_, fun hlength => ⟨?_, ?_⟩⟩
  · have hle := Nat.le_of_dvd (List.length_pos_of_ne_nil hne) hdvd
    omega
  · apply List.ne_nil_of_length_pos
    omega
  · exact dvd_of_eq (by omega)

lemma cut_drop (hn : 2 ≤ n) (hlong : n ≤ line.length) :
    Cut n (line.drop (n - 1)) ending ↔ Cut n line ending := by
  have hne : line ≠ [] := List.ne_nil_of_length_pos (by omega)
  have hdvd : (n - 1) ∣ (line.drop (n - 1)).length ↔ (n - 1) ∣ line.length := by
    rw [List.length_drop]
    exact Nat.dvd_sub_self_right.trans (or_iff_left (by omega))
  rw [Cut, Cut, hdvd]
  simp only [(length_drop_long hn hlong).2, hne, ne_eq, not_false_eq_true, true_and]

lemma count_piecesRead (hn : 2 ≤ n) (line : List Char) (ending : Ending)
    : (piecesRead n line ending).count [] =
    (if line = [] then 1 else 0) + if Cut n line ending then 1 else 0 := by
  induction line using pieces_induction hn with
  | hshort line hshort =>
    rw [piecesRead_short hshort]
    simp only [cut_short hn hshort]
    by_cases hcut : ending = .crlf ∧ line.length + 1 = n
    · rw [if_pos hcut, if_pos hcut, List.count_cons, List.count_singleton]
      simp only [beq_iff_eq, beq_self_eq_true, if_true, Nat.add_comm]
    · rw [if_neg hcut, if_neg hcut, List.count_singleton]
      simp only [beq_iff_eq, Nat.add_zero]
  | hlong line hlong ih =>
    have hne : line ≠ [] := List.ne_nil_of_length_pos (by omega)
    have htake : line.take (n - 1) ≠ [] := by
      apply List.ne_nil_of_length_pos
      rw [List.length_take]
      omega
    rw [piecesRead_long hn hlong, List.count_cons_of_ne htake, ih,
      if_neg (length_drop_long hn hlong).2, if_neg hne]
    simp only [cut_drop hn hlong]

lemma Delivers.count {pieces : List (List Char)} (h : Delivers n line pieces) (hn : 2 ≤ n) :
    pieces.count [] = if line = [] then 1 else 0 := by
  obtain ⟨-, rfl⟩ | ⟨hlong, -, hpieces⟩ := h
  · simp only [List.count_singleton, beq_iff_eq]
  · have hne : line ≠ [] := List.ne_nil_of_length_pos (by omega)
    rw [if_neg hne]
    exact List.count_eq_zero.mpr fun hmem => (hpieces [] hmem).1 rfl

lemma delivers_piecesRead (hn : 2 ≤ n) (hcut : ¬ Cut n line ending) :
    Delivers n line (piecesRead n line ending) := by
  rcases Nat.lt_or_ge line.length n with hshort | hlong
  · refine .inl ⟨hshort, ?_⟩
    rw [piecesRead_short hshort, if_neg (mt (cut_short hn hshort).mpr hcut)]
  · have hne : line ≠ [] := List.ne_nil_of_length_pos (by omega)
    have hcount := count_piecesRead hn line ending
    rw [if_neg hne, if_neg hcut, List.count_eq_zero] at hcount
    refine .inr ⟨hlong, flatten_piecesRead hn, fun p hp => ⟨?_, length_of_mem_piecesRead hn hp⟩⟩
    rintro rfl
    exact hcount hp

lemma count_delivered {pieces : List (List (List Char))} {ended : List (List Char × Ending)}
    (hn : 2 ≤ n) (h : List.Forall₂ (Delivers n) (ended.map Prod.fst) pieces) :
    (ended.flatMap fun l => piecesRead n l.1 l.2).count [] =
      pieces.flatten.count [] + ended.countP fun l => Cut n l.1 l.2 := by
  induction ended generalizing pieces with
  | nil =>
    cases h
    rfl
  | cons l ended ih =>
    obtain ⟨group, pieces, hgroup, hrest, rfl⟩ := List.forall₂_cons_left_iff.mp h
    rw [List.flatMap_cons, List.count_append, ih hrest, count_piecesRead hn l.1 l.2,
      List.flatten_cons,
      List.count_append, hgroup.count hn, List.countP_cons]
    simp only [decide_eq_true_eq]
    omega

/-- An extra empty line comes from every line that is cut at its CR LF. -/
lemma not_cut_of_splits (hn : 2 ≤ n) (h : SplitsIntoLines n file)
    (hmem : (line, ending) ∈ endedLines file) : ¬ Cut n line ending := by
  obtain ⟨pieces, hdelivers, hreads⟩ := h
  have hall : ((endedLines file).flatMap fun l => piecesRead n l.1 l.2) = pieces.flatten := by
    apply List.ext_getElem?
    intro k
    have hread := reads_file (f := ⟨file, 0⟩) hn file rfl
    rw [← hread k, hreads]
  have hcount := count_delivered hn hdelivers
  rw [hall, Nat.left_eq_add, List.countP_eq_zero] at hcount
  exact of_decide_eq_false (Bool.eq_false_iff.mpr (hcount (line, ending) hmem))

lemma forall₂_delivers (hn : 2 ≤ n) (ended : List (List Char × Ending))
    (hcut : ∀ l ∈ ended, ¬ Cut n l.1 l.2) : List.Forall₂ (Delivers n) (ended.map Prod.fst)
      (ended.map fun l => piecesRead n l.1 l.2) := by
  rw [List.forall₂_map_left_iff, List.forall₂_map_right_iff]
  exact List.forall₂_same.mpr fun l hl => delivers_piecesRead hn (hcut l hl)

/-- Reading line by line delivers the lines of the file if and only if the buffer never ends between
the CR and the LF of a line that is not empty. -/
theorem splitsIntoLines_iff (file : List Char) (nBytes : ℕ) (hn : 2 ≤ nBytes) :
    SplitsIntoLines nBytes file ↔
      ∀ line, (line, Ending.crlf) ∈ endedLines file → line ≠ [] → ¬ (nBytes - 1) ∣ line.length := by
  constructor
  · intro h line hmem hne hdvd
    exact not_cut_of_splits hn h hmem ⟨rfl, hne, hdvd⟩
  · intro h
    refine ⟨_, forall₂_delivers hn (endedLines file) ?_, fun k => ?_⟩
    · rintro ⟨line, ending⟩ hmem ⟨rfl, hne, hdvd⟩
      exact h line hmem hne hdvd
    · rw [← List.flatMap_def]
      exact reads_file (f := ⟨file, 0⟩) hn file rfl k

theorem splitsIntoLines_ab : SplitsIntoLines 8 ['a', 'b', '\r', '\n'] := by
  apply (splitsIntoLines_iff ['a', 'b', '\r', '\n'] 8 (by decide)).mpr
  have hended : endedLines ['a', 'b', '\r', '\n'] = [(['a', 'b'], .crlf)] := by
    have hrest : endedLines [] = [] := by rw [endedLines, dif_pos rfl]
    rw [endedLines, dif_neg (List.cons_ne_nil _ _)]
    exact congrArg (_ :: ·) hrest
  rw [hended]
  intro line hmem hne
  rw [List.mem_singleton, Prod.mk.injEq] at hmem
  rw [hmem.1]
  decide

/-- The line `ab` that ends with CR LF is followed by an empty line when the buffer has room for
three
characters. -/
theorem crlf_cut_ab : ¬ ∀ (file : List Char) (nBytes : ℕ), 2 ≤ nBytes →
    SplitsIntoLines nBytes file := by
  intro h
  have hmem : (['a', 'b'], Ending.crlf) ∈ endedLines ['a', 'b', '\r', '\n'] := by
    rw [endedLines, dif_neg (List.cons_ne_nil _ _)]
    exact List.mem_cons_self
  exact not_cut_of_splits (by decide) (h ['a', 'b', '\r', '\n'] 3 (by decide)) hmem (by decide)

end RepRapFirmware.Storage.ReadLine
