import RepRapFirmware.Platform.OutputBuffer

/-! Listing a directory page by page. Strings are their characters up to the terminator, and the
directory is read without errors. -/

namespace RepRapFirmware.Platform

open Library.Json

/-! ### Formats -/

/-- `%u` -/
def decimal (n : ℕ) : List Char := Nat.toDigits 10 n

/-- `%ld` -/
def signedDecimal (n : ℤ) : List Char :=
  if n < 0 then '-' :: decimal n.natAbs else decimal n.natAbs

/-- `%0wu` -/
def padded (w n : ℕ) : List Char := List.replicate (w - (decimal n).length) '0' ++ decimal n

def putJsonChar (c : Char) : List Char :=
  if c = '\r' then ['\\', 'r']
  else if c = '\n' then ['\\', 'n']
  else if c = '\t' then ['\\', 't']
  else if c = '"' ∨ c = '\\' then ['\\', c]
  else if c < ' ' then ['?']
  else [c]

/-- `%.s` -/
def putJson (s : List Char) : List Char := s.flatMap putJsonChar

/-- What is left of a character in a response. -/
def printable (c : Char) : Char :=
  if c < ' ' ∧ c ≠ '\r' ∧ c ≠ '\n' ∧ c ≠ '\t' then '?' else c

/-! ### Directories -/

def maxFilenameLength : ℕ := 120

/-- The parts of a time. -/
structure Tm where
  tm_year : ℕ
  tm_mon : ℕ
  tm_mday : ℕ
  tm_hour : ℕ
  tm_min : ℕ
  tm_sec : ℕ

structure FileInfo where
  isDirectory : Bool
  fileName : List Char
  size : ℕ
  lastModified : Tm
  named : fileName ≠ []
  length_le : fileName.length ≤ maxFilenameLength

def FileInfo.hidden (f : FileInfo) : Bool := f.fileName.head? = some '.'

/-- What asking for a directory finds: whether the drive is mounted and the directory there, and the
entries in it. -/
structure Directory where
  mounted : Bool
  there : Bool
  entries : List FileInfo

def FileInfo.isDots (f : FileInfo) : Bool := f.fileName = ['.'] || f.fileName = ['.', '.']

/-- The entries that `FindFirst` and `FindNext` yield. -/
def Directory.found (d : Directory) : List FileInfo := d.entries.dropWhile FileInfo.isDots

/-! ### Responses -/

/-- In what the two kinds of lists differ: the room asked for before an entry, the pieces of text of
an entry, and the text at the end of a page. -/
structure Listing where
  room : FileInfo → ℕ
  pieces : FileInfo → List (List Char)
  closing : ℕ → List Char

def typeChar (f : FileInfo) : Char := if f.isDirectory then 'd' else 'f'

def dateText (t : Tm) : List Char :=
  padded 4 (t.tm_year + 1900) ++ '-' :: padded 2 (t.tm_mon + 1) ++ '-' :: padded 2 t.tm_mday ++
    'T' :: padded 2 t.tm_hour ++ ':' :: padded 2 t.tm_min ++ ':' :: padded 2 t.tm_sec

/-- Entries with types, sizes and dates. -/
def filelist : Listing where
  room f := f.fileName.length * 2 + 50
  pieces f :=
    ["\x7b\"type\":\"".toList ++ typeChar f :: "\",\"name\":\"".toList ++ putJson f.fileName ++
      "\",\"size\":".toList ++ decimal f.size,
     if f.lastModified.tm_year ≤ 80 then ['}']
     else ",\"date\":\"".toList ++ dateText f.lastModified ++ "\"\x7d".toList]
  closing next := "],\"next\":".toList ++ decimal next ++ "\x7d\n".toList

/-- Names only. -/
def files (flagsDirs : Bool) : Listing where
  room f := f.fileName.length * 2 + 20
  pieces f :=
    [(if flagsDirs && f.isDirectory then "\"*".toList else "\"".toList) ++ putJson f.fileName ++
      ['"']]
  closing next := "],\"next\":".toList ++ decimal next ++ ",\"err\":0\x7d\n".toList

/-- The number of files found so far, and the number of bytes that may still be written, go through
the loop; the result begins with the file that the next page starts at. -/
def listLoop (board : Board) (l : Listing) (startAt : ℕ) (maxItems : ℤ) :
    List FileInfo → ℕ → ℕ → OutputBuffer → ℕ × OutputBuffer
  | [], _, _, response => (0, response)
  | f :: fs, filesFound, bytesLeft, response =>
    if f.hidden then listLoop board l startAt maxItems fs filesFound bytesLeft response
    else if filesFound < startAt then
      listLoop board l startAt maxItems fs (filesFound + 1) bytesLeft response
    else if bytesLeft < l.room f ∨ 0 < maxItems ∧ startAt + maxItems.toNat ≤ filesFound then
      (filesFound, response)
    else
      let (n, response) :=
        if filesFound ≠ startAt then response.cat board ',' else (0, response)
      let (m, response) := response.catAll board (l.pieces f)
      listLoop board l startAt maxItems fs (filesFound + 1) (bytesLeft - n - m) response

/-- `StartJsonResponse` and what comes before the entries. -/
def header (line : Option ℤ) (dir : List Char) (startAt : ℕ) : List (List Char) :=
  [['{'],
   match line with
   | some n => "\"line\":".toList ++ signedDecimal n ++ [',']
   | none => [],
   "\"dir\":\"".toList ++ putJson dir ++ "\",\"first\":".toList ++ decimal startAt ++
     ",\"files\":[".toList]

/-- What is asked for: the line number of the command, the directory and its name, the file to start
at, the number of files wanted, and the output buffers that are free. -/
structure Request where
  line : Option ℤ
  dir : List Char
  directory : Directory
  startAt : ℕ
  maxItems : ℤ
  freeBuffers : ℕ

/-- The buffers from which on the entries are written. -/
def startResponse (board : Board) (q : Request) : Option OutputBuffer :=
  (OutputBuffer.allocate q.freeBuffers).map fun b =>
    (b.catAll board (header q.line q.dir q.startAt)).2

/-- The text of a response, or nothing if there was no room for it. -/
def listResponse (board : Board) (l : Listing) (q : Request) : Option (List Char) :=
  match startResponse board q with
  | none => none
  | some response =>
    let (err, nextFile, response) :=
      if !q.directory.mounted then (1, 0, response)
      else if !q.directory.there then (2, 0, response)
      else
        let (nextFile, response) :=
          listLoop board l q.startAt q.maxItems q.directory.found 0
            (response.getBytesLeft board) response
        (0, nextFile, response)
    let (_, response) :=
      response.catf board
        (if err ≠ 0 then "],\"err\":".toList ++ decimal err ++ "\x7d\n".toList else l.closing
        nextFile)
    if response.hadOverflow then none else some response.text

def getFilelistResponse (board : Board) (q : Request) : Option (List Char) :=
  listResponse board filelist q

def getFilesResponse (board : Board) (flagsDirs : Bool) (q : Request) : Option (List Char) :=
  listResponse board (files flagsDirs) q

/-! ### What a page holds -/

def Directory.visible (d : Directory) : List FileInfo := d.entries.filter fun f => !f.hidden

def entryText (l : Listing) (f : FileInfo) : List Char := (l.pieces f).flatten

def separator (n : ℕ) : List Char := if n = 0 then [] else [',']

/-- The text of entries of which the first is the `n`-th of its page. -/
def pageText (l : Listing) : ℕ → List FileInfo → List Char
  | _, [] => []
  | n, f :: fs => separator n ++ entryText l f ++ pageText l (n + 1) fs

/-- The entries that come on a page, when `n` are on it already and some bytes are left. -/
def takePage (l : Listing) (maxItems : ℤ) : ℕ → ℕ → List FileInfo → List FileInfo
  | _, _, [] => []
  | n, bytes, f :: fs =>
    if bytes < l.room f ∨ 0 < maxItems ∧ maxItems.toNat ≤ n then []
    else f :: takePage l maxItems (n + 1) (bytes - (separator n ++ entryText l f).length) fs

/-- Where the next page starts, if this one does not end the list. -/
def nextStart (startAt : ℕ) (page rest : List FileInfo) : ℕ :=
  if page.length = rest.length then 0 else startAt + page.length

def bytesAtStart (board : Board) (q : Request) : ℕ :=
  match startResponse board q with
  | none => 0
  | some response => response.getBytesLeft board

def Request.rest (q : Request) : List FileInfo := q.directory.visible.drop q.startAt

def Request.page (board : Board) (l : Listing) (q : Request) : List FileInfo :=
  takePage l q.maxItems 0 (bytesAtStart board q) q.rest

/-- The entries that come on a page, with their separators and the text at its end, are not longer
than what is left at its start. -/
def PageFits (board : Board) (l : Listing) (q : Request) : Prop :=
  (pageText l 0 (q.page board l)).length +
    (l.closing (nextStart q.startAt (q.page board l) q.rest)).length ≤ bytesAtStart board q

instance (board : Board) (l : Listing) (q : Request) : Decidable (PageFits board l q) :=
  inferInstanceAs (Decidable (_ ≤ _))

variable {board : Board} {l : Listing} {startAt n : ℕ} {maxItems : ℤ} {b : OutputBuffer}
  {fs : List FileInfo} {q : Request}

lemma found_visible (d : Directory) : d.found.filter (fun f => !f.hidden) = d.visible := by
  rw [Directory.found, Directory.visible]
  induction d.entries with
  | nil => rfl
  | cons f fs ih =>
    by_cases hdots : f.isDots = true
    · have hhidden : f.hidden = true := by
        simp only [FileInfo.isDots, Bool.or_eq_true, decide_eq_true_eq] at hdots
        rcases hdots with h | h <;> rw [FileInfo.hidden, h] <;> rfl
      rw [List.dropWhile_cons_of_pos hdots, ih, List.filter_cons_of_neg (by simp [hhidden])]
    · rw [List.dropWhile_cons_of_neg hdots]

lemma listLoop_visible (found bytes : ℕ) : listLoop board l startAt maxItems fs found bytes b =
    listLoop board l startAt maxItems (fs.filter fun f => !f.hidden) found bytes b := by
  induction fs generalizing found bytes b with
  | nil => rfl
  | cons f fs ih =>
    by_cases hhidden : f.hidden = true
    · rw [listLoop, if_pos hhidden, List.filter_cons_of_neg (by simp [hhidden]), ih]
    · rw [List.filter_cons_of_pos (by simp [hhidden]), listLoop, listLoop]
      simp only [if_neg hhidden, ih]

/-- Files before the start of the page are only counted. -/
lemma listLoop_skip (found bytes : ℕ) (hfound : found ≤ startAt)
    (hvisible : ∀ f ∈ fs, f.hidden = false) :
    listLoop board l startAt maxItems fs found bytes b =
      listLoop board l startAt maxItems (fs.drop (startAt - found)) startAt bytes b := by
  induction fs generalizing found with
  | nil => rw [List.drop_nil, listLoop, listLoop]
  | cons f fs ih =>
    rcases Nat.eq_or_lt_of_le hfound with rfl | hlt
    · rw [Nat.sub_self, List.drop_zero]
    · have hf : ¬ f.hidden = true := by simp [hvisible f List.mem_cons_self]
      have hdrop : startAt - found = (startAt - (found + 1)) + 1 := by omega
      rw [listLoop, if_neg hf, if_pos hlt, hdrop, List.drop_succ_cons]
      exact ih (found + 1) hlt fun g hg => hvisible g (List.mem_cons_of_mem f hg)

lemma separator_wrote (board : Board) (startAt n : ℕ) (b : OutputBuffer)
    : OutputBuffer.Wrote board (separator n) b
    (if startAt + n ≠ startAt then b.cat board ',' else (0, b)) := by
  by_cases hn : n = 0
  · rw [if_neg (by omega), separator, if_pos hn]
    exact OutputBuffer.Wrote.nil
  · rw [if_pos (by omega), separator, if_neg hn]
    exact OutputBuffer.cat_wrote board ',' b

/-- The loop writes the page, and keeps an exact count of the bytes that are left. -/
lemma listLoop_page (board : Board) (l : Listing) (startAt : ℕ) (maxItems : ℤ) (n : ℕ) (b
    : OutputBuffer) (hvisible : ∀ f ∈ fs, f.hidden = false) :
    let page := takePage l maxItems n (b.getBytesLeft board) fs
    let r := listLoop board l startAt maxItems fs (startAt + n) (b.getBytesLeft board) b
    r.1 = (if page.length = fs.length then 0 else startAt + n + page.length) ∧
      ∃ w, OutputBuffer.Wrote board (pageText l n page) b (w, r.2) := by
  induction fs generalizing n b with
  | nil => exact ⟨rfl, 0, OutputBuffer.Wrote.nil⟩
  | cons f fs ih =>
    have hf : ¬ f.hidden = true := by simp [hvisible f List.mem_cons_self]
    have hmax : (0 < maxItems ∧ startAt + maxItems.toNat ≤ startAt + n) ↔
        (0 < maxItems ∧ maxItems.toNat ≤ n) := by
      rw [Nat.add_le_add_iff_left]
    have hstart : ¬ startAt + n < startAt := by omega
    simp only [listLoop, takePage, if_neg hf, if_neg hstart, hmax]
    split
    · exact ⟨rfl, 0, OutputBuffer.Wrote.nil⟩
    · have hsep := separator_wrote board startAt n b
      generalize (if startAt + n ≠ startAt then b.cat board ',' else (0, b)) = x at hsep ⊢
      have hentry := hsep.append (OutputBuffer.catAll_wrote board (l.pieces f) x.2)
      generalize OutputBuffer.catAll board (l.pieces f) x.2 = y at hentry ⊢
      have hleft : y.2.getBytesLeft board =
        b.getBytesLeft board - (separator n ++ (l.pieces f).flatten).length := hentry.bytesLeft
      have hcount : b.getBytesLeft board - x.1 - y.1 = y.2.getBytesLeft board := by
        have hwritten : x.1 + y.1 = min _ _ := hentry.written
        omega
      obtain ⟨hnext, w, hwrote⟩ := ih (n + 1) y.2 fun g hg => hvisible g (List.mem_cons_of_mem f hg)
      rw [hcount, entryText, ← hleft, Nat.add_assoc startAt n 1]
      have happ := hentry.append hwrote
      refine ⟨?_, _, happ⟩
      rw [hnext]
      simp only [List.length_cons, Nat.add_right_cancel_iff]
      congr 1
      omega

/-! ### The response -/

lemma startResponse_wrote (h : 0 < bytesAtStart board q) : ∃ b, startResponse board q = some b ∧
    b.getBytesLeft board = bytesAtStart board q ∧ b.hadOverflow = false ∧
      b.text = (header q.line q.dir q.startAt).flatten := by
  cases halloc : OutputBuffer.allocate q.freeBuffers with
  | none => simp [bytesAtStart, startResponse, halloc] at h
  | some a =>
    have hstart : startResponse board q =
        some (a.catAll board (header q.line q.dir q.startAt)).2 := by
      rw [startResponse, halloc]
      rfl
    have hwrote := OutputBuffer.catAll_wrote board (header q.line q.dir q.startAt) a
    have hbytes : bytesAtStart board q =
        (a.catAll board (header q.line q.dir q.startAt)).2.getBytesLeft board := by
      rw [bytesAtStart, hstart]
    have hroom : (header q.line q.dir q.startAt).flatten.length ≤ a.getBytesLeft board := by
      rw [hbytes, hwrote.bytesLeft] at h
      omega
    have hnew : a.text = [] ∧ a.hadOverflow = false := by
      rw [OutputBuffer.allocate] at halloc
      split at halloc
      · cases halloc
      · cases halloc
        exact ⟨rfl, rfl⟩
    refine ⟨_, hstart, hbytes.symm, ?_, ?_⟩
    · rw [hwrote.overflow, hnew.2, decide_eq_false (Nat.not_lt.mpr hroom)]
      rfl
    · rw [hwrote.text, hnew.1, List.take_of_length_le hroom, List.nil_append]

/-- A response is the whole page, or nothing if the page does not fit. -/
lemma listResponse_eq (l : Listing) (hmounted : q.directory.mounted = true)
    (hthere : q.directory.there = true) (h : 0 < bytesAtStart board q) :
    (¬ PageFits board l q → listResponse board l q = none) ∧
      (PageFits board l q → listResponse board l q =
        some ((header q.line q.dir q.startAt).flatten ++ pageText l 0 (q.page board l) ++
          l.closing (nextStart q.startAt (q.page board l) q.rest))) := by
  obtain ⟨b, hstart, hbytes, hover, htext⟩ := startResponse_wrote h
  have hvisible : ∀ f ∈ q.rest, f.hidden = false := by
    intro f hf
    have hmem := List.mem_of_mem_drop hf
    simpa using (List.mem_filter.mp hmem).2
  have hloop : listLoop board l q.startAt q.maxItems q.directory.found 0 (b.getBytesLeft board) b =
      listLoop board l q.startAt q.maxItems q.rest q.startAt (b.getBytesLeft board) b := by
    rw [listLoop_visible, found_visible, listLoop_skip 0 _ (Nat.zero_le _), Nat.sub_zero]
    · rfl
    · intro f hf
      simpa using (List.mem_filter.mp hf).2
  obtain ⟨hnext, w, hwrote⟩ := listLoop_page board l q.startAt q.maxItems 0 b hvisible
  have hpage : takePage l q.maxItems 0 (b.getBytesLeft board) q.rest = q.page board l := by
    rw [hbytes]
    rfl
  rw [hpage, Nat.add_zero] at hnext hwrote
  generalize hr : listLoop board l q.startAt q.maxItems q.rest q.startAt (b.getBytesLeft board) b =
    r
    at hloop hnext hwrote
  have hclosed := hwrote.append
    (OutputBuffer.catf_wrote board (l.closing (nextStart q.startAt (q.page board l) q.rest)) r.2)
  have hresponse : listResponse board l q =
      if (r.2.catf board (l.closing (nextStart q.startAt (q.page board l) q.rest))).2.hadOverflow
        then none
      else some (r.2.catf board (l.closing (nextStart q.startAt (q.page board l) q.rest))).2.text :=
        by
    rw [listResponse, hstart]
    simp only [hmounted, hthere, Bool.not_true, Bool.false_eq_true, if_false, hloop, hnext,
      nextStart,
      ne_eq, not_true_eq_false]
    rfl
  have hoverflow := hclosed.overflow
  have htextOf := hclosed.text
  rw [hover, Bool.false_or, hbytes, List.length_append] at hoverflow
  rw [htext, hbytes] at htextOf
  rw [hresponse, hoverflow]
  refine ⟨fun hfits => ?_, fun hfits => ?_⟩
  · rw [decide_eq_true (Nat.not_le.mp hfits), if_pos rfl]
  · rw [decide_eq_false (Nat.not_lt.mpr hfits), if_neg Bool.false_ne_true, htextOf,
      List.take_of_length_le (by rw [List.length_append]; exact hfits), List.append_assoc]

end RepRapFirmware.Platform
