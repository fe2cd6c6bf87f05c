import Mathlib.Tactic
import RepRapFirmware.Library.Uuencoding
import RepRapFirmware.RRFLibraries.IntegerFormatting

/-! Sending a block of data to the boot loader of the LPC, uuencoded and with a checksum. -/

namespace RepRapFirmware.Hardware.LpcIspUpdater

open Library.TextLines Library.Uuencoding RRFLibraries.SafeVsnprintf

def transferSize : ℕ := 512

def uuencodeLineBytes : ℕ := 45

def maxUuencodeAttempts : ℕ := 3

/-- The array a line is built in. -/
def lineSize : ℕ := 64

def uuencodeChar (value : BitVec 8) : Char :=
  let value := value &&& 0x3F
  if value = 0 then '`' else Char.ofNat (value + 0x20#8).toNat

/-- A turn of the loop over the bytes of a line. -/
def sendTriple (data : List (BitVec 8)) (offset lineLength : ℕ) (sent : List Char × BitVec 32)
    (i : ℕ) : List Char × BitVec 32 :=
  let (line, checksum) := sent
  let a := data.getD (offset + i) 0
  let b := if i + 1 < lineLength then data.getD (offset + i + 1) 0 else 0
  let c := if i + 2 < lineLength then data.getD (offset + i + 2) 0 else 0
  let checksum := checksum + a.setWidth 32
  let checksum := if i + 1 < lineLength then checksum + b.setWidth 32 else checksum
  let checksum := if i + 2 < lineLength then checksum + c.setWidth 32 else checksum
  (line ++ [uuencodeChar (a >>> 2), uuencodeChar (a <<< 4 ||| b >>> 4),
    uuencodeChar (b <<< 2 ||| c >>> 6), uuencodeChar c], checksum)

/-- A turn of the loop over the lines. -/
def sendLine (data : List (BitVec 8)) (length : ℕ) (sent : List (List Char) × BitVec 32)
    (offset : ℕ) : List (List Char) × BitVec 32 :=
  let (lines, checksum) := sent
  let lineLength :=
    if length - offset < uuencodeLineBytes then length - offset else uuencodeLineBytes
  let (line, checksum) := (List.range' 0 ((lineLength + 2) / 3) 3).foldl
    (sendTriple data offset lineLength) ([uuencodeChar (BitVec.ofNat 8 lineLength)], checksum)
  (lines ++ [line ++ ['\r', '\n']], checksum)

/-- What goes out in one attempt: the calls of `write`, and the text of the checksum. -/
structure Attempt where
  lines : List (List Char)
  checksumLine : List Char
  deriving DecidableEq

def sendAttempt (data : List (BitVec 8)) : Attempt :=
  let (lines, checksum) :=
    (List.range' 0 ((data.length + (uuencodeLineBytes - 1)) / uuencodeLineBytes)
      uuencodeLineBytes).foldl (sendLine data data.length) ([], 0)
  ⟨lines, (safeVsnprintf 24 "%lu\r\n".toList [.int checksum]).1.dropLast⟩

/-- The loop over the attempts. No response is one that does not come in time. -/
def attemptLoop (data : List (BitVec 8)) (response : ℕ → Option String) :
    ℕ → ℕ → Bool × List Attempt
  | 0, _ => (false, [])
  | n + 1, attempt =>
    let sent := sendAttempt data
    match response attempt with
    | none => (false, [sent])
    | some line =>
      if line = "OK" then (true, [sent])
      else if line ≠ "RESEND" then (false, [sent])
      else
        let (acknowledged, later) := attemptLoop data response n (attempt + 1)
        (acknowledged, sent :: later)

def sendUuencodedBlock (data : List (BitVec 8)) (response : ℕ → Option String) :
    Bool × List Attempt :=
  attemptLoop data response maxUuencodeAttempts 0

/-! ### A line -/

def bytesSum (data : List (BitVec 8)) : ℕ := (data.map BitVec.toNat).sum

lemma uuencodeChar_eq (value : BitVec 8) : uuencodeChar value = char value := by
  have hlt := toNat_masked value
  rw [uuencodeChar, char, BitVec.toNat_add, Nat.mod_eq_of_lt]
  · rfl
  · change _ + 0x20 < _
    omega

section Lines

variable {data l : List (BitVec 8)} {offset i n : ℕ}

lemma getD_of_drop {rest : List (BitVec 8)} (h : data.drop n = l ++ rest) (j : ℕ)
    (hj : j < l.length) : data.getD (n + j) 0 = l.getD j 0 := by
  rw [List.getD_eq_getElem?_getD, ← List.getElem?_drop, h, List.getElem?_append_left hj,
    List.getD_eq_getElem?_getD]

lemma drop_of_drop {rest a b : List (BitVec 8)} (h : data.drop n = (a ++ b) ++ rest) :
    data.drop (n + a.length) = b ++ rest := by
  rw [← List.drop_drop, h, List.append_assoc, List.drop_left]

lemma bytesSum_append (a b : List (BitVec 8)) : bytesSum (a ++ b) = bytesSum a + bytesSum b := by
  rw [bytesSum, List.map_append, List.sum_append]
  rfl

lemma add_byte (sum : ℕ) (a : BitVec 8) :
    BitVec.ofNat 32 sum + a.setWidth 32 = BitVec.ofNat 32 (sum + a.toNat) := by
  rw [← BitVec.ofNat_toNat, ← BitVec.ofNat_add]

/-- The loop over a line writes its bytes in groups of three and adds them up. -/
lemma foldl_sendTriple {rest : List (BitVec 8)} (h : data.drop (offset + i) = l ++ rest)
    (line : List Char) (sum : ℕ) :
    (List.range' i ((l.length + 2) / 3) 3).foldl (sendTriple data offset (i + l.length))
        (line, BitVec.ofNat 32 sum) =
      (line ++ encodeGroups l, BitVec.ofNat 32 (sum + bytesSum l)) := by
  induction l using encodeGroups.induct generalizing i line sum with
  | case1 => simp [encodeGroups, bytesSum]
  | case2 a =>
    have ha : data.getD (offset + i) 0 = a := getD_of_drop h 0 Nat.one_pos
    have hturns : ([a].length + 2) / 3 = 1 := by rw [List.length_singleton]
    rw [hturns]
    change sendTriple data offset (i + 1) (line, BitVec.ofNat 32 sum) i = _
    have h1 : ¬ i + 1 < i + 1 := lt_irrefl _
    have h2 : ¬ i + 2 < i + 1 := by omega
    simp only [sendTriple, ha, if_neg h1, if_neg h2, uuencodeChar_eq, add_byte]
    rfl
  | case3 a b =>
    have ha : data.getD (offset + i) 0 = a := getD_of_drop h 0 Nat.two_pos
    have hb : data.getD (offset + i + 1) 0 = b := getD_of_drop h 1 Nat.one_lt_two
    have hturns : ([a, b].length + 2) / 3 = 1 := by rw [List.length_cons, List.length_singleton]
    rw [hturns]
    change sendTriple data offset (i + 2) (line, BitVec.ofNat 32 sum) i = _
    have h1 : i + 1 < i + 2 := Nat.lt_succ_self _
    have h2 : ¬ i + 2 < i + 2 := lt_irrefl _
    simp only [sendTriple, ha, hb, if_pos h1, if_neg h2, uuencodeChar_eq, add_byte]
    rw [Nat.add_assoc]
    rfl
  | case4 a b c l ih =>
    have hlength : (a :: b :: c :: l).length = l.length + 3 := rfl
    have ha : data.getD (offset + i) 0 = a := getD_of_drop h 0 (by omega)
    have hb : data.getD (offset + i + 1) 0 = b := getD_of_drop h 1 (by omega)
    have hc : data.getD (offset + i + 2) 0 = c := getD_of_drop h 2 (by omega)
    have hrest : data.drop (offset + (i + 3)) = l ++ rest := @drop_of_drop data (offset + i) rest [a, b, c] l h
    have hturns : ((a :: b :: c :: l).length + 2) / 3 = (l.length + 2) / 3 + 1 := by omega
    have hend : i + (a :: b :: c :: l).length = i + 3 + l.length := by omega
    have hstep : sendTriple data offset (i + 3 + l.length) (line, BitVec.ofNat 32 sum) i =
        (line ++ encodeGroup a b c,
          BitVec.ofNat 32 (sum + (a.toNat + (b.toNat + c.toNat)))) := by
      have h1 : i + 1 < i + 3 + l.length := by omega
      have h2 : i + 2 < i + 3 + l.length := by omega
      simp only [sendTriple, ha, hb, hc, if_pos h1, if_pos h2, uuencodeChar_eq, add_byte]
      rw [Nat.add_assoc, Nat.add_assoc]
      rfl
    rw [hturns, hend, List.range'_succ, List.foldl_cons, hstep, ih hrest, encodeGroups,
      List.append_assoc]
    simp [bytesSum, Nat.add_assoc]

/-- A line with its end. -/
def encodedLine (l : List (BitVec 8)) : List Char := encodeLine l ++ ['\r', '\n']

lemma sendLine_eq (offset : ℕ) (lines : List (List Char)) (sum : ℕ) :
    sendLine data data.length (lines, BitVec.ofNat 32 sum) offset =
      (lines ++ [encodedLine ((data.drop offset).take uuencodeLineBytes)],
        BitVec.ofNat 32 (sum + bytesSum ((data.drop offset).take uuencodeLineBytes))) := by
  have hlength : (if data.length - offset < uuencodeLineBytes then data.length - offset
      else uuencodeLineBytes) = ((data.drop offset).take uuencodeLineBytes).length := by
    rw [List.length_take, List.length_drop]
    split <;> omega
  have hline := foldl_sendTriple
    (List.take_append_drop uuencodeLineBytes (data.drop (offset + 0))).symm
    [char (BitVec.ofNat 8 ((data.drop offset).take uuencodeLineBytes).length)] sum
  rw [Nat.zero_add, Nat.add_zero] at hline
  rw [sendLine]
  dsimp only
  rw [hlength, uuencodeChar_eq, hline]
  rfl

/-- The loop over the lines cuts the data in pieces, and writes a line for each. -/
lemma foldl_sendLine (h : data.drop offset = l) (lines : List (List Char)) (sum : ℕ) :
    ∃ ps : List (List (BitVec 8)), ps.flatten = l ∧ (∀ p ∈ ps, p.length ≤ uuencodeLineBytes) ∧
      (List.range' offset ((l.length + (uuencodeLineBytes - 1)) / uuencodeLineBytes)
          uuencodeLineBytes).foldl (sendLine data data.length) (lines, BitVec.ofNat 32 sum) =
        (lines ++ ps.map encodedLine, BitVec.ofNat 32 (sum + bytesSum l)) := by
  induction hn : (l.length + (uuencodeLineBytes - 1)) / uuencodeLineBytes
    generalizing offset l lines sum with
  | zero =>
    have hl : l = [] := by
      rw [uuencodeLineBytes] at hn
      apply List.eq_nil_of_length_eq_zero
      omega
    subst hl
    exact ⟨[], rfl, fun p hp => absurd hp List.not_mem_nil, by simp [bytesSum]⟩
  | succ n ih =>
    have hdrop : data.drop (offset + uuencodeLineBytes) = l.drop uuencodeLineBytes := by
      rw [← List.drop_drop, h]
    have hturns : ((l.drop uuencodeLineBytes).length + (uuencodeLineBytes - 1)) /
        uuencodeLineBytes = n := by
      rw [List.length_drop, uuencodeLineBytes] at *
      omega
    obtain ⟨ps, hflatten, hlengths, hloop⟩ := ih hdrop
      (lines ++ [encodedLine (l.take uuencodeLineBytes)])
      (sum + bytesSum (l.take uuencodeLineBytes)) hturns
    refine ⟨l.take uuencodeLineBytes :: ps, ?_, ?_, ?_⟩
    · rw [List.flatten_cons, hflatten, List.take_append_drop]
    · exact List.forall_mem_cons.mpr ⟨List.length_take_le _ _, hlengths⟩
    · rw [List.range'_succ, List.foldl_cons, sendLine_eq, h, hloop, List.append_assoc,
        Nat.add_assoc, ← bytesSum_append, List.take_append_drop]
      rfl

end Lines

/-! ### The checksum -/

open RRFLibraries.IntegerFormatting in
/-- The text of an unsigned number, as `%lu` prints it. -/
lemma printed_unsigned (i : BitVec 32) :
    (Call.printI { base := 10, printLimit := -1, letBase := 'a', long32 := true } i).text =
      Nat.toDigits 10 i.toNat := by
  let d : Directive := ⟨[], 0, none, .u⟩
  let v : Value := .int i
  have hdigits : d.digits v = Nat.toDigits 10 i.toNat := List.map_id _
  have htext : d.standardText v = d.digits v := by
    simp [d, Directive.standardText, Directive.standardSign, Directive.standardPrefix,
      Directive.standardDigits, Directive.has, Directive.minDigits, Directive.zeros,
      Directive.spaces, Conversion.isSigned]
  have houtput : d.numberOutput v = d.standardText v := by
    by_cases hzero : d.magnitude v = 0
    · exact (Directive.text_zero hzero).mpr rfl
    · exact (Directive.text_unsigned hzero rfl rfl rfl).mpr rfl
  have hcall := Directive.call_text d v
  rw [houtput, htext, hdigits] at hcall
  exact hcall

lemma isDigit_toDigits {n : ℕ} {c : Char} (hc : c ∈ Nat.toDigits 10 n) : c.isDigit = true :=
  Nat.isDigit_of_mem_toDigits (by decide) (by decide) hc

lemma checksumLine_eq (i : BitVec 32) :
    (safeVsnprintf 24 "%lu\r\n".toList [.int i]).1.dropLast =
      Nat.toDigits 10 i.toNat ++ ['\r', '\n'] := by
  have htext : formatText "%lu\r\n".toList.length "%lu\r\n".toList [.int i] =
      (Call.printI { base := 10, printLimit := -1, letBase := 'a', long32 := true } i).text ++
        ['\r', '\n'] := rfl
  have hzero : '\x00' ∉ Nat.toDigits 10 i.toNat ++ ['\r', '\n'] := by
    rw [List.mem_append]
    rintro (hdigit | hend)
    · exact absurd (isDigit_toDigits hdigit) (by decide)
    · exact absurd hend (by decide)
  have hlength : (Nat.toDigits 10 i.toNat).length ≤ 10 := by
    rw [Nat.length_toDigits_le_iff (by decide) (by decide)]
    have hlt := i.isLt
    omega
  rw [safeVsnprintf_stored, List.dropLast_concat, printed_eq, htext, printed_unsigned,
    shown_eq hzero, List.take_of_length_le]
  rw [List.length_append]
  change _ + 2 ≤ 23
  omega

/-! ### An attempt -/

/-- The lines carry the data, and the checksum is the sum of the bytes. -/
structure Carries (sent : Attempt) (data : List (BitVec 8)) : Prop where
  decoded : uudecode sent.lines.flatten = data
  checksum : sent.checksumLine = Nat.toDigits 10 (bytesSum data % 2 ^ 32) ++ ['\r', '\n']
  fits : ∀ line ∈ sent.lines, line.length ≤ lineSize

lemma carries_sendAttempt (data : List (BitVec 8)) : Carries (sendAttempt data) data := by
  obtain ⟨ps, hflatten, hlengths, hloop⟩ := foldl_sendLine (List.drop_zero (l := data)) [] 0
  rw [Nat.zero_add] at hloop
  have hattempt : sendAttempt data = ⟨ps.map encodedLine,
      Nat.toDigits 10 (BitVec.ofNat 32 (bytesSum data)).toNat ++ ['\r', '\n']⟩ := by
    rw [← checksumLine_eq, sendAttempt, show (0 : BitVec 32) = BitVec.ofNat 32 0 from rfl, hloop]
    rfl
  rw [hattempt]
  refine ⟨?_, ?_, ?_⟩
  · rw [← hflatten, ← List.flatMap_def]
    apply uudecode_encodeLines
    intro p hp
    exact lt_of_le_of_lt (hlengths p hp) (by decide)
  · dsimp only
    rw [BitVec.toNat_ofNat]
  · dsimp only
    intro line hline
    obtain ⟨p, hp, rfl⟩ := List.mem_map.mp hline
    have hlength := hlengths p hp
    rw [encodedLine, encodeLine, List.length_append, List.length_cons, length_encodeGroups,
      lineSize]
    rw [uuencodeLineBytes] at hlength
    change _ + 2 ≤ 64
    omega

lemma bytesSum_lt {data : List (BitVec 8)} (h : data.length ≤ 2 ^ 24) :
    bytesSum data < 2 ^ 32 := by
  have hsum : bytesSum data ≤ data.length * 255 := by
    rw [bytesSum, ← List.length_map BitVec.toNat]
    apply List.sum_le_card_nsmul
    intro n hn
    obtain ⟨a, -, rfl⟩ := List.mem_map.mp hn
    exact Nat.le_of_lt_succ a.isLt
  omega

/-! ### The attempts -/

section Attempts

variable {data : List (BitVec 8)} {response : ℕ → Option String} {n k : ℕ}

lemma attemptLoop_resend (h : response k = some "RESEND") :
    attemptLoop data response (n + 1) k =
      ((attemptLoop data response n (k + 1)).1,
        sendAttempt data :: (attemptLoop data response n (k + 1)).2) := by
  rw [attemptLoop, h]
  rfl

lemma attemptLoop_last (h : response k ≠ some "RESEND") :
    attemptLoop data response (n + 1) k =
      (decide (response k = some "OK"), [sendAttempt data]) := by
  rw [attemptLoop]
  cases hk : response k with
  | none => rfl
  | some line =>
    have hline : line ≠ "RESEND" := fun heq => h (by rw [hk, heq])
    dsimp only
    by_cases hok : line = "OK"
    · rw [if_pos hok, hok]
      rfl
    · rw [if_neg hok, if_pos hline, decide_eq_false fun heq => hok (Option.some.inj heq)]

variable (data response n k) in
/-- Each attempt but the last one was answered with the request to send again. -/
lemma attemptLoop_answered : (attemptLoop data response (n + 1) k).2.length ≤ n + 1 ∧
    0 < (attemptLoop data response (n + 1) k).2.length ∧
    (∀ sent ∈ (attemptLoop data response (n + 1) k).2, sent = sendAttempt data) ∧
    (∀ j, j + 1 < (attemptLoop data response (n + 1) k).2.length →
      response (k + j) = some "RESEND") ∧
    ((attemptLoop data response (n + 1) k).1 = true ↔
      response (k + ((attemptLoop data response (n + 1) k).2.length - 1)) = some "OK") := by
  induction n generalizing k with
  | zero =>
    by_cases h : response k = some "RESEND"
    · rw [attemptLoop_resend h, attemptLoop]
      refine ⟨le_rfl, Nat.one_pos, List.forall_mem_singleton.mpr rfl, ?_, ?_⟩
      · intro j hj
        exact absurd (Nat.lt_of_succ_lt_succ hj) (Nat.not_lt_zero j)
      · refine iff_of_false Bool.false_ne_true fun hok => ?_
        exact absurd (h.symm.trans hok) (by decide)
    · rw [attemptLoop_last h]
      refine ⟨le_rfl, Nat.one_pos, List.forall_mem_singleton.mpr rfl, ?_, decide_eq_true_iff⟩
      intro j hj
      exact absurd (Nat.lt_of_succ_lt_succ hj) (Nat.not_lt_zero j)
  | succ n ih =>
    by_cases h : response k = some "RESEND"
    · obtain ⟨hlength, hpos, hsame, hresent, hok⟩ := ih (k + 1)
      rw [attemptLoop_resend h]
      refine ⟨Nat.succ_le_succ hlength, Nat.succ_pos _, List.forall_mem_cons.mpr ⟨rfl, hsame⟩,
        ?_, ?_⟩
      · intro j hj
        cases j with
        | zero => exact h
        | succ j =>
          have hj' := hresent j (Nat.lt_of_succ_lt_succ hj)
          rwa [Nat.add_right_comm, Nat.add_assoc] at hj'
      · rw [hok, List.length_cons, Nat.add_sub_cancel]
        have hindex : k + 1 + ((attemptLoop data response (n + 1) (k + 1)).2.length - 1) =
            k + (attemptLoop data response (n + 1) (k + 1)).2.length := by omega
        rw [hindex]
    · rw [attemptLoop_last h]
      refine ⟨Nat.succ_le_succ (Nat.zero_le _), Nat.one_pos, List.forall_mem_singleton.mpr rfl,
        ?_, decide_eq_true_iff⟩
      intro j hj
      exact absurd (Nat.lt_of_succ_lt_succ hj) (Nat.not_lt_zero j)

end Attempts

/-- Whatever is answered, each attempt sends the data, all attempts are the same, and a further one
is only made when it is asked for. -/
theorem block_sent (data : List (BitVec 8)) (response : ℕ → Option String) :
    let sent := sendUuencodedBlock data response
    (∀ attempt ∈ sent.2, Carries attempt data) ∧
    (∀ attempt ∈ sent.2, ∀ retried ∈ sent.2, retried = attempt) ∧
    (0 < sent.2.length ∧ sent.2.length ≤ maxUuencodeAttempts) ∧
    (∀ k, k + 1 < sent.2.length → response k = some "RESEND") ∧
    (sent.1 = true ↔ response (sent.2.length - 1) = some "OK") ∧
    (data.length ≤ 2 ^ 24 → ∀ attempt ∈ sent.2,
      attempt.checksumLine = Nat.toDigits 10 (bytesSum data) ++ ['\r', '\n']) := by
  obtain ⟨hlength, hpos, hsame, hresent, hok⟩ := attemptLoop_answered data response 2 0
  have hcarries : ∀ attempt ∈ (sendUuencodedBlock data response).2, Carries attempt data := by
    intro attempt hattempt
    rw [hsame attempt hattempt]
    exact carries_sendAttempt data
  refine ⟨hcarries, ?_, ⟨hpos, hlength⟩, ?_, ?_, ?_⟩
  · intro attempt hattempt retried hretried
    rw [hsame attempt hattempt, hsame retried hretried]
  · intro k hk
    have h := hresent k hk
    rwa [Nat.zero_add] at h
  · rw [Nat.zero_add] at hok
    exact hok
  · intro hdata attempt hattempt
    rw [(hcarries attempt hattempt).checksum, Nat.mod_eq_of_lt (bytesSum_lt hdata)]

/-- Four bytes are sent again after the first answer. -/
theorem block_sent_twice :
    (sendUuencodedBlock [1, 2, 3, 4] fun k => if k = 0 then some "RESEND" else some "OK").1 = true ∧
    ∀ attempt ∈
        (sendUuencodedBlock [1, 2, 3, 4] fun k => if k = 0 then some "RESEND" else some "OK").2,
      attempt.checksumLine = ['1', '0', '\r', '\n'] := by
  have h := block_sent [1, 2, 3, 4] fun k => if k = 0 then some "RESEND" else some "OK"
  exact ⟨by decide, h.2.2.2.2.2 (by decide)⟩

end RepRapFirmware.Hardware.LpcIspUpdater
