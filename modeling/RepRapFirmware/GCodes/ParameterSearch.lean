import Mathlib

/-! The search for the parameters of a command. `text` is what the line holds from `parameterStart`
on, and positions are counted from there. -/

namespace RepRapFirmware.GCodes.ParameterSearch

inductive Board
  | duet3 | other
  deriving DecidableEq, Repr

namespace Board

def highestAxisLetter : Board → Char
  | duet3 => 'z'
  | other => 'f'

/-- `MaxBits` of a `ParameterLettersBitmap` -/
def maxBits : Board → ℕ
  | duet3 => 64
  | other => 32

end Board

def toupper (c : Char) : Char := c.toUpper

/-- An E that follows a digit belongs to a number. -/
def notExponent (previous : Option Char) (c2 : Char) : Bool :=
  c2 ≠ 'E' || previous.all fun p => !p.isDigit

/-- The loop of `FindParameters`, with the character before the next one. -/
def findLoop (board : Board) :
    Option Char → List Char → Bool → Bool → ℕ → ℕ → Finset ℕ → ℕ × Finset ℕ
  | _, [], _, _, _, commandEnd, present => (commandEnd, present)
  | previous, c :: rest, inQuotes, escaped, localBraceCount, commandEnd, present =>
    if c = '\'' then
      findLoop board (some c) rest inQuotes (!inQuotes) localBraceCount (commandEnd + 1) present
    else if c = '"' then
      findLoop board (some c) rest (!inQuotes) false localBraceCount (commandEnd + 1) present
    else if inQuotes then
      findLoop board (some c) rest inQuotes false localBraceCount (commandEnd + 1) present
    else if c = '\x7b' then
      findLoop board (some c) rest inQuotes false (localBraceCount + 1) (commandEnd + 1) present
    else if localBraceCount ≠ 0 then
      let localBraceCount := if c = '\x7d' then localBraceCount - 1 else localBraceCount
      findLoop board (some c) rest inQuotes false localBraceCount (commandEnd + 1) present
    else
      let c2 := toupper c
      if escaped then
        let present :=
          if 'A' ≤ c2 ∧ c2 ≤ toupper board.highestAxisLetter ∧ notExponent previous c2 then
            insert (c2.toNat - ('A'.toNat - 26)) present
          else present
        findLoop board (some c) rest inQuotes false localBraceCount (commandEnd + 1) present
      else if c2 = 'G' ∨ c2 = 'M' then (commandEnd, present)
      else
        let present :=
          if 'A' ≤ c2 ∧ c2 ≤ 'Z' ∧ notExponent previous c2 then
            insert (c2.toNat - 'A'.toNat) present
          else present
        findLoop board (some c) rest inQuotes false localBraceCount (commandEnd + 1) present

/-- `commandEnd` and `parametersPresent` -/
def findParameters (board : Board) (text : List Char) : ℕ × Finset ℕ :=
  findLoop board none text false false 0 0 ∅

/-- The loop of `Seen`, with the read pointer it leaves. -/
def seenLoop (c : Char) (wantLowerCase : Bool) :
    Option Char → List Char → Bool → Bool → ℕ → ℕ → Option ℕ
  | _, [], _, _, _, _ => none
  | previous, b :: rest, inQuotes, escaped, inBrackets, readPointer =>
    if b = '"' then
      seenLoop c wantLowerCase (some b) rest (!inQuotes) escaped inBrackets (readPointer + 1)
    else if inQuotes then
      seenLoop c wantLowerCase (some b) rest inQuotes escaped inBrackets (readPointer + 1)
    else if b = '\'' ∧ !escaped then
      seenLoop c wantLowerCase (some b) rest inQuotes true inBrackets (readPointer + 1)
    else if inBrackets = 0 ∧ toupper b = c ∧ escaped = wantLowerCase ∧ notExponent previous c then
      some (readPointer + 1)
    else
      let inBrackets :=
        if b = '\x7b' then inBrackets + 1
        else if b = '\x7d' ∧ inBrackets ≠ 0 then inBrackets - 1
        else inBrackets
      seenLoop c wantLowerCase (some b) rest inQuotes false inBrackets (readPointer + 1)

def wantLowerCase (c : Char) : Bool := 'a' ≤ c

def parameterBit (c : Char) : ℕ :=
  if wantLowerCase c then c.toNat - ('a'.toNat - 26) else c.toNat - 'A'.toNat

/-- The scan that `Seen` makes of a command -/
def scan (board : Board) (text : List Char) (c : Char) : Option ℕ :=
  seenLoop (if wantLowerCase c then toupper c else c) (wantLowerCase c) none
    (text.take (findParameters board text).1) false false 0 0

/-- The read pointer after `Seen`, where it returns true. -/
def seen (board : Board) (text : List Char) (c : Char) : Option ℕ :=
  let bit := parameterBit c
  if bit ≥ board.maxBits ∨ bit ∉ (findParameters board text).2 then none else scan board text c

/-- `c` must be in A..Z or a..HighestAxisLetter -/
def IsParameterLetter (board : Board) (c : Char) : Prop :=
  ('A' ≤ c ∧ c ≤ 'Z') ∨ ('a' ≤ c ∧ c ≤ board.highestAxisLetter)

instance (board : Board) (c : Char) : Decidable (IsParameterLetter board c) :=
  inferInstanceAs (Decidable (_ ∨ _))

/-! ### Where a character stands -/

def inQuotes (before : List Char) : Bool := before.count '"' % 2 = 1

/-- What is left without the quoted strings. -/
def unquoted : Bool → List Char → List Char
  | _, [] => []
  | quoted, c :: l =>
    if c = '"' then unquoted (!quoted) l
    else if quoted then unquoted quoted l
    else c :: unquoted quoted l

def braces (before : List Char) : ℕ :=
  before.foldl (fun d c => if c = '\x7b' then d + 1 else if c = '\x7d' then d - 1 else d) 0

/-- How many apostrophes are at the end. -/
def apostrophes (before : List Char) : ℕ := (before.reverse.takeWhile (· = '\'')).length

/-- The place is neither quoted nor in braces. -/
def Open (before : List Char) : Prop :=
  inQuotes before = false ∧ braces (unquoted false before) = 0

instance (before : List Char) : Decidable (Open before) := inferInstanceAs (Decidable (_ ∧ _))

/-- The character before is an apostrophe. -/
def behindApostrophe (before : List Char) : Bool := before.getLast? = some '\''

/-- The apostrophes before, quoted strings apart, are odd in number. -/
def behindOdd (before : List Char) : Bool := apostrophes (unquoted false before) % 2 = 1

/-- A letter stands where the parameter of that letter could begin. -/
def Occurs (text : List Char) (letter : Char) (k : ℕ) : Prop :=
  Open (text.take k) ∧ text[k]?.map toupper = some letter ∧
    notExponent (text.take k).getLast? letter

instance (text : List Char) (letter : Char) (k : ℕ) : Decidable (Occurs text letter k) :=
  inferInstanceAs (Decidable (_ ∧ _))

/-- A G or M stands where the next command begins. -/
def Ends (text : List Char) (k : ℕ) : Prop :=
  (Occurs text 'G' k ∨ Occurs text 'M' k) ∧ behindApostrophe (text.take k) = false

instance (text : List Char) (k : ℕ) : Decidable (Ends text k) :=
  inferInstanceAs (Decidable (_ ∧ _))

section Places

variable {before rest : List Char} {c letter : Char} {q : Bool}

lemma inQuotes_cons (c : Char) (l : List Char) :
    inQuotes (c :: l) = if c = '"' then !inQuotes l else inQuotes l := by
  rw [inQuotes, inQuotes]
  by_cases hc : c = '"'
  · rw [if_pos hc, hc, List.count_cons_self, ← decide_not]
    congr 1
    simp only [eq_iff_iff]
    omega
  · rw [if_neg hc, List.count_cons_of_ne hc]

lemma inQuotes_concat (l : List Char) (c : Char) :
    inQuotes (l ++ [c]) = if c = '"' then !inQuotes l else inQuotes l := by
  rw [← inQuotes_cons, inQuotes, inQuotes, List.count_append, List.count_cons, List.count_cons,
    List.count_nil, Nat.zero_add]

lemma unquoted_concat (q : Bool) (l : List Char) (c : Char) :
    unquoted q (l ++ [c]) =
      unquoted q l ++ if c = '"' ∨ inQuotes l ≠ q then [] else [c] := by
  induction l generalizing q with
  | nil =>
    cases q <;> by_cases hc : c = '"' <;> simp [unquoted, inQuotes, hc]
  | cons a l ih =>
    rw [List.cons_append, unquoted, unquoted, inQuotes_cons]
    by_cases ha : a = '"'
    · simp only [if_pos ha, ih]
      cases inQuotes l <;> cases q <;> simp
    · cases q <;> simp [ha, ih]

lemma unquoted_quote : unquoted false (before ++ ['"']) = unquoted false before := by
  rw [unquoted_concat, if_pos (Or.inl rfl), List.append_nil]

lemma unquoted_inside (h : inQuotes before = true) (c : Char) :
    unquoted false (before ++ [c]) = unquoted false before := by
  rw [unquoted_concat, if_pos (Or.inr (by rw [h]; decide)), List.append_nil]

lemma unquoted_outside (h : inQuotes before = false) (hc : c ≠ '"') :
    unquoted false (before ++ [c]) = unquoted false before ++ [c] := by
  rw [unquoted_concat, if_neg]
  rintro (hq | hq)
  · exact hc hq
  · exact hq h

lemma braces_concat (l : List Char) (c : Char) :
    braces (l ++ [c]) =
      if c = '\x7b' then braces l + 1 else if c = '\x7d' then braces l - 1 else braces l := by
  rw [braces, List.foldl_concat]
  rfl

lemma braces_other (h : c ≠ '\x7b') (h' : c ≠ '\x7d') :
    braces (unquoted false (before ++ [c])) = braces (unquoted false before) := by
  rw [unquoted_concat]
  split
  · rw [List.append_nil]
  · rw [braces_concat, if_neg h, if_neg h']

lemma behindOdd_quote : behindOdd (before ++ ['"']) = behindOdd before := by
  rw [behindOdd, unquoted_quote]
  rfl

lemma behindOdd_inside (h : inQuotes before = true) (c : Char) :
    behindOdd (before ++ [c]) = behindOdd before := by
  rw [behindOdd, unquoted_inside h]
  rfl

lemma behindOdd_apostrophe (h : inQuotes before = false) :
    behindOdd (before ++ ['\'']) = !behindOdd before := by
  rw [behindOdd, unquoted_outside h (by decide), behindOdd, apostrophes, apostrophes,
    List.reverse_concat, List.takeWhile_cons_of_pos (by decide), List.length_cons, ← decide_not]
  congr 1
  simp only [eq_iff_iff]
  omega

lemma behindOdd_other (h : inQuotes before = false) (hquote : c ≠ '"') (hc : c ≠ '\'') :
    behindOdd (before ++ [c]) = false := by
  rw [behindOdd, unquoted_outside h hquote, apostrophes, List.reverse_concat,
    List.takeWhile_cons_of_neg (by simpa using hc)]
  rfl

lemma behindApostrophe_concat (l : List Char) (c : Char) :
    behindApostrophe (l ++ [c]) = decide (c = '\'') := by
  rw [behindApostrophe, List.getLast?_concat]
  simp

lemma occurs_at (letter : Char) : Occurs (before ++ c :: rest) letter before.length ↔
    Open before ∧ toupper c = letter ∧ notExponent before.getLast? letter := by
  rw [Occurs, List.take_left, List.getElem?_append_right le_rfl, Nat.sub_self,
    List.getElem?_cons_zero, Option.map_some, Option.some_inj]

lemma Occurs.lt {text : List Char} {k : ℕ} (h : Occurs text letter k) : k < text.length := by
  by_contra hge
  have hletter := h.2.1
  rw [List.getElem?_eq_none (not_lt.mp hge)] at hletter
  exact absurd hletter.symm (Option.some_ne_none _)

end Places

/-! ### The two loops -/

section Loops

variable {board : Board} {text before rest : List Char} {present present' : Finset ℕ} {c : Char}
  {start : ℕ} {r : ℕ × Finset ℕ}

/-- `FindParameters` takes the place for a parameter with this bit. -/
def Records (board : Board) (text : List Char) (k b : ℕ) : Prop :=
  ∃ letter, Occurs text letter k ∧
    if behindApostrophe (text.take k) then
      'A' ≤ letter ∧ letter ≤ toupper board.highestAxisLetter ∧
        b = letter.toNat - ('A'.toNat - 26)
    else 'A' ≤ letter ∧ letter ≤ 'Z' ∧ b = letter.toNat - 'A'.toNat

structure Finds (board : Board) (text : List Char) (start : ℕ) (present : Finset ℕ)
    (r : ℕ × Finset ℕ) : Prop where
  le : start ≤ r.1
  le_length : r.1 ≤ text.length
  before : ∀ k, start ≤ k → k < r.1 → ¬ Ends text k
  ends : r.1 < text.length → Ends text r.1
  mem : ∀ b, b ∈ r.2 ↔ b ∈ present ∨ ∃ k, start ≤ k ∧ k < r.1 ∧ Records board text k b

lemma Finds.step (h : Finds board text (start + 1) present' r) (hends : ¬ Ends text start)
    (hpresent : ∀ b, b ∈ present' ↔ b ∈ present ∨ Records board text start b) :
    Finds board text start present r where
  le := Nat.le_of_succ_le h.le
  le_length := h.le_length
  before := by
    intro k hk hlt
    obtain rfl | hk := Nat.eq_or_lt_of_le hk
    · exact hends
    · exact h.before k hk hlt
  ends := h.ends
  mem := by
    intro b
    rw [h.mem, hpresent, or_assoc]
    apply or_congr_right
    constructor
    · rintro (hb | ⟨k, hk, hlt, hb⟩)
      · exact ⟨start, le_rfl, h.le, hb⟩
      · exact ⟨k, Nat.le_of_succ_le hk, hlt, hb⟩
    · rintro ⟨k, hk, hlt, hb⟩
      obtain rfl | hk := Nat.eq_or_lt_of_le hk
      · exact Or.inl hb
      · exact Or.inr ⟨k, hk, hlt, hb⟩

/-- A place that is not open is passed over. -/
lemma Finds.skip (h : Finds board (before ++ c :: rest) (before.length + 1) present r)
    (hc : ∀ letter, Occurs (before ++ c :: rest) letter before.length →
      ¬ ('A' ≤ letter ∧ letter ≤ 'Z')) :
    Finds board (before ++ c :: rest) before.length present r := by
  apply h.step
  · rintro ⟨hG | hM, -⟩
    · exact hc _ hG (by decide)
    · exact hc _ hM (by decide)
  · intro b
    rw [iff_self_or]
    rintro ⟨letter, hoccurs, hletter⟩
    apply absurd _ (hc letter hoccurs)
    split at hletter
    · refine ⟨hletter.1, Char.le_trans hletter.2.1 ?_⟩
      cases board <;> decide
    · exact ⟨hletter.1, hletter.2.1⟩

lemma ends_at : Ends (before ++ c :: rest) before.length ↔
    Open before ∧ (toupper c = 'G' ∨ toupper c = 'M') ∧ behindApostrophe before = false := by
  rw [Ends, occurs_at, occurs_at, List.take_left]
  simp only [notExponent]
  simp only [ne_eq, Char.reduceEq, not_false_eq_true, decide_true, Bool.true_or, and_true]
  tauto

lemma records_at (b : ℕ) : Records board (before ++ c :: rest) before.length b ↔
    Open before ∧ notExponent before.getLast? (toupper c) ∧
      if behindApostrophe before then
        'A' ≤ toupper c ∧ toupper c ≤ toupper board.highestAxisLetter ∧
          b = (toupper c).toNat - ('A'.toNat - 26)
      else 'A' ≤ toupper c ∧ toupper c ≤ 'Z' ∧ b = (toupper c).toNat - 'A'.toNat := by
  rw [Records]
  constructor
  · rintro ⟨letter, hoccurs, hletter⟩
    obtain ⟨hopen, rfl, hnot⟩ := (occurs_at letter).mp hoccurs
    rw [List.take_left] at hletter
    exact ⟨hopen, hnot, hletter⟩
  · rintro ⟨hopen, hnot, hletter⟩
    refine ⟨toupper c, (occurs_at _).mpr ⟨hopen, rfl, hnot⟩, ?_⟩
    rw [List.take_left]
    exact hletter

lemma mem_insert_ite {p : Prop} [Decidable p] (a b : ℕ) (s : Finset ℕ) :
    b ∈ (if p then insert a s else s) ↔ b ∈ s ∨ (p ∧ b = a) := by
  split <;> simp_all [or_comm]

lemma findLoop_finds (board : Board) (before rest : List Char) (present : Finset ℕ) :
    Finds board (before ++ rest) before.length present
      (findLoop board before.getLast? rest (inQuotes before)
        (!inQuotes before && behindApostrophe before) (braces (unquoted false before))
        before.length present) := by
  induction rest generalizing before present with
  | nil =>
    rw [findLoop, List.append_nil]
    refine ⟨le_rfl, le_rfl, fun k hk hlt => absurd hk (Nat.not_le.mpr hlt),
      fun h => absurd h (Nat.lt_irrefl _), fun b => ?_⟩
    rw [iff_self_or]
    rintro ⟨k, hk, hlt, -⟩
    exact absurd hk (Nat.not_le.mpr hlt)
  | cons c rest ih =>
    have hnext (present : Finset ℕ) := ih (before ++ [c]) present
    simp only [List.append_assoc, List.singleton_append, List.length_append, List.length_singleton,
      List.getLast?_concat, behindApostrophe_concat, inQuotes_concat] at hnext
    rw [findLoop]
    by_cases hescape : c = '\''
    · subst hescape
      have hbraces : braces (unquoted false (before ++ ['\''])) = braces (unquoted false before) :=
        braces_other (by decide) (by decide)
      simp only [hbraces, Char.reduceEq, if_false, decide_true, Bool.and_true] at hnext
      rw [if_pos rfl]
      apply (hnext present).skip
      intro letter hoccurs
      rw [← ((occurs_at letter).mp hoccurs).2.1]
      decide
    · by_cases hquote : c = '"'
      · subst hquote
        simp only [unquoted_quote, Char.reduceEq, if_true, decide_false, Bool.and_false] at hnext
        rw [if_neg hescape, if_pos rfl]
        apply (hnext present).skip
        intro letter hoccurs
        rw [← ((occurs_at letter).mp hoccurs).2.1]
        decide
      · simp only [if_neg hquote, hescape, decide_false, Bool.and_false] at hnext
        rw [if_neg hescape, if_neg hquote]
        by_cases hinside : inQuotes before = true
        · rw [unquoted_inside hinside] at hnext
          rw [if_pos hinside]
          apply (hnext present).skip
          intro letter hoccurs
          exact absurd ((occurs_at letter).mp hoccurs).1.1 (by rw [hinside]; decide)
        · have houtside : inQuotes before = false := Bool.eq_false_iff.mpr hinside
          rw [unquoted_outside houtside hquote, braces_concat] at hnext
          rw [if_neg hinside]
          by_cases hleft : c = '\x7b'
          · subst hleft
            rw [if_pos rfl] at hnext ⊢
            apply (hnext present).skip
            intro letter hoccurs
            rw [← ((occurs_at letter).mp hoccurs).2.1]
            decide
          · rw [if_neg hleft] at hnext ⊢
            by_cases hdeep : braces (unquoted false before) ≠ 0
            · rw [if_pos hdeep]
              apply (hnext present).skip
              intro letter hoccurs
              exact absurd ((occurs_at letter).mp hoccurs).1.2 hdeep
            · have hopen : Open before := ⟨houtside, not_not.mp hdeep⟩
              have hshallow : (if c = '\x7d' then braces (unquoted false before) - 1
                  else braces (unquoted false before)) = braces (unquoted false before) := by
                rw [hopen.2]
                split <;> rfl
              rw [hshallow] at hnext
              rw [if_neg hdeep]
              rw [houtside] at hnext ⊢
              by_cases hbehind : behindApostrophe before = true
              · rw [if_pos (by rw [hbehind]; rfl)]
                apply (hnext _).step
                · intro hends
                  exact absurd (ends_at.mp hends).2.2 (by rw [hbehind]; decide)
                · intro b
                  rw [mem_insert_ite, records_at, if_pos hbehind]
                  tauto
              · rw [if_neg (by rw [Bool.eq_false_iff.mpr hbehind]; decide)]
                by_cases hend : toupper c = 'G' ∨ toupper c = 'M'
                · rw [if_pos hend]
                  have hends : Ends (before ++ c :: rest) before.length :=
                    ends_at.mpr ⟨hopen, hend, Bool.eq_false_iff.mpr hbehind⟩
                  refine ⟨le_rfl, ?_, fun k hk hlt => absurd hk (Nat.not_le.mpr hlt), fun _ => hends,
                    fun b => ?_⟩
                  · rw [List.length_append]
                    exact Nat.le_add_right _ _
                  · rw [iff_self_or]
                    rintro ⟨k, hk, hlt, -⟩
                    exact absurd hk (Nat.not_le.mpr hlt)
                · rw [if_neg hend]
                  apply (hnext _).step
                  · intro hends
                    exact hend (ends_at.mp hends).2.1
                  · intro b
                    rw [mem_insert_ite, records_at, if_neg hbehind]
                    tauto

/-- `Seen` takes the place for the parameter. -/
def Found (text : List Char) (c : Char) (want : Bool) (k : ℕ) : Prop :=
  Occurs text c k ∧ behindOdd (text.take k) = want

structure Seeks (text : List Char) (c : Char) (want : Bool) (start : ℕ) (r : Option ℕ) : Prop where
  some : ∀ p, r = some p → ∃ k, p = k + 1 ∧ start ≤ k ∧ Found text c want k ∧
    ∀ i, start ≤ i → i < k → ¬ Found text c want i
  none : r = none → ∀ i, start ≤ i → ¬ Found text c want i

lemma Seeks.step {want : Bool} {r : Option ℕ} (h : Seeks text c want (start + 1) r)
    (hnot : ¬ Found text c want start) : Seeks text c want start r where
  some := by
    intro p hp
    obtain ⟨k, rfl, hk, hfound, hfirst⟩ := h.some p hp
    refine ⟨k, rfl, Nat.le_of_succ_le hk, hfound, fun i hi hlt => ?_⟩
    obtain rfl | hi := Nat.eq_or_lt_of_le hi
    · exact hnot
    · exact hfirst i hi hlt
  none := by
    intro hr i hi
    obtain rfl | hi := Nat.eq_or_lt_of_le hi
    · exact hnot
    · exact h.none hr i hi

lemma seenLoop_seeks (hc : 'A' ≤ c ∧ c ≤ 'Z') (want : Bool) (before rest : List Char) :
    Seeks (before ++ rest) c want before.length
      (seenLoop c want before.getLast? rest (inQuotes before) (behindOdd before)
        (braces (unquoted false before)) before.length) := by
  induction rest generalizing before with
  | nil =>
    rw [seenLoop, List.append_nil]
    exact ⟨fun p hp => (Option.some_ne_none p hp.symm).elim,
      fun _ i hi hfound => absurd hi (Nat.not_le.mpr hfound.1.lt)⟩
  | cons b rest ih =>
    have hnext := ih (before ++ [b])
    simp only [List.append_assoc, List.singleton_append, List.length_append, List.length_singleton,
      List.getLast?_concat, inQuotes_concat] at hnext
    rw [seenLoop]
    by_cases hquote : b = '"'
    · subst hquote
      rw [unquoted_quote, behindOdd_quote, if_pos rfl] at hnext
      rw [if_pos rfl]
      apply hnext.step
      rintro ⟨hoccurs, -⟩
      rw [← ((occurs_at c).mp hoccurs).2.1] at hc
      exact absurd hc (by decide)
    · rw [if_neg hquote] at hnext
      rw [if_neg hquote]
      by_cases hinside : inQuotes before = true
      · rw [unquoted_inside hinside, behindOdd_inside hinside] at hnext
        rw [if_pos hinside]
        apply hnext.step
        rintro ⟨hoccurs, -⟩
        exact absurd ((occurs_at c).mp hoccurs).1.1 (by rw [hinside]; decide)
      · have houtside : inQuotes before = false := Bool.eq_false_iff.mpr hinside
        rw [if_neg hinside]
        by_cases hescape : b = '\''
        · subst hescape
          have hnot : ¬ Found (before ++ '\'' :: rest) c want before.length := by
            rintro ⟨hoccurs, -⟩
            rw [← ((occurs_at c).mp hoccurs).2.1] at hc
            exact absurd hc (by decide)
          rw [behindOdd_apostrophe houtside, braces_other (by decide) (by decide)] at hnext
          by_cases hodd : behindOdd before = true
          · rw [hodd] at hnext ⊢
            rw [if_neg (by decide), if_neg]
            · exact hnext.step hnot
            · rintro ⟨-, hletter, -⟩
              rw [← hletter] at hc
              exact absurd hc (by decide)
          · rw [Bool.eq_false_iff.mpr hodd] at hnext ⊢
            rw [if_pos ⟨rfl, rfl⟩]
            exact hnext.step hnot
        · rw [behindOdd_other houtside hquote hescape, unquoted_outside houtside hquote,
            braces_concat] at hnext
          rw [if_neg (fun h => hescape h.1)]
          have hfound : Found (before ++ b :: rest) c want before.length ↔
              braces (unquoted false before) = 0 ∧ toupper b = c ∧ behindOdd before = want ∧
                notExponent before.getLast? c := by
            rw [Found, occurs_at, List.take_left, Open]
            tauto
          split
          · next h =>
            refine ⟨fun p hp => ⟨before.length, (Option.some.inj hp).symm, le_rfl,
              hfound.mpr h, ?_⟩, ?_⟩
            · exact fun i hi hlt => absurd hi (Nat.not_le.mpr hlt)
            · exact fun hnone => (Option.some_ne_none _ hnone).elim
          · next h =>
            have hbrackets : (if b = '\x7b' then braces (unquoted false before) + 1
                else if b = '\x7d' ∧ braces (unquoted false before) ≠ 0 then
                  braces (unquoted false before) - 1
                else braces (unquoted false before)) =
                if b = '\x7b' then braces (unquoted false before) + 1
                else if b = '\x7d' then braces (unquoted false before) - 1
                else braces (unquoted false before) := by
              by_cases hzero : braces (unquoted false before) = 0 <;> simp [hzero]
            rw [hbrackets]
            exact hnext.step fun hf => h (hfound.mp hf)

end Loops

/-! ### Letters and bits -/

/-- The letter that `Seen` looks for. -/
def wanted (c : Char) : Char := if wantLowerCase c then toupper c else c

lemma toNat_toupper {c : Char} (h : 'a' ≤ c ∧ c ≤ 'z') : (toupper c).toNat = c.toNat - 32 := by
  have hlow : 97 ≤ c.val.toNat := h.1
  have hhigh : c.val.toNat ≤ 122 := h.2
  have hlower : 'a'.val ≤ c.val ∧ c.val ≤ 'z'.val := h
  rw [toupper, Char.toUpper, dif_pos hlower]
  change (c.val + ('A'.val - 'a'.val)).toNat = c.val.toNat - 32
  rw [UInt32.toNat_add]
  change (c.val.toNat + 4294967264) % 2 ^ 32 = _
  omega

lemma toNat_highest (board : Board) :
    (toupper board.highestAxisLetter).toNat = board.highestAxisLetter.toNat - 32 ∧
      board.highestAxisLetter ≤ 'z' := by
  cases board <;> decide

lemma wanted_letter {board : Board} {c : Char} (hc : IsParameterLetter board c) :
    'A' ≤ wanted c ∧ wanted c ≤ 'Z' := by
  rw [wanted, wantLowerCase]
  obtain hc | hc := hc
  · have hupper : ¬ 'a' ≤ c := fun h => absurd (Char.le_trans h hc.2) (by decide)
    rw [if_neg (by simpa using hupper)]
    exact hc
  · have hz : c ≤ 'z' := Char.le_trans hc.2 (toNat_highest board).2
    rw [if_pos (by simpa using hc.1)]
    have htoNat := toNat_toupper ⟨hc.1, hz⟩
    have hlow : 97 ≤ c.toNat := hc.1
    have hhigh : c.toNat ≤ 122 := hz
    constructor
    · change 65 ≤ (toupper c).toNat
      omega
    · change (toupper c).toNat ≤ 90
      omega

lemma records_iff {board : Board} {c : Char} (hc : IsParameterLetter board c) (text : List Char)
    (k : ℕ) : Records board text k (parameterBit c) ↔
      Occurs text (wanted c) k ∧ behindApostrophe (text.take k) = wantLowerCase c := by
  have hwanted := wanted_letter hc
  have hlow : 65 ≤ (wanted c).toNat := hwanted.1
  have hhigh : (wanted c).toNat ≤ 90 := hwanted.2
  have hboard := (toNat_highest board).1
  have hcase : (wantLowerCase c = true ∧ parameterBit c = (wanted c).toNat - ('A'.toNat - 26) ∧
      wanted c ≤ toupper board.highestAxisLetter) ∨
      (wantLowerCase c = false ∧ parameterBit c = (wanted c).toNat - 'A'.toNat) := by
    obtain hc | hc := hc
    · have hupper : wantLowerCase c = false :=
        decide_eq_false fun h => absurd (Char.le_trans h hc.2) (by decide)
      rw [parameterBit, wanted, hupper]
      exact Or.inr ⟨rfl, rfl⟩
    · have hlower : wantLowerCase c = true := decide_eq_true hc.1
      have htoNat := toNat_toupper ⟨hc.1, Char.le_trans hc.2 (toNat_highest board).2⟩
      have hle : c.toNat ≤ board.highestAxisLetter.toNat := hc.2
      rw [parameterBit, wanted, hlower]
      refine Or.inl ⟨rfl, ?_, ?_⟩
      · change c.toNat - (97 - 26) = (toupper c).toNat - (65 - 26)
        omega
      · change (toupper c).toNat ≤ (toupper board.highestAxisLetter).toNat
        omega
  constructor
  · rintro ⟨letter, hoccurs, hletter⟩
    have hsame (h : letter.toNat = (wanted c).toNat) : letter = wanted c := Char.toNat_inj.mp h
    have hA : 'A'.toNat = 65 := rfl
    rw [hA] at hcase hletter
    split at hletter
    · next hbehind =>
      have hletterLow : 65 ≤ letter.toNat := hletter.1
      obtain ⟨hlower, hbit, -⟩ | ⟨-, hbit⟩ := hcase
      · rw [← hsame (by omega), hlower]
        exact ⟨hoccurs, hbehind⟩
      · omega
    · next hbehind =>
      have hletterLow : 65 ≤ letter.toNat := hletter.1
      have hletterHigh : letter.toNat ≤ 90 := hletter.2.1
      obtain ⟨-, hbit, -⟩ | ⟨hupper, hbit⟩ := hcase
      · omega
      · rw [← hsame (by omega), hupper]
        exact ⟨hoccurs, Bool.eq_false_iff.mpr hbehind⟩
  · rintro ⟨hoccurs, hbehind⟩
    refine ⟨wanted c, hoccurs, ?_⟩
    rw [hbehind]
    obtain ⟨hlower, hbit, hle⟩ | ⟨hupper, hbit⟩ := hcase
    · rw [if_pos hlower]
      exact ⟨hwanted.1, hle, hbit⟩
    · rw [if_neg (by rw [hupper]; decide)]
      exact ⟨hwanted.1, hwanted.2, hbit⟩

/-! ### The first places -/

/-- The first number with a property. -/
def IsFirst (P : ℕ → Prop) (k : ℕ) : Prop := P k ∧ ∀ i < k, ¬ P i

lemma exists_isFirst {P : ℕ → Prop} {k : ℕ} (h : P k) : ∃ m ≤ k, IsFirst P m := by
  classical
  have hexists : ∃ k, P k := ⟨k, h⟩
  exact ⟨Nat.find hexists, Nat.find_min' hexists h, Nat.find_spec hexists,
    fun i hi => Nat.find_min hexists hi⟩

lemma IsFirst.unique {P : ℕ → Prop} {j k : ℕ} (hj : IsFirst P j) (hk : IsFirst P k) : j = k := by
  obtain hlt | heq | hlt := lt_trichotomy j k
  · exact absurd hj.1 (hk.2 j hlt)
  · exact heq
  · exact absurd hk.1 (hj.2 k hlt)

/-- Two properties have the same first number if and only if they agree up to a common one. -/
lemma isFirst_agree_iff {F S : ℕ → Prop} : (∀ k, IsFirst F k ↔ IsFirst S k) ↔
    ∀ k, ¬ (F k ↔ S k) → ∃ j < k, F j ∧ S j := by
  constructor
  · intro h k hk
    have hor : F k ∨ S k := by tauto
    obtain hF | hS := hor
    · obtain ⟨m, hm, hfirst⟩ := exists_isFirst hF
      have hS := ((h m).mp hfirst).1
      refine ⟨m, lt_of_le_of_ne hm ?_, hfirst.1, hS⟩
      rintro rfl
      exact hk (iff_of_true hfirst.1 hS)
    · obtain ⟨m, hm, hfirst⟩ := exists_isFirst hS
      have hF := ((h m).mpr hfirst).1
      refine ⟨m, lt_of_le_of_ne hm ?_, hF, hfirst.1⟩
      rintro rfl
      exact hk (iff_of_true hF hfirst.1)
  · have hdirection {F S : ℕ → Prop} (h : ∀ k, ¬ (F k ↔ S k) → ∃ j < k, F j ∧ S j) {k : ℕ}
        (hk : IsFirst F k) : IsFirst S k := by
      have hnone {i : ℕ} (hi : i ≤ k) : F i ↔ S i := by
        by_contra hdiffer
        obtain ⟨j, hj, hF, -⟩ := h i hdiffer
        exact hk.2 j (hj.trans_le hi) hF
      exact ⟨(hnone le_rfl).mp hk.1, fun i hi hS => hk.2 i hi ((hnone hi.le).mpr hS)⟩
    intro h k
    constructor
    · exact hdirection h
    · apply hdirection
      intro k hk
      obtain ⟨j, hj, hF, hS⟩ := h k fun hiff => hk hiff.symm
      exact ⟨j, hj, hS, hF⟩

section Agreement

variable {board : Board} {text : List Char} {c letter : Char} {k m : ℕ}

lemma findParameters_finds (board : Board) (text : List Char) :
    Finds board text 0 ∅ (findParameters board text) :=
  findLoop_finds board [] text ∅

/-- A place belongs to the command if there is no beginning of the next one up to it. -/
lemma lt_commandEnd_iff : k < (findParameters board text).1 ↔
    k < text.length ∧ ∀ j ≤ k, ¬ Ends text j := by
  have h := findParameters_finds board text
  constructor
  · intro hk
    exact ⟨hk.trans_le h.le_length, fun j hj => h.before j (Nat.zero_le j) (hj.trans_lt hk)⟩
  · rintro ⟨hk, hnone⟩
    by_contra hge
    rw [not_lt] at hge
    exact hnone _ hge (h.ends (hge.trans_lt hk))

lemma occurs_take : Occurs (text.take m) letter k ↔ k < m ∧ Occurs text letter k := by
  rw [Occurs, Occurs]
  by_cases hk : k < m
  · rw [List.take_take, Nat.min_eq_left hk.le, List.getElem?_take_of_lt hk]
    exact (and_iff_right hk).symm
  · have hnone : (text.take m)[k]? = none := by
      apply List.getElem?_eq_none
      rw [List.length_take]
      omega
    rw [hnone]
    constructor
    · rintro ⟨-, h, -⟩
      exact absurd h.symm (Option.some_ne_none letter)
    · exact fun h => absurd h.1 hk

lemma ends_take (hk : k < m) : Ends (text.take m) k ↔ Ends text k := by
  rw [Ends, Ends, occurs_take, occurs_take, List.take_take, Nat.min_eq_left hk.le]
  tauto

/-- What has been found when a part of the text has been read. -/
lemma mem_findParameters_take (b : ℕ) : b ∈ (findParameters board (text.take m)).2 ↔
    ∃ k < m, k < (findParameters board text).1 ∧ Records board text k b := by
  rw [(findParameters_finds board (text.take m)).mem]
  have hrecords {k : ℕ} (hk : k < m) : Records board (text.take m) k b ↔ Records board text k b := by
    rw [Records, Records]
    simp only [occurs_take, hk, true_and, List.take_take, Nat.min_eq_left hk.le]
  constructor
  · rintro (hb | ⟨k, -, hk, hb⟩)
    · exact absurd hb (Finset.notMem_empty b)
    · obtain ⟨hlength, hnone⟩ := lt_commandEnd_iff.mp hk
      rw [List.length_take, lt_min_iff] at hlength
      refine ⟨k, hlength.1, lt_commandEnd_iff.mpr ⟨hlength.2, fun j hj hends => ?_⟩,
        (hrecords hlength.1).mp hb⟩
      exact hnone j hj ((ends_take (hj.trans_lt hlength.1)).mpr hends)
  · rintro ⟨k, hkm, hk, hb⟩
    obtain ⟨hlength, hnone⟩ := lt_commandEnd_iff.mp hk
    refine Or.inr ⟨k, Nat.zero_le k, lt_commandEnd_iff.mpr ⟨?_, fun j hj hends => ?_⟩,
      (hrecords hkm).mpr hb⟩
    · rw [List.length_take]
      exact lt_min hkm hlength
    · exact hnone j hj ((ends_take (hj.trans_lt hkm)).mp hends)

/-- A place of the command where the parameter could begin, with what is before it. -/
def PlaceWith (board : Board) (text : List Char) (c : Char) (before : List Char → Bool) (k : ℕ) :
    Prop :=
  (k < (findParameters board text).1 ∧ Occurs text (wanted c) k) ∧
    before (text.take k) = wantLowerCase c

lemma records_placeWith (hc : IsParameterLetter board c) :
    k < (findParameters board text).1 ∧ Records board text k (parameterBit c) ↔
      PlaceWith board text c behindApostrophe k := by
  rw [records_iff hc, PlaceWith, and_assoc]

lemma mem_take_iff (hc : IsParameterLetter board c) :
    parameterBit c ∈ (findParameters board (text.take m)).2 ↔
      ∃ k < m, PlaceWith board text c behindApostrophe k := by
  rw [mem_findParameters_take]
  simp only [records_placeWith hc]

lemma mem_iff (hc : IsParameterLetter board c) :
    parameterBit c ∈ (findParameters board text).2 ↔
      ∃ k, PlaceWith board text c behindApostrophe k := by
  rw [(findParameters_finds board text).mem]
  simp only [Finset.notMem_empty, false_or, Nat.zero_le, true_and, records_placeWith hc]

/-- The place where the bit is set. -/
lemma isFirst_iff (hc : IsParameterLetter board c) :
    IsFirst (PlaceWith board text c behindApostrophe) k ↔
      parameterBit c ∈ (findParameters board (text.take (k + 1))).2 ∧
        parameterBit c ∉ (findParameters board (text.take k)).2 := by
  rw [mem_take_iff hc, mem_take_iff hc]
  constructor
  · rintro ⟨hk, hnone⟩
    refine ⟨⟨k, Nat.lt_succ_self k, hk⟩, ?_⟩
    rintro ⟨i, hi, hplace⟩
    exact hnone i hi hplace
  · rintro ⟨⟨i, hi, hplace⟩, hnone⟩
    have hnone' (i : ℕ) (hi : i < k) : ¬ PlaceWith board text c behindApostrophe i :=
      fun hplace => hnone ⟨i, hi, hplace⟩
    obtain hlt | rfl := Nat.lt_succ_iff_lt_or_eq.mp hi
    · exact absurd hplace (hnone' i hlt)
    · exact ⟨hplace, hnone'⟩

lemma found_placeWith : Found (text.take (findParameters board text).1) (wanted c)
    (wantLowerCase c) k ↔ PlaceWith board text c behindOdd k := by
  rw [Found, occurs_take, PlaceWith]
  apply and_congr_right
  rintro ⟨hk, -⟩
  rw [List.take_take, Nat.min_eq_left hk.le]

lemma scan_seeks (text : List Char) (hc : IsParameterLetter board c) :
    (∀ p, scan board text c = some p →
      ∃ k, p = k + 1 ∧ IsFirst (PlaceWith board text c behindOdd) k) ∧
    (scan board text c = none → ∀ k, ¬ PlaceWith board text c behindOdd k) := by
  have h : Seeks (text.take (findParameters board text).1) (wanted c) (wantLowerCase c) 0
      (scan board text c) :=
    seenLoop_seeks (wanted_letter hc) (wantLowerCase c) [] (text.take (findParameters board text).1)
  constructor
  · intro p hp
    obtain ⟨k, rfl, -, hfound, hfirst⟩ := h.some p hp
    refine ⟨k, rfl, found_placeWith.mp hfound, fun i hi hplace => ?_⟩
    exact hfirst i (Nat.zero_le i) hi (found_placeWith.mpr hplace)
  · intro hnone k hplace
    exact h.none hnone k (Nat.zero_le k) (found_placeWith.mpr hplace)

/-- The bit is set exactly when the scan finds the letter, and `Seen` then leaves the read pointer
behind the letter that the bit was set for. -/
def Agrees (board : Board) (text : List Char) (c : Char) : Prop :=
  (parameterBit c ∈ (findParameters board text).2 ↔ (scan board text c).isSome) ∧
    ∀ p, seen board text c = some p → ∃ k, p = k + 1 ∧
      parameterBit c ∈ (findParameters board (text.take (k + 1))).2 ∧
      parameterBit c ∉ (findParameters board (text.take k)).2

lemma parameterBit_lt (hc : IsParameterLetter board c) : parameterBit c < board.maxBits := by
  have hbits : parameterBit c < 26 ∨ parameterBit c ≤ board.highestAxisLetter.toNat - 71 := by
    obtain ⟨hlow, hhigh⟩ | ⟨hlow, hhigh⟩ := hc
    · have hupper : wantLowerCase c = false :=
        decide_eq_false fun h => absurd (Char.le_trans h hhigh) (by decide)
      have hle : c.toNat ≤ 90 := hhigh
      rw [parameterBit, hupper]
      change c.toNat - 65 < 26 ∨ _
      omega
    · have hlower : wantLowerCase c = true := decide_eq_true hlow
      have hle : c.toNat ≤ board.highestAxisLetter.toNat := hhigh
      rw [parameterBit, hlower]
      change _ ∨ c.toNat - (97 - 26) ≤ _
      omega
  have hboard : 26 ≤ board.maxBits ∧ board.highestAxisLetter.toNat - 71 < board.maxBits := by
    cases board <;> decide
  omega

lemma agrees_iff_isFirst (hc : IsParameterLetter board c) : Agrees board text c ↔
    ∀ k, IsFirst (PlaceWith board text c behindApostrophe) k ↔
      IsFirst (PlaceWith board text c behindOdd) k := by
  obtain ⟨hsome, hnone⟩ := scan_seeks text hc
  have hseen (hmem : parameterBit c ∈ (findParameters board text).2) :
      seen board text c = scan board text c := by
    rw [seen]
    exact if_neg (not_or.mpr ⟨not_le.mpr (parameterBit_lt hc), not_not.mpr hmem⟩)
  rw [Agrees]
  simp only [← isFirst_iff hc]
  constructor
  · rintro ⟨hiff, hplace⟩ k
    constructor
    · intro hk
      have hmem := (mem_iff hc).mpr ⟨k, hk.1⟩
      obtain ⟨p, hp⟩ := Option.isSome_iff_exists.mp (hiff.mp hmem)
      obtain ⟨j, rfl, hj⟩ := hsome p hp
      obtain ⟨i, hi, hfirst⟩ := hplace (j + 1) ((hseen hmem).trans hp)
      obtain rfl : j = i := Nat.succ.inj hi
      exact hk.unique hfirst ▸ hj
    · intro hk
      cases hscan : scan board text c with
      | none => exact absurd hk.1 (hnone hscan k)
      | some p =>
        obtain ⟨j, rfl, hj⟩ := hsome p hscan
        have hmem := hiff.mpr (Option.isSome_iff_exists.mpr ⟨_, hscan⟩)
        obtain ⟨i, hi, hfirst⟩ := hplace (j + 1) ((hseen hmem).trans hscan)
        obtain rfl : j = i := Nat.succ.inj hi
        exact hk.unique hj ▸ hfirst
  · intro h
    refine ⟨?_, fun p hp => ?_⟩
    · rw [mem_iff hc]
      constructor
      · rintro ⟨k, hk⟩
        obtain ⟨m, -, hm⟩ := exists_isFirst hk
        cases hscan : scan board text c with
        | none => exact absurd ((h m).mp hm).1 (hnone hscan m)
        | some p => rfl
      · intro hscan
        obtain ⟨p, hp⟩ := Option.isSome_iff_exists.mp hscan
        obtain ⟨j, -, hj⟩ := hsome p hp
        exact ⟨j, ((h j).mpr hj).1⟩
    · rw [seen] at hp
      split at hp
      · exact absurd hp.symm (Option.some_ne_none p)
      · obtain ⟨j, rfl, hj⟩ := hsome p hp
        exact ⟨j, rfl, (h j).mpr hj⟩

/-- The two scans take different views of a letter that is directly behind an apostrophe and behind
an even number of them, or the other way round. The bitmap and the search agree about a parameter if
and only if each such place comes after one where both views are the wanted one. -/
theorem bitmap_agrees (hc : IsParameterLetter board c) : Agrees board text c ↔
    ∀ k, Occurs text (wanted c) k → (∀ j ≤ k, ¬ Ends text j) →
      behindApostrophe (text.take k) ≠ behindOdd (text.take k) →
      ∃ j < k, Occurs text (wanted c) j ∧ behindApostrophe (text.take j) = wantLowerCase c ∧
        behindOdd (text.take j) = wantLowerCase c := by
  rw [agrees_iff_isFirst hc, isFirst_agree_iff]
  have hlt {k : ℕ} (hk : Occurs text (wanted c) k) : k < (findParameters board text).1 ↔
      ∀ j ≤ k, ¬ Ends text j := by
    rw [lt_commandEnd_iff, and_iff_right hk.lt]
  constructor
  · intro h k hk hnone hdiffer
    obtain ⟨j, hj, hfinds, hsees⟩ := h k (by
      rw [PlaceWith, PlaceWith, and_congr_right_iff]
      intro hboth
      have hboth := hboth ⟨(hlt hk).mpr hnone, hk⟩
      cases hb : behindApostrophe (text.take k) <;> cases ho : behindOdd (text.take k) <;>
        simp_all)
    exact ⟨j, hj, hfinds.1.2, hfinds.2, hsees.2⟩
  · intro h k hdiffer
    rw [PlaceWith, PlaceWith, and_congr_right_iff, Classical.not_imp] at hdiffer
    obtain ⟨⟨hk, hoccurs⟩, hdiffer⟩ := hdiffer
    obtain ⟨j, hj, hoccurs', hbehind, hodd⟩ := h k hoccurs ((hlt hoccurs).mp hk) (by
      intro heq
      rw [heq] at hdiffer
      exact hdiffer Iff.rfl)
    have hjk : j < (findParameters board text).1 := hj.trans hk
    exact ⟨j, hj, ⟨⟨hjk, hoccurs'⟩, hbehind⟩, ⟨hjk, hoccurs'⟩, hodd⟩

theorem bitmap_agrees_single : Agrees .duet3 ['\'', 'X', '1'] 'x' := by
  apply (bitmap_agrees (by decide)).mpr
  intro k hk _ hdiffer
  have hlt : k < 3 := hk.lt
  interval_cases k <;> exact absurd (by decide) hdiffer

/-- In `''X1` the bitmap has the lower-case letter and the search finds the upper-case one. -/
theorem doubled_apostrophe_disagrees :
    ¬ ∀ board text c, IsParameterLetter board c → Agrees board text c := by
  intro h
  have hagrees := (h .duet3 ['\'', '\'', 'X', '1'] 'x' (by decide)).1
  exact absurd hagrees (by decide)

end Agreement

end RepRapFirmware.GCodes.ParameterSearch
