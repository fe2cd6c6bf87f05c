import Mathlib.Data.List.TakeWhile
import Mathlib.Data.Nat.Digits.Lemmas
import Mathlib.Tactic

/-! Reading JSON, and what texts put together from their parts are read as. The characters of a text
are its bytes; a number is kept as it is written. -/

namespace RepRapFirmware.Library.Json

inductive Value
  | null
  | bool (b : Bool)
  | num (t : List Char)
  | str (s : List Char)
  | arr (vs : List Value)
  | obj (ms : List (List Char × Value))

def isWs (c : Char) : Bool := c = ' ' || c = '\n' || c = '\r' || c = '\t'

def skipWs (t : List Char) : List Char := t.dropWhile isWs

/-- The character that an escape stands for. -/
def unescape (c : Char) : Option Char :=
  if c = '"' ∨ c = '\\' ∨ c = '/' then some c
  else if c = 'b' then some (Char.ofNat 8)
  else if c = 'f' then some (Char.ofNat 12)
  else if c = 'n' then some '\n'
  else if c = 'r' then some '\r'
  else if c = 't' then some '\t'
  else none

def hexDigit (c : Char) : Option ℕ :=
  if c.isDigit then some (c.toNat - '0'.toNat)
  else if 'a' ≤ c ∧ c ≤ 'f' then some (c.toNat - 'a'.toNat + 10)
  else if 'A' ≤ c ∧ c ≤ 'F' then some (c.toNat - 'A'.toNat + 10)
  else none

/-- Where the reading of a string stands: at a character, behind a backslash, or in an escape by
number with what was read of it and the digits that follow the next one. -/
inductive Scan
  | plain
  | escape
  | hex (n left : ℕ)

/-- A string from behind its first quote on. -/
def readString : Scan → List Char → Option (List Char × List Char)
  | _, [] => none
  | .plain, c :: t =>
    if c = '"' then some ([], t)
    else if c = '\\' then readString .escape t
    else if c < ' ' then none
    else (readString .plain t).map fun x => (c :: x.1, x.2)
  | .escape, e :: t =>
    if e = 'u' then readString (.hex 0 3) t
    else (unescape e).bind fun c => (readString .plain t).map fun x => (c :: x.1, x.2)
  | .hex n 0, h :: t =>
    (hexDigit h).bind fun d =>
      (readString .plain t).map fun x => (Char.ofNat (16 * n + d) :: x.1, x.2)
  | .hex n (left + 1), h :: t =>
    (hexDigit h).bind fun d => readString (.hex (16 * n + d) left) t

def sign : List Char → List Char × List Char
  | [] => ([], [])
  | c :: t => if c = '-' then (['-'], t) else ([], c :: t)

def digits (t : List Char) : List Char × List Char := (t.takeWhile Char.isDigit,
    t.dropWhile Char.isDigit)

def integer : List Char → Option (List Char × List Char)
  | [] => none
  | c :: t =>
    if c = '0' then some (['0'], t)
    else if c.isDigit then some (c :: (digits t).1, (digits t).2)
    else none

def fraction : List Char → Option (List Char × List Char)
  | [] => some ([], [])
  | c :: t =>
    if c = '.' then
      if (digits t).1 = [] then none else some ('.' :: (digits t).1, (digits t).2)
    else some ([], c :: t)

def exponentSign : List Char → List Char × List Char
  | [] => ([], [])
  | c :: t => if c = '+' ∨ c = '-' then ([c], t) else ([], c :: t)

def exponent : List Char → Option (List Char × List Char)
  | [] => some ([], [])
  | c :: t =>
    if c = 'e' ∨ c = 'E' then
      let (s, u) := exponentSign t
      if (digits u).1 = [] then none else some (c :: s ++ (digits u).1, (digits u).2)
    else some ([], c :: t)

def readNumber (t : List Char) : Option (List Char × List Char) := do
  let (s, t) := sign t
  let (i, t) ← integer t
  let (f, t) ← fraction t
  let (e, t) ← exponent t
  some (s ++ i ++ f ++ e, t)

def literal (word : List Char) (v : Value) (t : List Char) : Option (Value × List Char) :=
  if word <+: t then some (v, t.drop word.length) else none

mutual

/-- A value and what follows it. The number bounds the depth of the recursion. -/
def readValue : ℕ → List Char → Option (Value × List Char)
  | 0, _ => none
  | n + 1, t =>
    match skipWs t with
    | [] => none
    | c :: t =>
      if c = '"' then (readString .plain t).map fun x => (.str x.1, x.2)
      else if c = '[' then
        if (skipWs t).head? = some ']' then some (.arr [], (skipWs t).tail)
        else (readElements n t).map fun x => (.arr x.1, x.2)
      else if c = '{' then
        if (skipWs t).head? = some '}' then some (.obj [], (skipWs t).tail)
        else (readMembers n t).map fun x => (.obj x.1, x.2)
      else if c = 'n' then literal "null".toList .null (c :: t)
      else if c = 't' then literal "true".toList (.bool true) (c :: t)
      else if c = 'f' then literal "false".toList (.bool false) (c :: t)
      else (readNumber (c :: t)).map fun x => (.num x.1, x.2)

/-- The values of an array up to its closing bracket. -/
def readElements : ℕ → List Char → Option (List Value × List Char)
  | 0, _ => none
  | n + 1, t => do
    let (v, t) ← readValue n t
    match skipWs t with
    | [] => none
    | c :: t =>
      if c = ',' then do
        let (vs, t) ← readElements n t
        some (v :: vs, t)
      else if c = ']' then some ([v], t)
      else none

/-- The members of an object up to its closing brace. -/
def readMembers : ℕ → List Char → Option (List (List Char × Value) × List Char)
  | 0, _ => none
  | n + 1, t =>
    match skipWs t with
    | [] => none
    | q :: t =>
      if q = '"' then do
        let (k, t) ← readString .plain t
        match skipWs t with
        | [] => none
        | c :: t =>
          if c = ':' then do
            let (v, t) ← readValue n t
            match skipWs t with
            | [] => none
            | c :: t =>
              if c = ',' then do
                let (ms, t) ← readMembers n t
                some ((k, v) :: ms, t)
              else if c = '}' then some ([(k, v)], t)
              else none
          else none
      else none

end

/-- The value that a complete text stands for. -/
def parse (t : List Char) : Option Value := do
  let (v, r) ← readValue (t.length + 1) t
  if skipWs r = [] then some v else none

/-- What may stand behind a number without becoming part of it. -/
def Stops (r : List Char) : Prop :=
  ∀ c ∈ r.head?, c.isDigit = false ∧ c ≠ '.' ∧ c ≠ 'e' ∧ c ≠ 'E'

/-- The text between the quotes stands for the string. -/
def Spells (s t : List Char) : Prop := ∀ r, readString .plain (t ++ '"' :: r) = some (s, r)

def Reads (v : Value) (t : List Char) : Prop :=
  ∀ n r, t.length ≤ n → Stops r → readValue n (t ++ r) = some (v, r)

def ReadsAll (vs : List Value) (t : List Char) : Prop :=
  ∀ n r, t.length < n → readElements n (t ++ ']' :: r) = some (vs, r)

def ReadsMembers (ms : List (List Char × Value)) (t : List Char) : Prop :=
  ∀ n r, t.length < n → readMembers n (t ++ '}' :: r) = some (ms, r)

variable {v : Value} {vs : List Value} {k s t u r : List Char} {ms : List (List Char × Value)}
  {c : Char} {n : ℕ}

lemma skipWs_cons (h : isWs c = false) : skipWs (c :: t) = c :: t :=
  List.dropWhile_cons_of_neg (by simp [h])

@[simp] lemma skipWs_comma : skipWs (',' :: t) = ',' :: t := skipWs_cons rfl

@[simp] lemma skipWs_colon : skipWs (':' :: t) = ':' :: t := skipWs_cons rfl

lemma Stops.cons (hd : c.isDigit = false) (hp : c ≠ '.') (he : c ≠ 'e') (hE : c ≠ 'E') :
    Stops (c :: r) := by
  intro d hmem
  cases hmem
  exact ⟨hd, hp, he, hE⟩

lemma stops_ws (hw : ∀ c ∈ r, isWs c = true) : Stops r := by
  intro c hmem
  have hc := hw c (List.mem_of_mem_head? hmem)
  refine ⟨?_, ?_, ?_, ?_⟩ <;> simp only [isWs, Bool.or_eq_true, decide_eq_true_eq] at hc <;>
    rcases hc with ((rfl | rfl) | rfl) | rfl <;> decide

lemma spells_nil : Spells [] [] := by
  intro r
  rw [List.nil_append, readString, if_pos rfl]

lemma Spells.plain (hq : c ≠ '"') (hb : c ≠ '\\') (hc : ¬ c < ' ') (h : Spells s t) :
    Spells (c :: s) (c :: t) := by
  intro r
  rw [List.cons_append, readString, if_neg hq, if_neg hb, if_neg hc, h r]
  rfl

lemma Spells.escape {e : Char} (he : e ≠ 'u') (hc : unescape e = some c) (h : Spells s t) :
    Spells (c :: s) ('\\' :: e :: t) := by
  intro r
  rw [List.cons_append, List.cons_append, readString, if_neg (by decide), if_pos rfl, readString,
    if_neg he, hc, h r]
  rfl

lemma Spells.reads (h : Spells s t) : Reads (.str s) ('"' :: t ++ ['"']) := by
  intro n r hn _
  obtain ⟨n, rfl⟩ : ∃ m, n = m + 1 := ⟨n - 1, by simp at hn; omega⟩
  have htext : '"' :: t ++ ['"'] ++ r = '"' :: (t ++ '"' :: r) := by simp
  rw [htext, readValue, skipWs_cons rfl]
  simp [h r]

lemma digits_append (hd : ∀ c ∈ t, c.isDigit = true) (hr : Stops r) : digits (t ++ r) = (t, r) := by
  have hhead : ∀ c ∈ r.head?, ¬ c.isDigit = true := fun c hc => by simp [(hr c hc).1]
  induction t with
  | nil =>
    cases r with
    | nil => rfl
    | cons c r =>
      have hc : ¬ c.isDigit = true := hhead c rfl
      rw [List.nil_append, digits, List.takeWhile_cons_of_neg hc, List.dropWhile_cons_of_neg hc]
  | cons c t ih =>
    have hc : c.isDigit = true := hd c List.mem_cons_self
    have htail := Prod.mk.inj (ih fun d hmem => hd d (List.mem_cons_of_mem c hmem))
    rw [List.cons_append, digits, List.takeWhile_cons_of_pos hc, List.dropWhile_cons_of_pos hc,
      htail.1, htail.2]

/-- Digits without a needless zero in front. -/
structure Integral (t : List Char) : Prop where
  digits : ∀ c ∈ t, c.isDigit = true
  nonempty : t ≠ []
  lead : t.head? = some '0' → t = ['0']

lemma digitChar_ne_zero (h0 : n ≠ 0) (h : n < 10) : n.digitChar ≠ '0' := by
  interval_cases n <;> first | exact absurd rfl h0 | decide

lemma head_toDigits (h0 : n ≠ 0) : (Nat.toDigits 10 n).head? ≠ some '0' := by
  induction n using Nat.strong_induction_on with
  | _ n ih =>
    by_cases hlt : n < 10
    · rw [Nat.toDigits_of_lt_base hlt]
      intro h
      exact digitChar_ne_zero h0 hlt (Option.some.inj h)
    · have hdiv : n / 10 ≠ 0 := by omega
      have hhead := ih (n / 10) (by omega) hdiv
      rw [Nat.toDigits_of_base_le (by decide) (by omega)]
      cases htail : Nat.toDigits 10 (n / 10) with
      | nil => exact absurd htail Nat.toDigits_ne_nil
      | cons c t =>
        rw [htail] at hhead
        exact hhead

lemma integral_toDigits (n : ℕ) : Integral (Nat.toDigits 10 n) where
  digits _ hc := Nat.isDigit_of_mem_toDigits (by decide) (by decide) hc
  nonempty := Nat.toDigits_ne_nil
  lead h := by
    by_cases h0 : n = 0
    · rw [h0, Nat.toDigits_zero]
    · exact absurd h (head_toDigits h0)

lemma Integral.read (h : Integral t) (hr : Stops r) : integer (t ++ r) = some (t, r) := by
  cases t with
  | nil => exact absurd rfl h.nonempty
  | cons c t =>
    by_cases hc : c = '0'
    · obtain ⟨rfl, rfl⟩ : c = '0' ∧ t = [] := by simpa using h.lead (by rw [hc]; rfl)
      rfl
    · have hdigits := digits_append (fun d hd => h.digits d (List.mem_cons_of_mem c hd)) hr
      rw [List.cons_append, integer, if_neg hc, if_pos (h.digits c List.mem_cons_self), hdigits]

lemma fraction_stops (hr : Stops r) : fraction r = some ([], r) := by
  cases r with
  | nil => rfl
  | cons c r => rw [fraction, if_neg (hr c rfl).2.1]

lemma exponent_stops (hr : Stops r) : exponent r = some ([], r) := by
  cases r with
  | nil => rfl
  | cons c r => rw [exponent, if_neg (not_or.mpr (hr c rfl).2.2)]

/-- A sign may stand before the digits. -/
def Signed (t : List Char) : Prop := Integral t ∨ ∃ u, t = '-' :: u ∧ Integral u

lemma sign_digit (hc : c.isDigit = true) : sign (c :: t) = ([], c :: t) := by
  rw [sign, if_neg]
  rintro rfl
  cases hc

lemma Integral.number (h : Integral t) (hr : Stops r) : readNumber (t ++ r) = some (t, r) := by
  have hsign : sign (t ++ r) = ([], t ++ r) := by
    cases t with
    | nil => exact absurd rfl h.nonempty
    | cons c t => exact sign_digit (h.digits c List.mem_cons_self)
  simp [readNumber, hsign, h.read hr, fraction_stops hr, exponent_stops hr]

lemma Signed.number (h : Signed t) (hr : Stops r) : readNumber (t ++ r) = some (t, r) := by
  rcases h with h | ⟨u, rfl, h⟩
  · exact h.number hr
  · have hsign : sign ('-' :: u ++ r) = (['-'], u ++ r) := rfl
    simp only [readNumber, hsign, h.read hr, fraction_stops hr, exponent_stops hr,
      Option.bind_eq_bind, Option.bind_some, List.append_nil]
    rfl

lemma not_digit_of_mem (h : c ∈ "\"[\x7bntf,]\x7d: \n\r\t".toList) : c.isDigit = false ∧ c ≠ '-' :=
    by
  fin_cases h <;> decide

lemma isWs_of_number (h : c.isDigit = true ∨ c = '-') : isWs c = false := by
  by_contra hws
  simp only [isWs, Bool.not_eq_false, Bool.or_eq_true, decide_eq_true_eq] at hws
  rcases h with h | rfl
  · rcases hws with ((rfl | rfl) | rfl) | rfl <;> cases h
  · rcases hws with ((h | h) | h) | h <;> cases h

lemma Signed.head (h : Signed t) : ∃ c u, t = c :: u ∧ (c.isDigit = true ∨ c = '-') := by
  rcases h with h | ⟨u, rfl, -⟩
  · cases t with
    | nil => exact absurd rfl h.nonempty
    | cons c u => exact ⟨c, u, rfl, .inl (h.digits c List.mem_cons_self)⟩
  · exact ⟨'-', u, rfl, .inr rfl⟩

lemma Signed.reads (h : Signed t) : Reads (.num t) t := by
  obtain ⟨c, u, rfl, hc⟩ := h.head
  intro n r hn hr
  obtain ⟨n, rfl⟩ : ∃ m, n = m + 1 := ⟨n - 1, by simp at hn; omega⟩
  have hother : ∀ d ∈ "\"[\x7bntf,]\x7d: \n\r\t".toList, c ≠ d := by
    rintro d hd rfl
    obtain ⟨hdigit, hminus⟩ := not_digit_of_mem hd
    rcases hc with hc | hc
    · rw [hdigit] at hc
      cases hc
    · exact hminus hc
  have hnumber := h.number hr
  rw [List.cons_append] at hnumber ⊢
  rw [readValue, skipWs_cons (isWs_of_number hc)]
  simp only [if_neg (hother '"' (by decide)), if_neg (hother '[' (by decide)),
    if_neg (hother '{' (by decide)), if_neg (hother 'n' (by decide)),
    if_neg (hother 't' (by decide)), if_neg (hother 'f' (by decide)), hnumber]
  rfl

/-- No value begins with a closing bracket. -/
lemma readValue_close (h : (skipWs t).head? = some ']') : readValue n t = none := by
  cases n with
  | zero => rw [readValue]
  | succ n =>
    rw [readValue]
    cases hskip : skipWs t with
    | nil => rfl
    | cons c u =>
      rw [hskip] at h
      cases h
      rfl

lemma readMembers_close (h : (skipWs t).head? = some '}') : readMembers n t = none := by
  cases n with
  | zero => rw [readMembers]
  | succ n =>
    rw [readMembers]
    cases hskip : skipWs t with
    | nil => rfl
    | cons c u =>
      rw [hskip] at h
      cases h
      rfl

lemma readElements_close (h : (skipWs t).head? = some ']') : readElements n t = none := by
  cases n with
  | zero => rw [readElements]
  | succ n => rw [readElements, readValue_close h]; rfl

lemma reads_arr_nil : Reads (.arr []) "[]".toList := by
  intro n r hn _
  obtain ⟨n, rfl⟩ : ∃ m, n = m + 1 := ⟨n - 1, by simp at hn; omega⟩
  rfl

lemma ReadsAll.reads (h : ReadsAll vs t) : Reads (.arr vs) ('[' :: t ++ [']']) := by
  intro n r hn _
  obtain ⟨n, rfl⟩ : ∃ m, n = m + 1 := ⟨n - 1, by simp at hn; omega⟩
  have hall := h n r (by simp at hn; omega)
  have htext : '[' :: t ++ [']'] ++ r = '[' :: (t ++ ']' :: r) := by simp
  have hopen : ¬ (skipWs (t ++ ']' :: r)).head? = some ']' := by
    intro hclose
    rw [readElements_close hclose] at hall
    cases hall
  rw [htext, readValue, skipWs_cons rfl]
  simp only [if_neg (show ¬ '[' = '"' by decide), if_pos, if_neg hopen, hall]
  rfl

lemma ReadsMembers.reads (h : ReadsMembers ms t) : Reads (.obj ms) ('{' :: t ++ ['}']) := by
  intro n r hn _
  obtain ⟨n, rfl⟩ : ∃ m, n = m + 1 := ⟨n - 1, by simp at hn; omega⟩
  have hall := h n r (by simp at hn; omega)
  have htext : '{' :: t ++ ['}'] ++ r = '{' :: (t ++ '}' :: r) := by simp
  have hopen : ¬ (skipWs (t ++ '}' :: r)).head? = some '}' := by
    intro hclose
    rw [readMembers_close hclose] at hall
    cases hall
  rw [htext, readValue, skipWs_cons rfl]
  simp only [if_neg (show ¬ '{' = '"' by decide), if_neg (show ¬ '{' = '[' by decide), if_pos,
    if_neg hopen, hall]
  rfl

lemma Reads.one (h : Reads v t) : ReadsAll [v] t := by
  intro n r hn
  obtain ⟨n, rfl⟩ : ∃ m, n = m + 1 := ⟨n - 1, by omega⟩
  have hv := h n (']' :: r) (by omega) (Stops.cons rfl (by decide) (by decide) (by decide))
  rw [readElements, hv]
  rfl

lemma Reads.cons (h : Reads v t) (hs : ReadsAll vs u) : ReadsAll (v :: vs) (t ++ ',' :: u) := by
  intro n r hn
  rw [List.length_append, List.length_cons] at hn
  obtain ⟨n, rfl⟩ : ∃ m, n = m + 1 := ⟨n - 1, by omega⟩
  have hv := h n (',' :: (u ++ ']' :: r)) (by omega)
    (Stops.cons rfl (by decide) (by decide) (by decide))
  have hu := hs n r (by omega)
  have htext : t ++ ',' :: u ++ ']' :: r = t ++ ',' :: (u ++ ']' :: r) := by simp
  rw [htext, readElements, hv]
  simp only [Option.bind_eq_bind, Option.bind_some, skipWs_comma, if_pos, hu]

/-- The text of a member. -/
def member (k t : List Char) : List Char := '"' :: k ++ '"' :: ':' :: t

lemma Reads.member (hk : Spells k s) (h : Reads v t) : ReadsMembers [(k, v)] (member s t) := by
  intro n r hn
  rw [Json.member, List.length_append, List.length_cons, List.length_cons] at hn
  obtain ⟨n, rfl⟩ : ∃ m, n = m + 1 := ⟨n - 1, by omega⟩
  have hv := h n ('}' :: r) (by simp at hn; omega) (Stops.cons rfl (by decide) (by decide)
    (by decide))
  have htext : Json.member s t ++ '}' :: r = '"' :: (s ++ '"' :: (':' :: (t ++ '}' :: r))) := by
    simp [Json.member]
  rw [htext, readMembers, skipWs_cons rfl]
  simp only [if_pos, hk _, Option.bind_eq_bind, Option.bind_some, skipWs_colon, hv]
  rfl

lemma Reads.cons_member (hk : Spells k s) (h : Reads v t) (hs : ReadsMembers ms u) :
    ReadsMembers ((k, v) :: ms) (Json.member s t ++ ',' :: u) := by
  intro n r hn
  rw [Json.member, List.length_append, List.length_append, List.length_cons, List.length_cons] at hn
  obtain ⟨n, rfl⟩ : ∃ m, n = m + 1 := ⟨n - 1, by omega⟩
  have hv := h n (',' :: (u ++ '}' :: r)) (by simp at hn; omega)
    (Stops.cons rfl (by decide) (by decide) (by decide))
  have hu := hs n r (by simp at hn; omega)
  have htext : Json.member s t ++ ',' :: u ++ '}' :: r =
      '"' :: (s ++ '"' :: (':' :: (t ++ ',' :: (u ++ '}' :: r)))) := by
    simp [Json.member]
  rw [htext, readMembers, skipWs_cons rfl]
  simp only [if_pos, hk _, Option.bind_eq_bind, Option.bind_some, skipWs_colon, hv, skipWs_comma,
    hu]

/-- Values that are read are read from a list with commas. -/
lemma readsAll_intercalate {α : Type*} {f : α → Value} {g : α → List Char}
    (h : ∀ a, Reads (f a) (g a)) (a : α) (as : List α) :
    ReadsAll ((a :: as).map f) (g a ++ (as.map fun b => ',' :: g b).flatten) := by
  induction as generalizing a with
  | nil => simpa using (h a).one
  | cons b as ih => simpa using (h a).cons (ih b)

lemma Reads.parse (h : Reads v t) (hw : ∀ c ∈ r, isWs c = true) : Json.parse (t ++ r) = some v := by
  have hread := h ((t ++ r).length + 1) r (by simp; omega) (stops_ws hw)
  have hskip : skipWs r = [] := by
    rw [skipWs, List.dropWhile_eq_nil_iff]
    exact hw
  simp only [Json.parse, hread, Option.bind_eq_bind, Option.bind_some, if_pos hskip]

/-! ### Control characters -/

lemma unescape_control (hc : c < ' ') : unescape c = none := by
  have hne {d : Char} (hd : ¬ d < ' ') : c ≠ d := fun h => hd (h ▸ hc)
  simp only [unescape, hne (show ¬ '"' < ' ' by decide), hne (show ¬ '\\' < ' ' by decide),
    hne (show ¬ '/' < ' ' by decide), hne (show ¬ 'b' < ' ' by decide),
    hne (show ¬ 'f' < ' ' by decide), hne (show ¬ 'n' < ' ' by decide),
    hne (show ¬ 'r' < ' ' by decide), hne (show ¬ 't' < ' ' by decide), or_self, if_false]

lemma hexDigit_control (hc : c < ' ') : hexDigit c = none := by
  have hval : c.toNat < 32 := hc
  have hdigit : c.isDigit = false := by
    rw [Bool.eq_false_iff]
    intro h
    simp only [Char.isDigit, Bool.and_eq_true, decide_eq_true_eq] at h
    have hlow : 48 ≤ c.toNat := h.1
    omega
  have hlower : ¬ ('a' ≤ c ∧ c ≤ 'f') := fun h => by
    have hlow : 97 ≤ c.toNat := h.1
    omega
  have hupper : ¬ ('A' ≤ c ∧ c ≤ 'F') := fun h => by
    have hlow : 65 ≤ c.toNat := h.1
    omega
  rw [hexDigit, hdigit, if_neg Bool.false_ne_true, if_neg hlower, if_neg hupper]

/-- A string that is read up to its last quote has no raw control character before it. -/
lemma no_control_of_readString {scan : Scan} (h : readString scan (t ++ '"' :: r) = some (s, r)) :
    ∀ c ∈ t, ¬ c < ' ' := by
  induction t generalizing scan s with
  | nil => exact fun c hc => absurd hc List.not_mem_nil
  | cons c t ih =>
    rw [List.cons_append] at h
    cases scan with
    | plain =>
      rw [readString] at h
      split at h
      · have hlength := congrArg List.length (Prod.mk.inj (Option.some.inj h)).2
        rw [List.length_append, List.length_cons] at hlength
        omega
      · split at h
        · next hslash =>
          subst hslash
          exact List.forall_mem_cons.mpr ⟨by decide, ih h⟩
        · split at h
          · exact nomatch h
          · next hcontrol =>
            obtain ⟨⟨s', r'⟩, hrest, heq⟩ := Option.map_eq_some_iff.mp h
            obtain ⟨rfl, rfl⟩ := Prod.mk.inj heq
            exact List.forall_mem_cons.mpr ⟨hcontrol, ih hrest⟩
    | escape =>
      rw [readString] at h
      split at h
      · next hu =>
        subst hu
        exact List.forall_mem_cons.mpr ⟨by decide, ih h⟩
      · obtain ⟨d, hd, hmap⟩ := Option.bind_eq_some_iff.mp h
        obtain ⟨⟨s', r'⟩, hrest, heq⟩ := Option.map_eq_some_iff.mp hmap
        obtain ⟨rfl, rfl⟩ := Prod.mk.inj heq
        refine List.forall_mem_cons.mpr ⟨fun hcontrol => ?_, ih hrest⟩
        rw [unescape_control hcontrol] at hd
        exact nomatch hd
    | hex n left =>
      cases left with
      | zero =>
        rw [readString] at h
        obtain ⟨d, hd, hmap⟩ := Option.bind_eq_some_iff.mp h
        obtain ⟨⟨s', r'⟩, hrest, heq⟩ := Option.map_eq_some_iff.mp hmap
        obtain ⟨rfl, rfl⟩ := Prod.mk.inj heq
        refine List.forall_mem_cons.mpr ⟨fun hcontrol => ?_, ih hrest⟩
        rw [hexDigit_control hcontrol] at hd
        exact nomatch hd
      | succ left =>
        rw [readString] at h
        obtain ⟨d, hd, hrest⟩ := Option.bind_eq_some_iff.mp h
        refine List.forall_mem_cons.mpr ⟨fun hcontrol => ?_, ih hrest⟩
        rw [hexDigit_control hcontrol] at hd
        exact nomatch hd

lemma Spells.no_control (h : Spells s t) : ∀ c ∈ t, ¬ c < ' ' := no_control_of_readString (h [])
end RepRapFirmware.Library.Json
