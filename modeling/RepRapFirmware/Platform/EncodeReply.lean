import RepRapFirmware.Platform.PagedLists

/-! The two ways of putting a text into a JSON string: character by character from a chain of output
buffers, and by the format of a printed response. -/

namespace RepRapFirmware.Platform

open Library.Json

/-! ### Encoding a chain -/

/-- A buffer of a chain that is encoded, and whether something else still refers to it. -/
structure SourceBuffer where
  data : List Char
  shared : Bool
  hlen : data.length ≤ outputBufferSize

def contentsOf (src : List SourceBuffer) : List Char := src.flatMap SourceBuffer.data

namespace OutputBuffer

variable (board : Board)

/-- The character behind the backslash, if there is one. -/
def escapeOf (c : Char) : Option Char :=
  if c = '\r' then some 'r'
  else if c = '\n' then some 'n'
  else if c = '\t' then some 't'
  else if c = '"' ∨ c = '\\' then some c
  else none

def encodeChar (c : Char) (b : OutputBuffer) : ℕ × OutputBuffer :=
  match escapeOf c with
  | some esc =>
    let (written, b) := cat board '\\' b
    if written = 0 then (written, b)
    else
      let (n, b) := cat board esc b
      (written + n, b)
  | none => cat board c b

def encodeData : List Char → OutputBuffer → ℕ × OutputBuffer
  | [], b => (0, b)
  | c :: data, b =>
    let (n, b) := encodeChar board c b
    let (m, b) := encodeData data b
    (n + m, b)

/-- `Release` of a buffer of the chain. -/
def release (src : SourceBuffer) (b : OutputBuffer) : OutputBuffer :=
  if src.shared then b else { b with freeBuffers := b.freeBuffers + 1 }

def encodeBuffers : List SourceBuffer → OutputBuffer → ℕ × OutputBuffer
  | [], b => (0, b)
  | src :: more, b =>
    let (n, b) := encodeData board src.data b
    let (m, b) := encodeBuffers more (release src b)
    (n + m, b)

def encodeReply (src : List SourceBuffer) (b : OutputBuffer) : ℕ × OutputBuffer :=
  let (n, b) := cat board '"' b
  let (m, b) := encodeBuffers board src b
  let (k, b) := cat board '"' b
  (n + m + k, b)

end OutputBuffer

/-! ### What both are for -/

/-- The text with `r` for the control characters that have no short escape. -/
def replaceControls (r : Char) (t : List Char) : List Char :=
  t.map fun c => if c < ' ' ∧ c ≠ '\r' ∧ c ≠ '\n' ∧ c ≠ '\t' then r else c

/-- Whatever chain the text comes from and wherever it is written to, if the output is complete then
each way has written a JSON string that stands for `d`. -/
structure EncodesAs (t d : List Char) : Prop where
  reply : ∀ (board : Board) (src : List SourceBuffer) (b : OutputBuffer), contentsOf src = t →
    (b.encodeReply board src).2.hadOverflow = false →
      ∃ e, (b.encodeReply board src).2.text = b.text ++ ('"' :: e ++ ['"']) ∧ Spells d e
  json : ∀ (board : Board) (b : OutputBuffer), (b.catf board (putJson t)).2.hadOverflow = false →
    ∃ e, (b.catf board (putJson t)).2.text = b.text ++ e ∧ Spells d e

/-! ### What is written -/

section Output

variable {board : Board} {b b' b'' : OutputBuffer} {s t d e r : List Char} {c : Char} {n m : ℕ}

/-- A complete output of `s`. -/
def Appends (s : List Char) (b b' : OutputBuffer) : Prop :=
  b'.hadOverflow = false → b.hadOverflow = false ∧ b'.text = b.text ++ s

lemma Appends.trans (h : Appends s b b') (h' : Appends t b' b'') : Appends (s ++ t) b b'' := by
  intro hcomplete
  obtain ⟨hcomplete', htext'⟩ := h' hcomplete
  obtain ⟨hstart, htext⟩ := h hcomplete'
  exact ⟨hstart, by rw [htext', htext, List.append_assoc]⟩

/-- There is room for so many characters, and nothing has been left out yet. -/
def Room (board : Board) (n : ℕ) (b : OutputBuffer) : Prop :=
  n ≤ b.getBytesLeft board ∧ b.hadOverflow = false

lemma wrote_appends {q : ℕ × OutputBuffer} (h : OutputBuffer.Wrote board s b q) :
    Appends s b q.2 := by
  intro hcomplete
  rw [h.overflow, Bool.or_eq_false_iff, decide_eq_false_iff_not, not_lt] at hcomplete
  rw [h.text, List.take_of_length_le hcomplete.2]
  exact ⟨hcomplete.1, rfl⟩

lemma wrote_room {q : ℕ × OutputBuffer} (h : OutputBuffer.Wrote board s b q)
    (hroom : Room board (s.length + n) b) : Room board n q.2 := by
  obtain ⟨hleft, hcomplete⟩ := hroom
  rw [Room, h.bytesLeft, h.overflow, hcomplete, Bool.false_or, decide_eq_false_iff_not]
  omega

def escaped (c : Char) : List Char :=
  match OutputBuffer.escapeOf c with
  | some esc => ['\\', esc]
  | none => [c]

lemma encodeChar_wrote (board : Board) (c : Char) (b : OutputBuffer) :
    OutputBuffer.Wrote board (escaped c) b (b.encodeChar board c) := by
  rw [OutputBuffer.encodeChar, escaped]
  cases OutputBuffer.escapeOf c with
  | none => exact OutputBuffer.cat_wrote board c b
  | some esc =>
    have hslash := OutputBuffer.cat_wrote board '\\' b
    by_cases hzero : (b.cat board '\\').1 = 0
    · have hnone := hslash.stopped hzero [esc]
      simp only [if_pos hzero]
      rwa [← hzero] at hnone
    · simp only [if_neg hzero]
      exact hslash.append (OutputBuffer.cat_wrote board esc _)

lemma encodeData_wrote (board : Board) (data : List Char) (b : OutputBuffer) :
    OutputBuffer.Wrote board (data.flatMap escaped) b (b.encodeData board data) := by
  induction data generalizing b with
  | nil => exact OutputBuffer.Wrote.nil
  | cons c data ih => exact (encodeChar_wrote board c b).append (ih (b.encodeChar board c).2)

lemma getBytesLeft_release (board : Board) (src : SourceBuffer) (b : OutputBuffer) :
    b.getBytesLeft board ≤ (b.release src).getBytesLeft board := by
  rw [OutputBuffer.getBytesLeft_eq, OutputBuffer.getBytesLeft_eq, OutputBuffer.release]
  split
  · exact le_rfl
  · exact Nat.add_le_add_left (Nat.mul_le_mul_right _ (by simp only; omega)) _

lemma release_appends (src : SourceBuffer) (b : OutputBuffer) : Appends [] b (b.release src) := by
  rw [Appends, OutputBuffer.release, List.append_nil]
  split
  · exact fun h => ⟨h, rfl⟩
  · exact fun h => ⟨h, rfl⟩

lemma release_room (src : SourceBuffer) (h : Room board n b) : Room board n (b.release src) := by
  refine ⟨h.1.trans (getBytesLeft_release board src b), ?_⟩
  rw [OutputBuffer.release]
  split
  · exact h.2
  · exact h.2

lemma encodeBuffers_spec (board : Board) (src : List SourceBuffer) (b : OutputBuffer) :
    Appends ((contentsOf src).flatMap escaped) b (b.encodeBuffers board src).2 ∧
      ∀ n, Room board (((contentsOf src).flatMap escaped).length + n) b →
        Room board n (b.encodeBuffers board src).2 := by
  induction src generalizing b with
  | nil =>
    refine ⟨fun h => ⟨h, (List.append_nil _).symm⟩, fun n h => ?_⟩
    have hnone : ((contentsOf []).flatMap escaped).length + n = n := Nat.zero_add n
    rwa [hnone] at h
  | cons first more ih =>
    have hfirst := encodeData_wrote board first.data b
    obtain ⟨happends, hroom⟩ := ih ((b.encodeData board first.data).2.release first)
    have hcontents : (contentsOf (first :: more)).flatMap escaped =
        first.data.flatMap escaped ++ (contentsOf more).flatMap escaped := by
      rw [contentsOf, List.flatMap_cons, List.flatMap_append]
      rfl
    rw [hcontents]
    refine ⟨(wrote_appends hfirst).trans ((release_appends first _).trans happends), fun n h => ?_⟩
    apply hroom
    apply release_room
    apply wrote_room hfirst
    rwa [List.length_append, Nat.add_assoc] at h

lemma encodeReply_spec (board : Board) (src : List SourceBuffer) (b : OutputBuffer) :
    Appends ('"' :: ((contentsOf src).flatMap escaped) ++ ['"']) b (b.encodeReply board src).2 ∧
      (Room board (((contentsOf src).flatMap escaped).length + 2) b →
        (b.encodeReply board src).2.hadOverflow = false) := by
  have hopen := OutputBuffer.cat_wrote board '"' b
  obtain ⟨happends, hroom⟩ := encodeBuffers_spec board src (b.cat board '"').2
  have hclose := OutputBuffer.cat_wrote board '"' ((b.cat board '"').2.encodeBuffers board src).2
  constructor
  · have hwhole := ((wrote_appends hopen).trans happends).trans (wrote_appends hclose)
    exact hwhole
  · intro h
    refine (wrote_room (n := 0) hclose (hroom 1 (wrote_room hopen ?_))).2
    rw [List.length_singleton]
    rwa [Nat.add_comm 1]

/-! ### Texts that both encode alike -/

/-- A control character that neither way has a short escape for. -/
def Unescaped (c : Char) : Prop := c < ' ' ∧ c ≠ '\r' ∧ c ≠ '\n' ∧ c ≠ '\t'

lemma escaped_unescaped (h : Unescaped c) : escaped c = [c] := by
  obtain ⟨hc, hr, hn, ht⟩ := h
  have hq : ¬ (c = '"' ∨ c = '\\') := by
    rintro (rfl | rfl)
    · exact absurd hc (by decide)
    · exact absurd hc (by decide)
  rw [escaped, OutputBuffer.escapeOf, if_neg hr, if_neg hn, if_neg ht, if_neg hq]

lemma escaped_eq_putJsonChar (h : ¬ Unescaped c) : escaped c = putJsonChar c := by
  rw [escaped, OutputBuffer.escapeOf, putJsonChar]
  by_cases hr : c = '\r'
  · rw [if_pos hr, if_pos hr]
  by_cases hn : c = '\n'
  · rw [if_neg hr, if_neg hr, if_pos hn, if_pos hn]
  by_cases ht : c = '\t'
  · rw [if_neg hr, if_neg hr, if_neg hn, if_neg hn, if_pos ht, if_pos ht]
  by_cases hq : c = '"' ∨ c = '\\'
  · rw [if_neg hr, if_neg hr, if_neg hn, if_neg hn, if_neg ht, if_neg ht, if_pos hq, if_pos hq]
  · rw [if_neg hr, if_neg hr, if_neg hn, if_neg hn, if_neg ht, if_neg ht, if_neg hq, if_neg hq,
      if_neg fun hc => h ⟨hc, hr, hn, ht⟩]

lemma escaped_eq_putJson (h : ∀ c ∈ t, ¬ Unescaped c) : t.flatMap escaped = putJson t :=
  List.flatMap_congr fun c hc => escaped_eq_putJsonChar (h c hc)

lemma map_of_not_unescaped {f : Char → Char} (hf : ∀ c, ¬ Unescaped c → f c = c)
    (h : ∀ c ∈ t, ¬ Unescaped c) : t.map f = t := by
  have hid : t.map f = t.map id := List.map_congr_left fun c hc => hf c (h c hc)
  rw [hid, List.map_id]

lemma replaceControls_eq (h : ∀ c ∈ t, ¬ Unescaped c) (r : Char) : replaceControls r t = t :=
  map_of_not_unescaped (fun _ hc => if_neg hc) h

lemma encodesAs_self (h : ∀ c ∈ t, ¬ Unescaped c) : EncodesAs t t := by
  have hspells : Spells t (putJson t) := by
    have hprintable := spells_putJson t
    have hsame : t.map printable = t := map_of_not_unescaped (fun _ hc => if_neg hc) h
    rwa [hsame] at hprintable
  constructor
  · rintro board src b rfl hcomplete
    obtain ⟨-, htext⟩ := (encodeReply_spec board src b).1 hcomplete
    rw [escaped_eq_putJson h] at htext
    exact ⟨_, htext, hspells⟩
  · intro board b hcomplete
    obtain ⟨-, htext⟩ := wrote_appends (OutputBuffer.catf_wrote board (putJson t) b) hcomplete
    exact ⟨_, htext, hspells⟩

/-- A chain with one character to a buffer. -/
def singles (t : List Char) : List SourceBuffer := 
  t.map fun c => ⟨[c], true, Nat.one_le_two_pow (n := 8)⟩

lemma contentsOf_singles (t : List Char) : contentsOf (singles t) = t := by
  rw [contentsOf, singles, List.flatMap_map]
  exact List.flatMap_singleton' t

/-- A chain that is encoded goes through the control characters as they are. -/
lemma EncodesAs.no_unescaped (h : EncodesAs t d) : ∀ c ∈ t, ¬ Unescaped c := by
  intro c hmem hc
  let b : OutputBuffer := ⟨[], 0, (t.flatMap escaped).length + 4, false, Nat.zero_le _⟩
  obtain ⟨happends, hcomplete⟩ := encodeReply_spec sam4e (singles t) b
  rw [contentsOf_singles] at happends hcomplete
  have hroom : Room sam4e ((t.flatMap escaped).length + 2) b := by
    refine ⟨?_, rfl⟩
    rw [OutputBuffer.getBytesLeft_eq]
    simp only [b, sam4e, outputBufferSize]
    omega
  have hwhole := hcomplete hroom
  obtain ⟨e, htext, hspells⟩ := h.reply sam4e (singles t) b (contentsOf_singles t) hwhole
  obtain ⟨-, htext'⟩ := happends hwhole
  have he : e = t.flatMap escaped := by
    have heq := List.append_cancel_left (htext.symm.trans htext')
    exact (List.append_cancel_right heq |> List.cons.inj).2
  have hraw : c ∈ e := by
    rw [he, List.mem_flatMap]
    exact ⟨c, hmem, by rw [escaped_unescaped hc]; exact List.mem_singleton_self c⟩
  exact hspells.no_control c hraw hc.1

/-- The two ways agree, and give valid JSON, exactly on the texts without control characters that
have
no short escape. -/
theorem encoders_agree_iff (t : List Char) :
    (∃ r, EncodesAs t (replaceControls r t)) ↔
      ∀ c ∈ t, c < ' ' → c = '\r' ∨ c = '\n' ∨ c = '\t' := by
  constructor
  · rintro ⟨r, h⟩ c hmem hc
    have hescaped := h.no_unescaped c hmem
    simp only [Unescaped, hc, true_and, not_and_or, not_not] at hescaped
    exact hescaped
  · intro h
    have hnone : ∀ c ∈ t, ¬ Unescaped c := by
      rintro c hmem ⟨hc, hr, hn, ht'⟩
      rcases h c hmem hc with rfl | rfl | rfl
      · exact hr rfl
      · exact hn rfl
      · exact ht' rfl
    refine ⟨'?', ?_⟩
    rw [replaceControls_eq hnone]
    exact encodesAs_self hnone

theorem encoders_differ_bell : ¬ ∀ t : List Char, ∃ r, EncodesAs t (replaceControls r t) := by
  intro h
  obtain ⟨r, hbell⟩ := h ['\x07']
  exact hbell.no_unescaped '\x07' List.mem_cons_self ⟨by decide, by decide, by decide, by decide⟩

end Output

end RepRapFirmware.Platform
