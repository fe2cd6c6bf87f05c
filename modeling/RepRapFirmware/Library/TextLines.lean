import Mathlib.Data.List.Infix
import Mathlib.Data.List.TakeWhile
import Mathlib.Tactic

/-! The lines of a text whose line ends are given by a predicate. Blank lines do not count, so that
one line end may be made of several characters. -/

namespace RepRapFirmware.Library.TextLines

variable {α : Type*} (eol : α → Bool)

/-- The stretches between the line ends, the one after the last line end included. -/
def pieces : List α → List (List α)
  | [] => [[]]
  | c :: l =>
    if eol c then [] :: pieces l
    else
      match pieces l with
      | [] => [[c]]
      | p :: ps => (c :: p) :: ps

/-- All lines, with one at the end that has no line end. -/
def lines (l : List α) : List (List α) := (pieces eol l).filter fun p => !p.isEmpty

/-- The lines that have a line end. -/
def completeLines (l : List α) : List (List α) :=
  (pieces eol l).dropLast.filter fun p => !p.isEmpty

/-- What follows the first line end. -/
def skipLine (l : List α) : List α := (l.dropWhile fun c => !eol c).drop 1

/-- Every piece with the offset of its first character. -/
def numbered (offset : ℕ) : List (List α) → List (ℕ × List α)
  | [] => []
  | p :: ps => (offset, p) :: numbered (offset + p.length + 1) ps

/-- The lines that begin after an offset. -/
def linesAfter (start : ℕ) (l : List α) : List (List α) :=
  ((numbered 0 (pieces eol l)).filter fun q => decide (start < q.1) && !q.2.isEmpty).map Prod.snd

def Free (l : List α) : Prop := ∀ c ∈ l, eol c = false

variable {eol} {a b l x : List α} {t : α}

lemma pieces_ne_nil (eol : α → Bool) (l : List α) : pieces eol l ≠ [] := by
  cases l with
  | nil => exact List.cons_ne_nil _ _
  | cons c l =>
    rw [pieces]
    split
    · exact List.cons_ne_nil _ _
    · split <;> exact List.cons_ne_nil _ _

lemma pieces_append (ha : Free eol a) (ht : eol t = true) (b : List α) :
    pieces eol (a ++ t :: b) = a :: pieces eol b := by
  induction a with
  | nil => rw [List.nil_append, pieces, if_pos ht]
  | cons c a ih =>
    have hc : eol c = false := ha c List.mem_cons_self
    rw [List.cons_append, pieces, hc, ih fun d hd => ha d (List.mem_cons_of_mem c hd)]
    rfl

lemma pieces_free (ha : Free eol a) : pieces eol a = [a] := by
  induction a with
  | nil => rfl
  | cons c a ih =>
    have hc : eol c = false := ha c List.mem_cons_self
    rw [pieces, hc, ih fun d hd => ha d (List.mem_cons_of_mem c hd)]
    rfl

lemma free_takeWhile (eol : α → Bool) (l : List α) : Free eol (l.takeWhile fun c => !eol c) := by
  intro c hc
  simpa using List.mem_takeWhile_imp hc

lemma ends_takeWhile (eol : α → Bool) (l : List α) : ∀ c ∈ l.takeWhile eol, eol c = true :=
  fun _ hc => List.mem_takeWhile_imp hc

lemma head_dropWhile_free {l : List α} {t : α} {b : List α}
    (h : (l.dropWhile fun c => !eol c) = t :: b) : eol t = true := by
  have hhead := List.head?_dropWhile_not (fun c => !eol c) l
  rw [h] at hhead
  simpa using hhead

lemma head_dropWhile_ends {l : List α} {t : α} {b : List α} (h : l.dropWhile eol = t :: b) :
    eol t = false := by
  have hhead := List.head?_dropWhile_not eol l
  rw [h] at hhead
  exact hhead

/-- A text has no line end, or it is a first line, its end and the rest. -/
lemma split_first (eol : α → Bool) (l : List α) : Free eol l ∨
    ∃ a t b, Free eol a ∧ eol t = true ∧ l = a ++ t :: b := by
  induction l with
  | nil => exact .inl fun c hc => absurd hc List.not_mem_nil
  | cons c l ih =>
    by_cases hc : eol c = true
    · exact .inr ⟨[], c, l, fun d hd => absurd hd List.not_mem_nil, hc, rfl⟩
    · have hc' : eol c = false := by simpa using hc
      obtain hfree | ⟨a, t, b, ha, ht, rfl⟩ := ih
      · exact .inl (List.forall_mem_cons.mpr ⟨hc', hfree⟩)
      · exact .inr ⟨c :: a, t, b, List.forall_mem_cons.mpr ⟨hc', ha⟩, ht, rfl⟩

/-- Induction on the lines of a text. -/
theorem line_induction (eol : α → Bool) {P : List α → Prop} (hfree : ∀ a, Free eol a → P a)
    (hline : ∀ a t b, Free eol a → eol t = true → P b → P (a ++ t :: b)) (l : List α) : P l := by
  induction hn : l.length using Nat.strong_induction_on generalizing l with
  | _ n ih =>
    obtain hl | ⟨a, t, b, ha, ht, rfl⟩ := split_first eol l
    · exact hfree l hl
    · apply hline a t b ha ht
      apply ih b.length _ b rfl
      rw [← hn, List.length_append, List.length_cons]
      omega

def nonblank (a : List α) : List (List α) := if a.isEmpty then [] else [a]

lemma lines_append (ha : Free eol a) (ht : eol t = true) (b : List α) :
    lines eol (a ++ t :: b) = nonblank a ++ lines eol b := by
  rw [lines, pieces_append ha ht, List.filter_cons, nonblank, lines]
  cases a <;> rfl

lemma completeLines_append (ha : Free eol a) (ht : eol t = true) (b : List α) :
    completeLines eol (a ++ t :: b) = nonblank a ++ completeLines eol b := by
  rw [completeLines, pieces_append ha ht, List.dropLast_cons_of_ne_nil (pieces_ne_nil eol b),
    List.filter_cons, nonblank, completeLines]
  cases a <;> rfl

lemma lines_free (ha : Free eol a) : lines eol a = nonblank a := by
  rw [lines, pieces_free ha, nonblank]
  cases a <;> rfl

lemma completeLines_free (ha : Free eol a) : completeLines eol a = [] := by
  rw [completeLines, pieces_free ha]
  rfl

/-! ### Texts that end with a line end -/

variable (eol) in
inductive Terminated : List α → Prop
  | nil : Terminated []
  | line {a : List α} {t : α} {b : List α} (free : Free eol a) (ending : eol t = true)
      (rest : Terminated b) : Terminated (a ++ t :: b)

lemma Terminated.cons (ht : eol t = true) (h : Terminated eol l) : Terminated eol (t :: l) :=
  .line (a := []) (fun _ hc => absurd hc List.not_mem_nil) ht h

lemma Terminated.append (ha : Terminated eol a) (hb : Terminated eol b) : Terminated eol (a ++ b) :=
    by
  induction ha with
  | nil => exact hb
  | line free ending _ ih =>
    rw [List.append_assoc, List.cons_append]
    exact .line free ending ih

lemma terminated_of_forall (h : ∀ c ∈ l, eol c = true) : Terminated eol l := by
  induction l with
  | nil => exact .nil
  | cons c l ih =>
    exact .cons (h c List.mem_cons_self) (ih fun d hd => h d (List.mem_cons_of_mem c hd))

lemma completeLines_ends {ends : List α} (h : ∀ c ∈ ends, eol c = true) :
    completeLines eol ends = [] := by
  induction ends with
  | nil => rfl
  | cons t ends ih =>
    have hstep : completeLines eol (t :: ends) = nonblank [] ++ completeLines eol ends :=
      TextLines.completeLines_append (fun _ hc => absurd hc List.not_mem_nil)
        (h t List.mem_cons_self) ends
    rw [hstep, ih fun c hc => h c (List.mem_cons_of_mem t hc)]
    rfl

lemma Terminated.lines_append (h : Terminated eol a) (b : List α) :
    lines eol (a ++ b) = completeLines eol a ++ lines eol b := by
  induction h with
  | nil => rfl
  | line free ending _ ih =>
    rw [List.append_assoc, List.cons_append, TextLines.lines_append free ending,
      TextLines.completeLines_append free ending, ih, List.append_assoc]

lemma Terminated.completeLines_append (h : Terminated eol a) (b : List α) :
    completeLines eol (a ++ b) = completeLines eol a ++ completeLines eol b := by
  induction h with
  | nil => rfl
  | line free ending _ ih =>
    rw [List.append_assoc, List.cons_append, TextLines.completeLines_append free ending,
      TextLines.completeLines_append free ending, ih, List.append_assoc]

/-- The last line, if it has no line end. -/
def openLine (eol : α → Bool) (l : List α) : List (List α) :=
  nonblank ((pieces eol l).getLast (pieces_ne_nil eol l))

lemma lines_eq (l : List α) : lines eol l = completeLines eol l ++ openLine eol l := by
  rw [lines, completeLines, openLine, nonblank]
  nth_rewrite 1 [← List.dropLast_append_getLast (pieces_ne_nil eol l)]
  rw [List.filter_append]
  congr 1
  cases (pieces eol l).getLast (pieces_ne_nil eol l) <;> rfl

lemma Terminated.openLine_append (h : Terminated eol a) (b : List α) :
    openLine eol (a ++ b) = openLine eol b := by
  have hlines := h.lines_append b
  rw [lines_eq, lines_eq, h.completeLines_append, List.append_assoc] at hlines
  exact List.append_cancel_left (List.append_cancel_left hlines)

/-! ### Skipping and offsets -/

lemma skipLine_free (ha : Free eol a) : skipLine eol a = [] := by
  have hall : a.dropWhile (fun c => !eol c) = [] := by
    rw [List.dropWhile_eq_nil_iff]
    intro c hc
    simp [ha c hc]
  rw [skipLine, hall, List.drop_nil]

lemma skipLine_append (ha : Free eol a) (ht : eol t = true) (b : List α) :
    skipLine eol (a ++ t :: b) = b := by
  have hdrop : (a ++ t :: b).dropWhile (fun c => !eol c) = t :: b := by
    rw [List.dropWhile_append_of_pos fun c hc => by simp [ha c hc]]
    exact List.dropWhile_cons_of_neg (by simp [ht])
  rw [skipLine, hdrop]
  rfl

lemma skipLine_free_append (ha : Free eol a) (b : List α) :
    skipLine eol (a ++ b) = skipLine eol b := by
  rw [skipLine, List.dropWhile_append_of_pos fun c hc => by simp [ha c hc]]
  rfl

lemma Free.sublist (h : Free eol b) (hsub : a.Sublist b) : Free eol a :=
  fun c hc => h c (hsub.subset hc)

/-- The lines that begin after an offset are those after the first line end from there on. -/
lemma linesAfter_eq (start : ℕ) (l : List α) :
    linesAfter eol start l = lines eol (skipLine eol (l.drop start)) := by
  have hgeneral : ∀ offset, ((numbered offset (pieces eol l)).filter
      fun q => decide (start < q.1) && !q.2.isEmpty).map Prod.snd =
        if start < offset then lines eol l
        else lines eol (skipLine eol (l.drop (start - offset))) := by
    induction l using line_induction eol with
    | hfree a ha =>
      intro offset
      rw [pieces_free ha, lines_free ha, numbered, numbered, nonblank,
        skipLine_free (ha.sublist (List.drop_sublist _ _))]
      by_cases hstart : start < offset <;> cases a <;> simp [hstart, lines, pieces]
    | hline a t b ha ht ih =>
      intro offset
      rw [pieces_append ha ht, lines_append ha ht, numbered, List.filter_cons]
      have hrest := ih (offset + a.length + 1)
      by_cases hstart : start < offset
      · rw [if_pos (by omega)] at hrest
        cases a with
        | nil => simpa [hstart, nonblank] using hrest
        | cons c a => simpa [hstart, nonblank] using hrest
      · by_cases hinside : start < offset + a.length + 1
        · rw [if_pos hinside] at hrest
          have hdrop : (a ++ t :: b).drop (start - offset) = a.drop (start - offset) ++ t :: b :=
            List.drop_append_of_le_length (by omega)
          rw [if_neg (by simp [hstart]), hrest, if_neg hstart, hdrop,
            skipLine_append (ha.sublist (List.drop_sublist _ _)) ht]
        · rw [if_neg hinside] at hrest
          have hdrop : (a ++ t :: b).drop (start - offset) =
              b.drop (start - (offset + a.length + 1)) := by
            have hsum : start - offset = a.length + (1 + (start - (offset + a.length + 1))) := by
              omega
            rw [hsum, ← List.drop_drop, List.drop_left, ← List.drop_drop]
            rfl
          rw [if_neg (by simp [hstart]), hrest, if_neg hstart, hdrop]
  have hzero := hgeneral 0
  rwa [if_neg (Nat.not_lt_zero start)] at hzero

/-! ### Short lines -/

/-- A stretch without line ends lies on one side of a line end. -/
lemma infix_cases (hx : Free eol x) (ht : eol t = true) (h : x <:+: a ++ t :: b) :
    x.length ≤ a.length ∨ x <:+: b := by
  have hnot : t ∉ x := fun hmem => Bool.false_ne_true ((hx t hmem).symm.trans ht)
  obtain ⟨u, v, huv⟩ := h
  obtain ⟨w, ha, -⟩ | ⟨w, hux, hw⟩ := List.append_eq_append_iff.mp huv
  · left
    rw [ha]
    simp only [List.length_append]
    omega
  · cases w with
    | nil =>
      left
      have hlen := congrArg List.length hux
      simp only [List.length_append, List.length_nil] at hlen
      omega
    | cons t' w =>
      obtain ⟨rfl, rfl⟩ := List.cons.inj hw
      obtain ⟨s, -, hx'⟩ | ⟨s, -, htw⟩ := List.append_eq_append_iff.mp hux
      · exact absurd (hx' ▸ List.mem_append_right s List.mem_cons_self) hnot
      · cases s with
        | nil =>
          have hxt : x = t :: w := htw.symm
          exact absurd (hxt ▸ List.mem_cons_self) hnot
        | cons t' s =>
          right
          obtain ⟨-, rfl⟩ := List.cons.inj htw
          exact ⟨s, v, rfl⟩

/-- A stretch without line ends is not longer than the longest line. -/
lemma length_lt_of_infix {n : ℕ} (hn : 0 < n) (h : ∀ line ∈ lines eol l, line.length < n)
    (hx : x <:+: l) (hfree : Free eol x) : x.length < n := by
  induction l using line_induction eol with
  | hfree a ha =>
    cases a with
    | nil =>
      rw [List.infix_nil.mp hx]
      exact hn
    | cons c a =>
      have hline : (c :: a).length < n :=
        h _ (by rw [lines_free ha]; exact List.mem_singleton_self _)
      exact hx.length_le.trans_lt hline
  | hline a t b ha ht ih =>
    rw [lines_append ha ht] at h
    by_cases hin : x <:+: b
    · exact ih (fun line hl => h line (List.mem_append_right _ hl)) hin
    · have hxa : x.length ≤ a.length := by
        exact (infix_cases hfree ht hx).resolve_right hin
      cases a with
      | nil => exact hxa.trans_lt hn
      | cons c a =>
        exact hxa.trans_lt (h _ (List.mem_append_left _ (List.mem_singleton_self _)))

end RepRapFirmware.Library.TextLines
