import Mathlib.Data.List.Basic
import Mathlib.Tactic

/-! The search for a string in a string, in one pass. -/

namespace RepRapFirmware.RRFLibraries.StringFunctions

/-- The loop of `StringContains` over the characters before the terminator. -/
def containsLoop (mtch : List Char) : List Char → ℕ → ℕ → ℤ
  | [], _, _ => -1
  | c :: string, i, count =>
    if mtch[count]? = some c then
      if mtch[count + 1]? = none then (i + 1 : ℕ) - (count + 1 : ℕ)
      else containsLoop mtch string (i + 1) (count + 1)
    else containsLoop mtch string (i + 1) 0

def stringContains (string mtch : List Char) : ℤ := containsLoop mtch string 0 0

/-! ### What the search is for -/

def OccursAt (mtch string : List Char) (p : ℕ) : Prop := mtch <+: string.drop p

/-- The smallest position of an occurrence, or -1 if there is none. -/
def IsFirstOccurrence (mtch string : List Char) (r : ℤ) : Prop :=
  (∃ p : ℕ, r = p ∧ OccursAt mtch string p ∧ ∀ q < p, ¬ OccursAt mtch string q) ∨
    (r = -1 ∧ ∀ p, ¬ OccursAt mtch string p)

/-- The match begins at `p` and fails at its character `k`. -/
structure FailsAt (mtch string : List Char) (p k : ℕ) : Prop where
  begins : mtch.take k <+: string.drop p
  fails : ∃ c, string[p + k]? = some c ∧ mtch[k]? ≠ some c
  within : k < mtch.length

/-- The positions from which the match is tried: the first one, and the one behind each failure. -/
inductive Attempt (mtch string : List Char) : ℕ → Prop
  | start : Attempt mtch string 0
  | next {p k : ℕ} (h : Attempt mtch string p) (hfails : FailsAt mtch string p k) :
      Attempt mtch string (p + k + 1)

/-- The position belongs to an attempt that fails. -/
def Skipped (mtch string : List Char) (q : ℕ) : Prop :=
  ∃ p k, Attempt mtch string p ∧ FailsAt mtch string p k ∧ p ≤ q ∧ q ≤ p + k

section Attempts

variable {mtch string : List Char} {p p' k k' : ℕ}

lemma OccursAt.getElem? (h : OccursAt mtch string p) {j : ℕ} (hj : j < mtch.length) :
    string[p + j]? = mtch[j]? := by
  obtain ⟨rest, hrest⟩ := h
  rw [← List.getElem?_drop, ← hrest, List.getElem?_append_left hj]

lemma FailsAt.getElem? (h : FailsAt mtch string p k) {j : ℕ} (hj : j < k) :
    string[p + j]? = mtch[j]? := by
  obtain ⟨rest, hrest⟩ := h.begins
  have hlength : j < (mtch.take k).length := by
    rw [List.length_take]
    exact lt_min hj (hj.trans h.within)
  rw [← List.getElem?_drop, ← hrest, List.getElem?_append_left hlength, List.getElem?_take_of_lt hj]

lemma FailsAt.not_occursAt (h : FailsAt mtch string p k) : ¬ OccursAt mtch string p := by
  intro hoccurs
  obtain ⟨c, hc, hne⟩ := h.fails
  exact hne ((hoccurs.getElem? h.within).symm.trans hc)

lemma FailsAt.unique (h : FailsAt mtch string p k) (h' : FailsAt mtch string p k') : k = k' := by
  obtain ⟨c, hc, hne⟩ := h.fails
  obtain ⟨c', hc', hne'⟩ := h'.fails
  rcases Nat.lt_trichotomy k k' with hlt | heq | hlt
  · exact absurd ((h'.getElem? hlt).symm.trans hc) hne
  · exact heq
  · exact absurd ((h.getElem? hlt).symm.trans hc') hne'

/-- No attempt begins inside another one that fails. -/
lemma Attempt.gap (h : Attempt mtch string p) (h' : Attempt mtch string p')
    (hfails : FailsAt mtch string p' k) (hlt : p' < p) : p' + k + 1 ≤ p := by
  induction hsum : p + p' using Nat.strong_induction_on generalizing p p' k with
  | h n ih =>
    cases h with
    | start => exact absurd hlt (Nat.not_lt_zero p')
    | @next p₂ k₂ h₂ hfails₂ =>
      rcases Nat.lt_trichotomy p' p₂ with hbefore | rfl | hafter
      · have hle := ih (p₂ + p') (by omega) h₂ h' hfails hbefore rfl
        omega
      · rw [hfails.unique hfails₂]
      · have hle := ih (p' + p₂) (by omega) h' h₂ hfails₂ hafter rfl
        omega

/-- The search ends with an attempt that succeeds. -/
lemma Attempt.le_of_occursAt (h : Attempt mtch string p) (hoccurs : OccursAt mtch string p)
    (h' : Attempt mtch string p') : p' ≤ p := by
  induction h' with
  | start => exact Nat.zero_le p
  | @next p₂ k₂ h₂ hfails₂ ih =>
    rcases Nat.lt_or_eq_of_le ih with hlt | rfl
    · exact h.gap h₂ hfails₂ hlt
    · exact absurd hoccurs hfails₂.not_occursAt

/-- What the loop returns: the position of an attempt that succeeds, with nothing but failures
before
it, or -1 when there is no occurrence outside of the attempts that have failed. -/
lemma containsLoop_spec (string rest before : List Char) (count : ℕ)
    (hstring : string = before ++ (mtch.take count ++ rest)) (hcount : count < mtch.length)
    (hattempt : Attempt mtch string before.length)
    (hskipped : ∀ q < before.length, Skipped mtch string q) :
    (∃ p : ℕ, containsLoop mtch rest (before.length + count) count = p ∧ Attempt mtch string p ∧
        OccursAt mtch string p ∧ ∀ q < p, Skipped mtch string q) ∨
      (containsLoop mtch rest (before.length + count) count = -1 ∧
        ∀ q, OccursAt mtch string q → Skipped mtch string q) := by
  have htake : (mtch.take count).length = count := List.length_take_of_le hcount.le
  induction rest generalizing before count with
  | nil =>
    refine .inr ⟨rfl, fun q hoccurs => ?_⟩
    apply hskipped
    by_contra hlate
    have hlength := hoccurs.length_le
    rw [List.length_drop, hstring, List.length_append, List.append_nil, htake] at hlength
    omega
  | cons c rest ih =>
    rw [containsLoop]
    by_cases hmatch : mtch[count]? = some c
    · have hnext : mtch.take (count + 1) = mtch.take count ++ [c] := by
        rw [List.take_add_one, hmatch]
        rfl
      have hstring' : string = before ++ (mtch.take (count + 1) ++ rest) := by
        rw [hstring, hnext, List.append_assoc, List.singleton_append]
      rw [if_pos hmatch]
      by_cases hlast : mtch[count + 1]? = none
      · rw [if_pos hlast]
        have hall : mtch.take (count + 1) = mtch :=
          List.take_of_length_le (List.getElem?_eq_none_iff.mp hlast)
        refine .inl ⟨before.length, by push_cast; ring, hattempt, ?_, hskipped⟩
        rw [OccursAt, hstring', List.drop_left, hall]
        exact List.prefix_append mtch rest
      · rw [if_neg hlast]
        have hmore : count + 1 < mtch.length := by
          rw [List.getElem?_eq_none_iff, not_le] at hlast
          exact hlast
        exact ih before (count + 1) hstring' hmore hattempt hskipped
          (List.length_take_of_le hmore.le)
    · rw [if_neg hmatch]
      have hfails : FailsAt mtch string before.length count := by
        refine ⟨?_, ⟨c, ?_, hmatch⟩, hcount⟩
        · rw [hstring, List.drop_left]
          exact List.prefix_append _ _
        · rw [hstring, List.getElem?_append_right (Nat.le_add_right _ _), Nat.add_sub_cancel_left,
            List.getElem?_append_right htake.le, htake, Nat.sub_self]
          rfl
      -- the next attempt begins behind the character that does not match
      have hlength : (before ++ (mtch.take count ++ [c])).length = before.length + count + 1 := by
        rw [List.length_append, List.length_append, htake]
        rfl
      have hloop := ih (before ++ (mtch.take count ++ [c])) 0
        (by rw [hstring, List.take_zero]; simp) (Nat.zero_lt_of_lt hcount)
        (by rw [hlength]; exact hattempt.next hfails) (fun q hq => ?_) (by rw [List.take_zero]; rfl)
      · rw [hlength] at hloop
        exact hloop
      · rw [hlength] at hq
        rcases Nat.lt_or_ge q before.length with hbefore | hinside
        · exact hskipped q hbefore
        · exact ⟨before.length, count, hattempt, hfails, hinside, by omega⟩

/-- The search is right exactly when no occurrence begins inside an attempt that fails. -/
theorem stringContains_first_iff (string : List Char) (hmatch : mtch ≠ []) :
    IsFirstOccurrence mtch string (stringContains string mtch) ↔
      ∀ p k q, Attempt mtch string p → FailsAt mtch string p k → p < q → q ≤ p + k →
        ¬ OccursAt mtch string q := by
  have houtcome := containsLoop_spec string string [] 0 rfl
    (List.length_pos_iff.mpr hmatch) .start fun q hq => absurd hq (Nat.not_lt_zero q)
  rw [List.length_nil] at houtcome
  change (∃ p : ℕ, stringContains string mtch = p ∧ _) ∨ (stringContains string mtch = -1 ∧ _)
    at houtcome
  constructor
  · intro hfirst p k q hattempt hfails hpq hqk hoccurs
    rcases houtcome with ⟨r, hr, hr', hroccurs, -⟩ | ⟨hr, -⟩
    · have hpr : p < r := by
        rcases Nat.lt_or_eq_of_le (hr'.le_of_occursAt hroccurs hattempt) with hlt | rfl
        · exact hlt
        · exact absurd hroccurs hfails.not_occursAt
      have hgap := hr'.gap hattempt hfails hpr
      rcases hfirst with ⟨r', hr'', -, hnone⟩ | ⟨hminus, -⟩
      · obtain rfl : r = r' := Int.ofNat.inj (hr.symm.trans hr'')
        exact hnone q (by omega) hoccurs
      · rw [hr] at hminus
        exact absurd hminus (by omega)
    · rcases hfirst with ⟨r', hr', -, -⟩ | ⟨-, hnone⟩
      · rw [hr] at hr'
        exact absurd hr' (by omega)
      · exact hnone q hoccurs
  · intro hclear
    have hskipped : ∀ q, Skipped mtch string q → ¬ OccursAt mtch string q := by
      rintro q ⟨p, k, hattempt, hfails, hpq, hqk⟩
      rcases Nat.lt_or_eq_of_le hpq with hlt | rfl
      · exact hclear p k q hattempt hfails hlt hqk
      · exact hfails.not_occursAt
    rcases houtcome with ⟨r, hr, -, hroccurs, hbefore⟩ | ⟨hr, hnone⟩
    · exact .inl ⟨r, hr, hroccurs, fun q hq => hskipped q (hbefore q hq)⟩
    · exact .inr ⟨hr, fun q hoccurs => hskipped q (hnone q hoccurs) hoccurs⟩

end Attempts

theorem stringContains_first_cab : IsFirstOccurrence ['a', 'b'] ['c', 'a', 'b']
    (stringContains ['c', 'a', 'b'] ['a', 'b']) := by
  apply (stringContains_first_iff ['c', 'a', 'b'] (List.cons_ne_nil _ _)).mpr
  intro p k q _ hfails hpq hqk hoccurs
  have hlength := hoccurs.length_le
  rw [List.length_drop] at hlength
  change 2 ≤ 3 - q at hlength
  obtain rfl : p = 0 := by omega
  exact absurd (hfails.getElem? (j := 0) (by omega)) (by decide)

/-- The second character both ends the first attempt and begins the occurrence. -/
theorem stringContains_aab : ¬ ∀ string mtch : List Char, mtch ≠ [] →
    IsFirstOccurrence mtch string (stringContains string mtch) := by
  intro h
  rcases h ['a', 'a', 'b'] ['a', 'b'] (List.cons_ne_nil _ _) with ⟨p, hp, -⟩ | ⟨-, hnone⟩
  · have hresult : stringContains ['a', 'a', 'b'] ['a', 'b'] = -1 := by decide
    omega
  · exact hnone 1 (List.prefix_refl _)

end RepRapFirmware.RRFLibraries.StringFunctions
