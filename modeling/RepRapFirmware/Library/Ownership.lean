import Mathlib.Logic.Function.Basic
import Mathlib.Tactic

/-! Resources that each have at most one holder, where the holders are also recorded the other way
round, as the purpose for which each resource is marked. -/

namespace RepRapFirmware.Library.Ownership

variable {ι ρ κ : Type*} [DecidableEq ι] [DecidableEq ρ]

structure Consistent (holds : ι → Option ρ) (purpose : ι → κ) (mark : ρ → Option κ) : Prop where
  marked : ∀ i r, holds i = some r → mark r = some (purpose i)
  unique : ∀ i j r, holds i = some r → holds j = some r → i = j
  held : ∀ r, mark r ≠ none → ∃ i, holds i = some r

variable {holds : ι → Option ρ} {purpose : ι → κ} {mark : ρ → Option κ} {i : ι} {r : ρ} {k : κ}

lemma Consistent.free (h : Consistent holds purpose mark) (hi : holds i = some r) :
    Consistent (Function.update holds i none) purpose (Function.update mark r none) where
  marked j q hj := by
    by_cases heq : j = i
    · subst heq
      simp at hj
    · rw [Function.update_of_ne heq] at hj
      have hne : q ≠ r := fun hqr => heq (h.unique j i r (hqr ▸ hj) hi)
      rw [Function.update_of_ne hne]
      exact h.marked j q hj
  unique j k q hj hk := by
    by_cases hji : j = i
    · subst hji
      simp at hj
    · by_cases hki : k = i
      · subst hki
        simp at hk
      · rw [Function.update_of_ne hji] at hj
        rw [Function.update_of_ne hki] at hk
        exact h.unique j k q hj hk
  held q hq := by
    by_cases hqr : q = r
    · subst hqr
      simp at hq
    · rw [Function.update_of_ne hqr] at hq
      obtain ⟨j, hj⟩ := h.held q hq
      refine ⟨j, ?_⟩
      rw [Function.update_of_ne _, hj]
      rintro rfl
      exact hqr (Option.some.inj (hj.symm.trans hi))

lemma Consistent.take (h : Consistent holds purpose mark) (hi : holds i = none)
    (hr : mark r = none) (k : κ) : Consistent (Function.update holds i (some r))
      (Function.update purpose i k) (Function.update mark r (some k)) where
  marked j q hj := by
    by_cases heq : j = i
    · subst heq
      obtain rfl : r = q := by simpa using hj
      simp
    · rw [Function.update_of_ne heq] at hj ⊢
      have hmark := h.marked j q hj
      have hne : q ≠ r := by
        rintro rfl
        exact Option.some_ne_none _ (hmark.symm.trans hr)
      rw [Function.update_of_ne hne, hmark]
  unique j l q hj hl := by
    have hnot : ∀ j, holds j ≠ some r := fun j hj =>
      Option.some_ne_none _ ((h.marked j r hj).symm.trans hr)
    by_cases hji : j = i
    · by_cases hli : l = i
      · exact hji.trans hli.symm
      · subst hji
        obtain rfl : r = q := by simpa using hj
        rw [Function.update_of_ne hli] at hl
        exact absurd hl (hnot l)
    · rw [Function.update_of_ne hji] at hj
      by_cases hli : l = i
      · subst hli
        obtain rfl : r = q := by simpa using hl
        exact absurd hj (hnot j)
      · rw [Function.update_of_ne hli] at hl
        exact h.unique j l q hj hl
  held q hq := by
    by_cases hqr : q = r
    · subst hqr
      exact ⟨i, Function.update_self ..⟩
    · rw [Function.update_of_ne hqr] at hq
      obtain ⟨j, hj⟩ := h.held q hq
      refine ⟨j, ?_⟩
      rw [Function.update_of_ne _, hj]
      rintro rfl
      exact Option.some_ne_none _ (hj.symm.trans hi)

omit [DecidableEq ρ] in
/-- The purpose of what holds nothing does not count. -/
lemma Consistent.repurpose (h : Consistent holds purpose mark) (hi : holds i = none) (k : κ) :
    Consistent holds (Function.update purpose i k) mark where
  marked j q hj := by
    rw [Function.update_of_ne]
    · exact h.marked j q hj
    · rintro rfl
      exact Option.some_ne_none _ (hj.symm.trans hi)
  unique := h.unique
  held := h.held

end RepRapFirmware.Library.Ownership
