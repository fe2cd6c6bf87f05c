import Mathlib.Data.List.Basic
import Mathlib.Logic.Function.Basic
import Mathlib.Tactic

/-! Arrays of which the first elements are in use, and which have no gaps after a removal. -/

namespace RepRapFirmware.Library.CompactedArrays

/-- An array with the number of its elements that are in use. -/
structure Slots (α : Type*) where
  slot : ℕ → α
  count : ℕ

/-- The loop that moves the elements from `i` on one place down, up to the place `n`. -/
def moveDown {α : Type*} (slot : ℕ → α) (i n : ℕ) : ℕ → α :=
  (List.range' i (n - i)).foldl (fun slot k => Function.update slot k (slot (k + 1))) slot

namespace Slots

variable {α β : Type*}

def list (s : Slots α) : List α := (List.range s.count).map s.slot

def push (a : α) (s : Slots α) : Slots α := ⟨Function.update s.slot s.count a, s.count + 1⟩

def remove (i : ℕ) (s : Slots α) : Slots α :=
  if i < s.count then ⟨moveDown s.slot i (s.count - 1), s.count - 1⟩ else s

def modify (i : ℕ) (f : α → α) (s : Slots α) : Slots α :=
  { s with slot := Function.update s.slot i (f (s.slot i)) }

def find (p : α → Bool) (s : Slots α) : Option ℕ := (List.range s.count).find? fun i => p (s.slot i)

def findLast (p : α → Bool) (s : Slots α) : Option ℕ :=
  (List.range s.count).reverse.find? fun i => p (s.slot i)

end Slots

variable {α β : Type*} {s : Slots α} {i : ℕ} {p : α → Bool} {a : α}

lemma moveDown_succ (slot : ℕ → α) {i n : ℕ} (h : i ≤ n) :
    moveDown slot i (n + 1) = Function.update (moveDown slot i n) n (moveDown slot i n (n + 1)) :=
      by
  have hlen : n + 1 - i = n - i + 1 := by omega
  have hend : i + (n - i) = n := by omega
  rw [moveDown, hlen, List.range'_1_concat, List.foldl_append, hend]
  rfl

lemma moveDown_apply (slot : ℕ → α) {i n : ℕ} (h : i ≤ n) (j : ℕ) :
    moveDown slot i n j = if i ≤ j ∧ j < n then slot (j + 1) else slot j := by
  induction n, h using Nat.le_induction generalizing j with
  | base =>
    rw [moveDown, Nat.sub_self, if_neg fun hj => absurd hj.2 (Nat.not_lt.mpr hj.1)]
    rfl
  | succ n hn ih =>
    rw [moveDown_succ slot hn]
    by_cases hj : j = n
    · subst hj
      rw [Function.update_self, ih, if_neg (fun hj => absurd hj.2 (by omega)),
        if_pos ⟨hn, Nat.lt_succ_self j⟩]
    · rw [Function.update_of_ne hj, ih]
      exact if_congr (by omega) rfl rfl

lemma length_list (s : Slots α) : s.list.length = s.count := by
  rw [Slots.list, List.length_map, List.length_range]

lemma getElem?_list (h : i < s.count) : s.list[i]? = some (s.slot i) := by
  rw [Slots.list, List.getElem?_map, List.getElem?_range h]
  rfl

lemma mem_list : a ∈ s.list ↔ ∃ i < s.count, s.slot i = a := by
  simp [Slots.list]

lemma list_push (a : α) (s : Slots α) : (s.push a).list = s.list ++ [a] := by
  have hold : (List.range s.count).map (s.push a).slot = s.list :=
    List.map_congr_left fun i hi => Function.update_of_ne (List.mem_range.mp hi).ne ..
  change (List.range (s.count + 1)).map _ = _
  rw [List.range_succ, List.map_append, hold, List.map_singleton]
  exact congrArg (s.list ++ [·]) (Function.update_self ..)

/-- The others stay as they are, in their order. -/
lemma list_remove (h : i < s.count) : (s.remove i).list = s.list.eraseIdx i := by
  have hle : i ≤ s.count - 1 := by omega
  rw [Slots.remove, if_pos h]
  apply List.ext_getElem?
  intro j
  rw [List.getElem?_eraseIdx, Slots.list, Slots.list]
  simp only [List.getElem?_map]
  by_cases hj : j < s.count - 1
  · rw [List.getElem?_range hj, List.getElem?_range (by omega), List.getElem?_range (by omega)]
    simp only [Option.map_some, moveDown_apply s.slot hle]
    split_ifs <;> first | rfl | omega
  · rw [List.getElem?_eq_none (by rw [List.length_range]; omega)]
    split_ifs
    · omega
    · rw [List.getElem?_eq_none (by rw [List.length_range]; omega)]
      rfl

lemma map_list_modify (f : α → α) (g : α → β) (hg : ∀ a, g (f a) = g a) (i : ℕ) (s : Slots α) :
    (s.modify i f).list.map g = s.list.map g := by
  rw [Slots.list, Slots.list, List.map_map, List.map_map]
  apply List.map_congr_left
  intro j _
  change g (Function.update s.slot i (f (s.slot i)) j) = g (s.slot j)
  by_cases hj : j = i
  · subst hj
    rw [Function.update_self, hg]
  · rw [Function.update_of_ne hj]

lemma find_isSome : (s.find p).isSome ↔ ∃ a ∈ s.list, p a := by
  rw [Slots.find, List.find?_isSome]
  simp [mem_list]

lemma find_some (h : s.find p = some i) : i < s.count ∧ p (s.slot i) := by
  rw [Slots.find] at h
  exact ⟨List.mem_range.mp (List.mem_of_find?_eq_some h),
    List.find?_some (p := fun i => p (s.slot i)) h⟩

lemma findLast_some (h : s.findLast p = some i) : i < s.count ∧ p (s.slot i) := by
  rw [Slots.findLast] at h
  have hmem := List.mem_of_find?_eq_some h
  rw [List.mem_reverse, List.mem_range] at hmem
  exact ⟨hmem, List.find?_some (p := fun i => p (s.slot i)) h⟩

end RepRapFirmware.Library.CompactedArrays
