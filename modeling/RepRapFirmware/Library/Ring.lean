import Mathlib.Data.List.Basic
import Mathlib.Tactic

/-! A ring of `N` places: what it holds from a place on, and what taking at the front, adding at
the back and copying a block do to that. -/

namespace RepRapFirmware.Library.Ring

variable {α : Type*} {N : ℕ}

def contents (N : ℕ) (b : ℕ → α) (r n : ℕ) : List α := (List.range n).map fun i => b ((r + i) % N)

@[simp] lemma contents_length (b : ℕ → α) (r n : ℕ) : (contents N b r n).length = n := by
  simp [contents]

@[simp] lemma contents_zero (b : ℕ → α) (r : ℕ) : contents N b r 0 = [] := rfl

lemma contents_succ (b : ℕ → α) (r n : ℕ) :
    contents N b r (n + 1) = b (r % N) :: contents N b (r + 1) n := by
  simp only [contents, List.range_succ_eq_map, List.map_cons, List.map_map, Nat.add_zero]
  congr 1
  apply List.map_congr_left
  intro i _
  simp only [Function.comp_apply]
  congr 2
  omega

lemma contents_concat (b : ℕ → α) (r n : ℕ) :
    contents N b r (n + 1) = contents N b r n ++ [b ((r + n) % N)] := by
  simp [contents, List.range_succ]

lemma contents_wrap (b : ℕ → α) (r n : ℕ) : contents N b (r % N) n = contents N b r n := by
  apply List.map_congr_left
  intro i _
  rw [Nat.mod_add_mod]

/-- Only the places in use count. -/
lemma contents_congr {b b' : ℕ → α} {r n : ℕ} (h : ∀ i < n, b ((r + i) % N) = b' ((r + i) % N)) :
    contents N b r n = contents N b' r n := by
  apply List.map_congr_left
  intro i hi
  exact h i (List.mem_range.mp hi)

lemma contents_add (b : ℕ → α) (r m n : ℕ) :
    contents N b r (m + n) = contents N b r m ++ contents N b (r + m) n := by
  induction n with
  | zero => simp
  | succ n ih =>
    rw [← Nat.add_assoc, contents_concat, contents_concat, ih, List.append_assoc, Nat.add_assoc]

/-- A block that does not reach the end of the ring. -/
lemma contents_block (b : ℕ → α) {r n : ℕ} (h : r + n ≤ N) :
    contents N b r n = (List.range n).map fun i => b (r + i) := by
  apply List.map_congr_left
  intro i hi
  have hi : i < n := List.mem_range.mp hi
  rw [Nat.mod_eq_of_lt (by omega)]

/-- Two places of the ring that are less than a round apart are different. -/
lemma place_ne {r i j : ℕ} (hij : i < j) (hj : j < i + N) : (r + i) % N ≠ (r + j) % N := by
  intro h
  obtain ⟨k, hk⟩ : N ∣ (r + j) - (r + i) := (Nat.modEq_iff_dvd' (by omega)).mp h
  have hd : (r + j) - (r + i) = j - i := by omega
  rw [hd] at hk
  cases k with
  | zero => omega
  | succ k =>
    have : N ≤ N * (k + 1) := Nat.le_mul_of_pos_right N (by omega)
    omega

lemma contents_push (b : ℕ → α) (c : α) {r n : ℕ} (h : n < N) :
    contents N (Function.update b ((r + n) % N) c) r (n + 1) = contents N b r n ++ [c] := by
  rw [contents_concat, Function.update_self]
  congr 1
  apply contents_congr
  intro i hi
  rw [Function.update_of_ne (place_ne hi (by omega))]

end RepRapFirmware.Library.Ring
