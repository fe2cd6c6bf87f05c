import Mathlib.Data.List.GetD
import Mathlib.Tactic

/-! Memory that is addressed by offsets: storing a list, and the contents between two offsets. -/

namespace RepRapFirmware.Library.Buffers

variable {β : Type*} {m : ℕ → β} {a b c start i : ℕ} {l : List β}

/-- Storing a list from an offset on. -/
def store (m : ℕ → β) (start : ℕ) (l : List β) : ℕ → β :=
  fun i => if start ≤ i then l.getD (i - start) (m i) else m i

/-- The contents from an offset up to another one. -/
def slice (m : ℕ → β) (a b : ℕ) : List β := (List.range' a (b - a)).map m

lemma store_of_lt (h : i < start) : store m start l i = m i := by
  rw [store, if_neg (by omega)]

lemma store_of_le (h : start + l.length ≤ i) : store m start l i = m i := by
  rw [store, if_pos (by omega), List.getD_eq_getElem?_getD, List.getElem?_eq_none (by omega)]
  rfl

lemma store_add (m : ℕ → β) (start : ℕ) (h : i < l.length) : store m start l (start + i) = l[i] :=
    by
  rw [store, if_pos (Nat.le_add_right start i), Nat.add_sub_cancel_left,
    List.getD_eq_getElem?_getD, List.getElem?_eq_getElem h, Option.getD_some]

@[simp] lemma length_slice (m : ℕ → β) (a b : ℕ) : (slice m a b).length = b - a := by
  rw [slice, List.length_map, List.length_range']

lemma slice_of_le (h : b ≤ a) : slice m a b = [] := by
  rw [slice, Nat.sub_eq_zero_of_le h]
  rfl

lemma slice_append (hab : a ≤ b) (hbc : b ≤ c) : slice m a b ++ slice m b c = slice m a c := by
  have hlen : c - a = (b - a) + (c - b) := by omega
  have hstart : b = a + 1 * (b - a) := by omega
  rw [slice, slice, slice, hlen, List.range'_append_1.symm, List.map_append]
  rw [Nat.add_sub_cancel' hab]

lemma slice_store_of_le (h : b ≤ start) : slice (store m start l) a b = slice m a b := by
  apply List.map_congr_left
  intro i hi
  rw [List.mem_range'_1] at hi
  exact store_of_lt (by omega)

lemma slice_store (m : ℕ → β) (start : ℕ) (l : List β) :
    slice (store m start l) start (start + l.length) = l := by
  apply List.ext_getElem
  · simp
  · intro i hi hi'
    simp only [slice, List.getElem_map, List.getElem_range', Nat.one_mul]
    exact store_add m start hi'

lemma drop_slice (h : a + c ≤ b) : (slice m a b).drop c = slice m (a + c) b := by
  rw [← slice_append (Nat.le_add_right a c) h]
  exact List.drop_left' (by simp)

/-- From anywhere up to the end of what is stored. -/
lemma slice_store_through (m : ℕ → β) (a start : ℕ) (l : List β) :
    slice (store m start l) a (start + l.length) = slice m a start ++ l.drop (a - start) := by
  obtain h | h := Nat.le_total a start
  · rw [← slice_append h (Nat.le_add_right start l.length), slice_store_of_le le_rfl, slice_store,
      Nat.sub_eq_zero_of_le h, List.drop_zero]
  · rw [slice_of_le h, List.nil_append]
    obtain hin | hout := Nat.le_total a (start + l.length)
    · have hsum : start + (a - start) = a := Nat.add_sub_cancel' h
      calc slice (store m start l) a (start + l.length)
          = (slice (store m start l) start (start + l.length)).drop (a - start) := by
            rw [drop_slice (by omega), hsum]
        _ = l.drop (a - start) := by rw [slice_store]
    · rw [slice_of_le hout, List.drop_of_length_le (by omega)]

lemma store_store (m : ℕ → β) (start : ℕ) (l l' : List β) :
    store (store m start l) (start + l.length) l' = store m start (l ++ l') := by
  funext i
  obtain h | h := Nat.lt_or_ge i (start + l.length)
  · rw [store_of_lt h]
    obtain h' | h' := Nat.lt_or_ge i start
    · rw [store_of_lt h', store_of_lt h']
    · obtain ⟨j, rfl⟩ := Nat.exists_eq_add_of_le h'
      rw [store_add m start (by omega), store_add m start (by rw [List.length_append]; omega),
        List.getElem_append_left (by omega)]
  · obtain ⟨j, rfl⟩ := Nat.exists_eq_add_of_le h
    obtain hj | hj := Nat.lt_or_ge j l'.length
    · rw [store_add _ _ hj, Nat.add_assoc,
        store_add m start (by rw [List.length_append]; omega), List.getElem_append_right (by omega)]
      simp
    · rw [store_of_le (by omega), store_of_le (by omega),
        store_of_le (by rw [List.length_append]; omega)]

end RepRapFirmware.Library.Buffers
