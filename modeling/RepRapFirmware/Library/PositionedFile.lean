import Mathlib.Data.List.Basic
import Mathlib.Tactic

/-! A file as an array of items with a position, which is never behind its end. -/

namespace RepRapFirmware.Library

@[ext]
structure PositionedFile (α : Type*) where
  items : List α
  position : ℕ
  position_le : position ≤ items.length

namespace PositionedFile

variable {α : Type*}

def size (f : PositionedFile α) : ℕ := f.items.length

/-- The items at the position are overwritten, and the file grows if there are too few. -/
def write (data : List α) (f : PositionedFile α) : PositionedFile α where
  items := f.items.take f.position ++ data ++ f.items.drop (f.position + data.length)
  position := f.position + data.length
  position_le := by
    have hle := f.position_le
    simp only [List.length_append, List.length_take, List.length_drop]
    omega

/-- A file that is too short grows, and what it gets was on the medium before. -/
def seek (medium : ℕ → α) (position : ℕ) (f : PositionedFile α) : PositionedFile α where
  items := f.items ++ (List.range' f.size (position - f.size)).map medium
  position := position
  position_le := by
    simp only [size, List.length_append, List.length_map, List.length_range']
    omega

def read (n : ℕ) (f : PositionedFile α) : List α × PositionedFile α :=
  let found := (f.items.drop f.position).take n
  (found, {
    items := f.items
    position := f.position + found.length
    position_le := by
      have hle := f.position_le
      simp only [found, List.length_take, List.length_drop]
      omega })

def truncate (f : PositionedFile α) : PositionedFile α where
  items := f.items.take f.position
  position := f.position
  position_le := by
    have hle := f.position_le
    simp only [List.length_take]
    omega

variable {f : PositionedFile α} {data data' : List α} {n : ℕ}

@[simp]
lemma position_write : (f.write data).position = f.position + data.length := rfl

@[simp]
lemma write_nil (f : PositionedFile α) : f.write [] = f := by
  ext1
  · simp [write]
  · rfl

lemma write_write (data data' : List α) (f : PositionedFile α) :
    (f.write data).write data' = f.write (data ++ data') := by
  have hle := f.position_le
  have hfront : (f.items.take f.position ++ data).length = f.position + data.length := by
    rw [List.length_append, List.length_take, min_eq_left hle]
  ext1
  · have htake : (f.write data).items.take (f.position + data.length) =
        f.items.take f.position ++ data := by
      change (f.items.take f.position ++ data ++ f.items.drop _).take _ = _
      rw [List.take_append_of_le_length hfront.ge, List.take_of_length_le hfront.le]
    have hdrop : (f.write data).items.drop (f.position + data.length + data'.length) =
        f.items.drop (f.position + data.length + data'.length) := by
      change (f.items.take f.position ++ data ++ f.items.drop (f.position + data.length)).drop _ = _
      rw [← hfront, List.drop_length_add_append, hfront, List.drop_drop]
    change (f.write data).items.take (f.position + data.length) ++ data' ++
      (f.write data).items.drop (f.position + data.length + data'.length) = _
    rw [htake, hdrop, List.append_assoc _ data, Nat.add_assoc, ← List.length_append]
    rfl
  · change f.position + data.length + data'.length = f.position + (data ++ data').length
    rw [List.length_append, Nat.add_assoc]

lemma size_write (data : List α) (f : PositionedFile α) :
    (f.write data).size = max f.size (f.position + data.length) := by
  have hle := f.position_le
  simp only [size, write, List.length_append, List.length_take, List.length_drop]
  omega

lemma read_zero (f : PositionedFile α) : f.read 0 = ([], f) := rfl

/-- There is nothing to read at the end. -/
lemma read_end (h : f.position = f.size) (n : ℕ) : f.read n = ([], f) := by
  have hdrop : f.items.drop f.position = [] := List.drop_eq_nil_of_le h.ge
  have hfound : (f.items.drop f.position).take n = [] := by rw [hdrop, List.take_nil]
  apply Prod.ext
  · exact hfound
  · ext1
    · rfl
    · change f.position + ((f.items.drop f.position).take n).length = f.position
      rw [hfound, List.length_nil, Nat.add_zero]

end PositionedFile

end RepRapFirmware.Library
