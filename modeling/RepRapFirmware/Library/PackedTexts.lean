import Mathlib.Data.List.Basic
import Mathlib.Tactic

/-! Texts that lie one after another in a buffer, each with a terminator. -/

namespace RepRapFirmware.Library.PackedTexts

variable {α : Type*} (terminator : α)

def packed (texts : List (List α)) : List α := texts.flatMap (· ++ [terminator])

/-- Where the text with this number starts. -/
def offset (texts : List (List α)) (n : ℕ) : ℕ := (packed terminator (texts.take n)).length

/-- The text at a place of a buffer. -/
def textAt [DecidableEq α] (buffer : List α) (place : ℕ) : List α :=
    (buffer.drop place).takeWhile (· ≠ terminator)

variable {terminator} {texts : List (List α)} {n : ℕ} {text : List α}

lemma packed_take_succ (h : texts[n]? = some text) :
    packed terminator (texts.take (n + 1)) =
      packed terminator (texts.take n) ++ text ++ [terminator] := by
  obtain ⟨hn, rfl⟩ := List.getElem?_eq_some_iff.mp h
  rw [packed, List.take_succ_eq_append_getElem hn, List.flatMap_append, List.flatMap_singleton,
    ← List.append_assoc]
  rfl

lemma offset_succ (h : texts[n]? = some text) :
    offset terminator texts (n + 1) = offset terminator texts n + text.length + 1 := by
  rw [offset, packed_take_succ h, List.length_append, List.length_append, List.length_singleton]
  rfl

lemma packed_split (h : texts[n]? = some text) : packed terminator texts =
    packed terminator (texts.take n) ++ (text ++ terminator
      :: packed terminator (texts.drop (n + 1))) := by
  obtain ⟨hn, rfl⟩ := List.getElem?_eq_some_iff.mp h
  have hsplit := congrArg (packed terminator) (List.take_append_drop n texts)
  rw [packed, List.flatMap_append, List.drop_eq_getElem_cons hn, List.flatMap_cons] at hsplit
  rw [← hsplit]
  simp [packed]

lemma offset_le (h : texts[n]? = some text) :
    offset terminator texts n + text.length + 1 ≤ (packed terminator texts).length := by
  have hsplit : (packed terminator texts).length = _ := congrArg List.length (packed_split h)
  rw [List.length_append, List.length_append, List.length_cons] at hsplit
  rw [offset]
  omega

lemma drop_offset (h : texts[n]? = some text) : (packed terminator texts).drop
    (offset terminator texts n) = text ++ terminator :: packed terminator (texts.drop (n + 1)) := by
  rw [packed_split h, offset, List.drop_left]

lemma textAt_offset [DecidableEq α] (h : texts[n]? = some text) (hno : terminator ∉ text) :
    textAt terminator (packed terminator texts) (offset terminator texts n) = text := by
  rw [textAt, drop_offset h, List.takeWhile_append_of_pos]
  · simp
  · intro a ha
    simp only [ne_eq, decide_not, Bool.not_eq_true', decide_eq_false_iff_not]
    rintro rfl
    exact hno ha

/-- A text with terminators in it is found by the place at which the next text starts. -/
lemma take_drop_offset (h : texts[n]? = some text) : ((packed terminator texts).drop
    (offset terminator texts n)).take
      (offset terminator texts (n + 1) - offset terminator texts n - 1) = text := by
  have hlen : offset terminator texts (n + 1) - offset terminator texts n - 1 = text.length := by
    rw [offset_succ h]
    omega
  rw [hlen, drop_offset h, List.take_left]

end RepRapFirmware.Library.PackedTexts
