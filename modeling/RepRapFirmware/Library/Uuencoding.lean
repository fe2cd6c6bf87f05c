import Mathlib.Tactic
import RepRapFirmware.Library.TextLines

/-! Uuencoding: six bits to a character, and lines that begin with the number of their bytes. -/

namespace RepRapFirmware.Library.Uuencoding

open TextLines

abbrev Byte := BitVec 8

/-- The character of the lower six bits. -/
def char (v : Byte) : Char :=
  if v &&& 0x3F = 0 then '`' else Char.ofNat ((v &&& 0x3F).toNat + 0x20)

/-- The six bits of a character. -/
def bits (c : Char) : Byte := BitVec.ofNat 8 (c.toNat - 0x20) &&& 0x3F

def encodeGroup (a b c : Byte) : List Char :=
  [char (a >>> 2), char (a <<< 4 ||| b >>> 4), char (b <<< 2 ||| c >>> 6), char c]

/-- Three bytes make four characters. The last group is filled up with zeros. -/
def encodeGroups : List Byte → List Char
  | [] => []
  | [a] => encodeGroup a 0 0
  | [a, b] => encodeGroup a b 0
  | a :: b :: c :: l => encodeGroup a b c ++ encodeGroups l

def encodeLine (l : List Byte) : List Char := char (BitVec.ofNat 8 l.length) :: encodeGroups l

def decodeGroup (p q r s : Char) : List Byte :=
  [bits p <<< 2 ||| bits q >>> 4, bits q <<< 4 ||| bits r >>> 2, bits r <<< 6 ||| bits s]

def decodeGroups : List Char → List Byte
  | p :: q :: r :: s :: l => decodeGroup p q r s ++ decodeGroups l
  | _ => []

def decodeLine : List Char → List Byte
  | [] => []
  | n :: l => (decodeGroups l).take (bits n).toNat

def isEol (c : Char) : Bool := c = '\r' || c = '\n'

def uudecode (text : List Char) : List Byte := (completeLines isEol text).flatMap decodeLine

variable {v a b c : Byte} {l : List Byte}

lemma toNat_masked (v : Byte) : (v &&& 0x3F).toNat < 0x40 := by
  rw [BitVec.toNat_and]
  exact lt_of_le_of_lt Nat.and_le_right (by decide)

lemma toNat_char (h : v &&& 0x3F ≠ 0) : (char v).toNat = (v &&& 0x3F).toNat + 0x20 := by
  have hlt := toNat_masked v
  have hvalid : ((v &&& 0x3F).toNat + 0x20).isValidChar := .inl (by omega)
  rw [char, if_neg h, Char.ofNat, dif_pos hvalid]
  rfl

lemma bits_char (v : Byte) : bits (char v) = v &&& 0x3F := by
  by_cases h : v &&& 0x3F = 0
  · rw [h, char, if_pos h]
    decide
  · rw [bits, toNat_char h, Nat.add_sub_cancel, BitVec.ofNat_toNat, BitVec.setWidth_eq,
      BitVec.and_assoc, BitVec.and_self]

lemma isEol_char (v : Byte) : isEol (char v) = false := by
  by_cases h : v &&& 0x3F = 0
  · rw [char, if_pos h]
    decide
  · have hcode := toNat_char h
    rw [isEol, Bool.or_eq_false_iff, decide_eq_false_iff_not, decide_eq_false_iff_not]
    constructor
    · intro heq
      rw [heq] at hcode
      have hr : '\r'.toNat = 13 := rfl
      omega
    · intro heq
      rw [heq] at hcode
      have hn : '\n'.toNat = 10 := rfl
      omega

lemma decodeGroup_encodeGroup (a b c : Byte) :
    decodeGroups (encodeGroup a b c) = [a, b, c] := by
  have hfirst : (a >>> 2 &&& 0x3F) <<< 2 ||| ((a <<< 4 ||| b >>> 4) &&& 0x3F) >>> 4 = a := by
    ext i hi
    interval_cases i <;> simp
  have hsecond : ((a <<< 4 ||| b >>> 4) &&& 0x3F) <<< 4 |||
      ((b <<< 2 ||| c >>> 6) &&& 0x3F) >>> 2 = b := by
    ext i hi
    interval_cases i <;> simp
  have hthird : ((b <<< 2 ||| c >>> 6) &&& 0x3F) <<< 6 ||| (c &&& 0x3F) = c := by
    ext i hi
    interval_cases i <;> simp
  rw [encodeGroup, decodeGroups, decodeGroup, bits_char, bits_char, bits_char, bits_char, hfirst,
    hsecond, hthird]
  rfl

lemma decodeGroups_append (a b c : Byte) (t : List Char) :
    decodeGroups (encodeGroup a b c ++ t) = a :: b :: c :: decodeGroups t := by
  have h := decodeGroup_encodeGroup a b c
  rw [encodeGroup, decodeGroups] at h
  rw [encodeGroup]
  change decodeGroup _ _ _ _ ++ decodeGroups t = _
  rw [← List.append_nil (decodeGroup _ _ _ _), show [] = decodeGroups [] from rfl, h]
  rfl

/-- The bytes come back, with the filling behind them. -/
lemma decodeGroups_encodeGroups (l : List Byte) : l <+: decodeGroups (encodeGroups l) := by
  induction l using encodeGroups.induct with
  | case1 => exact List.nil_prefix
  | case2 a =>
    rw [encodeGroups, decodeGroup_encodeGroup]
    exact ⟨[0, 0], rfl⟩
  | case3 a b =>
    rw [encodeGroups, decodeGroup_encodeGroup]
    exact ⟨[0], rfl⟩
  | case4 a b c l ih =>
    rw [encodeGroups, decodeGroups_append]
    obtain ⟨t, ht⟩ := ih
    exact ⟨t, by rw [← ht]; rfl⟩

lemma decodeLine_encodeLine (h : l.length < 64) : decodeLine (encodeLine l) = l := by
  have hcount : (bits (char (BitVec.ofNat 8 l.length))).toNat = l.length := by
    rw [bits_char, BitVec.toNat_and, BitVec.toNat_ofNat, Nat.mod_eq_of_lt (by omega)]
    change l.length &&& (2 ^ 6 - 1) = l.length
    rw [Nat.and_two_pow_sub_one_eq_mod, Nat.mod_eq_of_lt h]
  obtain ⟨t, ht⟩ := decodeGroups_encodeGroups l
  rw [encodeLine, decodeLine, hcount, ← ht, List.take_left]

lemma free_encodeGroups (l : List Byte) : Free isEol (encodeGroups l) := by
  have hgroup (a b c : Byte) : Free isEol (encodeGroup a b c) := by
    intro x hx
    simp only [encodeGroup, List.mem_cons, List.not_mem_nil, or_false] at hx
    obtain rfl | rfl | rfl | rfl := hx <;> exact isEol_char _
  induction l using encodeGroups.induct with
  | case1 => exact fun x hx => absurd hx List.not_mem_nil
  | case2 a => exact hgroup a 0 0
  | case3 a b => exact hgroup a b 0
  | case4 a b c l ih =>
    intro x hx
    rw [encodeGroups, List.mem_append] at hx
    obtain hx | hx := hx
    · exact hgroup a b c x hx
    · exact ih x hx

lemma free_encodeLine (l : List Byte) : Free isEol (encodeLine l) :=
  List.forall_mem_cons.mpr ⟨isEol_char _, free_encodeGroups l⟩

lemma length_encodeGroups (l : List Byte) :
    (encodeGroups l).length = 4 * ((l.length + 2) / 3) := by
  induction l using encodeGroups.induct with
  | case1 => rfl
  | case2 a => simp [encodeGroups, encodeGroup]
  | case3 a b => simp [encodeGroups, encodeGroup]
  | case4 a b c l ih =>
    rw [encodeGroups, List.length_append, ih]
    simp only [encodeGroup, List.length_cons, List.length_nil]
    omega

/-- Lines of less than 64 bytes decode to their bytes. -/
theorem uudecode_encodeLines {ls : List (List Byte)} (h : ∀ l ∈ ls, l.length < 64) :
    uudecode (ls.flatMap fun l => encodeLine l ++ ['\r', '\n']) = ls.flatten := by
  induction ls with
  | nil => rfl
  | cons l ls ih =>
    have hline : encodeLine l ++ ['\r', '\n'] ++ ls.flatMap (fun l => encodeLine l ++ ['\r', '\n']) =
        encodeLine l ++ '\r' :: ([] ++ '\n' :: ls.flatMap fun l => encodeLine l ++ ['\r', '\n']) := by
      simp
    have hls := ih fun m hm => h m (List.mem_cons_of_mem l hm)
    rw [uudecode] at hls
    rw [uudecode, List.flatMap_cons, hline, completeLines_append (free_encodeLine l) rfl,
      completeLines_append (fun x hx => absurd hx List.not_mem_nil) rfl, List.flatMap_append,
      List.flatMap_append, hls, List.flatten_cons]
    congr 1
    change decodeLine (encodeLine l) ++ [] = l
    rw [List.append_nil, decodeLine_encodeLine (h l List.mem_cons_self)]

end RepRapFirmware.Library.Uuencoding
