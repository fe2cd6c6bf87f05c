import Mathlib.Data.BitVec
import Mathlib.Tactic

/-! A shift register that is fed bit by bit, with the feedback at its low end. -/

namespace RepRapFirmware.Library.ShiftRegister

variable {w : ℕ} (poly : BitVec w)

def shift (r : BitVec w) : BitVec w := if r.getLsbD 0 then r >>> 1 ^^^ poly else r >>> 1

def feed (r : BitVec w) (bit : Bool) : BitVec w := shift poly (r ^^^ (BitVec.ofBool bit).setWidth w)

def feedAll (r : BitVec w) (bits : List Bool) : BitVec w := bits.foldl (feed poly) r

/-- The low bits, the lowest one first. -/
def lowBits (n : ℕ) (x : BitVec w) : List Bool := (List.range n).map x.getLsbD

def low (n : ℕ) (x : BitVec w) : BitVec w := x &&& BitVec.ofNat w (2 ^ n - 1)

variable {poly} {r x y : BitVec w} {m n i : ℕ}

/-! ### The low bits of a word -/

lemma getLsbD_low (n : ℕ) (x : BitVec w) (i : ℕ) :
    (low n x).getLsbD i = (x.getLsbD i && decide (i < n)) := by
  rw [low, BitVec.getLsbD_and, BitVec.getLsbD_ofNat, Nat.testBit_two_pow_sub_one]
  rcases Nat.lt_or_ge i w with hi | hi
  · rw [decide_eq_true hi, Bool.true_and]
  · rw [BitVec.getLsbD_of_ge x i hi, Bool.false_and, Bool.false_and]

lemma low_xor (n : ℕ) (x y : BitVec w) : low n (x ^^^ y) = low n x ^^^ low n y := by
  apply BitVec.eq_of_getLsbD_eq
  intro i _
  rw [BitVec.getLsbD_xor, getLsbD_low, getLsbD_low, getLsbD_low, BitVec.getLsbD_xor,
    Bool.and_xor_distrib_right]

lemma low_low (n : ℕ) (x : BitVec w) : low n (low n x) = low n x := by
  apply BitVec.eq_of_getLsbD_eq
  intro i _
  rw [getLsbD_low, getLsbD_low, Bool.and_assoc, Bool.and_self]

lemma low_ushiftRight (n : ℕ) (x : BitVec w) : low n x >>> n = 0#w := by
  apply BitVec.eq_of_getLsbD_eq
  intro i _
  rw [BitVec.getLsbD_ushiftRight, getLsbD_low, decide_eq_false (by omega), Bool.and_false,
    BitVec.getLsbD_zero]

lemma low_eq_self (hx : ∀ i, n ≤ i → x.getLsbD i = false) : low n x = x := by
  apply BitVec.eq_of_getLsbD_eq
  intro i _
  rw [getLsbD_low]
  rcases Nat.lt_or_ge i n with hi | hi
  · rw [decide_eq_true hi, Bool.and_true]
  · rw [hx i hi, Bool.false_and]

lemma lowBits_congr {v : ℕ} {y : BitVec v} (h : ∀ i < n, x.getLsbD i = y.getLsbD i) :
    lowBits n x = lowBits n y :=
  List.map_congr_left fun i hi => h i (List.mem_range.mp hi)

lemma lowBits_add (m n : ℕ) (x : BitVec w) :
    lowBits (m + n) x = lowBits m x ++ lowBits n (x >>> m) := by
  rw [lowBits, List.range_add, List.map_append, List.map_map]
  congr 1
  apply List.map_congr_left
  intro i _
  rw [Function.comp_apply, BitVec.getLsbD_ushiftRight]

lemma lowBits_append {v : ℕ} (x : BitVec w) (y : BitVec v) (m : ℕ) :
    lowBits (v + m) (x ++ y) = lowBits v y ++ lowBits m x := by
  rw [lowBits_add]
  congr 1
  · exact lowBits_congr fun i hi => by rw [BitVec.getLsbD_append, if_pos hi]
  · apply lowBits_congr
    intro i _
    have hbeyond : ¬ v + i < v := by omega
    rw [BitVec.getLsbD_ushiftRight, BitVec.getLsbD_append, if_neg hbeyond,
      Nat.add_sub_cancel_left]

/-! ### Shifts are linear -/

lemma shift_xor (poly x y : BitVec w) : shift poly (x ^^^ y) = shift poly x ^^^ shift poly y := by
  apply BitVec.eq_of_getLsbD_eq
  intro i _
  simp only [shift, BitVec.getLsbD_xor, BitVec.ushiftRight_xor_distrib]
  cases x.getLsbD 0 <;> cases y.getLsbD 0 <;>
    simp only [Bool.xor_false, Bool.xor_true, Bool.not_false, Bool.not_true, if_true,
      Bool.false_eq_true, if_false, BitVec.getLsbD_xor] <;>
    cases (x >>> 1).getLsbD i <;> cases (y >>> 1).getLsbD i <;> cases poly.getLsbD i <;> rfl

lemma shifts_xor (poly : BitVec w) (n : ℕ) (x y : BitVec w) :
    (shift poly)^[n] (x ^^^ y) = (shift poly)^[n] x ^^^ (shift poly)^[n] y := by
  induction n generalizing x y with
  | zero => rfl
  | succ n ih => rw [Function.iterate_succ_apply, shift_xor, ih]; rfl

/-- Zeros at the low end are shifted out. -/
lemma shifts_of_low_zero (hx : ∀ i < n, x.getLsbD i = false) :
    (shift poly)^[n] x = x >>> n := by
  induction n generalizing x with
  | zero => rw [Function.iterate_zero_apply, BitVec.ushiftRight_zero]
  | succ n ih =>
    have hshift : shift poly x = x >>> 1 := by
      rw [shift, hx 0 (Nat.succ_pos n), if_neg Bool.false_ne_true]
    have hlater : ∀ i < n, (x >>> 1).getLsbD i = false := by
      intro i hi
      rw [BitVec.getLsbD_ushiftRight]
      exact hx (1 + i) (by omega)
    rw [Function.iterate_succ_apply, hshift, ih hlater, ← BitVec.shiftRight_add, Nat.add_comm]

/-- What the low bits become, and the rest moved down. -/
lemma shifts_split (poly : BitVec w) (n : ℕ) (x : BitVec w) :
    (shift poly)^[n] x = (shift poly)^[n] (low n x) ^^^ x >>> n := by
  have hhigh : ∀ i < n, (low n x ^^^ x).getLsbD i = false := by
    intro i hi
    rw [BitVec.getLsbD_xor, getLsbD_low, decide_eq_true hi, Bool.and_true, Bool.xor_self]
  have hsplit : x = low n x ^^^ (low n x ^^^ x) := by
    rw [← BitVec.xor_assoc, BitVec.xor_self, BitVec.zero_xor]
  calc (shift poly)^[n] x = (shift poly)^[n] (low n x ^^^ (low n x ^^^ x)) := by rw [← hsplit]
    _ = (shift poly)^[n] (low n x) ^^^ (low n x ^^^ x) >>> n := by
        rw [shifts_xor, shifts_of_low_zero hhigh]
    _ = (shift poly)^[n] (low n x) ^^^ x >>> n := by
        rw [BitVec.ushiftRight_xor_distrib, low_ushiftRight, BitVec.zero_xor]

/-- One step of slicing: the low bits go through all shifts, the rest through the later ones. -/
lemma shifts_add (poly : BitVec w) (m n : ℕ) (x : BitVec w) :
    (shift poly)^[m + n] x =
      (shift poly)^[m + n] (low n x) ^^^ (shift poly)^[m] (x >>> n) := by
  rw [Function.iterate_add_apply, shifts_split poly n x, shifts_xor, Function.iterate_add_apply]

/-! ### Feeding several bits at once -/

lemma bit_eq_low (x : BitVec w) : (BitVec.ofBool (x.getLsbD 0)).setWidth w = low 1 x := by
  apply BitVec.eq_of_getLsbD_eq
  intro i hi
  rw [BitVec.getLsbD_setWidth, decide_eq_true hi, Bool.true_and, BitVec.getLsbD_ofBool, getLsbD_low]
  cases i with
  | zero => rw [decide_eq_true Nat.zero_lt_one, Bool.and_true]; rfl
  | succ i =>
    have hbeyond : ¬ i + 1 < 1 := by omega
    rw [decide_eq_false hbeyond, Bool.and_false]
    rfl

lemma shift_feed (poly r x : BitVec w) :
    shift poly (r ^^^ x) = feed poly r (x.getLsbD 0) ^^^ x >>> 1 := by
  have hsplit := shifts_split poly 1 x
  simp only [Function.iterate_one] at hsplit
  rw [feed, bit_eq_low, shift_xor, hsplit, shift_xor, BitVec.xor_assoc]

lemma low_succ_ushiftRight (n : ℕ) (x : BitVec w) : low (n + 1) x >>> 1 = low n (x >>> 1) := by
  apply BitVec.eq_of_getLsbD_eq
  intro i _
  rw [BitVec.getLsbD_ushiftRight, getLsbD_low, getLsbD_low, BitVec.getLsbD_ushiftRight]
  congr 2
  exact propext (by omega)

/-- Bits that are fed one by one may as well be added to the register at once. -/
theorem feedAll_lowBits (poly r : BitVec w) (n : ℕ) (x : BitVec w) :
    feedAll poly r (lowBits n x) = (shift poly)^[n] (r ^^^ low n x) := by
  induction n generalizing r x with
  | zero =>
    have hzero : low 0 x = 0#w := BitVec.and_zero
    rw [hzero, BitVec.xor_zero]
    rfl
  | succ n ih =>
    have hfirst : (low (n + 1) x).getLsbD 0 = x.getLsbD 0 := by
      rw [getLsbD_low, decide_eq_true (Nat.succ_pos n), Bool.and_true]
    have hbits : lowBits (n + 1) x = x.getLsbD 0 :: lowBits n (x >>> 1) := by
      rw [Nat.add_comm, lowBits_add]
      rfl
    rw [hbits, feedAll, List.foldl_cons, ← feedAll, ih, Function.iterate_succ_apply, shift_feed,
      hfirst, low_succ_ushiftRight]

lemma feedAll_append (poly r : BitVec w) (bits bits' : List Bool) :
    feedAll poly r (bits ++ bits') = feedAll poly (feedAll poly r bits) bits' :=
  List.foldl_append

end RepRapFirmware.Library.ShiftRegister
