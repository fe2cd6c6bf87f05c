import Mathlib

/-! A float is what its bits say: there is one NaN, and unpacking loses nothing else. -/

namespace RepRapFirmware.Library.FloatBits

open Float.Model Float.Model.UnpackedFloat

variable {b : BitVec Format.binary32.numBits} {m : BitVec 23} {e : BitVec 8} {s : Sign}

lemma toBitVec_ofBitVec (v : BitVec 1) : (Sign.ofBitVec v).toBitVec = v := by
  revert v
  decide

/-- The parts of a float make up its bits. -/
lemma parts_eq (b : BitVec Format.binary32.numBits) :
    packComponents Format.binary32 (Sign.ofBitVec (unpackSign b)) (unpackExponent b)
      (unpackMantissa b) = b := by
  apply BitVec.eq_of_getLsbD_eq
  intro i hi
  rw [packComponents, toBitVec_ofBitVec, BitVec.getLsbD_append, BitVec.getLsbD_append]
  change i < 32 at hi
  interval_cases i <;> simp [unpackSign, unpackExponent, unpackMantissa]

lemma toNat_normal (m : BitVec 23) : (1#1 ++ m).toNat = 2 ^ 23 + m.toNat := by
  rw [BitVec.toNat_append, ← Nat.shiftLeft_add_eq_or_of_lt m.isLt]
  rfl

lemma log2_normal (m : BitVec 23) : (1#1 ++ m).toNat.log2 = 23 := by
  have hm := m.isLt
  rw [toNat_normal, Nat.log2_eq_iff (by omega)]
  omega

lemma log2_subnormal (hm : m ≠ 0) : m.toNat.log2 < 23 := by
  have hpos : m.toNat ≠ 0 := fun h => hm (BitVec.eq_of_toNat_eq h)
  rw [Nat.log2_lt hpos]
  exact m.isLt

lemma pack_normal (he : e ≠ -1#8) (hpos : 0 < (1#1 ++ m).toNat) :
    UnpackedFloat.pack Format.binary32 (.finite s (1#1 ++ m).toNat
        (e.toNat - (Format.binary32.exponentBias + Format.binary32.mantissaBitsWithoutImplicit))
        hpos) =
      packComponents Format.binary32 s e m := by
  have hbiased : ((e.toNat : ℤ) - (Format.binary32.exponentBias +
      Format.binary32.mantissaBitsWithoutImplicit) + Format.binary32.exponentBias +
      Format.binary32.mantissaBitsWithoutImplicit).toNat = e.toNat := by omega
  have hlt : ¬ 2 ^ Format.binary32.exponentBits ≤ e.toNat + 1 := by
    intro hle
    apply he
    apply BitVec.eq_of_toNat_eq
    have hlt := e.isLt
    change 2 ^ 8 ≤ e.toNat + 1 at hle
    change e.toNat = 255
    omega
  have hbits : (1#1 ++ m).toNat.log2 + 1 = Format.binary32.mantissaBits := by
    rw [log2_normal]
    rfl
  have hmantissa : BitVec.ofNat 23 (1#1 ++ m).toNat = m := by
    apply BitVec.eq_of_toNat_eq
    rw [BitVec.toNat_ofNat, toNat_normal, Nat.add_mod_left, Nat.mod_eq_of_lt m.isLt]
  have hexponent : BitVec.ofNat 8 e.toNat = e := by
    rw [BitVec.ofNat_toNat, BitVec.setWidth_eq]
  rw [UnpackedFloat.pack]
  dsimp only
  rw [hbiased, if_neg hlt, if_pos hbits]
  exact congrArg₂ _ hexponent hmantissa

lemma pack_subnormal (hm : m ≠ 0) (hpos : 0 < m.toNat) :
    UnpackedFloat.pack Format.binary32 (.finite s m.toNat
        (((0#8).toNat : ℤ) - (Format.binary32.exponentBias +
          Format.binary32.mantissaBitsWithoutImplicit) + 1) hpos) =
      packComponents Format.binary32 s 0 m := by
  have hbits : ¬ m.toNat.log2 + 1 = Format.binary32.mantissaBits := by
    have hlt := log2_subnormal hm
    change ¬ m.toNat.log2 + 1 = 24
    omega
  have hmantissa : BitVec.ofNat 23 m.toNat = m := by
    rw [BitVec.ofNat_toNat, BitVec.setWidth_eq]
  rw [UnpackedFloat.pack]
  dsimp only
  rw [if_neg (by decide), if_neg hbits]
  exact congrArg _ hmantissa

theorem pack_unpack (h : Format.binary32.Valid b) :
    UnpackedFloat.pack Format.binary32 (UnpackedFloat.unpack Format.binary32 b) = b := by
  have hparts := parts_eq b
  rw [UnpackedFloat.unpack]
  dsimp only
  split_ifs with hexponent hmantissa hzero hmantissa
  · rwa [hexponent, hmantissa] at hparts
  · exact (h.eq_packedNaN hexponent hmantissa).symm
  · rwa [hzero, hmantissa] at hparts
  · rw [hzero] at hparts ⊢
    rw [pack_subnormal hmantissa]
    exact hparts
  · rw [pack_normal hexponent]
    exact hparts

theorem ofBits_toBits (x : Float32) : Float32.ofBits x.toBits = x := by
  obtain ⟨bits, hvalid⟩ := x
  rw [Float32.toBits, Float32.ofBits, Float32.Model.ofBits, Float32.Model.pack]
  congr 2
  exact congrArg UInt32.ofBitVec (pack_unpack hvalid)

end RepRapFirmware.Library.FloatBits
