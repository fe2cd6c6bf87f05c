import RepRapFirmware.Shared.StreamDecoding

/-! Which corruptions of a frame its CRC detects. The serial line sends each byte as a start bit,
eight data bits, the least significant first, and a stop bit; the CRC takes the most significant
bit first. -/

namespace RepRapFirmware.Shared.ErrorDetection

open LpcProtocol StreamDecoding

def popcount (e : UInt8) : ℕ := (List.range 8).countP e.toNat.testBit

/-- The number of bits that a list of error masks flips. -/
def weight (errs : List UInt8) : ℕ := (errs.map popcount).sum

def Flips (errs : List UInt8) (k j : ℕ) : Prop := (errs.getD k 0).toNat.testBit j = true

/-- The place of bit `j` of byte `k` in the order in which the CRC takes the bits. -/
def crcPlace (k j : ℕ) : ℕ := 8 * k + 7 - j

/-- The place of bit `j` of byte `k` on the line, where a byte takes ten bits. -/
def linePlace (k j : ℕ) : ℕ := 10 * k + 1 + j

def Burst (place : ℕ → ℕ → ℕ) (errs : List UInt8) : Prop :=
  ∃ first, ∀ k j, Flips errs k j → first ≤ place k j ∧ place k j < first + 8

/-- Error masks for the type, the payload and the CRC of a message's frame. -/
structure Corruption (m : Message) where
  type : UInt8
  payload : List UInt8
  crc : UInt8
  length_eq : payload.length = m.payload.length

variable {m : Message} {a b c e v : UInt8} {errs as es : List UInt8}

/-- The masks of all bytes of the frame, none for the sync and the length byte. -/
def Corruption.masks (c : Corruption m) : List UInt8 := 0 :: c.type :: 0 :: (c.payload ++ [c.crc])

def Corruption.received (c : Corruption m) : List UInt8 :=
  List.zipWith (· ^^^ ·) m.encoded c.masks

/-! ### The CRC is linear -/

lemma and_msb : ∀ n < 256, UInt8.ofNat n &&& 0x80 = 0 ∨ UInt8.ofNat n &&& 0x80 = 0x80 := by
  decide +kernel

lemma shiftCrc_eq (c : UInt8) :
    shiftCrc c = (c <<< 1) ^^^ (if c &&& 0x80 = 0 then 0 else 0x07) := by
  rw [shiftCrc]
  by_cases h : c &&& 0x80 = 0
  · rw [if_neg (not_not_intro h), if_pos h, UInt8.xor_zero]
  · rw [if_pos h, if_neg h]

lemma xor_xor_xor_comm (a b c e : UInt8) : (a ^^^ b) ^^^ (c ^^^ e) = (a ^^^ c) ^^^ (b ^^^ e) := by
  rw [UInt8.xor_assoc, UInt8.xor_assoc, ← UInt8.xor_assoc b, UInt8.xor_comm b c, UInt8.xor_assoc c]

lemma shiftCrc_xor (a b : UInt8) : shiftCrc (a ^^^ b) = shiftCrc a ^^^ shiftCrc b := by
  have hmsb : ∀ x : UInt8, x &&& 0x80 = 0 ∨ x &&& 0x80 = 0x80 := by
    intro x
    simpa using and_msb x.toNat x.toNat_lt
  have hand : (a ^^^ b) &&& 0x80 = (a &&& 0x80) ^^^ (b &&& 0x80) := by
    apply UInt8.toBitVec_inj.mp
    ext i
    simp only [UInt8.toBitVec_and, UInt8.toBitVec_xor, BitVec.getElem_and, BitVec.getElem_xor,
      Bool.and_xor_distrib_right]
  rw [shiftCrc_eq, shiftCrc_eq, shiftCrc_eq, UInt8.shiftLeft_xor, hand, xor_xor_xor_comm (a <<< 1)]
  congr 1
  rcases hmsb a with ha | ha <;> rcases hmsb b with hb | hb <;> rw [ha, hb] <;> rfl

lemma shiftCrcs_xor (n : ℕ) (a b : UInt8) :
    shiftCrc^[n] (a ^^^ b) = shiftCrc^[n] a ^^^ shiftCrc^[n] b := by
  induction n generalizing a b with
  | zero => rfl
  | succ n ih => simp only [Function.iterate_succ_apply, shiftCrc_xor, ih]

lemma updateCrc_xor (a b v e : UInt8) :
    updateCrc (a ^^^ b) (v ^^^ e) = updateCrc a v ^^^ updateCrc b e := by
  rw [updateCrc, xor_xor_xor_comm, shiftCrcs_xor]
  rfl

lemma foldl_xor (a b : UInt8) (h : es.length = as.length) :
    (List.zipWith (· ^^^ ·) as es).foldl updateCrc (a ^^^ b) =
      as.foldl updateCrc a ^^^ es.foldl updateCrc b := by
  induction as generalizing a b es with
  | nil => simp [List.eq_nil_of_length_eq_zero h]
  | cons x as ih =>
    cases es with
    | nil => simp at h
    | cons e es =>
      rw [List.zipWith_cons_cons, List.foldl_cons, List.foldl_cons, List.foldl_cons, updateCrc_xor]
      exact ih _ _ (by simpa using h)

/-! ### What one byte does -/

lemma bytewise {P : UInt8 → Prop} (h : ∀ n < 256, P (UInt8.ofNat n)) (e : UInt8) : P e := by
  simpa using h e.toNat e.toNat_lt

lemma updateCrc_eq_zero : updateCrc c v = 0 ↔ c = v := by
  have hkernel : ∀ e : UInt8, updateCrc 0 e = 0 → e = 0 := bytewise (by decide +kernel)
  have hone : updateCrc c v = updateCrc 0 (c ^^^ v) := by simp [updateCrc]
  rw [hone]
  constructor
  · exact fun h => UInt8.xor_eq_zero_iff.mp (hkernel _ h)
  · rintro rfl
    rw [UInt8.xor_self]
    rfl

lemma popcount_xor (a b : UInt8) : popcount (a ^^^ b) % 2 = (popcount a + popcount b) % 2 := by
  have hlist : ∀ js : List ℕ, js.countP (a ^^^ b).toNat.testBit % 2 =
      (js.countP a.toNat.testBit + js.countP b.toNat.testBit) % 2 := by
    intro js
    induction js with
    | nil => rfl
    | cons j js ih =>
      simp only [List.countP_cons, UInt8.toNat_xor, Nat.testBit_xor] at ih ⊢
      cases a.toNat.testBit j <;> cases b.toNat.testBit j <;> simp <;> omega
  exact hlist _

/-- The polynomial is a multiple of `x + 1`. -/
lemma popcount_updateCrc (c v : UInt8) :
    popcount (updateCrc c v) % 2 = (popcount c + popcount v) % 2 := by
  have hone : updateCrc c v = updateCrc 0 (c ^^^ v) := by simp [updateCrc]
  have hparity : ∀ e : UInt8, popcount (updateCrc 0 e) % 2 = popcount e % 2 :=
    bytewise (by decide +kernel)
  rw [hone, hparity, popcount_xor]

lemma popcount_foldl (errs : List UInt8) (c : UInt8) :
    popcount (errs.foldl updateCrc c) % 2 = (popcount c + weight errs) % 2 := by
  induction errs generalizing c with
  | nil => rfl
  | cons e errs ih =>
    have hstep := popcount_updateCrc c e
    have hweight : weight (e :: errs) = popcount e + weight errs := List.sum_cons
    rw [List.foldl_cons, ih]
    omega

/-! ### Bursts -/

lemma exists_first (h : ∃ k j, Flips errs k j) :
    ∃ k a rest, errs = List.replicate k 0 ++ a :: rest ∧ a ≠ 0 := by
  induction errs with
  | nil =>
    obtain ⟨k, j, hf⟩ := h
    simp [Flips] at hf
  | cons e errs ih =>
    by_cases he : e = 0
    · obtain ⟨k, j, hf⟩ := h
      cases k with
      | zero => simp [Flips, he] at hf
      | succ k =>
        obtain ⟨n, a, rest, heq, ha⟩ := ih ⟨k, j, by simpa [Flips] using hf⟩
        exact ⟨n + 1, a, rest, by rw [heq, he]; rfl, ha⟩
    · exact ⟨0, e, errs, rfl, he⟩

lemma foldl_zeros (n : ℕ) : (List.replicate n (0 : UInt8)).foldl updateCrc 0 = 0 := by
  induction n with
  | zero => rfl
  | succ n ih => exact ih

lemma foldl_eq_zero_of_single (n : ℕ) (h : (List.replicate n (0 : UInt8)).foldl updateCrc c = 0) :
    c = 0 := by
  induction n generalizing c with
  | zero => exact h
  | succ n ih => exact updateCrc_eq_zero.mp (ih h)

lemma flips_append (k : ℕ) (j i : ℕ) :
    Flips (List.replicate k 0 ++ errs) (k + i) j ↔ Flips errs i j := by
  simp [Flips, List.getElem?_append_right]

lemma eq_zeros (h : ∀ k j, ¬ Flips errs k j) : errs = List.replicate errs.length 0 := by
  apply List.eq_replicate_of_mem
  intro e he
  obtain ⟨k, hk, rfl⟩ := List.getElem_of_mem he
  apply UInt8.toNat_inj.mp
  apply Nat.eq_of_testBit_eq
  intro j
  have hj := h k j
  rw [Flips, List.getD_eq_getElem?_getD, List.getElem?_eq_getElem hk, Bool.not_eq_true] at hj
  change errs[k].toNat.testBit j = false at hj
  rw [hj, UInt8.toNat_zero, Nat.zero_testBit]

/-- Where the masks leave the CRC as it was, they fill two neighbouring bytes or reach further. -/
lemma undetected_spreads (h : errs.foldl updateCrc 0 = 0) (hflips : ∃ k j, Flips errs k j) :
    ∃ k a b, a ≠ 0 ∧ (∀ j, Flips errs k j ↔ a.toNat.testBit j = true) ∧
      (∀ j, Flips errs (k + 1) j ↔ b.toNat.testBit j = true) ∧
      (b = updateCrc 0 a ∨ ∃ i j, Flips errs (k + 2 + i) j) := by
  obtain ⟨k, a, rest, rfl, ha⟩ := exists_first hflips
  rw [List.foldl_append, foldl_zeros, List.foldl_cons] at h
  have hfirst : ∀ j, Flips (List.replicate k 0 ++ a :: rest) k j ↔ a.toNat.testBit j = true :=
    fun j => flips_append k j 0
  refine ⟨k, a, rest.getD 0 0, ha, hfirst, fun j => ?_, ?_⟩
  · rw [flips_append]
    simp [Flips]
  · cases rest with
    | nil => exact absurd (updateCrc_eq_zero.mp h).symm ha
    | cons b rest =>
      by_cases hmore : ∃ i j, Flips rest i j
      · obtain ⟨i, j, hf⟩ := hmore
        exact .inr ⟨i, j, by rw [add_assoc, flips_append, add_comm 2]; simpa [Flips] using hf⟩
      · have hzeros : ∀ i j, ¬ Flips rest i j := fun i j hf => hmore ⟨i, j, hf⟩
        rw [List.foldl_cons, eq_zeros hzeros] at h
        exact .inl (updateCrc_eq_zero.mp (foldl_eq_zero_of_single _ h)).symm

lemma testBit_lt {j : ℕ} (h : a.toNat.testBit j = true) : j < 8 := by
  by_contra hj
  rw [Nat.testBit_lt_two_pow (a.toNat_lt.trans_le (Nat.pow_le_pow_right (by omega)
    (by omega)))] at h
  exact absurd h (by decide)

lemma burst_detected {place : ℕ → ℕ → ℕ} (hflips : ∃ k j, Flips errs k j) (hburst
    : Burst place errs)
    (hfar : ∀ k i j j', j < 8 → j' < 8 → place k j + 8 ≤ place (k + 2 + i) j')
    (hnear : ∀ k, ∀ a : UInt8, a ≠ 0 → ∃ j j', a.toNat.testBit j = true ∧
      (updateCrc 0 a).toNat.testBit j' = true ∧ place k j + 8 ≤ place (k + 1) j') :
    errs.foldl updateCrc 0 ≠ 0 := by
  intro h
  obtain ⟨first, hwithin⟩ := hburst
  obtain ⟨k, a, b, ha, hk, hnext, hb | ⟨i, j', hf⟩⟩ := undetected_spreads h hflips
  · obtain ⟨j, j', hj, hj', hle⟩ := hnear k a ha
    have hlow := hwithin k j ((hk j).mpr hj)
    have hhigh := hwithin (k + 1) j' ((hnext j').mpr (hb ▸ hj'))
    omega
  · obtain ⟨j, -, hj, -⟩ := hnear k a ha
    have hlow := hwithin k j ((hk j).mpr hj)
    have hhigh := hwithin _ j' hf
    have hle := hfar k i j j' (testBit_lt hj) (testBit_lt hf)
    omega

lemma crc_near : ∀ n < 256, UInt8.ofNat n ≠ 0 → ∃ j < 8, ∃ j' < 8,
    (UInt8.ofNat n).toNat.testBit j = true ∧
      (updateCrc 0 (UInt8.ofNat n)).toNat.testBit j' = true ∧ j' ≤ j := by
  decide +kernel

lemma line_near : ∀ n < 256, UInt8.ofNat n ≠ 0 → ∃ j < 8, ∃ j' < 8,
    (UInt8.ofNat n).toNat.testBit j = true ∧
      (updateCrc 0 (UInt8.ofNat n)).toNat.testBit j' = true ∧ j ≤ j' + 2 := by
  decide +kernel

lemma burst_crc_detected (hflips : ∃ k j, Flips errs k j) (h : Burst crcPlace errs) :
    errs.foldl updateCrc 0 ≠ 0 := by
  apply burst_detected hflips h
  · intro k i j j' hj hj'
    simp only [crcPlace]
    omega
  · intro k a ha
    obtain ⟨j, hj, j', hj', hbit, hbit', hle⟩ := crc_near a.toNat a.toNat_lt (by simpa using ha)
    rw [UInt8.ofNat_toNat] at hbit hbit'
    exact ⟨j, j', hbit, hbit', by simp only [crcPlace]; omega⟩

lemma burst_line_detected (hflips : ∃ k j, Flips errs k j) (h : Burst linePlace errs) :
    errs.foldl updateCrc 0 ≠ 0 := by
  apply burst_detected hflips h
  · intro k i j j' hj hj'
    simp only [linePlace]
    omega
  · intro k a ha
    obtain ⟨j, hj, j', hj', hbit, hbit', hle⟩ := line_near a.toNat a.toNat_lt (by simpa using ha)
    rw [UInt8.ofNat_toNat] at hbit hbit'
    exact ⟨j, j', hbit, hbit', by simp only [linePlace]; omega⟩

-- Of the data bits alone, eight in the order of the line can hide: bits 3, 4, 6 and 7 of one byte
-- and bits 1 and 2 of the next, with the stop and the start bit between them.
example : [0xD8, 0x06].foldl updateCrc 0 = 0 := by decide +kernel

lemma odd_detected (h : Odd (weight errs)) : errs.foldl updateCrc 0 ≠ 0 := by
  intro hzero
  have hparity := popcount_foldl errs 0
  have hnone : popcount 0 = 0 := rfl
  rw [hzero, hnone] at hparity
  have hodd := Nat.odd_iff.mp h
  omega

/-! ### What the decoder makes of a corrupted frame -/

lemma Corruption.received_eq (c : Corruption m) :
    c.received = syncByte :: (m.type ^^^ c.type) :: UInt8.ofNat m.payload.length ::
      (List.zipWith (· ^^^ ·) m.payload c.payload ++ [crcOf m.type m.payload ^^^ c.crc]) := by
  rw [Corruption.received, m.encoded_eq, Corruption.masks]
  simp [List.zipWith_append, c.length_eq]

/-- The message that the decoder believes to receive. -/
def Corruption.apparent (c : Corruption m) : Message where
  type := m.type ^^^ c.type
  payload := List.zipWith (· ^^^ ·) m.payload c.payload
  fits := by simpa [c.length_eq] using m.fits

lemma Corruption.apparent_length (c : Corruption m) :
    c.apparent.payload.length = m.payload.length := by
  simp [Corruption.apparent, c.length_eq]

lemma Corruption.crcOf_apparent (c : Corruption m) :
    crcOf c.apparent.type c.apparent.payload =
      crcOf m.type m.payload ^^^ (c.type :: 0 :: c.payload).foldl updateCrc 0 := by
  have hheader : updateCrc (updateCrc 0 (m.type ^^^ c.type)) (UInt8.ofNat m.payload.length) =
      updateCrc (updateCrc 0 m.type) (UInt8.ofNat m.payload.length) ^^^
        updateCrc (updateCrc 0 c.type) 0 := by
    rw [← updateCrc_xor, ← updateCrc_xor]
    simp
  rw [crcOf, crcOf, c.apparent_length]
  simp only [Corruption.apparent]
  rw [hheader, foldl_xor _ _ c.length_eq]
  rfl

/-- A corrupted frame can only be accepted where the masks leave the CRC as it was. -/
lemma Corruption.rejected {d : Decoder} (hd : Initial d) (c : Corruption m)
    (h : c.masks.foldl updateCrc 0 ≠ 0) :
    outputs d c.received = List.replicate (m.payload.length + 4) none := by
  obtain ⟨e, he, hr, ho⟩ := feed_header hd.state c.apparent
  have hn := c.apparent.length_toNat
  obtain ⟨hp, hop⟩ := hr.feed_payload c.apparent.payload (by simp [hn])
  rw [List.nil_append] at hp
  have hwrong : crcOf m.type m.payload ^^^ c.crc ≠ (feedAll e c.apparent.payload).crc := by
    intro heq
    have hsame : (feedAll e c.apparent.payload).crc =
        crcOf c.apparent.type c.apparent.payload := by rw [hp.crc, crcOf]
    rw [hsame, c.crcOf_apparent, UInt8.xor_right_inj] at heq
    have hsync : updateCrc 0 0 = 0 := rfl
    apply h
    rw [Corruption.masks, List.foldl_cons, hsync, ← List.cons_append, ← List.cons_append,
      List.foldl_append, ← heq, List.foldl_cons, List.foldl_nil, updateCrc_eq_zero]
  have hlast := hp.feed_crc hn.symm (crcOf m.type m.payload ^^^ c.crc)
  rw [if_neg hwrong] at hlast
  have hsplit : c.received =
      [syncByte, c.apparent.type, UInt8.ofNat c.apparent.payload.length] ++
        (c.apparent.payload ++ [crcOf m.type m.payload ^^^ c.crc]) := by
    rw [c.received_eq, c.apparent_length]
    rfl
  have hnone : outputs (feedAll e c.apparent.payload) [crcOf m.type m.payload ^^^ c.crc] =
      List.replicate 1 none := by
    simp only [outputs, hlast, List.replicate_one]
  rw [hsplit, outputs_append, ho, he, outputs_append, hop, hnone, c.apparent_length,
    List.replicate_append_replicate, List.replicate_append_replicate]
  congr 1
  omega

/-- No corruption that flips an odd number of bits, or bits in a burst of at most eight, is
taken for a frame: neither in the order of the CRC nor in that of the line. -/
theorem corruption_rejected (d : Decoder) (c : Corruption m)
    (h : Odd (weight c.masks) ∨ (∃ k j, Flips c.masks k j) ∧
      (Burst crcPlace c.masks ∨ Burst linePlace c.masks)) :
    outputs (reset d) c.received = List.replicate (m.payload.length + 4) none := by
  apply c.rejected (initial_reset d)
  rcases h with hodd | ⟨hflips, hcrc | hline⟩
  · exact odd_detected hodd
  · exact burst_crc_detected hflips hcrc
  · exact burst_line_detected hflips hline

theorem corruption_rejected_lastBit :
    let m : Message := ⟨MessageType.gpioWrite.code, [3, 20], by decide⟩
    let c : Corruption m := ⟨0, [0, 0], 0x01, rfl⟩
    outputs (reset ⟨⟨0, 0, Vector.replicate 16 0⟩, 0, 0, 0⟩) c.received =
      List.replicate 6 none :=
  corruption_rejected _ (m := ⟨MessageType.gpioWrite.code, [3, 20], by decide⟩)
    ⟨0, [0, 0], 0x01, rfl⟩ (.inl (by decide))

end RepRapFirmware.Shared.ErrorDetection
