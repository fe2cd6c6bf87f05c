import RepRapFirmware.Library.Runs
import RepRapFirmware.Shared.LpcProtocol

/-! What the decoder makes of a byte stream: encoded frames come out as they went in, and
nothing else comes out. -/

namespace RepRapFirmware.Shared.StreamDecoding

open Library.Runs LpcProtocol

/-- The decoder after a stream of bytes. -/
def feedAll (d : Decoder) (bs : List UInt8) : Decoder := run (fun d b => (feed d b).1) d bs

/-- What `feed` returned for each byte of a stream. -/
def outputs : Decoder → List UInt8 → List (Option Frame)
  | _, [] => []
  | d, b :: bs => (feed d b).2 :: outputs (feed d b).1 bs

@[simp] lemma feedAll_nil (d : Decoder) : feedAll d [] = d := rfl

@[simp] lemma feedAll_cons (d : Decoder) (b : UInt8) (bs : List UInt8) :
    feedAll d (b :: bs) = feedAll (feed d b).1 bs := rfl

lemma feedAll_append (d : Decoder) (as bs : List UInt8) :
    feedAll d (as ++ bs) = feedAll (feedAll d as) bs := run_append _ d as bs

lemma outputs_append (d : Decoder) (as bs : List UInt8) :
    outputs d (as ++ bs) = outputs d as ++ outputs (feedAll d as) bs := by
  induction as generalizing d with
  | nil => rfl
  | cons a as ih => simp [outputs, ih]

structure Initial (d : Decoder) : Prop where
  state : d.state = 0
  index : d.index = 0
  crc : d.crc = 0
  length : d.frame.length = 0

lemma initial_reset (d : Decoder) : Initial (reset d) := ⟨rfl, rfl, rfl, rfl⟩

/-- The decoder is inside the payload of a frame and holds what it has received of it. -/
structure Reading (d : Decoder) (t n : UInt8) (received : List UInt8) : Prop where
  state : d.state = 3
  type : d.frame.type = t
  length : d.frame.length = n
  bound : n.toNat ≤ maxPayload
  index : d.index.toNat = received.length
  within : received.length ≤ n.toNat
  payload : d.frame.payload.toList.take received.length = received
  crc : d.crc = received.foldl updateCrc (updateCrc (updateCrc 0 t) n)

section Steps

variable {d : Decoder} {t n : UInt8} {received : List UInt8}

lemma feed_idle (h : d.state = 0) {b : UInt8} (hb : b ≠ syncByte) : feed d b = (d, none) := by
  simp [feed, h, hb]

lemma feed_sync (h : d.state = 0) : feed d syncByte = ({ d with state := 1 }, none) := by
  simp [feed, h]

lemma feed_type (h : d.state = 1) (b : UInt8) :
    feed d b =
      ({ d with frame := { d.frame with type := b }, crc := updateCrc 0 b, state := 2 }, none) := by
  simp [feed, h]

lemma feed_long (h : d.state = 2) {b : UInt8} (hb : maxPayload < b.toNat) :
    feed d b = (reset d, none) := by
  simp [feed, h, hb]

lemma feed_length (h : d.state = 2) (ht : d.frame.type = t) (hc : d.crc = updateCrc 0 t)
    (hl : n.toNat ≤ maxPayload) :
    (feed d n).2 = none ∧ Reading (feed d n).1 t n [] := by
  have hf : feed d n =
      ({ d with frame := { d.frame with length := n }, crc := updateCrc d.crc n,
                index := 0, state := 3 }, none) := by
    simp [feed, h, Nat.not_lt.mpr hl]
  rw [hf]
  exact ⟨rfl, rfl, ht, rfl, hl, rfl, by simp, by simp, by simp [hc]⟩

lemma Reading.index_lt (h : Reading d t n received) :
    d.index < d.frame.length ↔ received.length < n.toNat := by
  rw [UInt8.lt_iff_toNat_lt, h.index, h.length]

lemma Reading.feed_byte (h : Reading d t n received)
    (hlt : received.length < n.toNat) (b : UInt8) :
    (feed d b).2 = none ∧ Reading (feed d b).1 t n (received ++ [b]) := by
  have hf : feed d b =
      ({ d with
          frame := { d.frame with payload := d.frame.payload.setIfInBounds d.index.toNat b }
          index := d.index + 1
          crc := updateCrc d.crc b }, none) := by
    simp [feed, h.state, h.index_lt.mpr hlt]
  have hbound := h.bound
  have hroom : received.length < 16 := by simp only [maxPayload] at hbound; omega
  have hindex : (d.index + 1).toNat = received.length + 1 := by
    rw [UInt8.toNat_add, h.index]
    simp only [UInt8.toNat_one]
    omega
  have hpayload : (d.frame.payload.setIfInBounds d.index.toNat b).toList.take
      (received ++ [b]).length = received ++ [b] := by
    have htake := h.payload
    rw [h.index, Vector.toList_setIfInBounds, List.length_append, List.length_singleton,
      List.take_add_one, List.take_set_of_le (le_refl _), htake]
    simp [hroom]
  rw [hf]
  exact ⟨rfl, h.state, h.type, h.length, h.bound, by simpa using hindex, by simpa using hlt,
    hpayload, by simp [h.crc]⟩

lemma Reading.feed_crc (h : Reading d t n received)
    (heq : received.length = n.toNat) (b : UInt8) :
    feed d b = (reset d, if b = d.crc then some d.frame else none) := by
  have hi : ¬ d.index < d.frame.length := by rw [h.index_lt]; omega
  simp [feed, h.state, hi]

lemma Reading.data (h : Reading d t n received)
    (heq : received.length = n.toNat) : d.frame.data = received := by
  rw [Frame.data, h.length, ← heq, h.payload]

end Steps

/-- What a sender hands to the protocol: a type byte and a payload that fits a frame. -/
structure Message where
  type : UInt8
  payload : List UInt8
  fits : payload.length ≤ maxPayload

def Message.encoded (m : Message) : List UInt8 := encode m.type m.payload

def Carries (f : Frame) (m : Message) : Prop :=
  f.type = m.type ∧ f.length.toNat = m.payload.length ∧ f.data = m.payload

/-- Bytes between frames, in which no frame can start. -/
structure Filler where
  bytes : List UInt8
  clean : syncByte ∉ bytes

lemma Message.length_toNat (m : Message) :
    (UInt8.ofNat m.payload.length).toNat = m.payload.length := by
  have hf := m.fits
  simp only [maxPayload] at hf
  exact UInt8.toNat_ofNat_of_lt (by simp only [UInt8.size]; omega)

lemma Message.encoded_eq (m : Message) :
    m.encoded = syncByte :: m.type :: UInt8.ofNat m.payload.length ::
      (m.payload ++ [crcOf m.type m.payload]) := by
  rw [encoded, encode, if_neg (Nat.not_lt.mpr m.fits)]

section RoundTrip

variable {d : Decoder}

lemma feed_filler (h : d.state = 0) (bs : List UInt8) (hs : syncByte ∉ bs) :
    feedAll d bs = d ∧ outputs d bs = List.replicate bs.length none := by
  induction bs with
  | nil => exact ⟨rfl, rfl⟩
  | cons b bs ih =>
    obtain ⟨hb, hbs⟩ : syncByte ≠ b ∧ syncByte ∉ bs := by simpa using hs
    have hf := feed_idle h (Ne.symm hb)
    obtain ⟨hd, ho⟩ := ih hbs
    exact ⟨by rw [feedAll_cons, hf, hd],
      by simp only [outputs, hf, ho, List.length_cons, List.replicate_succ]⟩

lemma Reading.feed_payload {t n : UInt8} {received : List UInt8} (h : Reading d t n received)
    (bs : List UInt8) (hn : received.length + bs.length ≤ n.toNat) :
    Reading (feedAll d bs) t n (received ++ bs) ∧
      outputs d bs = List.replicate bs.length none := by
  induction bs generalizing d received with
  | nil => exact ⟨by simpa using h, rfl⟩
  | cons b bs ih =>
    simp only [List.length_cons] at hn
    obtain ⟨hb, hr⟩ := h.feed_byte (by omega) b
    obtain ⟨hd, ho⟩ := ih hr (by simp only [List.length_append, List.length_singleton]; omega)
    refine ⟨by simpa [List.append_assoc] using hd, ?_⟩
    simp only [outputs, hb, ho, List.length_cons, List.replicate_succ]

lemma feed_header (h : d.state = 0) (m : Message) :
    ∃ e, feedAll d [syncByte, m.type, UInt8.ofNat m.payload.length] = e ∧
      Reading e m.type (UInt8.ofNat m.payload.length) [] ∧
      outputs d [syncByte, m.type, UInt8.ofNat m.payload.length] = List.replicate 3 none := by
  have h1 := feed_sync h
  have h2 := feed_type (d := { d with state := 1 }) rfl m.type
  obtain ⟨ho, hr⟩ := feed_length (t := m.type) (n := UInt8.ofNat m.payload.length)
    (d := (feed { d with state := 1 } m.type).1) (by rw [h2]) (by rw [h2]) (by rw [h2])
    (by rw [m.length_toNat]; exact m.fits)
  refine ⟨_, rfl, ?_, ?_⟩
  · simpa only [feedAll_cons, h1, feedAll_nil] using hr
  · simp only [outputs, h1, ho, List.replicate]
    rw [h2]

/-- One encoded frame: silence up to its last byte, then the frame, and the decoder idle. -/
lemma feed_frame (h : Initial d) (m : Message) :
    Initial (feedAll d m.encoded) ∧ ∃ f, Carries f m ∧
      outputs d m.encoded = List.replicate (m.payload.length + 3) none ++ [some f] := by
  obtain ⟨e, he, hr, ho⟩ := feed_header h.state m
  have hn := m.length_toNat
  obtain ⟨hp, hop⟩ := hr.feed_payload m.payload (by simp [hn])
  rw [List.nil_append] at hp
  have hl := hp.feed_crc hn.symm (crcOf m.type m.payload)
  have hcrc : crcOf m.type m.payload = (feedAll e m.payload).crc := by rw [hp.crc, crcOf]
  rw [if_pos hcrc] at hl
  have hsplit : m.encoded = [syncByte, m.type, UInt8.ofNat m.payload.length] ++
      (m.payload ++ [crcOf m.type m.payload]) := m.encoded_eq
  refine ⟨?_, (feedAll e m.payload).frame, ⟨hp.type, ?_, hp.data hn.symm⟩, ?_⟩
  · rw [hsplit, feedAll_append, he, feedAll_append, feedAll_cons, hl]
    exact initial_reset _
  · rw [hp.length, hn]
  · rw [hsplit, outputs_append, ho, he, outputs_append, hop]
    simp only [outputs, hl, ← List.append_assoc, List.replicate_append_replicate]
    rw [Nat.add_comm 3]

/-- The bytes on the wire: filler, then each frame with the filler that follows it. -/
def stream (before : Filler) (parts : List (Message × Filler)) : List UInt8 :=
  before.bytes ++ parts.flatMap (fun p => p.1.encoded ++ p.2.bytes)

/-- What each byte of the stream should produce: the message on the last byte of its frame,
nothing on any other byte. -/
def schedule (before : Filler) (parts : List (Message × Filler)) : List (Option Message) :=
  List.replicate before.bytes.length none ++ parts.flatMap (fun p =>
    List.replicate (p.1.payload.length + 3) none ++ some p.1 ::
      List.replicate p.2.bytes.length none)

lemma silent (n : ℕ) : List.Forall₂ (Option.Rel Carries) (List.replicate n none)
    (List.replicate n none) := by
  induction n with
  | zero => exact .nil
  | succ n ih => exact .cons .none ih

lemma feed_parts (h : Initial d) (parts : List (Message × Filler)) :
    Initial (feedAll d (parts.flatMap (fun p => p.1.encoded ++ p.2.bytes))) ∧
      List.Forall₂ (Option.Rel Carries)
        (outputs d (parts.flatMap (fun p => p.1.encoded ++ p.2.bytes)))
        (parts.flatMap (fun p => List.replicate (p.1.payload.length + 3) none ++ some p.1 ::
          List.replicate p.2.bytes.length none)) := by
  induction parts generalizing d with
  | nil => exact ⟨h, .nil⟩
  | cons p parts ih =>
    obtain ⟨hi, f, hf, ho⟩ := feed_frame h p.1
    obtain ⟨hd, hfill⟩ := feed_filler hi.state p.2.bytes p.2.clean
    obtain ⟨hrest, houts⟩ := ih hi
    have hafter : feedAll d (p.1.encoded ++ p.2.bytes) = feedAll d p.1.encoded := by
      rw [feedAll_append, hd]
    simp only [List.flatMap_cons]
    refine ⟨by rw [feedAll_append, hafter]; exact hrest, ?_⟩
    rw [outputs_append, hafter, outputs_append, hfill, ho, List.append_assoc (List.replicate _ _)]
    refine List.rel_append (List.rel_append (silent _) ?_) houts
    exact .cons (.some hf) (silent _)

/-- Every frame of a stream is delivered once, on its last byte, in order and unchanged, and
leaves the decoder as `reset` leaves it. -/
theorem stream_round_trip (d : Decoder) (before : Filler) (parts : List (Message × Filler)) :
    List.Forall₂ (Option.Rel Carries) (outputs (reset d) (stream before parts))
        (schedule before parts) ∧
      ∀ sent m filler rest, parts = sent ++ (m, filler) :: rest →
        Initial (feedAll (reset d) (stream before sent ++ m.encoded)) := by
  have h := initial_reset d
  obtain ⟨hd, ho⟩ := feed_filler h.state before.bytes before.clean
  refine ⟨?_, ?_⟩
  · rw [stream, schedule, outputs_append, ho, hd]
    exact List.rel_append (silent _) (feed_parts h parts).2
  · rintro sent m filler rest -
    rw [stream, feedAll_append, feedAll_append, hd]
    exact (feed_frame (feed_parts h sent).1 m).1

end RoundTrip

/-- Feeding the last byte of the stream returned the frame. -/
def Accepts (d : Decoder) (bs : List UInt8) (f : Frame) : Prop :=
  ∃ as b, bs = as ++ [b] ∧ (feed (feedAll d as) b).2 = some f

/-- What the decoder's state says about the bytes it has seen since the last accepted frame:
they end in the part of a frame that the decoder has kept. -/
inductive Partial (d : Decoder) (since : List UInt8) : Prop
  | idle : d.state = 0 → Partial d since
  | synced (pre) : d.state = 1 → since = pre ++ [syncByte] → Partial d since
  | typed (pre) : d.state = 2 → d.crc = updateCrc 0 d.frame.type →
      since = pre ++ [syncByte, d.frame.type] → Partial d since
  | reading (pre t n received) : Reading d t n received →
      since = pre ++ syncByte :: t :: n :: received → Partial d since

section Soundness

variable {d : Decoder} {since : List UInt8}

lemma Reading.complete {t n : UInt8} {received : List UInt8} (h : Reading d t n received)
    (heq : received.length = n.toNat) {b : UInt8} (hb : b = d.crc) (pre : List UInt8) :
    pre ++ syncByte :: t :: n :: received ++ [b] =
      pre ++ encode d.frame.type d.frame.data := by
  have hbound := h.bound
  have hn : UInt8.ofNat received.length = n := by rw [heq, UInt8.ofNat_toNat]
  rw [h.data heq, h.type, encode, if_neg (by omega), hb, h.crc, crcOf, hn]
  simp

/-- One byte either extends what the decoder has kept, or completes an encoded frame. -/
lemma Partial.feed (h : Partial d since) (b : UInt8) :
    ((feed d b).2 = none ∧ Partial (feed d b).1 (since ++ [b])) ∨
      ∃ f, (feed d b).2 = some f ∧ (feed d b).1.state = 0 ∧
        f.data.length = f.length.toNat ∧ f.length.toNat ≤ maxPayload ∧
        encode f.type f.data <:+ since ++ [b] := by
  cases h with
  | idle h0 =>
    left
    by_cases hb : b = syncByte
    · subst hb
      rw [feed_sync h0]
      exact ⟨rfl, .synced since rfl rfl⟩
    · rw [feed_idle h0 hb]
      exact ⟨rfl, .idle h0⟩
  | synced pre h1 hs =>
    left
    rw [feed_type h1 b]
    exact ⟨rfl, .typed pre rfl rfl (by simp [hs])⟩
  | typed pre h2 hc hs =>
    left
    by_cases hb : maxPayload < b.toNat
    · rw [feed_long h2 hb]
      exact ⟨rfl, .idle rfl⟩
    · obtain ⟨ho, hr⟩ := feed_length h2 rfl hc (Nat.not_lt.mp hb)
      exact ⟨ho, .reading pre _ _ _ hr (by simp [hs])⟩
  | reading pre t n received hr hs =>
    by_cases hlt : received.length < n.toNat
    · obtain ⟨ho, hr'⟩ := hr.feed_byte hlt b
      exact .inl ⟨ho, .reading pre t n _ hr' (by simp [hs])⟩
    · have heq : received.length = n.toNat := le_antisymm hr.within (Nat.not_lt.mp hlt)
      rw [hr.feed_crc heq b]
      by_cases hb : b = d.crc
      · refine .inr ⟨d.frame, by rw [if_pos hb], rfl, ?_, ?_, pre, ?_⟩
        · rw [hr.data heq, hr.length, heq]
        · rw [hr.length]; exact hr.bound
        · rw [hs, hr.complete heq hb pre]
      · exact .inl ⟨by rw [if_neg hb], .idle rfl⟩

/-- After any stream, the bytes since the last accepted frame are accounted for. -/
lemma accepted_before (d : Decoder) (bs : List UInt8) :
    ∃ old since, bs = old ++ since ∧ Partial (feedAll (reset d) bs) since ∧
      ∀ as f, as <+: bs → Accepts (reset d) as f → as.length ≤ old.length := by
  induction bs using List.reverseRecOn with
  | nil =>
    refine ⟨[], [], rfl, .idle rfl, ?_⟩
    rintro as f hp ⟨cs, b, rfl, -⟩
    simp at hp
  | append_singleton bs b ih =>
    obtain ⟨old, since, hbs, hpart, hold⟩ := ih
    have hnext : feedAll (reset d) (bs ++ [b]) = (feed (feedAll (reset d) bs) b).1 := by
      rw [feedAll_append]; rfl
    rcases hpart.feed b with ⟨hnone, hpart'⟩ | ⟨f, hf, hzero, -⟩
    · refine ⟨old, since ++ [b], by simp [hbs], hnext ▸ hpart', ?_⟩
      intro as g hp hacc
      rcases List.prefix_concat_iff.mp hp with rfl | hp'
      · obtain ⟨cs, c, hcs, hg⟩ := hacc
        obtain ⟨rfl, rfl⟩ := List.append_inj' hcs rfl |>.imp_right List.singleton_inj.mp
        rw [hnone] at hg
        exact absurd hg (by simp)
      · exact hold as g hp' hacc
    · exact ⟨bs ++ [b], [], by simp, hnext ▸ .idle hzero, fun as g hp _ => hp.length_le⟩

lemma encode_length {t : UInt8} {payload : List UInt8} (h : payload.length ≤ maxPayload) :
    (encode t payload).length = payload.length + 4 := by
  simp [encode, Nat.not_lt.mpr h]

lemma accepted_window (d : Decoder) {bs : List UInt8} {f : Frame}
    (h : Accepts (reset d) bs f) :
    f.data.length = f.length.toNat ∧ f.length.toNat ≤ maxPayload ∧
      ∃ old since, bs = old ++ since ∧ encode f.type f.data <:+ since ∧
        ∀ as g, as <+: bs → as.length < bs.length → Accepts (reset d) as g →
          as.length ≤ old.length := by
  obtain ⟨as, b, rfl, hf⟩ := h
  obtain ⟨old, since, has, hpart, hold⟩ := accepted_before d as
  rcases hpart.feed b with ⟨hnone, -⟩ | ⟨g, hg, -, hlen, hbound, hsuffix⟩
  · rw [hnone] at hf
    exact absurd hf (by simp)
  · obtain rfl : g = f := Option.some.inj (hg.symm.trans hf)
    refine ⟨hlen, hbound, old, since ++ [b], by simp [has], hsuffix, ?_⟩
    intro cs e hp hlt hacc
    rcases List.prefix_concat_iff.mp hp with rfl | hp'
    · exact absurd hlt (lt_irrefl _)
    · exact hold cs e hp' hacc

lemma Partial.write_bound (h : Partial d since) {i : ℕ} (hw : writeIndex d = some i) :
    i < maxPayload := by
  rw [writeIndex] at hw
  split_ifs at hw with hc
  obtain ⟨h3, hlt⟩ := hc
  cases h with
  | idle h | synced _ h | typed _ h =>
    rw [h] at h3
    exact absurd h3 (by decide)
  | reading pre t n received hr hs =>
    have hi := hr.index_lt.mp hlt
    have hb := hr.bound
    have hn := Option.some.inj hw
    rw [hr.index] at hn
    omega

/-- Whatever the stream, an accepted frame is the encoding that the stream ends in, the bytes
of two accepted frames are disjoint, and no write leaves the payload. -/
theorem decoder_sound (d : Decoder) (bs : List UInt8) :
    (∀ f, Accepts (reset d) bs f →
      encode f.type f.data <:+ bs ∧ (encode f.type f.data).length = f.length.toNat + 4) ∧
    (∀ as f g, as <+: bs → as.length < bs.length → Accepts (reset d) as f →
      Accepts (reset d) bs g → as.length + (g.length.toNat + 4) ≤ bs.length) ∧
    (∀ i, writeIndex (feedAll (reset d) bs) = some i → i < maxPayload) := by
  refine ⟨?_, ?_, ?_⟩
  · intro f h
    obtain ⟨hlen, hbound, old, since, hbs, hsuffix, -⟩ := accepted_window d h
    refine ⟨hbs ▸ hsuffix.trans (List.suffix_append old since), ?_⟩
    rw [encode_length (by omega), hlen]
  · intro as f g hp hlt hf hg
    obtain ⟨hlen, hbound, old, since, hbs, hsuffix, hold⟩ := accepted_window d hg
    have hwindow := hsuffix.length_le
    rw [encode_length (by omega), hlen] at hwindow
    have hearlier := hold as f hp hlt hf
    have htotal : bs.length = old.length + since.length := by rw [hbs, List.length_append]
    omega
  · intro i hw
    obtain ⟨old, since, -, hpart, -⟩ := accepted_before d bs
    exact hpart.write_bound hw

end Soundness

end RepRapFirmware.Shared.StreamDecoding
