import RepRapFirmware.Shared.StreamDecoding

/-! How long a decoder can stay inside a frame that has lost its sender. -/

namespace RepRapFirmware.Shared.Resynchronisation

open Library.Runs LpcProtocol StreamDecoding

/-- What holds after any stream: the decoder has kept part of a frame, or it is as `reset`
leaves it. -/
structure Tracked (d : Decoder) : Prop where
  kept : ∃ since, Partial d since
  idle : d.state = 0 → Initial d

/-- The most bytes that the frame in progress can still take. -/
def pending (d : Decoder) : ℕ :=
  if d.state = 0 then 0 else if d.state = 1 then maxPayload + 3
  else if d.state = 2 then maxPayload + 2 else d.frame.length.toNat - d.index.toNat + 1

def accepted (d : Decoder) (bs : List UInt8) : ℕ := (outputs d bs).countP Option.isSome

variable {d : Decoder} {t n : UInt8} {received bs : List UInt8}

lemma tracked_of_initial (h : Initial d) : Tracked d := ⟨⟨[], .idle h.state⟩, fun _ => h⟩

lemma pending_reading (h : Reading d t n received) :
    pending d = n.toNat - received.length + 1 := by
  rw [pending, h.state, h.length, h.index]
  rfl

lemma pending_reset : pending (reset d) = 0 := rfl

lemma pending_le (h : Tracked d) : pending d ≤ maxPayload + 3 := by
  obtain ⟨since, hpart⟩ := h.kept
  cases hpart with
  | idle h0 => simp [pending, h0]
  | synced _ h1 => simp [pending, h1]
  | typed _ h2 => simp [pending, h2]
  | reading _ _ _ _ hr =>
    have hbound := hr.bound
    rw [pending_reading hr]
    omega

/-- A byte inside a frame brings the end of the frame closer, and a frame is only accepted at
its end. -/
lemma Tracked.feed (h : Tracked d) (b : UInt8) :
    Tracked (feed d b).1 ∧ (d.state ≠ 0 → pending (feed d b).1 < pending d) ∧
      ((feed d b).2 ≠ none → (feed d b).1.state = 0) := by
  obtain ⟨since, hpart⟩ := h.kept
  have hreset : Tracked (reset d) := tracked_of_initial (initial_reset d)
  cases hpart with
  | idle h0 =>
    by_cases hb : b = syncByte
    · subst hb
      rw [feed_sync h0]
      exact ⟨⟨⟨_, .synced [] rfl rfl⟩, nofun⟩, fun hne => absurd h0 hne, nofun⟩
    · rw [feed_idle h0 hb]
      exact ⟨h, fun hne => absurd h0 hne, nofun⟩
  | synced pre h1 hs =>
    rw [feed_type h1 b]
    refine ⟨⟨⟨_, .typed pre rfl rfl rfl⟩, nofun⟩, fun _ => ?_, nofun⟩
    simp [pending, h1]
  | typed pre h2 hc hs =>
    by_cases hb : maxPayload < b.toNat
    · rw [feed_long h2 hb]
      refine ⟨hreset, fun _ => ?_, nofun⟩
      rw [pending_reset]
      simp [pending, h2]
    · obtain ⟨ho, hr⟩ := feed_length h2 rfl hc (Nat.not_lt.mp hb)
      have hbound := hr.bound
      refine ⟨⟨⟨_, .reading [] _ _ _ hr rfl⟩, fun h0 => ?_⟩, fun _ => ?_, fun hne => absurd ho hne⟩
      · rw [hr.state] at h0
        exact absurd h0 (by decide)
      · have hlong : pending d = maxPayload + 2 := by simp [pending, h2]
        rw [pending_reading hr, hlong, List.length_nil]
        omega
  | reading pre t n received hr hs =>
    by_cases hlt : received.length < n.toNat
    · obtain ⟨ho, hr'⟩ := hr.feed_byte hlt b
      refine ⟨⟨⟨_, .reading pre _ _ _ hr' rfl⟩, fun h0 => ?_⟩, fun _ => ?_,
        fun hne => absurd ho hne⟩
      · rw [hr'.state] at h0
        exact absurd h0 (by decide)
      · rw [pending_reading hr, pending_reading hr', List.length_append, List.length_singleton]
        omega
    · rw [hr.feed_crc (le_antisymm hr.within (Nat.not_lt.mp hlt)) b]
      refine ⟨hreset, fun _ => ?_, fun _ => rfl⟩
      rw [pending_reset, pending_reading hr]
      omega

lemma tracked_run (h : Tracked d) (bs : List UInt8) : Tracked (feedAll d bs) :=
  invariant h (fun _ b hd => (hd.feed b).1) bs

lemma accepted_filler (h : Tracked d) (h0 : d.state = 0) (hs : syncByte ∉ bs) :
    Initial (feedAll d bs) ∧ accepted d bs = 0 := by
  obtain ⟨hd, ho⟩ := feed_filler h0 bs hs
  rw [hd, accepted, ho, List.countP_replicate]
  exact ⟨h.idle h0, rfl⟩

/-- Without a sync byte the frame in progress runs out, and no other one begins. -/
lemma drains (h : Tracked d) (hlen : pending d ≤ bs.length) (hs : syncByte ∉ bs) :
    Initial (feedAll d bs) ∧ accepted d bs ≤ 1 := by
  induction bs generalizing d with
  | nil =>
    have h0 : d.state = 0 := by
      by_contra hne
      have hlt := (h.feed 0).2.1 hne
      rw [List.length_nil] at hlen
      omega
    exact ⟨h.idle h0, Nat.zero_le 1⟩
  | cons b bs ih =>
    by_cases h0 : d.state = 0
    · obtain ⟨hinit, hnone⟩ := accepted_filler h h0 hs
      exact ⟨hinit, by omega⟩
    · obtain ⟨htracked, hcloser, hlast⟩ := h.feed b
      have hrest : syncByte ∉ bs := fun hmem => hs (List.mem_cons_of_mem b hmem)
      have hcount : accepted d (b :: bs) =
          accepted (feed d b).1 bs + if (feed d b).2.isSome then 1 else 0 := List.countP_cons
      cases hout : (feed d b).2 with
      | none =>
        have hlt := hcloser h0
        rw [List.length_cons] at hlen
        have hpending : pending (feed d b).1 ≤ bs.length := by omega
        rw [hcount, hout]
        exact ih htracked hpending hrest
      | some f =>
        obtain ⟨hinit, hnone⟩ := accepted_filler htracked (hlast (by simp [hout])) hrest
        refine ⟨hinit, ?_⟩
        rw [hcount, hnone, hout]
        exact le_refl 1

/-- After any stream, nineteen bytes without a sync byte bring the decoder back to where
`reset` leaves it, and the next frame is delivered. -/
theorem resynchronises (d : Decoder) (before gap : List UInt8) (m : Message)
    (hlen : 19 ≤ gap.length) (hgap : syncByte ∉ gap) :
    Initial (feedAll (feedAll (reset d) before) gap) ∧
      accepted (feedAll (reset d) before) gap ≤ 1 ∧
      Initial (feedAll (feedAll (feedAll (reset d) before) gap) m.encoded) ∧
      ∃ f, Carries f m ∧ outputs (feedAll (feedAll (reset d) before) gap) m.encoded =
        List.replicate (m.payload.length + 3) none ++ [some f] := by
  have htracked := tracked_run (tracked_of_initial (initial_reset d)) before
  obtain ⟨hinit, hone⟩ := drains htracked ((pending_le htracked).trans hlen) hgap
  obtain ⟨hend, hframe⟩ := feed_frame hinit m
  exact ⟨hinit, hone, hend, hframe⟩

/-- A sync byte just before the gap makes the decoder take all nineteen bytes for a frame. -/
theorem resynchronises_after_sync :
    let d : Decoder := ⟨⟨0, 0, Vector.replicate 16 0⟩, 0, 0, 0⟩
    Initial (feedAll (feedAll (reset d) [syncByte]) (List.replicate 19 16)) :=
  (resynchronises _ [syncByte] (List.replicate 19 16) ⟨1, [], by decide⟩ (by decide)
    (by decide)).1

end RepRapFirmware.Shared.Resynchronisation
