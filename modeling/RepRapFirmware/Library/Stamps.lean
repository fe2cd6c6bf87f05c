import Mathlib.Data.List.Basic
import Mathlib.Tactic

/-! Stamps that come from a clock which only goes forward, on messages that wait in queues. Listed
from the message taken last to the clock, over all the queues on the way, they are in order. -/

namespace RepRapFirmware.Library.Stamps

variable {τ : Type*} [Preorder τ] {ts us : List τ} {t u : τ}

def InOrder (ts : List τ) : Prop := ts.Pairwise (· ≤ ·)

lemma InOrder.sublist (h : InOrder ts) (hs : us.Sublist ts) : InOrder us :=
    List.Pairwise.sublist hs h

lemma InOrder.le_head (h : InOrder (t :: ts)) (hu : u ∈ ts) : t ≤ u :=
    List.rel_of_pairwise_cons h hu

/-- Whoever relays a stamp may send it any number of times. -/
lemma InOrder.relay (h : InOrder (ts ++ t :: us)) (n : ℕ) :
    InOrder (ts ++ (List.replicate n t ++ t :: us)) := by
  obtain ⟨hts, htus, hle⟩ := List.pairwise_append.mp h
  have ht : ∀ u ∈ t :: us, t ≤ u := List.forall_mem_cons.mpr ⟨le_rfl,
    (List.pairwise_cons.mp htus).1⟩
  refine List.pairwise_append.mpr ⟨hts, List.pairwise_append.mpr ⟨?_, htus, ?_⟩, ?_⟩
  · exact List.pairwise_replicate.mpr (.inr le_rfl)
  · intro a ha b hb
    rw [List.eq_of_mem_replicate ha]
    exact ht b hb
  · intro a ha b hb
    rcases List.mem_append.mp hb with hb | hb
    · rw [List.eq_of_mem_replicate hb]
      exact hle a ha t List.mem_cons_self
    · exact hle a ha b hb

/-- The clock goes forward and stamps a message. -/
lemma InOrder.stamp (h : InOrder (ts ++ [t])) (htu : t ≤ u) : InOrder (ts ++ [u, u]) := by
  obtain ⟨hts, -, hle⟩ := List.pairwise_append.mp h
  refine List.pairwise_append.mpr ⟨hts, by simp, fun a ha b hb => ?_⟩
  have hat : a ≤ t := hle a ha t List.mem_cons_self
  have hb : b = u := by simpa using hb
  exact hb ▸ hat.trans htu

end RepRapFirmware.Library.Stamps
