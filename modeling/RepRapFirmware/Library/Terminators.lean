import Mathlib.Algebra.Group.Nat.Even
import Mathlib.Data.List.Infix
import Mathlib.Tactic

/-! Looking for a terminator by counting how much of it has arrived. A byte that does not fit sets
the count back to zero and is not looked at again. -/

namespace RepRapFirmware.Library.Terminators

variable {α : Type*} [DecidableEq α]

def advance (p : List α) (k : ℕ) (c : α) : ℕ := if p[k]? = some c then k + 1 else 0

/-- How much of the terminator has arrived when a text has been read. -/
def arrived (p t : List α) : ℕ := t.foldl (advance p) 0

/-- A beginning of the terminator that is not all of it. -/
structure Fragment (p f : List α) : Prop where
  nonempty : f ≠ []
  isPrefix : f <+: p
  proper : f ≠ p

/-- A text that ends in some fragments back to back, with no fragment in front of them. -/
def Fragmented (p t : List α) (fs : List (List α)) : Prop :=
  ∃ u, t = u ++ fs.flatten ∧ (∀ f ∈ fs, Fragment p f) ∧ ∀ f, Fragment p f → ¬ f <:+ u

variable {p t f g : List α} {k : ℕ} {c : α}

lemma advance_of_fits (h : p[k]? = some c) : advance p k c = k + 1 := if_pos h

lemma advance_of_not_fits (h : p[k]? ≠ some c) : advance p k c = 0 := if_neg h

lemma arrived_concat (p t : List α) (c : α) :
    arrived p (t ++ [c]) = advance p (arrived p t) c := List.foldl_concat _ _ _ _

lemma arrived_append (p t g : List α) :
    arrived p (t ++ g) = g.foldl (advance p) (arrived p t) := List.foldl_append

lemma arrived_le (p t : List α) : arrived p t ≤ p.length := by
  induction t using List.reverseRecOn with
  | nil => exact Nat.zero_le _
  | append_singleton t c ih =>
    rw [arrived_concat, advance]
    split
    · next h =>
      have hlt := (List.getElem?_eq_some_iff.mp h).1
      omega
    · exact Nat.zero_le _

/-- What has been counted is what was read last. -/
lemma take_arrived (p t : List α) : p.take (arrived p t) <:+ t := by
  induction t using List.reverseRecOn with
  | nil => exact List.suffix_rfl
  | append_singleton t c ih =>
    rw [arrived_concat, advance]
    split
    · next h =>
      rw [List.take_add_one, h]
      obtain ⟨u, hu⟩ := ih
      exact ⟨u, by rw [Option.toList_some, ← List.append_assoc, hu]⟩
    · exact List.nil_suffix

lemma infix_of_arrived (h : arrived p t = p.length) : p <:+ t := by
  have hsuffix := take_arrived p t
  rwa [h, List.take_length] at hsuffix

lemma foldl_fits (h : g <+: p.drop k) : g.foldl (advance p) k = k + g.length := by
  induction g generalizing k with
  | nil => rfl
  | cons c g ih =>
    obtain ⟨l, hl⟩ := h
    have hc : p[k]? = some c := by
      rw [← List.head?_drop, ← hl]
      rfl
    have hdrop : p.drop (k + 1) = g ++ l := by
      rw [← List.tail_drop, ← hl]
      rfl
    rw [List.foldl_cons, advance_of_fits hc, ih ⟨l, hdrop.symm⟩, List.length_cons]
    omega

/-! ### A terminator whose first letter does not come again -/

variable {lead : α} {rest : List α}

lemma foldl_idle (hg : lead ∉ g) : g.foldl (advance (lead :: rest)) 0 = 0 := by
  induction g with
  | nil => rfl
  | cons c g ih =>
    have hc : (lead :: rest)[0]? ≠ some c := by
      intro h
      exact hg (Option.some.inj h ▸ List.mem_cons_self)
    rw [List.foldl_cons, advance_of_not_fits hc]
    exact ih fun h => hg (List.mem_cons_of_mem c h)

lemma advance_lead (hlead : lead ∉ rest) (k : ℕ) : advance (lead :: rest) (k + 1) lead = 0 := by
  apply advance_of_not_fits
  rw [List.getElem?_cons_succ]
  exact fun h => hlead (List.mem_of_getElem? h)

/-- A fragment is counted when nothing has been counted before it, and passed over otherwise. -/
lemma foldl_prefix (hlead : lead ∉ rest) (hne : f ≠ []) (hf : f <+: lead :: rest) (k : ℕ) :
    f.foldl (advance (lead :: rest)) k = if k = 0 then f.length else 0 := by
  cases k with
  | zero =>
    have hfits := foldl_fits (p := lead :: rest) (k := 0) hf
    rw [if_pos rfl, hfits, Nat.zero_add]
  | succ k =>
    rw [if_neg (Nat.succ_ne_zero k)]
    obtain ⟨c, g, rfl⟩ := List.exists_cons_of_ne_nil hne
    obtain ⟨rfl, hg⟩ := List.cons_prefix_cons.mp hf
    rw [List.foldl_cons, advance_lead hlead]
    exact foldl_idle fun h => hlead (hg.subset h)

lemma arrived_unfragmented (hfree : ∀ f, Fragment p f → ¬ f <:+ t) (hno : ¬ p <:+: t) :
    arrived p t = 0 := by
  by_contra hne
  apply hfree (p.take (arrived p t)) _ (take_arrived p t)
  refine ⟨?_, List.take_prefix _ _, fun heq => ?_⟩
  · intro hnil
    obtain h | rfl := List.take_eq_nil_iff.mp hnil
    · exact hne h
    · exact hno (List.nil_infix)
  · exact hno (heq ▸ (take_arrived p t).isInfix)

/-- Behind text without the terminator nothing is counted exactly when an even number of fragments
ends it. -/
lemma arrived_eq_zero_iff {fs : List (List α)} (hlead : lead ∉ rest)
    (h : Fragmented (lead :: rest) t fs) (hno : ¬ lead :: rest <:+: t) :
    arrived (lead :: rest) t = 0 ↔ Even fs.length := by
  obtain ⟨u, rfl, hfragments, hfree⟩ := h
  induction fs using List.reverseRecOn with
  | nil =>
    rw [List.flatten_nil, List.append_nil] at hno ⊢
    exact iff_of_true (arrived_unfragmented hfree hno) Even.zero
  | append_singleton fs f ih =>
    have hf := hfragments f (List.mem_append_right _ (List.mem_singleton_self f))
    rw [List.flatten_concat, ← List.append_assoc] at hno ⊢
    have hih := ih (fun h => hno (h.trans (List.prefix_append _ _).isInfix))
      fun g hg => hfragments g (List.mem_append_left _ hg)
    have hlength := List.length_pos_of_ne_nil hf.nonempty
    rw [arrived_append, foldl_prefix hlead hf.nonempty hf.isPrefix, List.length_append,
      List.length_singleton, Nat.even_add_one, ← hih]
    split
    · next h => exact ⟨fun h' => absurd h' hlength.ne', fun h' => absurd h h'⟩
    · next h => exact ⟨fun _ => h, fun _ => rfl⟩

omit [DecidableEq α] in
lemma exists_fragmented (p t : List α) : ∃ fs, Fragmented p t fs := by
  induction hn : t.length using Nat.strong_induction_on generalizing t with
  | _ n ih =>
    by_cases h : ∃ f, Fragment p f ∧ f <:+ t
    · obtain ⟨f, hf, u, rfl⟩ := h
      have hlength := List.length_pos_of_ne_nil hf.nonempty
      rw [List.length_append] at hn
      obtain ⟨fs, v, rfl, hfs, hfree⟩ := ih u.length (by omega) u rfl
      refine ⟨fs ++ [f], v, by rw [List.flatten_concat, List.append_assoc], ?_, hfree⟩
      intro g hg
      obtain hg | hg := List.mem_append.mp hg
      · exact hfs g hg
      · exact List.mem_singleton.mp hg ▸ hf
    · refine ⟨[], t, by rw [List.flatten_nil, List.append_nil], nofun, fun f hf hsuffix => ?_⟩
      exact h ⟨f, hf, hsuffix⟩

/-- All of the terminator has arrived behind it exactly when nothing was counted in front of it. -/
lemma arrived_terminator (hlead : lead ∉ rest) :
    arrived (lead :: rest) (t ++ lead :: rest) = (lead :: rest).length ↔
      arrived (lead :: rest) t = 0 := by
  rw [arrived_append, foldl_prefix hlead (List.cons_ne_nil _ _) List.prefix_rfl]
  split
  · next h => exact iff_of_true rfl h
  · next h => exact iff_of_false (List.length_pos_of_ne_nil (List.cons_ne_nil _ _)).ne h

end RepRapFirmware.Library.Terminators
