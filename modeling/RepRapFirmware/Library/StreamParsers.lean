import Mathlib.Data.List.Basic
import Mathlib.Tactic

/-! Machines that are fed one item after another until they stop with a result. -/

namespace RepRapFirmware.Library.StreamParsers

variable {σ α ρ : Type*} (step : σ → α → ρ ⊕ σ)

/-- The result with the items that are left, or the state in which more items are wanted. -/
def feed (s : σ) : List α → (ρ × List α) ⊕ σ
  | [] => .inr s
  | a :: as =>
    match step s a with
    | .inl r => .inl (r, as)
    | .inr s => feed s as

/-- Where `ok` holds the machine takes all the items and gets to a state with `Q`, and where it
does not the machine stops with a result with `bad`, before their end or at it. -/
def Reads (bad : ρ → Prop) (s : σ) (as : List α) (ok : Prop) (Q : σ → Prop) : Prop :=
  ∀ rest, (ok ∧ ∃ s', feed step s (as ++ rest) = feed step s' rest ∧ Q s') ∨
    (¬ ok ∧ ∃ r left, feed step s (as ++ rest) = .inl (r, left) ∧ bad r)

variable {step} {bad : ρ → Prop} {s s' : σ} {a : α} {as bs : List α} {ok ok' : Prop}
  {Q Q' : σ → Prop} {r : ρ}

lemma feed_cons_of_inr (h : step s a = .inr s') : feed step s (a :: as) = feed step s' as := by
  rw [feed, h]

lemma feed_cons_of_inl (h : step s a = .inl r) : feed step s (a :: as) = .inl (r, as) := by
  rw [feed, h]

lemma reads_nil (h : Q s) : Reads step bad s ([] : List α) True Q :=
  fun _ => Or.inl ⟨trivial, s, rfl, h⟩

lemma reads_cons_of_inr (h : step s a = .inr s') (hrest : Reads step bad s' as ok Q) :
    Reads step bad s (a :: as) ok Q := by
  intro rest
  rw [List.cons_append, feed_cons_of_inr h]
  exact hrest rest

lemma reads_cons_of_inl (h : step s a = .inl r) (hbad : bad r) :
    Reads step bad s (a :: as) False Q :=
  fun rest => Or.inr ⟨id, r, as ++ rest, feed_cons_of_inl h, hbad⟩

lemma reads_step (h : step s a = .inr s') (hQ : Q s') : Reads step bad s [a] True Q :=
  reads_cons_of_inr h (reads_nil hQ)

lemma Reads.append (h : Reads step bad s as ok Q) (h' : ∀ s', Q s' → Reads step bad s' bs ok' Q') :
    Reads step bad s (as ++ bs) (ok ∧ ok') Q' := by
  intro rest
  rw [List.append_assoc]
  cases h (bs ++ rest) with
  | inr hstop => exact Or.inr ⟨fun hok => hstop.1 hok.1, hstop.2⟩
  | inl hgo =>
    obtain ⟨hok, s', hfeed, hs'⟩ := hgo
    rw [hfeed]
    exact (h' s' hs' rest).imp (And.imp_left fun hok' => ⟨hok, hok'⟩)
      (And.imp_left fun hnot hboth => hnot hboth.2)

lemma Reads.congr (h : Reads step bad s as ok Q) (hok : ok ↔ ok') (hQ : ∀ s', ok → Q s' → Q' s') :
    Reads step bad s as ok' Q' := by
  intro rest
  apply (h rest).imp
  · rintro ⟨hyes, s', hfeed, hs'⟩
    exact ⟨hok.mp hyes, s', hfeed, hQ s' hyes hs'⟩
  · rintro ⟨hno, hstop⟩
    exact ⟨fun hyes => hno (hok.mpr hyes), hstop⟩

/-- A machine that has stopped reads nothing more. -/
lemma Reads.stopped (h : Reads step bad s as ok Q) (hno : ¬ ok) :
    Reads step bad s (as ++ bs) False Q' := by
  intro rest
  rw [List.append_assoc]
  cases h (bs ++ rest) with
  | inl hgo => exact absurd hgo.1 hno
  | inr hstop => exact Or.inr ⟨id, hstop.2⟩

end RepRapFirmware.Library.StreamParsers
