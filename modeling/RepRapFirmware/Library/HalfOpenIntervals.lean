import Mathlib.Data.Finset.Card
import Mathlib.Order.Lattice
import Mathlib.Tactic

/-! Lists of half-open intervals of a line that stands for a circle: what they cover, how a range
cuts them, and how many they are. -/

namespace RepRapFirmware.Library.HalfOpenIntervals

variable {α : Type*} [LinearOrder α]

/-- The points of an interval, without its upper end. -/
def Within (i : α × α) (x : α) : Prop := i.1 ≤ x ∧ x < i.2

instance (i : α × α) (x : α) : Decidable (Within i x) := inferInstanceAs (Decidable (_ ∧ _))

def Covered (is : List (α × α)) (x : α) : Prop := ∃ i ∈ is, Within i x

/-- The points from `start` on to `stop`, over the end of the line if `stop` comes first. -/
def InRange (start stop x : α) : Prop :=
  if stop < start then x < stop ∨ start ≤ x else start ≤ x ∧ x < stop

instance (start stop x : α) : Decidable (InRange start stop x) :=
  inferInstanceAs (Decidable (if stop < start then x < stop ∨ start ≤ x else start ≤ x ∧ x < stop))

/-- What may be left of an interval in a range. -/
def candidates (start stop : α) (i : α × α) : List (α × α) :=
  if stop < start then [(i.1, min i.2 stop), (max i.1 start, i.2)]
  else [(max i.1 start, min i.2 stop)]

/-- What is left of an interval in a range. -/
def pieces (start stop : α) (i : α × α) : List (α × α) :=
  (candidates start stop i).filter fun j => j.1 < j.2

/-- One interval after the other, on a line that is cut at `origin`. -/
def Follows (origin : α) (i j : α × α) : Prop := i.2 ≤ j.1 ∨ j.2 ≤ origin ∧ origin ≤ i.1

variable {start stop origin x : α} {i j : α × α} {is : List (α × α)} {marks : Finset α}

lemma mem_pieces (h : j ∈ pieces start stop i) : i.1 ≤ j.1 ∧ j.2 ≤ i.2 ∧ j.1 < j.2 ∧
    (j.1 = i.1 ∨ j.1 = start) := by
  obtain ⟨hmem, hlt⟩ := List.mem_filter.mp h
  have hlt := of_decide_eq_true hlt
  rw [candidates] at hmem
  have hmax (a : α) : max a start = a ∨ max a start = start := max_choice a start
  split at hmem
  · obtain rfl | rfl := List.mem_pair.mp hmem
    · exact ⟨le_rfl, min_le_left _ _, hlt, Or.inl rfl⟩
    · exact ⟨le_max_left _ _, le_rfl, hlt, hmax _⟩
  · obtain rfl := List.mem_singleton.mp hmem
    exact ⟨le_max_left _ _, min_le_left _ _, hlt, hmax _⟩

/-- A range does not begin within a piece. -/
lemma start_not_inside (h : j ∈ pieces start stop i) : ¬ (j.1 < start ∧ start < j.2) := by
  rintro ⟨hlow, hhigh⟩
  have hmem := (List.mem_filter.mp h).1
  rw [candidates] at hmem
  split at hmem
  · next hwraps =>
    obtain rfl | rfl := List.mem_pair.mp hmem
    · exact absurd (hhigh.trans_le (min_le_right _ _)) (not_lt.mpr hwraps.le)
    · exact absurd hlow (not_lt.mpr (le_max_right _ _))
  · obtain rfl := List.mem_singleton.mp hmem
    exact absurd hlow (not_lt.mpr (le_max_right _ _))

lemma covered_pieces : Covered (pieces start stop i) x ↔ Within i x ∧ InRange start stop x := by
  have hfilter : Covered (pieces start stop i) x ↔ Covered (candidates start stop i) x := by
    constructor
    · rintro ⟨j, hj, hx⟩
      exact ⟨j, (List.mem_filter.mp hj).1, hx⟩
    · rintro ⟨j, hj, hx⟩
      exact ⟨j, List.mem_filter.mpr ⟨hj, decide_eq_true (hx.1.trans_lt hx.2)⟩, hx⟩
  rw [hfilter, Covered, candidates, InRange]
  split
  · simp only [List.mem_cons, List.not_mem_nil, or_false, exists_eq_or_imp, exists_eq_left, Within,
      lt_min_iff, max_le_iff]
    tauto
  · simp only [List.mem_cons, List.not_mem_nil, or_false, exists_eq_left, Within, lt_min_iff,
      max_le_iff]
    tauto

lemma covered_flatMap_pieces :
    Covered (is.flatMap (pieces start stop)) x ↔ Covered is x ∧ InRange start stop x := by
  constructor
  · rintro ⟨j, hj, hx⟩
    obtain ⟨i, hi, hj⟩ := List.mem_flatMap.mp hj
    obtain ⟨hwithin, hrange⟩ := covered_pieces.mp ⟨j, hj, hx⟩
    exact ⟨⟨i, hi, hwithin⟩, hrange⟩
  · rintro ⟨⟨i, hi, hwithin⟩, hrange⟩
    obtain ⟨j, hj, hx⟩ := covered_pieces.mpr ⟨hwithin, hrange⟩
    exact ⟨j, List.mem_flatMap.mpr ⟨i, hi, hj⟩, hx⟩

lemma pieces_follow (origin : α) : (pieces start stop i).Pairwise (Follows origin) := by
  apply List.Pairwise.filter
  rw [candidates]
  split
  · next h =>
    rw [List.pairwise_pair]
    exact Or.inl ((min_le_right _ _).trans (h.le.trans (le_max_right _ _)))
  · exact List.pairwise_singleton _ _

lemma Follows.mono (h : Follows origin i j) {i' j' : α × α} (hi : i.1 ≤ i'.1 ∧ i'.2 ≤ i.2)
    (hj : j.1 ≤ j'.1 ∧ j'.2 ≤ j.2) : Follows origin i' j' := by
  obtain h | ⟨h, h'⟩ := h
  · exact Or.inl (hi.2.trans (h.trans hj.1))
  · exact Or.inr ⟨hj.2.trans h, h'.trans hi.1⟩

/-- Intervals that follow each other still do when they are cut. -/
lemma flatMap_pieces_follow (h : is.Pairwise (Follows origin)) :
    (is.flatMap (pieces start stop)).Pairwise (Follows origin) := by
  rw [List.pairwise_flatMap]
  refine ⟨fun i _ => pieces_follow origin, h.imp ?_⟩
  intro i j hfollows i' hi' j' hj'
  obtain ⟨hlow, hhigh, -⟩ := mem_pieces hi'
  obtain ⟨hlow', hhigh', -⟩ := mem_pieces hj'
  exact hfollows.mono ⟨hlow, hhigh⟩ ⟨hlow', hhigh'⟩

/-! ### How many intervals there are -/

/-- Every interval begins at a mark, and has no other mark in it. -/
structure Marked (marks : Finset α) (is : List (α × α)) : Prop where
  begins : ∀ i ∈ is, i.1 ∈ marks
  free : ∀ i ∈ is, ∀ x ∈ marks, ¬ (i.1 < x ∧ x < i.2)

lemma Marked.pieces (h : Marked marks is) (start stop : α) :
    Marked (insert start marks) (is.flatMap (pieces start stop)) := by
  constructor
  · intro j hj
    obtain ⟨i, hi, hj⟩ := List.mem_flatMap.mp hj
    obtain ⟨-, -, -, heq | heq⟩ := mem_pieces hj
    · rw [heq]
      exact Finset.mem_insert_of_mem (h.begins i hi)
    · rw [heq]
      exact Finset.mem_insert_self _ _
  · intro j hj x hx hinside
    obtain ⟨i, hi, hj⟩ := List.mem_flatMap.mp hj
    obtain rfl | hx := Finset.mem_insert.mp hx
    · exact start_not_inside hj hinside
    · obtain ⟨hlow, hhigh, -⟩ := mem_pieces hj
      exact h.free i hi x hx ⟨hlow.trans_lt hinside.1, hinside.2.trans_le hhigh⟩

lemma Follows.begins_ne (h : Follows origin i j) (hi : i.1 < i.2) (hj : j.1 < j.2) :
    i.1 ≠ j.1 := by
  obtain h | ⟨h, h'⟩ := h
  · exact (hi.trans_le h).ne
  · exact (hj.trans_le (h.trans h')).ne'

/-- There are as many intervals as marks that they cover. -/
lemma Marked.length_eq (h : Marked marks is) (hproper : ∀ i ∈ is, i.1 < i.2)
    (hfollows : is.Pairwise (Follows origin)) [DecidablePred (Covered is)] :
    is.length = (marks.filter (Covered is)).card := by
  have hnodup : (is.map Prod.fst).Nodup := by
    rw [List.Nodup, List.pairwise_map]
    apply hfollows.imp_of_mem
    intro i j hi hj hij
    exact hij.begins_ne (hproper i hi) (hproper j hj)
  have hmarks : (is.map Prod.fst).toFinset = marks.filter (Covered is) := by
    ext x
    rw [List.mem_toFinset, List.mem_map, Finset.mem_filter]
    constructor
    · rintro ⟨i, hi, rfl⟩
      exact ⟨h.begins i hi, i, hi, le_rfl, hproper i hi⟩
    · rintro ⟨hx, i, hi, hlow, hhigh⟩
      refine ⟨i, hi, hlow.antisymm (not_lt.mp fun hlt => h.free i hi x hx ⟨hlt, hhigh⟩)⟩
  rw [← hmarks, List.toFinset_card_of_nodup hnodup, List.length_map]

end RepRapFirmware.Library.HalfOpenIntervals
