import Mathlib.Data.List.Basic
import Mathlib.Tactic

/-! Singly linked lists in a memory of links. A place is the head of a list or the link of an
element, so that a list is amended by writing to places. -/

namespace RepRapFirmware.Library.LinkedLists

variable {κ ι : Type*}

/-- What every place points to. -/
abbrev Links (κ ι : Type*) := κ ⊕ ι → Option ι

/-- The elements `l` follow the place, and the last of them points to `e`. -/
def Linked (link : Links κ ι) : κ ⊕ ι → List ι → Option ι → Prop
  | p, [], e => link p = e
  | p, i :: l, e => link p = some i ∧ Linked link (.inr i) l e

/-- The place behind the elements. -/
def endPlace : κ ⊕ ι → List ι → κ ⊕ ι
  | p, [] => p
  | _, i :: l => endPlace (.inr i) l

/-- The walk from a place over elements that satisfy `pred`, in a number of turns. -/
def follow (link : Links κ ι) (pred : ι → Bool) : ℕ → κ ⊕ ι → Option (List ι)
  | 0, _ => none
  | turns + 1, p =>
    match link p with
    | none => some []
    | some i => if pred i then (follow link pred turns (.inr i)).map (i :: ·) else some []

/-- The place does not belong to the elements. -/
def Outside (p : κ ⊕ ι) (l : List ι) : Prop := ∀ i ∈ l, p ≠ .inr i

section Lemmas

variable {link link' : Links κ ι} {p q : κ ⊕ ι} {l l' : List ι} {i : ι} {e : Option ι}

lemma outside_inl (k : κ) (l : List ι) : Outside (.inl k) l := fun _ _ => (nomatch ·)

lemma outside_inr : Outside (.inr i : κ ⊕ ι) l ↔ i ∉ l := by
  constructor
  · exact fun h hi => h i hi rfl
  · rintro h j hj hij
    exact h (Sum.inr.inj hij ▸ hj)

lemma endPlace_cases (p : κ ⊕ ι) (l : List ι) :
    endPlace p l = p ∧ l = [] ∨ ∃ i ∈ l, endPlace p l = .inr i := by
  induction l generalizing p with
  | nil => exact .inl ⟨rfl, rfl⟩
  | cons i l ih =>
    rcases ih (.inr i) with ⟨heq, -⟩ | ⟨j, hj, heq⟩
    · exact .inr ⟨i, List.mem_cons_self, heq⟩
    · exact .inr ⟨j, List.mem_cons_of_mem i hj, heq⟩

@[simp] lemma endPlace_append (p : κ ⊕ ι) (l l' : List ι) :
    endPlace p (l ++ l') = endPlace (endPlace p l) l' := by
  induction l generalizing p with
  | nil => rfl
  | cons i l ih => exact ih (.inr i)

lemma Linked.end_eq (h : Linked link p l e) : link (endPlace p l) = e := by
  induction l generalizing p with
  | nil => exact h
  | cons i l ih => exact ih h.2

lemma linked_append : Linked link p (l ++ l') e ↔
    Linked link p l (link (endPlace p l)) ∧ Linked link (endPlace p l) l' e := by
  induction l generalizing p with
  | nil => exact ⟨fun h => ⟨rfl, h⟩, fun h => h.2⟩
  | cons i l ih =>
    constructor
    · rintro ⟨hp, h⟩
      obtain ⟨hl, hl'⟩ := ih.mp h
      exact ⟨⟨hp, hl⟩, hl'⟩
    · rintro ⟨⟨hp, hl⟩, hl'⟩
      exact ⟨hp, ih.mpr ⟨hl, hl'⟩⟩

lemma Linked.append {e' : Option ι} (h : Linked link p l e')
    (h' : Linked link (endPlace p l) l' e) : Linked link p (l ++ l') e := by
  obtain rfl := h.end_eq
  exact linked_append.mpr ⟨h, h'⟩

/-- Two lists from one place to the end are the same. -/
lemma Linked.unique (h : Linked link p l none) (h' : Linked link p l' none) : l = l' := by
  induction l generalizing p l' with
  | nil =>
    cases l' with
    | nil => rfl
    | cons i l' => exact nomatch h.symm.trans h'.1
  | cons i l ih =>
    cases l' with
    | nil => exact nomatch h.1.symm.trans h'
    | cons j l' =>
      obtain rfl := Option.some.inj (h.1.symm.trans h'.1)
      rw [ih h.2 h'.2]

lemma Linked.congr (h : Linked link p l e) (hp : link' p = link p)
    (hl : ∀ i ∈ l, link' (.inr i) = link (.inr i)) : Linked link' p l e := by
  induction l generalizing p with
  | nil => exact hp.trans h
  | cons i l ih =>
    obtain ⟨hi, hrest⟩ := List.forall_mem_cons.mp hl
    exact ⟨hp.trans h.1, ih h.2 hi hrest⟩

lemma follow_eq {pred : ι → Bool} {turns : ℕ} (h : Linked link p l none) (hturns
    : l.length < turns) :
    follow link pred turns p = some (l.takeWhile pred) := by
  induction l generalizing p turns with
  | nil =>
    obtain ⟨turns, rfl⟩ := Nat.exists_eq_succ_of_ne_zero (Nat.ne_of_gt hturns)
    rw [follow, show link p = none from h]
    rfl
  | cons i l ih =>
    obtain ⟨turns, rfl⟩ := Nat.exists_eq_succ_of_ne_zero (Nat.ne_of_gt (Nat.zero_lt_of_lt hturns))
    rw [follow, h.1]
    simp only
    by_cases hpred : pred i = true
    · rw [if_pos hpred, ih h.2 (Nat.lt_of_succ_lt_succ hturns), List.takeWhile_cons_of_pos hpred]
      rfl
    · rw [if_neg hpred, List.takeWhile_cons_of_neg hpred]

variable [DecidableEq κ] [DecidableEq ι] {v : Option ι}

/-- Writing to a place elsewhere. -/
lemma Linked.frame (h : Linked link p l e) (hp : p ≠ q) (hl : Outside q l) :
    Linked (Function.update link q v) p l e := by
  apply h.congr
  · exact Function.update_of_ne hp _ _
  · exact fun i hi => Function.update_of_ne (hl i hi).symm _ _

/-- Writing to the place behind the elements. -/
lemma Linked.write_end (h : Linked link p l e) (hp : Outside p l) (hnodup : l.Nodup) :
    Linked (Function.update link (endPlace p l) v) p l v := by
  induction l generalizing p with
  | nil => exact Function.update_self _ _ _
  | cons i l ih =>
    rw [List.nodup_cons] at hnodup
    have hend : p ≠ endPlace (.inr i) l := by
      rcases endPlace_cases (.inr i : κ ⊕ ι) l with ⟨heq, -⟩ | ⟨j, hj, heq⟩
      · rw [heq]
        exact hp i List.mem_cons_self
      · rw [heq]
        exact hp j (List.mem_cons_of_mem i hj)
    exact ⟨(Function.update_of_ne hend _ _).trans h.1,
      ih h.2 (outside_inr.mpr hnodup.1) hnodup.2⟩

end Lemmas

/-! ### Inserting and removing an element -/

variable [DecidableEq κ] [DecidableEq ι]

/-- The element gets the link of the place, and the place points to the element. -/
def insertAt (link : Links κ ι) (q : κ ⊕ ι) (i : ι) : Links κ ι :=
  Function.update (Function.update link (.inr i) (link q)) q (some i)

/-- The place gets the link of the element that it points to. -/
def removeAt (link : Links κ ι) (q : κ ⊕ ι) (i : ι) : Links κ ι :=
  Function.update link q (link (.inr i))

section Amending

variable {link : Links κ ι} {p : κ ⊕ ι} {before after l : List ι} {i : ι} {e : Option ι}

lemma Linked.insertAt (h : Linked link p (before ++ after) e) (hp : Outside p (before ++ after))
    (hnodup : (before ++ after).Nodup) (hi : i ∉ before ++ after) (hpi : p ≠ .inr i) :
    Linked (insertAt link (endPlace p before) i) p (before ++ i :: after) e := by
  rw [List.mem_append, not_or] at hi
  rw [List.nodup_append] at hnodup
  obtain ⟨hbefore, -, hdisjoint⟩ := hnodup
  obtain ⟨hfront, hback⟩ := linked_append.mp h
  have hend : endPlace p before ≠ .inr i := by
    rcases endPlace_cases p before with ⟨heq, -⟩ | ⟨j, hj, heq⟩
    · rwa [heq]
    · rw [heq]
      rintro hji
      exact hi.1 (Sum.inr.inj hji ▸ hj)
  -- the link of the new element is written first
  have hfront' : Linked (Function.update link (.inr i) (link (endPlace p before))) p before _ :=
    hfront.frame hpi (outside_inr.mpr hi.1)
  have hafter : Outside (endPlace p before) after := by
    rcases endPlace_cases p before with ⟨heq, -⟩ | ⟨j, hj, heq⟩
    · rw [heq]
      exact fun k hk => hp k (List.mem_append_right _ hk)
    · rw [heq]
      exact outside_inr.mpr fun hmem => hdisjoint j hj j hmem rfl
  have hwritten := hfront'.write_end (v := some i)
    (fun k hk => hp k (List.mem_append_left _ hk)) hbefore
  refine hwritten.append ⟨hwritten.end_eq, ?_⟩
  have hlink : (LinkedLists.insertAt link (endPlace p before) i) (.inr i) =
      link (endPlace p before) := by
    rw [LinkedLists.insertAt, Function.update_of_ne hend.symm, Function.update_self]
  have hrest : ∀ j ∈ after, (LinkedLists.insertAt link (endPlace p before) i) (.inr j) =
      link (.inr j) := by
    intro j hj
    rw [LinkedLists.insertAt, Function.update_of_ne (hafter j hj).symm, Function.update_of_ne]
    rintro hji
    exact hi.2 (Sum.inr.inj hji ▸ hj)
  cases after with
  | nil => exact hlink.trans hback
  | cons j after =>
    refine ⟨hlink.trans hback.1, hback.2.congr (hrest j List.mem_cons_self) fun k hk => ?_⟩
    exact hrest k (List.mem_cons_of_mem j hk)

lemma Linked.removeAt (h : Linked link p (before ++ i :: after) e)
    (hp : Outside p (before ++ i :: after)) (hnodup : (before ++ i :: after).Nodup) :
    Linked (removeAt link (endPlace p before) i) p (before ++ after) e := by
  obtain ⟨hfront, -, hback⟩ := linked_append.mp h
  rw [List.nodup_append] at hnodup
  obtain ⟨hbefore, hafter, hdisjoint⟩ := hnodup
  have hwritten := hfront.write_end (v := link (.inr i))
    (fun k hk => hp k (List.mem_append_left _ hk)) hbefore
  apply hwritten.append
  have hplace : Outside (endPlace p before) after := by
    rcases endPlace_cases p before with ⟨heq, -⟩ | ⟨j, hj, heq⟩
    · rw [heq]
      exact fun k hk => hp k (List.mem_append_right _ (List.mem_cons_of_mem i hk))
    · rw [heq]
      exact outside_inr.mpr fun hmem => hdisjoint j hj j (List.mem_cons_of_mem i hmem) rfl
  have hrest : ∀ j ∈ after, (LinkedLists.removeAt link (endPlace p before) i) (.inr j) =
      link (.inr j) := fun j hj => Function.update_of_ne (hplace j hj).symm _ _
  cases after with
  | nil => exact hwritten.end_eq.trans hback
  | cons j after =>
    refine ⟨hwritten.end_eq.trans hback.1,
      hback.2.congr (hrest j List.mem_cons_self) fun k hk => ?_⟩
    exact hrest k (List.mem_cons_of_mem j hk)

/-- The other lists stay as they are. -/
lemma Linked.insertAt_frame {q : κ ⊕ ι} (h : Linked link p l e) (hp : p ≠ q) (hpi : p ≠ .inr i)
    (hq : Outside q l) (hi : i ∉ l) : Linked (LinkedLists.insertAt link q i) p l e :=
  (h.frame hpi (outside_inr.mpr hi)).frame hp hq

lemma Linked.removeAt_frame {q : κ ⊕ ι} (h : Linked link p l e) (hp : p ≠ q) (hq : Outside q l) :
    Linked (LinkedLists.removeAt link q i) p l e :=
  h.frame hp hq

end Amending

end RepRapFirmware.Library.LinkedLists
