import Mathlib.Data.List.Basic
import Mathlib.Data.Fintype.Card
import Mathlib.Tactic

/-! Singly linked lists: a head pointer and a next pointer for each cell. A chain is the list that
the pointers make from a place on, down to the null pointer. -/

namespace RepRapFirmware.Library.LinkedList

variable {τ : Type*}

structure Links (τ : Type*) where
  head : Option τ
  next : τ → Option τ

def Chain (next : τ → Option τ) : Option τ → List τ → Prop
  | p, [] => p = none
  | p, x :: l => p = some x ∧ Chain next (next x) l

variable {next : τ → Option τ} {p q : Option τ} {l l' : List τ} {x t : τ}

lemma Chain.unique (h : Chain next p l) (h' : Chain next p l') : l = l' := by
  induction l generalizing p l' with
  | nil =>
    cases h
    cases l' with
    | nil => rfl
    | cons x l' => cases h'.1
  | cons x l ih =>
    cases l' with
    | nil => cases h.1.symm.trans h'
    | cons y l' =>
      obtain rfl : x = y := Option.some.inj (h.1.symm.trans h'.1)
      rw [ih h.2 h'.2]

/-- From each of its cells on, a chain is the rest of it. -/
lemma Chain.suffix (h : Chain next p (l ++ x :: l')) : Chain next (some x) (x :: l') := by
  induction l generalizing p with
  | nil => exact ⟨rfl, h.2⟩
  | cons y l ih => exact ih h.2

/-- A chain that ends has no cell twice. -/
lemma Chain.nodup (h : Chain next p l) : l.Nodup := by
  induction l generalizing p with
  | nil => exact List.nodup_nil
  | cons x l ih =>
    refine List.nodup_cons.mpr ⟨?_, ih h.2⟩
    intro hx
    obtain ⟨a, b, rfl⟩ := List.append_of_mem hx
    have hlater : Chain next (some x) (x :: b) := Chain.suffix h.2
    have hlen := congrArg List.length ((show Chain next (some x) (x :: (a ++ x :: b)) from
      ⟨rfl, h.2⟩).unique hlater)
    simp at hlen
    omega

/-- A chain over a finite type of cells is no longer than there are cells. -/
lemma Chain.length_le [Fintype τ] (h : Chain next p l) : l.length ≤ Fintype.card τ :=
  h.nodup.length_le_card

lemma Chain.congr {next' : τ → Option τ} (h : Chain next p l) (hnext : ∀ x ∈ l, next' x = next x) :
    Chain next' p l := by
  induction l generalizing p with
  | nil => exact h
  | cons x l ih =>
    obtain ⟨hx, hl⟩ := List.forall_mem_cons.mp hnext
    exact ⟨h.1, hx ▸ ih h.2 hl⟩

lemma Chain.head_eq (h : Chain next p l) : p = l.head? := by
  cases l with
  | nil => exact h
  | cons x l => exact h.1

variable [DecidableEq τ]

/-- The last cell of a chain is made to point to another chain. -/
lemma Chain.join (h : Chain next p (l ++ [x])) (h' : Chain next q l') (hx : x ∉ l') :
    Chain (Function.update next x q) p (l ++ x :: l') := by
  have hnodup := h.nodup
  induction l generalizing p with
  | nil =>
    refine ⟨h.1, ?_⟩
    rw [Function.update_self]
    apply h'.congr
    intro y hy
    exact Function.update_of_ne (fun heq : y = x => hx (heq ▸ hy)) _ _
  | cons y l ih =>
    rw [List.cons_append, List.nodup_cons] at hnodup
    have hne : y ≠ x := fun heq => hnodup.1 (by simp [heq])
    refine ⟨h.1, ?_⟩
    rw [Function.update_of_ne hne]
    exact ih h.2 hnodup.2

/-- A chain is cut behind a cell. -/
lemma Chain.cut (h : Chain next p (l ++ x :: l')) :
    Chain (Function.update next x none) p (l ++ [x]) := by
  have hnodup := h.nodup
  induction l generalizing p with
  | nil =>
    refine ⟨h.1, ?_⟩
    rw [Function.update_self]
    rfl
  | cons y l ih =>
    rw [List.cons_append, List.nodup_cons] at hnodup
    have hne : y ≠ x := fun heq => hnodup.1 (by simp [heq])
    refine ⟨h.1, ?_⟩
    rw [Function.update_of_ne hne]
    exact ih h.2 hnodup.2

lemma Chain.update (h : Chain next p l) (hx : x ∉ l) (q : Option τ) :
    Chain (Function.update next x q) p l := by
  induction l generalizing p with
  | nil => exact h
  | cons y l ih =>
    have hne : y ≠ x := fun heq => hx (heq ▸ List.mem_cons_self)
    refine ⟨h.1, ?_⟩
    rw [Function.update_of_ne hne]
    exact ih h.2 (fun hl => hx (List.mem_cons_of_mem _ hl))

namespace Links

/-- The place of a pointer: the head, or the next pointer of a cell. -/
def load (s : Links τ) : Option τ → Option τ
  | none => s.head
  | some t => s.next t

def store (s : Links τ) : Option τ → Option τ → Links τ
  | none, p => { s with head := p }
  | some t, p => { s with next := Function.update s.next t p }

/-- The walk over the places of the pointers that takes `x` out. -/
def unlink (x : τ) : ℕ → Links τ → Option τ → Links τ
  | 0, s, _ => s
  | fuel + 1, s, place =>
    match s.load place with
    | none => s
    | some t =>
      if t = x then (s.store place (s.next x)).store (some x) none
      else unlink x fuel s (some t)

/-- The walk from `t` to the last cell that all of `before` comes before. -/
def findPlace (before : τ → Bool) (s : Links τ) : ℕ → τ → τ
  | 0, t => t
  | fuel + 1, t =>
    match s.next t with
    | none => t
    | some u => if before u then findPlace before s fuel u else t

def push (s : Links τ) (x : τ) : Links τ :=
  { head := some x, next := Function.update s.next x s.head }

def insertAfter (s : Links τ) (x t : τ) : Links τ :=
  (s.store (some x) (s.next t)).store (some t) (some x)

variable {s : Links τ} {place : Option τ}

lemma load_store_self (p : Option τ) : (s.store place p).load place = p := by
  cases place with
  | none => rfl
  | some t => exact Function.update_self ..

lemma load_store_of_ne (h : q ≠ place) (p : Option τ) :
    (s.store place p).load q = s.load q := by
  cases place with
  | none =>
    cases q with
    | none => exact absurd rfl h
    | some u => rfl
  | some t =>
    cases q with
    | none => rfl
    | some u => exact Function.update_of_ne (fun heq => h (congrArg some heq)) _ _

lemma chain_store (h : Chain s.next p l) (hplace : ∀ t ∈ place, t ∉ l) (q : Option τ) :
    Chain (s.store place q).next p l := by
  cases place with
  | none => exact h
  | some t => exact h.update (hplace t rfl) q

/-- What `unlink` does to the chain from a place, and that it changes no place outside. -/
lemma unlink_spec {fuel : ℕ} (h : Chain s.next (s.load place) l) (hplace : ∀ t ∈ place, t ∉ l)
    (hfuel : l.length ≤ fuel) :
    Chain (unlink x fuel s place).next ((unlink x fuel s place).load place) (l.erase x) ∧
      ∀ q, q ≠ place → (∀ y ∈ q, y ∉ l) → (unlink x fuel s place).load q = s.load q := by
  induction l generalizing place fuel with
  | nil =>
    have hnone : unlink x fuel s place = s := by
      cases fuel with
      | zero => rfl
      | succ fuel =>
        have hload : s.load place = none := h
        rw [unlink, hload]
    rw [hnone]
    exact ⟨h, fun _ _ _ => rfl⟩
  | cons t l ih =>
    have hnodup := List.nodup_cons.mp h.nodup
    cases fuel with
    | zero => simp at hfuel
    | succ fuel =>
      have hne : ∀ y ∈ place, y ≠ t := fun y hy heq => hplace y hy (heq ▸ List.mem_cons_self)
      rw [unlink, h.1]
      by_cases htx : t = x
      · subst htx
        simp only [if_true, List.erase_cons_head]
        have hapart : place ≠ some t := fun heq => hne t heq rfl
        refine ⟨?_, ?_⟩
        · rw [load_store_of_ne hapart, load_store_self]
          apply chain_store
          · apply chain_store h.2
            intro y hy hyl
            exact hplace y hy (List.mem_cons_of_mem _ hyl)
          · intro y hy
            exact Option.some.inj hy ▸ hnodup.1
        · intro q hq hout
          have hqt : q ≠ some t := fun heq => hout t heq List.mem_cons_self
          rw [load_store_of_ne hqt, load_store_of_ne hq]
      · simp only [htx, if_false]
        have hfuel' : l.length ≤ fuel := by simpa using hfuel
        have hplace' : ∀ y ∈ some t, y ∉ l := fun y hy => Option.some.inj hy ▸ hnodup.1
        have htail : Chain s.next (s.load (some t)) l := h.2
        obtain ⟨hchain, hframe⟩ := ih htail hplace' hfuel'
        rw [List.erase_cons_tail (by simpa using htx)]
        refine ⟨⟨?_, hchain⟩, ?_⟩
        · rw [hframe place (fun heq => hne t heq rfl)
            (fun y hy hyl => hplace y hy (List.mem_cons_of_mem _ hyl))]
          exact h.1
        · intro q hq hout
          exact hframe q (fun heq => hout t heq List.mem_cons_self)
            (fun y hy hyl => hout y hy (List.mem_cons_of_mem _ hyl))

lemma chain_push (h : Chain s.next s.head l) (hx : x ∉ l) :
    Chain (s.push x).next (s.push x).head (x :: l) := by
  refine ⟨rfl, ?_⟩
  have hself : (s.push x).next x = s.head := Function.update_self ..
  rw [hself]
  exact h.update hx _

lemma chain_insertAfter (h : Chain s.next p (l ++ t :: l')) (hx : x ∉ l ++ t :: l') :
    Chain (s.insertAfter x t).next p (l ++ t :: x :: l') := by
  have hne : x ≠ t := fun heq => hx (heq ▸ by simp)
  induction l generalizing p with
  | nil =>
    have hnodup := (List.nodup_cons.mp h.nodup).1
    have ht : (s.insertAfter x t).next t = some x := Function.update_self ..
    have hxnext : (s.insertAfter x t).next x = s.next t :=
      (Function.update_of_ne hne _ _).trans (Function.update_self ..)
    refine ⟨h.1, ht, ?_⟩
    rw [hxnext]
    apply Chain.update _ hnodup
    exact h.2.update (fun hl => hx (List.mem_cons_of_mem _ hl)) _
  | cons y l ih =>
    have hyt : y ≠ t := fun heq => (List.nodup_cons.mp h.nodup).1 (heq ▸ by simp)
    have hyx : y ≠ x := fun heq => hx (heq ▸ List.mem_cons_self)
    have hy : (s.insertAfter x t).next y = s.next y :=
      (Function.update_of_ne hyt _ _).trans (Function.update_of_ne hyx _ _)
    refine ⟨h.1, ?_⟩
    rw [hy]
    exact ih h.2 (fun hl => hx (List.mem_cons_of_mem _ hl))

omit [DecidableEq τ] in
lemma findPlace_spec {before : τ → Bool} {fuel : ℕ} (h : Chain s.next p (t :: l))
    (hfuel : l.length ≤ fuel) : ∃ a, t :: l.takeWhile before =
      a ++ [findPlace before s fuel t] := by
  induction l generalizing p t fuel with
  | nil =>
    refine ⟨[], ?_⟩
    have hnone : s.next t = none := h.2
    cases fuel with
    | zero => rfl
    | succ fuel => rw [findPlace, hnone]; rfl
  | cons u l ih =>
    cases fuel with
    | zero => simp at hfuel
    | succ fuel =>
      rw [findPlace, h.2.1]
      by_cases hu : before u = true
      · have hfuel' : l.length ≤ fuel := by simpa using hfuel
        obtain ⟨a, ha⟩ := ih h.2 hfuel'
        refine ⟨t :: a, ?_⟩
        rw [List.takeWhile_cons_of_pos hu, ha]
        simp [hu]
      · refine ⟨[], ?_⟩
        rw [List.takeWhile_cons_of_neg hu]
        simp [hu]

/-- Walking to the place and inserting there. -/
lemma chain_insertAfter_findPlace {before : τ → Bool} {fuel : ℕ} (h : Chain s.next p (t :: l))
    (hx : x ∉ t :: l) (hfuel : l.length ≤ fuel) :
    Chain (s.insertAfter x (findPlace before s fuel t)).next p
      (t :: (l.takeWhile before ++ x :: l.dropWhile before)) := by
  obtain ⟨a, ha⟩ : ∃ a, t :: l.takeWhile before = a ++ [findPlace before s fuel t] :=
    findPlace_spec h hfuel
  have hsplit : t :: l = a ++ findPlace before s fuel t :: l.dropWhile before := by
    calc t :: l = t :: (l.takeWhile before ++ l.dropWhile before) := by
          rw [List.takeWhile_append_dropWhile]
      _ = (a ++ [findPlace before s fuel t]) ++ l.dropWhile before := by
          rw [← ha, List.cons_append]
      _ = a ++ findPlace before s fuel t :: l.dropWhile before := by simp
  rw [hsplit] at h hx
  have hchain := chain_insertAfter h hx
  have heq : t :: (l.takeWhile before ++ x :: l.dropWhile before) =
      a ++ findPlace before s fuel t :: x :: l.dropWhile before := by
    rw [← List.cons_append, ha]
    simp
  rw [heq]
  exact hchain

end Links

end RepRapFirmware.Library.LinkedList
