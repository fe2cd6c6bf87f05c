import Mathlib

/-! Motion in stretches of constant acceleration: cutting a stretch, adding two stretches, and
carrying out a stretch in parts. -/

namespace RepRapFirmware.Library.Superposition

structure Stretch (α : Type*) where
  start : α
  duration : α
  distance : α
  acceleration : α

variable {α : Type*} [Field α]

namespace Stretch

/-- The distance in the time `x` from the start. -/
def travelled (p : Stretch α) (x : α) : α :=
  (p.distance / p.duration - 1 / 2 * p.acceleration * p.duration + 1 / 2 * p.acceleration * x) * x

def first (p : Stretch α) (x : α) : Stretch α := ⟨p.start, x, p.travelled x, p.acceleration⟩

def second (p : Stretch α) (x : α) : Stretch α :=
  ⟨p.start + x, p.duration - x, p.distance - p.travelled x, p.acceleration⟩

def delay (p : Stretch α) (x : α) : Stretch α :=
  { p with start := p.start + x, duration := p.duration - x }

def shorten (p : Stretch α) (x : α) : Stretch α := { p with duration := p.duration - x }

def merge (p : Stretch α) (distance acceleration : α) : Stretch α :=
  { p with distance := p.distance + distance, acceleration := p.acceleration + acceleration }

def displacement [LinearOrder α] (p : Stretch α) (t : α) : α :=
  if t ≤ p.start then 0
  else if t ≤ p.start + p.duration then p.travelled (t - p.start) else p.distance

end Stretch

open Stretch

/-- Where a motion in several stretches is at the time `t`. -/
def position [LinearOrder α] (ps : List (Stretch α)) (t : α) : α :=
  (ps.map fun p => p.displacement t).sum

def total (ps : List (Stretch α)) : α := (ps.map Stretch.distance).sum

@[simp] lemma position_nil [LinearOrder α] (t : α) : position ([] : List (Stretch α)) t = 0 := rfl

@[simp] lemma position_cons [LinearOrder α] (p : Stretch α) (ps : List (Stretch α)) (t : α) :
    position (p :: ps) t = p.displacement t + position ps t := List.sum_cons

@[simp] lemma total_nil : total ([] : List (Stretch α)) = 0 := rfl

@[simp] lemma total_cons (p : Stretch α) (ps : List (Stretch α)) :
    total (p :: ps) = p.distance + total ps := List.sum_cons

lemma position_append [LinearOrder α] (ps qs : List (Stretch α)) (t : α) :
    position (ps ++ qs) t = position ps t + position qs t := by
  rw [position, List.map_append, List.sum_append]
  rfl

lemma total_append (ps qs : List (Stretch α)) : total (ps ++ qs) = total ps + total qs := by
  rw [total, List.map_append, List.sum_append]
  rfl

variable [LinearOrder α] [IsStrictOrderedRing α] {p : Stretch α} {x y : α}

lemma travelled_duration (h : p.duration ≠ 0) : p.travelled p.duration = p.distance := by
  rw [travelled]
  field_simp
  ring

lemma travelled_first (h : x ≠ 0) : (p.first x).travelled y = p.travelled y := by
  simp only [travelled, first]
  field_simp
  ring

lemma travelled_second (h : p.duration ≠ 0) (hx : p.duration - x ≠ 0) :
    (p.second x).travelled y = p.travelled (x + y) - p.travelled x := by
  simp only [travelled, second]
  field_simp
  ring

omit [IsStrictOrderedRing α] in
lemma displacement_before {t : α} (h : t ≤ p.start) : p.displacement t = 0 := if_pos h

omit [IsStrictOrderedRing α] in
lemma displacement_during {t : α} (hlow : p.start ≤ t) (hhigh : t ≤ p.start + p.duration) :
    p.displacement t = p.travelled (t - p.start) := by
  by_cases hle : t ≤ p.start
  · rw [displacement_before hle, le_antisymm hle hlow, sub_self, travelled, mul_zero]
  · exact (if_neg hle).trans (if_pos hhigh)

lemma displacement_after {t : α} (hpos : 0 < p.duration) (h : p.start + p.duration ≤ t) :
    p.displacement t = p.distance := by
  have hstart : ¬ t ≤ p.start := by
    rw [not_le]
    linarith
  rw [displacement, if_neg hstart]
  split
  · next hle =>
    have heq : t - p.start = p.duration := by linarith
    rw [heq, travelled_duration hpos.ne']
  · rfl

/-- Cutting a stretch does not change the motion. -/
lemma displacement_cut (hx : 0 < x) (hlt : x < p.duration) (t : α) :
    p.displacement t = (p.first x).displacement t + (p.second x).displacement t := by
  have hpos : 0 < p.duration := hx.trans hlt
  have hrest : 0 < (p.second x).duration := sub_pos.mpr hlt
  have hsecondStart : (p.second x).start = p.start + x := rfl
  have hsecondEnd : (p.second x).start + (p.second x).duration = p.start + p.duration := by
    rw [hsecondStart, second]
    ring
  rcases le_total t p.start with hbefore | hstarted
  · rw [displacement_before hbefore, displacement_before (p := p.first x) hbefore,
      displacement_before (by linarith), add_zero]
  · rcases le_total t (p.start + x) with hfirst | hcut
    · rw [displacement_during hstarted (by linarith),
        displacement_during (p := p.first x) hstarted hfirst, displacement_before hfirst,
        add_zero, travelled_first hx.ne']
      rfl
    · rw [displacement_after (p := p.first x) hx hcut]
      rcases le_total t (p.start + p.duration) with hduring | hended
      · rw [displacement_during hstarted hduring, displacement_during hcut (by linarith),
          travelled_second hpos.ne' hrest.ne', hsecondStart]
        change _ = p.travelled x + _
        rw [show x + (t - (p.start + x)) = t - p.start by ring]
        ring
      · rw [displacement_after hpos hended, displacement_after hrest (by linarith)]
        change _ = p.travelled x + (p.distance - p.travelled x)
        ring

omit [LinearOrder α] [IsStrictOrderedRing α] in
lemma distance_cut (p : Stretch α) (x : α) :
    p.distance = (p.first x).distance + (p.second x).distance := by
  change _ = p.travelled x + (p.distance - p.travelled x)
  ring

/-- Two stretches over the same time add up. -/
lemma displacement_merge (q : Stretch α) (hstart : q.start = p.start)
    (hduration : q.duration = p.duration) (t : α) :
    (p.merge q.distance q.acceleration).displacement t = p.displacement t + q.displacement t := by
  simp only [displacement, hstart, hduration]
  change (if t ≤ p.start then 0 else if t ≤ p.start + p.duration then _ else _) = _
  split
  · rw [add_zero]
  · split
    · simp only [travelled, merge, hduration]
      ring
    · rfl

/-- The stretches `rs` make the motions of `ps` and `qs` at once. -/
structure Superposed (ps qs rs : List (Stretch α)) : Prop where
  position : ∀ t, position rs t = position ps t + position qs t
  total : total rs = total ps + total qs

omit [IsStrictOrderedRing α] in
lemma superposed_nil (ps : List (Stretch α)) : Superposed ps [] ps :=
  ⟨fun t => by rw [position_nil, add_zero], by rw [total_nil, add_zero]⟩

omit [IsStrictOrderedRing α] in
lemma superposed_new (ps : List (Stretch α)) : Superposed [] ps ps :=
  ⟨fun t => by rw [position_nil, zero_add], by rw [total_nil, zero_add]⟩

lemma superposed_merge (p q : Stretch α) (hstart : q.start = p.start)
    (hduration : q.duration = p.duration) :
    Superposed [p] [q] [p.merge q.distance q.acceleration] := by
  refine ⟨fun t => ?_, ?_⟩
  · simp only [position_cons, position_nil, add_zero, displacement_merge q hstart hduration]
  · simp only [total_cons, total_nil, add_zero]
    rfl

omit [IsStrictOrderedRing α] in
lemma Superposed.append {ps qs rs ps' qs' rs' : List (Stretch α)} (h : Superposed ps qs rs)
    (h' : Superposed ps' qs' rs') : Superposed (ps ++ ps') (qs ++ qs') (rs ++ rs') := by
  refine ⟨fun t => ?_, ?_⟩
  · simp only [position_append, h.position, h'.position]
    ring
  · simp only [total_append, h.total, h'.total]
    ring

lemma Superposed.cut {ps qs rs : List (Stretch α)} (hx : 0 < x) (hlt : x < p.duration)
    (h : Superposed (p.first x :: p.second x :: ps) qs rs) : Superposed (p :: ps) qs rs := by
  refine ⟨fun t => ?_, ?_⟩
  · rw [h.position, position_cons, position_cons, position_cons, displacement_cut hx hlt]
    ring
  · rw [h.total, total_cons, total_cons, total_cons, distance_cut p x]
    ring

/-! ### Carrying out a stretch in parts -/

/-- The parts carry out the stretch: it is cut as often as needed, and every now and then the start
of what is left is delayed, or its end brought forward, by at most `limit`. The last list has the
sizes of these adjustments. -/
inductive Carried (limit : α) : Stretch α → List (Stretch α) → List α → Prop
  | whole (p : Stretch α) : Carried limit p [p] []
  | cut {p : Stretch α} {ps : List (Stretch α)} {adjustments : List α} (x : α) (hx : 0 < x)
      (hlt : x < p.duration) (hrest : Carried limit (p.second x) ps adjustments) :
      Carried limit p (p.first x :: ps) adjustments
  | delay {p : Stretch α} {ps : List (Stretch α)} {adjustments : List α} (x : α) (hx : 0 < x)
      (hle : x ≤ limit) (hlt : x < p.duration) (hrest : Carried limit (p.delay x) ps adjustments) :
      Carried limit p ps (x :: adjustments)
  | shorten (p : Stretch α) (x : α) (hx : 0 < x) (hle : x ≤ limit) (hlt : x < p.duration) :
      Carried limit p [p.shorten x] [x]

variable {limit : α} {ps : List (Stretch α)} {adjustments : List α}

omit [IsStrictOrderedRing α] in
lemma Carried.total (h : Carried limit p ps adjustments) : total ps = p.distance := by
  induction h with
  | whole p => rw [total_cons, total_nil, add_zero]
  | @cut p ps adjustments x hx hlt hrest ih => rw [total_cons, ih, ← distance_cut]
  | delay x hx hle hlt hrest ih => exact ih
  | shorten p x hx hle hlt => rw [total_cons, total_nil, add_zero, Stretch.shorten]

/-- Without adjustments the parts make the same motion. -/
lemma Carried.position_eq (h : Carried limit p ps []) (t : α) : position ps t = p.displacement t :=
    by
  generalize hadjustments : ([] : List α) = adjustments at h
  induction h with
  | whole p => rw [position_cons, position_nil, add_zero]
  | cut x hx hlt hrest ih => rw [position_cons, ih hadjustments, ← displacement_cut hx hlt]
  | delay x hx hle hlt hrest ih => exact absurd hadjustments nofun
  | shorten p x hx hle hlt => exact absurd hadjustments nofun

end RepRapFirmware.Library.Superposition
