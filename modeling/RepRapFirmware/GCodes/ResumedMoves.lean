import RepRapFirmware.GCodes.ReadMove

/-! What is delivered of a straight move,
  of one that is not interrupted and of one that is paused after
one of its segments and resumed from there. -/

namespace RepRapFirmware.GCodes

open MovementState AffineMap

variable {ι κ : Type*} {reachable : (ι → ℚ) → Bool}

/-! ### The segments that are delivered -/

/-- A move as it is set up: from `x` to `e` in `N` segments that extrude `u` each, of which the
last `K`
are wanted, without the part `f` of the first of them. -/
structure Setup (ι κ : Type*) where
  x : ι → ℚ
  e : ι → ℚ
  u : κ → ℚ
  N : ℕ
  K : ℕ
  f : ℚ
  checkEndstops : Bool

namespace Setup

variable (p : Setup ι κ) {n : ℕ} {ms : MovementState ι κ}

def position (j : ℕ) : ι → ℚ := lineMap p.x p.e ((j : ℚ) / p.N)

def segment (j : ℕ) : RawMove ι κ where
  coords := p.position (j + 1)
  extrusion := fun b => if p.N - j = p.K then p.u b * (1 - p.f) else p.u b
  proportionDone := (j + 1 : ℕ) / p.N
  canPauseAfter := !p.checkEndstops
  checkEndstops := p.checkEndstops

/-- The segments delivered when `n` are left. -/
def delivered : ℕ → List (RawMove ι κ)
  | 0 => []
  | n + 1 => if n ≠ 0 ∧ p.K < n + 1 then delivered n else p.segment (p.N - (n + 1)) :: delivered n

/-- The state with `n` segments left. -/
structure Holds (ms : MovementState ι κ) (n : ℕ) : Prop where
  coords : ms.coords = p.e
  extrusion : ms.extrusion = p.u
  canPauseAfter : ms.canPauseAfter = !p.checkEndstops
  checkEndstops : ms.checkEndstops = p.checkEndstops
  initialCoords : ms.initialCoords = p.position (p.N - n)
  total : ms.totalSegments = p.N
  startAt : ms.segmentsLeftToStartAt = p.K
  skip : ms.firstSegmentFractionToSkip = p.f

def Ready (ms : MovementState ι κ) (n : ℕ) : Prop :=
  ms.segmentsLeft = n ∧ (0 < n → p.Holds ms n)

variable {p}

lemma position_last (hN : 0 < p.N) : p.position p.N = p.e := by
  have hne : (p.N : ℚ) ≠ 0 := Nat.cast_ne_zero.mpr hN.ne'
  rw [position, div_self hne, lineMap_apply_one]

/-- The position that the code computes from the one before. -/
lemma position_next (hn : 0 < n) (hN : n ≤ p.N) (a : ι) :
    p.position (p.N - n) a + (p.e a - p.position (p.N - n) a) / n = p.position (p.N - n + 1) a := by
  have hne : (p.N : ℚ) ≠ 0 := Nat.cast_ne_zero.mpr (by omega)
  have hn0 : (n : ℚ) ≠ 0 := Nat.cast_ne_zero.mpr hn.ne'
  simp only [position, lineMap_apply_module', Pi.add_apply, Pi.smul_apply, Pi.sub_apply,
    smul_eq_mul]
  push_cast [hN]
  field_simp
  ring

/-- A segment that is delivered when `k` are left, with what was extruded before the pause left
out. -/
lemma Holds.delivers (h : p.Holds ms n) {k j : ℕ} (hk : p.N - j = k) {m : RawMove ι κ} {q : ℚ}
    (hcoords : m.coords = p.position (j + 1)) (hextrusion : m.extrusion = p.u)
    (hpause : m.canPauseAfter = !p.checkEndstops) (hcheck : m.checkEndstops = p.checkEndstops)
    (hq : q = (j + 1 : ℕ) / p.N) :
    { (if ms.segmentsLeftToStartAt = k ∧ ms.firstSegmentFractionToSkip ≠ 0 then
        skipFirst ms.firstSegmentFractionToSkip m else m) with proportionDone := q } =
          p.segment j := by
  rw [segment, ← hcoords, ← hpause, ← hcheck, ← hextrusion, hq, hk, h.startAt, h.skip]
  by_cases hK : k = p.K
  · by_cases hf : p.f = 0
    · rw [if_neg (fun h => h.2 hf), hf]
      simp only [sub_zero, mul_one, ite_self]
    · rw [if_pos ⟨hK.symm, hf⟩]
      simp only [if_pos hK]
      rfl
  · rw [if_neg (fun h => hK h.1.symm)]
    simp only [if_neg hK]

lemma readLoop_ready (hn : n + 1 ≤ p.N) (hready : p.Ready ms (n + 1))
    (hreach : ∀ j ≤ p.N, reachable (p.position j) = true) :
    ∃ m ms' n', readLoop reachable (n + 1) ms = (some m, ms') ∧
      p.delivered (n + 1) = m :: p.delivered n' ∧ n' ≤ n ∧ p.Ready ms' n' := by
  induction n generalizing ms with
  | zero =>
    obtain ⟨hleft, hholds⟩ := hready
    have h := hholds Nat.zero_lt_one
    have hlast : p.N - 1 + 1 = p.N := by omega
    refine ⟨p.segment (p.N - 1), ms.clearMove, 0, ?_, ?_, le_rfl, rfl,
      fun h0 => absurd h0 (lt_irrefl 0)⟩
    · rw [readLoop, if_pos hleft]
      simp only [Prod.mk.injEq, Option.some.injEq, and_true]
      apply h.delivers (by omega) _ h.extrusion h.canPauseAfter h.checkEndstops
      · have hne : (p.N : ℚ) ≠ 0 := Nat.cast_ne_zero.mpr (by omega)
        rw [hlast, div_self hne]
      · rw [hlast, position_last (by omega)]
        exact h.coords
    · simp [delivered]
  | succ n ih =>
    obtain ⟨hleft, hholds⟩ := hready
    have h := hholds (Nat.succ_pos _)
    have hnext : (fun a => ms.initialCoords a + (ms.coords a - ms.initialCoords a) /
      ms.segmentsLeft) =
        p.position (p.N - (n + 1)) := by
      funext a
      have hstep := position_next (Nat.succ_pos (n + 1)) hn a
      rw [show p.N - (n + 1).succ + 1 = p.N - (n + 1) by omega] at hstep
      rw [h.initialCoords, h.coords, hleft, ← hstep]
    have hholds' : p.Holds { ms with
        initialCoords := p.position (p.N - (n + 1)), segmentsLeft :=
          ms.segmentsLeft - 1 } (n + 1) :=
      { h with initialCoords := rfl }
    have hleft' : ms.segmentsLeft - 1 = n + 1 := by omega
    rw [readLoop, if_neg (by omega)]
    simp only [hnext]
    by_cases hskip : ms.segmentsLeftToStartAt < ms.segmentsLeft
    · rw [if_pos hskip]
      obtain ⟨m, ms', n', hread, hdelivered, hle, hready'⟩ :=
        ih (by omega) ⟨hleft', fun _ => hholds'⟩
      refine ⟨m, ms', n', hread, ?_, by omega, hready'⟩
      rw [delivered, if_pos ⟨Nat.succ_ne_zero n, by rw [← h.startAt]; omega⟩, hdelivered]
    · rw [if_neg hskip, hreach _ (Nat.sub_le _ _)]
      simp only [Bool.not_true, Bool.false_eq_true, if_false]
      refine ⟨p.segment (p.N - (n + 2)), _, n + 1, ?_, ?_, le_rfl, hleft', fun _ => hholds'⟩
      · simp only [Prod.mk.injEq, Option.some.injEq, and_true]
        refine h.delivers (k := ms.segmentsLeft) (j := p.N - (n + 2))
          (m := { ms.toRawMove with coords := p.position (p.N - (n + 1)) })
          (by omega) ?_ h.extrusion
          h.canPauseAfter h.checkEndstops ?_
        · simp only
          congr 1
          omega
        · rw [getProportionDone]
          simp only [h.total, hleft']
          congr 2
          omega
      · rw [delivered, if_neg (fun hc => hskip (by rw [h.startAt]; omega))]

/-- All that is delivered, however often the movement task asks. -/
lemma readMoves_ready {fuel : ℕ} (hn : n ≤ p.N) (hfuel : n ≤ fuel) (hready : p.Ready ms n)
    (hreach : ∀ j ≤ p.N, reachable (p.position j) = true) :
    readMoves reachable fuel ms = p.delivered n := by
  induction fuel generalizing n ms with
  | zero =>
    obtain rfl : n = 0 := by omega
    rfl
  | succ fuel ih =>
    cases n with
    | zero => rw [readMoves, readMove, if_pos hready.1]; rfl
    | succ n =>
      obtain ⟨m, ms', n', hread, hdelivered, hle, hready'⟩ := readLoop_ready hn hready hreach
      have hleft : ms.segmentsLeft ≠ 0 := by rw [hready.1]; exact Nat.succ_ne_zero n
      rw [readMoves, readMove, if_neg hleft, hready.1, hread, hdelivered]
      exact congrArg (m :: ·) (ih (by omega) (by omega) hready')

lemma delivered_eq (hn : 0 < n) (hN : n ≤ p.N) : p.delivered n =
    (List.range' (p.N - min n (max p.K 1)) (min n (max p.K 1))).map p.segment := by
  induction n with
  | zero => exact absurd hn (lt_irrefl 0)
  | succ n ih =>
    rw [delivered]
    split
    · rename_i hskip
      rw [ih (by omega) (by omega), show min (n + 1) (max p.K 1) = min n (max p.K 1) by omega]
    · rename_i hwanted
      have hmin : min (n + 1) (max p.K 1) = n + 1 := by omega
      rw [hmin, List.range'_succ, List.map_cons]
      rcases Nat.eq_zero_or_pos n with rfl | hpos
      · rfl
      · rw [ih hpos (by omega), show min n (max p.K 1) = n by omega,
          show p.N - (n + 1) + 1 = p.N - n by omega]

lemma delivered_all (hN : 0 < p.N) (hK : p.K ≤ p.N) : p.delivered p.N =
    (List.range' (p.N - max p.K 1) (max p.K 1)).map p.segment := by
  rw [delivered_eq hN le_rfl, Nat.min_eq_right (by omega)]

end Setup

/-- The number of segments of a move that are wanted when a part of it was done. -/
def wanted (N : ℕ) (skip : ℚ) : ℕ := if 1 < N then N - ⌊(N : ℚ) * skip⌋₊ else N

/-- The part of the first of them that was done. -/
def partDone (N : ℕ) (skip : ℚ) : ℚ := if 1 < N then skip * N - ⌊(N : ℚ) * skip⌋₊ else skip

/-- The setup of a straight move. -/
def straight (ms : MovementState ι κ) (e : ι → ℚ) (E : κ → ℚ) (N : ℕ) : Setup ι κ where
  x := ms.coords
  e := e
  u := fun b => E b / N
  N := N
  K := wanted N ms.moveFractionToSkip
  f := partDone N ms.moveFractionToSkip
  checkEndstops := ms.checkEndstops

lemma ready_doStraightMove (ms : MovementState ι κ) (e : ι → ℚ) (E : κ → ℚ) {N : ℕ} (hN : 0 < N)
    (hobject : ms.currentObjectCancelled = false) :
    (straight ms e E N).Ready (doStraightMove e E N ms) N := by
  have hstart : ms.coords = (straight ms e E N).position (N - N) := by
    rw [Setup.position, Nat.sub_self, Nat.cast_zero, zero_div, lineMap_apply_zero]
    rfl
  rw [doStraightMove, finaliseMove]
  simp only [hobject, Bool.false_eq_true, if_false]
  by_cases hone : 1 < N
  · by_cases hskip : ms.moveFractionToSkip = 0
    · simp only [if_pos hone, hskip, ne_eq, not_true_eq_false, if_false]
      refine ⟨rfl, fun _ => ⟨rfl, rfl, rfl, rfl, hstart, rfl, ?_, ?_⟩⟩
      · simp [newMoveAvailable, straight, wanted, hone, hskip]
      · simp [newMoveAvailable, straight, partDone, hone, hskip]
    · simp only [if_pos hone, ne_eq, hskip, not_false_eq_true, if_true]
      refine ⟨rfl, fun _ => ⟨rfl, rfl, rfl, rfl, hstart, rfl, ?_, ?_⟩⟩
      · simp [newMoveAvailable, straight, wanted, hone]
      · simp [newMoveAvailable, straight, partDone, hone]
  · obtain rfl : N = 1 := by omega
    simp only [if_neg hone]
    refine ⟨rfl, fun _ => ⟨rfl, ?_, rfl, rfl, hstart, rfl, ?_, ?_⟩⟩
    · funext b
      simp [newMoveAvailable, straight]
    · simp [newMoveAvailable, straight, wanted]
    · simp [newMoveAvailable, straight, partDone]

lemma wanted_le (N : ℕ) (skip : ℚ) : wanted N skip ≤ N := by
  rw [wanted]
  split
  · exact Nat.sub_le _ _
  · exact le_rfl

/-- What is delivered of a straight move. -/
lemma readMoves_straight (ms : MovementState ι κ) (e : ι → ℚ) (E : κ → ℚ) {N fuel : ℕ} (hN : 0 < N)
    (hfuel : N ≤ fuel) (hobject : ms.currentObjectCancelled = false)
    (hreach : ∀ j ≤ N, reachable (lineMap ms.coords e ((j : ℚ) / N)) = true) :
    readMoves reachable fuel (doStraightMove e E N ms) =
      (List.range' (N - max (wanted N ms.moveFractionToSkip) 1)
        (max (wanted N ms.moveFractionToSkip) 1)).map (straight ms e E N).segment := by
  have hready := ready_doStraightMove ms e E hN hobject
  rw [(straight ms e E N).readMoves_ready le_rfl hfuel hready hreach]
  exact Setup.delivered_all hN (wanted_le N _)

/-! ### What is to be conserved -/

/-- The end points lie in order on the line from `s` to `e`, and the last one is `e`. -/
def OnLine (s e : ι → ℚ) (ms : List (RawMove ι κ)) : Prop :=
  (∃ ts : List ℚ, ms.map (·.coords) = ts.map (lineMap s e) ∧ ts.Pairwise (· ≤ ·) ∧
    ∀ t ∈ ts, 0 ≤ t ∧ t ≤ 1) ∧ (ms.getLast?).map (·.coords) = some e

def totalExtrusion (ms : List (RawMove ι κ)) (b : κ) : ℚ := (ms.map (·.extrusion b)).sum

/-- Every segment, the first one from `x` on, extrudes in proportion to the way it goes, as `E` is
to the
way from `s` to `e`. -/
def Proportional (s e : ι → ℚ) (E : κ → ℚ) : (ι → ℚ) → List (RawMove ι κ) → Prop
  | _, [] => True
  | x, m :: ms => (∀ a b, m.extrusion b * (e a - s a) = E b * (m.coords a - x a)) ∧
      Proportional s e E m.coords ms

/-- A move that is resumed: the segments before the pause and those after it. -/
structure Conserved (s e : ι → ℚ) (E : κ → ℚ) (ms : List (RawMove ι κ)) : Prop where
  last : (ms.getLast?).map (·.coords) = some e
  extrusion : totalExtrusion ms = E
  proportional : Proportional s e E s ms

section Conservation

variable {s e x : ι → ℚ} {E : κ → ℚ} {l r : List (RawMove ι κ)} {m : RawMove ι κ} {a n : ℕ}

lemma totalExtrusion_append (b : κ) :
    totalExtrusion (l ++ r) b = totalExtrusion l b + totalExtrusion r b := by
  rw [totalExtrusion, List.map_append, List.sum_append]
  rfl

lemma totalExtrusion_const {g : ℕ → RawMove ι κ} {c : ℚ} {b : κ}
    (h : ∀ j ∈ List.range' a n, (g j).extrusion b = c) :
    totalExtrusion ((List.range' a n).map g) b = n * c := by
  have hmap : (List.range' a n).map (fun j => (g j).extrusion b) = List.replicate n c := by
    rw [List.eq_replicate_iff]
    refine ⟨by rw [List.length_map, List.length_range'], fun d hd => ?_⟩
    obtain ⟨j, hj, rfl⟩ := List.mem_map.mp hd
    exact h j hj
  rw [totalExtrusion, List.map_map]
  change ((List.range' a n).map fun j => (g j).extrusion b).sum = _
  rw [hmap, List.sum_replicate, nsmul_eq_mul]

lemma proportional_append (hm : l.getLast? = some m) :
    Proportional s e E x (l ++ r) ↔ Proportional s e E x l ∧ Proportional s e E m.coords r := by
  induction l generalizing x with
  | nil => cases hm
  | cons d l ih =>
    cases l with
    | nil =>
      obtain rfl : d = m := by simpa using hm
      simp [Proportional]
    | cons d' l =>
      have hlast : (d' :: l).getLast? = some m := by simpa using hm
      change _ ∧ Proportional s e E d.coords (d' :: l ++ r) ↔ (_ ∧ _) ∧ _
      rw [ih hlast, and_assoc]

/-- Segments at equal distances. -/
lemma proportional_range {g : ℕ → RawMove ι κ} {position : ℕ → ι → ℚ}
    (hcoords : ∀ j, (g j).coords = position (j + 1))
    (h : ∀ j ∈ List.range' a n, ∀ d b,
      (g j).extrusion b * (e d - s d) = E b * (position (j + 1) d - position j d)) :
    Proportional s e E (position a) ((List.range' a n).map g) := by
  induction n generalizing a with
  | zero => trivial
  | succ n ih =>
    rw [List.range'_succ, List.map_cons]
    rw [List.range'_succ] at h
    refine ⟨fun d b => ?_, ?_⟩
    · rw [hcoords]
      exact h a List.mem_cons_self d b
    · rw [hcoords]
      exact ih fun j hj => h j (List.mem_cons_of_mem a hj)

/-- Nothing is extruded. -/
lemma proportional_none (hE : E = 0) (hl : ∀ m ∈ l, m.extrusion = 0) : Proportional s e E x l := by
  induction l generalizing x with
  | nil => trivial
  | cons m l ih =>
    refine ⟨fun d b => ?_, ih fun m' hm' => hl m' (List.mem_cons_of_mem m hm')⟩
    rw [hl m List.mem_cons_self, hE, Pi.zero_apply, zero_mul, zero_mul]

/-- Nothing moves. -/
lemma proportional_still (hse : s = e) (hl : ∀ m ∈ l, m.coords = x) : Proportional s e E x l := by
  induction l with
  | nil => trivial
  | cons m l ih =>
    have hm := hl m List.mem_cons_self
    refine ⟨fun d b => ?_, ?_⟩
    · rw [hm, hse, sub_self, sub_self, mul_zero, mul_zero]
    · rw [hm]
      exact ih fun m' hm' => hl m' (List.mem_cons_of_mem m hm')

lemma last_range {g : ℕ → RawMove ι κ} (hn : 0 < n) :
    ((List.range' a n).map g).getLast? = some (g (a + n - 1)) := by
  obtain ⟨n, rfl⟩ : ∃ k, n = k + 1 := ⟨n - 1, by omega⟩
  rw [List.range'_concat, List.map_append, List.map_singleton, List.getLast?_concat]
  congr 2
  omega

end Conservation

/-! ### A move from its start -/

section Whole

variable {s e : ι → ℚ} {E : κ → ℚ} {N fuel i : ℕ} {ms : MovementState ι κ} {m : RawMove ι κ}

/-- A state in which a move may begin at `s`. -/
structure Idle (ms : MovementState ι κ) (s : ι → ℚ) : Prop where
  coords : ms.coords = s
  object : ms.currentObjectCancelled = false

lemma segment_whole (hskip : ms.moveFractionToSkip = 0) (j : ℕ) (b : κ) :
    ((straight ms e E N).segment j).extrusion b = E b / N := by
  have hpart : partDone N (0 : ℚ) = 0 := by simp [partDone]
  simp [Setup.segment, straight, hskip, hpart]

lemma readMoves_whole (reachable : (ι → ℚ) → Bool) (hN : 0 < N) (hfuel : N ≤ fuel) (hms : Idle ms s)
    (hskip : ms.moveFractionToSkip = 0)
    (hreach : ∀ j ≤ N, reachable (lineMap s e ((j : ℚ) / N)) = true) :
    readMoves reachable fuel (doStraightMove e E N ms) =
      (List.range' 0 N).map (straight ms e E N).segment := by
  have hwanted : wanted N (0 : ℚ) = N := by simp [wanted]
  rw [← hms.coords] at hreach
  rw [readMoves_straight ms e E hN hfuel hms.object hreach, hskip, hwanted, Nat.max_eq_left hN,
    Nat.sub_self]

lemma onLine_whole (hN : 0 < N) (hms : Idle ms s) :
    OnLine s e ((List.range' 0 N).map (straight ms e E N).segment) := by
  have hpos : (0 : ℚ) < N := Nat.cast_pos.mpr hN
  refine ⟨⟨(List.range' 0 N).map fun j => ((j + 1 : ℕ) : ℚ) / N, ?_, ?_, ?_⟩, ?_⟩
  · rw [List.map_map, List.map_map, ← hms.coords]
    rfl
  · rw [List.pairwise_map]
    apply (List.pairwise_lt_range' (s := 0) (n := N)).imp
    intro j k hjk
    gcongr
  · intro t ht
    obtain ⟨j, hj, rfl⟩ := List.mem_map.mp ht
    obtain ⟨k, hk, rfl⟩ := List.mem_range'.mp hj
    refine ⟨by positivity, ?_⟩
    rw [div_le_one hpos]
    exact_mod_cast (by omega : 0 + 1 * k + 1 ≤ N)
  · rw [last_range hN, Option.map_some, Setup.segment, Nat.zero_add, Nat.sub_add_cancel hN]
    exact congrArg some (Setup.position_last (p := straight ms e E N) hN)

lemma extrusion_whole (hN : 0 < N) (hskip : ms.moveFractionToSkip = 0) :
    totalExtrusion ((List.range' 0 N).map (straight ms e E N).segment) = E := by
  funext b
  have hne : (N : ℚ) ≠ 0 := Nat.cast_ne_zero.mpr hN.ne'
  rw [totalExtrusion_const (g := (straight ms e E N).segment) fun j _ => segment_whole hskip j b,
    mul_div_cancel₀ _ hne]

/-- The segments before a pause, when `i` were delivered. -/
lemma before_pause (hN : 0 < N) (hi : 0 < i) (hiN : i ≤ N) (hms : Idle ms s)
    (hskip : ms.moveFractionToSkip = 0) :
    let before := ((List.range' 0 N).map (straight ms e E N).segment).take i
    (∀ b, totalExtrusion before b = i / N * E b) ∧ Proportional s e E s before ∧
      before.getLast?.map (·.coords) = some (lineMap s e ((i : ℚ) / N)) := by
  have hne : (N : ℚ) ≠ 0 := Nat.cast_ne_zero.mpr hN.ne'
  have htake : ((List.range' 0 N).map (straight ms e E N).segment).take i =
      (List.range' 0 i).map (straight ms e E N).segment := by
    rw [← List.map_take, List.take_range'_of_length_ge hiN]
  simp only [htake]
  refine ⟨fun b => ?_, ?_, ?_⟩
  · rw [totalExtrusion_const (g := (straight ms e E N).segment) fun j _ => segment_whole hskip j b]
    ring
  · have hstart : s = (straight ms e E N).position 0 := by
      rw [Setup.position, Nat.cast_zero, zero_div, lineMap_apply_zero]
      exact hms.coords.symm
    nth_rewrite 2 [hstart]
    apply proportional_range fun j => rfl
    intro j _ d b
    rw [segment_whole hskip]
    simp only [Setup.position, straight, hms.coords, lineMap_apply_module', Pi.add_apply,
      Pi.smul_apply, Pi.sub_apply, smul_eq_mul]
    push_cast
    field_simp
    ring
  · rw [last_range hi, Option.map_some, Setup.segment, Setup.position, Nat.zero_add,
      Nat.sub_add_cancel hi]
    simp only [straight, hms.coords]

end Whole

/-! ### The rest of a move that was paused -/

section Rest

variable {s e q : ι → ℚ} {E : κ → ℚ} {N N' fuel i : ℕ} {P : ℚ} {ms : MovementState ι κ}

lemma resumeAfterPause_idle (hms : Idle ms q) : Idle (resumeAfterPause P ms) q := ⟨hms.coords,
    hms.object⟩

lemma readMoves_rest (hN' : 0 < N') (hfuel : N' ≤ fuel) (hms : Idle ms q)
    (hreach : ∀ j ≤ N', reachable (lineMap q e ((j : ℚ) / N')) = true) :
    readMoves reachable fuel (doStraightMove e E N' (resumeAfterPause P ms)) =
      (List.range' (N' - max (wanted N' P) 1) (max (wanted N' P) 1)).map
        (straight (resumeAfterPause P ms) e E N').segment := by
  have hidle := resumeAfterPause_idle (P := P) hms
  rw [← hidle.coords] at hreach
  exact readMoves_straight (resumeAfterPause P ms) e E hN' hfuel hidle.object hreach

/-- When a part of the move is left, the segments wanted and the part of the first one make up what
is
left. -/
lemma wanted_part (hN' : 0 < N') (h0 : 0 ≤ P) (h1 : P < 1) : ∃ k : ℕ, k < N' ∧
    wanted N' P = N' - k ∧ partDone N' P = P * N' - k ∧ (k : ℚ) ≤ N' * P ∧ (N' : ℚ) * P < k + 1 :=
      by
  have hpos : (0 : ℚ) < N' := Nat.cast_pos.mpr hN'
  have hnonneg : 0 ≤ (N' : ℚ) * P := by positivity
  refine ⟨⌊(N' : ℚ) * P⌋₊, ?_, ?_, ?_, Nat.floor_le hnonneg, Nat.lt_floor_add_one _⟩
  · rw [Nat.floor_lt hnonneg]
    nlinarith
  · rw [wanted]
    split
    · rfl
    · obtain rfl : N' = 1 := by omega
      have hfloor : ⌊((1 : ℕ) : ℚ) * P⌋₊ = 0 := by
        rw [Nat.floor_eq_zero]
        simpa using h1
      rw [hfloor]
  · rw [partDone]
    split
    · rfl
    · obtain rfl : N' = 1 := by omega
      have hfloor : ⌊((1 : ℕ) : ℚ) * P⌋₊ = 0 := by
        rw [Nat.floor_eq_zero]
        simpa using h1
      rw [hfloor]
      simp

/-- The way of a segment of the rest, as a part of the whole way. -/
lemma rest_way (hq : q = lineMap s e P) (ms : MovementState ι κ) (hms : Idle ms q) (hN' : 0 < N')
    (E : κ → ℚ) (j : ℕ) (d : ι) :
    (straight (resumeAfterPause P ms) e E N').position j d =
    s d + (P + (1 - P) * (j / N')) * (e d - s d) := by
  have hne : (N' : ℚ) ≠ 0 := Nat.cast_ne_zero.mpr hN'.ne'
  have hcoords : (resumeAfterPause P ms).coords = q := hms.coords
  simp only [Setup.position, straight, hcoords, hq, lineMap_apply_module', Pi.add_apply,
    Pi.smul_apply, Pi.sub_apply, smul_eq_mul]
  ring

lemma rest_last (hN' : 0 < N') {K : ℕ} (hK : 0 < K) (hKN : K ≤ N') :
    (((List.range' (N' - K) K).map
      (straight (resumeAfterPause P ms) e E N').segment).getLast?).map (·.coords) = some e := by
  rw [last_range hK, Option.map_some, Setup.segment, show N' - K + K - 1 + 1 = N' by omega]
  exact congrArg some (Setup.position_last (p := straight (resumeAfterPause P ms) e E N') hN')

/-- What the rest extrudes when a part of the move is left. -/
lemma rest_extrusion (hN' : 0 < N') (h0 : 0 ≤ P) (h1 : P < 1) (b : κ) :
    totalExtrusion ((List.range' (N' - wanted N' P) (wanted N' P)).map
      (straight (resumeAfterPause P ms) e E N').segment) b = (1 - P) * E b := by
  have hne : (N' : ℚ) ≠ 0 := Nat.cast_ne_zero.mpr hN'.ne'
  obtain ⟨k, hk, hwanted, hpart, -, -⟩ := wanted_part hN' h0 h1
  obtain ⟨K, hK⟩ : ∃ K, wanted N' P = K + 1 := ⟨wanted N' P - 1, by omega⟩
  have hfirst : ((straight (resumeAfterPause P ms) e E N').segment (N' - (K + 1))).extrusion b =
      E b / N' * (1 - (P * N' - k)) := by
    simp only [Setup.segment, straight, resumeAfterPause, hpart, hK]
    rw [if_pos (by omega)]
  have hothers : ∀ j ∈ List.range' (N' - (K + 1) + 1) K,
      ((straight (resumeAfterPause P ms) e E N').segment j).extrusion b = E b / N' := by
    intro j hj
    obtain ⟨i, hi, rfl⟩ := List.mem_range'.mp hj
    simp only [Setup.segment, straight, resumeAfterPause, hK]
    rw [if_neg (by omega)]
  have hcount : (K : ℚ) = N' - k - 1 := by
    have hsum : K + k + 1 = N' := by omega
    rw [← hsum]
    push_cast
    ring
  rw [hK, List.range'_succ, List.map_cons]
  change totalExtrusion ([_] ++ _) b = _
  rw [totalExtrusion_append, totalExtrusion_const hothers]
  simp only [totalExtrusion, List.map_singleton, List.sum_singleton, hfirst, hcount]
  field_simp
  ring

lemma rest_none (hE : E = 0) {a n : ℕ} (m : RawMove ι κ)
    (hm : m ∈ (List.range' a n).map (straight (resumeAfterPause P ms) e E N').segment) :
    m.extrusion = 0 := by
  obtain ⟨j, -, rfl⟩ := List.mem_map.mp hm
  funext b
  simp [Setup.segment, straight, hE]

lemma rest_still (hq : q = lineMap s e P) (hms : Idle ms q) (hN' : 0 < N') (hse : s = e)
    {a n : ℕ} (m : RawMove ι κ)
    (hm : m ∈ (List.range' a n).map (straight (resumeAfterPause P ms) e E N').segment) :
    m.coords = q := by
  obtain ⟨j, -, rfl⟩ := List.mem_map.mp hm
  funext d
  have hway := rest_way hq ms hms hN' E (j + 1) d
  rw [hse, sub_self, mul_zero, add_zero] at hway
  rw [hq, hse, lineMap_same_apply]
  exact hway

/-- The rest is extruded in proportion only if it is a single segment, or there is nothing to
extrude or
no way to go. -/
lemma rest_proportional (hq : q = lineMap s e P) (hms : Idle ms q) (hN' : 0 < N') (h0 : 0 < P) (h1
    : P < 1) :
    Proportional s e E q ((List.range' (N' - wanted N' P) (wanted N' P)).map
      (straight (resumeAfterPause P ms) e E N').segment) ↔ E = 0 ∨ s = e ∨ (N' : ℚ) * (1 - P) ≤ 1 :=
      by
  have hne : (N' : ℚ) ≠ 0 := Nat.cast_ne_zero.mpr hN'.ne'
  obtain ⟨k, hk, hwanted, hpart, hle, hlt⟩ := wanted_part hN' h0.le h1
  obtain ⟨K, hK⟩ : ∃ K, wanted N' P = K + 1 := ⟨wanted N' P - 1, by omega⟩
  have hfirst : ∀ b, ((straight (resumeAfterPause P ms) e E N').segment (N' - (K + 1))).extrusion b
    =
      E b / N' * (1 - (P * N' - k)) := by
    intro b
    simp only [Setup.segment, straight, resumeAfterPause, hpart, hK]
    rw [if_pos (by omega)]
  have hway : ∀ d, ((straight (resumeAfterPause P ms) e E N').segment (N' - (K + 1))).coords d - q
    d =
      (1 - P) * ((k + 1) / N') * (e d - s d) := by
    intro d
    have hposition := rest_way hq ms hms hN' E (N' - (K + 1) + 1) d
    have hstart : q d = s d + P * (e d - s d) := by
      simp only [hq, lineMap_apply_module', Pi.add_apply, Pi.smul_apply, Pi.sub_apply, smul_eq_mul]
      ring
    rw [show N' - (K + 1) + 1 = k + 1 by omega] at hposition
    change (straight (resumeAfterPause P ms) e E N').position (N' - (K + 1) + 1) d - q d = _
    rw [show N' - (K + 1) + 1 = k + 1 by omega, hposition, hstart]
    push_cast
    ring
  constructor
  · intro hall
    by_contra hcond
    rw [not_or, not_or, not_le] at hcond
    obtain ⟨hE, hse, hmore⟩ := hcond
    obtain ⟨b, hb⟩ := Function.ne_iff.mp hE
    obtain ⟨d, hd⟩ := Function.ne_iff.mp hse
    rw [hK, List.range'_succ, List.map_cons] at hall
    have hhead := hall.1 d b
    rw [hfirst, hway] at hhead
    have hd' : e d - s d ≠ 0 := sub_ne_zero.mpr (Ne.symm hd)
    have hcancel : P * ((k : ℚ) + 1 - N') = 0 := by
      have hb' : E b ≠ 0 := hb
      have hinv : (N' : ℚ) * (N' : ℚ)⁻¹ = 1 := mul_inv_cancel₀ hne
      have hfactor : E b * (e d - s d) * (P * ((k : ℚ) + 1 - N')) = 0 := by
        linear_combination (N' : ℚ) * hhead - E b * (e d - s d) * (P * ((k : ℚ) + 1 - N')) * hinv
      exact (mul_eq_zero.mp hfactor).resolve_left (mul_ne_zero hb' hd')
    have hlast : (k : ℚ) + 1 = N' := by
      rcases mul_eq_zero.mp hcancel with h | h
      · exact absurd h h0.ne'
      · linarith
    nlinarith
  · rintro (hE | hse | hone)
    · exact proportional_none hE (rest_none hE)
    · exact proportional_still hse (rest_still hq hms hN' hse)
    · have hkN : N' ≤ k + 1 := by
        have hcast : (N' : ℚ) < (k + 1 : ℕ) + 1 := by
          push_cast
          linarith
        exact Nat.lt_succ_iff.mp (by exact_mod_cast hcast)
      obtain rfl : K = 0 := by omega
      have hlast : (k : ℚ) + 1 = N' := by exact_mod_cast (show k + 1 = N' by omega)
      rw [hK, List.range'_one, List.map_singleton]
      refine ⟨fun d b => ?_, trivial⟩
      rw [hfirst, hway, ← hlast]
      have hk1 : (k : ℚ) + 1 ≠ 0 := by rw [hlast]; exact hne
      field_simp
      ring

end Rest

/-- Whether what is extruded stays in proportion when a move of `N` segments is resumed after `i` of
them in `N'` segments. -/
def ResumesWell (s e : ι → ℚ) (E : κ → ℚ) (N i N' : ℕ) : Prop :=
  E = 0 ∨ if i = N then N' = 1 else s = e ∨ N' * (N - i) ≤ N

section Resumed

variable {s e q : ι → ℚ} {E : κ → ℚ} {N N' i : ℕ} {P : ℚ} {ms ms' : MovementState ι κ}

/-- Both runs together, in terms of the rest. -/
lemma conserved_iff (hN : 0 < N) (hi : 0 < i) (hiN : i ≤ N) (hms : Idle ms s)
    (hskip : ms.moveFractionToSkip = 0) {rest : List (RawMove ι κ)} (hne : rest ≠ [])
    (hlast : rest.getLast?.map (·.coords) = some e) :
    Conserved s e E (((List.range' 0 N).map (straight ms e E N).segment).take i ++ rest) ↔
      (∀ b, totalExtrusion rest b = (1 - i / N) * E b) ∧
        Proportional s e E (lineMap s e ((i : ℚ) / N)) rest := by
  obtain ⟨hextruded, hprop, hend⟩ := before_pause (e := e) (E := E) hN hi hiN hms hskip
  generalize ((List.range' 0 N).map (straight ms e E N).segment).take i = before
    at hextruded hprop hend ⊢
  obtain ⟨m, hm, hcoords⟩ := Option.map_eq_some_iff.mp hend
  constructor
  · rintro ⟨-, htotal, hall⟩
    refine ⟨fun b => ?_, ?_⟩
    · have hb := congrFun htotal b
      rw [totalExtrusion_append, hextruded] at hb
      linear_combination hb
    · rw [← hcoords]
      exact ((proportional_append hm).mp hall).2
  · rintro ⟨hextrusion, hrest⟩
    refine ⟨?_, ?_, ?_⟩
    · rw [List.getLast?_append_of_ne_nil _ hne]
      exact hlast
    · funext b
      rw [totalExtrusion_append, hextruded, hextrusion]
      ring
    · rw [← hcoords] at hrest
      exact (proportional_append hm).mpr ⟨hprop, hrest⟩

/-- When the whole move was done, there must be nothing to deliver but the end. -/
lemma rest_done (ms : MovementState ι κ) (hq : q = e) (hN' : 0 < N') :
    let rest := (List.range' (N' - max (wanted N' 1) 1) (max (wanted N' 1) 1)).map
      (straight (resumeAfterPause 1 ms) e E N').segment
    ((∀ b, totalExtrusion rest b = 0) ∧ Proportional s e E q rest) ↔ E = 0 ∨ N' = 1 := by
  by_cases hone : N' = 1
  · subst hone
    have hwanted : wanted 1 (1 : ℚ) = 1 := by simp [wanted]
    have hpart : partDone 1 (1 : ℚ) = 1 := by simp [partDone]
    have hextrusion : ∀ b, ((straight (resumeAfterPause 1 ms) e E 1).segment 0).extrusion b = 0 :=
        by
      intro b
      simp [Setup.segment, straight, resumeAfterPause, hwanted, hpart]
    have hend : ((straight (resumeAfterPause 1 ms) e E 1).segment 0).coords = e :=
      Setup.position_last (p := straight (resumeAfterPause 1 ms) e E 1) Nat.one_pos
    simp only [hwanted, Nat.max_self, Nat.sub_self, List.range'_one, List.map_singleton]
    refine iff_of_true ⟨fun b => ?_, fun d b => ?_, trivial⟩ (.inr trivial)
    · simp [totalExtrusion, hextrusion]
    · rw [hextrusion, hend, hq, sub_self, zero_mul, mul_zero]
  · have hwanted : wanted N' (1 : ℚ) = 0 := by
      rw [wanted, if_pos (by omega), mul_one, Nat.floor_natCast, Nat.sub_self]
    have hne : (N' : ℚ) ≠ 0 := Nat.cast_ne_zero.mpr hN'.ne'
    have hextrusion : ∀ b,
        ((straight (resumeAfterPause 1 ms) e E N').segment (N' - 1)).extrusion b = E b / N' := by
      intro b
      simp only [Setup.segment, straight, resumeAfterPause, hwanted]
      rw [if_neg (by omega)]
    simp only [hwanted, Nat.max_eq_right (Nat.zero_le 1), hone, or_false]
    constructor
    · rintro ⟨htotal, -⟩
      funext b
      have hb := htotal b
      simp only [List.range'_one, List.map_singleton, totalExtrusion, List.sum_singleton,
        hextrusion] at hb
      exact (div_eq_zero_iff.mp hb).resolve_right hne
    · intro hE
      refine ⟨fun b => ?_, proportional_none hE (rest_none hE)⟩
      simp only [List.range'_one, List.map_singleton, totalExtrusion, List.sum_singleton,
        hextrusion]
      rw [hE, Pi.zero_apply, zero_div]

/-- What the two runs conserve. -/
lemma conserved_resumed (reachable : (ι → ℚ) → Bool) {fuel' j : ℕ} {m : RawMove ι κ} (hN : 0 < N)
    (hms : Idle ms s)
    (hskip : ms.moveFractionToSkip = 0)
    (hm : ((List.range' 0 N).map (straight ms e E N).segment)[j]? = some m) (hN' : 0 < N')
    (hfuel' : N' ≤ fuel') (hms' : Idle ms' m.coords)
    (hreach' : ∀ k ≤ N', reachable (lineMap m.coords e ((k : ℚ) / N')) = true) :
    Conserved s e E (((List.range' 0 N).map (straight ms e E N).segment).take (j + 1) ++
      readMoves reachable fuel' (doStraightMove e E N' (resumeAfterPause m.proportionDone ms'))) ↔
        ResumesWell s e E N (j + 1) N' := by
  obtain ⟨hj, rfl⟩ : j < N ∧ m = (straight ms e E N).segment j := by
    rw [List.getElem?_map, Option.map_eq_some_iff] at hm
    obtain ⟨k, hk, rfl⟩ := hm
    obtain ⟨hlt, rfl⟩ := List.getElem?_eq_some_iff.mp hk
    rw [List.length_range'] at hlt
    simp [hlt]
  have hpos : (0 : ℚ) < N := Nat.cast_pos.mpr hN
  have hq : ((straight ms e E N).segment j).coords = lineMap s e (((j + 1 : ℕ) : ℚ) / N) := by
    rw [← hms.coords]
    rfl
  have hP : ((straight ms e E N).segment j).proportionDone = ((j + 1 : ℕ) : ℚ) / N := rfl
  rw [readMoves_rest hN' hfuel' hms' hreach', hP]
  have hK : max (wanted N' (((j + 1 : ℕ) : ℚ) / N)) 1 ≤ N' := max_le (wanted_le _ _) hN'
  have hKpos : 0 < max (wanted N' (((j + 1 : ℕ) : ℚ) / N)) 1 := by omega
  rw [conserved_iff hN (Nat.succ_pos j) hj hms hskip _ (rest_last hN' hKpos hK)]
  · rcases Nat.eq_or_lt_of_le (show j + 1 ≤ N from hj) with hall | hpart
    · -- the whole move was done
      have hone : ((j + 1 : ℕ) : ℚ) / N = 1 := by rw [hall, div_self hpos.ne']
      have hend : lineMap s e (1 : ℚ) = e := lineMap_apply_one s e
      rw [hq, hone] at hms'
      have hdone := rest_done (s := s) (E := E) ms' hend hN'
      rw [hone, ResumesWell, if_pos hall]
      simp only [sub_self, zero_mul]
      exact hdone
    · have hlt : ((j + 1 : ℕ) : ℚ) / N < 1 := by
        rw [div_lt_one hpos]
        exact_mod_cast hpart
      have h0 : 0 < ((j + 1 : ℕ) : ℚ) / N := by positivity
      have hwanted : max (wanted N' (((j + 1 : ℕ) : ℚ) / N)) 1 = wanted N' (((j + 1 : ℕ)
          : ℚ) / N) := by
        obtain ⟨k, hk, hw, -⟩ := wanted_part hN' h0.le hlt
        omega
      have hcond : (N' : ℚ) * (1 - ((j + 1 : ℕ) : ℚ) / N) ≤ 1 ↔ N' * (N - (j + 1)) ≤ N := by
        rw [← Nat.cast_le (α := ℚ), Nat.cast_mul, Nat.cast_sub hpart.le,
          ← mul_le_mul_iff_left₀ hpos]
        rw [one_mul, mul_assoc, sub_mul, div_mul_cancel₀ _ hpos.ne', one_mul]
      rw [hq] at hms'
      rw [hwanted, rest_proportional rfl hms' hN' h0 hlt, ResumesWell, if_neg hpart.ne, hcond]
      exact and_iff_right fun b => rest_extrusion hN' h0.le hlt b
  · rw [ne_eq, List.map_eq_nil_iff, List.range'_eq_nil_iff]
    omega

end Resumed

/-- A straight move is delivered whole, and in order, from its start; when it is paused after a
segment
and resumed from there, what is extruded stays in proportion only if the rest is a single segment.
  -/
theorem straight_move_conserved (reachable : (ι → ℚ) → Bool) (s e : ι → ℚ) (E : κ → ℚ) {N fuel
    : ℕ} (ms : MovementState ι κ)
    (hN : 0 < N) (hfuel : N ≤ fuel) (hms : Idle ms s) (hskip : ms.moveFractionToSkip = 0)
    (hreach : ∀ j ≤ N, reachable (lineMap s e ((j : ℚ) / N)) = true) :
    let first := readMoves reachable fuel (doStraightMove e E N ms)
    OnLine s e first ∧ totalExtrusion first = E ∧
      ∀ (j : ℕ) (m : RawMove ι κ), first[j]? = some m →
        ∀ (N' fuel' : ℕ) (ms' : MovementState ι κ), 0 < N' → N' ≤ fuel' → Idle ms' m.coords →
          (∀ k ≤ N', reachable (lineMap m.coords e ((k : ℚ) / N')) = true) →
            (Conserved s e E (first.take (j + 1) ++ readMoves reachable fuel'
              (doStraightMove e E N' (resumeAfterPause m.proportionDone ms'))) ↔
                ResumesWell s e E N (j + 1) N') := by
  have hwhole := readMoves_whole (E := E) reachable hN hfuel hms hskip hreach
  simp only [hwhole]
  refine ⟨onLine_whole hN hms, extrusion_whole hN hskip, ?_⟩
  intro j m hm N' fuel' ms' hN' hfuel' hms' hreach'
  exact conserved_resumed reachable hN hms hskip hm hN' hfuel' hms' hreach'

/-- A machine with one axis and one extruder, at rest. -/
def atRest (x skip : ℚ) : MovementState Unit Unit where
  coords _ := x
  extrusion _ := 0
  proportionDone := 0
  canPauseAfter := true
  checkEndstops := false
  initialCoords _ := x
  segmentsLeft := 0
  totalSegments := 0
  segmentsLeftToStartAt := 0
  moveFractionToSkip := skip
  firstSegmentFractionToSkip := 0
  segMoveState := .inactive
  currentObjectCancelled := false

def hundred (x : Unit → ℚ) (N : ℕ) (skip : ℚ) : List (RawMove Unit Unit) :=
  readMoves (fun _ => true) N
    (doStraightMove (fun _ => 100) (fun _ => 4) N (resumeAfterPause skip (atRest (x ()) 0)))

theorem straight_move_conserved_halves : ∃ m, (hundred 0 2 0)[0]? = some m ∧
    Conserved 0 (fun _ => 100) (fun _ => 4)
      ((hundred 0 2 0).take 1 ++ hundred m.coords 1 m.proportionDone) := by
  refine ⟨_, rfl, ?_⟩
  have hwhole := straight_move_conserved (fun _ => true) 0 (fun _ => 100) (fun _ => 4)
    (resumeAfterPause 0 (atRest 0 0)) (by decide : 0 < 2) (by decide : 2 ≤ 2) ⟨rfl, rfl⟩ rfl
    fun _ _ => rfl
  refine (hwhole.2.2 0 _ rfl 1 1 (atRest _ 0) (by decide) le_rfl ⟨rfl, rfl⟩ fun _ _ => rfl).mpr ?_
  right
  rw [if_neg (by decide)]
  right
  decide

theorem straight_move_conserved_quarter : ¬ ∀ (s e : Unit → ℚ) (E : Unit → ℚ) (N fuel : ℕ)
    (ms : MovementState Unit Unit), 0 < N → N ≤ fuel → Idle ms s → ms.moveFractionToSkip = 0 →
      ∀ (j : ℕ) (m : RawMove Unit Unit),
        (readMoves (fun _ => true) fuel (doStraightMove e E N ms))[j]? = some m →
          ∀ (N' fuel' : ℕ) (ms' : MovementState Unit Unit), 0 < N' → N' ≤ fuel' →
            Idle ms' m.coords →
            Conserved s e E ((readMoves (fun _ => true) fuel (doStraightMove e E N ms)).take (j +
              1) ++
              readMoves (fun _ => true) fuel' (doStraightMove e E N'
                (resumeAfterPause m.proportionDone ms'))) := by
  intro h
  have hms : Idle (atRest 0 0) 0 := ⟨rfl, rfl⟩
  have hwhole := readMoves_whole (e := fun _ => 100) (E := fun _ => 4) (fun _ => true)
    (by decide : 0 < 4) le_rfl hms rfl fun _ _ => rfl
  have hm : ((List.range' 0 4).map (straight (atRest 0 0) (fun _ => 100)
    (fun _ => 4) 4).segment)[0]? =
      some ((straight (atRest 0 0) (fun _ => 100) (fun _ => 4) 4).segment 0) := by
    rw [List.getElem?_map]
    rfl
  generalize (straight (atRest 0 0) (fun _ => 100) (fun _ => 4) 4).segment 0 = m at hm
  have hms' : Idle (atRest (m.coords ()) 0) m.coords := ⟨rfl, rfl⟩
  have hconserved := h 0 (fun _ => 100) (fun _ => 4) 4 4 (atRest 0 0) (by decide) le_rfl hms rfl 0 m
    (by rw [hwhole]; exact hm) 4 4 _ (by decide) le_rfl hms'
  rw [hwhole, conserved_resumed (fun _ => true) (by decide) hms rfl hm (by decide) le_rfl hms'
    fun _ _ => rfl] at hconserved
  rcases hconserved with hzero | hone
  · exact absurd (congrFun hzero ()) (by norm_num)
  · rw [if_neg (by decide)] at hone
    rcases hone with hstill | hlast
    · exact absurd (congrFun hstill ()) (by norm_num)
    · omega

end RepRapFirmware.GCodes
