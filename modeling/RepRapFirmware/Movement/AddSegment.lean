import Mathlib
import RepRapFirmware.Library.Superposition
import RepRapFirmware.Movement.MoveSegment

/-! Adding a segment to a list of segments adds its motion to the motion of the list. -/

namespace RepRapFirmware.Movement.Segments

open RepRapFirmware.Library.Superposition RepRapFirmware.Library.Ticks MoveSegment

/-! ### Times in a window -/

/-- The time of `x` in a window that starts at `base`. -/
def ticks (base x : UInt32) : ℕ := (x - base).toNat

section Ticks

variable {base x y d : UInt32} {z : ℤ}

lemma signedDiff_ticks (hx : ticks base x < 2 ^ 31) (hy : ticks base y < 2 ^ 31) :
    signedDiff x y = (ticks base x : ℤ) - ticks base y := by
  rw [ticks, UInt32.toNat_sub] at *
  rw [ticks, UInt32.toNat_sub] at *
  have := x.toNat_lt
  have := y.toNat_lt
  have := base.toNat_lt
  rw [signedDiff_eq]
  split_ifs <;> omega

lemma ticks_add (h : ticks base x + d.toNat < 2 ^ 32) :
    ticks base (x + d) = ticks base x + d.toNat := by
  have := x.toNat_lt
  have := d.toNat_lt
  have := base.toNat_lt
  rw [ticks, UInt32.toNat_sub] at h
  rw [ticks, ticks, UInt32.toNat_sub, UInt32.toNat_sub, UInt32.toNat_add]
  omega

lemma toInt_toInt32 (h : d.toNat < 2 ^ 31) : d.toInt32.toInt = d.toNat := by
  change d.toBitVec.toInt = _
  rw [BitVec.toInt_eq_toNat_cond, UInt32.toNat_toBitVec, if_pos (by omega)]

lemma signedDiff_of_lt (hx : x.toNat < 2 ^ 31) (hy : y.toNat < 2 ^ 31) :
    signedDiff x y = (x.toNat : ℤ) - y.toNat := by
  rw [signedDiff_eq]
  split_ifs <;> omega

lemma toNat_sub (h : y.toNat ≤ x.toNat) : (x - y).toNat = x.toNat - y.toNat :=
  UInt32.toNat_sub_of_le x y (UInt32.le_iff_toNat_le.mpr h)

lemma toNat_sub_of_ticks (h : ticks base y ≤ ticks base x) (hlt : ticks base x < 2 ^ 31) :
    (x - y).toNat = ticks base x - ticks base y := by
  rw [ticks, UInt32.toNat_sub] at *
  rw [ticks, UInt32.toNat_sub] at *
  rw [UInt32.toNat_sub]
  have := x.toNat_lt
  have := y.toNat_lt
  have := base.toNat_lt
  omega

lemma toNat_ofInt (h : 0 ≤ z) (hlt : z < 2 ^ 32) : (UInt32.ofInt z).toNat = z.toNat := by
  rw [UInt32.ofInt, UInt32.toNat_ofNat', Int.emod_eq_of_lt h hlt, Nat.mod_eq_of_lt]
  omega

end Ticks

variable {α : Type} [Field α] {base : UInt32} {seg new : MoveSegment α}

/-- The motion of a segment, in times of the window. -/
def MoveSegment.stretch (base : UInt32) (seg : MoveSegment α) : Stretch α :=
  ⟨ticks base seg.startTime, seg.duration.toNat, seg.distance, seg.a⟩

def MoveSegment.endTime (base : UInt32) (seg : MoveSegment α) : ℕ :=
  ticks base seg.startTime + seg.duration.toNat

/-- The segments lie in the window one after another, from the time `low` on. -/
def Placed (base : UInt32) : ℕ → List (MoveSegment α) → Prop
  | _, [] => True
  | low, seg :: list => low ≤ ticks base seg.startTime ∧ 0 < seg.duration.toNat ∧
      seg.endTime base < 2 ^ 31 ∧ Placed base (seg.endTime base) list

def clocks (adjusting : List Adjusting) : List α :=
  adjusting.map fun j => (j.before.toNat : α) - j.after.toNat

variable [LinearOrder α]

/-- What remains to be carried out of the new segment when a part of it has been added as `parts`.
-/
def Carries (base : UInt32) (new : MoveSegment α) (left : Option (MoveSegment α))
    (parts : List (Stretch α)) (adjustments : List α) : Prop :=
  match left with
  | none => Carried 10 (new.stretch base) parts adjustments
  | some new' => ∀ ps ks, Carried 10 (new'.stretch base) ps ks →
      Carried 10 (new.stretch base) (parts ++ ps) (adjustments ++ ks)

/-- Dealing with the segment `seg`: the segments in its place, and what is left of the new one. -/
structure Adds (base : UInt32) (low : ℕ) (seg new : MoveSegment α) (met : Met α) : Prop where
  placed : ∀ list, Placed base (seg.endTime base) list → Placed base low (met.segments ++ list)
  left : ∀ new' ∈ met.left, seg.endTime base ≤ ticks base new'.startTime ∧
    0 < new'.duration.toNat ∧ new'.endTime base ≤ new.endTime base
  parts : ∃ ps, Superposed [seg.stretch base] ps (met.segments.map (stretch base)) ∧
    Carries base new met.left ps (clocks met.adjusting)

omit [LinearOrder α] in
lemma overlap_before (before : List (MoveSegment α)) (seg new : MoveSegment α) :
    overlap before seg new =
      { overlap [] seg new with segments := before ++ (overlap [] seg new).segments } := by
  simp only [overlap]
  split_ifs <;> rfl

variable [IsStrictOrderedRing α]

omit [LinearOrder α] [IsStrictOrderedRing α] in
lemma stretch_split_second {d : UInt32} (hlt : d.toNat ≤ seg.duration.toNat)
    (hend : seg.endTime base < 2 ^ 31) :
    (seg.split d).2.stretch base = (seg.stretch base).second d.toNat := by
  have hstart : ticks base (seg.startTime + d) = ticks base seg.startTime + d.toNat := by
    apply ticks_add
    rw [endTime] at hend
    omega
  have hduration : (seg.duration - d).toNat = seg.duration.toNat - d.toNat := toNat_sub hlt
  simp only [MoveSegment.stretch, split, Stretch.second, hstart, hduration, Nat.cast_add,
    Nat.cast_sub hlt]
  rfl

omit [LinearOrder α] [IsStrictOrderedRing α] in
lemma endTime_split_second {d : UInt32} (hlt : d.toNat ≤ seg.duration.toNat)
    (hend : seg.endTime base < 2 ^ 31) : (seg.split d).2.endTime base = seg.endTime base := by
  have hstart : ticks base (seg.startTime + d) = ticks base seg.startTime + d.toNat := by
    apply ticks_add
    rw [endTime] at hend
    omega
  have hduration : (seg.duration - d).toNat = seg.duration.toNat - d.toNat := toNat_sub hlt
  simp only [endTime, split, hstart, hduration]
  omega

lemma merge_superposed (seg new : MoveSegment α)
    (hstart : ticks base new.startTime = ticks base seg.startTime)
    (hduration : new.duration.toNat = seg.duration.toNat) :
    Superposed [seg.stretch base] [new.stretch base]
      [(seg.merge new.distance new.a new.flags).stretch base] := by
  apply superposed_merge (seg.stretch base) (new.stretch base)
  · exact congrArg Nat.cast hstart
  · exact congrArg Nat.cast hduration

/-- Where the new segment goes on after `seg`. -/
lemma overlap_longer {low : ℕ} (hlow : low ≤ ticks base seg.startTime)
    (hstart : ticks base new.startTime = ticks base seg.startTime)
    (hseg : 0 < seg.duration.toNat) (hsegEnd : seg.endTime base < 2 ^ 31)
    (hnewEnd : new.endTime base < 2 ^ 31) (hlonger : seg.duration.toNat < new.duration.toNat) :
    Adds base low seg new
      ⟨[seg.merge (new.firstDistance seg.duration) new.a new.flags],
        some (new.split seg.duration).2, []⟩ := by
  refine ⟨fun list hlist => ⟨hlow, hseg, hsegEnd, hlist⟩, ?_, [(new.stretch base).first
    seg.duration.toNat], ?_, ?_⟩
  · intro new' hnew'
    rw [← Option.mem_some.mp hnew']
    have hend := endTime_split_second hlonger.le hnewEnd
    have hrest : (new.split seg.duration).2.duration.toNat =
        new.duration.toNat - seg.duration.toNat := toNat_sub hlonger.le
    refine ⟨?_, by omega, hend.le⟩
    rw [endTime] at hend ⊢
    rw [endTime] at hend
    omega
  · exact merge_superposed seg (new.split seg.duration).1 hstart rfl
  · intro ps ks hrest
    apply Carried.cut _ (Nat.cast_pos.mpr hseg) (Nat.cast_lt.mpr hlonger)
    rwa [← stretch_split_second hlonger.le hnewEnd]

/-- Where `seg` goes on after the new segment. -/
lemma overlap_shorter {low : ℕ} (hlow : low ≤ ticks base seg.startTime)
    (hstart : ticks base new.startTime = ticks base seg.startTime)
    (hnew : 0 < new.duration.toNat) (hsegEnd : seg.endTime base < 2 ^ 31)
    (hshorter : new.duration.toNat < seg.duration.toNat) :
    Adds base low seg new
      ⟨[(seg.split new.duration).1.merge new.distance new.a new.flags, (seg.split new.duration).2],
        none, []⟩ := by
  have hend := endTime_split_second hshorter.le hsegEnd
  have hrest : (seg.split new.duration).2.duration.toNat =
      seg.duration.toNat - new.duration.toNat := toNat_sub hshorter.le
  refine ⟨fun list hlist => ⟨hlow, hnew, ?_, ?_, ?_, ?_, ?_⟩, fun _ h => absurd h (by simp),
    [new.stretch base], ?_, .whole _⟩
  · change ticks base seg.startTime + new.duration.toNat < 2 ^ 31
    rw [endTime] at hsegEnd
    omega
  · have hcut : ticks base (seg.split new.duration).2.startTime =
        ticks base seg.startTime + new.duration.toNat := by
      rw [endTime] at hend
      rw [endTime] at hend
      omega
    exact hcut.ge
  · omega
  · rwa [hend]
  · rwa [hend]
  · have hcut : (new.duration.toNat : α) < (seg.stretch base).duration :=
      Nat.cast_lt.mpr hshorter
    apply Superposed.cut (Nat.cast_pos.mpr hnew) hcut
    rw [← stretch_split_second hshorter.le hsegEnd]
    exact (merge_superposed (seg.split new.duration).1 new hstart rfl).append
      (superposed_nil [(seg.split new.duration).2.stretch base])

/-- Where both end together, the new segment having been shortened or not. -/
lemma overlap_same {low : ℕ} (hlow : low ≤ ticks base seg.startTime)
    (hstart : ticks base new.startTime = ticks base seg.startTime)
    (hseg : 0 < seg.duration.toNat) (hsegEnd : seg.endTime base < 2 ^ 31) {adjusting
    : List Adjusting}
    (hcarried : Carried 10 (new.stretch base)
      [{ new with duration := seg.duration }.stretch base] (clocks adjusting)) :
    Adds base low seg new ⟨[seg.merge new.distance new.a new.flags], none, adjusting⟩ := by
  refine ⟨fun _ hlist => ⟨hlow, hseg, hsegEnd, hlist⟩, fun _ h => absurd h (by simp), _, ?_,
    hcarried⟩
  exact merge_superposed seg { new with duration := seg.duration } hstart rfl

lemma shorten_carried {duration : UInt32} {k : ℕ} (hk : 0 < k) (hle : k ≤ 10)
    (hlt : k < new.duration.toNat) (hduration : duration.toNat = new.duration.toNat - k) :
    Carried 10 (new.stretch base) [{ new with duration := duration }.stretch base]
      (clocks [⟨new.duration, duration⟩]) := by
  have hcast : (duration.toNat : α) = new.duration.toNat - k := by
    rw [hduration, Nat.cast_sub hlt.le]
  have hstretch : { new with duration := duration }.stretch base =
      (new.stretch base).shorten (k : α) := by
    simp only [MoveSegment.stretch, Stretch.shorten, hcast]
  have hclocks : clocks [⟨new.duration, duration⟩] = [(k : α)] := by
    simp only [clocks, List.map_cons, List.map_nil, hcast, sub_sub_cancel]
  rw [hstretch, hclocks]
  exact .shorten _ _ (Nat.cast_pos.mpr hk) (by exact_mod_cast hle) (Nat.cast_lt.mpr hlt)

lemma overlap_adds {low : ℕ} (hlow : low ≤ ticks base seg.startTime)
    (hstart : ticks base new.startTime = ticks base seg.startTime)
    (hseg : 0 < seg.duration.toNat) (hnew : 0 < new.duration.toNat)
    (hsegEnd : seg.endTime base < 2 ^ 31) (hnewEnd : new.endTime base < 2 ^ 31) :
    Adds base low seg new (overlap [] seg new) := by
  have hsegLt : seg.duration.toNat < 2 ^ 31 := by
    rw [endTime] at hsegEnd
    omega
  have hnewLt : new.duration.toNat < 2 ^ 31 := by
    rw [endTime] at hnewEnd
    omega
  have hdiff : signedDiff new.duration seg.duration =
      (new.duration.toNat : ℤ) - seg.duration.toNat := signedDiff_of_lt hnewLt hsegLt
  by_cases hadjust : signedDiff new.duration seg.duration > 0 ∧
      signedDiff new.duration seg.duration ≤ minDuration ∧ canAdjust new
  · have hshorten : shorten seg new = _ := if_pos hadjust
    obtain ⟨hpos, hle, hcan⟩ := hadjust
    rw [minDuration] at hle
    have hduration : new.duration - UInt32.ofInt (signedDiff new.duration seg.duration) =
        seg.duration := by
      apply UInt32.toNat_inj.mp
      rw [toNat_sub, toNat_ofInt] <;> (try rw [toNat_ofInt]) <;> omega
    rw [hduration] at hshorten
    simp only [overlap, hshorten]
    apply overlap_same hlow hstart hseg hsegEnd
    apply shorten_carried (k := new.duration.toNat - seg.duration.toNat) <;> omega
  · have hshorten : shorten seg new = _ := if_neg hadjust
    simp only [overlap, hshorten, hdiff]
    rcases lt_trichotomy new.duration.toNat seg.duration.toNat with hlt | heq | hgt
    · rw [if_neg (by omega), if_pos (by omega)]
      exact overlap_shorter hlow hstart hnew hsegEnd hlt
    · rw [if_neg (by omega), if_neg (by omega)]
      apply overlap_same hlow hstart hseg hsegEnd
      rw [show seg.duration = new.duration from UInt32.toNat_inj.mp heq.symm]
      exact .whole _
    · rw [if_pos (by omega)]
      have hrest : UInt32.ofInt ((new.duration.toNat : ℤ) - seg.duration.toNat) =
          new.duration - seg.duration := by
        apply UInt32.toNat_inj.mp
        rw [toNat_sub hgt.le, toNat_ofInt] <;> omega
      rw [hrest]
      exact overlap_longer hlow hstart hseg hsegEnd hnewEnd hgt

/-- The new segment, delayed and shortened. -/
def MoveSegment.delayed (new : MoveSegment α) (d : UInt32) : MoveSegment α :=
  { new with startTime := new.startTime + d, duration := new.duration - d }

section Delayed

variable {d : UInt32}

omit [Field α] [LinearOrder α] [IsStrictOrderedRing α] in
lemma ticks_delayed (hlt : d.toNat ≤ new.duration.toNat) (hend : new.endTime base < 2 ^ 31) :
    ticks base (new.delayed d).startTime = ticks base new.startTime + d.toNat := by
  apply ticks_add
  rw [endTime] at hend
  omega

omit [Field α] [LinearOrder α] [IsStrictOrderedRing α] in
lemma endTime_delayed (hlt : d.toNat ≤ new.duration.toNat) (hend : new.endTime base < 2 ^ 31) :
    (new.delayed d).endTime base = new.endTime base := by
  have hduration : (new.delayed d).duration.toNat = new.duration.toNat - d.toNat := toNat_sub hlt
  rw [endTime, endTime, ticks_delayed hlt hend, hduration]
  omega

omit [LinearOrder α] [IsStrictOrderedRing α] in
lemma stretch_delayed (hlt : d.toNat ≤ new.duration.toNat) (hend : new.endTime base < 2 ^ 31) :
    (new.delayed d).stretch base = (new.stretch base).delay d.toNat := by
  have hduration : (new.delayed d).duration.toNat = new.duration.toNat - d.toNat := toNat_sub hlt
  simp only [MoveSegment.stretch, Stretch.delay, ticks_delayed hlt hend, hduration, Nat.cast_add,
    Nat.cast_sub hlt]
  rfl

omit [LinearOrder α] [IsStrictOrderedRing α] in
lemma clocks_delayed (hlt : d.toNat ≤ new.duration.toNat) (adjusting : List Adjusting) :
    clocks (⟨new.duration, new.duration - d⟩ :: adjusting) = (d.toNat : α) :: clocks adjusting := by
  simp only [clocks, List.map_cons, toNat_sub hlt, Nat.cast_sub hlt, sub_sub_cancel]

lemma carried_delayed {ps : List (Stretch α)} {ks : List α} (hpos : 0 < d.toNat)
    (hle : d.toNat ≤ 10) (hlt : d.toNat < new.duration.toNat) (hend : new.endTime base < 2 ^ 31)
    (h : Carried 10 ((new.delayed d).stretch base) ps ks) :
    Carried 10 (new.stretch base) ps ((d.toNat : α) :: ks) := by
  rw [stretch_delayed hlt.le hend] at h
  exact .delay _ (Nat.cast_pos.mpr hpos) (by exact_mod_cast hle) (Nat.cast_lt.mpr hlt) h

end Delayed

omit [Field α] [LinearOrder α] [IsStrictOrderedRing α] in
lemma canAdjust_le (h : canAdjust new = true) : 100 ≤ new.duration.toNat := by
  have hge := of_decide_eq_true h
  rw [minDuration] at hge
  omega

/-- The first part of `seg` stays in front. -/
lemma Adds.after_split {low : ℕ} {d : UInt32} {met : Met α} (hlow : low ≤ ticks base seg.startTime)
    (hpos : 0 < d.toNat) (hlt : d.toNat < seg.duration.toNat) (hend : seg.endTime base < 2 ^ 31)
    (h : Adds base (ticks base seg.startTime + d.toNat) (seg.split d).2 new met) :
    Adds base low seg new { met with segments := (seg.split d).1 :: met.segments } := by
  have hsecond := endTime_split_second hlt.le hend
  obtain ⟨ps, hsuperposed, hcarries⟩ := h.parts
  refine ⟨fun list hlist => ⟨hlow, hpos, ?_, ?_⟩, ?_, ps, ?_, hcarries⟩
  · change ticks base seg.startTime + d.toNat < 2 ^ 31
    rw [endTime] at hend
    omega
  · apply h.placed
    rwa [hsecond]
  · rw [← hsecond]
    exact h.left
  · have hcut : (d.toNat : α) < (seg.stretch base).duration := Nat.cast_lt.mpr hlt
    apply Superposed.cut (Nat.cast_pos.mpr hpos) hcut
    rw [← stretch_split_second hlt.le hend]
    exact (superposed_nil [(seg.split d).1.stretch base]).append hsuperposed

lemma meet_adds {low : ℕ} {offset : ℤ} (hlow : low ≤ ticks base seg.startTime)
    (hoffset : offset = (ticks base new.startTime : ℤ) - ticks base seg.startTime)
    (hafter : ticks base seg.startTime ≤ ticks base new.startTime)
    (hseg : 0 < seg.duration.toNat) (hnew : 0 < new.duration.toNat)
    (hsegEnd : seg.endTime base < 2 ^ 31) (hnewEnd : new.endTime base < 2 ^ 31) :
    Adds base low seg new (meet offset seg new) := by
  have hsegLt : seg.duration.toNat < 2 ^ 31 := by
    rw [endTime] at hsegEnd
    omega
  have hnat : (UInt32.ofInt offset).toNat = ticks base new.startTime - ticks base seg.startTime :=
      by
    rw [endTime] at hnewEnd
    rw [toNat_ofInt] <;> omega
  rw [meet, toInt_toInt32 hsegLt]
  by_cases hbefore : offset < seg.duration.toNat
  · rw [if_pos hbefore]
    by_cases hdelay : offset ≠ 0 ∧ offset + minDuration ≥ seg.duration.toNat ∧ canAdjust new
    · rw [if_pos hdelay]
      obtain ⟨hne, hclose, hcan⟩ := hdelay
      have hlong := canAdjust_le hcan
      rw [minDuration] at hclose
      have hdelayed : (seg.duration - UInt32.ofInt offset).toNat =
          seg.endTime base - ticks base new.startTime := by
        rw [endTime, toNat_sub, hnat] <;> omega
      have hlt : (seg.duration - UInt32.ofInt offset).toNat ≤ new.duration.toNat := by
        rw [hdelayed, endTime]
        omega
      refine ⟨fun _ hlist => ⟨hlow, hseg, hsegEnd, hlist⟩, ?_, [], superposed_nil _, ?_⟩
      · intro new' hnew'
        rw [← Option.mem_some.mp hnew']
        have hstart := ticks_delayed hlt hnewEnd
        have hduration : (new.delayed (seg.duration - UInt32.ofInt offset)).duration.toNat =
          new.duration.toNat - (seg.duration - UInt32.ofInt offset).toNat := toNat_sub hlt
        rw [endTime] at hdelayed ⊢
        refine ⟨?_, ?_, (endTime_delayed hlt hnewEnd).le⟩
        · rw [MoveSegment.delayed] at hstart
          omega
        · rw [MoveSegment.delayed] at hduration
          omega
      · intro ps ks hrest
        rw [endTime] at hdelayed
        have hclocks := clocks_delayed (α := α) hlt []
        rw [hclocks]
        exact carried_delayed (by omega) (by omega) (by omega) hnewEnd hrest
    · rw [if_neg hdelay]
      by_cases hne : offset ≠ 0
      · rw [if_pos hne]
        have hlt : (UInt32.ofInt offset).toNat < seg.duration.toNat := by omega
        simp only [overlap_before [_]]
        apply Adds.after_split hlow (by omega) hlt hsegEnd
        have hsecond : (seg.split (UInt32.ofInt offset)).2.duration.toNat =
          seg.duration.toNat - (UInt32.ofInt offset).toNat := toNat_sub hlt.le
        have hstart : ticks base (seg.split (UInt32.ofInt offset)).2.startTime =
            ticks base seg.startTime + (UInt32.ofInt offset).toNat := by
          have hend := endTime_split_second hlt.le hsegEnd
          rw [endTime, endTime] at hend
          omega
        apply overlap_adds hstart.ge _ (by omega) hnew _ hnewEnd
        · omega
        · rwa [endTime_split_second hlt.le hsegEnd]
      · rw [if_neg hne]
        apply overlap_adds hlow _ hseg hnew hsegEnd hnewEnd
        omega
  · rw [if_neg hbefore]
    refine ⟨fun _ hlist => ⟨hlow, hseg, hsegEnd, hlist⟩, ?_, [], superposed_nil _, fun ps ks h => h⟩
    intro new' hnew'
    rw [← Option.mem_some.mp hnew']
    refine ⟨?_, hnew, le_rfl⟩
    rw [endTime]
    omega

omit [IsStrictOrderedRing α] in
/-- What carries out a rest of the new segment carries out the new segment. -/
lemma Carries.prepend {rest : MoveSegment α} {left : Option (MoveSegment α)} {ps : List (Stretch α)}
    {ks : List α} (pre : List (Stretch α)) (adjustments : List α) (h : Carries base rest left ps ks)
    (hrest : ∀ qs ls, Carried 10 (rest.stretch base) qs ls →
      Carried 10 (new.stretch base) (pre ++ qs) (adjustments ++ ls)) :
    Carries base new left (pre ++ ps) (adjustments ++ ks) := by
  cases left with
  | none => exact hrest ps ks h
  | some new' =>
    intro qs ls hleft
    rw [List.append_assoc, List.append_assoc]
    exact hrest _ _ (h qs ls hleft)

lemma Adds.delayed {low : ℕ} {d : UInt32} {met : Met α} (hpos : 0 < d.toNat) (hle : d.toNat ≤ 10)
    (hlt : d.toNat < new.duration.toNat) (hend : new.endTime base < 2 ^ 31)
    (h : Adds base low seg (new.delayed d) met) :
    Adds base low seg new
      { met with adjusting := ⟨new.duration, new.duration - d⟩ :: met.adjusting } := by
  obtain ⟨ps, hsuperposed, hcarries⟩ := h.parts
  refine ⟨h.placed, ?_, ps, hsuperposed, ?_⟩
  · rw [← endTime_delayed hlt.le hend]
    exact h.left
  · rw [clocks_delayed hlt.le]
    exact hcarries.prepend [] [(d.toNat : α)] fun qs ls => carried_delayed hpos hle hlt hend

/-- The first part of the new segment goes before `seg`. -/
lemma Adds.precede {low : ℕ} {d : UInt32} {met : Met α} (hlow : low ≤ ticks base new.startTime)
    (hpos : 0 < d.toNat) (hlt : d.toNat < new.duration.toNat) (hend : new.endTime base < 2 ^ 31)
    (h : Adds base (ticks base new.startTime + d.toNat) seg (new.split d).2 met) :
    Adds base low seg new { met with segments := (new.split d).1 :: met.segments } := by
  obtain ⟨ps, hsuperposed, hcarries⟩ := h.parts
  refine ⟨fun list hlist => ⟨hlow, hpos, ?_, h.placed list hlist⟩, ?_,
    (new.stretch base).first d.toNat :: ps, ?_, ?_⟩
  · change ticks base new.startTime + d.toNat < 2 ^ 31
    rw [endTime] at hend
    omega
  · rw [← endTime_split_second hlt.le hend]
    exact h.left
  · exact (superposed_new [(new.split d).1.stretch base]).append hsuperposed
  · apply hcarries.prepend [(new.stretch base).first d.toNat] []
    intro qs ls hrest
    rw [stretch_split_second hlt.le hend] at hrest
    exact .cut _ (Nat.cast_pos.mpr hpos) (Nat.cast_lt.mpr hlt) hrest

lemma meetOrPrecede_adds {low : ℕ} (hlow : low ≤ ticks base seg.startTime)
    (hlowNew : low ≤ ticks base new.startTime) (hseg : 0 < seg.duration.toNat)
    (hnew : 0 < new.duration.toNat) (hsegEnd : seg.endTime base < 2 ^ 31)
    (hnewEnd : new.endTime base < 2 ^ 31) (hfits : fitsBefore seg new = false) :
    Adds base low seg new (meetOrPrecede seg new) := by
  have hsegLt : ticks base seg.startTime + seg.duration.toNat < 2 ^ 31 := hsegEnd
  have hnewLt : ticks base new.startTime + new.duration.toNat < 2 ^ 31 := hnewEnd
  have hoffset : signedDiff new.startTime seg.startTime =
      (ticks base new.startTime : ℤ) - ticks base seg.startTime :=
    signedDiff_ticks (by omega) (by omega)
  have hduration : new.duration.toInt32.toInt = new.duration.toNat := toInt_toInt32 (by omega)
  simp only [meetOrPrecede, hoffset, hduration]
  by_cases hbefore : (ticks base new.startTime : ℤ) - ticks base seg.startTime < 0
  · have hoverlaps : ticks base seg.startTime < ticks base new.startTime + new.duration.toNat := by
      rw [fitsBefore, hoffset, hduration, decide_eq_true hbefore, Bool.true_and,
        decide_eq_false_iff_not] at hfits
      omega
    rw [if_pos hbefore]
    by_cases hadjust : (ticks base new.startTime : ℤ) - ticks base seg.startTime ≥ -minDuration ∧
        canAdjust new
    · rw [if_pos hadjust]
      obtain ⟨hclose, hcan⟩ := hadjust
      have hlong := canAdjust_le hcan
      rw [minDuration] at hclose
      have hdelay : (seg.startTime - new.startTime).toNat =
          ticks base seg.startTime - ticks base new.startTime := toNat_sub_of_ticks (by omega)
            (by omega)
      have hstart : new.startTime + (seg.startTime - new.startTime) = seg.startTime := by
        rw [UInt32.add_comm, UInt32.sub_add_cancel]
      have hshorter : UInt32.ofInt ((new.duration.toNat : ℤ) + ((ticks base new.startTime : ℤ) -
          ticks base seg.startTime)) = new.duration - (seg.startTime - new.startTime) := by
        apply UInt32.toNat_inj.mp
        rw [toNat_sub (by omega), toNat_ofInt] <;> omega
      rw [hshorter]
      have hdelayed := endTime_delayed (d := seg.startTime - new.startTime) (by omega) hnewEnd
      have hmet : Adds base low seg (new.delayed (seg.startTime - new.startTime))
          (meet 0 seg (new.delayed (seg.startTime - new.startTime))) := by
        have hticks : ticks base (new.delayed (seg.startTime - new.startTime)).startTime =
          ticks base seg.startTime := congrArg (ticks base) hstart
        apply meet_adds hlow _ hticks.ge hseg _ hsegEnd (by rwa [hdelayed])
        · rw [hticks, sub_self]
        · rw [endTime, hticks] at hdelayed
          rw [endTime] at hdelayed
          omega
      have hadds := hmet.delayed (by omega) (by omega) (by omega) hnewEnd
      rw [MoveSegment.delayed, hstart] at hadds
      exact hadds
    · rw [if_neg hadjust]
      have hfirst : (UInt32.ofInt (-((ticks base new.startTime : ℤ) -
          ticks base seg.startTime))).toNat = ticks base seg.startTime - ticks base new.startTime :=
            by
        rw [toNat_ofInt] <;> omega
      apply Adds.precede hlowNew (by omega) (by omega) hnewEnd
      have hsecond : (new.split (UInt32.ofInt (-((ticks base new.startTime : ℤ) -
          ticks base seg.startTime)))).2.endTime base = new.endTime base :=
        endTime_split_second (by omega) hnewEnd
      have hticks : ticks base (new.split (UInt32.ofInt (-((ticks base new.startTime : ℤ) -
          ticks base seg.startTime)))).2.startTime = ticks base seg.startTime := by
        apply (ticks_add (by omega)).trans
        omega
      apply meet_adds (by omega) _ hticks.ge hseg _ hsegEnd (by rwa [hsecond])
      · rw [hticks, sub_self]
      · rw [endTime, hticks] at hsecond
        rw [endTime] at hsecond
        omega
  · rw [if_neg hbefore]
    exact meet_adds hlow rfl (by omega) hseg hnew hsegEnd hnewEnd

omit [Field α] [LinearOrder α] [IsStrictOrderedRing α] in
lemma fitsBefore_endTime (hend : new.endTime base < 2 ^ 31) (hsegEnd : seg.endTime base < 2 ^ 31)
    (hfits : fitsBefore seg new = true) : new.endTime base ≤ ticks base seg.startTime := by
  have hsegLt : ticks base seg.startTime + seg.duration.toNat < 2 ^ 31 := hsegEnd
  have hnewLt : ticks base new.startTime + new.duration.toNat < 2 ^ 31 := hend
  have hoffset : signedDiff new.startTime seg.startTime =
      (ticks base new.startTime : ℤ) - ticks base seg.startTime :=
    signedDiff_ticks (by omega) (by omega)
  have hduration : new.duration.toInt32.toInt = new.duration.toNat := toInt_toInt32 (by omega)
  rw [fitsBefore, hoffset, hduration, Bool.and_eq_true, decide_eq_true_iff,
    decide_eq_true_iff] at hfits
  rw [endTime]
  omega

/-- The loop over the list, by induction on the segments that are still to come. -/
lemma addToList_spec (list : List (MoveSegment α)) (new : MoveSegment α) {low : ℕ}
    (hlist : Placed base low list)
    (hlow : low ≤ ticks base new.startTime) (hnew : 0 < new.duration.toNat)
    (hend : new.endTime base < 2 ^ 31) :
    Placed base low (addToList list new).1 ∧ ∃ ps,
      Superposed (list.map (stretch base)) ps ((addToList list new).1.map (stretch base)) ∧
      Carried 10 (new.stretch base) ps (clocks (addToList list new).2) := by
  induction list generalizing new low with
  | nil => exact ⟨⟨hlow, hnew, hend, trivial⟩, [new.stretch base], superposed_new _, .whole _⟩
  | cons seg list ih =>
    obtain ⟨hseg, hduration, hsegEnd, hrest⟩ := hlist
    rw [addToList]
    cases hfits : fitsBefore seg new with
    | true =>
      rw [if_pos rfl]
      have hbefore := fitsBefore_endTime hend hsegEnd hfits
      exact ⟨⟨hlow, hnew, hend, hbefore, hduration, hsegEnd, hrest⟩, [new.stretch base],
        (superposed_new [new.stretch base]).append (superposed_nil _), .whole _⟩
    | false =>
      rw [if_neg Bool.false_ne_true]
      have hadds := meetOrPrecede_adds hseg hlow hduration hnew hsegEnd hend hfits
      obtain ⟨ps, hsuperposed, hcarries⟩ := hadds.parts
      cases hleft : (meetOrPrecede seg new).left with
      | none =>
        rw [hleft] at hcarries
        simp only [hleft]
        refine ⟨hadds.placed list hrest, ps, ?_, hcarries⟩
        have hrest' := hsuperposed.append (superposed_nil (list.map (stretch base)))
        rw [List.append_nil] at hrest'
        rw [List.map_append]
        exact hrest'
      | some new' =>
        obtain ⟨hstart, hpos, hend'⟩ := hadds.left new' hleft
        obtain ⟨hplaced, qs, hsuperposed', hcarried⟩ :=
          ih new' hrest hstart hpos (hend'.trans_lt hend)
        rw [hleft] at hcarries
        simp only [hleft]
        refine ⟨hadds.placed _ hplaced, ps ++ qs, ?_, ?_⟩
        · rw [List.map_append]
          exact hsuperposed.append hsuperposed'
        · rw [clocks, List.map_append]
          exact hcarries qs _ hcarried

/-! ### The whole list -/

/-- All times of the list lie in a window of less than 2^31 clocks. -/
def InWindow (base : UInt32) (list : List (MoveSegment α)) : Prop :=
  ∀ seg ∈ list, seg.endTime base < 2 ^ 31

/-- Where the list has moved the drive at the time `t` of the window. -/
def displacement (base : UInt32) (list : List (MoveSegment α)) (t : α) : α :=
  position (list.map (stretch base)) t

def totalDistance (list : List (MoveSegment α)) : α := (list.map MoveSegment.distance).sum

omit [LinearOrder α] [IsStrictOrderedRing α] in
lemma total_stretch (base : UInt32) (list : List (MoveSegment α)) :
    total (list.map (stretch base)) = totalDistance list := by
  rw [total, List.map_map]
  rfl

omit [Field α] [LinearOrder α] [IsStrictOrderedRing α] in
lemma toInt_pos {d : UInt32} (h : 0 < d.toInt32.toInt) : 0 < d.toNat := by
  change 0 < d.toBitVec.toInt at h
  rw [BitVec.toInt_eq_toNat_cond, UInt32.toNat_toBitVec] at h
  have := d.toNat_lt
  split_ifs at h <;> omega

omit [Field α] [LinearOrder α] [IsStrictOrderedRing α] in
/-- In a window, one segment does not overlap the next if it ends before that one starts. -/
lemma doesNotOverlap_iff (hseg : seg.endTime base < 2 ^ 31) (hnew : new.endTime base < 2 ^ 31) :
    doesNotOverlap seg new ↔ seg.endTime base ≤ ticks base new.startTime := by
  rw [endTime] at hnew
  have hend : ticks base (seg.startTime + seg.duration) = seg.endTime base := by
    apply ticks_add
    rw [endTime] at hseg
    omega
  have hdiff : signedDiff new.startTime (seg.startTime + seg.duration) =
      (ticks base new.startTime : ℤ) - ticks base (seg.startTime + seg.duration) :=
    signedDiff_ticks (by omega) (by omega)
  rw [doesNotOverlap, hdiff, hend]
  omega

omit [Field α] [LinearOrder α] [IsStrictOrderedRing α] in
lemma placed_of_wellFormed (list : List (MoveSegment α)) {low : ℕ} (h : WellFormed list)
    (hwindow : InWindow base list)
    (hlow : ∀ seg ∈ list.head?, low ≤ ticks base seg.startTime) : Placed base low list := by
  induction list generalizing low with
  | nil => trivial
  | cons seg list ih =>
    have hend := hwindow seg List.mem_cons_self
    refine ⟨hlow seg rfl, toInt_pos (h.durations seg List.mem_cons_self), hend, ?_⟩
    apply ih ⟨fun e he => h.durations e (List.mem_cons_of_mem seg he), h.ordered.tail⟩
      fun e he => hwindow e (List.mem_cons_of_mem seg he)
    intro next hnext
    have hmem : next ∈ list := List.mem_of_mem_head? hnext
    rw [← doesNotOverlap_iff hend (hwindow next (List.mem_cons_of_mem seg hmem))]
    have hordered := h.ordered
    cases list with
    | nil => exact absurd hnext (Option.not_mem_none next)
    | cons second rest =>
      rw [← Option.mem_some.mp hnext]
      exact (List.isChain_cons_cons.mp hordered).1

omit [Field α] [LinearOrder α] [IsStrictOrderedRing α] in
lemma Placed.wellFormed {list : List (MoveSegment α)} {low : ℕ} (h : Placed base low list) :
    WellFormed list ∧ InWindow base list := by
  induction list generalizing low with
  | nil => exact ⟨⟨fun _ he => absurd he List.not_mem_nil, .nil⟩,
      fun _ he => absurd he List.not_mem_nil⟩
  | cons seg list ih =>
    obtain ⟨-, hduration, hend, hrest⟩ := h
    obtain ⟨⟨hdurations, hordered⟩, hwindow⟩ := ih hrest
    have hall : InWindow base (seg :: list) := List.forall_mem_cons.mpr ⟨hend, hwindow⟩
    refine ⟨⟨List.forall_mem_cons.mpr ⟨?_, hdurations⟩, ?_⟩, hall⟩
    · rw [endTime] at hend
      rw [hasDuration, toInt_toInt32 (by omega)]
      exact_mod_cast hduration
    · cases list with
      | nil => exact .singleton seg
      | cons next rest =>
        exact List.isChain_cons_cons.mpr ⟨(doesNotOverlap_iff hend
          (hall next (List.mem_cons_of_mem seg List.mem_cons_self))).mpr hrest.1, hordered⟩

/-- A list after a segment has been added: the motion of the new segment, carried out in parts, is
added to the motion of the list. -/
structure Superposes (base : UInt32) (list : List (MoveSegment α)) (new : MoveSegment α)
    (r : List (MoveSegment α) × List Adjusting) : Prop where
  wellFormed : WellFormed r.1
  inWindow : InWindow base r.1
  total : totalDistance r.1 = totalDistance list + new.distance
  carried : ∃ parts, Carried 10 (new.stretch base) parts (clocks r.2) ∧
    ∀ t, displacement base r.1 t = displacement base list t + position parts t
  exact : r.2 = [] → ∀ t, displacement base r.1 t =
    displacement base list t + (new.stretch base).displacement t

theorem addSegment_superposes (base : UInt32) (list : List (MoveSegment ℚ))
    (startTime duration : UInt32) (distance a : ℚ) (moveFlags : MovementFlags) (pressureAdvance : ℚ)
    (hlist : WellFormed list) (hwindow : InWindow base list) (hduration
    : 0 < duration.toInt32.toInt)
    (hend : ticks base startTime + duration.toNat < 2 ^ 31) :
    Superposes base list
      { flags := moveFlags
        startTime := startTime
        duration := duration
        distance := distance + a * pressureAdvance
        a := a }
      (addSegment list startTime duration distance a moveFlags pressureAdvance) := by
  have hplaced : Placed base 0 list :=
    placed_of_wellFormed list hlist hwindow fun seg _ => Nat.zero_le _
  obtain ⟨hresult, ps, hsuperposed, hcarried⟩ := addToList_spec list
    { flags := moveFlags
      startTime := startTime
      duration := duration
      distance := distance + a * pressureAdvance
      a := a } hplaced (Nat.zero_le _) (toInt_pos hduration) hend
  obtain ⟨hwellFormed, hinWindow⟩ := hresult.wellFormed
  refine ⟨hwellFormed, hinWindow, ?_, ⟨ps, hcarried, hsuperposed.position⟩, ?_⟩
  · have htotal := hsuperposed.total
    rw [total_stretch, total_stretch, hcarried.total] at htotal
    exact htotal
  · intro hnone t
    change (addToList list _).2 = [] at hnone
    rw [hnone] at hcarried
    rw [← hcarried.position_eq]
    exact hsuperposed.position t

/-! ### A gap within the new segment -/

def noFlags : MovementFlags := ⟨false, false, false, false, false⟩

/-- Two segments with a gap of five clocks between them. -/
def gapped : List (MoveSegment ℚ) := [⟨noFlags, 0, 100, 0, 0⟩, ⟨noFlags, 105, 100, 0, 0⟩]

lemma gapped_wellFormed : WellFormed gapped := ⟨by decide, by decide⟩

lemma gapped_inWindow : InWindow 0 gapped := by
  rw [InWindow]
  decide

theorem addSegment_superposes_gapped :
    Superposes 0 gapped ⟨noFlags, 0, 200, 200 + 0 * 0, 0⟩ (addSegment gapped 0 200 200 0 noFlags 0)
      :=
  addSegment_superposes 0 gapped 0 200 200 0 noFlags 0 gapped_wellFormed gapped_inWindow (by decide)
    (by decide)

/-- Between its start and its end a stretch of constant speed moves in proportion to the time. -/
lemma displacement_steady {start length distance t x : ℚ}
    (h : (⟨start, length, distance, 0⟩ : Stretch ℚ).displacement t = x) (hstart : x ≠ 0)
    (hend : x ≠ distance) : distance / length * (t - start) = x := by
  rw [Stretch.displacement] at h
  split at h
  · exact absurd h.symm hstart
  · split at h
    · rw [← h]
      simp only [Stretch.travelled]
      ring
    · exact absurd h.symm hend

/-- The rest of the new segment is delayed to the second segment of the list, and the drive stands
still in between. Moving the start and the end of the new segment does not give that. -/
theorem gap_within_segment :
    ¬ ∀ (base : UInt32) (list : List (MoveSegment ℚ)) (startTime duration : UInt32)
        (distance a : ℚ) (moveFlags : MovementFlags) (pressureAdvance : ℚ),
      WellFormed list → InWindow base list → 0 < duration.toInt32.toInt →
      ticks base startTime + duration.toNat < 2 ^ 31 → ∃ start length : ℚ, ∀ t,
        displacement base
            (addSegment list startTime duration distance a moveFlags pressureAdvance).1 t =
          displacement base list t +
            (⟨start, length, distance + a * pressureAdvance, a⟩ : Stretch ℚ).displacement t := by
  intro h
  obtain ⟨start, length, heq⟩ := h 0 gapped 0 200 200 0 noFlags 0 gapped_wellFormed gapped_inWindow
    (by decide) (by decide)
  have hnew : ∀ t x : ℚ, displacement 0 (addSegment gapped 0 200 200 0 noFlags 0).1 t =
      displacement 0 gapped t + x → x ≠ 0 → x ≠ 200 → 200 / length * (t - start) = x := by
    intro t x ht
    apply displacement_steady
    have hdisplacement := heq t
    rw [ht, zero_mul, add_zero] at hdisplacement
    exact (add_left_cancel hdisplacement).symm
  have h50 := hnew 50 50 (by decide +kernel) (by norm_num) (by norm_num)
  have h100 := hnew 100 100 (by decide +kernel) (by norm_num) (by norm_num)
  have h105 := hnew 105 100 (by decide +kernel) (by norm_num) (by norm_num)
  linarith

end RepRapFirmware.Movement.Segments
