import Mathlib

/-! Generic CAN messages: the `Add...Param` functions of `CanMessageGenericConstructor`, and
`FindParameter` of the parser. A table ends with its last entry. -/

namespace RepRapFirmware.CAN.GenericMessages

inductive ParamType
  | uint64 | uint32 | uint16 | uint8 | uint32Array | uint16Array | uint8Array
  | int32 | int16 | int8 | string | float | pwmFreq | char | reducedString
  | localDriver | float16 | floatArray
  deriving DecidableEq

/-- The lower 4 bits are the element size in bytes, and `isArray` is the highest bit. -/
def ParamType.code : ParamType → ℕ
  | .uint64 => 0x08 | .uint32 => 0x04 | .uint16 => 0x02 | .uint8 => 0x01
  | .uint32Array => 0x84 | .uint16Array => 0x82 | .uint8Array => 0x81
  | .int32 => 0x14 | .int16 => 0x12 | .int8 => 0x11 | .string => 0x10
  | .float => 0x24 | .pwmFreq => 0x22 | .char => 0x21 | .reducedString => 0x20
  | .localDriver => 0x41 | .float16 => 0x42 | .floatArray => 0xA4

def ParamType.itemSize (t : ParamType) : ℕ := t.code % 16

def ParamType.isArray (t : ParamType) : Bool := t.code.testBit 7

structure ParamDescriptor where
  letter : Char
  type : ParamType

/-- `data` is the part of the data that is used. -/
structure Message where
  paramMap : ℕ
  data : List UInt8

def maxData : ℕ := 60

/-- The position behind a parameter that is present. -/
def skip (t : ParamType) (data : List UInt8) (pos : ℕ) : ℕ :=
  if t.itemSize = 0 then pos + (data.drop pos).idxOf 0 + 1
  else if t.isArray then pos + 1 + (data.getD pos 0).toNat * t.itemSize
  else pos + t.itemSize

/-- The map has 20 bits. -/
def findInsertPoint (m : Message) (c : Char) :
    List ParamDescriptor → ℕ → ℕ → Except String (ParamType × ℕ × Message)
  | [], _, _ => .error "wrong parameter letter"
  | d :: table, i, pos =>
    if d.letter = c then
      if m.paramMap.testBit i then .error "duplicate parameter"
      else .ok (d.type, pos, { m with paramMap := m.paramMap ||| 2 ^ i % 2 ^ 20 })
    else findInsertPoint m c table (i + 1)
      (if m.paramMap.testBit i then skip d.type m.data pos else pos)

def insertValue (m : Message) (v : List UInt8) (pos : ℕ) : Except String Message :=
  if maxData < m.data.length + v.length then .error "CAN message too long"
  else .ok { m with data := m.data.take pos ++ v ++ m.data.drop pos }

/-- The values are inserted one after the other. What is left of the message, and the text of the
exception if there is one. -/
def insertValues (m : Message) : List (List UInt8) → ℕ → Message × Option String
  | [], _ => (m, none)
  | v :: vs, pos =>
    match insertValue m v pos with
    | .error e => (m, some e)
    | .ok m => insertValues m vs (pos + v.length)

/-- What the `Add...Param` functions have in common. -/
def addParam (table : List ParamDescriptor) (m : Message) (c : Char)
    (values : ParamType → Except String (List (List UInt8))) : Message × Option String :=
  match findInsertPoint m c table 0 0 with
  | .error e => (m, some e)
  | .ok (t, pos, m) =>
    match values t with
    | .error e => (m, some e)
    | .ok vs => insertValues m vs pos

def littleEndian : ℕ → ℕ → List UInt8
  | 0, _ => []
  | size + 1, n => .ofNat n :: littleEndian size (n / 256)

/-- A call of an `Add...Param` function. A `float` is given by its bits, a text by its bytes. -/
inductive Param
  | u64 (v : UInt64) | u (v : UInt32) | i (v : Int32) | f (v : UInt32) | char (v : UInt8)
  | string (v : List UInt8) | driverId (localDriver : UInt8) | floatArray (v : List UInt32)

def uValue (v : UInt32) (t : ParamType) : Except String (List (List UInt8)) :=
  match t with
  | .uint32 => .ok [littleEndian 4 v.toNat]
  | .uint16 | .pwmFreq =>
    if 2 ^ 16 ≤ v.toNat then .error "uval too large" else .ok [littleEndian 2 v.toNat]
  | .uint8 => if 2 ^ 8 ≤ v.toNat then .error "uval too large" else .ok [littleEndian 1 v.toNat]
  | _ => .error "uval wrong parameter type"

/-- The smallest integers are expected in a parameter of the type `uint8`. -/
def iValue (v : Int32) (t : ParamType) : Except String (List (List UInt8)) :=
  match t with
  | .int32 => .ok [littleEndian 4 v.toUInt32.toNat]
  | .int16 =>
    if 2 ^ 15 ≤ v.toInt ∨ v.toInt < -2 ^ 15 then .error "ival too large"
    else .ok [littleEndian 2 v.toUInt32.toNat]
  | .uint8 =>
    if 2 ^ 7 ≤ v.toInt ∨ v.toInt < -2 ^ 7 then .error "ival too large"
    else .ok [littleEndian 1 v.toUInt32.toNat]
  | _ => .error "ival wrong parameter type"

def Param.values (t : ParamType) : Param → Except String (List (List UInt8))
  | .u64 v =>
    if t ≠ .uint64 then .error "u64val wrong parameter type" else .ok [littleEndian 8 v.toNat]
  | .u v => uValue v t
  | .i v => iValue v t
  | .f v => if t ≠ .float then .error "fval wrong parameter type" else .ok [littleEndian 4 v.toNat]
  | .char v => if t ≠ .char then .error "cval wrong parameter type" else .ok [[v]]
  | .string v =>
    if t = .string ∨ t = .reducedString then .ok [v.takeWhile (· ≠ 0) ++ [0]]
    else .error "sval wrong parameter type"
  | .driverId localDriver =>
    if t ≠ .localDriver then .error "didval wrong parameter type" else .ok [[localDriver]]
  | .floatArray v =>
    -- the number of values is compared with the size of one
    if t ≠ .floatArray ∨ v.length ≠ t.itemSize then
      .error "fval array wrong parameter type or length"
    else .ok [[.ofNat v.length], v.flatMap fun x => littleEndian 4 x.toNat]

def add (table : List ParamDescriptor) (m : Message) (c : Char) (p : Param) :
    Message × Option String :=
  addParam table m c fun t => p.values t

/-- The parameters are added in their order until one throws. -/
def build (table : List ParamDescriptor) : Message → List (Char × Param) → Message × Option String
  | m, [] => (m, none)
  | m, (c, p) :: ps =>
    match add table m c p with
    | (m, some e) => (m, some e)
    | (m, none) => build table m ps

def findParameter (m : Message) (c : Char) :
    List ParamDescriptor → ℕ → ℕ → Option (ParamType × ℕ)
  | [], _, _ => none
  | d :: table, i, pos =>
    if m.paramMap >>> i = 0 then none
    else if d.letter = c then if m.paramMap.testBit i then some (d.type, pos) else none
    else findParameter m c table (i + 1)
      (if m.paramMap.testBit i then skip d.type m.data pos else pos)

def loadLE (data : List UInt8) (pos : ℕ) : ℕ → ℕ
  | 0 => 0
  | size + 1 => (data.getD pos 0).toNat + 256 * loadLE data (pos + 1) size

def getUintParam (table : List ParamDescriptor) (m : Message) (c : Char) : Option ℕ :=
  match findParameter m c table 0 0 with
  | some (.uint32, pos) => some (loadLE m.data pos 4)
  | some (.uint16, pos) | some (.pwmFreq, pos) => some (loadLE m.data pos 2)
  | some (.uint8, pos) | some (.localDriver, pos) => some (loadLE m.data pos 1)
  | _ => none

/-! ### What a message holds -/

section Layout
variable {values : Char → Option (List UInt8)} {table : List ParamDescriptor} {m m' : Message}
  {d : ParamDescriptor} {c : Char} {v : List UInt8} {t : ParamType}

/-- A value that `skip` takes for one of the type. -/
def Fits (t : ParamType) (v : List UInt8) : Prop :=
  if t.itemSize = 0 then ∃ s, (0 : UInt8) ∉ s ∧ v = s ++ [0]
  else if t.isArray then ∃ n bs, v = n :: bs ∧ bs.length = n.toNat * t.itemSize
  else v.length = t.itemSize

lemma Fits.skip (h : Fits t v) (before after : List UInt8) :
    skip t (before ++ (v ++ after)) before.length = before.length + v.length := by
  rw [Fits] at h
  rw [GenericMessages.skip, List.drop_left]
  by_cases hsize : t.itemSize = 0
  · rw [if_pos hsize] at h ⊢
    obtain ⟨s, hs, rfl⟩ := h
    rw [List.append_assoc, List.idxOf_append_of_notMem hs]
    simp [add_assoc]
  · rw [if_neg hsize] at h ⊢
    cases harray : t.isArray with
    | true =>
      rw [harray, if_pos rfl] at h
      obtain ⟨n, bs, rfl, hlength⟩ := h
      simp [List.getD_eq_getElem?_getD, hlength]
      omega
    | false =>
      rw [harray, if_neg Bool.false_ne_true] at h
      simp [h]

def layout (values : Char → Option (List UInt8)) (table : List ParamDescriptor) : List UInt8 :=
  table.flatMap fun d => (values d.letter).getD []

/-- The bits of the map from `i` on, and the data from `pos` on, are those of the table. -/
structure HoldsFrom (table : List ParamDescriptor) (values : Char → Option (List UInt8))
    (m : Message) (i pos : ℕ) : Prop where
  paramMap : ∀ j, m.paramMap.testBit (i + j) = (table[j]?.bind fun d => values d.letter).isSome
  data : ∃ before, before.length = pos ∧ m.data = before ++ layout values table
  fits : ∀ d ∈ table, ∀ v, values d.letter = some v → Fits d.type v

lemma HoldsFrom.next {i pos : ℕ} (h : HoldsFrom (d :: table) values m i pos) :
    HoldsFrom table values m (i + 1)
        (if m.paramMap.testBit i then skip d.type m.data pos else pos) ∧
      (if m.paramMap.testBit i then skip d.type m.data pos else pos) =
        pos + ((values d.letter).getD []).length := by
  obtain ⟨before, rfl, hdata⟩ := h.data
  have hbit := h.paramMap 0
  rw [add_zero, List.getElem?_cons_zero, Option.bind_some] at hbit
  rw [layout, List.flatMap_cons] at hdata
  have hpos : (if m.paramMap.testBit i then skip d.type m.data before.length else before.length) =
      before.length + ((values d.letter).getD []).length := by
    cases hvalue : values d.letter with
    | none =>
      rw [hvalue, Option.isSome_none] at hbit
      simp [hbit]
    | some v =>
      rw [hvalue, Option.isSome_some] at hbit
      rw [hvalue] at hdata
      rw [hbit, if_pos rfl, hdata]
      exact (h.fits d List.mem_cons_self v hvalue).skip _ _
  refine ⟨⟨fun j => ?_, ⟨before ++ (values d.letter).getD [], by rw [hpos, List.length_append],
    by rw [hdata, List.append_assoc]; rfl⟩, fun d' hd' => h.fits d' (List.mem_cons_of_mem d hd')⟩,
    hpos⟩
  have hnext := h.paramMap (j + 1)
  rw [List.getElem?_cons_succ] at hnext
  rw [← hnext]
  congr 1
  omega

lemma findInsertPoint_spec {i pos : ℕ} (h : HoldsFrom table values m i pos) (c : Char) :
    (∃ before d after, table = before ++ d :: after ∧ d.letter = c ∧
      (∀ d' ∈ before, d'.letter ≠ c) ∧
      findInsertPoint m c table i pos =
        if (values c).isSome then .error "duplicate parameter"
        else .ok (d.type, pos + (layout values before).length,
          { m with paramMap := m.paramMap ||| 2 ^ (i + before.length) % 2 ^ 20 })) ∨
    (∀ d ∈ table, d.letter ≠ c) ∧
      findInsertPoint m c table i pos = .error "wrong parameter letter" := by
  induction table generalizing i pos with
  | nil => exact .inr ⟨nofun, rfl⟩
  | cons d table ih =>
    have hbit := h.paramMap 0
    rw [add_zero, List.getElem?_cons_zero, Option.bind_some] at hbit
    by_cases hletter : d.letter = c
    · refine .inl ⟨[], d, table, rfl, hletter, nofun, ?_⟩
      rw [findInsertPoint, if_pos hletter, hbit, hletter]
      rfl
    · obtain ⟨hnext, hpos⟩ := h.next
      rcases ih hnext with ⟨before, d', after, rfl, hd', hbefore, hfind⟩ | ⟨hall, hfind⟩
      · refine .inl ⟨d :: before, d', after, rfl, hd', ?_, ?_⟩
        · exact List.forall_mem_cons.mpr ⟨hletter, hbefore⟩
        · rw [findInsertPoint, if_neg hletter, hfind, hpos, List.length_cons, layout, layout,
            List.flatMap_cons, List.length_append, add_assoc, add_assoc i,
            add_comm before.length 1]
      · refine .inr ⟨List.forall_mem_cons.mpr ⟨hletter, hall⟩, ?_⟩
        rw [findInsertPoint, if_neg hletter, hfind]

lemma findParameter_spec {i pos : ℕ} (h : HoldsFrom table values m i pos) (c : Char) :
    (∃ d ∈ table, d.letter = c ∧ ∃ v after pos', values c = some v ∧
      m.data.drop pos' = v ++ after ∧ findParameter m c table i pos = some (d.type, pos')) ∨
    (∀ d ∈ table, d.letter = c → values c = none) ∧ findParameter m c table i pos = none := by
  induction table generalizing i pos with
  | nil => exact .inr ⟨nofun, rfl⟩
  | cons d table ih =>
    rw [findParameter]
    by_cases hnone : m.paramMap >>> i = 0
    · refine .inr ⟨fun d' hd' hletter => ?_, if_pos hnone⟩
      obtain ⟨j, hj⟩ := List.mem_iff_getElem?.mp hd'
      have hbit := h.paramMap j
      rw [← Nat.testBit_shiftRight, hnone, hj, Nat.zero_testBit] at hbit
      rw [← hletter]
      simpa using hbit
    · have hbit := h.paramMap 0
      rw [add_zero, List.getElem?_cons_zero, Option.bind_some] at hbit
      rw [if_neg hnone]
      by_cases hletter : d.letter = c
      · rw [if_pos hletter, hbit, hletter]
        cases hvalue : values c with
        | none => exact .inr ⟨fun _ _ _ => rfl, rfl⟩
        | some v =>
          obtain ⟨before, rfl, hdata⟩ := h.data
          refine .inl ⟨d, List.mem_cons_self, hletter, v, layout values table, before.length, rfl,
            ?_, rfl⟩
          rw [hdata, List.drop_left, layout, List.flatMap_cons, hletter, hvalue]
          rfl
      · rw [if_neg hletter]
        rcases ih h.next.1 with ⟨d', hd', hfound⟩ | ⟨hall, hfind⟩
        · exact .inl ⟨d', List.mem_cons_of_mem d hd', hfound⟩
        · exact .inr ⟨List.forall_mem_cons.mpr ⟨fun h => absurd h hletter, hall⟩, hfind⟩

lemma insertValues_spec (vs : List (List UInt8)) (m : Message) {pos : ℕ}
    (hpos : pos ≤ m.data.length) (hsize : m.data.length ≤ maxData) :
    if m.data.length + vs.flatten.length ≤ maxData then
      insertValues m vs pos =
        ({ m with data := m.data.take pos ++ vs.flatten ++ m.data.drop pos }, none)
    else (insertValues m vs pos).2 ≠ none := by
  induction vs generalizing m pos with
  | nil => simp [insertValues, hsize]
  | cons v vs ih =>
    rw [insertValues, insertValue]
    by_cases hlong : maxData < m.data.length + v.length
    · rw [if_pos hlong, if_neg (by rw [List.flatten_cons, List.length_append]; omega)]
      simp
    · rw [if_neg hlong]
      have hlength :
          (m.data.take pos ++ v ++ m.data.drop pos).length = m.data.length + v.length := by
        simp
        omega
      have hrest := @ih { m with data := m.data.take pos ++ v ++ m.data.drop pos }
        (pos + v.length) (by rw [hlength]; omega) (by rw [hlength]; omega)
      have hat : (m.data.take pos ++ v).length = pos + v.length := by simp [hpos]
      dsimp only at hrest ⊢
      rw [hlength, ← hat, List.take_left, List.drop_left, hat] at hrest
      simpa [add_assoc] using hrest

end Layout

/-! ### Messages that are built -/

section Build
variable {values : Char → Option (List UInt8)} {table : List ParamDescriptor} {m : Message}

structure Holds (table : List ParamDescriptor) (values : Char → Option (List UInt8)) (m : Message) :
    Prop extends HoldsFrom table values m 0 0 where
  size : m.data.length ≤ maxData
  known : ∀ c, (∀ d ∈ table, d.letter ≠ c) → values c = none

/-- The letters differ, and there is a bit for each of them. -/
def WellFormed (table : List ParamDescriptor) : Prop :=
  (table.map (·.letter)).Nodup ∧ table.length ≤ 20

/-- The bytes of a parameter, if there is one of the letter that can have them. -/
def bytes (table : List ParamDescriptor) (x : Char × Param) : Option (List UInt8) :=
  (table.find? (·.letter == x.1)).bind fun d => (x.2.values d.type).toOption.map List.flatten

lemma littleEndian_length (size n : ℕ) : (littleEndian size n).length = size := by
  induction size generalizing n with
  | zero => rfl
  | succ size ih => rw [littleEndian, List.length_cons, ih]

lemma Param.fits {t : ParamType} {p : Param} {vs : List (List UInt8)} (h : p.values t = .ok vs) :
    Fits t vs.flatten := by
  have hscalar : ∀ {t size n}, t.itemSize = size → size ≠ 0 → t.isArray = false →
      Fits t [littleEndian size n].flatten := by
    intro t size n hsize hne harray
    rw [Fits, if_neg (hsize ▸ hne), harray, if_neg Bool.false_ne_true, hsize]
    simp [littleEndian_length]
  have hbyte : ∀ {t} {v : UInt8}, t.itemSize = 1 → t.isArray = false → Fits t [[v]].flatten := by
    intro t v hsize harray
    rw [Fits, if_neg (by omega), harray, if_neg Bool.false_ne_true, hsize]
    rfl
  cases p with
  | u64 v | f v =>
    simp only [values] at h
    split at h <;> cases h
    rw [not_not] at *
    subst_vars
    exact hscalar rfl (by decide) rfl
  | u v | i v =>
    cases t <;> simp only [values, uValue, iValue] at h <;> try split at h
    all_goals cases h
    all_goals exact hscalar rfl (by decide) rfl
  | char v | driverId v =>
    simp only [values] at h
    split at h <;> cases h
    rw [not_not] at *
    subst_vars
    exact hbyte rfl rfl
  | string v =>
    simp only [values] at h
    split at h <;> cases h
    have hfits : ∃ s, (0 : UInt8) ∉ s ∧ [v.takeWhile (· ≠ 0) ++ [0]].flatten = s ++ [0] :=
      ⟨v.takeWhile (· ≠ 0), fun hmem => by simpa using List.mem_takeWhile_imp hmem, by simp⟩
    rcases ‹_ ∨ _› with rfl | rfl <;> exact hfits
  | floatArray v =>
    simp only [values] at h
    split at h <;> cases h
    obtain ⟨htype, hlength⟩ := not_or.mp ‹_›
    obtain rfl := not_not.mp htype
    rw [not_not] at hlength
    have hbytes : ∀ v : List UInt32,
        (v.flatMap fun x => littleEndian 4 x.toNat).length = v.length * 4 := by
      intro v
      induction v with
      | nil => rfl
      | cons x v ih => simp [littleEndian_length, ih]; omega
    refine ⟨_, _, rfl, ?_⟩
    rw [List.flatten_cons, List.flatten_nil, List.append_nil]
    exact (hbytes v).trans (by rw [hlength]; rfl)

lemma add_spec (hm : Holds table values m) (htable : WellFormed table) (x : Char × Param) :
    match values x.1, bytes table x with
    | none, some v =>
      if m.data.length + v.length ≤ maxData then
        (add table m x.1 x.2).2 = none ∧
          Holds table (Function.update values x.1 (some v)) (add table m x.1 x.2).1 ∧
          (add table m x.1 x.2).1.data.length = m.data.length + v.length
      else (add table m x.1 x.2).2 ≠ none
    | _, _ => (add table m x.1 x.2).2 ≠ none := by
  obtain ⟨c, p⟩ := x
  rw [add, addParam]
  dsimp only
  rcases findInsertPoint_spec hm.toHoldsFrom c with
    ⟨before, d, after, htab, hletter, hbefore, hfind⟩ | ⟨hall, hfind⟩
  · have hbytes : bytes table (c, p) = (p.values d.type).toOption.map List.flatten := by
      have hd : table.find? (·.letter == c) = some d := by
        rw [htab, List.find?_append, List.find?_eq_none.mpr (by simpa using hbefore)]
        simp [hletter]
      rw [bytes, hd]
      rfl
    rw [hfind, hbytes]
    cases hvalue : values c with
    | some v => simp
    | none =>
      simp only [Option.isSome_none, Bool.false_eq_true, if_false]
      cases hvs : p.values d.type with
      | error e => simp [Except.toOption]
      | ok vs =>
        obtain ⟨hdistinct, hlength⟩ := htable
        subst htab hletter
        have hafter : ∀ d' ∈ after, d'.letter ≠ d.letter := by
          intro d' hd' heq
          rw [List.map_append, List.map_cons, List.nodup_append, List.nodup_cons] at hdistinct
          exact hdistinct.2.1.1 (heq ▸ List.mem_map_of_mem hd')
        have hsame : ∀ {ds : List ParamDescriptor}, (∀ d' ∈ ds, d'.letter ≠ d.letter) →
            layout (Function.update values d.letter (some vs.flatten)) ds = layout values ds := by
          intro ds hds
          exact List.flatMap_congr fun d' hd' => by rw [Function.update_of_ne (hds d' hd')]
        have hdata : m.data = layout values before ++ layout values after := by
          obtain ⟨before', hnil, hdata⟩ := hm.data
          rw [List.length_eq_zero_iff.mp hnil, List.nil_append] at hdata
          simpa [layout, hvalue] using hdata
        have hinsert := @insertValues_spec vs
          { m with paramMap := m.paramMap ||| 2 ^ (0 + before.length) % 2 ^ 20 }
          (0 + (layout values before).length) (by simp [hdata]) hm.size
        simp only [Except.toOption, Option.map_some, zero_add] at hinsert ⊢
        split at hinsert
        · next hfit =>
          rw [if_pos hfit, hinsert]
          have hinserted : m.data.take (layout values before).length ++ vs.flatten ++
              m.data.drop (layout values before).length =
                layout (Function.update values d.letter (some vs.flatten))
                  (before ++ d :: after) := by
            rw [hdata, List.take_left, List.drop_left, ← hsame hbefore, ← hsame hafter]
            simp [layout]
          refine ⟨rfl, ⟨⟨fun j => ?_, ⟨[], rfl, hinserted⟩, ?_⟩, ?_, ?_⟩, ?_⟩
          · have hbit := hm.paramMap j
            have hk : before.length < 20 := by
              rw [List.length_append, List.length_cons] at hlength
              omega
            rw [zero_add] at hbit
            rw [zero_add, Nat.testBit_or, hbit,
              Nat.mod_eq_of_lt (Nat.pow_lt_pow_right (by decide) hk), Nat.testBit_two_pow]
            rcases lt_trichotomy j before.length with hj | rfl | hj
            · have hd := hbefore _ (List.getElem_mem hj)
              simp [List.getElem?_append_left hj, List.getElem?_eq_getElem hj,
                Function.update_of_ne hd, hj.ne']
            · simp
            · obtain ⟨k, rfl⟩ := Nat.exists_eq_add_of_lt hj
              rw [List.getElem?_append_right (by omega),
                show before.length + k + 1 - before.length = k + 1 by omega,
                List.getElem?_cons_succ]
              cases hk : after[k]? with
              | none => simp; omega
              | some d' =>
                have hd := hafter d' (List.mem_of_getElem? hk)
                simp [Function.update_of_ne hd]
                omega
          · intro d' hd' v hv
            by_cases heq : d' = d
            · subst heq
              rw [Function.update_self] at hv
              cases hv
              exact Param.fits hvs
            · have hmem : d' ∈ before ∨ d' ∈ after := by simpa [heq] using hd'
              rw [Function.update_of_ne (hmem.elim (hbefore d') (hafter d'))] at hv
              exact hm.fits d' hd' v hv
          · simp only [hdata, List.length_append, List.take_left, List.drop_left] at hfit ⊢
            omega
          · intro c hc
            rw [Function.update_of_ne (hc d (by simp)).symm]
            exact hm.known c hc
          · simp
            omega
        · next hfit =>
          rw [if_neg hfit]
          exact hinsert
  · have hnone := hm.known c hall
    have hbytes : bytes table (c, p) = none := by
      rw [bytes, List.find?_eq_none.mpr (by simpa using hall)]
      rfl
    rw [hfind, hnone, hbytes]
    simp

/-- What has to hold of parameters for none of them to throw. -/
structure Acceptable (table : List ParamDescriptor) (values : Char → Option (List UInt8))
    (used : ℕ) (ps : List (Char × Param)) : Prop where
  bytes : ∀ x ∈ ps, (bytes table x).isSome
  distinct : (ps.map Prod.fst).Nodup
  fresh : ∀ x ∈ ps, values x.1 = none
  size : used + (ps.map fun x => ((GenericMessages.bytes table x).getD []).length).sum ≤ maxData

lemma acceptable_cons {x : Char × Param} {ps : List (Char × Param)} {v : List UInt8} {used : ℕ}
    (hnone : values x.1 = none) (hv : bytes table x = some v) :
    Acceptable table values used (x :: ps) ↔
      Acceptable table (Function.update values x.1 (some v)) (used + v.length) ps := by
  constructor
  · rintro ⟨hbytes, hdistinct, hfresh, hsize⟩
    rw [List.map_cons, List.nodup_cons] at hdistinct
    refine ⟨fun y hy => hbytes y (List.mem_cons_of_mem x hy), hdistinct.2, fun y hy => ?_, ?_⟩
    · have hne : y.1 ≠ x.1 := fun h => hdistinct.1 (h ▸ List.mem_map_of_mem hy)
      rw [Function.update_of_ne hne]
      exact hfresh y (List.mem_cons_of_mem x hy)
    · simpa [hv, add_assoc] using hsize
  · rintro ⟨hbytes, hdistinct, hfresh, hsize⟩
    have hne : ∀ y ∈ ps, y.1 ≠ x.1 := by
      intro y hy heq
      have hnone := hfresh y hy
      rw [heq, Function.update_self] at hnone
      cases hnone
    refine ⟨List.forall_mem_cons.mpr ⟨by rw [hv]; rfl, hbytes⟩, ?_, ?_, ?_⟩
    · rw [List.map_cons, List.nodup_cons]
      refine ⟨fun hmem => ?_, hdistinct⟩
      obtain ⟨y, hy, heq⟩ := List.mem_map.mp hmem
      exact hne y hy heq
    · refine List.forall_mem_cons.mpr ⟨hnone, fun y hy => ?_⟩
      rw [← hfresh y hy, Function.update_of_ne (hne y hy)]
    · simpa [hv, add_assoc] using hsize

lemma build_spec (ps : List (Char × Param)) (hm : Holds table values m)
    (htable : WellFormed table) :
    ((build table m ps).2 = none ↔ Acceptable table values m.data.length ps) ∧
      (Acceptable table values m.data.length ps →
        ∃ values', Holds table values' (build table m ps).1 ∧
          (∀ x ∈ ps, values' x.1 = bytes table x) ∧
          ∀ c, c ∉ ps.map Prod.fst → values' c = values c) := by
  induction ps generalizing values m with
  | nil =>
    refine ⟨⟨fun _ => ⟨nofun, List.nodup_nil, nofun, hm.size⟩, fun _ => rfl⟩, fun _ => ?_⟩
    exact ⟨values, hm, nofun, fun _ _ => rfl⟩
  | cons x ps ih =>
    have hadd := add_spec hm htable x
    have hthrows : (add table m x.1 x.2).2 ≠ none → (build table m (x :: ps)).2 ≠ none := by
      intro h
      rw [build]
      split
      · simp
      · next heq => exact absurd (by rw [heq]) h
    have hrefuse : (add table m x.1 x.2).2 ≠ none →
        ¬ Acceptable table values m.data.length (x :: ps) →
        ((build table m (x :: ps)).2 = none ↔ Acceptable table values m.data.length (x :: ps)) ∧
          (Acceptable table values m.data.length (x :: ps) →
            ∃ values', Holds table values' (build table m (x :: ps)).1 ∧
              (∀ y ∈ x :: ps, values' y.1 = bytes table y) ∧
              ∀ c, c ∉ (x :: ps).map Prod.fst → values' c = values c) :=
      fun h hnot => ⟨iff_of_false (hthrows h) hnot, fun h => absurd h hnot⟩
    cases hvalue : values x.1 with
    | some v =>
      rw [hvalue] at hadd
      exact hrefuse hadd fun h => by simpa [hvalue] using h.fresh x List.mem_cons_self
    | none =>
      cases hbytes : bytes table x with
      | none =>
        rw [hvalue, hbytes] at hadd
        exact hrefuse hadd fun h => by simpa [hbytes] using h.bytes x List.mem_cons_self
      | some v =>
        rw [hvalue, hbytes] at hadd
        dsimp only at hadd
        split at hadd
        · obtain ⟨hnone, hholds, hlength⟩ := hadd
          have hbuild : build table m (x :: ps) = build table (add table m x.1 x.2).1 ps := by
            rw [build]
            split
            · next heq => rw [heq] at hnone; cases hnone
            · next heq => rw [heq]
          obtain ⟨hiff, hvalues⟩ := ih hholds
          rw [hbuild, acceptable_cons hvalue hbytes, ← hlength]
          refine ⟨hiff, fun h => ?_⟩
          obtain ⟨values', hholds', hps, hother⟩ := hvalues h
          refine ⟨values', hholds', List.forall_mem_cons.mpr ⟨?_, hps⟩, fun c hc => ?_⟩
          · by_cases hmem : x.1 ∈ ps.map Prod.fst
            · obtain ⟨y, hy, heq⟩ := List.mem_map.mp hmem
              have hfresh := h.fresh y hy
              rw [heq, Function.update_self] at hfresh
              cases hfresh
            · rw [hother _ hmem, Function.update_self, hbytes]
          · rw [List.map_cons, List.mem_cons, not_or] at hc
            rw [hother c hc.2, Function.update_of_ne hc.1]
        · next hlong =>
          refine hrefuse hadd fun h => hlong ?_
          have hsize := ((acceptable_cons hvalue hbytes).mp h).size
          omega

lemma Holds.unique {m m' : Message} (h : Holds table values m) (h' : Holds table values m') :
    m = m' := by
  obtain ⟨before, hnil, hdata⟩ := h.data
  obtain ⟨before', hnil', hdata'⟩ := h'.data
  rw [List.length_eq_zero_iff] at hnil hnil'
  subst hnil hnil'
  have hmap : m.paramMap = m'.paramMap := by
    apply Nat.eq_of_testBit_eq
    intro j
    have hbit := h.paramMap j
    have hbit' := h'.paramMap j
    rw [zero_add] at hbit hbit'
    rw [hbit, hbit']
  cases m
  cases m'
  simp_all

lemma empty_holds (table : List ParamDescriptor) : Holds table (fun _ => none) ⟨0, []⟩ where
  paramMap j := by cases table[0 + j]? <;> simp
  data := ⟨[], rfl, by simp [layout]⟩
  fits := by simp
  size := Nat.zero_le _
  known _ _ := rfl

end Build

/-- The order in which parameters are added changes neither whether one of them throws nor the
message. -/
theorem build_perm {table : List ParamDescriptor} (htable : WellFormed table)
    {ps ps' : List (Char × Param)} (hperm : ps.Perm ps')
    (h : (build table ⟨0, []⟩ ps).2 = none) :
    build table ⟨0, []⟩ ps' = build table ⟨0, []⟩ ps := by
  obtain ⟨hiff, hvalues⟩ := build_spec ps (empty_holds table) htable
  obtain ⟨hiff', hvalues'⟩ := build_spec ps' (empty_holds table) htable
  have hacceptable := hiff.mp h
  have hacceptable' : Acceptable table (fun _ => none) 0 ps' := by
    obtain ⟨hbytes, hdistinct, -, hsize⟩ := hacceptable
    refine ⟨fun x hx => hbytes x (hperm.mem_iff.mpr hx), (hperm.map _).nodup_iff.mp hdistinct,
      fun _ _ => rfl, ?_⟩
    rwa [← (hperm.map _).sum_eq]
  obtain ⟨values, hholds, hps, hother⟩ := hvalues hacceptable
  obtain ⟨values', hholds', hps', hother'⟩ := hvalues' hacceptable'
  have heq : values' = values := by
    funext c
    by_cases hc : c ∈ ps.map Prod.fst
    · obtain ⟨x, hx, rfl⟩ := List.mem_map.mp hc
      rw [hps x hx, hps' x (hperm.mem_iff.mp hx)]
    · rw [hother c hc, hother' c fun hmem => hc ((hperm.map _).mem_iff.mpr hmem)]
  exact Prod.ext ((heq ▸ hholds').unique hholds) ((hiff'.mpr hacceptable').trans h.symm)

theorem build_perm_two :
    build [⟨'F', .uint16⟩, ⟨'S', .string⟩] ⟨0, []⟩ [('S', .string [65]), ('F', .u 1000)] =
      build [⟨'F', .uint16⟩, ⟨'S', .string⟩] ⟨0, []⟩ [('F', .u 1000), ('S', .string [65])] :=
  build_perm (by unfold WellFormed; decide) (.swap _ _ _) rfl

/-- Nothing throws exactly if all parameters have bytes, no letter comes twice and there is room
for all the bytes. -/
theorem build_none_iff {table : List ParamDescriptor} (htable : WellFormed table)
    (ps : List (Char × Param)) :
    (build table ⟨0, []⟩ ps).2 = none ↔
      (∀ x ∈ ps, (bytes table x).isSome) ∧ (ps.map Prod.fst).Nodup ∧
        (ps.map fun x => ((bytes table x).getD []).length).sum ≤ maxData := by
  rw [(build_spec ps (empty_holds table) htable).1]
  constructor
  · rintro ⟨hbytes, hdistinct, -, hsize⟩
    rw [List.length_nil, zero_add] at hsize
    exact ⟨hbytes, hdistinct, hsize⟩
  · rintro ⟨hbytes, hdistinct, hsize⟩
    refine ⟨hbytes, hdistinct, fun _ _ => rfl, ?_⟩
    rwa [List.length_nil, zero_add]

theorem build_none_iff_twice :
    (build [⟨'F', .uint16⟩] ⟨0, []⟩ [('F', .u 1), ('F', .u 2)]).2 ≠ none := by
  intro h
  have htable : WellFormed [⟨'F', .uint16⟩] := by unfold WellFormed; decide
  exact absurd ((build_none_iff htable _).mp h).2.1 (by decide)

lemma loadLE_littleEndian (size n : ℕ) (hn : n < 256 ^ size) {data after : List UInt8} {pos : ℕ}
    (h : data.drop pos = littleEndian size n ++ after) : loadLE data pos size = n := by
  induction size generalizing n pos with
  | zero => exact (Nat.lt_one_iff.mp hn).symm
  | succ size ih =>
    rw [littleEndian, List.cons_append] at h
    have hhead : data.getD pos 0 = UInt8.ofNat n := by
      rw [List.getD_eq_getElem?_getD, ← List.head?_drop, h]
      rfl
    have htail : data.drop (pos + 1) = littleEndian size (n / 256) ++ after := by
      rw [← List.drop_drop, h]
      rfl
    rw [loadLE, hhead, ih (n / 256) (by rw [pow_succ] at hn; omega) htail, UInt8.toNat_ofNat']
    omega

/-- A number that was added is what the receiver gets, and a letter for which nothing was added is
not found. -/
theorem getUintParam_build {table : List ParamDescriptor} (htable : WellFormed table)
    {ps : List (Char × Param)} {m : Message} (h : build table ⟨0, []⟩ ps = (m, none)) (c : Char) :
    (∀ v, (c, .u v) ∈ ps → getUintParam table m c = some v.toNat) ∧
      (c ∉ ps.map Prod.fst → findParameter m c table 0 0 = none) := by
  obtain ⟨hiff, hvalues⟩ := build_spec ps (empty_holds table) htable
  obtain ⟨values, hholds, hps, hother⟩ := hvalues (hiff.mp (by rw [h]))
  rw [h] at hholds
  have hfind := findParameter_spec hholds.toHoldsFrom c
  constructor
  · intro v hmem
    have hvalue := hps _ hmem
    obtain ⟨x, hx⟩ := Option.isSome_iff_exists.mp ((hiff.mp (by rw [h])).bytes _ hmem)
    rw [hx] at hvalue
    obtain ⟨d', hd', hx⟩ := Option.bind_eq_some_iff.mp hx
    have hletter' : d'.letter = c := by simpa using List.find?_some hd'
    have hmem' := List.mem_of_find?_eq_some hd'
    rcases hfind with ⟨d, hd, hletter, w, after, pos, hw, hdrop, hfind⟩ | ⟨hall, -⟩
    · obtain rfl := List.inj_on_of_nodup_map htable.1 hmem' hd (hletter'.trans hletter.symm)
      obtain rfl := Option.some.inj (hvalue.symm.trans hw)
      rw [getUintParam, hfind]
      have hlt := v.toNat_lt
      cases htype : d'.type <;> simp only [htype, Param.values, uValue] at hx
      all_goals try split at hx
      all_goals try cases hx
      all_goals
        simp only [List.flatten_cons, List.flatten_nil, List.append_nil] at hdrop
        exact congrArg some (loadLE_littleEndian _ _ (by omega) hdrop)
    · exact absurd (hall d' hmem' hletter') (by simp [hvalue])
  · intro hc
    rcases hfind with ⟨d, hd, hletter, w, after, pos, hw, -⟩ | ⟨-, hnone⟩
    · rw [hother c hc] at hw
      cases hw
    · exact hnone

theorem getUintParam_build_one :
    getUintParam [⟨'F', .uint16⟩, ⟨'S', .string⟩] ⟨3, [232, 3, 65, 0]⟩ 'F' = some 1000 :=
  (getUintParam_build (by unfold WellFormed; decide)
    (show build _ ⟨0, []⟩ [('S', .string [65]), ('F', .u 1000)] = (_, none) from rfl) 'F').1 1000
    (by simp)

end RepRapFirmware.CAN.GenericMessages
