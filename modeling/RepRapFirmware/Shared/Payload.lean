import RepRapFirmware.Library.FloatBits
import RepRapFirmware.Shared.LpcProtocol

/-! Numbers in the payload of a frame, low byte first, and the conversions between a C `float`
and a 16-bit integer. -/

namespace RepRapFirmware.Shared.Payload

open LpcProtocol

-- One proof for the places that are given as numerals.
scoped instance neZero13 : NeZero 13 := ⟨by decide⟩
scoped instance neZero15 : NeZero 15 := ⟨by decide⟩

def readFloat (data : Payload) (k : Fin 13) : Float32 :=
  Float32.ofBits ((data.get ⟨k, by omega⟩).toUInt32 ||| ((data.get ⟨k + 1,
    by omega⟩).toUInt32 <<< 8)
    ||| ((data.get ⟨k + 2, by omega⟩).toUInt32 <<< 16)
    ||| ((data.get ⟨k + 3, by omega⟩).toUInt32 <<< 24))

def readU16 (data : Payload) (k : Fin 15) : UInt16 :=
  (data.get ⟨k, by omega⟩).toUInt16 ||| ((data.get ⟨k + 1, by omega⟩).toUInt16 <<< 8)

def readI16 (data : Payload) (k : Fin 15) : Int16 := (readU16 data k).toInt16

def putFloat (value : Float32) : List UInt8 :=
  [value.toBits.toUInt8, (value.toBits >>> 8).toUInt8, (value.toBits >>> 16).toUInt8,
    (value.toBits >>> 24).toUInt8]

def putU16 (value : UInt16) : List UInt8 := [value.toUInt8, (value >>> 8).toUInt8]

def ofInt16 (n : Int16) : Float32 := .ofModel (.ofInt16 n)

def toInt16 (x : Float32) : Int16 := x.toModel.toInt16

lemma bytes_of_u16 (value : UInt16) :
    value.toUInt8.toUInt16 ||| ((value >>> 8).toUInt8.toUInt16 <<< 8) = value := by
  apply UInt16.toNat_inj.mp
  have hlow : value.toNat % 256 < 2 ^ 8 := Nat.mod_lt _ (by decide)
  have hor := Nat.shiftLeft_add_eq_or_of_lt hlow (value.toNat / 256 % 256)
  simp only [UInt16.toNat_or, UInt16.toNat_shiftLeft, UInt8.toNat_toUInt16, UInt16.toNat_toUInt8,
    UInt16.toNat_shiftRight, Nat.shiftRight_eq_div_pow] at *
  have hlt := value.toNat_lt
  have hhigh : (value.toNat / 256 % 256) <<< 8 % 2 ^ 16 = (value.toNat / 256 % 256) <<< 8 :=
    Nat.mod_eq_of_lt (by rw [Nat.shiftLeft_eq]; omega)
  rw [show (8 : UInt16).toNat % 16 = 8 from rfl, show 2 ^ 8 = 256 from rfl, hhigh, Nat.or_comm,
    ← hor, Nat.shiftLeft_eq]
  omega

lemma bytes_of_u32 (value : UInt32) :
    value.toUInt8.toUInt32 ||| ((value >>> 8).toUInt8.toUInt32 <<< 8)
      ||| ((value >>> 16).toUInt8.toUInt32 <<< 16) ||| ((value >>> 24).toUInt8.toUInt32 <<< 24) =
      value := by
  have hbytes (v : BitVec 32) :
      (v.setWidth 8).setWidth 32 ||| ((v >>> 8).setWidth 8).setWidth 32 <<< 8
        ||| ((v >>> 16).setWidth 8).setWidth 32 <<< 16 |||
        ((v >>> 24).setWidth 8).setWidth 32 <<< 24 = v := by
    ext i hi
    interval_cases i <;> simp
  exact UInt32.eq_of_toBitVec_eq (hbytes value.toBitVec)

@[simp] lemma ofBytes_get (type : MessageType) (bytes : List UInt8) (k : Fin 16) :
    (Frame.ofBytes type bytes).payload.get k = bytes.getD k 0 := by
  exact Vector.getElem_ofFn k.isLt

section Frames

variable {t : MessageType} {payload : List UInt8}

lemma type_ofBytes : MessageType.ofCode (Frame.ofBytes t payload).type = some t :=
  MessageType.ofCode_code t

lemma payload_ofBytes {k : ℕ} (hk : k < 16) :
    (Frame.ofBytes t payload).payload[k] = payload.getD k 0 := by
  simp [Frame.ofBytes]

lemma readFloat_putFloat (t : MessageType) (value : Float32) (rest : List UInt8) :
    readFloat (Frame.ofBytes t (putFloat value ++ rest)).payload 0 = value := by
  rw [readFloat, ofBytes_get, ofBytes_get, ofBytes_get, ofBytes_get]
  exact (congrArg Float32.ofBits (bytes_of_u32 value.toBits)).trans
    (Library.FloatBits.ofBits_toBits value)

end Frames

end RepRapFirmware.Shared.Payload
