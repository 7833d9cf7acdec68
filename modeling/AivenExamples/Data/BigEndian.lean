import Mathlib.Algebra.Group.Nat.Defs
import Mathlib.Data.List.Induction

/-! Numbers of a fixed width with their highest byte first. -/

namespace AivenExamples.BigEndian

/-- The lowest bytes of a number, as many as the width says. -/
def bytes : Nat → Nat → List UInt8
  | 0, _ => []
  | width + 1, number => bytes width (number / 256) ++ [.ofNat number]

/-- The number that bytes spell. -/
def number (data : List UInt8) : Nat := data.foldl (fun high byte => 256 * high + byte.toNat) 0

@[simp] theorem length_bytes (width value : Nat) : (bytes width value).length = width := by
  induction width generalizing value with
  | zero => rfl
  | succ width ih => simp [bytes, ih]

theorem number_concat (data : List UInt8) (byte : UInt8) :
    number (data ++ [byte]) = 256 * number data + byte.toNat := by
  simp [number]

/-- A number is read back up to what does not fit into the width. -/
theorem number_bytes (width value : Nat) : number (bytes width value) = value % 256 ^ width := by
  -- The last byte is the remainder, and the bytes before it spell the quotient.
  induction width generalizing value with
  | zero => simp [bytes, number, Nat.mod_one]
  | succ width ih =>
    rw [bytes, number_concat, ih, Nat.pow_succ, Nat.mul_comm (256 ^ width) 256, Nat.mod_mul,
      UInt8.toNat_ofNat']
    omega

/-- Bytes are those of the number that they spell. -/
theorem bytes_number (data : List UInt8) : bytes data.length (number data) = data := by
  induction data using List.reverseRecOn with
  | nil => rfl
  | append_singleton data byte ih =>
    -- The last byte is below the base, so it is the remainder.
    have small := byte.toNat_lt
    have high : (256 * number data + byte.toNat) / 256 = number data := by omega
    have low : UInt8.ofNat (256 * number data + byte.toNat) = byte := by
      apply UInt8.toNat_inj.mp
      rw [UInt8.toNat_ofNat']
      omega
    rw [List.length_append, List.length_singleton, bytes, number_concat, high, low, ih]

/-- Bytes spell a number that fits into their width. -/
theorem number_lt (data : List UInt8) : number data < 256 ^ data.length := by
  rw [← bytes_number data, number_bytes, length_bytes]
  exact Nat.mod_lt _ (Nat.pow_pos (by decide))

/-- A signed number of 64 bits. -/
def writeLong (value : Int64) : List UInt8 := bytes 8 value.toUInt64.toNat

/-- Reading a signed number of 64 bits fails when the data ends before it does. -/
def readLong (data : List UInt8) : Option (Int64 × List UInt8) :=
  if data.length < 8 then none
  else some ((UInt64.ofNat (number (data.take 8))).toInt64, data.drop 8)

@[simp] theorem length_writeLong (value : Int64) : (writeLong value).length = 8 :=
  length_bytes 8 _

/-- What was written is read, and what follows is left. -/
@[simp] theorem readLong_writeLong (value : Int64) (rest : List UInt8) :
    readLong (writeLong value ++ rest) = some (value, rest) := by
  -- A number of 64 bits fits into eight bytes.
  have fits : value.toUInt64.toNat % 256 ^ 8 = value.toUInt64.toNat :=
    Nat.mod_eq_of_lt value.toUInt64.toNat_lt
  have front : (writeLong value ++ rest).take 8 = writeLong value :=
    List.take_left' (length_writeLong value)
  have back : (writeLong value ++ rest).drop 8 = rest := List.drop_left' (length_writeLong value)
  rw [readLong, if_neg (by simp), front, back, writeLong, number_bytes, fits]
  simp

/-- What is read was written in front of what is left. -/
theorem eq_writeLong_of_readLong {data rest : List UInt8} {value : Int64}
    (read : readLong data = some (value, rest)) : data = writeLong value ++ rest := by
  unfold readLong at read
  split at read
  · cases read
  · cases read
    have front : (data.take 8).length = 8 := by simp; omega
    have small := number_lt (data.take 8)
    rw [front] at small
    -- The number survives the way through the signed type.
    have same : ((UInt64.ofNat (number (data.take 8))).toInt64.toUInt64).toNat =
        number (data.take 8) := by
      simpa using small
    have whole := bytes_number (data.take 8)
    rw [front] at whole
    rw [writeLong, same, whole, List.take_append_drop]

theorem readLong_eq_none {data : List UInt8} : readLong data = none ↔ data.length < 8 := by
  simp [readLong]

end AivenExamples.BigEndian
