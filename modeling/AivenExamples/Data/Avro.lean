import Mathlib.Algebra.Ring.Nat
import Mathlib.Data.List.Basic

/-! The untagged binary encoding of Avro records, which only its own schema can read. -/

namespace AivenExamples.Avro

/-- The schemas of scalars, unions and records. -/
inductive Schema where
  | null
  | boolean
  | long
  | string
  | union (branches : List Schema)
  | record (fields : List (String × Schema))

/-- The values that schemas describe; a value of a union is that of one of its branches. -/
inductive Datum where
  | null
  | boolean (value : Bool)
  | long (value : Int)
  | string (value : String)
  | record (fields : List (String × Datum))

/-- The number of a signed one: small absolute values stay small. -/
def zigzag (value : Int) : Nat :=
  if 0 ≤ value then (2 * value).toNat else (-2 * value - 1).toNat

/-- The signed number of a number. -/
def unzigzag (number : Nat) : Int :=
  if number % 2 = 0 then (number / 2 : Nat) else -((number / 2 : Nat) : Int) - 1

/-- A number in groups of seven bits, the lowest one first, with at most so many more groups. -/
def varint : Nat → Nat → List UInt8
  | 0, number => [.ofNat number]
  | groups + 1, number =>
    if number < 128 then [.ofNat number]
    else .ofNat (number % 128 + 128) :: varint groups (number / 128)

/-- Reading a number and what follows it. -/
def readVarint : List UInt8 → Option (Nat × List UInt8)
  | [] => none
  | byte :: rest =>
    if byte.toNat < 128 then some (byte.toNat, rest)
    else do
      let (high, rest) ← readVarint rest
      return (byte.toNat - 128 + 128 * high, rest)

/-- A signed number of 64 bits. -/
def writeLong (value : Int) : Option (List UInt8) :=
  if -9223372036854775808 ≤ value ∧ value ≤ 9223372036854775807 then
    some (varint 9 (zigzag value))
  else none

/-- Reading a signed number. -/
def readLong (bytes : List UInt8) : Option (Int × List UInt8) := do
  let (number, rest) ← readVarint bytes
  return (unzigzag number, rest)

/-- A text as its length and its bytes in UTF-8. -/
def writeString (text : String) : Option (List UInt8) := do
  let length ← writeLong text.toUTF8.data.toList.length
  return length ++ text.toUTF8.data.toList

/-- Reading a text. -/
def readString (bytes : List UInt8) : Option (String × List UInt8) := do
  let (length, rest) ← readLong bytes
  if 0 ≤ length ∧ length.toNat ≤ rest.length then
    let text ← String.fromUTF8? ⟨(rest.take length.toNat).toArray⟩
    return (text, rest.drop length.toNat)
  else none

mutual

/-- The encoding of a value, without any mark of its schema. -/
def encode : Schema → Datum → Option (List UInt8)
  | .null, .null => some []
  | .boolean, .boolean value => some [if value then 1 else 0]
  | .long, .long value => writeLong value
  | .string, .string value => writeString value
  | .union branches, datum => encodeBranch branches 0 datum
  | .record fields, .record values => encodeFields fields values
  | _, _ => none

/-- A value of a union is encoded by the first branch that can, behind the number of the branch. -/
def encodeBranch : List Schema → Nat → Datum → Option (List UInt8)
  | [], _, _ => none
  | branch :: branches, index, datum =>
    match encode branch datum with
    | some body => do return (← writeLong index) ++ body
    | none => encodeBranch branches (index + 1) datum

/-- The fields of a record are encoded behind each other, without their names. -/
def encodeFields : List (String × Schema) → List (String × Datum) → Option (List UInt8)
  | [], [] => some []
  | (name, field) :: fields, (given, datum) :: values =>
    if name = given then do return (← encode field datum) ++ (← encodeFields fields values)
    else none
  | _, _ => none

end

mutual

/-- Reading a value as the schema says, and what follows it. -/
def decode : Schema → List UInt8 → Option (Datum × List UInt8)
  | .null, bytes => some (.null, bytes)
  | .boolean, byte :: rest => some (.boolean (byte != 0), rest)
  | .boolean, [] => none
  | .long, bytes => do
    let (value, rest) ← readLong bytes
    return (.long value, rest)
  | .string, bytes => do
    let (value, rest) ← readString bytes
    return (.string value, rest)
  -- A negative index belongs to no branch.
  | .union branches, bytes => do
    let (index, rest) ← readLong bytes
    if 0 ≤ index then decodeBranch branches index.toNat rest else none
  | .record fields, bytes => do
    let (values, rest) ← decodeFields fields bytes
    return (.record values, rest)

/-- Reading a value as the branch with the number says. -/
def decodeBranch : List Schema → Nat → List UInt8 → Option (Datum × List UInt8)
  | [], _, _ => none
  | branch :: _, 0, bytes => decode branch bytes
  | _ :: branches, index + 1, bytes => decodeBranch branches index bytes

/-- Reading the fields of a record behind each other. -/
def decodeFields : List (String × Schema) → List UInt8 →
    Option (List (String × Datum) × List UInt8)
  | [], bytes => some ([], bytes)
  | (name, field) :: fields, bytes => do
    let (datum, rest) ← decode field bytes
    let (values, rest) ← decodeFields fields rest
    return ((name, datum) :: values, rest)

end

/-- The signed number comes back. -/
theorem unzigzag_zigzag (value : Int) : unzigzag (zigzag value) = value := by
  -- Even numbers stand for what is not negative, odd ones for the rest.
  unfold zigzag unzigzag
  by_cases positive : 0 ≤ value
  · rw [if_pos positive, if_pos (by omega)]
    omega
  · rw [if_neg positive, if_neg (by omega)]
    omega

/-- A number of 64 bits fits into ten groups. -/
theorem zigzag_lt {value : Int} (low : -9223372036854775808 ≤ value)
    (high : value ≤ 9223372036854775807) : zigzag value < 128 ^ (9 + 1) := by
  unfold zigzag
  split <;> omega

/-- The number comes back, with what follows it. -/
theorem readVarint_varint {groups number : Nat} (fits : number < 128 ^ (groups + 1))
    (rest : List UInt8) : readVarint (varint groups number ++ rest) = some (number, rest) := by
  -- Each group takes seven bits off the number.
  induction groups generalizing number with
  | zero =>
    have byte : (UInt8.ofNat number).toNat = number := by
      rw [UInt8.toNat_ofNat']
      omega
    have small : number < 128 := by omega
    simp only [varint, List.cons_append, List.nil_append, readVarint, byte, if_pos small]
  | succ groups ih =>
    by_cases small : number < 128
    · have byte : (UInt8.ofNat number).toNat = number := by
        rw [UInt8.toNat_ofNat']
        omega
      rw [varint, if_pos small]
      simp only [List.cons_append, List.nil_append, readVarint, byte, if_pos small]
    · have byte : (UInt8.ofNat (number % 128 + 128)).toNat = number % 128 + 128 := by
        rw [UInt8.toNat_ofNat']
        omega
      have continued : ¬ number % 128 + 128 < 128 := by omega
      have high : number / 128 < 128 ^ (groups + 1) := by
        rw [Nat.div_lt_iff_lt_mul (by decide), ← Nat.pow_succ]
        exact fits
      rw [varint, if_neg small]
      simp only [List.cons_append, readVarint, byte, if_neg continued, ih high, Option.bind_eq_bind,
        Option.bind_some, Option.pure_def, Option.some.injEq, Prod.mk.injEq, and_true]
      omega

/-- What was written as a signed number is read back. -/
theorem readLong_writeLong {value : Int} {bytes : List UInt8}
    (written : writeLong value = some bytes) (rest : List UInt8) :
    readLong (bytes ++ rest) = some (value, rest) := by
  -- A number out of range is not written.
  unfold writeLong at written
  split at written
  · next range =>
    cases written
    have number : readVarint (varint 9 (zigzag value) ++ rest) = some (zigzag value, rest) :=
      readVarint_varint (zigzag_lt range.1 range.2) rest
    simp only [readLong, number, unzigzag_zigzag, Option.bind_eq_bind, Option.bind_some,
      Option.pure_def]
  · cases written

/-- What was written as a text is read back. -/
theorem readString_writeString {text : String} {bytes : List UInt8}
    (written : writeString text = some bytes) (rest : List UInt8) :
    readString (bytes ++ rest) = some (text, rest) := by
  obtain ⟨length, counted, same⟩ := Option.bind_eq_some_iff.mp written
  cases same
  -- The length says how many of the bytes belong to the text.
  have valid : String.fromUTF8? ⟨text.toUTF8.data.toList.toArray⟩ = some text := by
    simp [String.fromUTF8?, String.fromUTF8, text.isValidUTF8]
  have enough : 0 ≤ (text.toUTF8.data.toList.length : Int) ∧
      text.toUTF8.data.toList.length ≤ (text.toUTF8.data.toList ++ rest).length := by
    rw [List.length_append]
    omega
  simp only [readString, List.append_assoc, readLong_writeLong counted, Option.bind_eq_bind,
    Option.bind_some, Int.toNat_natCast, if_pos enough, List.take_left, List.drop_left, valid,
    Option.pure_def]

mutual

/-- What a schema has encoded, the same schema reads back. -/
theorem decode_encode : ∀ (schema : Schema) {datum : Datum} {bytes : List UInt8},
    encode schema datum = some bytes → ∀ rest, decode schema (bytes ++ rest) = some (datum, rest)
  | .null, datum, bytes, written, rest => by
    cases datum <;> simp_all [encode, decode]
  | .boolean, datum, bytes, written, rest => by
    cases datum with
    | boolean value =>
      simp only [encode, Option.some.injEq] at written
      subst written
      cases value <;> simp [decode]
    | _ => simp [encode] at written
  | .long, datum, bytes, written, rest => by
    cases datum with
    | long value => simp [decode, readLong_writeLong (by simpa [encode] using written) rest]
    | _ => simp [encode] at written
  | .string, datum, bytes, written, rest => by
    cases datum with
    | string value => simp [decode, readString_writeString (by simpa [encode] using written) rest]
    | _ => simp [encode] at written
  | .union branches, datum, bytes, written, rest => by
    -- The number in front leads back to the branch that has encoded the value.
    obtain ⟨index, number, body, numbered, same, read⟩ :=
      decodeBranch_encodeBranch branches 0 (by simpa [encode] using written) rest
    subst same
    simp [decode, readLong_writeLong numbered, read]
  | .record fields, datum, bytes, written, rest => by
    cases datum with
    | record values =>
      simp [decode, decodeFields_encodeFields fields (by simpa [encode] using written) rest]
    | _ => simp [encode] at written

/-- What one of the branches has encoded, the branch with the number reads back. -/
theorem decodeBranch_encodeBranch : ∀ (branches : List Schema) (first : Nat) {datum : Datum}
    {bytes : List UInt8}, encodeBranch branches first datum = some bytes → ∀ rest,
      ∃ index number body, writeLong (first + index : Nat) = some number ∧ bytes = number ++ body ∧
        decodeBranch branches index (body ++ rest) = some (datum, rest)
  | [], first, datum, bytes, written, rest => by simp [encodeBranch] at written
  | branch :: branches, first, datum, bytes, written, rest => by
    cases encoded : encode branch datum with
    | some body =>
      simp only [encodeBranch, encoded] at written
      obtain ⟨number, numbered, same⟩ := Option.bind_eq_some_iff.mp written
      cases same
      exact ⟨0, number, body, numbered, rfl, decode_encode branch encoded rest⟩
    | none =>
      -- A later branch counts from one more.
      simp only [encodeBranch, encoded] at written
      obtain ⟨index, number, body, numbered, same, read⟩ :=
        decodeBranch_encodeBranch branches (first + 1) written rest
      have count : first + (index + 1) = first + 1 + index := by omega
      exact ⟨index + 1, number, body, count ▸ numbered, same, read⟩

/-- What a list of fields has encoded, the same list reads back. -/
theorem decodeFields_encodeFields : ∀ (fields : List (String × Schema))
    {values : List (String × Datum)} {bytes : List UInt8},
      encodeFields fields values = some bytes → ∀ rest,
        decodeFields fields (bytes ++ rest) = some (values, rest)
  | [], values, bytes, written, rest => by
    cases values <;> simp_all [encodeFields, decodeFields]
  | (name, field) :: fields, values, bytes, written, rest => by
    -- The fields are encoded in the order of the schema, which the names have to follow.
    cases values with
    | nil => simp [encodeFields] at written
    | cons item values =>
      obtain ⟨given, datum⟩ := item
      by_cases same : name = given
      · simp only [encodeFields, if_pos same] at written
        obtain ⟨head, encoded, remaining⟩ := Option.bind_eq_some_iff.mp written
        obtain ⟨tail, others, joined⟩ := Option.bind_eq_some_iff.mp remaining
        cases joined
        simp [decodeFields, decode_encode field encoded,
          decodeFields_encodeFields fields others rest, same]
      · simp [encodeFields, same] at written

end

end AivenExamples.Avro
