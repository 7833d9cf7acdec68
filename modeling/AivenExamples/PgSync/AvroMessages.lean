import AivenExamples.Data.Avro
import Mathlib.Data.List.MinMax

/-! Decoding framed Avro messages with the schema that was the latest one at the start. -/

namespace AivenExamples.PgSync

/-- Why `parse_avro` raises. -/
inductive DecodingFault where
  /-- `struct.error`, since the header is too short. -/
  | structError
  /-- `ValueError` with its message. -/
  | valueError (message : String)
  /-- An exception of `schemaless_reader`. -/
  | readerError
  deriving DecidableEq

/-- `START_BYTE`. -/
def startByte : Int := 0

/-- `HEADER_SIZE`. -/
def headerSize : Nat := 5

/-- `struct.unpack` with the format `>bI`: a signed byte and four bytes of an unsigned number. -/
def unpackHeader : List UInt8 → Except DecodingFault (Int × Nat)
  | [start, first, second, third, fourth] =>
    .ok (if start.toNat < 128 then start.toNat else start.toNat - 256,
      ((first.toNat * 256 + second.toNat) * 256 + third.toNat) * 256 + fourth.toNat)
  | _ => .error .structError

/-- The format `%x`. -/
def hex (number : Int) : String :=
  (if number < 0 then "-" else "") ++ String.ofList (Nat.toDigits 16 number.natAbs)

/-- A version of the subject as the schema registry has it. -/
structure SchemaVersion (S : Type) where
  version : Nat
  id : UInt32
  schema : S

/-- `sorted(get_schema_versions(…))[-1]`, and the schema that the registry has for it. -/
def startupSchema {S : Type} (registered : List (SchemaVersion S)) : Option S := do
  let latest ← (registered.map SchemaVersion.version).max?
  let info ← registered.find? fun info => decide (info.version = latest)
  return info.schema

/-- The four bytes of a schema id, the highest one first. -/
def idBytes (id : UInt32) : List UInt8 :=
  [.ofNat (id.toNat / 16777216), .ofNat (id.toNat / 65536), .ofNat (id.toNat / 256),
    .ofNat id.toNat]

/-- A message: the magic byte, the schema id and the body. -/
def frame (id : UInt32) (body : List UInt8) : List UInt8 := 0 :: (idBytes id ++ body)

section Reader

variable {S R : Type} (schemalessReader : S → List UInt8 → Option R)

/-- `parse_avro`, which reads with the global schema whatever schema it is given. -/
def parseAvro (avroSchema : S) (msg : List UInt8) (_schema : S) : Except DecodingFault R := do
  let (start, _schemaId) ← unpackHeader (msg.take headerSize)
  if start ≠ startByte then
    .error (.valueError ("Start byte is " ++ hex start ++ " and should be " ++ hex startByte))
  else
    match schemalessReader avroSchema (msg.drop headerSize) with
    | some record => .ok record
    | none => .error .readerError

/-- What becomes of a message in a run of `avro_main.py`, if that has found a schema to start. -/
def decodeMessage (registered : List (SchemaVersion S)) (msg : List UInt8) :
    Option (Except DecodingFault R) := do
  let avroSchema ← startupSchema registered
  return parseAvro schemalessReader avroSchema msg avroSchema

/-- The header of a message tells the schema id. -/
theorem unpackHeader_frame (id : UInt32) (body : List UInt8) :
    unpackHeader ((frame id body).take headerSize) = .ok (0, id.toNat) := by
  have range := id.toNat_lt
  -- Four bytes put together are the id again.
  have number : ((id.toNat / 16777216 % 256 * 256 + id.toNat / 65536 % 256) * 256 +
      id.toNat / 256 % 256) * 256 + id.toNat % 256 = id.toNat := by omega
  simp [frame, idBytes, headerSize, unpackHeader, number]

/-- The body of a message is what follows the header. -/
theorem drop_frame (id : UInt32) (body : List UInt8) : (frame id body).drop headerSize = body := by
  simp [frame, idBytes, headerSize]

/-- A message with a proper header is read with the schema of the start. -/
theorem parseAvro_frame (avroSchema given : S) (id : UInt32) (body : List UInt8) :
    parseAvro schemalessReader avroSchema (frame id body) given =
      match schemalessReader avroSchema body with
      | some record => .ok record
      | none => .error .readerError := by
  simp only [parseAvro, unpackHeader_frame, drop_frame, startByte, bind, Except.bind, ne_eq,
    not_true_eq_false, if_false]

/-- A message that does not start with the magic byte or is too short for a header is refused. -/
theorem parseAvro_refuses (avroSchema given : S) {msg : List UInt8}
    (malformed : msg.length < headerSize ∨ msg.head? ≠ some 0) :
    ∃ fault, parseAvro schemalessReader avroSchema msg given = .error fault := by
  unfold parseAvro
  match msg with
  | [] | [_] | [_, _] | [_, _, _] | [_, _, _, _] =>
    exact ⟨.structError, by simp [headerSize, unpackHeader, bind, Except.bind]⟩
  | start :: first :: second :: third :: fourth :: body =>
    -- There is a header, so its first byte has to be the wrong one.
    have wrong : start ≠ 0 := by
      rcases malformed with short | other
      · simp only [List.length_cons, headerSize] at short
        omega
      · simpa using other
    have positive : start.toNat ≠ 0 := fun zero => wrong (UInt8.toNat_inj.mp zero)
    have below := start.toNat_lt
    have signed : (if start.toNat < 128 then (start.toNat : Int) else start.toNat - 256) ≠
        startByte := by
      unfold startByte
      split <;> omega
    simp only [headerSize, List.take_succ_cons, List.take_zero, unpackHeader, bind, Except.bind,
      if_pos signed]
    exact ⟨_, rfl⟩

variable {schemalessReader} {write : S → R → Option (List UInt8)}

/-- The framed message gives back its record, and other messages than framed ones are refused. -/
structure Decodes (schemalessReader : S → List UInt8 → Option R)
    (registered : List (SchemaVersion S)) (id : UInt32) (body : List UInt8) (record : R) :
    Prop where
  framed : decodeMessage schemalessReader registered (frame id body) = some (.ok record)
  refuses : ∀ msg : List UInt8, msg.length < headerSize ∨ msg.head? ≠ some 0 →
    ∃ fault, decodeMessage schemalessReader registered msg = some (.error fault)

/-- Messages without a proper header are refused whatever the schema of the start is. -/
theorem decodeMessage_refuses {registered : List (SchemaVersion S)} {avroSchema : S}
    (started : startupSchema registered = some avroSchema) {msg : List UInt8}
    (malformed : msg.length < headerSize ∨ msg.head? ≠ some 0) :
    ∃ fault, decodeMessage schemalessReader registered msg = some (.error fault) := by
  -- The header is looked at before any schema.
  obtain ⟨fault, raised⟩ := parseAvro_refuses schemalessReader avroSchema avroSchema malformed
  exact ⟨fault, by simp [decodeMessage, started, raised]⟩

/-- The record comes back exactly when the schema of the start reads it from the body. -/
theorem decodes_iff_read {registered : List (SchemaVersion S)} {avroSchema : S}
    (started : startupSchema registered = some avroSchema) (id : UInt32) (body : List UInt8)
    (record : R) : Decodes schemalessReader registered id body record ↔
      schemalessReader avroSchema body = some record := by
  -- The schema id of the message plays no part in reading it.
  have read : decodeMessage schemalessReader registered (frame id body) = some (.ok record) ↔
      schemalessReader avroSchema body = some record := by
    simp only [decodeMessage, started, Option.bind_eq_bind, Option.bind_some, Option.pure_def,
      Option.some.injEq, parseAvro_frame]
    cases schemalessReader avroSchema body <;> simp
  exact ⟨fun decodes => read.mp decodes.framed,
    fun found => ⟨read.mpr found, fun _ malformed => decodeMessage_refuses started malformed⟩⟩

/--
A message gives back its record when the schema of the start would have written it to the same
bytes.

For a body that this schema reads as one of its own, it does so only then.
-/
theorem decodeMessage_rewritten
    (inverts : ∀ schema record body, write schema record = some body →
      schemalessReader schema body = some record)
    {registered : List (SchemaVersion S)} {avroSchema : S}
    (started : startupSchema registered = some avroSchema)
    {writer : SchemaVersion S} {record : R} {body : List UInt8}
    (written : write writer.schema record = some body) :
    (write avroSchema record = write writer.schema record →
      Decodes schemalessReader registered writer.id body record) ∧
      ((∀ other, schemalessReader avroSchema body = some other →
          write avroSchema other = some body) →
        Decodes schemalessReader registered writer.id body record →
          write avroSchema record = write writer.schema record) := by
  rw [decodes_iff_read started, written]
  -- What is read is the record, so that it is the one that would be written to the body.
  exact ⟨inverts avroSchema record body, fun own found => own record found⟩

end Reader

/-- `schemaless_reader` for the part of Avro that has a model. -/
def avroReader (schema : Avro.Schema) (bytes : List UInt8) : Option Avro.Datum :=
  (Avro.decode schema bytes).map Prod.fst

/-- The reader gives back what was written under the same schema. -/
theorem avroReader_inverts (schema : Avro.Schema) (record : Avro.Datum) (body : List UInt8)
    (written : Avro.encode schema record = some body) : avroReader schema body = some record := by
  have read := Avro.decode_encode schema written []
  rw [List.append_nil] at read
  simp [avroReader, read]

/-- A version of a subject whose rows may go without a note. -/
def plainNotes : SchemaVersion Avro.Schema :=
  ⟨1, 7, .record [("id", .long), ("note", .union [.null, .string])]⟩

/-- A version whose notes may be numbers as well. -/
def numberedNotes : SchemaVersion Avro.Schema :=
  ⟨2, 8, .record [("id", .long), ("note", .union [.null, .string, .long])]⟩

/-- A message of the version before is decoded when a branch was added behind the others. -/
theorem decodeMessage_branchAdded : Decodes avroReader [plainNotes, numberedNotes] plainNotes.id
    [2, 2, 4, 104, 105] (.record [("id", .long 1), ("note", .string "hi")]) := by
  have written : Avro.encode plainNotes.schema
      (.record [("id", .long 1), ("note", .string "hi")]) = some [2, 2, 4, 104, 105] := by
    decide +kernel
  have started : startupSchema [plainNotes, numberedNotes] = some numberedNotes.schema := rfl
  -- The text has the same number among the branches of both versions.
  exact (decodeMessage_rewritten avroReader_inverts started written).1 (by decide +kernel)

/-- Without the last hypothesis a record can come back by chance, from a part of its bytes. -/
example : Avro.encode (.union [.null, .long]) (.long 1) = some [2, 2] ∧
    avroReader .long [2, 2] = some (.long 1) ∧ Avro.encode .long (.long 1) = some [2] :=
  ⟨rfl, rfl, rfl⟩

/-- The first version of a subject. -/
def oldVersion : SchemaVersion Avro.Schema :=
  ⟨1, 7, .record [("id", .long), ("int_column", .long)]⟩

/-- A version that lists the fields in another order. -/
def newVersion : SchemaVersion Avro.Schema :=
  ⟨2, 8, .record [("int_column", .long), ("id", .long)]⟩

/-- A message of the version before it comes out with its fields exchanged. -/
theorem decodeMessage_counterexample :
    Avro.encode oldVersion.schema (.record [("id", .long 1), ("int_column", .long 2)]) =
      some [2, 4] ∧
      ¬Decodes avroReader [oldVersion, newVersion] oldVersion.id [2, 4]
        (.record [("id", .long 1), ("int_column", .long 2)]) := by
  refine ⟨rfl, fun decodes => ?_⟩
  -- Both fields are integers, and the reader takes them in the order of the new schema.
  have exchanged : decodeMessage avroReader [oldVersion, newVersion] (frame oldVersion.id [2, 4]) =
      some (.ok (.record [("int_column", .long 1), ("id", .long 2)])) := rfl
  have framed := decodes.framed
  rw [exchanged] at framed
  simp at framed

end AivenExamples.PgSync
