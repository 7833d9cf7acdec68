import AivenExamples.PgSync.Casts

/-! Casting the integers by which change events encode dates and times. -/

namespace AivenExamples.PgSync

/-- The encodings of temporal columns. -/
inductive Encoding where
  /-- Days since 1970-01-01. -/
  | date
  /-- Milliseconds since midnight. -/
  | time
  /-- Milliseconds since the start of 1970. -/
  | datetimeMilli
  /-- Microseconds since the start of 1970. -/
  | datetimeMicro
  deriving DecidableEq

namespace Encoding

/-- The cast that a column with the encoding gets. -/
def cast : Encoding → Value → Except PyError Value
  | .date => intToDate
  | .time => milliTime
  | .datetimeMilli => milliToDatetime
  | .datetimeMicro => microToDatetime

/-- The encoding of a column: the first temporal field list that names it decides. -/
def ofColumn (castKeys : TableConfig) (column : String) : Option Encoding :=
  if column ∈ castKeys.dateFields then some .date
  else if column ∈ castKeys.timeFields then some .time
  else if column ∈ castKeys.datetimeMilliFields then some .datetimeMilli
  else if column ∈ castKeys.datetimeMicroFields then some .datetimeMicro
  else if column ∈ castKeys.timestampFields then some .datetimeMilli
  else none

/-- The integers that encode a date, a time of day, or a date and time that Python has. -/
def Encodes : Encoding → Int → Prop
  | .date, days => minDay ≤ days ∧ days ≤ maxDay
  | .time, milliseconds => 0 ≤ milliseconds ∧ milliseconds ≤ 86399999
  | .datetimeMilli, milliseconds =>
    minDay * dayMicroseconds ≤ milliseconds * 1000 ∧
      milliseconds * 1000 < (maxDay + 1) * dayMicroseconds
  | .datetimeMicro, microseconds =>
    minDay * dayMicroseconds ≤ microseconds ∧ microseconds < (maxDay + 1) * dayMicroseconds

instance (encoding : Encoding) (encoded : Int) : Decidable (encoding.Encodes encoded) :=
  match encoding with
  | .date => inferInstanceAs (Decidable (_ ∧ _))
  | .time => inferInstanceAs (Decidable (_ ∧ _))
  | .datetimeMilli => inferInstanceAs (Decidable (_ ∧ _))
  | .datetimeMicro => inferInstanceAs (Decidable (_ ∧ _))

/-- The date, the time of day, or the date and time that an integer encodes. -/
def meaning : Encoding → Int → Value
  | .date, days => .date days
  | .time, milliseconds => .time (milliseconds * 1000).toNat
  | .datetimeMilli, milliseconds => .datetime (milliseconds * 1000)
  | .datetimeMicro, microseconds => .datetime microseconds

/-- Encoding a value again, which rounds down to what the encoding can tell apart. -/
def encode : Encoding → Value → Option Int
  | .date, .date days => some days
  | .time, .time microseconds => some (microseconds / 1000)
  | .datetimeMilli, .datetime microseconds => some (microseconds / 1000)
  | .datetimeMicro, .datetime microseconds => some microseconds
  | _, _ => none

/-- Encoding what an integer means gives the integer back. -/
theorem encode_meaning {encoding : Encoding} {encoded : Int} (fine : encoding.Encodes encoded) :
    encoding.encode (encoding.meaning encoded) = some encoded := by
  -- The units differ by a factor, and times of day are not negative.
  cases encoding with
  | date => rfl
  | time =>
    obtain ⟨positive, _⟩ := fine
    simp only [meaning, encode, Option.some.injEq]
    omega
  | datetimeMilli =>
    simp only [meaning, encode, Option.some.injEq]
    omega
  | datetimeMicro => rfl

/-- The time of day that is made of milliseconds is cut off to whole seconds. -/
theorem milliTime_int {milliseconds : Int} (positive : 0 ≤ milliseconds)
    (below : milliseconds ≤ 86399999) :
    milliTime (.int milliseconds) = .ok (.time (milliseconds / 1000 * 1000000).toNat) := by
  -- Hours, minutes and seconds are successive quotients, whose remainders are handed on.
  have hours : 0 ≤ milliseconds / 3600000 ∧ milliseconds / 3600000 < 24 := by omega
  have seconds : (milliseconds / 3600000 * 60 +
      (milliseconds - milliseconds / 3600000 * 3600000) / 60000) * 60 +
      (milliseconds - milliseconds / 3600000 * 3600000 -
        (milliseconds - milliseconds / 3600000 * 3600000) / 60000 * 60000) / 1000 =
          milliseconds / 1000 := by omega
  simp only [milliTime, asInt, bind, Except.bind, pure, Except.pure, if_pos hours, seconds]

/-- Milliseconds that are no time of day have no cast. -/
theorem milliTime_outside {milliseconds : Int}
    (outside : ¬ (0 ≤ milliseconds ∧ milliseconds ≤ 86399999)) :
    ∃ error, milliTime (.int milliseconds) = .error error := by
  have hours : ¬ (0 ≤ milliseconds / 3600000 ∧ milliseconds / 3600000 < 24) := by omega
  simp only [milliTime, asInt, bind, Except.bind, if_neg hours]
  -- Which error it is depends on the size of the hours.
  split
  · exact ⟨_, rfl⟩
  · exact ⟨_, rfl⟩

/-- What the cast of an encoded integer gives. -/
theorem cast_int {encoding : Encoding} {encoded : Int} (fine : encoding.Encodes encoded) :
    encoding.cast (.int encoded) = .ok (encoding.meaning
      (if encoding = .time then encoded / 1000 * 1000 else encoded)) := by
  cases encoding with
  -- Counting from the epoch is exact.
  | date => simp [cast, intToDate, asInt, dateOfDays, meaning, fine.1, fine.2, bind, Except.bind]
  | datetimeMilli =>
    simp [cast, milliToDatetime, asInt, datetimeOfMicroseconds, meaning, fine.1, fine.2, bind,
      Except.bind]
  | datetimeMicro =>
    simp [cast, microToDatetime, asInt, datetimeOfMicroseconds, meaning, fine.1, fine.2, bind,
      Except.bind]
  -- The milliseconds of a time of day are lost.
  | time =>
    have unit : encoded / 1000 * 1000 * 1000 = encoded / 1000 * 1000000 := by omega
    simp only [cast, milliTime_int fine.1 fine.2, if_true, meaning, unit]

/-- An integer has a cast exactly when it encodes something. -/
theorem cast_int_ok {encoding : Encoding} {encoded : Int} :
    (∃ value, encoding.cast (.int encoded) = .ok value) ↔ encoding.Encodes encoded := by
  constructor
  · intro succeeds
    obtain ⟨value, succeeds⟩ := succeeds
    by_contra outside
    -- Every cast refuses what lies outside of the calendar or of the day.
    cases encoding with
    | date =>
      simp only [Encodes] at outside
      simp [cast, intToDate, asInt, dateOfDays, outside, bind, Except.bind] at succeeds
    | time =>
      simp only [Encodes] at outside
      obtain ⟨error, refused⟩ := milliTime_outside outside
      simp [cast, refused] at succeeds
    | datetimeMilli =>
      simp only [Encodes] at outside
      simp [cast, milliToDatetime, asInt, datetimeOfMicroseconds, outside, bind, Except.bind]
        at succeeds
    | datetimeMicro =>
      simp only [Encodes] at outside
      simp [cast, microToDatetime, asInt, datetimeOfMicroseconds, outside, bind, Except.bind]
        at succeeds
  · exact fun fine => ⟨_, cast_int fine⟩

/-- NULL has no cast. -/
theorem cast_null (encoding : Encoding) : encoding.cast .null = .error .typeError := by
  cases encoding <;> rfl

/-- A temporal column is cast according to its encoding. -/
theorem castColumn_eq {castKeys : TableConfig} {column : String} {encoding : Encoding}
    (encoded : ofColumn castKeys column = some encoding) (value : Value) :
    castColumn castKeys column value = encoding.cast value := by
  -- Both walk through the field lists in the same order.
  unfold ofColumn at encoded
  unfold castColumn
  split_ifs at encoded ⊢ <;> cases encoded <;> rfl

/-- Two integers that encode something mean the same only when they are the same. -/
theorem meaning_injective {encoding : Encoding} {first second : Int}
    (firstFine : encoding.Encodes first) (secondFine : encoding.Encodes second)
    (same : encoding.meaning first = encoding.meaning second) : first = second := by
  -- Encoding what the first one means gives both of them.
  have encoded := encode_meaning firstFine
  rw [same, encode_meaning secondFine, Option.some.injEq] at encoded
  exact encoded.symm

/--
A cast gives back what was encoded exactly when no milliseconds of a time of day are at stake.

The other casts lose nothing, before 1970 as well as after it.
-/
theorem cast_inverts_iff {encoding : Encoding} {encoded : Int}
    (fine : encoding.Encodes encoded) :
    (∃ value, encoding.cast (.int encoded) = .ok value ∧ value = encoding.meaning encoded ∧
      encoding.encode value = some encoded) ↔
        (encoding = .time → encoded % 1000 = 0) := by
  rw [cast_int fine]
  by_cases time : encoding = .time
  · subst time
    -- A time of day survives exactly when cutting off its milliseconds changes nothing.
    have cut : Encoding.time.Encodes (encoded / 1000 * 1000) := by
      obtain ⟨positive, below⟩ := fine
      simp only [Encodes]
      omega
    simp only [if_true, forall_const]
    constructor
    · intro inverts
      obtain ⟨value, given, exact, _⟩ := inverts
      rw [Except.ok.injEq] at given
      have whole := meaning_injective cut fine (given.trans exact)
      omega
    · intro whole
      have same : encoded / 1000 * 1000 = encoded := by omega
      exact ⟨_, rfl, congrArg _ same, by rw [same]; exact encode_meaning fine⟩
  · simp only [time, false_implies, iff_true]
    exact ⟨_, rfl, rfl, encode_meaning fine⟩

/-- A timestamp before 1970 with milliseconds is given back. -/
theorem cast_inverts_before_epoch :
    ∃ value, Encoding.datetimeMilli.cast (.int (-1)) = .ok value ∧
      value = Encoding.datetimeMilli.meaning (-1) ∧
      Encoding.datetimeMilli.encode value = some (-1) := by
  -- One millisecond before 1970 is a whole number of microseconds.
  have fine : Encoding.datetimeMilli.Encodes (-1) := by decide
  exact (cast_inverts_iff fine).mpr (by decide)

/-- The time of day 00:00:00.001 comes out as midnight. -/
theorem cast_inverts_counterexample :
    ¬ ∀ milliseconds : Int, 0 ≤ milliseconds → milliseconds ≤ 86399999 →
      milliTime (.int milliseconds) = .ok (.time (milliseconds * 1000).toNat) := by
  intro inverts
  -- Only whole seconds are kept of the time of day.
  have midnight : milliTime (.int 1) = .ok (.time 0) := rfl
  have exact := inverts 1 (by decide) (by decide)
  rw [midnight] at exact
  cases exact

end Encoding

end AivenExamples.PgSync
