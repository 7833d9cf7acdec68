import AivenExamples.Data.Base64
import Mathlib.Data.Rat.Floor

/-! The configuration of the replicated tables and the casts of their column values. -/

namespace AivenExamples.PgSync

/-- A column value, as decoded from a change event or as handed to the database. -/
inductive Value where
  | null
  | bool (value : Bool)
  | int (value : Int)
  | float (value : Rat)
  | text (value : String)
  /-- The elements of an array column. -/
  | texts (values : List String)
  | bytes (value : List UInt8)
  /-- A calendar date by its days since 1970-01-01. -/
  | date (days : Int)
  /-- A time of day by its microseconds since midnight. -/
  | time (microseconds : Nat)
  /-- A date and time by its microseconds since the start of 1970. -/
  | datetime (microseconds : Int)
  deriving DecidableEq

/-- A row image of a change event by column. -/
abbrev Image := Dict String Value

/-- What the configuration file says about a table. -/
structure TableConfig where
  dateFields : List String
  timeFields : List String
  datetimeMilliFields : List String
  datetimeMicroFields : List String
  timestampFields : List String
  binaryFields : List String
  setFields : List String
  rowIdentifier : Option (List String)
  deriving DecidableEq

/-- The configuration file by table name. -/
abbrev Config := Dict String TableConfig

/-- `CONFIG[table_name]`. -/
def Config.table (config : Config) (tableName : String) : Except PyError TableConfig :=
  match Dict.get? config tableName with
  | some settings => .ok settings
  | none => .error (.keyError tableName)

/-- Integers and booleans are what integer arithmetic accepts. -/
def asInt : Value → Except PyError Int
  | .int value => .ok value
  -- A boolean counts as zero or one.
  | .bool value => .ok (if value then 1 else 0)
  | _ => .error .typeError

/-- Rounding to the nearest integer, and to the even one halfway. -/
def roundHalfEven (value : Rat) : Int :=
  let below := value.floor
  let rest := value - below
  -- The fraction is compared with one half.
  if rest < 1 / 2 then below
  else if 1 / 2 < rest then below + 1
  else if below % 2 = 0 then below
  else below + 1

/-- The microseconds of a day. -/
def dayMicroseconds : Int := 86400000000

/-- The day `0001-01-01`. -/
def minDay : Int := -719162

/-- The day `9999-12-31`. -/
def maxDay : Int := 2932896

/-- A date that the calendar has. -/
def dateOfDays (days : Int) : Except PyError Value :=
  if minDay ≤ days ∧ days ≤ maxDay then .ok (.date days) else .error .overflowError

/-- A date and time that the calendar has. -/
def datetimeOfMicroseconds (microseconds : Int) : Except PyError Value :=
  if minDay * dayMicroseconds ≤ microseconds ∧ microseconds < (maxDay + 1) * dayMicroseconds then
    .ok (.datetime microseconds)
  else .error .overflowError

/-- `int_to_date`; a fractional number of days counts down to the last whole one. -/
def intToDate : Value → Except PyError Value
  | .float days => dateOfDays (roundHalfEven (days * dayMicroseconds) / dayMicroseconds)
  | value => do dateOfDays (← asInt value)

/--
`milli_time`, which drops the milliseconds.

Hours that no day has are an error, of another kind where they do not fit into a C `int`; floating
point hours are none at all.
-/
def milliTime (value : Value) : Except PyError Value := do
  let milliseconds ← asInt value
  let hours := milliseconds / 3600000
  let milliseconds := milliseconds - hours * 3600000
  let minutes := milliseconds / 60000
  let milliseconds := milliseconds - minutes * 60000
  let seconds := milliseconds / 1000
  -- The hours alone can be out of range, since the rest is a remainder.
  if 0 ≤ hours ∧ hours < 24 then
    return .time (((hours * 60 + minutes) * 60 + seconds) * 1000000).toNat
  else if -2147483648 ≤ hours ∧ hours < 2147483648 then
    .error (.valueError "hour must be in 0..23")
  else .error .overflowError

/-- `micro_to_datetime`. -/
def microToDatetime : Value → Except PyError Value
  | .float microseconds => datetimeOfMicroseconds (roundHalfEven microseconds)
  | value => do datetimeOfMicroseconds (← asInt value)

/-- `milli_to_datetime`. -/
def milliToDatetime : Value → Except PyError Value
  | .float milliseconds => datetimeOfMicroseconds (roundHalfEven (milliseconds * 1000))
  | value => do datetimeOfMicroseconds ((← asInt value) * 1000)

/-- `binary_value`. -/
def binaryValue : Value → Except PyError Value
  | .text value => do return .bytes (← Base64.b64decode value)
  -- Bytes are decoded as the ASCII text that they spell.
  | .bytes value => do
    return .bytes (← Base64.decodeFrom 0 0 0 (value.map fun byte => Char.ofNat byte.toNat))
  | _ => .error .typeError

/-- The cast of one column: the first field list that names the column decides. -/
def castColumn (castKeys : TableConfig) (column : String) (value : Value) : Except PyError Value :=
  if column ∈ castKeys.dateFields then intToDate value
  else if column ∈ castKeys.timeFields then milliTime value
  else if column ∈ castKeys.datetimeMilliFields then milliToDatetime value
  else if column ∈ castKeys.datetimeMicroFields then microToDatetime value
  else if column ∈ castKeys.timestampFields then milliToDatetime value
  else if column ∈ castKeys.binaryFields then binaryValue value
  -- A set is passed on as the text it arrives in.
  else if column ∈ castKeys.setFields then .ok value
  else .ok value

/-- A day of the calendar is not NULL. -/
theorem dateOfDays_ne_null (days : Int) : dateOfDays days ≠ .ok .null := by
  unfold dateOfDays
  split <;> simp

/-- A date and time of the calendar is not NULL. -/
theorem datetimeOfMicroseconds_ne_null (microseconds : Int) :
    datetimeOfMicroseconds microseconds ≠ .ok .null := by
  unfold datetimeOfMicroseconds
  split <;> simp

/-- A step whose results are never NULL makes the whole computation never NULL. -/
theorem bind_ne_null {α : Type} {first : Except PyError α} {next : α → Except PyError Value}
    (present : ∀ value, next value ≠ .ok .null) : (first >>= next) ≠ .ok .null := by
  -- What the second step returns is what is returned.
  intro made
  obtain ⟨value, _, made⟩ := bind_eq_ok.mp made
  exact present value made

/-- No cast turns a value into NULL. -/
theorem castColumn_ne_null {settings : TableConfig} {column : String} {value : Value}
    (present : value ≠ .null) : castColumn settings column value ≠ .ok .null := by
  -- Integers and fractions take different ways into the calendar.
  have date : intToDate value ≠ .ok .null := by
    cases value <;>
      first | exact dateOfDays_ne_null _ | exact bind_ne_null fun _ => dateOfDays_ne_null _
  -- A time of day is made or refused.
  have time : milliTime value ≠ .ok .null := by
    refine bind_ne_null fun milliseconds => ?_
    simp only
    split_ifs <;> simp [pure, Except.pure]
  have milli : milliToDatetime value ≠ .ok .null := by
    cases value <;>
      first
      | exact datetimeOfMicroseconds_ne_null _
      | exact bind_ne_null fun _ => datetimeOfMicroseconds_ne_null _
  have micro : microToDatetime value ≠ .ok .null := by
    cases value <;>
      first
      | exact datetimeOfMicroseconds_ne_null _
      | exact bind_ne_null fun _ => datetimeOfMicroseconds_ne_null _
  have binary : binaryValue value ≠ .ok .null := by
    cases value <;>
      first
      | exact bind_ne_null fun _ => by simp [pure, Except.pure]
      | simp [binaryValue]
  -- Without a cast the value stays what it is.
  have other : (Except.ok value : Except PyError Value) ≠ .ok .null := by simpa using present
  -- One of the field lists decides, or none of them.
  unfold castColumn
  split_ifs <;> assumption

/-- `cast_values`: the casts of columns and values side by side. -/
def castValues (config : Config) (keys : List String) (values : List Value) (tableName : String) :
    Except PyError (List Value) := do
  let castKeys ← config.table tableName
  (keys.zip values).mapM fun item => castColumn castKeys item.1 item.2

/-- `find_row_identifier`: an empty list of columns counts as none. -/
def findRowIdentifier (config : Config) (tableName : String) :
    Except PyError (Option (List String)) := do
  let settings ← config.table tableName
  -- An empty list is false, and so counts as missing.
  match settings.rowIdentifier with
  | some (column :: columns) => return some (column :: columns)
  | _ => return none

end AivenExamples.PgSync
