import AivenExamples.PgSync.Configured
import AivenExamples.PgSync.Temporal

/-! The values that keep the replicator at one event for ever. -/

namespace AivenExamples.PgSync

/--
What a change event may hold in a column of the source.

A temporal column holds an encoded integer, a binary column base64 text, and either may be NULL.
-/
def ColumnAllows (castKeys : TableConfig) (column : String) (value : Value) : Prop :=
  match Encoding.ofColumn castKeys column with
  | some _ => value = .null ∨ ∃ encoded, value = .int encoded
  | none => column ∈ castKeys.binaryFields →
    value = .null ∨ ∃ text bytes, value = .text text ∧ Base64.b64decode text = .ok bytes

/-- The values that the cast of a column takes: no NULL, and nothing outside of the calendar. -/
def Fits (castKeys : TableConfig) (column : String) (value : Value) : Prop :=
  match Encoding.ofColumn castKeys column with
  | some encoding => ∃ encoded, value = .int encoded ∧ encoding.Encodes encoded
  | none => column ∈ castKeys.binaryFields → value ≠ .null

/-- Without an encoding a column is cast only when it is a binary one. -/
theorem castColumn_of_plain {castKeys : TableConfig} {column : String}
    (plain : Encoding.ofColumn castKeys column = none) (value : Value) :
    castColumn castKeys column value =
      if column ∈ castKeys.binaryFields then binaryValue value else .ok value := by
  -- None of the temporal field lists names the column.
  unfold Encoding.ofColumn at plain
  unfold castColumn
  split_ifs at plain ⊢ <;> rfl

/-- A cast succeeds exactly for the values that it takes. -/
theorem castColumn_ok_iff {castKeys : TableConfig} {column : String} {value : Value}
    (allowed : ColumnAllows castKeys column value) :
    (∃ cast, castColumn castKeys column value = .ok cast) ↔ Fits castKeys column value := by
  unfold ColumnAllows at allowed
  unfold Fits
  -- Temporal columns take integers and NULL; of the others only binary ones are decoded.
  cases encoded : Encoding.ofColumn castKeys column with
  | some encoding =>
    simp only [encoded] at allowed
    simp only [Encoding.castColumn_eq encoded]
    rcases allowed with missing | present
    · simp [missing, Encoding.cast_null]
    · obtain ⟨number, same⟩ := present
      simp [same, Encoding.cast_int_ok]
  | none =>
    simp only [encoded] at allowed
    simp only [castColumn_of_plain encoded]
    by_cases binary : column ∈ castKeys.binaryFields
    · simp only [binary, forall_const]
      rcases allowed binary with missing | present
      · simp [missing, binaryValue]
      · obtain ⟨text, bytes, same, decoded⟩ := present
        simp [same, binaryValue, decoded, bind, Except.bind, pure, Except.pure]
    · simp [binary]

/-- A cast that takes NULL passes it through. -/
theorem castColumn_null {castKeys : TableConfig} {column : String} {cast : Value}
    (succeeds : castColumn castKeys column .null = .ok cast) : cast = .null := by
  -- A binary column raises for NULL, and every other one leaves it as it is.
  cases encoded : Encoding.ofColumn castKeys column with
  | some encoding =>
    rw [Encoding.castColumn_eq encoded, Encoding.cast_null] at succeeds
    cases succeeds
  | none =>
    rw [castColumn_of_plain encoded] at succeeds
    split_ifs at succeeds
    · cases succeeds
    · exact (Except.ok.inj succeeds).symm

/-- The loop around a message ends exactly when an attempt at it takes effect. -/
theorem retryLoop_ends_iff {config : Config} {database : Database} {message : Option Change} :
    (∃ attempts after, retryLoop .main config database message attempts = some after) ↔
      ∃ after, effect config database message = .ok after := by
  -- The loop tries the same message until an attempt takes effect.
  constructor
  · intro ends
    obtain ⟨_, after, ended⟩ := ends
    exact ⟨after, effect_of_retryLoop ended⟩
  · intro succeeds
    obtain ⟨after, applied⟩ := succeeds
    exact ⟨1, after, retryLoop_of_ok applied Nat.one_pos⟩

namespace ConfiguredTable

variable {config : Config} (t : ConfiguredTable config)

/-- A database that runs every statement with columns and parameters of the table. -/
def AcceptsWellTyped (database : Database) : Prop :=
  ∃ table, database t.target = some table ∧ (∀ column ∈ t.columns, column ∈ table.columns) ∧
    ∀ statement params, statement.target = t.target → table.accepts statement params = true →
      ∃ after, execute database statement params = .ok after

/-- `cast_values` gives one value for each column, and NULL for NULL. -/
def CastsAll (items : Image) : Prop :=
  ∃ casts, castValues config (Dict.keys items) (Dict.values items) t.table = .ok casts ∧
    casts.length = items.length ∧
      List.Forall₂ (fun item cast => item.2 = .null → cast = .null) items casts

/-- `cast_values` does its work exactly when every single cast does. -/
theorem castsAll_iff (items : Image) :
    t.CastsAll items ↔ ∀ item ∈ items, ∃ cast, castColumn t.settings item.1 item.2 = .ok cast := by
  simp only [CastsAll, t.castValues_eq]
  constructor
  · intro all
    obtain ⟨casts, succeeds, _⟩ := all
    exact mapM_succeeds_iff.mp ⟨casts, succeeds⟩
  · intro every
    obtain ⟨casts, succeeds⟩ := mapM_succeeds_iff.mpr every
    have related := mapM_eq_ok_iff.mp succeeds
    -- There is one cast for each item, and none of NULL is anything else.
    refine ⟨casts, succeeds, related.length_eq.symm, related.imp fun item cast given missing => ?_⟩
    rw [missing] at given
    exact castColumn_null given

/-- The parameters of a change are there exactly when all calls of `cast_values` succeed. -/
theorem castParams_ok_iff (change : TableChange t) :
    (∃ params, t.castParams change = .ok params) ↔ ∀ items ∈ t.castCalls change,
      t.CastsAll items := by
  -- The calls are made one after the other, and the first that raises ends them.
  have calls : (∃ params, t.castParams change = .ok params) ↔
      ∃ casts, (t.castCalls change).mapM t.castAll = .ok casts := by
    unfold castParams
    cases (t.castCalls change).mapM t.castAll <;> simp [bind, Except.bind, pure, Except.pure]
  rw [calls, mapM_succeeds_iff]
  refine forall₂_congr fun items _ => ?_
  rw [castsAll_iff]
  exact mapM_succeeds_iff

/-- On such a database an attempt takes effect exactly when the parameters can be cast. -/
theorem effect_ok_iff {database : Database} (accepts : t.AcceptsWellTyped database)
    (change : TableChange t) :
    (∃ after, effect config database (some (t.event change)) = .ok after) ↔
      ∃ params, t.castParams change = .ok params := by
  rw [t.effect_event]
  cases casts : t.castParams change with
  | error fault => simp [python, Except.mapError, Except.bind]
  | ok params =>
    -- The database runs the statement with the parameters.
    obtain ⟨table, _, columns, runs⟩ := accepts
    have wellTyped := t.accepts_statementOf columns (t.castParams_length casts)
    obtain ⟨after, executed⟩ := runs _ params (t.target_statementOf change) wellTyped
    simp [python, Except.mapError, Except.bind, executed]

/-- Every call of `cast_values` is about values of the images of the change. -/
theorem mem_castCalls {change : TableChange t} {items : Image} (call : items ∈ t.castCalls change)
    {item : String × Value} (member : item ∈ items) :
    ∃ row ∈ change.images, item ∈ row.image := by
  have identifying : ∀ row : WholeImage t, item ∈ t.identifyingItems row → item ∈ row.image := by
    intro row there
    unfold identifyingItems at there
    cases identified : t.identifier? with
    | none => rwa [identified] at there
    | some columns =>
      -- The value is looked up in the image, where the column has one.
      rw [identified] at there
      obtain ⟨column, named, same⟩ := List.mem_map.mp there
      obtain ⟨value, found⟩ := row.found (t.identifier?_columns identified column named)
      rw [found, Option.getD_some] at same
      exact same ▸ Dict.mem_of_get? found
  cases change with
  | insert after =>
    cases List.mem_singleton.mp call
    exact ⟨after, by simp [RowChange.images], member⟩
  | update before after =>
    rcases List.mem_cons.mp call with first | second
    · exact ⟨after, by simp [RowChange.images], first ▸ member⟩
    · cases List.mem_singleton.mp second
      exact ⟨before, by simp [RowChange.images], identifying before member⟩
  | delete before =>
    cases List.mem_singleton.mp call
    exact ⟨before, by simp [RowChange.images], identifying before member⟩

/--
The loop of `main.py` gets past an event, and `cast_values` does its work, exactly when every value
that is cast fits its cast.
-/
theorem gets_past_iff {database : Database} (accepts : t.AcceptsWellTyped database)
    (change : TableChange t)
    (allowed : ∀ row ∈ change.images, ∀ item ∈ row.image, ColumnAllows t.settings item.1 item.2) :
    ((∃ attempts after,
        retryLoop .main config database (some (t.event change)) attempts = some after) ∧
      ∀ items ∈ t.castCalls change, t.CastsAll items) ↔
        ∀ items ∈ t.castCalls change, ∀ item ∈ items, Fits t.settings item.1 item.2 := by
  -- The calls of `cast_values` decide whether the loop ends.
  rw [retryLoop_ends_iff, t.effect_ok_iff accepts, t.castParams_ok_iff, and_self]
  refine forall₂_congr fun items call => ?_
  rw [castsAll_iff]
  refine forall₂_congr fun item member => ?_
  obtain ⟨row, inImages, inRow⟩ := t.mem_castCalls call member
  exact castColumn_ok_iff (allowed row inImages item inRow)

/-- A table without unique constraints takes every well typed statement. -/
theorem acceptsWellTyped_of_unconstrained {database : Database} {table : Table}
    (there : database t.target = some table)
    (columns : ∀ column ∈ t.columns, column ∈ table.columns) (unconstrained : table.unique = []) :
    t.AcceptsWellTyped database := by
  refine ⟨table, there, columns, fun statement params about accepted => ?_⟩
  -- No constraint stands in the way of the new rows.
  obtain ⟨changed, taken⟩ : ∃ changed,
      table.withRows (statement.rowsAfter params table.rows) = .ok changed :=
    ⟨⟨table.columns, table.unique, statement.rowsAfter params table.rows, by simp [unconstrained]⟩,
      Table.withRows_eq_ok.mpr ⟨rfl, rfl, rfl⟩⟩
  exact ⟨_, execute_eq_ok.mpr ⟨table, changed, about ▸ there, accepted, taken, rfl⟩⟩

end ConfiguredTable

/-- The settings of `config.json`. -/
def allDatatypesSettings : TableConfig where
  dateFields := ["date_column"]
  timeFields := ["time_column"]
  datetimeMilliFields := []
  datetimeMicroFields := []
  timestampFields := ["datetime_column", "timestamp_column"]
  binaryFields := ["blob_column"]
  setFields := ["set_column"]
  rowIdentifier := some ["id"]

/-- The configuration of `config.json`. -/
def allDatatypesConfig : Config := [("all_datatypes", allDatatypesSettings)]

/-- The table of `pg.sql`. -/
def allDatatypes : ConfiguredTable allDatatypesConfig where
  schema := "public"
  table := "all_datatypes"
  settings := allDatatypesSettings
  columns := ["id", "int_column", "bigint_column", "float_column", "decimal_column", "date_column",
    "datetime_column", "time_column", "year_column", "char_column", "varchar_column",
    "blob_column", "text_column", "enum_column", "set_column", "bool_column", "json_column"]
  columns_ne_nil := by simp
  configured := rfl
  identifier_columns := by simp [allDatatypesSettings]

/-- A row of the table with a date, a date and time, a time of day and a text of bytes. -/
def allDatatypesRow (date datetime time blob : Value) : WholeImage allDatatypes where
  image := [("id", .int 1), ("int_column", .null), ("bigint_column", .null),
    ("float_column", .null), ("decimal_column", .null), ("date_column", date),
    ("datetime_column", datetime), ("time_column", time), ("year_column", .null),
    ("char_column", .null), ("varchar_column", .null), ("blob_column", blob),
    ("text_column", .null), ("enum_column", .null), ("set_column", .null), ("bool_column", .null),
    ("json_column", .null)]
  distinct := by
    show allDatatypes.columns.Nodup
    decide
  full := fun _ => Iff.rfl

/-- A sink with an empty table. -/
def allDatatypesSink : Database :=
  Function.update (fun _ => none) allDatatypes.target (some ⟨allDatatypes.columns, [], [], by simp⟩)

/-- The sink takes every well typed statement. -/
theorem allDatatypesSink_accepts : allDatatypes.AcceptsWellTyped allDatatypesSink :=
  allDatatypes.acceptsWellTyped_of_unconstrained (Function.update_self _ _ _)
    (fun _ member => member) rfl

/-- A row without NULL in its casted columns. -/
def filledRow : WholeImage allDatatypes :=
  allDatatypesRow (.int 10957) (.int 0) (.int 0) (.text "YQ==")

/-- A row that leaves all of its nullable columns out. -/
def emptyRow : WholeImage allDatatypes := allDatatypesRow .null .null .null .null

/-- The loop gets past the insertion of a row without NULL in its casted columns. -/
theorem gets_past_filled :
    (∃ attempts after, retryLoop .main allDatatypesConfig allDatatypesSink
      (some (allDatatypes.event (.insert filledRow))) attempts = some after) ∧
      ∀ items ∈ allDatatypes.castCalls (.insert filledRow), allDatatypes.CastsAll items := by
  refine (allDatatypes.gets_past_iff allDatatypesSink_accepts (.insert filledRow) ?_).mpr ?_
  · intro row inImages
    cases List.mem_singleton.mp inImages
    simp [filledRow, allDatatypesRow, ColumnAllows, allDatatypes, allDatatypesSettings,
      Encoding.ofColumn]
    exact ⟨_, rfl⟩
  · -- Every cell holds a value of the kind that its cast takes.
    intro items call
    cases List.mem_singleton.mp call
    simp [filledRow, allDatatypesRow, Fits, allDatatypes, allDatatypesSettings, Encoding.ofColumn]
    decide

/-- The sink would take the row, and no number of attempts gets past its insertion. -/
theorem gets_past_counterexample :
    allDatatypes.AcceptsWellTyped allDatatypesSink ∧
      (∀ item ∈ emptyRow.image, ColumnAllows allDatatypes.settings item.1 item.2) ∧
      ¬ ∃ attempts after, retryLoop .main allDatatypesConfig allDatatypesSink
        (some (allDatatypes.event (.insert emptyRow))) attempts = some after := by
  refine ⟨allDatatypesSink_accepts, ?_, ?_⟩
  · simp [emptyRow, allDatatypesRow, ColumnAllows, allDatatypes, allDatatypesSettings,
      Encoding.ofColumn]
  -- Casting the missing date raises in every attempt.
  · intro ends
    obtain ⟨after, applied⟩ := retryLoop_ends_iff.mp ends
    have raised : effect allDatatypesConfig allDatatypesSink
        (some (allDatatypes.event (.insert emptyRow))) = .error (.python .typeError) := rfl
    rw [raised] at applied
    cases applied

end AivenExamples.PgSync
