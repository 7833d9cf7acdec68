import AivenExamples.PgSync.Configured

/-! Replicated tables, the events of their changes, and the statements that the events lead to. -/

namespace AivenExamples.PgSync

/-- A table of the configuration with a row identifier. -/
structure Replication (config : Config) where
  schema : String
  table : String
  settings : TableConfig
  columns : List String
  identifier : List String
  configured : Dict.get? config table = some settings
  identified : settings.rowIdentifier = some identifier
  identifier_ne_nil : identifier ≠ []
  identifier_columns : ∀ column ∈ identifier, column ∈ columns

/-- A row of the source as a change event shows it: all columns, castable, and with a key. -/
structure FullImage {config : Config} (r : Replication config) where
  image : Image
  distinct : (Dict.keys image).Nodup
  full : ∀ column, column ∈ Dict.keys image ↔ column ∈ r.columns
  casts : ∀ item ∈ image, ∃ value, castColumn r.settings item.1 item.2 = .ok value
  keyed : ∀ column ∈ r.identifier, Dict.get? image column ≠ some .null

/-- The table as one of the configuration. -/
def Replication.configuredTable {config : Config} (r : Replication config) :
    ConfiguredTable config where
  schema := r.schema
  table := r.table
  settings := r.settings
  columns := r.columns
  columns_ne_nil := by
    obtain ⟨column, member⟩ := List.exists_mem_of_ne_nil _ r.identifier_ne_nil
    exact List.ne_nil_of_mem (r.identifier_columns column member)
  configured := r.configured
  identifier_columns := by
    intro identifier identified
    rw [r.identified, Option.some.injEq] at identified
    exact identified ▸ r.identifier_columns

/-- The table of the sink that the statements are about. -/
def Replication.target {config : Config} (r : Replication config) : String × String :=
  (r.schema, r.table)

namespace FullImage

variable {config : Config} {r : Replication config}

/-- The key of a source row. -/
def rowKey (row : FullImage r) : List Value :=
  r.identifier.map fun column => (Dict.get? row.image column).getD .null

/-- The image of a row as one of the configured table. -/
def whole (row : FullImage r) : WholeImage r.configuredTable :=
  ⟨row.image, row.distinct, row.full⟩

/-- The row with every column mapped through its cast. -/
def sinkRow (row : FullImage r) : Row := row.whole.sinkRow

/-- The key that the row has in the sink. -/
def sinkKey (row : FullImage r) : List Value := r.identifier.map row.sinkRow

/-- The casts of all columns in the order of the image. -/
def castedValues (row : FullImage r) : List Value := row.whole.castedValues

/-- The cell of a stored value is its cast. -/
theorem sinkRow_of_found (row : FullImage r) {column : String} {value : Value}
    (found : Dict.get? row.image column = some value) :
    row.sinkRow column = castCell r.settings column value :=
  row.whole.sinkRow_of_found found

@[simp] theorem length_castedValues (row : FullImage r) :
    row.castedValues.length = row.image.length := row.whole.length_castedValues

end FullImage

/-- A change of a replicated table. -/
abbrev SourceChange {config : Config} (r : Replication config) := RowChange (FullImage r)

/-- A message on the topic of a replicated table. -/
inductive SourceMessage {config : Config} (r : Replication config) where
  | event (change : SourceChange r)
  | tombstone (before : FullImage r)

namespace SourceMessage

variable {config : Config} {r : Replication config}

/-- The message key. -/
def key : SourceMessage r → List Value
  | .event change => change.subject.rowKey
  | .tombstone before => before.rowKey

/-- The change of a message that has one. -/
def change? : SourceMessage r → Option (SourceChange r)
  | .event change => some change
  | .tombstone _ => none

/-- The decoded value of a message. -/
def value : SourceMessage r → Option Change
  | .event (.insert after) => some ⟨r.schema, r.table, none, some after.image⟩
  | .event (.update before after) =>
    some ⟨r.schema, r.table, some before.image, some after.image⟩
  | .event (.delete before) => some ⟨r.schema, r.table, some before.image, none⟩
  | .tombstone _ => none

/-- The messages of a change: every delete is followed by a tombstone. -/
def ofChange : SourceChange r → List (SourceMessage r)
  | .delete before => [.event (.delete before), .tombstone before]
  | change => [.event change]

end SourceMessage

/-- The statement of a change. -/
def statementOf {config : Config} (r : Replication config) : SourceChange r → Statement
  | .insert after => .insert r.schema r.table (Dict.keys after.image) after.image.length
  | .update _ after => .update r.schema r.table (Dict.keys after.image) r.identifier
  | .delete _ => .delete r.schema r.table r.identifier

/-- The parameters of a change. -/
def paramsOf {config : Config} {r : Replication config} : SourceChange r → List Value
  | .insert after => after.castedValues
  | .update before after => after.castedValues ++ before.sinkKey
  | .delete before => before.sinkKey

/-- The row identifier of a replicated table is not empty. -/
theorem Replication.identifier?_configured {config : Config} (r : Replication config) :
    r.configuredTable.identifier? = some r.identifier := by
  -- An empty row identifier would count as none.
  have nonempty := r.identifier_ne_nil
  simp only [ConfiguredTable.identifier?, configuredTable, r.identified]
  cases columns : r.identifier with
  | nil => exact absurd columns nonempty
  | cons column rest => rfl

namespace FullImage

variable {config : Config} {r : Replication config} (row : FullImage r)

/-- A stored value is cast without an exception. -/
theorem castColumn_eq_ok {column : String} {value : Value}
    (found : Dict.get? row.image column = some value) :
    castColumn r.settings column value = .ok (castCell r.settings column value) := by
  -- That every cell can be cast is part of a full image.
  obtain ⟨cast, succeeds⟩ := row.casts _ (Dict.mem_of_get? found)
  simp only at succeeds
  simp [castCell, succeeds]

/-- Every column of the identifier has a value. -/
theorem identifier_found {column : String} (member : column ∈ r.identifier) :
    ∃ value, Dict.get? row.image column = some value :=
  Dict.mem_keys.mp ((row.full column).mpr (r.identifier_columns column member))

/-- The casts of a whole image. -/
theorem castAll_image : r.configuredTable.castAll row.image = .ok row.castedValues :=
  -- Every stored value can be cast.
  mapM_eq_ok fun _ member => row.castColumn_eq_ok (Dict.get?_of_mem row.distinct member)

/-- The key of a row stands beside the columns of the identifier. -/
theorem identifyingItems_whole : r.configuredTable.identifyingItems row.whole =
    r.identifier.map fun column => (column, (Dict.get? row.image column).getD .null) := by
  rw [ConfiguredTable.identifyingItems, r.identifier?_configured]
  rfl

/-- The casts of the key are the cells that the row has in the sink. -/
theorem castAll_key : r.configuredTable.castAll (r.configuredTable.identifyingItems row.whole) =
    .ok row.sinkKey := by
  -- The identifying items are cells of the row, and each of them can be cast.
  have casts : r.configuredTable.castAll (r.configuredTable.identifyingItems row.whole) =
      .ok ((r.configuredTable.identifyingItems row.whole).map fun item =>
        castCell r.settings item.1 item.2) := by
    refine mapM_eq_ok fun item member => ?_
    rw [row.identifyingItems_whole] at member
    obtain ⟨column, there, rfl⟩ := List.mem_map.mp member
    obtain ⟨value, found⟩ := row.identifier_found there
    simp only [found, Option.getD_some]
    exact row.castColumn_eq_ok found
  rw [casts, row.identifyingItems_whole, List.map_map]
  refine congrArg Except.ok (List.map_congr_left fun column member => ?_)
  obtain ⟨value, found⟩ := row.identifier_found member
  simp [row.sinkRow_of_found found, found]

end FullImage

section Effect

variable {config : Config} {r : Replication config}

/-- The statement of a change is that of the configured table. -/
theorem statementOf_whole (change : SourceChange r) :
    r.configuredTable.statementOf (change.map FullImage.whole) = statementOf r change := by
  -- A row is told apart by the columns of the identifier.
  have columns : ∀ row : FullImage r,
      Dict.keys (r.configuredTable.identifyingItems row.whole) = r.identifier := by
    intro row
    simp [row.identifyingItems_whole, Dict.keys, Function.comp_def]
  cases change with
  | insert after => rfl
  | update before after =>
    simp only [RowChange.map, ConfiguredTable.statementOf, columns, statementOf]
    rfl
  | delete before =>
    simp only [RowChange.map, ConfiguredTable.statementOf, columns, statementOf]
    rfl

/-- The parameters of a change are cast without an exception. -/
theorem castParams_whole (change : SourceChange r) :
    r.configuredTable.castParams (change.map FullImage.whole) = .ok (paramsOf change) := by
  cases change with
  | insert after =>
    have cast := after.castAll_image
    simp [ConfiguredTable.castParams, ConfiguredTable.castCalls, RowChange.map, FullImage.whole,
      cast, paramsOf, bind, Except.bind, pure, Except.pure]
  -- The assigned values come first, and the key of the before image after them.
  | update before after =>
    have cast := after.castAll_image
    simp only [ConfiguredTable.castParams, ConfiguredTable.castCalls, RowChange.map,
      List.mapM_cons, before.castAll_key]
    simp [FullImage.whole, cast, paramsOf, bind, Except.bind, pure, Except.pure]
  | delete before =>
    simp [ConfiguredTable.castParams, ConfiguredTable.castCalls, RowChange.map,
      before.castAll_key, paramsOf, bind, Except.bind, pure, Except.pure]

/-- What an attempt at the message of a change does: the statement of the change. -/
theorem effect_event (database : Database) (change : SourceChange r) :
    effect config database (SourceMessage.event change).value =
      execute database (statementOf r change) (paramsOf change) := by
  -- The event is that of the configured table, for whole images.
  have value : (SourceMessage.event change).value =
      some (r.configuredTable.event (change.map FullImage.whole)) := by
    cases change <;> rfl
  rw [value, r.configuredTable.effect_event, castParams_whole, statementOf_whole]
  rfl

end Effect

/-- A configuration with one table, whose rows are told apart by their id. -/
def usersConfig : Config := [("users", ⟨[], [], [], [], [], [], [], some ["id"]⟩)]

/-- The table of the configuration. -/
def users : Replication usersConfig where
  schema := "public"
  table := "users"
  settings := ⟨[], [], [], [], [], [], [], some ["id"]⟩
  columns := ["id", "email"]
  identifier := ["id"]
  configured := rfl
  identified := rfl
  identifier_ne_nil := by simp
  identifier_columns := by simp

/-- A row of the table. -/
def userRow (id : Int) (email : String) : FullImage users where
  image := [("id", .int id), ("email", .text email)]
  distinct := by simp
  full := by simp [users]
  casts := by
    intro item _
    exact ⟨item.2, by simp [castColumn, users]⟩
  keyed := by simp [users, Dict.get?]

/-- A sink with an empty table. -/
def usersSink (unique : List (List String)) : Database :=
  Function.update (fun _ => none) ("public", "users") (some ⟨["id", "email"], unique, [], by simp⟩)

end AivenExamples.PgSync
