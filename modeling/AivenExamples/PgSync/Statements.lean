import AivenExamples.PgSync.Casts

/-! The statements that are built for a change, and what the sink database makes of them. -/

namespace AivenExamples.PgSync

/-- A row by column. -/
abbrev Row := String → Value

/-- Why processing a change is given up. -/
inductive Fault where
  | python (error : PyError)
  | uniqueViolation
  /-- Any other error of the database: an unknown table or column, a wrong parameter count. -/
  | database
  deriving DecidableEq

/-- Rows that a unique constraint cannot hold side by side; NULL never repeats a value. -/
def Conflicting (columns : List String) (first second : Row) : Prop :=
  ∀ column ∈ columns, first column ≠ .null ∧ first column = second column

instance (columns : List String) (first second : Row) :
    Decidable (Conflicting columns first second) :=
  inferInstanceAs (Decidable (∀ column ∈ columns, _ ∧ _))

/-- A table of the sink, whose rows satisfy its unique constraints. -/
structure Table where
  columns : List String
  unique : List (List String)
  rows : List Row
  distinct : ∀ constraint ∈ unique,
    rows.Pairwise fun first second => ¬ Conflicting constraint first second

/-- The tables of a database by schema and name. -/
abbrev Database := String × String → Option Table

/-- A statement with its placeholders: columns in the order in which they were added. -/
inductive Statement where
  | update (schema table : String) (assigned conditions : List String)
  | insert (schema table : String) (columns : List String) (placeholders : Nat)
  | delete (schema table : String) (conditions : List String)

/-- The columns that tell a row apart: the row identifier, or all columns of the image. -/
def identifyingColumns (config : Config) (tableName : String) (before : Image) :
    Except PyError (List String) := do
  match ← findRowIdentifier config tableName with
  | some keys => return keys
  -- Without a configured identifier all columns of the image identify the row.
  | none => return Dict.keys before

/-- `create_update_statement`. -/
def createUpdateStatement (config : Config) (schemaName tableName : String)
    (before after : Image) : Except PyError Statement := do
  let keys ← identifyingColumns config tableName before
  return .update schemaName tableName (Dict.keys after) keys

/-- `create_insert_statement`. -/
def createInsertStatement (schemaName tableName : String) (after : Image) : Statement :=
  .insert schemaName tableName (Dict.keys after) (Dict.values after).length

/-- `create_delete_statement`. -/
def createDeleteStatement (config : Config) (schemaName tableName : String) (before : Image) :
    Except PyError Statement := do
  let keys ← identifyingColumns config tableName before
  return .delete schemaName tableName keys

namespace Statement

/-- The table that a statement is about. -/
def target : Statement → String × String
  | .update schema table _ _ => (schema, table)
  | .insert schema table _ _ => (schema, table)
  | .delete schema table _ => (schema, table)

end Statement

/-- The SQL comparison `=`, which is not true when a side is NULL. -/
def sqlEq (left right : Value) : Bool :=
  decide (left ≠ .null) && decide (right ≠ .null) && decide (left = right)

/-- The conjunction of comparisons of a WHERE clause. -/
def satisfies (columns : List String) (params : List Value) (row : Row) : Bool :=
  (columns.zip params).all fun item => sqlEq (row item.1) item.2

/-- The row with new values in the listed columns. -/
def assign (columns : List String) (params : List Value) (row : Row) : Row := fun column =>
  (Dict.get? (columns.zip params) column).getD (row column)

/-- The table with other rows, unless they violate one of its unique constraints. -/
def Table.withRows (table : Table) (rows : List Row) : Except Fault Table :=
  if distinct : ∀ constraint ∈ table.unique,
      rows.Pairwise fun first second => ¬ Conflicting constraint first second then
    .ok { columns := table.columns, unique := table.unique, rows, distinct }
  else .error .uniqueViolation

/-- A statement with as many parameters as placeholders, and with columns of the table. -/
def Table.accepts (table : Table) (statement : Statement) (params : List Value) : Bool :=
  match statement with
  -- The parameters are the values to assign, and behind them those to compare.
  | .update _ _ assigned conditions =>
    (assigned ++ conditions).all (fun column => decide (column ∈ table.columns)) &&
      decide (params.length = assigned.length + conditions.length)
  | .insert _ _ columns placeholders =>
    columns.all (fun column => decide (column ∈ table.columns)) &&
      decide (columns.length = placeholders) && decide (params.length = placeholders)
  | .delete _ _ conditions =>
    conditions.all (fun column => decide (column ∈ table.columns)) &&
      decide (params.length = conditions.length)

/-- The rows after a statement; a column that an insert leaves out is NULL. -/
def Statement.rowsAfter (statement : Statement) (params : List Value) (rows : List Row) :
    List Row :=
  match statement with
  | .update _ _ assigned conditions =>
    rows.map fun row =>
      if satisfies conditions (params.drop assigned.length) row then
        assign assigned (params.take assigned.length) row
      else row
  | .insert _ _ columns _ => rows ++ [assign columns params fun _ => .null]
  | .delete _ _ conditions => rows.filter fun row => !satisfies conditions params row

/-- `conn.execute` with autocommit: the statement takes effect as a whole or not at all. -/
def execute (database : Database) (statement : Statement) (params : List Value) :
    Except Fault Database :=
  match database statement.target with
  | none => .error .database
  | some table =>
    if table.accepts statement params then do
      -- Constraints are checked for the rows that the statement would leave.
      let after ← table.withRows (statement.rowsAfter params table.rows)
      return Function.update database statement.target (some after)
    else .error .database

/-- A table can take rows exactly when they repeat no value of a unique constraint. -/
theorem Table.withRows_eq_ok {table after : Table} {rows : List Row} :
    table.withRows rows = .ok after ↔
      after.columns = table.columns ∧ after.unique = table.unique ∧ after.rows = rows := by
  obtain ⟨columns, unique, afterRows, distinct⟩ := after
  unfold Table.withRows
  -- The table that takes the rows differs from the old one in its rows only.
  constructor
  · intro taken
    split at taken
    · cases taken
      exact ⟨rfl, rfl, rfl⟩
    · cases taken
  · intro same
    obtain ⟨rfl, rfl, rfl⟩ := same
    rw [dif_pos distinct]

/-- Rows that a table cannot take repeat a value of a unique constraint. -/
theorem Table.withRows_eq_error {table : Table} {rows : List Row} {columns : List String}
    (constrained : columns ∈ table.unique)
    (repeated : ¬ rows.Pairwise fun first second => ¬ Conflicting columns first second) :
    table.withRows rows = .error .uniqueViolation :=
  dif_neg fun distinct => repeated (distinct columns constrained)

/-- A statement takes effect on the table that it is about. -/
theorem execute_eq_ok {database after : Database} {statement : Statement} {params : List Value} :
    execute database statement params = .ok after ↔
      ∃ table changed, database statement.target = some table ∧
        table.accepts statement params = true ∧
        table.withRows (statement.rowsAfter params table.rows) = .ok changed ∧
        after = Function.update database statement.target (some changed) := by
  -- A missing table and refused parameters leave nothing to execute.
  unfold execute
  cases found : database statement.target with
  | none => simp
  | some table =>
    by_cases accepted : table.accepts statement params = true
    · simp only [accepted, if_true, bind_eq_ok, pure, Except.pure, Except.ok.injEq]
      constructor
      · intro updated
        obtain ⟨changed, taken, rfl⟩ := updated
        exact ⟨table, changed, rfl, accepted, taken, rfl⟩
      · intro updated
        obtain ⟨_, changed, same, _, taken, rfl⟩ := updated
        cases same
        exact ⟨changed, taken, rfl⟩
    · simp [accepted]

/-- A statement does not touch other tables. -/
theorem execute_frame {database after : Database} {statement : Statement} {params : List Value}
    (executed : execute database statement params = .ok after) {other : String × String}
    (apart : other ≠ statement.target) : after other = database other := by
  obtain ⟨_, _, _, _, _, rfl⟩ := execute_eq_ok.mp executed
  exact Function.update_of_ne apart _ _

/-- Rearranged rows stay rearranged. -/
theorem Statement.rowsAfter_perm {first second : List Row} (same : first.Perm second)
    (statement : Statement) (params : List Value) :
    (statement.rowsAfter params first).Perm (statement.rowsAfter params second) := by
  -- Each statement treats the rows one by one or adds behind them.
  cases statement with
  | update => exact same.map _
  | insert => exact same.append_right _
  | delete => exact same.filter _

end AivenExamples.PgSync
