import AivenExamples.Data.KeyedRows
import AivenExamples.PgSync.Consumer

/-! Tables of the configuration with or without a row identifier, and what their events run. -/

namespace AivenExamples.PgSync

/-- A table of the configuration; its row identifier may be missing. -/
structure ConfiguredTable (config : Config) where
  schema : String
  table : String
  settings : TableConfig
  columns : List String
  columns_ne_nil : columns ≠ []
  configured : Dict.get? config table = some settings
  identifier_columns : ∀ identifier, settings.rowIdentifier = some identifier →
    ∀ column ∈ identifier, column ∈ columns

/-- A row image with all columns of its table. -/
structure WholeImage {config : Config} (t : ConfiguredTable config) where
  image : Image
  distinct : (Dict.keys image).Nodup
  full : ∀ column, column ∈ Dict.keys image ↔ column ∈ t.columns

/-- A change of a configured table. -/
abbrev TableChange {config : Config} (t : ConfiguredTable config) := RowChange (WholeImage t)

/-- The value that a cast which does not raise gives. -/
def castCell (settings : TableConfig) (column : String) (value : Value) : Value :=
  match castColumn settings column value with
  | .ok cast => cast
  | .error _ => .null

namespace WholeImage

variable {config : Config} {t : ConfiguredTable config}

/-- Every column of the table has a value. -/
theorem found (row : WholeImage t) {column : String} (member : column ∈ t.columns) :
    ∃ value, Dict.get? row.image column = some value :=
  Dict.mem_keys.mp ((row.full column).mpr member)

/-- The image of a row is not empty. -/
theorem image_cons (row : WholeImage t) : ∃ head tail, row.image = head :: tail := by
  cases image : row.image with
  | cons head tail => exact ⟨head, tail, rfl⟩
  | nil =>
    -- An empty image would lack the columns of the table.
    obtain ⟨column, member⟩ := List.exists_mem_of_ne_nil _ t.columns_ne_nil
    obtain ⟨value, found⟩ := row.found member
    simp [image] at found

/-- The row with every column mapped through its cast. -/
def sinkRow (row : WholeImage t) : Row := fun column =>
  match Dict.get? row.image column with
  | some value => castCell t.settings column value
  | none => .null

/-- The casts of all columns in the order of the image. -/
def castedValues (row : WholeImage t) : List Value :=
  row.image.map fun item => castCell t.settings item.1 item.2

@[simp] theorem length_castedValues (row : WholeImage t) :
    row.castedValues.length = row.image.length := List.length_map _

/-- The cell of a stored value is its cast. -/
theorem sinkRow_of_found (row : WholeImage t) {column : String} {value : Value}
    (found : Dict.get? row.image column = some value) :
    row.sinkRow column = castCell t.settings column value := by
  simp [sinkRow, found]

end WholeImage

namespace ConfiguredTable

variable {config : Config} (t : ConfiguredTable config)

/-- The table of the sink that the statements are about. -/
def target : String × String := (t.schema, t.table)

/-- The event of a change. -/
def event : TableChange t → Change
  | .insert after => ⟨t.schema, t.table, none, some after.image⟩
  | .update before after => ⟨t.schema, t.table, some before.image, some after.image⟩
  | .delete before => ⟨t.schema, t.table, some before.image, none⟩

/-- The row identifier, unless it is missing or empty. -/
def identifier? : Option (List String) :=
  match t.settings.rowIdentifier with
  | some (column :: columns) => some (column :: columns)
  | _ => none

/-- The columns and values by which a row is found. -/
def identifyingItems (before : WholeImage t) : Image :=
  match t.identifier? with
  | some columns => columns.map fun column => (column, (Dict.get? before.image column).getD .null)
  | none => before.image

/-- The statement of a change. -/
def statementOf : TableChange t → Statement
  | .insert after => .insert t.schema t.table (Dict.keys after.image) after.image.length
  | .update before after =>
    .update t.schema t.table (Dict.keys after.image) (Dict.keys (t.identifyingItems before))
  | .delete before => .delete t.schema t.table (Dict.keys (t.identifyingItems before))

/-- The columns and values that `cast_values` is called with, call by call. -/
def castCalls : TableChange t → List Image
  | .insert after => [after.image]
  | .update before after => [after.image, t.identifyingItems before]
  | .delete before => [t.identifyingItems before]

/-- The casts of columns and values side by side. -/
def castAll (items : Image) : Except PyError (List Value) :=
  items.mapM fun item => castColumn t.settings item.1 item.2

/-- The parameters of a change: the casts of all calls behind each other. -/
def castParams (change : TableChange t) : Except PyError (List Value) := do
  let casts ← (t.castCalls change).mapM t.castAll
  return casts.flatten

/-- `cast_values` of a configured table. -/
theorem castValues_eq (items : Image) :
    castValues config (Dict.keys items) (Dict.values items) t.table = t.castAll items := by
  simp [castValues, Config.table, t.configured, Dict.zip_keys_values, castAll, bind, Except.bind]

/-- `find_row_identifier` of a configured table. -/
theorem findRowIdentifier_eq : findRowIdentifier config t.table = .ok t.identifier? := by
  simp only [findRowIdentifier, Config.table, t.configured, identifier?, bind, Except.bind]
  -- An empty identifier counts as none, on both sides.
  rcases t.settings.rowIdentifier with _ | _ | ⟨column, columns⟩ <;> rfl

/-- The columns that a statement asks for are those of the identifying items. -/
theorem identifyingColumns_eq (before : WholeImage t) :
    identifyingColumns config t.table before.image =
      .ok (Dict.keys (t.identifyingItems before)) := by
  -- Without a row identifier all columns of the image identify the row.
  simp only [identifyingColumns, t.findRowIdentifier_eq, identifyingItems, bind, Except.bind]
  cases t.identifier? with
  | none => rfl
  | some columns => simp [Dict.keys, Function.comp_def, pure, Except.pure]

/-- A column of the row identifier is a column of the table. -/
theorem identifier?_columns {columns : List String} (identified : t.identifier? = some columns) :
    ∀ column ∈ columns, column ∈ t.columns := by
  -- A configured identifier names columns of its table.
  unfold identifier? at identified
  split at identified
  · next given =>
    cases identified
    exact t.identifier_columns _ given
  · cases identified

/-- The identifying columns are columns of the table. -/
theorem identifyingItems_columns (before : WholeImage t) :
    ∀ column ∈ Dict.keys (t.identifyingItems before), column ∈ t.columns := by
  intro column member
  unfold identifyingItems at member
  -- They are named by the row identifier, or else by the image.
  cases identified : t.identifier? with
  | none =>
    rw [identified] at member
    exact (before.full column).mp member
  | some columns =>
    rw [identified] at member
    have named : column ∈ columns := by simpa [Dict.keys, Function.comp_def] using member
    exact t.identifier?_columns identified column named

/-- The values that the parameters ask for are those of the identifying items. -/
theorem identifyingValues_eq (before : WholeImage t) :
    identifyingValues config t.table before.image =
      .ok (Dict.keys (t.identifyingItems before), Dict.values (t.identifyingItems before)) := by
  simp only [identifyingValues, t.findRowIdentifier_eq, identifyingItems, bind, Except.bind]
  cases identified : t.identifier? with
  | none => rfl
  | some columns =>
    -- The image has a value for every column of the identifier.
    have values : columns.mapM (subscript before.image) =
        .ok (columns.map fun column => (Dict.get? before.image column).getD .null) := by
      refine mapM_eq_ok fun column member => ?_
      obtain ⟨value, found⟩ := before.found (t.identifier?_columns identified column member)
      simp [subscript, found]
    simp [values, Dict.keys, Dict.values, Function.comp_def, pure, Except.pure]

/-- Calls give as many casts as they were given values. -/
theorem length_flatten_casts {calls : List Image} {casts : List (List Value)}
    (related : List.Forall₂ (fun items cast => t.castAll items = .ok cast) calls casts) :
    casts.flatten.length = (calls.map List.length).sum := by
  -- Each call contributes the casts of its own values.
  induction related with
  | nil => rfl
  | cons head tail ih =>
    have length := (mapM_eq_ok_iff.mp head).length_eq
    simp only [List.flatten_cons, List.length_append, List.map_cons, List.sum_cons, ih]
    omega

/-- There are as many parameters as values that were cast. -/
theorem castParams_length {change : TableChange t} {params : List Value}
    (succeeds : t.castParams change = .ok params) :
    params.length = ((t.castCalls change).map List.length).sum := by
  -- Each call of `cast_values` keeps the number of its items.
  obtain ⟨casts, all, same⟩ := bind_eq_ok.mp succeeds
  cases same
  exact t.length_flatten_casts (mapM_eq_ok_iff.mp all)

/-- The statement of a change is well typed with the parameters of the change. -/
theorem accepts_statementOf {change : TableChange t} {params : List Value} {table : Table}
    (columns : ∀ column ∈ t.columns, column ∈ table.columns)
    (length : params.length = ((t.castCalls change).map List.length).sum) :
    table.accepts (t.statementOf change) params = true := by
  -- All columns are columns of the table, and each of them has its parameter.
  have imageColumns : ∀ row : WholeImage t, ∀ column ∈ Dict.keys row.image,
      column ∈ table.columns :=
    fun row column member => columns column ((row.full column).mp member)
  have identifying : ∀ row : WholeImage t, ∀ column ∈ Dict.keys (t.identifyingItems row),
      column ∈ table.columns :=
    fun row column member => columns column (t.identifyingItems_columns row column member)
  cases change with
  | insert after =>
    simp only [castCalls, List.map_cons, List.map_nil, List.sum_cons, List.sum_nil] at length
    simpa [Table.accepts, statementOf, length] using imageColumns after
  | update before after =>
    simp only [castCalls, List.map_cons, List.map_nil, List.sum_cons, List.sum_nil] at length
    simp only [Table.accepts, statementOf, List.all_eq_true, decide_eq_true_eq, Bool.and_eq_true,
      List.mem_append, length, Dict.length_keys, Nat.add_zero, and_true]
    intro column member
    exact member.elim (imageColumns after column) (identifying before column)
  | delete before =>
    simp only [castCalls, List.map_cons, List.map_nil, List.sum_cons, List.sum_nil] at length
    simpa [Table.accepts, statementOf, length] using identifying before

/-- The statement of a change is about the table. -/
theorem target_statementOf (change : TableChange t) : (t.statementOf change).target = t.target := by
  cases change <;> rfl

/-- What an attempt at the event of a change does: cast the parameters and run the statement. -/
theorem effect_event (database : Database) (change : TableChange t) :
    effect config database (some (t.event change)) =
      (python (t.castParams change)).bind fun params =>
        execute database (t.statementOf change) params := by
  -- The images are not empty, so the branch is the one of the change.
  cases change with
  | insert after =>
    have branch : effect config database (some (t.event (.insert after))) =
        applyInsert config database (t.event (.insert after)) after.image := rfl
    rw [branch]
    simp only [applyInsert, event, createInsertStatement, t.castValues_eq, castParams, castCalls,
      statementOf, List.mapM_cons, List.mapM_nil, Dict.length_values]
    cases t.castAll after.image <;>
      simp [python, Except.mapError, bind, Except.bind, pure, Except.pure]
  | update before after =>
    obtain ⟨beforeHead, beforeTail, beforeImage⟩ := before.image_cons
    obtain ⟨afterHead, afterTail, afterImage⟩ := after.image_cons
    have branch : effect config database (some (t.event (.update before after))) =
        applyUpdate config database (t.event (.update before after)) before.image after.image := by
      simp [effect, attempt, event, beforeImage, afterImage]
    rw [branch]
    simp only [applyUpdate, event, createUpdateStatement, t.identifyingColumns_eq,
      t.identifyingValues_eq, t.castValues_eq, castParams, castCalls, statementOf,
      List.mapM_cons, List.mapM_nil]
    -- The first cast that raises ends the attempt.
    cases t.castAll after.image <;> cases casts : t.castAll (t.identifyingItems before) <;>
      simp [t.castValues_eq, casts, python, Except.mapError, bind, Except.bind, pure, Except.pure]
  | delete before =>
    obtain ⟨head, tail, image⟩ := before.image_cons
    have branch : effect config database (some (t.event (.delete before))) =
        applyDelete config database (t.event (.delete before)) before.image := by
      simp [effect, attempt, event, image]
    rw [branch]
    simp only [applyDelete, event, createDeleteStatement, t.identifyingColumns_eq,
      t.identifyingValues_eq, castParams, castCalls, statementOf, List.mapM_cons, List.mapM_nil]
    cases casts : t.castAll (t.identifyingItems before) <;>
      simp [t.castValues_eq, casts, python, Except.mapError, bind, Except.bind, pure, Except.pure]

end ConfiguredTable

end AivenExamples.PgSync
