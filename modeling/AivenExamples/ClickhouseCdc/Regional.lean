import AivenExamples.Data.VersionedRows

/-! The regional ClickHouse tables fed from Debezium change events of the Postgres tables. -/

namespace AivenExamples.ClickhouseCdc

variable {π : Type}

/--
One row of a source table.

The `population` and `weather` tables differ only in their measured column.
-/
structure SourceRow (π : Type) where
  /-- The primary key. -/
  id : Int
  /-- The region the row currently belongs to. -/
  region : Int
  /-- The remaining column, `total` or `temperature`. -/
  value : π
  deriving DecidableEq

/-- The `op` field of a Debezium event. -/
inductive Op where
  | read
  | create
  | update
  | delete
  | truncate
  | message
  deriving DecidableEq

/--
One change event as the Kafka table engine presents it.

An image that Debezium leaves out is read as column defaults, so both images are always there.
-/
structure Event (π : Type) where
  op : Op
  before : SourceRow π
  after : SourceRow π
  /-- The log position, `source.lsn`. -/
  lsn : Nat
  /-- The wall clock of the connector, in milliseconds. -/
  tsMs : Nat

/-- One row of a regional table. -/
structure RegionalRow (π : Type) where
  id : Int
  /-- A `DateTime64` with three decimals counts milliseconds. -/
  ts : Nat
  region : Int
  value : π
  version : Nat
  deleted : Bool

/-- The source columns that a regional row carries. -/
def RegionalRow.columns (row : RegionalRow π) : SourceRow π where
  id := row.id
  region := row.region
  value := row.value

/--
The materialized view of one region.

The key, the region and the measured column come from the old image exactly for a deletion.
-/
def regionalMv (regionId : Int) (event : Event π) : Option (RegionalRow π) :=
  let image := if event.op = .delete then event.before else event.after
  let row : RegionalRow π :=
    { id := image.id, ts := event.tsMs, region := image.region, value := image.value,
      version := event.lsn, deleted := event.op = .delete }
  -- `region` in the filter names the selected column, so a deletion is filtered by its old region.
  if row.region = regionId ∧
      (event.op = .create ∨ event.op = .read ∨ event.op = .update ∨ event.op = .delete) then
    some row
  else none

/-- The view `population_mv` of a role whose template was instantiated for a region. -/
def populationMv (regionId : Int) : Event Int → Option (RegionalRow Int) := regionalMv regionId

/-- The view `weather_mv` of a role whose template was instantiated for a region. -/
def weatherMv (regionId : Int) : Event Float → Option (RegionalRow Float) := regionalMv regionId

/-- The tables are `ReplacingMergeTree(version, deleted)` ordered by `id`. -/
def mergeTree : RowReader (RegionalRow π) Int where
  key := RegionalRow.id
  version := RegionalRow.version
  deleted := RegionalRow.deleted

/-- The rows a view has written into its table after a sequence of events. -/
def regionalTable (regionId : Int) (events : List (Event π)) : List (RegionalRow π) :=
  events.filterMap (regionalMv regionId)

/-- What a role reads under an identifier with `SELECT … FINAL`. -/
def readFinal (regionId : Int) (events : List (Event π)) (id : Int) : Option (RegionalRow π) :=
  mergeTree.final (regionalTable regionId events) id

/-- The contents of a source table, by primary key. -/
abbrev SourceTable (π : Type) := Int → Option (SourceRow π)

/-- One row change of a source table. -/
inductive Change (π : Type) where
  /-- A new row, reported by the initial snapshot or by the log. -/
  | insert (snapshot : Bool) (new : SourceRow π)
  | update (old new : SourceRow π)
  | delete (old : SourceRow π)

/-- The primary key of the changed row. -/
def Change.id : Change π → Int
  | .insert _ new => new.id
  | .update old _ => old.id
  | .delete old => old.id

/-- A committed change with its place in the log. -/
structure Commit (π : Type) where
  change : Change π
  lsn : Nat
  tsMs : Nat

/-- The change a source table admits: fresh keys, current old images, and unchanged keys. -/
def Change.Legal (source : SourceTable π) : Change π → Prop
  | .insert _ new => source new.id = none
  | .update old new => source old.id = some old ∧ new.id = old.id
  | .delete old => source old.id = some old

/-- The source table after one change. -/
def Change.apply (source : SourceTable π) : Change π → SourceTable π
  | .insert _ new => Function.update source new.id (some new)
  -- The new row takes the place of the old one, whose key it has.
  | .update old new => Function.update source old.id (some new)
  | .delete old => Function.update source old.id none

/-- The source table after a history, starting from an empty table. -/
def sourceAfter (history : List (Commit π)) : SourceTable π :=
  history.foldl (fun source commit => commit.change.apply source) fun _ => none

/-- Every change of the history is one the table admits at that point. -/
def LegalFrom : SourceTable π → List (Commit π) → Prop
  | _, [] => True
  | source, commit :: rest =>
    commit.change.Legal source ∧ LegalFrom (commit.change.apply source) rest

/-- Log positions grow strictly along the changes of one row. -/
def LsnIncreasing (history : List (Commit π)) : Prop :=
  history.Pairwise fun earlier later =>
    earlier.change.id = later.change.id → earlier.lsn < later.lsn

/-- A history a source table can produce. -/
structure SourceHistory (π : Type) where
  commits : List (Commit π)
  legal : LegalFrom (fun _ => none) commits
  lsnIncreasing : LsnIncreasing commits

/--
The event Debezium emits for a committed change.

The source tables have `REPLICA IDENTITY FULL`, so the old image carries every column.
-/
def debezium (absent : SourceRow π) (commit : Commit π) : Event π :=
  match commit.change with
  -- An image that does not exist is replaced by the defaults of its columns.
  | .insert snapshot new =>
    { op := if snapshot then .read else .create, before := absent, after := new,
      lsn := commit.lsn, tsMs := commit.tsMs }
  | .update old new =>
    { op := .update, before := old, after := new, lsn := commit.lsn, tsMs := commit.tsMs }
  | .delete old =>
    { op := .delete, before := old, after := absent, lsn := commit.lsn, tsMs := commit.tsMs }

/-- The rows of a source table that currently belong to a region. -/
def currentIn (regionId : Int) (source : SourceTable π) (id : Int) : Option (SourceRow π) :=
  (source id).filter fun row => row.region = regionId

/-- A role reads exactly the source rows that currently belong to its region. -/
def Tracks (regionId : Int) (absent : SourceRow π) (history : List (Commit π)) : Prop :=
  ∀ id, (readFinal regionId (history.map (debezium absent)) id).map RegionalRow.columns =
    currentIn regionId (sourceAfter history) id

/-- A change that takes a row out of a region while keeping the row. -/
def Change.Leaves (regionId : Int) : Change π → Prop
  | .insert _ _ => False
  | .update old new => old.region = regionId ∧ new.region ≠ regionId
  | .delete _ => False

end AivenExamples.ClickhouseCdc
