import AivenExamples.Data.Transaction
import Mathlib.Data.List.ReduceOption

/-! The replication test's producer: the table, its missing columns, and rows in batches. -/

namespace AivenExamples.DebeziumDiskless

open Transaction Program

/-- A row of the test's table. -/
structure TestRow where
  id : Int
  name : String
  value : Int
  testRunId : Option String
deriving DecidableEq

/-- The test's table. -/
structure TestTable where
  columns : List String
  rows : List TestRow
deriving DecidableEq

/-- The columns with their definitions when the table is created and when it is altered. -/
def requiredColumns : List (String × String × String) :=
  [("id", "SERIAL PRIMARY KEY", "SERIAL"), ("name", "VARCHAR(100)", "VARCHAR(100)"),
    ("value", "INTEGER", "INTEGER"), ("test_run_id", "VARCHAR(100)", "VARCHAR(100)"),
    ("created_at", "TIMESTAMP DEFAULT CURRENT_TIMESTAMP", "TIMESTAMP DEFAULT CURRENT_TIMESTAMP")]

/-- `CREATE TABLE IF NOT EXISTS`. -/
def createTable (table : Option TestTable) : Option (Unit × Option TestTable) :=
  some ((), some (table.getD { columns := requiredColumns.map Prod.fst, rows := [] }))

/-- The names of the table's columns. -/
def columnNames (table : Option TestTable) : Option (List String × Option TestTable) :=
  some (((table.map TestTable.columns).getD []), table)

/-- `ALTER TABLE … ADD COLUMN`, which fails for a column that is there. -/
def addColumn (name : String) (table : Option TestTable) : Option (Unit × Option TestTable) :=
  match table with
  | none => none
  | some table =>
    if name ∈ table.columns then none
    else some ((), some { table with columns := table.columns ++ [name] })

/-- `INSERT INTO … RETURNING id`, which needs the columns that it names. -/
def insertRow (row : TestRow) (table : Option TestTable) : Option (Int × Option TestTable) :=
  match table with
  | none => none
  | some table =>
    if ["name", "value", "test_run_id", "id"].all (· ∈ table.columns) then
      some (row.id, some { table with rows := table.rows ++ [row] })
    else none

/-- The required columns that are not there. -/
def missingColumns (existing : List String) : List String :=
  (requiredColumns.map Prod.fst).filter (· ∉ existing)

/-- A primary key cannot be added to a table that has columns. -/
def skipped (existing : List String) (name : String) : Bool := name = "id" && !existing.isEmpty

/-- One missing column; the error of its statement is printed, and the next column is next. -/
def addMissing (network : Network) (existing : List String) (name : String) :
    Program (Option TestTable) (Option String) :=
  if skipped existing name then return none
  else do
    let added ← attempt (execute network (addColumn name))
    return added.map fun _ => name

/-- The missing columns of the table, and those of them that are printed as added. -/
def addMissingColumns (network : Network) :
    Program (Option TestTable) (List String × List String) := do
  execute network createTable
  commit network
  let existing ← execute network columnNames
  let added ← forEach (addMissing network existing) (missingColumns existing)
  return (missingColumns existing, added.reduceOption)

/-- The end of the transaction that the columns are added in. -/
def commitColumns (network : Network) (columns : List String × List String) :
    Program (Option TestTable) (List String) :=
  if columns.1 = [] then return []
  else do
    commit network
    return columns.2

/-- The table is created and completed; the result is what is printed as added. -/
def prepareTable (network : Network) : Program (Option TestTable) (List String) := do
  let columns ← addMissingColumns network
  commitColumns network columns

/-- The row of a number, under the id that the table's sequence gives to it. -/
def testRow (runId : Option String) (serial : Nat → Int) (number : Nat) : TestRow :=
  { id := serial number, name := "test_record_" ++ toString number, value := number * 10
    testRunId := runId }

/-- A row is inserted, and committed with those before when it completes a batch. -/
def insertNumber (network : Network) (batchSize : Int) (runId : Option String)
    (serial : Nat → Int) (number : Nat) : Program (Option TestTable) Int := do
  let rowId ← execute network (insertRow (testRow runId serial number))
  -- The remainder of a division by zero raises.
  if batchSize = 0 then raise
  else if (number : Int) % batchSize = 0 then do
    commit network
    return rowId
  else return rowId

/-- The whole thread behind its connection; the result is what it stores as `inserted_ids`. -/
def producerThread (network : Network) (batchSize numRows : Int) (runId : Option String)
    (serial : Nat → Int) : Program (Option TestTable) (List Int) := do
  let _ ← prepareTable network
  let rowIds ← forEach (insertNumber network batchSize runId serial)
    (List.range' 1 numRows.toNat)
  commit network
  return rowIds

/-! ### Batches -/

/-- The rows of the table, if there is one. -/
def rowsIn (table : Option TestTable) : List TestRow := (table.map TestTable.rows).getD []

/-- The rows of the first numbers. -/
def testRows (runId : Option String) (serial : Nat → Int) (count : Nat) : List TestRow :=
  (List.range' 1 count).map (testRow runId serial)

/-- The table has the rows that it had, in what others see and in what the transaction sees. -/
def Untouched (base : List TestRow) (session : Session (Option TestTable)) : Prop :=
  rowsIn session.committed = base ∧ rowsIn session.working = base

variable {base : List TestRow} {session : Session (Option TestTable)}

theorem Untouched.failed (untouched : Untouched base session) : Untouched base session.failed :=
  untouched

theorem Untouched.ended_result (untouched : Untouched base session) :
    Untouched base (session.ended session.result) := by
  -- The rows are the same, whichever of the two states the transaction leaves.
  unfold Session.result
  split
  · exact ⟨untouched.1, untouched.1⟩
  · exact ⟨untouched.2, untouched.2⟩

/-- A statement that leaves the rows alone leaves them alone wherever it ends. -/
theorem triple_execute_untouched {α : Type} {network : Network}
    {statement : Option TestTable → Option (α × Option TestTable)}
    (same : ∀ table value next, statement table = some (value, next) →
      rowsIn next = rowsIn table) :
    Triple (Untouched base) (execute network statement) (fun _ => Untouched base)
      (Untouched base) :=
  triple_execute
    (fun _ value working untouched _ done =>
      ⟨untouched.1, (same _ value working done).trans untouched.2⟩)
    fun _ untouched => untouched.failed

/-- So does a commit. -/
theorem triple_commit_untouched {network : Network} :
    Triple (Untouched base) (commit network) (fun _ => Untouched base) (Untouched base) :=
  triple_commit (fun _ => Untouched.ended_result) (fun _ => Untouched.ended_result)
    fun _ untouched => ⟨untouched.1, untouched.1⟩

/-- Completing the table leaves its rows alone. -/
theorem triple_prepareTable {network : Network} :
    Triple (Untouched base) (prepareTable network) (fun _ => Untouched base) (Untouched base) := by
  have created : ∀ table value next, createTable table = some (value, next) →
      rowsIn next = rowsIn table := by
    intro table value next done
    cases done
    cases table <;> rfl
  have read : ∀ table value next, columnNames table = some (value, next) →
      rowsIn next = rowsIn table := by
    intro table value next done
    cases done
    rfl
  have added : ∀ name table value next, addColumn name table = some (value, next) →
      rowsIn next = rowsIn table := by
    intro name table value next done
    cases table with
    | none => cases done
    | some table =>
      simp only [addColumn, Option.ite_none_left_eq_some, Option.some.injEq, Prod.mk.injEq] at done
      rw [← done.2.2]
      rfl
  have adds : Triple (Untouched base) (addMissingColumns network) (fun _ => Untouched base)
      (Untouched base) := by
    refine triple_bind (triple_execute_untouched created) fun _ => ?_
    refine triple_bind triple_commit_untouched fun _ => ?_
    refine triple_bind (triple_execute_untouched read) fun existing => ?_
    -- Whether a column could be added or not, the next one is tried.
    have loop : Triple (Untouched base) (forEach (addMissing network existing)
        (missingColumns existing)) (fun _ => Untouched base) (Untouched base) := by
      refine triple_forEach (fun _ _ => Untouched base) fun front name rest results _ => ?_
      unfold addMissing
      split
      · exact triple_pure fun _ untouched => untouched
      · refine triple_bind (triple_attempt (triple_execute_untouched (added name))) fun result => ?_
        refine triple_pure fun _ untouched => ?_
        cases result <;> exact untouched
    exact triple_bind loop fun _ => triple_pure fun _ untouched => untouched
  refine triple_bind adds fun columns => ?_
  unfold commitColumns
  split
  · exact triple_pure fun _ untouched => untouched
  · exact triple_bind triple_commit_untouched fun _ => triple_pure fun _ untouched => untouched

variable {network : Network} {batchSize : Int} {runId : Option String} {serial : Nat → Int}
  {total : Nat}

/-- The rows of the first numbers are there, and those of whole batches have been committed. -/
def Inserted (batchSize : Int) (runId : Option String) (serial : Nat → Int)
    (base : List TestRow) (count : Nat) (session : Session (Option TestTable)) : Prop :=
  rowsIn session.result = base ++ testRows runId serial count ∧
    ∃ earlier ≤ count, batchSize ∣ earlier ∧
      rowsIn session.committed = base ++ testRows runId serial earlier

/-- All rows have been committed, or those of whole batches. -/
def WholeBatches (batchSize : Int) (runId : Option String) (serial : Nat → Int)
    (base : List TestRow) (total : Nat) (session : Session (Option TestTable)) : Prop :=
  ∃ count ≤ total, (count = total ∨ batchSize ∣ count) ∧
    rowsIn session.committed = base ++ testRows runId serial count

theorem testRows_succ (count : Nat) : testRows runId serial (count + 1) =
    testRows runId serial count ++ [testRow runId serial (count + 1)] := by
  simp [testRows, List.range'_1_concat, Nat.add_comm]

/-- What has been committed in the middle is whole batches. -/
theorem Inserted.wholeBatches {count : Nat}
    (inserted : Inserted batchSize runId serial base count session) (fewer : count ≤ total) :
    WholeBatches batchSize runId serial base total session := by
  obtain ⟨-, earlier, before, batches, committed⟩ := inserted
  exact ⟨earlier, Nat.le_trans before fewer, .inr batches, committed⟩

/-- A row that is inserted comes behind those of the numbers before. -/
theorem rowsIn_insertRow {row : TestRow} {table next : Option TestTable} {rowId : Int}
    (done : insertRow row table = some (rowId, next)) :
    rowId = row.id ∧ rowsIn next = rowsIn table ++ [row] := by
  -- There is nothing to insert into without a table.
  cases table with
  | none => cases done
  | some table =>
    simp only [insertRow, Option.ite_none_right_eq_some, Option.some.injEq, Prod.mk.injEq] at done
    obtain ⟨-, id, same⟩ := done
    subst same
    exact ⟨id.symm, rfl⟩

/-- One more number takes the rows from one count to the next. -/
theorem triple_insertNumber {count : Nat} (fewer : count < total) :
    Triple (Inserted batchSize runId serial base count)
      (insertNumber network batchSize runId serial (count + 1))
      (fun rowId session => rowId = serial (count + 1) ∧
        Inserted batchSize runId serial base (count + 1) session)
      (WholeBatches batchSize runId serial base total) := by
  -- Behind the statement the transaction has one row more than others may have seen.
  have statement : Triple (Inserted batchSize runId serial base count)
      (execute network (insertRow (testRow runId serial (count + 1))))
      (fun rowId session => rowId = serial (count + 1) ∧
        Inserted batchSize runId serial base (count + 1) session)
      (WholeBatches batchSize runId serial base total) := by
    refine triple_execute (fun session rowId working inserted going done => ?_)
      fun session inserted => inserted.wholeBatches (Nat.le_of_lt fewer)
    obtain ⟨id, rows⟩ := rowsIn_insertRow done
    obtain ⟨result, earlier, before, batches, committed⟩ := inserted
    refine ⟨id, ?_, earlier, by omega, batches, committed⟩
    rw [Session.result, if_neg (by simp [going])] at result
    rw [Session.result, if_neg (by simp [going]), testRows_succ, ← List.append_assoc, ← result]
    exact rows
  refine triple_bind statement fun rowId => ?_
  split
  · exact triple_raise fun session inserted => inserted.2.wholeBatches fewer
  · split
    case isTrue complete =>
      -- The batch is complete, so that all rows so far may be committed.
      have batches : batchSize ∣ ((count + 1 : Nat) : Int) := Int.dvd_of_emod_eq_zero complete
      have commits : Triple (fun session => rowId = serial (count + 1) ∧
          Inserted batchSize runId serial base (count + 1) session) (commit network)
          (fun _ session => rowId = serial (count + 1) ∧
            Inserted batchSize runId serial base (count + 1) session)
          (WholeBatches batchSize runId serial base total) :=
        triple_commit
          (fun session inserted =>
            ⟨inserted.1, inserted.2.1, count + 1, Nat.le_refl _, batches, inserted.2.1⟩)
          (fun session inserted => ⟨count + 1, fewer, .inr batches, inserted.2.1⟩)
          fun session inserted => inserted.2.wholeBatches fewer
      exact triple_bind commits fun _ => triple_pure fun session inserted => inserted
    case isFalse => exact triple_pure fun session inserted => inserted

/-- All numbers are inserted in order, unless something fails on the way. -/
theorem triple_insertNumbers :
    Triple (Inserted batchSize runId serial base 0)
      (forEach (insertNumber network batchSize runId serial) (List.range' 1 total))
      (fun rowIds session => rowIds = (List.range' 1 total).map serial ∧
        Inserted batchSize runId serial base total session)
      (WholeBatches batchSize runId serial base total) := by
  -- The invariant counts the numbers in front of the next one.
  have loop : Triple _ (forEach (insertNumber network batchSize runId serial)
      (List.range' 1 total)) _ (WholeBatches batchSize runId serial base total) :=
    triple_forEach
      (fun front rowIds session => rowIds = front.map serial ∧
        Inserted batchSize runId serial base front.length session)
      fun front number rest rowIds split => Triple.assume fun same => ?_
  · refine loop.consequence (fun session inserted => ⟨rfl, inserted⟩)
      (fun rowIds session ended => ?_) fun _ whole => whole
    rw [List.length_range'] at ended
    exact ended
  · obtain ⟨count, fewer, before, after⟩ := List.range'_eq_append_iff.mp split
    obtain ⟨next, positive, -⟩ := List.range'_eq_cons_iff.mp after.symm
    have length : front.length = count := by rw [before, List.length_range']
    have number : number = front.length + 1 := by omega
    have shorter : front.length < total := by omega
    rw [number]
    refine (triple_insertNumber shorter).consequence (fun _ inserted => inserted)
      (fun rowId session inserted => ?_) fun _ whole => whole
    simpa [same, number] using inserted

/-- A table without new rows is one with the rows of no numbers. -/
theorem Untouched.inserted (untouched : Untouched base session) :
    Inserted batchSize runId serial base 0 session := by
  obtain ⟨committed, working⟩ := untouched
  refine ⟨?_, 0, Nat.le_refl 0, Int.dvd_zero _, by simpa [testRows] using committed⟩
  -- Whether the transaction is aborted or not, no row has been added.
  unfold Session.result
  split
  · simpa [testRows] using committed
  · simpa [testRows] using working

/-- What the thread has committed, wherever it ends. -/
theorem triple_producerThread {numRows : Int} :
    Triple (Untouched base) (producerThread network batchSize numRows runId serial)
      (fun rowIds session => rowIds = (List.range' 1 numRows.toNat).map serial ∧
        rowsIn session.committed = base ++ testRows runId serial numRows.toNat)
      (WholeBatches batchSize runId serial base numRows.toNat) := by
  -- Without rows nothing has been committed but the table.
  have prepare : Triple (Untouched base) (prepareTable network) (fun _ => Untouched base)
      (WholeBatches batchSize runId serial base numRows.toNat) :=
    triple_prepareTable.consequence (fun _ untouched => untouched) (fun _ _ untouched => untouched)
      fun _ untouched => untouched.inserted.wholeBatches (Nat.zero_le _)
  refine triple_bind prepare fun _ => ?_
  refine triple_bind (triple_insertNumbers.consequence (fun _ => Untouched.inserted)
    (fun _ _ ended => ended) fun _ whole => whole) fun rowIds => ?_
  have commits : Triple (fun session => rowIds = (List.range' 1 numRows.toNat).map serial ∧
      Inserted batchSize runId serial base numRows.toNat session) (commit network)
      (fun _ session => rowIds = (List.range' 1 numRows.toNat).map serial ∧
        rowsIn session.committed = base ++ testRows runId serial numRows.toNat)
      (WholeBatches batchSize runId serial base numRows.toNat) :=
    triple_commit (fun session ended => ⟨ended.1, ended.2.1⟩)
      (fun session ended => ⟨numRows.toNat, Nat.le_refl _, .inl rfl, ended.2.1⟩)
      fun session ended => ended.2.wholeBatches (Nat.le_refl _)
  exact triple_bind commits fun _ => triple_pure fun session ended => ended

/--
Whatever fails, the rows that others see are those of whole batches, or all of them.

The ids are only handed over when all rows have been committed, and are the ids of these rows.
-/
theorem producerThread_committed (network : Network) (batchSize numRows : Int)
    (runId : Option String) (serial : Nat → Int) (table : Option TestTable) :
    ∃ count ≤ numRows.toNat, (count = numRows.toNat ∨ batchSize ∣ count) ∧
      rowsIn (producerThread network batchSize numRows runId serial (.start table)).2.committed =
        rowsIn table ++ testRows runId serial count ∧
      ∀ rowIds, (producerThread network batchSize numRows runId serial (.start table)).1 =
          some rowIds →
        count = numRows.toNat ∧ rowIds = (testRows runId serial count).map TestRow.id := by
  have ended := (triple_producerThread : Triple (Untouched (rowsIn table))
    (producerThread network batchSize numRows runId serial) _ _) (.start table) ⟨rfl, rfl⟩
  -- A thread that ends has committed everything, and one that raises whole batches.
  match ran : producerThread network batchSize numRows runId serial (.start table) with
  | (some rowIds, final) =>
    rw [ran] at ended
    refine ⟨numRows.toNat, Nat.le_refl _, .inl rfl, ended.2, fun others same => ⟨rfl, ?_⟩⟩
    rw [← Option.some.inj same, ended.1]
    simp [testRows, testRow]
  | (none, final) =>
    rw [ran] at ended
    obtain ⟨count, fewer, whole, committed⟩ := ended
    exact ⟨count, fewer, whole, committed, fun _ none => by cases none⟩

/-! ### Missing columns -/

/-- The missing columns that the thread tries to add to a table. -/
def wantedColumns (table : TestTable) (missing : List String) : List String :=
  missing.filter fun name => !skipped table.columns name

variable {table : TestTable}

/-- Nothing is committed while columns are added; after an error the transaction is lost. -/
def Adding (table : TestTable) (front : List String) (added : List (Option String))
    (session : Session (Option TestTable)) : Prop :=
  session.committed = some table ∧
    if session.aborted then
      added.reduceOption <+: wantedColumns table front ∧
        added.reduceOption ≠ wantedColumns table front
    else
      added.reduceOption = wantedColumns table front ∧ session.working =
        some { table with columns := table.columns ++ wantedColumns table front }

/-- The table has been committed without any of the missing columns, or with all of them. -/
def AllOrNothing (table : TestTable) (session : Session (Option TestTable)) : Prop :=
  session.committed = some table ∨ session.committed = some { table with
    columns := table.columns ++ wantedColumns table (missingColumns table.columns) }

theorem wantedColumns_concat (front : List String) (name : String) :
    wantedColumns table (front ++ [name]) =
      wantedColumns table front ++ if skipped table.columns name then [] else [name] := by
  by_cases skip : skipped table.columns name = true
  · simp [wantedColumns, skip]
  · simp [wantedColumns, skip]

/-- What has been printed is the beginning of what is wanted. -/
theorem Adding.begins {front : List String} {added : List (Option String)}
    (adding : Adding table front added session) :
    added.reduceOption <+: wantedColumns table front := by
  obtain ⟨-, either⟩ := adding
  -- What a lost transaction has printed is the beginning, and any other one all of it.
  split at either
  · exact either.1
  · simp only [either.1, List.prefix_rfl]

/-- One more column is added, or the transaction is lost. -/
theorem triple_addMissing {front : List String} {name : String} {added : List (Option String)} :
    Triple (Adding table front added) (addMissing network table.columns name)
      (fun result => Adding table (front ++ [name]) (added ++ [result])) (AllOrNothing table) := by
  unfold addMissing
  split
  case isTrue skip =>
    -- A column that is skipped is neither wanted nor printed.
    refine triple_pure fun session adding => ?_
    simpa [Adding, wantedColumns_concat, skip, List.reduceOption_append] using adding
  case isFalse wanted =>
    have statement : Triple (Adding table front added) (execute network (addColumn name))
        (fun _ => Adding table (front ++ [name]) (added ++ [some name]))
        (Adding table (front ++ [name]) (added ++ [none])) := by
      refine triple_execute (fun session _ working adding going done => ?_)
        fun session adding => ?_
      · obtain ⟨committed, either⟩ := adding
        rw [if_neg (by simp [going])] at either
        rw [either.2] at done
        simp only [addColumn, Option.ite_none_left_eq_some, Option.some.injEq, Prod.mk.injEq,
          true_and] at done
        refine ⟨committed, ?_⟩
        rw [if_neg (by simp [going]), wantedColumns_concat, if_neg wanted, ← done.2]
        simp [List.reduceOption_append, either.1]
      · -- What was printed before is shorter than what is wanted now.
        have before := adding.begins
        refine ⟨adding.1, ?_⟩
        have aborted : session.failed.aborted = true := rfl
        rw [if_pos aborted, wantedColumns_concat, if_neg wanted, List.reduceOption_append]
        have longer := before.length_le
        refine ⟨by simpa using before.trans (List.prefix_append _ [name]), fun same => ?_⟩
        have lengths := congrArg List.length same
        simp at lengths
        omega
    refine triple_bind (triple_attempt statement) fun result => triple_pure fun session ended => ?_
    cases result <;> exact ended

/-- What is printed says whether the wanted columns have been committed. -/
def Printed (table : TestTable) (printed : List String)
    (session : Session (Option TestTable)) : Prop :=
  let wanted := wantedColumns table (missingColumns table.columns)
  printed <+: wanted ∧ (printed ≠ wanted → session.committed = some table) ∧
    (printed = wanted →
      session.committed = some { table with columns := table.columns ++ wanted })

/-- A column that has not been printed keeps all others out of the table. -/
def Unprinted (table : TestTable) (printed : List String)
    (session : Session (Option TestTable)) : Prop :=
  printed ≠ wantedColumns table (missingColumns table.columns) → session.committed = some table

theorem Printed.allOrNothing {printed : List String} (ended : Printed table printed session) :
    AllOrNothing table session := by
  by_cases all : printed = wantedColumns table (missingColumns table.columns)
  · exact .inr (ended.2.2 all)
  · exact .inl (ended.2.1 all)

/-- The end of the transaction decides about all columns together. -/
theorem Adding.ended {added : List (Option String)}
    (adding : Adding table (missingColumns table.columns) added session) :
    Printed table added.reduceOption (session.ended session.result) := by
  refine ⟨adding.begins, ?_⟩
  obtain ⟨committed, either⟩ := adding
  show (_ → session.result = _) ∧ (_ → session.result = _)
  unfold Session.result
  -- A lost transaction leaves the table as it was, and any other one commits all columns.
  split at either
  case isTrue aborted =>
    rw [if_pos aborted]
    exact ⟨fun _ => committed, fun same => absurd same either.2⟩
  case isFalse going =>
    rw [if_neg going]
    exact ⟨fun other => absurd either.1 other, fun _ => either.2⟩

/-- Others and the transaction see the table as it was. -/
def Holding (table : TestTable) (session : Session (Option TestTable)) : Prop :=
  session.committed = some table ∧ session.working = some table

/-- The missing columns have been added to a table that is there, or the transaction is lost. -/
def AddedTo (table : TestTable) (columns : List String × List String)
    (session : Session (Option TestTable)) : Prop :=
  columns.1 = missingColumns table.columns ∧
    ∃ added, columns.2 = added.reduceOption ∧
      Adding table (missingColumns table.columns) added session

/-- Up to the last commit nothing is committed. -/
theorem triple_addMissingColumns :
    Triple (Holding table) (addMissingColumns network) (AddedTo table) (AllOrNothing table) := by
  -- The table is there, so that creating it changes nothing.
  have created : Triple (Holding table) (execute network createTable) (fun _ => Holding table)
      (AllOrNothing table) := by
    refine triple_execute (fun session _ working holding _ done => ?_)
      fun session holding => .inl holding.1
    rw [holding.2] at done
    cases done
    exact ⟨holding.1, rfl⟩
  have committed : Triple (Holding table) (commit network) (fun _ => Holding table)
      (AllOrNothing table) := by
    have same : ∀ session, Holding table session → session.result = some table := by
      intro session holding
      unfold Session.result
      split
      · exact holding.1
      · exact holding.2
    exact triple_commit (fun session holding => ⟨same session holding, same session holding⟩)
      (fun session holding => .inl (same session holding)) fun session holding => .inl holding.1
  -- The names that are read are those of the table.
  have read : Triple (Holding table) (execute network columnNames)
      (fun existing session => existing = table.columns ∧ Adding table [] [] session)
      (AllOrNothing table) := by
    refine triple_execute (fun session existing working holding going done => ?_)
      fun session holding => .inl holding.1
    rw [holding.2] at done
    cases done
    refine ⟨rfl, holding.1, ?_⟩
    rw [if_neg (by simp [going])]
    simp [wantedColumns]
  refine triple_bind created fun _ => triple_bind committed fun _ => ?_
  refine triple_bind read fun existing => Triple.assume fun same => ?_
  subst same
  -- The loop carries what has been added, and what it has printed.
  have loop : Triple (Adding table [] [])
      (forEach (addMissing network table.columns) (missingColumns table.columns))
      (Adding table (missingColumns table.columns)) (AllOrNothing table) :=
    triple_forEach (Adding table) fun _ _ _ _ _ => triple_addMissing
  exact triple_bind loop fun added => triple_pure fun session adding => ⟨rfl, added, rfl, adding⟩

/-- The last commit decides about all columns, of which some may not have been printed. -/
theorem triple_commitColumns {columns : List String × List String} :
    Triple (AddedTo table columns) (commitColumns network columns)
      (fun printed session => Printed table printed session ∧ Unprinted table columns.2 session)
      (fun session => AllOrNothing table session ∧ Unprinted table columns.2 session) := by
  unfold commitColumns
  split
  case isTrue complete =>
    -- Nothing is missing, and nothing has to be committed.
    refine triple_pure fun session ended => ?_
    obtain ⟨missing, added, -, adding⟩ := ended
    have none : missingColumns table.columns = [] := missing.symm.trans complete
    refine ⟨?_, fun _ => adding.1⟩
    simp [Printed, none, wantedColumns, adding.1]
  case isFalse =>
    have commits : Triple (AddedTo table columns) (commit network)
        (fun _ session => Printed table columns.2 session ∧ Unprinted table columns.2 session)
        (fun session => AllOrNothing table session ∧ Unprinted table columns.2 session) := by
      have ended : ∀ session, AddedTo table columns session →
          Printed table columns.2 (session.ended session.result) := by
        intro session ended
        obtain ⟨-, added, printed, adding⟩ := ended
        exact printed ▸ adding.ended
      refine triple_commit (fun session before => ?_) (fun session before => ?_)
        fun session before => ?_
      · exact ⟨ended session before, (ended session before).2.1⟩
      · exact ⟨(ended session before).allOrNothing, (ended session before).2.1⟩
      · obtain ⟨-, added, -, adding⟩ := before
        exact ⟨.inl adding.1, fun _ => adding.1⟩
    exact triple_bind commits fun _ => triple_pure fun _ ended => ended

/-- A table that is there is completed, or left as it was. -/
theorem triple_prepareTable_columns :
    Triple (Holding table) (prepareTable network) (Printed table) (AllOrNothing table) :=
  triple_bind triple_addMissingColumns fun _ =>
    triple_commitColumns.consequence (fun _ added => added) (fun _ _ ended => ended.1)
      fun _ raised => raised.1

/--
A table that is there gets all of its missing columns, or none of them.

Columns that are printed as added are only there when every wanted one has been printed. This also
holds where the last commit raises.
-/
theorem prepareTable_all_or_nothing (network : Network) (table : TestTable) :
    AllOrNothing table (prepareTable network (.start (some table))).2 ∧
      (∀ printed, (prepareTable network (.start (some table))).1 = some printed →
        Printed table printed (prepareTable network (.start (some table))).2) ∧
      ∀ missing printed,
        (addMissingColumns network (.start (some table))).1 = some (missing, printed) →
        printed <+: wantedColumns table (missingColumns table.columns) ∧
          Unprinted table printed (prepareTable network (.start (some table))).2 := by
  have holding : Holding table (.start (some table)) := ⟨rfl, rfl⟩
  refine ⟨?_, fun printed returned => ?_, fun missing printed adds => ?_⟩
  · exact (triple_prepareTable_columns.consequence (fun _ holding => holding)
      (fun _ _ => Printed.allOrNothing) fun _ either => either).always holding
  · obtain ⟨final, ran⟩ : ∃ final, prepareTable network (.start (some table)) =
        (some printed, final) := ⟨_, Prod.ext returned rfl⟩
    have ended := (triple_prepareTable_columns : Triple (Holding table) (prepareTable network) _ _)
      (.start (some table)) holding
    rw [ran] at ended ⊢
    exact ended
  · -- The end of the transaction starts where the columns have been added.
    obtain ⟨middle, ran⟩ : ∃ middle, addMissingColumns network (.start (some table)) =
        (some (missing, printed), middle) := ⟨_, Prod.ext adds rfl⟩
    have added := (triple_addMissingColumns : Triple _ (addMissingColumns network) _ _)
      (.start (some table)) holding
    rw [ran] at added
    have begins : printed <+: wantedColumns table (missingColumns table.columns) := by
      obtain ⟨-, results, same, adding⟩ := added
      cases same
      exact adding.begins
    have behind : prepareTable network (.start (some table)) =
        commitColumns network (missing, printed) middle := bind_of_some ran
    rw [behind]
    exact ⟨begins, (triple_commitColumns.consequence (fun _ added => added)
      (fun _ _ ended => ended.2) fun _ raised => raised.2).always added⟩

end AivenExamples.DebeziumDiskless
