import AivenExamples.PgSync.Replay
import Mathlib.Logic.Relation

/-! Processing an event again after its statement has taken effect. -/

namespace AivenExamples.PgSync

/-- Assigning the same values again changes nothing. -/
theorem assign_assign (columns : List String) (params : List Value) (row : Row) :
    assign columns params (assign columns params row) = assign columns params row := by
  funext column
  unfold assign
  -- An assigned column is assigned the same value, and the others are left.
  cases Dict.get? (columns.zip params) column <;> rfl

/-- An update or a delete leaves rows that it leaves as they are. -/
theorem Statement.rowsAfter_again {statement : Statement}
    (overwrites : ∀ schema table columns placeholders,
      statement ≠ .insert schema table columns placeholders)
    (params : List Value) (rows : List Row) :
    statement.rowsAfter params (statement.rowsAfter params rows) =
      statement.rowsAfter params rows := by
  cases statement with
  | update schema table assigned conditions =>
    simp only [Statement.rowsAfter, List.map_map]
    refine List.map_congr_left fun row _ => ?_
    by_cases selected : satisfies conditions (params.drop assigned.length) row = true
    · -- The row has its new values, whether or not it is selected again.
      simp [selected, assign_assign]
    · simp [selected]
  -- An insert would add the row once more.
  | insert schema table columns placeholders =>
    exact absurd rfl (overwrites schema table columns placeholders)
  -- Rows that were dropped cannot be selected again.
  | delete schema table conditions => simp [Statement.rowsAfter]

/-- Tables with the same columns accept the same statements. -/
theorem Table.accepts_congr {first second : Table} (same : first.columns = second.columns)
    (statement : Statement) (params : List Value) :
    first.accepts statement params = second.accepts statement params := by
  cases statement <;> simp [Table.accepts, same]

/-- An update or a delete that took effect takes effect again and changes nothing. -/
theorem execute_again {before sink : Database} {statement : Statement} {params : List Value}
    (overwrites : ∀ schema table columns placeholders,
      statement ≠ .insert schema table columns placeholders)
    (executed : execute before statement params = .ok sink) :
    execute sink statement params = .ok sink := by
  obtain ⟨table, changed, _, accepted, taken, rfl⟩ := execute_eq_ok.mp executed
  obtain ⟨sameColumns, sameUnique, rows⟩ := Table.withRows_eq_ok.mp taken
  -- The changed table accepts the statement and takes the rows that it has.
  refine execute_eq_ok.mpr ⟨changed, changed, by simp, ?_, ?_, by simp⟩
  · rwa [Table.accepts_congr sameColumns]
  · refine Table.withRows_eq_ok.mpr ⟨rfl, rfl, ?_⟩
    rw [rows, Statement.rowsAfter_again overwrites]

variable {config : Config} {r : Replication config}

/-- A change that is not an insert. -/
def Overwrites (change : SourceChange r) : Prop := ∀ after, change ≠ .insert after

/-- An update or a delete that took effect takes effect again and changes nothing. -/
theorem effect_again {before sink : Database} {change : SourceChange r}
    (overwrites : Overwrites change)
    (applied : effect config before (SourceMessage.event change).value = .ok sink) :
    effect config sink (SourceMessage.event change).value = .ok sink := by
  rw [effect_event] at applied ⊢
  refine execute_again (fun schema table columns placeholders same => ?_) applied
  -- Only an insert leads to an INSERT statement.
  cases change with
  | insert after => exact overwrites after rfl
  | update before after => cases same
  | delete before => cases same

/-- A row cannot be inserted next to a row with its key. -/
theorem insert_conflict {sink : Database} {table : Table} {after : FullImage r}
    (there : sink r.target = some table)
    (covered : ∀ column ∈ r.columns, column ∈ table.columns) (unique : r.identifier ∈ table.unique)
    (present : ∃ row ∈ table.rows, ∀ column ∈ r.identifier, row column = after.sinkRow column) :
    effect config sink (SourceMessage.event (.insert after)).value = .error .uniqueViolation := by
  -- The inserted row stands next to the row with its key, which has no NULL.
  have repeated : ¬ ((statementOf r (.insert after)).rowsAfter (paramsOf (.insert after))
      table.rows).Pairwise fun first second => ¬ Conflicting r.identifier first second := by
    intro distinct
    rw [rowsAfter_insert, List.pairwise_append] at distinct
    obtain ⟨row, member, same⟩ := present
    refine distinct.2.2 row member after.sinkRow (by simp) fun column identifying => ?_
    exact ⟨same column identifying ▸ after.sinkRow_ne_null identifying, same column identifying⟩
  rw [effect_event, execute, target_statementOf, there]
  simp [accepts_statementOf covered, Table.withRows_eq_error unique repeated, bind, Except.bind]

/-- An insert that took effect violates the unique key when it is processed again. -/
theorem insert_again {before sink : Database} {after : FullImage r}
    (unique : ∀ table, before r.target = some table → r.identifier ∈ table.unique)
    (applied : effect config before (SourceMessage.event (.insert after)).value = .ok sink) :
    effect config sink (SourceMessage.event (.insert after)).value = .error .uniqueViolation := by
  rw [effect_event, execute_eq_ok] at applied
  obtain ⟨table, changed, found, accepted, taken, rfl⟩ := applied
  obtain ⟨sameColumns, sameUnique, rows⟩ := Table.withRows_eq_ok.mp taken
  rw [target_statementOf] at found
  -- The statement was accepted once, so the table has all columns.
  have covered : ∀ column ∈ r.columns, column ∈ changed.columns := by
    intro column member
    have imaged : ∀ column ∈ Dict.keys after.image, column ∈ table.columns := by
      simpa [statementOf, paramsOf, Table.accepts] using accepted
    exact sameColumns ▸ imaged column ((after.full column).mpr member)
  -- The row that was inserted is the one it conflicts with.
  refine insert_conflict (by simp) covered (sameUnique ▸ unique table found)
    ⟨after.sinkRow, ?_, fun _ _ => rfl⟩
  simp [rows, rowsAfter_insert]

section Runs

variable {log : List (Option Change)} {position : Nat}

/-- Until the offset of a message is committed, the program stays at the message. -/
theorem position_of_uncommitted {program : Program} {start state : State}
    (atPosition : start.committed = position ∧ start.position = position)
    (run : Relation.ReflTransGen (Step program config log) start state) :
    position ≤ state.committed ∧ position ≤ state.position ∧
      (state.committed = position → state.position = position) := by
  -- Offsets only grow, and a crash goes back to the committed one.
  induction run with
  | refl => exact ⟨atPosition.1.ge, atPosition.2.ge, fun _ => atPosition.2⟩
  | tail _ step ih =>
    rcases step with clean | fault
    · cases clean <;> simp only at ih ⊢ <;> omega
    · cases fault <;> simp only at ih ⊢ <;> omega

/-- A message whose effect leaves the sink as it is gets committed. -/
theorem commits_of_effect {program : Program} {sink : Database} {message : Option Change}
    (logged : log[position]? = some message) (applied : effect config sink message = .ok sink)
    {phase : Phase} :
    Relation.ReflTransGen (CleanStep program config log) ⟨sink, position, position, phase⟩
      ⟨sink, position + 1, position + 1, .polling⟩ := by
  obtain ⟨available, _⟩ := List.getElem?_eq_some_iff.mp logged
  have committing : Relation.ReflTransGen (CleanStep program config log)
      ⟨sink, position, position, .committing⟩ ⟨sink, position + 1, position + 1, .polling⟩ :=
    .single .commit
  have processing : Relation.ReflTransGen (CleanStep program config log)
      ⟨sink, position, position, .processing⟩ ⟨sink, position + 1, position + 1, .polling⟩ :=
    committing.head (.succeed logged applied)
  -- The phases follow each other up to the commit.
  cases phase with
  | polling => exact processing.head (.poll available)
  | processing => exact processing
  | committing => exact committing

/-- A message that keeps violating a unique constraint is retried for ever. -/
theorem stuck_of_effect {sink : Database} {message : Option Change}
    (logged : log[position]? = some message)
    (failed : effect config sink message = .error .uniqueViolation) {start state : State}
    (atMessage : start.sink = sink ∧ start.committed = position ∧ start.position = position ∧
      start.phase ≠ .committing)
    (run : Relation.ReflTransGen (CleanStep .main config log) start state) :
    state.sink = sink ∧ state.committed = position ∧ state.position = position ∧
      state.phase ≠ .committing := by
  induction run with
  | refl => exact atMessage
  | tail _ step ih =>
    cases step with
    | poll available => exact ⟨ih.1, ih.2.1, ih.2.2.1, by simp⟩
    -- The attempt cannot succeed.
    | succeed found applied =>
      obtain ⟨rfl, _, rfl, _⟩ := ih
      rw [logged, Option.some.injEq] at found
      rw [← found, failed] at applied
      cases applied
    | skip found failed skipped => cases skipped
    | retry found failed tried => exact ih
    -- There is no way to the commit.
    | commit => exact absurd rfl ih.2.2.2

end Runs

/--
An event whose statement has taken effect is processed again with success unless it is an insert.

The run may have failed at any point between the effect of the statement and the commit.
-/
theorem redelivery_iff {log : List (Option Change)} {position : Nat} {before sink : Database}
    {change : SourceChange r} {state : State}
    (logged : log[position]? = some (SourceMessage.event change).value)
    (unique : ∀ table, before r.target = some table → r.identifier ∈ table.unique)
    (applied : effect config before (SourceMessage.event change).value = .ok sink)
    (run : Relation.ReflTransGen (Step .main config log) ⟨before, position, position, .processing⟩
      state)
    (took : state.sink = sink) (uncommitted : state.committed = position)
    (again : state.phase ≠ .committing) :
    Relation.ReflTransGen (CleanStep .main config log) state
        ⟨sink, position + 1, position + 1, .polling⟩ ↔
      ∀ after, change ≠ .insert after := by
  have atMessage := (position_of_uncommitted ⟨rfl, rfl⟩ run).2.2 uncommitted
  constructor
  · -- A repeated insert keeps the program at the message.
    intro onwards after inserted
    subst inserted
    have failed := insert_again unique applied
    have stuck := stuck_of_effect logged failed ⟨took, uncommitted, atMessage, again⟩ onwards
    exact absurd stuck.2.1 (Nat.succ_ne_self position)
  -- An update or a delete succeeds again, and the offset is committed.
  · intro overwrites
    obtain ⟨stateSink, committed, statePosition, phase⟩ := state
    simp only at took uncommitted atMessage
    subst took uncommitted atMessage
    exact commits_of_effect logged (effect_again overwrites applied)

/-- The messages of a user who is inserted and then updated. -/
def userLog : List (Option Change) :=
  [(SourceMessage.event (.insert (userRow 1 "a"))).value,
    (SourceMessage.event (.update (userRow 1 "a") (userRow 1 "b"))).value]

/-- The first user gets into the empty sink. -/
theorem users_insert_succeeds : ∃ sink, effect usersConfig (usersSink [["id"]])
    (SourceMessage.event (.insert (userRow 1 "a"))).value = .ok sink :=
  effect_succeeds (usersSink_empty [["id"]]) (by simp [users]) (by simp) (by simp [RowChange.Legal])
    (users_keysApart _)

/-- An update that took effect before a crash is processed again with success. -/
theorem redelivery_update : ∃ before sink,
    effect usersConfig (usersSink [["id"]]) (SourceMessage.event (.insert (userRow 1 "a"))).value =
        .ok before ∧
      effect usersConfig before
          (SourceMessage.event (.update (userRow 1 "a") (userRow 1 "b"))).value = .ok sink ∧
      Relation.ReflTransGen (CleanStep .main usersConfig userLog) ⟨sink, 1, 1, .polling⟩
        ⟨sink, 2, 2, .polling⟩ := by
  obtain ⟨before, inserted⟩ := users_insert_succeeds
  have mirrors := mirrors_effect (usersSink_empty [["id"]]) (users_keysApart _) inserted
  have legal : RowChange.Legal FullImage.rowKey (RowChange.apply FullImage.rowKey []
      (.insert (userRow 1 "a"))) (.update (userRow 1 "a") (userRow 1 "b")) :=
    ⟨by simp [RowChange.apply], rfl⟩
  obtain ⟨sink, updated⟩ := effect_succeeds mirrors (by simp [users]) (by simp [RowChange.apply])
    legal (users_keysApart _)
  refine ⟨before, sink, inserted, updated, ?_⟩
  -- The answer to the update is lost, and then the program crashes.
  have lost : Step .main usersConfig userLog ⟨before, 1, 1, .processing⟩
      ⟨sink, 1, 1, .processing⟩ := Or.inr (.answerLost rfl updated)
  have crashed : Step .main usersConfig userLog ⟨sink, 1, 1, .processing⟩ ⟨sink, 1, 1, .polling⟩ :=
    Or.inr .crash
  have unique : ∀ table, before users.target = some table → users.identifier ∈ table.unique :=
    fun table found => by simp [mirrors.unique_eq found, users]
  exact (redelivery_iff rfl unique updated (.tail (.single lost) crashed) rfl rfl (by simp)).mpr
    fun after same => by cases same

/-- An insert that took effect before a crash is retried for ever. -/
theorem redelivery_counterexample : ∃ sink,
    effect usersConfig (usersSink [["id"]]) (SourceMessage.event (.insert (userRow 1 "a"))).value =
        .ok sink ∧
      Relation.ReflTransGen (Step .main usersConfig userLog)
        ⟨usersSink [["id"]], 0, 0, .processing⟩ ⟨sink, 0, 0, .polling⟩ ∧
      ∀ state, Relation.ReflTransGen (CleanStep .main usersConfig userLog) ⟨sink, 0, 0, .polling⟩
        state → state.committed = 0 := by
  obtain ⟨sink, inserted⟩ := users_insert_succeeds
  -- The program crashes between the effect of the insert and the commit.
  have taken : Step .main usersConfig userLog ⟨usersSink [["id"]], 0, 0, .processing⟩
      ⟨sink, 0, 0, .committing⟩ := Or.inl (.succeed rfl inserted)
  have crashed : Step .main usersConfig userLog ⟨sink, 0, 0, .committing⟩ ⟨sink, 0, 0, .polling⟩ :=
    Or.inr .crash
  refine ⟨sink, inserted, .tail (.single taken) crashed, fun state run => ?_⟩
  have failed := insert_again
    (fun table found => by simp [(usersSink_empty _).unique_eq found, users]) inserted
  exact (stuck_of_effect rfl failed ⟨rfl, rfl, rfl, by simp⟩ run).2.1

end AivenExamples.PgSync
