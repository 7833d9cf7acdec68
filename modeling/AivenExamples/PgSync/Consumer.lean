import AivenExamples.PgSync.Statements

/-! The consumer loops: what one attempt does, how it is retried, and when offsets are committed. -/

namespace AivenExamples.PgSync

/-- A decoded change event. -/
structure Change where
  schema : String
  table : String
  before : Option Image
  after : Option Image

/-- The two programs, which differ in what they do about a violated unique constraint. -/
inductive Program where
  | main
  | avroMain
  deriving DecidableEq

/-- Whether a program skips the record instead of trying again. -/
def Program.skips : Program → Fault → Bool
  | .avroMain, .uniqueViolation => true
  | _, _ => false

/-- An exception of the program itself. -/
def python {α : Type} (outcome : Except PyError α) : Except Fault α :=
  outcome.mapError .python

/-- `before[k]`. -/
def subscript (image : Image) (key : String) : Except PyError Value :=
  match Dict.get? image key with
  | some value => .ok value
  | none => .error (.keyError key)

/-- The values by which a row is found: those of the row identifier, or all of them. -/
def identifyingValues (config : Config) (tableName : String) (before : Image) :
    Except PyError (List String × List Value) := do
  match ← findRowIdentifier config tableName with
  | some keys =>
    let values ← keys.mapM (subscript before)
    return (keys, values)
  | none => return (Dict.keys before, Dict.values before)

/-- The update branch of the loop. -/
def applyUpdate (config : Config) (database : Database) (change : Change) (before after : Image) :
    Except Fault Database := do
  let query ← python (createUpdateStatement config change.schema change.table before after)
  let aCastedValues ←
    python (castValues config (Dict.keys after) (Dict.values after) change.table)
  let (keys, values) ← python (identifyingValues config change.table before)
  let bCastedValues ← python (castValues config keys values change.table)
  execute database query (aCastedValues ++ bCastedValues)

/-- The insert branch of the loop. -/
def applyInsert (config : Config) (database : Database) (change : Change) (after : Image) :
    Except Fault Database := do
  let query := createInsertStatement change.schema change.table after
  let castedValues ← python (castValues config (Dict.keys after) (Dict.values after) change.table)
  execute database query castedValues

/-- The delete branch of the loop. -/
def applyDelete (config : Config) (database : Database) (change : Change) (before : Image) :
    Except Fault Database := do
  let query ← python (createDeleteStatement config change.schema change.table before)
  let (keys, values) ← python (identifyingValues config change.table before)
  let castedValues ← python (castValues config keys values change.table)
  execute database query castedValues

/-- One attempt at a change; an image is true when it is there and has a column. -/
def attempt (config : Config) (database : Database) (change : Change) : Except Fault Database :=
  match change.before, change.after with
  | some (beforeHead :: beforeTail), some (afterHead :: afterTail) =>
    applyUpdate config database change (beforeHead :: beforeTail) (afterHead :: afterTail)
  -- A missing before image is an insert, also with an empty after image.
  | none, some after => applyInsert config database change after
  -- Asking a missing after image for its keys raises.
  | none, none => .error (.python .attributeError)
  -- Whatever else has a before image is a delete.
  | some before, _ => applyDelete config database change before

/-- What an attempt at a message does; a tombstone has no value and is passed over. -/
def effect (config : Config) (database : Database) : Option Change → Except Fault Database
  | none => .ok database
  | some change => attempt config database change

/--
The loop around one message with a bound on the attempts, nothing when they run out.

A failed attempt leaves the database as it was.
-/
def retryLoop (program : Program) (config : Config) (database : Database)
    (message : Option Change) : Nat → Option Database
  | 0 => none
  | attempts + 1 =>
    match effect config database message with
    | .ok after => some after
    | .error fault =>
      -- A skipped record counts as processed.
      if program.skips fault then some database
      else retryLoop program config database message attempts

/-- An attempt that takes effect ends the loop. -/
theorem retryLoop_of_ok {program : Program} {config : Config} {database after : Database}
    {message : Option Change} {attempts : Nat}
    (applied : effect config database message = .ok after) (positive : 0 < attempts) :
    retryLoop program config database message attempts = some after := by
  -- The first attempt is all that is needed.
  cases attempts with
  | zero => exact absurd positive (Nat.lt_irrefl 0)
  | succ attempts => simp [retryLoop, applied]

/-- Without skipping the loop only ends with an attempt that takes effect. -/
theorem effect_of_retryLoop {config : Config} {database after : Database}
    {message : Option Change} {attempts : Nat}
    (ended : retryLoop .main config database message attempts = some after) :
    effect config database message = .ok after := by
  -- Failed attempts change nothing, so the last one starts where the first one did.
  induction attempts with
  | zero => cases ended
  | succ attempts ih =>
    cases attempted : effect config database message with
    | ok result =>
      simp only [retryLoop, attempted, Option.some.injEq] at ended
      rw [ended]
    | error fault =>
      simp only [retryLoop, attempted, Program.skips, Bool.false_eq_true, if_false] at ended
      rw [← ih ended, attempted]

/-- The loop over the messages of the consumer. -/
def consume (program : Program) (config : Config) (attempts : Nat) (database : Database)
    (messages : List (Option Change)) : Option Database :=
  messages.foldlM (fun database message => retryLoop program config database message attempts)
    database

@[simp] theorem consume_cons (program : Program) (config : Config) (attempts : Nat)
    (database : Database) (message : Option Change) (messages : List (Option Change)) :
    consume program config attempts database (message :: messages) =
      (retryLoop program config database message attempts).bind fun after =>
        consume program config attempts after messages := rfl

/-- Where the program is with the message at its position. -/
inductive Phase where
  | polling
  | processing
  | committing
  deriving DecidableEq

/-- The sink, the committed offset, and the position of the running consumer. -/
structure State where
  sink : Database
  committed : Nat
  position : Nat
  phase : Phase

/-- What the program does while nothing goes wrong around it. -/
inductive CleanStep (program : Program) (config : Config) (log : List (Option Change)) :
    State → State → Prop where
  | poll {sink : Database} {committed position : Nat} (available : position < log.length) :
    CleanStep program config log ⟨sink, committed, position, .polling⟩
      ⟨sink, committed, position, .processing⟩
  -- The attempt takes effect, and the loop around the message is left.
  | succeed {sink after : Database} {committed position : Nat} {message : Option Change}
    (found : log[position]? = some message) (applied : effect config sink message = .ok after) :
    CleanStep program config log ⟨sink, committed, position, .processing⟩
      ⟨after, committed, position, .committing⟩
  -- A fault that the program does not try again is passed over.
  | skip {sink : Database} {committed position : Nat} {message : Option Change} {fault : Fault}
    (found : log[position]? = some message) (failed : effect config sink message = .error fault)
    (skipped : program.skips fault = true) :
    CleanStep program config log ⟨sink, committed, position, .processing⟩
      ⟨sink, committed, position, .committing⟩
  -- The same message is tried again, without an end.
  | retry {sink : Database} {committed position : Nat} {message : Option Change} {fault : Fault}
    (found : log[position]? = some message) (failed : effect config sink message = .error fault)
    (tried : program.skips fault = false) :
    CleanStep program config log ⟨sink, committed, position, .processing⟩
      ⟨sink, committed, position, .processing⟩
  | commit {sink : Database} {committed position : Nat} :
    CleanStep program config log ⟨sink, committed, position, .committing⟩
      ⟨sink, position + 1, position + 1, .polling⟩

/-- What can go wrong around the program: lost statements, lost commits and crashes. -/
inductive FaultStep (config : Config) (log : List (Option Change)) : State → State → Prop where
  -- The statement does not reach the database, and the attempt fails.
  | statementLost {sink : Database} {committed position : Nat} :
    FaultStep config log ⟨sink, committed, position, .processing⟩
      ⟨sink, committed, position, .processing⟩
  -- The statement takes effect, but the program takes the attempt for failed.
  | answerLost {sink after : Database} {committed position : Nat} {message : Option Change}
    (found : log[position]? = some message) (applied : effect config sink message = .ok after) :
    FaultStep config log ⟨sink, committed, position, .processing⟩
      ⟨after, committed, position, .processing⟩
  | commitLost {sink : Database} {committed position : Nat} :
    FaultStep config log ⟨sink, committed, position, .committing⟩
      ⟨sink, committed, position, .committing⟩
  | commitAnswerLost {sink : Database} {committed position : Nat} :
    FaultStep config log ⟨sink, committed, position, .committing⟩
      ⟨sink, position + 1, position, .committing⟩
  -- A new process starts from the committed offset, with the sink as it is.
  | crash {sink : Database} {committed position : Nat} {phase : Phase} :
    FaultStep config log ⟨sink, committed, position, phase⟩ ⟨sink, committed, committed, .polling⟩

/-- One step of the program or of its surroundings. -/
def Step (program : Program) (config : Config) (log : List (Option Change)) (first second : State) :
    Prop :=
  CleanStep program config log first second ∨ FaultStep config log first second

end AivenExamples.PgSync
