import AivenExamples.Data.Double
import AivenExamples.Data.Json
import Mathlib.Logic.Function.Basic

/-! The consumer that batches messages into a LanceDB table while its offsets are committed. -/

namespace AivenExamples.DisklessLancedb

open Rounding

/-- A message with its parsed value. -/
structure Message where
  partition : Nat
  offset : Nat
  key : Option String
  value : Json

/-- The messages of a topic by partition, in the order of their offsets. -/
structure Topic where
  messages : Nat → List Message
  ordered : ∀ partition, (messages partition).Pairwise fun first second =>
    first.offset < second.offset
  located : ∀ partition, ∀ message ∈ messages partition, message.partition = partition

/-- A record of the table; the last two fields are only there for messages with data. -/
structure Row where
  id : Json
  vector : List Rat
  timestamp : Json
  message : Json
  kafkaOffset : Nat
  kafkaPartition : Nat
  kafkaKey : Option String
  rawData : String
  category : Option Json
  value : Option Json

/-- The digests, texts and times that the records are made with. -/
structure Encoding where
  sha256 : ByteArray → Vector UInt8 32
  dumps : Json → String
  hash : String → Int
  now : String
  vectorDim : Nat

/-- `(byte_val / 255.0) * 2 - 1` -/
def normalized (byte : UInt8) : Rat :=
  double (double (double (byte.toNat / 255) * 2) - 1)

/-- `create_vector_from_message`, which uses the bytes of the digest again and again. -/
def Encoding.createVectorFromMessage (encoding : Encoding) (message : Json) : List Rat :=
  let messageStr := encoding.dumps message.sortKeys
  let hashBytes := encoding.sha256 messageStr.toUTF8
  (List.range encoding.vectorDim).map fun i => normalized (hashBytes[i % 32])

/-- Every byte becomes a number between minus one and one. -/
theorem normalized_range (byte : UInt8) : -1 ≤ normalized byte ∧ normalized byte ≤ 1 := by
  -- There are 256 of them, whose doubles are computed.
  have all : ∀ number < 256, -1 ≤ double (double (double ((number : ℕ) / 255) * 2) - 1) ∧
      double (double (double ((number : ℕ) / 255) * 2) - 1) ≤ 1 := by decide +kernel
  exact all byte.toNat byte.toNat_lt

/-- The vector has the dimension that is asked for, and its entries are in the table's range. -/
theorem createVectorFromMessage_range (encoding : Encoding) (message : Json) :
    (encoding.createVectorFromMessage message).length = encoding.vectorDim ∧
      ∀ entry ∈ encoding.createVectorFromMessage message, -1 ≤ entry ∧ entry ≤ 1 := by
  -- Each entry is made of one byte.
  refine ⟨by simp [Encoding.createVectorFromMessage], fun entry member => ?_⟩
  obtain ⟨i, -, same⟩ := List.mem_map.mp member
  exact same ▸ normalized_range _

/-- The fields that are only there for messages with data. -/
def additionalFields (value : Json) : Except PyError (Option Json × Option Json) := do
  if ← value.contains "data" then
    let data ← value.item "data"
    return (some (← data.get "category" (.str "")), some (← data.get "value" (.num 0)))
  else return (none, none)

/-- One record of `prepare_lancedb_data`, which only values of a certain shape have. -/
def prepareRecord (encoding : Encoding) (message : Message) : Except PyError Row := do
  -- The default is evaluated first, whether the key is there or not.
  let id ← message.value.get "id" (.num (encoding.hash (encoding.dumps message.value)))
  let timestamp ← message.value.get "timestamp" (.str encoding.now)
  let text ← message.value.get "message" (.str "")
  let (category, value) ← additionalFields message.value
  return {
    id := id
    vector := encoding.createVectorFromMessage message.value
    timestamp := timestamp
    message := text
    kafkaOffset := message.offset
    kafkaPartition := message.partition
    kafkaKey := message.key
    rawData := encoding.dumps message.value
    category := category
    value := value }

/-- `prepare_lancedb_data`: one value of another shape spoils the whole batch. -/
def prepareLancedbData (encoding : Encoding) (messages : List Message) :
    Except PyError (List Row) :=
  messages.mapM (prepareRecord encoding)

/-- Where the process is in `consume_and_store`. -/
inductive Phase where
  /-- There is no process. -/
  | stopped
  /-- Waiting for the next message. -/
  | polling
  /-- A message has been yielded and is not in the batch yet. -/
  | received
  /-- The message is in the batch, which is about to be written if it is full. -/
  | storing
  /-- The batch has been added to the table and is about to be emptied. -/
  | added
  /-- In the `finally` block, before the remaining messages are written. -/
  | finishing
  /-- About to close the consumer. -/
  | closing
  deriving DecidableEq

/-- The offsets of the consumer group, the table, and what the process has in memory. -/
structure State where
  committed : Nat → Nat
  table : List Row
  phase : Phase
  position : Nat → Nat
  current : Option Message
  batch : List Message

/-- What can happen; a write is given whether `table.add` succeeds. -/
inductive Action where
  | start
  | deliver (partition : Nat)
  | append
  | store (succeeds : Bool)
  | reset
  /-- A keyboard interrupt or an exception that leaves the loop. -/
  | interrupt
  | flush (succeeds : Bool)
  | autoCommit
  | close
  | crash

/-- Before the first start: nothing is committed and the table is empty. -/
def initial : State where
  committed := fun _ => 0
  table := []
  phase := .stopped
  position := fun _ => 0
  current := none
  batch := []

/-- The next message of a partition. -/
def nextMessage (topic : Topic) (position : Nat → Nat) (partition : Nat) : Option Message :=
  (topic.messages partition).find? fun message => position partition ≤ message.offset

/-- The rows that a write adds, unless the batch cannot be prepared or `table.add` fails. -/
def addedRows (encoding : Encoding) (batch : List Message) (succeeds : Bool) : Option (List Row) :=
  match prepareLancedbData encoding batch with
  | .ok rows => if succeeds then some rows else none
  | .error _ => none

/-- The positions of the yielded messages become the offsets of the group. -/
def State.commit (state : State) : State := { state with committed := state.position }

/-- The process is gone, and with it what it had in memory. -/
def State.halt (state : State) : State :=
  { state with phase := .stopped, current := none, batch := [] }

/-- What an action makes of a state, if the process is where it can happen. -/
def step (encoding : Encoding) (batchSize : Int) (topic : Topic) (state : State) :
    Action → Option State
  | .start =>
    -- Reading goes on behind the committed offsets, or at the beginning of the topic.
    if state.phase = .stopped then
      some { state with
        phase := .polling, position := state.committed, current := none, batch := [] }
    else none
  | .deliver partition =>
    if state.phase = .polling then
      (nextMessage topic state.position partition).map fun message => { state with
        phase := .received
        position := Function.update state.position partition (message.offset + 1)
        current := some message }
    else none
  | .append =>
    if state.phase = .received then
      state.current.map fun message => { state with
        phase := .storing, current := none, batch := state.batch ++ [message] }
    else none
  | .store succeeds =>
    if state.phase = .storing then
      if batchSize ≤ state.batch.length then
        match addedRows encoding state.batch succeeds with
        | some rows => some { state with phase := .added, table := state.table ++ rows }
        -- The batch is kept, and the loop goes on with the next message.
        | none => some { state with phase := .polling }
      else some { state with phase := .polling }
    else none
  | .reset =>
    if state.phase = .added then some { state with phase := .polling, batch := [] } else none
  | .interrupt =>
    if state.phase ∈ [.polling, .received, .storing, .added] then
      some { state with phase := .finishing }
    else none
  | .flush succeeds =>
    if state.phase = .finishing then
      -- An empty batch has no rows, so that nothing is added for it either way.
      match addedRows encoding state.batch succeeds with
      | some rows => some { state with phase := .closing, table := state.table ++ rows }
      | none => some { state with phase := .closing }
    else none
  | .autoCommit => if state.phase = .stopped then none else some state.commit
  | .close => if state.phase = .closing then some state.commit.halt else none
  | .crash => if state.phase = .stopped then none else some state.halt

/-- The states of a run, as long as its actions can happen. -/
def visited (encoding : Encoding) (batchSize : Int) (topic : Topic) :
    State → List Action → List State
  | state, [] => [state]
  | state, action :: actions =>
    match step encoding batchSize topic state action with
    | some next => state :: visited encoding batchSize topic next actions
    | none => [state]

/-- The actions that commit offsets: in the background and on closing the consumer. -/
def Action.commits : Action → Bool
  | .autoCommit => true
  | .close => true
  | _ => false

/-- The states of a run in which offsets are committed. -/
def commitPoints (encoding : Encoding) (batchSize : Int) (topic : Topic) :
    State → List Action → List State
  | _, [] => []
  | state, action :: actions =>
    match step encoding batchSize topic state action with
    | some next =>
      -- The offsets are those of the state in which the action is taken.
      (if action.commits then [state] else []) ++
        commitPoints encoding batchSize topic next actions
    | none => []

/-! ### What a step can do -/

section Steps

variable {encoding : Encoding} {batchSize : Int} {topic : Topic} {state next : State}

/-- A process starts where none is running. -/
theorem step_start : step encoding batchSize topic state .start = some next ↔
    state.phase = .stopped ∧ { state with
      phase := .polling, position := state.committed, current := none, batch := [] } = next := by
  simp [step]

/-- The next message of a partition becomes the loop variable. -/
theorem step_deliver {partition : Nat} :
    step encoding batchSize topic state (.deliver partition) = some next ↔
      state.phase = .polling ∧
        ∃ message, nextMessage topic state.position partition = some message ∧ { state with
          phase := .received
          position := Function.update state.position partition (message.offset + 1)
          current := some message } = next := by
  -- Without a next message the step is refused.
  simp [step]

/-- The loop variable is put into the batch. -/
theorem step_append : step encoding batchSize topic state .append = some next ↔
    state.phase = .received ∧ ∃ message, state.current = some message ∧ { state with
      phase := .storing, current := none, batch := state.batch ++ [message] } = next := by
  simp [step]

/-- A full batch whose rows are added goes on to be emptied; any other one is kept. -/
theorem step_store {succeeds : Bool} :
    step encoding batchSize topic state (.store succeeds) = some next ↔
      state.phase = .storing ∧
        ((batchSize ≤ state.batch.length ∧ ∃ rows,
            addedRows encoding state.batch succeeds = some rows ∧
            { state with phase := .added, table := state.table ++ rows } = next) ∨
          ((batchSize ≤ state.batch.length → addedRows encoding state.batch succeeds = none) ∧
            { state with phase := .polling } = next)) := by
  -- A batch that is too small is not written at all.
  by_cases full : batchSize ≤ state.batch.length
  · cases added : addedRows encoding state.batch succeeds <;> simp [step, full, added]
  · simp [step, full]

/-- The batch is emptied behind a successful write. -/
theorem step_reset : step encoding batchSize topic state .reset = some next ↔
    state.phase = .added ∧ { state with phase := .polling, batch := [] } = next := by
  simp [step]

/-- The loop is left from anywhere in it. -/
theorem step_interrupt : step encoding batchSize topic state .interrupt = some next ↔
    state.phase ∈ [.polling, .received, .storing, .added] ∧
      { state with phase := .finishing } = next := by
  simp [step]

/-- The rows of what is left are added, if there are any. -/
theorem step_flush {succeeds : Bool} :
    step encoding batchSize topic state (.flush succeeds) = some next ↔
      state.phase = .finishing ∧ { state with
        phase := .closing
        table := state.table ++ (addedRows encoding state.batch succeeds).getD [] } = next := by
  cases added : addedRows encoding state.batch succeeds <;> simp [step, added]

/-- Offsets are committed while a process is running. -/
theorem step_autoCommit : step encoding batchSize topic state .autoCommit = some next ↔
    state.phase ≠ .stopped ∧ state.commit = next := by
  simp [step]

/-- Closing the consumer commits, and the process ends. -/
theorem step_close : step encoding batchSize topic state .close = some next ↔
    state.phase = .closing ∧ state.commit.halt = next := by
  simp [step]

/-- A process that is running can be gone at any time. -/
theorem step_crash : step encoding batchSize topic state .crash = some next ↔
    state.phase ≠ .stopped ∧ state.halt = next := by
  simp [step]

end Steps

end AivenExamples.DisklessLancedb
