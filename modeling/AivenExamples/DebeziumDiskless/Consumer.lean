import AivenExamples.Data.Json

/-! The replication test's consumer: a poll loop that counts the inserts of its own run. -/

namespace AivenExamples.DebeziumDiskless

/-- What a message carries: no value, bytes that are not JSON, or a parsed value. -/
inductive MessageValue where
  | missing
  | undecodable
  | json (data : Json)

/-- What one call of `consumer.poll` returns. -/
inductive Polled where
  | nothing
  | partitionEof
  /-- Any other error than the end of a partition. -/
  | consumerError
  | message (value : MessageValue)

/-- A poll and the time at which it returns, in seconds. -/
structure Poll where
  now : Rat
  polled : Polled

/-- The arguments of `consumer_thread` that the loop reads. -/
structure Settings where
  numMessages : Int
  runId : Option String

/-- The variables that the loop carries from one poll to the next. -/
structure State where
  messageCount : Int
  lastMessageTime : Rat
  receivedIds : List Json

/-- Whether the loop goes on after a poll. -/
inductive Flow where
  | proceed (state : State)
  | leave (state : State)

/-- `no_message_timeout`, two minutes. -/
def noMessageTimeout : Rat := 120

/-- The payload wrapper when there is one, else the message itself. -/
def payloadOf (fields : Dict String Json) : Json :=
  (Dict.get? fields "payload").getD (.obj fields)

/-- `op in ("c", "r")`: a create or a snapshot read. -/
def isInsert (op : Json) : Bool := op.pyEq (.str "c") || op.pyEq (.str "r")

/-- `run_id and msg_run_id != run_id`: the row belongs to another run of the test. -/
def otherRun (runId : Option String) (msgRunId : Json) : Bool :=
  match runId with
  | none => false
  | some text => text ≠ "" && !msgRunId.pyEq (.str text)

/-- The id of a message that counts, nothing for one that is skipped, or what its reading raises. -/
def countedId (runId : Option String) (data : Json) : Except PyError (Option Json) :=
  match data with
  | .obj fields =>
    let payload := payloadOf fields
    if payload.truthy then do
      let op ← payload.get "op" (.str "")
      if isInsert op then
        let after ← payload.get "after" (.obj [])
        let msgId ← after.get "id" .null
        let msgRunId ← after.get "test_run_id" .null
        if otherRun runId msgRunId then return none else return some msgId
      else return none
    else return none
  -- The message value is not a dictionary.
  | _ => return none

/-- `received_ids.add(msg_id)`, which takes only values without parts. -/
def addId (ids : List Json) (msgId : Json) : Except PyError (List Json) :=
  match msgId with
  | .arr _ => .error .typeError
  | .obj _ => .error .typeError
  | _ => return if ids.any msgId.pyEq then ids else ids ++ [msgId]

/-- A counted message is tracked by its id, if it has one. -/
def track (state : State) (msgId : Json) : State :=
  let counted := { state with messageCount := state.messageCount + 1 }
  match msgId with
  | .null => counted
  | _ =>
    match addId state.receivedIds msgId with
    | .ok ids => { counted with receivedIds := ids }
    -- The exception is caught behind the counting, which stays.
    | .error _ => counted

/--
The guarded part of the loop body.

Commits of the offset are left out: whether one succeeds or raises, the loop goes on alike.
-/
def process (settings : Settings) (state : State) (value : MessageValue) : Flow :=
  match value with
  | .missing => .proceed state
  | .undecodable => .proceed state
  | .json data =>
    match countedId settings.runId data with
    -- An exception is printed, and the loop goes on.
    | .error _ => .proceed state
    | .ok none => .proceed state
    | .ok (some msgId) =>
      let state := track state msgId
      -- The count is compared once the id has been added.
      if settings.numMessages ≤ state.messageCount then .leave state else .proceed state

/-- The loop body. -/
def handle (settings : Settings) (state : State) (poll : Poll) : Flow :=
  match poll.polled with
  | .nothing =>
    if noMessageTimeout < poll.now - state.lastMessageTime then .leave state else .proceed state
  | .partitionEof => .proceed state
  | .consumerError => .leave state
  | .message value => process settings { state with lastMessageTime := poll.now } value

/-- The loop over the polls: its state once it has ended, nothing while it waits for more. -/
def consume (settings : Settings) (state : State) : List Poll → Option State
  | [] => if settings.numMessages ≤ state.messageCount then some state else none
  | poll :: polls =>
    if settings.numMessages ≤ state.messageCount then some state
    else
      match handle settings state poll with
      | .proceed state => consume settings state polls
      | .leave state => some state

/-- The state in which the loop starts. -/
def start (now : Rat) : State := { messageCount := 0, lastMessageTime := now, receivedIds := [] }

/-- The ids that were expected and not received. -/
def missing (expected received : List Json) : List Json :=
  expected.filter fun msgId => !received.any msgId.pyEq

/-- The ids that were received and not expected. -/
def extra (expected received : List Json) : List Json :=
  received.filter fun msgId => !expected.any msgId.pyEq

end AivenExamples.DebeziumDiskless
