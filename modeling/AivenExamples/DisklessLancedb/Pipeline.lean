import AivenExamples.Data.JsonRoundTrip
import AivenExamples.Data.Schedule
import AivenExamples.DisklessLancedb.Batching

/-! From the producer to the query: what is sent, stored as raw data, and displayed again. -/

namespace AivenExamples.DisklessLancedb

open JsonText

/-! ### What is on the topic -/

/-- The message number `i` of `produce_sample_messages`. -/
def sampleMessage (now : Nat → String) (i : Nat) : Json :=
  .obj [("id", .num (i + 1 : Nat)), ("timestamp", .str (now i)),
    ("message", .str ("Sample message " ++ toString (i + 1))),
    ("data", .obj [("value", .num (i * 10 : Nat)),
      ("category", .str ("category_" ++ toString (i % 3))),
      ("metadata", .obj [("source", .str "kafka-producer"), ("version", .str "1.0")])])]

/-- `json.dumps(v)`, the serializer of the values. -/
def serialize (floats : Floats) (value : Json) : String := dumps ⟨true, none⟩ floats value

/-- A record of the topic, with its value as text. -/
structure Sent where
  partition : Nat
  offset : Nat
  key : String
  payload : String

/-- The record is one that `produce_sample_messages` sends. -/
def Produced (floats : Floats) (now : Nat → String) (numMessages : Nat) (sent : Sent) : Prop :=
  ∃ i < numMessages, sent.key = "key_" ++ toString i ∧
    sent.payload = serialize floats (sampleMessage now i)

/-- `json.loads(m.decode('utf-8'))`, the deserializer of the values, unless it raises. -/
def deserialize (floats : Floats) (sent : Sent) : Option Message :=
  (loads floats sent.payload).map fun value =>
    ⟨sent.partition, sent.offset, some sent.key, value⟩

/-- The consumer of the script: its texts are those of `json`. -/
def withJson (floats : Floats) (encoding : Encoding) : Encoding :=
  { encoding with dumps := serialize floats }

/-- What `display_results` shows as raw data: laid out again, or as it is when it is no JSON. -/
def displayRawData (floats : Floats) (row : Row) : String :=
  match loads floats row.rawData with
  | some value => "  Raw Data: " ++ dumps ⟨true, some 4⟩ floats value
  | none => "  Raw Data: " ++ row.rawData

/-! ### Where the rows come from -/

variable {encoding : Encoding} {batchSize : Int} {topic : Topic}

/-- Every row that is written is made of one of the messages. -/
theorem Written.exists_message {messages : List Message} {rows : List Row}
    (pairs : Written encoding messages rows) {row : Row} (member : row ∈ rows) :
    ∃ message ∈ messages, prepareRecord encoding message = .ok row := by
  -- The induction is on the rows that were written.
  induction pairs with
  | nil => cases member
  | cons head _ ih =>
    rcases List.mem_cons.mp member with here | later
    · exact ⟨_, List.mem_cons_self, here ▸ head⟩
    · obtain ⟨message, inside, prepared⟩ := ih later
      exact ⟨message, List.mem_cons_of_mem _ inside, prepared⟩

/-- Rows and pending messages stem from the topic. -/
structure Rooted (encoding : Encoding) (topic : Topic) (state : State) : Prop where
  rows : ∀ row ∈ state.table, ∃ message ∈ topic.messages row.kafkaPartition,
    prepareRecord encoding message = .ok row
  pending : ∀ message ∈ state.unwritten, message ∈ topic.messages message.partition

/-- The rows that are added for messages of the topic stem from it. -/
theorem Rooted.add {state : State} (rooted : Rooted encoding topic state) {succeeds : Bool}
    {rows : List Row} (added : addedRows encoding state.batch succeeds = some rows) :
    ∀ row ∈ state.table ++ rows, ∃ message ∈ topic.messages row.kafkaPartition,
      prepareRecord encoding message = .ok row := by
  intro row member
  rcases List.mem_append.mp member with before | new
  · exact rooted.rows row before
  · -- The rows are made of the messages of the batch.
    obtain ⟨message, inBatch, prepared⟩ := (written_of_addedRows added).exists_message new
    refine ⟨message, ?_, prepared⟩
    rw [(prepareRecord_eq_ok prepared).1]
    exact rooted.pending message (List.mem_append_left _ inBatch)

/-- A process that starts or ends has nothing in memory. -/
theorem Rooted.forget {state next : State} (rooted : Rooted encoding topic state)
    (table : next.table = state.table) (unwritten : next.unwritten = []) :
    Rooted encoding topic next where
  rows := table ▸ rooted.rows
  pending := by simp [unwritten]

/-- Every step keeps rows and pending messages rooted in the topic. -/
theorem rooted_step {state next : State} {action : Action} (rooted : Rooted encoding topic state)
    (stepped : step encoding batchSize topic state action = some next) :
    Rooted encoding topic next := by
  cases action with
  | start =>
    obtain ⟨_, rfl⟩ := step_start.mp stepped
    exact rooted.forget rfl (by simp [State.unwritten])
  | deliver partition =>
    obtain ⟨_, message, found, rfl⟩ := step_deliver.mp stepped
    have delivered := (nextMessage_eq_some found).1
    refine ⟨rooted.rows, fun other member => ?_⟩
    simp only [State.unwritten, Option.toList_some, List.mem_append, List.mem_singleton] at member
    rcases member with inBatch | same
    · exact rooted.pending other (List.mem_append_left _ inBatch)
    · rw [same, topic.located partition message delivered]
      exact delivered
  | append =>
    obtain ⟨_, message, current, rfl⟩ := step_append.mp stepped
    refine ⟨rooted.rows, fun other member => rooted.pending other ?_⟩
    simpa [State.unwritten, current] using member
  | store succeeds =>
    obtain ⟨_, ⟨_, rows, added, rfl⟩ | ⟨_, rfl⟩⟩ := step_store.mp stepped
    · exact ⟨rooted.add added, rooted.pending⟩
    · exact ⟨rooted.rows, rooted.pending⟩
  | reset =>
    obtain ⟨_, rfl⟩ := step_reset.mp stepped
    refine ⟨rooted.rows, fun other member => rooted.pending other ?_⟩
    simp only [State.unwritten, List.nil_append] at member
    exact List.mem_append_right _ member
  | interrupt =>
    obtain ⟨_, rfl⟩ := step_interrupt.mp stepped
    exact ⟨rooted.rows, rooted.pending⟩
  | flush succeeds =>
    obtain ⟨_, rfl⟩ := step_flush.mp stepped
    refine ⟨?_, rooted.pending⟩
    -- A final batch that is refused adds nothing.
    cases added : addedRows encoding state.batch succeeds with
    | none => simpa using rooted.rows
    | some rows => exact rooted.add added
  | autoCommit =>
    obtain ⟨_, rfl⟩ := step_autoCommit.mp stepped
    exact ⟨rooted.rows, rooted.pending⟩
  | close =>
    obtain ⟨_, rfl⟩ := step_close.mp stepped
    exact rooted.forget rfl (by simp [State.unwritten, State.halt])
  | crash =>
    obtain ⟨_, rfl⟩ := step_crash.mp stepped
    exact rooted.forget rfl (by simp [State.unwritten, State.halt])

/-- In every run the rows of the table stem from the topic. -/
theorem rooted_run {actions : List Action} {state : State}
    (ran : run encoding batchSize topic initial actions = some state) :
    Rooted encoding topic state := by
  -- There is nothing in the table and nothing in memory at the start.
  refine Schedule.invariant (fun _ state => Rooted encoding topic state)
    ⟨by simp [initial], by simp [initial, State.unwritten]⟩ ?_ ran
  intro _ action before next _ rooted stepped
  exact rooted_step rooted stepped

/-! ### Raw data -/

variable {floats : Floats}

/-- The raw data of a prepared record is the text of the value. -/
theorem rawData_of_prepareRecord {message : Message} {row : Row}
    (prepared : prepareRecord encoding message = .ok row) :
    row.rawData = encoding.dumps message.value := by
  obtain ⟨_, _, afterId⟩ := bind_eq_ok.mp prepared
  obtain ⟨_, _, afterTimestamp⟩ := bind_eq_ok.mp afterId
  obtain ⟨_, _, afterText⟩ := bind_eq_ok.mp afterTimestamp
  obtain ⟨_, _, value⟩ := bind_eq_ok.mp afterText
  -- The fields that may raise are read before the record is made.
  cases value
  rfl

/--
In every run the query displays for each row the value of the message that the row was made of.

The consumer may be interrupted and restarted, writes may fail, and messages may be read again.
-/
theorem displayRawData_of_run {actions : List Action} {state : State}
    (portable : ∀ partition, ∀ message ∈ topic.messages partition, Portable message.value)
    (ran : run (withJson floats encoding) batchSize topic initial actions = some state) :
    ∀ row ∈ state.table, ∃ message ∈ topic.messages row.kafkaPartition,
      message.offset = row.kafkaOffset ∧ loads floats row.rawData = some message.value ∧
      displayRawData floats row = "  Raw Data: " ++ dumps ⟨true, some 4⟩ floats message.value := by
  intro row member
  obtain ⟨message, onTopic, prepared⟩ := (rooted_run ran).rows row member
  -- The raw data was written by the same program that reads it now.
  have raw : loads floats row.rawData = some message.value := by
    rw [rawData_of_prepareRecord prepared]
    exact loads_dumps (portable _ message onTopic)
  exact ⟨message, onTopic, (prepareRecord_eq_ok prepared).2.symm, raw, by rw [displayRawData, raw]⟩

/-- The row of the only message of a topic. -/
def greetingStored : Row :=
  { greetingRow with rawData := serialize noFloats greeting.value }

/-- What is displayed for the only message of a topic is laid out from its raw data. -/
theorem displayRawData_greeting : ∃ message ∈ oneMessage.messages 0, message.offset = 0 ∧
    loads noFloats greetingStored.rawData = some message.value ∧
    displayRawData noFloats greetingStored =
      "  Raw Data: " ++ dumps ⟨true, some 4⟩ noFloats message.value := by
  -- The only message has a number and nothing else.
  have portable : ∀ partition, ∀ message ∈ oneMessage.messages partition,
      Portable message.value := by
    intro partition message member
    simp only [oneMessage] at member
    split_ifs at member
    · rw [List.mem_singleton.mp member]
      exact portable_obj.mpr ⟨by simp [Dict.keys], by
        simpa [portable_str] using portable_nat 1⟩
    · cases member
  have ran : run (withJson noFloats plainEncoding) 1 oneMessage initial
      [.start, .deliver 0, .append, .store true, .reset] =
        some { writtenGreeting with table := [greetingStored] } := rfl
  exact displayRawData_of_run portable ran greetingStored List.mem_cons_self

/-! ### The messages of the producer -/

variable {now : Nat → String} {numMessages : Nat}

/-- The row of a message of the producer. -/
def sampleRow (floats : Floats) (encoding : Encoding) (now : Nat → String) (i offset : Nat)
    (partition : Nat) : Row where
  id := .num (i + 1 : Nat)
  vector := (withJson floats encoding).createVectorFromMessage (sampleMessage now i)
  timestamp := .str (now i)
  message := .str ("Sample message " ++ toString (i + 1))
  kafkaOffset := offset
  kafkaPartition := partition
  kafkaKey := some ("key_" ++ toString i)
  rawData := serialize floats (sampleMessage now i)
  category := some (.str ("category_" ++ toString (i % 3)))
  value := some (.num (i * 10 : Nat))

/-- The messages of the producer are portable. -/
theorem portable_sampleMessage (now : Nat → String) (i : Nat) : Portable (sampleMessage now i) := by
  have metadata : Portable (.obj [("source", .str "kafka-producer"), ("version", .str "1.0")]) :=
    portable_obj.mpr ⟨by simp [Dict.keys], by simp [portable_str]⟩
  have data : Portable (.obj [("value", .num (i * 10 : Nat)),
      ("category", .str ("category_" ++ toString (i % 3))),
      ("metadata", .obj [("source", .str "kafka-producer"), ("version", .str "1.0")])]) :=
    portable_obj.mpr ⟨by simp [Dict.keys], by
      simp only [List.forall_mem_cons, metadata, portable_str, portable_nat]
      simp⟩
  -- Texts and whole numbers are portable wherever they stand.
  refine portable_obj.mpr ⟨by simp [Dict.keys], ?_⟩
  simp only [List.forall_mem_cons, data, portable_str, portable_nat]
  simp

/-- The record that is prepared for a message of the producer. -/
theorem prepareRecord_sampleMessage (floats : Floats) (encoding : Encoding) (now : Nat → String)
    (i offset partition : Nat) : prepareRecord (withJson floats encoding)
      ⟨partition, offset, some ("key_" ++ toString i), sampleMessage now i⟩ =
        .ok (sampleRow floats encoding now i offset partition) := by
  simp [prepareRecord, sampleMessage, Json.get, Dict.get?_cons, additionalFields, Json.contains,
    Json.item, sampleRow, withJson, bind, Except.bind, pure, Except.pure]

/-- What is on the topic was sent by the producer. -/
def FromProducer (floats : Floats) (now : Nat → String) (numMessages : Nat) (topic : Topic) :
    Prop :=
  ∀ partition, ∀ message ∈ topic.messages partition,
    ∃ sent, Produced floats now numMessages sent ∧ deserialize floats sent = some message

/-- The consumer gets the messages that the producer has sent. -/
theorem FromProducer.message (produced : FromProducer floats now numMessages topic)
    {partition : Nat} {message : Message} (member : message ∈ topic.messages partition) :
    ∃ i < numMessages, message = ⟨message.partition, message.offset,
      some ("key_" ++ toString i), sampleMessage now i⟩ := by
  obtain ⟨sent, ⟨i, few, key, payload⟩, parsed⟩ := produced partition message member
  -- What was sent reads back as the message that it was made from.
  rw [deserialize, payload, serialize, loads_dumps (portable_sampleMessage now i), key] at parsed
  cases parsed
  exact ⟨i, few, rfl⟩

/-- Messages of the producer are never refused. -/
theorem FromProducer.accepted (produced : FromProducer floats now numMessages topic)
    {batch : List Message}
    (delivered : ∀ message ∈ batch, message ∈ topic.messages message.partition) :
    addedRows (withJson floats encoding) batch true ≠ none := by
  -- Every message of the batch has a record.
  have prepared : ∃ rows, prepareLancedbData (withJson floats encoding) batch = .ok rows := by
    refine mapM_succeeds_iff.mpr fun message member => ?_
    obtain ⟨i, _, same⟩ := produced.message (delivered message member)
    rw [same]
    exact ⟨_, prepareRecord_sampleMessage floats encoding now i _ _⟩
  obtain ⟨rows, made⟩ := prepared
  simp [addedRows, made]

/--
What the producer sends arrives in the table, field by field and with its text as raw data.

That holds in every run, and no batch of its messages is ever refused for what is in it.
-/
theorem samples_of_run {actions : List Action} {state : State}
    (produced : FromProducer floats now numMessages topic)
    (ran : run (withJson floats encoding) batchSize topic initial actions = some state) :
    (∀ row ∈ state.table, ∃ i < numMessages,
        row = sampleRow floats encoding now i row.kafkaOffset row.kafkaPartition) ∧
      addedRows (withJson floats encoding) state.batch true ≠ none := by
  have rooted := rooted_run ran
  constructor
  · intro row member
    obtain ⟨message, onTopic, prepared⟩ := rooted.rows row member
    obtain ⟨i, few, same⟩ := produced.message onTopic
    have place := prepareRecord_eq_ok prepared
    rw [same, prepareRecord_sampleMessage] at prepared
    -- Partition and offset are those of the message.
    refine ⟨i, few, ?_⟩
    rw [place.1, place.2]
    exact (Except.ok.inj prepared).symm
  · exact produced.accepted fun message member => rooted.pending message
      (List.mem_append_left _ member)

/-- A topic with the first message of the producer. -/
def sampleTopic : Topic where
  messages := fun partition =>
    if partition = 0 then [⟨0, 0, some "key_0", sampleMessage (fun _ => "") 0⟩] else []
  ordered := by
    intro partition
    split <;> simp
  located := by
    intro partition message member
    split at member
    · next first => rw [List.mem_singleton.mp member, first]
    · cases member

/-- The consumer after the first message of the producer has been written. -/
def storedSample : State :=
  { begun with
    position := Function.update begun.position 0 1
    table := [sampleRow noFloats plainEncoding (fun _ => "") 0 0 0] }

/-- The first message of the producer arrives in the table. -/
theorem samples_of_run_first :
    (∀ row ∈ storedSample.table, ∃ i < 1,
        row = sampleRow noFloats plainEncoding (fun _ => "") i row.kafkaOffset row.kafkaPartition) ∧
      addedRows (withJson noFloats plainEncoding) storedSample.batch true ≠ none := by
  -- The topic has what the producer sends first.
  have produced : FromProducer noFloats (fun _ => "") 1 sampleTopic := by
    intro partition message member
    simp only [sampleTopic] at member
    split_ifs at member
    · refine ⟨⟨0, 0, "key_0", serialize noFloats (sampleMessage (fun _ => "") 0)⟩,
        ⟨0, Nat.zero_lt_one, by decide, rfl⟩, ?_⟩
      rw [List.mem_singleton.mp member, deserialize, serialize,
        loads_dumps (portable_sampleMessage _ 0)]
      rfl
    · cases member
  have ran : run (withJson noFloats plainEncoding) 1 sampleTopic initial
      [.start, .deliver 0, .append, .store true, .reset] = some storedSample := rfl
  exact samples_of_run produced ran

end AivenExamples.DisklessLancedb
