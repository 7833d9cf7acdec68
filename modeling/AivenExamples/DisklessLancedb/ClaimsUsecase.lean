import AivenExamples.Data.Schedule
import Mathlib.Data.List.Infix

/-! The consumer that stores insurance claims in small batches, and what is left when it stops. -/

namespace AivenExamples.DisklessLancedb.ClaimsUsecase

/-! ### Program -/

/-- How a call of `ingest_to_lancedb` ends; an error or a signal may come when all is stored. -/
inductive Ingested where
  | stored
  | refused
  | storedAndRaised
  deriving DecidableEq

/-- What `consumer.poll` returns. -/
inductive Polled (Value : Type) where
  | nothing
  | partitionEof
  | kafkaError
  | message (value : Value)
  deriving DecidableEq

/-- What happens next. -/
inductive Event (Value : Type) where
  | poll (polled : Polled Value)
  /-- The claim is parsed and put into the batch. -/
  | append
  /-- A full batch is given to `ingest_to_lancedb`. -/
  | ingest (ingested : Ingested)
  /-- `batch = []` -/
  | reset
  /-- A `KeyboardInterrupt` in the loop, outside of `ingest_to_lancedb`. -/
  | interrupt
  /-- The `finally` block. -/
  | close (ingested : Ingested)
  deriving DecidableEq

/-- Where the program is. -/
inductive Stage (Value : Type) where
  | polling
  /-- A message has been polled that is not in the batch yet. -/
  | received (value : Value)
  /-- The batch is full. -/
  | full
  /-- The batch has been ingested, and is not emptied yet. -/
  | added
  /-- The loop has been left, by a `break` or by an exception. -/
  | leaving
  | closed
  deriving DecidableEq

/-- The table of LanceDB and the batch of the program. -/
structure Consumer (Value Claim : Type) where
  table : List Claim
  batch : List Claim
  stage : Stage Value
  deriving DecidableEq

variable {Value Claim : Type}

/-- `ingest_to_lancedb`: the records of the table, and whether it raises. -/
def ingestToLancedb (table data : List Claim) (ingested : Ingested) : List Claim × Bool :=
  if data.isEmpty then (table, false)
  else match ingested with
    | .stored => (table ++ data, false)
    | .refused => (table, true)
    | .storedAndRaised => (table ++ data, true)

section Program

-- The claim that `json.loads(msg.value().decode('utf-8'))` gives, unless it raises.
variable (loads : Value → Option Claim) (batchSize : Nat)

/-- One step of the loop, or the end of the program. -/
def step (consumer : Consumer Value Claim) : Event Value → Option (Consumer Value Claim)
  | .poll polled =>
    match consumer.stage with
    | .polling =>
      match polled with
      | .nothing | .partitionEof => some consumer
      | .kafkaError => some { consumer with stage := .leaving }
      | .message value => some { consumer with stage := .received value }
    | _ => none
  | .append =>
    match consumer.stage with
    | .received value =>
      match loads value with
      | none => some { consumer with stage := .leaving }
      | some claim =>
        let batch := consumer.batch ++ [claim]
        some { consumer with
          batch := batch
          stage := if batchSize ≤ batch.length then .full else .polling }
    | _ => none
  | .ingest ingested =>
    match consumer.stage with
    | .full =>
      match ingestToLancedb consumer.table consumer.batch ingested with
      | (table, false) => some { consumer with table := table, stage := .added }
      -- The batch is not emptied, and `finally` ingests it again.
      | (table, true) => some { consumer with table := table, stage := .leaving }
    | _ => none
  | .reset =>
    match consumer.stage with
    | .added => some { consumer with batch := [], stage := .polling }
    | _ => none
  | .interrupt =>
    match consumer.stage with
    | .leaving | .closed => none
    | _ => some { consumer with stage := .leaving }
  | .close ingested =>
    match consumer.stage with
    | .leaving =>
      some { consumer with
        table := (ingestToLancedb consumer.table consumer.batch ingested).1
        stage := .closed }
    | _ => none

/-- The program at its start, with what is in the table already. -/
def start (table : List Claim) : Consumer Value Claim := ⟨table, [], .polling⟩

/-- The claims of the messages that have been polled, in their order. -/
def claims (schedule : List (Event Value)) : List Claim := schedule.filterMap fun event =>
  match event with
  | .poll (.message value) => loads value
  | _ => none

end Program

/-- The program was interrupted between receiving a message and putting it into the batch. -/
def Dropped (schedule : List (Event Value)) : Prop :=
  ∃ value, [.poll (.message value), .interrupt] <:+: schedule

/-- A batch was stored, but not emptied: the call raised, or the program was interrupted then. -/
def Repeated (schedule : List (Event Value)) : Prop :=
  .ingest .storedAndRaised ∈ schedule ∨ [.ingest .stored, .interrupt] <:+: schedule

/-! ### Steps -/

section Run

variable {loads : Value → Option Claim} {batchSize : Nat} {table : List Claim}
  {schedule : List (Event Value)} {consumer next : Consumer Value Claim} {event : Event Value}

/-- Everything that a step can do. -/
inductive Happens (loads : Value → Option Claim) (batchSize : Nat) :
    Consumer Value Claim → Event Value → Consumer Value Claim → Prop where
  | waits (found batch : List Claim) (polled : Polled Value)
      (idle : polled = .nothing ∨ polled = .partitionEof) :
      Happens loads batchSize ⟨found, batch, .polling⟩ (.poll polled) ⟨found, batch, .polling⟩
  | fails (found batch : List Claim) :
      Happens loads batchSize ⟨found, batch, .polling⟩ (.poll .kafkaError) ⟨found, batch, .leaving⟩
  | receives (found batch : List Claim) (value : Value) :
      Happens loads batchSize ⟨found, batch, .polling⟩ (.poll (.message value))
        ⟨found, batch, .received value⟩
  | refusesValue (found batch : List Claim) (value : Value) (odd : loads value = none) :
      Happens loads batchSize ⟨found, batch, .received value⟩ .append ⟨found, batch, .leaving⟩
  | batches (found batch : List Claim) (value : Value) (claim : Claim)
      (read : loads value = some claim) (short : (batch ++ [claim]).length < batchSize) :
      Happens loads batchSize ⟨found, batch, .received value⟩ .append
        ⟨found, batch ++ [claim], .polling⟩
  | fills (found batch : List Claim) (value : Value) (claim : Claim)
      (read : loads value = some claim) :
      Happens loads batchSize ⟨found, batch, .received value⟩ .append
        ⟨found, batch ++ [claim], .full⟩
  | stores (found batch : List Claim) :
      Happens loads batchSize ⟨found, batch, .full⟩ (.ingest .stored)
        ⟨found ++ batch, batch, .added⟩
  | refuses (found batch : List Claim) :
      Happens loads batchSize ⟨found, batch, .full⟩ (.ingest .refused) ⟨found, batch, .leaving⟩
  | raises (found batch : List Claim) :
      Happens loads batchSize ⟨found, batch, .full⟩ (.ingest .storedAndRaised)
        ⟨found ++ batch, batch, .leaving⟩
  | resets (found batch : List Claim) :
      Happens loads batchSize ⟨found, batch, .added⟩ .reset ⟨found, [], .polling⟩
  | interrupted (found batch : List Claim) (stage : Stage Value)
      (inside : stage ≠ .leaving ∧ stage ≠ .closed) :
      Happens loads batchSize ⟨found, batch, stage⟩ .interrupt ⟨found, batch, .leaving⟩
  | closes (found batch : List Claim) (ingested : Ingested) :
      Happens loads batchSize ⟨found, batch, .leaving⟩ (.close ingested)
        ⟨(ingestToLancedb found batch ingested).1, batch, .closed⟩

/-- A step does one of these, when a full batch is not empty. -/
theorem step_happens (filled : consumer.stage = .full → consumer.batch ≠ [])
    (taken : step loads batchSize consumer event = some next) :
    Happens loads batchSize consumer event next := by
  -- Each kind of event is for certain stages only.
  obtain ⟨found, batch, stage⟩ := consumer
  cases event with
  | poll polled =>
    cases stage <;> simp only [step, reduceCtorEq] at taken
    cases polled with
    | nothing =>
      cases taken
      exact .waits found batch _ (.inl rfl)
    | partitionEof =>
      cases taken
      exact .waits found batch _ (.inr rfl)
    | kafkaError =>
      cases taken
      exact .fails found batch
    | message value =>
      cases taken
      exact .receives found batch value
  | append =>
    cases stage <;> simp only [step, reduceCtorEq] at taken
    case received value =>
    cases read : loads value with
    | none =>
      rw [read] at taken
      cases taken
      exact .refusesValue found batch value read
    | some claim =>
      rw [read] at taken
      cases taken
      split
      · exact .fills found batch value claim read
      · rename_i short
        exact .batches found batch value claim read (Nat.lt_of_not_le short)
  | ingest ingested =>
    cases stage <;> simp only [step, reduceCtorEq] at taken
    have some : batch.isEmpty = false := by simpa using filled rfl
    simp only [ingestToLancedb, some, Bool.false_eq_true, if_false] at taken
    cases ingested with
    | stored =>
      cases taken
      exact .stores found batch
    | refused =>
      cases taken
      exact .refuses found batch
    | storedAndRaised =>
      cases taken
      exact .raises found batch
  | reset =>
    cases stage <;> simp only [step, reduceCtorEq] at taken
    cases taken
    exact .resets found batch
  | interrupt =>
    cases stage <;> simp only [step, reduceCtorEq] at taken <;> cases taken <;>
      exact .interrupted found batch _ (by simp)
  | close ingested =>
    cases stage <;> simp only [step, reduceCtorEq] at taken
    cases taken
    exact .closes found batch ingested

/-! ### Batches -/

/-- The table and the batch are what has been polled, but for some last claims. -/
def Pending (loads : Value → Option Claim) (table : List Claim) (schedule : List (Event Value))
    (found batch dropped : List Claim) : Prop :=
  ∃ stored, found = table ++ stored ∧ claims loads schedule = stored ++ batch ++ dropped

/-- A batch that has not been found to be full. -/
def Short (batchSize : Nat) (batch : List Claim) : Prop := batch = [] ∨ batch.length < batchSize

/-- What may be left when the loop has ended, before the last batch is ingested. -/
inductive Left (loads : Value → Option Claim) (table : List Claim) (schedule : List (Event Value))
    (found batch : List Claim) : Prop where
  | pending (dropped : List Claim) (held : Pending loads table schedule found batch dropped)
      (one : dropped.length ≤ 1) (signal : dropped ≠ [] → Dropped schedule) :
      Left loads table schedule found batch
  | again (repeated : Repeated schedule) (same : found = table ++ claims loads schedule)
      (last : batch <:+ claims loads schedule) : Left loads table schedule found batch

/-- What the table has at the end: all claims, but for one batch and one claim, or a batch more. -/
inductive Stored (loads : Value → Option Claim) (batchSize : Nat) (table : List Claim)
    (schedule : List (Event Value)) (found : List Claim) : Prop where
  | apart (missing dropped : List Claim)
      (held : Pending loads table schedule found missing dropped)
      (small : missing.length ≤ max batchSize 1) (one : dropped.length ≤ 1)
      (refused : missing ≠ [] → .close .refused ∈ schedule)
      (signal : dropped ≠ [] → Dropped schedule) : Stored loads batchSize table schedule found
  | again (again : List Claim) (same : found = table ++ claims loads schedule ++ again)
      (last : again <:+ claims loads schedule) (small : again.length ≤ max batchSize 1)
      (repeated : Repeated schedule) : Stored loads batchSize table schedule found

/-- What holds at each stage of the program. -/
def Sound (loads : Value → Option Claim) (batchSize : Nat) (table : List Claim)
    (schedule : List (Event Value)) (consumer : Consumer Value Claim) : Prop :=
  match consumer.stage with
  | .polling => Short batchSize consumer.batch ∧
      Pending loads table schedule consumer.table consumer.batch []
  | .received value => Short batchSize consumer.batch ∧
      Pending loads table schedule consumer.table consumer.batch (loads value).toList ∧
      [.poll (.message value)] <:+ schedule
  | .full => consumer.batch ≠ [] ∧ consumer.batch.length ≤ max batchSize 1 ∧
      Pending loads table schedule consumer.table consumer.batch []
  | .added => consumer.batch.length ≤ max batchSize 1 ∧
      consumer.table = table ++ claims loads schedule ∧
      consumer.batch <:+ claims loads schedule ∧ [.ingest .stored] <:+ schedule
  | .leaving => consumer.batch.length ≤ max batchSize 1 ∧
      Left loads table schedule consumer.table consumer.batch
  | .closed => Stored loads batchSize table schedule consumer.table

/-- The claims of a longer schedule. -/
theorem claims_concat (schedule : List (Event Value)) (event : Event Value) :
    claims loads (schedule ++ [event]) = claims loads schedule ++ claims loads [event] :=
  List.filterMap_append

/-- An event without a claim adds none. -/
theorem claims_quiet (schedule : List (Event Value)) (none : claims loads [event] = []) :
    claims loads (schedule ++ [event]) = claims loads schedule := by
  rw [claims_concat, none, List.append_nil]

section Pending

variable {found batch dropped : List Claim}

/-- An event without a claim leaves pending what was. -/
theorem Pending.quiet (pending : Pending loads table schedule found batch dropped)
    (none : claims loads [event] = []) :
    Pending loads table (schedule ++ [event]) found batch dropped := by
  obtain ⟨stored, same, split⟩ := pending
  exact ⟨stored, same, by rw [claims_quiet schedule none, split]⟩

/-- When the loop ends with such an event, no claim has been dropped. -/
theorem Pending.left (pending : Pending loads table schedule found batch [])
    (none : claims loads [event] = []) : Left loads table (schedule ++ [event]) found batch :=
  .pending [] (pending.quiet none) (Nat.zero_le _) (absurd rfl)

/-- A claim that was received comes to the batch. -/
theorem Pending.batches {claim : Claim}
    (pending : Pending loads table schedule found batch [claim]) :
    Pending loads table schedule found (batch ++ [claim]) [] := by
  obtain ⟨stored, same, split⟩ := pending
  exact ⟨stored, same, by rw [split]; simp⟩

/-- A batch that is stored makes the table complete, and was the end of it. -/
theorem Pending.stores (pending : Pending loads table schedule found batch []) :
    found ++ batch = table ++ claims loads schedule ∧ batch <:+ claims loads schedule := by
  obtain ⟨stored, same, split⟩ := pending
  rw [List.append_nil] at split
  exact ⟨by rw [same, split, List.append_assoc], stored, split.symm⟩

/-- A short batch is not too long with one more claim. -/
theorem Short.length_concat (short : Short batchSize batch) (claim : Claim) :
    (batch ++ [claim]).length ≤ max batchSize 1 := by
  -- An empty batch has one claim then, whatever the batch size is.
  rw [List.length_append, List.length_singleton]
  rcases short with empty | less
  · rw [empty]
    exact Nat.le_max_right batchSize 1
  · exact Nat.le_trans less (Nat.le_max_left batchSize 1)

/-- A short batch is not too long. -/
theorem Short.length_le (short : Short batchSize batch) : batch.length ≤ max batchSize 1 := by
  -- A batch that is not empty has fewer claims than it is to have.
  rcases short with empty | less
  · rw [empty]
    exact Nat.zero_le _
  · exact Nat.le_trans (Nat.le_of_lt less) (Nat.le_max_left batchSize 1)

/-- The last two events of a schedule follow each other in it. -/
theorem infix_concat {first second : Event Value} (last : [first] <:+ schedule) :
    [first, second] <:+: schedule ++ [second] := by
  obtain ⟨earlier, rfl⟩ := last
  exact ⟨earlier, [], by simp⟩

/-- What was repeated, or dropped, stays so in a longer schedule. -/
theorem Repeated.concat (repeated : Repeated schedule) : Repeated (schedule ++ [event]) := by
  rcases repeated with raised | interrupted
  · exact .inl (List.mem_append_left _ raised)
  · exact .inr (interrupted.trans (List.prefix_append _ _).isInfix)

theorem Dropped.concat (dropped : Dropped schedule) : Dropped (schedule ++ [event]) := by
  obtain ⟨value, interrupted⟩ := dropped
  exact ⟨value, interrupted.trans (List.prefix_append _ _).isInfix⟩

/-- What is stored is right once the last batch has been ingested, or could not be. -/
theorem Left.close (left : Left loads table schedule found batch)
    (small : batch.length ≤ max batchSize 1) (ingested : Ingested) :
    Stored loads batchSize table (schedule ++ [.close ingested])
      (ingestToLancedb found batch ingested).1 := by
  have quiet : claims loads [.close ingested] = ([] : List Claim) := rfl
  cases left with
  | pending dropped held one signal =>
    have heldOn := held.quiet quiet
    have signalOn : dropped ≠ [] → Dropped (schedule ++ [.close ingested]) :=
      fun some => (signal some).concat
    -- Nothing is missing when the batch is empty, or has been stored after all.
    have complete (stored : found ++ batch = (ingestToLancedb found batch ingested).1) :
        Stored loads batchSize table (schedule ++ [.close ingested])
          (ingestToLancedb found batch ingested).1 := by
      obtain ⟨before, same, split⟩ := heldOn
      refine .apart [] dropped ⟨before ++ batch, ?_, ?_⟩ (Nat.zero_le _) one (absurd rfl) signalOn
      · rw [← stored, same, List.append_assoc]
      · rw [split, List.append_nil]
    cases batch with
    | nil => exact complete (List.append_nil found)
    | cons claim batch =>
      cases ingested with
      | refused =>
        exact .apart (claim :: batch) dropped heldOn small one (fun _ => by simp) signalOn
      | stored => exact complete rfl
      | storedAndRaised => exact complete rfl
  | again repeated same last =>
    have repeatedOn : Repeated (schedule ++ [.close ingested]) := repeated.concat
    rw [← claims_quiet schedule quiet] at same last
    cases batch with
    | nil => exact .again [] (by rw [List.append_nil]; exact same) last small repeatedOn
    | cons claim batch =>
      cases ingested with
      | refused =>
        -- The batch is there once already.
        exact .again [] (by rw [List.append_nil]; exact same) List.nil_suffix (Nat.zero_le _)
          repeatedOn
      | stored => exact .again (claim :: batch) (by rw [← same]; rfl) last small repeatedOn
      | storedAndRaised => exact .again (claim :: batch) (by rw [← same]; rfl) last small repeatedOn

end Pending

/-- Every step keeps what holds. -/
theorem Sound.step (sound : Sound loads batchSize table schedule consumer)
    (happens : Happens loads batchSize consumer event next) :
    Sound loads batchSize table (schedule ++ [event]) next := by
  -- Each case says where the last claim is: at hand, in the batch, in the table, or nowhere.
  cases happens with
  | waits found batch polled idle =>
    obtain ⟨short, pending⟩ := sound
    refine ⟨short, pending.quiet ?_⟩
    rcases idle with same | same <;> rw [same] <;> rfl
  | fails found batch =>
    obtain ⟨short, pending⟩ := sound
    exact ⟨short.length_le, pending.left rfl⟩
  | receives found batch value =>
    obtain ⟨short, stored, same, split⟩ := sound
    refine ⟨short, ⟨stored, same, ?_⟩, schedule, rfl⟩
    have one : claims loads [.poll (.message value)] = (loads value).toList := by
      cases read : loads value <;> simp [claims, read]
    rw [claims_concat, one, split, List.append_nil]
  | refusesValue found batch value odd =>
    obtain ⟨short, pending, -⟩ := sound
    rw [odd] at pending
    exact ⟨short.length_le, pending.left rfl⟩
  | batches found batch value claim read fewer =>
    obtain ⟨-, pending, -⟩ := sound
    rw [read] at pending
    exact ⟨.inr fewer, pending.batches.quiet rfl⟩
  | fills found batch value claim read =>
    obtain ⟨short, pending, -⟩ := sound
    rw [read] at pending
    exact ⟨by simp, short.length_concat claim, pending.batches.quiet rfl⟩
  | stores found batch =>
    obtain ⟨-, small, pending⟩ := sound
    have quiet : claims loads [.ingest .stored] = ([] : List Claim) := rfl
    obtain ⟨complete, last⟩ := (pending.quiet quiet).stores
    exact ⟨small, complete, last, schedule, rfl⟩
  | refuses found batch =>
    obtain ⟨-, small, pending⟩ := sound
    exact ⟨small, pending.left rfl⟩
  | raises found batch =>
    obtain ⟨-, small, pending⟩ := sound
    have quiet : claims loads [.ingest .storedAndRaised] = ([] : List Claim) := rfl
    obtain ⟨complete, last⟩ := (pending.quiet quiet).stores
    exact ⟨small, .again (.inl (by simp)) complete last⟩
  | resets found batch =>
    obtain ⟨-, complete, -, -⟩ := sound
    refine ⟨.inl rfl, claims loads schedule, complete, ?_⟩
    rw [claims_quiet schedule rfl, List.append_nil, List.append_nil]
  | interrupted found batch stage inside =>
    cases stage with
    | polling =>
      obtain ⟨short, pending⟩ := sound
      exact ⟨short.length_le, pending.left rfl⟩
    | received value =>
      obtain ⟨short, pending, last⟩ := sound
      refine ⟨short.length_le, .pending _ (pending.quiet rfl) ?_ fun _ =>
        ⟨value, infix_concat last⟩⟩
      cases loads value <;> simp
    | full =>
      obtain ⟨-, small, pending⟩ := sound
      exact ⟨small, pending.left rfl⟩
    | added =>
      obtain ⟨small, complete, last, stored⟩ := sound
      have quiet : claims loads (schedule ++ [.interrupt]) = claims loads schedule :=
        claims_quiet schedule rfl
      exact ⟨small, .again (.inr (infix_concat stored)) (by rw [quiet]; exact complete)
        (by rw [quiet]; exact last)⟩
    | leaving => exact absurd rfl inside.1
    | closed => exact absurd rfl inside.2
  | closes found batch ingested =>
    obtain ⟨small, left⟩ := sound
    exact left.close small ingested

/-- Along every schedule each stage has what holds of it. -/
theorem sound_of_run
    (ran : schedule.foldlM (ClaimsUsecase.step loads batchSize) (start table) = some consumer) :
    Sound loads batchSize table schedule consumer := by
  have initially : Sound loads batchSize table [] (start table) :=
    ⟨.inl rfl, [], (List.append_nil table).symm, rfl⟩
  refine Schedule.invariant (Sound loads batchSize table) initially ?_ ran
  intro schedule event state next _ sound taken
  refine sound.step (step_happens (fun full => ?_) taken)
  -- A batch that is full has just come to its size.
  rw [Sound, full] at sound
  exact sound.1

/-- The second of two batches is stored by a call that raises, and once more at the end. -/
def twice : List (Event Nat) :=
  [.poll (.message 1), .append, .poll .nothing, .poll (.message 2), .append, .ingest .stored,
    .reset, .poll (.message 3), .append, .poll (.message 4), .append, .ingest .storedAndRaised,
    .close .stored]

/-- A signal right behind the receipt of the third message keeps its claim out of the table. -/
example : ([.poll (.message 1), .append, .poll (.message 2), .append, .ingest .stored, .reset,
    .poll (.message 3), .interrupt, .close .stored].foldlM (ClaimsUsecase.step some 2)
      (start [])).map Consumer.table = some [1, 2] := by decide

end Run

end AivenExamples.DisklessLancedb.ClaimsUsecase
