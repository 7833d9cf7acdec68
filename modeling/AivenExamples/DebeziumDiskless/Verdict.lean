import AivenExamples.Data.Run
import AivenExamples.Data.Schedule
import AivenExamples.DebeziumDiskless.Verification

/-! The final verdict of the replication test, with the threads of its producer and its consumer. -/

namespace AivenExamples.DebeziumDiskless

/-! ### Sorting ids -/

/-- The number by which Python orders a value. -/
def number? : Json → Option Rat
  | .bool value => some (if value then 1 else 0)
  | .num value => some value
  | _ => none

/-- The text by which Python orders a value. -/
def text? : Json → Option String
  | .str text => some text
  | _ => none

/--
`sorted(ids)`, which raises when values of different kinds have to be compared.

Values with parts are left out, since `received_ids` takes none of them.
-/
def sorted (ids : List Json) : Except PyError (List Json) :=
  if ids.length ≤ 1 then .ok ids
  else if ids.all fun msgId => (number? msgId).isSome then
    .ok (ids.mergeSort fun first second =>
      decide ((number? first).getD 0 ≤ (number? second).getD 0))
  else if ids.all fun msgId => (text? msgId).isSome then
    .ok (ids.mergeSort fun first second =>
      decide ((text? first).getD "" ≤ (text? second).getD ""))
  else .error .typeError

/-- Whether ids can be sorted: at most one of them, only numbers or only text. -/
def Sortable (ids : List Json) : Prop :=
  ids.length ≤ 1 ∨ (∀ msgId ∈ ids, (number? msgId).isSome) ∨ ∀ msgId ∈ ids, (text? msgId).isSome

/-- Sorting raises unless the ids can be sorted. -/
theorem sorted_succeeds_iff {ids : List Json} :
    (∃ sortedIds, sorted ids = .ok sortedIds) ↔ Sortable ids := by
  -- The cases of the condition are those of the sort.
  by_cases short : ids.length ≤ 1
  · refine iff_of_true ⟨ids, ?_⟩ (.inl short)
    rw [sorted, if_pos short]
  · by_cases numbers : ids.all fun msgId => (number? msgId).isSome
    · refine iff_of_true ?_ (.inr (.inl (List.all_eq_true.mp numbers)))
      rw [sorted, if_neg short, if_pos numbers]
      exact ⟨_, rfl⟩
    · by_cases texts : ids.all fun msgId => (text? msgId).isSome
      · refine iff_of_true ?_ (.inr (.inr (List.all_eq_true.mp texts)))
        rw [sorted, if_neg short, if_neg numbers, if_pos texts]
        exact ⟨_, rfl⟩
      · -- Neither kind holds for all of them, and sorting raises.
        have raises : sorted ids = .error .typeError := by
          rw [sorted, if_neg short, if_neg numbers, if_neg texts]
        rw [List.all_eq_true] at numbers texts
        simp [raises, Sortable, short, numbers, texts]

/-! ### The report -/

/-- What `main` prints once the threads have been joined. -/
inductive Report where
  | stillRunning
  | missing (ids : List Json)
  | extra (ids : List Json)
  | allReceived
  | incomplete (count : Nat)
  | completed
  /-- `Test failed`, printed for an exception. -/
  | failed

/-- The verdict on the missing and the extra ids, and the end of the test. -/
def verdict (missing extra : List Json) : Run Report Unit := do
  if missing ≠ [] then
    Run.emit (.missing (← Run.attempt (sorted missing) .failed))
  if extra ≠ [] then
    Run.emit (.extra (← Run.attempt (sorted extra) .failed))
  if missing = [] ∧ extra = [] then
    Run.emit .allReceived
  else if missing ≠ [] then
    Run.emit (.incomplete missing.length)
  Run.emit .completed

/-- What is printed when nothing is missing. -/
theorem events_verdict_nil (extra : List Json) :
    (verdict [] extra).events =
      if extra = [] then [.allReceived, .completed]
      else match sorted extra with
        | .ok ids => [.extra ids, .completed]
        | .error _ => [.failed] := by
  -- With nothing missing the first report is skipped.
  by_cases none : extra = []
  · simp [verdict, none]
  · cases order : sorted extra <;> simp [verdict, none, order]

/-- What is printed when something is missing. -/
theorem events_verdict_missing {missing ids : List Json} (extra : List Json) (some : missing ≠ [])
    (ordered : sorted missing = .ok ids) :
    (verdict missing extra).events =
      .missing ids ::
        if extra = [] then [.incomplete missing.length, .completed]
        else match sorted extra with
          | .ok ids => [.extra ids, .incomplete missing.length, .completed]
          | .error _ => [.failed] := by
  -- The report on the missing ids comes first, and the one on the extra ids may fail.
  by_cases none : extra = []
  · simp [verdict, some, none, ordered]
  · cases order : sorted extra <;> simp [verdict, some, none, ordered, order]

/-- Missing or extra messages have been reported. -/
def Reported (output : List Report) : Prop :=
  (∃ ids, .missing ids ∈ output) ∨ ∃ ids, .extra ids ∈ output

/-- The verdict that all messages were received is for nothing missing and nothing extra. -/
theorem allReceived_mem_verdict {missing extra : List Json} (sortable : Sortable missing) :
    .allReceived ∈ (verdict missing extra).events ↔ missing = [] ∧ extra = [] := by
  -- The missing ids can be sorted, so that the report on them never fails.
  by_cases none : missing = []
  · subst none
    rw [events_verdict_nil]
    by_cases nothing : extra = []
    · simp [nothing]
    · cases order : sorted extra <;> simp [nothing]
  · obtain ⟨ids, ordered⟩ := sorted_succeeds_iff.mpr sortable
    rw [events_verdict_missing extra none ordered]
    by_cases nothing : extra = []
    · simp [none, nothing]
    · cases order : sorted extra <;> simp [none, nothing]

/-- Missing or extra messages are reported when there are some that can be sorted. -/
theorem reported_verdict {missing extra : List Json} (sortable : Sortable missing) :
    Reported (verdict missing extra).events ↔ missing ≠ [] ∨ extra ≠ [] ∧ Sortable extra := by
  -- Of the two reports only the one on the extra ids can fail.
  by_cases none : missing = []
  · subst none
    rw [events_verdict_nil, ← sorted_succeeds_iff]
    by_cases nothing : extra = []
    · simp [Reported, nothing]
    · cases order : sorted extra <;> simp [Reported, nothing]
  · obtain ⟨ids, ordered⟩ := sorted_succeeds_iff.mpr sortable
    rw [events_verdict_missing extra none ordered]
    exact iff_of_true (.inl ⟨ids, List.mem_cons_self⟩) (.inl none)

/-! ### The threads -/

/-- How far the producer thread has come. -/
inductive Producer where
  | inserting (rows : List Int)
  | recorded
  | ended

/-- How far the consumer thread has come, with the ids it has received. -/
inductive Consumer where
  | connecting
  | polling (state : State)
  | ended (receivedIds : List Json)

/-- How far the main thread has come in the part that follows the start of the two others. -/
inductive Main where
  | joiningProducer
  | joiningConsumer
  | verifying
  | comparing
  | comparingExtra (missing : List Json)
  | ended

/-- The threads of the test and what they share. -/
structure Threads where
  insertedIds : List Json
  producer : Producer
  consumer : Consumer
  main : Main
  output : List Report

/-- `received_ids` as it is at the moment. -/
def Threads.receivedIds (threads : Threads) : List Json :=
  match threads.consumer with
  | .connecting => []
  | .polling state => state.receivedIds
  | .ended receivedIds => receivedIds

/-- The threads have been started. -/
def started : Threads :=
  { insertedIds := [], producer := .inserting [], consumer := .connecting
    main := .joiningProducer, output := [] }

/-- What happens next, in any order that the threads allow. -/
inductive Action where
  | insert (row : Int)
  /-- `inserted_ids.update(inserted_ids_list)`, behind the last row. -/
  | record
  /-- The producer returns or raises. -/
  | endProducer
  | subscribe (now : Rat)
  | poll (poll : Poll)
  /-- The consumer returns or raises. -/
  | endConsumer
  | main

/-- `ids.update(rows)` for the ids of rows. -/
def updateIds (ids : List Json) (rows : List Int) : List Json :=
  rows.foldl (fun ids row =>
    if ids.any (Json.num row).pyEq then ids else ids ++ [.num row]) ids

/-- The next step of the main thread. -/
def mainStep (threads : Threads) : Option Threads :=
  match threads.main with
  | .joiningProducer =>
    match threads.producer with
    | .ended => some { threads with main := .joiningConsumer }
    | _ => none
  -- `consumer.join(timeout=120)` returns whether the consumer has ended or not.
  | .joiningConsumer =>
    match threads.consumer with
    | .ended _ => some { threads with main := .verifying }
    | _ => some { threads with main := .verifying, output := threads.output ++ [.stillRunning] }
  -- `if inserted_ids and received_ids`.
  | .verifying =>
    if threads.insertedIds ≠ [] ∧ threads.receivedIds ≠ [] then
      some { threads with main := .comparing }
    else some { threads with main := .ended, output := threads.output ++ [.completed] }
  | .comparing =>
    some { threads with main := .comparingExtra (missing threads.insertedIds threads.receivedIds) }
  | .comparingExtra missing =>
    let extra := extra threads.insertedIds threads.receivedIds
    some { threads with
      main := .ended, output := threads.output ++ (verdict missing extra).events }
  | .ended => none

/-- One step of the test. -/
def step (settings : Settings) (threads : Threads) : Action → Option Threads
  | .insert row =>
    match threads.producer with
    | .inserting rows =>
      if rows.length < settings.numMessages then
        some { threads with producer := .inserting (rows ++ [row]) }
      else none
    | _ => none
  | .record =>
    match threads.producer with
    | .inserting rows =>
      -- The ids are recorded together, when all rows have been inserted.
      if rows.length < settings.numMessages then none
      else some { threads with
        producer := .recorded, insertedIds := updateIds threads.insertedIds rows }
    | _ => none
  -- An exception may end the producer at any point.
  | .endProducer => some { threads with producer := .ended }
  | .subscribe now =>
    match threads.consumer with
    | .connecting => some { threads with consumer := .polling (start now) }
    | _ => none
  | .poll poll =>
    match threads.consumer with
    | .polling state =>
      -- `while message_count < num_messages`.
      if settings.numMessages ≤ state.messageCount then none
      else
        match handle settings state poll with
        | .proceed state => some { threads with consumer := .polling state }
        | .leave state => some { threads with consumer := .ended state.receivedIds }
    | _ => none
  -- What was received stays in `received_ids`.
  | .endConsumer => some { threads with consumer := .ended threads.receivedIds }
  | .main => mainStep threads

/-- The test along a schedule, unless a step of it is not possible. -/
def run (settings : Settings) (schedule : List Action) : Option Threads :=
  schedule.foldlM (step settings) started

/-! ### Truthfulness -/

/-- Every inserted id has been received, and no other one. -/
def Threads.Accounted (threads : Threads) : Prop :=
  (∀ id ∈ threads.insertedIds, ∃ received ∈ threads.receivedIds, id.pyEq received) ∧
    ∀ id ∈ threads.receivedIds, ∃ inserted ∈ threads.insertedIds, id.pyEq inserted

/-- The main thread is between the joins and the end of the verification. -/
def Main.Verifying : Main → Prop
  | .verifying => True
  | .comparing => True
  | .comparingExtra _ => True
  | _ => False

/-- A moment of the final verification along a schedule. -/
def Moment (settings : Settings) (schedule : List Action) (threads : Threads) : Prop :=
  ∃ earlier later, schedule = earlier ++ later ∧ run settings earlier = some threads ∧
    threads.main.Verifying

/-- The verdict is right as of a moment of the verification, and something is reported else. -/
def Truthful (settings : Settings) (schedule : List Action) (output : List Report) : Prop :=
  (∃ moment, Moment settings schedule moment ∧ (.allReceived ∈ output ↔ moment.Accounted)) ∧
    (.allReceived ∉ output → Reported output)

/-- A step of the main thread goes on to compare the ids, and reports what it finds. -/
def Comparable (threads : Threads) : Prop :=
  match threads.main with
  | .verifying => threads.receivedIds ≠ []
  | .comparingExtra missing =>
    missing ≠ [] ∨ Sortable (extra threads.insertedIds threads.receivedIds)
  | _ => True

/-- Every step of the main thread along a schedule finds the ids comparable. -/
def ComparableThroughout (settings : Settings) (schedule : List Action) : Prop :=
  ∀ earlier later threads, schedule = earlier ++ .main :: later →
    run settings earlier = some threads → Comparable threads

/-- Ids are accounted for when none is missing and none is extra. -/
theorem accounted_iff {threads : Threads} :
    threads.Accounted ↔ missing threads.insertedIds threads.receivedIds = [] ∧
      extra threads.insertedIds threads.receivedIds = [] := by
  simp [Threads.Accounted, missing, extra]

/-- Ids that were received earlier are not missing later. -/
theorem missing_eq_nil_of_subset {expected received later : List Json}
    (subset : received ⊆ later) (none : missing expected received = []) :
    missing expected later = [] := by
  simp only [missing, List.filter_eq_nil_iff, Bool.not_eq_true', Bool.not_eq_false,
    List.any_eq_true] at none ⊢
  -- The id that equals an expected one is still there.
  intro id member
  obtain ⟨found, there, same⟩ := none id member
  exact ⟨found, subset there, same⟩

/-- What is missing among numbers can be sorted. -/
theorem sortable_missing {expected : List Json} (numbers : ∀ id ∈ expected, (number? id).isSome)
    (received : List Json) : Sortable (missing expected received) :=
  .inr (.inl fun id member => numbers id (List.mem_of_mem_filter member))

/-! ### Steps of the other threads -/

/-- Adding an id keeps those that were there. -/
theorem subset_addId {ids next : List Json} {msgId : Json} (added : addId ids msgId = .ok next) :
    ids ⊆ next := by
  -- Values with parts raise; others are appended unless they are there.
  unfold addId at added
  split at added
  · cases added
  · cases added
  · cases added
    split
    · exact List.Subset.refl _
    · exact List.subset_append_left _ _

/-- Tracking a message keeps the ids received before. -/
theorem receivedIds_track (state : State) (msgId : Json) :
    state.receivedIds ⊆ (track state msgId).receivedIds := by
  -- An id that is already there is not added, and one that cannot be hashed neither.
  unfold track
  split
  · exact List.Subset.refl _
  · cases answer : addId state.receivedIds msgId with
    | ok ids => exact subset_addId answer
    | error fault => exact List.Subset.refl _

/-- The state in which the consumer is after a poll. -/
def Flow.state : Flow → State
  | .proceed state => state
  | .leave state => state

/-- Polling keeps the ids received before. -/
theorem receivedIds_handle (settings : Settings) (state : State) (poll : Poll) :
    state.receivedIds ⊆ (handle settings state poll).state.receivedIds := by
  have same : state.receivedIds ⊆ state.receivedIds := List.Subset.refl _
  unfold handle
  split
  · split <;> exact same
  · exact same
  · exact same
  · -- Only a message that counts is tracked.
    unfold process
    split
    · exact same
    · exact same
    · split
      · exact same
      · exact same
      · dsimp only
        split <;> exact receivedIds_track { state with lastMessageTime := poll.now } _

/-- What the steps of the producer and the consumer leave alone. -/
structure Kept (threads next : Threads) : Prop where
  main : next.main = threads.main
  output : next.output = threads.output
  received : threads.receivedIds ⊆ next.receivedIds
  inserted : threads.producer = .ended →
    next.producer = .ended ∧ next.insertedIds = threads.insertedIds
  numbers : (∀ id ∈ threads.insertedIds, (number? id).isSome) →
    ∀ id ∈ next.insertedIds, (number? id).isSome

/-- The ids of rows are numbers. -/
theorem number_updateIds {ids : List Json} (rows : List Int)
    (numbers : ∀ id ∈ ids, (number? id).isSome) :
    ∀ id ∈ updateIds ids rows, (number? id).isSome := by
  -- The ids vary, since every row adds its own.
  induction rows generalizing ids with
  | nil => exact numbers
  | cons row rows ih =>
    refine ih ?_
    dsimp only
    split
    · exact numbers
    · intro id member
      rcases List.mem_append.mp member with old | new
      · exact numbers id old
      · rw [List.mem_singleton.mp new]
        rfl

/-- A step of another thread than the main one. -/
theorem kept_of_step {settings : Settings} {threads next : Threads} {action : Action}
    (taken : step settings threads action = some next) (other : action ≠ .main) :
    Kept threads next := by
  -- The producer changes the ids only before it has ended, the consumer only its own.
  have same : threads.receivedIds ⊆ threads.receivedIds := List.Subset.refl _
  cases action with
  | insert row =>
    simp only [step] at taken
    split at taken
    · rename_i rows inserting
      split at taken
      · cases taken
        exact ⟨rfl, rfl, same, fun ended => by simp [inserting] at ended, fun numbers => numbers⟩
      · cases taken
    · cases taken
  | record =>
    simp only [step] at taken
    split at taken
    · rename_i rows inserting
      split at taken
      · cases taken
      · cases taken
        exact ⟨rfl, rfl, same, fun ended => by simp [inserting] at ended, number_updateIds rows⟩
    · cases taken
  | endProducer =>
    cases taken
    exact ⟨rfl, rfl, same, fun _ => ⟨rfl, rfl⟩, fun numbers => numbers⟩
  | subscribe now =>
    simp only [step] at taken
    split at taken
    · rename_i connecting
      cases taken
      refine ⟨rfl, rfl, ?_, fun ended => ⟨ended, rfl⟩, fun numbers => numbers⟩
      simp [Threads.receivedIds, connecting]
    · cases taken
  | poll poll =>
    simp only [step] at taken
    split at taken
    · rename_i state polling
      split at taken
      · cases taken
      · have more := receivedIds_handle settings state poll
        split at taken
        · rename_i later flow
          cases taken
          refine ⟨rfl, rfl, ?_, fun ended => ⟨ended, rfl⟩, fun numbers => numbers⟩
          simpa [Threads.receivedIds, polling, flow, Flow.state] using more
        · rename_i later flow
          cases taken
          refine ⟨rfl, rfl, ?_, fun ended => ⟨ended, rfl⟩, fun numbers => numbers⟩
          simpa [Threads.receivedIds, polling, flow, Flow.state] using more
    · cases taken
  | endConsumer =>
    cases taken
    exact ⟨rfl, rfl, same, fun ended => ⟨ended, rfl⟩, fun numbers => numbers⟩
  | main => exact absurd rfl other

/-! ### The main thread -/

variable {settings : Settings} {schedule : List Action}

/-- The end of a schedule is a moment of every longer one. -/
theorem moment_of_run {threads : Threads} (ran : run settings schedule = some threads)
    (verifying : threads.main.Verifying) (more : List Action) :
    Moment settings (schedule ++ more) threads :=
  ⟨schedule, more, rfl, ran, verifying⟩

/-- A moment of a schedule is one of every longer one. -/
theorem Moment.later {moment : Threads} (before : Moment settings schedule moment)
    (more : List Action) : Moment settings (schedule ++ more) moment := by
  obtain ⟨earlier, later, split, prior, verifying⟩ := before
  exact ⟨earlier, later ++ more, by rw [split, List.append_assoc], prior, verifying⟩

/-- A moment of a longer schedule is one of the schedule before, or its end. -/
theorem moment_append {threads next moment : Threads} {action : Action}
    (ran : run settings schedule = some threads)
    (taken : step settings threads action = some next) :
    Moment settings (schedule ++ [action]) moment ↔
      Moment settings schedule moment ∨ moment = next ∧ next.main.Verifying := by
  -- A moment of the longer schedule is followed by the last action, or it is the end.
  have ended : run settings (schedule ++ [action]) = some next := by
    rw [run] at ran ⊢
    rw [Schedule.foldlM_concat, ran]
    exact taken
  constructor
  · intro found
    obtain ⟨earlier, later, split, before, verifying⟩ := found
    rcases Schedule.concat_eq_append_iff.mp split with ⟨whole, -⟩ | ⟨front, -, inside⟩
    · rw [whole, ended] at before
      cases before
      exact .inr ⟨rfl, verifying⟩
    · exact .inl ⟨earlier, front, inside, before, verifying⟩
  · intro either
    rcases either with before | ⟨same, verifying⟩
    · exact before.later [action]
    · exact ⟨schedule ++ [action], [], (List.append_nil _).symm, same ▸ ended, same ▸ verifying⟩

/-- One more action is comparable unless it is a step of the main thread that is not. -/
theorem comparable_append {threads : Threads} {action : Action}
    (ran : run settings schedule = some threads) :
    ComparableThroughout settings (schedule ++ [action]) ↔
      ComparableThroughout settings schedule ∧ (action = .main → Comparable threads) := by
  -- A step of the main thread comes before the last action, or it is that action.
  constructor
  · intro all
    refine ⟨fun earlier later state split before => ?_, fun act => ?_⟩
    · exact all earlier (later ++ [action]) state (by simp [split]) before
    · exact all schedule [] threads (by simp [act]) ran
  · intro both earlier later state split before
    rcases Schedule.concat_eq_cons_iff.mp split with ⟨same, act, -⟩ | ⟨front, -, inside⟩
    · rw [same, ran] at before
      cases before
      exact both.2 act.symm
    · exact both.1 earlier front state inside before

/-- No verdict has been given. -/
def Silent (output : List Report) : Prop := .allReceived ∉ output ∧ ¬Reported output

/-- What holds of the main thread while a schedule is followed, stage by stage. -/
def Sound (settings : Settings) (schedule : List Action) (threads : Threads) : Prop :=
  match threads.main with
  | .joiningProducer => Silent threads.output ∧ ComparableThroughout settings schedule
  -- What was missing is that of an earlier moment, since when ids may have come in.
  | .comparingExtra earlier =>
    threads.producer = .ended ∧ Silent threads.output ∧ ComparableThroughout settings schedule ∧
      ∃ moment, Moment settings schedule moment ∧ moment.insertedIds = threads.insertedIds ∧
        moment.receivedIds ⊆ threads.receivedIds ∧
        earlier = missing moment.insertedIds moment.receivedIds
  -- Nothing is said about a run whose producer has recorded no ids.
  | .ended =>
    threads.producer = .ended ∧ (threads.insertedIds ≠ [] →
      (Truthful settings schedule threads.output ↔ ComparableThroughout settings schedule))
  | _ => threads.producer = .ended ∧ Silent threads.output ∧ ComparableThroughout settings schedule

/-- The steps of the other threads keep what holds of the main thread. -/
theorem sound_of_kept {threads next : Threads} {action : Action}
    (sound : Sound settings schedule threads) (ran : run settings schedule = some threads)
    (taken : step settings threads action = some next) (other : action ≠ .main) :
    Sound settings (schedule ++ [action]) next := by
  have kept := kept_of_step taken other
  have comparable : ComparableThroughout settings (schedule ++ [action]) ↔
      ComparableThroughout settings schedule := by
    rw [comparable_append ran]
    exact and_iff_left fun act => absurd act other
  have waiting (done : threads.producer = .ended ∧ Silent threads.output ∧
      ComparableThroughout settings schedule) :
      next.producer = .ended ∧ Silent next.output ∧
        ComparableThroughout settings (schedule ++ [action]) := by
    obtain ⟨ended, silent, fine⟩ := done
    exact ⟨(kept.inserted ended).1, kept.output ▸ silent, comparable.mpr fine⟩
  unfold Sound at sound ⊢
  rw [kept.main]
  cases stage : threads.main with
  | joiningProducer =>
    rw [stage] at sound
    exact ⟨kept.output ▸ sound.1, comparable.mpr sound.2⟩
  | joiningConsumer =>
    rw [stage] at sound
    exact waiting sound
  | verifying =>
    rw [stage] at sound
    exact waiting sound
  | comparing =>
    rw [stage] at sound
    exact waiting sound
  | comparingExtra earlier =>
    rw [stage] at sound
    obtain ⟨ended, silent, fine, moment, inside, inserted, received, same⟩ := sound
    obtain ⟨still, silent, fine⟩ := waiting ⟨ended, silent, fine⟩
    exact ⟨still, silent, fine, moment, (moment_append ran taken).mpr (.inl inside),
      inserted.trans (kept.inserted ended).2.symm, List.Subset.trans received kept.received, same⟩
  | ended =>
    rw [stage] at sound
    obtain ⟨ended, verdict⟩ := sound
    refine ⟨(kept.inserted ended).1, fun recorded => ?_⟩
    rw [(kept.inserted ended).2] at recorded
    rw [comparable, ← verdict recorded, Truthful, Truthful, kept.output]
    -- The verification is over, and no moment of it is added.
    have past : ¬next.main.Verifying := by simp [kept.main, stage, Main.Verifying]
    simp only [moment_append ran taken, past, and_false, or_false]

/-- Without a verdict the end is not truthful. -/
theorem not_truthful_of_silent {output : List Report} (silent : Silent output) :
    ¬Truthful settings schedule output :=
  fun truthful => silent.2 (truthful.2 silent.1)

/-- The end of the verification is truthful exactly when what is extra could be reported. -/
theorem truthful_verdict {threads moment : Threads} {output : List Report}
    (numbers : ∀ id ∈ threads.insertedIds, (number? id).isSome) (silent : Silent output)
    (now : Moment settings schedule threads) (before : Moment settings schedule moment)
    (inserted : moment.insertedIds = threads.insertedIds)
    (received : moment.receivedIds ⊆ threads.receivedIds) :
    Truthful settings schedule (output ++
        (verdict (missing moment.insertedIds moment.receivedIds)
          (extra threads.insertedIds threads.receivedIds)).events) ↔
      missing moment.insertedIds moment.receivedIds ≠ [] ∨
        Sortable (extra threads.insertedIds threads.receivedIds) := by
  -- Without missing ids the verdict is right as of now, and else as of the earlier comparison.
  have sortable := sortable_missing (inserted ▸ numbers) moment.receivedIds
  set lacking := missing moment.insertedIds moment.receivedIds with lackingNow
  set surplus := extra threads.insertedIds threads.receivedIds with surplusNow
  have all : .allReceived ∈ output ++ (verdict lacking surplus).events ↔
      lacking = [] ∧ surplus = [] := by
    rw [List.mem_append, allReceived_mem_verdict sortable]
    exact or_iff_right silent.1
  have reported : Reported (output ++ (verdict lacking surplus).events) ↔
      lacking ≠ [] ∨ surplus ≠ [] ∧ Sortable surplus := by
    rw [← reported_verdict sortable]
    have quiet := silent.2
    simp only [Reported, List.mem_append, not_or, not_exists] at quiet ⊢
    simp [quiet]
  rw [Truthful, all, reported]
  constructor
  · intro truthful
    by_cases none : lacking = []
    · by_cases nothing : surplus = []
      · exact .inr (nothing ▸ .inl (by simp))
      · rcases truthful.2 fun both => nothing both.2 with some | some
        · exact .inl some
        · exact .inr some.2
    · exact .inl none
  · intro fine
    by_cases none : lacking = []
    · refine ⟨⟨threads, now, ?_⟩, fun other => .inr ?_⟩
      · -- What was not missing before is not missing now.
        have still := missing_eq_nil_of_subset received (lackingNow ▸ none)
        rw [accounted_iff, ← inserted, still, inserted, ← surplusNow]
        simp [none]
      · exact ⟨fun nothing => other ⟨none, nothing⟩, fine.resolve_left fun some => some none⟩
    · refine ⟨⟨moment, before, ?_⟩, fun _ => .inl none⟩
      rw [accounted_iff, ← lackingNow]
      simp [none]

/-- A step of the main thread is comparable throughout when it and those before are. -/
theorem comparable_main {threads : Threads} (ran : run settings schedule = some threads) :
    ComparableThroughout settings (schedule ++ [.main]) ↔
      ComparableThroughout settings schedule ∧ Comparable threads := by
  rw [comparable_append ran]
  simp

/-- Whether the verification goes on depends on what has been received by then. -/
theorem sound_of_verifying {threads next : Threads} (stage : threads.main = .verifying)
    (sound : Sound settings schedule threads) (ran : run settings schedule = some threads)
    (taken : mainStep threads = some next) : Sound settings (schedule ++ [.main]) next := by
  rw [Sound, stage] at sound
  rw [mainStep, stage] at taken
  obtain ⟨ended, silent, fine⟩ := sound
  dsimp only at taken
  split at taken
  · rename_i both
    cases taken
    have compared : Comparable threads := by simpa [Comparable, stage] using both.2
    exact ⟨ended, silent, (comparable_main ran).mpr ⟨fine, compared⟩⟩
  · rename_i empty
    cases taken
    refine ⟨ended, fun recorded => iff_of_false (not_truthful_of_silent ?_) fun whole => ?_⟩
    · simpa [Silent, Reported] using silent
    · -- Nothing has been received, which the guard passes over.
      have received : threads.receivedIds ≠ [] := by
        simpa [Comparable, stage] using ((comparable_main ran).mp whole).2
      exact empty ⟨recorded, received⟩

/-- The verdict is given on what was missing then and on what is extra now. -/
theorem sound_of_comparingExtra {threads next : Threads} {earlier : List Json}
    (stage : threads.main = .comparingExtra earlier)
    (numbers : ∀ id ∈ threads.insertedIds, (number? id).isSome)
    (sound : Sound settings schedule threads) (ran : run settings schedule = some threads)
    (taken : mainStep threads = some next) : Sound settings (schedule ++ [.main]) next := by
  rw [Sound, stage] at sound
  rw [mainStep, stage] at taken
  obtain ⟨ended, silent, fine, moment, inside, inserted, received, same⟩ := sound
  subst same
  cases taken
  refine ⟨ended, fun _ => ?_⟩
  -- Both moments are moments of the longer schedule.
  have now := moment_of_run ran (by simp [Main.Verifying, stage]) [.main]
  have before := inside.later [.main]
  rw [comparable_main ran, truthful_verdict numbers silent now before inserted received,
    and_iff_right fine, Comparable, stage]

/-- The steps of the main thread keep what holds of it. -/
theorem sound_of_mainStep {threads next : Threads}
    (numbers : ∀ id ∈ threads.insertedIds, (number? id).isSome)
    (sound : Sound settings schedule threads) (ran : run settings schedule = some threads)
    (taken : mainStep threads = some next) : Sound settings (schedule ++ [.main]) next := by
  have whole (fine : ComparableThroughout settings schedule) (compared : Comparable threads) :
      ComparableThroughout settings (schedule ++ [.main]) :=
    (comparable_main ran).mpr ⟨fine, compared⟩
  cases stage : threads.main with
  | joiningProducer =>
    rw [Sound, stage] at sound
    rw [mainStep, stage] at taken
    obtain ⟨silent, fine⟩ := sound
    cases ended : threads.producer with
    | ended =>
      rw [ended] at taken
      cases taken
      exact ⟨rfl, silent, whole fine (by simp [Comparable, stage])⟩
    | _ =>
      rw [ended] at taken
      cases taken
  | joiningConsumer =>
    rw [Sound, stage] at sound
    rw [mainStep, stage] at taken
    obtain ⟨ended, silent, fine⟩ := sound
    have fine := whole fine (by simp [Comparable, stage])
    -- Whether the consumer has ended or not, this is no verdict.
    have waiting : Silent (threads.output ++ [.stillRunning]) := by
      simpa [Silent, Reported] using silent
    cases consumer : threads.consumer with
    | ended ids =>
      rw [consumer] at taken
      cases taken
      exact ⟨ended, silent, fine⟩
    | _ =>
      rw [consumer] at taken
      cases taken
      exact ⟨ended, waiting, fine⟩
  | verifying => exact sound_of_verifying stage sound ran taken
  | comparing =>
    rw [Sound, stage] at sound
    rw [mainStep, stage] at taken
    obtain ⟨ended, silent, fine⟩ := sound
    cases taken
    have now := moment_of_run ran (by simp [Main.Verifying, stage]) [.main]
    exact ⟨ended, silent, whole fine (by simp [Comparable, stage]), threads, now, rfl,
      List.Subset.refl _, rfl⟩
  | comparingExtra earlier => exact sound_of_comparingExtra stage numbers sound ran taken
  | ended =>
    rw [mainStep, stage] at taken
    cases taken

/-- The main thread records no ids. -/
theorem insertedIds_mainStep {threads next : Threads} (taken : mainStep threads = some next) :
    next.insertedIds = threads.insertedIds := by
  -- Only `main` and `output` are written.
  unfold mainStep at taken
  split at taken
  · split at taken
    · cases taken
      rfl
    · cases taken
  · split at taken <;> cases taken <;> rfl
  · split at taken <;> cases taken <;> rfl
  · cases taken
    rfl
  · cases taken
    rfl
  · cases taken

/-- The ids that the producer records are numbers. -/
theorem number_of_run {threads : Threads} (ran : run settings schedule = some threads) :
    ∀ id ∈ threads.insertedIds, (number? id).isSome := by
  refine Schedule.invariant (fun _ threads => ∀ id ∈ threads.insertedIds, (number? id).isSome)
    (by simp [started]) ?_ ran
  -- The ids are recorded by the producer, as those of rows.
  intro _ action before next _ numbers taken
  by_cases own : action = .main
  · subst own
    rw [insertedIds_mainStep taken]
    exact numbers
  · exact (kept_of_step taken own).numbers numbers

/-- What holds of the main thread holds along every schedule. -/
theorem sound_of_run {threads : Threads} (ran : run settings schedule = some threads) :
    Sound settings schedule threads := by
  have start : Sound settings [] started :=
    ⟨by simp [Silent, Reported, started], by simp [ComparableThroughout]⟩
  refine Schedule.invariant (Sound settings) start ?_ ran
  -- Steps of the main thread and steps of the two others are kept apart.
  intro schedule action before next earlier sound taken
  by_cases own : action = .main
  · subst own
    exact sound_of_mainStep (number_of_run earlier) sound earlier taken
  · exact sound_of_kept sound earlier taken own

/-- The final verdict is truthful iff the ids were comparable at every step of the main thread. -/
theorem verdict_truthful_iff {final : Threads} (ran : run settings schedule = some final)
    (finished : final.main = .ended) (recorded : final.insertedIds ≠ []) :
    Truthful settings schedule final.output ↔ ComparableThroughout settings schedule := by
  -- The main thread has ended, which is where the invariant speaks of the verdict.
  have sound := sound_of_run ran
  rw [Sound, finished] at sound
  exact sound.2 recorded

/-- A test of two rows whose consumer has ended with both of them. -/
def bothReceived : List Action :=
  [.subscribe 0, .insert 1, .insert 2, .record, .endProducer,
    .poll ⟨1, .message (createEvent "run" 2)⟩, .poll ⟨2, .message (createEvent "run" 1)⟩,
    .main, .main, .main, .main, .main]

/-- The end of this test. -/
def afterBoth : Threads :=
  { insertedIds := [.num 1, .num 2], producer := .ended, consumer := .ended [.num 2, .num 1]
    main := .ended, output := [.allReceived, .completed] }

/-- Two rows that were both received are reported to have been. -/
theorem verdict_truthful_both :
    run ⟨2, some "run"⟩ bothReceived = some afterBoth ∧
      (Truthful ⟨2, some "run"⟩ bothReceived afterBoth.output ↔
        ComparableThroughout ⟨2, some "run"⟩ bothReceived) := by
  have ran : run ⟨2, some "run"⟩ bothReceived = some afterBoth := by rfl
  exact ⟨ran, verdict_truthful_iff ran rfl (by simp [afterBoth])⟩

/-- A test of two rows whose consumer dies before it has received anything. -/
def noneReceived : List Action :=
  [.insert 1, .insert 2, .record, .endProducer, .endConsumer, .main, .main, .main]

/-- The end of this test. -/
def afterNone : Threads :=
  { insertedIds := [.num 1, .num 2], producer := .ended, consumer := .ended []
    main := .ended, output := [.completed] }

/-- Two rows that were inserted and never received end with the completion message only. -/
theorem completed_unaccounted :
    run ⟨2, some "run"⟩ noneReceived = some afterNone ∧ ¬afterNone.Accounted ∧
      ¬Truthful ⟨2, some "run"⟩ noneReceived afterNone.output := by
  refine ⟨by rfl, fun accounted => ?_, fun truthful => ?_⟩
  · obtain ⟨received, there, -⟩ := accounted.1 (.num 1) (by simp [afterNone])
    cases there
  · -- The guard skips the verification, and nothing is reported.
    rcases truthful.2 (by simp [afterNone]) with missing | extra
    · obtain ⟨ids, there⟩ := missing
      simp [afterNone] at there
    · obtain ⟨ids, there⟩ := extra
      simp [afterNone] at there

end AivenExamples.DebeziumDiskless
