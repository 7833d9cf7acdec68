import AivenExamples.Data.Schedule

/-! The Twitter stream whose tweets are written to Kafka by one goroutine each. -/

namespace AivenExamples.TwitterProducer

/-- A tweet: the text of its id and its JSON encoding. -/
structure Tweet where
  idStr : String
  json : String
  deriving DecidableEq

/-- Why `WriteMessages` returned an error. -/
inductive WriteError where
  /-- The writer had been closed before the call. -/
  | closedPipe
  /-- The broker was failing at the time of the write. -/
  | broker
  deriving DecidableEq

/-- How far a call of `WriteMessage` has come. -/
inductive Stage where
  | entering
  | writing
  | closing
  | connecting
  | returned
  deriving DecidableEq

/-- A goroutine in `WriteMessage`, with its own variable `w` for the writer. -/
structure Call where
  tweet : Tweet
  w : Nat
  stage : Stage
  err : Option WriteError

/-- The goroutines and what they share; writers are numbered as they are made. -/
structure State where
  /-- The writer that `streamRunner` hands to every goroutine. -/
  kProd : Nat
  writers : Nat
  closed : List Nat
  calls : List Call
  /-- The messages in the topic, as keys and values. -/
  topic : List (String × String)

/-- `streamRunner` after `kProd := ConnectKafka()`. -/
def initial : State := { kProd := 0, writers := 1, closed := [], calls := [], topic := [] }

/-- What happens next: a tweet arrives, or a goroutine takes a step. -/
inductive Action where
  | receive (tweet : Tweet)
  | enter (call : Nat)
  /-- The answer to a write that was let in, the broker failing at the time or not. -/
  | answer (call : Nat) (failing : Bool)
  | close (call : Nat)
  | connect (call : Nat)
  deriving DecidableEq

/-- The goroutine with this number, when it has come to this stage. -/
def State.callAt (state : State) (i : Nat) (stage : Stage) : Option Call :=
  state.calls[i]?.filter fun call => call.stage = stage

/-- The state with another record for a goroutine. -/
def State.setCall (state : State) (i : Nat) (call : Call) : State :=
  { state with calls := state.calls.set i call }

/-- The entry check of `WriteMessages`: a closed writer returns an error at once. -/
def Call.enter (call : Call) (closed : List Nat) : Call :=
  if call.w ∈ closed then { call with stage := .closing, err := some .closedPipe }
  else { call with stage := .writing }

/-- One step of the program, in any order that the goroutines allow. -/
def step (state : State) : Action → Option State
  -- `go WriteMessage(kProd, key, value)` evaluates its arguments at once.
  | .receive tweet =>
    some { state with calls := state.calls ++ [⟨tweet, state.kProd, .entering, none⟩] }
  | .enter i => do
    let call ← state.callAt i .entering
    return state.setCall i (call.enter state.closed)
  | .answer i false => do
    let call ← state.callAt i .writing
    return { state.setCall i { call with stage := .returned } with
      topic := state.topic ++ [(call.tweet.idStr, call.tweet.json)] }
  | .answer i true => do
    let call ← state.callAt i .writing
    return state.setCall i { call with stage := .closing, err := some .broker }
  -- `w.Close()`.
  | .close i => do
    let call ← state.callAt i .closing
    return { state.setCall i { call with stage := .connecting } with
      closed := call.w :: state.closed }
  -- `w = ConnectKafka()` assigns to the goroutine's own variable.
  | .connect i => do
    let call ← state.callAt i .connecting
    return { state.setCall i { call with stage := .returned, w := state.writers } with
      writers := state.writers + 1 }

/-- The program along a schedule, unless a step of it is not possible. -/
def run (state : State) (schedule : List Action) : Option State := schedule.foldlM step state

/-- Every tweet that was lost met a failing broker at its own write. -/
def LostToBroker (state : State) : Prop :=
  ∀ call ∈ state.calls, ∀ err, call.err = some err → err = .broker

/-- Every call of `WriteMessages` that begins after a reconnect is given a live writer. -/
def LiveAfterReconnect (schedule : List Action) : Prop :=
  ∀ earlier i later state call, schedule = earlier ++ .enter i :: later →
    (∃ j, .connect j ∈ earlier) → run initial earlier = some state →
    state.callAt i .entering = some call → call.w ∉ state.closed

/-- No call of `WriteMessages` begins after a goroutine has closed its writer. -/
def NoLateEntry (schedule : List Action) : Prop :=
  ∀ earlier i later, schedule = earlier ++ .enter i :: later → ∀ j, .close j ∉ earlier

/-! ### Steps -/

/-- A goroutine found at a stage is on record with it. -/
theorem callAt_eq_some {state : State} {i : Nat} {stage : Stage} {call : Call} :
    state.callAt i stage = some call ↔ state.calls[i]? = some call ∧ call.stage = stage := by
  simp [State.callAt, Option.filter_eq_some_iff]

/-- What a step can do: a tweet arrives, or one goroutine moves on. -/
theorem step_cases {state next : State} {action : Action} (taken : step state action = some next) :
    (∃ tweet, action = .receive tweet ∧
        next.calls = state.calls ++ [⟨tweet, state.kProd, .entering, none⟩] ∧
        next.kProd = state.kProd ∧ next.closed = state.closed) ∨
      ∃ i call moved, state.calls[i]? = some call ∧ next.calls = state.calls.set i moved ∧
        next.kProd = state.kProd ∧
        ((action = .enter i ∧ call.stage = .entering ∧ moved = call.enter state.closed ∧
            next.closed = state.closed) ∨
          (∃ failing, action = .answer i failing ∧ call.stage = .writing ∧
            (moved = { call with stage := .returned } ∨
              moved = { call with stage := .closing, err := some .broker }) ∧
            next.closed = state.closed) ∨
          (action = .close i ∧ call.stage = .closing ∧ moved = { call with stage := .connecting } ∧
            next.closed = call.w :: state.closed) ∨
          (action = .connect i ∧ call.stage = .connecting ∧
            moved = { call with stage := .returned, w := state.writers } ∧
            next.closed = state.closed)) := by
  -- A goroutine moves on only from the stage at which the action finds it.
  cases action with
  | receive tweet =>
    cases taken
    exact .inl ⟨tweet, rfl, rfl, rfl, rfl⟩
  | enter i =>
    obtain ⟨call, found, moved⟩ := Option.bind_eq_some_iff.mp taken
    obtain ⟨there, stage⟩ := callAt_eq_some.mp found
    cases moved
    exact .inr ⟨i, call, _, there, rfl, rfl, .inl ⟨rfl, stage, rfl, rfl⟩⟩
  | answer i failing =>
    cases failing with
    | false =>
      obtain ⟨call, found, moved⟩ := Option.bind_eq_some_iff.mp taken
      obtain ⟨there, stage⟩ := callAt_eq_some.mp found
      cases moved
      exact .inr ⟨i, call, _, there, rfl, rfl, .inr (.inl ⟨_, rfl, stage, .inl rfl, rfl⟩)⟩
    | true =>
      obtain ⟨call, found, moved⟩ := Option.bind_eq_some_iff.mp taken
      obtain ⟨there, stage⟩ := callAt_eq_some.mp found
      cases moved
      exact .inr ⟨i, call, _, there, rfl, rfl, .inr (.inl ⟨_, rfl, stage, .inr rfl, rfl⟩)⟩
  | close i =>
    obtain ⟨call, found, moved⟩ := Option.bind_eq_some_iff.mp taken
    obtain ⟨there, stage⟩ := callAt_eq_some.mp found
    cases moved
    exact .inr ⟨i, call, _, there, rfl, rfl, .inr (.inr (.inl ⟨rfl, stage, rfl, rfl⟩))⟩
  | connect i =>
    obtain ⟨call, found, moved⟩ := Option.bind_eq_some_iff.mp taken
    obtain ⟨there, stage⟩ := callAt_eq_some.mp found
    cases moved
    exact .inr ⟨i, call, _, there, rfl, rfl, .inr (.inr (.inr ⟨rfl, stage, rfl, rfl⟩))⟩

/-! ### The writer in use -/

/-- What holds of a goroutine: until it has returned it uses the first writer. -/
structure Call.Sound (call : Call) : Prop where
  writer : call.stage ≠ .returned → call.w = 0
  clean : call.stage = .entering ∨ call.stage = .writing → call.err = none

/-- What holds after a schedule: the only writer ever used is the first one. -/
structure Sound (schedule : List Action) (state : State) : Prop where
  kProd : state.kProd = 0
  calls : ∀ call ∈ state.calls, call.Sound
  closed : 0 ∈ state.closed ↔ ∃ j, .close j ∈ schedule

/-- A goroutine that moves on keeps what holds of the others. -/
theorem mem_set_of_sound {calls : List Call} {i : Nat} {moved : Call} {good : Call → Prop}
    (all : ∀ call ∈ calls, good call) (fine : good moved) : ∀ call ∈ calls.set i moved, good call :=
  fun call member => (List.mem_or_eq_of_mem_set member).elim (all call) fun same => same ▸ fine

/-- Every step keeps the first writer the only one in use. -/
theorem Sound.step {schedule : List Action} {state next : State} {action : Action}
    (sound : Sound schedule state) (taken : step state action = some next) :
    Sound (schedule ++ [action]) next := by
  -- The steps of a goroutine leave the variable of `streamRunner` alone.
  rcases step_cases taken with ⟨tweet, act, calls, kProd, closed⟩ |
    ⟨i, call, moved, there, calls, kProd, moves⟩
  · refine ⟨kProd.trans sound.kProd, fun call member => ?_, ?_⟩
    · rw [calls, List.mem_append, List.mem_singleton] at member
      rcases member with old | new
      · exact sound.calls call old
      · -- The new goroutine is handed the first writer.
        subst new
        exact ⟨fun _ => sound.kProd, fun _ => rfl⟩
    · rw [closed, sound.closed, act]
      simp
  · have known := sound.calls call (List.mem_of_getElem? there)
    rcases moves with ⟨act, stage, same, closed⟩ | ⟨failing, act, stage, either, closed⟩ |
      ⟨act, stage, same, closed⟩ | ⟨act, stage, same, closed⟩
    · refine ⟨kProd.trans sound.kProd, calls ▸ mem_set_of_sound sound.calls ?_, ?_⟩
      · have first := known.writer (by simp [stage])
        have clean := known.clean (.inl stage)
        subst same
        unfold Call.enter
        split
        · exact ⟨fun _ => first, by simp⟩
        · exact ⟨fun _ => first, fun _ => clean⟩
      · rw [closed, sound.closed, act]
        simp
    · refine ⟨kProd.trans sound.kProd, calls ▸ mem_set_of_sound sound.calls ?_, ?_⟩
      · have first := known.writer (by simp [stage])
        rcases either with same | same <;> subst same
        · exact ⟨by simp, by simp⟩
        · exact ⟨fun _ => first, by simp⟩
      · rw [closed, sound.closed, act]
        simp
    · have first := known.writer (by simp [stage])
      refine ⟨kProd.trans sound.kProd, calls ▸ mem_set_of_sound sound.calls ?_, ?_⟩
      · subst same
        exact ⟨fun _ => first, by simp⟩
      · rw [closed, act, first]
        simp
    · refine ⟨kProd.trans sound.kProd, calls ▸ mem_set_of_sound sound.calls ?_, ?_⟩
      · subst same
        exact ⟨by simp, by simp⟩
      · rw [closed, sound.closed, act]
        simp

/-- Along every schedule the first writer is the only one in use. -/
theorem sound_of_run {schedule : List Action} {final : State}
    (ran : run initial schedule = some final) : Sound schedule final := by
  have start : Sound [] initial := ⟨rfl, by simp [initial], by simp [initial]⟩
  exact Schedule.invariant Sound start (fun _ _ _ _ _ sound taken => sound.step taken) ran

/-! ### Losses -/

/-- An error that is not the broker's is that of a closed writer. -/
theorem broker_iff {error : Option WriteError} :
    (∀ err, error = some err → err = .broker) ↔ error ≠ some .closedPipe := by
  cases error with
  | none => simp
  | some err => cases err <;> simp

/-- A goroutine that moves on without meeting a closed writer adds no other loss. -/
theorem lostToBroker_set {state : State} {i : Nat} {call moved : Call}
    (there : state.calls[i]? = some call)
    (same : moved.err = some .closedPipe ↔ call.err = some .closedPipe) :
    (∀ other ∈ state.calls.set i moved, ∀ err, other.err = some err → err = .broker) ↔
      LostToBroker state := by
  -- The record of one goroutine is replaced, and the others stay.
  simp only [LostToBroker, broker_iff, List.mem_iff_getElem?, List.getElem?_set]
  constructor
  · intro fine other found
    obtain ⟨j, at_j⟩ := found
    by_cases here : i = j
    · -- The record that was replaced had the same fault as the new one.
      subst here
      rw [there] at at_j
      cases at_j
      have inside : i < state.calls.length := (List.getElem?_eq_some_iff.mp there).1
      exact fun fault => fine moved ⟨i, by simp [inside]⟩ (same.mpr fault)
    · exact fine other ⟨j, by rw [if_neg here, at_j]⟩
  · intro fine other found
    obtain ⟨j, at_j⟩ := found
    by_cases here : i = j
    · subst here
      have inside : i < state.calls.length := (List.getElem?_eq_some_iff.mp there).1
      simp only [↓reduceIte, inside, Option.some.injEq] at at_j
      subst at_j
      exact fun fault => fine call ⟨i, there⟩ (same.mp fault)
    · rw [if_neg here] at at_j
      exact fine other ⟨j, at_j⟩

/-- One more action is a late entry when a goroutine closed its writer before. -/
theorem noLateEntry_append (schedule : List Action) (action : Action) :
    NoLateEntry (schedule ++ [action]) ↔
      NoLateEntry schedule ∧ ∀ i, action = .enter i → ∀ j, .close j ∉ schedule := by
  constructor
  · intro none
    refine ⟨fun earlier i later split => none earlier i (later ++ [action]) (by simp [split]),
      fun i act => none schedule i [] (by simp [act])⟩
  · intro both earlier i later split
    -- The entry is the last action, or it is followed by it.
    rcases Schedule.concat_eq_cons_iff.mp split with ⟨same, act, -⟩ | ⟨front, -, before⟩
    · exact same ▸ both.2 i act.symm
    · exact both.1 earlier i front before

/-- A step adds a loss to a closed writer exactly when it is a late entry. -/
theorem lostToBroker_step {schedule : List Action} {state next : State} {action : Action}
    (sound : Sound schedule state) (taken : step state action = some next) :
    LostToBroker next ↔
      LostToBroker state ∧ ∀ i, action = .enter i → ∀ j, .close j ∉ schedule := by
  rcases step_cases taken with ⟨tweet, act, calls, -, -⟩ | ⟨i, call, moved, there, calls, -, moves⟩
  · -- A goroutine that has not begun has lost nothing.
    subst act
    simp [LostToBroker, calls, or_imp, forall_and]
  · have known := sound.calls call (List.mem_of_getElem? there)
    unfold LostToBroker at *
    rw [calls]
    rcases moves with ⟨act, stage, same, -⟩ | ⟨failing, act, stage, either, -⟩ |
      ⟨act, stage, same, -⟩ | ⟨act, stage, same, -⟩
    · have first := known.writer (by simp [stage])
      have clean := known.clean (.inl stage)
      subst act
      by_cases shut : 0 ∈ state.closed
      · -- The only writer in use is closed, which some goroutine did before.
        obtain ⟨j, late⟩ := sound.closed.mp shut
        refine iff_of_false (fun fine => ?_) (fun both => both.2 i rfl j late)
        have inside : i < state.calls.length := (List.getElem?_eq_some_iff.mp there).1
        have fault := fine moved (List.mem_iff_getElem?.mpr ⟨i, by simp [inside]⟩) .closedPipe
        simp [same, Call.enter, first, shut] at fault
      · have unharmed : moved.err = none := by simp [same, Call.enter, first, shut, clean]
        rw [lostToBroker_set there (by simp [unharmed, clean]), LostToBroker]
        have early : ∀ j, .close j ∉ schedule := fun j late => shut (sound.closed.mpr ⟨j, late⟩)
        simp [early]
    · have clean := known.clean (.inr stage)
      have fault : moved.err = some .closedPipe ↔ call.err = some .closedPipe := by
        rcases either with same | same <;> simp [same, clean]
      rw [lostToBroker_set there fault, LostToBroker]
      simp [act]
    · rw [lostToBroker_set there (by rw [same]), LostToBroker]
      simp [act]
    · rw [lostToBroker_set there (by rw [same]), LostToBroker]
      simp [act]

/-- Only failing brokers lose tweets iff no call began after a goroutine closed its writer. -/
theorem lostToBroker_iff {schedule : List Action} {final : State}
    (ran : run initial schedule = some final) : LostToBroker final ↔ NoLateEntry schedule := by
  refine Schedule.invariant (fun schedule state => LostToBroker state ↔ NoLateEntry schedule)
    (by simp [LostToBroker, NoLateEntry, initial]) ?_ ran
  -- Both sides change with the same actions, those that enter a call on a closed writer.
  intro schedule action state next before lost taken
  rw [lostToBroker_step (sound_of_run before) taken, lost, noLateEntry_append]

/-- Failures stay with their tweets iff no call began after a goroutine had closed its writer. -/
theorem failures_isolated_iff {schedule : List Action} {final : State}
    (ran : run initial schedule = some final) :
    LostToBroker final ∧ LiveAfterReconnect schedule ↔ NoLateEntry schedule := by
  rw [lostToBroker_iff ran, and_iff_left_iff_imp]
  -- Every call that begins is given the first writer, which nobody has closed by then.
  intro early earlier i later state call split _ before entering
  have sound := sound_of_run before
  obtain ⟨there, stage⟩ := callAt_eq_some.mp entering
  have first := (sound.calls call (List.mem_of_getElem? there)).writer (by simp [stage])
  intro shut
  obtain ⟨j, late⟩ := sound.closed.mp (first ▸ shut)
  exact early earlier i later split j late

/-- Two writes that both begin before the first one fails. -/
def writesTogether : List Action :=
  [.receive ⟨"1", "{}"⟩, .receive ⟨"2", "{}"⟩, .enter 0, .enter 1, .answer 0 true, .close 0,
    .connect 0, .answer 1 false]

/-- What is left of them: the first tweet is lost and the second one is in the topic. -/
def afterTogether : State :=
  { kProd := 0, writers := 2, closed := [0], topic := [("2", "{}")]
    calls := [⟨⟨"1", "{}"⟩, 1, .returned, some .broker⟩, ⟨⟨"2", "{}"⟩, 0, .returned, none⟩] }

/-- A failure leaves the write beside it alone. -/
theorem failures_isolated_together :
    run initial writesTogether = some afterTogether ∧
      (LostToBroker afterTogether ∧ LiveAfterReconnect writesTogether ↔
        NoLateEntry writesTogether) :=
  ⟨rfl, failures_isolated_iff rfl⟩

/-- A tweet that arrives after the failure of another one and its reconnect. -/
def writesInTurn : List Action :=
  [.receive ⟨"1", "{}"⟩, .enter 0, .answer 0 true, .close 0, .connect 0, .receive ⟨"2", "{}"⟩,
    .enter 1]

/-- What is left of them: the second goroutine has met the closed writer. -/
def afterInTurn : State :=
  { kProd := 0, writers := 2, closed := [0], topic := []
    calls := [⟨⟨"1", "{}"⟩, 1, .returned, some .broker⟩,
      ⟨⟨"2", "{}"⟩, 0, .closing, some .closedPipe⟩] }

/-- After a failure and the reconnect a later tweet is lost, the broker being fine. -/
theorem later_tweet_lost :
    run initial writesInTurn = some afterInTurn ∧ ¬LostToBroker afterInTurn ∧
      ¬LiveAfterReconnect writesInTurn := by
  refine ⟨rfl, fun fine => ?_, fun live => ?_⟩
  · have fault := fine ⟨⟨"2", "{}"⟩, 0, .closing, some .closedPipe⟩ (by simp [afterInTurn])
    simp at fault
  · -- The goroutine of the second tweet is handed the writer that the first one has closed.
    exact live (writesInTurn.take 6) 1 [] _ _ rfl ⟨0, by simp [writesInTurn]⟩ rfl rfl
      List.mem_cons_self

end AivenExamples.TwitterProducer
