import AivenExamples.Data.Schedule
import AivenExamples.PgSync.Recovery

/-! What the two programs do along a run: the log in order, and from the committed offset again. -/

namespace AivenExamples.PgSync

variable {program : Program} {config : Config} {log : List (Option Change)} {start : Nat}

/-- What handling a message does to the sink, or nothing when it has to be tried again. -/
def handle (program : Program) (config : Config) (sink : Database) (message : Option Change) :
    Option Database :=
  match effect config sink message with
  | .ok after => some after
  | .error fault => if program.skips fault then some sink else none

/-- Handling the message at a position of the log. -/
def handleAt (program : Program) (config : Config) (log : List (Option Change)) (sink : Database)
    (position : Nat) : Option Database :=
  log[position]?.bind (handle program config sink)

/-- No position is handled before all those between the start and it have been. -/
def InOrder (start : Nat) (handled : List Nat) : Prop :=
  ∀ front position later, handled = front ++ position :: later →
    start ≤ position ∧ ∀ earlier, start ≤ earlier → earlier < position → earlier ∈ front

theorem inOrder_nil : InOrder start [] := by
  intro front position later split
  cases front <;> cases split

/-- A position can be handled after all those before it. -/
theorem InOrder.concat {handled : List Nat} {next : Nat} (order : InOrder start handled)
    (reached : start ≤ next)
    (before : ∀ earlier, start ≤ earlier → earlier < next → earlier ∈ handled) :
    InOrder start (handled ++ [next]) := by
  intro front position later split
  -- The position is the last one, or one of those before.
  rcases Schedule.concat_eq_cons_iff.mp split with ⟨whole, last, -⟩ | ⟨others, -, shorter⟩
  · rw [whole, last]
    exact ⟨reached, before⟩
  · exact order front position others shorter

/-- What has been handled so far explains the sink and the offsets. -/
structure Explains (program : Program) (config : Config) (log : List (Option Change))
    (start : Nat) (sink : Database) (handled : List Nat) (state : State) : Prop where
  order : InOrder start handled
  sinkAfter : handled.foldlM (handleAt program config log) sink = some state.sink
  committedFrom : start ≤ state.committed
  positionFrom : start ≤ state.position
  committedBefore : ∀ earlier, start ≤ earlier → earlier < state.committed → earlier ∈ handled
  positionBefore : ∀ earlier, start ≤ earlier → earlier < state.position → earlier ∈ handled
  committing : state.phase = .committing → state.position ∈ handled

variable {sink : Database} {handled : List Nat}

/-- A message that is handled at the position of the program comes behind those before it. -/
theorem Explains.handleNext {before after : Database} {committed position : Nat}
    {phase later : Phase}
    (explains : Explains program config log start sink handled ⟨before, committed, position, phase⟩)
    (done : handleAt program config log before position = some after) :
    Explains program config log start sink (handled ++ [position])
      ⟨after, committed, position, later⟩ where
  order := explains.order.concat explains.positionFrom explains.positionBefore
  -- The sink goes on from where the earlier messages have left it.
  sinkAfter := by
    rw [List.foldlM_append, explains.sinkAfter]
    simpa using done
  committedFrom := explains.committedFrom
  positionFrom := explains.positionFrom
  committedBefore earlier from' below :=
    List.mem_append_left _ (explains.committedBefore earlier from' below)
  positionBefore earlier from' below :=
    List.mem_append_left _ (explains.positionBefore earlier from' below)
  committing _ := by simp

/-- An attempt that takes effect handles its message. -/
theorem handleAt_of_ok {before after : Database} {position : Nat} {message : Option Change}
    (found : log[position]? = some message) (applied : effect config before message = .ok after) :
    handleAt program config log before position = some after := by
  simp [handleAt, found, handle, applied]

/-- A fault that is passed over handles its message. -/
theorem handleAt_of_skip {before : Database} {position : Nat} {message : Option Change}
    {fault : Fault} (found : log[position]? = some message)
    (failed : effect config before message = .error fault) (skipped : program.skips fault = true) :
    handleAt program config log before position = some before := by
  simp [handleAt, found, handle, failed, skipped]

/-- Every step of the program or of its surroundings can be explained by what is handled. -/
theorem explains_step {first second : State}
    (explains : Explains program config log start sink handled first)
    (step : Step program config log first second) :
    ∃ more, Explains program config log start sink more second := by
  rcases step with clean | fault
  · cases clean with
    | poll available => exact ⟨handled, { explains with committing := fun none => by cases none }⟩
    | succeed found applied => exact ⟨_, explains.handleNext (handleAt_of_ok found applied)⟩
    | skip found failed skipped =>
      exact ⟨_, explains.handleNext (handleAt_of_skip found failed skipped)⟩
    | retry found failed tried => exact ⟨handled, explains⟩
    | @commit sink committed position =>
      -- The position has been handled, and so has everything before it.
      have both : ∀ earlier, start ≤ earlier → earlier < position + 1 → earlier ∈ handled := by
        intro earlier reached below
        rcases Nat.lt_succ_iff_lt_or_eq.mp below with before | same
        · exact explains.positionBefore earlier reached before
        · exact same ▸ explains.committing rfl
      have reached : start ≤ position + 1 := Nat.le_succ_of_le explains.positionFrom
      exact ⟨handled, explains.order, explains.sinkAfter, reached, reached, both, both,
        fun none => by cases none⟩
  · cases fault with
    | statementLost => exact ⟨handled, explains⟩
    | answerLost found applied => exact ⟨_, explains.handleNext (handleAt_of_ok found applied)⟩
    | commitLost => exact ⟨handled, explains⟩
    | @commitAnswerLost sink committed position =>
      have both : ∀ earlier, start ≤ earlier → earlier < position + 1 → earlier ∈ handled := by
        intro earlier reached below
        rcases Nat.lt_succ_iff_lt_or_eq.mp below with before | same
        · exact explains.positionBefore earlier reached before
        · exact same ▸ explains.committing rfl
      exact ⟨handled, explains.order, explains.sinkAfter,
        Nat.le_succ_of_le explains.positionFrom, explains.positionFrom, both,
        explains.positionBefore, explains.committing⟩
    | crash =>
      exact ⟨handled, explains.order, explains.sinkAfter, explains.committedFrom,
        explains.committedFrom, explains.committedBefore, explains.committedBefore,
        fun none => by cases none⟩

/--
In every run the sink is what handling positions of the log makes of the first one.

No position is handled before those in front of it, and all that are committed have been.
-/
theorem run_explained {state : State} (ran : Relation.ReflTransGen (Step program config log)
    ⟨sink, start, start, .polling⟩ state) :
    ∃ handled, InOrder start handled ∧
      handled.foldlM (handleAt program config log) sink = some state.sink ∧
      ∀ earlier, start ≤ earlier → earlier < state.committed → earlier ∈ handled := by
  -- Every state that is reached is explained by what has been handled.
  have explained : ∃ handled, Explains program config log start sink handled state := by
    induction ran with
    | refl =>
      exact ⟨[], inOrder_nil, rfl, Nat.le_refl _, Nat.le_refl _,
        fun earlier reached below => absurd below (Nat.not_lt.mpr reached),
        fun earlier reached below => absurd below (Nat.not_lt.mpr reached),
        fun none => by cases none⟩
    | tail _ step ih =>
      obtain ⟨handled, explains⟩ := ih
      exact explains_step explains step
  obtain ⟨handled, explains⟩ := explained
  exact ⟨handled, explains.order, explains.sinkAfter, explains.committedBefore⟩

/-- A row that was inserted and not committed is handled once in the sink after a crash. -/
theorem run_explained_users : ∃ sink handled,
    effect usersConfig (usersSink [["id"]]) (SourceMessage.event (.insert (userRow 1 "a"))).value =
        .ok sink ∧
      InOrder 0 handled ∧
      handled.foldlM (handleAt .main usersConfig userLog) (usersSink [["id"]]) = some sink := by
  obtain ⟨sink, inserted⟩ := users_insert_succeeds
  -- The message is polled and handled, and the process dies in front of its commit.
  have polled : Step .main usersConfig userLog ⟨usersSink [["id"]], 0, 0, .polling⟩
      ⟨usersSink [["id"]], 0, 0, .processing⟩ := .inl (.poll (by decide))
  have taken : Step .main usersConfig userLog ⟨usersSink [["id"]], 0, 0, .processing⟩
      ⟨sink, 0, 0, .committing⟩ := .inl (.succeed rfl inserted)
  have crashed : Step .main usersConfig userLog ⟨sink, 0, 0, .committing⟩ ⟨sink, 0, 0, .polling⟩ :=
    .inr .crash
  obtain ⟨handled, order, after, -⟩ := run_explained (((Relation.ReflTransGen.single polled).tail
    taken).tail crashed)
  exact ⟨sink, handled, inserted, order, after⟩

/-- However often it may try, the loop around a message does what handling it does. -/
theorem retryLoop_eq_handle (program : Program) (config : Config) (sink : Database)
    (message : Option Change) (retries : Nat) :
    retryLoop program config sink message (retries + 1) = handle program config sink message := by
  -- A failed attempt changes nothing, so the next one fails as well.
  induction retries with
  | zero =>
    cases attempted : effect config sink message with
    | ok after => simp [retryLoop, handle, attempted]
    | error fault => simp [retryLoop, handle, attempted]
  | succ retries ih =>
    rw [retryLoop]
    cases attempted : effect config sink message with
    | ok after => simp [handle, attempted]
    | error fault =>
      dsimp only
      rw [ih]
      simp [handle, attempted]

/-- The loop over the messages handles them one after the other. -/
theorem consume_eq_handle (program : Program) (config : Config) (retries : Nat) (sink : Database)
    (messages : List (Option Change)) :
    consume program config (retries + 1) sink messages =
      messages.foldlM (handle program config) sink := by
  -- The rounds of both loops are the same.
  unfold consume
  congr 1
  funext before message
  exact retryLoop_eq_handle program config before message retries

/-- The messages between two positions of the log. -/
def between (log : List (Option Change)) (start next : Nat) : List (Option Change) :=
  (log.take next).drop start

/-- A further message comes behind those before it. -/
theorem between_succ {next : Nat} {message : Option Change} (reached : start ≤ next)
    (found : log[next]? = some message) :
    between log start (next + 1) = between log start next ++ [message] := by
  -- The part of the log ends in front of the message.
  have inside : start ≤ (log.take next).length := by
    rw [List.length_take_of_le (List.getElem?_eq_some_iff.mp found).1.le]
    exact reached
  rw [between, List.take_add_one, found, Option.toList_some, List.drop_append_of_le_length inside,
    between]

/-- What the program has done since the start when nothing went wrong around it. -/
def Smooth (program : Program) (config : Config) (log : List (Option Change)) (start : Nat)
    (sink : Database) (state : State) : Prop :=
  state.committed = state.position ∧ start ≤ state.position ∧
    match state.phase with
    | .committing => state.position < log.length ∧
      (between log start (state.position + 1)).foldlM (handle program config) sink =
        some state.sink
    | _ => state.position ≤ max start log.length ∧
      (between log start state.position).foldlM (handle program config) sink = some state.sink

/-- A message that has been handled comes behind those before it. -/
theorem foldlM_between_succ {next : Nat} {message : Option Change} {before after : Database}
    (reached : start ≤ next) (found : log[next]? = some message)
    (ran : (between log start next).foldlM (handle program config) sink = some before)
    (done : handle program config before message = some after) :
    (between log start (next + 1)).foldlM (handle program config) sink = some after := by
  -- The new message is the last one.
  rw [between_succ reached found, Schedule.foldlM_concat, ran]
  exact done

/-- Every step of the program keeps to the loop over the messages. -/
theorem smooth_step {first second : State} (smooth : Smooth program config log start sink first)
    (step : CleanStep program config log first second) :
    Smooth program config log start sink second := by
  -- Only a message that succeeds or is skipped makes the sink another one.
  cases step with
  | poll available => exact smooth
  | succeed found applied =>
    obtain ⟨same, reached, -, ran⟩ := smooth
    exact ⟨same, reached, (List.getElem?_eq_some_iff.mp found).1,
      foldlM_between_succ reached found ran (by simp [handle, applied])⟩
  | skip found failed skipped =>
    obtain ⟨same, reached, -, ran⟩ := smooth
    exact ⟨same, reached, (List.getElem?_eq_some_iff.mp found).1,
      foldlM_between_succ reached found ran (by simp [handle, failed, skipped])⟩
  | retry found failed tried => exact smooth
  | commit =>
    obtain ⟨-, reached, inside, ran⟩ := smooth
    exact ⟨rfl, Nat.le_succ_of_le reached, le_max_of_le_right inside, ran⟩

/-- The program gets past a message that it can handle. -/
theorem clean_handles {before after : Database} {next : Nat} {message : Option Change}
    (found : log[next]? = some message) (done : handle program config before message = some after) :
    Relation.ReflTransGen (CleanStep program config log) ⟨before, next, next, .polling⟩
      ⟨after, next + 1, next + 1, .polling⟩ := by
  have polled : CleanStep program config log ⟨before, next, next, .polling⟩
      ⟨before, next, next, .processing⟩ := .poll (List.getElem?_eq_some_iff.mp found).1
  -- The only attempt takes effect, or its fault is passed over.
  have handled : CleanStep program config log ⟨before, next, next, .processing⟩
      ⟨after, next, next, .committing⟩ := by
    unfold handle at done
    split at done
    · next applied => exact .succeed found (by rw [applied, Option.some.inj done])
    · next fault failed =>
      split_ifs at done with skipped
      exact Option.some.inj done ▸ .skip found failed skipped
  exact ((Relation.ReflTransGen.single polled).tail handled).tail .commit

/--
Without faults around it the program runs the loop over the messages of the log.

It gets to an offset with a sink exactly when the loop makes that sink of the messages before it.
-/
theorem clean_run_iff (program : Program) (config : Config) (log : List (Option Change))
    (start next retries : Nat) (sink after : Database) :
    Relation.ReflTransGen (CleanStep program config log) ⟨sink, start, start, .polling⟩
        ⟨after, next, next, .polling⟩ ↔
      start ≤ next ∧ next ≤ max start log.length ∧
        consume program config (retries + 1) sink (between log start next) = some after := by
  rw [consume_eq_handle]
  constructor
  · intro ran
    -- Every step keeps what the program has done to the messages it is past.
    have smooth : Smooth program config log start sink ⟨after, next, next, .polling⟩ := by
      generalize (⟨after, next, next, .polling⟩ : State) = state at ran
      induction ran with
      | refl => exact ⟨rfl, Nat.le_refl _, le_max_left _ _, by simp [between]⟩
      | tail _ step ih => exact smooth_step ih step
    exact smooth.2
  · intro looped
    obtain ⟨reached, inside, ran⟩ := looped
    -- By induction on the offset: the last message is handled behind the others.
    induction next, reached using Nat.le_induction generalizing after with
    | base =>
      have unchanged : sink = after := by simpa [between] using ran
      rw [unchanged]
    | succ next reached ih =>
      have there : next < log.length := by
        rcases le_max_iff.mp inside with before | available
        · exact absurd reached (Nat.not_le.mpr before)
        · exact available
      have found : log[next]? = some log[next] := List.getElem?_eq_getElem there
      rw [between_succ reached found, Schedule.foldlM_concat] at ran
      obtain ⟨before, earlier, last⟩ := Option.bind_eq_some_iff.mp ran
      exact (ih before (Nat.le_of_succ_le inside) earlier).trans (clean_handles found last)

/-- The messages that stay when those that violate a unique constraint are left out. -/
def settledMessages (config : Config) : Database → List (Option Change) → List (Option Change)
  | _, [] => []
  | sink, message :: messages =>
    match effect config sink message with
    | .ok after => message :: settledMessages config after messages
    | .error fault =>
      if Program.avroMain.skips fault then settledMessages config sink messages
      else message :: messages

/-- The messages that stay are messages of the log in their order. -/
theorem settledMessages_sublist (config : Config) (sink : Database)
    (messages : List (Option Change)) :
    (settledMessages config sink messages).Sublist messages := by
  -- The induction is on the messages, each in the sink that those before it make.
  induction messages generalizing sink with
  | nil => exact List.Sublist.refl _
  | cons message messages ih =>
    unfold settledMessages
    split
    · next after _ => exact (ih after).cons_cons message
    · split_ifs
      · exact (ih sink).cons message
      · exact List.Sublist.refl _

/-- The Avro program does to the sink what the other one does on the messages it does not skip. -/
theorem consume_settledMessages (config : Config) (retries : Nat) (sink : Database)
    (messages : List (Option Change)) :
    consume .avroMain config (retries + 1) sink messages =
      consume .main config (retries + 1) sink (settledMessages config sink messages) := by
  simp only [consume_eq_handle]
  -- By induction on the messages: the two only differ in the fault that is passed over.
  induction messages generalizing sink with
  | nil => rfl
  | cons message messages ih =>
    cases attempted : effect config sink message with
    | ok after =>
      simp [settledMessages, attempted, handle, ih]
    | error fault =>
      cases fault <;> simp [settledMessages, attempted, handle, Program.skips, ih]

/-- On messages that the plain program gets through, the Avro program does the same. -/
theorem settledMessages_of_consumed {config : Config} {retries : Nat} {sink after : Database}
    {messages : List (Option Change)}
    (ended : consume .main config (retries + 1) sink messages = some after) :
    settledMessages config sink messages = messages := by
  -- A message that the plain program gets past has succeeded.
  rw [consume_eq_handle] at ended
  induction messages generalizing sink with
  | nil => rfl
  | cons message messages ih =>
    obtain ⟨next, handled, rest⟩ := Option.bind_eq_some_iff.mp ended
    cases attempted : effect config sink message with
    | ok result =>
      simp only [handle, attempted, Option.some.injEq] at handled
      subst handled
      simp [settledMessages, attempted, ih rest]
    | error fault => simp [handle, attempted, Program.skips] at handled

/--
The Avro program is the plain one on a part of the messages, in their order.

It leaves out nothing when the plain program gets through all of them.
-/
theorem consume_avro_eq_main (config : Config) (retries : Nat) (sink : Database)
    (messages : List (Option Change)) :
    (settledMessages config sink messages).Sublist messages ∧
      consume .avroMain config (retries + 1) sink messages =
        consume .main config (retries + 1) sink (settledMessages config sink messages) ∧
      ∀ after, consume .main config (retries + 1) sink messages = some after →
        settledMessages config sink messages = messages ∧
          consume .avroMain config (retries + 1) sink messages = some after := by
  refine ⟨settledMessages_sublist config sink messages,
    consume_settledMessages config retries sink messages, fun after ended => ?_⟩
  -- Where nothing is skipped the two programs see the same messages.
  have whole := settledMessages_of_consumed ended
  exact ⟨whole, by rw [consume_settledMessages, whole, ended]⟩

end AivenExamples.PgSync
