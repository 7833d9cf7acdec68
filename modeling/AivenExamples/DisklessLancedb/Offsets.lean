import AivenExamples.DisklessLancedb.Consumer

/-! When the committed offsets stay behind what is in the table. -/

namespace AivenExamples.DisklessLancedb

variable {encoding : Encoding} {batchSize : Int} {topic : Topic}

/-- The message is in the table. -/
def Stored (table : List Row) (message : Message) : Prop :=
  ∃ row ∈ table, row.kafkaPartition = message.partition ∧ row.kafkaOffset = message.offset

/-- No committed offset is beyond a message that is not in the table. -/
def Safe (topic : Topic) (state : State) : Prop :=
  ∀ partition, ∀ message ∈ topic.messages partition, ¬ Stored state.table message →
    state.committed partition ≤ message.offset

/-- What the process has taken from the consumer and still has in memory. -/
def State.unwritten (state : State) : List Message := state.batch ++ state.current.toList

/-- Everything that the process has taken from the consumer is in the table. -/
def Settled (state : State) : Prop := ∀ message ∈ state.unwritten, Stored state.table message

/--
What holds in a run whose commits are settled.

A message that the process has passed is in the table or still in memory.
-/
structure Intact (topic : Topic) (state : State) : Prop where
  safe : Safe topic state
  -- What lies below a position has been taken from the consumer.
  covered : state.phase ≠ .stopped → ∀ partition, ∀ message ∈ topic.messages partition,
    message.offset < state.position partition → Stored state.table message ∨
      message ∈ state.unwritten
  -- What is in memory was taken from the topic.
  yielded : ∀ message ∈ state.unwritten, message ∈ topic.messages message.partition ∧
    message.offset < state.position message.partition
  idle : state.phase ∈ [.stopped, .polling, .storing, .added] → state.current = none
  written : state.phase = .added → ∀ message ∈ state.batch, Stored state.table message

/-- Nothing is lost before the first start. -/
theorem intact_initial : Intact topic initial where
  safe := fun _ _ _ _ => Nat.zero_le _
  covered := fun running => absurd rfl running
  yielded := by simp [State.unwritten, initial]
  idle := fun _ => rfl
  written := by simp [initial]

/-- More rows keep what is stored. -/
theorem Stored.append {table : List Row} {message : Message} (stored : Stored table message)
    (rows : List Row) : Stored (table ++ rows) message := by
  obtain ⟨row, member, same⟩ := stored
  exact ⟨row, List.mem_append_left _ member, same⟩

/-- A prepared record belongs to its message. -/
theorem prepareRecord_eq_ok {message : Message} {row : Row}
    (prepared : prepareRecord encoding message = .ok row) :
    row.kafkaPartition = message.partition ∧ row.kafkaOffset = message.offset := by
  -- Partition and offset are copied, whatever the other fields are made of.
  obtain ⟨_, _, afterId⟩ := bind_eq_ok.mp prepared
  obtain ⟨_, _, afterTimestamp⟩ := bind_eq_ok.mp afterId
  obtain ⟨_, _, afterText⟩ := bind_eq_ok.mp afterTimestamp
  obtain ⟨_, _, value⟩ := bind_eq_ok.mp afterText
  cases value
  exact ⟨rfl, rfl⟩

/-- A successful write stores every message of the batch. -/
theorem stored_of_addedRows {batch : List Message} {succeeds : Bool} {rows : List Row}
    (added : addedRows encoding batch succeeds = some rows) (table : List Row) :
    ∀ message ∈ batch, Stored (table ++ rows) message := by
  -- All rows of the batch are added together, one for each message.
  intro message member
  cases prepared : prepareLancedbData encoding batch with
  | error fault => simp [addedRows, prepared] at added
  | ok all =>
    simp only [addedRows, prepared, Option.ite_none_right_eq_some, Option.some.injEq] at added
    obtain ⟨row, there, same⟩ := exists_mem_of_mapM prepared member
    exact ⟨row, List.mem_append_right _ (added.2 ▸ there), prepareRecord_eq_ok same⟩

/-- The next message of a partition is the only one between the position and its own offset. -/
theorem nextMessage_eq_some {position : Nat → Nat} {partition : Nat} {message : Message}
    (found : nextMessage topic position partition = some message) :
    message ∈ topic.messages partition ∧ position partition ≤ message.offset ∧
      ∀ other ∈ topic.messages partition, other.offset < message.offset + 1 →
        other.offset < position partition ∨ other = message := by
  obtain ⟨reached, before, after, split, skipped⟩ := List.find?_eq_some_iff_append.mp found
  refine ⟨by simp [split], by simpa using reached, fun other member near => ?_⟩
  rw [split, List.mem_append, List.mem_cons] at member
  rcases member with earlier | same | later
  · exact .inl (by simpa using skipped other earlier)
  · exact .inr same
  · -- The offsets grow along the partition.
    have ordered := topic.ordered partition
    rw [split] at ordered
    have grows := (List.pairwise_cons.mp (List.pairwise_append.mp ordered).2.1).1 other later
    omega

/-- A step that neither commits nor forgets anything keeps the state intact. -/
theorem Intact.keep {state next : State} (intact : Intact topic state) (rows : List Row)
    (committed : next.committed = state.committed) (position : next.position = state.position)
    (unwritten : next.unwritten = state.unwritten) (table : next.table = state.table ++ rows)
    (running : state.phase ≠ .stopped)
    (idle : next.phase ∈ [.stopped, .polling, .storing, .added] → next.current = none)
    (written : next.phase = .added → ∀ message ∈ next.batch, Stored next.table message) :
    Intact topic next where
  safe := by
    -- The offsets committed are the same, and no row has gone.
    intro partition message member missing
    rw [committed]
    rw [table] at missing
    exact intact.safe partition message member fun stored => missing (stored.append rows)
  covered := by
    -- What was read before is stored or in memory as it was.
    intro _ partition message member passed
    rw [position] at passed
    rw [table, unwritten]
    exact (intact.covered running partition message member passed).imp_left (·.append rows)
  yielded := by
    rw [unwritten, position]
    exact intact.yielded
  idle := idle
  written := written

/-- Starting reads on behind the committed offsets, where everything before is stored. -/
theorem intact_start {state next : State} (intact : Intact topic state)
    (stepped : step encoding batchSize topic state .start = some next) : Intact topic next := by
  obtain ⟨_, same⟩ := step_start.mp stepped
  subst same
  refine ⟨intact.safe, fun _ partition message member passed => .inl ?_, by simp [State.unwritten],
    fun _ => rfl, by simp⟩
  -- A message that is not stored is not before the committed offset.
  by_contra missing
  have behind := intact.safe partition message member missing
  exact absurd passed (Nat.not_lt.mpr behind)

/-- A delivered message is in memory. -/
theorem intact_deliver {state next : State} {partition : Nat} (intact : Intact topic state)
    (stepped : step encoding batchSize topic state (.deliver partition) = some next) :
    Intact topic next := by
  obtain ⟨polling, message, found, same⟩ := step_deliver.mp stepped
  subst same
  obtain ⟨member, reached, between⟩ := nextMessage_eq_some found
  have noCurrent := intact.idle (by simp [polling])
  have taken : state.batch ++ [message] = state.unwritten ++ [message] := by
    simp [State.unwritten, noCurrent]
  -- No offset is committed, and one partition is read further by one message.
  refine ⟨intact.safe, ?_, ?_, by simp, by simp⟩
  · intro _ other otherMessage otherMember passed
    change otherMessage.offset <
      Function.update state.position partition (message.offset + 1) other at passed
    show _ ∨ otherMessage ∈ state.batch ++ [message]
    rw [taken, List.mem_append, List.mem_singleton]
    have old := intact.covered (by simp [polling]) other otherMessage otherMember
    by_cases here : other = partition
    · -- Either the message was passed before, or it is the one that is delivered.
      subst here
      rw [Function.update_self] at passed
      rcases between otherMessage otherMember passed with before | same
      · exact (old before).imp_right .inl
      · exact .inr (.inr same)
    · rw [Function.update_of_ne here] at passed
      exact (old passed).imp_right .inl
  · show ∀ other ∈ state.batch ++ [message], other ∈ topic.messages other.partition ∧
      other.offset < Function.update state.position partition (message.offset + 1) other.partition
    rw [taken]
    intro other otherMember
    have located := topic.located partition message member
    rcases List.mem_append.mp otherMember with old | new
    · obtain ⟨known, passed⟩ := intact.yielded other old
      refine ⟨known, ?_⟩
      by_cases here : other.partition = partition
      · rw [here] at passed ⊢
        rw [Function.update_self]
        omega
      · rwa [Function.update_of_ne here]
    · rw [List.mem_singleton] at new
      subst new
      rw [located, Function.update_self]
      exact ⟨member, Nat.lt_succ_self _⟩

/-- A message moves from the loop variable into the batch. -/
theorem intact_append {state next : State} (intact : Intact topic state)
    (stepped : step encoding batchSize topic state .append = some next) : Intact topic next := by
  -- In memory are the same messages as before.
  obtain ⟨received, message, current, same⟩ := step_append.mp stepped
  subst same
  exact intact.keep [] rfl rfl (by simp [State.unwritten, current]) (by simp)
    (by simp [received]) (by simp) (by simp)

/-- A batch is added as a whole or kept. -/
theorem intact_store {state next : State} {succeeds : Bool} (intact : Intact topic state)
    (stepped : step encoding batchSize topic state (.store succeeds) = some next) :
    Intact topic next := by
  -- The rows are those of the whole batch, or nothing has changed.
  obtain ⟨storing, either⟩ := step_store.mp stepped
  have noCurrent := intact.idle (by simp [storing])
  rcases either with ⟨-, rows, added, same⟩ | ⟨-, same⟩
  · subst same
    exact intact.keep rows rfl rfl rfl rfl (by simp [storing]) (fun _ => noCurrent)
      fun _ => stored_of_addedRows added state.table
  · subst same
    exact intact.keep [] rfl rfl rfl (by simp) (by simp [storing]) (fun _ => noCurrent) (by simp)

/-- The batch is emptied when all of it is stored. -/
theorem intact_reset {state next : State} (intact : Intact topic state)
    (stepped : step encoding batchSize topic state .reset = some next) : Intact topic next := by
  obtain ⟨added, same⟩ := step_reset.mp stepped
  subst same
  have noCurrent := intact.idle (by simp [added])
  refine ⟨intact.safe, fun _ partition message member passed => .inl ?_,
    by simp [State.unwritten, noCurrent], fun _ => noCurrent, by simp⟩
  -- Everything that was in memory is in the table by now.
  rcases intact.covered (by simp [added]) partition message member passed with stored | pending
  · exact stored
  · exact intact.written added message (by simpa [State.unwritten, noCurrent] using pending)

/-- Leaving the loop keeps what is in memory. -/
theorem intact_interrupt {state next : State} (intact : Intact topic state)
    (stepped : step encoding batchSize topic state .interrupt = some next) :
    Intact topic next := by
  obtain ⟨running, same⟩ := step_interrupt.mp stepped
  subst same
  -- A process that is stopped cannot be interrupted.
  have alive : state.phase ≠ .stopped := by
    intro halted
    simp [halted] at running
  exact intact.keep [] rfl rfl rfl (by simp) alive (by simp) (by simp)

/-- The remaining messages are written or stay in memory. -/
theorem intact_flush {state next : State} {succeeds : Bool} (intact : Intact topic state)
    (stepped : step encoding batchSize topic state (.flush succeeds) = some next) :
    Intact topic next := by
  -- Whether the rows are added or not, the batch stays in memory.
  obtain ⟨finishing, same⟩ := step_flush.mp stepped
  subst same
  exact intact.keep _ rfl rfl rfl rfl (by simp [finishing]) (by simp) (by simp)

/-- A process that is gone has nothing in memory, and what it has not written is read again. -/
theorem Intact.halt {state : State} (intact : Intact topic state) : Intact topic state.halt where
  safe := intact.safe
  covered := fun running => absurd rfl running
  yielded := by simp [State.unwritten, State.halt]
  idle := fun _ => rfl
  written := by simp [State.halt]

/-- A step without a commit keeps the state intact. -/
theorem intact_step {state next : State} {action : Action} (intact : Intact topic state)
    (stepped : step encoding batchSize topic state action = some next)
    (quiet : action.commits = false) : Intact topic next := by
  -- Each kind of step has a lemma of its own, and the two that commit are left out.
  cases action with
  | start => exact intact_start intact stepped
  | deliver partition => exact intact_deliver intact stepped
  | append => exact intact_append intact stepped
  | store succeeds => exact intact_store intact stepped
  | reset => exact intact_reset intact stepped
  | interrupt => exact intact_interrupt intact stepped
  | flush succeeds => exact intact_flush intact stepped
  | crash => exact (step_crash.mp stepped).2 ▸ intact.halt
  | autoCommit => cases quiet
  | close => cases quiet

/-- A commit is safe exactly when nothing that was taken from the consumer is missing. -/
theorem safe_commit_iff {state : State} (intact : Intact topic state)
    (running : state.phase ≠ .stopped) : Safe topic state.commit ↔ Settled state := by
  constructor
  · -- The positions are beyond everything that was taken.
    intro safe message pending
    by_contra missing
    obtain ⟨member, passed⟩ := intact.yielded message pending
    have behind := safe message.partition message member missing
    exact absurd passed (Nat.not_lt.mpr behind)
  · -- A message below the position is stored or in memory, and memory is settled.
    intro settled partition message member missing
    by_contra beyond
    rcases intact.covered running partition message member (Nat.lt_of_not_le beyond) with
      stored | pending
    · exact missing stored
    · exact missing (settled message pending)

/-- A settled commit keeps the state intact. -/
theorem Intact.commit {state : State} (intact : Intact topic state)
    (running : state.phase ≠ .stopped) (settled : Settled state) : Intact topic state.commit where
  -- The commit only moves the committed offsets.
  safe := (safe_commit_iff intact running).mpr settled
  covered := intact.covered
  yielded := intact.yielded
  idle := intact.idle
  written := intact.written

/-- A step with a commit is safe exactly when it is settled, and then keeps the state intact. -/
theorem commit_step {state next : State} {action : Action} (intact : Intact topic state)
    (stepped : step encoding batchSize topic state action = some next)
    (committing : action.commits = true) :
    (Safe topic next ↔ Settled state) ∧ (Settled state → Intact topic next) := by
  cases action with
  | autoCommit =>
    obtain ⟨running, same⟩ := step_autoCommit.mp stepped
    subst same
    exact ⟨safe_commit_iff intact running, intact.commit running⟩
  | close =>
    obtain ⟨closing, same⟩ := step_close.mp stepped
    subst same
    have running : state.phase ≠ .stopped := by simp [closing]
    -- The process goes away, which leaves offsets and table alone.
    have safeIff : Safe topic state.commit ↔ Settled state := safe_commit_iff intact running
    exact ⟨safeIff, fun settled => (intact.commit running settled).halt⟩
  | _ => cases committing

/-- A run begins with the state that it starts from. -/
theorem visited_head {state : State} {actions : List Action} :
    state ∈ visited encoding batchSize topic state actions := by
  -- The state is visited before the first action is tried.
  cases actions with
  | nil => simp [visited]
  | cons action actions =>
    cases stepped : step encoding batchSize topic state action <;> simp [visited, stepped]

/-- From an intact state on, a run stays safe exactly when its commits are settled. -/
theorem visited_safe_iff {state : State} (intact : Intact topic state) (actions : List Action) :
    (∀ reached ∈ visited encoding batchSize topic state actions, Safe topic reached) ↔
      ∀ before ∈ commitPoints encoding batchSize topic state actions, Settled before := by
  -- The induction follows the actions, and the state is intact up to the first unsettled commit.
  induction actions generalizing state with
  | nil => simpa [visited, commitPoints] using intact.safe
  | cons action actions ih =>
    cases stepped : step encoding batchSize topic state action with
    | none => simpa [visited, commitPoints, stepped] using intact.safe
    | some next =>
      simp only [visited, commitPoints, stepped, List.forall_mem_cons]
      rw [and_iff_right intact.safe]
      cases committing : action.commits with
      | false =>
        simpa using ih (intact_step intact stepped committing)
      | true =>
        obtain ⟨safeIff, intactAfter⟩ := commit_step intact stepped committing
        simp only [if_true, List.singleton_append, List.forall_mem_cons]
        constructor
        · -- The state behind the commit is one of those that are visited.
          intro safe
          have settled := safeIff.mp (safe next visited_head)
          exact ⟨settled, (ih (intactAfter settled)).mp safe⟩
        · intro settledAll
          obtain ⟨settled, later⟩ := settledAll
          exact (ih (intactAfter settled)).mpr later

/--
No message is lost in a run exactly when every commit is settled.

Offsets are committed in the background and on closing the consumer, and what the process has taken
from the consumer by then has to be in the table.
-/
theorem noLoss_iff (encoding : Encoding) (batchSize : Int) (topic : Topic)
    (actions : List Action) :
    (∀ reached ∈ visited encoding batchSize topic initial actions, Safe topic reached) ↔
      ∀ before ∈ commitPoints encoding batchSize topic initial actions, Settled before :=
  visited_safe_iff intact_initial actions

/-- A message of the first partition. -/
def greeting : Message := ⟨0, 0, none, .obj [("id", .num 1), ("message", .str "hello")]⟩

/-- A topic with one message. -/
def oneMessage : Topic where
  messages := fun partition => if partition = 0 then [greeting] else []
  ordered := by
    intro partition
    split <;> simp
  located := by
    intro partition message member
    split at member
    · rename_i first
      rw [List.mem_singleton.mp member, first]
      rfl
    · cases member

/-- An encoding that tells nothing apart. -/
def plainEncoding : Encoding := ⟨fun _ => .replicate 32 0, fun _ => "", fun _ => 0, "", 0⟩

/-- A message is read into a batch that is not full, its offset committed, and the process gone. -/
def crashAfterCommit : List Action :=
  [.start, .deliver 0, .append, .store true, .autoCommit, .crash, .start]

/-- The committed offset is beyond the message, which is in no table and never read again. -/
theorem noLoss_counterexample :
    ¬ ∀ reached ∈ visited plainEncoding 100 oneMessage initial crashAfterCommit,
      Safe oneMessage reached := by
  -- The last state has committed the offset behind a message that is in no table.
  intro safe
  have last := safe _ (List.getLast_mem (List.ne_nil_of_mem visited_head)) 0 greeting
    List.mem_cons_self
  have empty : ¬ Stored ((visited plainEncoding 100 oneMessage initial crashAfterCommit).getLast
      (List.ne_nil_of_mem visited_head)).table greeting := by
    intro inTable
    obtain ⟨row, member, _⟩ := inTable
    cases member
  exact absurd (last empty) (by decide)

end AivenExamples.DisklessLancedb
