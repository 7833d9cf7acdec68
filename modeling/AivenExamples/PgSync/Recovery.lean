import AivenExamples.PgSync.Delivery
import AivenExamples.PgSync.Redelivery

/-! Lost statements, lost commits and crashes around the program that skips violated constraints. -/

namespace AivenExamples.PgSync

variable {config : Config} {r : Replication config}

/-- The messages of a history, in the order of their one partition. -/
def topic (history : List (SourceChange r)) : List (SourceMessage r) :=
  history.flatMap SourceMessage.ofChange

/-- The decoded values of the messages of a history. -/
def topicValues (history : List (SourceChange r)) : List (Option Change) :=
  (topic history).map SourceMessage.value

/-- The rows of the source after the first messages of its history. -/
def sourceAfter (history : List (SourceChange r)) (count : Nat) : List (FullImage r) :=
  RowChange.replay FullImage.rowKey [] (SourceMessage.changes ((topic history).take count))

/-- A sink with the changes of the first messages, each applied once and in order. -/
def Reflects (history : List (SourceChange r)) (sink : Database) (count : Nat) : Prop :=
  Mirrors [r.identifier] sink (sourceAfter history count)

/-- The sink and the offsets fit each other, with at most one message not yet committed. -/
def Consistent (history : List (SourceChange r)) : State → Prop
  | ⟨sink, committed, position, .committing⟩ => Reflects history sink (position + 1) ∧
      (committed = position ∨ committed = position + 1)
  | ⟨sink, committed, position, _⟩ => position = committed ∧
      (Reflects history sink committed ∨ Reflects history sink (committed + 1))

section Message

variable {history : List (SourceChange r)} {position : Nat}

/-- A message at a position of the log is the value of a message of the topic. -/
theorem topicValues_found {message : Option Change}
    (found : (topicValues history)[position]? = some message) :
    ∃ item, (topic history)[position]? = some item ∧ item.value = message := by
  rwa [topicValues, List.getElem?_map, Option.map_eq_some_iff] at found

/-- The changes up to a position and the one at it. -/
theorem changes_take_succ {item : SourceMessage r}
    (found : (topic history)[position]? = some item) :
    SourceMessage.changes ((topic history).take (position + 1)) =
      SourceMessage.changes ((topic history).take position) ++ SourceMessage.changes [item] := by
  -- The message at the position is the one that is added.
  rw [List.take_add_one, found, SourceMessage.changes, List.filterMap_append]
  rfl

/-- An event is applied to the rows before it. -/
theorem sourceAfter_event {change : SourceChange r}
    (found : (topic history)[position]? = some (.event change)) :
    sourceAfter history (position + 1) =
      change.apply FullImage.rowKey (sourceAfter history position) := by
  -- The changes up to the next position are those up to this one and the event.
  rw [sourceAfter, changes_take_succ found, RowChange.replay_append]
  rfl

/-- A tombstone leaves the rows before it. -/
theorem sourceAfter_tombstone {before : FullImage r}
    (found : (topic history)[position]? = some (.tombstone before)) :
    sourceAfter history (position + 1) = sourceAfter history position := by
  rw [sourceAfter, changes_take_succ found, RowChange.replay_append]
  rfl

/-- The changes of the topic are those of the history. -/
theorem changes_take_drop (history : List (SourceChange r)) (count : Nat) :
    SourceMessage.changes ((topic history).take count) ++
      SourceMessage.changes ((topic history).drop count) = history := by
  -- The first messages and the others make up the topic.
  rw [SourceMessage.changes, SourceMessage.changes, ← List.filterMap_append,
    List.take_append_drop]
  exact SourceMessage.changes_flatMap history

/-- The rows after some messages are images of the history. -/
theorem sourceAfter_known {count : Nat} {row : FullImage r}
    (member : row ∈ sourceAfter history count) : row ∈ history.flatMap RowChange.images := by
  -- The table is empty at first, so every row stems from a change.
  rcases RowChange.mem_replay member with nothing | image
  · cases nothing
  · rw [← changes_take_drop history count, List.flatMap_append]
    exact List.mem_append_left _ image

/-- An event at a position is a change of the history that follows the ones before it. -/
theorem changes_drop {change : SourceChange r}
    (found : (topic history)[position]? = some (.event change)) :
    ∃ rest, SourceMessage.changes ((topic history).drop position) = change :: rest := by
  -- The event is the first of what is left at its position.
  obtain ⟨available, same⟩ := List.getElem?_eq_some_iff.mp found
  rw [List.drop_eq_getElem_cons available, same]
  exact ⟨_, rfl⟩

/-- The rows before an event allow its change, with the keys of all rows apart. -/
theorem event_allowed (legal : RowChange.LegalRun FullImage.rowKey [] history)
    (apart : KeysApart (history.flatMap RowChange.images)) {change : SourceChange r}
    (found : (topic history)[position]? = some (.event change)) :
    ((sourceAfter history position).map FullImage.rowKey).Nodup ∧
      change.Legal FullImage.rowKey (sourceAfter history position) ∧
      ∀ count, KeysApart (change.images ++ sourceAfter history count) := by
  obtain ⟨rest, drop⟩ := changes_drop found
  -- The history is what comes before the event, the event and the rest.
  have parts := changes_take_drop history position
  rw [drop] at parts
  rw [← parts, RowChange.legalRun_append] at legal
  refine ⟨RowChange.distinct_replay (by simp) legal.1, legal.2.1, fun count => ?_⟩
  refine apart.mono fun row member => ?_
  rcases List.mem_append.mp member with image | there
  · rw [← parts, List.flatMap_append]
    exact List.mem_append_right _ (List.mem_append_left _ image)
  · exact sourceAfter_known there

/-- A message that is processed for the first time takes effect. -/
theorem effect_first (legal : RowChange.LegalRun FullImage.rowKey [] history)
    (apart : KeysApart (history.flatMap RowChange.images)) {item : SourceMessage r}
    (found : (topic history)[position]? = some item) {sink : Database}
    (reflects : Reflects history sink position) :
    ∃ after, effect config sink item.value = .ok after ∧
      Reflects history after (position + 1) := by
  cases item with
  -- A legal change takes effect, since the key is the only constraint.
  | event change =>
    obtain ⟨distinct, allowed, keysApart⟩ := event_allowed legal apart found
    obtain ⟨after, applied⟩ := effect_succeeds reflects (by simp) distinct allowed
      (keysApart position)
    refine ⟨after, applied, ?_⟩
    rw [Reflects, sourceAfter_event found]
    exact mirrors_effect reflects (keysApart position).subject applied
  -- A tombstone leaves both sides as they are.
  | tombstone before =>
    refine ⟨sink, rfl, ?_⟩
    rwa [Reflects, sourceAfter_tombstone found]

/-- A message that takes effect again changes nothing. -/
theorem effect_repeated (legal : RowChange.LegalRun FullImage.rowKey [] history)
    (apart : KeysApart (history.flatMap RowChange.images)) {item : SourceMessage r}
    (found : (topic history)[position]? = some item) {sink after : Database}
    (reflects : Reflects history sink (position + 1))
    (applied : effect config sink item.value = .ok after) :
    Reflects history after (position + 1) := by
  cases item with
  | event change =>
    obtain ⟨_, _, keysApart⟩ := event_allowed legal apart found
    have changed := mirrors_effect reflects (keysApart _).subject applied
    rw [sourceAfter_event found] at changed
    rw [Reflects, sourceAfter_event found]
    cases change with
    | insert inserted =>
      -- The row is in the sink already, so that it cannot be inserted.
      obtain ⟨table, there, covered, uniques, rows⟩ := reflects
      have present : inserted.sinkRow ∈ table.rows := by
        rw [rows.mem_iff, sourceAfter_event found]
        simp [RowChange.apply]
      have failed := insert_conflict there covered (by simp [uniques])
        ⟨inserted.sinkRow, present, fun _ _ => rfl⟩
      rw [failed] at applied
      cases applied
    -- Changing the rows once more changes nothing.
    | update before updated => rwa [RowChange.apply_again (by simp)] at changed
    | delete before => rwa [RowChange.apply_again (by simp)] at changed
  | tombstone before =>
    cases applied
    exact reflects

/-- What a message that takes effect leaves, whether or not it had taken effect before. -/
theorem effect_reflects (legal : RowChange.LegalRun FullImage.rowKey [] history)
    (apart : KeysApart (history.flatMap RowChange.images)) {message : Option Change}
    (found : (topicValues history)[position]? = some message) {sink after : Database}
    (reflects : Reflects history sink position ∨ Reflects history sink (position + 1))
    (applied : effect config sink message = .ok after) : Reflects history after (position + 1) := by
  obtain ⟨item, there, rfl⟩ := topicValues_found found
  -- The message takes effect for the first time or again.
  rcases reflects with first | again
  · obtain ⟨result, succeeds, changed⟩ := effect_first legal apart there first
    rw [applied, Except.ok.injEq] at succeeds
    rwa [succeeds]
  · exact effect_repeated legal apart there again applied

/-- A message that cannot take effect has taken effect before. -/
theorem reflects_of_failed (legal : RowChange.LegalRun FullImage.rowKey [] history)
    (apart : KeysApart (history.flatMap RowChange.images)) {message : Option Change}
    (found : (topicValues history)[position]? = some message) {sink : Database} {fault : Fault}
    (reflects : Reflects history sink position ∨ Reflects history sink (position + 1))
    (failed : effect config sink message = .error fault) :
    Reflects history sink (position + 1) := by
  obtain ⟨item, there, rfl⟩ := topicValues_found found
  -- The first time it would have taken effect.
  rcases reflects with first | again
  · obtain ⟨result, succeeds, _⟩ := effect_first legal apart there first
    rw [failed] at succeeds
    cases succeeds
  · exact again

/-- A step of the program or of its surroundings keeps the sink and the offsets consistent. -/
theorem consistent_step (legal : RowChange.LegalRun FullImage.rowKey [] history)
    (apart : KeysApart (history.flatMap RowChange.images)) {first second : State}
    (consistent : Consistent history first)
    (step : Step .avroMain config (topicValues history) first second) :
    Consistent history second := by
  rcases step with clean | fault
  · cases clean with
    | poll available => exact consistent
    | succeed found applied =>
      obtain ⟨rfl, reflects⟩ := consistent
      exact ⟨effect_reflects legal apart found reflects applied, Or.inl rfl⟩
    -- What is skipped has failed, and so was there already.
    | skip found failed skipped =>
      obtain ⟨rfl, reflects⟩ := consistent
      exact ⟨reflects_of_failed legal apart found reflects failed, Or.inl rfl⟩
    | retry found failed tried => exact consistent
    -- The committed offset catches up with the position.
    | commit => exact ⟨rfl, Or.inl consistent.1⟩
  · cases fault with
    | statementLost => exact consistent
    -- The sink is one message ahead of the committed offset.
    | answerLost found applied =>
      obtain ⟨rfl, reflects⟩ := consistent
      exact ⟨rfl, Or.inr (effect_reflects legal apart found reflects applied)⟩
    | commitLost => exact consistent
    | commitAnswerLost => exact ⟨consistent.1, Or.inr rfl⟩
    -- The position falls back to the committed offset, whatever the phase was.
    | @crash sink committed position phase =>
      cases phase with
      | polling => exact ⟨rfl, consistent.1 ▸ consistent.2⟩
      | processing => exact ⟨rfl, consistent.1 ▸ consistent.2⟩
      | committing =>
        obtain ⟨reflects, rfl | rfl⟩ := consistent
        · exact ⟨rfl, Or.inr reflects⟩
        · exact ⟨rfl, Or.inl reflects⟩

end Message

/--
In every run from an empty sink, the sink has the committed messages, or these and the next one.

Statements may fail before or after they take effect, commits may fail, and the program may crash.
-/
theorem committed_reflected {history : List (SourceChange r)}
    (legal : RowChange.LegalRun FullImage.rowKey [] history)
    (apart : KeysApart (history.flatMap RowChange.images)) {sink : Database}
    (empty : Mirrors [r.identifier] sink ([] : List (FullImage r))) {state : State}
    (run : Relation.ReflTransGen (Step .avroMain config (topicValues history))
      ⟨sink, 0, 0, .polling⟩ state) :
    Reflects history state.sink state.committed ∨
      Reflects history state.sink (state.committed + 1) := by
  -- The invariant holds in the beginning and is kept by every step.
  have consistent : Consistent history state := by
    induction run with
    | refl => exact ⟨rfl, Or.inl empty⟩
    | tail _ step ih => exact consistent_step legal apart ih step
  obtain ⟨stateSink, committed, position, phase⟩ := state
  cases phase with
  | polling => exact consistent.2
  | processing => exact consistent.2
  -- The sink has the message that is being committed, recorded or not.
  | committing =>
    obtain ⟨reflects, same | same⟩ := consistent
    · exact Or.inr (same ▸ reflects)
    · exact Or.inl (same ▸ reflects)

/-- A user who is inserted and then updated. -/
def userChanges : List (SourceChange users) :=
  [.insert (userRow 1 "a"), .update (userRow 1 "a") (userRow 1 "b")]

/-- The answer to the insert is lost, the program crashes, and the repeated insert is skipped. -/
theorem committed_reflected_users : ∃ sink,
    effect usersConfig (usersSink [["id"]]) (SourceMessage.event (.insert (userRow 1 "a"))).value =
        .ok sink ∧
      Relation.ReflTransGen (Step .avroMain usersConfig (topicValues userChanges))
        ⟨usersSink [["id"]], 0, 0, .polling⟩ ⟨sink, 1, 1, .polling⟩ ∧
      (Reflects userChanges sink 1 ∨ Reflects userChanges sink 2) := by
  obtain ⟨sink, inserted⟩ := users_insert_succeeds
  have failed := insert_again
    (fun table found => by simp [(usersSink_empty _).unique_eq found, users]) inserted
  -- The insert takes effect unnoticed, and its repetition is skipped and committed.
  have run : Relation.ReflTransGen (Step .avroMain usersConfig (topicValues userChanges))
      ⟨usersSink [["id"]], 0, 0, .polling⟩ ⟨sink, 1, 1, .polling⟩ :=
    .head (Or.inl (.poll (by decide))) <| .head (Or.inr (.answerLost rfl inserted)) <|
      .head (Or.inr .crash) <| .head (Or.inl (.poll (by decide))) <|
        .head (Or.inl (.skip rfl failed rfl)) <| .single (Or.inl .commit)
  have legal : RowChange.LegalRun FullImage.rowKey [] userChanges :=
    ⟨by simp [RowChange.Legal], ⟨by simp [RowChange.apply], rfl⟩, trivial⟩
  exact ⟨sink, inserted, run,
    committed_reflected legal (users_keysApart _) (usersSink_empty [["id"]]) run⟩

end AivenExamples.PgSync
