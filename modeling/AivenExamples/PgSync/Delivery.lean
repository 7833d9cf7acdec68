import AivenExamples.PgSync.Replay

/-! Replaying the messages of several tables in any order that keeps the order of each key. -/

namespace AivenExamples.PgSync

namespace SourceMessage

variable {config : Config} {r : Replication config}

/-- The changes among messages. -/
def changes (messages : List (SourceMessage r)) : List (SourceChange r) :=
  messages.filterMap change?

/-- The messages with a key. -/
def about (key : List Value) (messages : List (SourceMessage r)) : List (SourceMessage r) :=
  messages.filter fun message => decide (message.key = key)

@[simp] theorem changes_event (change : SourceChange r) (messages : List (SourceMessage r)) :
    changes (event change :: messages) = change :: changes messages := rfl

@[simp] theorem changes_tombstone (before : FullImage r) (messages : List (SourceMessage r)) :
    changes (tombstone before :: messages) = changes messages := rfl

/-- The changes among the messages of a history are the history. -/
theorem changes_flatMap (history : List (SourceChange r)) :
    changes (history.flatMap ofChange) = history := by
  induction history with
  | nil => rfl
  | cons change history ih =>
    rw [changes, List.flatMap_cons, List.filterMap_append, ← changes, ← changes, ih]
    -- The tombstone behind a delete carries no change.
    cases change <;> rfl

/-- The changes of a key are the changes among the messages with the key. -/
theorem about_changes (key : List Value) (messages : List (SourceMessage r)) :
    RowChange.about FullImage.rowKey key (changes messages) = changes (about key messages) := by
  -- A message and its change have the same key.
  induction messages with
  | nil => rfl
  | cons message messages ih =>
    unfold RowChange.about about at ih ⊢
    cases message with
    | event change =>
      by_cases here : change.subject.rowKey = key <;> simp [SourceMessage.key, here, ih]
    | tombstone before =>
      by_cases here : before.rowKey = key <;> simp [SourceMessage.key, here, ih]

end SourceMessage

variable {config : Config} {ι : Type} [DecidableEq ι] {tables : ι → Replication config}

/-- A delivered message with the table that it is about. -/
abbrev Delivered (tables : ι → Replication config) := (i : ι) × SourceMessage (tables i)

/-- The decoded value of a delivered message. -/
def Delivered.value (item : Delivered tables) : Option Change := item.2.value

/-- The messages of one table, in the order of their delivery. -/
def messagesOf (i : ι) (delivered : List (Delivered tables)) : List (SourceMessage (tables i)) :=
  delivered.filterMap fun item => if same : item.1 = i then some (same ▸ item.2) else none

/-- A message is one of the messages of its own table. -/
theorem messagesOf_cons_self (i : ι) (message : SourceMessage (tables i))
    (delivered : List (Delivered tables)) :
    messagesOf i (⟨i, message⟩ :: delivered) = message :: messagesOf i delivered := by
  simp [messagesOf]

/-- A message is not one of the messages of another table. -/
theorem messagesOf_cons_of_ne {i j : ι} (apart : j ≠ i) (message : SourceMessage (tables j))
    (delivered : List (Delivered tables)) :
    messagesOf i (⟨j, message⟩ :: delivered) = messagesOf i delivered := by
  simp [messagesOf, apart]

/-- The rows of one table after the delivered changes. -/
def replayed (source : (i : ι) → List (FullImage (tables i))) (delivered : List (Delivered tables))
    (i : ι) : List (FullImage (tables i)) :=
  RowChange.replay FullImage.rowKey (source i) (SourceMessage.changes (messagesOf i delivered))

/-- Sinks whose tables mirror all sources. -/
def MirrorsAll (unique : ι → List (List String)) (sink : Database)
    (source : (i : ι) → List (FullImage (tables i))) : Prop :=
  ∀ i, Mirrors (unique i) sink (source i)

/-- Rows and changes of all tables that each table allows, with distinct keys. -/
structure Allowed (source : (i : ι) → List (FullImage (tables i)))
    (delivered : List (Delivered tables)) : Prop where
  distinct : ∀ i, ((source i).map FullImage.rowKey).Nodup
  legal : ∀ i, RowChange.LegalRun FullImage.rowKey (source i)
    (SourceMessage.changes (messagesOf i delivered))

/-- The rows of one table that are there or are mentioned by a delivered change. -/
def knownRows (source : (i : ι) → List (FullImage (tables i))) (delivered : List (Delivered tables))
    (i : ι) : List (FullImage (tables i)) :=
  source i ++ (SourceMessage.changes (messagesOf i delivered)).flatMap RowChange.images

/-- What a delivered message makes of the rows of all tables. -/
def Delivered.apply (source : (i : ι) → List (FullImage (tables i))) :
    Delivered tables → (i : ι) → List (FullImage (tables i))
  | ⟨i, .event change⟩ => Function.update source i (change.apply FullImage.rowKey (source i))
  | ⟨_, .tombstone _⟩ => source

section Cons

variable {source : (i : ι) → List (FullImage (tables i))} {item : Delivered tables}
  {delivered : List (Delivered tables)}

/-- The first message is applied first. -/
theorem replayed_cons :
    replayed source (item :: delivered) = replayed (item.apply source) delivered := by
  obtain ⟨i, message⟩ := item
  funext j
  -- The message changes the rows of its own table, if any.
  by_cases own : i = j
  · subst own
    cases message with
    | event change => simp [replayed, messagesOf_cons_self, Delivered.apply, RowChange.replay]
    | tombstone before => simp [replayed, messagesOf_cons_self, Delivered.apply]
  · cases message with
    | event change =>
      simp [replayed, messagesOf_cons_of_ne own, Delivered.apply,
        Function.update_of_ne (Ne.symm own)]
    | tombstone before => simp [replayed, messagesOf_cons_of_ne own, Delivered.apply]

/-- A message does not bring rows that it does not mention. -/
theorem knownRows_apply {i : ι} {row : FullImage (tables i)}
    (member : row ∈ knownRows (item.apply source) delivered i) :
    row ∈ knownRows source (item :: delivered) i := by
  obtain ⟨j, message⟩ := item
  unfold knownRows at member ⊢
  -- Only the table of the message can have other rows than before.
  by_cases own : j = i
  · subst own
    rw [messagesOf_cons_self]
    cases message with
    | event change =>
      simp only [Delivered.apply, Function.update_self, List.mem_append] at member
      simp only [SourceMessage.changes_event, List.flatMap_cons, List.mem_append]
      rcases member with changed | later
      · rcases RowChange.mem_apply changed with there | image
        · exact Or.inl there
        · exact Or.inr (Or.inl image)
      · exact Or.inr (Or.inr later)
    | tombstone before => exact member
  · rw [messagesOf_cons_of_ne own]
    cases message with
    | event change => simpa [Delivered.apply, Function.update_of_ne (Ne.symm own)] using member
    | tombstone before => exact member

/-- The keys of an event stay apart from those of its table. -/
theorem knownRows_event {i : ι} {change : SourceChange (tables i)}
    (apart : ∀ j, KeysApart (knownRows source (⟨i, .event change⟩ :: delivered) j)) :
    KeysApart (change.images ++ source i) := by
  -- The images of the event come in front of those of the later changes.
  refine (apart i).mono fun row member => ?_
  rw [knownRows, messagesOf_cons_self, SourceMessage.changes_event, List.flatMap_cons]
  rcases List.mem_append.mp member with image | there
  · exact List.mem_append_right _ (List.mem_append_left _ image)
  · exact List.mem_append_left _ there

/-- A message that takes effect keeps the sink a mirror of all sources. -/
theorem mirrorsAll_effect (targets : Function.Injective fun i => (tables i).target)
    {unique : ι → List (List String)} {sink after : Database}
    (mirrors : MirrorsAll unique sink source)
    (apart : ∀ i, KeysApart (knownRows source (item :: delivered) i))
    (applied : effect config sink item.value = .ok after) :
    MirrorsAll unique after (item.apply source) := by
  obtain ⟨j, message⟩ := item
  cases message with
  | event change =>
    intro i
    by_cases own : i = j
    · subst own
      simpa [Delivered.apply] using
        mirrors_effect (mirrors i) (knownRows_event apart).subject applied
    · -- The statement is about another table.
      have other : (tables i).target ≠ (statementOf (tables j) change).target := by
        rw [target_statementOf]
        exact fun same => own (targets same)
      have executed := (effect_event sink change).symm.trans applied
      have same := (mirrors i).congr (execute_frame executed other)
      simpa [Delivered.apply, Function.update_of_ne own] using same
  -- A tombstone is passed over.
  | tombstone before =>
    cases applied
    exact mirrors

/-- The table of an event allows its change. -/
theorem Allowed.event_legal {i : ι} {change : SourceChange (tables i)}
    (allowed : Allowed source (⟨i, .event change⟩ :: delivered)) :
    change.Legal FullImage.rowKey (source i) := by
  -- The event is the first change of its table.
  have own := allowed.legal i
  rw [messagesOf_cons_self, SourceMessage.changes_event] at own
  exact own.1

/-- The rest of the messages is allowed by what the first one leaves. -/
theorem Allowed.tail (allowed : Allowed source (item :: delivered)) :
    Allowed (item.apply source) delivered := by
  obtain ⟨j, message⟩ := item
  cases message with
  -- The own table goes one change on, and the other ones stay where they are.
  | event change =>
    have legal := allowed.event_legal
    constructor
    · intro i
      by_cases own : i = j
      · subst own
        simpa [Delivered.apply] using RowChange.distinct_apply (allowed.distinct i) legal
      · simpa [Delivered.apply, Function.update_of_ne own] using allowed.distinct i
    · intro i
      have rest := allowed.legal i
      by_cases own : i = j
      · subst own
        rw [messagesOf_cons_self, SourceMessage.changes_event] at rest
        simpa [Delivered.apply] using rest.2
      · rw [messagesOf_cons_of_ne (Ne.symm own)] at rest
        simpa [Delivered.apply, Function.update_of_ne own] using rest
  | tombstone before =>
    refine ⟨allowed.distinct, fun i => ?_⟩
    have rest := allowed.legal i
    by_cases own : j = i
    · subst own
      rwa [messagesOf_cons_self, SourceMessage.changes_tombstone] at rest
    · rwa [messagesOf_cons_of_ne own] at rest

/-- An allowed message takes effect when every constraint has the columns of the key. -/
theorem delivered_effect_succeeds {unique : ι → List (List String)} {sink : Database}
    (mirrors : MirrorsAll unique sink source)
    (keyed : ∀ i, ∀ columns ∈ unique i, ∀ column ∈ (tables i).identifier, column ∈ columns)
    (allowed : Allowed source (item :: delivered))
    (apart : ∀ i, KeysApart (knownRows source (item :: delivered) i)) :
    ∃ after, effect config sink item.value = .ok after := by
  -- A tombstone changes nothing, and an event meets rows with other keys only.
  obtain ⟨i, message⟩ := item
  cases message with
  | event change =>
    exact effect_succeeds (mirrors i) (keyed i) (allowed.distinct i) allowed.event_legal
      (knownRows_event apart)
  | tombstone before => exact ⟨sink, rfl⟩

end Cons

/-- Whatever gets through the loop of `main.py` leaves mirrors of all sources. -/
theorem consume_mirrors (targets : Function.Injective fun i => (tables i).target)
    {unique : ι → List (List String)} {attempts : Nat}
    {source : (i : ι) → List (FullImage (tables i))} {delivered : List (Delivered tables)}
    (apart : ∀ i, KeysApart (knownRows source delivered i)) {sink after : Database}
    (mirrors : MirrorsAll unique sink source)
    (consumed : consume .main config attempts sink (delivered.map Delivered.value) = some after) :
    MirrorsAll unique after (replayed source delivered) := by
  -- Every message that gets through took effect, and so kept the mirrors.
  induction delivered generalizing source sink with
  | nil =>
    cases consumed
    exact mirrors
  | cons item delivered ih =>
    rw [List.map_cons, consume_cons, Option.bind_eq_some_iff] at consumed
    obtain ⟨middle, ended, rest⟩ := consumed
    have first := mirrorsAll_effect targets mirrors apart (effect_of_retryLoop ended)
    rw [replayed_cons]
    exact ih (fun i => (apart i).mono fun _ => knownRows_apply) first rest

/-- Allowed messages all get through when every constraint has the columns of the key. -/
theorem consume_succeeds (targets : Function.Injective fun i => (tables i).target)
    {unique : ι → List (List String)} {program : Program} {attempts : Nat}
    (positive : 0 < attempts)
    (keyed : ∀ i, ∀ columns ∈ unique i, ∀ column ∈ (tables i).identifier, column ∈ columns)
    {source : (i : ι) → List (FullImage (tables i))} {delivered : List (Delivered tables)}
    (allowed : Allowed source delivered)
    (apart : ∀ i, KeysApart (knownRows source delivered i)) {sink : Database}
    (mirrors : MirrorsAll unique sink source) :
    ∃ after, consume program config attempts sink (delivered.map Delivered.value) = some after ∧
      MirrorsAll unique after (replayed source delivered) := by
  -- Every message takes effect at the first attempt and leaves what the rest needs.
  induction delivered generalizing source sink with
  | nil => exact ⟨sink, rfl, mirrors⟩
  | cons item delivered ih =>
    obtain ⟨middle, applied⟩ := delivered_effect_succeeds mirrors keyed allowed apart
    have first := mirrorsAll_effect targets mirrors apart applied
    obtain ⟨after, rest, last⟩ :=
      ih allowed.tail (fun i => (apart i).mono fun _ => knownRows_apply) first
    rw [replayed_cons, List.map_cons, consume_cons, retryLoop_of_ok applied positive]
    exact ⟨after, rest, last⟩

/-- A delivery that keeps the order of the messages of every key. -/
def KeepsOrder (history : (i : ι) → List (SourceChange (tables i)))
    (delivered : List (Delivered tables)) : Prop :=
  ∀ i key, SourceMessage.about key (messagesOf i delivered) =
    SourceMessage.about key ((history i).flatMap SourceMessage.ofChange)

/-- The source tables after their histories. -/
def sources (history : (i : ι) → List (SourceChange (tables i))) (i : ι) :
    List (FullImage (tables i)) :=
  RowChange.replay FullImage.rowKey [] (history i)

/-- A delivery that keeps the order of every key has the changes of every key in order. -/
theorem KeepsOrder.about_eq {history : (i : ι) → List (SourceChange (tables i))}
    {delivered : List (Delivered tables)} (ordered : KeepsOrder history delivered) (i : ι)
    (key : List Value) :
    RowChange.about FullImage.rowKey key (SourceMessage.changes (messagesOf i delivered)) =
      RowChange.about FullImage.rowKey key (history i) := by
  -- Messages with a key carry the changes of the key.
  have messages := congrArg SourceMessage.changes (ordered i key)
  rwa [← SourceMessage.about_changes, ← SourceMessage.about_changes,
    SourceMessage.changes_flatMap] at messages

/--
Replaying histories converges to the sources, each row mapped through its casts.

With `main.py` this holds whenever the loop gets through all messages.
With both programs the loop gets through, and this holds, when the columns of the key are part of
every unique constraint of the sink.
-/
theorem replay_converges (targets : Function.Injective fun i => (tables i).target)
    {unique : ι → List (List String)} {history : (i : ι) → List (SourceChange (tables i))}
    (legal : ∀ i, RowChange.LegalRun FullImage.rowKey [] (history i))
    (apart : ∀ i, KeysApart ((history i).flatMap RowChange.images))
    {delivered : List (Delivered tables)} (ordered : KeepsOrder history delivered)
    {sink : Database} (empty : MirrorsAll unique sink fun i => ([] : List (FullImage (tables i))))
    (attempts : Nat) :
    (∀ after, consume .main config attempts sink (delivered.map Delivered.value) = some after →
      MirrorsAll unique after (sources history)) ∧
    ((∀ i, ∀ columns ∈ unique i, ∀ column ∈ (tables i).identifier, column ∈ columns) →
      0 < attempts → ∀ program, ∃ after,
        consume program config attempts sink (delivered.map Delivered.value) = some after ∧
          MirrorsAll unique after (sources history)) := by
  -- The delivered changes are as legal as the history, and leave the same rows.
  have same : ∀ i, RowChange.LegalRun FullImage.rowKey []
      (SourceMessage.changes (messagesOf i delivered)) ∧
        (replayed (fun i => ([] : List (FullImage (tables i)))) delivered i).Perm
          (sources history i) := fun i =>
    RowChange.interleaving (by simp) (legal i) (ordered.about_eq i)
  have allowed : Allowed (fun i => ([] : List (FullImage (tables i)))) delivered :=
    ⟨fun _ => by simp, fun i => (same i).1⟩
  -- Every delivered change is a change of the history.
  have knownApart : ∀ i, KeysApart
      (knownRows (fun i => ([] : List (FullImage (tables i)))) delivered i) := by
    refine fun i => (apart i).mono fun row member => ?_
    obtain ⟨change, there, image⟩ := List.mem_flatMap.mp member
    exact List.mem_flatMap.mpr ⟨change, RowChange.mem_of_about (ordered.about_eq i) there, image⟩
  have converged : ∀ {after : Database},
      MirrorsAll unique after (replayed (fun i => ([] : List (FullImage (tables i)))) delivered) →
        MirrorsAll unique after (sources history) := fun mirrors i => (mirrors i).perm (same i).2
  constructor
  -- Without skipping, whatever gets through has taken effect.
  · intro after consumed
    exact converged (consume_mirrors targets knownApart empty consumed)
  -- With the key in every constraint nothing can be refused.
  · intro keyed positive program
    obtain ⟨after, consumed, mirrors⟩ :=
      consume_succeeds targets positive keyed allowed knownApart empty
    exact ⟨after, consumed, converged mirrors⟩

/-- The first user gives up an address that the second user takes over. -/
def usersHistory : Unit → List (SourceChange users) := fun _ =>
  [.insert (userRow 1 "a"), .update (userRow 1 "a") (userRow 1 "b"), .insert (userRow 2 "a")]

/-- A delivery in which the second user is there before the address is given up. -/
def usersDelivered : List (Delivered fun _ : Unit => users) :=
  [⟨(), .event (.insert (userRow 1 "a"))⟩, ⟨(), .event (.insert (userRow 2 "a"))⟩,
    ⟨(), .event (.update (userRow 1 "a") (userRow 1 "b"))⟩]

/-- Every change of the history is allowed by the rows before it. -/
theorem usersHistory_legal (i : Unit) :
    RowChange.LegalRun FullImage.rowKey [] (usersHistory i) := by
  simp [usersHistory, RowChange.LegalRun, RowChange.Legal, RowChange.apply, FullImage.rowKey,
    userRow, users, Dict.get?]

/-- The delivery keeps the order of the messages of each user. -/
theorem usersDelivered_ordered : KeepsOrder usersHistory usersDelivered := by
  intro i key
  cases i
  -- Each user has its own messages in order, and other keys have none.
  by_cases first : [Value.int 1] = key
  · subst first
    rfl
  · by_cases second : [Value.int 2] = key
    · subst second
      rfl
    · simp [SourceMessage.about, messagesOf, usersDelivered, usersHistory, SourceMessage.ofChange,
        SourceMessage.key, RowChange.subject, FullImage.rowKey, userRow, users, Dict.get?, first,
        second]

/-- The replay converges when the key is the only unique constraint of the users. -/
theorem replay_converges_users : ∃ after,
    consume .avroMain usersConfig 1 (usersSink [["id"]]) (usersDelivered.map Delivered.value) =
        some after ∧
      MirrorsAll (fun _ => [["id"]]) after (sources usersHistory) :=
  (replay_converges (fun _ _ _ => rfl) usersHistory_legal (fun _ => users_keysApart _)
    usersDelivered_ordered (fun _ => usersSink_empty [["id"]]) 1).2 (by simp [users]) Nat.one_pos
      .avroMain

/-- With unique addresses the second user is skipped and never gets into the sink. -/
theorem replay_counterexample :
    (∀ i, RowChange.LegalRun FullImage.rowKey [] (usersHistory i)) ∧
      (∀ i, KeysApart ((usersHistory i).flatMap RowChange.images)) ∧
      KeepsOrder usersHistory usersDelivered ∧
      Mirrors [["id"], ["email"]] (usersSink [["id"], ["email"]]) ([] : List (FullImage users)) ∧
      ∃ after, consume .avroMain usersConfig 1 (usersSink [["id"], ["email"]])
          (usersDelivered.map Delivered.value) = some after ∧
        ¬ MirrorsAll (fun _ => [["id"], ["email"]]) after (sources usersHistory) := by
  refine ⟨usersHistory_legal, fun _ => users_keysApart _, usersDelivered_ordered,
    usersSink_empty _, ?_⟩
  -- The second user violates the constraint on addresses and is skipped.
  have lost : ((consume .avroMain usersConfig 1 (usersSink [["id"], ["email"]])
      (usersDelivered.map Delivered.value)).bind fun after =>
        (after ("public", "users")).map fun table => table.rows.length) = some 1 := rfl
  obtain ⟨after, consumed, found⟩ := Option.bind_eq_some_iff.mp lost
  refine ⟨after, consumed, fun mirrors => ?_⟩
  -- The source has two users, and the sink has one.
  obtain ⟨table, there, _, _, rows⟩ := mirrors ()
  rw [show after ("public", "users") = some table from there] at found
  have two : (sources usersHistory ()).length = 2 := rfl
  have length := rows.length_eq
  simp only [Option.map_some, Option.some.injEq] at found
  rw [List.length_map, two, found] at length
  exact absurd length (by decide)

end AivenExamples.PgSync
