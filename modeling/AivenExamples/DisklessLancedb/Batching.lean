import AivenExamples.DisklessLancedb.Offsets

/-! Batches of the LanceDB consumer: what is pending, what is written, and what blocks them. -/

namespace AivenExamples.DisklessLancedb

variable {encoding : Encoding} {batchSize : Int} {topic : Topic}

/-! ### Deliveries -/

/-- A run of the consumer, unless an action cannot happen. -/
def run (encoding : Encoding) (batchSize : Int) (topic : Topic) (state : State)
    (actions : List Action) : Option State :=
  actions.foldlM (step encoding batchSize topic) state

/-- The message that an action takes from the consumer. -/
def deliveredBy (topic : Topic) (state : State) : Action → List Message
  | .deliver partition => (nextMessage topic state.position partition).toList
  | _ => []

/-- The messages that are delivered in a run, in order. -/
def delivered (encoding : Encoding) (batchSize : Int) (topic : Topic) :
    State → List Action → List Message
  | _, [] => []
  | state, action :: actions =>
    match step encoding batchSize topic state action with
    | some next =>
      deliveredBy topic state action ++ delivered encoding batchSize topic next actions
    | none => []

/-- What every step of a run keeps, as the deliveries grow, holds at its end. -/
theorem delivered_invariant (holds : List Message → State → Prop) {actions : List Action}
    (kept : ∀ taken state action next, action ∈ actions → holds taken state →
      step encoding batchSize topic state action = some next →
      holds (taken ++ deliveredBy topic state action) next)
    {taken : List Message} {state final : State} (held : holds taken state)
    (ran : run encoding batchSize topic state actions = some final) :
    holds (taken ++ delivered encoding batchSize topic state actions) final := by
  -- The first action is taken away, and its delivery is one of those before the others.
  induction actions generalizing state taken with
  | nil =>
    cases ran
    rwa [delivered, List.append_nil]
  | cons action actions ih =>
    rw [run, List.foldlM_cons] at ran
    obtain ⟨next, stepped, rest⟩ := Option.bind_eq_some_iff.mp ran
    have first := kept taken state action next List.mem_cons_self held stepped
    have later := ih (fun taken state other next member =>
      kept taken state other next (List.mem_cons_of_mem action member)) first rest
    have split : delivered encoding batchSize topic state (action :: actions) =
        deliveredBy topic state action ++ delivered encoding batchSize topic next actions := by
      rw [delivered, stepped]
    rwa [split, ← List.append_assoc]

/-- Messages and the rows made of them, side by side. -/
def Written (encoding : Encoding) (messages : List Message) (rows : List Row) : Prop :=
  List.Forall₂ (fun message row => prepareRecord encoding message = .ok row) messages rows

/-- The rows added to the table belong to the deliveries that are no longer in memory. -/
def Held (encoding : Encoding) (table : List Row) (taken : List Message) (state : State) : Prop :=
  ∃ written rows, state.table = table ++ rows ∧ Written encoding written rows ∧
    written ++ state.unwritten = taken

/-- What holds in the message loop, phase by phase. -/
def Batched (encoding : Encoding) (table : List Row) (taken : List Message) (state : State) :
    Prop :=
  match state.phase with
  | .polling => Held encoding table taken state ∧ state.current = none
  | .received => Held encoding table taken state
  | .storing => Held encoding table taken state ∧ state.current = none
  | .added =>
    (∃ rows, state.table = table ++ rows ∧ Written encoding taken rows) ∧ state.current = none
  -- The loop has been left.
  | _ => True

/-- The rows of a successful write are those of the batch. -/
theorem written_of_addedRows {batch : List Message} {succeeds : Bool} {rows : List Row}
    (added : addedRows encoding batch succeeds = some rows) : Written encoding batch rows := by
  -- The frame has a row for each message of the batch, or it is not made at all.
  cases prepared : prepareLancedbData encoding batch with
  | error fault => simp [addedRows, prepared] at added
  | ok all =>
    simp only [addedRows, prepared, Option.ite_none_right_eq_some, Option.some.injEq] at added
    exact added.2 ▸ mapM_eq_ok_iff.mp prepared

/-- A delivered message is the loop variable behind the pending batch. -/
theorem Batched.deliver {table : List Row} {taken : List Message} {state next : State}
    {partition : Nat} (batched : Batched encoding table taken state)
    (stepped : step encoding batchSize topic state (.deliver partition) = some next) :
    Batched encoding table (taken ++ deliveredBy topic state (.deliver partition)) next := by
  obtain ⟨polling, message, found, moved⟩ := step_deliver.mp stepped
  subst moved
  rw [Batched, polling] at batched
  obtain ⟨⟨written, rows, added, pairs, all⟩, idle⟩ := batched
  refine ⟨written, rows, added, pairs, ?_⟩
  -- What is delivered is added to both sides.
  rw [← all, deliveredBy, found]
  simp [State.unwritten, idle]

/-- The message moves from the loop variable to the end of the batch. -/
theorem Batched.append {table : List Row} {taken : List Message} {state next : State}
    (batched : Batched encoding table taken state)
    (stepped : step encoding batchSize topic state .append = some next) :
    Batched encoding table taken next := by
  obtain ⟨received, message, found, moved⟩ := step_append.mp stepped
  subst moved
  rw [Batched, received] at batched
  obtain ⟨written, rows, added, pairs, all⟩ := batched
  refine ⟨⟨written, rows, added, pairs, ?_⟩, rfl⟩
  -- Nothing is delivered, and in memory is what was there before.
  rw [← all]
  simp [State.unwritten, found]

/-- A write adds the rows of the whole batch, or it changes nothing. -/
theorem Batched.store {table : List Row} {taken : List Message} {state next : State}
    {succeeds : Bool} (batched : Batched encoding table taken state)
    (stepped : step encoding batchSize topic state (.store succeeds) = some next) :
    Batched encoding table taken next := by
  obtain ⟨storing, either⟩ := step_store.mp stepped
  rw [Batched, storing] at batched
  rcases either with ⟨-, more, write, moved⟩ | ⟨-, moved⟩
  · -- The rows come behind the earlier ones, as the batch comes behind what is written.
    subst moved
    obtain ⟨⟨written, rows, added, pairs, all⟩, idle⟩ := batched
    refine ⟨⟨rows ++ more, by rw [added, List.append_assoc], ?_⟩, idle⟩
    rw [← all, State.unwritten, idle, Option.toList_none, List.append_nil]
    exact List.rel_append pairs (written_of_addedRows write)
  · have kept : Batched encoding table taken { state with phase := .polling } := batched
    exact moved ▸ kept

/-- The batch is emptied when everything delivered has been written. -/
theorem Batched.reset {table : List Row} {taken : List Message} {state next : State}
    (batched : Batched encoding table taken state)
    (stepped : step encoding batchSize topic state .reset = some next) :
    Batched encoding table taken next := by
  obtain ⟨added, moved⟩ := step_reset.mp stepped
  subst moved
  rw [Batched, added] at batched
  obtain ⟨⟨rows, table, pairs⟩, idle⟩ := batched
  -- From now on all that was delivered counts as written.
  exact ⟨⟨taken, rows, table, pairs, by simp [State.unwritten, idle]⟩, idle⟩

/-- Every step but a new start keeps the deliveries either written or in memory. -/
theorem Batched.step {table : List Row} {taken : List Message} {state next : State}
    {action : Action} (batched : Batched encoding table taken state)
    (stepped : step encoding batchSize topic state action = some next)
    (same : action ≠ .start) :
    Batched encoding table (taken ++ deliveredBy topic state action) next := by
  cases action with
  | start => exact absurd rfl same
  | deliver partition => exact batched.deliver stepped
  | append =>
    simp only [deliveredBy, List.append_nil]
    exact batched.append stepped
  | store succeeds =>
    simp only [deliveredBy, List.append_nil]
    exact batched.store stepped
  | reset =>
    simp only [deliveredBy, List.append_nil]
    exact batched.reset stepped
  -- Behind the loop nothing is said about the batch.
  | interrupt =>
    rw [← (step_interrupt.mp stepped).2]
    trivial
  | flush succeeds =>
    rw [← (step_flush.mp stepped).2]
    trivial
  | autoCommit =>
    simp only [deliveredBy, List.append_nil]
    exact (step_autoCommit.mp stepped).2 ▸ batched
  | close =>
    rw [← (step_close.mp stepped).2]
    trivial
  | crash =>
    rw [← (step_crash.mp stepped).2]
    trivial

/-- Along a run of one process the deliveries are either written or in memory. -/
theorem Batched.run {table : List Row} {taken : List Message} {state final : State}
    {actions : List Action} (batched : Batched encoding table taken state)
    (single : .start ∉ actions) (ran : run encoding batchSize topic state actions = some final) :
    Batched encoding table (taken ++ delivered encoding batchSize topic state actions) final := by
  -- The schedule has no further start, so each of its steps keeps the deliveries.
  refine delivered_invariant (Batched encoding table) ?_ batched ran
  intro taken state action next member batched stepped
  exact batched.step stepped fun same => single (same ▸ member)

/-- A process that has just started has delivered nothing. -/
theorem batched_start {before begun : State}
    (started : step encoding batchSize topic before .start = some begun) :
    Batched encoding begun.table [] begun := by
  rw [← (step_start.mp started).2]
  exact ⟨⟨[], [], by simp, .nil, rfl⟩, rfl⟩

/-- The final write behind the message loop adds the rows of what is pending. -/
theorem final_write {state flushed : State} {succeeds : Bool} (waiting : state.phase = .polling)
    (left : run encoding batchSize topic state [.interrupt, .flush succeeds] = some flushed)
    (fine : state.batch = [] ∨ (addedRows encoding state.batch succeeds).isSome) :
    ∃ rows, flushed.table = state.table ++ rows ∧ Written encoding state.batch rows := by
  simp only [run, List.foldlM_cons, List.foldlM_nil, step, waiting] at left
  cases write : addedRows encoding state.batch succeeds with
  | none =>
    -- Nothing was pending, and nothing had to be written.
    have empty : state.batch = [] := fine.resolve_right (by simp [write])
    have same : some { state with phase := .closing } = some flushed := by simpa [write] using left
    cases same
    exact ⟨[], (List.append_nil _).symm, empty ▸ .nil⟩
  | some rows =>
    have same : some { state with phase := .closing, table := state.table ++ rows } =
        some flushed := by simpa [write] using left
    cases same
    exact ⟨rows, rfl, written_of_addedRows write⟩

/-- In the message loop every delivery is written or pending. -/
theorem held_of_run {before begun final : State} {actions : List Action}
    (started : step encoding batchSize topic before .start = some begun)
    (single : .start ∉ actions) (ran : run encoding batchSize topic begun actions = some final)
    (waiting : final.phase = .polling) :
    ∃ written rows, final.table = begun.table ++ rows ∧ Written encoding written rows ∧
      written ++ final.batch = delivered encoding batchSize topic begun actions := by
  have batched := (batched_start started).run single ran
  rw [Batched, waiting, List.nil_append] at batched
  obtain ⟨⟨written, rows, added, pairs, all⟩, idle⟩ := batched
  -- While a message is awaited the loop variable is empty.
  rw [State.unwritten, idle, Option.toList_none, List.append_nil] at all
  exact ⟨written, rows, added, pairs, all⟩

/-- In the loop every delivery is written or pending, and the final write leaves none behind. -/
theorem batching_exact {before begun final : State} {actions : List Action}
    (started : step encoding batchSize topic before .start = some begun)
    (single : .start ∉ actions) (ran : run encoding batchSize topic begun actions = some final)
    (waiting : final.phase = .polling) :
    (∃ written rows, final.table = begun.table ++ rows ∧ Written encoding written rows ∧
        written ++ final.batch = delivered encoding batchSize topic begun actions) ∧
      ∀ flushed succeeds,
        run encoding batchSize topic final [.interrupt, .flush succeeds] = some flushed →
        final.batch = [] ∨ (addedRows encoding final.batch succeeds).isSome →
        ∃ rows, flushed.table = begun.table ++ rows ∧
          Written encoding (delivered encoding batchSize topic begun actions) rows := by
  -- The rows of the loop come first, and those of the final write behind them.
  obtain ⟨written, rows, added, pairs, all⟩ := held_of_run started single ran waiting
  refine ⟨⟨written, rows, added, pairs, all⟩, fun flushed succeeds left fine => ?_⟩
  obtain ⟨more, table, others⟩ := final_write waiting left fine
  refine ⟨rows ++ more, by rw [table, added, List.append_assoc], ?_⟩
  rw [← all]
  exact List.rel_append pairs others

/-- The consumer after its start on an empty table. -/
def begun : State := { initial with phase := .polling }

/-- The only message, pending after its write has failed. -/
def pendingGreeting : State :=
  { begun with position := Function.update begun.position 0 1, batch := [greeting] }

/-- A write that fails leaves the message pending, and the final write adds its row. -/
theorem batching_exact_retried :
    run plainEncoding 1 oneMessage begun [.deliver 0, .append, .store false] =
        some pendingGreeting ∧
      (∃ written rows, pendingGreeting.table = [] ++ rows ∧ Written plainEncoding written rows ∧
        written ++ [greeting] = [greeting]) ∧
      ∀ flushed succeeds,
        run plainEncoding 1 oneMessage pendingGreeting [.interrupt, .flush succeeds] =
          some flushed →
        pendingGreeting.batch = [] ∨
          (addedRows plainEncoding pendingGreeting.batch succeeds).isSome →
        ∃ rows, flushed.table = [] ++ rows ∧ Written plainEncoding [greeting] rows := by
  -- The one message is read and fails to be written.
  have started : step plainEncoding 1 oneMessage initial .start = some begun := rfl
  have ran : run plainEncoding 1 oneMessage begun [.deliver 0, .append, .store false] =
      some pendingGreeting := rfl
  exact ⟨ran, batching_exact started (by simp) ran rfl⟩

/-! ### Odd messages -/

/-- A value that `prepare_lancedb_data` converts: an object whose data, if any, is an object. -/
def Convertible (value : Json) : Prop :=
  ∃ fields, value = .obj fields ∧
    ∀ data, Dict.get? fields "data" = some data → ∃ inner, data = .obj inner

/-- Exactly the convertible values have a record. -/
theorem prepareRecord_succeeds_iff (message : Message) :
    (∃ row, prepareRecord encoding message = .ok row) ↔ Convertible message.value := by
  constructor
  · intro succeeds
    obtain ⟨row, prepared⟩ := succeeds
    obtain ⟨_, id, afterId⟩ := bind_eq_ok.mp prepared
    obtain ⟨_, _, afterTimestamp⟩ := bind_eq_ok.mp afterId
    obtain ⟨_, _, afterText⟩ := bind_eq_ok.mp afterTimestamp
    obtain ⟨_, additional, _⟩ := bind_eq_ok.mp afterText
    obtain ⟨fields, object, _⟩ := Json.get_eq_ok.mp id
    refine ⟨fields, object, fun data found => ?_⟩
    -- The key is there, so that the data is asked for its fields.
    have present : "data" ∈ Dict.keys fields := Dict.mem_keys.mpr ⟨data, found⟩
    obtain ⟨answer, contains, rest⟩ := bind_eq_ok.mp additional
    simp only [object, Json.contains, present, decide_true, Except.ok.injEq] at contains
    rw [← contains, if_pos rfl] at rest
    obtain ⟨inner, item, rest⟩ := bind_eq_ok.mp rest
    simp only [object, Json.item, found, Except.ok.injEq] at item
    subst item
    obtain ⟨_, category, _⟩ := bind_eq_ok.mp rest
    obtain ⟨items, shape, _⟩ := Json.get_eq_ok.mp category
    exact ⟨items, shape⟩
  · intro convertible
    obtain ⟨fields, object, inner⟩ := convertible
    have additional : ∃ both, additionalFields message.value = .ok both := by
      cases found : Dict.get? fields "data" with
      | none =>
        have absent : "data" ∉ Dict.keys fields := Dict.get?_eq_none.mp found
        exact ⟨_, by simp [additionalFields, object, Json.contains, absent]; rfl⟩
      | some data =>
        have present : "data" ∈ Dict.keys fields := Dict.mem_keys.mpr ⟨data, found⟩
        obtain ⟨items, shape⟩ := inner data found
        exact ⟨_, by simp [additionalFields, object, Json.contains, present, Json.item, found,
          shape, Json.get, bind, Except.bind]; rfl⟩
    obtain ⟨both, same⟩ := additional
    rw [object] at same
    exact ⟨_, by simp [prepareRecord, same, object, Json.get, bind, Except.bind]; rfl⟩

/-- The first full batch that is still pending holds an odd message. -/
def Blocked (batchSize : Nat) (pending : List Message) : Prop :=
  ∃ message ∈ pending.take batchSize, ¬Convertible message.value

/-- Whole batches of convertible messages have been written, and the others are in memory. -/
structure Parted (batchSize : Nat) (taken pending : List Message) (written : Nat) : Prop where
  whole : batchSize ∣ written
  within : written ≤ taken.length
  rest : pending = taken.drop written
  converted : ∀ message ∈ taken.take written, Convertible message.value

/-- How much is in memory unless it is blocked, phase by phase. -/
def Sized (batchSize : Nat) (taken : List Message) (state : State) : Prop :=
  match state.phase with
  | .polling => ∃ written, Parted batchSize taken state.unwritten written ∧
      (state.unwritten.length < batchSize ∨ Blocked batchSize state.unwritten)
  | .received => ∃ written, Parted batchSize taken state.unwritten written ∧
      (state.unwritten.length ≤ batchSize ∨ Blocked batchSize state.unwritten)
  | .storing => ∃ written, Parted batchSize taken state.unwritten written ∧
      (state.unwritten.length ≤ batchSize ∨ Blocked batchSize state.unwritten)
  | .added => batchSize ∣ taken.length ∧ ∀ message ∈ taken, Convertible message.value
  -- The loop has been left.
  | _ => True

/-- What is blocked stays blocked when more is pending. -/
theorem Blocked.append {batchSize : Nat} {pending : List Message}
    (blocked : Blocked batchSize pending) (more : List Message) :
    Blocked batchSize (pending ++ more) := by
  -- The odd message is in front of what is added.
  obtain ⟨message, member, odd⟩ := blocked
  refine ⟨message, ?_, odd⟩
  rw [List.take_append]
  exact List.mem_append_left _ member

/-- A write that the table accepts fails exactly when an odd message is in the batch. -/
theorem addedRows_eq_none_iff {batch : List Message} :
    addedRows encoding batch true = none ↔ ∃ message ∈ batch, ¬Convertible message.value := by
  -- One message that is not converted keeps the whole batch.
  have all : (∃ rows, prepareLancedbData encoding batch = .ok rows) ↔
      ∀ message ∈ batch, Convertible message.value := by
    simp only [prepareLancedbData, mapM_succeeds_iff, prepareRecord_succeeds_iff]
  cases prepared : prepareLancedbData encoding batch with
  | ok rows =>
    have fine := all.mp ⟨rows, prepared⟩
    simp only [addedRows, prepared, if_true, reduceCtorEq, false_iff]
    intro exists_
    obtain ⟨message, member, odd⟩ := exists_
    exact odd (fine message member)
  | error fault =>
    simp only [prepared, reduceCtorEq, exists_false, false_iff, not_forall] at all
    simpa [addedRows, prepared] using all

section OddMessages

variable {batchSize : Nat} {taken : List Message} {state next : State}

/-- A delivered message is in memory with the others. -/
theorem Parted.deliver {pending : List Message} {written : Nat}
    (parted : Parted batchSize taken pending written) (message : Message) :
    Parted batchSize (taken ++ [message]) (pending ++ [message]) written where
  whole := parted.whole
  -- The new message comes behind those that have been written.
  within := by
    rw [List.length_append]
    exact Nat.le_add_right_of_le parted.within
  rest := by
    rw [parted.rest, List.drop_append_of_le_length parted.within]
  converted := by
    rw [List.take_append_of_le_length parted.within]
    exact parted.converted

/-- A full batch of convertible messages is the next one to be written. -/
theorem Parted.write {pending : List Message} {written : Nat}
    (parted : Parted batchSize taken pending written) (full : pending.length = batchSize)
    (fine : ∀ message ∈ pending, Convertible message.value) :
    batchSize ∣ taken.length ∧ ∀ message ∈ taken, Convertible message.value := by
  constructor
  · -- The batch is all that has not been written.
    have count : taken.length = written + batchSize := by
      have rest := congrArg List.length parted.rest
      rw [List.length_drop] at rest
      have within := parted.within
      omega
    rw [count]
    exact Nat.dvd_add parted.whole (Nat.dvd_refl _)
  · intro message member
    rw [← List.take_append_drop written taken, List.mem_append, ← parted.rest] at member
    exact member.elim (parted.converted message) (fine message)

/-- A delivered message fills the batch at most, unless the batch is blocked. -/
theorem Sized.deliver {partition : Nat} (idle : state.current = none)
    (sized : Sized batchSize taken state)
    (stepped : step encoding batchSize topic state (.deliver partition) = some next) :
    Sized batchSize (taken ++ deliveredBy topic state (.deliver partition)) next := by
  obtain ⟨polling, message, found, moved⟩ := step_deliver.mp stepped
  subst moved
  rw [Sized, polling] at sized
  obtain ⟨written, parted, few⟩ := sized
  rw [State.unwritten, idle, Option.toList_none, List.append_nil] at parted few
  rw [deliveredBy, found, Option.toList_some]
  -- One message more at most fills the batch, and a blocked batch stays blocked.
  refine ⟨written, parted.deliver message, few.imp (fun few => ?_) (·.append [message])⟩
  simp only [State.unwritten, Option.toList_some, List.length_append, List.length_singleton]
  omega

/-- The message moves from the loop variable to the end of the batch. -/
theorem Sized.append (sized : Sized batchSize taken state)
    (stepped : step encoding batchSize topic state .append = some next) :
    Sized batchSize taken next := by
  obtain ⟨received, message, found, moved⟩ := step_append.mp stepped
  subst moved
  rw [Sized, received] at sized
  obtain ⟨written, parted, few⟩ := sized
  -- What is in memory is the same.
  have held : state.batch ++ [message] ++ (none : Option Message).toList = state.unwritten := by
    simp [State.unwritten, found]
  refine ⟨written, ?_, ?_⟩ <;> rw [State.unwritten, held]
  · exact parted
  · exact few

/-- A batch that the table has taken is full, and all of it is convertible. -/
theorem Parted.stored {rows : List Row} {written : Nat}
    (parted : Parted batchSize taken state.batch written)
    (few : state.batch.length ≤ batchSize ∨ Blocked batchSize state.batch)
    (full : batchSize ≤ state.batch.length)
    (write : addedRows encoding state.batch true = some rows) :
    batchSize ∣ taken.length ∧ ∀ message ∈ taken, Convertible message.value := by
  have fine : ∀ message ∈ state.batch, Convertible message.value := by
    intro message member
    by_contra odd
    rw [addedRows_eq_none_iff.mpr ⟨message, member, odd⟩] at write
    cases write
  have short : state.batch.length ≤ batchSize := by
    rcases few with few | blocked
    · exact few
    · -- A blocked batch is not taken.
      obtain ⟨message, member, odd⟩ := blocked
      exact absurd (fine message (List.mem_of_mem_take member)) odd
  exact parted.write (Nat.le_antisymm short full) fine

/-- A batch that the table has not taken is too small, or it is blocked. -/
theorem blocked_of_refused {batch : List Message}
    (few : batch.length ≤ batchSize ∨ Blocked batchSize batch)
    (refused : batchSize ≤ batch.length → addedRows encoding batch true = none) :
    batch.length < batchSize ∨ Blocked batchSize batch := by
  by_cases full : batchSize ≤ batch.length
  · refine .inr (few.elim (fun few => ?_) id)
    -- The batch is exactly full, and the odd message is one of it.
    obtain ⟨message, member, odd⟩ := addedRows_eq_none_iff.mp (refused full)
    refine ⟨message, ?_, odd⟩
    rwa [List.take_of_length_le few]
  · exact .inl (Nat.lt_of_not_le full)

/-- A write that the table accepts empties a full batch, unless it is blocked. -/
theorem Sized.store (idle : state.current = none) (sized : Sized batchSize taken state)
    (stepped : step encoding batchSize topic state (.store true) = some next) :
    Sized batchSize taken next := by
  obtain ⟨storing, either⟩ := step_store.mp stepped
  rw [Sized, storing] at sized
  obtain ⟨written, parted, few⟩ := sized
  have batch : state.unwritten = state.batch := by simp [State.unwritten, idle]
  rw [batch] at parted few
  rcases either with ⟨full, rows, write, moved⟩ | ⟨refused, moved⟩
  · -- The table has taken the batch.
    subst moved
    exact parted.stored few (Int.ofNat_le.mp full) write
  · subst moved
    have still := blocked_of_refused few fun full => refused (Int.ofNat_le.mpr full)
    rw [← batch] at parted still
    exact ⟨written, parted, still⟩

/-- Nothing is in memory when the batch has been emptied. -/
theorem Sized.reset (positive : 1 ≤ batchSize) (idle : state.current = none)
    (sized : Sized batchSize taken state)
    (stepped : step encoding batchSize topic state .reset = some next) :
    Sized batchSize taken next := by
  obtain ⟨added, moved⟩ := step_reset.mp stepped
  subst moved
  rw [Sized, added] at sized
  obtain ⟨whole, fine⟩ := sized
  -- Everything delivered has been written.
  refine ⟨taken.length, ⟨whole, Nat.le_refl _, ?_, ?_⟩, .inl ?_⟩
  · simp [State.unwritten, idle]
  · rwa [List.take_length]
  · simp only [State.unwritten, idle, Option.toList_none, List.append_nil, List.length_nil]
    exact positive

/-- Every step but a new start keeps the sizes when the table accepts what it is given. -/
theorem Sized.step {action : Action} (positive : 1 ≤ batchSize)
    (idle : state.phase ∈ [.polling, .storing, .added] → state.current = none)
    (sized : Sized batchSize taken state)
    (stepped : step encoding batchSize topic state action = some next)
    (same : action ≠ .start) (accepted : action ≠ .store false) :
    Sized batchSize (taken ++ deliveredBy topic state action) next := by
  cases action with
  | start => exact absurd rfl same
  | deliver partition =>
    exact sized.deliver (idle (by simp [(step_deliver.mp stepped).1])) stepped
  | append =>
    simp only [deliveredBy, List.append_nil]
    exact sized.append stepped
  | store succeeds =>
    simp only [deliveredBy, List.append_nil]
    cases succeeds with
    | true => exact sized.store (idle (by simp [(step_store.mp stepped).1])) stepped
    | false => exact absurd rfl accepted
  | reset =>
    simp only [deliveredBy, List.append_nil]
    exact sized.reset positive (idle (by simp [(step_reset.mp stepped).1])) stepped
  -- Behind the loop nothing is said about the batch.
  | interrupt =>
    rw [← (step_interrupt.mp stepped).2]
    trivial
  | flush succeeds =>
    rw [← (step_flush.mp stepped).2]
    trivial
  | autoCommit =>
    simp only [deliveredBy, List.append_nil]
    exact (step_autoCommit.mp stepped).2 ▸ sized
  | close =>
    rw [← (step_close.mp stepped).2]
    trivial
  | crash =>
    rw [← (step_crash.mp stepped).2]
    trivial

/-- The loop variable is empty outside of the two steps between delivery and batch. -/
theorem Batched.idle {table : List Row} (batched : Batched encoding table taken state)
    (waiting : state.phase ∈ [.polling, .storing, .added]) : state.current = none := by
  unfold Batched at batched
  simp only [List.mem_cons, List.not_mem_nil, or_false] at waiting
  rcases waiting with phase | phase | phase <;> rw [phase] at batched <;> exact batched.2

/-- Along a run whose writes the table accepts the sizes are kept. -/
theorem Sized.run {table : List Row} {final : State} {actions : List Action}
    (positive : 1 ≤ batchSize) (batched : Batched encoding table taken state)
    (sized : Sized batchSize taken state) (single : .start ∉ actions)
    (accepted : .store false ∉ actions)
    (ran : run encoding batchSize topic state actions = some final) :
    Sized batchSize (taken ++ delivered encoding batchSize topic state actions) final := by
  -- That the loop variable is empty when it has to be is part of the other invariant.
  have both := delivered_invariant
    (fun taken state => Batched encoding table taken state ∧ Sized batchSize taken state) ?_
    ⟨batched, sized⟩ ran
  · exact both.2
  · intro taken state action next member held stepped
    have same : action ≠ .start := fun same => single (same ▸ member)
    have fine : action ≠ .store false := fun same => accepted (same ▸ member)
    exact ⟨held.1.step stepped same, held.2.step positive held.1.idle stepped same fine⟩

/-- A process that has just started has nothing in memory. -/
theorem sized_start {before begun : State} (positive : 1 ≤ batchSize)
    (started : DisklessLancedb.step encoding batchSize topic before .start = some begun) :
    Sized batchSize [] begun := by
  rw [← (step_start.mp started).2]
  exact ⟨0, ⟨Nat.dvd_zero _, Nat.le_refl _, rfl, by simp⟩, .inl positive⟩

/-- Fewer messages than a batch are pending, and the convertible ones are written in time. -/
structure Unblocked (encoding : Encoding) (batchSize : Nat) (begun final : State)
    (taken : List Message) : Prop where
  pending : final.batch.length < batchSize
  written : ∀ early message late, taken = early ++ message :: late →
    Convertible message.value → batchSize ≤ late.length →
    ∃ row ∈ final.table.drop begun.table.length, prepareRecord encoding message = .ok row

/-- The messages pending are blocked, or all whole batches so far were convertible. -/
theorem pending_lt_iff {pending : List Message} {written : Nat} (positive : 1 ≤ batchSize)
    (parted : Parted batchSize taken pending written)
    (few : pending.length < batchSize ∨ Blocked batchSize pending) :
    pending.length < batchSize ↔
      ∀ message ∈ taken.take (taken.length / batchSize * batchSize), Convertible message.value := by
  obtain ⟨count, same⟩ := parted.whole
  have within := parted.within
  have length : pending.length = taken.length - written := by rw [parted.rest, List.length_drop]
  have parts := Nat.div_add_mod taken.length batchSize
  have short := Nat.mod_lt taken.length positive
  rw [Nat.mul_comm] at parts
  constructor
  · -- What has been written is all that whole batches can be made of.
    intro fewer
    have quotient : taken.length / batchSize = count := by
      apply Nat.div_eq_of_lt_le
      · rw [Nat.mul_comm, ← same]
        exact within
      · rw [Nat.succ_mul, Nat.mul_comm, ← same]
        omega
    rw [quotient, Nat.mul_comm, ← same]
    exact parted.converted
  · intro fine
    by_contra many
    rcases few with fewer | blocked
    · exact many fewer
    · -- The odd message is in a whole batch.
      obtain ⟨message, member, odd⟩ := blocked
      have more : count + 1 ≤ taken.length / batchSize := by
        rw [Nat.le_div_iff_mul_le positive, Nat.succ_mul, Nat.mul_comm, ← same]
        omega
      have reaches : written + batchSize ≤ taken.length / batchSize * batchSize := by
        have scaled := Nat.mul_le_mul_right batchSize more
        rw [Nat.succ_mul, Nat.mul_comm count, ← same] at scaled
        exact scaled
      rw [parted.rest, List.take_drop, ← Nat.min_eq_left reaches, ← List.take_take] at member
      exact odd (fine message (List.mem_of_mem_take (List.mem_of_mem_drop member)))

/-- A message that is made into a row has its row among those added. -/
theorem Written.exists_row {messages : List Message} {rows : List Row}
    (pairs : Written encoding messages rows) {message : Message} (member : message ∈ messages) :
    ∃ row ∈ rows, prepareRecord encoding message = .ok row :=
  exists_mem_of_mapM (mapM_eq_ok_iff.mpr pairs) member

/-- The consumer is not blocked iff every message of the full batches so far is convertible. -/
theorem unblocked_iff {before begun final : State} {actions : List Action}
    (positive : 1 ≤ batchSize)
    (started : DisklessLancedb.step encoding batchSize topic before .start = some begun)
    (single : .start ∉ actions) (accepted : .store false ∉ actions)
    (ran : DisklessLancedb.run encoding batchSize topic begun actions = some final)
    (waiting : final.phase = .polling) :
    Unblocked encoding batchSize begun final
        (delivered encoding batchSize topic begun actions) ↔
      ∀ message ∈ (delivered encoding batchSize topic begun actions).take
          ((delivered encoding batchSize topic begun actions).length / batchSize * batchSize),
        Convertible message.value := by
  have sized := Sized.run positive (batched_start started) (sized_start positive started) single
    accepted ran
  obtain ⟨made, rows, added, pairs, all⟩ := held_of_run started single ran waiting
  rw [Sized, waiting, List.nil_append] at sized
  obtain ⟨written, parted, few⟩ := sized
  have noCurrent := ((batched_start started).run single ran).idle (by simp [waiting])
  rw [State.unwritten, noCurrent, Option.toList_none, List.append_nil] at parted few
  rw [← pending_lt_iff positive parted few]
  constructor
  · exact Unblocked.pending
  · intro fewer
    refine ⟨fewer, fun early message late split convertible further => ?_⟩
    rw [added, List.drop_left]
    refine pairs.exists_row ?_
    -- The message comes before everything that is pending.
    have counted := congrArg List.length all
    rw [split] at all counted
    simp only [List.length_append, List.length_cons] at counted
    have inside : early.length < made.length := by omega
    have taken := congrArg (fun list => list[early.length]?) all
    simp only [List.getElem?_append_left inside] at taken
    rw [List.getElem?_append_right (Nat.le_refl _), Nat.sub_self, List.getElem?_cons_zero] at taken
    exact List.mem_of_getElem? taken

end OddMessages

/-- The row of the only message. -/
def greetingRow : Row where
  id := .num 1
  vector := []
  timestamp := .str ""
  message := .str "hello"
  kafkaOffset := 0
  kafkaPartition := 0
  kafkaKey := none
  rawData := ""
  category := none
  value := none

/-- The consumer after the only message has been written. -/
def writtenGreeting : State :=
  { begun with position := Function.update begun.position 0 1, table := [greetingRow] }

/-- A convertible message in batches of one does not block the consumer. -/
theorem unblocked_greeting :
    Unblocked plainEncoding 1 begun writtenGreeting [greeting] ↔
      ∀ message ∈ [greeting], Convertible message.value := by
  -- The one message is read and written.
  have started : step plainEncoding (1 : Nat) oneMessage initial .start = some begun := rfl
  have ran : run plainEncoding (1 : Nat) oneMessage begun
      [.deliver 0, .append, .store true, .reset] = some writtenGreeting := rfl
  exact unblocked_iff (Nat.le_refl 1) started (by simp) (by simp) ran rfl

/-- A message whose value is a text. -/
def oddMessage : Message := ⟨0, 0, none, .str "odd"⟩

/-- The message that comes behind it. -/
def laterGreeting : Message := { greeting with offset := 1 }

/-- A topic with an odd message and another one behind it. -/
def oddTopic : Topic where
  messages := fun partition => if partition = 0 then [oddMessage, laterGreeting] else []
  ordered := by
    intro partition
    split <;> simp [oddMessage, laterGreeting]
  located := by
    intro partition message member
    split at member
    · rename_i first
      simp only [List.mem_cons, List.not_mem_nil, or_false] at member
      rcases member with same | same <;> rw [same, first] <;> rfl
    · cases member

/-- The consumer after both messages, in batches of one. -/
def blockedConsumer : State :=
  { begun with
    position := Function.update (Function.update begun.position 0 1) 0 2
    batch := [oddMessage, laterGreeting] }

/-- Both messages are delivered, and the table accepts what it is given. -/
def oddRun : List Action :=
  [.deliver 0, .append, .store true, .deliver 0, .append, .store true]

/-- The odd message keeps itself and the one behind it from being written. -/
theorem blocked_by_oddMessage :
    run plainEncoding (1 : Nat) oddTopic begun oddRun = some blockedConsumer ∧
      blockedConsumer.phase = .polling ∧
      ¬Unblocked plainEncoding 1 begun blockedConsumer
        (delivered plainEncoding (1 : Nat) oddTopic begun oddRun) := by
  -- Both messages are still pending in batches of one.
  refine ⟨rfl, rfl, fun unblocked => ?_⟩
  exact absurd unblocked.pending (by decide)

end AivenExamples.DisklessLancedb
