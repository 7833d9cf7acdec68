import AivenExamples.DebeziumDiskless.Consumer
import Mathlib.Data.List.Perm.Subperm
import Mathlib.Data.Rat.Lemmas

/-! When the replication test receives every row of its run under at-least-once delivery. -/

namespace AivenExamples.DebeziumDiskless

/-- The ids that the producer's inserts return: one for every round of its loop, and none twice. -/
structure InsertedIds (numMessages : Int) where
  ids : List Int
  length_eq : ids.length = numMessages.toNat
  distinct : ids.Nodup

/-- The items of a value that is a dictionary. -/
def object? : Json → Option (Dict String Json)
  | .obj fields => some fields
  | _ => none

/-- The integer that a value is. -/
def integer? : Json → Option Int
  | .num value => if value.den = 1 then some value.num else none
  | _ => none

/-- The id of the run's row whose insert a message reports. -/
def createdId? (runId : String) : MessageValue → Option Int
  | .json data => do
    let fields ← object? data
    let payload ← object? (payloadOf fields)
    let op ← Dict.get? payload "op"
    let row ← object? (← Dict.get? payload "after")
    let msgRunId ← Dict.get? row "test_run_id"
    let id ← integer? (← Dict.get? row "id")
    -- The row belongs to the run when its `test_run_id` equals the id of the run.
    if isInsert op && msgRunId.pyEq (.str runId) then some id else none
  | _ => none

/-- A message that reports no insert of the run: empty, undecodable, no insert, or foreign. -/
inductive Harmless (runId : String) : MessageValue → Prop where
  | missing : Harmless runId .missing
  | undecodable : Harmless runId .undecodable
  -- A value that is no object is passed over with a warning.
  | noObject {data : Json} (other : ∀ fields, data ≠ .obj fields) : Harmless runId (.json data)
  -- `if not payload: continue`.
  | emptyPayload {fields : Dict String Json} (empty : (payloadOf fields).truthy = false) :
      Harmless runId (.json (.obj fields))
  | oddPayload {fields : Dict String Json} (other : ∀ payload, payloadOf fields ≠ .obj payload) :
      Harmless runId (.json (.obj fields))
  | noInsert {fields payload : Dict String Json} (wrapped : payloadOf fields = .obj payload)
      (other : isInsert ((Dict.get? payload "op").getD (.str "")) = false) :
      Harmless runId (.json (.obj fields))
  | oddRow {fields payload : Dict String Json} (wrapped : payloadOf fields = .obj payload)
      (other : ∀ row, (Dict.get? payload "after").getD (.obj []) ≠ .obj row) :
      Harmless runId (.json (.obj fields))
  | foreign {fields payload row : Dict String Json} (wrapped : payloadOf fields = .obj payload)
      (hasRow : (Dict.get? payload "after").getD (.obj []) = .obj row)
      (other : ((Dict.get? row "test_run_id").getD .null).pyEq (.str runId) = false) :
      Harmless runId (.json (.obj fields))

/-- What may be polled while the run's inserts are delivered, among anything that is harmless. -/
inductive Expected (runId : String) (ids : List Int) : Polled → Prop where
  | nothing : Expected runId ids .nothing
  | partitionEof : Expected runId ids .partitionEof
  | created {value : MessageValue} {id : Int} (member : id ∈ ids)
      (created : createdId? runId value = some id) : Expected runId ids (.message value)
  | harmless {value : MessageValue} (harmless : Harmless runId value) :
      Expected runId ids (.message value)

/-- No poll comes back empty later than the timeout after the last message. -/
def NoGap : Rat → List Poll → Prop
  | _, [] => True
  | last, poll :: polls =>
    match poll.polled with
    | .nothing => poll.now - last ≤ noMessageTimeout ∧ NoGap last polls
    | .message _ => NoGap poll.now polls
    | _ => NoGap last polls

/-- The id of the run's row whose insert a poll delivers. -/
def deliveredId? (runId : String) : Polled → Option Int
  | .message value => createdId? runId value
  | _ => none

/-- The ids of the run's inserts in the order in which they are delivered, repetitions included. -/
def created (runId : String) (polls : List Poll) : List Int :=
  polls.filterMap fun poll => deliveredId? runId poll.polled

/-- Only a message delivers an id. -/
theorem deliveredId?_eq_some {runId : String} {polled : Polled} {id : Int} :
    deliveredId? runId polled = some id ↔
      ∃ value, polled = .message value ∧ createdId? runId value = some id := by
  cases polled <;> simp [deliveredId?]

/-- Only an object has fields. -/
theorem object?_eq_some {value : Json} {fields : Dict String Json} :
    object? value = some fields ↔ value = .obj fields := by
  cases value <;> simp [object?]

/-- The integers among the values are the numbers without a fraction. -/
theorem integer?_eq_some {value : Json} {id : Int} :
    integer? value = some id ↔ value = .num id := by
  cases value with
  | num number =>
    -- A number with denominator one is its numerator.
    have whole := Rat.den_eq_one_iff number
    simp only [integer?, Option.ite_none_right_eq_some, Option.some.injEq, Json.num.injEq, whole]
    constructor
    · intro whole
      obtain ⟨integral, same⟩ := whole
      exact same ▸ integral.symm
    · intro same
      simp [same]
  | _ => simp [integer?]

/-- What a message that reports an insert of the run looks like. -/
theorem createdId?_eq_some {runId : String} {data : Json} {id : Int} :
    createdId? runId (.json data) = some id ↔ ∃ fields payload op row msgRunId,
      data = .obj fields ∧ payloadOf fields = .obj payload ∧ Dict.get? payload "op" = some op ∧
      Dict.get? payload "after" = some (.obj row) ∧ Dict.get? row "test_run_id" = some msgRunId ∧
      Dict.get? row "id" = some (.num id) ∧ isInsert op = true ∧
      msgRunId.pyEq (.str runId) = true := by
  -- Each field on the way is there and of its type.
  simp [createdId?, Option.bind_eq_some_iff, object?_eq_some, integer?_eq_some]

/-- A message counts when it is an insert with a row that is not known to be of another run. -/
theorem countedId_eq_some {runId : Option String} {data id : Json} :
    countedId runId data = .ok (some id) ↔ ∃ fields payload row, data = .obj fields ∧
      payloadOf fields = .obj payload ∧ payload ≠ [] ∧
      isInsert ((Dict.get? payload "op").getD (.str "")) = true ∧
      (Dict.get? payload "after").getD (.obj []) = .obj row ∧
      otherRun runId ((Dict.get? row "test_run_id").getD .null) = false ∧
      (Dict.get? row "id").getD .null = id := by
  cases data with
  | obj fields =>
    cases wrapped : payloadOf fields with
    | obj payload =>
      by_cases empty : payload = []
      · simp [countedId, wrapped, Json.truthy, empty, pure, Except.pure]
      · cases insert : isInsert ((Dict.get? payload "op").getD (.str "")) with
        | false => simp [countedId, wrapped, Json.truthy, empty, Json.get, insert, bind,
            Except.bind, pure, Except.pure]
        | true =>
          -- An insert goes on to its row, whose lookups succeed on a dictionary only.
          cases hasRow : (Dict.get? payload "after").getD (.obj []) with
          | obj row =>
            cases other : otherRun runId ((Dict.get? row "test_run_id").getD .null) <;>
              simp [countedId, wrapped, Json.truthy, empty, Json.get, insert, hasRow, other, bind,
                Except.bind, pure, Except.pure]
          | _ => simp [countedId, wrapped, Json.truthy, empty, Json.get, insert, hasRow, bind,
              Except.bind]
    | _ =>
      -- Any other payload is empty or does not answer the first lookup.
      by_cases truthy : (payloadOf fields).truthy = true <;> rw [wrapped] at truthy <;>
        simp [countedId, wrapped, truthy, Json.get, bind, Except.bind, pure, Except.pure]
  | _ => simp [countedId, pure, Except.pure]

/-- A message that reports an insert of the run counts with the id of its row. -/
theorem countedId_created {runId : String} {data : Json} {id : Int}
    (found : createdId? runId (.json data) = some id) :
    countedId (some runId) data = .ok (some (.num id)) := by
  obtain ⟨fields, payload, op, row, msgRunId, same, wrapped, hasOp, hasRow, hasRun, hasId, insert,
    sameRun⟩ := createdId?_eq_some.mp found
  -- A payload with an operation is not empty.
  have present : payload ≠ [] := by
    intro empty
    rw [empty] at hasOp
    cases hasOp
  exact countedId_eq_some.mpr ⟨fields, payload, row, same, wrapped, present, by simpa [hasOp],
    by simp [hasRow], by simp [hasRun, otherRun, sameRun], by simp [hasId]⟩

/-- A harmless message counts for nothing, whether it is skipped or raises. -/
theorem countedId_harmless {runId : String} (named : runId ≠ "") {data : Json}
    (harmless : Harmless runId (.json data)) (id : Json) :
    countedId (some runId) data ≠ .ok (some id) := by
  -- Every kind of harmless message lacks something that counting asks for.
  intro counted
  obtain ⟨fields, payload, row, same, wrapped, present, insert, hasRow, sameRun, _⟩ :=
    countedId_eq_some.mp counted
  cases harmless with
  | noObject other => exact other fields same
  | emptyPayload empty =>
    cases same
    simp [wrapped, Json.truthy, present] at empty
  | oddPayload other =>
    cases same
    exact other payload wrapped
  | noInsert wrappedToo other =>
    cases same
    cases wrapped.symm.trans wrappedToo
    rw [insert] at other
    cases other
  | oddRow wrappedToo other =>
    cases same
    cases wrapped.symm.trans wrappedToo
    exact other row hasRow
  | foreign wrappedToo hasRowToo other =>
    cases same
    cases wrapped.symm.trans wrappedToo
    cases hasRow.symm.trans hasRowToo
    simp [otherRun, named, other] at sameRun

/-- A harmless message reports no insert of the run. -/
theorem createdId?_harmless {runId : String} (named : runId ≠ "") {value : MessageValue}
    (harmless : Harmless runId value) : createdId? runId value = none := by
  cases value with
  | json data =>
    -- A report of an insert would count.
    by_contra reported
    obtain ⟨id, found⟩ := Option.ne_none_iff_exists'.mp reported
    exact countedId_harmless named harmless _ (countedId_created found)
  | _ => rfl

/-- A harmless message leaves the loop as it was. -/
theorem process_harmless {runId : String} (named : runId ≠ "") {value : MessageValue}
    (harmless : Harmless runId value) (numMessages : Int) (state : State) :
    process ⟨numMessages, some runId⟩ state value = .proceed state := by
  -- A message is counted, raises inside of the `try`, or carries no JSON at all.
  cases value with
  | json data =>
    cases counted : countedId (some runId) data with
    | error fault => simp [process, counted]
    | ok result =>
      cases result with
      | none => simp [process, counted]
      | some id => exact absurd counted (countedId_harmless named harmless id)
  | _ => rfl

/-- Tracking the id of a row counts one message and leaves the time alone. -/
theorem messageCount_track (state : State) (id : Int) :
    (track state (.num id)).messageCount = state.messageCount + 1 := by
  simp [track, addId, pure, Except.pure]

/-- Tracking an id leaves the time of the last message. -/
theorem lastMessageTime_track (state : State) (id : Int) :
    (track state (.num id)).lastMessageTime = state.lastMessageTime := by
  simp [track, addId, pure, Except.pure]

/-- A message that reports an insert of the run is tracked, and the count decides. -/
theorem process_created {runId : String} {value : MessageValue} {id : Int}
    (found : createdId? runId value = some id) (numMessages : Int) (state : State) :
    process ⟨numMessages, some runId⟩ state value =
      if numMessages ≤ state.messageCount + 1 then .leave (track state (.num id))
      else .proceed (track state (.num id)) := by
  -- Tracking adds one to the count before it is compared.
  cases value with
  | json data => simp [process, countedId_created found, messageCount_track]
  | _ => cases found

/-- Received ids that are integers all the way. -/
def Integers (ids : List Json) : Prop := ∀ value ∈ ids, ∃ id : Int, value = .num id

/-- Tracking the id of a row adds it, and nothing else. -/
theorem mem_track (state : State) (integers : Integers state.receivedIds) (id : Int)
    (value : Json) : value ∈ (track state (.num id)).receivedIds ↔
      value ∈ state.receivedIds ∨ value = .num id := by
  cases there : state.receivedIds.any (Json.num id).pyEq with
  | true =>
    -- Among integers an equal id is the same id.
    obtain ⟨other, member, equal⟩ := List.any_eq_true.mp there
    obtain ⟨number, same⟩ := integers other member
    rw [same] at equal
    have agree : id = number := by simpa [Json.pyEq] using equal
    rw [same, ← agree] at member
    simp only [track, addId, there, if_true, pure, Except.pure]
    constructor
    · exact Or.inl
    · intro either
      exact either.elim (fun old => old) fun new => new ▸ member
  | false =>
    have added : (track state (.num id)).receivedIds = state.receivedIds ++ [.num id] := by
      unfold track addId
      rw [there]
      rfl
    rw [added, List.mem_append, List.mem_singleton]

/-- Tracking the id of a row keeps the received ids integers. -/
theorem integers_track (state : State) (integers : Integers state.receivedIds) (id : Int) :
    Integers (track state (.num id)).receivedIds := by
  intro value member
  -- Tracking adds the one id at most.
  rcases (mem_track state integers id value).mp member with old | new
  · exact integers value old
  · exact ⟨id, new⟩

/-- A loop that has counted enough has ended. -/
theorem consume_done {settings : Settings} {state : State}
    (done : settings.numMessages ≤ state.messageCount) (polls : List Poll) :
    consume settings state polls = some state := by
  cases polls <;> simp [consume, done]

/-- After a poll that leaves the count open the loop goes on with the next one. -/
theorem consume_proceed {settings : Settings} {state next : State}
    (more : ¬ settings.numMessages ≤ state.messageCount) {poll : Poll}
    (handled : handle settings state poll = .proceed next) (polls : List Poll) :
    consume settings state (poll :: polls) = consume settings next polls := by
  simp [consume, more, handled]

/-- An insert of the run is tracked, whether the loop then ends or goes on. -/
theorem consume_created {numMessages : Int} {runId : String} {value : MessageValue} {id : Int}
    (found : createdId? runId value = some id) {state : State}
    (more : ¬ numMessages ≤ state.messageCount) (now : Rat) (polls : List Poll) :
    consume ⟨numMessages, some runId⟩ state (⟨now, .message value⟩ :: polls) =
      consume ⟨numMessages, some runId⟩ (track { state with lastMessageTime := now } (.num id))
        polls := by
  have handled : handle ⟨numMessages, some runId⟩ state ⟨now, .message value⟩ = _ :=
    process_created found numMessages { state with lastMessageTime := now }
  by_cases last : numMessages ≤ state.messageCount + 1
  · -- The loop ends at once, as it would before the next poll.
    rw [if_pos last] at handled
    have counted : numMessages ≤
        (track { state with lastMessageTime := now } (.num id)).messageCount := by
      rw [messageCount_track]
      exact last
    have ended := @consume_done ⟨numMessages, some runId⟩ _ counted polls
    rw [ended]
    simp [consume, more, handled]
  · rw [if_neg last] at handled
    exact consume_proceed more handled polls

/-- An expected poll without an insert of the run at most puts the timeout off. -/
theorem handle_uncounted {numMessages : Int} {runId : String} (named : runId ≠ "") {ids : List Int}
    {state : State} {poll : Poll} {polls : List Poll} (expected : Expected runId ids poll.polled)
    (quiet : NoGap state.lastMessageTime (poll :: polls))
    (uncounted : deliveredId? runId poll.polled = none) :
    ∃ time, handle ⟨numMessages, some runId⟩ state poll =
        .proceed { state with lastMessageTime := time } ∧ NoGap time polls := by
  rcases poll with ⟨now, polled⟩
  cases expected with
  | nothing =>
    -- An empty poll is not late enough to end the loop.
    obtain ⟨inTime, later⟩ := quiet
    exact ⟨state.lastMessageTime, if_neg (Rat.not_lt.mpr inTime), later⟩
  | partitionEof => exact ⟨state.lastMessageTime, rfl, quiet⟩
  | created member found => cases found.symm.trans uncounted
  | harmless harmless => exact ⟨now, process_harmless named harmless numMessages _, quiet⟩

/-- What the loop has received in the end: the first of the run's inserts that are delivered. -/
theorem consume_expected {numMessages : Int} {runId : String} (named : runId ≠ "")
    {ids : List Int} {polls : List Poll} (state : State)
    (expected : ∀ poll ∈ polls, Expected runId ids poll.polled)
    (quiet : NoGap state.lastMessageTime polls) (integers : Integers state.receivedIds)
    (enough : (numMessages - state.messageCount).toNat ≤ (created runId polls).length) :
    ∃ final, consume ⟨numMessages, some runId⟩ state polls = some final ∧
      ∀ value, value ∈ final.receivedIds ↔ value ∈ state.receivedIds ∨
        ∃ id ∈ (created runId polls).take (numMessages - state.messageCount).toNat,
          value = .num id := by
  -- The induction follows the polls, and the state varies with what they deliver.
  induction polls generalizing state with
  | nil =>
    have done : numMessages ≤ state.messageCount := by
      simp only [created, List.filterMap_nil, List.length_nil] at enough
      omega
    exact ⟨state, consume_done done [], by simp [created]⟩
  | cons poll polls ih =>
    by_cases done : numMessages ≤ state.messageCount
    · have noneLeft : (numMessages - state.messageCount).toNat = 0 := by omega
      exact ⟨state, consume_done done _, by simp [noneLeft]⟩
    · have laterExpected := fun other member => expected other (List.mem_cons_of_mem poll member)
      cases delivers : deliveredId? runId poll.polled with
      | none =>
        obtain ⟨time, handled, later⟩ :=
          handle_uncounted named (expected poll List.mem_cons_self) quiet delivers
        have skipped : created runId (poll :: polls) = created runId polls := by
          simp [created, delivers]
        rw [skipped] at enough ⊢
        rw [consume_proceed done handled]
        exact ih { state with lastMessageTime := time } laterExpected later integers enough
      | some id =>
        -- The insert takes the first of the remaining places.
        obtain ⟨value, carried, found⟩ := deliveredId?_eq_some.mp delivers
        rcases poll with ⟨now, polled⟩
        subst carried
        have first : created runId (⟨now, .message value⟩ :: polls) =
            id :: created runId polls := by
          simp [created, delivers]
        have places : (numMessages - state.messageCount).toNat =
            (numMessages - (state.messageCount + 1)).toNat + 1 := by
          omega
        rw [first, places, List.length_cons] at enough
        rw [first, places, List.take_succ_cons, consume_created found done]
        obtain ⟨final, consumed, received⟩ := ih _ laterExpected
          (by rw [lastMessageTime_track]; exact quiet)
          (integers_track { state with lastMessageTime := now } integers id)
          (by rw [messageCount_track]; exact Nat.le_of_succ_le_succ enough)
        refine ⟨final, consumed, fun value => ?_⟩
        rw [received, messageCount_track,
          mem_track { state with lastMessageTime := now } integers]
        simp [or_assoc]

/-- Ids that are each expected and as many as expected are all of them when none repeats. -/
theorem complete_iff_nodup {ids : List Int} (distinct : ids.Nodup) (taken : List Int)
    (length : taken.length = ids.length) (subset : ∀ id ∈ taken, id ∈ ids) :
    (∀ id ∈ ids, id ∈ taken) ↔ taken.Nodup := by
  constructor
  · -- A complete list of the same length is a rearrangement.
    intro complete
    exact ((List.subperm_of_subset distinct complete).perm_of_length_le
      (Nat.le_of_eq length)).nodup distinct
  · intro nodup id member
    exact ((List.subperm_of_subset nodup subset).perm_of_length_le
      (Nat.le_of_eq length.symm)).mem_iff.mpr member

/-- What is delivered of the run's inserts is among the inserted ids. -/
theorem created_subset {runId : String} (named : runId ≠ "") {ids : List Int} {polls : List Poll}
    (expected : ∀ poll ∈ polls, Expected runId ids poll.polled) :
    ∀ id ∈ created runId polls, id ∈ ids := by
  intro id member
  obtain ⟨poll, polled, delivered⟩ := List.mem_filterMap.mp member
  obtain ⟨value, carried, found⟩ := deliveredId?_eq_some.mp delivered
  have here := expected poll polled
  rw [carried] at here
  -- A delivery is one of a known insert, or it reports none.
  cases here with
  | created known again =>
    cases again.symm.trans found
    exact known
  | harmless harmless => cases (createdId?_harmless named harmless).symm.trans found

/--
The test receives exactly the inserted ids when no id repeats among the inserts that it counts.

It counts the first inserts of its run that are delivered, as many as it has inserted.
-/
theorem received_iff {numMessages : Int} {runId : String} (named : runId ≠ "")
    (inserted : InsertedIds numMessages) {begin : Rat} {polls : List Poll}
    (expected : ∀ poll ∈ polls, Expected runId inserted.ids poll.polled)
    (delivered : ∀ id ∈ inserted.ids, id ∈ created runId polls) (quiet : NoGap begin polls) :
    (∃ final, consume ⟨numMessages, some runId⟩ (start begin) polls = some final ∧
      ∀ value, value ∈ final.receivedIds ↔ ∃ id ∈ inserted.ids, value = .num id) ↔
    ((created runId polls).take inserted.ids.length).Nodup := by
  have known := created_subset named expected
  -- Every inserted id is delivered, so there are enough inserts to count.
  have enough : inserted.ids.length ≤ (created runId polls).length :=
    (List.subperm_of_subset inserted.distinct delivered).length_le
  have total : (numMessages - (start begin).messageCount).toNat = inserted.ids.length := by
    simp [start, inserted.length_eq]
  obtain ⟨final, consumed, received⟩ := consume_expected named (start begin) expected
    quiet (by simp [Integers, start]) (total ▸ enough)
  rw [total] at received
  have complete := complete_iff_nodup inserted.distinct
    ((created runId polls).take inserted.ids.length)
    (by rw [List.length_take]; omega) (fun id member => known id (List.mem_of_mem_take member))
  have receives : ∀ id : Int, .num id ∈ final.receivedIds ↔
      id ∈ (created runId polls).take inserted.ids.length := by
    intro id
    simp [received, start]
  rw [← complete, consumed]
  constructor
  · intro ended id member
    obtain ⟨other, same, exactly⟩ := ended
    cases same
    exact (receives id).mp ((exactly (.num id)).mpr ⟨id, member, rfl⟩)
  · intro all
    refine ⟨final, rfl, fun value => ⟨fun member => ?_, ?_⟩⟩
    · -- Whatever is received stems from one of the counted inserts.
      obtain old | ⟨id, counted, same⟩ := (received value).mp member
      · cases old
      · exact ⟨id, known id (List.mem_of_mem_take counted), same⟩
    · intro inserted
      obtain ⟨id, member, same⟩ := inserted
      rw [same]
      exact (receives id).mpr (all id member)

/-- A create event for a row of a run, as it is delivered without a payload wrapper. -/
def createEvent (runId : String) (id : Int) : MessageValue :=
  .json (.obj [("op", .str "c"),
    ("after", .obj [("id", .num id), ("test_run_id", .str runId)])])

/-- The event of an insert reports its id. -/
theorem createdId?_createEvent (runId : String) (id : Int) :
    createdId? runId (createEvent runId id) = some id :=
  createdId?_eq_some.mpr ⟨_, _, .str "c", _, .str runId, rfl, rfl, rfl, rfl, rfl, rfl, by
    simp [isInsert, Json.pyEq], by simp [Json.pyEq]⟩

/-- A create event of another run is harmless. -/
theorem harmless_createEvent {runId other : String} (ne : other ≠ runId) (id : Int) :
    Harmless runId (createEvent other id) :=
  .foreign rfl rfl (by simp [Dict.get?, Json.pyEq, ne])

/-- Two rows, delivered around a row of another run and in the opposite order. -/
theorem received_reordered : ∃ final, consume ⟨2, some "run"⟩ (start 0)
    [⟨1, .message (createEvent "run" 2)⟩, ⟨2, .message (createEvent "other" 7)⟩,
      ⟨3, .message (createEvent "run" 1)⟩] = some final ∧
    ∀ value, value ∈ final.receivedIds ↔ ∃ id ∈ [(1 : Int), 2], value = .num id :=
  (received_iff (by decide) ⟨[1, 2], rfl, by decide⟩
    (by
      intro poll member
      simp only [List.mem_cons, List.not_mem_nil, or_false] at member
      -- The row of the other run is harmless.
      rcases member with same | same | same <;> subst same
      · exact .created (by decide) (createdId?_createEvent "run" 2)
      · exact .harmless (harmless_createEvent (by decide) 7)
      · exact .created (by decide) (createdId?_createEvent "run" 1))
    (by decide) (by simp [NoGap])).mpr (by decide)

/-- The first of two rows is delivered twice. -/
def repeatedPolls : List Poll :=
  [⟨1, .message (createEvent "run" 1)⟩, ⟨2, .message (createEvent "run" 1)⟩,
    ⟨3, .message (createEvent "run" 2)⟩]

/-- A repeated create event takes the place of the other row. -/
theorem received_counterexample :
    (∀ poll ∈ repeatedPolls, Expected "run" [1, 2] poll.polled) ∧
    (∀ id ∈ [(1 : Int), 2], id ∈ created "run" repeatedPolls) ∧ NoGap 0 repeatedPolls ∧
    ¬ ∃ final, consume ⟨2, some "run"⟩ (start 0) repeatedPolls = some final ∧
      ∀ value, value ∈ final.receivedIds ↔ ∃ id ∈ [(1 : Int), 2], value = .num id := by
  refine ⟨?_, by decide, by simp [NoGap, repeatedPolls], ?_⟩
  · intro poll member
    simp only [repeatedPolls, List.mem_cons, List.not_mem_nil, or_false] at member
    rcases member with same | same | same <;> subst same <;>
      exact .created (by decide) (createdId?_createEvent "run" _)
  · intro ended
    obtain ⟨final, consumed, exactly⟩ := ended
    -- The second message completes the count, so the third one is never read.
    have early : consume ⟨2, some "run"⟩ (start 0) repeatedPolls =
        some ⟨2, 2, [.num 1]⟩ := by rfl
    cases early.symm.trans consumed
    have second := (exactly (.num 2)).mpr ⟨2, by decide, rfl⟩
    simp at second

end AivenExamples.DebeziumDiskless
