import AivenExamples.Data.Json

/-! Restoring a log file into an index, one document at a time, and again after a failure. -/

namespace AivenExamples.LogRestore

/-- What becomes of one request to index a document. -/
inductive Outcome where
  | indexed
  /-- The request failed and left the index alone. -/
  | refused (reason : String)
  /-- The document was written, and the confirmation was lost on its way back. -/
  | unconfirmed (reason : String)
  deriving DecidableEq

/-- The reply of the cloud function. -/
inductive Response where
  | success (result : List Json)
  | failure (reason : String)

/-- The target index, by document id, and the number of index requests sent so far. -/
structure State (ι : Type) where
  index : Dict ι Json
  requests : Nat

variable {ι : Type} [DecidableEq ι]

/-- Writing a document under an id, which replaces the document that had this id. -/
def State.write (state : State ι) (id : ι) (body : Json) : State ι :=
  { index := state.index.set id body, requests := state.requests + 1 }

/-- A request that leaves nothing behind. -/
def State.skip (state : State ι) : State ι := { state with requests := state.requests + 1 }

/--
The loop of `restore_logs` over the documents of the file.

The id of a request is what `uuid4` returns at the time, the outcome what the cluster makes of it.
-/
def restoreDocuments (uuid4 : Nat → ι) (outcome : Nat → Outcome) (doc : List Json) :
    List Json → State ι → Response × State ι
  | [], state => (.success doc, state)
  | d :: rest, state =>
    match outcome state.requests with
    | .indexed => restoreDocuments uuid4 outcome doc rest (state.write (uuid4 state.requests) d)
    -- The first exception ends the invocation.
    | .refused reason => (.failure reason, state.skip)
    | .unconfirmed reason => (.failure reason, state.write (uuid4 state.requests) d)

/-- `restore_logs` once the file has been downloaded and parsed. -/
def restoreLogs (uuid4 : Nat → ι) (outcome : Nat → Outcome) (doc : List Json) (state : State ι) :
    Response × State ι :=
  restoreDocuments uuid4 outcome doc doc state

/-- Invocations with the same file until one reports success, with the number that failed. -/
inductive Retried (uuid4 : Nat → ι) (outcome : Nat → Outcome) (doc : List Json) :
    State ι → Nat → State ι → Prop where
  | done {state final : State ι} {result : List Json}
      (success : restoreLogs uuid4 outcome doc state = (.success result, final)) :
      Retried uuid4 outcome doc state 0 final
  | again {state next final : State ι} {reason : String} {failures : Nat}
      (failure : restoreLogs uuid4 outcome doc state = (.failure reason, next))
      (rest : Retried uuid4 outcome doc next failures final) :
      Retried uuid4 outcome doc state (failures + 1) final

/-- The ids of the requests up to a limit differ from each other and from those in the index. -/
structure Fresh (uuid4 : Nat → ι) (limit : Nat) (state : State ι) : Prop where
  distinct : ∀ first < limit, ∀ second < limit, uuid4 first = uuid4 second → first = second
  unused : ∀ request < limit, state.requests ≤ request → uuid4 request ∉ state.index.keys

/-- The documents that an invocation writes when its first request has this number. -/
def written (outcome : Nat → Outcome) : Nat → List Json → List Json
  | _, [] => []
  | request, d :: rest =>
    match outcome request with
    | .indexed => d :: written outcome (request + 1) rest
    | .refused _ => []
    | .unconfirmed _ => [d]

section Invocation

variable {uuid4 : Nat → ι} {outcome : Nat → Outcome} {limit : Nat}

/-- A fresh id adds the document, and the ids to come stay fresh. -/
theorem fresh_write {state : State ι} (fresh : Fresh uuid4 limit state)
    (within : state.requests < limit) (body : Json) :
    (state.write (uuid4 state.requests) body).index.values = state.index.values ++ [body] ∧
      Fresh uuid4 limit (state.write (uuid4 state.requests) body) := by
  have absent := fresh.unused state.requests within (Nat.le_refl _)
  refine ⟨by simp [State.write, Dict.set_of_not_mem absent, Dict.values],
    fresh.distinct, fun request bounded later taken => ?_⟩
  simp only [State.write] at later
  -- An id in the index is an older one or the one just drawn.
  rcases Dict.mem_keys_set.mp taken with same | old
  · have drawn := fresh.distinct _ bounded _ within same
    omega
  · exact fresh.unused request bounded (by omega) old

/-- An invocation only sends more requests. -/
theorem requests_le (uuid4 : Nat → ι) (outcome : Nat → Outcome) (doc rest : List Json)
    (state : State ι) :
    state.requests ≤ (restoreDocuments uuid4 outcome doc rest state).2.requests := by
  -- Every round of the loop sends one request.
  induction rest generalizing state with
  | nil => exact Nat.le_refl _
  | cons d rest ih =>
    cases answer : outcome state.requests with
    | indexed =>
      have later := ih (state.write (uuid4 state.requests) d)
      simp only [restoreDocuments, answer]
      exact Nat.le_of_succ_le later
    | refused reason => simp [restoreDocuments, answer, State.skip]
    | unconfirmed reason => simp [restoreDocuments, answer, State.write]

/-- An invocation adds to the index what its requests wrote. -/
theorem values_restoreDocuments (outcome : Nat → Outcome) (doc rest : List Json) {state : State ι}
    (fresh : Fresh uuid4 limit state)
    (within : (restoreDocuments uuid4 outcome doc rest state).2.requests ≤ limit) :
    (restoreDocuments uuid4 outcome doc rest state).2.index.values =
        state.index.values ++ written outcome state.requests rest ∧
      Fresh uuid4 limit (restoreDocuments uuid4 outcome doc rest state).2 := by
  -- Every request writes its document under an id of its own, or ends the loop.
  induction rest generalizing state with
  | nil => exact ⟨by simp [restoreDocuments, written], fresh⟩
  | cons d rest ih =>
    cases answer : outcome state.requests with
    | indexed =>
      simp only [restoreDocuments, written, answer] at within ⊢
      have later := requests_le uuid4 outcome doc rest
        (state.write (uuid4 state.requests) d)
      have sent : state.requests < limit := Nat.le_trans later within
      obtain ⟨added, kept⟩ := fresh_write fresh sent d
      obtain ⟨values, final⟩ := ih kept within
      refine ⟨?_, final⟩
      rw [values, added, List.append_assoc]
      rfl
    | refused reason =>
      simp only [restoreDocuments, written, answer, List.append_nil]
      exact ⟨rfl, fresh.distinct, fun request bounded later =>
        fresh.unused request bounded (Nat.le_of_succ_le later)⟩
    | unconfirmed reason =>
      simp only [restoreDocuments, written, answer] at within ⊢
      exact fresh_write fresh within d

/-- A successful invocation has written every document. -/
theorem written_of_success {doc rest result : List Json} {state final : State ι}
    (success : restoreDocuments uuid4 outcome doc rest state = (.success result, final)) :
    written outcome state.requests rest = rest := by
  -- An outcome other than an indexed document would have ended the invocation.
  induction rest generalizing state with
  | nil => rfl
  | cons d rest ih =>
    cases answer : outcome state.requests with
    | indexed =>
      simp only [restoreDocuments, answer] at success
      simp only [written, answer]
      exact congrArg _ (ih success)
    | refused reason => simp [restoreDocuments, answer] at success
    | unconfirmed reason => simp [restoreDocuments, answer] at success

/-- A failed invocation wrote nothing exactly when its first request was refused. -/
theorem written_of_failure {doc rest : List Json} {reason : String} {state next : State ι}
    (failure : restoreDocuments uuid4 outcome doc rest state = (.failure reason, next)) :
    written outcome state.requests rest = [] ↔
      ∃ reason, outcome state.requests = .refused reason := by
  -- Without documents nothing fails, and else the first answer decides.
  cases rest with
  | nil => simp [restoreDocuments] at failure
  | cons d rest => cases answer : outcome state.requests <;> simp [written, answer]

/-- An invocation whose first request was refused has sent no other one. -/
theorem requests_of_refused {doc : List Json} {reason : String} {state next : State ι}
    (failure : restoreLogs uuid4 outcome doc state = (.failure reason, next)) {refusal : String}
    (refused : outcome state.requests = .refused refusal) :
    next.requests = state.requests + 1 := by
  -- The loop is left at the first refusal.
  cases doc with
  | nil => simp [restoreLogs, restoreDocuments] at failure
  | cons d rest =>
    simp only [restoreLogs, restoreDocuments, refused, Prod.mk.injEq] at failure
    rw [← failure.2]
    rfl

end Invocation

/-! ### Retrying -/

section Retrying

variable {uuid4 : Nat → ι} {outcome : Nat → Outcome} {limit : Nat} {doc : List Json}

/-- Invocations one after the other only send more requests. -/
theorem Retried.requests_le {state final : State ι} {failures : Nat}
    (retried : Retried uuid4 outcome doc state failures final) :
    state.requests ≤ final.requests := by
  -- Each invocation sends more requests, the last one included.
  induction retried with
  | @done state final result success =>
    have later := LogRestore.requests_le uuid4 outcome doc doc state
    rw [restoreLogs] at success
    rwa [success] at later
  | @again state next final reason failures failure rest ih =>
    have later := LogRestore.requests_le uuid4 outcome doc doc state
    rw [restoreLogs] at failure
    rw [failure] at later
    exact Nat.le_trans later ih

/-- A failed invocation adds to the index what it wrote, and leaves fresh ids for the next one. -/
theorem Fresh.failure {state next : State ι} {reason : String}
    (fresh : Fresh uuid4 limit state) (within : next.requests ≤ limit)
    (failure : restoreLogs uuid4 outcome doc state = (.failure reason, next)) :
    next.index.values = state.index.values ++ written outcome state.requests doc ∧
      Fresh uuid4 limit next := by
  have invocation := values_restoreDocuments outcome doc doc fresh
  -- The invocation and its loop end in the same state.
  rw [restoreLogs] at failure
  rw [failure] at invocation
  exact invocation within

/-- A successful invocation adds every document to the index. -/
theorem Fresh.success {state final : State ι} {result : List Json}
    (fresh : Fresh uuid4 limit state) (within : final.requests ≤ limit)
    (success : restoreLogs uuid4 outcome doc state = (.success result, final)) :
    final.index.values = state.index.values ++ doc := by
  have invocation := values_restoreDocuments outcome doc doc fresh
  rw [restoreLogs] at success
  -- Without a failure everything has been written.
  rw [success, written_of_success success] at invocation
  exact (invocation within).1

/-- Whatever failed before, the index holds every document in the end. -/
theorem Retried.sublist {state final : State ι} {failures : Nat}
    (retried : Retried uuid4 outcome doc state failures final)
    (fresh : Fresh uuid4 limit state) (within : final.requests ≤ limit) :
    (state.index.values ++ doc).Sublist final.index.values := by
  -- Failed invocations only add documents, and the last one adds them all.
  induction retried with
  | done success => exact fresh.success within success ▸ List.Sublist.refl _
  | @again state next final reason failures failure rest ih =>
    obtain ⟨values, kept⟩ := fresh.failure (Nat.le_trans rest.requests_le within) failure
    refine List.Sublist.trans ?_ (ih kept within)
    rw [values]
    exact (List.sublist_append_left _ _).append (List.Sublist.refl doc)

/-- Retrying leaves every document exactly once iff no failed invocation had written anything. -/
theorem restored_once_iff {initial final : State ι} {failures : Nat}
    (retried : Retried uuid4 outcome doc initial failures final)
    (fresh : Fresh uuid4 final.requests initial) :
    final.index.values.Perm (initial.index.values ++ doc) ↔
      ∀ request < failures, ∃ reason, outcome (initial.requests + request) = .refused reason := by
  -- The limit stays while the invocations are taken away one by one.
  obtain ⟨limit, within⟩ : ∃ limit, limit = final.requests := ⟨_, rfl⟩
  rw [← within] at fresh
  replace within := within.ge
  induction retried with
  | done success => simp [fresh.success within success]
  | @again state next final reason failures failure rest ih =>
    obtain ⟨values, kept⟩ := fresh.failure (Nat.le_trans rest.requests_le within) failure
    have nothing := written_of_failure failure
    by_cases refused : ∃ reason, outcome state.requests = .refused reason
    · -- This invocation left the index as it was, after a single request.
      rw [nothing.mpr refused, List.append_nil] at values
      obtain ⟨refusal, first⟩ := refused
      have single := requests_of_refused failure first
      have later := ih kept within
      rw [values, single] at later
      refine later.trans ?_
      constructor
      · intro others request earlier
        cases request with
        | zero => exact ⟨refusal, first⟩
        | succ request =>
          have other := others request (by omega)
          rwa [Nat.add_assoc, Nat.add_comm 1] at other
      · intro all request earlier
        have other := all (request + 1) (by omega)
        rwa [Nat.add_comm request, ← Nat.add_assoc] at other
    · -- What it wrote is left behind beside the documents of the last invocation.
      refine iff_of_false (fun perm => ?_) (fun all => refused (all 0 (by omega)))
      have left := List.length_pos_of_ne_nil fun none => refused (nothing.mp none)
      have atLeast := (rest.sublist kept within).length_le
      have exactly := perm.length_eq
      simp only [values, List.length_append] at atLeast exactly
      omega

/-- A schedule in which a single request is refused. -/
def refusedAt (position : Nat) : Nat → Outcome := fun request =>
  if request = position then .refused "connection timed out" else .indexed

/-- No document yet and no request sent. -/
def emptyIndex : State Nat := { index := [], requests := 0 }

/-- Two documents restored by two invocations, the first of which was refused at its start. -/
theorem restored_once_first_refused :
    [Json.str "first", .str "second"].Perm [.str "first", .str "second"] ↔
      ∀ request < 1, ∃ reason, refusedAt 0 (0 + request) = .refused reason := by
  -- The second invocation starts anew with the first document.
  have retried : Retried (fun request => request) (refusedAt 0) [.str "first", .str "second"]
      emptyIndex 1 { index := [(1, .str "first"), (2, .str "second")], requests := 3 } :=
    .again rfl (.done rfl)
  exact restored_once_iff retried ⟨fun _ _ _ _ same => same, by simp [emptyIndex]⟩

/-- The two documents after an invocation that was refused at the second one, and a whole one. -/
def restoredTwice : State Nat :=
  { index := [(0, .str "first"), (2, .str "first"), (3, .str "second")], requests := 4 }

/-- A failure at the second document leaves the first one twice in the index. -/
theorem partial_failure_duplicates :
    Retried (fun request => request) (refusedAt 1) [.str "first", .str "second"]
        emptyIndex 1 restoredTwice ∧
      Fresh (fun request => request) restoredTwice.requests emptyIndex ∧
      ¬restoredTwice.index.values.Perm
        (emptyIndex.index.values ++ [.str "first", .str "second"]) := by
  -- Three documents are in the index, where the file has two.
  refine ⟨.again rfl (.done rfl), ⟨fun _ _ _ _ same => same, by simp [emptyIndex]⟩,
    fun perm => ?_⟩
  exact absurd perm.length_eq (by decide)

end Retrying

end AivenExamples.LogRestore
