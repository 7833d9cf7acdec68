import AivenExamples.ReapplyIsm.Main

/-! When a run that finds the policies already applied leaves the indices alone. -/

namespace AivenExamples.ReapplyIsm

/-- The event changes the policy of an index. -/
def Event.AddsPolicy : Event → Prop
  | .addPolicy _ _ _ => True
  | _ => False

/-- The cluster state lists at least one index, and every listed index has the expected shape. -/
def ListsIndices (reply : Reply) : Prop :=
  ∃ response fields metadata indices, reply = .ok response ∧ response.status = 200 ∧
    response.body = some (.obj fields) ∧ Dict.get? fields "metadata" = some (.obj metadata) ∧
    Dict.get? metadata "indices" = some (.obj indices) ∧ indices ≠ [] ∧
    ∀ item ∈ indices, ∃ policy managed, item.2 = .obj policy ∧
      (Dict.get? policy "managed_index_metadata").getD (.obj []) = .obj managed

/-- The indices that are read from a response. -/
theorem listedIndices_ok {response : Response} {indices : List (String × Json)} :
    listedIndices response = .ok indices ↔ ∃ fields metadata,
      response.body = some (.obj fields) ∧ Dict.get? fields "metadata" = some (.obj metadata) ∧
      Dict.get? metadata "indices" = some (.obj indices) := by
  -- Each of the three lookups needs a dictionary that has the key.
  simp only [listedIndices, bind_eq_ok, Response.json_eq_ok, Json.item_eq_ok]
  constructor
  · intro lookups
    obtain ⟨_, body, _, ⟨fields, rfl, metadataFound⟩, value, ⟨metadata, rfl, indicesFound⟩,
      shape⟩ := lookups
    cases value with
    | obj found =>
      cases shape
      exact ⟨fields, metadata, body, metadataFound, indicesFound⟩
    | _ => cases shape
  · intro nested
    obtain ⟨fields, metadata, body, metadataFound, indicesFound⟩ := nested
    exact ⟨_, body, _, ⟨fields, rfl, metadataFound⟩, _, ⟨metadata, rfl, indicesFound⟩, rfl⟩

/-- A policy id can be looked up exactly in an object whose metadata is an object. -/
theorem policyIdOf_ok {value : Json} :
    (∃ policyId, policyIdOf value = .ok policyId) ↔ ∃ policy managed, value = .obj policy ∧
      (Dict.get? policy "managed_index_metadata").getD (.obj []) = .obj managed := by
  -- Both lookups are method calls that only dictionaries answer.
  simp only [policyIdOf, bind_eq_ok, Json.get_eq_ok]
  constructor
  · intro lookups
    obtain ⟨_, _, ⟨policy, rfl, rfl⟩, managed, shape, _⟩ := lookups
    exact ⟨policy, managed, rfl, shape⟩
  · intro nested
    obtain ⟨policy, managed, rfl, shape⟩ := nested
    exact ⟨_, _, ⟨policy, rfl, rfl⟩, managed, shape, rfl⟩

/-- The loop over the indices succeeds exactly when every index has a readable policy id. -/
theorem collectAssignments_ok {indices : List (String × Json)} (assignments : Dict String Json) :
    (∃ collected, (collectAssignments assignments indices).2 = .ok collected) ↔
      ∀ item ∈ indices, ∃ policyId, policyIdOf item.2 = .ok policyId := by
  -- The collected assignments grow along the loop, so they stay quantified over.
  induction indices generalizing assignments with
  | nil => simp [collectAssignments]
  | cons item indices ih =>
    rcases item with ⟨index, policy⟩
    cases found : policyIdOf policy with
    -- The first index without a readable id ends the loop.
    | error fault => simp [collectAssignments, found]
    | ok policyId =>
      simpa [collectAssignments, found] using ih (Dict.set assignments index policyId)

/-- What the loop has collected is empty only when nothing was listed. -/
theorem collectAssignments_ne_nil {indices : List (String × Json)}
    {assignments collected : Dict String Json}
    (succeeds : (collectAssignments assignments indices).2 = .ok collected)
    (something : assignments ≠ [] ∨ indices ≠ []) : collected ≠ [] := by
  -- An assignment that was made is never taken back.
  induction indices generalizing assignments with
  | nil =>
    cases succeeds
    exact something.resolve_right (by simp)
  | cons item indices ih =>
    rcases item with ⟨index, policy⟩
    cases found : policyIdOf policy with
    | error fault => simp [collectAssignments, found] at succeeds
    | ok policyId =>
      have rest : (collectAssignments (Dict.set assignments index policyId) indices).2 =
          .ok collected := by simpa [collectAssignments, found] using succeeds
      exact ih rest (Or.inl (Dict.set_ne_nil assignments index policyId))

/-- The assignments of a response succeed and are not empty exactly when it lists indices. -/
theorem readAssignments_ok {response : Response} :
    (∃ assignments, (readAssignments response).2 = .ok assignments ∧ assignments ≠ []) ↔
      ListsIndices (.ok response) := by
  unfold readAssignments ListsIndices
  -- Any other status is an error, whatever the body says.
  by_cases successful : response.status = 200
  · cases listed : listedIndices response with
    | error fault =>
      -- Without a list of indices neither side can hold.
      have none : ∀ indices, listedIndices response ≠ .ok indices := by simp [listed]
      simp only [successful, ne_eq, not_true_eq_false, if_false, reduceCtorEq, false_and,
        exists_false, false_iff]
      intro lists
      obtain ⟨_, fields, metadata, indices, same, _, body, metadataFound, indicesFound, _⟩ := lists
      cases same
      exact none indices
        (listedIndices_ok.mpr ⟨fields, metadata, body, metadataFound, indicesFound⟩)
    -- What is collected from the list decides both sides.
    | ok indices =>
      obtain ⟨fields, metadata, body, metadataFound, indicesFound⟩ := listedIndices_ok.mp listed
      simp only [successful, ne_eq, not_true_eq_false, if_false]
      constructor
      · intro reads
        obtain ⟨assignments, succeeds, nonempty⟩ := reads
        refine ⟨response, fields, metadata, indices, rfl, successful, body, metadataFound,
          indicesFound, ?_, ?_⟩
        · intro empty
          subst empty
          cases succeeds
          exact nonempty rfl
        · intro item member
          exact policyIdOf_ok.mp ((collectAssignments_ok []).mp ⟨_, succeeds⟩ item member)
      · intro lists
        obtain ⟨_, otherFields, otherMetadata, others, same, _, otherBody, otherFound, found,
          nonempty, shaped⟩ := lists
        cases same
        have listedAgain : listedIndices response = .ok others :=
          listedIndices_ok.mpr ⟨otherFields, otherMetadata, otherBody, otherFound, found⟩
        obtain rfl : indices = others := by simpa [listed] using listedAgain
        obtain ⟨assignments, succeeds⟩ := (collectAssignments_ok []).mpr
          fun item member => policyIdOf_ok.mpr (shaped item member)
        exact ⟨assignments, succeeds, collectAssignments_ne_nil succeeds (Or.inr nonempty)⟩
  · simp only [ne_eq, successful, not_false_eq_true, if_true, reduceCtorEq, false_and, exists_false,
      false_iff]
    intro lists
    obtain ⟨_, _, _, _, same, status, _⟩ := lists
    cases same
    exact successful status

/-- Warnings about indices have no effect on the rest of the run. -/
theorem warnings_result (warned : List String) :
    ∃ done, (Run.forEach (fun index => Run.emit (Event.undetermined index)) warned).result =
      some done := by
  -- Every warning is one event that lets the loop go on.
  have loop : ∃ done,
      (Run.forEach (fun index => Run.emit (Event.undetermined index)) warned).result = some done ∧
        ∀ value ∈ done, value = () :=
    Run.forEach_result_some fun index _ => ⟨(), Run.result_emit _, rfl⟩
  exact loop.imp fun _ both => both.1

/-- Retrieving the assignments changes no policy. -/
theorem retrieve_always (reply : Reply) :
    (retrieveAssignmentsFromClusterMetadata reply).Always fun event => ¬ event.AddsPolicy := by
  -- None of the events on the way is a request for a policy.
  refine Run.always_bind (Run.always_emit id) fun _ _ => ?_
  refine Run.always_bind (Run.always_attempt _ id) fun result _ => ?_
  obtain ⟨warned, outcome⟩ := readAssignments result
  refine Run.always_bind (Run.always_forEach fun _ _ => Run.always_emit id) fun _ _ => ?_
  cases outcome with
  | ok assignments => exact Run.always_pure _ _
  | error fault => exact Run.always_bind (Run.always_emit id) fun _ _ => Run.always_pure _ _

/-- What is retrieved from a response, nothing where reading it fails. -/
theorem retrieve_result (response : Response) :
    (retrieveAssignmentsFromClusterMetadata (.ok response)).result =
      some (match (readAssignments response).2 with
        | .ok assignments => assignments
        | .error _ => []) := by
  -- The request and the warnings let the run go on to the outcome.
  obtain ⟨done, warned⟩ := warnings_result (readAssignments response).1
  have answered : (Run.attempt (.ok response : Reply) Event.uncaught).result = some response := rfl
  rw [retrieveAssignmentsFromClusterMetadata, Run.bind_of_some (Run.result_emit _),
    Run.bind_of_some answered]
  simp only [Run.bind_of_some warned]
  cases (readAssignments response).2 <;> rfl

/-- The assignments are retrieved and not empty exactly when the cluster state lists indices. -/
theorem retrieve_nonempty_iff (reply : Reply) :
    (∃ assignments, (retrieveAssignmentsFromClusterMetadata reply).result = some assignments ∧
      assignments ≠ []) ↔ ListsIndices reply := by
  -- Without a response nothing is retrieved.
  cases reply with
  | error fault =>
    constructor
    · intro retrieves
      obtain ⟨assignments, retrieved, _⟩ := retrieves
      cases retrieved
    · intro lists
      obtain ⟨_, _, _, _, same, _⟩ := lists
      cases same
  | ok response =>
    rw [← readAssignments_ok, retrieve_result]
    cases (readAssignments response).2 <;> simp

/-- The guard changes no policy. -/
theorem guard_always (force : Bool) (service : Service) :
    (guardUnlessForced force service).Always fun event => ¬ event.AddsPolicy := by
  unfold guardUnlessForced
  split
  · exact Run.always_pure _ _
  -- Both the check and the report are events of their own kind.
  · refine Run.always_bind ?_ fun applied _ => ?_
    · refine Run.always_bind (Run.always_emit id) fun _ _ => ?_
      refine Run.always_bind (Run.always_attempt _ id) fun result _ => ?_
      cases nothingManaged result with
      | ok unmanaged => exact Run.always_pure _ _
      | error fault => exact Run.always_bind (Run.always_emit id) fun _ _ => Run.always_pure _ _
    · split
      · exact Run.always_emit id
      · exact Run.always_pure _ _

/-- A guard that finds the policies applied reports it and lets the run go on. -/
theorem guard_result {service : Service}
    (guarded : (alreadyApplied service.explain).result = some true) :
    (guardUnlessForced false service).result = some () := by
  rw [guardUnlessForced, if_neg (by decide), Run.bind_of_some guarded]
  rfl

/-- Assignments are applied with at least one request for a policy, if there are any. -/
theorem applyAssignments_adds (service : Service) {assignments : Dict String Json}
    (nonempty : assignments ≠ []) :
    ∃ event ∈ (applyAssignments service assignments).events, event.AddsPolicy := by
  cases assignments with
  | nil => exact absurd rfl nonempty
  | cons item rest =>
    -- The first round begins with its request.
    refine ⟨.addPolicy item.1 item.2 (service.addPolicy item.1), ?_, trivial⟩
    exact Run.mem_bind_left (Run.mem_bind_left (Run.mem_bind_left (by simp)))

/--
A run that finds the policies applied leaves the indices alone exactly when none are listed.

The guard only reports what it has found.
-/
theorem guarded_run_iff (service : Service)
    (guarded : (alreadyApplied service.explain).result = some true) :
    ((main false service).Always fun event => ¬ event.AddsPolicy) ↔
      ¬ ListsIndices service.clusterState := by
  -- The run goes on after the report, so what is retrieved decides.
  rw [← retrieve_nonempty_iff]
  constructor
  · intro untouched retrieves
    obtain ⟨assignments, retrieved, nonempty⟩ := retrieves
    obtain ⟨event, member, adds⟩ := applyAssignments_adds service nonempty
    exact untouched event
      (Run.mem_bind_right (guard_result guarded) (Run.mem_bind_right retrieved member)) adds
  · intro nothing
    refine Run.always_bind (guard_always false service) fun _ _ => ?_
    refine Run.always_bind (retrieve_always service.clusterState) fun assignments retrieved => ?_
    -- What is not listed is not retrieved, and no round of the loop takes place.
    have empty : assignments = [] := by
      by_contra nonempty
      exact nothing ⟨assignments, retrieved, nonempty⟩
    subst empty
    exact Run.always_emit id

/-- A service with managed indices whose cluster state lists the given ones. -/
def managedService (indices : List (String × Json)) : Service where
  explain := .ok { status := 200, body := some (.obj [("total_managed_indices", .num 1)]) }
  clusterState := .ok {
    status := 200
    body := some (.obj [("metadata", .obj [("indices", .obj indices)])]) }
  addPolicy := fun _ => .ok { status := 200, body := none }

/-- The guard finds the policies of such a service applied. -/
theorem managedService_guarded (indices : List (String × Json)) :
    (alreadyApplied (managedService indices).explain).result = some true := rfl

/-- The assignment of one policy as the cluster state lists it. -/
def logsIndex : String × Json :=
  ("logs", .obj [("managed_index_metadata", .obj [("policy_id", .str "rollover")])])

/-- An index that the cluster state lists without an object. -/
def oddIndex : String × Json := ("odd", .null)

/-- The guarded run leaves the indices alone where one of them cannot be read. -/
theorem guarded_run_oddIndex :
    (main false (managedService [logsIndex, oddIndex])).Always fun event => ¬ event.AddsPolicy := by
  refine (guarded_run_iff _ (managedService_guarded [logsIndex, oddIndex])).mpr ?_
  rw [← retrieve_nonempty_iff]
  intro retrieves
  obtain ⟨assignments, retrieved, nonempty⟩ := retrieves
  -- The exception at the second index is caught, and the assignment of the first one is lost.
  have none : (retrieveAssignmentsFromClusterMetadata
      (managedService [logsIndex, oddIndex]).clusterState).result = some [] := rfl
  rw [none, Option.some.injEq] at retrieved
  exact nonempty retrieved.symm

/-- The guard finds the policies applied, and the run applies a policy all the same. -/
theorem guarded_run_counterexample :
    (alreadyApplied (managedService [logsIndex]).explain).result = some true ∧
      ¬ (main false (managedService [logsIndex])).Always fun event => ¬ event.AddsPolicy := by
  refine ⟨managedService_guarded _, fun untouched => ?_⟩
  -- The report is followed by the request for the listed index.
  have events : (main false (managedService [logsIndex])).events =
      [.explain, .alreadyApplied, .clusterState,
        .addPolicy "logs" (.str "rollover") (.ok { status := 200, body := none }),
        .summary [(.str "rollover", 1)] []] := rfl
  have posted : Event.addPolicy "logs" (.str "rollover") (.ok { status := 200, body := none }) ∈
      (main false (managedService [logsIndex])).events := by simp [events]
  exact untouched _ posted trivial

end AivenExamples.ReapplyIsm
