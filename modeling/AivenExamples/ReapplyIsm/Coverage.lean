import AivenExamples.ReapplyIsm.Guard

/-! Which indices a run re-applies policies to, and how it accounts for them. -/

namespace AivenExamples.ReapplyIsm

/-- The index and the policy id that a request names. -/
def Event.post? : Event → Option (String × Json)
  | .addPolicy index policyId _ => some (index, policyId)
  | _ => none

/-- The requests of a run, in order. -/
def posts (run : Run Event Unit) : List (String × Json) := run.events.filterMap Event.post?

/-- The assignment of an index whose policy could be determined. -/
def determined (item : String × Json) : Option (String × Json) :=
  match policyIdOf item.2 with
  | .ok policyId => if policyId.truthy then some (item.1, policyId) else none
  | .error _ => none

/-- The count that a dictionary has for a policy. -/
def countOf (counts : PolicyCounts) (policyId : Json) : Nat :=
  match counts.find? fun entry => policyId.pyEq entry.1 with
  | some entry => entry.2
  | none => 0

/--
A run covers the indices.

It makes one request for each index with a determined policy, in order and with the policy of the
index, and none besides. Its summary accounts for every request, policy by policy.
-/
structure Covers (run : Run Event Unit) (indices : List (String × Json)) : Prop where
  requests : posts run = indices.filterMap determined
  accounts : ∃ applied failed, run.events.getLast? = some (.summary applied failed) ∧
    ∀ policyId, countOf applied policyId + countOf failed policyId =
      (posts run).countP fun post => policyId.pyEq post.2

/-- The representative of the values that equal a value without parts. -/
def atom : Json → Json
  | .bool value => .num (if value then 1 else 0)
  | value => value

/-- Values equal a value without parts when they have the same representative. -/
theorem pyEq_iff_atom {value key : Json} (plain : hashable key = true) :
    value.pyEq key = true ↔ atom value = atom key := by
  -- Booleans are numbers, and nothing else mixes.
  cases key with
  | arr items => cases plain
  | obj fields => cases plain
  | num right =>
    cases value with
    | bool left =>
      simp only [Json.pyEq, atom, beq_iff_eq, Json.num.injEq]
      exact eq_comm
    | _ => simp [Json.pyEq, atom]
  | bool right => cases value <;> cases right <;> simp [Json.pyEq, atom]
  | _ => cases value <;> simp [Json.pyEq, atom]

/-- All keys of a dictionary of counts can be keys. -/
def Hashed (counts : PolicyCounts) : Prop := ∀ entry ∈ counts, hashable entry.1 = true

/-- Counting a policy keeps the keys. -/
theorem hashed_increment {policyId : Json} {counts : PolicyCounts} (hashed : Hashed counts)
    (plain : hashable policyId = true) : Hashed (increment policyId counts) := by
  induction counts with
  | nil => simpa [Hashed, increment] using plain
  | cons entry counts ih =>
    obtain ⟨key, count⟩ := entry
    have rest := ih fun other member => hashed other (List.mem_cons_of_mem _ member)
    have head : hashable key = true := hashed (key, count) (by simp)
    -- The entry of the policy is counted up, or a new one comes last.
    unfold increment
    split
    · intro other member
      rcases List.mem_cons.mp member with here | later
      · exact here ▸ head
      · exact hashed other (List.mem_cons_of_mem _ later)
    · intro other member
      rcases List.mem_cons.mp member with here | later
      · exact here ▸ head
      · exact rest other later

/-- Counting a policy adds one for the policies that equal it. -/
theorem countOf_increment {policyId : Json} {counts : PolicyCounts} (hashed : Hashed counts)
    (plain : hashable policyId = true) (other : Json) :
    countOf (increment policyId counts) other =
      countOf counts other + if other.pyEq policyId then 1 else 0 := by
  induction counts with
  | nil =>
    by_cases same : other.pyEq policyId = true <;> simp [increment, countOf, same]
  | cons entry counts ih =>
    obtain ⟨key, count⟩ := entry
    have keyPlain : hashable key = true := hashed (key, count) (by simp)
    have rest := ih fun entry member => hashed entry (List.mem_cons_of_mem _ member)
    -- The entry is the one that counts the policy, or the search goes on behind it.
    by_cases counted : policyId.pyEq key = true
    · have alike : other.pyEq key = other.pyEq policyId := by
        rw [Bool.eq_iff_iff, pyEq_iff_atom keyPlain, pyEq_iff_atom plain,
          (pyEq_iff_atom keyPlain).mp counted]
      by_cases asked : other.pyEq policyId = true
      · simp [increment, countOf, counted, alike, asked]
      · simp [increment, countOf, counted, alike, asked]
    · by_cases asked : other.pyEq key = true
      · have apart : ¬ other.pyEq policyId = true := by
          rw [pyEq_iff_atom plain]
          intro same
          exact counted ((pyEq_iff_atom keyPlain).mpr
            (same.symm.trans ((pyEq_iff_atom keyPlain).mp asked)))
        simp [increment, countOf, counted, asked, apart]
      · simp only [countOf] at rest
        simpa [increment, countOf, counted, asked] using rest

/-- A round makes its request, and counts it if the policy id can be a key. -/
theorem reapply_eq (service : Service) (applied failed : PolicyCounts) (index : String)
    (policyId : Json) :
    reapply service (applied, failed) (index, policyId) =
      if hashable policyId then
        { events := [.addPolicy index policyId (service.addPolicy index)]
          result := some (if (service.addPolicy index).accepted
            then (increment policyId applied, failed) else (applied, increment policyId failed)) }
      else
        { events := [.addPolicy index policyId (service.addPolicy index), .uncaught]
          result := none } := by
  simp only [reapply]
  rw [Run.bind_of_some (Run.result_emit _)]
  -- A policy id that cannot be a key raises twice, and the second time nothing catches it.
  cases plain : hashable policyId with
  | true =>
    cases reply : service.addPolicy index with
    | error fault =>
      simp [addPolicy, Reply.accepted, bind, Except.bind, countPolicy, plain, Run.andThen,
        Run.attempt, pure]
    | ok response =>
      cases accepted : response.ok <;>
        simp [addPolicy, Reply.accepted, accepted, bind, Except.bind, countPolicy, plain,
          Run.andThen, Run.attempt, pure]
  | false =>
    cases reply : service.addPolicy index with
    | error fault =>
      simp [addPolicy, bind, Except.bind, countPolicy, plain, Run.andThen, Run.attempt]
    | ok response =>
      cases accepted : response.ok <;>
        simp [addPolicy, accepted, bind, Except.bind, countPolicy, plain, Run.andThen, Run.attempt]

/-- The request for an assignment as it can be observed. -/
def request (service : Service) (item : String × Json) : Event :=
  .addPolicy item.1 item.2 (service.addPolicy item.1)

/-- The loop makes a request for every assignment, and counts each of them under its policy. -/
theorem fold_reapply (service : Service) {assignments : Dict String Json}
    (plain : ∀ item ∈ assignments, hashable item.2 = true) {applied failed : PolicyCounts}
    (appliedHashed : Hashed applied) (failedHashed : Hashed failed) :
    ∃ newApplied newFailed,
      Run.fold (reapply service) (applied, failed) assignments =
        { events := assignments.map (request service), result := some (newApplied, newFailed) } ∧
      ∀ policyId, countOf newApplied policyId + countOf newFailed policyId =
        countOf applied policyId + countOf failed policyId +
          assignments.countP fun post => policyId.pyEq post.2 := by
  -- The counts vary along the loop, so they stay quantified over.
  induction assignments generalizing applied failed with
  | nil => exact ⟨applied, failed, rfl, fun policyId => rfl⟩
  | cons item assignments ih =>
    obtain ⟨index, policyId⟩ := item
    have head : hashable policyId = true := plain (index, policyId) (by simp)
    have tail : ∀ item ∈ assignments, hashable item.2 = true :=
      fun other member => plain other (List.mem_cons_of_mem _ member)
    have round := reapply_eq service applied failed index policyId
    rw [if_pos head] at round
    -- The round counts its policy in one of the two dictionaries.
    cases accepted : (service.addPolicy index).accepted with
    | true =>
      simp only [accepted, if_true] at round
      obtain ⟨newApplied, newFailed, rest, counts⟩ :=
        ih tail (hashed_increment appliedHashed head) failedHashed
      refine ⟨newApplied, newFailed, ?_, fun other => ?_⟩
      · rw [Run.fold, round, Run.bind_of_some rfl, rest]
        rfl
      · simp only [counts, countOf_increment appliedHashed head, List.countP_cons]
        omega
    | false =>
      simp only [accepted, Bool.false_eq_true, if_false] at round
      obtain ⟨newApplied, newFailed, rest, counts⟩ :=
        ih tail appliedHashed (hashed_increment failedHashed head)
      refine ⟨newApplied, newFailed, ?_, fun other => ?_⟩
      · rw [Run.fold, round, Run.bind_of_some rfl, rest]
        rfl
      · simp only [counts, countOf_increment failedHashed head, List.countP_cons]
        omega

/-- A policy id that cannot be a key ends the loop with an exception. -/
theorem fold_reapply_ended (service : Service) {assignments : Dict String Json}
    (odd : ∃ item ∈ assignments, hashable item.2 = false) (counts : PolicyCounts × PolicyCounts) :
    (Run.fold (reapply service) counts assignments).result = none ∧
      (Run.fold (reapply service) counts assignments).events.getLast? = some .uncaught := by
  induction assignments generalizing counts with
  | nil =>
    obtain ⟨_, member, _⟩ := odd
    cases member
  | cons item assignments ih =>
    obtain ⟨index, policyId⟩ := item
    obtain ⟨applied, failed⟩ := counts
    have round := reapply_eq service applied failed index policyId
    cases plain : hashable policyId with
    | false =>
      rw [plain, if_neg (by decide)] at round
      rw [Run.fold, round, Run.bind_of_none rfl]
      exact ⟨rfl, rfl⟩
    | true =>
      rw [plain, if_pos rfl] at round
      -- The exception is raised in a later round.
      have later : ∃ item ∈ assignments, hashable item.2 = false := by
        obtain ⟨other, member, raises⟩ := odd
        rcases List.mem_cons.mp member with here | there
        · rw [here, plain] at raises
          cases raises
        · exact ⟨other, there, raises⟩
      obtain ⟨ended, last⟩ := ih later _
      rw [Run.fold, round, Run.bind_of_some rfl]
      refine ⟨ended, ?_⟩
      simp only [List.getLast?_append, last, Option.some_or]

/-- The policy id of an index; an unreadable one counts as missing. -/
def policyOf (policy : Json) : Json :=
  match policyIdOf policy with
  | .ok policyId => policyId
  | .error _ => .null

/-- A readable policy id is the one of the index. -/
theorem policyOf_eq {policy policyId : Json} (found : policyIdOf policy = .ok policyId) :
    policyOf policy = policyId := by
  simp [policyOf, found]

/-- Every index is collected with its own policy id, in order. -/
theorem collectAssignments_eq {indices : List (String × Json)} {assignments : Dict String Json}
    (distinct : (Dict.keys assignments ++ Dict.keys indices).Nodup)
    (readable : ∀ item ∈ indices, ∃ policyId, policyIdOf item.2 = .ok policyId) :
    (collectAssignments assignments indices).2 =
      .ok (assignments ++ indices.map fun item => (item.1, policyOf item.2)) := by
  -- The collected assignments grow along the loop, so they stay quantified over.
  induction indices generalizing assignments with
  | nil => simp [collectAssignments]
  | cons item indices ih =>
    obtain ⟨index, policy⟩ := item
    obtain ⟨policyId, found⟩ := readable (index, policy) (by simp)
    rw [Dict.keys_cons] at distinct
    have absent : index ∉ Dict.keys assignments := fun member =>
      (List.nodup_append.mp distinct).2.2 index member index (by simp) rfl
    have grown : Dict.keys (assignments ++ [(index, policyId)]) ++ Dict.keys indices =
        Dict.keys assignments ++ index :: Dict.keys indices := by simp [Dict.keys]
    have rest := ih (grown ▸ distinct) fun other member =>
      readable other (List.mem_cons_of_mem _ member)
    simp only at found
    simp only [collectAssignments, found, Dict.set_of_not_mem absent, rest, List.map_cons,
      policyOf_eq found, List.append_assoc, List.cons_append, List.nil_append]

/-- A run gets to the loop that applies the policies of the listed indices. -/
structure ReachesLoop (force : Bool) (service : Service) (indices : List (String × Json)) :
    Prop where
  guarded : (guardUnlessForced force service).result = some ()
  listed : ∃ response, service.clusterState = .ok response ∧ response.status = 200 ∧
    listedIndices response = .ok indices
  readable : ∀ item ∈ indices, ∃ policyId, policyIdOf item.2 = .ok policyId
  nonempty : indices ≠ []

/-- Requests for policies are what `post?` finds. -/
theorem posts_eq_nil {events : List Event} (none : ∀ event ∈ events, ¬ event.AddsPolicy) :
    events.filterMap Event.post? = [] := by
  -- An event of any other kind is dropped by `post?`.
  refine List.filterMap_eq_nil_iff.mpr fun event member => ?_
  cases event with
  | addPolicy => exact absurd trivial (none _ member)
  | _ => rfl

/-- A run that gets to the loop assigns to every index its own policy id. -/
theorem ReachesLoop.retrieved {force : Bool} {service : Service} {indices : List (String × Json)}
    (reaches : ReachesLoop force service indices) (distinct : (Dict.keys indices).Nodup) :
    (retrieveAssignmentsFromClusterMetadata service.clusterState).result =
      some (indices.map fun item => (item.1, policyOf item.2)) := by
  -- The metadata is read index by index, and all of it is readable.
  obtain ⟨response, answered, successful, listed⟩ := reaches.listed
  have collected := collectAssignments_eq (by simpa using distinct : (Dict.keys
    ([] : Dict String Json) ++ Dict.keys indices).Nodup) reaches.readable
  rw [answered, retrieve_result]
  simp only [readAssignments, successful, ne_eq, not_true_eq_false, if_false, listed, collected,
    List.nil_append]

/-- The requests and the last event of such a run are those of the loop and what follows it. -/
theorem ReachesLoop.main_eq {force : Bool} {service : Service} {indices : List (String × Json)}
    (reaches : ReachesLoop force service indices) (distinct : (Dict.keys indices).Nodup) :
    ∃ before, (∀ event ∈ before, ¬ event.AddsPolicy) ∧
      (main force service).events = before ++
        (Run.fold (reapply service) ([], []) (indices.map fun item => (item.1, policyOf item.2)) >>=
          fun counts => Run.emit (.summary counts.1 counts.2)).events := by
  have retrieved := reaches.retrieved distinct
  refine ⟨(guardUnlessForced force service).events ++
    (retrieveAssignmentsFromClusterMetadata service.clusterState).events, ?_, ?_⟩
  · intro event member
    exact (List.mem_append.mp member).elim (guard_always force service event)
      (retrieve_always service.clusterState event)
  · -- There are assignments, so the loop is entered.
    have some : (indices.map fun item => (item.1, policyOf item.2)).isEmpty = false := by
      simpa using reaches.nonempty
    rw [main, Run.events_bind reaches.guarded, Run.events_bind retrieved, List.append_assoc,
      applyAssignments, some, if_neg (by decide)]

/-- A policy id that cannot be a key leaves the run without a summary. -/
theorem ReachesLoop.uncovered {force : Bool} {service : Service} {indices : List (String × Json)}
    (reaches : ReachesLoop force service indices) (distinct : (Dict.keys indices).Nodup)
    (odd : ∃ item ∈ indices.map fun item => (item.1, policyOf item.2), hashable item.2 = false) :
    ¬ Covers (main force service) indices := by
  -- The loop ends with the exception, and the summary comes behind the loop.
  intro covers
  obtain ⟨before, _, events⟩ := reaches.main_eq distinct
  obtain ⟨ended, last⟩ := fold_reapply_ended service odd ([], [])
  obtain ⟨applied, failed, summary, _⟩ := covers.accounts
  rw [events, Run.bind_of_none ended, List.getLast?_append, last] at summary
  cases summary

/-- Otherwise the run makes a request for every index and counts each of them. -/
theorem ReachesLoop.accounted {force : Bool} {service : Service} {indices : List (String × Json)}
    (reaches : ReachesLoop force service indices) (distinct : (Dict.keys indices).Nodup)
    (plain : ∀ item ∈ indices.map fun item => (item.1, policyOf item.2),
      hashable item.2 = true) :
    posts (main force service) = indices.map (fun item => (item.1, policyOf item.2)) ∧
      ∃ applied failed, (main force service).events.getLast? = some (.summary applied failed) ∧
        ∀ policyId, countOf applied policyId + countOf failed policyId =
          (indices.map fun item => (item.1, policyOf item.2)).countP
            fun post => policyId.pyEq post.2 := by
  obtain ⟨before, quiet, events⟩ := reaches.main_eq distinct
  have nothing : Hashed [] := by simp [Hashed]
  obtain ⟨applied, failed, loop, counts⟩ := fold_reapply service plain nothing nothing
  rw [loop, Run.bind_of_some rfl] at events
  refine ⟨?_, applied, failed, ?_, fun policyId => ?_⟩
  · -- Only the requests of the loop are requests for policies.
    rw [posts, events, List.filterMap_append, posts_eq_nil quiet, List.nil_append,
      List.filterMap_append, List.filterMap_map]
    simp [request, Event.post?, Function.comp_def]
  · rw [events]
    simp
  · rw [counts]
    simp [countOf]

/--
A run that gets to the loop covers the indices exactly when each of them has a policy id.

The id has to be a true value, and one that can be the key of a dictionary, as texts are.
-/
theorem covers_iff {force : Bool} {service : Service} {indices : List (String × Json)}
    (reaches : ReachesLoop force service indices) (distinct : (Dict.keys indices).Nodup) :
    Covers (main force service) indices ↔ ∀ item ∈ indices, ∃ policyId,
      policyIdOf item.2 = .ok policyId ∧ policyId.truthy = true ∧ hashable policyId = true := by
  by_cases odd : ∃ item ∈ indices.map fun item => (item.1, policyOf item.2), hashable item.2 = false
  · -- The loop has ended with an exception.
    refine iff_of_false (reaches.uncovered distinct odd) fun every => ?_
    obtain ⟨item, member, raises⟩ := odd
    obtain ⟨listed, inIndices, same⟩ := List.mem_map.mp member
    obtain ⟨policyId, found, _, plain⟩ := every listed inIndices
    subst same
    rw [policyOf_eq found, plain] at raises
    cases raises
  · have plain : ∀ item ∈ indices.map fun item => (item.1, policyOf item.2),
        hashable item.2 = true := by
      intro item member
      by_contra raises
      exact odd ⟨item, member, by simpa using raises⟩
    obtain ⟨requests, applied, failed, summary, counts⟩ := reaches.accounted distinct plain
    constructor
    · intro covers item member
      obtain ⟨policyId, found⟩ := reaches.readable item member
      -- As many requests as indices leave no index without a determined policy.
      have lengths : (indices.filterMap determined).length = indices.length := by
        rw [← covers.requests, requests, List.length_map]
      have isSome := List.filterMap_length_eq_length.mp lengths item member
      have truthy : policyId.truthy = true := by
        by_contra untrue
        simp [determined, found, untrue] at isSome
      have hashes := plain (item.1, policyOf item.2) (List.mem_map_of_mem member)
      exact ⟨policyId, found, truthy, by simpa [policyOf_eq found] using hashes⟩
    · intro every
      refine ⟨?_, applied, failed, summary, fun policyId => by rw [requests, counts]⟩
      rw [requests, ← List.filterMap_eq_map]
      refine List.filterMap_congr fun item member => ?_
      obtain ⟨policyId, found, truthy, _⟩ := every item member
      simp [determined, found, truthy, policyOf_eq found]

/-- A forced run gets to the loop with the indices of the service. -/
theorem managedService_reaches {indices : List (String × Json)}
    (readable : ∀ item ∈ indices, ∃ policyId, policyIdOf item.2 = .ok policyId)
    (nonempty : indices ≠ []) : ReachesLoop true (managedService indices) indices where
  guarded := rfl
  listed := ⟨_, rfl, rfl, rfl⟩
  readable := readable
  nonempty := nonempty

/-- An index with a policy of its own. -/
def tracesIndex : String × Json :=
  ("traces", .obj [("managed_index_metadata", .obj [("policy_id", .str "delete")])])

/-- Both indices with a policy are covered. -/
theorem covers_logsAndTraces :
    Covers (main true (managedService [logsIndex, tracesIndex])) [logsIndex, tracesIndex] := by
  have found : ∀ item ∈ [logsIndex, tracesIndex], ∃ policyId,
      policyIdOf item.2 = .ok policyId ∧ policyId.truthy = true ∧ hashable policyId = true := by
    intro item member
    -- Both policy ids are texts.
    rcases List.mem_pair.mp member with rfl | rfl
    · exact ⟨.str "rollover", rfl, rfl, rfl⟩
    · exact ⟨.str "delete", rfl, rfl, rfl⟩
  refine (covers_iff (managedService_reaches (fun item member => ?_) (List.cons_ne_nil _ _))
    (by decide)).mpr found
  obtain ⟨policyId, read, -⟩ := found item member
  exact ⟨policyId, read⟩

/-- An index that the cluster state lists without a policy. -/
def metricsIndex : String × Json := ("metrics", .obj [])

/-- The index without a policy gets a request all the same, with no policy id in it. -/
theorem covers_counterexample :
    ReachesLoop true (managedService [metricsIndex]) [metricsIndex] ∧
      ¬ Covers (main true (managedService [metricsIndex])) [metricsIndex] := by
  refine ⟨managedService_reaches (by simpa using ⟨.null, rfl⟩) (List.cons_ne_nil _ _),
    fun covers => ?_⟩
  -- The request is made with `null` in place of a policy id.
  have posted : posts (main true (managedService [metricsIndex])) = [("metrics", .null)] := rfl
  have requests := covers.requests
  rw [posted] at requests
  cases requests

end AivenExamples.ReapplyIsm
