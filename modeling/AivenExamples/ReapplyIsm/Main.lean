import AivenExamples.Data.Http
import AivenExamples.Data.Run

/-! Re-applying the migrated ISM policies to the indices that the cluster state lists. -/

namespace AivenExamples.ReapplyIsm

/-- How many indices a policy was applied to, by the policy id as it was found. -/
abbrev PolicyCounts := List (Json × Nat)

/-- What can be observed of a run: its requests and what it reports. -/
inductive Event where
  | explain
  | clusterState
  | addPolicy (index : String) (policyId : Json) (reply : Reply)
  /-- `ERROR: Failed to check if policies are already applied` -/
  | failedToCheck
  /-- `ERROR: Policies appear to be already applied.` -/
  | alreadyApplied
  /-- `ERROR: failed to retrieve policy assignments …` -/
  | failedToRetrieve
  /-- `WARNING: Could not determine policy for …` -/
  | undetermined (index : String)
  /-- `Unable to re-apply policies …` -/
  | noAssignments
  /-- An exception that nothing catches. -/
  | uncaught
  | summary (applied failed : PolicyCounts)

/-- How the service behaves; every request occurs at most once in a run. -/
structure Service where
  explain : Reply
  clusterState : Reply
  addPolicy : String → Reply

/-- Whether the explain response says that no index is managed. -/
def nothingManaged (result : Response) : Except PyError Bool :=
  if result.status = 200 then do
    let data ← result.json
    let total ← data.item "total_managed_indices"
    return total.pyEq (.num 0)
  -- Any other status counts as if something were managed.
  else return false

/-- `already_applied`: true unless the response reliably says that nothing is managed. -/
def alreadyApplied (reply : Reply) : Run Event Bool := do
  Run.emit .explain
  let result ← Run.attempt reply .uncaught
  match nothingManaged result with
  | .ok unmanaged => return !unmanaged
  -- An answer that cannot be read counts as applied, to be on the safe side.
  | .error _ =>
    Run.emit .failedToCheck
    return true

/-- The policy id of one index; a missing one reads as `None`. -/
def policyIdOf (policy : Json) : Except PyError Json := do
  let managed ← policy.get "managed_index_metadata" (.obj [])
  managed.get "policy_id" .null

/-- The loop over the indices: the indices warned about, and the assignments or an exception. -/
def collectAssignments (assignments : Dict String Json) :
    List (String × Json) → List String × Except PyError (Dict String Json)
  | [] => ([], .ok assignments)
  | (index, policy) :: indices =>
    match policyIdOf policy with
    | .error fault => ([], .error fault)
    | .ok policyId =>
      let (warned, outcome) := collectAssignments (Dict.set assignments index policyId) indices
      -- An index without a policy id is warned about, and collected all the same.
      (if policyId.truthy then warned else index :: warned, outcome)

/-- The indices that the cluster state lists. -/
def listedIndices (result : Response) : Except PyError (List (String × Json)) := do
  let data ← result.json
  let metadata ← data.item "metadata"
  let indices ← metadata.item "indices"
  match indices with
  | .obj fields => return fields
  | _ => .error .attributeError

/-- The body of `retrieve_assignments_from_cluster_metadata` once there is a response. -/
def readAssignments (result : Response) : List String × Except PyError (Dict String Json) :=
  if result.status ≠ 200 then ([], .error .requestError)
  else
    match listedIndices result with
    | .error fault => ([], .error fault)
    | .ok indices => collectAssignments [] indices

/-- `retrieve_assignments_from_cluster_metadata`: no assignments when anything goes wrong. -/
def retrieveAssignmentsFromClusterMetadata (reply : Reply) : Run Event (Dict String Json) := do
  Run.emit .clusterState
  let result ← Run.attempt reply .uncaught
  -- Warnings are printed on the way, also when reading fails in the end.
  let (warned, outcome) := readAssignments result
  let _ ← Run.forEach (fun index => Run.emit (.undetermined index)) warned
  match outcome with
  | .ok assignments => return assignments
  | .error _ =>
    Run.emit .failedToRetrieve
    return []

/-- Only values without parts can be keys of a dictionary. -/
def hashable : Json → Bool
  | .arr _ => false
  | .obj _ => false
  | _ => true

/-- One more index for a policy. -/
def increment (policyId : Json) : PolicyCounts → PolicyCounts
  | [] => [(policyId, 1)]
  | (other, count) :: counts =>
    if policyId.pyEq other then (other, count + 1) :: counts
    else (other, count) :: increment policyId counts

/-- The counters are dictionaries, so counting an unhashable policy id raises. -/
def countPolicy (policyId : Json) (counts : PolicyCounts) : Except PyError PolicyCounts :=
  if hashable policyId then .ok (increment policyId counts) else .error .typeError

/-- `add_policy` followed by counting the success. -/
def addPolicy (reply : Reply) (policyId : Json) (applied : PolicyCounts) :
    Except PyError PolicyCounts := do
  let result ← reply
  if result.ok then countPolicy policyId applied else .error .requestError

/-- One round of the loop that re-applies the policies. -/
def reapply (service : Service) (counts : PolicyCounts × PolicyCounts) (item : String × Json) :
    Run Event (PolicyCounts × PolicyCounts) := do
  let (applied, failed) := counts
  let (index, policyId) := item
  Run.emit (.addPolicy index policyId (service.addPolicy index))
  match addPolicy (service.addPolicy index) policyId applied with
  | .ok applied => return (applied, failed)
  -- Only the request and its counting are guarded, the counting of failures is not.
  | .error _ =>
    let failed ← Run.attempt (countPolicy policyId failed) .uncaught
    return (applied, failed)

/-- The check that is made unless re-applying is forced. -/
def guardUnlessForced (force : Bool) (service : Service) : Run Event Unit := do
  if force then return ()
  else
    let applied ← alreadyApplied service.explain
    -- The report is all that the guard does about it.
    if applied then Run.emit .alreadyApplied else return ()

/-- Re-applying the retrieved assignments and reporting the result. -/
def applyAssignments (service : Service) (assignments : Dict String Json) : Run Event Unit := do
  if assignments.isEmpty then Run.emit .noAssignments
  else
    let (applied, failed) ← Run.fold (reapply service) ([], []) assignments
    Run.emit (.summary applied failed)

/-- `main` from the point where the connection test has passed. -/
def main (force : Bool) (service : Service) : Run Event Unit := do
  guardUnlessForced force service
  let assignments ← retrieveAssignmentsFromClusterMetadata service.clusterState
  applyAssignments service assignments

end AivenExamples.ReapplyIsm
