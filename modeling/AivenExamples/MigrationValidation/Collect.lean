import AivenExamples.Data.Fnmatch
import AivenExamples.Data.Json

/-! Collecting what a migration is validated by: aliases, ISM policy and document counts. -/

namespace AivenExamples.MigrationValidation

/-- Why a request fails; the helpers catch the exceptions of the Elasticsearch client. -/
inductive Fault where
  | elasticsearch (message : String)
  | other (message : String)

/-- The text of the exception. -/
def Fault.message : Fault → String
  | .elasticsearch message => message
  | .other message => message

/-- What becomes of a request: a parsed answer or an exception. -/
abbrev Reply := Except Fault Json

/--
How a cluster answers during one run of the script.

Every round of the two loops over the matching indices makes requests of its own, and any of them
may fail on its own.
-/
structure Cluster where
  indices : Except Fault (List String)
  aliases : Nat → Reply
  policy : Nat → Reply
  count : Nat → Reply
  count2 : Nat → Reply

/-- A caught exception counts as the given value, and any other one goes on. -/
def caught {α : Type} (reply : Except Fault α) (default : α) : Except PyError α :=
  match reply with
  | .ok answer => .ok answer
  | .error (.elasticsearch _) => .ok default
  | .error (.other message) => .error (.runtimeError message)

/-- `get_matching_indices`: an index occurs once for every pattern that it matches. -/
def getMatchingIndices (indices : Except Fault (List String)) (patterns : List String) :
    Except PyError (List String) := do
  let allIndices ← caught indices []
  return patterns.flatMap fun pattern => allIndices.filter fun index => fnmatch index pattern

/-- `stats["_all"]["primaries"]["docs"]["count"]` -/
def docCount (stats : Json) : Except PyError Json := do
  let all ← stats.item "_all"
  let primaries ← all.item "primaries"
  let docs ← primaries.item "docs"
  docs.item "count"

/-- `get_index_doc_count`: no count when the request fails. -/
def getIndexDocCount (reply : Reply) : Except PyError Json :=
  match reply with
  | .ok stats => docCount stats
  | .error fault => caught (.error fault) .null

/-- The policy id that the answer explains for an index, under the newer or the older name. -/
def policyId (index : String) (indexSettings : Json) : Except PyError Json := do
  let newer ← (← indexSettings.item index).get
    "index.plugins.index_state_management.policy_id" .null
  if newer.truthy then return newer
  let older ← (← indexSettings.item index).get
    "index.opendistro.index_state_management.policy_id" .null
  return if older.truthy then older else .null

/-- The text that stands for a policy that could not be retrieved. -/
def policyError (message : String) : Json := .str ("Error retrieving ISM policy ID: " ++ message)

/-- `get_ism_policy`: any exception becomes a text, by the text of the exception. -/
def getIsmPolicy (textOf : PyError → String) (index : String) (reply : Reply) : Json :=
  match reply with
  | .error fault => policyError fault.message
  | .ok indexSettings =>
    match policyId index indexSettings with
    | .ok id => id
    | .error fault => policyError (textOf fault)

/-- `aliases.get(index, {}).get("aliases", {})` -/
def aliasesOf (index : String) (aliases : Json) : Except PyError Json := do
  let entry ← aliases.get index (.obj [])
  entry.get "aliases" (.obj [])

/-- `get_aliases`: no aliases when the request fails. -/
def getAliases (index : String) (reply : Reply) : Except PyError Json :=
  match reply with
  | .ok aliases => aliasesOf index aliases
  | .error fault => caught (.error fault) .null

/-- What is known of an index, by field. -/
abbrev Record := Dict String Json

/-- `collect_index_info`, sorted by field. -/
def collectIndexInfo (textOf : PyError → String) (cluster : Cluster) (index : String)
    (round : Nat) : Except PyError Record := do
  let aliases ← getAliases index (cluster.aliases round)
  let count ← getIndexDocCount (cluster.count round)
  return [("aliases", aliases), ("document_count", count),
    ("ism_policy", getIsmPolicy textOf index (cluster.policy round))]

/-- The first pass: a later match of an index replaces its record. -/
def firstPass (textOf : PyError → String) (cluster : Cluster) (indexData : Dict String Record) :
    List (String × Nat) → Except PyError (Dict String Record)
  | [] => return indexData
  | (index, round) :: rounds => do
    let info ← collectIndexInfo textOf cluster index round
    firstPass textOf cluster (indexData.set index info) rounds

/-- `any(alias.get("is_write_index", False) for alias in …)` -/
def anyWriteIndex : List (String × Json) → Except PyError Bool
  | [] => return false
  | (_, entry) :: aliases => do
    let flag ← entry.get "is_write_index" (.bool false)
    if flag.truthy then return true else anyWriteIndex aliases

/-- Whether one of the aliases is a write alias; only a dictionary has values to go through. -/
def hasWriteAlias (aliases : Json) : Except PyError Bool :=
  match aliases with
  | .obj fields => anyWriteIndex fields
  | _ => .error .attributeError

/-- A field that is read back from a record. -/
def field (record : Record) (name : String) : Except PyError Json := (Json.obj record).item name

/-- One round of the second pass over the record of its index. -/
def completeRecord (record : Record) (reply : Reply) : Except PyError Record := do
  let count2 ← getIndexDocCount reply
  let record := record.set "document_count2" count2
  let count ← field record "document_count"
  let record := record.set "document_count_delta" (.bool (!count2.pyEq count))
  let aliases ← field record "aliases"
  let writeAlias ← hasWriteAlias aliases
  return record.set "has_write_alias" (.bool writeAlias)

/-- The second pass, which counts again and looks for write aliases. -/
def secondPass (cluster : Cluster) (indexData : Dict String Record) :
    List (String × Nat) → Except PyError (Dict String Record)
  | [] => return indexData
  | (index, round) :: rounds =>
    match Dict.get? indexData index with
    -- `index_data[index]` raises when the first pass has left no record.
    | none => .error (.keyError index)
    | some record => do
      let record ← completeRecord record (cluster.count2 round)
      secondPass cluster (indexData.set index record) rounds

/-- What the file says besides the indices. -/
structure Header where
  clusterUrl : String
  dataCollectedAt : String
  waitsec : String

/-- `dict(sorted(index_data.items()))` -/
def sorted (indexData : Dict String Record) : Dict String Record :=
  indexData.mergeSort fun first second => decide (first.1 ≤ second.1)

/-- The content of the file. -/
def outputData (header : Header) (indexData : Dict String Record) : Json :=
  .obj [("cluster_url", .str header.clusterUrl),
    ("data_collected_at", .str header.dataCollectedAt), ("waitsec", .str header.waitsec),
    ("indices", .obj ((sorted indexData).map fun item => (item.1, .obj item.2)))]

/-- The script from the patterns on: the file that it writes, unless an exception ends it. -/
def collect (textOf : PyError → String) (patterns : List String) (header : Header)
    (cluster : Cluster) : Except PyError Json := do
  let matchingIndices ← getMatchingIndices cluster.indices patterns
  let indexData ← firstPass textOf cluster [] matchingIndices.zipIdx
  let indexData ← secondPass cluster indexData matchingIndices.zipIdx
  return outputData header indexData

end AivenExamples.MigrationValidation
