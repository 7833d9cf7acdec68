import AivenExamples.MigrationValidation.Compare
import AivenExamples.MigrationValidation.Records

/-! When the collector writes a complete file, which the comparison never fails on. -/

namespace AivenExamples.MigrationValidation

/-- The fields of a complete record. -/
def recordFields : List String :=
  ["aliases", "ism_policy", "document_count", "document_count2", "document_count_delta",
    "has_write_alias"]

/-- A record that holds every field. -/
def HasFields (record : Json) : Prop := ∀ name ∈ recordFields, ∃ value, record.item name = .ok value

/-- A file with one record for each of the given indices and for no other, and each complete. -/
structure CompleteFile (expected : String → Prop) (indices : Dict String Json) (file : Json) :
    Prop where
  contents : file.get "indices" (.obj []) = .ok (.obj indices)
  distinct : (Dict.keys indices).Nodup
  keys : ∀ index, index ∈ Dict.keys indices ↔ expected index
  fields : ∀ item ∈ indices, HasFields item.2

/-- An answer to `get_alias`: aliases by name, each with its settings. -/
def AliasAnswer (index : String) (answer : Json) : Prop :=
  ∃ fields, answer = .obj fields ∧ ∀ entry, Dict.get? fields index = some entry →
    ∃ parts, entry = .obj parts ∧ ∀ aliases, Dict.get? parts "aliases" = some aliases →
      ∃ items, aliases = .obj items ∧ ∀ item ∈ items, ∃ settings, item.2 = .obj settings

/-- An answer to `stats`: it has a count of the documents. -/
def CountAnswer (answer : Json) : Prop :=
  ∃ fields all primaries docs count, answer = .obj fields ∧
    Dict.get? fields "_all" = some (.obj all) ∧
    Dict.get? all "primaries" = some (.obj primaries) ∧
    Dict.get? primaries "docs" = some (.obj docs) ∧ Dict.get? docs "count" = some count

/-- A request is answered in a shape, or fails with an exception of the client. -/
def Answered (shape : Json → Prop) : Reply → Prop
  | .ok answer => shape answer
  | .error (.elasticsearch _) => True
  | .error (.other _) => False

/-- The indices in the order of the rounds: once for every pattern that they match. -/
def matchingIndices (names patterns : List String) : List String :=
  patterns.flatMap fun pattern => names.filter fun index => fnmatch index pattern

/-- A cluster that lists its indices, and whose requests for an index may fail at any round. -/
structure Serves (cluster : Cluster) (names : List String) (matching : List String) : Prop where
  indices : cluster.indices = .ok names
  aliases : ∀ item ∈ matching.zipIdx, Answered (AliasAnswer item.1) (cluster.aliases item.2)
  count : ∀ item ∈ matching.zipIdx, Answered CountAnswer (cluster.count item.2)
  count2 : ∀ item ∈ matching.zipIdx, Answered CountAnswer (cluster.count2 item.2)

/-- The matching indices are the names that match a pattern. -/
theorem mem_matchingIndices {names patterns : List String} {index : String} :
    index ∈ matchingIndices names patterns ↔
      index ∈ names ∧ ∃ pattern ∈ patterns, fnmatch index pattern = true := by
  simp only [matchingIndices, List.mem_flatMap, List.mem_filter]
  grind

/-- A count is recorded whether the request is answered or fails. -/
theorem getIndexDocCount_answered {reply : Reply} (answered : Answered CountAnswer reply) :
    ∃ count, getIndexDocCount reply = .ok count := by
  -- A missing index gives no count, and an answer has all the keys on the way to it.
  rcases reply with ⟨_ | _⟩ | answer
  · exact ⟨.null, rfl⟩
  · exact absurd answered id
  · obtain ⟨fields, all, primaries, docs, count, same, hasAll, hasPrimaries, hasDocs, hasCount⟩ :=
      answered
    exact ⟨count, by simp [getIndexDocCount, docCount, same, Json.item, hasAll, hasPrimaries,
      hasDocs, hasCount, bind, Except.bind]⟩

/-- Going through dictionaries finds a write alias or none. -/
theorem anyWriteIndex_succeeds {items : List (String × Json)}
    (settings : ∀ item ∈ items, ∃ settings, item.2 = .obj settings) :
    ∃ writeAlias, anyWriteIndex items = .ok writeAlias := by
  induction items with
  | nil => exact ⟨false, rfl⟩
  | cons item items ih =>
    obtain ⟨name, entry⟩ := item
    obtain ⟨fields, same⟩ := settings (name, entry) List.mem_cons_self
    obtain ⟨writeAlias, rest⟩ :=
      ih fun other member => settings other (List.mem_cons_of_mem _ member)
    cases same
    -- The first alias ends the loop when its flag is set.
    by_cases truthy : ((Dict.get? fields "is_write_index").getD (.bool false)).truthy = true
    · exact ⟨true, by simp [anyWriteIndex, Json.get, truthy, bind, Except.bind, pure, Except.pure]⟩
    · exact ⟨writeAlias, by simp [anyWriteIndex, Json.get, truthy, bind, Except.bind, rest]⟩

/-- An answer to `get_alias` gives aliases that can be gone through. -/
theorem aliasesOf_answer {index : String} {answer : Json} (shape : AliasAnswer index answer) :
    ∃ aliases writeAlias, aliasesOf index answer = .ok aliases ∧
      hasWriteAlias aliases = .ok writeAlias := by
  obtain ⟨fields, same, entries⟩ := shape
  cases same
  -- Each key on the way may be absent, and the default has no aliases.
  cases hasEntry : Dict.get? fields index with
  | none => exact ⟨.obj [], false, by simp [aliasesOf, Json.get, hasEntry, bind, Except.bind], rfl⟩
  | some entry =>
    obtain ⟨parts, same, aliases⟩ := entries entry hasEntry
    cases same
    cases hasAliases : Dict.get? parts "aliases" with
    | none => exact ⟨.obj [], false, by
        simp [aliasesOf, Json.get, hasEntry, hasAliases, bind, Except.bind], rfl⟩
    | some found =>
      obtain ⟨items, same, settings⟩ := aliases found hasAliases
      cases same
      obtain ⟨writeAlias, looked⟩ := anyWriteIndex_succeeds settings
      exact ⟨.obj items, writeAlias, by
        simp [aliasesOf, Json.get, hasEntry, hasAliases, bind, Except.bind], looked⟩

/-- Aliases, or nothing, are recorded whether the request is answered or fails. -/
theorem getAliases_answered {index : String} {reply : Reply}
    (answered : Answered (AliasAnswer index) reply) :
    ∃ aliases, getAliases index reply = .ok aliases ∧
      ((∃ writeAlias, hasWriteAlias aliases = .ok writeAlias) ↔ ∃ answer, reply = .ok answer) := by
  -- Nothing is recorded for a failed request, and nothing cannot be gone through.
  rcases reply with ⟨_ | _⟩ | answer
  · exact ⟨.null, rfl, by simp [hasWriteAlias]⟩
  · exact absurd answered id
  · obtain ⟨aliases, writeAlias, read, looked⟩ := aliasesOf_answer answered
    exact ⟨aliases, read, by simp [looked]⟩

/-- The last round that visits an index is one of the rounds. -/
theorem lastRound_mem {index : String} {round : Nat} {rounds : List (String × Nat)}
    (last : lastRound index rounds = some round) : (index, round) ∈ rounds := by
  -- A later round of the index goes before the first one.
  induction rounds with
  | nil => cases last
  | cons item rounds ih =>
    obtain ⟨other, first⟩ := item
    cases later : lastRound index rounds with
    | some final =>
      have same : final = round := by simpa [lastRound, later] using last
      exact List.mem_cons_of_mem _ (ih (same ▸ later))
    | none =>
      rw [lastRound, later, Option.none_or, Option.ite_none_right_eq_some] at last
      obtain ⟨sameIndex, sameRound⟩ := last
      cases sameRound
      simp [sameIndex]

/-- The list of the matching indices is what the script computes from an answered listing. -/
theorem getMatchingIndices_ok (names patterns : List String) :
    getMatchingIndices (.ok names) patterns = .ok (matchingIndices names patterns) := rfl

/-- A complete record holds every field. -/
theorem hasFields_record (info : Info) : HasFields (.obj info.record) := by
  -- The fields of the record are read one by one.
  intro name member
  simp only [recordFields, List.mem_cons, List.not_mem_nil, or_false] at member
  rcases member with same | same | same | same | same | same <;> subst same <;>
    simp [Json.item, Info.record, Dict.get?_cons]

/-- A run that finishes writes a complete file. -/
theorem completeFile_of_finished {textOf : PyError → String} {cluster : Cluster}
    {matching : List String} {indexData : Dict String Record}
    (finished : Finished textOf cluster matching indexData) (header : Header) :
    CompleteFile (· ∈ matching) (fileIndices indexData) (outputData header indexData) where
  contents := get_outputData header indexData _
  distinct := (keys_fileIndices_perm indexData).symm.nodup finished.distinct
  keys := fun index => (keys_fileIndices_perm indexData).mem_iff.trans (finished.keys index)
  fields := by
    intro item member
    obtain ⟨index, value⟩ := item
    -- Every record of the file was completed in the last round of its index.
    have found := Dict.get?_of_mem
      ((keys_fileIndices_perm indexData).symm.nodup finished.distinct) member
    obtain ⟨_, info, _, _, same⟩ := (get?_fileIndices_eq_some finished).mp found
    exact same ▸ hasFields_record info

/-- So the file of every run is complete for the indices that match its patterns. -/
theorem completeFile_of_collect {textOf : PyError → String} {patterns : List String}
    {header : Header} {cluster : Cluster} {file : Json}
    (done : collect textOf patterns header cluster = .ok file) :
    ∃ matching indices, getMatchingIndices cluster.indices patterns = .ok matching ∧
      CompleteFile (· ∈ matching) indices file := by
  obtain ⟨matching, indexData, listed, finished, same⟩ := collect_eq_ok done
  exact ⟨matching, fileIndices indexData, listed, same ▸ completeFile_of_finished finished header⟩

/-- Two complete records have a severity. -/
theorem recordSeverity_succeeds {data1 data2 : Json} (fields1 : HasFields data1)
    (fields2 : HasFields data2) : ∃ severity, recordSeverity data1 data2 = .ok severity := by
  obtain ⟨first, firstRead⟩ := anyDiffers_succeeds ["has_write_alias", "ism_policy", "aliases"]
    (fun name member => fields1 name (by simp [recordFields] at *; tauto))
    (fun name member => fields2 name (by simp [recordFields] at *; tauto))
  obtain ⟨second, secondRead⟩ := anyDiffers_succeeds ["document_count", "document_count2"]
    (fun name member => fields1 name (by simp [recordFields] at *; tauto))
    (fun name member => fields2 name (by simp [recordFields] at *; tauto))
  -- The delta and the write alias are fields of the records too.
  obtain ⟨delta, deltaRead⟩ := fields1 "document_count_delta" (by decide)
  obtain ⟨writeAlias, writeAliasRead⟩ := fields1 "has_write_alias" (by decide)
  have counts : ∃ severity, countSeverity data1 = .ok severity := by
    by_cases truthy : delta.truthy = true <;>
      simp [countSeverity, deltaRead, writeAliasRead, truthy, bind, Except.bind, pure, Except.pure]
  obtain ⟨severity, counted⟩ := counts
  cases first <;> cases second <;>
    simp [recordSeverity, firstRead, secondRead, counted, bind, Except.bind, pure, Except.pure]

/-- The comparison never fails on two complete files. -/
theorem compareIndices_succeeds {expected1 expected2 : String → Prop}
    {indices1 indices2 : Dict String Json} {file1 file2 : Json}
    (complete1 : CompleteFile expected1 indices1 file1)
    (complete2 : CompleteFile expected2 indices2 file2) :
    ∃ comparison, compareIndices file1 file2 = .ok comparison := by
  have severities : ∀ item ∈ indices1, ∃ severity,
      severityOf file2 item.1 item.2 = .ok severity := by
    intro item member
    rw [severityOf_eq complete2.contents]
    cases found : Dict.get? indices2 item.1 with
    -- An index that the other file lacks reads as `None`.
    | none => exact ⟨5, by simp [Json.truthy]⟩
    | some data2 =>
      obtain ⟨severity, severe⟩ := recordSeverity_succeeds (complete1.fields item member)
        (complete2.fields (item.1, data2) (Dict.mem_of_get? found))
      cases truthy : data2.truthy with
      | true => exact ⟨severity, by simpa [truthy] using severe⟩
      | false => exact ⟨5, by simp [truthy]⟩
  obtain ⟨comparison, done⟩ := compareItems_succeeds severities .empty
  refine ⟨comparison, ?_⟩
  rw [compareIndices, complete1.contents]
  exact done

/-- A cluster that serves a list of indices lists those that match. -/
theorem Serves.listed {cluster : Cluster} {names patterns : List String}
    (serves : Serves cluster names (matchingIndices names patterns)) :
    getMatchingIndices cluster.indices patterns = .ok (matchingIndices names patterns) := by
  rw [serves.indices, getMatchingIndices_ok]

/-- A run that finishes has gone through the aliases of the last round of every index. -/
theorem Serves.answered {textOf : PyError → String} {patterns names : List String}
    {header : Header} {cluster : Cluster} {file : Json}
    (serves : Serves cluster names (matchingIndices names patterns))
    (done : collect textOf patterns header cluster = .ok file) {index : String} {round : Nat}
    (last : lastRound index (matchingIndices names patterns).zipIdx = some round) :
    ∃ answer, cluster.aliases round = .ok answer := by
  obtain ⟨matching, indexData, listed, finished, _⟩ := collect_eq_ok done
  cases serves.listed.symm.trans listed
  obtain ⟨info, known, _⟩ := finished.records index round last
  obtain ⟨aliases, recorded, looked⟩ := getAliases_answered (serves.aliases _ (lastRound_mem last))
  -- The aliases recorded in the last round are those that the second pass reads.
  cases recorded.symm.trans known.collects.aliases
  exact looked.mp ⟨info.writeAlias, known.completes.writeAlias⟩

/-- A run finishes when the last round of every index is answered about its aliases. -/
theorem Serves.collects (textOf : PyError → String) {patterns names : List String}
    (header : Header) {cluster : Cluster}
    (serves : Serves cluster names (matchingIndices names patterns))
    (retrieved : ∀ index round, lastRound index (matchingIndices names patterns).zipIdx =
      some round → ∃ answer, cluster.aliases round = .ok answer) :
    ∃ file, collect textOf patterns header cluster = .ok file := by
  refine collect_succeeds textOf header serves.listed ?_
    (fun item member => getIndexDocCount_answered (serves.count2 item member)) ?_
  · intro item member
    obtain ⟨aliases, aliasesRead, _⟩ := getAliases_answered (serves.aliases item member)
    obtain ⟨count, countRead⟩ := getIndexDocCount_answered (serves.count item member)
    exact ⟨⟨aliases, _, count, .null, false⟩, aliasesRead, rfl, countRead⟩
  · -- The second pass reads what the last round has recorded.
    intro index round last aliases read
    obtain ⟨recorded, recordedRead, looked⟩ :=
      getAliases_answered (serves.aliases _ (lastRound_mem last))
    cases read.symm.trans recordedRead
    exact looked.mpr (retrieved index round last)

/--
The collector writes a complete file when every index gets an answer about its aliases in the end.

Any other request for an index may fail: a failed count or policy is recorded, and so is a failed
request for aliases that a later match of the same index repeats.
-/
theorem complete_iff (textOf : PyError → String) {patterns names : List String} (header : Header)
    {cluster : Cluster} (serves : Serves cluster names (matchingIndices names patterns)) :
    (∃ file indices, collect textOf patterns header cluster = .ok file ∧
      CompleteFile (fun index => index ∈ names ∧ ∃ pattern ∈ patterns, fnmatch index pattern = true)
        indices file ∧
      ∀ otherPatterns otherHeader otherCluster other,
        collect textOf otherPatterns otherHeader otherCluster = .ok other →
          (∃ comparison, compareIndices file other = .ok comparison) ∧
            ∃ comparison, compareIndices other file = .ok comparison) ↔
    ∀ index round, lastRound index (matchingIndices names patterns).zipIdx = some round →
      ∃ answer, cluster.aliases round = .ok answer := by
  constructor
  · intro complete index round last
    obtain ⟨file, _, done, _⟩ := complete
    exact serves.answered done last
  · intro retrieved
    obtain ⟨file, done⟩ := serves.collects textOf header retrieved
    obtain ⟨matching, indices, listed, complete⟩ := completeFile_of_collect done
    cases serves.listed.symm.trans listed
    refine ⟨file, indices, done, ⟨complete.contents, complete.distinct,
      fun index => (complete.keys index).trans mem_matchingIndices, complete.fields⟩, ?_⟩
    -- Whatever other run there is, its file is complete for the indices that it matches.
    intro otherPatterns otherHeader otherCluster other otherDone
    obtain ⟨_, _, _, otherComplete⟩ := completeFile_of_collect otherDone
    exact ⟨compareIndices_succeeds complete otherComplete,
      compareIndices_succeeds otherComplete complete⟩

/-- An answer to `stats` with a count. -/
def countAnswer (count : Nat) : Json :=
  .obj [("_all", .obj [("primaries", .obj [("docs", .obj [("count", .num count)])])])]

/-- The answer to a count has all the keys on the way to it. -/
theorem countAnswer_shape (count : Nat) : CountAnswer (countAnswer count) :=
  ⟨_, _, _, _, .num count, rfl, rfl, rfl, rfl, rfl⟩

/-- A cluster with one index, which has no aliases and no policy. -/
def oneIndex (aliases : Nat → Reply) (count : Reply) : Cluster where
  indices := .ok ["logs"]
  aliases := aliases
  policy := fun _ => .ok (.obj [("logs", .obj [])])
  count := fun _ => count
  count2 := fun _ => .ok (countAnswer 3)

/-- A request that the client gives up. -/
def notFound : Reply := .error (.elasticsearch "NotFoundError(404)")

/-- An answer to `get_alias` for an index without aliases. -/
def noAliases : Json := .obj [("logs", .obj [("aliases", .obj [])])]

/-- It can be gone through. -/
theorem noAliases_shape : AliasAnswer "logs" noAliases := by
  -- Neither the entry nor its aliases have a field.
  refine ⟨_, rfl, fun entry hasEntry => ?_⟩
  cases hasEntry
  refine ⟨_, rfl, fun aliases hasAliases => ?_⟩
  cases hasAliases
  exact ⟨[], rfl, by simp⟩

/-- A failed request for aliases that the second of two overlapping patterns repeats. -/
theorem complete_repeated :
    ∃ file indices, collect (fun _ => "") ["logs", "l*"] ⟨"", "", ""⟩
        (oneIndex (fun round => if round = 0 then notFound else .ok noAliases) notFound) =
        .ok file ∧
      CompleteFile (fun index => index ∈ ["logs"] ∧
        ∃ pattern ∈ ["logs", "l*"], fnmatch index pattern = true) indices file ∧
      ∀ otherPatterns otherHeader otherCluster other,
        collect (fun _ => "") otherPatterns otherHeader otherCluster = .ok other →
          (∃ comparison, compareIndices file other = .ok comparison) ∧
            ∃ comparison, compareIndices other file = .ok comparison := by
  have visits : (matchingIndices ["logs"] ["logs", "l*"]).zipIdx = [("logs", 0), ("logs", 1)] := by
    decide
  refine (complete_iff _ _ ⟨rfl, ?_, ?_, ?_⟩).mpr ?_ <;> rw [visits]
  · intro item member
    rcases List.mem_pair.mp member with same | same <;> subst same
    · exact trivial
    · exact noAliases_shape
  · exact fun item _ => trivial
  · exact fun item _ => countAnswer_shape 3
  · -- The second round is the last one of the index, and its request is answered.
    intro index round last
    by_cases same : "logs" = index
    · have second : 1 = round := by simpa [lastRound, same] using last
      exact ⟨noAliases, by simp [oneIndex, ← second]⟩
    · simp [lastRound, same] at last

/-- One failed request for aliases ends the run without a file. -/
theorem complete_counterexample :
    Serves (oneIndex (fun _ => notFound) (.ok (countAnswer 3))) ["logs"]
      (matchingIndices ["logs"] ["*"]) ∧
    ¬ ∃ file, collect (fun _ => "") ["*"] ⟨"", "", ""⟩
      (oneIndex (fun _ => notFound) (.ok (countAnswer 3))) = .ok file := by
  refine ⟨⟨rfl, fun item _ => trivial, fun item _ => countAnswer_shape 3,
    fun item _ => countAnswer_shape 3⟩, ?_⟩
  intro finishes
  obtain ⟨file, done⟩ := finishes
  -- The second pass goes through the values of `None`.
  have ended : collect (fun _ => "") ["*"] ⟨"", "", ""⟩
      (oneIndex (fun _ => notFound) (.ok (countAnswer 3))) = .error .attributeError := by
    rfl
  cases ended.symm.trans done

end AivenExamples.MigrationValidation
